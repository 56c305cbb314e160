/-
  DirichletMixture: where text ends up.

  A stream leads to one terminal and to the files of all tees on the way; the package's
  logger leads to the files that are attached to it.  What is said reaches each of these
  places as often as something leads there, and no other place.

  * `Place` is a terminal or a file, and `World.textAt` the text that is there;
  * `Stream.places` are the places that a stream leads to, and `World.reach` those that
    anything leads to;
  * `textAt_put` and `textAt_foldl_append`: what a text for a stream and a line for files add;
  * `SameSetup` says that nothing leads elsewhere than before, and `sameSetup_perform`: what
    is said changes nothing of that;
  * `textAt_perform_of_notMem`: a place that nothing leads to stays as it is.
-/
import Mathlib.Data.List.Count
import DirichletMixture.RunLog.Program

namespace DirichletMixture

/-! ## Texts -/

/-- A text, several times over. -/
def repeated (n : Nat) (text : String) : String := String.join (List.replicate n text)

theorem repeated_zero (text : String) : repeated 0 text = "" := rfl

theorem repeated_one (text : String) : repeated 1 text = text := by
  rw [repeated, List.replicate_one, String.join_cons, String.join_nil, String.append_empty]

theorem repeated_add (m n : Nat) (text : String) :
    repeated (m + n) text = repeated m text ++ repeated n text := by
  rw [repeated, repeated, repeated, ← String.join_append, List.replicate_append_replicate]

/-! ## Files -/

namespace World

variable {file name text : String} {change : String → String} {w : World}

theorem lookup_changeFile_self (change : String → String) (file : String)
    (files : List (String × String)) :
    (changeFile change file files).lookup file =
      some (change ((files.lookup file).getD "")) := by
  induction files with
  | nil => simp [changeFile]
  | cons entry files ih =>
    obtain ⟨name, text⟩ := entry
    rw [changeFile]
    by_cases h : name = file
    · subst h
      simp
    · have hne : (file == name) = false := beq_false_of_ne (Ne.symm h)
      rw [if_neg h, List.lookup_cons, hne, ih, List.lookup_cons, hne]

theorem lookup_changeFile_of_ne (change : String → String) (h : name ≠ file)
    (files : List (String × String)) :
    (changeFile change file files).lookup name = files.lookup name := by
  induction files with
  | nil => simp [changeFile, beq_false_of_ne h]
  | cons entry files ih =>
    obtain ⟨name', text⟩ := entry
    rw [changeFile]
    by_cases hfile : name' = file
    · have hne : (name == name') = false := beq_false_of_ne (hfile ▸ h)
      rw [if_pos hfile, List.lookup_cons, hne, List.lookup_cons, hne]
    · rw [if_neg hfile, List.lookup_cons, List.lookup_cons, ih]

/-- The text of a file after that of some file was changed. -/
theorem text_changeFile (w : World) (change : String → String) (file name : String) :
    ({ w with files := changeFile change file w.files } : World).text name =
      if name = file then change (w.text file) else w.text name := by
  rw [text, text, text]
  by_cases h : name = file
  · subst h
    rw [lookup_changeFile_self, if_pos rfl, Option.getD_some]
  · rw [lookup_changeFile_of_ne change h, if_neg h]

end World

/-! ## Places -/

/-- A place where text ends up. -/
inductive Place where
  | terminal (t : Terminal)
  | file (name : String)
deriving DecidableEq, Repr

/-- The places that a stream leads to. -/
def Stream.places : Stream → List Place
  | terminal t => [.terminal t]
  | tee target file => .file file :: target.places

namespace World

/-- The text at a place. -/
def textAt (w : World) : Place → String
  | .terminal .out => w.out
  | .terminal .err => w.err
  | .file name => w.text name

/-- The places of the files that are attached to the logger. -/
def attached (w : World) : List Place := w.handlers.map .file

/-- The places that something that is said may reach. -/
def reach (w : World) : List Place := w.stdout.places ++ w.stderr.places ++ w.attached

theorem notMem_reach_iff {w : World} {q : Place} :
    q ∉ w.reach ↔ q ∉ w.stdout.places ∧ q ∉ w.stderr.places ∧ q ∉ w.attached := by
  rw [reach, List.mem_append, List.mem_append, not_or, not_or, and_assoc]

/-- The streams, the level of the logger and the files attached to it are the same. -/
structure SameSetup (w w' : World) : Prop where
  stdout : w'.stdout = w.stdout
  stderr : w'.stderr = w.stderr
  level : w'.level = w.level
  handlers : w'.handlers = w.handlers

variable {w w' w'' : World}

theorem SameSetup.refl (w : World) : SameSetup w w := ⟨rfl, rfl, rfl, rfl⟩

theorem SameSetup.trans (h : SameSetup w w') (h' : SameSetup w' w'') : SameSetup w w'' :=
  ⟨h'.stdout.trans h.stdout, h'.stderr.trans h.stderr, h'.level.trans h.level,
    h'.handlers.trans h.handlers⟩

theorem SameSetup.attached (h : SameSetup w w') : w'.attached = w.attached :=
  congrArg (List.map Place.file) h.handlers

theorem SameSetup.reach (h : SameSetup w w') : w'.reach = w.reach := by
  rw [World.reach, World.reach, h.stdout, h.stderr, h.attached]

/-! ## What a text adds -/

section
variable (w : World) (q : Place) (file text : String)

theorem textAt_append :
    (w.append file text).textAt q = w.textAt q ++ repeated ([Place.file file].count q) text := by
  cases q with
  | terminal t => cases t <;> simp [append, textAt, repeated_zero]
  | file name =>
    rw [textAt, append, text_changeFile]
    by_cases h : name = file
    · rw [if_pos h, h, List.count_singleton_self, repeated_one]
      rfl
    · have hcount : [Place.file file].count (.file name) = 0 :=
        List.count_eq_zero.2 fun hmem => h (Place.file.inj (List.mem_singleton.1 hmem))
      rw [if_neg h, hcount, repeated_zero, String.append_empty]
      rfl

theorem sameSetup_append : SameSetup w (w.append file text) := ⟨rfl, rfl, rfl, rfl⟩

end

theorem textAt_truncate (w : World) {q : Place} {file : String} (h : q ≠ .file file) :
    (w.truncate file).textAt q = w.textAt q := by
  cases q with
  | terminal t => cases t <;> rfl
  | file name =>
    rw [textAt, truncate, text_changeFile, if_neg fun heq => h (congrArg _ heq)]
    rfl

theorem text_truncate (w : World) (file : String) : (w.truncate file).text file = "" := by
  rw [truncate, text_changeFile, if_pos rfl]

/-- A tee passes a text on before it adds it to its file. -/
@[simp] theorem put_tee (target : Stream) (file text : String) (w : World) :
    (Stream.tee target file).put text w = (target.put text w).append file text := rfl

/-- **A text reaches every place as often as its stream leads there.** -/
theorem textAt_put (s : Stream) (text : String) (w : World) (q : Place) :
    (s.put text w).textAt q = w.textAt q ++ repeated (s.places.count q) text := by
  induction s with
  | terminal t =>
    cases q with
    | terminal t' =>
      cases t <;> cases t' <;>
        simp [Stream.put, Stream.write, Terminal.put, Stream.places, textAt, repeated_zero,
          repeated_one]
    | file name => cases t <;> simp [Stream.put, Stream.write, Terminal.put, Stream.places,
        textAt, World.text, repeated_zero]
  | tee target file ih =>
    rw [put_tee, textAt_append, ih, String.append_assoc, ← repeated_add, Stream.places,
      ← List.count_append, (List.perm_append_singleton _ _).count_eq]

theorem sameSetup_put (s : Stream) (text : String) (w : World) : SameSetup w (s.put text w) := by
  induction s with
  | terminal t => cases t <;> exact ⟨rfl, rfl, rfl, rfl⟩
  | tee target file ih => exact ih.trans (sameSetup_append _ _ _)

/-- **A line reaches every place as often as it is among the files.** -/
theorem textAt_foldl_append (files : List String) (line : String) (w : World) (q : Place) :
    (files.foldl (fun w file => w.append file line) w).textAt q =
      w.textAt q ++ repeated ((files.map Place.file).count q) line := by
  induction files generalizing w with
  | nil => rw [List.foldl_nil, List.map_nil, List.count_nil, repeated_zero, String.append_empty]
  | cons file files ih =>
    rw [List.foldl_cons, ih, textAt_append, String.append_assoc, ← repeated_add,
      ← List.count_append]
    rfl

theorem sameSetup_foldl_append (files : List String) (line : String) (w : World) :
    SameSetup w (files.foldl (fun w file => w.append file line) w) := by
  induction files generalizing w with
  | nil => exact .refl w
  | cons file files ih => exact (sameSetup_append w file line).trans (ih _)

/-! ## What is said -/

/-- What becomes of a record: it is a line for the files that it goes to, or a message, or it
    is dropped. -/
theorem log_cases (w : World) (r : Record) :
    w.log r = (w.destinations r).foldl (fun w file => w.append file r.line) w ∨
      w.log r = w.printMessage (r.text ++ "\n") ∨ w.log r = w := by
  rw [log]
  split
  · split
    · split
      · exact .inr (.inl rfl)
      · exact .inr (.inr rfl)
    · exact .inl rfl
  · exact .inr (.inr rfl)

theorem attached_of_mem_destinations {w : World} {r : Record} {q : Place}
    (h : q ∈ (w.destinations r).map Place.file) : q ∈ w.attached := by
  rw [destinations] at h
  split at h
  · exact h
  · cases h

theorem sameSetup_perform (u : Utterance) (w : World) : SameSetup w (u.perform w) := by
  cases u with
  | print text | message text => exact sameSetup_put _ _ w
  | record r =>
    rcases log_cases w r with h | h | h <;> rw [Utterance.perform, h]
    · exact sameSetup_foldl_append _ _ w
    · exact sameSetup_put _ _ w
    · exact .refl w

/-- A text for a stream that does not lead to a place adds nothing there. -/
theorem textAt_put_of_notMem {s : Stream} {q : Place} (h : q ∉ s.places) (text : String)
    (w : World) : (s.put text w).textAt q = w.textAt q := by
  rw [textAt_put, List.count_eq_zero.2 h, repeated_zero, String.append_empty]

/-- **A place that nothing leads to stays as it is.** -/
theorem textAt_perform_of_notMem {w : World} {q : Place} (h : q ∉ w.reach) (u : Utterance) :
    (u.perform w).textAt q = w.textAt q := by
  obtain ⟨hout, herr, hattached⟩ := notMem_reach_iff.1 h
  cases u with
  | print text => exact textAt_put_of_notMem hout text w
  | message text => exact textAt_put_of_notMem herr text w
  | record r =>
    rcases log_cases w r with h | h | h <;> rw [Utterance.perform, h]
    · rw [textAt_foldl_append, List.count_eq_zero.2 (mt attached_of_mem_destinations hattached),
        repeated_zero, String.append_empty]
    · exact textAt_put_of_notMem herr _ w

end World

end DirichletMixture
