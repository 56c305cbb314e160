/-
  DirichletMixture: run logs inside run logs.

  Inside a log both streams are one, which leads to the file of the log and to where the
  stream for ordinary output led before; and the records go to the same file.  What is set up
  on entering is what is put back on leaving, so at every depth the places that are reached
  are those of the logs around, and a log that was left is not reached any more.

  * `Said` is something that was said and the level of the logger then, `Said.heard` what a
    place hears of it, and `Said.line` what a log file holds of it;
  * `Program.said` is what a program says, and `Program.ending` how it ends;
  * `sameSetup_run`: a program leaves everything set up as it was;
  * `textAt_run`: what a place hears of a program inside a log, and
    `textAt_run_of_notMem`: a place that is not reached hears nothing;
  * `Program.visits` are the logs that a program enters, and
    `run_logs_leave_no_trace` says what each of them holds and leaves behind.
-/
import Mathlib.Data.List.Nodup
import DirichletMixture.Proofs.RunLog.Places

namespace DirichletMixture

open World

variable {ε : Type} {opens : RunLog → Except ε Unit}

/-! ## What is said -/

/-- Something that was said, and the level of the package's logger then. -/
structure Said where
  level : Level
  utterance : Utterance

namespace Said

/-- What it adds to a place that both streams lead to `n` times and the logger `m` times.  A
    record that was given to a logger outside the package is a message, if it is a warning at
    least. -/
def heard (n m : Nat) (s : Said) : String :=
  match s.utterance with
  | .print text | .message text => repeated n text
  | .record r =>
    if r.isPackage then if s.level ≤ r.level then repeated m r.line else ""
    else if Level.warning ≤ r.level then repeated n (r.text ++ "\n") else ""

/-- What a log file holds of it: the text, or the line of a record of the package whose level
    is high enough. -/
def line (s : Said) : String :=
  match s.utterance with
  | .print text | .message text => text
  | .record r =>
    if r.isPackage then if s.level ≤ r.level then r.line else ""
    else if Level.warning ≤ r.level then r.text ++ "\n" else ""

theorem heard_record (n m : Nat) (level : Level) (r : Record) :
    heard n m ⟨level, .record r⟩ =
      if r.isPackage then if level ≤ r.level then repeated m r.line else ""
      else if Level.warning ≤ r.level then repeated n (r.text ++ "\n") else "" := rfl

theorem heard_one_one (s : Said) : s.heard 1 1 = s.line := by
  obtain ⟨level, u⟩ := s
  cases u <;> simp only [heard, line, repeated_one]

end Said

namespace Program

/-- How the program ends, whatever the world is. -/
def ending (opens : RunLog → Except ε Unit) : Program ε → Except ε Unit
  | skip | say _ => .ok ()
  | fail e => .error e
  | andThen p q =>
    match ending opens p with
    | .ok () => ending opens q
    | .error e => .error e
  | inside l body =>
    match opens l with
    | .ok () => ending opens body
    | .error e => .error e
  | rescue p q =>
    match ending opens p with
    | .ok () => .ok ()
    | .error _ => ending opens q

/-- What the program says, in order, if the package's logger has a given level at first: a log
    sets its own. -/
def said (opens : RunLog → Except ε Unit) (level : Level) : Program ε → List Said
  | skip | fail _ => []
  | say u => [⟨level, u⟩]
  | andThen p q =>
    match ending opens p with
    | .ok () => said opens level p ++ said opens level q
    | .error _ => said opens level p
  | inside l body =>
    match opens l with
    | .ok () => said opens l.level body
    | .error _ => []
  | rescue p q =>
    match ending opens p with
    | .ok () => said opens level p
    | .error _ => said opens level p ++ said opens level q

/-- **No log keeps a failure to itself**: how a program ends does not depend on the logs. -/
theorem ending_run (p : Program ε) (w : World) : (p.run opens w).1 = p.ending opens := by
  fun_induction Program.run opens p w with
  | case1 w | case2 u w | case3 e w => rfl
  | case4 p q w w' h ihp ihq =>
    rw [h] at ihp
    rw [ihq, ending, ← ihp]
  | case5 p q w e w' h ihp =>
    rw [h] at ihp
    rw [ending, ← ihp]
  | case6 l body w h ih =>
    rw [ending, h]
    exact ih _
  | case7 l body w e h => rw [ending, h]
  | case8 p q w w' h ihp =>
    rw [h] at ihp
    rw [ending, ← ihp]
  | case9 p q w e w' h ihp ihq =>
    rw [h] at ihp
    rw [ihq, ending, ← ihp]

/-- Without logs, everything is said at the same level. -/
theorem level_of_mem_said {p : Program ε} {level : Level} (hlogs : p.logs = []) :
    ∀ s ∈ p.said opens level, s.level = level := by
  fun_induction said opens level p with
  | case1 level | case2 level e => simp
  | case3 level u => simp
  | case4 level p q h ihp ihq | case9 level p q e h ihp ihq =>
    obtain ⟨hp, hq⟩ := List.append_eq_nil_iff.1 hlogs
    exact List.forall_mem_append.2 ⟨ihp hp, ihq hq⟩
  | case5 level p q e h ihp | case8 level p q h ihp =>
    exact ihp (List.append_eq_nil_iff.1 hlogs).1
  | case6 level l body h ih | case7 level l body e h => cases hlogs

end Program

/-! ## One log -/

section
variable {l : RunLog} {w : World} {q : Place}

theorem textAt_leave (l : RunLog) (w : World) (q : Place) :
    (l.leave w).2.textAt q = w.textAt q := by
  obtain ⟨base, level, streams, attached⟩ := l
  cases streams <;> cases attached <;> rcases q with (_ | _) | _ <;> rfl

/-- What is added inside a log stays when it is left. -/
theorem textAt_during {γ : Type} (l : RunLog) (act : World → γ × World) (w : World) (q : Place) :
    (l.during act w).2.textAt q = (act (l.enter w).2).2.textAt q :=
  textAt_leave _ _ q

/-- **A log puts back what it has set up**, if nothing else is changed inside it. -/
theorem sameSetup_during {γ : Type} {act : World → γ × World}
    (h : SameSetup (l.enter w).2 (act (l.enter w).2).2) : SameSetup w (l.during act w).2 := by
  refine ⟨rfl, rfl, rfl, ?_⟩
  calc (l.during act w).2.handlers = (act (l.enter w).2).2.handlers.erase l.file := rfl
    _ = (l.file :: w.handlers).erase l.file := by rw [h.handlers]; rfl
    _ = w.handlers := List.erase_cons_head _ _

theorem textAt_enter (h : q ≠ .file l.file) : (l.enter w).2.textAt q = w.textAt q :=
  textAt_truncate w h

theorem text_enter (l : RunLog) (w : World) : (l.enter w).2.text l.file = "" :=
  text_truncate w l.file

theorem count_stdout_enter (h : q ≠ .file l.file) :
    (l.enter w).2.stdout.places.count q = w.stdout.places.count q :=
  List.count_cons_of_ne (Ne.symm h)

theorem count_attached_enter (h : q ≠ .file l.file) :
    (l.enter w).2.attached.count q = w.attached.count q :=
  List.count_cons_of_ne (Ne.symm h)

/-- A file that was not reached before is reached once by the streams and once by the logger. -/
theorem count_enter_self (h : .file l.file ∉ w.reach) :
    (l.enter w).2.stdout.places.count (.file l.file) = 1 ∧
      (l.enter w).2.attached.count (.file l.file) = 1 := by
  obtain ⟨hout, -, hattached⟩ := notMem_reach_iff.1 h
  have hstdout : (Stream.tee w.stdout l.file).places.count (.file l.file) = 0 + 1 :=
    List.count_eq_zero.2 hout ▸ List.count_cons_self
  have hlogger : (Place.file l.file :: w.attached).count (.file l.file) = 0 + 1 :=
    List.count_eq_zero.2 hattached ▸ List.count_cons_self
  exact ⟨hstdout, hlogger⟩

/-- On entering, nothing but the file of the log comes within reach. -/
theorem notMem_reach_enter (hq : q ∉ w.reach) (h : q ≠ .file l.file) :
    q ∉ (l.enter w).2.reach := by
  obtain ⟨hout, -, hattached⟩ := notMem_reach_iff.1 hq
  have htee : q ∉ (Stream.tee w.stdout l.file).places := List.not_mem_cons_of_ne_of_not_mem h hout
  have hfiles : q ∉ Place.file l.file :: w.attached :=
    List.not_mem_cons_of_ne_of_not_mem h hattached
  exact notMem_reach_iff.2 ⟨htee, htee, hfiles⟩

end

/-! ## Programs -/

namespace Program

variable {p : Program ε} {w w' : World} {q : Place}

/-- **A program leaves everything set up as it was**, however it ends. -/
theorem sameSetup_run (p : Program ε) (w : World) : SameSetup w (p.run opens w).2 := by
  fun_induction Program.run opens p w with
  | case1 w | case3 e w => exact .refl w
  | case2 u w => exact sameSetup_perform u w
  | case4 p q w w' h ihp ihq | case9 p q w e w' h ihp ihq =>
    rw [h] at ihp
    exact ihp.trans ihq
  | case5 p q w e w' h ihp | case8 p q w w' h ihp =>
    rw [h] at ihp
    exact ihp
  | case6 l body w h ih => exact sameSetup_during (ih _)
  | case7 l body w e h => exact .refl w

theorem ending_and_setup_of_run {r : Except ε Unit} (h : p.run opens w = (r, w')) :
    p.ending opens = r ∧ SameSetup w w' := by
  have hending : (p.run opens w).1 = p.ending opens := ending_run p w
  have hsetup : SameSetup w (p.run opens w).2 := sameSetup_run p w
  rw [h] at hending hsetup
  exact ⟨hending.symm, hsetup⟩

/-- **A place that is not reached hears nothing of a program**, unless it is the file of a log
    of the program. -/
theorem textAt_run_of_notMem (hq : q ∉ w.reach) (hfiles : ∀ l ∈ p.logs, q ≠ .file l.file) :
    (p.run opens w).2.textAt q = w.textAt q := by
  fun_induction Program.run opens p w with
  | case1 w | case3 e w | case7 l body w e h => rfl
  | case2 u w => exact textAt_perform_of_notMem hq u
  | case4 p₁ p₂ w w' h ih₁ ih₂ | case9 p₁ p₂ w e w' h ih₁ ih₂ =>
    obtain ⟨hfiles₁, hfiles₂⟩ := List.forall_mem_append.1 hfiles
    obtain ⟨-, hsetup⟩ := ending_and_setup_of_run h
    rw [h] at ih₁
    rw [ih₂ (hsetup.reach ▸ hq) hfiles₂, ih₁ hq hfiles₁]
  | case5 p₁ p₂ w e w' h ih₁ | case8 p₁ p₂ w w' h ih₁ =>
    rw [h] at ih₁
    exact ih₁ hq (List.forall_mem_append.1 hfiles).1
  | case6 l body w h ih =>
    obtain ⟨hl, hbody⟩ := List.forall_mem_cons.1 hfiles
    exact (textAt_during l _ w q).trans
      ((ih _ (notMem_reach_enter hq hl) hbody).trans (textAt_enter hl))

end Program

/-! ## Programs inside a log -/

/-- What holds inside a log: both streams are one, records go to some file, and the level of
    the logger is one at least. -/
structure World.Logging (w : World) : Prop where
  merged : w.stderr = w.stdout
  attached : w.handlers ≠ []
  level_pos : 1 ≤ w.level

section
variable {w w' : World} {q : Place}

theorem logging_enter {l : RunLog} (h : 1 ≤ l.level) (w : World) : (l.enter w).2.Logging :=
  ⟨rfl, List.cons_ne_nil _ _, h⟩

theorem World.Logging.of_sameSetup (h : w.Logging) (hsetup : SameSetup w w') : w'.Logging :=
  ⟨by rw [hsetup.stderr, hsetup.stdout, h.merged], hsetup.handlers ▸ h.attached,
    hsetup.level ▸ h.level_pos⟩

/-- A record of the package is kept from the level of the logger on. -/
theorem World.Logging.keeps_iff (h : w.Logging) (r : Record) :
    w.keeps r = true ↔ (if r.isPackage then w.level else Level.warning) ≤ r.level := by
  have hpositive : ∀ a b : Int, 1 ≤ a → (0 < b ∧ a ≤ b ↔ a ≤ b) := by omega
  have hthreshold : w.threshold = w.level :=
    if_neg fun hzero => absurd h.level_pos (by rw [hzero]; decide)
  rw [keeps, hthreshold, Bool.and_eq_true, decide_eq_true_iff, decide_eq_true_iff]
  split
  · exact hpositive _ _ h.level_pos
  · exact hpositive _ _ (by decide)

/-- What a record adds to a place. -/
theorem World.Logging.textAt_log (h : w.Logging) (r : Record) (q : Place) :
    (w.log r).textAt q =
      w.textAt q ++
        Said.heard (w.stdout.places.count q) (w.attached.count q) ⟨w.level, .record r⟩ := by
  have hkeeps := h.keeps_iff r
  rw [log, destinations, Said.heard_record]
  rcases hpackage : r.isPackage with _ | _
  · rw [hpackage, if_neg Bool.false_ne_true] at hkeeps
    rw [if_neg Bool.false_ne_true, if_neg Bool.false_ne_true]
    by_cases hlevel : Level.warning ≤ r.level
    · rw [if_pos (hkeeps.2 hlevel), if_pos hlevel, if_pos hlevel, printMessage, h.merged]
      exact textAt_put w.stdout _ w q
    · rw [if_neg (mt hkeeps.1 hlevel), if_neg hlevel, String.append_empty]
  · rw [hpackage, if_pos rfl] at hkeeps
    rw [if_pos rfl, if_pos rfl]
    by_cases hlevel : w.level ≤ r.level
    · obtain ⟨file, files, hfiles⟩ := List.exists_cons_of_ne_nil h.attached
      rw [if_pos (hkeeps.2 hlevel), if_pos hlevel, World.attached, hfiles]
      exact textAt_foldl_append (file :: files) r.line w q
    · rw [if_neg (mt hkeeps.1 hlevel), if_neg hlevel, String.append_empty]

/-- **What is said inside a log reaches every place** as often as the streams and the logger
    lead there. -/
theorem World.Logging.textAt_perform (h : w.Logging) (u : Utterance) (q : Place) :
    (u.perform w).textAt q =
      w.textAt q ++ Said.heard (w.stdout.places.count q) (w.attached.count q) ⟨w.level, u⟩ := by
  cases u with
  | print text => exact textAt_put w.stdout text w q
  | message text =>
    rw [Utterance.perform, printMessage, textAt_put, h.merged]
    rfl
  | record r => exact h.textAt_log r q

end

namespace Program

/-- What a place hears of a program inside a log, if the streams lead there `n` times and the
    logger `m` times. -/
def heard (opens : RunLog → Except ε Unit) (n m : Nat) (level : Level) (p : Program ε) : String :=
  String.join ((p.said opens level).map (Said.heard n m))

section
variable {p q : Program ε} {e : ε} {n m : Nat} {level : Level}

theorem heard_andThen_ok (h : p.ending opens = .ok ()) :
    (andThen p q).heard opens n m level = p.heard opens n m level ++ q.heard opens n m level := by
  simp [heard, said, h]

theorem heard_andThen_error (h : p.ending opens = .error e) :
    (andThen p q).heard opens n m level = p.heard opens n m level := by
  simp [heard, said, h]

theorem heard_rescue_ok (h : p.ending opens = .ok ()) :
    (rescue p q).heard opens n m level = p.heard opens n m level := by
  simp [heard, said, h]

theorem heard_rescue_error (h : p.ending opens = .error e) :
    (rescue p q).heard opens n m level = p.heard opens n m level ++ q.heard opens n m level := by
  simp [heard, said, h]

theorem heard_inside_ok {l : RunLog} (h : opens l = .ok ()) :
    (inside l p).heard opens n m level = p.heard opens n m l.level := by
  simp [heard, said, h]

theorem heard_inside_error {l : RunLog} (h : opens l = .error e) :
    (inside l p).heard opens n m level = "" := by
  simp [heard, said, h]

end

variable {p : Program ε} {w : World} {q : Place}

/-- Outside of a log a place hears what it hears inside, unless it is the file of the log. -/
theorem textAt_inside {l : RunLog} (hq : q ≠ .file l.file)
    (hrun : (p.run opens (l.enter w).2).2.textAt q =
      (l.enter w).2.textAt q ++ p.heard opens ((l.enter w).2.stdout.places.count q)
        ((l.enter w).2.attached.count q) l.level) :
    (l.during (fun w => p.run opens w) w).2.textAt q =
      w.textAt q ++ p.heard opens (w.stdout.places.count q) (w.attached.count q) l.level := by
  rw [textAt_during, hrun, textAt_enter hq, count_stdout_enter hq, count_attached_enter hq]

/-- A place hears what is said first and then what is said next. -/
theorem textAt_trans {p₁ p₂ : Program ε} {w w' w'' : World} (hsetup : SameSetup w w')
    (h₁ : w'.textAt q =
      w.textAt q ++ p₁.heard opens (w.stdout.places.count q) (w.attached.count q) w.level)
    (h₂ : w''.textAt q =
      w'.textAt q ++ p₂.heard opens (w'.stdout.places.count q) (w'.attached.count q) w'.level) :
    w''.textAt q =
      w.textAt q ++ (p₁.heard opens (w.stdout.places.count q) (w.attached.count q) w.level ++
        p₂.heard opens (w.stdout.places.count q) (w.attached.count q) w.level) := by
  rw [h₂, h₁, hsetup.stdout, hsetup.attached, hsetup.level, String.append_assoc]

/-- **A place hears everything that is said inside a log**, inside further logs too, unless it
    is the file of one of these. -/
theorem textAt_run (hw : w.Logging) (hlevels : ∀ l ∈ p.logs, 1 ≤ l.level)
    (hfiles : ∀ l ∈ p.logs, q ≠ .file l.file) :
    (p.run opens w).2.textAt q =
      w.textAt q ++ p.heard opens (w.stdout.places.count q) (w.attached.count q) w.level := by
  fun_induction Program.run opens p w with
  | case1 w | case3 e w => exact String.append_empty.symm
  | case2 u w =>
    rw [heard, said, List.map_singleton, String.join_cons, String.join_nil, String.append_empty]
    exact hw.textAt_perform u q
  | case4 p₁ p₂ w w' h ih₁ ih₂ =>
    obtain ⟨hlevels₁, hlevels₂⟩ := List.forall_mem_append.1 hlevels
    obtain ⟨hfiles₁, hfiles₂⟩ := List.forall_mem_append.1 hfiles
    obtain ⟨hending, hsetup⟩ := ending_and_setup_of_run h
    rw [h] at ih₁
    rw [heard_andThen_ok hending]
    exact textAt_trans hsetup (ih₁ hw hlevels₁ hfiles₁)
      (ih₂ (hw.of_sameSetup hsetup) hlevels₂ hfiles₂)
  | case5 p₁ p₂ w e w' h ih₁ =>
    obtain ⟨hending, -⟩ := ending_and_setup_of_run h
    rw [h] at ih₁
    rw [heard_andThen_error hending]
    exact ih₁ hw (List.forall_mem_append.1 hlevels).1 (List.forall_mem_append.1 hfiles).1
  | case6 l body w h ih =>
    obtain ⟨hl, hbody⟩ := List.forall_mem_cons.1 hlevels
    obtain ⟨hq, hfiles⟩ := List.forall_mem_cons.1 hfiles
    rw [heard_inside_ok h]
    exact textAt_inside hq (ih _ (logging_enter hl w) hbody hfiles)
  | case7 l body w e h => rw [heard_inside_error h, String.append_empty]
  | case8 p₁ p₂ w w' h ih₁ =>
    obtain ⟨hending, -⟩ := ending_and_setup_of_run h
    rw [h] at ih₁
    rw [heard_rescue_ok hending]
    exact ih₁ hw (List.forall_mem_append.1 hlevels).1 (List.forall_mem_append.1 hfiles).1
  | case9 p₁ p₂ w e w' h ih₁ ih₂ =>
    obtain ⟨hlevels₁, hlevels₂⟩ := List.forall_mem_append.1 hlevels
    obtain ⟨hfiles₁, hfiles₂⟩ := List.forall_mem_append.1 hfiles
    obtain ⟨hending, hsetup⟩ := ending_and_setup_of_run h
    rw [h] at ih₁
    rw [heard_rescue_error hending]
    exact textAt_trans hsetup (ih₁ hw hlevels₁ hfiles₁)
      (ih₂ (hw.of_sameSetup hsetup) hlevels₂ hfiles₂)

section
variable {l : RunLog} (hopen : opens l = .ok ())
  (hlevels : ∀ l' ∈ (inside l p).logs, 1 ≤ l'.level)
include hopen hlevels

/-- **The places that ordinary output led to before** hear everything that is said inside. -/
theorem textAt_run_inside (hfiles : ∀ l' ∈ (inside l p).logs, q ≠ .file l'.file) :
    ((inside l p).run opens w).2.textAt q =
      w.textAt q ++ p.heard opens (w.stdout.places.count q) (w.attached.count q) l.level := by
  obtain ⟨hlevel, hlevels⟩ := List.forall_mem_cons.1 hlevels
  obtain ⟨hq, hfiles⟩ := List.forall_mem_cons.1 hfiles
  rw [run, hopen]
  exact textAt_inside hq (textAt_run (logging_enter hlevel w) hlevels hfiles)

/-- **The file of a log holds what is said inside it** and nothing else, if nothing else leads
    there. -/
theorem text_run_inside (hl : .file l.file ∉ w.reach) (hfiles : ∀ l' ∈ p.logs, l'.file ≠ l.file) :
    ((inside l p).run opens w).2.text l.file =
      String.join ((p.said opens l.level).map Said.line) := by
  obtain ⟨hlevel, hlevels⟩ := List.forall_mem_cons.1 hlevels
  have hothers : ∀ l' ∈ p.logs, Place.file l.file ≠ .file l'.file := fun l' hl' heq =>
    hfiles l' hl' (Place.file.inj heq).symm
  have hrun : (p.run opens (l.enter w).2).2.textAt (.file l.file) = _ :=
    textAt_run (logging_enter hlevel w) hlevels hothers
  obtain ⟨hstdout, hlogger⟩ := count_enter_self hl
  have hempty : (l.enter w).2.textAt (.file l.file) = "" := text_enter l w
  rw [hstdout, hlogger, hempty, String.empty_append, heard, funext Said.heard_one_one] at hrun
  rw [run, hopen]
  exact (textAt_during l _ w _).trans hrun

end

/-! ## Visits -/

/-- A log that a program enters. -/
structure Visit (ε : Type) where
  log : RunLog
  /-- What is done inside it. -/
  body : Program ε
  /-- The world in which it is entered. -/
  world : World

/-- The world in which the log was left again. -/
def Visit.after (opens : RunLog → Except ε Unit) (v : Visit ε) : World :=
  ((inside v.log v.body).run opens v.world).2

/-- The logs that a program enters, in order. -/
def visits (opens : RunLog → Except ε Unit) : Program ε → World → List (Visit ε)
  | skip, _ | say _, _ | fail _, _ => []
  | andThen p q, w =>
    match p.run opens w with
    | (.ok (), w') => visits opens p w ++ visits opens q w'
    | (.error _, _) => visits opens p w
  | inside l body, w =>
    match opens l with
    | .ok () => ⟨l, body, w⟩ :: visits opens body (l.enter w).2
    | .error _ => []
  | rescue p q, w =>
    match p.run opens w with
    | (.ok (), _) => visits opens p w
    | (.error _, w') => visits opens p w ++ visits opens q w'

/-- Different logs have different files, and none of these is within reach. -/
structure Separate (logs : List RunLog) (w : World) : Prop where
  distinct : (logs.map RunLog.file).Nodup
  unreached : ∀ l ∈ logs, .file l.file ∉ w.reach

/-- What there is to say about a log that was entered, if it was among `logs`, and of the world
    at the end. -/
structure Visit.Sound (opens : RunLog → Except ε Unit) (logs : List RunLog) (last : World)
    (v : Visit ε) : Prop where
  opened : opens v.log = .ok ()
  among : (v.log :: v.body.logs).Sublist logs
  separate : Separate (v.log :: v.body.logs) v.world
  /-- The file of the log has not changed since it was left. -/
  text_eq : last.text v.log.file = (v.after opens).text v.log.file

section
variable {p q : Program ε} {l : RunLog} {logs logs' : List RunLog} {w w' : World} {v : Visit ε}

theorem Separate.of_sublist (h : Separate logs w) (hlogs : logs'.Sublist logs)
    (hsetup : SameSetup w w') : Separate logs' w' :=
  ⟨h.distinct.sublist (hlogs.map _),
    fun l hl => hsetup.reach ▸ h.unreached l (hlogs.subset hl)⟩

theorem Separate.enter (h : Separate (l :: logs) w) : Separate logs (l.enter w).2 := by
  obtain ⟨hl, hlogs⟩ := List.nodup_cons.1 h.distinct
  refine ⟨hlogs, fun l' hl' => ?_⟩
  refine notMem_reach_enter (h.unreached l' (List.mem_cons_of_mem _ hl')) fun heq => hl ?_
  exact Place.file.inj heq ▸ List.mem_map_of_mem hl'

/-- What was said about a log is still true after a program with other logs. -/
theorem Visit.Sound.run (hv : v.Sound opens logs w) (h : Separate (logs ++ q.logs) w) :
    v.Sound opens (logs ++ q.logs) (q.run opens w).2 := by
  refine ⟨hv.opened, hv.among.trans (List.sublist_append_left _ _), hv.separate, ?_⟩
  have hmem : v.log ∈ logs := hv.among.subset List.mem_cons_self
  have hothers : ∀ l ∈ q.logs, Place.file v.log.file ≠ .file l.file := by
    intro l hl heq
    have hdisjoint := (List.nodup_append.1 (List.map_append ▸ h.distinct)).2.2
    exact hdisjoint _ (List.mem_map_of_mem hmem) _ (List.mem_map_of_mem hl) (Place.file.inj heq)
  have hunreached := h.unreached v.log (List.mem_append_left _ hmem)
  exact (textAt_run_of_notMem hunreached hothers).trans hv.text_eq

/-- **What there is to say about every log that a program enters.** -/
theorem sound_of_mem_visits (h : Separate p.logs w) :
    ∀ v ∈ p.visits opens w, v.Sound opens p.logs (p.run opens w).2 := by
  fun_induction visits opens p w with
  | case1 w | case2 u w | case3 e w | case7 l body w e hopen => simp
  | case4 p q w w' hrun ihp ihq | case9 p q w e w' hrun ihp ihq =>
    have hsetup := (ending_and_setup_of_run hrun).2
    rw [hrun] at ihp
    rw [run, hrun, List.forall_mem_append]
    refine ⟨fun v hv => ?_, fun v hv => ?_⟩
    · have hp := ihp (h.of_sublist (List.sublist_append_left _ _) (.refl w)) v hv
      exact hp.run (h.of_sublist (.refl _) hsetup)
    · have hq := ihq (h.of_sublist (List.sublist_append_right _ _) hsetup) v hv
      exact ⟨hq.opened, hq.among.trans (List.sublist_append_right _ _), hq.separate, hq.text_eq⟩
  | case5 p q w e w' hrun ihp | case8 p q w w' hrun ihp =>
    rw [run, hrun]
    intro v hv
    have hp := ihp (h.of_sublist (List.sublist_append_left _ _) (.refl w)) v hv
    rw [hrun] at hp
    exact ⟨hp.opened, hp.among.trans (List.sublist_append_left _ _), hp.separate, hp.text_eq⟩
  | case6 l body w hopen ih =>
    rw [List.forall_mem_cons]
    refine ⟨⟨hopen, .refl _, h, rfl⟩, fun v hv => ?_⟩
    have hbody := ih h.enter v hv
    refine ⟨hbody.opened, hbody.among.cons _, hbody.separate, ?_⟩
    rw [run, hopen, ← hbody.text_eq]
    exact textAt_during l _ w (.file v.log.file)

/-- **At the end the file of every log holds what was said inside it** and nothing else. -/
theorem text_of_mem_visits (hlevels : ∀ l ∈ p.logs, 1 ≤ l.level) (hlogs : Separate p.logs w)
    (hv : v ∈ p.visits opens w) :
    (p.run opens w).2.text v.log.file =
      String.join ((v.body.said opens v.log.level).map Said.line) := by
  obtain ⟨hopen, hamong, hseparate, htext⟩ := sound_of_mem_visits hlogs v hv
  have hself := hseparate.unreached v.log List.mem_cons_self
  have hothers : ∀ l ∈ v.body.logs, l.file ≠ v.log.file := fun l hl heq =>
    (List.nodup_cons.1 hseparate.distinct).1 (heq ▸ List.mem_map_of_mem hl)
  have hvisit : ∀ l ∈ v.log :: v.body.logs, 1 ≤ l.level := fun l hl => hlevels l (hamong.subset hl)
  exact htext.trans (text_run_inside hopen hvisit hself hothers)

end

end Program

/-- **Run logs leave no trace.**  A program prints, writes messages and gives records to
    loggers; it enters logs whose files differ from each other and from all that is reached at
    first, and fails and catches failures.  How it ends does not depend on the logs.  For every
    log that is entered, at any depth: what follows the log finds the streams, the level and
    the attached files as they were when it was entered; the failure that ends what is done
    inside is passed on; and at the end of the program the file of the log holds, in order,
    what was said inside it, texts as they are and records as lines, if their level is high
    enough: nothing else, and nothing of what it held before.  If there is no log inside, the
    level is that of the log itself.  All texts also reach the places that ordinary output led
    to when the log was entered. -/
theorem run_logs_leave_no_trace {p : Program ε} {w : World}
    (hlevels : ∀ l ∈ p.logs, 1 ≤ l.level) (hlogs : Program.Separate p.logs w) :
    (p.run opens w).1 = p.ending opens ∧
      ∀ v ∈ p.visits opens w,
        SameSetup v.world (v.after opens) ∧
        ((Program.inside v.log v.body).run opens v.world).1 =
          (v.body.run opens (v.log.enter v.world).2).1 ∧
        (p.run opens w).2.text v.log.file =
          String.join ((v.body.said opens v.log.level).map Said.line) ∧
        (v.body.logs = [] → ∀ s ∈ v.body.said opens v.log.level, s.level = v.log.level) ∧
        ∀ q ∈ v.world.stdout.places,
          (v.after opens).textAt q = v.world.textAt q ++
            v.body.heard opens (v.world.stdout.places.count q) (v.world.attached.count q)
              v.log.level := by
  refine ⟨p.ending_run w, fun v hv => ?_⟩
  obtain ⟨hopen, hamong, hseparate, -⟩ := Program.sound_of_mem_visits hlogs v hv
  have hvisit : ∀ l ∈ v.log :: v.body.logs, 1 ≤ l.level := fun l hl => hlevels l (hamong.subset hl)
  have htext := Program.text_of_mem_visits hlevels hlogs hv
  have hpass : ((Program.inside v.log v.body).run opens v.world).1 =
      (v.body.run opens (v.log.enter v.world).2).1 := by
    rw [Program.run, hopen]
    rfl
  refine ⟨Program.sameSetup_run _ _, hpass, htext, Program.level_of_mem_said, fun q hq => ?_⟩
  -- what ordinary output leads to is within reach, and the files of the logs are not
  refine Program.textAt_run_inside hopen hvisit fun l hl heq => hseparate.unreached l hl ?_
  exact heq ▸ List.mem_append_left _ (List.mem_append_left _ hq)

/-- A log inside a log, both left by a failure that is caught outside. -/
def Program.interrupted : Program String :=
  .rescue
    (.inside (.make "outer" Level.info)
      (.andThen (.say (.print "before\n"))
        (.inside (.make "inner" Level.debug)
          (.andThen (.say (.record ⟨Level.debug, "2024-05-06 07:08:09", "dpm_cluster.state", "details"⟩))
            (.andThen (.say (.print "text\n")) (.fail "interrupted"))))))
    (.say (.print "after\n"))

/-- A world with the file of the inner log, in which something was printed before. -/
def Program.interruptedWorld : World :=
  (World.fresh Level.warning [("inner.log", "old\n")]).print "early\n"

/-- The failure is caught outside of both logs; the file of the inner one holds what was said
    inside instead of its old text, and the terminal has the texts but no record. -/
theorem interrupted_logs_leave_no_trace :
    (∀ l ∈ Program.interrupted.logs, 1 ≤ l.level) ∧
      Program.Separate Program.interrupted.logs Program.interruptedWorld ∧
      (Program.interrupted.run (fun _ => .ok ()) Program.interruptedWorld).1 = .ok () ∧
      (Program.interrupted.run (fun _ => .ok ()) Program.interruptedWorld).2.text "inner.log" =
        "[DEBUG 2024-05-06 07:08:09] dpm_cluster.state: details\ntext\n" ∧
      (Program.interrupted.run (fun _ => .ok ()) Program.interruptedWorld).2.out =
        "early\nbefore\ntext\nafter\n" := by
  have hlevels : ∀ l ∈ Program.interrupted.logs, 1 ≤ l.level := by decide +kernel
  have hlogs : Program.Separate Program.interrupted.logs Program.interruptedWorld :=
    ⟨by decide +kernel, by decide +kernel⟩
  obtain ⟨hending, hvisits⟩ :=
    @run_logs_leave_no_trace _ (fun _ => .ok ()) _ _ hlevels hlogs
  obtain ⟨-, -, htext, -⟩ := hvisits _ (List.mem_cons_of_mem _ List.mem_cons_self)
  exact ⟨hlevels, hlogs, hending, htext, by decide +kernel⟩

end DirichletMixture
