/-
  DirichletMixture: what the console sees of run logs.

  A log mirrors both streams: what is printed and what is a message should reach the console
  as before, and the file of the log besides.  But both streams are the same one inside a log,
  and this leads to where ordinary output led; so messages come there too, between the texts
  that are printed, and where messages led before nothing arrives.

  * `Said.printed` and `Said.messaged` are what was meant for either stream, and `Said.shown`
    is both;
  * `KeptApart` says that either stream got what was meant for it;
  * `textAt_run_inside_eq`: what the console sees is all texts as ordinary output;
  * `keptApart_iff`: then the streams are kept apart only if there is no message.
-/
import Mathlib.Data.List.Basic
import DirichletMixture.Proofs.RunLog.Nesting

namespace DirichletMixture

open World

variable {ε : Type} {opens : RunLog → Except ε Unit}

/-! ## Several texts for a stream -/

theorem repeated_empty (n : Nat) : repeated n "" = "" := by
  induction n with
  | zero => rfl
  | succ n ih => rw [repeated_add, ih, repeated_one, String.append_empty]

theorem repeated_eq_empty_iff {n : Nat} {text : String} (hn : n ≠ 0) :
    repeated n text = "" ↔ text = "" := by
  refine ⟨fun h => ?_, fun h => h ▸ repeated_empty n⟩
  obtain ⟨m, rfl⟩ := Nat.exists_eq_succ_of_ne_zero hn
  rw [Nat.succ_eq_add_one, repeated_add, repeated_one, String.append_eq_empty_iff] at h
  exact h.2

theorem join_eq_empty_iff {texts : List String} :
    String.join texts = "" ↔ ∀ text ∈ texts, text = "" := by
  induction texts with
  | nil => simp
  | cons text texts ih => rw [String.join_cons, String.append_eq_empty_iff, ih, List.forall_mem_cons]

/-- The world after several texts were written to a stream. -/
def Stream.putAll (s : Stream) (texts : List String) (w : World) : World :=
  texts.foldl (fun w text => s.put text w) w

theorem textAt_putAll (s : Stream) (texts : List String) (w : World) (q : Place) :
    (s.putAll texts w).textAt q =
      w.textAt q ++ String.join (texts.map (repeated (s.places.count q))) := by
  induction texts generalizing w with
  | nil => exact String.append_empty.symm
  | cons text texts ih =>
    rw [Stream.putAll, List.foldl_cons, ← Stream.putAll, ih, textAt_put, List.map_cons,
      String.join_cons, String.append_assoc]

theorem textAt_putAll_of_notMem {s : Stream} {q : Place} (h : q ∉ s.places) (texts : List String)
    (w : World) : (s.putAll texts w).textAt q = w.textAt q := by
  induction texts generalizing w with
  | nil => rfl
  | cons text texts ih => exact (ih _).trans (textAt_put_of_notMem h text w)

/-- A place that a stream leads to is the same afterwards only if all texts are empty. -/
theorem textAt_putAll_eq_iff {s : Stream} {q : Place} (h : q ∈ s.places) (texts : List String)
    (w : World) : (s.putAll texts w).textAt q = w.textAt q ↔ ∀ text ∈ texts, text = "" := by
  have hcount : s.places.count q ≠ 0 := Nat.pos_iff_ne_zero.1 (List.count_pos_iff.2 h)
  rw [textAt_putAll, String.append_eq_left_iff, join_eq_empty_iff, List.forall_mem_map]
  exact forall₂_congr fun text _ => repeated_eq_empty_iff hcount

/-! ## The two streams -/

namespace Said

/-- What was meant for ordinary output. -/
def printed (s : Said) : String :=
  match s.utterance with
  | .print text => text
  | .message _ | .record _ => ""

/-- What was meant for messages: a text, or that of a record from outside the package which is
    a warning at least. -/
def messaged (s : Said) : String :=
  match s.utterance with
  | .print _ => ""
  | .message text => text
  | .record r =>
    if r.isPackage then "" else if Level.warning ≤ r.level then r.text ++ "\n" else ""

/-- What was meant for the console. -/
def shown (s : Said) : String := s.printed ++ s.messaged

theorem shown_record (level : Level) (r : Record) :
    shown ⟨level, .record r⟩ =
      if r.isPackage then "" else if Level.warning ≤ r.level then r.text ++ "\n" else "" :=
  String.empty_append

/-- A place that the logger does not lead to hears just what was meant for the console. -/
theorem heard_zero (n : Nat) (s : Said) : s.heard n 0 = repeated n s.shown := by
  obtain ⟨level, u⟩ := s
  cases u with
  | print text => rw [heard, shown, printed, messaged, String.append_empty]
  | message text => rw [heard, shown, printed, messaged, String.empty_append]
  | record r =>
    rw [heard_record, shown_record]
    split
    · rw [repeated_zero, ite_self, repeated_empty]
    · split
      · rfl
      · exact (repeated_empty n).symm

theorem shown_eq_printed {s : Said} (h : s.messaged = "") : s.shown = s.printed := by
  rw [shown, h, String.append_empty]

end Said

/-- What was said reached the console: either stream of the first world got what was meant for
    it, in order, and nothing else. -/
structure KeptApart (said : List Said) (w w' : World) : Prop where
  stdout : ∀ q ∈ w.stdout.places,
    w'.textAt q = (w.stdout.putAll (said.map Said.printed) w).textAt q
  stderr : ∀ q ∈ w.stderr.places,
    w'.textAt q = (w.stderr.putAll (said.map Said.messaged) w).textAt q

/-- If all texts came to ordinary output, the streams were kept apart only without messages. -/
theorem keptApart_iff {said : List Said} {w w' : World}
    (hdisjoint : w.stdout.places.Disjoint w.stderr.places)
    (hshown : ∀ q ∈ w.stdout.places ++ w.stderr.places,
      w'.textAt q = (w.stdout.putAll (said.map Said.shown) w).textAt q) :
    KeptApart said w w' ↔ ∀ s ∈ said, s.messaged = "" := by
  obtain ⟨hstdout, hstderr⟩ := List.forall_mem_append.1 hshown
  have hnothing : ∀ q ∈ w.stderr.places, w'.textAt q = w.textAt q := fun q hq =>
    (hstderr q hq).trans (textAt_putAll_of_notMem (fun hq' => hdisjoint hq' hq) _ _)
  constructor
  · intro h
    obtain ⟨q, hq⟩ : ∃ q, q ∈ w.stderr.places :=
      List.exists_mem_of_ne_nil _ (by cases w.stderr <;> exact List.cons_ne_nil _ _)
    have hsame := (h.stderr q hq).symm.trans (hnothing q hq)
    exact List.forall_mem_map.1 ((textAt_putAll_eq_iff hq _ w).1 hsame)
  · intro h
    have hprinted : said.map Said.shown = said.map Said.printed :=
      List.map_congr_left fun s hs => Said.shown_eq_printed (h s hs)
    refine ⟨fun q hq => hprinted ▸ hstdout q hq, fun q hq => ?_⟩
    exact (hnothing q hq).trans ((textAt_putAll_eq_iff hq _ w).2 (List.forall_mem_map.2 h)).symm

/-! ## Programs inside a log -/

namespace Program

variable {l : RunLog} {body : Program ε} {w : World} {q : Place}

/-- **What the console sees of a program inside a log** is all texts as ordinary output. -/
theorem textAt_run_inside_eq (hopen : opens l = .ok ())
    (hlevels : ∀ l' ∈ (inside l body).logs, 1 ≤ l'.level) (hq : q ∉ w.attached)
    (hfiles : ∀ l' ∈ (inside l body).logs, q ≠ .file l'.file) :
    ((inside l body).run opens w).2.textAt q =
      (w.stdout.putAll ((body.said opens l.level).map Said.shown) w).textAt q := by
  rw [textAt_run_inside hopen hlevels hfiles, textAt_putAll, List.count_eq_zero.2 hq, heard,
    List.map_map]
  exact congrArg (fun heard => _ ++ String.join (List.map heard _))
    (funext (Said.heard_zero _))

end Program

/-- **Inside a log messages are ordinary output.**  A program is run inside a log, with further
    logs inside it; their files differ from each other and from all that is reached at first,
    and the two streams lead to different places.  Where ordinary output led comes all that is
    shown, printed texts and messages in the order in which they were said; where messages led
    comes nothing.  So the streams are kept apart exactly if no message is said.  The files are
    right at every depth: each holds in order what was said inside its log, of both kinds. -/
theorem messages_come_to_ordinary_output {l : RunLog} {body : Program ε} {w : World}
    (hopen : opens l = .ok ()) (hlevels : ∀ l' ∈ (Program.inside l body).logs, 1 ≤ l'.level)
    (hlogs : Program.Separate (Program.inside l body).logs w)
    (hconsole : ∀ q ∈ w.stdout.places ++ w.stderr.places, q ∉ w.attached)
    (hdisjoint : w.stdout.places.Disjoint w.stderr.places) :
    (∀ q ∈ w.stdout.places, ((Program.inside l body).run opens w).2.textAt q =
        (w.stdout.putAll ((body.said opens l.level).map Said.shown) w).textAt q) ∧
      (∀ q ∈ w.stderr.places,
        ((Program.inside l body).run opens w).2.textAt q = w.textAt q) ∧
      (KeptApart (body.said opens l.level) w ((Program.inside l body).run opens w).2 ↔
        ∀ s ∈ body.said opens l.level, s.messaged = "") ∧
      ∀ v ∈ (Program.inside l body).visits opens w,
        ((Program.inside l body).run opens w).2.text v.log.file =
          String.join ((v.body.said opens v.log.level).map Said.line) := by
  have hshown : ∀ q ∈ w.stdout.places ++ w.stderr.places,
      ((Program.inside l body).run opens w).2.textAt q =
        (w.stdout.putAll ((body.said opens l.level).map Said.shown) w).textAt q := by
    intro q hq
    have hfiles : ∀ l' ∈ (Program.inside l body).logs, q ≠ .file l'.file := fun l' hl' heq =>
      hlogs.unreached l' hl' (heq ▸ List.mem_append_left _ hq)
    exact Program.textAt_run_inside_eq hopen hlevels (hconsole q hq) hfiles
  obtain ⟨hstdout, hstderr⟩ := List.forall_mem_append.1 hshown
  refine ⟨hstdout, fun q hq => ?_, keptApart_iff hdisjoint hshown, fun v hv => ?_⟩
  · exact (hstderr q hq).trans (textAt_putAll_of_notMem (fun hq' => hdisjoint hq' hq) _ _)
  · exact Program.text_of_mem_visits hlevels hlogs hv

/-- A log in which messages stand around another log that something is printed in. -/
def Program.remarked : Program String :=
  .inside (.make "outer" Level.info)
    (.andThen (.say (.message "one\n"))
      (.andThen (.inside (.make "inner" Level.debug) (.say (.print "two\n")))
        (.say (.message "three\n"))))

/-- The messages and the text between them come to ordinary output, and to the outer file. -/
theorem remarks_come_to_ordinary_output :
    (∀ l ∈ Program.remarked.logs, 1 ≤ l.level) ∧
      Program.Separate Program.remarked.logs (.fresh Level.warning []) ∧
      (Program.remarked.run (fun _ => .ok ()) (.fresh Level.warning [])).2.out =
        "one\ntwo\nthree\n" ∧
      (Program.remarked.run (fun _ => .ok ()) (.fresh Level.warning [])).2.err = "" ∧
      (Program.remarked.run (fun _ => .ok ()) (.fresh Level.warning [])).2.text "outer.log" =
        "one\ntwo\nthree\n" := by
  have hlevels : ∀ l ∈ Program.remarked.logs, 1 ≤ l.level := by decide +kernel
  have hlogs : Program.Separate Program.remarked.logs (.fresh Level.warning []) :=
    ⟨by decide +kernel, by decide +kernel⟩
  obtain ⟨hstdout, hstderr, -, hfiles⟩ :=
    @messages_come_to_ordinary_output _ (fun _ => .ok ()) _ _ _ rfl hlevels hlogs (by decide)
      (List.disjoint_singleton.2 (by decide))
  exact ⟨hlevels, hlogs, hstdout (.terminal .out) List.mem_cons_self,
    hstderr (.terminal .err) List.mem_cons_self, hfiles _ List.mem_cons_self⟩

/-- A log in which nothing but a message is said. -/
def Program.loneMessage : Program String :=
  .inside (.make "run" Level.info) (.say (.message "a\n"))

/-- The message is missing where messages go, and printed instead. -/
theorem lone_message_is_printed :
    (∀ l ∈ Program.loneMessage.logs, 1 ≤ l.level) ∧
      Program.Separate Program.loneMessage.logs (.fresh 0 []) ∧
      (Program.loneMessage.run (fun _ => .ok ()) (.fresh 0 [])).2.out = "a\n" ∧
      (Program.loneMessage.run (fun _ => .ok ()) (.fresh 0 [])).2.err = "" ∧
      ¬ KeptApart (Program.loneMessage.said (fun _ => .ok ()) 0) (.fresh 0 [])
        (Program.loneMessage.run (fun _ => .ok ()) (.fresh 0 [])).2 := by
  refine ⟨by decide, ⟨by decide +kernel, by decide +kernel⟩, by decide +kernel,
    by decide +kernel, fun h => ?_⟩
  have hmessage : "" = "a\n" := h.stderr (.terminal .err) List.mem_cons_self
  exact absurd hmessage (by decide)

end DirichletMixture
