/-
  DirichletMixture: what the fields of a configuration have to hold.

  A field may be given anything.  Whole numbers of any size are compared as doubles, so that
  casts have to keep the order to zero and one; and a value that is no number at all may
  fail in other ways than a number that does not fit.

  * `ConfigField.Admits` says what a field has to hold, and `ConfigField.fault` is the fault
    of a field that holds anything else;
  * `checkConcentration_cases` and its neighbours go through the checks one by one;
  * `ConfigField.check_cases`: the check of a field says just that;
  * `ConfigField.kind_fault`: what kind of fault that is.
-/
import Mathlib.Data.Int.Order.Basic
import DirichletMixture.Config.Basic
import DirichletMixture.Proofs.Attempt
import DirichletMixture.Proofs.Double.Arithmetic

namespace DirichletMixture

open Double

/-! ## Fields -/

/-- The fields that are checked. -/
inductive ConfigField where
  | source
  | clusters
  | thin
  | burnin
  | iterations
  | alpha0
  | threshold
deriving DecidableEq, Repr

namespace ConfigField

/-- The fields in the order in which they are checked. -/
def all : List ConfigField := [source, clusters, thin, burnin, iterations, alpha0, threshold]

theorem mem_all (f : ConfigField) : f ∈ all := by
  cases f <;> decide

/-- What a field has to hold. -/
def Admits : ConfigField → Setting Float → Prop
  | source, .generator | source, .flag _ => True
  | source, .int n => 0 ≤ n
  | clusters, .int n | thin, .int n => 0 < n
  | burnin, .int n | iterations, .int n => 0 ≤ n
  | alpha0, .flag b => b = true
  | alpha0, .int n => 0 < n ∧ n < 2 ^ 64
  | alpha0, .real x => x.isFinite = true ∧ 0.0 < x
  | threshold, .flag _ => True
  | threshold, .int n => 0 ≤ n ∧ n ≤ 1
  | threshold, .real x => 0.0 ≤ x ∧ x ≤ 1.0
  | _, _ => False

/-- The fault of a concentration: a value that cannot be tested for being finite is of the
    wrong kind, and so is a list with a single finite number, which cannot be compared. -/
def concentrationFault (given : Setting Float) : Fault Float :=
  match given.nested.entries? with
  | none => .notArray
  | some xs =>
    if xs.all isTestable then
      match given, xs with
      | .list _, [x] =>
        if (x.number?.map Float.isFinite).getD false then .wrongKind
        else .refuse (.concentration given)
      | .list _, _ => .misshapen
      | _, _ => .refuse (.concentration given)
    else .wrongKind

/-- The fault of a field that does not hold what it has to. -/
def fault : ConfigField → Setting Float → Fault Float
  | source, .int _ => .negativeSeed
  | source, given => .notGenerator given
  | clusters, given => .refuse (.notPositive .clusters given)
  | thin, given => .refuse (.notPositive .thin given)
  | burnin, given => .refuse (.negative .burnin given)
  | iterations, given => .refuse (.negative .iterations given)
  | alpha0, given => concentrationFault given
  | threshold, given => if given.number? = none then .wrongKind else .refuse (.threshold given)

end ConfigField

/-- The value that a field is given. -/
def Settings.given {α : Type} (s : Settings α) : ConfigField → Setting α
  | .source => s.source
  | .clusters => s.clusters
  | .thin => s.thin
  | .burnin => s.burnin
  | .iterations => s.iterations
  | .alpha0 => s.alpha0
  | .threshold => s.threshold

namespace ConfigField

/-! ## Checks -/

/-- The check of a field. -/
def check : ConfigField → Setting Float → Except (Fault Float) Unit
  | source, given => checkSource given
  | clusters, given => (checkPositive .clusters given).map fun _ => ()
  | thin, given => (checkPositive .thin given).map fun _ => ()
  | burnin, given => (checkNatural .burnin given).map fun _ => ()
  | iterations, given => (checkNatural .iterations given).map fun _ => ()
  | alpha0, given => (checkConcentration given).map fun _ => ()
  | threshold, given => (checkThreshold given).map fun _ => ()

section
variable {ε β : Type} {r : Except ε β} {e : ε} {P : Prop}

/-- A check that succeeds in one case, and has the same fault in all others. -/
theorem cases_of_ok_iff (hok : (∃ y, r = .ok y) ↔ P) (herror : ∀ e', r = .error e' → e' = e) :
    ((∃ y, r = .ok y) ∧ P) ∨ (r = .error e ∧ ¬ P) := by
  rcases r with e' | y
  · refine .inr ⟨congrArg _ (herror e' rfl), fun hP => ?_⟩
    obtain ⟨y, hy⟩ := hok.2 hP
    cases hy
  · exact .inl ⟨⟨y, rfl⟩, hok.1 ⟨y, rfl⟩⟩

/-- The same where what was found is left out. -/
theorem map_cases (h : ((∃ y, r = .ok y) ∧ P) ∨ (r = .error e ∧ ¬ P)) :
    (r.map (fun _ => ()) = .ok () ∧ P) ∨ (r.map (fun _ => ()) = .error e ∧ ¬ P) := by
  rcases h with ⟨⟨y, rfl⟩, hP⟩ | ⟨rfl, hP⟩
  · exact .inl ⟨rfl, hP⟩
  · exact .inr ⟨rfl, hP⟩

end

/-! ## Whole numbers -/

section
variable {α : Type} {given : Setting α} {field : IntegerField} {e : Fault α}

theorem checkPositive_eq_ok_iff {k : { n : ℕ // 0 < n }} :
    checkPositive field given = .ok k ↔ given = .int k.1 := by
  constructor
  · intro h
    unfold checkPositive at h
    split at h
    · split_ifs at h with hn
      obtain rfl := Except.ok.inj h
      rw [Int.toNat_of_nonneg hn.le]
    · cases h
  · rintro rfl
    exact dif_pos (Int.natCast_pos.2 k.2)

theorem checkPositive_eq_error (h : checkPositive field given = .error e) :
    e = .refuse (.notPositive field given) := by
  unfold checkPositive at h
  split at h
  · split_ifs at h
    exact (Except.error.inj h).symm
  · exact (Except.error.inj h).symm

theorem checkPositive_cases (field : IntegerField) (given : Setting α) :
    ((∃ k, checkPositive field given = .ok k) ∧ ∃ n, given = .int n ∧ 0 < n) ∨
      (checkPositive field given = .error (.refuse (.notPositive field given)) ∧
        ¬ ∃ n, given = .int n ∧ 0 < n) := by
  refine cases_of_ok_iff ⟨?_, ?_⟩ fun _ => checkPositive_eq_error
  · rintro ⟨k, hk⟩
    exact ⟨k.1, checkPositive_eq_ok_iff.1 hk, Int.natCast_pos.2 k.2⟩
  · rintro ⟨n, rfl, hn⟩
    exact ⟨_, dif_pos hn⟩

theorem checkNatural_eq_ok_iff {k : ℕ} :
    checkNatural field given = .ok k ↔ given = .int k := by
  constructor
  · intro h
    unfold checkNatural at h
    split at h
    · split_ifs at h with hn
      obtain rfl := Except.ok.inj h
      rw [Int.toNat_of_nonneg hn]
    · cases h
  · rintro rfl
    rw [checkNatural, if_pos (Int.natCast_nonneg k), Int.toNat_natCast]

theorem checkNatural_eq_error (h : checkNatural field given = .error e) :
    e = .refuse (.negative field given) := by
  unfold checkNatural at h
  split at h
  · split_ifs at h
    exact (Except.error.inj h).symm
  · exact (Except.error.inj h).symm

theorem checkNatural_cases (field : IntegerField) (given : Setting α) :
    ((∃ k, checkNatural field given = .ok k) ∧ ∃ n, given = .int n ∧ 0 ≤ n) ∨
      (checkNatural field given = .error (.refuse (.negative field given)) ∧
        ¬ ∃ n, given = .int n ∧ 0 ≤ n) := by
  refine cases_of_ok_iff ⟨?_, ?_⟩ fun _ => checkNatural_eq_error
  · rintro ⟨k, hk⟩
    exact ⟨k, checkNatural_eq_ok_iff.1 hk, Int.natCast_nonneg k⟩
  · rintro ⟨n, rfl, hn⟩
    exact ⟨_, if_pos hn⟩

end

/-! ## Numbers -/

section
variable {α : Type} [Scalar α] {given : Setting α} {x : α} {e : Fault α}

theorem checkThreshold_of_number (hx : given.number? = some x) :
    checkThreshold given =
      if h : 0 ≤ x ∧ x ≤ 1 then .ok ⟨x, h⟩ else .error (.refuse (.threshold given)) := by
  unfold checkThreshold
  rw [hx]

theorem checkFinite_of_number (hentries : given.nested.entries? = some [given])
    (htestable : isTestable given = true) (hx : given.number? = some x) :
    checkFinite given = .ok (Scalar.isFinite x) := by
  rw [checkFinite, hentries]
  simp [htestable, hx]

theorem checkConcentration_of_number (hentries : given.nested.entries? = some [given])
    (htestable : isTestable given = true) (hx : given.number? = some x) :
    checkConcentration given =
      if h : Scalar.isFinite x = true ∧ 0 < x then .ok ⟨x, h⟩
      else .error (.refuse (.concentration given)) := by
  rw [checkConcentration, checkFinite_of_number hentries htestable hx]
  by_cases hfinite : Scalar.isFinite x = true
  · simp [hfinite, hx, bind, Except.bind]
  · simp [hfinite, bind, Except.bind]

theorem number?_of_checkConcentration {r : { x : α // Scalar.isFinite x = true ∧ 0 < x }}
    (h : checkConcentration given = .ok r) : given.number? = some r.1 := by
  obtain ⟨finite, -, h⟩ := bind_eq_ok.1 h
  split_ifs at h
  rcases hx : given.number? with _ | x
  · rw [hx] at h
    cases h
  · rw [hx] at h
    simp only at h
    split_ifs at h
    obtain rfl := Except.ok.inj h
    rfl

theorem checkConcentration_of_untestable (hentries : given.nested.entries? = some [given])
    (htestable : isTestable given = false) : checkConcentration given = .error .wrongKind := by
  rw [checkConcentration, checkFinite, hentries]
  simp [htestable, bind, Except.bind]

end

/-! ## The threshold and the concentration -/

section
variable {given : Setting Float} {x : Float}

theorem not_admits_of_number?_eq_none (hx : given.number? = none) :
    ¬ Admits alpha0 given ∧ ¬ Admits threshold given := by
  cases given with
  | flag b => cases hx
  | int n => cases hx
  | real y => cases hx
  | text t => exact ⟨id, id⟩
  | absent => exact ⟨id, id⟩
  | list xs => exact ⟨id, id⟩
  | generator => exact ⟨id, id⟩

/-- A threshold is compared as a double. -/
theorem admits_threshold_iff (hx : given.number? = some x) :
    Admits threshold given ↔ 0.0 ≤ x ∧ x ≤ 1.0 := by
  cases given with
  | flag b =>
    obtain rfl := Option.some.inj hx
    cases b <;> exact iff_of_true trivial (by decide +kernel)
  | int n =>
    obtain rfl := Option.some.inj hx
    exact (zero_le_ofInt_iff.and ofInt_le_one_iff).symm
  | real y =>
    obtain rfl := Option.some.inj hx
    exact Iff.rfl
  | text t => cases hx
  | absent => cases hx
  | list xs => cases hx
  | generator => cases hx

theorem checkThreshold_cases (given : Setting Float) :
    ((∃ t, checkThreshold given = .ok t) ∧ Admits threshold given) ∨
      (checkThreshold given = .error (fault threshold given) ∧ ¬ Admits threshold given) := by
  rw [fault]
  rcases hx : given.number? with _ | x
  · refine .inr ⟨?_, (not_admits_of_number?_eq_none hx).2⟩
    rw [checkThreshold, hx, if_pos rfl]
  · rw [admits_threshold_iff hx, checkThreshold_of_number hx, if_neg (Option.some_ne_none x)]
    by_cases hunit : 0.0 ≤ x ∧ x ≤ 1.0
    · exact .inl ⟨⟨⟨x, hunit⟩, dif_pos hunit⟩, hunit⟩
    · exact .inr ⟨dif_neg hunit, hunit⟩

/-- A concentration is compared as a double, if it can be tested for being finite. -/
theorem admits_alpha0_iff (hx : given.number? = some x) :
    Admits alpha0 given ↔ isTestable given = true ∧ x.isFinite = true ∧ 0.0 < x := by
  cases given with
  | flag b =>
    obtain rfl := Option.some.inj hx
    cases b
    · exact iff_of_false Bool.false_ne_true (by decide +kernel)
    · exact iff_of_true rfl (by decide +kernel)
  | int n =>
    obtain rfl := Option.some.inj hx
    have hrange : isTestable (.int n : Setting Float) = true ↔ -2 ^ 63 ≤ n ∧ n < 2 ^ 64 := by
      rw [isTestable, Bool.and_eq_true, decide_eq_true_iff, decide_eq_true_iff]
      exact Iff.rfl
    have hpos : (0.0 : Float) < Float.ofInt n ↔ 0 < n := zero_lt_ofInt_iff
    rw [hrange]
    constructor
    · rintro ⟨hn, hsize⟩
      exact ⟨⟨by omega, hsize⟩, isFinite_ofInt hn.le hsize, hpos.2 hn⟩
    · rintro ⟨⟨-, hsize⟩, -, hn⟩
      exact ⟨hpos.1 hn, hsize⟩
  | real y =>
    obtain rfl := Option.some.inj hx
    exact (and_iff_right rfl).symm
  | text t => cases hx
  | absent => cases hx
  | list xs => cases hx
  | generator => cases hx

theorem exists_number?_of_isTestable (h : isTestable given = true) :
    ∃ x, given.number? = some x := by
  cases given with
  | flag b => exact ⟨_, rfl⟩
  | int n => exact ⟨_, rfl⟩
  | real y => exact ⟨_, rfl⟩
  | text t => cases h
  | absent => cases h
  | list xs => cases h
  | generator => cases h

/-- A list is never a concentration. -/
theorem checkConcentration_list (xs : List (Setting Float)) :
    checkConcentration (.list xs) = .error (concentrationFault (.list xs)) := by
  rw [checkConcentration, checkFinite, concentrationFault]
  rcases (Setting.list xs).nested.entries? with _ | ys
  · rfl
  by_cases htestable : ys.all isTestable = true
  · simp only [htestable, if_true]
    rcases ys with _ | ⟨y, _ | ⟨z, zs⟩⟩
    · rfl
    · have hy : isTestable y = true := by simpa using htestable
      obtain ⟨x, hx⟩ := exists_number?_of_isTestable hy
      have hfinite : ((some x).map Float.isFinite).getD false = Scalar.isFinite x := rfl
      simp only [List.map_cons, List.map_nil, hx, hfinite]
      rcases Scalar.isFinite x with _ | _ <;> rfl
    · rw [List.map_cons, List.map_cons]
      rcases y.number? with _ | x <;> rfl
  · simp only [htestable]
    rfl

/-- What is no list is tested as it is. -/
theorem checkConcentration_cases_of_entries? (hentries : given.nested.entries? = some [given])
    (hlist : ∀ xs, given ≠ .list xs) :
    ((∃ r, checkConcentration given = .ok r) ∧ Admits alpha0 given) ∨
      (checkConcentration given = .error (fault alpha0 given) ∧ ¬ Admits alpha0 given) := by
  have hfault : fault alpha0 given =
      if isTestable given = true then .refuse (.concentration given) else .wrongKind := by
    rw [fault, concentrationFault, hentries]
    cases given with
    | list xs => exact absurd rfl (hlist xs)
    | _ => simp
  by_cases htestable : isTestable given = true
  · obtain ⟨x, hx⟩ := exists_number?_of_isTestable htestable
    rw [hfault, if_pos htestable, admits_alpha0_iff hx, and_iff_right htestable,
      checkConcentration_of_number hentries htestable hx]
    by_cases hpos : x.isFinite = true ∧ 0.0 < x
    · exact .inl ⟨⟨⟨x, hpos⟩, dif_pos hpos⟩, hpos⟩
    · exact .inr ⟨dif_neg hpos, hpos⟩
  · rw [hfault, if_neg htestable,
      checkConcentration_of_untestable hentries (Bool.eq_false_iff.2 htestable)]
    refine .inr ⟨rfl, fun hadmits => htestable ?_⟩
    rcases hx : given.number? with _ | x
    · exact absurd hadmits (not_admits_of_number?_eq_none hx).1
    · exact ((admits_alpha0_iff hx).1 hadmits).1

theorem checkConcentration_cases (given : Setting Float) :
    ((∃ r, checkConcentration given = .ok r) ∧ Admits alpha0 given) ∨
      (checkConcentration given = .error (fault alpha0 given) ∧ ¬ Admits alpha0 given) := by
  cases given with
  | list xs => exact .inr ⟨checkConcentration_list xs, id⟩
  | _ => exact checkConcentration_cases_of_entries? rfl nofun

end

/-! ## All fields -/

section
variable {given : Setting Float}

theorem admits_positive_iff {f : ConfigField} (hf : f = clusters ∨ f = thin) :
    f.Admits given ↔ ∃ n, given = .int n ∧ 0 < n := by
  rcases hf with rfl | rfl <;> cases given <;> simp [Admits]

theorem admits_natural_iff {f : ConfigField} (hf : f = burnin ∨ f = iterations) :
    f.Admits given ↔ ∃ n, given = .int n ∧ 0 ≤ n := by
  rcases hf with rfl | rfl <;> cases given <;> simp [Admits]

theorem checkSource_cases (given : Setting Float) :
    (checkSource given = .ok () ∧ source.Admits given) ∨
      (checkSource given = .error (source.fault given) ∧ ¬ source.Admits given) := by
  cases given with
  | generator => exact .inl ⟨rfl, trivial⟩
  | flag b => exact .inl ⟨rfl, trivial⟩
  | int n =>
    by_cases hn : n < 0
    · exact .inr ⟨if_pos hn, not_le.2 hn⟩
    · exact .inl ⟨if_neg hn, not_lt.1 hn⟩
  | _ => exact .inr ⟨rfl, id⟩

/-- A field that is compared with zero, or with one, is refused in words unless its value is
    too long for them. -/
theorem kind_fault {f : ConfigField} (hsource : f ≠ source) (halpha0 : f ≠ alpha0)
    (hthreshold : f = threshold → given.number? ≠ none) :
    (f.fault given).kind = if given.isWritable then .configuration else .value := by
  cases f with
  | source => exact absurd rfl hsource
  | alpha0 => exact absurd rfl halpha0
  | threshold => rw [fault, if_neg (hthreshold rfl), Fault.kind_refuse, Refusal.isWritable]
  | _ => rw [fault, Fault.kind_refuse, Refusal.isWritable]

/-- **A check says whether a field holds what it has to**, and which fault it is if not. -/
theorem check_cases (f : ConfigField) (given : Setting Float) :
    (f.check given = .ok () ∧ f.Admits given) ∨
      (f.check given = .error (f.fault given) ∧ ¬ f.Admits given) := by
  cases f with
  | source => exact checkSource_cases given
  | clusters =>
    rw [admits_positive_iff (.inl rfl)]
    exact map_cases (checkPositive_cases .clusters given)
  | thin =>
    rw [admits_positive_iff (.inr rfl)]
    exact map_cases (checkPositive_cases .thin given)
  | burnin =>
    rw [admits_natural_iff (.inl rfl)]
    exact map_cases (checkNatural_cases .burnin given)
  | iterations =>
    rw [admits_natural_iff (.inr rfl)]
    exact map_cases (checkNatural_cases .iterations given)
  | alpha0 => exact map_cases (checkConcentration_cases given)
  | threshold => exact map_cases (checkThreshold_cases given)

end

end ConfigField

end DirichletMixture
