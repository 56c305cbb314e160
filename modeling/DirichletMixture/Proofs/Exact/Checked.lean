/-
  DirichletMixture: exact arithmetic in which nothing can be divided by zero.

  A checked number is a number or undefined.  A quotient by zero is undefined, and so is
  everything that is computed from something undefined.  The library can be read over
  checked numbers too: a result that is defined was computed without dividing by zero.

  * `Checked` are these numbers and `instScalarChecked` makes scalars of them;
  * `value_add`, `value_div` and their neighbours: on numbers the operations are those of
    the field, but for quotients by zero;
  * `pairwiseSum_map`: sums go together with additive maps, so that those of numbers are
    defined;
  * `Attempt.Mirrors` says that an attempt over checked numbers does what another one does,
    and `Generator.checked` is a generator whose draws mirror those of another one.
-/
import Mathlib.Tactic.NormNum
import DirichletMixture.Proofs.Exact.Basic
import DirichletMixture.Generator.Basic

namespace DirichletMixture

variable {ω α β K : Type}

/-- A number, or the result of a computation that has divided by zero. -/
inductive Checked (K : Type) where
  | value (x : K)
  | undefined

namespace Checked

/-- The number, if there is one. -/
def value? : Checked K → Option K
  | value x => some x
  | undefined => none

def map (f : K → K) : Checked K → Checked K
  | value x => value (f x)
  | undefined => undefined

def map₂ (f : K → K → K) : Checked K → Checked K → Checked K
  | value x, value y => value (f x y)
  | _, _ => undefined

/-- A relation between numbers, which nothing undefined stands in. -/
def Holds (r : K → K → Prop) : Checked K → Checked K → Prop
  | value x, value y => r x y
  | _, _ => False

instance instDecidableHolds (r : K → K → Prop) [DecidableRel r] : DecidableRel (Holds r)
  | value x, value y => inferInstanceAs (Decidable (r x y))
  | value _, undefined => isFalse id
  | undefined, value _ => isFalse id
  | undefined, undefined => isFalse id

variable [Exact K]

/-- The quotient of two numbers, undefined if the second one is zero. -/
def div : Checked K → Checked K → Checked K
  | value x, value y => if y = 0 then undefined else value (x / y)
  | _, _ => undefined

end Checked

section
variable [Exact K]

/-- Checked numbers as scalars; what is undefined counts as no number. -/
instance instScalarChecked : Scalar (Checked K) where
  zero := .value 0
  one := .value 1
  add := Checked.map₂ (· + ·)
  sub := Checked.map₂ (· - ·)
  mul := Checked.map₂ (· * ·)
  div := Checked.div
  neg := Checked.map (- ·)
  lt := Checked.Holds (· < ·)
  le := Checked.Holds (· ≤ ·)
  natCast n := .value n
  intCast n := .value n
  decLT := inferInstanceAs (DecidableRel (Checked.Holds (· < ·)))
  decLE := inferInstanceAs (DecidableRel (Checked.Holds (· ≤ ·)))
  isNaN x := x.value?.isNone
  isFinite x := x.value?.isSome
  exp := Checked.map Exact.exp
  sqrt := Checked.map Exact.sqrt
  pi := .value Exact.pi
  power x n := x.map (· ^ n)

/-- A numeral is read as the number that it is without checks. -/
instance instReadableChecked [Readable K] : Readable (Checked K) where
  ofNumeral n := .value (Readable.ofNumeral n)

namespace Checked

variable {x y : K}

@[simp] theorem zero_eq : (0 : Checked K) = value 0 := rfl

@[simp] theorem one_eq : (1 : Checked K) = value 1 := rfl

@[simp] theorem natCast_eq (n : Nat) : (n : Checked K) = value (n : K) := rfl

@[simp] theorem intCast_eq (n : Int) : (n : Checked K) = value (n : K) := rfl

@[simp] theorem value_add : value x + value y = value (x + y) := rfl

@[simp] theorem value_sub : value x - value y = value (x - y) := rfl

@[simp] theorem value_mul : value x * value y = value (x * y) := rfl

@[simp] theorem value_neg : -value x = value (-x) := rfl

/-- The one operation that may be undefined. -/
theorem value_div (hy : y ≠ 0) : value x / value y = value (x / y) := if_neg hy

@[simp] theorem value_lt_value : value x < value y ↔ x < y := Iff.rfl

@[simp] theorem isNaN_value : Scalar.isNaN (value x) = false := rfl

@[simp] theorem isFinite_value : Scalar.isFinite (value x) = true := rfl

@[simp] theorem sqrt_value : Scalar.sqrt (value x) = value (Scalar.sqrt x) := rfl

@[simp] theorem exp_value : Scalar.exp (value x) = value (Scalar.exp x) := rfl

@[simp] theorem pi_eq : (Scalar.pi : Checked K) = value Scalar.pi := rfl

@[simp] theorem power_value (n : Nat) :
    Scalar.power (value x) n = value (Scalar.power x n) := rfl

@[simp] theorem square_value : square (value x) = value (square x) := rfl

@[simp] theorem two_eq_value : (two : Checked K) = value two := rfl

@[simp] theorem half_eq_value : (half : Checked K) = value half :=
  value_div scalarTwo_pos.ne'

@[simp] theorem larger_value : larger (value x) (value y) = value (larger x y) := by
  have hexceeds : exceeds (value x) (value y) = exceeds x y := rfl
  rw [larger, larger, hexceeds, apply_ite value]

end Checked

end

/-! ## Sums -/

section
variable [Scalar α] [Scalar β] {f : α → β}

def Lanes.map (f : α → β) (l : Lanes α) : Lanes β :=
  ⟨f l.l0, f l.l1, f l.l2, f l.l3, f l.l4, f l.l5, f l.l6, f l.l7⟩

omit [Scalar α] [Scalar β] in
theorem exists_eight_of_map {xs : List α} {y0 y1 y2 y3 y4 y5 y6 y7 : β} {ys : List β}
    (h : xs.map f = y0 :: y1 :: y2 :: y3 :: y4 :: y5 :: y6 :: y7 :: ys) :
    ∃ x0 x1 x2 x3 x4 x5 x6 x7 xs', xs = x0 :: x1 :: x2 :: x3 :: x4 :: x5 :: x6 :: x7 :: xs' := by
  simp only [List.map_eq_cons_iff] at h
  obtain ⟨x0, _, rfl, -, x1, _, rfl, -, x2, _, rfl, -, x3, _, rfl, -, x4, _, rfl, -,
    x5, _, rfl, -, x6, _, rfl, -, x7, _, rfl, -, -⟩ := h
  exact ⟨x0, x1, x2, x3, x4, x5, x6, x7, _, rfl⟩

variable (hadd : ∀ x y, f (x + y) = f x + f y)
include hadd

theorem foldl_add_map (x : α) (xs : List α) :
    (xs.map f).foldl (· + ·) (f x) = f (xs.foldl (· + ·) x) := by
  induction xs generalizing x with
  | nil => rfl
  | cons y ys ih => rw [List.map_cons, List.foldl_cons, List.foldl_cons, ← hadd, ih]

theorem Lanes.sum_map (l : Lanes α) (xs : List α) :
    (l.map f).sum (xs.map f) = f (l.sum xs) := by
  fun_induction Lanes.sum l xs with
  | case1 l x0 x1 x2 x3 x4 x5 x6 x7 xs ih =>
    rw [← ih]
    simp only [List.map_cons, Lanes.sum, Lanes.map, hadd]
  | case2 l xs hshort =>
    have hjoin : (l.map f).join = f l.join := by simp only [Lanes.join, Lanes.map, hadd]
    rw [← foldl_add_map hadd, ← hjoin, Lanes.sum]
    intro y0 y1 y2 y3 y4 y5 y6 y7 ys hys
    obtain ⟨_, _, _, _, _, _, _, _, _, rfl⟩ := exists_eight_of_map hys
    exact hshort _ _ _ _ _ _ _ _ _ rfl

variable (hzero : f 0 = 0)
include hzero

theorem sequentialSum_map (xs : List α) :
    sequentialSum (xs.map f) = f (sequentialSum xs) := by
  cases xs with
  | nil => exact hzero.symm
  | cons x xs => exact foldl_add_map hadd x xs

theorem blockSum_map (xs : List α) : blockSum (xs.map f) = f (blockSum xs) := by
  fun_cases blockSum xs with
  | case1 x0 x1 x2 x3 x4 x5 x6 x7 xs =>
    exact Lanes.sum_map hadd ⟨x0, x1, x2, x3, x4, x5, x6, x7⟩ xs
  | case2 xs hshort =>
    rw [← sequentialSum_map hadd hzero, blockSum]
    intro y0 y1 y2 y3 y4 y5 y6 y7 ys hys
    obtain ⟨_, _, _, _, _, _, _, _, _, rfl⟩ := exists_eight_of_map hys
    exact hshort _ _ _ _ _ _ _ _ _ rfl

theorem blockwiseSum_map (xs : List α) :
    blockwiseSum (xs.map f) = f (blockwiseSum xs) := by
  fun_induction blockwiseSum xs with
  | case1 xs h ih₁ ih₂ =>
    rw [blockwiseSum, List.length_map, if_pos h, ← List.map_take, ← List.map_drop, ih₁, ih₂, hadd]
  | case2 xs h => rw [blockwiseSum, List.length_map, if_neg h, blockSum_map hadd hzero]

/-- **An additive map goes together with the sum of a vector**, in whatever order it is
    taken. -/
theorem pairwiseSum_map (xs : List α) : pairwiseSum (xs.map f) = f (pairwiseSum xs) := by
  rw [pairwiseSum, pairwiseSum, blockwiseSum_map hadd hzero, hadd, hzero]

end

/-! ## Outcomes -/

section
variable {ε ε' : Type}

theorem toOption_map (r : Except ε α) (f : α → β) :
    (r.map f).toOption = r.toOption.map f := by
  cases r <;> rfl

theorem toOption_bind (r : Except ε α) (f : α → Except ε β) :
    (r >>= f).toOption = r.toOption.bind fun x => (f x).toOption := by
  cases r <;> rfl

theorem toOption_eq_map {r : Except ε α} {r' : Except ε' β} {f : α → β}
    (h : r'.toOption = r.toOption.map f) :
    (∃ e e', r = .error e ∧ r' = .error e') ∨ ∃ x, r = .ok x ∧ r' = .ok (f x) := by
  rcases r with e | x <;> rcases r' with e' | y
  · exact .inl ⟨e, e', rfl, rfl⟩
  · cases h
  · cases h
  · exact .inr ⟨x, rfl, congrArg Except.ok (Option.some.inj h)⟩

end

namespace Attempt

variable {γ β' γ' : Type}

/-- The second attempt, over checked numbers, does what the first one does: it succeeds if
    that one does, with the value taken over, and leaves the same state behind. -/
def Mirrors (V : β → γ) (a : Attempt ω K β) (a' : Attempt ω (Checked K) γ) : Prop :=
  ∀ s, (a'.runOn s).1.toOption = (a.runOn s).1.toOption.map V ∧ (a'.runOn s).2 = (a.runOn s).2

variable {V : β → γ} {W : β' → γ'}

theorem Mirrors.pure (b : β) :
    Mirrors V (pure b : Attempt ω K β) (pure (V b) : Attempt ω (Checked K) γ) := by
  intro s
  exact ⟨rfl, rfl⟩

theorem Mirrors.ofExcept {r : Except (Fault K) β} {r' : Except (Fault (Checked K)) γ}
    (h : r'.toOption = r.toOption.map V) :
    Mirrors V (ofExcept r : Attempt ω K β) (ofExcept r' : Attempt ω (Checked K) γ) := by
  intro s
  exact ⟨h, rfl⟩

theorem Mirrors.bind {a : Attempt ω K β} {a' : Attempt ω (Checked K) γ}
    {f : β → Attempt ω K β'} {f' : γ → Attempt ω (Checked K) γ'} (h : Mirrors V a a')
    (hf : ∀ s b t, a.runOn s = (.ok b, t) → Mirrors W (f b) (f' (V b))) :
    Mirrors W (a >>= f) (a' >>= f') := by
  intro s
  have hs := h s
  rcases ha : a.runOn s with ⟨r, t⟩
  rcases ha' : a'.runOn s with ⟨r', t'⟩
  rw [ha, ha'] at hs
  obtain ⟨hvalue, rfl⟩ : r'.toOption = r.toOption.map V ∧ t' = t := hs
  rcases toOption_eq_map hvalue with ⟨e, e', rfl, rfl⟩ | ⟨b, rfl, rfl⟩
  · rw [runOn_bind_error ha, runOn_bind_error ha']
    exact ⟨rfl, rfl⟩
  · rw [runOn_bind_ok ha, runOn_bind_ok ha']
    exact hf s b t' ha t'

end Attempt

/-! ## Generators -/

/-- An attempt with its value taken over to checked numbers; a fault loses its cause. -/
def Attempt.takenOver {γ : Type} (V : β → γ) (a : Attempt ω K β) : Attempt ω (Checked K) γ :=
  .of fun s =>
    match a.runOn s with
    | (.ok b, t) => (.ok (V b), t)
    | (.error _, t) => (.error .wrongKind, t)

theorem Attempt.mirrors_takenOver {γ : Type} (V : β → γ) (a : Attempt ω K β) :
    a.Mirrors V (a.takenOver V) := by
  intro s
  rw [takenOver, runOn_of]
  rcases a.runOn s with ⟨e | b, t⟩ <;> exact ⟨rfl, rfl⟩

/-- The numbers of a vector, if none of them is undefined. -/
def Checked.values? (xs : List (Checked K)) : Option (List K) := xs.mapM value?

@[simp] theorem Checked.values?_map (xs : List K) : values? (xs.map value) = some xs := by
  rw [values?, List.mapM_map]
  induction xs with
  | nil => rfl
  | cons x xs ih => rw [List.mapM_cons, ih]; rfl

/-- The generator that makes the same draws for checked numbers.  It refuses parameters
    that are undefined. -/
def Generator.checked (g : Generator ω K) : Generator ω (Checked K) where
  uniform s := (.value (g.uniform s).1, (g.uniform s).2)
  beta a b :=
    match a, b with
    | .value a, .value b => (g.beta a b).takenOver .value
    | _, _ => throw .wrongKind
  gamma shape scales :=
    match shape.value?, Checked.values? scales with
    | some shape, some scales => (g.gamma shape scales).takenOver (List.map .value)
    | _, _ => throw .wrongKind
  normal means deviations :=
    match Checked.values? means, Checked.values? deviations with
    | some means, some deviations => (g.normal means deviations).takenOver (List.map .value)
    | _, _ => throw .wrongKind

variable (g : Generator ω K)

theorem Generator.gamma_checked (shape : K) (scales : List K) :
    (g.gamma shape scales).Mirrors (List.map .value)
      (g.checked.gamma (.value shape) (scales.map .value)) := by
  have hdraw : g.checked.gamma (.value shape) (scales.map .value) =
      (g.gamma shape scales).takenOver (List.map .value) := by
    simp [checked, Checked.value?]
  rw [hdraw]
  exact Attempt.mirrors_takenOver _ _

theorem Generator.normal_checked (means deviations : List K) :
    (g.normal means deviations).Mirrors (List.map .value)
      (g.checked.normal (means.map .value) (deviations.map .value)) := by
  have hdraw : g.checked.normal (means.map .value) (deviations.map .value) =
      (g.normal means deviations).takenOver (List.map .value) := by
    simp [checked]
  rw [hdraw]
  exact Attempt.mirrors_takenOver _ _

end DirichletMixture
