/-
  DirichletMixture: nested values that are arrays.

  * `Nested.eq_ofList_of_shape?`: an array with one depth is a vector, and
    `Nested.length_flattenAll` counts its numbers;
  * `Nested.map` does the same to every number.  It keeps the shape, and what is an array
    stays one: `shape?_map` and `entries?_map`.
-/
import DirichletMixture.Nested

namespace DirichletMixture

namespace Nested

variable {α β : Type}

/-! ## Arrays with one depth -/

theorem exists_scalar_of_lengths? {x : Nested α} (h : x.lengths? = some []) :
    ∃ a, x = .scalar a := by
  cases x with
  | scalar a => exact ⟨a, rfl⟩
  | list xs =>
    obtain ⟨ns, -, hns⟩ := Option.map_eq_some_iff.1 h
    cases hns

theorem exists_map_scalar_of_commonLengths? {xs : List (Nested α)}
    (h : commonLengths? xs = some []) : ∃ w : List α, xs = w.map .scalar := by
  induction xs with
  | nil => exact ⟨[], rfl⟩
  | cons x xs ih =>
    cases xs with
    | nil =>
      obtain ⟨a, rfl⟩ := exists_scalar_of_lengths? h
      exact ⟨[a], rfl⟩
    | cons y ys =>
      rw [commonLengths?] at h
      split at h
      · rename_i s t hs ht
        by_cases hst : s = t
        · rw [if_pos hst] at h
          obtain rfl := Option.some.inj h
          obtain ⟨a, rfl⟩ := exists_scalar_of_lengths? hs
          obtain ⟨w, hw⟩ := ih (hst ▸ ht)
          exact ⟨a :: w, by rw [hw, List.map_cons]⟩
        · rw [if_neg hst] at h
          cases h
      · cases h

theorem eq_ofList_of_shape? {x : Nested α} {n : Nat} (h : x.shape? = some [n]) :
    ∃ w : List α, x = ofList w ∧ w.length = n := by
  obtain ⟨hlengths, -⟩ := Option.filter_eq_some_iff.1 h
  cases x with
  | scalar a => cases hlengths
  | list xs =>
    rw [lengths?] at hlengths
    obtain ⟨ns, hns, hcons⟩ := Option.map_eq_some_iff.1 hlengths
    obtain ⟨hn, rfl⟩ := List.cons.inj hcons
    obtain ⟨w, rfl⟩ := exists_map_scalar_of_commonLengths? hns
    exact ⟨w, rfl, by rw [← hn, List.length_map]⟩

theorem length_flattenAll {xs : List (Nested α)} {n : Nat}
    (h : (Nested.list xs).shape? = some [n]) : (flattenAll xs).length = n := by
  obtain ⟨w, hw, hlen⟩ := eq_ofList_of_shape? h
  obtain rfl := Nested.list.inj hw
  rw [flattenAll_map_scalar, hlen]

/-! ## The same for every number -/

mutual

def map (f : α → β) : Nested α → Nested β
  | .scalar x => .scalar (f x)
  | .list xs => .list (mapAll f xs)

/-- All members of a list with the same done to their numbers. -/
def mapAll (f : α → β) : List (Nested α) → List (Nested β)
  | [] => []
  | x :: xs => x.map f :: mapAll f xs

end

variable (f : α → β)

mutual

theorem flatten_map (x : Nested α) : (x.map f).flatten = x.flatten.map f := by
  cases x with
  | scalar x => rfl
  | list xs => exact flattenAll_mapAll xs

theorem flattenAll_mapAll (xs : List (Nested α)) :
    flattenAll (mapAll f xs) = (flattenAll xs).map f := by
  cases xs with
  | nil => rfl
  | cons x xs =>
    rw [mapAll, flattenAll, flattenAll, flatten_map x, flattenAll_mapAll xs, List.map_append]

end

theorem length_mapAll (xs : List (Nested α)) : (mapAll f xs).length = xs.length := by
  induction xs with
  | nil => rfl
  | cons x xs ih => rw [mapAll, List.length_cons, List.length_cons, ih]

mutual

theorem lengths?_map (x : Nested α) : (x.map f).lengths? = x.lengths? := by
  cases x with
  | scalar x => rfl
  | list xs => rw [map, lengths?, lengths?, commonLengths?_mapAll xs, length_mapAll]

theorem commonLengths?_mapAll (xs : List (Nested α)) :
    commonLengths? (mapAll f xs) = commonLengths? xs := by
  match xs with
  | [] => rfl
  | [x] => exact lengths?_map x
  | x :: y :: ys =>
    have hrest : commonLengths? (y.map f :: mapAll f ys) = commonLengths? (y :: ys) :=
      commonLengths?_mapAll (y :: ys)
    rw [mapAll, mapAll, commonLengths?, commonLengths?, lengths?_map x, hrest]

end

@[simp] theorem shape?_map (x : Nested α) : (x.map f).shape? = x.shape? := by
  rw [shape?, shape?, lengths?_map]

theorem entries?_map (x : Nested α) : (x.map f).entries? = x.entries?.map (List.map f) := by
  rw [entries?, entries?, shape?_map, flatten_map, Option.map_map]
  rfl

end Nested

end DirichletMixture
