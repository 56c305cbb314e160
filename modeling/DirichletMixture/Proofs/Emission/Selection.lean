/-
  DirichletMixture: what a policy hands out.

  * `mem_emitAbove_iff`: above a threshold, a cluster gets a point if its share is above
    the threshold and it ever absorbed an observation;
  * `exists_emit_of_threshold`: emission of a point that can be scored.
-/
import DirichletMixture.Emission.Collector
import DirichletMixture.Proofs.Attempt

namespace DirichletMixture

variable {O α : Type} [Scalar α]

/-- Above a threshold, a cluster gets a point with its share if the share is above the
    threshold and the cluster is not empty. -/
theorem mem_emitAbove_iff {threshold : α} {x : O} {start : Nat} {cs : List (Candidate O α)}
    {pi : List α} {e : Emitted O α} :
    e ∈ emitAbove threshold x start cs pi ↔
      ∃ j c weight, cs[j]? = some c ∧ pi[j]? = some weight ∧ threshold < weight ∧ 0 < c.count ∧
        e = ⟨start + j, weight, x⟩ := by
  induction cs generalizing start pi with
  | nil => simp [emitAbove]
  | cons c cs ih =>
    cases pi with
    | nil => simp [emitAbove]
    | cons weight pi =>
      -- the first cluster gets the point or not, the others as the induction says
      have hrest : e ∈ emitAbove threshold x (start + 1) cs pi ↔
          ∃ j c' weight', (c :: cs)[j + 1]? = some c' ∧ (weight :: pi)[j + 1]? = some weight' ∧
            threshold < weight' ∧ 0 < c'.count ∧ e = ⟨start + (j + 1), weight', x⟩ := by
        simp only [ih, List.getElem?_cons_succ, Nat.add_assoc, Nat.add_comm 1]
      have hsplit : (e ∈ emitAbove threshold x start (c :: cs) (weight :: pi)) ↔
          (threshold < weight ∧ 0 < c.count ∧ e = ⟨start, weight, x⟩) ∨
            e ∈ emitAbove threshold x (start + 1) cs pi := by
        rw [emitAbove]
        by_cases h : threshold < weight ∧ 0 < c.count
        · rw [if_pos h]
          simp [h]
        · rw [if_neg h, ← and_assoc]
          simp only [h, false_and, false_or]
      rw [hsplit, hrest]
      constructor
      · rintro (⟨hlt, hcount, rfl⟩ | ⟨j, h⟩)
        · exact ⟨0, c, weight, rfl, rfl, hlt, hcount, rfl⟩
        · exact ⟨j + 1, h⟩
      · rintro ⟨j, c', weight', hc, hweight, hlt, hcount, rfl⟩
        cases j with
        | zero =>
          obtain rfl := Option.some.inj hc
          obtain rfl := Option.some.inj hweight
          exact .inl ⟨hlt, hcount, rfl⟩
        | succ j => exact .inr ⟨j, c', weight', hc, hweight, hlt, hcount, rfl⟩

/-- **Emission above a threshold.**  A point with shares goes to the clusters that are not
    empty and have a share above the threshold, and to no others. -/
theorem exists_emit_of_threshold {p : Policy α} (hp : p.mode = .threshold)
    {cs : List (Candidate O α)} {x : O} {pi : List α} (h : shares cs x = .ok pi) :
    ∃ es, emit p cs x = .ok es ∧ ∀ k weight, (⟨k, weight, x⟩ : Emitted O α) ∈ es ↔
      ∃ c, cs[k]? = some c ∧ pi[k]? = some weight ∧ p.threshold < weight ∧ 0 < c.count := by
  refine ⟨emitAbove p.threshold x 0 cs pi, by simp [emit, h, Except.map, Policy.select, hp], ?_⟩
  intro k weight
  rw [mem_emitAbove_iff]
  constructor
  · rintro ⟨j, c, weight', hc, hweight, hlt, hcount, he⟩
    rw [Nat.zero_add] at he
    cases he
    exact ⟨c, hc, hweight, hlt, hcount⟩
  · rintro ⟨c, hc, hweight, hlt, hcount⟩
    exact ⟨k, c, weight, hc, hweight, hlt, hcount, by rw [Nat.zero_add]⟩

end DirichletMixture
