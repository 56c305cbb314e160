/-
  DirichletMixture: a generator that keeps to the ranges of its draws.

  A script with nothing laid down takes all its draws from the congruence.  Its uniform
  draws lie between zero and one, and so do its beta draws.

  * `Script.seeded` is the generator whose source is the state of the congruence;
  * `unitUniform_seeded`, `unitShares_seeded` and `servesShares_seeded`: what it keeps to;
  * `evenTallies` are tallies beside such a source that are drawn in the right number, and
    `Chain.start_evenTallies`: every plan starts with them.
-/
import DirichletMixture.Proofs.Exact.Basic
import DirichletMixture.Proofs.Chain.Tallies
import DirichletMixture.Proofs.Weights.Stick
import DirichletMixture.Proofs.Weights.Support

namespace DirichletMixture

variable {O K : Type}

/-- The generator that takes all its draws from the congruence. -/
def Script.seeded [Scalar K] : Generator UInt64 K :=
  Script.generator.focus (fun seed => ⟨[], seed, 0⟩) fun script _ => script.seed

namespace Script

variable [Exact K]

theorem fraction_mem (s : UInt64) : 0 ≤ (fraction s : K) ∧ (fraction s : K) < 1 := by
  have hlt : (s >>> 11).toNat < 2 ^ 53 := by
    have hs := s.toNat_lt
    rw [UInt64.toNat_shiftRight]
    simp only [UInt64.reduceToNat, Nat.reduceMod, Nat.shiftRight_eq_div_pow, Nat.reducePow] at hs ⊢
    omega
  have hpos : (0 : K) < (Nat.pow 2 53 : Nat) := Nat.cast_pos.2 (Nat.pow_pos Nat.two_pos)
  refine ⟨div_nonneg (Nat.cast_nonneg _) hpos.le, ?_⟩
  exact (div_lt_one hpos).2 (Nat.cast_lt.2 hlt)

theorem unitUniform_seeded : (seeded : Generator UInt64 K).UnitUniform := by
  intro s
  exact fraction_mem (step s)

theorem servesShares_seeded : (seeded : Generator UInt64 K).ServesShares :=
  servesShares_script.focus _ _

theorem unitShares_seeded : (seeded : Generator UInt64 K).UnitShares := by
  intro a b s x s' ha hb h
  obtain ⟨hlow, hhigh⟩ := fraction_mem (K := K) (step s)
  have hx : a * fraction (step s) / (a * fraction (step s) + b * (1 - fraction (step s))) = x := by
    have hrun := (Prod.mk.inj h).1
    simp only [generator, beta, if_pos ha, if_pos hb] at hrun
    exact Except.ok.inj hrun
  have hfirst : 0 ≤ a * fraction (step s) := mul_nonneg ha.le hlow
  have hsecond : 0 < b * (1 - fraction (step s)) := mul_pos hb (sub_pos.2 hhigh)
  have hsum := add_pos_of_nonneg_of_pos hfirst hsecond
  rw [← hx]
  exact ⟨div_nonneg hfirst hsum.le, (div_le_one hsum).2 (le_add_of_nonneg_right hsecond.le)⟩

end Script

/-- Tallies that are always drawn in the right number, and leave the source alone. -/
def evenTallies (density : Nat → O → Except (Fault K) K) : Family UInt64 O (Tally O) K :=
  (tabulated density none).focus (fun _ => []) fun _ seed => seed

namespace Chain

variable [Scalar K]

/-- A chain of fresh tallies beside a seed. -/
def ofEvenTallies (plan : Plan K) (data : List O) (seed : UInt64) :
    Chain UInt64 O (Tally O) K :=
  ofMixture plan data (Mixture.ofModels plan.alpha0 (Tally.freshList plan.clusters)) seed

theorem start_evenTallies (density : Nat → O → Except (Fault K) K) (plan : Plan K)
    (data : List O) (seed : UInt64) :
    start (evenTallies density) plan data seed = (.ok (ofEvenTallies plan data seed), seed) :=
  start_eq_ok.2 ⟨Tally.freshList plan.clusters, rfl, Tally.length_freshList _, rfl⟩

end Chain

end DirichletMixture
