/-
  DirichletMixture: a collection in groups.

  Points are written to a collection one after the other, and the collection is then sorted
  into clusters.  The groups hold every point once, in the order in which it was written.

  * `firstAppearances` are the clusters of a collection, and `groupByCluster_eq`: each of
    them has the group of its points;
  * `IsStablePartition` says what groups have to do with a collection;
  * `groupByCluster_append`: what more points do to the groups;
  * `grouping_is_a_stable_partition` puts this together for what is written to a collection.
-/
import Mathlib.Algebra.Ring.Nat
import Mathlib.Data.List.Induction
import DirichletMixture.Proofs.Emission.Collecting

namespace DirichletMixture

variable {O α ι : Type} [DecidableEq ι]

/-! ## The groups of a collection -/

/-- The clusters of a collection, in the order in which they first appear. -/
def firstAppearances (es : List (Emitted O α ι)) : List ι := (es.map Emitted.cluster).eraseDups

/-- The points of a cluster. -/
def pointsOf (k : ι) (es : List (Emitted O α ι)) : List (Emitted O α ι) :=
  es.filter fun e => e.cluster = k

section
variable {es : List (Emitted O α ι)} {e : Emitted O α ι} {k : ι}

theorem mem_firstAppearances : k ∈ firstAppearances es ↔ ∃ e ∈ es, e.cluster = k := by
  rw [firstAppearances, List.mem_eraseDups, List.mem_map]

theorem firstAppearances_nil : firstAppearances ([] : List (Emitted O α ι)) = [] := rfl

theorem firstAppearances_singleton (e : Emitted O α ι) : firstAppearances [e] = [e.cluster] := rfl

theorem firstAppearances_append (es more : List (Emitted O α ι)) :
    firstAppearances (es ++ more) =
      firstAppearances es ++
        firstAppearances (more.filter fun e => e.cluster ∉ firstAppearances es) := by
  have hnew : (more.map Emitted.cluster).removeAll (es.map Emitted.cluster) =
      (more.filter fun e => e.cluster ∉ firstAppearances es).map Emitted.cluster := by
    rw [List.removeAll, List.filter_map]
    refine congrArg (List.map Emitted.cluster) (List.filter_congr fun e _ => ?_)
    rw [Function.comp_apply, List.elem_eq_mem, decide_not, firstAppearances]
    simp only [List.mem_eraseDups]
  rw [firstAppearances, List.map_append, List.eraseDups_append, hnew]
  rfl

theorem firstAppearances_concat (es : List (Emitted O α ι)) (e : Emitted O α ι) :
    firstAppearances (es ++ [e]) =
      if e.cluster ∈ firstAppearances es then firstAppearances es
      else firstAppearances es ++ [e.cluster] := by
  rw [firstAppearances_append]
  by_cases h : e.cluster ∈ firstAppearances es
  · simp [h, firstAppearances_nil]
  · simp [h, firstAppearances_singleton]

/-- A cluster appears for the first time after all those in front of it. -/
theorem pairwise_firstAppearances (es : List (Emitted O α ι)) :
    (firstAppearances es).Pairwise fun j k =>
      (es.map Emitted.cluster).idxOf j < (es.map Emitted.cluster).idxOf k := by
  induction es using List.reverseRecOn with
  | nil => exact .nil
  | append_singleton es e ih =>
    -- the places of the clusters that were there before stay as they are
    have hplace : ∀ j ∈ firstAppearances es,
        ((es ++ [e]).map Emitted.cluster).idxOf j = (es.map Emitted.cluster).idxOf j := by
      intro j hj
      rw [List.map_append, List.idxOf_append_of_mem (List.mem_eraseDups.1 hj)]
    have hbefore : (firstAppearances es).Pairwise fun j k =>
        ((es ++ [e]).map Emitted.cluster).idxOf j < ((es ++ [e]).map Emitted.cluster).idxOf k := by
      refine ih.imp_of_mem fun hj hk hlt => ?_
      rwa [hplace _ hj, hplace _ hk]
    rw [firstAppearances_concat]
    split
    · exact hbefore
    · rename_i hnew
      refine List.pairwise_append.2 ⟨hbefore, List.pairwise_singleton _ _, ?_⟩
      intro j hj k hk
      obtain rfl := List.mem_singleton.1 hk
      rw [hplace j hj, List.map_append,
        List.idxOf_append_of_notMem (mt List.mem_eraseDups.2 hnew)]
      exact Nat.lt_add_right _ (List.idxOf_lt_length_iff.2 (List.mem_eraseDups.1 hj))

theorem nodup_firstAppearances (es : List (Emitted O α ι)) : (firstAppearances es).Nodup := by
  refine (pairwise_firstAppearances es).imp ?_
  rintro j k hlt rfl
  exact Nat.lt_irrefl _ hlt

theorem pointsOf_append (k : ι) (es more : List (Emitted O α ι)) :
    pointsOf k (es ++ more) = pointsOf k es ++ pointsOf k more :=
  List.filter_append es more

theorem pointsOf_eq_nil (h : k ∉ firstAppearances es) : pointsOf k es = [] := by
  refine List.filter_eq_nil_iff.2 fun e he hk => h ?_
  exact mem_firstAppearances.2 ⟨e, he, of_decide_eq_true hk⟩

theorem pointsOf_ne_nil (h : k ∈ firstAppearances es) : pointsOf k es ≠ [] := by
  obtain ⟨e, he, hk⟩ := mem_firstAppearances.1 h
  exact List.ne_nil_of_mem (List.mem_filter.2 ⟨he, decide_eq_true hk⟩)

/-! ## One more point -/

/-- A point joins the group of its cluster, if there is one. -/
theorem joinGroup_of_mem {ks : List ι} {f : ι → List (Emitted O α ι)} (hnodup : ks.Nodup)
    (h : e.cluster ∈ ks) :
    joinGroup e (ks.map fun k => (k, f k)) = ks.map fun k => (k, f k ++ pointsOf k [e]) := by
  induction ks with
  | nil => cases h
  | cons k ks ih =>
    obtain ⟨hk, hks⟩ := List.nodup_cons.1 hnodup
    rw [List.map_cons, List.map_cons, joinGroup]
    by_cases heq : k = e.cluster
    · -- the groups further on are those of other clusters
      have hrest : ∀ j ∈ ks, (j, f j) = (j, f j ++ pointsOf j [e]) := by
        intro j hj
        have hne : ¬ e.cluster = j := by
          rintro rfl
          exact hk (heq ▸ hj)
        simp [pointsOf, hne]
      rw [if_pos heq, List.map_congr_left hrest]
      simp [pointsOf, heq]
    · have hmem := (List.mem_cons.1 h).resolve_left (Ne.symm heq)
      rw [if_neg heq, ih hks hmem]
      simp [pointsOf, Ne.symm heq]

/-- A point without a group founds one at the end. -/
theorem joinGroup_of_notMem {ks : List ι} {f : ι → List (Emitted O α ι)}
    (h : e.cluster ∉ ks) :
    joinGroup e (ks.map fun k => (k, f k)) = (ks.map fun k => (k, f k)) ++ [(e.cluster, [e])] := by
  induction ks with
  | nil => rfl
  | cons k ks ih =>
    rw [List.mem_cons, not_or] at h
    obtain ⟨hk, hks⟩ := h
    rw [List.map_cons, joinGroup, if_neg (Ne.symm hk), ih hks, List.cons_append]

/-- The total length of the groups grows by one. -/
theorem sum_length_joinGroup (e : Emitted O α ι) (groups : List (ι × List (Emitted O α ι))) :
    ((joinGroup e groups).map fun g => g.2.length).sum =
      (groups.map fun g => g.2.length).sum + 1 := by
  induction groups with
  | nil => rfl
  | cons g groups ih =>
    rw [joinGroup]
    split
    · simp only [List.map_cons, List.sum_cons, List.length_append, List.length_singleton]
      omega
    · simp only [List.map_cons, List.sum_cons, ih]
      omega

end

/-! ## All points -/

theorem groupByCluster_concat (es : List (Emitted O α ι)) (e : Emitted O α ι) :
    groupByCluster (es ++ [e]) = joinGroup e (groupByCluster es) :=
  List.foldl_append

/-- **Every cluster that appears has the group of its points.** -/
theorem groupByCluster_eq (es : List (Emitted O α ι)) :
    groupByCluster es = (firstAppearances es).map fun k => (k, pointsOf k es) := by
  induction es using List.reverseRecOn with
  | nil => rfl
  | append_singleton es e ih =>
    rw [groupByCluster_concat, ih, firstAppearances_concat]
    by_cases h : e.cluster ∈ firstAppearances es
    · rw [if_pos h, joinGroup_of_mem (nodup_firstAppearances es) h]
      simp only [pointsOf_append]
    · have hothers : ∀ k ∈ firstAppearances es,
          (k, pointsOf k es) = (k, pointsOf k (es ++ [e])) := by
        intro k hk
        have hne : ¬ e.cluster = k := fun heq => h (heq ▸ hk)
        simp [pointsOf, hne]
      rw [if_neg h, joinGroup_of_notMem h, List.map_append, List.map_congr_left hothers,
        List.map_singleton, pointsOf_append, pointsOf_eq_nil h]
      simp [pointsOf]

theorem keys_groupByCluster (es : List (Emitted O α ι)) :
    (groupByCluster es).map Prod.fst = firstAppearances es := by
  rw [groupByCluster_eq, List.map_map, Function.comp_def, List.map_id']

theorem sum_length_groupByCluster (es : List (Emitted O α ι)) :
    ((groupByCluster es).map fun g => g.2.length).sum = es.length := by
  induction es using List.reverseRecOn with
  | nil => rfl
  | append_singleton es e ih =>
    rw [groupByCluster_concat, sum_length_joinGroup, ih, List.length_append,
      List.length_singleton]

/-- What groups have to do with a collection: every point is in the group of its cluster, in
    the order of the collection. -/
structure IsStablePartition (es : List (Emitted O α ι))
    (groups : List (ι × List (Emitted O α ι))) : Prop where
  /-- No cluster has two groups. -/
  distinct : (groups.map Prod.fst).Nodup
  /-- The groups come in the order in which their clusters first appear. -/
  ordered : groups.Pairwise fun g g' =>
    (es.map Emitted.cluster).idxOf g.1 < (es.map Emitted.cluster).idxOf g'.1
  complete : ∀ e ∈ es, ∃ g ∈ groups, g.1 = e.cluster
  not_empty : ∀ g ∈ groups, g.2 ≠ []
  of_cluster : ∀ g ∈ groups, ∀ e ∈ g.2, e.cluster = g.1
  /-- A group is what is left of the collection without the points of other clusters. -/
  stable : ∀ g ∈ groups, g.2.Sublist es ∧ g.2 = es.filter fun e => e.cluster = g.1
  sizes : (groups.map fun g => g.2.length).sum = es.length

theorem isStablePartition_groupByCluster (es : List (Emitted O α ι)) :
    IsStablePartition es (groupByCluster es) := by
  have hgroup : ∀ g ∈ groupByCluster es, g.1 ∈ firstAppearances es ∧ g.2 = pointsOf g.1 es := by
    intro g hg
    rw [groupByCluster_eq] at hg
    obtain ⟨k, hk, rfl⟩ := List.mem_map.1 hg
    exact ⟨hk, rfl⟩
  refine ⟨?_, ?_, ?_, ?_, ?_, ?_, sum_length_groupByCluster es⟩
  · exact keys_groupByCluster es ▸ nodup_firstAppearances es
  · rw [groupByCluster_eq, List.pairwise_map]
    exact pairwise_firstAppearances es
  · intro e he
    rw [groupByCluster_eq]
    exact ⟨_, List.mem_map_of_mem (mem_firstAppearances.2 ⟨e, he, rfl⟩), rfl⟩
  · intro g hg
    obtain ⟨hk, hpoints⟩ := hgroup g hg
    exact hpoints ▸ pointsOf_ne_nil hk
  · intro g hg e he
    rw [(hgroup g hg).2] at he
    exact of_decide_eq_true (List.mem_filter.1 he).2
  · intro g hg
    have hpoints := (hgroup g hg).2
    exact ⟨hpoints ▸ List.filter_sublist, hpoints⟩

/-- **More points join the groups that are there, or make up new ones at the end.** -/
theorem groupByCluster_append (es more : List (Emitted O α ι)) :
    groupByCluster (es ++ more) =
      (groupByCluster es).map (fun g => (g.1, g.2 ++ more.filter fun e => e.cluster = g.1)) ++
        groupByCluster
          (more.filter fun e => e.cluster ∉ (groupByCluster es).map Prod.fst) := by
  rw [keys_groupByCluster, groupByCluster_eq, groupByCluster_eq es, groupByCluster_eq,
    firstAppearances_append, List.map_append, List.map_map]
  congr 1
  · exact List.map_congr_left fun k _ => by rw [pointsOf_append]; rfl
  · -- the clusters of the new groups have no points among those that were there before
    refine List.map_congr_left fun k hk => ?_
    obtain ⟨e, he, rfl⟩ := mem_firstAppearances.1 hk
    have habsent : e.cluster ∉ firstAppearances es := of_decide_eq_true (List.mem_filter.1 he).2
    rw [pointsOf_append, pointsOf_eq_nil habsent, List.nil_append, pointsOf, pointsOf,
      List.filter_filter]
    refine congrArg _ (List.filter_congr fun e' _ => ?_)
    by_cases heq : e'.cluster = e.cluster <;> simp [heq, habsent]

/-- **Grouping is a stable partition.**  Whatever points are written to a collection, it holds
    them in the order in which they were written.  Its groups have different clusters, in the
    order in which these first appear; none is empty; and the group of a cluster is what the
    collection holds for it, in the same order and with every repetition, so the groups are as
    long together as the collection.  When more points are written, every group keeps what it
    holds and gets the new points of its cluster at its end, and the groups of new clusters
    come after all others. -/
theorem grouping_is_a_stable_partition (written more : List (Emitted O α ι)) :
    (written.forM keep).runOn [] = (.ok (), written) ∧
      IsStablePartition written (groupByCluster written) ∧
      (more.forM keep).runOn written = (.ok (), written ++ more) ∧
      groupByCluster (written ++ more) =
        (groupByCluster written).map
            (fun g => (g.1, g.2 ++ more.filter fun e => e.cluster = g.1)) ++
          groupByCluster
            (more.filter fun e => e.cluster ∉ (groupByCluster written).map Prod.fst) :=
  ⟨forM_keep_appends written [], isStablePartition_groupByCluster written,
    forM_keep_appends more written, groupByCluster_append written more⟩

/-- Two clusters, the second of which got the first point, and one point twice. -/
example : groupByCluster [⟨1, 5, 'a'⟩, ⟨0, 3, 'b'⟩, ⟨1, 5, 'a'⟩, (⟨1, 4, 'c'⟩ : Emitted Char Nat)] =
    [(1, [⟨1, 5, 'a'⟩, ⟨1, 5, 'a'⟩, ⟨1, 4, 'c'⟩]), (0, [⟨0, 3, 'b'⟩])] := rfl

end DirichletMixture
