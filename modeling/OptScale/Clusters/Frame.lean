import OptScale.Clusters.Exclusion
import OptScale.Clusters.Lifetime

/-!
# Clusters/Frame — what the clusters leave of the tags of their resources

A cluster without tags takes over the dictionary of its next member, and what the members after it bring and
contradict is done to that dictionary.  So a resource whose dictionary is taken over keeps its tags exactly when the
later members agree with it on all its keys and agree on no other (`tagsOf_eq_iff`); all other resources keep theirs
(`bindClusters_leaves_iff`).
-/

open Agreed

namespace ClusterTypeController

/-! ## A dictionary and what has become of it -/

/-- The tags come from a dictionary by additions and removals, and what is removed is left out. -/
structure Derived (own : Tags) (s : Tags × List String) : Prop where
  form : ∃ (keep : String × String → Bool) (extra : Tags), s.1 = own.filter keep ++ extra ∧
    ∀ t ∈ extra, own.lookup t.1 = none
  removed : ∀ k, own.lookup k ≠ none → k ∉ s.2 → s.1.lookup k ≠ none

section Dictionary

variable {own tags : Tags} {s : Tags × List String}

theorem lookup_of_mem {t : String × String} (h : t ∈ tags) : tags.lookup t.1 ≠ none := by
  rw [Ne, ← Option.not_isSome_iff_eq_none, not_not, Tags.lookup_isSome, List.any_eq_true]
  exact ⟨t, h, decide_eq_true rfl⟩

theorem Derived.refl (own : Tags) (exclusions : List String) : Derived own (own, exclusions) where
  form := ⟨fun _ => true, [], by simp, fun _ h => absurd h List.not_mem_nil⟩
  removed _ h _ := h

theorem Derived.merge (h : Derived own s) (t : String × String) : Derived own (mergeTag s t) := by
  obtain ⟨tags, exclusions⟩ := s
  obtain ⟨⟨keep, extra, htags, hextra⟩, hremoved⟩ := h
  simp only [mergeTag]
  split
  · exact ⟨⟨keep, extra, htags, hextra⟩, hremoved⟩
  · rename_i hex
    split
    · rename_i hnone
      have hnew : own.lookup t.1 = none := by
        by_contra hown
        exact hremoved t.1 hown hex hnone
      refine ⟨⟨keep, extra ++ [t], ?_, List.forall_mem_append.mpr ⟨hextra, List.forall_mem_singleton.mpr hnew⟩⟩,
        fun k hk hkex => ?_⟩
      · have hany : tags.any (·.1 = t.1) = false := by rw [← Tags.lookup_isSome, hnone]; rfl
        simp only [Tags.set, hany, Bool.false_eq_true, if_false]
        rw [← List.append_assoc, ← htags]
      · rw [Tags.lookup_set]
        split
        · exact Option.some_ne_none _
        · exact hremoved k hk hkex
    · split
      · exact ⟨⟨keep, extra, htags, hextra⟩, hremoved⟩
      · refine ⟨⟨fun u => decide (u.1 ≠ t.1) && keep u, extra.filter (·.1 ≠ t.1), ?_,
          fun u hu => hextra u (List.mem_of_mem_filter hu)⟩, fun k hk hkex => ?_⟩
        · have hsplit : tags = own.filter keep ++ extra := htags
          simp only [Tags.pop]
          rw [hsplit, List.filter_append, List.filter_filter]
        · rw [List.mem_cons, not_or] at hkex
          rw [Tags.lookup_pop, if_neg hkex.1]
          exact hremoved k hk hkex.2

theorem Derived.foldl_mergeTag (h : Derived own s) (tags : Tags) : Derived own (tags.foldl mergeTag s) := by
  induction tags generalizing s with
  | nil => exact h
  | cons t tags ih => exact ih (h.merge t)

/-- **A dictionary that looks as before is as before.** -/
theorem Derived.eq_of_lookup (h : Derived own s) (hown : (own.map Prod.fst).Nodup)
    (hlookup : ∀ k, s.1.lookup k = own.lookup k) : s.1 = own := by
  obtain ⟨⟨keep, extra, htags, hextra⟩, -⟩ := h
  have hnil : extra = [] := by
    refine List.eq_nil_iff_forall_not_mem.mpr fun t ht => ?_
    have hin : t ∈ s.1 := by rw [htags]; exact List.mem_append_right _ ht
    exact lookup_of_mem hin (by rw [hlookup, hextra t ht])
  rw [hnil, List.append_nil] at htags
  rw [htags, List.filter_eq_self]
  intro t ht
  have hne := lookup_of_mem ht
  rw [← hlookup, htags, Ne, ← Option.not_isSome_iff_eq_none, not_not, Tags.lookup_isSome, List.any_eq_true] at hne
  obtain ⟨u, hu, hkey⟩ := hne
  obtain ⟨hu, hkeep⟩ := List.mem_filter.mp hu
  rwa [List.inj_on_of_nodup_map hown hu ht (of_decide_eq_true hkey)] at hkeep

end Dictionary

/-! ## A member whose dictionary is taken over -/

/-- The cluster's tags are the dictionary of the change `n`: the keys that are barred are as in it, and for the
others the cluster agrees with it and the changes since. -/
structure Holding (barred : String → Prop) (o : Inherited) (n : ℕ) (since : List Inherited) (m : Merging) : Prop where
  owner : m.owners.head? = some n
  some : m.cluster.tags ≠ []
  agrees : ∀ k, ¬ barred k → AgreesAt (o :: since) m k
  barred : ∀ k, barred k → k ∈ m.exclusions ∧ m.cluster.tags.lookup k = o.tags.lookup k
  derived : Derived o.tags (m.cluster.tags, m.exclusions)

/-- The dictionary of the change `n` has been emptied. -/
structure Emptied (barred : String → Prop) (o : Inherited) (n : ℕ) (since : List Inherited) (m : Merging) : Prop where
  owner : n ∈ m.owners
  empty : m.owners.head? = some n → m.cluster.tags = []
  lost : ∃ k, ¬ barred k ∧ o.tags.lookup k ≠ none ∧ agreed (valuesOf (o :: since) k) = none

section Owner

variable {barred : String → Prop} {o : Inherited} {n : ℕ} {since : List Inherited} {m : Merging} {c : Inherited × ℕ}

theorem valuesOf_cons_ne_nil {k : String} (h : o.tags.lookup k ≠ none) : valuesOf (o :: since) k ≠ [] := by
  obtain ⟨v, hv⟩ := Option.ne_none_iff_exists'.mp h
  simp [valuesOf, hv]

/-- **One more member** of the cluster that holds the dictionary. -/
theorem Holding.mergeChange (h : Holding barred o n since m) (hown : o.tags ≠ [])
    (hnodup : (c.1.tags.map Prod.fst).Nodup) :
    Holding barred o n (since ++ [c.1]) (mergeChange m c) ∨ Emptied barred o n (since ++ [c.1]) (mergeChange m c) := by
  have howners : (ClusterTypeController.mergeChange m c).owners = m.owners := by
    simp only [ClusterTypeController.mergeChange, h.some, if_false]
  have hagrees : ∀ k, ¬ barred k → AgreesAt (o :: (since ++ [c.1])) (ClusterTypeController.mergeChange m c) k :=
    fun k hk => (h.agrees k hk).mergeChange h.some hnodup
  have hbarred : ∀ k, barred k → k ∈ (ClusterTypeController.mergeChange m c).exclusions ∧
      (ClusterTypeController.mergeChange m c).cluster.tags.lookup k = o.tags.lookup k := by
    intro k hk
    obtain ⟨hex, hlookup⟩ := h.barred k hk
    obtain ⟨hsame, hmem⟩ := mergeChange_excluded (c := c) h.some hnodup hex
    exact ⟨hmem, hsame.trans hlookup⟩
  by_cases hnil : (ClusterTypeController.mergeChange m c).cluster.tags = []
  · refine Or.inr ⟨by rw [howners]; exact List.mem_of_mem_head? h.owner, fun _ => hnil, ?_⟩
    obtain ⟨t, ht⟩ := List.exists_mem_of_ne_nil _ hown
    have hfree : ¬ barred t.1 := fun hk => by
      have hlookup := (hbarred t.1 hk).2
      rw [hnil, List.lookup_nil] at hlookup
      exact lookup_of_mem ht hlookup.symm
    refine ⟨t.1, hfree, lookup_of_mem ht, ?_⟩
    rw [← (hagrees t.1 hfree).tags, hnil, List.lookup_nil]
  · refine Or.inl ⟨by rw [howners]; exact h.owner, hnil, hagrees, hbarred, ?_⟩
    obtain ⟨htags, hexclusions⟩ := mergeChange_of_ne_nil (c := c) h.some
    rw [htags, hexclusions]
    exact h.derived.foldl_mergeTag c.1.tags

theorem owners_mergeChange (h : m.owners.head? = some n → m.cluster.tags = []) (hc : c.2 ≠ n) :
    (mergeChange m c).owners.head? = some n → (mergeChange m c).cluster.tags = [] := by
  intro hhead
  by_cases hnil : m.cluster.tags = []
  · simp only [mergeChange, hnil, if_true, List.head?_cons, Option.some.injEq] at hhead
    exact absurd hhead hc
  · simp only [mergeChange, hnil, if_false] at hhead
    exact absurd (h hhead) hnil

theorem Emptied.mergeChange (h : Emptied barred o n since m) (hc : c.2 ≠ n) :
    Emptied barred o n (since ++ [c.1]) (mergeChange m c) := by
  refine ⟨?_, owners_mergeChange h.empty hc, ?_⟩
  · simp only [ClusterTypeController.mergeChange]
    split
    · exact List.mem_cons_of_mem _ h.owner
    · exact h.owner
  · obtain ⟨k, hk, hlookup, hnone⟩ := h.lost
    refine ⟨k, hk, hlookup, ?_⟩
    rw [← List.cons_append, valuesOf_concat]
    exact agreed_append_eq_none (valuesOf_cons_ne_nil hlookup) hnone

/-- **All members after it.** -/
theorem holding_or_emptied (hown : o.tags ≠ []) (h : Holding barred o n [] m) (changes : List (Inherited × ℕ))
    (hnumbers : ∀ c ∈ changes, c.2 ≠ n) (hnodup : ∀ c ∈ changes, (c.1.tags.map Prod.fst).Nodup) :
    Holding barred o n (changes.map Prod.fst) (changes.foldl mergeChange m) ∨
      Emptied barred o n (changes.map Prod.fst) (changes.foldl mergeChange m) := by
  induction changes using List.reverseRecOn with
  | nil => exact Or.inl h
  | append_singleton changes c ih =>
    have hlast : c ∈ changes ++ [c] := by simp
    rw [List.map_append, List.map_singleton, List.foldl_append, List.foldl_cons, List.foldl_nil]
    obtain hholding | hemptied := ih (fun d hd => hnumbers d (List.mem_append_left _ hd))
      fun d hd => hnodup d (List.mem_append_left _ hd)
    · exact hholding.mergeChange hown (hnodup c hlast)
    · exact Or.inr (hemptied.mergeChange (hnumbers c hlast))

end Owner

/-! ## One cluster -/

/-- The dictionary of a member is left alone: where it is taken over, the later members agree with it on all its
keys that are new, and on no other key that is. -/
def Spared (before : List Inherited) (o : Inherited) (after : List Inherited) : Prop :=
  o.tags ≠ [] → AllSteady before → (∀ k, agreed (valuesOf before k) = none) →
    ∀ k, valuesOf before k = [] → agreed (valuesOf (o :: after) k) = o.tags.lookup k

section Cluster

variable {before after : List (Inherited × ℕ)} {o : Inherited} {n : ℕ} {start : Inherited}

theorem owners_foldl (m : Merging) (changes : List (Inherited × ℕ)) (h : ∀ c ∈ changes, c.2 ≠ n) :
    n ∈ (changes.foldl mergeChange m).owners ↔ n ∈ m.owners := by
  induction changes generalizing m with
  | nil => rfl
  | cons c changes ih =>
    obtain ⟨hc, hrest⟩ := List.forall_mem_cons.mp h
    rw [List.foldl_cons, ih _ hrest]
    simp only [mergeChange]
    split
    · exact List.mem_cons.trans (or_iff_right (Ne.symm hc))
    · rfl

theorem owners_foldl_head (m : Merging) (hm : m.owners.head? = some n → m.cluster.tags = [])
    (changes : List (Inherited × ℕ)) (h : ∀ c ∈ changes, c.2 ≠ n) :
    (changes.foldl mergeChange m).owners.head? = some n → (changes.foldl mergeChange m).cluster.tags = [] := by
  induction changes generalizing m with
  | nil => exact hm
  | cons c changes ih =>
    obtain ⟨hc, hrest⟩ := List.forall_mem_cons.mp h
    exact ih _ (owners_mergeChange hm hc) hrest

theorem tagsOf_of_not_mem {m : Merging} {tags : Tags} (h : n ∉ m.owners) : m.tagsOf n tags = tags := by
  have hhead : m.owners.head? ≠ some n := fun hhead => h (List.mem_of_mem_head? hhead)
  rw [Merging.tagsOf, if_neg hhead, if_neg h]

theorem tagsOf_of_emptied {m : Merging} {tags : Tags} (hmem : n ∈ m.owners)
    (hempty : m.owners.head? = some n → m.cluster.tags = []) : m.tagsOf n tags = [] := by
  by_cases hhead : m.owners.head? = some n
  · rw [Merging.tagsOf, if_pos hhead, hempty hhead]
  · rw [Merging.tagsOf, if_neg hhead, if_pos hmem]

/-- A member whose dictionary is taken over: it is left as it was, or not. -/
theorem tagsOf_eq_iff_of_nil {m : Merging} (hm : m.cluster.tags = [])
    (hagrees : Agrees (before.map Prod.fst) m) (hown : o.tags ≠ []) (hkeys : (o.tags.map Prod.fst).Nodup)
    (hnumbers : ∀ c ∈ after, c.2 ≠ n) (hnodup : ∀ c ∈ after, (c.1.tags.map Prod.fst).Nodup) :
    (after.foldl mergeChange (mergeChange m (o, n))).tagsOf n o.tags = o.tags ↔
      ∀ k, valuesOf (before.map Prod.fst) k = [] → agreed (valuesOf (o :: after.map Prod.fst) k) = o.tags.lookup k := by
  have hnone : ∀ k, agreed (valuesOf (before.map Prod.fst) k) = none := fun k => by
    rw [← (hagrees k).tags, hm, List.lookup_nil]
  have hex : ∀ k, k ∈ m.exclusions ↔ valuesOf (before.map Prod.fst) k ≠ [] := fun k =>
    (hagrees k).exclusions.trans (and_iff_left (hnone k))
  have hstart : Holding (fun k => valuesOf (before.map Prod.fst) k ≠ []) o n [] (mergeChange m (o, n)) := by
    obtain ⟨htags, hexclusions⟩ := mergeChange_of_nil (c := (o, n)) hm
    refine ⟨?_, by rwa [htags], fun k hk => ⟨?_, ?_⟩, fun k hk => ⟨?_, by rw [htags]⟩, ?_⟩
    · simp only [mergeChange, hm, if_true, List.head?_cons]
    · rw [htags]
      cases hlookup : o.tags.lookup k <;> simp [valuesOf, hlookup]
    · rw [hexclusions, hex]
      cases hlookup : o.tags.lookup k <;> simpa [valuesOf, hlookup] using hk
    · rw [hexclusions]
      exact (hex k).mpr hk
    · rw [htags]
      exact .refl _ _
  obtain hholding | hemptied := holding_or_emptied hown hstart after hnumbers hnodup
  · rw [Merging.tagsOf, if_pos hholding.owner]
    constructor
    · intro hsame k hk
      rw [← (hholding.agrees k (not_not.mpr hk)).tags, hsame]
    · intro h
      refine hholding.derived.eq_of_lookup hkeys fun k => ?_
      by_cases hk : valuesOf (before.map Prod.fst) k = []
      · exact (hholding.agrees k (not_not.mpr hk)).tags.trans (h k hk)
      · exact (hholding.barred k hk).2
  · rw [tagsOf_of_emptied hemptied.owner hemptied.empty]
    obtain ⟨k, hk, hlookup, hlost⟩ := hemptied.lost
    exact iff_of_false (Ne.symm hown) fun h => hlookup ((h k (not_not.mp hk)).symm.trans hlost)

/-- **What a cluster leaves of the tags of one of its members.** -/
theorem tagsOf_eq_iff (hstart : start.tags = []) (hnumbers : ((before ++ (o, n) :: after).map Prod.snd).Nodup)
    (hnodup : ∀ c ∈ before ++ (o, n) :: after, (c.1.tags.map Prod.fst).Nodup) :
    (setClusterLifetimeFields start (before ++ (o, n) :: after)).tagsOf n o.tags = o.tags ↔
      Spared (before.map Prod.fst) o (after.map Prod.fst) := by
  rw [List.map_append, List.map_cons, List.nodup_append, List.nodup_cons] at hnumbers
  obtain ⟨-, ⟨hafter, -⟩, hbefore⟩ := hnumbers
  have hbefore : ∀ c ∈ before, c.2 ≠ n := fun c hc => hbefore c.2 (List.mem_map_of_mem hc) n List.mem_cons_self
  have hafter : ∀ c ∈ after, c.2 ≠ n := fun c hc heq => hafter (List.mem_map.mpr ⟨c, hc, heq⟩)
  obtain ⟨hagrees, hrevived⟩ := agrees_or_revived { cluster := start } hstart rfl before
    fun c hc => hnodup c (List.mem_append_left _ hc)
  have hfresh : n ∉ (before.foldl mergeChange { cluster := start }).owners := by
    rw [owners_foldl _ _ hbefore]
    exact List.not_mem_nil
  rw [setClusterLifetimeFields, List.foldl_append, List.foldl_cons]
  generalize before.foldl mergeChange { cluster := start } = m at hagrees hrevived hfresh ⊢
  by_cases hnil : m.cluster.tags = []
  · have hsteady : AllSteady (before.map Prod.fst) := by
      by_contra hsteady
      obtain ⟨k, -, hk, -⟩ := hrevived hsteady
      exact hk (by rw [hnil, List.lookup_nil])
    by_cases hown : o.tags = []
    · have hmem : n ∈ (after.foldl mergeChange (mergeChange m (o, n))).owners := by
        rw [owners_foldl _ _ hafter]
        simp only [mergeChange, hnil, if_true]
        exact List.mem_cons_self
      refine iff_of_true ?_ fun h => absurd hown h
      rw [hown, tagsOf_of_emptied hmem (owners_foldl_head _ ?_ _ hafter)]
      exact fun _ => (mergeChange_of_nil hnil).1.trans hown
    · rw [tagsOf_eq_iff_of_nil hnil (hagrees hsteady) hown (hnodup (o, n) (by simp)) hafter
        fun c hc => hnodup c (List.mem_append_right _ (List.mem_cons_of_mem _ hc))]
      refine ⟨fun h _ _ _ => h, fun h => h hown hsteady fun k => ?_⟩
      rw [← (hagrees hsteady k).tags, hnil, List.lookup_nil]
  · have hmem : n ∉ (after.foldl mergeChange (mergeChange m (o, n))).owners := by
      rw [owners_foldl _ _ hafter]
      simp only [mergeChange, hnil, if_false]
      exact hfresh
    refine iff_of_true (tagsOf_of_not_mem hmem) fun _ hsteady hnone => ?_
    exact absurd (tags_eq_nil_iff.mpr fun k => (hagrees hsteady k).tags.trans (hnone k)) hnil

end Cluster

/-! ## The incoming resources -/

section Incoming

variable (O : OrganizationContext) (types : List ClusterType) (clusters : List Resource) (found : Found)
  (isReportImport : Bool) (now : ℕ)

/-- The tags a resource reports, with those of its stored tags that `update_tags` puts to them. -/
def mergedTags (db : Option (Resource × IdField)) (tags : Tags) : Tags :=
  Tags.updateTags ((db.map fun f => Tags.decoded O.encoding f.1.tags).getD []) tags isReportImport

/-- The cluster of an incoming resource, and what the resource brings to it. -/
def binding (p : Payload) : Option (Definition × Inherited) := do
  let uniqueId ← p.uniqueId
  let fresh ← clusterOf O types clusters p (found.get uniqueId)
  pure (fresh, changeOf now p (mergedTags O isReportImport (found.get uniqueId) (p.tags.getD []))
    (found.get uniqueId))

/-- The tags of a resource as it reported them; those of a resource in a cluster are merged with its stored ones. -/
def reportedTags (p : Payload) : Option Tags :=
  match binding O types clusters found isReportImport now p with
  | none => p.tags
  | some b => p.tags.map fun _ => b.2.tags

/-- What a resource brings to the cluster `cid`. -/
def broughtTo (cid : String) (p : Payload) : Option Inherited :=
  (binding O types clusters found isReportImport now p).bind fun b => if b.1.cid = cid then some b.2 else none

/-- What all resources bring to it. -/
def membersOf (cid : String) (resources : List Payload) : List Inherited :=
  resources.filterMap (broughtTo O types clusters found isReportImport now cid)

/-- So it is, with the numbers of the resources. -/
def changesOf (cid : String) (resources : List (Payload × ℕ)) : List (Inherited × ℕ) :=
  resources.filterMap fun p => (broughtTo O types clusters found isReportImport now cid p.1).map fun c => (c, p.2)

/-- What the pass has gathered from some of the resources. -/
structure GatheredFrom (resources : List (Payload × ℕ)) (g : Gathered) : Prop where
  tags : g.tags = resources.map fun p => reportedTags O types clusters found isReportImport now p.1
  changes : ∀ d ∈ g.definitions,
    d.changes = changesOf O types clusters found isReportImport now d.cid resources ∧ d.start.tags = []
  cids : (g.definitions.map Definition.cid).Nodup
  known : ∀ p ∈ resources, ∀ b, binding O types clusters found isReportImport now p.1 = some b →
    b.1.cid ∈ g.definitions.map Definition.cid

variable {O types clusters found isReportImport now} {resources : List (Payload × ℕ)} {g : Gathered}

theorem clusterOf_start {p : Payload} {db : Option (Resource × IdField)} {d : Definition}
    (h : clusterOf O types clusters p db = some d) : d.start.tags = [] ∧ d.changes = [] := by
  cases db with
  | none =>
    simp only [clusterOf, Option.bind_eq_bind, Option.bind_eq_some_iff, Option.pure_def, Option.some.injEq] at h
    obtain ⟨clusterType, -, cid, -, rfl⟩ := h
    exact ⟨rfl, rfl⟩
  | some f =>
    simp only [clusterOf, Option.bind_eq_bind, Option.bind_eq_some_iff, Option.pure_def, Option.some.injEq] at h
    obtain ⟨clusterId, -, c, -, cid, -, rfl⟩ := h
    exact ⟨rfl, rfl⟩

/-- One turn, by what the resource brings. -/
theorem gather_eq (p : Payload × ℕ) : gather O types clusters found isReportImport now g p =
    { g with
      definitions := match binding O types clusters found isReportImport now p.1 with
        | none => g.definitions
        | some b => addChange g.definitions b.1 (b.2, p.2)
      requirements := (gather O types clusters found isReportImport now g p).requirements
      exclusions := (gather O types clusters found isReportImport now g p).exclusions
      tags := g.tags ++ [reportedTags O types clusters found isReportImport now p.1] } := by
  unfold gather reportedTags binding
  cases hid : p.1.uniqueId with
  | none => rfl
  | some uniqueId =>
    simp only [Option.bind_eq_bind, Option.bind_some]
    cases hcluster : clusterOf O types clusters p.1 (found.get uniqueId) with
    | none => rfl
    | some fresh => rfl

theorem changesOf_concat (cid : String) (resources : List (Payload × ℕ)) (p : Payload × ℕ) :
    changesOf O types clusters found isReportImport now cid (resources ++ [p]) =
      changesOf O types clusters found isReportImport now cid resources ++
        ((broughtTo O types clusters found isReportImport now cid p.1).map fun c => (c, p.2)).toList := by
  rw [changesOf, List.filterMap_append, ← changesOf]
  cases h : broughtTo O types clusters found isReportImport now cid p.1 <;> simp [h]

/-- **One turn of the pass.** -/
theorem GatheredFrom.gather (h : GatheredFrom O types clusters found isReportImport now resources g)
    (p : Payload × ℕ) : GatheredFrom O types clusters found isReportImport now (resources ++ [p])
      (gather O types clusters found isReportImport now g p) := by
  rw [gather_eq]
  cases hb : binding O types clusters found isReportImport now p.1 with
  | none =>
    refine ⟨by simp [h.tags], fun d hd => ?_, h.cids, fun q hq b hqb => ?_⟩
    · rw [changesOf_concat, broughtTo, hb]
      simpa using h.changes d hd
    · obtain hq | hq := List.mem_append.mp hq
      · exact h.known q hq b hqb
      · rw [List.mem_singleton.mp hq, hb] at hqb
        cases hqb
  | some b =>
    have hstart : b.1.start.tags = [] := by
      simp only [binding, Option.bind_eq_bind, Option.bind_eq_some_iff, Option.pure_def, Option.some.injEq] at hb
      obtain ⟨uniqueId, -, fresh, hfresh, rfl⟩ := hb
      exact (clusterOf_start hfresh).1
    have hbrought : ∀ cid, changesOf O types clusters found isReportImport now cid (resources ++ [p]) =
        changesOf O types clusters found isReportImport now cid resources ++
          if b.1.cid = cid then [(b.2, p.2)] else [] := by
      intro cid
      rw [changesOf_concat, broughtTo, hb, Option.bind_some]
      split <;> rfl
    have hcids : (addChange g.definitions b.1 (b.2, p.2)).map Definition.cid =
        if g.definitions.any (·.cid = b.1.cid) then g.definitions.map Definition.cid
        else g.definitions.map Definition.cid ++ [b.1.cid] := by
      unfold addChange
      split
      · rw [List.map_map]
        refine List.map_congr_left fun d _ => ?_
        simp only [Function.comp]
        split <;> rfl
      · simp
    have hany : g.definitions.any (·.cid = b.1.cid) = true ↔ b.1.cid ∈ g.definitions.map Definition.cid := by
      simp [List.mem_map]
    refine ⟨by simp [h.tags], fun d hd => ?_, ?_, fun q hq b' hqb => ?_⟩
    · rw [hbrought]
      simp only [addChange] at hd
      split at hd
      · obtain ⟨e, he, rfl⟩ := List.mem_map.mp hd
        obtain ⟨hchanges, hnil⟩ := h.changes e he
        by_cases hcid : e.cid = b.1.cid
        · rw [if_pos hcid, if_pos hcid.symm, hchanges]
          exact ⟨rfl, hnil⟩
        · rw [if_neg hcid, if_neg (Ne.symm hcid), List.append_nil]
          exact ⟨hchanges, hnil⟩
      · rename_i hnew
        obtain hd | hd := List.mem_append.mp hd
        · have hcid : b.1.cid ≠ d.cid := fun hcid => hnew (hany.mpr (hcid ▸ List.mem_map_of_mem hd))
          rw [if_neg hcid, List.append_nil]
          exact h.changes d hd
        · obtain rfl := List.mem_singleton.mp hd
          have hempty : changesOf O types clusters found isReportImport now b.1.cid resources = [] := by
            refine List.filterMap_eq_nil_iff.mpr fun q hq => ?_
            rw [Option.map_eq_none_iff, broughtTo, Option.bind_eq_none_iff]
            intro b' hb'
            refine if_neg fun hcid => hnew (hany.mpr ?_)
            exact hcid ▸ h.known q hq b' hb'
          rw [if_pos rfl, hempty]
          exact ⟨rfl, hstart⟩
    · simp only
      rw [hcids]
      split
      · exact h.cids
      · rename_i hnew
        exact List.nodup_append.mpr ⟨h.cids, List.nodup_singleton _, fun cid hcid _ hmem heq =>
          hnew (hany.mpr (List.mem_singleton.mp hmem ▸ heq ▸ hcid))⟩
    · simp only
      rw [hcids]
      have hknown : ∀ cid, cid ∈ g.definitions.map Definition.cid ∨ cid = b.1.cid →
          cid ∈ if g.definitions.any (·.cid = b.1.cid) then g.definitions.map Definition.cid
            else g.definitions.map Definition.cid ++ [b.1.cid] := by
        intro cid hcid
        split
        · rename_i hold
          exact hcid.elim id fun heq => heq ▸ hany.mp hold
        · exact List.mem_append.mpr (hcid.imp_right List.mem_singleton.mpr)
      obtain hq | hq := List.mem_append.mp hq
      · exact hknown _ (Or.inl (h.known q hq b' hqb))
      · rw [List.mem_singleton.mp hq, hb] at hqb
        exact hknown _ (Or.inr (Option.some.inj hqb ▸ rfl))

theorem gathered_from (resources : List Payload) : GatheredFrom O types clusters found isReportImport now
    resources.zipIdx (resources.zipIdx.foldl (gather O types clusters found isReportImport now) {}) := by
  have hempty : GatheredFrom O types clusters found isReportImport now [] {} :=
    ⟨rfl, fun d hd => absurd hd List.not_mem_nil, List.nodup_nil, fun p hp => absurd hp List.not_mem_nil⟩
  generalize resources.zipIdx = numbered
  induction numbered using List.reverseRecOn with
  | nil => exact hempty
  | append_singleton numbered p ih =>
    rw [List.foldl_append]
    exact ih.gather p

theorem changesOf_fst (cid : String) (resources : List Payload) (n : ℕ) :
    (changesOf O types clusters found isReportImport now cid (resources.zipIdx n)).map Prod.fst =
      membersOf O types clusters found isReportImport now cid resources := by
  induction resources generalizing n with
  | nil => rfl
  | cons p resources ih =>
    have hrest := ih (n + 1)
    unfold changesOf membersOf at hrest ⊢
    rw [List.zipIdx_cons, List.filterMap_cons, List.filterMap_cons]
    cases broughtTo O types clusters found isReportImport now cid p with
    | none => exact hrest
    | some c => exact congrArg (c :: ·) hrest

theorem changesOf_snd (cid : String) (resources : List (Payload × ℕ)) :
    ((changesOf O types clusters found isReportImport now cid resources).map Prod.snd).Sublist
      (resources.map Prod.snd) := by
  induction resources with
  | nil => exact .slnil
  | cons p resources ih =>
    unfold changesOf at ih ⊢
    rw [List.filterMap_cons]
    cases broughtTo O types clusters found isReportImport now cid p.1 with
    | none => exact ih.cons _
    | some c => exact ih.cons_cons _

theorem nodup_numbers (cid : String) (resources : List Payload) :
    ((changesOf O types clusters found isReportImport now cid resources.zipIdx).map Prod.snd).Nodup := by
  refine (changesOf_snd cid _).nodup ?_
  rw [List.zipIdx_map_snd]
  exact List.nodup_range'

/-- The numbers of the changes are those of the resources that bring them. -/
theorem brings_of_mem {cid : String} {before after : List Payload} {p : Payload} {c : Inherited}
    (h : (c, before.length) ∈ changesOf O types clusters found isReportImport now cid
      (before ++ p :: after).zipIdx) : broughtTo O types clusters found isReportImport now cid p = some c := by
  obtain ⟨q, hq, hc⟩ := List.mem_filterMap.mp h
  obtain ⟨c', hc', heq⟩ := Option.map_eq_some_iff.mp hc
  obtain ⟨rfl, hn⟩ := Prod.mk.inj heq
  have hget := List.mem_zipIdx_iff_getElem?.mp hq
  rw [hn] at hget
  simp only [List.getElem?_append_right (Nat.le_refl _), Nat.sub_self, List.getElem?_cons_zero, Option.some.injEq] at hget
  rwa [hget]

end Incoming

/-! ## What is left of the tags -/

section Left

variable {O : OrganizationContext} {types : List ClusterType} {clusters : List Resource} {found : Found}
  {isReportImport : Bool} {now : ℕ} {before after resources : List Payload} {p : Payload} {g : Gathered}

theorem foldl_tagsOf_of_not_mem {definitions : List Definition} {n : ℕ} {own : Tags}
    (h : ∀ d ∈ definitions, n ∉ d.merging.owners) :
    definitions.foldl (fun tags d => d.merging.tagsOf n tags) own = own := by
  induction definitions with
  | nil => rfl
  | cons d definitions ih =>
    obtain ⟨hd, hrest⟩ := List.forall_mem_cons.mp h
    rw [List.foldl_cons, tagsOf_of_not_mem hd, ih hrest]

/-- A cluster that the resource brings nothing to leaves its tags alone. -/
theorem not_mem_owners {d : Definition} (hg : GatheredFrom O types clusters found isReportImport now
    (before ++ p :: after).zipIdx g) (hd : d ∈ g.definitions)
    (hp : broughtTo O types clusters found isReportImport now d.cid p = none) :
    before.length ∉ d.merging.owners := by
  rw [Definition.merging, setClusterLifetimeFields, owners_foldl]
  · exact List.not_mem_nil
  · rintro ⟨c, n⟩ hc rfl
    rw [(hg.changes d hd).1] at hc
    rw [brings_of_mem hc] at hp
    cases hp

theorem nodup_brought {cid : String} {c : Inherited} (hkeys : ∀ tags ∈ p.tags, (tags.map Prod.fst).Nodup)
    (h : broughtTo O types clusters found isReportImport now cid p = some c) : (c.tags.map Prod.fst).Nodup := by
  obtain ⟨b, hb, hc⟩ := Option.bind_eq_some_iff.mp h
  simp only [binding, Option.bind_eq_bind, Option.bind_eq_some_iff, Option.pure_def, Option.some.injEq] at hb
  obtain ⟨uniqueId, -, fresh, -, rfl⟩ := hb
  obtain rfl := Option.some.inj (Option.ite_none_right_eq_some.mp hc).2
  refine Tags.nodup_updateTags _ _ ?_
  cases htags : p.tags with
  | none => exact List.nodup_nil
  | some tags => exact hkeys tags htags

/-- **What is left of the tags of one resource.** -/
theorem tagsLeft_eq_iff (hkeys : ∀ q ∈ before ++ p :: after, ∀ tags ∈ q.tags, (tags.map Prod.fst).Nodup)
    (hg : GatheredFrom O types clusters found isReportImport now (before ++ p :: after).zipIdx g) :
    tagsLeft g.definitions before.length (reportedTags O types clusters found isReportImport now p) =
        reportedTags O types clusters found isReportImport now p ↔
      ∀ b, binding O types clusters found isReportImport now p = some b → p.tags ≠ none →
        Spared (membersOf O types clusters found isReportImport now b.1.cid before) b.2
          (membersOf O types clusters found isReportImport now b.1.cid after) := by
  cases hb : binding O types clusters found isReportImport now p with
  | none =>
    refine iff_of_true ?_ fun b h => absurd h.symm (Option.some_ne_none b)
    rw [tagsLeft]
    refine (Option.map_congr fun own _ => foldl_tagsOf_of_not_mem fun d hd => ?_).trans Option.map_id'
    exact not_mem_owners hg hd (by rw [broughtTo, hb]; rfl)
  | some b =>
    have hp : (p, before.length) ∈ (before ++ p :: after).zipIdx := by
      rw [List.mem_zipIdx_iff_getElem?]
      simp
    obtain ⟨d, hd, hcid⟩ := List.mem_map.mp (hg.known _ hp b hb)
    obtain ⟨first, last, hsplit⟩ := List.append_of_mem hd
    have hbrought : broughtTo O types clusters found isReportImport now d.cid p = some b.2 := by
      rw [broughtTo, hb, Option.bind_some, if_pos hcid.symm]
    have hothers : ∀ e ∈ g.definitions, e.cid ≠ d.cid → before.length ∉ e.merging.owners := fun e he hne =>
      not_mem_owners hg he (by rw [broughtTo, hb, Option.bind_some, if_neg fun h => hne (h.symm.trans hcid.symm)])
    have hcids := hg.cids
    rw [hsplit, List.map_append, List.map_cons, List.nodup_append, List.nodup_cons] at hcids
    have hfold : ∀ own, g.definitions.foldl (fun tags d => d.merging.tagsOf before.length tags) own =
        d.merging.tagsOf before.length own := by
      intro own
      rw [hsplit, List.foldl_append, List.foldl_cons, foldl_tagsOf_of_not_mem fun e he => ?_,
        foldl_tagsOf_of_not_mem fun e he => ?_]
      · refine hothers e (by rw [hsplit]; exact List.mem_append_left _ he) fun h => ?_
        exact hcids.2.2 e.cid (List.mem_map_of_mem he) d.cid List.mem_cons_self h
      · refine hothers e (by rw [hsplit]; exact List.mem_append_right _ (List.mem_cons_of_mem _ he)) fun h => ?_
        exact hcids.2.1.1 (List.mem_map.mpr ⟨e, he, h⟩)
    obtain ⟨hchanges, hstart⟩ := hg.changes d hd
    have hchanges' : d.changes = changesOf O types clusters found isReportImport now d.cid before.zipIdx ++
        (b.2, before.length) ::
          changesOf O types clusters found isReportImport now d.cid (after.zipIdx (before.length + 1)) := by
      rw [hchanges, List.zipIdx_append, List.zipIdx_cons, Nat.zero_add, changesOf, List.filterMap_append,
        List.filterMap_cons, hbrought]
      rfl
    have hnumbers : ((changesOf O types clusters found isReportImport now d.cid
        (before ++ p :: after).zipIdx).map Prod.snd).Nodup := nodup_numbers d.cid _
    have hnodup : ∀ c ∈ d.changes, (c.1.tags.map Prod.fst).Nodup := by
      intro c hc
      rw [hchanges] at hc
      obtain ⟨q, hq, hcq⟩ := List.mem_filterMap.mp hc
      obtain ⟨c', hc', rfl⟩ := Option.map_eq_some_iff.mp hcq
      exact nodup_brought (hkeys q.1 (List.fst_mem_of_mem_zipIdx hq)) hc'
    rw [← hchanges, hchanges'] at hnumbers
    rw [hchanges'] at hnodup
    have hcluster := tagsOf_eq_iff hstart hnumbers hnodup
    rw [changesOf_fst, changesOf_fst, ← hchanges'] at hcluster
    rw [reportedTags, hb, tagsLeft]
    cases htags : p.tags with
    | none => exact iff_of_true rfl fun _ _ h => absurd rfl h
    | some own =>
      simp only [Option.map_some, hfold, Option.some.injEq, ne_eq, reduceCtorEq, not_false_eq_true, forall_const,
        forall_eq']
      rw [← hcid]
      exact hcluster

theorem map_zipIdx_eq_iff {α β : Type*} {l : List α} {f : α × ℕ → β} {f' : α → β} :
    l.zipIdx.map f = l.map f' ↔ ∀ before a after, l = before ++ a :: after → f (a, before.length) = f' a := by
  constructor
  · rintro h before a after rfl
    have hget := congrArg (·[before.length]?) h
    simpa using hget
  · intro h
    refine List.ext_getElem (by simp) fun i hi _ => ?_
    rw [List.length_map, List.length_zipIdx] at hi
    have hsplit : l = l.take i ++ l[i] :: l.drop (i + 1) := by
      rw [List.getElem_cons_drop, List.take_append_drop]
    have hlength : (l.take i).length = i := by rw [List.length_take]; omega
    have hi' := h _ _ _ hsplit
    rw [hlength] at hi'
    simpa using hi'

/-- **Binding leaves the resources alone**: each has the tags it reported, merged with its own stored ones, and
what is stored for it next is what would be stored for them. -/
structure LeavesTags (O : OrganizationContext) (types : List ClusterType) (clusters : List Resource) (found : Found)
    (isReportImport : Bool) (now : ℕ) (resources : List Payload) (bound : Bound) : Prop where
  tags : bound.resources.map Payload.tags =
    resources.map (reportedTags O types clusters found isReportImport now)
  stored : ∀ x ∈ resources.zip bound.resources, ∀ dbTags,
    dbTags = (((x.1.uniqueId.bind found.get).map fun f => f.1.tags).getD []) →
      Tags.updateEncodedTags O.encoding dbTags (Tags.encoded O.encoding (x.2.tags.getD [])) isReportImport =
        Tags.updateEncodedTags O.encoding dbTags (Tags.encoded O.encoding (x.1.tags.getD [])) isReportImport

/-- Tags that are left alone are stored as they were reported. -/
theorem stored_reportedTags (hkeys : ∀ tags ∈ p.tags, (tags.map Prod.fst).Nodup) :
    Tags.updateEncodedTags O.encoding (((p.uniqueId.bind found.get).map fun f => f.1.tags).getD [])
        (Tags.encoded O.encoding ((reportedTags O types clusters found isReportImport now p).getD []))
        isReportImport =
      Tags.updateEncodedTags O.encoding (((p.uniqueId.bind found.get).map fun f => f.1.tags).getD [])
        (Tags.encoded O.encoding (p.tags.getD [])) isReportImport := by
  unfold reportedTags
  split
  · rfl
  · rename_i b hb
    cases htags : p.tags with
    | none => rfl
    | some own =>
      simp only [binding, Option.bind_eq_bind, Option.bind_eq_some_iff, Option.pure_def, Option.some.injEq] at hb
      obtain ⟨uniqueId, hid, fresh, -, rfl⟩ := hb
      rw [hid, Option.bind_some, htags]
      have hmerged : mergedTags O isReportImport (found.get uniqueId) own =
          Tags.updateTags (Tags.decoded O.encoding (((found.get uniqueId).map fun f => f.1.tags).getD [])) own
            isReportImport := by
        rw [mergedTags]
        cases found.get uniqueId <;> rfl
      exact (congrArg (fun tags => Tags.updateEncodedTags O.encoding _ (Tags.encoded O.encoding tags) _) hmerged).trans
        (Tags.updateEncodedTags_updateTags O.encoding _ isReportImport (hkeys own htags))

/-- What `bind_clusters` hands on. -/
theorem bindClusters_resources {R : RuleContext} {t t' : Resources} {bound : Bound}
    (h : bindClusters O R types resources found isReportImport now t = (.ok bound, t')) :
    ∃ g, GatheredFrom O types (dbClusters found t) found isReportImport now resources.zipIdx g ∧
      bound.resources = (resources.zip g.tags.zipIdx).map fun p =>
        { p.1 with tags := tagsLeft g.definitions p.2.2 p.2.1 } := by
  refine ⟨_, gathered_from resources, ?_⟩
  obtain ⟨clusters, t₁, hread, h⟩ := Session.bind_eq_ok.mp h
  obtain ⟨hclusters, rfl⟩ := Session.read_eq_ok.mp hread
  obtain rfl := Except.ok.inj hclusters
  obtain ⟨ids, t₂, -, h⟩ := Session.bind_eq_ok.mp h
  obtain ⟨_, t₃, -, h⟩ := Session.bind_eq_ok.mp h
  obtain ⟨hbound, -⟩ := Session.read_eq_ok.mp h
  obtain rfl := Except.ok.inj hbound
  rfl

/-- **When `bind_clusters` leaves the resources alone.** -/
theorem bindClusters_leaves_iff {R : RuleContext} {t t' : Resources} {bound : Bound}
    (hkeys : ∀ p ∈ resources, ∀ tags ∈ p.tags, (tags.map Prod.fst).Nodup)
    (h : bindClusters O R types resources found isReportImport now t = (.ok bound, t')) :
    LeavesTags O types (dbClusters found t) found isReportImport now resources bound ↔
      ∀ before p after, resources = before ++ p :: after →
        ∀ b, binding O types (dbClusters found t) found isReportImport now p = some b → p.tags ≠ none →
          Spared (membersOf O types (dbClusters found t) found isReportImport now b.1.cid before) b.2
            (membersOf O types (dbClusters found t) found isReportImport now b.1.cid after) := by
  obtain ⟨g, hg, hbound⟩ := bindClusters_resources h
  have htags : bound.resources.map Payload.tags = resources.zipIdx.map fun q =>
      tagsLeft g.definitions q.2 (reportedTags O types (dbClusters found t) found isReportImport now q.1) := by
    rw [hbound, hg.tags]
    refine List.ext_getElem (by simp) fun i _ _ => ?_
    simp
  have hiff : bound.resources.map Payload.tags =
      resources.map (reportedTags O types (dbClusters found t) found isReportImport now) ↔
      ∀ before p after, resources = before ++ p :: after →
        ∀ b, binding O types (dbClusters found t) found isReportImport now p = some b → p.tags ≠ none →
          Spared (membersOf O types (dbClusters found t) found isReportImport now b.1.cid before) b.2
            (membersOf O types (dbClusters found t) found isReportImport now b.1.cid after) := by
    rw [htags, map_zipIdx_eq_iff]
    refine forall_congr' fun before => forall_congr' fun p => forall_congr' fun after =>
      forall_congr' fun hsplit => ?_
    subst hsplit
    exact tagsLeft_eq_iff hkeys hg
  rw [← hiff]
  refine ⟨fun h => h.tags, fun h => ⟨h, ?_⟩⟩
  rintro ⟨p, left⟩ hx dbTags rfl
  have hleft : left.tags = reportedTags O types (dbClusters found t) found isReportImport now p := by
    obtain ⟨i, hi⟩ := List.mem_iff_getElem?.mp hx
    obtain ⟨hp, hl⟩ := List.getElem?_zip_eq_some.mp hi
    have hget := congrArg (·[i]?) h
    simpa [hp, hl] using hget
  rw [hleft]
  exact stored_reportedTags (hkeys p (List.of_mem_zip hx).1)

end Left

/-! ### Two members of a new cluster -/

/-- An instance with tags, new to the data source. -/
def instanceOf (cloudResourceId : String) (tags : Tags) : Payload where
  cloudResourceId := some cloudResourceId
  resourceType := instanceType
  tags := some tags

/-- A binding of new resources by one cluster type. -/
def bindNew (resources : List Payload) : Except Failure Bound × Resources :=
  bindClusters oneSource rootOnly oneType.rows resources [] true 6 Table.empty

theorem bindNew_of_any (resources : List Payload) (P : Bound → Bool) (h : (bindNew resources).1.toOption.any P) :
    ∃ bound t', bindNew resources = (.ok bound, t') ∧ P bound = true := by
  obtain ⟨bound, hbound, hP⟩ := (Option.any_eq_true _ _).mp h
  refine ⟨bound, (bindNew resources).2, Prod.ext ?_ rfl, hP⟩
  cases hrun : (bindNew resources).1 with
  | error e => rw [hrun] at hbound; cases hbound
  | ok b => rw [hrun] at hbound; exact congrArg Except.ok (Option.some.inj hbound)

/-- A resource that is alone in its cluster keeps its tags. -/
theorem oneMember_leaves : ∃ bound t', bindNew [instanceOf "i1" [("tn", "tv"), ("a", "1")]] = (.ok bound, t') ∧
    LeavesTags oneSource oneType.rows (dbClusters [] Table.empty) [] true 6
      [instanceOf "i1" [("tn", "tv"), ("a", "1")]] bound := by
  obtain ⟨bound, t', hrun, -⟩ := bindNew_of_any
    [instanceOf "i1" [("tn", "tv"), ("a", "1")]] (fun _ => true) (by decide +kernel)
  refine ⟨bound, t', hrun, (bindClusters_leaves_iff ?_ hrun).mpr fun before p after hsplit b hb _ => ?_⟩
  · decide
  · obtain ⟨rfl, hrest⟩ : before = [] ∧ [instanceOf "i1" [("tn", "tv"), ("a", "1")]] = p :: after := by
      cases before with
      | nil => exact ⟨rfl, hsplit⟩
      | cons q before => simp at hsplit
    obtain ⟨rfl, rfl⟩ := List.cons.inj hrest
    intro _ _ _ k _
    cases hk : b.2.tags.lookup k <;> simp [membersOf, valuesOf, hk]

/-- **The first member is stored with the tags of the second.** -/
theorem twoMembers_not_leave : ¬ ∀ (O : OrganizationContext) (R : RuleContext) (types : List ClusterType)
    (resources : List Payload) (found : Found) (isReportImport : Bool) (now : ℕ) (t t' : Resources) (bound : Bound),
    (∀ p ∈ resources, ∀ tags ∈ p.tags, (tags.map Prod.fst).Nodup) →
      bindClusters O R types resources found isReportImport now t = (.ok bound, t') →
        LeavesTags O types (dbClusters found t) found isReportImport now resources bound := by
  intro hclaim
  obtain ⟨bound, t', hrun, hfirst⟩ := bindNew_of_any
    [instanceOf "i1" [("tn", "tv"), ("a", "1")], instanceOf "i2" [("tn", "tv"), ("b", "2")]]
    (fun bound => (bound.resources.map Payload.tags)[0]? = some (some [("tn", "tv"), ("a", "1"), ("b", "2")]))
    (by decide +kernel)
  have htags := (hclaim _ _ _ _ _ _ _ _ _ _ (by decide) hrun).tags
  rw [htags] at hfirst
  revert hfirst
  decide +kernel

end ClusterTypeController
