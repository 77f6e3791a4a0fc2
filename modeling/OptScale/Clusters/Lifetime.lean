import OptScale.Clusters.ClusterType
import OptScale.Foundations.Agreed

/-!
# Clusters/Lifetime — what a cluster has from its members

A cluster has the tags its members agree on, the first of their first days and the last of their last.  Its tags are
merged member by member, with the keys that were contradicted left out for good; but a cluster left without tags
takes over all tags of the next member, those keys among them, and then keeps them (`setLifetime_follows_iff`).
-/

open Agreed

namespace ClusterTypeController

/-- `timestamp_to_day_start` -/
def timestampToDayStart (t : ℕ) : ℕ := t - t % 86400

/-! ## The pass over the members, with the days -/

/-- The cluster while its changes are gone through, with the days of its dates. -/
structure Lifetime extends Merging where
  firstSeenDate : Option ℕ := none
  lastSeenDate : Option ℕ := none

/-- One turn.  A day is set again with its date, where the change has one. -/
def mergeLifetime (l : Lifetime) (change : Inherited × ℕ) : Lifetime :=
  let merging := mergeChange l.toMerging change
  { merging with
    firstSeenDate := if (change.1.firstSeen.filter (· ≠ 0)).isSome then
      merging.cluster.firstSeen.map timestampToDayStart else l.firstSeenDate
    lastSeenDate := if (change.1.lastSeen.filter (· ≠ 0)).isSome then
      merging.cluster.lastSeen.map timestampToDayStart else l.lastSeenDate }

/-- A change, with the keys of its tags distinct. -/
structure MemberChange extends Inherited where
  nodup : (tags.map Prod.fst).Nodup

/-- A cluster without its inherited fields; a new one is not active. -/
def resetFields (isNew : Bool) : Inherited := if isNew then { active := some false } else {}

/-- `_set_cluster_lifetime_fields` -/
def setLifetime (isNew : Bool) (changes : List MemberChange) : Lifetime :=
  (changes.map MemberChange.toInherited).zipIdx.foldl mergeLifetime { cluster := resetFields isNew }

/-! ## One key -/

/-- The values a key has in the changes. -/
def valuesOf (changes : List Inherited) (k : String) : List String := changes.filterMap (·.tags.lookup k)

/-- What a key has after one more value. -/
def joined (old : Option String) (v : String) : Option String := if old.getD v = v then some v else none

section Key

variable {s : Tags × List String} {tags : Tags} {k v : String}

theorem mergeTag_of_ne {t : String × String} (h : k ≠ t.1) :
    (mergeTag s t).1.lookup k = s.1.lookup k ∧ (k ∈ (mergeTag s t).2 ↔ k ∈ s.2) := by
  obtain ⟨tags, exclusions⟩ := s
  simp only [mergeTag]
  split
  · exact ⟨rfl, Iff.rfl⟩
  · split
    · exact ⟨by rw [Tags.lookup_set, if_neg h], Iff.rfl⟩
    · split
      · exact ⟨rfl, Iff.rfl⟩
      · exact ⟨by rw [Tags.lookup_pop, if_neg h], by rw [List.mem_cons, or_iff_right h]⟩

theorem mergeTag_of_mem (h : k ∈ s.2) : mergeTag s (k, v) = s := by
  simp only [mergeTag]
  rw [if_pos h]

theorem mergeTag_self (h : k ∉ s.2) : (mergeTag s (k, v)).1.lookup k = joined (s.1.lookup k) v ∧
    (k ∈ (mergeTag s (k, v)).2 ↔ joined (s.1.lookup k) v = none) := by
  obtain ⟨tags, exclusions⟩ := s
  simp only [mergeTag, joined]
  rw [if_neg h]
  split
  · rename_i hnone
    rw [hnone, Tags.lookup_set]
    simpa using h
  · rename_i old hold
    rw [hold, Option.getD_some]
    split
    · rename_i heq
      rw [hold, heq]
      simpa using h
    · rw [Tags.lookup_pop, if_pos rfl]
      simp

theorem foldl_mergeTag_of_none (h : tags.lookup k = none) :
    (tags.foldl mergeTag s).1.lookup k = s.1.lookup k ∧ (k ∈ (tags.foldl mergeTag s).2 ↔ k ∈ s.2) := by
  induction tags generalizing s with
  | nil => exact ⟨rfl, Iff.rfl⟩
  | cons t tags ih =>
    rw [List.lookup_cons] at h
    have hne : k ≠ t.1 := fun heq => by simp [heq] at h
    rw [beq_false_of_ne hne] at h
    have hstep := mergeTag_of_ne (s := s) hne
    obtain ⟨hlookup, hexcluded⟩ := ih (s := mergeTag s t) h
    exact ⟨hlookup.trans hstep.1, hexcluded.trans hstep.2⟩

/-- **The tags of a change, at one of their keys.** -/
theorem foldl_mergeTag_of_some (hnodup : (tags.map Prod.fst).Nodup) (h : tags.lookup k = some v) :
    (k ∈ s.2 → (tags.foldl mergeTag s).1.lookup k = s.1.lookup k ∧ k ∈ (tags.foldl mergeTag s).2) ∧
      (k ∉ s.2 → (tags.foldl mergeTag s).1.lookup k = joined (s.1.lookup k) v ∧
        (k ∈ (tags.foldl mergeTag s).2 ↔ joined (s.1.lookup k) v = none)) := by
  induction tags generalizing s with
  | nil => simp at h
  | cons t tags ih =>
    rw [List.map_cons, List.nodup_cons] at hnodup
    rw [List.lookup_cons] at h
    by_cases hk : k = t.1
    · obtain rfl : t = (k, v) := by
        rw [hk] at h
        simp only [beq_self_eq_true, Option.some.injEq] at h
        exact Prod.ext hk.symm h
      have hrest : tags.lookup k = none := by
        rw [← Option.not_isSome_iff_eq_none, Tags.lookup_isSome]
        simpa using hnodup.1
      have hfold := foldl_mergeTag_of_none (s := mergeTag s (k, v)) hrest
      refine ⟨fun hmem => ?_, fun hmem => ?_⟩
      · rw [List.foldl_cons, hfold.2, hfold.1, mergeTag_of_mem hmem]
        exact ⟨rfl, hmem⟩
      · rw [List.foldl_cons, hfold.2, hfold.1]
        exact mergeTag_self hmem
    · rw [beq_false_of_ne hk] at h
      have hstep := mergeTag_of_ne (s := s) hk
      have hfold := ih (s := mergeTag s t) hnodup.2 h
      rw [hstep.1, hstep.2] at hfold
      exact hfold

end Key

/-! ## All keys -/

/-- The cluster has for a key what the changes agree on, and leaves it out where they contradict each other. -/
structure AgreesAt (changes : List Inherited) (m : Merging) (k : String) : Prop where
  tags : m.cluster.tags.lookup k = agreed (valuesOf changes k)
  exclusions : k ∈ m.exclusions ↔ valuesOf changes k ≠ [] ∧ agreed (valuesOf changes k) = none

/-- So it does for all keys. -/
def Agrees (changes : List Inherited) (m : Merging) : Prop := ∀ k, AgreesAt changes m k

/-- A key that is left out is back. -/
def Revived (changes : List Inherited) (m : Merging) : Prop :=
  ∃ k ∈ m.exclusions, m.cluster.tags.lookup k ≠ none ∧ valuesOf changes k ≠ [] ∧ agreed (valuesOf changes k) = none

/-- Where the changes so far agree on no key, the next has none of their keys. -/
def Steady (before : List Inherited) (c : Inherited) : Prop :=
  (∀ k, agreed (valuesOf before k) = none) → ∀ k, c.tags.lookup k ≠ none → valuesOf before k = []

/-- Each change is steady after those before it. -/
def AllSteady (changes : List Inherited) : Prop :=
  ∀ before c after, changes = before ++ c :: after → Steady before c

section Run

variable {before : List Inherited} {m : Merging} {c : Inherited × ℕ}

theorem valuesOf_concat (before : List Inherited) (c : Inherited) (k : String) :
    valuesOf (before ++ [c]) k = valuesOf before k ++ (c.tags.lookup k).toList := by
  rw [valuesOf, List.filterMap_append]
  cases h : c.tags.lookup k <;> simp [valuesOf, h]

theorem tags_eq_nil_iff {tags : Tags} : tags = [] ↔ ∀ k, tags.lookup k = none := by
  refine ⟨fun h k => by rw [h, List.lookup_nil], fun h => ?_⟩
  cases tags with
  | nil => rfl
  | cons t tags => simpa using h t.1

theorem mergeChange_of_nil (h : m.cluster.tags = []) :
    (mergeChange m c).cluster.tags = c.1.tags ∧ (mergeChange m c).exclusions = m.exclusions := by
  simp only [mergeChange, h, if_true, and_self]

theorem mergeChange_of_ne_nil (h : m.cluster.tags ≠ []) :
    (mergeChange m c).cluster.tags = (c.1.tags.foldl mergeTag (m.cluster.tags, m.exclusions)).1 ∧
      (mergeChange m c).exclusions = (c.1.tags.foldl mergeTag (m.cluster.tags, m.exclusions)).2 := by
  simp only [mergeChange, h, if_false, and_self]

theorem joined_agreed {vs : List String} {v : String} (h : vs ≠ [] → agreed vs ≠ none) :
    joined (agreed vs) v = agreed (vs ++ [v]) := by
  by_cases hvs : vs = []
  · rw [hvs]
    simp [joined]
  · obtain ⟨w, hw⟩ := Option.ne_none_iff_exists'.mp (h hvs)
    rw [agreed_concat hvs, hw, Option.filter_some, joined, Option.getD_some]
    by_cases hwv : w = v <;> simp [hwv]

/-- A cluster with tags keeps a key that is left out as it is. -/
theorem mergeChange_excluded {k : String} (hne : m.cluster.tags ≠ []) (hnodup : (c.1.tags.map Prod.fst).Nodup)
    (hex : k ∈ m.exclusions) : (mergeChange m c).cluster.tags.lookup k = m.cluster.tags.lookup k ∧
      k ∈ (mergeChange m c).exclusions := by
  obtain ⟨htags, hexclusions⟩ := mergeChange_of_ne_nil (c := c) hne
  rw [htags, hexclusions]
  cases hc : c.1.tags.lookup k with
  | none =>
    obtain ⟨hlookup, hmem⟩ := foldl_mergeTag_of_none (s := (m.cluster.tags, m.exclusions)) hc
    exact ⟨hlookup, hmem.mpr hex⟩
  | some v => exact (foldl_mergeTag_of_some (s := (m.cluster.tags, m.exclusions)) hnodup hc).1 hex

/-- **A cluster with tags keeps the agreement on a key.** -/
theorem AgreesAt.mergeChange {k : String} (h : AgreesAt before m k) (hne : m.cluster.tags ≠ [])
    (hnodup : (c.1.tags.map Prod.fst).Nodup) :
    AgreesAt (before ++ [c.1]) (ClusterTypeController.mergeChange m c) k := by
  by_cases hex : k ∈ m.exclusions
  · obtain ⟨hvalues, hnone⟩ := h.exclusions.mp hex
    obtain ⟨hlookup, hmem⟩ := mergeChange_excluded hne hnodup hex
    have hstill : agreed (valuesOf (before ++ [c.1]) k) = none := by
      rw [valuesOf_concat]
      exact agreed_append_eq_none hvalues hnone
    refine ⟨by rw [hlookup, h.tags, hnone, hstill], iff_of_true hmem ⟨?_, hstill⟩⟩
    rw [valuesOf_concat]
    exact List.append_ne_nil_of_left_ne_nil hvalues _
  · obtain ⟨htags, hexclusions⟩ := mergeChange_of_ne_nil (c := c) hne
    cases hk : c.1.tags.lookup k with
    | none =>
      obtain ⟨hlookup, hmem⟩ := foldl_mergeTag_of_none (s := (m.cluster.tags, m.exclusions)) hk
      constructor
      · rw [htags, hlookup, valuesOf_concat, hk, Option.toList_none, List.append_nil]
        exact h.tags
      · rw [hexclusions, hmem, valuesOf_concat, hk, Option.toList_none, List.append_nil]
        exact h.exclusions
    | some v =>
      obtain ⟨hlookup, hmem⟩ :=
        (foldl_mergeTag_of_some (s := (m.cluster.tags, m.exclusions)) hnodup hk).2 hex
      have hjoined : joined (agreed (valuesOf before k)) v = agreed (valuesOf before k ++ [v]) :=
        joined_agreed fun hvalues hnone => hex (h.exclusions.mpr ⟨hvalues, hnone⟩)
      constructor
      · rw [htags, hlookup, valuesOf_concat, hk, h.tags, hjoined, Option.toList_some]
      · rw [hexclusions, hmem, valuesOf_concat, hk, h.tags, hjoined, Option.toList_some]
        exact ⟨fun hnone => ⟨by simp, hnone⟩, fun h => h.2⟩

/-- **One turn keeps the agreement** where the change is steady. -/
theorem Agrees.mergeChange (h : Agrees before m) (hnodup : (c.1.tags.map Prod.fst).Nodup) (hsteady : Steady before c.1) :
    Agrees (before ++ [c.1]) (ClusterTypeController.mergeChange m c) := by
  intro k
  by_cases hnil : m.cluster.tags = []
  · obtain ⟨htags, hexclusions⟩ := mergeChange_of_nil (c := c) hnil
    have hnone : ∀ k, agreed (valuesOf before k) = none := fun k => by rw [← (h k).tags, hnil, List.lookup_nil]
    cases hk : c.1.tags.lookup k with
    | none =>
      constructor
      · rw [htags, valuesOf_concat, hk, Option.toList_none, List.append_nil, hnone]
      · rw [hexclusions, valuesOf_concat, hk, Option.toList_none, List.append_nil]
        exact (h k).exclusions
    | some v =>
      have hvalues := hsteady hnone k (by rw [hk]; exact Option.some_ne_none v)
      constructor
      · rw [htags, valuesOf_concat, hk, hvalues, Option.toList_some, List.nil_append, agreed_singleton]
      · rw [hexclusions, (h k).exclusions, valuesOf_concat, hk, hvalues]
        simp
  · exact (h k).mergeChange hnil hnodup

/-- **A change that is not steady brings a key back.** -/
theorem Agrees.revived (h : Agrees before m) (hsteady : ¬ Steady before c.1) :
    Revived (before ++ [c.1]) (ClusterTypeController.mergeChange m c) := by
  simp only [Steady, not_forall] at hsteady
  obtain ⟨hnone, k, hk, hvalues⟩ := hsteady
  have hnil : m.cluster.tags = [] := tags_eq_nil_iff.mpr fun k => (h k).tags.trans (hnone k)
  obtain ⟨htags, hexclusions⟩ := mergeChange_of_nil (c := c) hnil
  refine ⟨k, ?_, ?_, ?_, ?_⟩
  · rw [hexclusions]
    exact (h k).exclusions.mpr ⟨hvalues, hnone k⟩
  · rwa [htags]
  · rw [valuesOf_concat]
    exact List.append_ne_nil_of_left_ne_nil hvalues _
  · rw [valuesOf_concat]
    exact agreed_append_eq_none hvalues (hnone k)

/-- **And it stays.** -/
theorem Revived.mergeChange (h : Revived before m) (hnodup : (c.1.tags.map Prod.fst).Nodup) :
    Revived (before ++ [c.1]) (ClusterTypeController.mergeChange m c) := by
  obtain ⟨k, hex, hk, hvalues, hnone⟩ := h
  have hne : m.cluster.tags ≠ [] := fun hnil => hk (by rw [hnil, List.lookup_nil])
  obtain ⟨hlookup, hmem⟩ := mergeChange_excluded hne hnodup hex
  refine ⟨k, hmem, by rwa [hlookup], ?_, ?_⟩
  · rw [valuesOf_concat]
    exact List.append_ne_nil_of_left_ne_nil hvalues _
  · rw [valuesOf_concat]
    exact agreed_append_eq_none hvalues hnone

theorem allSteady_concat {before : List Inherited} {c : Inherited} :
    AllSteady (before ++ [c]) ↔ AllSteady before ∧ Steady before c := by
  constructor
  · intro h
    refine ⟨fun pre d post heq => h pre d (post ++ [c]) ?_, h before c [] rfl⟩
    rw [heq, List.append_assoc]
    rfl
  · rintro ⟨h, hc⟩ pre d post heq
    obtain rfl | ⟨post', last, rfl⟩ := post.eq_nil_or_concat'
    · obtain ⟨rfl, hd⟩ := List.append_inj' heq rfl
      obtain rfl := List.singleton_inj.mp hd
      exact hc
    · rw [← List.cons_append, ← List.append_assoc] at heq
      exact h pre d post' (List.append_inj' heq rfl).1

/-- **The tags after all changes.** -/
theorem agrees_or_revived (start : Merging) (htags : start.cluster.tags = []) (hexclusions : start.exclusions = [])
    (changes : List (Inherited × ℕ)) (hnodup : ∀ c ∈ changes, (c.1.tags.map Prod.fst).Nodup) :
    (AllSteady (changes.map Prod.fst) → Agrees (changes.map Prod.fst) (changes.foldl mergeChange start)) ∧
      (¬ AllSteady (changes.map Prod.fst) → Revived (changes.map Prod.fst) (changes.foldl mergeChange start)) := by
  induction changes using List.reverseRecOn with
  | nil =>
    refine ⟨fun _ k => ⟨?_, ?_⟩, fun h => absurd (fun before c after heq => ?_) h⟩
    · simp [htags, valuesOf]
    · simp [hexclusions, valuesOf]
    · simp at heq
  | append_singleton changes c ih =>
    obtain ⟨hagrees, hrevived⟩ := ih fun d hd => hnodup d (List.mem_append_left _ hd)
    have hc := hnodup c (by simp)
    rw [List.map_append, List.map_singleton, List.foldl_append, List.foldl_cons, List.foldl_nil, allSteady_concat]
    refine ⟨fun h => (hagrees h.1).mergeChange hc h.2, fun h => ?_⟩
    by_cases hsteady : AllSteady (changes.map Prod.fst)
    · exact (hagrees hsteady).revived fun hlast => h ⟨hsteady, hlast⟩
    · exact (hrevived hsteady).mergeChange hc

end Run

/-! ## Dates -/

section Dates

variable {f : ℕ → ℕ → ℕ}

/-- Dates that are not `0`. -/
def nonzero (dates : List (Option ℕ)) : List ℕ := dates.reduceOption.filter (· ≠ 0)

theorem nonzero_cons (d : Option ℕ) (dates : List (Option ℕ)) :
    nonzero (d :: dates) = (d.filter (· ≠ 0)).toList ++ nonzero dates := by
  cases d with
  | none => simp [nonzero]
  | some d => by_cases h : d = 0 <;> simp [nonzero, Option.filter_some, h]

theorem mergeDate_of_none {date change : Option ℕ} (h : change.filter (· ≠ 0) = none) :
    mergeDate f date change = date := by
  rw [mergeDate, h]

theorem foldl_mergeDate_some (hf : ∀ a b, a ≠ 0 → b ≠ 0 → f a b ≠ 0) {c : ℕ} (hc : c ≠ 0) (dates : List (Option ℕ)) :
    dates.foldl (mergeDate f) (some c) = some ((nonzero dates).foldl f c) := by
  induction dates generalizing c with
  | nil => rfl
  | cons d dates ih =>
    rw [List.foldl_cons, nonzero_cons]
    cases hd : d.filter (· ≠ 0) with
    | none =>
      rw [mergeDate_of_none hd, ih hc]
      rfl
    | some e =>
      have he : e ≠ 0 := by simpa using (Option.filter_eq_some_iff.mp hd).2
      have hstep : mergeDate f (some c) d = some (f c e) := by
        rw [mergeDate, hd, Option.filter_some, if_pos (decide_eq_true hc)]
      rw [hstep, ih (hf c e hc he)]
      rfl

/-- **The dates that are no `0`, put together.** -/
theorem foldl_mergeDate (hf : ∀ a b, a ≠ 0 → b ≠ 0 → f a b ≠ 0) (dates : List (Option ℕ)) :
    dates.foldl (mergeDate f) none = (nonzero dates).head?.map ((nonzero dates).tail.foldl f) := by
  induction dates with
  | nil => rfl
  | cons d dates ih =>
    rw [List.foldl_cons, nonzero_cons]
    cases hd : d.filter (· ≠ 0) with
    | none =>
      rw [mergeDate_of_none hd, ih]
      rfl
    | some e =>
      have he : e ≠ 0 := by simpa using (Option.filter_eq_some_iff.mp hd).2
      have hstep : mergeDate f none d = some e := by
        rw [mergeDate, hd]
        rfl
      rw [hstep, foldl_mergeDate_some hf he]
      rfl

theorem head?_foldl_min (dates : List ℕ) : dates.head?.map (dates.tail.foldl min) = dates.min? := by
  cases dates <;> rfl

theorem head?_foldl_max (dates : List ℕ) : dates.head?.map (dates.tail.foldl max) = dates.max? := by
  cases dates <;> rfl

end Dates

/-! ## The cluster after the pass -/

/-- The dates the changes have. -/
def datesOf (field : Inherited → Option ℕ) (changes : List MemberChange) : List ℕ :=
  changes.filterMap fun c => field c.toInherited

/-- **The cluster follows its members.** -/
structure FollowsMembers (changes : List MemberChange) (l : Lifetime) : Prop where
  tags : ∀ k, l.cluster.tags.lookup k = agreed (valuesOf (changes.map MemberChange.toInherited) k)
  active : l.cluster.active.getD false = changes.any fun c => c.active.getD false
  firstSeen : l.cluster.firstSeen = (datesOf Inherited.firstSeen changes).min?
  lastSeen : l.cluster.lastSeen = (datesOf Inherited.lastSeen changes).max?
  firstSeenDate : l.firstSeenDate = l.cluster.firstSeen.map timestampToDayStart
  lastSeenDate : l.lastSeenDate = l.cluster.lastSeen.map timestampToDayStart

/-- No key comes back, and no `0` counts as a date. -/
structure Settled (changes : List MemberChange) : Prop where
  tags : AllSteady (changes.map MemberChange.toInherited)
  firstSeen : 0 ∉ datesOf Inherited.firstSeen changes
  lastSeen : 0 ∈ datesOf Inherited.lastSeen changes → ∃ d ∈ datesOf Inherited.lastSeen changes, d ≠ 0

section After

variable {isNew : Bool} {changes : List MemberChange}

theorem foldl_mergeLifetime (l : Lifetime) (changes : List (Inherited × ℕ)) :
    (changes.foldl mergeLifetime l).toMerging = changes.foldl mergeChange l.toMerging := by
  induction changes generalizing l with
  | nil => rfl
  | cons c changes ih =>
    rw [List.foldl_cons, List.foldl_cons, ih]
    rfl

/-- The pass with the days is the pass without them. -/
theorem setLifetime_toMerging : (setLifetime isNew changes).toMerging =
    setClusterLifetimeFields (resetFields isNew) (changes.map MemberChange.toInherited).zipIdx :=
  foldl_mergeLifetime _ _

theorem foldl_mergeChange_fields (m : Merging) (changes : List (Inherited × ℕ)) :
    ((changes.foldl mergeChange m).cluster.active.getD false =
      (m.cluster.active.getD false || (changes.map Prod.fst).any fun c => c.active.getD false)) ∧
    (changes.foldl mergeChange m).cluster.firstSeen =
      ((changes.map Prod.fst).map Inherited.firstSeen).foldl (mergeDate min) m.cluster.firstSeen ∧
    (changes.foldl mergeChange m).cluster.lastSeen =
      ((changes.map Prod.fst).map Inherited.lastSeen).foldl (mergeDate max) m.cluster.lastSeen := by
  induction changes generalizing m with
  | nil => simp
  | cons c changes ih =>
    obtain ⟨hactive, hfirst, hlast⟩ := ih (mergeChange m c)
    refine ⟨?_, hfirst, hlast⟩
    rw [List.foldl_cons, hactive, List.map_cons, List.any_cons, ← Bool.or_assoc]
    rfl

theorem nonzero_dates (field : Inherited → Option ℕ) :
    nonzero ((changes.map MemberChange.toInherited).map field) = (datesOf field changes).filter (· ≠ 0) := by
  rw [nonzero, datesOf, List.map_map, List.reduceOption, List.filterMap_map]
  rfl

variable (isNew changes) in
/-- **The activity and the dates after the pass.** -/
theorem setLifetime_fields :
    ((setLifetime isNew changes).cluster.active.getD false = changes.any fun c => c.active.getD false) ∧
      (setLifetime isNew changes).cluster.firstSeen = ((datesOf Inherited.firstSeen changes).filter (· ≠ 0)).min? ∧
      (setLifetime isNew changes).cluster.lastSeen = ((datesOf Inherited.lastSeen changes).filter (· ≠ 0)).max? := by
  have hreset : (resetFields isNew).active.getD false = false ∧ (resetFields isNew).firstSeen = none ∧
      (resetFields isNew).lastSeen = none := by
    cases isNew <;> exact ⟨rfl, rfl, rfl⟩
  obtain ⟨hactive, hfirst, hlast⟩ := foldl_mergeChange_fields { cluster := resetFields isNew }
    (changes.map MemberChange.toInherited).zipIdx
  rw [List.zipIdx_map_fst] at hactive hfirst hlast
  rw [setLifetime_toMerging, setClusterLifetimeFields, hactive, hfirst, hlast, hreset.1, hreset.2.1, hreset.2.2,
    foldl_mergeDate fun a b ha hb => by omega, foldl_mergeDate fun a b ha hb => by omega, head?_foldl_min,
    head?_foldl_max, nonzero_dates, nonzero_dates, Bool.false_or, List.any_map]
  exact ⟨rfl, rfl, rfl⟩

/-- The days are those of the dates, all the way. -/
theorem foldl_mergeLifetime_days (l : Lifetime) (hfirst : l.firstSeenDate = l.cluster.firstSeen.map timestampToDayStart)
    (hlast : l.lastSeenDate = l.cluster.lastSeen.map timestampToDayStart) (changes : List (Inherited × ℕ)) :
    (changes.foldl mergeLifetime l).firstSeenDate =
        (changes.foldl mergeLifetime l).cluster.firstSeen.map timestampToDayStart ∧
      (changes.foldl mergeLifetime l).lastSeenDate =
        (changes.foldl mergeLifetime l).cluster.lastSeen.map timestampToDayStart := by
  induction changes generalizing l with
  | nil => exact ⟨hfirst, hlast⟩
  | cons c changes ih =>
    refine ih (mergeLifetime l c) ?_ ?_
    · simp only [mergeLifetime]
      split
      · rfl
      · rename_i h
        have hsame : (mergeChange l.toMerging c).cluster.firstSeen = l.cluster.firstSeen :=
          mergeDate_of_none (Option.not_isSome_iff_eq_none.mp h)
        rw [hsame, hfirst]
    · simp only [mergeLifetime]
      split
      · rfl
      · rename_i h
        have hsame : (mergeChange l.toMerging c).cluster.lastSeen = l.cluster.lastSeen :=
          mergeDate_of_none (Option.not_isSome_iff_eq_none.mp h)
        rw [hsame, hlast]

theorem min?_nonzero_iff (dates : List ℕ) : (dates.filter (· ≠ 0)).min? = dates.min? ↔ 0 ∉ dates := by
  constructor
  · intro h hmem
    have hmin : dates.min? = some 0 := List.min?_eq_some_iff.mpr ⟨hmem, fun _ _ => Nat.zero_le _⟩
    rw [hmin, List.min?_eq_some_iff] at h
    simpa using h.1
  · intro h
    rw [List.filter_eq_self.mpr fun d hd => decide_eq_true (ne_of_mem_of_not_mem hd h)]

theorem max?_nonzero_iff (dates : List ℕ) :
    (dates.filter (· ≠ 0)).max? = dates.max? ↔ (0 ∈ dates → ∃ d ∈ dates, d ≠ 0) := by
  constructor
  · intro h hmem
    by_contra hnone
    push Not at hnone
    have hmax : dates.max? = some 0 := List.max?_eq_some_iff.mpr ⟨hmem, fun d hd => (hnone d hd).le⟩
    rw [hmax, List.max?_eq_some_iff] at h
    simpa using h.1
  · intro h
    refine Option.ext fun d => ?_
    simp only [List.max?_eq_some_iff, List.mem_filter, decide_eq_true_eq]
    constructor
    · rintro ⟨⟨hd, hpos⟩, hmax⟩
      refine ⟨hd, fun e he => ?_⟩
      by_cases h0 : e = 0
      · exact h0 ▸ Nat.zero_le d
      · exact hmax e ⟨he, h0⟩
    · rintro ⟨hd, hmax⟩
      refine ⟨⟨hd, fun h0 => ?_⟩, fun e he => hmax e he.1⟩
      obtain ⟨e, he, hpos⟩ := h (h0 ▸ hd)
      exact hpos (Nat.le_zero.mp (h0 ▸ hmax e he))

/-- **A cluster follows its members exactly when no key comes back**, and no `0` counts as a date. -/
theorem setLifetime_follows_iff (isNew : Bool) (changes : List MemberChange) :
    FollowsMembers changes (setLifetime isNew changes) ↔ Settled changes := by
  obtain ⟨hactive, hfirst, hlast⟩ := setLifetime_fields isNew changes
  obtain ⟨hagrees, hrevived⟩ := agrees_or_revived { cluster := resetFields isNew } (by cases isNew <;> rfl) rfl
    (changes.map MemberChange.toInherited).zipIdx fun c hc => by
      obtain ⟨d, -, hd⟩ := List.mem_map.mp (List.fst_mem_of_mem_zipIdx hc)
      rw [← hd]
      exact d.nodup
  rw [List.zipIdx_map_fst] at hagrees hrevived
  constructor
  · intro h
    refine ⟨?_, ?_, ?_⟩
    · by_contra hsteady
      obtain ⟨k, -, hk, -, hnone⟩ := hrevived hsteady
      refine hk (Eq.trans ?_ hnone)
      rw [← h.tags, setLifetime_toMerging]
      rfl
    · exact (min?_nonzero_iff _).mp (hfirst ▸ h.firstSeen)
    · exact (max?_nonzero_iff _).mp (hlast ▸ h.lastSeen)
  · intro h
    obtain ⟨hfirstDate, hlastDate⟩ := foldl_mergeLifetime_days { cluster := resetFields isNew }
      (by cases isNew <;> rfl) (by cases isNew <;> rfl) (changes.map MemberChange.toInherited).zipIdx
    refine ⟨fun k => ?_, hactive, ?_, ?_, hfirstDate, hlastDate⟩
    · rw [setLifetime_toMerging]
      exact (hagrees h.tags k).tags
    · rw [hfirst, (min?_nonzero_iff _).mpr h.firstSeen]
    · rw [hlast, (max?_nonzero_iff _).mpr h.lastSeen]

/-- Three members with three values: the third puts the key back. -/
theorem threeValues_not_follow : ¬ ∀ (isNew : Bool) (changes : List MemberChange),
    FollowsMembers changes (setLifetime isNew changes) := by
  intro h
  have htags := (h true [⟨{ tags := [("k", "1")] }, by decide⟩, ⟨{ tags := [("k", "2")] }, by decide⟩,
    ⟨{ tags := [("k", "3")] }, by decide⟩]).tags "k"
  revert htags
  decide

end After

end ClusterTypeController
