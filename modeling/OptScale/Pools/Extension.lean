import OptScale.Pools.Tree

/-!
# Pools/Extension — the checks of the pool tree, and `extend_parent_pools` as a climb

Where the live pools are a tree, `check_child_pool_sum` compares a limit with its neighbours' in the
tree, and the loop of `extend_parent_pools` is a climb from the parent of the pool to the root.
-/

open Fallible Forest

namespace PoolTree

/-- **A tree of pools**: parents are there and of the same organization, and limits are not negative. -/
structure IsTree (rows : List Pool) : Prop where
  forest : IsForest Pool.id Pool.parentId rows
  organization : ∀ p ∈ rows, ∀ q ∈ rows, p.parentId = some q.id →
    p.organizationId = q.organizationId
  nonneg : ∀ p ∈ rows, 0 ≤ p.limit

variable {rows : List Pool} {t : Table Pool.id} {p q : Pool}

theorem mem_live : p ∈ live t ↔ p ∈ t.rows ∧ ¬ p.Deleted := by
  rw [live, List.mem_filter, decide_eq_true_eq]

theorem IsTree.find? (h : IsTree rows) (hp : p ∈ rows) :
    (rows.find? fun q => q.id = p.id) = some p :=
  h.forest.find?_key (fun _ hq => hq) hp

theorem get_eq_some (h : IsTree (live t)) {id : Uuid} :
    get t id = some p ↔ p ∈ live t ∧ p.id = id := by
  constructor
  · exact fun hget => ⟨List.mem_of_find?_eq_some hget, by simpa using List.find?_some hget⟩
  · rintro ⟨hp, rfl⟩
    exact h.find? hp

/-! ## `check_child_pool_sum` -/

/-- `check_int_attribute` lets the limit through. -/
def InRange (v : ℤ) : Prop := 0 ≤ v ∧ v ≤ maxInt32

theorem checkIntAttribute_limit {v : Option ℤ} {n : ℕ} :
    checkIntAttribute "limit" v = .ok n ↔ ∃ w, v = some w ∧ InRange w ∧ (n : ℤ) = w := by
  simp only [checkIntAttribute, bind_eq_ok, orFail_eq_ok, require_eq_ok, pure_eq_ok]
  constructor
  · rintro ⟨w, rfl, _, hw, rfl⟩
    exact ⟨w, rfl, hw, Int.toNat_of_nonneg hw.1⟩
  · rintro ⟨w, rfl, hw, hn⟩
    exact ⟨w, rfl, (), hw, by omega⟩

theorem childrenTotalSum_none {a : Uuid} :
    childrenTotalSum rows a none = childSum Pool.parentId rows Pool.limit a := by
  simp [childrenTotalSum, childSum]

theorem childrenTotalSum_some {a c : Uuid} :
    childrenTotalSum rows a (some c) = siblingSum Pool.id Pool.parentId rows Pool.limit a c := by
  simp [childrenTotalSum, siblingSum]

theorem descends_self {pools : List Pool} {n : ℕ} : descends pools p.id n p = true := by
  cases n <;> simp [descends]

theorem descends_child {pools : List Pool} {root : Uuid} {n : ℕ} (hq : q ∈ pools)
    (hpar : p.parentId = some q.id) (h : descends pools root n q = true) :
    descends pools root (n + 1) p = true := by
  simp only [descends, Bool.or_eq_true, List.any_eq_true, Bool.and_eq_true, decide_eq_true_eq]
  exact Or.inr ⟨q, hq, hpar, h⟩

/-- The children that are in the hierarchy are summed up there. -/
theorem childrenTotalSum_hierarchy {root x : Uuid} {e : Option Uuid}
    (h : ∀ b ∈ live t, b.parentId = some x → descends (live t) root (live t).length b = true) :
    childrenTotalSum (getItemHierarchy t root) x e = childrenTotalSum (live t) x e := by
  unfold childrenTotalSum getItemHierarchy
  rw [List.filter_filter]
  congr 2
  refine List.filter_congr fun b hb => ?_
  by_cases hx : b.parentId = some x
  · simp [hx, h b hb hx]
  · simp [hx]

theorem mem_getItemHierarchy_self (hp : p ∈ live t) : p ∈ getItemHierarchy t p.id :=
  List.mem_filter.mpr ⟨hp, descends_self⟩

section Stats

variable (ht : IsTree (live t))
include ht

/-- **The stats of the root of a hierarchy** are its own in the tree. -/
theorem stats_self (hp : p ∈ live t) (e : Option Uuid) :
    stats (getItemHierarchy t p.id) e p.id = (p.limit, childrenTotalSum (live t) p.id e) := by
  have hfind : ((getItemHierarchy t p.id).find? fun b => b.id = p.id) = some p :=
    ht.forest.find?_key (fun _ hq => List.mem_of_mem_filter hq) (mem_getItemHierarchy_self hp)
  obtain ⟨n, hn⟩ := Nat.exists_eq_succ_of_ne_zero
    (List.length_pos_iff_exists_mem.mpr ⟨p, hp⟩).ne'
  rw [stats, hfind]
  refine congrArg (Prod.mk _) (childrenTotalSum_hierarchy fun b hb hpar => ?_)
  rw [hn]
  exact descends_child hp hpar descends_self

/-- **The stats of a child of the root of a hierarchy** are its own in the tree, too. -/
theorem stats_child (hp : p ∈ live t) (hq : q ∈ live t) (hpar : p.parentId = some q.id)
    (e : Option Uuid) :
    stats (getItemHierarchy t q.id) e p.id = (p.limit, childrenTotalSum (live t) p.id e) := by
  obtain ⟨rank, hrank⟩ := ht.forest.ranked
  have hne : q ≠ p := fun h => by
    have := hrank p hp _ hpar
    rw [h] at this
    omega
  obtain ⟨n, hn⟩ : ∃ n, (live t).length = n + 2 := by
    have hsub : List.Subperm [q, p] (live t) := List.subperm_of_subset (by simpa using hne) (by simp [hp, hq])
    exact ⟨_, (Nat.sub_add_cancel hsub.length_le).symm⟩
  have hmem : p ∈ getItemHierarchy t q.id := by
    refine List.mem_filter.mpr ⟨hp, ?_⟩
    rw [hn]
    exact descends_child hq hpar descends_self
  have hfind : ((getItemHierarchy t q.id).find? fun b => b.id = p.id) = some p :=
    ht.forest.find?_key (fun _ hx => List.mem_of_mem_filter hx) hmem
  rw [stats, hfind]
  refine congrArg (Prod.mk _) (childrenTotalSum_hierarchy fun b hb hb' => ?_)
  rw [hn]
  exact descends_child hp hb' (descends_child hq hpar descends_self)

/-- **The check of a new pool** compares its limit with what its parent has left. -/
theorem checkChildPoolSum_new (hq : q ∈ live t) {v : Option ℤ} :
    checkChildPoolSum t v (some q.id) none = .ok () ↔ ∃ w, v = some w ∧ InRange w ∧
      childSum Pool.parentId (live t) Pool.limit q.id + w ≤ q.limit := by
  have hne : getItemHierarchy t q.id ≠ [] :=
    List.ne_nil_of_mem (mem_getItemHierarchy_self hq)
  simp only [checkChildPoolSum, Option.some_or, bind_eq_ok, checkIntAttribute_limit, if_neg hne,
    stats_self ht hq, require_eq_ok, childrenTotalSum_none]
  constructor
  · rintro ⟨n, ⟨w, rfl, hw, rfl⟩, _, hle, -⟩
    exact ⟨_, rfl, hw, hle⟩
  · rintro ⟨w, rfl, hw, hle⟩
    obtain ⟨n, hn⟩ := Int.eq_ofNat_of_zero_le hw.1
    subst hn
    exact ⟨n, ⟨_, rfl, hw, rfl⟩, (), hle, trivial⟩

/-- **The check of a stored pool** compares its limit with what its parent has left and with its
children. -/
theorem checkChildPoolSum_edited (hp : p ∈ live t) {v : Option ℤ} :
    checkChildPoolSum t v p.parentId (some p.id) = .ok () ↔ ∃ w, v = some w ∧ InRange w ∧
      (∀ q ∈ live t, p.parentId = some q.id →
        siblingSum Pool.id Pool.parentId (live t) Pool.limit q.id p.id + w ≤ q.limit) ∧
      childSum Pool.parentId (live t) Pool.limit p.id ≤ w := by
  obtain ⟨rank, hrank⟩ := ht.forest.ranked
  have hself : childrenTotalSum (live t) p.id (some p.id) =
      childSum Pool.parentId (live t) Pool.limit p.id := by
    rw [childrenTotalSum_some]
    refine siblingSum_of_not_child fun r hr hkey hpar => ?_
    exact absurd (hkey ▸ hrank r hr _ hpar) (lt_irrefl _)
  cases hpar : p.parentId with
  | none =>
    have hne : getItemHierarchy t p.id ≠ [] :=
      List.ne_nil_of_mem (mem_getItemHierarchy_self hp)
    simp only [checkChildPoolSum, Option.none_or, bind_eq_ok, checkIntAttribute_limit, if_neg hne,
      stats_self ht hp, require_eq_ok, hself]
    constructor
    · rintro ⟨n, ⟨w, rfl, hw, rfl⟩, _, -, hle⟩
      exact ⟨_, rfl, hw, by simp, hle⟩
    · rintro ⟨w, rfl, hw, -, hle⟩
      obtain ⟨n, hn⟩ := Int.eq_ofNat_of_zero_le hw.1
      subst hn
      exact ⟨n, ⟨_, rfl, hw, rfl⟩, (), trivial, hle⟩
  | some a =>
    obtain ⟨q, hq, rfl⟩ := ht.forest.closed p hp a hpar
    have hne : getItemHierarchy t q.id ≠ [] :=
      List.ne_nil_of_mem (mem_getItemHierarchy_self hq)
    simp only [checkChildPoolSum, Option.some_or, bind_eq_ok, checkIntAttribute_limit, if_neg hne,
      stats_self ht hq, stats_child ht hp hq hpar, require_eq_ok, hself, childrenTotalSum_some]
    constructor
    · rintro ⟨n, ⟨w, rfl, hw, rfl⟩, _, hle, hle'⟩
      refine ⟨_, rfl, hw, fun q' hq' hpar' => ?_, hle'⟩
      obtain rfl := ht.forest.eq_of_key hq' hq (Option.some.inj hpar').symm
      exact hle
    · rintro ⟨w, rfl, hw, hle, hle'⟩
      obtain ⟨n, hn⟩ := Int.eq_ofNat_of_zero_le hw.1
      subst hn
      exact ⟨n, ⟨_, rfl, hw, rfl⟩, (), hle q hq rfl, hle'⟩

end Stats

/-! ## The loop of `extend_parent_pools` -/

section Loop

variable {managedPoolIds : List Uuid} {parentSums' : List (Uuid × ℤ)}

/-- **A turn of the loop**: the parent is there, and gets the sum of its children if that is more. -/
theorem extendLoop_succ_eq_ok {n : ℕ} {a : Uuid} {parentSums : List (Uuid × ℤ)} :
    extendLoop rows managedPoolIds (n + 1) (some a) parentSums = .ok parentSums' ↔
      ∃ p, (rows.find? fun q => q.id = a) = some p ∧
        ((p.limit < childSum Pool.parentId rows (newLimit parentSums) a ∧ a ∈ managedPoolIds ∧
            extendLoop rows managedPoolIds n p.parentId
              ((a, childSum Pool.parentId rows (newLimit parentSums) a) :: parentSums) =
                .ok parentSums') ∨
          (¬ p.limit < childSum Pool.parentId rows (newLimit parentSums) a ∧
            extendLoop rows managedPoolIds n p.parentId parentSums = .ok parentSums')) := by
  have hsum : childSum Pool.parentId rows (newLimit parentSums) a =
    ((rows.filter fun p => p.parentId = some a).map (newLimit parentSums)).sum := rfl
  rw [extendLoop, bind_eq_ok, hsum]
  refine exists_congr fun p => ?_
  rw [orFail_eq_ok]
  refine and_congr_right fun _ => ?_
  by_cases hlt : p.limit <
    ((rows.filter fun p => p.parentId = some a).map (newLimit parentSums)).sum
  · rw [if_pos hlt, bind_eq_ok, or_iff_left fun h => h.1 hlt]
    exact ⟨fun ⟨_, hu, h⟩ => ⟨hlt, require_eq_ok.mp hu, h⟩,
      fun ⟨_, hu, h⟩ => ⟨(), require_eq_ok.mpr hu, h⟩⟩
  · rw [if_neg hlt, or_iff_right fun h => hlt h.1]
    exact ⟨fun h => ⟨hlt, h⟩, fun h => h.2⟩

/-- The pools of the organization are all the loop meets. -/
theorem extendLoop_of_filter (hrows : IsTree rows) {organizationId : Uuid} :
    ∀ {n : ℕ} {a : Option Uuid} {parentSums : List (Uuid × ℤ)},
      extendLoop (rows.filter fun p => p.organizationId = organizationId) managedPoolIds n a
          parentSums = .ok parentSums' →
      extendLoop rows managedPoolIds n a parentSums = .ok parentSums' := by
  intro n
  induction n with
  | zero =>
    intro a parentSums h
    cases a with
    | none => exact h
    | some a => exact h
  | succ n ih =>
    intro a parentSums h
    cases a with
    | none => exact h
    | some a =>
      obtain ⟨p, hfind, h⟩ := extendLoop_succ_eq_ok.mp h
      obtain ⟨hmem, horg⟩ := List.mem_filter.mp (List.mem_of_find?_eq_some hfind)
      have hid : p.id = a := by simpa using List.find?_some hfind
      subst hid
      have hchildren : childSum Pool.parentId
          (rows.filter fun p => p.organizationId = organizationId) (newLimit parentSums) p.id =
          childSum Pool.parentId rows (newLimit parentSums) p.id := by
        unfold childSum
        rw [List.filter_filter]
        congr 2
        refine List.filter_congr fun q hq => ?_
        by_cases hpar : q.parentId = some p.id
        · have := hrows.organization q hq p hmem hpar
          simp [hpar, this, of_decide_eq_true horg]
        · simp [hpar]
      rw [hchildren] at h
      refine extendLoop_succ_eq_ok.mpr ⟨p, hrows.find? hmem, ?_⟩
      exact h.imp (fun ⟨hlt, hmanaged, h⟩ => ⟨hlt, hmanaged, ih h⟩) fun ⟨hlt, h⟩ => ⟨hlt, ih h⟩

theorem newLimit_cons {a : Uuid} {v : ℤ} (hv : v ≠ 0) (parentSums : List (Uuid × ℤ)) (r : Pool) :
    newLimit ((a, v) :: parentSums) r = if r.id = a then v else newLimit parentSums r := by
  unfold newLimit
  rw [List.lookup_cons]
  by_cases hr : r.id = a
  · simp [hr, hv]
  · rw [beq_eq_false_iff_ne.mpr hr, if_neg hr]

/-- **The loop is a climb**, and what it finds for the pools it meets is above their limits. -/
theorem extendLoop_spec (hrows : IsTree rows) {rank : Uuid → ℕ}
    (hrank : ∀ r ∈ rows, ∀ b, r.parentId = some b → rank b < rank r.id) :
    ∀ {n : ℕ} {a : Option Uuid} {parentSums : List (Uuid × ℤ)},
      extendLoop rows managedPoolIds n a parentSums = .ok parentSums' →
      (∀ r ∈ rows, (∃ b ∈ a, rank r.id ≤ rank b) → parentSums.lookup r.id = none) →
      Climb Pool.id Pool.parentId rows a (newLimit parentSums) (newLimit parentSums') ∧
        ∀ k, parentSums'.lookup k = parentSums.lookup k ∨ ∃ r ∈ rows, r.id = k ∧
          (∃ b ∈ a, rank k ≤ rank b) ∧ ∃ v, parentSums'.lookup k = some v ∧ r.limit < v := by
  intro n
  induction n with
  | zero =>
    intro a parentSums h hnone
    cases a with
    | none =>
      obtain rfl := Except.ok.inj h
      exact ⟨.done _, fun _ => Or.inl rfl⟩
    | some a => cases h
  | succ n ih =>
    intro a parentSums h hnone
    cases a with
    | none =>
      obtain rfl := Except.ok.inj h
      exact ⟨.done _, fun _ => Or.inl rfl⟩
    | some a =>
      obtain ⟨p, hfind, h⟩ := extendLoop_succ_eq_ok.mp h
      have hmem := List.mem_of_find?_eq_some hfind
      have hid : p.id = a := by simpa using List.find?_some hfind
      subst hid
      have hp₀ : newLimit parentSums p = p.limit := by
        rw [newLimit, hnone p hmem ⟨_, rfl, le_rfl⟩]
      have hbelow : ∀ b ∈ p.parentId, rank b < rank p.id := fun b hb => hrank p hmem b hb
      have hnone' : ∀ r ∈ rows, (∃ b ∈ p.parentId, rank r.id ≤ rank b) →
          r.id ≠ p.id ∧ parentSums.lookup r.id = none := by
        rintro r hr ⟨b, hb, hle⟩
        have hlt := hbelow b hb
        refine ⟨fun h => ?_, hnone r hr ⟨_, rfl, by omega⟩⟩
        rw [h] at hle
        omega
      obtain ⟨hlt, -, h⟩ | ⟨hlt, h⟩ := h
      · have hpos := hrows.nonneg p hmem
        have hcons := newLimit_cons (a := p.id)
          (v := childSum Pool.parentId rows (newLimit parentSums) p.id) (by omega) parentSums
        have hnone'' : ∀ r ∈ rows, (∃ b ∈ p.parentId, rank r.id ≤ rank b) →
            List.lookup r.id ((p.id, childSum Pool.parentId rows (newLimit parentSums) p.id) ::
              parentSums) = none := by
          intro r hr hb
          obtain ⟨hne, hl⟩ := hnone' r hr hb
          rw [List.lookup_cons, beq_eq_false_iff_ne.mpr hne]
          exact hl
        obtain ⟨hclimb, hlookup⟩ := ih h hnone''
        refine ⟨.level hmem rfl (fun r hr => ?_) hclimb, fun k => ?_⟩
        · rw [hcons, raise]
          by_cases hr' : r.id = p.id
          · obtain rfl := hrows.forest.eq_of_key hr hmem hr'
            rw [if_pos rfl, if_pos rfl, hp₀, max_eq_right hlt.le]
          · rw [if_neg hr', if_neg hr']
        · obtain hk | ⟨r, hr, rfl, ⟨b, hb, hle⟩, hv⟩ := hlookup k
          · rw [List.lookup_cons] at hk
            by_cases hkp : k = p.id
            · subst hkp
              rw [beq_self_eq_true] at hk
              exact Or.inr ⟨p, hmem, rfl, ⟨_, rfl, le_rfl⟩, _, hk, hlt⟩
            · rw [beq_eq_false_iff_ne.mpr hkp] at hk
              exact Or.inl hk
          · exact Or.inr ⟨r, hr, rfl, ⟨_, rfl, hle.trans (hbelow b hb).le⟩, hv⟩
      · obtain ⟨hclimb, hlookup⟩ := ih h fun r hr hb => (hnone' r hr hb).2
        refine ⟨.level hmem rfl (fun r hr => ?_) hclimb, fun k => ?_⟩
        · rw [raise]
          by_cases hr' : r.id = p.id
          · obtain rfl := hrows.forest.eq_of_key hr hmem hr'
            rw [if_pos rfl, hp₀, max_eq_left (not_lt.mp hlt)]
          · rw [if_neg hr']
        · obtain hk | ⟨r, hr, rfl, ⟨b, hb, hle⟩, hv⟩ := hlookup k
          · exact Or.inl hk
          · exact Or.inr ⟨r, hr, rfl, ⟨_, rfl, hle.trans (hbelow b hb).le⟩, hv⟩

/-- **The loop ends** within as many turns as there are pools. -/
theorem extendLoop_ends (hrows : IsTree rows) {rank : Uuid → ℕ}
    (hrank : ∀ r ∈ rows, ∀ b, r.parentId = some b → rank b < rank r.id) :
    ∀ {n : ℕ} {a : Option Uuid} {parentSums : List (Uuid × ℤ)}, (∀ b ∈ a, ∃ r ∈ rows, r.id = b) →
      (∀ b ∈ a, (rows.filter fun r => rank r.id ≤ rank b).length ≤ n) →
      extendLoop rows managedPoolIds n a parentSums ≠ .error (.python "endless loop") := by
  intro n
  induction n with
  | zero =>
    intro a parentSums hclosed hn
    cases a with
    | none => exact fun h => by cases h
    | some b =>
      obtain ⟨r, hr, rfl⟩ := hclosed b rfl
      have hmem : r ∈ rows.filter fun q => rank q.id ≤ rank r.id :=
        List.mem_filter.mpr ⟨hr, decide_eq_true le_rfl⟩
      exact absurd (hn _ rfl) (Nat.not_le.mpr (List.length_pos_of_mem hmem))
  | succ n ih =>
    intro a parentSums hclosed hn
    cases a with
    | none => exact fun h => by cases h
    | some b =>
      obtain ⟨p, hp, rfl⟩ := hclosed b rfl
      have hclosed' : ∀ b ∈ p.parentId, ∃ r ∈ rows, r.id = b := hrows.forest.closed p hp
      have hn' : ∀ b ∈ p.parentId, (rows.filter fun r => rank r.id ≤ rank b).length ≤ n := by
        intro b hb
        have hlt := hrank p hp b hb
        have hsub : ((rows.filter fun r => rank r.id ≤ rank b) ++ [p]).Subperm
            (rows.filter fun r => rank r.id ≤ rank p.id) := by
          have hnodup : rows.Nodup := List.Nodup.of_map _ hrows.forest.nodup
          refine List.subperm_of_subset ?_ fun r hr => ?_
          · refine List.nodup_append.mpr ⟨hnodup.filter _, List.nodup_singleton _, ?_⟩
            rintro r hr q hq rfl
            obtain rfl := List.mem_singleton.mp hq
            have := of_decide_eq_true (List.mem_filter.mp hr).2
            omega
          · obtain hr | hr := List.mem_append.mp hr
            · obtain ⟨hr, hle⟩ := List.mem_filter.mp hr
              exact List.mem_filter.mpr ⟨hr, decide_eq_true ((of_decide_eq_true hle).trans hlt.le)⟩
            · obtain rfl := List.mem_singleton.mp hr
              exact List.mem_filter.mpr ⟨hp, decide_eq_true le_rfl⟩
        have hlength := hsub.length_le
        rw [List.length_append, List.length_singleton] at hlength
        exact Nat.le_of_succ_le_succ (hlength.trans (hn _ rfl))
      rw [extendLoop, hrows.find? hp]
      simp only [orFail_some, ok_bind]
      split
      · by_cases hmanaged : p.id ∈ managedPoolIds
        · rw [require_of hmanaged, ok_bind]
          exact ih hclosed' hn'
        · rw [require_not hmanaged, error_bind]
          exact fun h => by cases h
      · exact ih hclosed' hn'

/-- The pools of an organization are a tree. -/
theorem IsTree.filter (hrows : IsTree rows) (organizationId : Uuid) :
    IsTree (rows.filter fun p => p.organizationId = organizationId) where
  forest := by
    refine ⟨hrows.forest.nodup.sublist (List.filter_sublist.map _), fun r hr a ha => ?_, ?_⟩
    · obtain ⟨hr, horg⟩ := List.mem_filter.mp hr
      obtain ⟨q, hq, rfl⟩ := hrows.forest.closed r hr a ha
      refine ⟨q, List.mem_filter.mpr ⟨hq, decide_eq_true ?_⟩, rfl⟩
      rw [← hrows.organization r hr q hq ha, of_decide_eq_true horg]
    · obtain ⟨rank, hrank⟩ := hrows.forest.ranked
      exact ⟨rank, fun r hr => hrank r (List.mem_of_mem_filter hr)⟩
  organization := fun p hp q hq =>
    hrows.organization p (List.mem_of_mem_filter hp) q (List.mem_of_mem_filter hq)
  nonneg := fun p hp => hrows.nonneg p (List.mem_of_mem_filter hp)

/-- **The loop of an extension ends**: it has turns enough for the pools of the organization. -/
theorem extendLoop_pool_ends (hrows : IsTree rows) (hp : p ∈ rows)
    {parentSums : List (Uuid × ℤ)} :
    extendLoop (rows.filter fun r => r.organizationId = p.organizationId) managedPoolIds
      ((rows.filter fun r => r.organizationId = p.organizationId).length + 1) p.parentId parentSums ≠
        .error (.python "endless loop") := by
  have htree := hrows.filter p.organizationId
  obtain ⟨rank, hrank⟩ := htree.forest.ranked
  refine extendLoop_ends htree hrank (fun b hb => ?_) fun b _ =>
    (List.length_filter_le _ _).trans (Nat.le_succ _)
  exact htree.forest.closed p (List.mem_filter.mpr ⟨hp, decide_eq_true rfl⟩) b hb

end Loop

/-! ## `extend_parent_pools` -/

/-- The pool under another limit. -/
def relimit (limit : Pool → ℤ) (p : Pool) : Pool := { p with limit := limit p }

theorem childSum_relimit (limit : Pool → ℤ) (a : Uuid) :
    childSum Pool.parentId (rows.map (relimit limit)) Pool.limit a =
      childSum Pool.parentId rows limit a :=
  childSum_map (relimit limit) fun _ _ => rfl

theorem live_writeLimits (parentSums : List (Uuid × ℤ)) : live (writeLimits t parentSums) =
    (live t).map (relimit fun r => (parentSums.lookup r.id).getD r.limit) := by
  have hwrite : ∀ r ∈ live t, (if (parentSums.lookup r.id).isSome then
      { r with limit := (parentSums.lookup r.id).getD r.limit } else r) =
      relimit (fun r => (parentSums.lookup r.id).getD r.limit) r := by
    intro r _
    rw [relimit]
    cases parentSums.lookup r.id with
    | none => rfl
    | some v => rfl
  unfold live writeLimits Table.updateWhere
  rw [List.filter_map]
  refine (congrArg (List.map _) (List.filter_congr fun r _ => ?_)).trans
    (List.map_congr_left hwrite)
  simp only [Function.comp_apply]
  split <;> rfl

/-- **What the extension leaves of the live pools**: the limits a climb from the parent of the pool
found, and the new limit of the pool itself. -/
theorem live_writeLimits_climb (hrows : IsTree rows) (hp : p ∈ rows)
    {managedPoolIds : List Uuid} {n : ℕ} {limit : ℤ} {parentSums : List (Uuid × ℤ)}
    (h : extendLoop (rows.filter fun r => r.organizationId = p.organizationId) managedPoolIds n
      p.parentId [(p.id, limit)] = .ok parentSums) :
    ∃ g, Climb Pool.id Pool.parentId rows p.parentId (newLimit [(p.id, limit)]) g ∧
      live (writeLimits t parentSums) =
        (live t).map (relimit fun r => if r.id = p.id then limit else g r) := by
  obtain ⟨rank, hrank⟩ := hrows.forest.ranked
  have hbelow : ∀ b ∈ p.parentId, rank b < rank p.id := fun b hb => hrank p hp b hb
  obtain ⟨hclimb, hlookup⟩ := extendLoop_spec hrows hrank (extendLoop_of_filter hrows h) (by
    rintro r - ⟨b, hb, hle⟩
    have hne : r.id ≠ p.id := fun h => by
      have := hbelow b hb
      rw [h] at hle
      omega
    rw [List.lookup_cons, beq_eq_false_iff_ne.mpr hne]
    rfl)
  refine ⟨_, hclimb, ?_⟩
  have hlimit : ∀ r ∈ live t, (parentSums.lookup r.id).getD r.limit =
      if r.id = p.id then limit else newLimit parentSums r := by
    intro r hr
    by_cases hrp : r.id = p.id
    · rw [if_pos hrp]
      obtain hk | ⟨-, -, -, ⟨b, hb, hle⟩, -⟩ := hlookup r.id
      · rw [hk, List.lookup_cons, hrp, beq_self_eq_true]
        rfl
      · have := hbelow b hb
        rw [hrp] at hle
        omega
    · rw [if_neg hrp, newLimit]
      obtain hk | ⟨q, hq, hqr, -, v, hv, hlt⟩ := hlookup r.id
      · rw [hk, List.lookup_cons, beq_eq_false_iff_ne.mpr hrp]
        rfl
      · have hpos := hrows.nonneg q hq
        rw [hv]
        exact (if_neg (by omega)).symm
  rw [live_writeLimits]
  refine List.map_congr_left fun r hr => ?_
  rw [relimit, relimit, hlimit r hr]

end PoolTree
