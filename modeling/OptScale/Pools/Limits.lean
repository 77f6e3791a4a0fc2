import OptScale.Foundations.Run
import OptScale.Pools.Extension

/-!
# Pools/Limits — limits that an edit can leave alone

Over runs of `create` and `edit` every live pool covers its children (`Sound`).  An edit that leaves the
limit alone passes the check of the limit as long as limits stay in the range of `check_int_attribute`
(`Settled`); limits that are given are checked for it, limits that `extend_parent_pools` finds are not.
-/

open Fallible Forest

namespace PoolTree

variable {rows : List Pool} {t t' : Table Pool.id} {p q : Pool} {E : Env}

/-! ## Sound tables -/

/-- **The live pools are a tree, and every pool covers its children.** -/
structure Sound (t : Table Pool.id) : Prop where
  tree : IsTree (live t)
  covers : Covers Pool.id Pool.parentId (live t) Pool.limit

/-- **Changed pools are a tree still.** -/
theorem IsTree.map {φ : Pool → Pool} (h : IsTree rows) (hid : ∀ r ∈ rows, (φ r).id = r.id)
    (hparent : ∀ r ∈ rows, (φ r).parentId = r.parentId)
    (horganization : ∀ r ∈ rows, (φ r).organizationId = r.organizationId)
    (hnonneg : ∀ r ∈ rows, 0 ≤ (φ r).limit) : IsTree (rows.map φ) where
  forest := h.forest.map hid hparent
  organization := by
    intro x hx y hy hpar
    obtain ⟨r, hr, rfl⟩ := List.mem_map.mp hx
    obtain ⟨q, hq, rfl⟩ := List.mem_map.mp hy
    rw [horganization r hr, horganization q hq]
    refine h.organization r hr q hq ?_
    rw [← hparent r hr, hpar, hid q hq]
  nonneg := by
    intro x hx
    obtain ⟨r, hr, rfl⟩ := List.mem_map.mp hx
    exact hnonneg r hr

/-- **A new pool** below a pool of its organization, or below none, makes a tree of a tree. -/
theorem IsTree.concat (h : IsTree rows) (hid : p.id ∉ rows.map Pool.id)
    (hparent : ∀ a, p.parentId = some a → ∃ q ∈ rows, q.id = a ∧ q.organizationId = p.organizationId)
    (hnonneg : 0 ≤ p.limit) : IsTree (rows ++ [p]) where
  forest := h.forest.concat hid fun a ha => by
    obtain ⟨q, hq, hqa, -⟩ := hparent a ha
    exact ⟨q, hq, hqa⟩
  organization := by
    have hne : ∀ r ∈ rows, r.id ≠ p.id := fun r hr h => hid (h ▸ List.mem_map_of_mem hr)
    intro x hx y hy hpar
    obtain ⟨z, hz, hzy⟩ : ∃ z ∈ rows, z.id = y.id := by
      obtain hx | hx := List.mem_append.mp hx
      · exact h.forest.closed x hx _ hpar
      · obtain rfl := List.mem_singleton.mp hx
        obtain ⟨q, hq, hqa, -⟩ := hparent _ hpar
        exact ⟨q, hq, hqa⟩
    obtain hy' | hy' := List.mem_append.mp hy
    · obtain hx | hx := List.mem_append.mp hx
      · exact h.organization x hx y hy' hpar
      · obtain rfl := List.mem_singleton.mp hx
        obtain ⟨q, hq, hqa, horg⟩ := hparent _ hpar
        rw [← h.forest.eq_of_key hq hy' hqa, horg]
    · obtain rfl := List.mem_singleton.mp hy'
      exact absurd hzy (hne z hz)
  nonneg := by
    intro x hx
    obtain hx | hx := List.mem_append.mp hx
    · exact h.nonneg x hx
    · obtain rfl := List.mem_singleton.mp hx
      exact hnonneg

/-! ## Adding and changing a pool -/

theorem live_add {h : p.id ∉ t.rows.map Pool.id} (hp : ¬ p.Deleted) :
    live (t.add p h) = live t ++ [p] := by
  have hself : [p].filter (fun q => ¬ q.Deleted) = [p] := List.filter_eq_self.mpr (by simpa using hp)
  rw [live, Table.add, List.filter_append, hself]
  rfl

/-- **A pool is added soundly** where its parent has its limit left. -/
theorem Sound.add (ht : Sound t) {h : p.id ∉ t.rows.map Pool.id} (hp : ¬ p.Deleted)
    (hnonneg : 0 ≤ p.limit)
    (hparent : ∀ a, p.parentId = some a → ∃ q ∈ live t, q.id = a ∧
      q.organizationId = p.organizationId ∧
      childSum Pool.parentId (live t) Pool.limit q.id + p.limit ≤ q.limit) : Sound (t.add p h) := by
  have hid : p.id ∉ (live t).map Pool.id := fun hmem => by
    obtain ⟨r, hr, hrp⟩ := List.mem_map.mp hmem
    exact h (hrp ▸ List.mem_map_of_mem (mem_live.mp hr).1)
  have hne : ∀ a, p.parentId = some a → a ≠ p.id := by
    rintro a ha rfl
    obtain ⟨q, hq, hqa, -⟩ := hparent _ ha
    exact hid (hqa ▸ List.mem_map_of_mem hq)
  refine ⟨?_, ?_⟩
  · rw [live_add hp]
    refine ht.tree.concat hid (fun a ha => ?_) hnonneg
    obtain ⟨q, hq, hqa, horg, -⟩ := hparent a ha
    exact ⟨q, hq, hqa, horg⟩
  · intro r hr
    rw [live_add hp] at hr ⊢
    rw [childSum_concat]
    obtain hr | hr := List.mem_append.mp hr
    · by_cases hpar : p.parentId = some r.id
      · obtain ⟨q, hq, hqa, -, hle⟩ := hparent _ hpar
        obtain rfl := ht.tree.forest.eq_of_key hq hr hqa
        rw [if_pos hpar]
        exact hle
      · rw [if_neg hpar, add_zero]
        exact ht.covers r hr
    · obtain rfl := List.mem_singleton.mp hr
      rw [if_neg fun hpar => hne _ hpar rfl, add_zero]
      have hnone : childSum Pool.parentId (live t) Pool.limit r.id = 0 := by
        have hfilter : (live t).filter (fun q => q.parentId = some r.id) = [] := by
          refine List.filter_eq_nil_iff.mpr fun q hq hpar => hid ?_
          obtain ⟨x, hx, hxr⟩ := ht.tree.forest.closed q hq _ (of_decide_eq_true hpar)
          exact hxr ▸ List.mem_map_of_mem hx
        rw [childSum, hfilter]
        rfl
      rw [hnone]
      exact hnonneg

theorem live_store {e : Edit} :
    live (store t e) = (live t).map fun r => if r.id = e.itemId then e.apply r else r := by
  unfold live store Table.updateWhere
  rw [List.filter_map]
  simp only [decide_eq_true_eq]
  refine congrArg (List.map _) (List.filter_congr fun r _ => ?_)
  simp only [Function.comp_apply]
  split <;> rfl

/-- The limit an edit leaves, where the check has passed it. -/
theorem apply_limit {e : Edit} {w : ℤ} (h : e.limit.getD (some p.limit) = some w) :
    (e.apply p).limit = w := by
  rw [Edit.apply, h]
  rfl

/-- **An edited pool is stored soundly** where the check has passed its limit; the table may leave the
pool itself uncovered before. -/
theorem Sound.store {e : Edit} (htree : IsTree (live t)) (hp : p ∈ live t) (he : e.itemId = p.id)
    (hcovers : ∀ r ∈ live t, r.id ≠ p.id → childSum Pool.parentId (live t) Pool.limit r.id ≤ r.limit)
    (hcheck : checkChildPoolSum t (e.limit.getD (some p.limit)) p.parentId (some p.id) = .ok ()) :
    Sound (store t e) := by
  obtain ⟨w, hw, hrange, hparent, hchildren⟩ := (checkChildPoolSum_edited htree hp).mp hcheck
  have hlimit : ∀ r ∈ live t, (if r.id = e.itemId then e.apply r else r).limit =
      if r.id = p.id then w else r.limit := by
    intro r hr
    rw [he]
    by_cases hrp : r.id = p.id
    · obtain rfl := htree.forest.eq_of_key hr hp hrp
      rw [if_pos rfl, if_pos rfl, apply_limit hw]
    · rw [if_neg hrp, if_neg hrp]
  have hkept : ∀ r ∈ live t, (if r.id = e.itemId then e.apply r else r).id = r.id ∧
      (if r.id = e.itemId then e.apply r else r).parentId = r.parentId ∧
      (if r.id = e.itemId then e.apply r else r).organizationId = r.organizationId := by
    intro r _
    split <;> exact ⟨rfl, rfl, rfl⟩
  refine ⟨?_, ?_⟩
  · rw [live_store]
    refine htree.map (fun r hr => (hkept r hr).1) (fun r hr => (hkept r hr).2.1)
      (fun r hr => (hkept r hr).2.2) fun r hr => ?_
    rw [hlimit r hr]
    split
    · exact hrange.1
    · exact htree.nonneg r hr
  · intro x hx
    rw [live_store] at hx ⊢
    obtain ⟨r, hr, rfl⟩ := List.mem_map.mp hx
    rw [(hkept r hr).1, hlimit r hr, childSum_map _ fun q hq => (hkept q hq).2.1,
      childSum_congr fun q hq _ => hlimit q hq]
    obtain ⟨rank, hrank⟩ := htree.forest.ranked
    have hsame : ∀ r ∈ live t, p.parentId ≠ some r.id →
        childSum Pool.parentId (live t) (fun q => if q.id = p.id then w else q.limit) r.id =
          childSum Pool.parentId (live t) Pool.limit r.id := by
      intro r hr hne
      refine childSum_congr fun q hq hpar => if_neg fun hqp => hne ?_
      rw [← htree.forest.eq_of_key hq hp hqp, hpar]
    by_cases hrp : r.id = p.id
    · have hself : p.parentId ≠ some r.id := fun hpar => by
        exact absurd (hrp ▸ hrank p hp _ hpar) (lt_irrefl _)
      rw [hsame r hr hself, if_pos hrp, hrp]
      exact hchildren
    · rw [if_neg hrp]
      by_cases hpar : p.parentId = some r.id
      · have hsum := siblingSum_add (f := fun q => if q.id = p.id then w else q.limit)
          htree.forest.nodup hp hpar
        have hsib : siblingSum Pool.id Pool.parentId (live t)
            (fun q => if q.id = p.id then w else q.limit) r.id p.id =
            siblingSum Pool.id Pool.parentId (live t) Pool.limit r.id p.id :=
          siblingSum_congr fun q _ _ hne => if_neg hne
        have hle := hparent r hr hpar
        rw [if_pos rfl, hsib] at hsum
        rw [← hsum]
        exact hle
      · rw [hsame r hr hpar]
        exact hcovers r hr hrp

/-! ## The extension of the pools above -/

theorem newLimit_singleton {L : ℤ} {r : Pool} :
    newLimit [(p.id, L)] r = if r.id = p.id ∧ L ≠ 0 then L else r.limit := by
  unfold newLimit
  rw [List.lookup_cons]
  by_cases hr : r.id = p.id
  · by_cases hL : L = 0 <;> simp [hr, hL]
  · rw [beq_eq_false_iff_ne.mpr hr, if_neg fun h => hr h.1]
    rfl

theorem map_id_writeLimits (parentSums : List (Uuid × ℤ)) :
    (writeLimits t parentSums).rows.map Pool.id = t.rows.map Pool.id := by
  rw [writeLimits, Table.updateWhere, List.map_map]
  refine List.map_congr_left fun r _ => ?_
  simp only [Function.comp_apply]
  split <;> rfl

/-- An extension has written what the loop found; without a limit there is nothing above the pool. -/
theorem extendParentPools_eq_ok {limit : Option ℤ} {isNew : Bool}
    (h : extendParentPools E t p limit isNew = .ok t') :
    (limit = none ∧ p.parentId = none ∧ t' = t) ∨ ∃ L managedPoolIds n parentSums, limit = some L ∧
      extendLoop (if isNew then ((live t).filter fun r => r.organizationId = p.organizationId) ++ [p]
        else (live t).filter fun r => r.organizationId = p.organizationId) managedPoolIds n p.parentId
          [(p.id, L)] = .ok parentSums ∧ t' = writeLimits t parentSums := by
  simp only [extendParentPools, bind_eq_ok] at h
  obtain ⟨_, -, managedPoolIds, -, h⟩ := h
  cases limit with
  | none =>
    cases hpar : p.parentId with
    | none =>
      rw [hpar] at h
      exact Or.inl ⟨rfl, rfl, (Except.ok.inj h).symm⟩
    | some a =>
      rw [hpar] at h
      cases h
  | some L =>
    cases hpar : p.parentId with
    | none =>
      rw [hpar] at h
      simp only [bind_eq_ok] at h
      obtain ⟨parentSums, hloop, _, -, h⟩ := h
      exact Or.inr ⟨L, _, _, parentSums, rfl, hloop, (Except.ok.inj h).symm⟩
    | some a =>
      rw [hpar] at h
      simp only [bind_eq_ok] at h
      obtain ⟨parentSums, hloop, _, -, h⟩ := h
      exact Or.inr ⟨L, _, _, parentSums, rfl, hloop, (Except.ok.inj h).symm⟩

/-- **An extension that goes through** has written what a climb from the parent of the pool found. -/
theorem extendParentPools_spec {limit : Option ℤ} {isNew : Bool} (hrows : IsTree rows) (hp : p ∈ rows)
    (hstored : (if isNew then ((live t).filter fun r => r.organizationId = p.organizationId) ++ [p]
      else (live t).filter fun r => r.organizationId = p.organizationId) =
        rows.filter fun r => r.organizationId = p.organizationId)
    (h : extendParentPools E t p limit isNew = .ok t') :
    (limit = none ∧ p.parentId = none ∧ t' = t) ∨ ∃ L g, limit = some L ∧
      Climb Pool.id Pool.parentId rows p.parentId (newLimit [(p.id, L)]) g ∧
      live t' = (live t).map (relimit fun r => if r.id = p.id then L else g r) := by
  obtain h | ⟨L, managedPoolIds, n, parentSums, hL, hloop, rfl⟩ := extendParentPools_eq_ok h
  · exact Or.inl h
  · rw [hstored] at hloop
    obtain ⟨g, hclimb, hlive⟩ := live_writeLimits_climb (t := t) hrows hp hloop
    exact Or.inr ⟨L, g, hL, hclimb, hlive⟩

section Climbed

variable {L : ℤ} {g : Pool → ℤ} (hrows : IsTree rows)
  (hclimb : Climb Pool.id Pool.parentId rows p.parentId (newLimit [(p.id, L)]) g)
include hrows hclimb

/-- Nothing a climb found is negative, and what it found for the pool itself is not below its limit. -/
theorem climbed_nonneg (hL : 0 ≤ L) {r : Pool} (hr : r ∈ rows) : 0 ≤ g r ∧ (r.id = p.id → L ≤ g r) := by
  have hle := hclimb.le hr
  rw [newLimit_singleton] at hle
  have hpos := hrows.nonneg r hr
  constructor
  · split at hle <;> omega
  · intro hrp
    by_cases hL0 : L = 0
    · rw [if_neg fun h => h.2 hL0] at hle
      omega
    · rw [if_pos ⟨hrp, hL0⟩] at hle
      exact hle

/-- The pool itself keeps its new limit, unless that is 0. -/
theorem climbed_self (hp : p ∈ rows) (hL0 : L ≠ 0) : g p = L := by
  obtain ⟨rank, hrank⟩ := hrows.forest.ranked
  rw [hclimb.eq_of_rank hrank hp fun b hb => hrank p hp b hb, newLimit_singleton, if_pos ⟨rfl, hL0⟩]

/-- **Where all others covered, all others cover** after the climb. -/
theorem climbed_covers (hp : p ∈ rows)
    (hcovers : ∀ r ∈ rows, r.id ≠ p.id → some r.id ≠ p.parentId →
      childSum Pool.parentId rows Pool.limit r.id ≤ r.limit) :
    ∀ r ∈ rows, r.id ≠ p.id → childSum Pool.parentId rows g r.id ≤ g r := by
  refine hclimb.covers hrows.forest (k := p.id) fun r hr hrp hpar => ?_
  have hsame : childSum Pool.parentId rows (newLimit [(p.id, L)]) r.id =
      childSum Pool.parentId rows Pool.limit r.id := by
    refine childSum_congr fun q hq hqpar => ?_
    rw [newLimit_singleton, if_neg]
    rintro ⟨hqp, -⟩
    rw [hrows.forest.eq_of_key hq hp hqp] at hqpar
    exact hpar hqpar.symm
  rw [hsame, newLimit_singleton, if_neg fun h => hrp h.1]
  exact hcovers r hr hrp hpar

/-- **How far the climb raises**: `f₀` are the limits as they were, that of a new pool being 0. -/
theorem climbed_le_iff (hp : p ∈ rows) {f₀ : Pool → ℤ}
    (hf₀ : Covers Pool.id Pool.parentId rows f₀) {M : ℤ} (hM : ∀ r ∈ rows, f₀ r ≤ M)
    (hpos : ∀ r ∈ rows, 0 ≤ f₀ r) (hsame : ∀ r ∈ rows, r ≠ p → r.limit = f₀ r)
    (hzero : L = 0 → p.limit = f₀ p) {s : ℤ}
    (hs : Beside Pool.id Pool.parentId rows f₀ p.parentId p.id s) :
    (L ≤ M ∧ ∀ r ∈ rows, r.id ≠ p.id → g r ≤ M) ↔ L + s ≤ M := by
  have hf : ∀ r ∈ rows, r ≠ p → newLimit [(p.id, L)] r = f₀ r := by
    intro r hr hne
    rw [newLimit_singleton, if_neg fun h => hne (hrows.forest.eq_of_key hr hp h.1)]
    exact hsame r hr hne
  have hreach := hclimb.le_iff hrows.forest hf₀ hM hpos hp hf hs
  have hold := hs.le_of_covers hrows.forest hf₀ hM p hp rfl rfl
  have hp₀ := hpos p hp
  have hs₀ := hs.nonneg hpos
  rw [newLimit_singleton] at hreach
  by_cases hL0 : L = 0
  · rw [if_neg fun h => h.2 hL0, hzero hL0] at hreach
    have hle := hreach.mpr hold
    exact iff_of_true ⟨by omega, fun r hr _ => hle r hr⟩ (by omega)
  · have hgp := climbed_self hrows hclimb hp hL0
    rw [if_pos ⟨rfl, hL0⟩] at hreach
    rw [← hreach]
    constructor
    · rintro ⟨hL, hle⟩ r hr
      by_cases hrp : r.id = p.id
      · obtain rfl := hrows.forest.eq_of_key hr hp hrp
        rw [hgp]
        exact hL
      · exact hle r hr hrp
    · exact fun hle => ⟨hgp ▸ hle p hp, fun r hr _ => hle r hr⟩

end Climbed

/-! ## Edits -/

/-- Every limit is within the range of `check_int_attribute`. -/
def Fits (t : Table Pool.id) : Prop := ∀ p ∈ live t, p.limit ≤ maxInt32

/-- **An edit that can be afforded**: where it extends the pools above, the new limit and the limits that
lie beside the pool and its ancestors stay within the range together. -/
def Edit.Affordable (e : Edit) (t : Table Pool.id) : Prop :=
  e.autoExtension → ∀ p, get t e.itemId = some p → ∀ s,
    Beside Pool.id Pool.parentId (live t) Pool.limit p.parentId p.id s →
      (e.apply p).limit + s ≤ maxInt32

theorem edit_eq_ok {e : Edit} {r : Pool} (h : edit E e t = (.ok r, t')) :
    ∃ extended item, (if e.autoExtension then extendForEdit E t e else .ok t) = .ok extended ∧
      get extended e.itemId = some item ∧ ((e.isEmpty = true ∧ t' = t) ∨
        (validateEdited E extended item e = .ok () ∧ t' = store extended e)) := by
  simp only [edit, Session.bind_eq_ok, Session.read_eq_ok, orFail_eq_ok] at h
  obtain ⟨extended, _, ⟨hextended, rfl⟩, item, _, ⟨hitem, rfl⟩, _, t₁, hstored, _, _, ⟨-, rfl⟩, h⟩ := h
  obtain ⟨-, rfl⟩ := Session.pure_eq_ok.mp h
  refine ⟨extended, item, hextended, hitem, ?_⟩
  by_cases hempty : e.isEmpty
  · rw [if_pos hempty] at hstored
    exact Or.inl ⟨hempty, (Session.pure_eq_ok.mp hstored).2.symm⟩
  · rw [if_neg hempty] at hstored
    simp only [Session.bind_eq_ok, Session.read_eq_ok, Session.commit_eq_ok] at hstored
    obtain ⟨_, _, ⟨-, rfl⟩, _, _, ⟨-, rfl⟩, _, _, ⟨hvalid, rfl⟩, hcommit⟩ := hstored
    exact Or.inr ⟨hvalid, (Prod.mk.inj (Except.ok.inj hcommit)).2.symm⟩

theorem validateEdited_check {e : Edit} {u : Unit} (h : validateEdited E t p e = .ok u) :
    checkChildPoolSum t (e.limit.getD (some p.limit)) p.parentId (some p.id) = .ok () := by
  simp only [validateEdited, bind_eq_ok] at h
  obtain ⟨_, -, _, hcheck, -⟩ := h
  exact hcheck

theorem extendForEdit_spec (ht : Sound t) {e : Edit} (h : extendForEdit E t e = .ok t') :
    ∃ p L g, get t e.itemId = some p ∧ e.limit = some (some L) ∧ InRange L ∧
      Climb Pool.id Pool.parentId (live t) p.parentId (newLimit [(p.id, L)]) g ∧
      live t' = (live t).map (relimit fun r => if r.id = p.id then L else g r) := by
  simp only [extendForEdit, bind_eq_ok, orFail_eq_ok, checkIntAttribute_limit] at h
  obtain ⟨n, ⟨L, hlimit, hrange, hn⟩, p, hp, h⟩ := h
  obtain ⟨hmem, -⟩ := (get_eq_some ht.tree).mp hp
  obtain ⟨hnone, -⟩ | ⟨L', g, hL', hclimb, hlive⟩ :=
    extendParentPools_spec ht.tree hmem (if_neg Bool.false_ne_true) h
  · cases hnone
  · obtain rfl : L = L' := hn.symm.trans (Option.some.inj hL')
    refine ⟨p, L, g, hp, ?_, hrange, hclimb, hlive⟩
    cases hgiven : e.limit with
    | none => rw [hgiven] at hlimit; cases hlimit
    | some v => rw [hgiven] at hlimit; exact congrArg some hlimit

/-- The limits after an edit are the checked one and those of the other pools. -/
theorem fits_store {e : Edit} (htree : IsTree (live t)) (hp : p ∈ live t) (he : e.itemId = p.id)
    (hcheck : checkChildPoolSum t (e.limit.getD (some p.limit)) p.parentId (some p.id) = .ok ()) :
    Fits (store t e) ↔ ∀ r ∈ live t, r.id ≠ p.id → r.limit ≤ maxInt32 := by
  obtain ⟨w, hw, hrange, -⟩ := (checkChildPoolSum_edited htree hp).mp hcheck
  rw [Fits, live_store, List.forall_mem_map]
  refine forall₂_congr fun r hr => ?_
  rw [he]
  by_cases hrp : r.id = p.id
  · obtain rfl := htree.forest.eq_of_key hr hp hrp
    rw [if_pos rfl, apply_limit hw]
    exact iff_of_true hrange.2 fun h => absurd rfl h
  · rw [if_neg hrp]
    exact ⟨fun h _ => h, fun h => h hrp⟩

/-- **Edits keep tables sound**, and keep limits within the range exactly when they can be afforded. -/
theorem sound_edit (ht : Sound t) {e : Edit} {r : Pool} (h : edit E e t = (.ok r, t')) :
    Sound t' ∧ (Fits t → (Fits t' ↔ e.Affordable t)) := by
  obtain ⟨extended, item, hextended, hitem, h⟩ := edit_eq_ok h
  by_cases hauto : e.autoExtension
  · rw [if_pos hauto] at hextended
    obtain ⟨p, L, g, hp, hlimit, hrange, hclimb, hlive⟩ := extendForEdit_spec ht hextended
    obtain ⟨hmem, hid⟩ := (get_eq_some ht.tree).mp hp
    have hpos := fun {r} (hr : r ∈ live t) => climbed_nonneg ht.tree hclimb hrange.1 hr
    have htree : IsTree (live extended) := by
      rw [hlive]
      refine ht.tree.map (fun _ _ => rfl) (fun _ _ => rfl) (fun _ _ => rfl) fun r hr => ?_
      rw [relimit]
      split
      · exact hrange.1
      · exact (hpos hr).1
    obtain ⟨hitem, hitemId⟩ := (get_eq_some htree).mp hitem
    have hcovers : ∀ r ∈ live extended, r.id ≠ item.id →
        childSum Pool.parentId (live extended) Pool.limit r.id ≤ r.limit := by
      rw [hlive, hitemId, ← hid]
      intro x hx hne
      obtain ⟨r, hr, rfl⟩ := List.mem_map.mp hx
      rw [childSum_relimit]
      refine le_trans (childSum_mono fun q hq _ => ?_)
        ((climbed_covers ht.tree hclimb hmem (fun r hr _ _ => ht.covers r hr) r hr hne).trans
          (if_neg hne).ge)
      split
      · rename_i hqp
        exact (hpos hq).2 hqp
      · exact le_rfl
    obtain ⟨hempty, -⟩ | ⟨hvalid, rfl⟩ := h
    · simp [Edit.isEmpty, hlimit] at hempty
    · have hcheck := validateEdited_check hvalid
      refine ⟨Sound.store htree hitem hitemId.symm hcovers hcheck, fun hfits => ?_⟩
      rw [fits_store htree hitem hitemId.symm hcheck, hlive, hitemId, ← hid, List.forall_mem_map]
      have happly : (e.apply p).limit = L := by rw [Edit.apply, hlimit]; rfl
      obtain ⟨s, hs⟩ := ht.tree.forest.exists_beside (f := Pool.limit) (a := p.parentId)
        (fun a ha => ht.tree.forest.closed p hmem a ha) p.id
      have haffordable : e.Affordable t ↔ L + s ≤ maxInt32 := by
        refine ⟨fun h => happly ▸ h hauto p hp s hs, fun h _ q hq s' hs' => ?_⟩
        obtain rfl := Option.some.inj (hp.symm.trans hq)
        rw [happly, hs'.unique ht.tree.forest hs]
        exact h
      rw [haffordable, ← climbed_le_iff ht.tree hclimb hmem ht.covers hfits ht.tree.nonneg
        (fun _ _ _ => rfl) (fun _ => rfl) hs, and_iff_right hrange.2]
      refine forall₂_congr fun r hr => ?_
      change (r.id ≠ p.id → (if r.id = p.id then L else g r) ≤ maxInt32) ↔ _
      refine forall_congr' fun hne => ?_
      rw [if_neg hne]
  · rw [if_neg hauto] at hextended
    obtain rfl := Except.ok.inj hextended
    refine ⟨?_, fun hfits => ?_⟩
    · obtain ⟨-, rfl⟩ | ⟨hvalid, rfl⟩ := h
      · exact ht
      · obtain ⟨hmem, hid⟩ := (get_eq_some ht.tree).mp hitem
        exact Sound.store ht.tree hmem hid.symm (fun r hr _ => ht.covers r hr)
          (validateEdited_check hvalid)
    · refine iff_of_true ?_ fun h => absurd h hauto
      obtain ⟨-, rfl⟩ | ⟨hvalid, rfl⟩ := h
      · exact hfits
      · obtain ⟨hmem, hid⟩ := (get_eq_some ht.tree).mp hitem
        exact (fits_store ht.tree hmem hid.symm (validateEdited_check hvalid)).mpr
          fun r hr _ => hfits r hr

/-! ## New pools -/

/-- **A new pool that can be afforded**: where it extends the pools above, its limit and the limits that
lie beside it and its ancestors stay within the range together; below no pool, nothing checks its limit. -/
def Creation.Affordable (c : Creation) (E : Env) (t : Table Pool.id) : Prop :=
  c.autoExtension ∨ c.parentId = none → ∀ s,
    Beside Pool.id Pool.parentId (live t) Pool.limit c.parentId (c.pool E t).id s →
      (c.pool E t).limit + s ≤ maxInt32

theorem create_eq_ok {c : Creation} (h : create E c t = (.ok p, t')) :
    ∃ extended, (if c.autoExtension then extendParentPools E t (c.pool E t) c.limit.join true
        else .ok t) = .ok extended ∧
      bigInt "limit" c.limit.join = .ok () ∧
      validateNew E extended (c.pool E t) (c.limit.getD (some 0)) = .ok () ∧
      ∃ h, t' = extended.add (c.pool E t) h := by
  simp only [create, Session.bind_eq_ok, Session.read_eq_ok, Session.commit_eq_ok] at h
  obtain ⟨_, _, ⟨hlimit, rfl⟩, _, _, ⟨-, rfl⟩, extended, _, ⟨hextended, rfl⟩, _, _, ⟨hvalid, rfl⟩, q,
    t₁, hcommit, _, _, ⟨-, rfl⟩, h⟩ := h
  obtain ⟨-, rfl⟩ := Session.pure_eq_ok.mp h
  refine ⟨extended, hextended, hlimit, hvalid, ?_⟩
  split at hcommit
  · cases hcommit
  · rename_i hnew
    exact ⟨hnew, (Prod.mk.inj (Except.ok.inj hcommit)).2.symm⟩

/-- The parent of a new pool is there, and has its limit left. -/
theorem validateNew_parent {limit : Option ℤ} {u : Unit} (h : validateNew E t p limit = .ok u) {a : Uuid}
    (ha : p.parentId = some a) : (∃ q ∈ live t, q.id = a ∧ q.organizationId = p.organizationId) ∧
      checkChildPoolSum t limit (some a) none = .ok () := by
  simp only [validateNew, ha, bind_eq_ok, orFail_eq_ok] at h
  obtain ⟨_, -, _, ⟨q, hq, -⟩, _, hcheck, -⟩ := h
  obtain ⟨hget, horg⟩ := Option.filter_eq_some_iff.mp hq
  refine ⟨⟨q, List.mem_of_find?_eq_some hget, by simpa using List.find?_some hget, ?_⟩, hcheck⟩
  exact of_decide_eq_true horg

section New

/-- The limits before there was the pool `p`. -/
def limitBefore (p r : Pool) : ℤ := if r.id = p.id then 0 else r.limit

theorem ne_new (hid : p.id ∉ t.rows.map Pool.id) {r : Pool} (hr : r ∈ live t) : r.id ≠ p.id :=
  fun h => hid (h ▸ List.mem_map_of_mem (mem_live.mp hr).1)

theorem mem_of_ne_new {r : Pool} (hr : r ∈ live t ++ [p]) (h : r.id ≠ p.id) : r ∈ live t :=
  (List.mem_append.mp hr).resolve_right fun hrp => h (congrArg Pool.id (List.mem_singleton.mp hrp))

theorem mem_concat_self : p ∈ live t ++ [p] := List.mem_append_right _ (List.mem_singleton.mpr rfl)

theorem live_extended {g : Pool → ℤ} (hid : p.id ∉ t.rows.map Pool.id)
    (hlive : live t' = (live t).map (relimit fun r => if r.id = p.id then p.limit else g r)) :
    live t' = (live t).map (relimit g) := by
  rw [hlive]
  refine List.map_congr_left fun r hr => ?_
  rw [relimit, if_neg (ne_new hid hr)]
  rfl

variable (ht : Sound t) (hid : p.id ∉ t.rows.map Pool.id) (hnonneg : 0 ≤ p.limit)
  (hparent : ∀ a, p.parentId = some a → ∃ q ∈ live t, q.id = a ∧ q.organizationId = p.organizationId)
include ht hid

/-- The live pools with the new one. -/
theorem isTree_concat (hnonneg : 0 ≤ p.limit) (hparent : ∀ a, p.parentId = some a →
    ∃ q ∈ live t, q.id = a ∧ q.organizationId = p.organizationId) : IsTree (live t ++ [p]) := by
  refine ht.tree.concat (fun hmem => ?_) hparent hnonneg
  obtain ⟨r, hr, hrp⟩ := List.mem_map.mp hmem
  exact ne_new hid hr hrp

/-- Before there was the new pool, the pools with it covered, too. -/
theorem covers_limitBefore :
    Covers Pool.id Pool.parentId (live t ++ [p]) (limitBefore p) := by
  intro r hr
  have hold : ∀ q ∈ live t, q.parentId = some r.id → limitBefore p q = q.limit :=
    fun q hq _ => if_neg (ne_new hid hq)
  rw [childSum_concat, limitBefore, if_pos rfl, ite_self, add_zero, childSum_congr hold]
  obtain hr | hr := List.mem_append.mp hr
  · rw [limitBefore, if_neg (ne_new hid hr)]
    exact ht.covers r hr
  · obtain rfl := List.mem_singleton.mp hr
    have hnone : (live t).filter (fun q => q.parentId = some r.id) = [] := by
      refine List.filter_eq_nil_iff.mpr fun q hq hpar => ?_
      obtain ⟨x, hx, hxr⟩ := ht.tree.forest.closed q hq _ (of_decide_eq_true hpar)
      exact ne_new hid hx hxr
    rw [childSum, hnone, limitBefore, if_pos rfl]
    rfl

variable {g : Pool → ℤ}
  (hclimb : Climb Pool.id Pool.parentId (live t ++ [p]) p.parentId (newLimit [(p.id, p.limit)]) g)
  (hlive : live t' = (live t).map (relimit fun r => if r.id = p.id then p.limit else g r))
include hnonneg hparent hclimb hlive

/-- **The pools above a new one are extended soundly.** -/
theorem sound_extended : Sound t' := by
  have hrows := isTree_concat ht hid hnonneg hparent
  have hlive := live_extended hid hlive
  have hpos := fun {r} (hr : r ∈ live t ++ [p]) => climbed_nonneg hrows hclimb hnonneg hr
  constructor
  · rw [hlive]
    exact ht.tree.map (fun _ _ => rfl) (fun _ _ => rfl) (fun _ _ => rfl)
      fun r hr => (hpos (List.mem_append_left _ hr)).1
  · intro x hx
    rw [hlive] at hx ⊢
    obtain ⟨r, hr, rfl⟩ := List.mem_map.mp hx
    rw [childSum_relimit]
    have hcovers := climbed_covers hrows hclimb mem_concat_self (fun q hq hqp hpar => ?_) r
      (List.mem_append_left _ hr) (ne_new hid hr)
    · rw [childSum_concat] at hcovers
      have hp := (hpos mem_concat_self).1
      change childSum Pool.parentId (live t) g r.id ≤ g r
      split at hcovers <;> omega
    · rw [childSum_concat, if_neg fun h => hpar h.symm, add_zero]
      exact ht.covers q (mem_of_ne_new hq hqp)

/-- **How far a new pool raises the limits above it.** -/
theorem extended_le_iff (hfits : Fits t) {s : ℤ}
    (hs : Beside Pool.id Pool.parentId (live t) Pool.limit p.parentId p.id s) :
    (p.limit ≤ maxInt32 ∧ Fits t') ↔ p.limit + s ≤ maxInt32 := by
  have hrows := isTree_concat ht hid hnonneg hparent
  have hbeside : Beside Pool.id Pool.parentId (live t ++ [p]) (limitBefore p) p.parentId p.id s :=
    hs.concat (fun r hr => (if_neg (ne_new hid hr)).symm) (if_pos rfl)
  have hbefore : ∀ r ∈ live t ++ [p], 0 ≤ limitBefore p r ∧ limitBefore p r ≤ maxInt32 := by
    intro r hr
    rw [limitBefore]
    split
    · exact ⟨le_rfl, by simp [maxInt32]⟩
    · rename_i hrp
      exact ⟨ht.tree.nonneg r (mem_of_ne_new hr hrp), hfits r (mem_of_ne_new hr hrp)⟩
  have hsame : ∀ r ∈ live t ++ [p], r ≠ p → r.limit = limitBefore p r := by
    intro r hr hrp
    rw [limitBefore, if_neg fun h => hrp (hrows.forest.eq_of_key hr mem_concat_self h)]
  have hle := climbed_le_iff hrows hclimb mem_concat_self (covers_limitBefore ht hid)
    (fun r hr => (hbefore r hr).2) (fun r hr => (hbefore r hr).1) hsame
    (fun h => h.trans (if_pos rfl).symm) hbeside
  rw [← hle, Fits, live_extended hid hlive, List.forall_mem_map]
  refine and_congr_right fun _ => ⟨fun h r hr hrp => h r (mem_of_ne_new hr hrp), fun h r hr =>
    h r (List.mem_append_left _ hr) (ne_new hid hr)⟩

end New

theorem bigInt_eq_ok {key : String} {v : Option ℤ} {u : Unit} :
    bigInt key v = .ok u ↔ ∀ w ∈ v, 0 ≤ w ∧ w ≤ maxInt64 := by
  cases v <;> simp [bigInt]

/-- What the limit of a new pool is, where the check has passed it. -/
theorem Creation.pool_limit {c : Creation} {w : ℤ} (h : c.limit.getD (some 0) = some w) :
    (c.pool E t).limit = w := by
  rw [Creation.pool]
  cases hgiven : c.limit with
  | none =>
    rw [hgiven] at h
    exact Option.some.inj h
  | some v =>
    rw [hgiven] at h
    obtain rfl : v = some w := h
    rfl

/-- **New pools keep tables sound**, and keep limits within the range exactly when they can be
afforded. -/
theorem sound_create (ht : Sound t) {c : Creation} (h : create E c t = (.ok p, t')) :
    Sound t' ∧ (Fits t → (Fits t' ↔ c.Affordable E t)) := by
  obtain ⟨extended, hextended, hlimit, hvalid, hnew, rfl⟩ := create_eq_ok h
  have hlive : ¬ (c.pool E t).Deleted := by simp [Creation.pool]
  have hid : (c.pool E t).id ∉ t.rows.map Pool.id := E.genId.next_not_mem _
  have hnonneg : 0 ≤ (c.pool E t).limit := by
    change 0 ≤ c.limit.join.getD 0
    cases hgiven : c.limit.join with
    | none => exact le_rfl
    | some v => exact (bigInt_eq_ok.mp hlimit v hgiven).1
  -- the parent the check found among the extended pools was there before
  have hparent : ∀ a, (c.pool E t).parentId = some a →
      ∃ q ∈ live t, q.id = a ∧ q.organizationId = (c.pool E t).organizationId := by
    intro a ha
    obtain ⟨⟨q, hq, hqa, horg⟩, -⟩ := validateNew_parent hvalid ha
    have hsame : ∃ limit, live extended = (live t).map (relimit limit) ∨ live extended = live t := by
      by_cases hauto : c.autoExtension
      · rw [if_pos hauto] at hextended
        obtain ⟨-, -, rfl⟩ | ⟨_, _, _, parentSums, -, -, rfl⟩ := extendParentPools_eq_ok hextended
        · exact ⟨fun _ => 0, Or.inr rfl⟩
        · exact ⟨_, Or.inl (live_writeLimits parentSums)⟩
      · rw [if_neg hauto] at hextended
        exact ⟨fun _ => 0, Or.inr (congrArg live (Except.ok.inj hextended).symm)⟩
    obtain ⟨limit, hsame | hsame⟩ := hsame
    · rw [hsame] at hq
      obtain ⟨r, hr, rfl⟩ := List.mem_map.mp hq
      exact ⟨r, hr, hqa, horg⟩
    · rw [hsame] at hq
      exact ⟨q, hq, hqa, horg⟩
  have hadd : Sound extended → Sound (extended.add (c.pool E t) hnew) := by
    refine fun hsound => hsound.add hlive hnonneg fun a ha => ?_
    obtain ⟨⟨q, hq, rfl, horg⟩, hcheck⟩ := validateNew_parent hvalid ha
    obtain ⟨w, hw, -, hle⟩ := (checkChildPoolSum_new hsound.tree hq).mp hcheck
    exact ⟨q, hq, rfl, horg, by rwa [Creation.pool_limit hw]⟩
  have hfits' : Fits (extended.add (c.pool E t) hnew) ↔
      (c.pool E t).limit ≤ maxInt32 ∧ Fits extended := by
    rw [Fits, live_add hlive]
    simp only [List.forall_mem_append, List.forall_mem_singleton]
    exact and_comm
  rw [hfits']
  obtain ⟨s, hs⟩ := ht.tree.forest.exists_beside (f := Pool.limit) (a := c.parentId)
    (fun a ha => by obtain ⟨q, hq, hqa, -⟩ := hparent a ha; exact ⟨q, hq, hqa⟩) (c.pool E t).id
  have haffordable (h : c.autoExtension ∨ c.parentId = none) :
      c.Affordable E t ↔ (c.pool E t).limit + s ≤ maxInt32 := by
    refine ⟨fun hc => hc h s hs, fun hle _ s' hs' => ?_⟩
    rw [hs'.unique ht.tree.forest hs]
    exact hle
  by_cases hauto : c.autoExtension
  · rw [if_pos hauto] at hextended
    have hrows := isTree_concat ht hid hnonneg hparent
    have hstored : (if true then
        ((live t).filter fun r => r.organizationId = (c.pool E t).organizationId) ++ [c.pool E t]
        else (live t).filter fun r => r.organizationId = (c.pool E t).organizationId) =
        (live t ++ [c.pool E t]).filter fun r => r.organizationId = (c.pool E t).organizationId := by
      rw [if_pos rfl, List.filter_append]
      simp
    obtain ⟨hgiven, hroot, rfl⟩ | ⟨L, g, hgiven, hclimb, hextended⟩ :=
      extendParentPools_spec hrows mem_concat_self hstored hextended
    · refine ⟨hadd ht, fun hfits => ?_⟩
      have hzero : (c.pool E extended).limit = 0 := by
        change c.limit.join.getD 0 = 0
        rw [hgiven]
        rfl
      have hroot : c.parentId = none := hroot
      have hs0 : s = 0 := by
        rw [hroot] at hs
        cases hs
        rfl
      rw [haffordable (Or.inl hauto), hzero, hs0]
      exact iff_of_true ⟨by simp [maxInt32], hfits⟩ (by simp [maxInt32])
    · obtain rfl : (c.pool E t).limit = L := by
        change c.limit.join.getD 0 = L
        rw [hgiven]
        rfl
      refine ⟨hadd (sound_extended ht hid hnonneg hparent hclimb hextended), fun hfits => ?_⟩
      rw [haffordable (Or.inl hauto)]
      exact extended_le_iff ht hid hnonneg hparent hclimb hextended hfits hs
  · rw [if_neg hauto] at hextended
    obtain rfl := Except.ok.inj hextended
    refine ⟨hadd ht, fun hfits => ?_⟩
    rw [and_iff_left hfits]
    by_cases hroot : c.parentId = none
    · have hs0 : s = 0 := by
        rw [hroot] at hs
        cases hs
        rfl
      rw [haffordable (Or.inr hroot), hs0, add_zero]
    · refine iff_of_true ?_ fun h => absurd h (not_or.mpr ⟨hauto, hroot⟩)
      obtain ⟨a, ha⟩ := Option.ne_none_iff_exists'.mp hroot
      obtain ⟨⟨q, hq, rfl, -⟩, hcheck⟩ := validateNew_parent hvalid ha
      obtain ⟨w, hw, hrange, -⟩ := (checkChildPoolSum_new ht.tree hq).mp hcheck
      rw [Creation.pool_limit hw]
      exact hrange.2

/-! ## Runs -/

/-- A call of the controller. -/
inductive Call
  | create (c : Creation)
  | edit (e : Edit)

/-- The call, in its surroundings. -/
def Call.run (E : Env) : Call → Session (Table Pool.id) Failure Pool
  | .create c => PoolTree.create E c
  | .edit e => PoolTree.edit E e

/-- The table after a call that succeeds. -/
def step (t : Table Pool.id) (r : Env × Call) : Option (Table Pool.id) :=
  match r.2.run r.1 t with
  | (.ok _, t') => some t'
  | (.error _, _) => none

theorem step_eq_some {r : Env × Call} (h : step t r = some t') :
    ∃ p, r.2.run r.1 t = (.ok p, t') := by
  unfold step at h
  split at h
  · rename_i p t₁ hrun
    obtain rfl := Option.some.inj h
    exact ⟨p, hrun⟩
  · cases h

/-- The call can be afforded. -/
def Call.Affordable (E : Env) (t : Table Pool.id) : Call → Prop
  | .create c => c.Affordable E t
  | .edit e => e.Affordable t

/-- **Limits that an edit can leave alone**: they are in range, cover the children, and pass the check of
every edit that does not give one. -/
structure Settled (t : Table Pool.id) : Prop where
  inRange : ∀ p ∈ live t, InRange p.limit
  covers : Covers Pool.id Pool.parentId (live t) Pool.limit
  passes : ∀ p ∈ live t, p.parentId.isSome → ∀ e : Edit, e.limit = none →
    checkChildPoolSum t (e.limit.getD (some p.limit)) p.parentId (some p.id) = .ok ()

/-- **In a sound table**, limits that fit are all it takes. -/
theorem Sound.settled_iff (ht : Sound t) : Settled t ↔ Fits t := by
  refine ⟨fun h p hp => (h.inRange p hp).2, fun hfits => ?_⟩
  refine ⟨fun p hp => ⟨ht.tree.nonneg p hp, hfits p hp⟩, ht.covers, fun p hp _ e he => ?_⟩
  rw [he]
  refine (checkChildPoolSum_edited ht.tree hp).mpr
    ⟨_, rfl, ⟨ht.tree.nonneg p hp, hfits p hp⟩, fun q hq hpar => ?_, ht.covers p hp⟩
  rw [siblingSum_add ht.tree.forest.nodup hp hpar]
  exact ht.covers q hq

theorem sound_empty : Sound Table.empty where
  tree := ⟨⟨List.nodup_nil, by simp [live], fun _ => 0, by simp [live]⟩, by simp [live], by simp [live]⟩
  covers := by simp [Covers, live]

/-- **A call keeps the table sound**, and keeps the limits in range exactly when it can be afforded. -/
theorem sound_step {r : Env × Call} (ht : Sound t) (h : step t r = some t') :
    Sound t' ∧ (Fits t → (Fits t' ↔ r.2.Affordable r.1 t)) := by
  obtain ⟨E, call⟩ := r
  obtain ⟨p, hrun⟩ := step_eq_some h
  cases call with
  | create c => exact sound_create ht hrun
  | edit e => exact sound_edit ht hrun

/-- **Limits can be left alone in every state that calls lead to, exactly when every call can be
afforded.** -/
theorem settled_iff_affordable (calls : List (Env × Call)) :
    Run.Always step Settled Table.empty calls ↔
      Run.Along step (fun t r _ => r.2.Affordable r.1 t) Table.empty calls := by
  have hsound : Run.Always step Sound Table.empty calls :=
    Run.always_of_step (fun _ _ _ ht h => (sound_step ht h).1) calls sound_empty
  have hsettled : Run.Always step Settled Table.empty calls ↔
      Run.Always step (fun t => Sound t ∧ Settled t) Table.empty calls :=
    ⟨fun h => hsound.and h, fun h => h.mono fun _ h => h.2⟩
  rw [hsettled]
  refine Run.always_iff_along (fun t r t' ht h => ?_) ⟨sound_empty, sound_empty.settled_iff.mpr ?_⟩
  · obtain ⟨ht', hfits⟩ := sound_step ht.1 h
    rw [and_iff_right ht', ht'.settled_iff]
    exact hfits (ht.1.settled_iff.mp ht.2)
  · simp [Fits, live]

/-! ### Limits that grow together -/

/-- Surroundings in which the caller manages the pools. -/
def manager : Env where
  genId := .successor
  now := 1
  collation := ⟨fun a b => a = b, fun a b => a = b⟩
  currentEmployee := none
  employee := fun _ => none
  validateOwner := fun _ _ => .ok true
  managedPools := .ok [1, 2]
  publish := fun _ => .ok ()

/-- A root, a pool below it, and two pools below that with the greatest limit there is. -/
def grown : List (Env × Call) :=
  let root : Creation := { organizationId := 7, parentId := none, name := ['r'] }
  let parent : Creation := { root with parentId := some 1 }
  let child : Creation :=
    { root with
      parentId := some 2
      limit := some (some maxInt32)
      autoExtension := true }
  [root, parent, child, { child with name := ['s'] }].map fun c => (manager, .create c)

/-- The live pools after these calls. -/
def grownPools : Option (List (Uuid × ℤ)) :=
  (Run.run step Table.empty grown).map fun t => (live t).map fun p => (p.id, p.limit)

/-- What a new name for the pool below the root comes to then. -/
def renamed : Option (Except Failure Pool) :=
  (Run.run step Table.empty grown).map fun t => (edit manager { itemId := 2, name := some ['n'] } t).1

theorem grownPools_eq : grownPools =
    some [(1, 4294967294), (2, 4294967294), (4, 2147483647), (8, 2147483647)] := by
  decide +kernel

/-- **A pool that cannot be renamed**: its limit was raised to the sum of its children. -/
theorem exists_not_settled : ¬ Run.Always step Settled Table.empty grown ∧
    renamed = some (.error (.wrongArguments .OE0224 ["limit", "0", "2147483647"])) := by
  refine ⟨fun h => ?_, rfl⟩
  obtain ⟨t, ht, hlive⟩ := Option.map_eq_some_iff.mp grownPools_eq
  have hpool : (2, 4294967294) ∈ (live t).map fun p => (p.id, p.limit) := by
    rw [hlive]
    simp
  obtain ⟨p, hp, hlimit⟩ := List.mem_map.mp hpool
  have hle := ((h.last ht).inRange p hp).2
  rw [(Prod.mk.inj hlimit).2] at hle
  exact absurd hle (by decide)

end PoolTree
