import OptScale.Pools.Limits

/-!
# Pools/Covering — limits over creations, edits and deletions

`PoolController.delete` takes a pool without live children out of the tree, and what is left is a tree still.  So
every run of `create`, `edit` and `delete` from an organization's root keeps each pool's limit over the limits of
its children (`limits_cover`).
-/

open Fallible Forest

namespace PoolTree

variable {rows : List Pool} {t t' : Table Pool.id} {p : Pool} {E : Env}

/-! ## `delete` -/

/-- A deletion: the pool, and what comes of its resources, rules, exports and constraints on the way. -/
structure Deletion where
  itemId : Uuid
  detach : (poolId parentId : Uuid) → Except Failure Unit

/-- `_validate`, for a pool that is deleted: with a `deleted_at` its limit is not checked. -/
def validateDeleted (E : Env) (t : Table Pool.id) (item : Pool) : Except Failure Unit := do
  require (¬ Taken E t item (some item.id)) (.conflict .OE0149 ["Pool", String.ofList item.name])
  if E.now = 0 then checkChildPoolSum t (some item.limit) item.parentId (some item.id) else .ok ()

/-- The pool of an id is deleted. -/
def markDeleted (t : Table Pool.id) (itemId : Uuid) (now : ℕ) : Table Pool.id :=
  t.updateWhere (fun p => p.id = itemId) (fun p => { p with deletedAt := now }) fun _ => rfl

/-- `delete`, where roots may not be deleted. -/
def delete (E : Env) (d : Deletion) : Session (Table Pool.id) Failure Pool := do
  let item ← Session.read fun t =>
    orFail (get t d.itemId) (.notFound .OE0002 ["Pool", toString d.itemId])
  let parentId ← Session.read fun _ => orFail item.parentId (.wrongArguments .OE0447 [])
  Session.read fun t => require (¬ ∃ p ∈ live t, p.parentId = some item.id)
    (.failedDependency .OE0411 ["Pool", String.ofList item.name])
  let parent ← Session.read fun t => orFail (get t parentId) (.python "AttributeError")
  Session.read fun _ => d.detach item.id parent.id
  Session.read fun t => validateDeleted E t item
  Session.commit fun t => .ok ({ item with deletedAt := E.now }, markDeleted t item.id E.now)

/-- **A deletion that goes through** is of a live pool that has no live children. -/
theorem delete_eq_ok {d : Deletion} (h : delete E d t = (.ok p, t')) :
    ∃ item ∈ live t, (¬ ∃ q ∈ live t, q.parentId = some item.id) ∧ t' = markDeleted t item.id E.now := by
  simp only [delete, Session.bind_eq_ok, Session.read_eq_ok, Session.commit_eq_ok, orFail_eq_ok, require_eq_ok,
    Except.ok.injEq, Prod.mk.injEq] at h
  obtain ⟨item, _, ⟨hitem, rfl⟩, _, _, ⟨-, rfl⟩, _, _, ⟨hleaf, rfl⟩, _, _, ⟨-, rfl⟩, _, _, ⟨-, rfl⟩, _, _, ⟨-, rfl⟩,
    -, rfl⟩ := h
  exact ⟨item, List.mem_of_find?_eq_some hitem, hleaf, rfl⟩

/-! ## What is left -/

/-- The live pools after a deletion; at the beginning of time nothing is deleted. -/
theorem live_markDeleted (hp : p ∈ live t) (now : ℕ) :
    live (markDeleted t p.id now) = if now = 0 then live t else (live t).filter fun q => q.id ≠ p.id := by
  have hkept : ∀ q : Pool, q.id ≠ p.id → (if decide (q.id = p.id) then { q with deletedAt := now } else q) = q :=
    fun q hq => if_neg (by simpa using hq)
  unfold live markDeleted Table.updateWhere
  rw [List.filter_map]
  split
  · rename_i hnow
    have hself : ∀ q ∈ t.rows, (if decide (q.id = p.id) then { q with deletedAt := now } else q) = q := by
      intro q hq
      by_cases hqp : q.id = p.id
      · obtain ⟨hp, hlive⟩ := mem_live.mp hp
        obtain rfl := t.eq_of_key hq hp hqp
        have hzero : q.deletedAt = 0 := not_not.mp hlive
        rw [if_pos (decide_eq_true rfl), hnow, ← hzero]
      · exact hkept q hqp
    rw [List.map_congr_left fun q hq => hself q (List.mem_of_mem_filter hq), List.map_id']
    exact List.filter_congr fun q hq => by rw [Function.comp_apply, hself q hq]
  · rename_i hnow
    have hfilter : t.rows.filter ((fun q : Pool => decide ¬ q.Deleted) ∘ fun q =>
        if decide (q.id = p.id) then { q with deletedAt := now } else q) =
        (t.rows.filter fun q => ¬ q.Deleted).filter fun q => q.id ≠ p.id := by
      rw [List.filter_filter]
      refine List.filter_congr fun q _ => ?_
      by_cases hqp : q.id = p.id
      · simp [hqp, hnow]
      · rw [Function.comp_apply, hkept q hqp, decide_eq_true hqp, Bool.true_and]
    rw [hfilter]
    refine (List.map_congr_left fun q hq => ?_).trans (List.map_id' _)
    exact hkept q (of_decide_eq_true (List.mem_filter.mp hq).2)

/-- **A pool without children** is taken out of a tree. -/
theorem IsTree.filter_ne (h : IsTree rows) {a : Uuid} (hleaf : ∀ q ∈ rows, q.parentId ≠ some a) :
    IsTree (rows.filter fun q => q.id ≠ a) where
  forest := by
    refine ⟨h.forest.nodup.sublist (List.filter_sublist.map _), fun r hr b hb => ?_, ?_⟩
    · obtain ⟨q, hq, rfl⟩ := h.forest.closed r (List.mem_of_mem_filter hr) b hb
      refine ⟨q, List.mem_filter.mpr ⟨hq, decide_eq_true fun hqa => ?_⟩, rfl⟩
      exact hleaf r (List.mem_of_mem_filter hr) (hqa ▸ hb)
    · obtain ⟨rank, hrank⟩ := h.forest.ranked
      exact ⟨rank, fun r hr => hrank r (List.mem_of_mem_filter hr)⟩
  organization := fun p hp q hq => h.organization p (List.mem_of_mem_filter hp) q (List.mem_of_mem_filter hq)
  nonneg := fun p hp => h.nonneg p (List.mem_of_mem_filter hp)

/-- **A deletion keeps the table sound.** -/
theorem sound_delete (ht : Sound t) {d : Deletion} (h : delete E d t = (.ok p, t')) : Sound t' := by
  obtain ⟨item, hitem, hleaf, rfl⟩ := delete_eq_ok h
  have hlive := live_markDeleted hitem E.now
  split at hlive
  · exact ⟨hlive ▸ ht.tree, hlive ▸ ht.covers⟩
  · refine ⟨hlive ▸ ht.tree.filter_ne fun q hq hpar => hleaf ⟨q, hq, hpar⟩, ?_⟩
    rw [hlive]
    intro r hr
    refine le_trans ?_ (ht.covers r (List.mem_of_mem_filter hr))
    unfold childSum
    refine ((List.filter_sublist.filter _).map _).sum_le_sum fun x hx => ?_
    obtain ⟨q, hq, rfl⟩ := List.mem_map.mp hx
    exact ht.tree.nonneg q (List.mem_of_mem_filter hq)

/-! ## Runs -/

/-- A call of the controller, deletions included. -/
inductive Request
  | call (c : Call)
  | delete (d : Deletion)

/-- The call, in its surroundings. -/
def Request.run (E : Env) : Request → Session (Table Pool.id) Failure Pool
  | .call c => c.run E
  | .delete d => PoolTree.delete E d

/-- The table after a call that succeeds. -/
def succeed (t : Table Pool.id) (r : Env × Request) : Option (Table Pool.id) :=
  match r.2.run r.1 t with
  | (.ok _, t') => some t'
  | (.error _, _) => none

/-- **A call that succeeds keeps the table sound.** -/
theorem sound_succeed {r : Env × Request} (ht : Sound t) (h : succeed t r = some t') : Sound t' := by
  obtain ⟨E, request⟩ := r
  unfold succeed at h
  split at h
  · rename_i p t₁ hrun
    obtain rfl := Option.some.inj h
    cases request with
    | call c =>
      have hstep : step t (E, c) = some t₁ := by
        rw [step]
        exact congrArg (fun x : Except Failure Pool × Table Pool.id => match x with
          | (.ok _, t') => some t'
          | (.error _, _) => none) hrun
      exact (sound_step ht hstep).1
    | delete d => exact sound_delete ht hrun
  · exact nomatch h

/-- **A table in which an organization has its root only.**  The pools of the others are trees that are covered. -/
structure Rooted (organizationId : Uuid) (t : Table Pool.id) : Prop where
  tree : IsTree (live t)
  root : ∀ p ∈ live t, p.organizationId = organizationId → p.parentId = none
  others : ∀ p ∈ live t, p.organizationId ≠ organizationId →
    childSum Pool.parentId (live t) Pool.limit p.id ≤ p.limit

theorem Rooted.sound {organizationId : Uuid} (h : Rooted organizationId t) : Sound t where
  tree := h.tree
  covers := by
    intro p hp
    by_cases horg : p.organizationId = organizationId
    · have hnone : (live t).filter (fun q => q.parentId = some p.id) = [] := by
        refine List.filter_eq_nil_iff.mpr fun q hq hpar => ?_
        have hpar := of_decide_eq_true hpar
        have hroot := h.root q hq ((h.tree.organization q hq p hp hpar).trans horg)
        rw [hroot] at hpar
        exact nomatch hpar
      rw [childSum, hnone]
      exact h.tree.nonneg p hp
    · exact h.others p hp horg

/-- Each live pool's limit is at least what those of its live children add up to. -/
def LimitsCover (t : Table Pool.id) : Prop :=
  ∀ p ∈ live t, (((live t).filter fun q => q.parentId = some p.id).map Pool.limit).sum ≤ p.limit

/-- **Every limit covers those of the children**, in every state that calls lead to. -/
theorem limits_cover {organizationId : Uuid} (ht : Rooted organizationId t) (calls : List (Env × Request)) :
    Run.Always succeed LimitsCover t calls :=
  (Run.always_of_step (fun _ _ _ => sound_succeed) calls ht.sound).mono fun _ h => h.covers

/-- A root, and nothing else. -/
def rootOnly : Table Pool.id where
  rows := [⟨1, 7, none, ['r'], 10, none, 1, 0⟩]
  nodup := by decide

/-- A pool below it, with a limit that the root is extended for. -/
def extending : Creation where
  organizationId := 7
  parentId := some 1
  name := ['c']
  limit := some (some 20)
  autoExtension := true

/-- The pool is created, and deleted again. -/
theorem limits_cover_rootOnly : Run.Always succeed LimitsCover rootOnly
    [(manager, .call (.create extending)), (manager, .delete ⟨2, fun _ _ => .ok ()⟩)] := by
  have hlive : live rootOnly = rootOnly.rows := rfl
  have hrooted : Rooted 7 rootOnly := ⟨⟨⟨by decide, ?_, fun _ => 0, ?_⟩, ?_, ?_⟩, ?_, ?_⟩
  · exact limits_cover hrooted _
  all_goals
    rw [hlive]
    simp [rootOnly]

end PoolTree
