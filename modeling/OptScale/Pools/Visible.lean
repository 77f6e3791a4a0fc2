import OptScale.Foundations.Saturation
import OptScale.Pools.Pool

/-!
# Pools/Visible — `filter_pools_by_assignments`

Who is assigned to a pool sees it, its children, and what is below them.  The pools seen are found by passes over
the list, in whatever order it is; as many passes as pools are enough (`filterPoolsByAssignments_closure`).
-/

namespace PoolController

open Saturation

/-- The pool is let in by the pools so far, or by the targets. -/
def LetIn (targetIds resultIds : Finset Uuid) (pool : Pool) : Prop :=
  (∃ a ∈ pool.parentId, a ∈ resultIds) ∨ pool.id ∈ targetIds ∨ ∃ a ∈ pool.parentId, a ∈ targetIds

instance (targetIds resultIds : Finset Uuid) (pool : Pool) : Decidable (LetIn targetIds resultIds pool) :=
  inferInstanceAs (Decidable (_ ∨ _))

/-- One turn of the outer loop, and whether it has modified anything. -/
def assignmentsPass (sourcePools : List Pool) (targetIds resultIds : Finset Uuid) : Finset Uuid × Bool :=
  pass Pool.id (LetIn targetIds) sourcePools resultIds

/-- The ids the loop ends with. -/
def assignedIds (sourcePools : List Pool) (targetIds : Finset Uuid) : Finset Uuid :=
  saturate Pool.id (LetIn targetIds) sourcePools sourcePools.length ∅

/-- `filter_pools_by_assignments` -/
def filterPoolsByAssignments (sourcePools : List Pool) (targetIds : Finset Uuid) : List Pool :=
  sourcePools.filter fun pool => pool.id ∈ assignedIds sourcePools targetIds

/-! ## What is to be seen -/

/-- **The pools to be seen**: targets, their children, and what is below a pool of the list that is seen. -/
inductive Visible (pools : List Pool) (targetIds : Finset Uuid) : Pool → Prop
  | target {p : Pool} : p ∈ pools → p.id ∈ targetIds → Visible pools targetIds p
  | child {p : Pool} {a : Uuid} : p ∈ pools → p.parentId = some a → a ∈ targetIds → Visible pools targetIds p
  | descendant {p q : Pool} : p ∈ pools → Visible pools targetIds q → p.parentId = some q.id → Visible pools targetIds p

theorem Visible.mem {pools : List Pool} {targetIds : Finset Uuid} {p : Pool} (h : Visible pools targetIds p) :
    p ∈ pools := by
  cases h with
  | target hp _ => exact hp
  | child hp _ _ => exact hp
  | descendant hp _ _ => exact hp

theorem Visible.perm {pools pools' : List Pool} {targetIds : Finset Uuid} (hpools : pools.Perm pools') {p : Pool}
    (h : Visible pools targetIds p) : Visible pools' targetIds p := by
  induction h with
  | target hp hid => exact .target (hpools.subset hp) hid
  | child hp hpar ha => exact .child (hpools.subset hp) hpar ha
  | descendant hp _ hpar ih => exact .descendant (hpools.subset hp) ih hpar

/-- A list of pools, known by their ids. -/
structure PoolList where
  rows : List Pool
  eq_of_id : ∀ p ∈ rows, ∀ q ∈ rows, p.id = q.id → p = q

/-! ## What is found -/

section Found

variable {pools : List Pool} {targetIds : Finset Uuid}

/-- The loop ends with a set nothing more is let into. -/
theorem closed_assignedIds : Closed Pool.id (LetIn targetIds) pools (assignedIds pools targetIds) := by
  refine closed_saturate ?_
  rw [Finset.sdiff_empty]
  exact (List.toFinset_card_le _).trans_eq (List.length_map _)

theorem visible_of_assigned {k : Uuid} (hk : k ∈ assignedIds pools targetIds) :
    ∃ p, Visible pools targetIds p ∧ p.id = k := by
  refine saturate_induction (motive := fun k => ∃ p, Visible pools targetIds p ∧ p.id = k)
    (fun t ht p hp henters => ⟨p, ?_, rfl⟩) (fun k hk => absurd hk (Finset.notMem_empty k)) k hk
  obtain ⟨a, hpar, ha⟩ | hid | ⟨a, hpar, ha⟩ := henters
  · obtain ⟨q, hq, rfl⟩ := ht a ha
    exact .descendant hp hq hpar
  · exact .target hp hid
  · exact .child hp hpar ha

theorem assigned_of_visible {p : Pool} (h : Visible pools targetIds p) : p.id ∈ assignedIds pools targetIds := by
  induction h with
  | target hp hid => exact closed_assignedIds _ hp (Or.inr (Or.inl hid))
  | child hp hpar ha => exact closed_assignedIds _ hp (Or.inr (Or.inr ⟨_, hpar, ha⟩))
  | descendant hp _ hpar ih => exact closed_assignedIds _ hp (Or.inl ⟨_, hpar, ih⟩)

end Found

/-- **Visibility is a closure.**  The pools returned are those of the list to be seen, in its order; in another
order the list gives the same pools; and the loop has come to an end within as many passes as pools. -/
theorem filterPoolsByAssignments_closure (pools : PoolList) (targetIds : Finset Uuid) :
    (∃ seen : Pool → Bool, (∀ p ∈ pools.rows, seen p = true ↔ Visible pools.rows targetIds p) ∧
        filterPoolsByAssignments pools.rows targetIds = pools.rows.filter seen) ∧
      (∀ rows : List Pool, rows.Perm pools.rows → ∀ p, p ∈ filterPoolsByAssignments rows targetIds ↔
        p ∈ filterPoolsByAssignments pools.rows targetIds) ∧
      assignmentsPass pools.rows targetIds (assignedIds pools.rows targetIds) =
        (assignedIds pools.rows targetIds, false) := by
  have hiff : ∀ rows : List Pool, rows.Perm pools.rows → ∀ p ∈ rows,
      p.id ∈ assignedIds rows targetIds ↔ Visible rows targetIds p := by
    intro rows hrows p hp
    refine ⟨fun h => ?_, assigned_of_visible⟩
    obtain ⟨q, hq, hid⟩ := visible_of_assigned h
    rwa [pools.eq_of_id p (hrows.subset hp) q (hrows.subset hq.mem) hid.symm]
  refine ⟨⟨fun p => p.id ∈ assignedIds pools.rows targetIds, fun p hp => ?_, rfl⟩, fun rows hrows p => ?_,
    pass_of_closed closed_assignedIds⟩
  · rw [decide_eq_true_eq]
    exact hiff pools.rows (List.Perm.refl _) p hp
  · unfold filterPoolsByAssignments
    rw [List.mem_filter, List.mem_filter, hrows.mem_iff, decide_eq_true_eq, decide_eq_true_eq]
    refine and_congr_right fun hp => ?_
    rw [hiff rows hrows p (hrows.symm.subset hp), hiff pools.rows (List.Perm.refl _) p hp]
    exact ⟨Visible.perm hrows, Visible.perm hrows.symm⟩

end PoolController
