import OptScale.Foundations.Table
import OptScale.Rest.Failure

/-!
# Rest/Priority — `PriorityMixin`

Items of an organization in the order of their priorities.  A move is a sequence of `UPDATE`s of one row
each, and the unique constraint on priorities is checked after each of them.
-/

open Fallible

/-- A model with the columns `PriorityMixin` needs. -/
structure PriorityModel {α : Type} (key : α → Uuid) where
  /-- `model.__name__` -/
  name : String
  organizationId : α → Uuid
  deletedAt : α → ℕ
  priority : α → ℕ
  withPriority : ℕ → α → α
  key_withPriority : ∀ i a, key (withPriority i a) = key a
  organizationId_withPriority : ∀ i a, organizationId (withPriority i a) = organizationId a
  deletedAt_withPriority : ∀ i a, deletedAt (withPriority i a) = deletedAt a
  priority_withPriority : ∀ i a, priority (withPriority i a) = i

namespace PriorityMixin

/-- An item by its id, with the priority it has or is to have. -/
structure Placed where
  id : Uuid
  priority : ℕ
  deriving DecidableEq, Repr

/-- `list.insert`: an index past the end is the end. -/
def insert {α : Type} (i : ℕ) (a : α) (l : List α) : List α := l.take i ++ a :: l.drop i

/-- `max(all_items, key=lambda it: it.priority).priority` -/
def maxPriority (allItems : List Placed) : Except Failure ℕ :=
  orFail (allItems.map Placed.priority).max? (.python "ValueError")

/-- The items in the order `set_priority` gives them. -/
def moved (allItems : List Placed) (itemId : Uuid) (priority : ℕ) : List Uuid :=
  insert (priority - 1) itemId ((allItems.map Placed.id).erase itemId)

/-- `enumerate(item_ids, start=1)` -/
def enumerate (itemIds : List Uuid) : List Placed :=
  (itemIds.zipIdx 1).map fun x => ⟨x.1, x.2⟩

/-- `set_priority`: the `UPDATE`s it issues, in their order. -/
def setPriority (model : String) (allItems : List Placed) (itemId : Uuid) (priority : ℕ) :
    Except Failure (List Placed) := do
  let maxPriority ← maxPriority allItems
  require (1 ≤ priority ∧ priority ≤ maxPriority) (.wrongArguments .OE0217 ["priority"])
  let target ← orFail (allItems.find? fun r => r.id = itemId)
    (.notFound .OE0002 [model, toString itemId])
  if target.priority = priority then pure []
  else
    let enumeration := enumerate (moved allItems itemId priority)
    pure (⟨itemId, maxPriority + 1⟩ ::
      if priority < target.priority then enumeration.reverse else enumeration)

/-- `change_priority`: the target of the action, or none where the item is at that end already. -/
def targetPriority (action : Option String) (item : Placed) (maxPriority : ℕ) :
    Except Failure (Option ℕ) :=
  match action with
  | none => .error (notProvided "action")
  | some "prioritize" => .ok (some 1)
  | some "promote" => .ok (if item.priority - 1 < 1 then none else some (item.priority - 1))
  | some "demote" => .ok (if maxPriority < item.priority + 1 then none else some (item.priority + 1))
  | some "deprioritize" => .ok (some maxPriority)
  | some action => .error (.wrongArguments .OE0166 [action])

/-- `change_priority` -/
def changePriority (model : String) (action : Option String) (item : Placed)
    (allItems : List Placed) : Except Failure (List Placed) := do
  let maxPriority ← maxPriority allItems
  match ← targetPriority action item maxPriority with
  | none => pure []
  | some target => setPriority model allItems item.id target

section Tables

variable {α : Type} {key : α → Uuid} (M : PriorityModel key)

/-- An item by its id and its priority. -/
def placed (a : α) : Placed := ⟨key a, M.priority a⟩

/-- The live items of the organization. -/
def live (t : Table key) (organizationId : Uuid) : List α :=
  t.rows.filter fun a => M.deletedAt a = 0 ∧ M.organizationId a = organizationId

/-- The live items of the organization, `order_by(priority)`. -/
def allItems (t : Table key) (organizationId : Uuid) : List Placed :=
  ((live M t organizationId).map (placed M)).insertionSort fun a b => a.priority ≤ b.priority

/-- One `UPDATE … WHERE id = …`.  No two items deleted at one time, or live, have one priority in
one organization. -/
def update (t : Table key) (u : Placed) : Except Failure (Table key) := do
  require (∀ a ∈ t.rows, key a = u.id → ∀ b ∈ t.rows, key b ≠ u.id → M.deletedAt b = M.deletedAt a →
    M.organizationId b = M.organizationId a → M.priority b ≠ u.priority)
    (.python "RetriableException")
  pure (t.updateWhere (fun a => key a = u.id) (M.withPriority u.priority) (M.key_withPriority _))

/-- The `UPDATE`s, one after the other. -/
def updateAll (t : Table key) (us : List Placed) : Except Failure (Table key) :=
  us.foldlM (update M) t

variable {M}

theorem update_eq_ok {t t' : Table key} {u : Placed} :
    update M t u = .ok t' ↔
      (∀ a ∈ t.rows, key a = u.id → ∀ b ∈ t.rows, key b ≠ u.id → M.deletedAt b = M.deletedAt a →
        M.organizationId b = M.organizationId a → M.priority b ≠ u.priority) ∧
      t.updateWhere (fun a => key a = u.id) (M.withPriority u.priority) (M.key_withPriority _) = t' := by
  simp only [update, bind_eq_ok, require_eq_ok, pure_eq_ok]
  constructor
  · rintro ⟨_, hfree, h⟩
    exact ⟨hfree, h⟩
  · rintro ⟨hfree, h⟩
    exact ⟨(), hfree, h⟩

@[simp] theorem updateAll_nil {t t' : Table key} : updateAll M t [] = .ok t' ↔ t = t' := pure_eq_ok

@[simp] theorem updateAll_cons {t t' : Table key} {u : Placed} {us : List Placed} :
    updateAll M t (u :: us) = .ok t' ↔ ∃ t₁, update M t u = .ok t₁ ∧ updateAll M t₁ us = .ok t' := by
  rw [updateAll, List.foldlM_cons, bind_eq_ok]
  rfl

/-- **Moving items changes nothing but priorities.** -/
theorem updateAll_map {β : Type*} {f : α → β} (hf : ∀ i a, f (M.withPriority i a) = f a)
    {us : List Placed} : ∀ {t t' : Table key}, updateAll M t us = .ok t' →
      t'.rows.map f = t.rows.map f := by
  induction us with
  | nil =>
    intro t t' h
    rw [updateAll_nil.mp h]
  | cons u us ih =>
    intro t t' h
    obtain ⟨t₁, hu, h⟩ := updateAll_cons.mp h
    obtain ⟨-, rfl⟩ := update_eq_ok.mp hu
    rw [ih h, Table.updateWhere, List.map_map]
    refine List.map_congr_left fun a _ => ?_
    simp only [Function.comp_apply]
    split
    · exact hf _ _
    · rfl

end Tables

end PriorityMixin
