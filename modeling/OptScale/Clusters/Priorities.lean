import OptScale.Foundations.Run
import OptScale.Foundations.Session
import OptScale.Clusters.ClusterType
import OptScale.Rest.Ranked
import OptScale.Rest.Services

/-!
# Clusters/Priorities — cluster types are created, moved and deleted

A new cluster type comes last; an action moves it; before it is deleted it becomes the last one again.  So each
organization's priorities are 1, 2, … after any calls (`ClusterTypes.types_are_ranked`).
-/

open Fallible PriorityMixin
open Session (read_bind_end commit_bind_end commit_end)

namespace ClusterTypes

/-- The table of cluster types. -/
abbrev Types := Table ClusterType.id

/-- `ClusterType`, for `PriorityMixin`. -/
def clusterTypeModel : PriorityModel ClusterType.id where
  name := "ClusterType"
  organizationId := ClusterType.organizationId
  deletedAt := ClusterType.deletedAt
  priority := ClusterType.priority
  withPriority i t := { t with priority := i }
  key_withPriority _ _ := rfl
  organizationId_withPriority _ _ := rfl
  deletedAt_withPriority _ _ := rfl
  priority_withPriority _ _ := rfl

/-- What a call finds around the table. -/
structure Env extends Services where
  now_pos : 0 < now
  /-- `delete_clusters`, by the id of the type. -/
  deleteClusters : Uuid → Except Failure Unit

variable (E : Env)

/-- `get`; what is not there is `None`, and has no attributes. -/
def get (t : Types) (itemId : Uuid) : Except Failure ClusterType :=
  orFail ((t.get? itemId).filter fun c => c.deletedAt = 0) (.python "AttributeError")

/-! ## `create` -/

/-- The arguments of `create`. -/
structure Creation where
  organizationId : Uuid
  name : Option String
  tagKey : Option String

/-- The validator of a `BaseString` column. -/
def baseString (key : String) (value : Option String) : Except Failure String := do
  let value ← orFail value (notProvided key)
  require (1 ≤ value.length ∧ value.length ≤ 255) (.wrongArguments .OE0215 [key, "1-255"])
  pure value

/-- The name is taken, as the database compares names. -/
abbrev Taken (t : Types) (organizationId : Uuid) (deletedAt : ℕ) (name : String) : Prop :=
  ∃ c ∈ t.rows, c.deletedAt = deletedAt ∧ c.organizationId = organizationId ∧
    E.collation.equal c.name.toList name.toList = true

/-- `_validate` -/
def validate (t : Types) (item : ClusterType) : Except Failure Unit := do
  require (E.organization item.organizationId) (.notFound .OE0002 ["Organization", toString item.organizationId])
  require (¬ Taken E t item.organizationId 0 item.name)
    (.conflict .OE0463 [item.name, toString item.organizationId])

/-- The new row is stored: its name and its priority are its own. -/
def insertType (t : Types) (item : ClusterType) : Except Failure (ClusterType × Types) := do
  require (∀ c ∈ t.rows, c.deletedAt = item.deletedAt → c.organizationId = item.organizationId →
    c.priority ≠ item.priority ∧ E.collation.equal c.name.toList item.name.toList = false)
    (.python "RetriableException")
  if h : item.id ∈ t.rows.map ClusterType.id then .error (.python "RetriableException")
  else .ok (item, t.add item h)

/-- `create` -/
def create (c : Creation) : Session Types Failure ClusterType :=
  Session.commit fun t => do
    let priority := (ClusterTypeController.listTypes t c.organizationId).length + 1
    let name ← baseString "name" c.name
    let tagKey ← baseString "tag_key" c.tagKey
    let item : ClusterType :=
      { id := E.genId.next (t.rows.map ClusterType.id), name, tagKey, priority, organizationId := c.organizationId }
    validate E t item
    insertType E t item

/-! ## `edit` and `delete` -/

/-- `edit` -/
def edit (itemId : Uuid) (action : Option String) : Session Types Failure ClusterType := do
  let item ← Session.read fun t => get t itemId
  Session.commit fun t => do
    let updates ← changePriority "ClusterType" action ⟨item.id, item.priority⟩
      (allItems clusterTypeModel t item.organizationId)
    let t' ← updateAll clusterTypeModel t updates
    pure (item, t')

/-- The deletion of a type in its transaction: it becomes the last one first. -/
def storeDeletion (item : ClusterType) (t : Types) : Except Failure (ClusterType × Types) := do
  let all := allItems clusterTypeModel t item.organizationId
  let t' ← (if item.priority = all.length then .ok t
    else do
      let updates ← setPriority "ClusterType" all item.id all.length
      updateAll clusterTypeModel t updates : Except Failure Types)
  require (∀ c ∈ t'.rows, c.deletedAt = E.now → c.organizationId = item.organizationId →
    c.priority ≠ all.length ∧ E.collation.equal c.name.toList item.name.toList = false)
    (.python "RetriableException")
  pure (item, t'.updateWhere (fun c => c.id = item.id) (fun c => { c with deletedAt := E.now }) fun _ => rfl)

/-- `delete` -/
def delete (itemId : Uuid) : Session Types Failure ClusterType := do
  let item ← Session.read fun t => get t itemId
  let _ ← Session.commit (storeDeletion E item)
  Session.read fun _ => E.deleteClusters item.id
  pure item

/-- A call of the controller. -/
inductive Call
  | create (c : Creation)
  | edit (itemId : Uuid) (action : Option String)
  | delete (itemId : Uuid)

/-- The call, in its surroundings. -/
def Call.run : Call → Session Types Failure ClusterType
  | .create c => ClusterTypes.create E c
  | .edit itemId action => ClusterTypes.edit itemId action
  | .delete itemId => ClusterTypes.delete E itemId

/-- The table after a call, whether it is accepted or refused. -/
def after (t : Types) (c : Env × Call) : Option Types := some (c.2.run c.1 t).2

/-! ## The order -/

variable {E} {t t' : Types}

/-- The last place is free, and nothing has to be moved for it. -/
theorem length_listTypes (o : Uuid) :
    (ClusterTypeController.listTypes t o).length = (allItems clusterTypeModel t o).length := by
  rw [allItems, List.length_insertionSort, List.length_map]
  rfl

/-- **A new type** comes last. -/
theorem create_reordered (ht : ∀ o, Ranked clusterTypeModel t o) (c : Creation) :
    Reordered clusterTypeModel t (create E c t).2 := by
  refine commit_end (.refl ht) fun r t' hcommit => ?_
  simp only [bind_eq_ok] at hcommit
  obtain ⟨name, -, tagKey, -, _, -, hinsert⟩ := hcommit
  simp only [insertType, bind_eq_ok, require_eq_ok] at hinsert
  obtain ⟨_, -, hinsert⟩ := hinsert
  split at hinsert
  · cases hinsert
  rename_i hnew
  obtain ⟨rfl, rfl⟩ := Prod.mk.inj (Except.ok.inj hinsert)
  exact .of_append ht rfl (congrArg (· + 1) (length_listTypes c.organizationId)) hnew

/-- **An action** moves a type, or leaves it where it is. -/
theorem edit_reordered (ht : ∀ o, Ranked clusterTypeModel t o) (itemId : Uuid) (action : Option String) :
    Reordered clusterTypeModel t (edit itemId action t).2 := by
  refine read_bind_end (.refl ht) fun item _ => commit_end (.refl ht) fun r t' hcommit => ?_
  simp only [bind_eq_ok, pure_eq_ok, Prod.mk.injEq] at hcommit
  obtain ⟨updates, hupdates, t₁, hmoved, rfl, rfl⟩ := hcommit
  exact .of_change ht hupdates hmoved

/-- **A deleted type** leaves the others in their order. -/
theorem delete_reordered (ht : ∀ o, Ranked clusterTypeModel t o) (itemId : Uuid) :
    Reordered clusterTypeModel t (delete E itemId t).2 := by
  refine read_bind_end (.refl ht) fun item hget => commit_bind_end (.refl ht) fun r t' hcommit => ?_
  simp only [get, orFail_eq_ok, Option.filter_eq_some_iff, Table.get?_eq_some, decide_eq_true_eq] at hget
  simp only [storeDeletion, bind_eq_ok, require_eq_ok, pure_eq_ok, Prod.mk.injEq] at hcommit
  obtain ⟨t₁, hmoved, _, -, rfl, rfl⟩ := hcommit
  have hreordered : Reordered clusterTypeModel t
      (t₁.updateWhere (fun c => c.id = item.id) (fun c => { c with deletedAt := E.now }) fun _ => rfl) :=
    .of_delete ht (mem_live.mpr ⟨hget.1.1, hget.2, rfl⟩) hmoved (fun _ => E.now_pos.ne') fun _ => rfl
  exact read_bind_end hreordered fun _ _ => hreordered

theorem after_reordered (ht : ∀ o, Ranked clusterTypeModel t o) {c : Env × Call} (h : after t c = some t') :
    Reordered clusterTypeModel t t' := by
  obtain rfl := Option.some.inj h
  obtain ⟨E, call⟩ := c
  cases call with
  | create c => exact create_reordered ht c
  | edit itemId action => exact edit_reordered ht itemId action
  | delete itemId => exact delete_reordered ht itemId

/-- The priorities of each organization's live types are 1, 2, … after any calls. -/
theorem always_ranked (calls : List (Env × Call)) :
    Run.Always after (fun t => ∀ o, Ranked clusterTypeModel t o) Table.empty calls :=
  Run.always_of_step (fun _ _ _ ht h => (after_reordered ht h).ranked) calls fun _ => ranked_empty

/-- **The priorities of an organization's live types are the places 1, 2, … of one order**, after any calls, accepted
or refused; a call moves, appends or takes out one type and leaves the order of all others. -/
theorem types_are_ranked (calls : List (Env × Call)) :
    Run.Always after (fun t => ∀ o, Ranked clusterTypeModel t o ∧ Movable clusterTypeModel t o) Table.empty calls ∧
      Run.Along after (fun t _ t' => ∃ itemId, ∀ o,
        (order clusterTypeModel t' o).erase itemId = (order clusterTypeModel t o).erase itemId) Table.empty calls :=
  ⟨(always_ranked calls).mono fun _ ht o => ⟨ht o, (ht o).movable⟩,
    Run.along_of_always (fun _ _ _ ht h _ => (after_reordered ht h).order) (always_ranked calls)⟩

end ClusterTypes
