import OptScale.Resources.Assignment
import OptScale.Rest.Organization

/-!
# Pools/Reassign — what `PoolController.delete` does to resources

The resources of a pool that is deleted go to its parent; owners who may not manage resources there
are replaced by the parent's default owner.  Who was asked to take a resource out of the pool is asked
no more.
-/

open Fallible

namespace PoolController

/-- What a deletion finds around it. -/
structure Surroundings where
  /-- The live pool of an id. -/
  getPool : Uuid → Option Pool
  /-- A live pool has the id as its parent. -/
  hasChildren : Uuid → Bool
  /-- The employees of the organization, the deleted ones included. -/
  employees : List Uuid
  /-- The employee is live and may manage resources, own or all, in the pool. -/
  allowed : (employeeId poolId : Uuid) → Bool
  /-- `publish_activities_task`, by its action. -/
  publish : String → Except Failure Unit
  now : Timestamp

variable (E : Surroundings)

/-- The request is live, and about a resource of the pool. -/
abbrev ComesFrom (poolId : Uuid) (q : AssignmentRequest) : Prop :=
  q.sourcePoolId = some poolId ∧ q.deletedAt = 0

/-- `reassign_cleanup`, of the requests. -/
def reassignCleanup (poolId : Uuid) (requests : Table AssignmentRequest.id) :
    Except Failure (Table AssignmentRequest.id) := do
  let cleaned := requests.updateWhere (fun q => ComesFrom poolId q)
    (fun q => { q with deletedAt := E.now }) fun _ => rfl
  require (∀ q ∈ requests.rows, ComesFrom poolId q →
    AssignmentController.SlotFree cleaned q E.now) (.python "IntegrityError")
  pure cleaned

/-- `get_reassigned_owners` -/
def getReassignedOwners (t : Resources) (pool : Pool) (parentId : Uuid) :
    Except Failure (List Uuid × Option Uuid) := do
  let invalidOwners := E.employees.filter fun e => !E.allowed e parentId
  if invalidOwners = [] then pure ([], none)
  else
    let parent ← orFail (E.getPool parentId) (.python "AttributeError")
    require (parent.defaultOwnerId.isSome ∨ ¬ ∃ r ∈ t.rows, r.poolId = some pool.id ∧
      ∃ e ∈ invalidOwners, r.employeeId = some e)
      (.failedDependency .OE0459 [toString parent.id])
    pure (invalidOwners, parent.defaultOwnerId)

/-- `reassign_resources` -/
def reassignResources (oldPoolId newPoolId : Uuid) (oldOwnerIds : List Uuid)
    (newOwnerId : Option Uuid) (t : Resources) : Resources :=
  let owned := if oldOwnerIds = [] then t else
    t.updateWhere (fun r => r.poolId = some oldPoolId ∧ ∃ e ∈ oldOwnerIds, r.employeeId = some e)
      (fun r => { r with employeeId := newOwnerId }) fun _ => rfl
  owned.updateWhere (fun r => r.poolId = some oldPoolId)
    (fun r => { r with poolId := some newPoolId }) fun _ => rfl

/-- `delete`, as far as resources and their requests go. -/
def deleteForResources (itemId : Uuid) (allowRootDeletion : Bool) : Session Store Failure Unit := do
  let item ← Session.read fun _ =>
    orFail (E.getPool itemId) (.notFound .OE0002 ["Pool", toString itemId])
  Session.read fun _ => require (item.parentId.isSome ∨ allowRootDeletion)
    (.wrongArguments .OE0447 [])
  Session.read fun _ => require (¬ E.hasChildren item.id ∨ allowRootDeletion)
    (.failedDependency .OE0411 ["Pool", String.ofList item.name])
  match item.parentId with
  | none => pure ()
  | some parentId =>
    Session.commit fun s => do
      let requests ← reassignCleanup E item.id s.requests
      pure ((), { s with requests := requests })
    let parent ← Session.read fun _ => orFail (E.getPool parentId) (.python "AttributeError")
    let owners ← Session.read fun s => getReassignedOwners E s.resources item parentId
    Session.commit fun s => .ok ((), { s with
      resources := reassignResources item.id parent.id owners.1 owners.2 s.resources })
    Session.read fun _ => E.publish "pool_deleted"

end PoolController
