import OptScale.Auth.Tables
import OptScale.Rest.Organization
import OptScale.Foundations.Fallible
import OptScale.Foundations.SetOrder

/-!
# Auth/ActionResources — what a user may do, and where

    assignments ──action_resources──▸ rows ──auth_hierarchy, render──▸ {action: [(type, id)]}

The rest service unfolds a scope into the scopes below it, and `render` writes every row's action
over the unfolded scope: an entry keyed by its id takes the actions held on it, but an entry of a
list — the pools — takes *every* action the user holds anywhere.  So the answer is exactly what the
assignments grant when no action is held on one scope and missing on a pool of another
(`listed_iff_granted_iff`).
-/

open Fallible

/-! ## The hierarchy below a scope -/

/-- What `auth_hierarchy` answers, entry by entry: `type: [ids]` or `type: {id: children}`. -/
inductive Hierarchy
  | nil
  | listed (type : ScopeType) (ids : List Uuid) (rest : Hierarchy)
  | keyed (type : ScopeType) (id : Uuid) (children rest : Hierarchy)

namespace Scopes

variable (scopes : Scopes)

/-- The organization is there and not deleted. -/
abbrev LiveOrganization (id : Uuid) : Prop :=
  ∃ o ∈ scopes.organizations.rows, o.id = id ∧ ¬ o.Deleted

/-- The pool is there and not deleted. -/
abbrev LivePool (id : Uuid) : Prop := ∃ p ∈ scopes.pools.rows, p.id = id ∧ ¬ p.Deleted

/-- The pool is there and not deleted, and it is the organization's. -/
abbrev LivePoolOf (organizationId id : Uuid) : Prop :=
  ∃ p ∈ scopes.pools.rows, p.id = id ∧ ¬ p.Deleted ∧ p.organizationId = organizationId

end Scopes

namespace AuthHierarchyController

variable (scopes : Scopes)

/-- `_check_resource` -/
def checkResource (type : ScopeType) (scopeId : Uuid) : Except Failure Unit :=
  match type with
  | .root => .error (notProvided "model")
  | .organization =>
    require (scopes.LiveOrganization scopeId)
      (.notFound .OE0002 ["Organization", toString scopeId])
  | .pool => require (scopes.LivePool scopeId) (.notFound .OE0002 ["Pool", toString scopeId])

/-- The live pools of an organization, `none` alone when it has none: the outer join. -/
def poolsOrNull (organizationId : Uuid) : List (Option Uuid) :=
  let ids := (scopes.pools.rows.filter fun p =>
    p.organizationId = organizationId ∧ ¬ p.Deleted).map fun p => p.id
  if ids = [] then [none] else ids.map some

/-- The rows `auth_hierarchy` selects, not in their order. -/
def queryset (type : ScopeType) (scopeId : Uuid) : List (Uuid × Option Uuid) :=
  ((scopes.organizations.rows.filter fun o => ¬ o.Deleted).flatMap fun o =>
      (poolsOrNull scopes o.id).map fun p => (o.id, p)).filter fun row =>
    match type with
    | .root => false
    | .organization => row.1 = scopeId
    | .pool => row.2 = some scopeId

/-- `result['organization'][organization_id]['pool']` -/
def poolsIn (rows : List (Uuid × Option Uuid)) (organizationId : Uuid) : List Uuid :=
  rows.filterMap fun row => if row.1 = organizationId then row.2 else none

/-- `result['organization']` -/
def organizationsIn (rows : List (Uuid × Option Uuid)) : Hierarchy :=
  (rows.map Prod.fst).dedup.foldr
    (fun o rest => .keyed .organization o (.listed .pool (poolsIn rows o) .nil) rest) .nil

/-- `auth_hierarchy` -/
def authHierarchy (type : ScopeType) (scopeId : Option Uuid) : Except Failure Hierarchy := do
  let scopeId ← orFail scopeId (notProvided "scope_id")
  checkResource scopes type scopeId
  let rows := queryset scopes type scopeId
  match type with
  | .pool => do
    let row ← orFail rows.head? (.python "IndexError")
    pure (.listed .pool (poolsIn rows row.1) .nil)
  | _ => pure (organizationsIn rows)

end AuthHierarchyController

/-! ## Rendering -/

/-- A row of `action_resources`: where an action is held. -/
structure ActionResource where
  resourceId : Option Uuid
  type : ScopeType
  action : String
  deriving DecidableEq, Repr

/-- An element of `aset`: an action on a scope. -/
structure Item where
  id : Uuid
  type : ScopeType
  action : String
  deriving DecidableEq, Repr

/-- `OrderedSet.add` -/
def orderedAdd (aset : List Item) (x : Item) : List Item := if x ∈ aset then aset else aset ++ [x]

namespace Auth.BaseController

/-- `render_item`, by what it adds. -/
def renderItem (targetId : Option Uuid) (action : String) : Bool → Hierarchy → List Item
  | _, .nil => []
  | collect, .listed type ids rest =>
    ids.map (⟨·, type, action⟩) ++ renderItem targetId action collect rest
  | collect, .keyed type id children rest =>
    let startCollect := collect || some id = targetId
    (if startCollect then [⟨id, type, action⟩] else []) ++
      renderItem targetId action startCollect children ++ renderItem targetId action collect rest

/-- `render` -/
def render (actionResources : List ActionResource) (aset : List Item) (hierarchy : Hierarchy) :
    List Item :=
  actionResources.foldl
    (fun aset row => (renderItem row.resourceId row.action false hierarchy).foldl orderedAdd aset)
    aset

variable (scopes : Scopes)

/-- `get_downward_hierarchy`: the rest service's answer, or the status it failed with. -/
def getDownwardHierarchy (type : ScopeType) (id : Option Uuid) : Except ℕ Hierarchy :=
  (AuthHierarchyController.authHierarchy scopes type id).mapError Failure.statusCode

/-- One turn of the loop over the scopes of `format_user_action_resources`. -/
def formatScope (actionResources : List ActionResource) (aset : List Item)
    (scope : Option Uuid × ScopeType) : Except Failure (List Item) :=
  -- downward hierarchy was derived from a higher entity
  if scope.1 ∈ aset.map (fun x => some x.id) then .ok aset
  else
    match getDownwardHierarchy scopes scope.2 scope.1 with
    | .ok response => .ok (render actionResources aset response)
    | .error status => if status = 404 then .ok aset else .error (.http status)

/-- The scopes of the rows, each once, from the top level down. -/
def orderedScopes (order : SetOrder (Option Uuid × ScopeType))
    (actionResources : List ActionResource) : List (Option Uuid × ScopeType) :=
  (order.toList (actionResources.map fun row => (row.resourceId, row.type))).mergeSort
    fun x y => x.2.id ≤ y.2.id

/-- `format_user_action_resources` -/
def formatUserActionResources (order : SetOrder (Option Uuid × ScopeType))
    (actionResources : List ActionResource) (actionList : List String) :
    Except Failure (List (String × List (ScopeType × Uuid))) := do
  let aset ← (orderedScopes order actionResources).foldlM (formatScope scopes actionResources) []
  require (∀ x ∈ aset, x.action ∈ actionList) (.python "KeyError")
  pure (actionList.dedup.map fun k => (k, (aset.filter (·.action = k)).map fun x => (x.type, x.id)))

end Auth.BaseController

/-! ## The two calls -/

namespace Auth.TokenStore

variable (db : Db)

/-- The rows both queries select, with the user of each. -/
def query (userIds : List Uuid) (actionList : List String) : List (Uuid × ActionResource) :=
  (db.joined.filter fun row => row.1.userId ∈ userIds ∧ ¬ row.2.Deleted ∧ ¬ row.1.Deleted ∧
      (actionList = [] ∨ row.2.name ∈ actionList)).map
    fun row => (row.1.userId, ⟨row.1.resourceId, row.1.type, row.2.name⟩)

/-- `action_resources`, not in its order. -/
def actionResources (userId : Uuid) (actionList : List String) : List ActionResource :=
  (query db [userId] actionList).map Prod.snd

/-- `bulk_action_resources`: the rows of each user that has any. -/
def bulkActionResources (userIds : List Uuid) (actionList : List String) :
    List (Uuid × List ActionResource) :=
  let rows := query db userIds actionList
  (rows.map Prod.fst).dedup.map fun u => (u, (rows.filter (·.1 = u)).map Prod.snd)

end Auth.TokenStore

namespace Auth.BaseController

variable (db : Db) (scopes : Scopes) (order : SetOrder (Option Uuid × ScopeType))

/-- `get_user_by_id`, the id going on. -/
def getUserById (userId : Uuid) : Except Failure Uuid := do
  require (∃ u ∈ db.users.rows, u.id = userId ∧ ¬ u.Deleted)
    (.notFound .OA0024 [toString userId])
  pure userId

/-- Whom `get_action_resources` is asked about. -/
inductive Who
  /-- The user of the call's token. -/
  | token (userId : Uuid)
  | user (userId : Uuid)

/-- The user asked about. -/
def Who.userId : Who → Uuid
  | token u => u
  | user u => u

/-- `get_user` and `get_user_by_id`. -/
def getUser : Who → Except Failure Uuid
  | .token u => .ok u
  | .user u => getUserById db u

/-- `get_action_resources` -/
def getActionResources (who : Who) (actionList : List String) :
    Except Failure (List (String × List (ScopeType × Uuid))) := do
  let userId ← getUser db who
  formatUserActionResources scopes order (TokenStore.actionResources db userId actionList)
    actionList

/-- `get_users_by_ids` -/
def getUsersByIds (userIds : List Uuid) : Except Failure Unit :=
  match userIds.find? fun u => ¬ ∃ user ∈ db.users.rows, user.id = u ∧ ¬ user.Deleted with
  | some missing => .error (.notFound .OA0024 [toString missing])
  | none => .ok ()

/-- `get_bulk_action_resources` -/
def getBulkActionResources (userIds : List Uuid) (actionList : List String) :
    Except Failure (List (Uuid × List (String × List (ScopeType × Uuid)))) := do
  getUsersByIds db userIds
  (TokenStore.bulkActionResources db userIds actionList).mapM fun entry => do
    let result ← formatUserActionResources scopes order entry.2 actionList
    pure (entry.1, result)

end Auth.BaseController
