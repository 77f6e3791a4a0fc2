import OptScale.Foundations.Forest
import OptScale.Pools.Pool

/-!
# Pools/Tree — `PoolController.create` and `edit`, with limits

A limit that is given is checked against the limit of the parent and those of the children
(`check_child_pool_sum`).  With `auto_extension` the limits of the pools above are raised first, to the
sums of the limits below them (`extend_parent_pools`), and nothing but the column checks those.
-/

open Fallible

namespace PoolTree

/-! ## Columns and lookups -/

/-- `MAX_64_INT` -/
def maxInt64 : ℤ := 2 ^ 63 - 1

/-- The validator of a `BigInt` column. -/
def bigInt (key : String) : Option ℤ → Except Failure Unit
  | none => .ok ()
  | some v => require (0 ≤ v ∧ v ≤ maxInt64)
      (.wrongArguments .OE0224 [key, toString (0 : ℤ), toString maxInt64])

/-- What a call finds around the tables. -/
structure Env where
  genId : IdSource
  now : ℕ
  collation : Collation
  /-- `_define_current_empl` -/
  currentEmployee : Option Uuid
  /-- `_get_employee`: the name of a live employee. -/
  employee : Uuid → Option Text
  /-- `validate_owner`, by the owner and the pool. -/
  validateOwner : Uuid → Uuid → Except Failure Bool
  /-- The ids of `get_all_available_pools_by_permissions`, for `MANAGE_POOLS`. -/
  managedPools : Except Failure (List Uuid)
  /-- `publish_activities_task`, by the action. -/
  publish : String → Except Failure Unit

/-- The live pools. -/
def live (t : Table Pool.id) : List Pool := t.rows.filter fun p => ¬ p.Deleted

/-- `get` -/
def get (t : Table Pool.id) (itemId : Uuid) : Option Pool := (live t).find? fun p => p.id = itemId

/-! ## `check_child_pool_sum` -/

/-- The pool is the root, or its parent descends from it in fewer levels. -/
def descends (pools : List Pool) (root : Uuid) : ℕ → Pool → Bool
  | 0, p => p.id = root
  | n + 1, p => p.id = root || pools.any fun q => p.parentId = some q.id && descends pools root n q

/-- `get_item_hierarchy`, the item included: a live pool and the live pools below it.  There are no
more levels than pools. -/
def getItemHierarchy (t : Table Pool.id) (root : Uuid) : List Pool :=
  (live t).filter (descends (live t) root (live t).length)

/-- `children_total_sum`: the limits of the children of a pool, but for the one that is checked. -/
def childrenTotalSum (objects : List Pool) (parentId : Uuid) (poolId : Option Uuid) : ℤ :=
  ((objects.filter fun b => b.parentId = some parentId ∧ some b.id ≠ poolId).map Pool.limit).sum

/-- `stats_map.get(id, default_stats)`, as the limit and the sum. -/
def stats (objects : List Pool) (poolId : Option Uuid) (id : Uuid) : ℤ × ℤ :=
  match objects.find? fun b => b.id = id with
  | none => (0, 0)
  | some b => (b.limit, childrenTotalSum objects id poolId)

/-- `check_child_pool_sum` -/
def checkChildPoolSum (t : Table Pool.id) (poolValue : Option ℤ) (parentId poolId : Option Uuid) :
    Except Failure Unit :=
  match parentId.or poolId with
  | none => .ok ()
  | some rootPoolId => do
    let value ← checkIntAttribute "limit" poolValue
    let objects := getItemHierarchy t rootPoolId
    if objects = [] then .ok () else do
      let _ ← (match parentId with
        | none => .ok ()
        | some parentId =>
          require ((stats objects poolId parentId).2 + value ≤ (stats objects poolId parentId).1)
            (.wrongArguments .OE0407 []) : Except Failure Unit)
      match poolId with
      | none => .ok ()
      | some poolId =>
        require ((stats objects (some poolId) poolId).2 ≤ value)
          (.wrongArguments .OE0414 [toString value, toString poolId])

/-! ## `extend_parent_pools` -/

/-- `parent_sums.get(child.id) or child.limit` -/
def newLimit (parentSums : List (Uuid × ℤ)) (child : Pool) : ℤ :=
  match parentSums.lookup child.id with
  | none => child.limit
  | some v => if v = 0 then child.limit else v

/-- The loop of `extend_parent_pools`, for as many turns as there may be pools above. -/
def extendLoop (orgPools : List Pool) (managedPoolIds : List Uuid) :
    ℕ → Option Uuid → List (Uuid × ℤ) → Except Failure (List (Uuid × ℤ))
  | _, none, parentSums => .ok parentSums
  | 0, some _, _ => .error (.python "endless loop")
  | n + 1, some parentId, parentSums => do
    let parentPool ← orFail (orgPools.find? fun p => p.id = parentId) (.python "KeyError")
    let poolLimit :=
      ((orgPools.filter fun p => p.parentId = some parentId).map (newLimit parentSums)).sum
    if parentPool.limit < poolLimit then do
      require (parentId ∈ managedPoolIds)
        (.forbidden .OE0471 [String.ofList parentPool.name, toString parentId])
      extendLoop orgPools managedPoolIds n parentPool.parentId ((parentId, poolLimit) :: parentSums)
    else extendLoop orgPools managedPoolIds n parentPool.parentId parentSums

/-- The limits found, written to their pools. -/
def writeLimits (t : Table Pool.id) (parentSums : List (Uuid × ℤ)) : Table Pool.id :=
  t.updateWhere (fun p => (parentSums.lookup p.id).isSome)
    (fun p => { p with limit := (parentSums.lookup p.id).getD p.limit }) fun _ => rfl

/-- `extend_parent_pools`: `pool` is the new one, or the one that is edited. -/
def extendParentPools (E : Env) (t : Table Pool.id) (pool : Pool) (limit : Option ℤ) (isNew : Bool) :
    Except Failure (Table Pool.id) := do
  let stored := (live t).filter fun p => p.organizationId = pool.organizationId
  require (stored ≠ []) (.notFound .OE0002 ["Organization", toString pool.organizationId])
  let managedPoolIds ← E.managedPools
  let orgPools := if isNew then stored ++ [pool] else stored
  match pool.parentId, limit with
  | none, none => .ok t
  | some _, none => .error (.python "TypeError")
  | parentId, some limit =>
    let parentSums ← extendLoop orgPools managedPoolIds (orgPools.length + 1) parentId [(pool.id, limit)]
    parentSums.forM fun s => bigInt "limit" (some s.2)
    .ok (writeLimits t parentSums)

/-! ## `_validate` -/

/-- `get_uniqueness_filter`: another live pool has the name under the parent. -/
abbrev Taken (E : Env) (t : Table Pool.id) (pool : Pool) (itself : Option Uuid) : Prop :=
  ∃ p ∈ live t, E.collation.equal p.name pool.name ∧ (∀ a ∈ pool.parentId, p.parentId = some a) ∧
    p.organizationId = pool.organizationId ∧ some p.id ≠ itself

/-- `default_owner_id`, as `_validate` checks it; a stored pool's owner needs permissions on it. -/
def validateDefaultOwner (E : Env) (defaultOwnerId poolId : Option Uuid) : Except Failure Unit :=
  match defaultOwnerId with
  | none => .ok ()
  | some ownerId => do
    let name ← orFail (E.employee ownerId)
      (.wrongArguments .OE0005 ["Employee", toString ownerId])
    match poolId with
    | none => .ok ()
    | some poolId => do
      let valid ← E.validateOwner ownerId poolId
      require valid (.forbidden .OE0379 [String.ofList name])

/-- `_validate`, for a new pool. -/
def validateNew (E : Env) (t : Table Pool.id) (pool : Pool) (limit : Option ℤ) :
    Except Failure Unit := do
  require (¬ Taken E t pool none) (.conflict .OE0149 ["Pool", String.ofList pool.name])
  let _ ← (match pool.parentId with
    | none => .ok none
    | some parentId => do
      let parent ← orFail ((get t parentId).filter fun p => p.organizationId = pool.organizationId)
        (.wrongArguments .OE0005 ["Pool", toString parentId])
      .ok (some parent) : Except Failure (Option Pool))
  checkChildPoolSum t limit pool.parentId none
  validateDefaultOwner E pool.defaultOwnerId none

/-! ## `create` -/

/-- The arguments of `create`; a limit may be left out, or be null. -/
structure Creation where
  organizationId : Uuid
  parentId : Option Uuid
  name : Text
  limit : Option (Option ℤ) := none
  defaultOwnerId : Option Uuid := none
  autoExtension : Bool := false

/-- The new pool. -/
def Creation.pool (E : Env) (c : Creation) (t : Table Pool.id) : Pool where
  id := E.genId.next (t.rows.map Pool.id)
  organizationId := c.organizationId
  parentId := c.parentId
  name := c.name
  limit := c.limit.join.getD 0
  defaultOwnerId := c.defaultOwnerId.or E.currentEmployee
  createdAt := E.now

/-- `create` -/
def create (E : Env) (c : Creation) : Session (Table Pool.id) Failure Pool := do
  Session.read fun _ => bigInt "limit" c.limit.join
  Session.read fun _ => Text.notWhiteSpaceString "name" c.name
  let extended ← Session.read fun t =>
    if c.autoExtension then extendParentPools E t (c.pool E t) c.limit.join true else .ok t
  Session.read fun t => validateNew E extended (c.pool E t) (c.limit.getD (some 0))
  let pool ← Session.commit fun t =>
    if h : (c.pool E t).id ∈ extended.rows.map Pool.id then .error (.wrongArguments .OE0003 [])
    else .ok (c.pool E t, extended.add (c.pool E t) h)
  Session.read fun _ => if c.parentId.isSome then E.publish "pool_created" else .ok ()
  pure pool

/-! ## `edit` -/

/-- The arguments of `edit`; a limit and an owner may be null. -/
structure Edit where
  itemId : Uuid
  name : Option Text := none
  limit : Option (Option ℤ) := none
  /-- A purpose is given, and not null. -/
  purpose : Bool := false
  defaultOwnerId : Option (Option Uuid) := none
  autoExtension : Bool := false

/-- The edit gives nothing. -/
def Edit.isEmpty (e : Edit) : Bool :=
  e.name.isNone && e.limit.isNone && !e.purpose && e.defaultOwnerId.isNone

/-- The pool with the attributes set. -/
def Edit.apply (e : Edit) (item : Pool) : Pool :=
  { item with
    name := e.name.getD item.name
    limit := (e.limit.getD (some item.limit)).getD item.limit
    defaultOwnerId := e.defaultOwnerId.getD item.defaultOwnerId }

/-- `_validate`, for a stored pool. -/
def validateEdited (E : Env) (t : Table Pool.id) (item : Pool) (e : Edit) : Except Failure Unit := do
  require (¬ Taken E t (e.apply item) (some item.id))
    (.conflict .OE0149 ["Pool", String.ofList (e.apply item).name])
  checkChildPoolSum t (e.limit.getD (some item.limit)) item.parentId (some item.id)
  require (item.parentId.isSome ∨ ¬ e.purpose) (.wrongArguments .OE0449 ["purpose", "root pool"])
  require (item.parentId.isSome ∨ e.name.isNone) (.wrongArguments .OE0449 ["name", "root pool"])
  validateDefaultOwner E e.defaultOwnerId.join (some item.id)

/-- The extension `edit` starts with. -/
def extendForEdit (E : Env) (t : Table Pool.id) (e : Edit) : Except Failure (Table Pool.id) := do
  let newLimit ← checkIntAttribute "limit" e.limit.join
  let pool ← orFail (get t e.itemId) (.python "AttributeError")
  extendParentPools E t pool (some newLimit) false

/-- The pool of an id, with the attributes of the edit. -/
def store (t : Table Pool.id) (e : Edit) : Table Pool.id :=
  t.updateWhere (fun p => p.id = e.itemId) e.apply fun _ => rfl

/-- `edit` -/
def edit (E : Env) (e : Edit) : Session (Table Pool.id) Failure Pool := do
  let extended ← Session.read fun t => if e.autoExtension then extendForEdit E t e else .ok t
  let item ← Session.read fun _ => orFail (get extended e.itemId) (.python "AttributeError")
  (if e.isEmpty then pure ()
    else do
      Session.read fun _ => bigInt "limit" e.limit.join
      Session.read fun _ => (e.name.elim (.ok ()) (Text.notWhiteSpaceString "name"))
      Session.read fun _ => validateEdited E extended item e
      Session.commit fun _ => .ok ((), store extended e) : Session (Table Pool.id) Failure Unit)
  Session.read fun _ => E.publish "pool_updated"
  pure (e.apply item)

end PoolTree
