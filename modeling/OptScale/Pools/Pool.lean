import OptScale.Foundations.Session
import OptScale.Rest.Services

/-!
# Pools/Pool — `PoolController.create`

A pool below another one, as the other controllers create it: with an owner, its limit left to the
default and no parent extended for it.
-/

open Fallible

namespace PoolController

variable (S : Services)

/-- `get_uniqueness_filter`: a live pool has the name under the parent. -/
abbrev Taken (pools : Table Pool.id) (organizationId parentId : Uuid) (name : Text) : Prop :=
  ∃ p ∈ pools.rows, ¬ p.Deleted ∧ S.collation.equal p.name name ∧ p.parentId = some parentId ∧
    p.organizationId = organizationId

/-- `get`: the live pool of the organization. -/
def get (pools : Table Pool.id) (itemId organizationId : Uuid) : Option Pool :=
  (pools.get? itemId).filter fun p => ¬ p.Deleted ∧ p.organizationId = organizationId

/-- The limits of the live children, as `check_child_pool_sum` adds them up. -/
def childrenTotalSum (pools : Table Pool.id) (parentId : Uuid) : ℤ :=
  ((pools.rows.filter fun p => ¬ p.Deleted ∧ p.parentId = some parentId).map Pool.limit).sum

/-- `check_child_pool_sum`, for a new pool. -/
def checkChildPoolSum (pools : Table Pool.id) (parent : Pool) (poolValue : ℤ) :
    Except Failure Unit := do
  let _ ← checkIntAttribute "limit" (some poolValue)
  require (childrenTotalSum pools parent.id + poolValue ≤ parent.limit) (.wrongArguments .OE0407 [])

/-- `_validate`, for a new pool whose limit is left to the default. -/
def validate (pools : Table Pool.id) (organizationId parentId : Uuid) (name : Text)
    (defaultOwnerId : Uuid) : Except Failure Unit := do
  require (¬ Taken S pools organizationId parentId name)
    (.conflict .OE0149 ["Pool", String.ofList name])
  let parent ← orFail (get pools parentId organizationId)
    (.wrongArguments .OE0005 ["Pool", toString parentId])
  checkChildPoolSum pools parent 0
  require (S.liveEmployee defaultOwnerId)
    (.wrongArguments .OE0005 ["Employee", toString defaultOwnerId])

/-- The row of the new pool. -/
def newPool (pools : Table Pool.id) (organizationId parentId : Uuid) (name : Text)
    (defaultOwnerId : Uuid) : Pool where
  id := S.genId.next (pools.rows.map Pool.id)
  organizationId := organizationId
  parentId := some parentId
  name := name
  limit := 0
  defaultOwnerId := some defaultOwnerId
  createdAt := S.now

/-- The tables with the new pool. -/
def store (db : Database) (organizationId parentId : Uuid) (name : Text) (defaultOwnerId : Uuid) :
    Database :=
  { db with
    pools := db.pools.add (newPool S db.pools organizationId parentId name defaultOwnerId)
      (S.genId.next_not_mem _) }

/-- `PoolController.create` -/
def create (organizationId parentId : Uuid) (name : Text) (defaultOwnerId : Uuid) :
    Session Database Failure Pool := do
  Session.read fun _ => Text.notWhiteSpaceString "name" name
  Session.read fun db => validate S db.pools organizationId parentId name defaultOwnerId
  let pool ← Session.commit fun db =>
    .ok (newPool S db.pools organizationId parentId name defaultOwnerId,
      store S db organizationId parentId name defaultOwnerId)
  Session.read fun _ => S.publish "pool_created"
  pure pool

/-! ## When it goes through -/

/-- **What a new pool needs**: a name that is none yet, a live parent whose children stay within its
limit, and a live owner. -/
structure Creatable (pools : Table Pool.id) (organizationId parentId : Uuid) (name : Text)
    (defaultOwnerId : Uuid) : Prop where
  length : 1 ≤ name.length ∧ name.length ≤ 255
  not_isSpace : name.isSpace = false
  not_taken : ¬ Taken S pools organizationId parentId name
  parent : ∃ p ∈ get pools parentId organizationId, childrenTotalSum pools p.id ≤ p.limit
  owner : S.liveEmployee defaultOwnerId

variable {S}

theorem newPool_mem_store {db : Database} {organizationId parentId : Uuid} {name : Text}
    {defaultOwnerId : Uuid} :
    newPool S db.pools organizationId parentId name defaultOwnerId ∈
      (store S db organizationId parentId name defaultOwnerId).pools.rows :=
  List.mem_append_right _ (List.mem_singleton.mpr rfl)

theorem notWhiteSpaceString_eq_ok {key : String} {name : Text} {u : Unit} :
    Text.notWhiteSpaceString key name = .ok u ↔
      (1 ≤ name.length ∧ name.length ≤ 255) ∧ name.isSpace = false := by
  simp [Text.notWhiteSpaceString]

theorem checkChildPoolSum_zero {pools : Table Pool.id} {parent : Pool} {u : Unit} :
    checkChildPoolSum pools parent 0 = .ok u ↔
      childrenTotalSum pools parent.id ≤ parent.limit := by
  simp [checkChildPoolSum, checkIntAttribute, maxInt32]

theorem creatable_iff {pools : Table Pool.id} {organizationId parentId : Uuid} {name : Text}
    {defaultOwnerId : Uuid} :
    Creatable S pools organizationId parentId name defaultOwnerId ↔
      Text.notWhiteSpaceString "name" name = .ok () ∧
        validate S pools organizationId parentId name defaultOwnerId = .ok () := by
  simp only [notWhiteSpaceString_eq_ok, validate, bind_eq_ok, require_eq_ok, orFail_eq_ok,
    checkChildPoolSum_zero]
  constructor
  · rintro ⟨hlength, hspace, htaken, ⟨p, hp, hsum⟩, howner⟩
    exact ⟨⟨hlength, hspace⟩, (), htaken, p, hp, (), hsum, howner⟩
  · rintro ⟨⟨hlength, hspace⟩, _, htaken, p, hp, _, hsum, howner⟩
    exact ⟨hlength, hspace, htaken, ⟨p, hp, hsum⟩, howner⟩

/-- **A pool is created exactly when it is creatable and its activity is published.** -/
theorem create_eq_ok {organizationId parentId : Uuid} {name : Text} {defaultOwnerId : Uuid}
    {db db' : Database} {pool : Pool} :
    create S organizationId parentId name defaultOwnerId db = (.ok pool, db') ↔
      Creatable S db.pools organizationId parentId name defaultOwnerId ∧
        S.publish "pool_created" = .ok () ∧
        newPool S db.pools organizationId parentId name defaultOwnerId = pool ∧
        store S db organizationId parentId name defaultOwnerId = db' := by
  rw [creatable_iff]
  simp only [create, Session.bind_eq_ok, Session.read_eq_ok, Session.commit_eq_ok,
    Session.pure_eq_ok, Except.ok.injEq, Prod.mk.injEq]
  constructor
  · rintro ⟨_, _, ⟨hname, rfl⟩, _, _, ⟨hvalid, rfl⟩, _, _, ⟨rfl, rfl⟩, _, _, ⟨hpublish, rfl⟩, rfl,
      rfl⟩
    exact ⟨⟨hname, hvalid⟩, hpublish, rfl, rfl⟩
  · rintro ⟨⟨hname, hvalid⟩, hpublish, rfl, rfl⟩
    exact ⟨_, _, ⟨hname, rfl⟩, _, _, ⟨hvalid, rfl⟩, _, _, ⟨rfl, rfl⟩, _, _, ⟨hpublish, rfl⟩, rfl,
      rfl⟩

/-- **`create` writes the table of pools only.** -/
theorem create_keeps {P : Database → Prop} (hP : ∀ db pools, P db → P { db with pools := pools })
    {organizationId parentId : Uuid} {name : Text} {defaultOwnerId : Uuid} :
    (create S organizationId parentId name defaultOwnerId).Keeps P := by
  refine .bind (.read _) fun _ => .bind (.read _) fun _ => .bind (.commit ?_) fun _ =>
    .bind (.read _) fun _ => .pure _
  intro db pool db' hdb h
  obtain ⟨-, rfl⟩ := Prod.mk.inj (Except.ok.inj h)
  exact hP _ _ hdb

end PoolController
