import OptScale.Foundations.Session
import OptScale.Rest.Services
import OptScale.Pools.Pool

/-!
# Rules/Rule — `RuleController.create_rule`

A rule as the other controllers create it: deprioritized, that is after all rules of the
organization, with one condition on the cloud account.
-/

open Fallible

namespace RuleController

variable (S : Services)

/-- `_get_rules`: the live rules of the organization. -/
def getRules (rules : Table Rule.id) (organizationId : Uuid) : List Rule :=
  rules.rows.filter fun r => r.deletedAt = 0 ∧ r.organizationId = organizationId

/-- The priority after all rules of the organization. -/
def defaultPriority (rules : Table Rule.id) (organizationId : Uuid) : ℕ :=
  (getRules rules organizationId).length + 1

/-- `PoolController.get`, with the organization the pool must belong to. -/
def getPool (pools : Table Pool.id) (organizationId poolId : Uuid) : Except Failure Pool := do
  let pool ← orFail ((pools.get? poolId).filter fun p => ¬ p.Deleted)
    (.wrongArguments .OE0005 ["pool_id", toString poolId])
  require (pool.organizationId = organizationId)
    (.wrongArguments .OE0005 ["pool_id", toString poolId])
  pure pool

/-- What `create_rule` is given. -/
structure CreateArgs where
  userId : Option Uuid
  organizationId : Uuid
  name : Text
  ownerId : Uuid
  poolId : Uuid
  /-- The cloud account of the condition. -/
  metaInfo : Text

variable (a : CreateArgs)

/-- `_validate_parameters`, `_prepare_rule_data` and the owner's permission; the employee is the
creator. -/
def prepareRuleData (db : Database) : Except Failure Employee := do
  Text.checkStringAttribute "name" a.name
  let employee ← orFail (S.employeeByUser a.userId a.organizationId) (.forbidden .OE0378 [])
  require (∀ r ∈ getRules db.rules a.organizationId, S.collation.equal r.name a.name = false)
    (.conflict .OE0149 ["Rule", String.ofList a.name])
  let owner ← orFail (S.employee a.ownerId a.organizationId)
    (.wrongArguments .OE0005 ["owner_id", toString a.ownerId])
  let _ ← getPool db.pools a.organizationId a.poolId
  let allowed ← S.authorizeUserList owner.authUserId a.poolId
  require allowed (.forbidden .OE0379 [owner.name])
  pure employee

/-- The row of the new rule. -/
def newRule (rules : Table Rule.id) (employee : Employee) : Rule where
  id := S.genId.next (rules.rows.map Rule.id)
  name := a.name
  priority := defaultPriority rules a.organizationId
  creatorId := employee.id
  organizationId := a.organizationId
  poolId := a.poolId
  ownerId := a.ownerId
  conditions := [{ type := .CLOUD_IS, metaInfo := some a.metaInfo }]

/-- The commit of the rule: two live rules of an organization may not have one priority, and what
the database refuses is tried again to no avail. -/
def store (db : Database) (employee : Employee) : Except Failure (Rule × Database) := do
  require (∀ r ∈ getRules db.rules a.organizationId,
      r.priority ≠ defaultPriority db.rules a.organizationId)
    (.python "RetriableException")
  pure (newRule S a db.rules employee,
    { db with rules := db.rules.add (newRule S a db.rules employee) (S.genId.next_not_mem _) })

/-- `RuleController.create_rule` -/
def createRule : Session Database Failure Rule := do
  let employee ← Session.read (prepareRuleData S a)
  let rule ← Session.commit fun db => store S a db employee
  Session.read fun _ => S.publish "rule_created"
  pure rule

/-! ## When it goes through -/

/-- **What a new rule needs**: a name that is short enough and none yet, a creator and an owner of
the organization, a live pool of it that the owner may manage, and a free priority. -/
structure Creatable (db : Database) : Prop where
  length : 1 ≤ a.name.length ∧ a.name.length ≤ 255
  not_isSpace : a.name.isSpace = false
  creator : (S.employeeByUser a.userId a.organizationId).isSome
  not_taken : ∀ r ∈ getRules db.rules a.organizationId, S.collation.equal r.name a.name = false
  owner : ∃ owner ∈ S.employee a.ownerId a.organizationId,
    S.authorizeUserList owner.authUserId a.poolId = .ok true
  pool : ∃ p ∈ db.pools.rows, p.id = a.poolId ∧ ¬ p.Deleted ∧ p.organizationId = a.organizationId
  priority : ∀ r ∈ getRules db.rules a.organizationId,
    r.priority ≠ defaultPriority db.rules a.organizationId

variable {S a}

theorem checkStringAttribute_eq_ok {key : String} {value : Text} {u : Unit} :
    Text.checkStringAttribute key value = .ok u ↔
      value.isSpace = false ∧ 1 ≤ value.length ∧ value.length ≤ 255 := by
  simp [Text.checkStringAttribute]

theorem getPool_eq_ok {pools : Table Pool.id} {organizationId poolId : Uuid} {p : Pool} :
    getPool pools organizationId poolId = .ok p ↔
      p ∈ pools.rows ∧ p.id = poolId ∧ ¬ p.Deleted ∧ p.organizationId = organizationId := by
  simp only [getPool, bind_eq_ok, orFail_eq_ok, require_eq_ok, pure_eq_ok, Option.filter_eq_some_iff,
    Table.get?_eq_some, decide_eq_true_eq]
  constructor
  · rintro ⟨q, ⟨⟨hq, hid⟩, hlive⟩, _, horg, rfl⟩
    exact ⟨hq, hid, hlive, horg⟩
  · rintro ⟨hp, hid, hlive, horg⟩
    exact ⟨p, ⟨⟨hp, hid⟩, hlive⟩, (), horg, rfl⟩

/-- **A rule is created exactly when it is creatable and its activity is published.** -/
theorem createRule_succeeds {db : Database} :
    (createRule S a).Succeeds db ↔ Creatable S a db ∧ S.publish "rule_created" = .ok () := by
  simp only [createRule, prepareRuleData, store, Session.Succeeds, Session.bind_eq_ok,
    Session.read_eq_ok, Session.commit_eq_ok, Session.pure_eq_ok, bind_eq_ok, orFail_eq_ok,
    require_eq_ok, pure_eq_ok, checkStringAttribute_eq_ok, getPool_eq_ok, Prod.mk.injEq]
  constructor
  · rintro ⟨_, _, e, _, ⟨⟨_, ⟨hspace, hlength⟩, e', he, _, hname, o, ho, p, hp, b, hb, _, rfl, -⟩,
      rfl⟩, _, _, ⟨_, hprio, -⟩, _, _, ⟨hpublish, -⟩, -⟩
    exact ⟨⟨hlength, hspace, Option.isSome_of_eq_some he, hname, ⟨o, ho, hb⟩, ⟨p, hp⟩, hprio⟩,
      hpublish⟩
  · rintro ⟨⟨hlength, hspace, hcreator, hname, ⟨o, ho, hb⟩, ⟨p, hp⟩, hprio⟩, hpublish⟩
    obtain ⟨e, he⟩ := Option.isSome_iff_exists.mp hcreator
    exact ⟨_, _, e, db, ⟨⟨(), ⟨hspace, hlength⟩, e, he, (), hname, o, ho, p, hp, true, hb, (), rfl,
      rfl⟩, rfl⟩, _, _, ⟨(), hprio, rfl, rfl⟩, _, _, ⟨hpublish, rfl⟩, rfl, rfl⟩

/-- **`create_rule` writes the table of rules only.** -/
theorem createRule_keeps {P : Database → Prop}
    (hP : ∀ db rules, P db → P { db with rules := rules }) : (createRule S a).Keeps P := by
  refine .bind (.read _) fun e => .bind (.commit ?_) fun _ => .bind (.read _) fun _ => .pure _
  intro db rule db' hdb h
  simp only [store, bind_eq_ok, pure_eq_ok, Prod.mk.injEq] at h
  obtain ⟨_, -, -, rfl⟩ := h
  exact hP _ _ hdb

end RuleController
