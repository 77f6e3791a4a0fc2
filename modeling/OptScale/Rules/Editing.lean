import OptScale.Foundations.Session
import OptScale.Rules.Conditions

/-!
# Rules/Editing — `RuleController`: rules are created, edited, reordered and deleted

One transaction each: what a call changes is stored at its end or not at all.  A rule keeps the
conditions that were deleted from it.
-/

open Fallible RuleConditions

namespace OrganizationRules

/-! ## Rows -/

/-- A row of `rule`, with its conditions. -/
structure StoredRule where
  id : Uuid
  name : Text
  priority : ℕ
  creatorId : Uuid
  organizationId : Uuid
  poolId : Uuid
  ownerId : Uuid
  conditions : List StoredCondition
  active : Bool := true
  operator : RuleOperator := .AND
  deletedAt : ℕ := 0
  deriving DecidableEq, Repr

/-- `deleted` -/
abbrev StoredRule.Deleted (r : StoredRule) : Prop := r.deletedAt ≠ 0

/-- The table of rules. -/
abbrev Rules := Table StoredRule.id

/-- `Rule`, for `PriorityMixin`. -/
def ruleModel : PriorityModel StoredRule.id where
  name := "Rule"
  organizationId := StoredRule.organizationId
  deletedAt := StoredRule.deletedAt
  priority := StoredRule.priority
  withPriority i r := { r with priority := i }
  key_withPriority _ _ := rfl
  organizationId_withPriority _ _ := rfl
  deletedAt_withPriority _ _ := rfl
  priority_withPriority _ _ := rfl

/-- The ids of the conditions in the table. -/
def conditionIds (t : Rules) : List Uuid :=
  t.rows.flatMap fun r => r.conditions.map StoredCondition.id

/-- `get` -/
def get (t : Rules) (itemId : Uuid) : Except Failure StoredRule :=
  orFail ((t.get? itemId).filter fun r => ¬ r.Deleted) (.notFound .OE0002 ["Rule", toString itemId])

/-! ## Requests -/

/-- `RuleOperators(value)` -/
def operatorOfValue : String → Option RuleOperator
  | "or" => some .OR
  | "and" => some .AND
  | _ => none

/-- The attributes of a rule, as a request gives them: each may be left out, or be null. -/
structure RulePayload where
  name : Option (Option Text) := none
  poolId : Option (Option Uuid) := none
  ownerId : Option (Option Uuid) := none
  conditions : Option (Option (List ConditionPayload)) := none
  active : Option (Option Bool) := none
  priority : Option (Option ℤ) := none
  operator : Option (Option String) := none
  /-- The other attributes. -/
  unexpected : List String := []

/-- What a call finds around the table. -/
structure Env extends Services where
  now_pos : 0 < now
  /-- The organization of a live pool. -/
  pool : Uuid → Option Uuid

/-- `check_int_attribute`, from 1. -/
def checkPriority (priority : Option ℤ) : Except Failure Unit :=
  match priority with
  | none => .ok ()
  | some v => require (1 ≤ v ∧ v ≤ maxInt32)
      (.wrongArguments .OE0224 ["priority", "1", toString maxInt32])

/-- `_validate_parameters`; ids are strings that are not blank. -/
def validateParameters (loads : Text → Option JsonValue) (p : RulePayload) : Except Failure Unit := do
  p.name.join.elim (.ok ()) (Text.checkStringAttribute "name")
  require (∀ conditions ∈ p.conditions.join, conditions ≠ []) (notProvided "conditions")
  checkPriority p.priority.join
  require (∀ value ∈ p.operator.join, (operatorOfValue value).isSome)
    (.wrongArguments .OE0563 [p.operator.join.getD ""])
  require (p.unexpected = []) (.wrongArguments .OE0212 p.unexpected)
  match p.conditions with
  | none => .ok ()
  | some conditions => do
    let conditions ← orFail conditions (notProvided "conditions")
    conditions.forM (validateConditionData loads)

/-! ## What creation and edit share -/

/-- `_check_name_already_exist` -/
def checkNameAlreadyExist (E : Env) (t : Rules) (name : Text) (organizationId : Uuid) :
    Except Failure Unit :=
  require (∀ r ∈ t.rows, ¬ r.Deleted → r.organizationId = organizationId →
    E.collation.equal r.name name = false) (.conflict .OE0149 ["Rule", String.ofList name])

/-- The live employee of the organization a rule is to be owned by. -/
def ownerOf (E : Env) (organizationId ownerId : Uuid) : Except Failure Employee :=
  orFail (E.employee ownerId organizationId) (.wrongArguments .OE0005 ["owner_id", toString ownerId])

/-- The live pool of the organization a rule is to assign to. -/
def poolOf (E : Env) (organizationId poolId : Uuid) : Except Failure Uuid := do
  let organization ← orFail (E.pool poolId) (.wrongArguments .OE0005 ["pool_id", toString poolId])
  require (organization = organizationId) (.wrongArguments .OE0005 ["pool_id", toString poolId])
  pure poolId

/-- `validate_owner`, and what its answer is for. -/
def checkOwner (E : Env) (owner : Employee) (poolId : Uuid) : Except Failure Unit := do
  let allowed ← E.authorizeUserList owner.authUserId poolId
  require allowed (.forbidden .OE0379 [owner.name])

/-! ## `create_rule` -/

/-- The arguments of `create_rule`. -/
structure Creation where
  userId : Option Uuid
  organizationId : Uuid
  isDeprioritized : Bool := false
  payload : RulePayload

/-- The priority of the new rule: a given one, the first or the last. -/
def Creation.priority (c : Creation) (defaultPriority : ℕ) : ℕ :=
  if c.isDeprioritized then defaultPriority
  else match c.payload.priority.join with
    | none => 1
    | some v => v.toNat

/-- `_prepare_rule_data`, in the transaction: the table with the other rules moved, and the rule. -/
def prepareRuleData (E : Env) (c : Creation) (employee : Employee) (t : Rules) :
    Except Failure (Rules × StoredRule × Employee) := do
  let name ← orFail (c.payload.name.join.filter fun n => n ≠ []) (notProvided "name")
  checkNameAlreadyExist E t name c.organizationId
  let ownerId ← orFail c.payload.ownerId.join (notProvided "owner_id")
  let owner ← ownerOf E c.organizationId ownerId
  let poolId ← orFail c.payload.poolId.join (notProvided "pool_id")
  let poolId ← poolOf E c.organizationId poolId
  let conditions ← orFail (c.payload.conditions.join.filter fun cs => cs ≠ []) (notProvided "conditions")
  let allRules := PriorityMixin.allItems ruleModel t c.organizationId
  let defaultPriority := allRules.length + 1
  let id := E.genId.next (t.rows.map StoredRule.id)
  let priority := c.priority defaultPriority
  let updates ← PriorityMixin.setPriority "Rule" (allRules ++ [⟨id, defaultPriority⟩]) id priority
  let t' ← PriorityMixin.updateAll ruleModel t updates
  let conditions ← prepareConditions E.genId (conditionIds t) conditions
  pure (t', {
    id
    name
    priority
    creatorId := employee.id
    organizationId := c.organizationId
    poolId
    ownerId
    conditions
    active := c.payload.active.join.getD true
    operator := (c.payload.operator.join.bind operatorOfValue).getD .AND }, owner)

/-- The new rule is stored: its priority is its own. -/
def insertRule (t : Rules) (rule : StoredRule) : Except Failure (StoredRule × Rules) := do
  require (∀ r ∈ t.rows, r.deletedAt = rule.deletedAt → r.organizationId = rule.organizationId →
    r.priority ≠ rule.priority) (.python "RetriableException")
  if h : rule.id ∈ t.rows.map StoredRule.id then .error (.python "RetriableException")
  else .ok (rule, t.add rule h)

/-- `create_rule` -/
def createRule (L : Reading) (E : Env) (c : Creation) : Session Rules Failure StoredRule := do
  Session.read fun _ => validateParameters L.loads c.payload
  let employee ← Session.read fun _ =>
    orFail (E.employeeByUser c.userId c.organizationId) (.forbidden .OE0378 [])
  let rule ← Session.commit fun t => do
    let prepared ← prepareRuleData E c employee t
    checkOwner E prepared.2.2 prepared.2.1.poolId
    -- the column takes no null
    require (c.payload.operator ≠ some none) (.python "RetriableException")
    insertRule prepared.1 prepared.2.1
  Session.read fun _ => E.publish "rule_created"
  pure rule

/-! ## `edit_rule` -/

/-- The arguments of `edit_rule`, without those it ignores. -/
structure Edit where
  itemId : Uuid
  payload : RulePayload

/-- The name of an edited rule. -/
def editedName (E : Env) (t : Rules) (original : StoredRule) (p : RulePayload) :
    Except Failure Text :=
  match p.name with
  | none => .ok original.name
  | some name => do
    let name ← orFail name (notProvided "name")
    if name = original.name then .ok name
    else do
      checkNameAlreadyExist E t name original.organizationId
      .ok name

/-- The owner of an edited rule, looked up whether it is given or not. -/
def editedOwner (E : Env) (original : StoredRule) (p : RulePayload) :
    Except Failure (Uuid × Option Employee) :=
  match p.ownerId with
  | none => .ok (original.ownerId, E.employee original.ownerId original.organizationId)
  | some ownerId => do
    let ownerId ← orFail ownerId (notProvided "owner_id")
    let owner ← ownerOf E original.organizationId ownerId
    .ok (ownerId, some owner)

/-- The pool of an edited rule. -/
def editedPool (E : Env) (original : StoredRule) (p : RulePayload) : Except Failure Uuid :=
  match p.poolId with
  | none => .ok original.poolId
  | some poolId => do
    let poolId ← orFail poolId (notProvided "pool_id")
    poolOf E original.organizationId poolId

/-- The fields of an edited rule that do not concern other rules, and its owner if that is live. -/
def editedFields (E : Env) (t : Rules) (original : StoredRule) (p : RulePayload) :
    Except Failure (StoredRule × Option Employee) := do
  let name ← editedName E t original p
  let active ← (match p.active with
    | none => .ok original.active
    | some active => orFail active (notProvided "active") : Except Failure Bool)
  let operator := (p.operator.join.bind operatorOfValue).getD original.operator
  let owner ← editedOwner E original p
  let poolId ← editedPool E original p
  pure ({ original with name, active, operator, ownerId := owner.1, poolId }, owner.2)

/-- The rules moved for the new priority of an edited one. -/
def editedPriority (t : Rules) (original : StoredRule) (p : RulePayload) : Except Failure Rules :=
  match p.priority.join with
  | none => .ok t
  | some v =>
    if v = original.priority then .ok t
    else do
      let allRules := PriorityMixin.allItems ruleModel t original.organizationId
      let updates ← PriorityMixin.setPriority "Rule" allRules original.id v.toNat
      PriorityMixin.updateAll ruleModel t updates

/-- `_process_rule_fields_update` -/
def processRuleFieldsUpdate (E : Env) (t : Rules) (original : StoredRule) (p : RulePayload) :
    Except Failure (Rules × StoredRule) := do
  let edited ← editedFields E t original p
  let t' ← editedPriority t original p
  let _ ← orFail (E.pool edited.1.poolId) (.python "AttributeError")
  let owner ← orFail edited.2 (.python "AttributeError")
  checkOwner E owner edited.1.poolId
  pure (t', edited.1)

/-- The conditions of an edited rule. -/
def editedConditions (E : Env) (t : Rules) (original : StoredRule) (p : RulePayload) :
    Except Failure (List StoredCondition) :=
  match p.conditions with
  | none => .ok original.conditions
  | some conditions =>
    processConditionsUpdate E.genId E.now (conditionIds t) original.conditions (conditions.getD [])

/-- The edited columns of a rule; its priority is that of the table. -/
def overwrite (edited : StoredRule) (r : StoredRule) : StoredRule :=
  { r with
    name := edited.name
    active := edited.active
    operator := edited.operator
    ownerId := edited.ownerId
    poolId := edited.poolId
    conditions := edited.conditions }

/-- The edit in its transaction. -/
def storeEdit (E : Env) (e : Edit) (rule : StoredRule) (t : Rules) :
    Except Failure (StoredRule × Rules) := do
  let updated ← processRuleFieldsUpdate E t rule e.payload
  let conditions ← editedConditions E t rule e.payload
  let edited := { updated.2 with conditions }
  pure (edited, updated.1.updateWhere (fun r => r.id = rule.id) (overwrite edited) fun _ => rfl)

/-- `edit_rule` -/
def editRule (L : Reading) (E : Env) (e : Edit) : Session Rules Failure StoredRule := do
  let rule ← Session.read fun t => get t e.itemId
  Session.read fun _ => validateParameters L.loads e.payload
  let edited ← Session.commit (storeEdit E e rule)
  Session.read fun _ => E.publish "rule_updated"
  pure edited

/-! ## `update_priority` and `delete` -/

/-- `update_priority` -/
def updatePriority (ruleId : Uuid) (action : Option String) : Session Rules Failure StoredRule := do
  let rule ← Session.read fun t => get t ruleId
  Session.commit fun t => do
    let allRules := PriorityMixin.allItems ruleModel t rule.organizationId
    let updates ← PriorityMixin.changePriority "Rule" action ⟨rule.id, rule.priority⟩ allRules
    let t' ← PriorityMixin.updateAll ruleModel t updates
    pure (rule, t')

/-- The rule and its conditions deleted. -/
def markDeleted (now : ℕ) (r : StoredRule) : StoredRule :=
  { r with
    conditions := r.conditions.map fun c => if c.Deleted then c else { c with deletedAt := now }
    deletedAt := now }

/-- The deletion of a rule in its transaction: it becomes the last one first. -/
def storeDeletion (E : Env) (rule : StoredRule) (t : Rules) : Except Failure (StoredRule × Rules) := do
  let allRules := PriorityMixin.allItems ruleModel t rule.organizationId
  let t' ← (if rule.priority = allRules.length then .ok t
    else do
      let updates ← PriorityMixin.setPriority "Rule" allRules rule.id allRules.length
      PriorityMixin.updateAll ruleModel t updates : Except Failure Rules)
  require (∀ r ∈ t'.rows, r.deletedAt = E.now → r.organizationId = rule.organizationId →
    r.priority ≠ allRules.length ∧ E.collation.equal r.name rule.name = false)
    (.python "RetriableException")
  pure (rule, t'.updateWhere (fun r => r.id = rule.id) (markDeleted E.now) fun _ => rfl)

/-- `delete` -/
def delete (E : Env) (itemId : Uuid) : Session Rules Failure StoredRule := do
  let rule ← Session.read fun t => get t itemId
  let _ ← Session.commit (storeDeletion E rule)
  Session.read fun _ => E.publish "rule_deleted"
  pure rule

/-! ## Runs -/

/-- A call of the controller. -/
inductive Call
  | create (c : Creation)
  | edit (e : Edit)
  | updatePriority (ruleId : Uuid) (action : Option String)
  | delete (itemId : Uuid)

/-- The call, in its surroundings. -/
def Call.run (L : Reading) (E : Env) : Call → Session Rules Failure StoredRule
  | .create c => createRule L E c
  | .edit e => editRule L E e
  | .updatePriority ruleId action => OrganizationRules.updatePriority ruleId action
  | .delete itemId => OrganizationRules.delete E itemId

/-- The table after a call that succeeds. -/
def step (L : Reading) (t : Rules) (c : Env × Call) : Option Rules :=
  match c.2.run L c.1 t with
  | (.ok _, t') => some t'
  | (.error _, _) => none

end OrganizationRules
