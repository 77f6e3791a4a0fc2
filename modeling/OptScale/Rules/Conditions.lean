import OptScale.Rest.Priority
import OptScale.Rest.Services

/-!
# Rules/Conditions — the conditions of a rule, as they are validated, stored and matched

A condition is a type and its `meta_info`.  A request names the stored conditions it changes by their
ids; what it leaves out of such a condition stays as it is, what it does not name is deleted softly.
`RuleWrapper` builds the conditions that are left and matches resources against them.
-/

open Fallible

/-- What `json.loads` gives. -/
inductive JsonValue
  | null
  | bool (b : Bool)
  | num (n : ℚ)
  | str (s : Text)
  | arr (xs : List JsonValue)
  | obj (members : List (Text × JsonValue))

namespace JsonValue

/-- `not value` -/
def falsy : JsonValue → Bool
  | null => true
  | bool b => !b
  | num n => n = 0
  | str s => s.isEmpty
  | arr xs => xs.isEmpty
  | obj members => members.isEmpty

/-- `value.get(key)`, on a dictionary; of a key that comes twice the last value counts. -/
def get (members : List (Text × JsonValue)) (key : Text) : JsonValue :=
  ((members.reverse.find? fun m => m.1 = key).map Prod.snd).getD null

/-- The value may be the key of a dictionary. -/
def hashable : JsonValue → Bool
  | arr _ => false
  | obj _ => false
  | _ => true

end JsonValue

/-- The values of `ConditionTypes`. -/
def ConditionType.value : ConditionType → String
  | NAME_IS => "name_is"
  | NAME_STARTS_WITH => "name_starts_with"
  | NAME_ENDS_WITH => "name_ends_with"
  | NAME_CONTAINS => "name_contains"
  | RESOURCE_TYPE_IS => "resource_type_is"
  | CLOUD_IS => "cloud_is"
  | TAG_IS => "tag_is"
  | REGION_IS => "region_is"
  | TAG_EXISTS => "tag_exists"
  | TAG_VALUE_STARTS_WITH => "tag_value_starts_with"

namespace RuleConditions

/-- `ConditionTypes(value)` -/
def ofValue : String → Option ConditionType
  | "name_is" => some .NAME_IS
  | "name_starts_with" => some .NAME_STARTS_WITH
  | "name_ends_with" => some .NAME_ENDS_WITH
  | "name_contains" => some .NAME_CONTAINS
  | "resource_type_is" => some .RESOURCE_TYPE_IS
  | "cloud_is" => some .CLOUD_IS
  | "tag_is" => some .TAG_IS
  | "region_is" => some .REGION_IS
  | "tag_exists" => some .TAG_EXISTS
  | "tag_value_starts_with" => some .TAG_VALUE_STARTS_WITH
  | _ => none

/-- `ConditionTypes.complex_types` -/
def complexTypes : List ConditionType := [.TAG_IS, .TAG_VALUE_STARTS_WITH]

/-! ## Requests -/

/-- A condition of a request: each attribute may be left out, or be null. -/
structure ConditionPayload where
  id : Option (Option Uuid) := none
  type : Option (Option String) := none
  metaInfo : Option (Option Text) := none
  /-- The other attributes. -/
  unexpected : List String := []
  deriving DecidableEq, Repr

/-- The dictionary is empty. -/
def ConditionPayload.isEmpty (c : ConditionPayload) : Bool :=
  c.id.isNone && c.type.isNone && c.metaInfo.isNone && c.unexpected.isEmpty

variable (loads : Text → Option JsonValue)

/-- `check_string_attribute`, on what a dictionary of `json.loads` holds. -/
def checkString (name : String) : JsonValue → Except Failure Unit
  | .null => .error (notProvided name)
  | .str s => Text.checkStringAttribute name s
  | _ => .error (.wrongArguments .OE0214 [name])

/-- `_validate_tags_meta_info` -/
def validateTagsMetaInfo (metaInfo : Text) : Except Failure Unit := do
  let value ← orFail (loads metaInfo) (.wrongArguments .OE0219 ["meta_info"])
  require (¬ value.falsy) (notProvided "")
  match value with
  | .obj members => do
    checkString "key" (JsonValue.get members "key".toList)
    checkString "value" (JsonValue.get members "value".toList)
    require (∀ m ∈ members, m.1 = "key".toList ∨ m.1 = "value".toList) (.wrongArguments .OE0212
      ((members.map fun m => String.ofList m.1).filter fun k => k ≠ "key" ∧ k ≠ "value"))
  | _ => .error (.wrongArguments .OE0344 [""])

/-- `_validate_conditions_data`, for one condition; an id is a string that is not blank. -/
def validateConditionData (c : ConditionPayload) : Except Failure Unit := do
  require (¬ c.isEmpty) (notProvided "condition")
  let type ← (match c.type.join with
    | none => .ok none
    | some value => do
      let type ← orFail (ofValue value) (.wrongArguments .OE0430 [value])
      .ok (some type) : Except Failure (Option ConditionType))
  let _ ← (match c.metaInfo.join with
    | none => .ok ()
    | some metaInfo => do
      Text.checkStringAttribute "meta_info" metaInfo
      if ∃ t ∈ type, t ∈ complexTypes then validateTagsMetaInfo loads metaInfo else .ok ()
    : Except Failure Unit)
  require (c.unexpected = []) (.wrongArguments .OE0212 c.unexpected)

/-! ## Stored conditions -/

/-- A row of `condition`. -/
structure StoredCondition where
  id : Uuid
  type : ConditionType
  metaInfo : Option Text
  deletedAt : ℕ := 0
  deriving DecidableEq, Repr

/-- `deleted` -/
abbrev StoredCondition.Deleted (c : StoredCondition) : Prop := c.deletedAt ≠ 0

/-- `_prepare_conditions`, for one condition; its id is given when it is stored. -/
def prepareCondition (id : Uuid) (c : ConditionPayload) : Except Failure StoredCondition := do
  let value ← orFail (c.type.join.filter fun v => v ≠ "") (notProvided "type")
  let type ← orFail (ofValue value) (.python "ValueError")
  let metaInfo ← orFail c.metaInfo (notProvided "meta_info")
  require (metaInfo ≠ none ∨ type = .REGION_IS) (notProvided "meta_info")
  pure { id, type, metaInfo }

/-- `_prepare_conditions`, beside the conditions there are. -/
def prepareConditions (genId : IdSource) : List Uuid → List ConditionPayload →
    Except Failure (List StoredCondition)
  | _, [] => .ok []
  | used, c :: cs => do
    let condition ← prepareCondition (genId.next used) c
    let rest ← prepareConditions genId (condition.id :: used) cs
    pure (condition :: rest)

/-- `updated_conditions_map`: of two conditions with one id the last counts. -/
def updatedConditionsMap (conditions : List ConditionPayload) (id : Uuid) :
    Option ConditionPayload :=
  conditions.reverse.find? fun c => c.id = some (some id)

/-- `_process_conditions_update`, for one stored condition. -/
def updateCondition (now : ℕ) (conditions : List ConditionPayload) (c : StoredCondition) :
    Except Failure StoredCondition :=
  match updatedConditionsMap conditions c.id with
  | none => .ok { c with deletedAt := now }
  | some u => do
    let type ← (match u.type with
      | none => .ok c.type
      | some value => orFail (value.bind ofValue)
          (.wrongArguments .OE0430 [value.getD "None"]) : Except Failure ConditionType)
    let metaInfo ← (match u.metaInfo with
      | none => .ok c.metaInfo
      | some metaInfo => do
        require (metaInfo ≠ none ∨ type = .REGION_IS) (notProvided "meta_info")
        .ok metaInfo : Except Failure (Option Text))
    pure { c with type, metaInfo }

/-- `_process_conditions_update` -/
def processConditionsUpdate (genId : IdSource) (now : ℕ) (used : List Uuid)
    (original : List StoredCondition) (conditions : List ConditionPayload) :
    Except Failure (List StoredCondition) := do
  let updated ← original.mapM (updateCondition now conditions)
  let new ← prepareConditions genId used (conditions.filter fun c => c.id = none)
  pure (updated ++ new)

/-! ## Matching -/

/-- What conditions look at in a resource. -/
structure ResInfo where
  name : Option Text := none
  cloudResourceId : Option Text := none
  resourceType : Option Text := none
  cloudAccountId : Option Text := none
  region : Option Text := none
  tags : List (Text × Text) := []
  deriving DecidableEq, Repr

/-- A condition as `RuleWrapper` builds it. -/
inductive BuiltCondition
  /-- The subclasses of `NameBasedCondition`, by `check_condition`. -/
  | name (checkCondition : Text → Bool)
  | tagIs (key value : JsonValue)
  | tagExists (metaInfo : Option Text)
  | tagValueStartsWith (key value : JsonValue)
  | resourceTypeIs (metaInfo : Option Text)
  | cloudIs (metaInfo : Option Text)
  | regionIs (metaInfo : Option Text)

/-- `str.lower` and `json.loads`. -/
structure Reading where
  lower : Text → Text
  loads : Text → Option JsonValue

variable (L : Reading)

/-- `self.meta.lower()` -/
def formattedName (metaInfo : Option Text) : Except Failure Text := do
  let metaInfo ← orFail metaInfo (.python "AttributeError")
  pure (L.lower metaInfo)

/-- `TagIsCondition.convert_meta` -/
def convertMeta (metaInfo : Option Text) : Except Failure (JsonValue × JsonValue) := do
  let metaInfo ← orFail metaInfo (.python "TypeError")
  let value ← orFail (L.loads metaInfo) (.python "JSONDecodeError")
  match value with
  | .obj members => do
    let key := JsonValue.get members "key".toList
    require key.hashable (.python "TypeError")
    pure (key, JsonValue.get members "value".toList)
  | _ => .error (.python "AttributeError")

/-- `CONDITIONS_MAP.get(cond.type)(cond)` -/
def build (type : ConditionType) (metaInfo : Option Text) : Except Failure BuiltCondition :=
  match type with
  | .NAME_IS => do
    let m ← formattedName L metaInfo
    pure (.name fun n => n = m)
  | .NAME_STARTS_WITH => do
    let m ← formattedName L metaInfo
    pure (.name fun n => m.isPrefixOf n)
  | .NAME_ENDS_WITH => do
    let m ← formattedName L metaInfo
    pure (.name fun n => m.isSuffixOf n)
  | .NAME_CONTAINS => do
    let m ← formattedName L metaInfo
    pure (.name fun n => n.tails.any fun rest => m.isPrefixOf rest)
  | .TAG_IS => do
    let m ← convertMeta L metaInfo
    pure (.tagIs m.1 m.2)
  | .TAG_VALUE_STARTS_WITH => do
    let m ← convertMeta L metaInfo
    pure (.tagValueStartsWith m.1 m.2)
  | .TAG_EXISTS => .ok (.tagExists metaInfo)
  | .RESOURCE_TYPE_IS => .ok (.resourceTypeIs metaInfo)
  | .CLOUD_IS => .ok (.cloudIs metaInfo)
  | .REGION_IS => .ok (.regionIs metaInfo)

/-- `tags.get(name, '')`: only a string is the key of a tag. -/
def tagValue (tags : List (Text × Text)) : JsonValue → Text
  | .str name => (tags.lookup name).getD []
  | _ => []

/-- A text of the resource that is there and not empty, compared with `meta_info`. -/
def sameText (given : Option Text) (metaInfo : Option Text) : Bool :=
  (given.filter fun s => s ≠ []).isSome && given = metaInfo

/-- `match`, of the condition classes. -/
def BuiltCondition.matches (res : ResInfo) : BuiltCondition → Except Failure Bool
  | .name checkCondition => .ok ([res.name, res.cloudResourceId].any fun n =>
      (n.filter fun s => s ≠ []).any fun s => checkCondition (L.lower s))
  | .tagIs key value => .ok (match key, value with
      | .str k, .str v => res.tags.lookup k = some v
      | _, _ => false)
  | .tagExists metaInfo => .ok (metaInfo.any fun m => (res.tags.lookup m).isSome)
  | .tagValueStartsWith key value =>
    if res.tags = [] then .ok false
    else match value with
      | .str v => .ok (v.isPrefixOf (tagValue res.tags key))
      | _ => .error (.python "TypeError")
  | .resourceTypeIs metaInfo => .ok (sameText res.resourceType metaInfo)
  | .cloudIs metaInfo => .ok (sameText res.cloudAccountId metaInfo)
  | .regionIs metaInfo => .ok (res.region = metaInfo)

/-- `RuleWrapper.__init__`: the conditions that are not deleted. -/
def convertedConditions (conditions : List StoredCondition) : Except Failure (List BuiltCondition) :=
  (conditions.filter fun c => ¬ c.Deleted).mapM fun c => build L c.type c.metaInfo

/-- `RuleWrapper.match` -/
def matchAll (operator : RuleOperator) (res : ResInfo) :
    List BuiltCondition → Except Failure Bool
  | [] => .ok (operator = .AND)
  | condition :: rest => do
    let condMatch ← condition.matches L res
    if ¬ condMatch ∧ operator = .AND then .ok false
    else if condMatch ∧ operator = .OR then .ok true
    else matchAll operator res rest

end RuleConditions
