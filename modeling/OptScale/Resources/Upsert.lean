import OptScale.Foundations.Dict
import OptScale.Resources.SaveBulk

/-!
# Resources/Upsert — the update document of one incoming resource

With `skip_existing` and `update_existing` each incoming resource becomes one upsert.  Its fields go through two
dictionaries, what changes and what does not, and from there into `$min`, `$max`, `$set` and `$setOnInsert`.
-/

open Fallible

namespace ResourceUpsert

/-! ## Documents -/

/-- A value within `meta`. -/
inductive MetaValue
  | null
  | bool (b : Bool)
  | int (n : ℤ)
  | str (s : String)
  deriving DecidableEq

/-- A value of a field. -/
inductive FieldValue
  | null
  | bool (b : Bool)
  | int (n : ℤ)
  | str (s : String)
  /-- The start of a day. -/
  | day (n : ℤ)
  | tags (t : Tags)
  | dict (d : Dict String MetaValue)
  /-- `applied_rules`, by the ids. -/
  | rules (ids : List Uuid)
  deriving DecidableEq

/-- A document: its fields. -/
abbrev Document := Dict String FieldValue

/-- The value counts as true. -/
def MetaValue.truthy : MetaValue → Bool
  | null => false
  | bool b => b
  | int n => n ≠ 0
  | str s => s ≠ ""

/-- The value counts as true. -/
def FieldValue.truthy : FieldValue → Bool
  | null => false
  | bool b => b
  | int n => n ≠ 0
  | str s => s ≠ ""
  | day _ => true
  | tags t => t ≠ []
  | dict d => d ≠ ∅
  | rules ids => ids ≠ []

/-- `value or {}`, of a dictionary. -/
def FieldValue.asDict : FieldValue → Dict String MetaValue
  | dict d => d
  | _ => ∅

/-- `value or {}`, of tags. -/
def FieldValue.asTags : FieldValue → Tags
  | tags t => t
  | _ => []

/-- `document.get(field)` -/
def get (d : Document) (field : String) : FieldValue := (d.lookup field).getD .null

/-- What a bulk write is made with, of one organization. -/
structure Context where
  encoding : Encoding
  cloudAccountId : String
  /-- The `_id` of the new document. -/
  newId : String
  now : ℕ
  /-- The fields of the model of a resource type. -/
  metaFields : FieldValue → List String
  allowedPools : String → List String
  /-- `apply_rules`: owner, pool and the rules applied. -/
  applyRules : Document → Except Failure (Option (FieldValue × FieldValue × FieldValue))
  /-- The default owner and the id of the root pool. -/
  rootPool : Option (FieldValue × FieldValue)

variable (C : Context)

/-! ## `check_restrictions` -/

/-- `get_validation_parameters` -/
def requiredFields : List String := ["resource_type", "cloud_account_id"]

def immutableParams : List String :=
  ["created_at", "deleted_at", "id", "_id", "resource_id", "pool_name", "pool_purpose", "owner_name",
    "is_environment"]

def optionalParams : List String :=
  ["name", "region", "pool_id", "meta", "tags", "first_seen", "last_seen", "created_by_kind", "created_by_name",
    "k8s_namespace", "k8s_node", "k8s_service", "cloud_created_at", "shareable", "env_properties", "service_name",
    "active", "cloud_resource_id", "cloud_resource_hash", "owner_id", "employee_id", "power_schedule"]

/-- `check_string_attribute` -/
def checkStringAttribute (field : String) (maxLen : ℕ) : FieldValue → Except Failure Unit
  | .null => .error (notProvided field)
  | .str s => CloudResourceController.checkString field maxLen (some s)
  | _ => .error (.wrongArguments .OE0214 [field])

/-- The check of one optional field, whose value is not null. -/
def checkOptional (field : String) (value : FieldValue) : Except Failure Unit :=
  if field ∈ ["meta", "tags", "env_properties"] then
    match value with
    | .dict _ | .tags _ => .ok ()
    | v => require (v.truthy = false) (.wrongArguments .OE0344 [field])
  else if field ∈ ["first_seen", "last_seen", "cloud_created_at"] then
    match value with
    | .int n => do
      let _ ← checkIntAttribute field (some n)
      pure ()
    | _ => .error (.wrongArguments .OE0223 [field])
  else if field ∈ ["is_environment", "active", "ssh_only", "shareable"] then
    match value with
    | .bool b => require (field = "shareable" → b = false) (.wrongArguments .OE0479 [field])
    | _ => .error (.wrongArguments .OE0226 [field])
  else if field ∈ ["name", "cloud_resource_id"] then checkStringAttribute field 512 value
  else checkStringAttribute field 255 value

/-- `check_restrictions`, of a new resource. -/
def checkRestrictions (d : Document) : Except Failure Unit := do
  requiredFields.forM fun field => checkStringAttribute field 255 (get d field)
  optionalParams.forM fun field => if get d field = .null then pure () else checkOptional field (get d field)
  require (∀ field ∈ immutableParams, d.lookup field = none)
    (.wrongArguments .OE0211 [(immutableParams.find? fun field => d.lookup field ≠ none).getD ""])
  require (∀ field ∈ d.keys, field ∈ requiredFields ++ immutableParams ++ optionalParams)
    (.wrongArguments .OE0212 (d.keys.filter fun field => field ∉ requiredFields ++ immutableParams ++ optionalParams))
  let expected := C.metaFields (get d "resource_type")
  require (expected = [] ∨ ∀ key ∈ (get d "meta").asDict.keys, key ∈ expected)
    (.wrongArguments .OE0212 ((get d "meta").asDict.keys.filter (· ∉ expected)))

/-! ## From the payload to the resource -/

/-- `resource['cloud_account_id']`, put there if there is none. -/
def withAccount (d : Document) : Document :=
  if (get d "cloud_account_id").truthy then d else d.set "cloud_account_id" (.str C.cloudAccountId)

/-- `extend_payload` -/
def extendPayload (d : Document) : Document :=
  ((d.set "_id" (.str C.newId)).set "created_at" (.int C.now)).set "deleted_at" (.int 0)

/-- The resource in its cluster, with the cluster's assignment. -/
def joinCluster (cluster d : Document) : Document :=
  (((d.set "cluster_id" (get cluster "_id")).set "pool_id" (get cluster "pool_id")).set "employee_id"
    (get cluster "employee_id")).set "applied_rules" ((cluster.lookup "applied_rules").getD (.rules []))

/-- The pool is one of the employee's. -/
def permitted : FieldValue → FieldValue → Bool
  | .str employeeId, .str poolId => employeeId ≠ "" && poolId ≠ "" && poolId ∈ C.allowedPools employeeId
  | _, _ => false

/-- `handle_assignment_data` -/
def handleAssignmentData (d : Document) : Except Failure Document :=
  let employeeId := (d.lookup "employee_id").getD (get d "owner_id")
  let poolId := get d "pool_id"
  let bare := ((d.popped "employee_id").popped "owner_id").popped "pool_id"
  if permitted C employeeId poolId then .ok ((bare.set "employee_id" employeeId).set "pool_id" poolId)
  else do
    let decision ← C.applyRules bare
    match decision with
    | some (employeeId, poolId, appliedRules) =>
      pure (((bare.set "employee_id" employeeId).set "pool_id" poolId).set "applied_rules" appliedRules)
    | none => do
      let rootPool ← orFail C.rootPool (.python "AttributeError")
      pure (((bare.set "employee_id" rootPool.1).set "pool_id" rootPool.2).popped "applied_rules")

/-- The resource with its assignment: what `_save_bulk` makes of a payload before its fields are split. -/
def assignedResource (cluster : Option Document) (p : Document) : Except Failure Document := do
  -- environment properties are for new environments, which are inserted
  require (get p "env_properties" = .null) (.wrongArguments .OE0212 ["env_properties"])
  require (¬ (get p "cloud_resource_id" = .null ∧ get p "cloud_resource_hash" = .null))
    (.wrongArguments .OE0517 ["cloud_resource_id", "cloud_resource_hash"])
  checkRestrictions C (withAccount C p)
  let resource := extendPayload C (withAccount C p)
  match cluster with
  | some cluster => pure (joinCluster cluster resource)
  | none => handleAssignmentData C resource

/-! ## The status dates -/

/-- `_set_resource_date` -/
def setResourceDate (dateField : String) (dbMeta resMeta : Dict String MetaValue) (status : Bool) :
    Dict String MetaValue :=
  resMeta.set dateField (if status then .int C.now else (dbMeta.lookup dateField).getD (.int 0))

/-- `_set_instance_status_date_fields` -/
def setInstanceStatus (dbMeta resMeta : Dict String MetaValue) : Dict String MetaValue :=
  match resMeta.lookup "stopped_allocated" with
  | some (.null) | none =>
    let status := (dbMeta.lookup "stopped_allocated").getD (.bool false)
    setResourceDate C "last_seen_not_stopped" dbMeta (resMeta.set "stopped_allocated" status) false
  | some status => setResourceDate C "last_seen_not_stopped" dbMeta resMeta (!status.truthy)

/-- `_set_volume_status_date_fields` -/
def setVolumeStatus (dbMeta resMeta : Dict String MetaValue) : Dict String MetaValue :=
  setResourceDate C "last_attached" dbMeta resMeta ((resMeta.lookup "attached").any MetaValue.truthy)

/-- `_set_ip_address_updated_fields` -/
def setIpAddressUpdated (dbMeta resMeta : Dict String MetaValue) : Dict String MetaValue :=
  let status := ((resMeta.lookup "available").filter (· ≠ .null)).or (dbMeta.lookup "available") |>.filter (· ≠ .null)
  let filled := if (resMeta.lookup "available").any MetaValue.truthy then resMeta
    else resMeta.set "available" (status.getD (.bool false))
  setResourceDate C "last_used" dbMeta filled (!(filled.lookup "available").any MetaValue.truthy)

/-- `set_status_func`, of the type of the resource. -/
def setStatus (resource db : Document) : Except Failure Document :=
  let dbMeta := (get db "meta").asDict
  let resMeta := (get resource "meta").asDict
  match get resource "resource_type" with
  | .str "Instance" => .ok (resource.set "meta" (.dict (setInstanceStatus C dbMeta resMeta)))
  | .str "Volume" => do
    -- the meta of a volume is read without a check
    require (resource.lookup "meta" ≠ some .null) (.python "AttributeError")
    pure (resource.set "meta" (.dict (setVolumeStatus C dbMeta resMeta)))
  | .str "IP Address" => .ok (resource.set "meta" (.dict (setIpAddressUpdated C dbMeta resMeta)))
  | _ => .ok resource

/-! ## `split_changes` -/

/-- `get_split_fields` -/
def splitFields : List String :=
  ["cloud_account_id", "cloud_resource_id", "pool_id", "employee_id", "created_at", "deleted_at", "_id",
    "applied_rules", "cluster_id", "cluster_type_id", "organization_id", "is_environment", "cloud_resource_hash"]

/-- `updatable_meta_keys` -/
def updatableMetaKeys : List String :=
  ["os", "preinstalled", "cpu_count", "flavor", "payment_option", "offering_type", "purchase_term", "applied_region",
    "start", "end", "sku", "clusterNodeType", "clusterOwnerUserId", "clusterOwnerUserName", "workspaceId", "zone",
    "platform", "instance_type"]

/-- One service field: popped, and changed where it is something new. -/
def takeService (db : Document) (field : String) (default : FieldValue) (s : Document × Document) :
    Document × Document :=
  let value := (s.2.lookup field).getD default
  (if value.truthy ∧ value ≠ get db field then s.1.set field value else s.1, s.2.popped field)

/-- `timestamp_to_day_start` -/
def dayStart : FieldValue → Except Failure FieldValue
  | .int n => .ok (.day (n - n % 86400))
  | _ => .error (.python "TypeError")

/-- The day of a date that has changed. -/
def setDay (field : String) (changed : Document) : Except Failure Document :=
  match changed.lookup field with
  | none => .ok changed
  | some v => do
    let day ← dayStart v
    pure (changed.set ("_" ++ field ++ "_date") day)

/-- The stored meta with what comes in; all of it goes in with `update_existing`, else only some keys. -/
def mergeMeta (behavior : Behavior) (dbMeta resMeta : Dict String MetaValue) : Dict String MetaValue :=
  let given := Dict.collect (fun _ v => if v = .null then none else some v) resMeta ∅
  let updated := Dict.collect
    (fun key v => if key ∈ updatableMetaKeys ∧ v.truthy then some v else none) given dbMeta
  let others := Dict.collect (fun key v => if key ∈ updatableMetaKeys then none else some v) given ∅
  if behavior = .skip_existing then updated else updated.update others

/-- With `update_existing`: the fields that do not change. -/
def unchangedField (db : Document) (field : String) (value : FieldValue) : Option FieldValue :=
  if field = "cloud_resource_id" ∨ field = "cloud_resource_hash" then none
  else if field ∈ splitFields ∧ field ≠ "meta" ∨ value = get db field then
    some (if db = ∅ then value else get db field)
  else none

/-- With `update_existing`: the fields that change. -/
def changedField (db : Document) (field : String) (value : FieldValue) : Option FieldValue :=
  if field = "cloud_resource_id" ∨ field = "cloud_resource_hash" then none
  else if field ∈ splitFields ∧ field ≠ "meta" ∨ value = get db field then none
  else if field ≠ "meta" then some value
  else none

/-- `d[field] = value`, if the value counts as true. -/
def setTruthy (d : Document) (field : String) (value : FieldValue) : Document :=
  if value.truthy then d.set field value else d

/-- With `update_existing`: the ids are among what changes, or among what does not. -/
def splitIds (resource db : Document) (s : Document × Document) : Document × Document :=
  let dbResId := get db "cloud_resource_id"
  let dbHash := get db "cloud_resource_hash"
  let resId := get resource "cloud_resource_id"
  let hash := get resource "cloud_resource_hash"
  if dbResId.truthy = false ∧ dbHash.truthy = false ∨ resId = dbResId ∧ hash = dbHash then
    (s.1, setTruthy (setTruthy s.2 "cloud_resource_id" resId) "cloud_resource_hash" hash)
  else if resId = dbResId then
    (setTruthy s.1 "cloud_resource_hash" hash, s.2.set "cloud_resource_id" resId)
  else if hash = dbHash then
    (setTruthy s.1 "cloud_resource_id" resId, s.2.set "cloud_resource_hash" hash)
  else s

/-- What changes and what does not, of the fields that are left once the dates, the tags and the meta are taken. -/
def divide (behavior : Behavior) (db changed rest : Document) : Document × Document :=
  match behavior with
  | .update_existing =>
    splitIds rest db (Dict.collect (changedField db) rest changed, Dict.collect (unchangedField db) rest ∅)
  | .error_existing => (changed, rest.update changed)
  | .skip_existing => (changed, rest)

/-- `split_changes`: what changes, and what does not. -/
def splitChanges (resource db : Document) (behavior : Behavior) (isReportImport : Bool) :
    Except Failure (Document × Document) := do
  let createdAt := get resource "created_at"
  let taken := takeService db "last_seen" ((db.lookup "last_seen").getD createdAt)
    (takeService db "first_seen" ((db.lookup "first_seen").getD createdAt)
      (takeService db "service_name" .null (∅, resource)))
  let dated ← setDay "first_seen" taken.1
  let dated ← setDay "last_seen" dated
  let tags := (get taken.2 "tags").asTags
  let dbMeta := mergeMeta behavior (get db "meta").asDict (get taken.2 "meta").asDict
  let rest := (taken.2.popped "tags").popped "meta"
  -- the meta is popped of the stored resource, too
  let db := db.popped "meta"
  let changed := if dbMeta = ∅ then dated else dated.set "meta" (.dict dbMeta)
  let split := divide behavior db changed rest
  let tags := FieldValue.tags
    (Tags.updateEncodedTags C.encoding (get db "tags").asTags tags isReportImport)
  pure (if db = ∅ then (split.1, split.2.set "tags" tags) else (split.1.set "tags" tags, split.2))

/-! ## The operators -/

/-- The update document: an operator without fields is left out. -/
structure OpDetails where
  set : Document
  setOnInsert : Document
  min : Document
  max : Document

/-- `op_details[op].update({field: val})`, of what is popped from the update. -/
def takeField (update d : Document) (field : String) : Document :=
  match (update.lookup field).filter (· ≠ .null) with
  | some v => d.set field v
  | none => d

/-- The fields of one operator. -/
def takeFields (fields : List String) (update : Document) : Document := fields.foldl (takeField update) ∅

/-- The operators of an update and an insertion. -/
def opDetails (update insertion : Document) : OpDetails where
  set := ((update.popped "first_seen").popped "last_seen").popped "_first_seen_date" |>.popped "_last_seen_date"
  setOnInsert := insertion
  min := takeFields ["first_seen", "_first_seen_date"] update
  max := takeFields ["last_seen", "_last_seen_date"] update

/-- The update document of one payload, as `_save_bulk` builds it; `db` is its stored counterpart, empty where there
is none, and the payload is as `bind_clusters` leaves it. -/
def updateOf (behavior : Behavior) (isReportImport : Bool) (cluster : Option Document) (db p : Document) :
    Except Failure OpDetails := do
  let resource ← assignedResource C cluster p
  let tags := Tags.encoded C.encoding (get resource "tags").asTags
  let resource := if tags = [] then resource else resource.set "tags" (.tags tags)
  let resource ← setStatus C resource db
  let (update, insertion) ← splitChanges C resource db behavior isReportImport
  pure (opDetails update insertion)

end ResourceUpsert
