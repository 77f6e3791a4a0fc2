import OptScale.Foundations.Mailbox
import OptScale.Foundations.Session
import OptScale.Foundations.Table

/-!
# Bumiworker/Body — task bodies, result objects, and what a step works with

A task is carried by its messages: the body of a message is a dictionary whose keys may be missing, and
reading a missing key raises.  A step of a task works on its body in place, so that a change stays where
the step raises after it; beside the body it has the bucket of the result objects, what it published,
and whether it acknowledged the message.  The outside of the worker is an `Env`: the clock at each
reading, and how each call out ends.
-/

namespace Bumiworker

open Session

/-- `TaskState` -/
inductive TaskState
  | created | started | initializedChecklist | waitedChecklist | collectedCheckResult
  | initializedArchive | waitedArchive | checkedArchiveResult | initializedService | waitedService
  | updatedChecklist | processed | completed | error
deriving DecidableEq, Repr

/-- `RECOMMENDATION_FOLDER`, `SERVICE_FOLDER`, `ARCHIVE_FOLDER`: the types of the modules. -/
inductive Folder
  | recommendations | service | archive
deriving DecidableEq, Repr

def Folder.name : Folder → String
  | .recommendations => "recommendations"
  | .service => "service"
  | .archive => "archive"

/-- The keys of a body that a step reads. -/
inductive Field
  | lastUpdate | triesCount | organizationId | checklistId | createdAt | state | taskTimeout
  | waitTimeout | maxRetries | moduleName | moduleType | childrenCount
deriving DecidableEq, Repr

/-- What a step may raise: `BumiTaskTimeoutError`, `BumiTaskWaitError`, a `KeyError` of the body, or
whatever a call out of the worker raises. -/
inductive Exn
  | taskTimeout | taskWait | keyError (field : Field) | external
deriving DecidableEq, Repr

/-- The body of a task's message. -/
structure Body where
  lastUpdate : Option ℤ
  triesCount : Option ℕ
  organizationId : Option String
  checklistId : Option String
  createdAt : Option ℤ
  state : Option TaskState
  taskTimeout : Option ℤ
  waitTimeout : Option ℤ
  maxRetries : Option ℕ
  moduleName : Option String
  moduleType : Option Folder
  childrenCount : Option ℕ
  reason : Option Exn
deriving DecidableEq, Repr

/-- The key of a result object: `<organization>/<created_at>/<folder>/<module>.json`. -/
structure ResultKey where
  organizationId : String
  createdAt : ℤ
  folder : Folder
  moduleName : String
deriving DecidableEq, Repr

/-- The path of an object in the bucket. -/
def ResultKey.path (k : ResultKey) : String :=
  k.organizationId ++ "/" ++ toString k.createdAt ++ "/" ++ k.folder.name ++ "/" ++ k.moduleName ++ ".json"

/-- A result object: whether it carries a `timeout_error`, an `error` that is not empty, and `data`. -/
structure Result where
  key : ResultKey
  timeoutError : Bool
  error : Bool
  data : Bool
deriving DecidableEq, Repr

/-- The bucket `bumi-data`. -/
abbrev Bucket := Table Result.key

/-- The number of keys in one answer of `list_objects_v2`. -/
def maxKeys : ℕ := 1000

/-- The prefix of a folder of a run, `<organization>/<created_at>/<folder>/`. -/
def ofFolder (organizationId : String) (createdAt : ℤ) (folder : Folder) (k : ResultKey) : Bool :=
  k.organizationId = organizationId ∧ k.createdAt = createdAt ∧ k.folder = folder

/-- The prefix of an organization, `<organization>/`. -/
def ofOrganization (organizationId : String) (k : ResultKey) : Bool :=
  k.organizationId = organizationId

/-- `list_objects_v2` for a prefix: one page, in the order of the keys. -/
def listObjects (objects : Bucket) (hasPrefix : ResultKey → Bool) : List Result :=
  ((objects.rows.filter fun o => hasPrefix o.key).insertionSort
    fun a b => a.key.path ≤ b.key.path).take maxKeys

/-- A message that was published: the body, and whether it goes through the delayed queue. -/
structure Message where
  body : Body
  delayed : Bool
deriving DecidableEq, Repr

/-- What a step works with.  `missing` records the keys that were read and not there. -/
structure World where
  body : Body
  objects : Bucket
  published : List Message
  children : List Body
  acked : Bool
  missing : List Field

/-- The outside of the worker during one step: the clock in `check_timeout`, for the children, for
`last_update`, and in `_handle_exception`; the modules that are disabled; whether the previous result
can be loaded, and whether the module ends with an error; and how each call ends — what the step asks
of other services, what it writes there, each child it publishes, the continuation and the
acknowledgement, and these two again where the exception is handled. -/
structure Env where
  checkNow : ℤ
  childNow : ℤ
  updateNow : ℤ
  handleNow : ℤ
  disabled : List String
  previousResult : Bool
  moduleError : Bool
  service : Call
  write : Call
  child : ℕ → Call
  publish : Call
  ack : Call
  republish : Call
  reack : Call

/-- A part of a step. -/
abbrev Act (α : Type) := Session World Exn α

variable {α : Type}

/-- `self.body[key]` -/
def key (field : Field) (value : Body → Option α) : Act α := fun w =>
  match value w.body with
  | some a => (.ok a, w)
  | none => (.error (.keyError field), { w with missing := w.missing ++ [field] })

/-- The body as it is, for reading by `get`. -/
def body : Act Body := read fun w => .ok w.body

/-- The bucket as it is. -/
def bucket : Act Bucket := read fun w => .ok w.objects

/-- Change the body. -/
def setBody (f : Body → Body) : Act Unit := change fun w => { w with body := f w.body }

def setState (state : TaskState) : Act Unit := setBody fun b => { b with state := some state }

def getLastUpdate : Act ℤ := key .lastUpdate Body.lastUpdate

def getTriesCount : Act ℕ := key .triesCount Body.triesCount

def getOrganizationId : Act String := key .organizationId Body.organizationId

def getChecklistId : Act String := key .checklistId Body.checklistId

def getCreatedAt : Act ℤ := key .createdAt Body.createdAt

def getTaskTimeout : Act ℤ := key .taskTimeout Body.taskTimeout

def getWaitTimeout : Act ℤ := key .waitTimeout Body.waitTimeout

def getMaxRetries : Act ℕ := key .maxRetries Body.maxRetries

def getModule : Act String := key .moduleName Body.moduleName

def getModuleType : Act Folder := key .moduleType Body.moduleType

def getChildrenCount : Act ℕ := key .childrenCount Body.childrenCount

/-- A call that changes nothing the worker keeps. -/
def callOut (c : Call) : Act Unit := call c .external id

/-- `put_task` of the task's own body. -/
def onContinue (c : Call) (delayed : Bool) : Act Unit :=
  call c .external fun w => { w with published := w.published ++ [⟨w.body, delayed⟩] }

/-- `put_task` of a child. -/
def putChild (c : Call) (child : Body) : Act Unit :=
  call c .external fun w => { w with children := w.children ++ [child] }

/-- `message.ack` -/
def ack (c : Call) : Act Unit := call c .external fun w => { w with acked := true }

end Bumiworker
