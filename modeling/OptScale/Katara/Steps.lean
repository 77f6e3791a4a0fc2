import OptScale.Foundations.Mailbox
import OptScale.Foundations.Session

/-!
# Katara/Steps — the steps of a report task

The state of a report task is kept by the service; a message only names the task, and carries the time of
its last step and the number of its tries.  A worker that takes a message looks the task up and executes
the step of the state it finds.  The outside of the worker is an `Env`: what the services answer, the
clock, and how each call ends.  The schedule of a task may be deleted at any time, so each lookup of an
expanded task has its own answer.
-/

namespace Katara

open Session

/-! ## Tasks -/

/-- `TaskState` -/
inductive TaskState
  | created | started | gettingScopes | gotScopes | gettingRecipients | gotRecipients
  | checkingEmailSettings | generatingData | generatedData | puttingToHerald | completed | error
deriving DecidableEq, Repr

/-- The states that have no transition. -/
def TaskState.finished (s : TaskState) : Bool := s = .completed ∨ s = .error

/-- The assignment of a role to a user, as the auth service lists it. -/
structure UserRole where
  userId : String
  assignmentId : String
deriving DecidableEq, Repr

/-- The keys of a task's result. -/
structure Result where
  scopeIds : Option (List String) := none
  userRoles : Option (List UserRole) := none
  userRole : Option UserRole := none
  downloadUrl : Option String := none
deriving DecidableEq, Repr

/-- A row of the tasks.  Its id is its place: `gen_id` gives a new task an id of its own, and no task is
ever deleted. -/
structure Task where
  scheduleId : Option String
  state : TaskState
  result : Option Result
  parentId : Option ℕ
  completedAt : Option ℤ
deriving DecidableEq, Repr

/-- `TaskController.edit` on the row: the state, the result if there is one, and the completion. -/
def Task.edit (now : ℤ) (state : TaskState) (result : Option Result) (t : Task) : Task :=
  { t with
    state := state
    result := result.or t.result
    completedAt := if state = .completed then some now else t.completedAt }

/-- The recipient and the report of a schedule, as an expanded task shows them. -/
structure ScheduleDetails where
  scopeId : String
  userId : Option String
  rolePurpose : Option String
  moduleName : String
deriving DecidableEq, Repr

/-- The body of a task's message. -/
structure Body where
  taskId : ℕ
  lastUpdate : ℤ
  triesCount : ℕ
  disabled : Bool
deriving DecidableEq, Repr

/-- A message for herald. -/
structure HeraldTask where
  downloadUrl : String
  taskId : ℕ
  retries : ℕ
deriving DecidableEq, Repr

def maxRetries : ℕ := 10

def maxUpdateThreshold : ℤ := 60 * 60

/-- `MODULE_NAME_EMAIL_TEMPLATE` -/
def emailTemplate : String → Option String
  | "organization_expenses" => some "weekly_expense_report"
  | "pool_limit_exceed" => some "pool_exceed_report"
  | "pool_limit_exceed_resources" => some "pool_exceed_resources_report"
  | "violated_constraints" => some "resource_owner_violation_report"
  | "violated_constraints_diff" => some "pool_owner_violation_report"
  | _ => none

/-! ## Putting tasks on the queue -/

/-- The messages of new tasks, from the first id on. -/
def newMessages (now : ℤ) (first n : ℕ) : List Body :=
  (List.range' first n).map fun id => ⟨id, now, 0, false⟩

/-- `put_tasks`: the messages that get on the queue, one after the other until a publication raises. -/
def putTasks (put : ℕ → Call) : ℕ → List Body → List Body
  | _, [] => []
  | i, m :: ms =>
    match put i with
    | .done => m :: putTasks put (i + 1) ms
    | .refused => []
    | .broken => [m]

/-- No publication raises. -/
def allDone (put : ℕ → Call) (n : ℕ) : Bool := (List.range n).all fun i => put i = .done

/-! ## The worker -/

/-- What a step may raise: `KataraTaskTimeoutError`, `KataraError`, a `KeyError`, an `AttributeError`,
the refusal of a second acknowledgement, or whatever a call out of the worker raises. -/
inductive Exn
  | timeout | katara | keyError | attributeError | acknowledged | external
deriving DecidableEq, Repr

/-- What a step works with: the body of its message, the tasks, those that were created and their
messages, its continuations, what herald was sent, and whether the message was acknowledged. -/
structure World where
  body : Body
  tasks : List Task
  created : List Task
  queued : List Body
  published : List Body
  herald : List HeraldTask
  acked : Bool

/-- An employee, and the user of the auth service that he is. -/
structure Employee where
  id : String
  authUserId : String
deriving DecidableEq, Repr

/-- The outside of the worker while a message is processed.  `lookup` is that of `process_task`, `get` and
`schedule` those of the step, `failGet` and `failSchedule` those of `SetFailed`. -/
structure Env where
  checkNow : ℤ
  updateNow : ℤ
  serviceNow : ℤ
  lookup : Call
  get : Call
  schedule : Option ScheduleDetails
  organization : Call
  organizationDisabled : Bool
  pool : Call
  poolChildren : List String
  userRolesGet : Call
  userRoles : Option String → List String → Option String → List UserRole
  employeeList : Call
  employees : Option String → List Employee
  employeeEmails : Call
  emailsEnabled : String → String → List Bool
  createReport : Call
  reportData : Bool
  upload : Call
  update : Call
  create : Call
  put : ℕ → Call
  herald : Call
  publish : Call
  ack : Call
  republish : Call
  reack : Call
  failGet : Call
  failSchedule : Option ScheduleDetails
  failOrganization : Call
  failUpdate : Call
  activity : Call
  lastAck : Call

/-- A part of a step. -/
abbrev Act (α : Type) := Session World Exn α

/-- A call that changes nothing of the world. -/
def callOut (c : Call) : Act Unit := call c .external id

/-- The task of the message, as it is stored. -/
def storedTask : Act Task := read fun w =>
  match w.tasks[w.body.taskId]? with
  | some t => .ok t
  | none => .error .external

/-- `task_get` -/
def taskGet (c : Call) : Act Task := do
  callOut c
  storedTask

/-- `task_update` -/
def taskUpdate (c : Call) (now : ℤ) (state : TaskState) (result : Option Result) : Act Unit := do
  let _ ← storedTask
  call c .external fun w =>
    { w with tasks := w.tasks.modify w.body.taskId (Task.edit now state result) }

/-- `tasks_create`: `TaskController.create` commits the tasks before it puts them on the queue. -/
def tasksCreate (env : Env) (tasks : List Task) : Act Unit :=
  if env.create = .refused then raise .external
  else do
    change fun w => { w with
      tasks := w.tasks ++ tasks
      created := w.created ++ tasks
      queued := w.queued ++
        putTasks env.put 0 (newMessages env.serviceNow w.tasks.length tasks.length) }
    if env.create = .broken ∨ ¬ allDone env.put tasks.length then raise .external else pure ()

/-- `message.ack`, which raises the second time. -/
def ack (c : Call) : Act Unit := do
  let acked ← read fun w => .ok w.acked
  if acked then raise .acknowledged else call c .external fun w => { w with acked := true }

/-- `on_continue_cb` -/
def onContinue (c : Call) : Act Unit :=
  call c .external fun w => { w with published := w.published ++ [w.body] }

/-- `on_complete_cb` -/
def onComplete (c : Call) (task : HeraldTask) : Act Unit :=
  call c .external fun w => { w with herald := w.herald ++ [task] }

/-- `_load_result` -/
def loadResult (result : Option Result) : Result := result.getD {}

/-! ## Base classes -/

/-- `Continue.execute` -/
def continueExecute (env : Env) : Act Unit := do
  onContinue env.publish
  ack env.ack

/-- `UpdateTimeout.execute` -/
def updateTimeoutExecute (env : Env) : Act Unit := do
  change fun w => { w with body := { w.body with lastUpdate := env.updateNow } }
  continueExecute env

/-- `CheckTimeoutThreshold.execute` -/
def checkTimeoutThresholdExecute (env : Env) : Act Unit := do
  let lastUpdate ← read fun w => .ok w.body.lastUpdate
  if env.checkNow - lastUpdate > maxUpdateThreshold then raise .timeout
  else updateTimeoutExecute env

/-- `SetCompleted.execute` -/
def setCompletedExecute (env : Env) : Act Unit := do
  taskUpdate env.update env.serviceNow .completed none
  ack env.ack

/-- The steps that only note the next state. -/
def noteState (env : Env) (state : TaskState) : Act Unit := do
  taskUpdate env.update env.serviceNow state none
  checkTimeoutThresholdExecute env

/-! ## Steps -/

def SetStarted.execute (env : Env) : Act Unit := noteState env .started

def SetGettingScopes.execute (env : Env) : Act Unit := noteState env .gettingScopes

def GetScopes.execute (env : Env) : Act Unit := do
  let _ ← taskGet env.get
  match env.schedule with
  | none => setCompletedExecute env
  | some schedule => do
    callOut env.organization
    if env.organizationDisabled then do
      change fun w => { w with body := { w.body with disabled := true } }
      raise .katara
    else do
      callOut env.pool
      taskUpdate env.update env.serviceNow .gotScopes
        (some { scopeIds := some (schedule.scopeId :: env.poolChildren) })
      checkTimeoutThresholdExecute env

def SetGettingRecipients.execute (env : Env) : Act Unit := noteState env .gettingRecipients

/-- The user roles without those of a user who came before; `remove` takes the first that is equal. -/
def dropRepeated : List UserRole → List String → List UserRole → List UserRole
  | [], _, userRoles => userRoles
  | userRole :: rest, ids, userRoles =>
    if userRole.userId ∈ ids then dropRepeated rest ids (userRoles.erase userRole)
    else dropRepeated rest (ids ++ [userRole.userId]) userRoles

def GetRecipients.execute (env : Env) : Act Unit := do
  let task ← taskGet env.get
  match env.schedule with
  | none => setCompletedExecute env
  | some schedule =>
    match (loadResult task.result).scopeIds with
    | none => raise .keyError
    | some scopeIds => do
      callOut env.userRolesGet
      let userRoles := env.userRoles schedule.userId scopeIds schedule.rolePurpose
      if userRoles = [] then setCompletedExecute env
      else do
        taskUpdate env.update env.serviceNow .gotRecipients
          (some { loadResult task.result with userRoles := some (dropRepeated userRoles [] userRoles) })
        checkTimeoutThresholdExecute env

/-- The task of one recipient. -/
def childTask (task : Task) (id : ℕ) (result : Result) (userRole : UserRole) : Task where
  scheduleId := task.scheduleId
  state := .checkingEmailSettings
  result := some { result with
    userRoles := none
    userRole := some userRole }
  parentId := some id
  completedAt := none

def SetGeneratingReportData.execute (env : Env) : Act Unit := do
  let task ← taskGet env.get
  let id ← read fun w => .ok w.body.taskId
  match (loadResult task.result).userRoles with
  | none => raise .keyError
  | some userRoles => do
    tasksCreate env (userRoles.map (childTask task id (loadResult task.result)))
    setCompletedExecute env

def CheckingEmployeeEmailSettings.execute (env : Env) : Act Unit := do
  let task ← taskGet env.get
  match (loadResult task.result).userRole with
  | none => raise .keyError
  | some userRole => do
    callOut env.employeeList
    match (env.employees (env.schedule.map ScheduleDetails.scopeId)).find?
        (fun e => e.authUserId = userRole.userId) with
    | none => setCompletedExecute env
    | some employee =>
      match env.schedule.bind fun schedule => emailTemplate schedule.moduleName with
      | none => raise .keyError
      | some template => do
        callOut env.employeeEmails
        if (env.emailsEnabled employee.id template).head? = some true then do
          taskUpdate env.update env.serviceNow .generatingData (some (loadResult task.result))
          checkTimeoutThresholdExecute env
        else setCompletedExecute env

/-- `create_report`, which has no data without a module. -/
def createReport (env : Env) : Act Bool :=
  match env.schedule with
  | none => pure false
  | some schedule =>
    if schedule.moduleName = "" then pure false
    else do
      callOut env.createReport
      pure env.reportData

def reportName (id : ℕ) : String := "task_" ++ toString id ++ "_" ++ toString id

def GenerateReportData.execute (env : Env) : Act Unit := do
  let task ← taskGet env.get
  let id ← read fun w => .ok w.body.taskId
  match (loadResult task.result).userRole with
  | none => raise .keyError
  | some _ => do
    let reportData ← createReport env
    if reportData then do
      callOut env.upload
      taskUpdate env.update env.serviceNow .generatedData
        (some { loadResult task.result with downloadUrl := some ("katara-reports/" ++ reportName id) })
      checkTimeoutThresholdExecute env
    else setCompletedExecute env

def SetPuttingToHerald.execute (env : Env) : Act Unit := noteState env .puttingToHerald

/-- Without a `download_url` the `KeyError` is logged, and the task completes. -/
def PutToHerald.execute (env : Env) : Act Unit := do
  let task ← taskGet env.get
  let id ← read fun w => .ok w.body.taskId
  ((match (loadResult task.result).downloadUrl with
    | none => pure ()
    | some url => onComplete env.herald ⟨url, id, maxRetries⟩ : Act Unit).caught fun ex => do
      setCompletedExecute env
      raise ex)
  setCompletedExecute env

def SetFailed.execute (env : Env) : Act Unit := do
  let _ ← taskGet env.failGet
  match env.failSchedule with
  | none => raise .attributeError
  | some _ => do
    callOut env.failOrganization
    taskUpdate env.failUpdate env.serviceNow .error none
    let disabled ← read fun w => .ok w.body.disabled
    (if disabled then pure () else callOut env.activity : Act Unit)
    ack env.reack

/-- The classes of the transitions. -/
inductive Step
  | setStarted | setGettingScopes | getScopes | setGettingRecipients | getRecipients
  | setGeneratingReportData | checkingEmployeeEmailSettings | generateReportData | setPuttingToHerald
  | putToHerald
deriving DecidableEq, Repr

def Step.execute (env : Env) : Step → Act Unit
  | .setStarted => SetStarted.execute env
  | .setGettingScopes => SetGettingScopes.execute env
  | .getScopes => GetScopes.execute env
  | .setGettingRecipients => SetGettingRecipients.execute env
  | .getRecipients => GetRecipients.execute env
  | .setGeneratingReportData => SetGeneratingReportData.execute env
  | .checkingEmployeeEmailSettings => CheckingEmployeeEmailSettings.execute env
  | .generateReportData => GenerateReportData.execute env
  | .setPuttingToHerald => SetPuttingToHerald.execute env
  | .putToHerald => PutToHerald.execute env

/-- `TASKS_TRANSITIONS` -/
def tasksTransitions : TaskState → Option Step
  | .created => some .setStarted
  | .started => some .setGettingScopes
  | .gettingScopes => some .getScopes
  | .gotScopes => some .setGettingRecipients
  | .gettingRecipients => some .getRecipients
  | .gotRecipients => some .setGeneratingReportData
  | .checkingEmailSettings => some .checkingEmployeeEmailSettings
  | .generatingData => some .generateReportData
  | .generatedData => some .setPuttingToHerald
  | .puttingToHerald => some .putToHerald
  | .completed | .error => none

/-- `_can_continue` -/
def canContinue (ex : Exn) (b : Body) : Bool := ex ≠ .timeout ∧ b.triesCount < maxRetries

/-- `_handle_exception` -/
def handleException (env : Env) (ex : Exn) : Act Unit := do
  let continues ← read fun w => .ok (canContinue ex w.body)
  if continues then do
    change fun w => { w with body := { w.body with triesCount := w.body.triesCount + 1 } }
    onContinue env.republish
    ack env.reack
  else SetFailed.execute env

/-- `run` -/
def Step.run (env : Env) (step : Step) : Act Unit :=
  (step.execute env).caught fun mainEx => do
    (((handleException env mainEx).caught fun _ => ack env.lastAck).caught fun _ => pure () : Act Unit)
    raise mainEx

/-- The step of the task that a message names. -/
def lookupStep (env : Env) : Act Step := do
  let task ← taskGet env.lookup
  match tasksTransitions task.state with
  | some step => pure step
  | none => raise .keyError

/-- `Worker.process_task`: where the step is not found, the message is acknowledged and dropped. -/
def processTask (env : Env) (w : World) : World :=
  match lookupStep env w with
  | (.ok step, w) => (step.run env w).2
  | (.error _, w) => (ack env.ack w).2

/-! ## Runs -/

/-- The tasks, those that were created for recipients, and what herald was sent. -/
structure Store where
  tasks : List Task
  created : List Task
  herald : List HeraldTask

/-- The world a message is processed in, at the beginning. -/
def World.fresh (s : Store) (b : Body) : World := ⟨b, s.tasks, [], [], [], s.herald, false⟩

/-- Process a message: what is in flight in its stead is the message itself, unless it was acknowledged,
its continuations, and the messages of the tasks it created. -/
def handle (env : Env) (s : Store) (b : Body) : Store × List Body :=
  let w := processTask env (World.fresh s b)
  (⟨w.tasks, s.created ++ w.created, w.herald⟩,
    (if w.acked then [] else [b]) ++ (w.published ++ w.queued))

/-- The queue and the store. -/
abbrev Queue := Mailbox Store Body

/-- `Task(schedule_id=…)` -/
def scheduledTask (scheduleId : String) : Task where
  scheduleId := some scheduleId
  state := .created
  result := none
  parentId := none
  completedAt := none

/-- What happens: a message is delivered, or a bulk of `generate_tasks` is committed and put on the
queue. -/
inductive Event
  | deliver (place : ℕ) (env : Env)
  | generate (schedules : List String) (now : ℤ) (put : ℕ → Call)

def occur (s : Queue) : Event → Option Queue
  | .deliver place env => Mailbox.deliver handle s (place, env)
  | .generate schedules now put => some
    ⟨⟨s.store.tasks ++ schedules.map scheduledTask, s.store.created, s.store.herald⟩,
      s.queue ++ putTasks put 0 (newMessages now s.store.tasks.length schedules.length)⟩

/-- No tasks yet. -/
def start : Queue := ⟨⟨[], [], []⟩, []⟩

end Katara
