import OptScale.Bumiworker.Body

/-!
# Bumiworker/Tasks — the steps of a task

A step is a class with a `check_timeout`, an `_execute` and a `_handle_exception`, all three inherited in
part.  Every `_execute` ends in that of its base class: `UpdateTimeout` and `Continue` publish the body
and acknowledge the message, `CompleteBase` only acknowledges it.  So a step is what it performs before
that (`Step.perform`) and the base class it ends in (`Step.base`).
-/

namespace Bumiworker

open Session

/-- The modules a deployment has, by type. -/
structure Modules where
  names : Folder → List String
  nodup : ∀ folder, (names folder).Nodup

/-- The base classes. -/
inductive Base
  | checkTimeoutThreshold | checkWaitThreshold | continueBase | completeBase
deriving DecidableEq, Repr

/-- The classes of the transitions. -/
inductive Step
  | setStarted | initializeChecklist | waitChecklist | collectCheckResult | initializeArchive
  | waitArchive | checkArchiveResult | initializeService | waitService | updateChecklist
  | setSucceededNotifiable | setFailedNotifiable | process | cleanup | setFailed
deriving DecidableEq, Repr

def Step.base : Step → Base
  | .setStarted | .initializeChecklist | .collectCheckResult | .initializeArchive
  | .checkArchiveResult | .initializeService | .process => .checkTimeoutThreshold
  | .waitChecklist | .waitArchive | .waitService => .checkWaitThreshold
  | .updateChecklist => .continueBase
  | .setSucceededNotifiable | .setFailedNotifiable | .cleanup | .setFailed => .completeBase

/-- `is_delayed` -/
def Step.isDelayed (step : Step) : Bool :=
  step.base = .checkWaitThreshold ∨ step.base = .completeBase

/-! ## Timeouts -/

def CheckTimeoutThreshold.checkTimeout (env : Env) : Act Unit := do
  let lastUpdate ← getLastUpdate
  let taskTimeout ← getTaskTimeout
  if env.checkNow - lastUpdate > taskTimeout then raise .taskTimeout else pure ()

def CheckWaitThreshold.checkTimeout (env : Env) : Act Unit := do
  let lastUpdate ← getLastUpdate
  let waitTimeout ← getWaitTimeout
  if env.checkNow - lastUpdate > waitTimeout then raise .taskWait else pure ()

/-- The upload of a result object, over the one there was. -/
def upload (env : Env) (result : Result) : Act Unit :=
  call env.write .external fun w =>
    { w with
      objects := w.objects.upsert result (fun old => { result with key := old.key })
        (fun o => Eq.refl o.key) }

/-- `HandleTaskTimeout.save_result_to_file` -/
def saveResultToFile (env : Env) (timeoutError error data : Bool) : Act Unit := do
  let organizationId ← getOrganizationId
  let createdAt ← getCreatedAt
  let moduleName ← getModule
  let moduleType ← getModuleType
  upload env ⟨⟨organizationId, createdAt, moduleType, moduleName⟩, timeoutError, error, data⟩

/-- The previous result, if it can be loaded. -/
def loadPreviousResult (env : Env) : Act Bool :=
  (do
    let _ ← getOrganizationId
    let _ ← getCreatedAt
    let _ ← getModule
    pure env.previousResult : Act Bool).caught fun _ => pure false

def HandleTaskTimeout.checkTimeout (env : Env) : Act Unit :=
  (CheckTimeoutThreshold.checkTimeout env).caught fun exc => do
    if exc = .taskTimeout then
      let previousResult ← loadPreviousResult env
      saveResultToFile env true false previousResult
      raise exc
    else raise exc

def Step.checkTimeout (step : Step) (env : Env) : Act Unit :=
  match step.base with
  | .checkTimeoutThreshold =>
    if step = .process then HandleTaskTimeout.checkTimeout env
    else CheckTimeoutThreshold.checkTimeout env
  | .checkWaitThreshold => CheckWaitThreshold.checkTimeout env
  | .continueBase => pure ()
  | .completeBase => pure ()

/-! ## Children -/

/-- `InitializeChildrenBase.list_modules` -/
def listModules (M : Modules) (env : Env) (folder : Folder) : Act (List String) := do
  callOut env.service
  pure ((M.names folder).filter (· ∉ env.disabled))

/-- `InitializeChildrenBase._get_child_task` -/
def getChildTask (env : Env) (folder : Folder) (moduleName : String) : Act Body := do
  let createdAt ← getCreatedAt
  let checklistId ← getChecklistId
  let organizationId ← getOrganizationId
  let taskTimeout ← getTaskTimeout
  let maxRetries ← getMaxRetries
  pure {
    lastUpdate := some env.childNow
    triesCount := some 0
    organizationId := some organizationId
    checklistId := some checklistId
    createdAt := some createdAt
    state := some .created
    taskTimeout := some taskTimeout
    waitTimeout := none
    maxRetries := some maxRetries
    moduleName := some moduleName
    moduleType := some folder
    childrenCount := none
    reason := none }

/-- The bodies of the children, one for each module. -/
def childrenParams (env : Env) (folder : Folder) : List String → Act (List Body)
  | [] => pure []
  | moduleName :: modules => do
    let child ← getChildTask env folder moduleName
    let children ← childrenParams env folder modules
    pure (child :: children)

/-- `Worker.create_children`, from the `i`-th child on. -/
def createChildren (env : Env) : ℕ → List Body → Act Unit
  | _, [] => pure ()
  | i, child :: children => do
    putChild (env.child i) child
    createChildren env (i + 1) children

/-- `InitializeChildrenBase.create_children_tasks` -/
def createChildrenTasks (env : Env) (folder : Folder) (modules : List String) : Act Unit := do
  let params ← childrenParams env folder modules
  createChildren env 0 params

/-- The children are created: their number, and the state after that. -/
def setChildrenCount (modules : List String) (state : TaskState) : Act Unit :=
  setBody fun b => { b with childrenCount := some modules.length, state := some state }

def InitializeChecklist.perform (M : Modules) (env : Env) : Act Unit := do
  let modules ← listModules M env .recommendations
  if modules = [] then
    -- nothing to do, the checklist is updated and the task completes
    setState .waitedService
  else
    createChildrenTasks env .recommendations modules
    setChildrenCount modules .initializedChecklist

/-- `InitializeService._execute`, which `InitializeArchive` inherits. -/
def InitializeService.perform (M : Modules) (env : Env) (folder : Folder) (state : TaskState) :
    Act Unit := do
  let modules ← listModules M env folder
  createChildrenTasks env folder modules
  setChildrenCount modules state

/-! ## Results -/

/-- `WaitTasksResult._execute`, with the folder it waits for and the state after that. -/
def WaitTasksResult.perform (env : Env) (folder : Folder) (state : TaskState) : Act Unit := do
  let organizationId ← getOrganizationId
  let createdAt ← getCreatedAt
  callOut env.service
  let objects ← bucket
  let childrenCount ← getChildrenCount
  if (listObjects objects (ofFolder organizationId createdAt folder)).length = childrenCount then
    setBody fun b => { b with lastUpdate := some env.updateNow, state := some state }
  else pure ()

/-- The result objects of a folder of the task's run. -/
def loadResults (env : Env) (folder : Folder) : Act (List Result) := do
  let organizationId ← getOrganizationId
  let createdAt ← getCreatedAt
  callOut env.service
  let objects ← bucket
  pure (listObjects objects (ofFolder organizationId createdAt folder))

/-- `CollectCheckResult.save_result`; a result without `data` has nothing to save. -/
def saveResult (env : Env) (results : List Result) : Act Unit :=
  if results.any fun r => !r.data then raise .external else callOut env.write

def CollectCheckResult.perform (env : Env) : Act Unit := do
  let results ← loadResults env .recommendations
  (if results = [] then pure () else saveResult env results : Act Unit)
  if results.any Result.timeoutError then setState .error else setState .collectedCheckResult

def CheckArchiveResult.perform (env : Env) : Act Unit := do
  setState .checkedArchiveResult
  let results ← loadResults env .archive
  if results.any fun r => r.timeoutError || r.error then setState .error else pure ()

def UpdateChecklist.perform (env : Env) : Act Unit := do
  let _ ← getChecklistId
  let _ ← getCreatedAt
  callOut env.write
  setState .updatedChecklist

/-- `call_module`: what it raises is the error of the result. -/
def callModule (env : Env) : Act Bool :=
  (do
    let _ ← getModule
    let _ ← getModuleType
    let _ ← getOrganizationId
    let _ ← getCreatedAt
    pure env.moduleError : Act Bool).caught fun _ => do
      let _ ← getModule
      let _ ← getModuleType
      let _ ← getOrganizationId
      pure true

def Process.perform (env : Env) : Act Unit := do
  callOut env.service
  let b ← body
  if ∃ name, b.moduleName = some name ∧ name ∈ env.disabled then
    saveResultToFile env false false true
    setState .processed
  else
    let error ← callModule env
    saveResultToFile env false error true
    setState .processed

/-! ## Completion -/

/-- `CompleteBase.get_failed_modules` -/
def getFailedModules (env : Env) : Act Unit := do
  let _ ← getOrganizationId
  let _ ← getCreatedAt
  callOut env.service

/-- What `Cleanup` deletes: the objects of the organization that do not have the time of the run in
their key. -/
def outdated (objects : Bucket) (organizationId : String) (createdAt : ℤ) : List Result :=
  (listObjects objects (ofOrganization organizationId)).filter fun o =>
    ¬ (toString createdAt).toList <:+: o.key.path.toList

def Cleanup.perform (env : Env) : Act Unit := do
  let organizationId ← getOrganizationId
  callOut env.service
  let createdAt ← getCreatedAt
  let objects ← bucket
  if outdated objects organizationId createdAt = [] then pure ()
  else
    call env.write .external fun w =>
      { w with
        objects := w.objects.deleteWhere fun o => o ∈ outdated objects organizationId createdAt }

def SetFailed.perform (env : Env) : Act Unit := do
  let b ← body
  if b.moduleName = none ∨ b.moduleName = some "" then
    let _ ← getChecklistId
    let _ ← getCreatedAt
    callOut env.write
  else pure ()

def SetFailedNotifiable.perform (env : Env) : Act Unit := do
  getFailedModules env
  SetFailed.perform env

/-! ## The three methods of a step -/

/-- `_execute`, up to the `_execute` of the base class. -/
def Step.perform (M : Modules) (env : Env) : Step → Act Unit
  | .setStarted => setState .started
  | .initializeChecklist => InitializeChecklist.perform M env
  | .waitChecklist => WaitTasksResult.perform env .recommendations .waitedChecklist
  | .collectCheckResult => CollectCheckResult.perform env
  | .initializeArchive => InitializeService.perform M env .archive .initializedArchive
  | .waitArchive => WaitTasksResult.perform env .archive .waitedArchive
  | .checkArchiveResult => CheckArchiveResult.perform env
  | .initializeService => InitializeService.perform M env .service .initializedService
  | .waitService => WaitTasksResult.perform env .service .waitedService
  | .updateChecklist => UpdateChecklist.perform env
  | .setSucceededNotifiable => getFailedModules env
  | .setFailedNotifiable => SetFailedNotifiable.perform env
  | .process => Process.perform env
  | .cleanup => Cleanup.perform env
  | .setFailed => SetFailed.perform env

/-- `Continue._execute` -/
def continueExecute (step : Step) (env : Env) : Act Unit := do
  onContinue env.publish step.isDelayed
  ack env.ack

/-- `UpdateTimeout._execute` -/
def updateTimeoutExecute (step : Step) (env : Env) : Act Unit := do
  setBody fun b => { b with lastUpdate := some env.updateNow }
  continueExecute step env

/-- The `_execute` of the base class. -/
def Step.finish (step : Step) (env : Env) : Act Unit :=
  match step.base with
  | .checkTimeoutThreshold => updateTimeoutExecute step env
  | .checkWaitThreshold => continueExecute step env
  | .continueBase => continueExecute step env
  | .completeBase => ack env.ack

/-- `can_continue` -/
def canContinue (exc : Exn) : Act Bool :=
  if exc = .taskTimeout ∨ exc = .taskWait then pure false
  else do
    let triesCount ← getTriesCount
    let maxRetries ← getMaxRetries
    pure (triesCount < maxRetries)

/-- The body after an exception: another try, or the reason and the state `ERROR`. -/
def noteException (continues : Bool) (exc : Exn) : Act Unit :=
  if continues then do
    let triesCount ← getTriesCount
    setBody fun b => { b with triesCount := some (triesCount + 1) }
  else setBody fun b => { b with reason := some exc, state := some .error }

/-- `Base._handle_exception` -/
def Base.handleException (step : Step) (env : Env) (exc : Exn) : Act Unit := do
  let continues ← canContinue exc
  noteException continues exc
  onContinue env.republish step.isDelayed

/-- `CompleteBase._handle_exception` -/
def CompleteBase.handleException (step : Step) (env : Env) : Act Unit := do
  let lastUpdate ← getLastUpdate
  let waitTimeout ← getWaitTimeout
  if env.handleNow - lastUpdate ≤ waitTimeout then onContinue env.republish step.isDelayed
  else pure ()

def Step.handleException (step : Step) (env : Env) (exc : Exn) : Act Unit :=
  match step.base with
  | .checkTimeoutThreshold => Base.handleException step env exc
  | .checkWaitThreshold => do
    setBody fun b => { b with lastUpdate := some env.handleNow }
    Base.handleException step env exc
  | .continueBase => Base.handleException step env exc
  | .completeBase => CompleteBase.handleException step env

/-- What `execute` tries. -/
def Step.attempt (M : Modules) (env : Env) (step : Step) : Act Unit := do
  step.checkTimeout env
  step.perform M env
  step.finish env

/-- `Base.execute` -/
def Step.execute (M : Modules) (env : Env) (step : Step) : Act Unit :=
  (step.attempt M env).caught fun mainEx => do
    (step.handleException env mainEx).caught fun _ => pure ()
    ack env.reack
    raise mainEx

/-! ## The transitions -/

/-- `TASKS_TRANSITIONS` -/
def tasksTransitions : TaskState → Option Step
  | .created => some .setStarted
  | .started => some .initializeChecklist
  | .initializedChecklist => some .waitChecklist
  | .waitedChecklist => some .collectCheckResult
  | .collectedCheckResult => some .initializeArchive
  | .initializedArchive => some .waitArchive
  | .waitedArchive => some .checkArchiveResult
  | .checkedArchiveResult => some .initializeService
  | .initializedService => some .waitService
  | .waitedService => some .updateChecklist
  | .updatedChecklist => some .setSucceededNotifiable
  | .error => some .setFailedNotifiable
  | _ => none

/-- `GROUP_TASKS_TRANSITIONS` -/
def groupTasksTransitions : TaskState → Option Step
  | .created => some .setStarted
  | .started => some .process
  | .processed => some .cleanup
  | .error => some .setFailed
  | _ => none

/-- The step of a body: that of the group for a child, that of a task otherwise. -/
def transition (b : Body) : Option Step :=
  b.state.bind fun state =>
    if b.moduleName = none then tasksTransitions state else groupTasksTransitions state

/-- `Worker.process_task`; a body without a transition is only acknowledged. -/
def processTask (M : Modules) (env : Env) (objects : Bucket) (b : Body) : World :=
  match transition b with
  | some step => (step.execute M env ⟨b, objects, [], [], false, []⟩).2
  | none => (ack env.ack
      ⟨b, objects, [], [], false, if b.state = none then [.state] else []⟩).2

end Bumiworker
