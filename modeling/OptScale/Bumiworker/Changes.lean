import OptScale.Bumiworker.Tasks

/-!
# Bumiworker/Changes — what a step can do

`Change` lists what `check_timeout` and the own part of `_execute` can do to the world of a step, and
`Closing` what the rest can do: the `_execute` of the base class and the handling of an exception.  What
neither of them breaks, an execution keeps (`execute_keeps`), so no invariant has to look into the steps
again.  The order of what a step does is in the guards: the children are counted after each of them was
put on the queue, and a child is processed after its result was uploaded.
-/

namespace Bumiworker

open Session

variable {M : Modules} {env : Env} {step : Step} {P : World → Prop} {α : Type}

/-! ## What a step reads and sets -/

/-- The body has the key. -/
def Body.Has (b : Body) : Field → Prop
  | .lastUpdate => b.lastUpdate ≠ none
  | .triesCount => b.triesCount ≠ none
  | .organizationId => b.organizationId ≠ none
  | .checklistId => b.checklistId ≠ none
  | .createdAt => b.createdAt ≠ none
  | .state => b.state ≠ none
  | .taskTimeout => b.taskTimeout ≠ none
  | .waitTimeout => b.waitTimeout ≠ none
  | .maxRetries => b.maxRetries ≠ none
  | .moduleName => b.moduleName ≠ none
  | .moduleType => b.moduleType ≠ none
  | .childrenCount => b.childrenCount ≠ none

/-- The keys that the methods of a base class read. -/
def Base.reads : Base → List Field
  | .checkTimeoutThreshold => [.lastUpdate, .taskTimeout, .triesCount, .maxRetries]
  | .checkWaitThreshold => [.lastUpdate, .waitTimeout, .triesCount, .maxRetries]
  | .continueBase => [.triesCount, .maxRetries]
  | .completeBase => [.lastUpdate, .waitTimeout]

/-- The keys that a step reads in its own methods. -/
def Step.ownReads : Step → List Field
  | .setStarted => []
  | .initializeChecklist | .initializeArchive | .initializeService =>
    [.createdAt, .checklistId, .organizationId, .taskTimeout, .maxRetries]
  | .waitChecklist | .waitArchive | .waitService => [.organizationId, .createdAt, .childrenCount]
  | .collectCheckResult | .checkArchiveResult | .setSucceededNotifiable | .cleanup =>
    [.organizationId, .createdAt]
  | .updateChecklist => [.checklistId, .createdAt]
  | .setFailedNotifiable => [.organizationId, .createdAt, .checklistId]
  | .process => [.organizationId, .createdAt, .moduleName, .moduleType]
  | .setFailed => [.checklistId, .createdAt]

def Step.reads (step : Step) : List Field := step.base.reads ++ step.ownReads

/-- The modules of a type that are not disabled. -/
def enabled (M : Modules) (env : Env) (folder : Folder) : List String :=
  (M.names folder).filter (· ∉ env.disabled)

/-- The modules a step creates children for, and the state after that. -/
def Step.initializes : Step → Option (Folder × TaskState)
  | .initializeChecklist => some (.recommendations, .initializedChecklist)
  | .initializeArchive => some (.archive, .initializedArchive)
  | .initializeService => some (.service, .initializedService)
  | _ => none

/-- The folder a step waits for, and the state after that. -/
def Step.waits : Step → Option (Folder × TaskState)
  | .waitChecklist => some (.recommendations, .waitedChecklist)
  | .waitArchive => some (.archive, .waitedArchive)
  | .waitService => some (.service, .waitedService)
  | _ => none

/-- The states a step sets without more ado. -/
def Step.Moves (M : Modules) (env : Env) : Step → TaskState → Prop
  | .setStarted, s => s = .started
  | .initializeChecklist, s => s = .waitedService ∧ enabled M env .recommendations = []
  | .collectCheckResult, s => s = .collectedCheckResult ∨ s = .error
  | .checkArchiveResult, s => s = .checkedArchiveResult ∨ s = .error
  | .updateChecklist, s => s = .updatedChecklist
  | _, _ => False

/-- The child of a task for a module. -/
def Body.childFor (b : Body) (env : Env) (folder : Folder) (moduleName : String) : Body where
  lastUpdate := some env.childNow
  triesCount := some 0
  organizationId := b.organizationId
  checklistId := b.checklistId
  createdAt := b.createdAt
  state := some .created
  taskTimeout := b.taskTimeout
  waitTimeout := none
  maxRetries := b.maxRetries
  moduleName := some moduleName
  moduleType := some folder
  childrenCount := none
  reason := none

/-- The key is that of the task's result. -/
def Body.KeyIs (b : Body) (k : ResultKey) : Prop :=
  b.organizationId = some k.organizationId ∧ b.createdAt = some k.createdAt ∧
    b.moduleType = some k.folder ∧ b.moduleName = some k.moduleName

/-- The result object of the task is there. -/
def Body.HasResult (b : Body) (objects : Bucket) : Prop := ∃ o ∈ objects.rows, b.KeyIs o.key

def World.HasResult (w : World) : Prop := w.body.HasResult w.objects

/-! ## Changes -/

/-- **What `check_timeout` and the own part of `_execute` can do.** -/
inductive Change (M : Modules) (env : Env) (step : Step) (w : World) : World → Prop
  | missed {f : Field} (hread : f ∈ step.reads) (habsent : ¬ w.body.Has f) :
      Change M env step w { w with missing := w.missing ++ [f] }
  | moved {s : TaskState} (hs : step.Moves M env s) :
      Change M env step w { w with body := { w.body with state := some s } }
  | put {folder : Folder} {s : TaskState} {name : String}
      (hstep : step.initializes = some (folder, s)) (hname : name ∈ enabled M env folder)
      (hservice : env.service = .done) (hfirst : env.child 0 ≠ .refused) :
      Change M env step w { w with children := w.children ++ [w.body.childFor env folder name] }
  | counted {folder : Folder} {s : TaskState} (hstep : step.initializes = some (folder, s))
      (hservice : env.service = .done)
      (hsome : enabled M env folder = [] → step ≠ .initializeChecklist)
      (hall : ∀ name ∈ enabled M env folder, w.body.childFor env folder name ∈ w.children) :
      Change M env step w { w with
        body := { w.body with
          childrenCount := some (enabled M env folder).length, state := some s } }
  | waited {folder : Folder} {s : TaskState} {t : ℤ} (hstep : step.waits = some (folder, s)) :
      Change M env step w { w with
        body := { w.body with lastUpdate := some t, state := some s } }
  | uploaded {r : Result} (hstep : step = .process)
      (hkey : w.body.KeyIs r.key) :
      Change M env step w { w with
        objects := w.objects.upsert r (fun old => { r with key := old.key })
          (fun o => Eq.refl o.key) }
  | processed (hstep : step = .process) (hresult : w.HasResult) :
      Change M env step w { w with body := { w.body with state := some .processed } }
  | cleaned {organizationId : String} {createdAt : ℤ} (hstep : step = .cleanup)
      (hcreated : w.body.createdAt = some createdAt) :
      Change M env step w { w with
        objects := w.objects.deleteWhere fun o => o ∈ outdated w.objects organizationId createdAt }

/-- **What the base class and the handling of an exception can do.** -/
inductive Closing (step : Step) (w : World) : World → Prop
  | missed {f : Field} (hread : f ∈ step.reads) (habsent : ¬ w.body.Has f) :
      Closing step w { w with missing := w.missing ++ [f] }
  | stamped (t : ℤ) : Closing step w { w with body := { w.body with lastUpdate := some t } }
  | retried {n m : ℕ} (htries : w.body.triesCount = some n) (hmax : w.body.maxRetries = some m)
      (hlt : n < m) :
      Closing step w { w with body := { w.body with triesCount := some (n + 1) } }
  | failed (e : Exn) (hstep : step.base ≠ .completeBase) :
      Closing step w { w with body := { w.body with reason := some e, state := some .error } }
  | continued : Closing step w { w with published := w.published ++ [⟨w.body, step.isDelayed⟩] }
  | acked : Closing step w { w with acked := true }

/-- No change breaks `P`. -/
def Unbroken (M : Modules) (env : Env) (step : Step) (P : World → Prop) : Prop :=
  ∀ w w', Change M env step w w' → P w → P w'

/-- No closing breaks `P`. -/
def Closed (step : Step) (P : World → Prop) : Prop := ∀ w w', Closing step w w' → P w → P w'

/-! ## Reading keys -/

variable {β : Type} {b : Body} {Q : β → World → Prop} {E : Exn → World → Prop}

/-- What is proved for each body the world may have, is proved. -/
theorem spec_of_body {x : Act β} (h : ∀ b, Spec (fun w => P w ∧ w.body = b) x Q E) : Spec P x Q E :=
  fun w hw => h w.body w ⟨hw, rfl⟩

theorem key_of_some {f : Field} {value : Body → Option α} {w : World} {a : α}
    (h : value w.body = some a) : key f value w = (.ok a, w) := by
  rw [key, h]

theorem key_of_none {f : Field} {value : Body → Option α} {w : World} (h : value w.body = none) :
    key f value w = (.error (.keyError f), { w with missing := w.missing ++ [f] }) := by
  rw [key, h]

/-- A key that is missed does not break `P`. -/
def Missable (step : Step) (P : World → Prop) : Prop :=
  ∀ w f, f ∈ step.reads → ¬ w.body.Has f → P w → P { w with missing := w.missing ++ [f] }

/-- **Reading a key** of the body `b` goes on with its value, and changes nothing unless it is missing. -/
theorem Missable.read (hP : Missable step P) {f : Field} {value : Body → Option α} {x : α → Act β}
    (hread : f ∈ step.reads) (hvalue : ∀ {b}, value b = none → ¬ b.Has f)
    (hx : ∀ a, value b = some a → Spec (fun w => P w ∧ w.body = b) (x a) Q E)
    (hE : ∀ w, P w → w.body = b → ¬ b.Has f → E (.keyError f) w) :
    Spec (fun w => P w ∧ w.body = b) (key f value >>= x) Q E := by
  have hkey : Spec (fun w => P w ∧ w.body = b) (key f value)
      (fun a w => (P w ∧ w.body = b) ∧ value b = some a)
      fun e w => (e = .keyError f ∧ ¬ b.Has f) ∧ P w ∧ w.body = b := by
    rintro w ⟨hw, rfl⟩
    unfold key
    cases h : value w.body with
    | none =>
      exact ⟨fun a t ht => (by cases ht), fun e t ht => by
        cases ht; exact ⟨⟨rfl, hvalue h⟩, hP w f hread (hvalue h) hw, rfl⟩⟩
    | some a => exact ⟨fun a t ht => by cases ht; exact ⟨⟨hw, rfl⟩, rfl⟩, fun e t ht => by cases ht⟩
  exact (hkey.mono (fun _ h => h) (fun _ _ h => h) fun e w h =>
    h.1.1 ▸ hE w h.2.1 h.2.2 h.1.2).bind
    fun a w ⟨hw, ha⟩ => hx a ha w hw

theorem Unbroken.missable (hP : Unbroken M env step P) : Missable step P :=
  fun w _ hread habsent hw => hP w _ (.missed hread habsent) hw

theorem Closed.missable (hC : Closed step P) : Missable step P :=
  fun w _ hread habsent hw => hC w _ (.missed hread habsent) hw

theorem Unbroken.read (hP : Unbroken M env step P) {f : Field} {value : Body → Option α}
    {x : α → Act β} (hread : f ∈ step.reads) (hvalue : ∀ {b}, value b = none → ¬ b.Has f)
    (hx : ∀ a, value b = some a → Spec (fun w => P w ∧ w.body = b) (x a) Q E)
    (hE : ∀ w, P w → w.body = b → ¬ b.Has f → E (.keyError f) w) :
    Spec (fun w => P w ∧ w.body = b) (key f value >>= x) Q E :=
  hP.missable.read hread hvalue hx hE

/-- A step that reads a key keeps what the rest keeps. -/
theorem Unbroken.read_keeps (hP : Unbroken M env step P) {f : Field} {value : Body → Option α}
    {x : α → Act β} (hread : f ∈ step.reads) (hvalue : ∀ {b}, value b = none → ¬ b.Has f)
    (hx : ∀ a, Keeps P (x a)) : Keeps P (key f value >>= x) :=
  spec_of_body fun _ => hP.read hread hvalue
    (fun a _ => (hx a).mono (fun _ h => h.1) (fun _ _ h => h) fun _ h => h) fun _ h _ _ => h

/-- A call that changes nothing keeps everything. -/
theorem callOut_keeps (c : Call) : Keeps P (callOut c) := Keeps.call c _ fun _ h => h

theorem mem_reads_base {f : Field} {base : Base} (hbase : step.base = base) (hf : f ∈ base.reads) :
    f ∈ step.reads := List.mem_append_left _ (hbase ▸ hf)

/-! ## The parts of a step -/

section Parts

variable (hP : Unbroken M env step P)
include hP

theorem checkTaskTimeout_keeps (hbase : step.base = .checkTimeoutThreshold) :
    Keeps P (CheckTimeoutThreshold.checkTimeout env) := by
  refine hP.read_keeps (mem_reads_base hbase (by decide)) absurd fun lastUpdate => ?_
  refine hP.read_keeps (mem_reads_base hbase (by decide)) absurd fun taskTimeout => ?_
  split
  · exact .raise _
  · exact .pure _

theorem checkWaitTimeout_keeps (hbase : step.base = .checkWaitThreshold) :
    Keeps P (CheckWaitThreshold.checkTimeout env) := by
  refine hP.read_keeps (mem_reads_base hbase (by decide)) absurd fun lastUpdate => ?_
  refine hP.read_keeps (mem_reads_base hbase (by decide)) absurd fun waitTimeout => ?_
  split
  · exact .raise _
  · exact .pure _

/-- **Saving a result** leaves the object of the task in the bucket, unless the upload is refused. -/
theorem saveResultToFile_spec (hstep : step = .process) (timeoutError error data : Bool) :
    Spec P (saveResultToFile env timeoutError error data) (fun _ w => P w ∧ w.HasResult)
      fun e w => P w ∧ (w.HasResult ∨ (∃ f ∈ step.reads, e = .keyError f ∧ ¬ w.body.Has f) ∨
        e = .external ∧ env.write = .refused) := by
  have hread : ∀ f ∈ [Field.organizationId, .createdAt, .moduleName, .moduleType],
      f ∈ step.reads := by
    subst hstep
    decide
  refine spec_of_body fun b => ?_
  have hmissed : ∀ f ∈ step.reads, ∀ w, P w → w.body = b → ¬ b.Has f → P w ∧ (w.HasResult ∨
      (∃ f' ∈ step.reads, Exn.keyError f = .keyError f' ∧ ¬ w.body.Has f') ∨
        Exn.keyError f = .external ∧ env.write = .refused) :=
    fun f hf w hw hb habsent => ⟨hw, Or.inr (Or.inl ⟨f, hf, rfl, hb ▸ habsent⟩)⟩
  have horg := hread .organizationId (by decide)
  have hcreated := hread .createdAt (by decide)
  have hname := hread .moduleName (by decide)
  have hfolder := hread .moduleType (by decide)
  refine hP.read horg absurd (fun organizationId horg => ?_) (hmissed _ horg)
  refine hP.read hcreated absurd (fun createdAt hcreated => ?_) (hmissed _ hcreated)
  refine hP.read hname absurd (fun name hname => ?_) (hmissed _ hname)
  refine hP.read hfolder absurd (fun folder hfolder => ?_) (hmissed _ hfolder)
  have huploaded : ∀ w, P w ∧ w.body = b → ∀ r : Result,
      r.key = ⟨organizationId, createdAt, folder, name⟩ →
        P { w with
            objects := w.objects.upsert r (fun old => { r with key := old.key })
              (fun o => Eq.refl o.key) } ∧
          World.HasResult { w with
            objects := w.objects.upsert r (fun old => { r with key := old.key })
              (fun o => Eq.refl o.key) } := by
    rintro w ⟨hw, rfl⟩ r hr
    refine ⟨hP w _ (.uploaded hstep ?_) hw, ?_⟩
    · rw [hr]
      exact ⟨horg, hcreated, hfolder, hname⟩
    · obtain ⟨o, ho, hkey⟩ := w.objects.exists_upsert r (fun old => { r with key := old.key })
        (fun o => Eq.refl o.key)
      refine ⟨o, ho, ?_⟩
      rw [hkey, hr]
      exact ⟨horg, hcreated, hfolder, hname⟩
  refine Spec.call (fun _ w hw => huploaded w hw _ rfl) (fun href w hw => ?_) fun _ w hw => ?_
  · exact ⟨hw.1, Or.inr (Or.inr ⟨rfl, href⟩)⟩
  · exact ⟨(huploaded w hw _ rfl).1, Or.inl (huploaded w hw _ rfl).2⟩

/-- The previous result is loaded, or not; that is never an error. -/
theorem loadPreviousResult_spec (hstep : step = .process) :
    Spec P (loadPreviousResult env) (fun _ => P) fun _ _ => False := by
  have hread : ∀ f ∈ [Field.organizationId, .createdAt, .moduleName], f ∈ step.reads := by
    subst hstep
    decide
  have hload : Keeps P (do
      let _ ← getOrganizationId
      let _ ← getCreatedAt
      let _ ← getModule
      pure env.previousResult : Act Bool) := by
    refine hP.read_keeps (hread .organizationId (by decide)) absurd fun _ => ?_
    refine hP.read_keeps (hread .createdAt (by decide)) absurd fun _ => ?_
    exact hP.read_keeps (hread .moduleName (by decide)) absurd fun _ => .pure _
  exact hload.spec.caught fun _ => Spec.pure fun _ h => h

/-- **A timeout of `Process`** is raised only after the result object is there. -/
theorem handleTaskTimeout_spec (hstep : step = .process) :
    Spec P (HandleTaskTimeout.checkTimeout env) (fun _ => P)
      fun e w => P w ∧ (e = .taskTimeout → w.HasResult) := by
  have hbase : step.base = .checkTimeoutThreshold := by rw [hstep]; rfl
  refine Spec.caught (checkTaskTimeout_keeps hP hbase).spec fun e => ?_
  split
  · refine ((loadPreviousResult_spec hP hstep).mono (fun _ h => h) (fun _ _ h => h)
      fun _ _ h => h.elim).bind fun data => ?_
    refine ((saveResultToFile_spec hP hstep true false data).mono (fun _ h => h) (fun _ _ h => h)
      fun e w h => ⟨h.1, ?_⟩).bind fun _ => Spec.raise fun w hw => ⟨hw.1, fun _ => hw.2⟩
    rintro rfl
    obtain ⟨-, hresult | ⟨f, -, hf, -⟩ | ⟨hf, -⟩⟩ := h
    · exact hresult
    · cases hf
    · cases hf
  · rename_i hne
    exact Spec.raise fun w hw => ⟨hw, fun h => absurd h hne⟩

theorem checkTimeout_keeps : Keeps P (step.checkTimeout env) := by
  unfold Step.checkTimeout
  split
  · rename_i hbase
    split
    · rename_i hstep
      exact (handleTaskTimeout_spec hP hstep).mono (fun _ h => h) (fun _ _ h => h) fun _ _ h => h.1
    · exact checkTaskTimeout_keeps hP hbase
  · rename_i hbase
    exact checkWaitTimeout_keeps hP hbase
  · exact .pure _
  · exact .pure _

end Parts

/-! ## Children -/

section Children

variable (hP : Unbroken M env step P) {folder : Folder} {s : TaskState}
  (hstep : step.initializes = some (folder, s)) (hservice : env.service = .done)
include hP hstep

omit hP in
theorem initializes_reads :
    ∀ f ∈ [Field.createdAt, .checklistId, .organizationId, .taskTimeout, .maxRetries],
      f ∈ step.reads := by
  cases step <;> first | decide | cases hstep

/-- **The body of a child** has what it needs of the task's. -/
theorem getChildTask_spec (name : String) (b : Body) :
    Spec (fun w => P w ∧ w.body = b) (getChildTask env folder name)
      (fun c w => (P w ∧ w.body = b) ∧ c = b.childFor env folder name) fun _ => P := by
  have hread := initializes_reads hstep
  refine hP.read (hread .createdAt (by decide)) absurd (fun createdAt hcreated => ?_) fun _ h _ _ => h
  refine hP.read (hread .checklistId (by decide)) absurd (fun checklistId hcheck => ?_) fun _ h _ _ => h
  refine hP.read (hread .organizationId (by decide)) absurd (fun organizationId horg => ?_) fun _ h _ _ => h
  refine hP.read (hread .taskTimeout (by decide)) absurd (fun taskTimeout htimeout => ?_) fun _ h _ _ => h
  refine hP.read (hread .maxRetries (by decide)) absurd (fun maxRetries hmax => ?_) fun _ h _ _ => h
  refine Spec.pure fun w hw => ⟨hw, ?_⟩
  rw [Body.childFor, hcreated, hcheck, horg, htimeout, hmax]

theorem childrenParams_spec (b : Body) (modules : List String) :
    Spec (fun w => P w ∧ w.body = b) (childrenParams env folder modules)
      (fun cs w => (P w ∧ w.body = b) ∧ cs = modules.map (b.childFor env folder)) fun _ => P := by
  induction modules with
  | nil => exact Spec.pure fun w hw => ⟨hw, rfl⟩
  | cons name modules ih =>
    refine (getChildTask_spec hP hstep name b).bind fun c w ⟨hw, hc⟩ => ?_
    refine Spec.bind (P := fun w => P w ∧ w.body = b) ih (fun cs => ?_) w hw
    intro w ⟨hw, hcs⟩
    exact Spec.pure (P := fun w => P w ∧ w.body = b) (fun w hw => ⟨hw, by rw [hc, hcs]; rfl⟩) w hw

include hservice

/-- **The children are put on the queue** one after the other. -/
theorem createChildren_spec (b : Body) (names : List String) :
    (∀ name ∈ names, name ∈ enabled M env folder) → ∀ (i : ℕ) (before : List Body),
      (i = 0 ∨ env.child 0 = .done) →
      Spec (fun w => P w ∧ w.body = b ∧ ∀ c ∈ before, c ∈ w.children)
        (createChildren env i (names.map (b.childFor env folder)))
        (fun _ w => P w ∧ w.body = b ∧
          ∀ c ∈ before ++ names.map (b.childFor env folder), c ∈ w.children) fun _ => P := by
  induction names with
  | nil =>
    intro _ i before _
    exact Spec.pure fun w hw => by simpa using hw
  | cons name names ih =>
    intro hnames i before hfirst
    obtain ⟨hname, hnames⟩ := List.forall_mem_cons.mp hnames
    have hput : env.child i ≠ .refused → ∀ w,
        P w ∧ w.body = b ∧ (∀ c ∈ before, c ∈ w.children) →
          P { w with children := w.children ++ [b.childFor env folder name] } := by
      rintro hcall w ⟨hw, rfl, -⟩
      refine hP w _ (.put hstep hname hservice ?_) hw
      rcases hfirst with rfl | hfirst
      · exact hcall
      · simp [hfirst]
    have hone : Spec (fun w => P w ∧ w.body = b ∧ ∀ c ∈ before, c ∈ w.children)
        (putChild (env.child i) (b.childFor env folder name))
        (fun _ w => (P w ∧ w.body = b ∧
          ∀ c ∈ before ++ [b.childFor env folder name], c ∈ w.children) ∧ env.child i = .done)
        fun _ => P := by
      refine Spec.call (fun hdone w hw => ⟨⟨hput (by simp [hdone]) w hw, hw.2.1, fun c hc => ?_⟩, hdone⟩)
        (fun _ w hw => hw.1) fun hbroken w hw => hput (by simp [hbroken]) w hw
      rcases List.mem_append.mp hc with hc | hc
      · exact List.mem_append_left _ (hw.2.2 c hc)
      · exact List.mem_append_right _ hc
    refine hone.bind fun _ w ⟨hw, hdone⟩ => ?_
    have hfirst' : env.child 0 = .done := by
      rcases hfirst with rfl | hfirst
      · exact hdone
      · exact hfirst
    have hrest := ih hnames (i + 1) (before ++ [b.childFor env folder name]) (Or.inr hfirst')
    rw [List.append_assoc, List.singleton_append] at hrest
    exact hrest w hw

/-- **Creating the children** leaves one on the queue for every module. -/
theorem createChildrenTasks_spec (b : Body) :
    Spec (fun w => P w ∧ w.body = b) (createChildrenTasks env folder (enabled M env folder))
      (fun _ w => P w ∧ w.body = b ∧
        ∀ name ∈ enabled M env folder, b.childFor env folder name ∈ w.children) fun _ => P := by
  refine (childrenParams_spec hP hstep b _).bind fun cs w ⟨hw, hcs⟩ => ?_
  subst hcs
  refine ((createChildren_spec hP hstep hservice b (enabled M env folder) (fun _ h => h) 0 []
    (Or.inl rfl)).mono (fun _ h => h) (fun _ w h => ?_) fun _ _ h => h) w ⟨hw.1, hw.2, by simp⟩
  exact ⟨h.1, h.2.1, fun name hname => h.2.2 _ (List.mem_map_of_mem hname)⟩

theorem setChildrenCount_keeps (b : Body)
    (hsome : enabled M env folder = [] → step ≠ .initializeChecklist) :
    Spec (fun w => P w ∧ w.body = b ∧
        ∀ name ∈ enabled M env folder, b.childFor env folder name ∈ w.children)
      (setChildrenCount (enabled M env folder) s) (fun _ => P) fun _ => P := by
  refine Spec.change ?_
  rintro w ⟨hw, rfl, hall⟩
  exact hP w _ (.counted hstep hservice hsome hall) hw

end Children

/-! ## Executions -/

theorem listModules_spec (folder : Folder) :
    Spec P (listModules M env folder)
      (fun names w => P w ∧ env.service = .done ∧ names = enabled M env folder) fun _ => P := by
  have hcall : Spec P (callOut env.service) (fun _ w => P w ∧ env.service = .done) fun _ => P :=
    Spec.call (fun hdone _ hw => ⟨hw, hdone⟩) (fun _ _ hw => hw) fun _ _ hw => hw
  exact hcall.bind fun _ => Spec.pure fun _ h => ⟨h.1, h.2, rfl⟩

section Executions

variable (hP : Unbroken M env step P)
include hP

theorem setState_keeps {s : TaskState} (hs : step.Moves M env s) : Keeps P (setState s) :=
  .change fun w hw => hP w _ (.moved hs) hw

theorem initializeChecklist_keeps (hstep : step = .initializeChecklist) :
    Keeps P (InitializeChecklist.perform M env) := by
  have hinit : step.initializes = some (.recommendations, .initializedChecklist) := by
    rw [hstep]
    rfl
  refine (listModules_spec .recommendations).bind fun names w ⟨hw, hservice, hnames⟩ => ?_
  subst hnames
  by_cases hnone : enabled M env .recommendations = []
  · rw [if_pos hnone]
    have hmoves : step.Moves M env .waitedService := by
      rw [hstep]
      exact ⟨rfl, hnone⟩
    exact setState_keeps hP hmoves w hw
  · rw [if_neg hnone]
    exact Spec.bind (P := fun u => P u ∧ u.body = w.body)
      (createChildrenTasks_spec hP hinit hservice w.body)
      (fun _ => setChildrenCount_keeps hP hinit hservice w.body fun h => absurd h hnone) w ⟨hw, rfl⟩

theorem initializeService_keeps {folder : Folder} {s : TaskState}
    (hinit : step.initializes = some (folder, s)) (hother : step ≠ .initializeChecklist) :
    Keeps P (InitializeService.perform M env folder s) := by
  refine (listModules_spec folder).bind fun names w ⟨hw, hservice, hnames⟩ => ?_
  subst hnames
  exact Spec.bind (P := fun u => P u ∧ u.body = w.body)
    (createChildrenTasks_spec hP hinit hservice w.body)
    (fun _ => setChildrenCount_keeps hP hinit hservice w.body fun _ => hother) w ⟨hw, rfl⟩

theorem waitTasksResult_keeps {folder : Folder} {s : TaskState}
    (hwaits : step.waits = some (folder, s)) : Keeps P (WaitTasksResult.perform env folder s) := by
  have hread : ∀ f ∈ [Field.organizationId, .createdAt, .childrenCount], f ∈ step.reads := by
    cases step <;> first | decide | cases hwaits
  refine hP.read_keeps (hread .organizationId (by decide)) absurd fun organizationId => ?_
  refine hP.read_keeps (hread .createdAt (by decide)) absurd fun createdAt => ?_
  refine (callOut_keeps env.service).bind fun _ => ?_
  refine (Keeps.read _).bind fun objects => ?_
  refine hP.read_keeps (hread .childrenCount (by decide)) absurd fun childrenCount => ?_
  split
  · exact .change fun w hw => hP w _ (.waited hwaits) hw
  · exact .pure _

theorem loadResults_keeps {folder : Folder} (horg : .organizationId ∈ step.reads)
    (hcreated : .createdAt ∈ step.reads) : Keeps P (loadResults env folder) := by
  refine hP.read_keeps horg absurd fun organizationId => ?_
  refine hP.read_keeps hcreated absurd fun createdAt => ?_
  refine (callOut_keeps env.service).bind fun _ => ?_
  exact (Keeps.read _).bind fun objects => .pure _

theorem collectCheckResult_keeps (hstep : step = .collectCheckResult) :
    Keeps P (CollectCheckResult.perform env) := by
  subst hstep
  refine (loadResults_keeps hP (by decide) (by decide)).bind fun results => ?_
  refine Keeps.bind ?_ fun _ => ?_
  · split
    · exact .pure _
    · unfold saveResult
      split
      · exact .raise _
      · exact callOut_keeps _
  · split
    · exact setState_keeps hP (Or.inr rfl)
    · exact setState_keeps hP (Or.inl rfl)

theorem checkArchiveResult_keeps (hstep : step = .checkArchiveResult) :
    Keeps P (CheckArchiveResult.perform env) := by
  subst hstep
  refine (setState_keeps hP (Or.inl rfl)).bind fun _ => ?_
  refine (loadResults_keeps hP (by decide) (by decide)).bind fun results => ?_
  split
  · exact setState_keeps hP (Or.inr rfl)
  · exact .pure _

theorem updateChecklist_keeps (hstep : step = .updateChecklist) :
    Keeps P (UpdateChecklist.perform env) := by
  subst hstep
  refine hP.read_keeps (by decide) absurd fun _ => ?_
  refine hP.read_keeps (by decide) absurd fun _ => ?_
  exact (callOut_keeps env.write).bind fun _ => setState_keeps hP rfl

theorem callModule_keeps (hstep : step = .process) : Keeps P (callModule env) := by
  subst hstep
  refine Keeps.caught ?_ fun _ => ?_
  · refine hP.read_keeps (by decide) absurd fun _ => ?_
    refine hP.read_keeps (by decide) absurd fun _ => ?_
    refine hP.read_keeps (by decide) absurd fun _ => ?_
    exact hP.read_keeps (by decide) absurd fun _ => .pure _
  · refine hP.read_keeps (by decide) absurd fun _ => ?_
    refine hP.read_keeps (by decide) absurd fun _ => ?_
    exact hP.read_keeps (by decide) absurd fun _ => .pure _

theorem setProcessed_spec (hstep : step = .process) :
    Spec (fun w => P w ∧ w.HasResult) (setState .processed) (fun _ => P) fun _ => P :=
  Spec.change fun w hw => hP w _ (.processed hstep hw.2) hw.1

theorem process_keeps (hstep : step = .process) : Keeps P (Process.perform env) := by
  have hsave : ∀ timeoutError error data : Bool,
      Spec P (saveResultToFile env timeoutError error data) (fun _ w => P w ∧ w.HasResult)
        fun _ => P := fun timeoutError error data =>
    (saveResultToFile_spec hP hstep timeoutError error data).mono (fun _ h => h) (fun _ _ h => h)
      fun _ _ h => h.1
  refine (callOut_keeps env.service).bind fun _ => ?_
  refine (Keeps.read _).bind fun b => ?_
  split
  · exact (hsave false false true).bind fun _ => setProcessed_spec hP hstep
  · exact (callModule_keeps hP hstep).spec.bind fun error =>
      (hsave false error true).bind fun _ => setProcessed_spec hP hstep

theorem getFailedModules_keeps (horg : .organizationId ∈ step.reads)
    (hcreated : .createdAt ∈ step.reads) : Keeps P (getFailedModules env) := by
  refine hP.read_keeps horg absurd fun _ => ?_
  exact hP.read_keeps hcreated absurd fun _ => callOut_keeps _

theorem cleanup_keeps (hstep : step = .cleanup) : Keeps P (Cleanup.perform env) := by
  have hread : ∀ f ∈ [Field.organizationId, .createdAt], f ∈ step.reads := by
    subst hstep
    decide
  refine hP.read_keeps (hread .organizationId (by decide)) absurd fun organizationId => ?_
  refine (callOut_keeps env.service).bind fun _ => ?_
  refine spec_of_body fun b => ?_
  refine hP.read (hread .createdAt (by decide)) absurd (fun createdAt hcreated => ?_) fun _ h _ _ => h
  have hbucket : Spec (fun w => P w ∧ w.body = b) bucket
      (fun objects w => P w ∧ w.body = b ∧ w.objects = objects) fun _ => P :=
    Triple.read (fun w objects hw h => ⟨hw.1, hw.2, Except.ok.inj h⟩) fun w hw => hw.1
  refine hbucket.bind fun objects => ?_
  split
  · exact Spec.pure fun w hw => hw.1
  · have hcleaned : ∀ w, P w ∧ w.body = b ∧ w.objects = objects → P { w with
        objects := w.objects.deleteWhere fun o => o ∈ outdated objects organizationId createdAt } := by
      rintro w ⟨hw, rfl, rfl⟩
      exact hP w _ (.cleaned hstep hcreated) hw
    exact Spec.call (fun _ => hcleaned) (fun _ w hw => hw.1) fun _ => hcleaned

theorem setFailed_keeps (hcheck : .checklistId ∈ step.reads) (hcreated : .createdAt ∈ step.reads) :
    Keeps P (SetFailed.perform env) := by
  refine (Keeps.read _).bind fun b => ?_
  split
  · refine hP.read_keeps hcheck absurd fun _ => ?_
    exact hP.read_keeps hcreated absurd fun _ => callOut_keeps _
  · exact .pure _

/-- **What no change breaks, the own part of a step keeps.** -/
theorem perform_keeps : Keeps P (step.perform M env) := by
  cases step with
  | setStarted => exact setState_keeps hP rfl
  | initializeChecklist => exact initializeChecklist_keeps hP rfl
  | waitChecklist => exact waitTasksResult_keeps hP rfl
  | collectCheckResult => exact collectCheckResult_keeps hP rfl
  | initializeArchive => exact initializeService_keeps hP rfl (by decide)
  | waitArchive => exact waitTasksResult_keeps hP rfl
  | checkArchiveResult => exact checkArchiveResult_keeps hP rfl
  | initializeService => exact initializeService_keeps hP rfl (by decide)
  | waitService => exact waitTasksResult_keeps hP rfl
  | updateChecklist => exact updateChecklist_keeps hP rfl
  | setSucceededNotifiable => exact getFailedModules_keeps hP (by decide) (by decide)
  | setFailedNotifiable =>
    exact (getFailedModules_keeps hP (by decide) (by decide)).bind fun _ =>
      setFailed_keeps hP (by decide) (by decide)
  | process => exact process_keeps hP rfl
  | cleanup => exact cleanup_keeps hP rfl
  | setFailed => exact setFailed_keeps hP (by decide) (by decide)

end Executions

section Closings

variable (hC : Closed step P)
include hC

theorem onContinue_keeps (c : Call) : Keeps P (onContinue c step.isDelayed) :=
  .call _ _ fun w hw => hC w _ .continued hw

theorem ack_keeps (c : Call) : Keeps P (ack c) := .call _ _ fun w hw => hC w _ .acked hw

theorem continueExecute_keeps : Keeps P (continueExecute step env) :=
  (onContinue_keeps hC _).bind fun _ => ack_keeps hC _

/-- **What no closing breaks, the base class keeps.** -/
theorem finish_keeps : Keeps P (step.finish env) := by
  unfold Step.finish
  split
  · exact Keeps.bind (.change fun w hw => hC w _ (.stamped _) hw) fun _ => continueExecute_keeps hC
  · exact continueExecute_keeps hC
  · exact continueExecute_keeps hC
  · exact ack_keeps hC _

/-- **A task may go on** if it was not timed out and has a try left. -/
theorem canContinue_spec (hbase : step.base ≠ .completeBase) (e : Exn) (b : Body) :
    Spec (fun w => P w ∧ w.body = b) (canContinue e)
      (fun c w => (P w ∧ w.body = b) ∧
        (c = true → ∃ n m, b.triesCount = some n ∧ b.maxRetries = some m ∧ n < m))
      fun _ => P := by
  have hread : ∀ f ∈ [Field.triesCount, .maxRetries], f ∈ step.reads := by
    revert hbase
    cases step <;> decide
  unfold canContinue
  split
  · exact Spec.pure fun w hw => ⟨hw, fun h => by cases h⟩
  · refine hC.missable.read (hread .triesCount (by decide)) absurd (fun n hn => ?_) fun _ h _ _ => h
    refine hC.missable.read (hread .maxRetries (by decide)) absurd (fun m hm => ?_) fun _ h _ _ => h
    exact Spec.pure fun w hw => ⟨hw, fun h => ⟨n, m, hn, hm, of_decide_eq_true h⟩⟩

theorem baseHandleException_keeps (hbase : step.base ≠ .completeBase) (e : Exn) :
    Keeps P (Base.handleException step env e) := by
  refine spec_of_body fun b => ?_
  refine (canContinue_spec hC hbase e b).bind fun continues w ⟨hw, hcont⟩ => ?_
  refine Spec.bind (P := fun u => P u ∧ u.body = b) (Q := fun _ => P) ?_
    (fun _ => onContinue_keeps hC _) w hw
  have hread : .triesCount ∈ step.reads := by
    revert hbase
    cases step <;> decide
  unfold noteException
  split
  · rename_i htrue
    obtain ⟨n, m, hn, hm, hlt⟩ := hcont htrue
    refine hC.missable.read hread absurd (fun n' hn' => ?_) fun _ h _ _ => h
    obtain rfl : n = n' := Option.some.inj (hn.symm.trans hn')
    refine Spec.change ?_
    rintro u ⟨hu, rfl⟩
    exact hC u _ (.retried hn hm hlt) hu
  · exact Spec.change fun u hu => hC u _ (.failed e hbase) hu.1

theorem handleException_keeps (e : Exn) : Keeps P (step.handleException env e) := by
  unfold Step.handleException
  split
  · rename_i hbase
    exact baseHandleException_keeps hC (by simp [hbase]) e
  · rename_i hbase
    exact Keeps.bind (.change fun w hw => hC w _ (.stamped _) hw) fun _ =>
      baseHandleException_keeps hC (by simp [hbase]) e
  · rename_i hbase
    exact baseHandleException_keeps hC (by simp [hbase]) e
  · rename_i hbase
    have hread : ∀ f ∈ [Field.lastUpdate, .waitTimeout], f ∈ step.reads := by
      revert hbase
      cases step <;> decide
    refine spec_of_body fun b => ?_
    refine hC.missable.read (hread .lastUpdate (by decide)) absurd (fun _ _ => ?_) fun _ h _ _ => h
    refine hC.missable.read (hread .waitTimeout (by decide)) absurd (fun _ _ => ?_) fun _ h _ _ => h
    split
    · exact (onContinue_keeps hC _).mono (fun _ h => h.1) (fun _ _ h => h) fun _ h => h
    · exact Spec.pure fun _ h => h.1

/-- **The invariant rule of a step**: what no change and no closing breaks, an execution keeps. -/
theorem execute_keeps (hP : Unbroken M env step P) : Keeps P (step.execute M env) := by
  have hattempt : Keeps P (step.attempt M env) :=
    (checkTimeout_keeps hP).bind fun _ => (perform_keeps hP).bind fun _ => finish_keeps hC
  refine hattempt.caught fun e => ?_
  refine ((handleException_keeps hC e).caught fun _ => .pure _).bind fun _ => ?_
  exact (ack_keeps hC _).bind fun _ => .raise _

end Closings

end Bumiworker
