import OptScale.Katara.Steps

/-!
# Katara/Changes — what a message can do

`Change` says once what the parts of a step do to its world.  What no change breaks, the processing of a
message keeps (`processTask_keeps`), wherever in a step an exception strikes.
-/

namespace Katara

open Session

variable {env : Env} {step : Step} {w : World} {P : World → Prop}

/-! ## Changes -/

/-- The state a step leads to. -/
def Step.next : Step → Option TaskState
  | .setStarted => some .started
  | .setGettingScopes => some .gettingScopes
  | .getScopes => some .gotScopes
  | .setGettingRecipients => some .gettingRecipients
  | .getRecipients => some .gotRecipients
  | .setGeneratingReportData => none
  | .checkingEmployeeEmailSettings => some .generatingData
  | .generateReportData => some .generatedData
  | .setPuttingToHerald => some .puttingToHerald
  | .putToHerald => none

/-- The recipients of a result are different users. -/
def Result.Distinct (r : Result) : Prop :=
  ∀ userRoles, r.userRoles = some userRoles → (userRoles.map UserRole.userId).Nodup

/-- What a step may write: its next state, with different recipients where it found them, and the two
last states. -/
def Step.Updates (step : Step) (state : TaskState) (result : Option Result) : Prop :=
  (step.next = some state ∧ (state = .gotRecipients → ∃ r, result = some r ∧ r.Distinct)) ∨
    ((state = .completed ∨ state = .error) ∧ result = none)

/-- The tasks of the recipients. -/
def childTasks (t : Task) (id : ℕ) (userRoles : List UserRole) : List Task :=
  userRoles.map (childTask t id (loadResult t.result))

/-- The world after tasks were created. -/
def World.withChildren (w : World) (env : Env) (tasks : List Task) : World :=
  { w with
    tasks := w.tasks ++ tasks
    created := w.created ++ tasks
    queued := w.queued ++
      putTasks env.put 0 (newMessages env.serviceNow w.tasks.length tasks.length) }

/-- **What a message can do.** -/
inductive Change (env : Env) (step : Step) (w : World) : World → Prop
  | noted {b : Body} (hid : b.taskId = w.body.taskId) : Change env step w { w with body := b }
  | updated {state : TaskState} {result : Option Result} (hupdates : step.Updates state result) :
      Change env step w
        { w with tasks := w.tasks.modify w.body.taskId (Task.edit env.serviceNow state result) }
  | created {t : Task} {userRoles : List UserRole} (hstep : step = .setGeneratingReportData)
      (hcreate : env.create ≠ .refused) (htask : w.tasks[w.body.taskId]? = some t)
      (hroles : (loadResult t.result).userRoles = some userRoles) :
      Change env step w (w.withChildren env (childTasks t w.body.taskId userRoles))
  | heralded {task : HeraldTask} (hstep : step = .putToHerald) (hid : task.taskId = w.body.taskId) :
      Change env step w { w with herald := w.herald ++ [task] }
  | published : Change env step w { w with published := w.published ++ [w.body] }
  | acked : Change env step w { w with acked := true }

/-- **What the answer of a message can do**, and that of an exception. -/
inductive Closing (env : Env) (w : World) : World → Prop
  | noted {b : Body} (hid : b.taskId = w.body.taskId) : Closing env w { w with body := b }
  | failed : Closing env w
      { w with tasks := w.tasks.modify w.body.taskId (Task.edit env.serviceNow .error none) }
  | published : Closing env w { w with published := w.published ++ [w.body] }
  | acked : Closing env w { w with acked := true }

/-- No change of the step breaks `P`. -/
def Unbroken (env : Env) (step : Step) (P : World → Prop) : Prop :=
  ∀ w w', Change env step w w' → P w → P w'

/-- No closing breaks `P`. -/
def Closed (env : Env) (P : World → Prop) : Prop := ∀ w w', Closing env w w' → P w → P w'

theorem Unbroken.closed (hP : Unbroken env step P) : Closed env P := by
  intro w w' hclosing
  cases hclosing with
  | noted hid => exact hP w _ (.noted hid)
  | failed => exact hP w _ (.updated (Or.inr ⟨Or.inr rfl, rfl⟩))
  | published => exact hP w _ .published
  | acked => exact hP w _ .acked

/-- **What a message leaves as it is**: the task it names, and the rows of the others. -/
structure Others (s : Store) (b : Body) (w : World) : Prop where
  taskId : w.body.taskId = b.taskId
  others : ∀ j < s.tasks.length, j ≠ b.taskId → w.tasks[j]? = s.tasks[j]?
  length : s.tasks.length ≤ w.tasks.length

theorem Others.fresh (s : Store) (b : Body) : Others s b (World.fresh s b) := ⟨rfl, fun _ _ _ => rfl, le_rfl⟩

theorem others_unbroken (s : Store) (b : Body) : Unbroken env step (Others s b) := by
  rintro w w' hchange ⟨hid, hothers, hlength⟩
  cases hchange with
  | noted h => exact ⟨h.trans hid, hothers, hlength⟩
  | updated _ =>
    refine ⟨hid, fun j hj hne => ?_, by rwa [List.length_modify]⟩
    rw [List.getElem?_modify_ne _ _ (by rw [hid]; exact Ne.symm hne)]
    exact hothers j hj hne
  | created _ _ _ _ =>
    refine ⟨hid, fun j hj hne => ?_, ?_⟩
    · rw [World.withChildren, List.getElem?_append_left (hj.trans_le hlength)]
      exact hothers j hj hne
    · rw [World.withChildren, List.length_append]
      omega
  | heralded _ _ => exact ⟨hid, hothers, hlength⟩
  | published => exact ⟨hid, hothers, hlength⟩
  | acked => exact ⟨hid, hothers, hlength⟩

/-! ## Recipients -/

/-- **One assignment of each user is left.** -/
theorem dropRepeated_perm (l : List UserRole) : ∀ (kept userRoles : List UserRole),
    (kept.map UserRole.userId).Nodup → userRoles.Perm (kept ++ l) →
      ∃ kept', (kept'.map UserRole.userId).Nodup ∧
        (dropRepeated l (kept.map UserRole.userId) userRoles).Perm kept' := by
  induction l with
  | nil =>
    intro kept userRoles hnodup hperm
    rw [List.append_nil] at hperm
    exact ⟨kept, hnodup, hperm⟩
  | cons userRole l ih =>
    intro kept userRoles hnodup hperm
    by_cases hin : userRole.userId ∈ kept.map UserRole.userId
    · rw [dropRepeated, if_pos hin]
      refine ih kept _ hnodup ?_
      have herase := (hperm.trans List.perm_middle).erase userRole
      rwa [List.erase_cons_head] at herase
    · have hkept : (kept ++ [userRole]).map UserRole.userId =
          kept.map UserRole.userId ++ [userRole.userId] := by simp
      rw [dropRepeated, if_neg hin, ← hkept]
      refine ih (kept ++ [userRole]) _ ?_ (by rwa [List.append_assoc])
      rw [hkept]
      exact List.nodup_append.mpr ⟨hnodup, List.nodup_singleton _, fun a ha b hb => by
        rintro rfl
        exact hin (List.mem_singleton.mp hb ▸ ha)⟩

theorem distinct_dropRepeated (r : Result) (userRoles : List UserRole) :
    ({ r with userRoles := some (dropRepeated userRoles [] userRoles) } : Result).Distinct := by
  intro userRoles' h
  obtain rfl := Option.some.inj h
  obtain ⟨kept, hnodup, hperm⟩ := dropRepeated_perm userRoles [] userRoles List.nodup_nil (List.Perm.refl _)
  exact (hperm.map UserRole.userId).nodup_iff.mpr hnodup

/-! ## Parts of a step -/

section Keeps

theorem callOut_keeps (c : Call) : Keeps P (callOut c) := .call c _ fun _ h => h

theorem taskGet_keeps (c : Call) : Keeps P (taskGet c) :=
  (callOut_keeps c).bind fun _ => .read _

/-- The task that is looked up is the one that is stored. -/
theorem taskGet_spec (c : Call) : Spec P (taskGet c)
    (fun t w => P w ∧ w.tasks[w.body.taskId]? = some t) fun _ => P := by
  refine (callOut_keeps c).spec.bind fun _ => ?_
  refine Triple.read (fun w t hw h => ⟨hw, ?_⟩) fun _ h => h
  revert h
  split
  · rename_i t' ht'
    intro h
    rw [ht', Except.ok.inj h]
  · intro h
    cases h

/-- What is read of the world is what the world has. -/
theorem read_spec {α β : Type} {E : Exn → World → Prop} (part : World → α) (f : α → β) :
    Spec P (read fun w => .ok (f (part w)) : Act β) (fun a w => P w ∧ f (part w) = a) E :=
  fun w hw => ⟨fun a w' h => by cases h; exact ⟨hw, rfl⟩, fun e w' h => by cases h⟩

theorem createReport_keeps : Keeps P (createReport env) := by
  unfold createReport
  split
  · exact .pure _
  · split
    · exact .pure _
    · exact (callOut_keeps _).bind fun _ => .pure _

end Keeps

section Closings

variable (hC : Closed env P)
include hC

theorem ack_keeps (c : Call) : Keeps P (ack c) := by
  refine (Keeps.read _).bind fun acked => ?_
  split
  · exact .raise _
  · exact .call c _ fun w hw => hC w _ .acked hw

theorem onContinue_keeps (c : Call) : Keeps P (onContinue c) :=
  .call c _ fun w hw => hC w _ .published hw

theorem checkTimeoutThreshold_keeps : Keeps P (checkTimeoutThresholdExecute env) := by
  refine (Keeps.read _).bind fun lastUpdate => ?_
  split
  · exact .raise _
  · refine Keeps.bind (.change fun w hw => ?_) fun _ =>
      (onContinue_keeps hC _).bind fun _ => ack_keeps hC _
    exact hC w { w with body := { w.body with lastUpdate := env.updateNow } } (.noted rfl) hw

theorem setFailed_keeps : Keeps P (SetFailed.execute env) := by
  refine (taskGet_keeps _).bind fun _ => ?_
  split
  · exact .raise _
  · refine (callOut_keeps _).bind fun _ => ?_
    refine Keeps.bind ((Keeps.read _).bind fun _ => .call _ _ fun w hw => hC w _ .failed hw) fun _ => ?_
    refine (Keeps.read _).bind fun disabled => ?_
    refine Keeps.bind ?_ fun _ => ack_keeps hC _
    split
    · exact .pure _
    · exact callOut_keeps _

theorem handleException_keeps (e : Exn) : Keeps P (handleException env e) := by
  refine (Keeps.read _).bind fun continues => ?_
  split
  · refine Keeps.bind (.change fun w hw => ?_) fun _ =>
      (onContinue_keeps hC _).bind fun _ => ack_keeps hC _
    exact hC w { w with body := { w.body with triesCount := w.body.triesCount + 1 } } (.noted rfl) hw
  · exact setFailed_keeps hC

/-- **What no closing breaks, the answer of an exception keeps.** -/
theorem handled_keeps (e : Exn) :
    Keeps P ((handleException env e).caught fun _ => ack env.lastAck) :=
  (handleException_keeps hC e).caught fun _ => ack_keeps hC _

end Closings

section Steps

variable (hP : Unbroken env step P)
include hP

theorem taskUpdate_keeps (c : Call) {state : TaskState} {result : Option Result}
    (h : step.Updates state result) : Keeps P (taskUpdate c env.serviceNow state result) :=
  (Keeps.read _).bind fun _ => .call c _ fun w hw => hP w _ (.updated h) hw

theorem setCompleted_keeps : Keeps P (setCompletedExecute env) :=
  (taskUpdate_keeps hP _ (Or.inr ⟨Or.inl rfl, rfl⟩)).bind fun _ => ack_keeps hP.closed _

/-- The end of a step that notes its next state. -/
theorem advance_keeps {state : TaskState} {result : Option Result} (hnext : step.next = some state)
    (hdistinct : state = .gotRecipients → ∃ r, result = some r ∧ r.Distinct) :
    Keeps P (taskUpdate env.update env.serviceNow state result >>= fun _ =>
      checkTimeoutThresholdExecute env : Act Unit) :=
  (taskUpdate_keeps hP _ (Or.inl ⟨hnext, hdistinct⟩)).bind fun _ => checkTimeoutThreshold_keeps hP.closed

theorem getScopes_keeps (hstep : step = .getScopes) : Keeps P (GetScopes.execute env) := by
  subst hstep
  refine (taskGet_keeps _).bind fun _ => ?_
  split
  · exact setCompleted_keeps hP
  · refine (callOut_keeps _).bind fun _ => ?_
    split
    · refine Keeps.bind (.change fun w hw => ?_) fun _ => .raise _
      exact hP w { w with body := { w.body with disabled := true } } (.noted rfl) hw
    · exact (callOut_keeps _).bind fun _ => advance_keeps hP rfl fun h => by cases h

theorem getRecipients_keeps (hstep : step = .getRecipients) : Keeps P (GetRecipients.execute env) := by
  subst hstep
  refine (taskGet_keeps _).bind fun task => ?_
  split
  · exact setCompleted_keeps hP
  · split
    · exact .raise _
    · refine (callOut_keeps _).bind fun _ => ?_
      dsimp only
      split
      · exact setCompleted_keeps hP
      · exact advance_keeps hP rfl fun _ => ⟨_, rfl, distinct_dropRepeated _ _⟩

theorem setGeneratingReportData_keeps (hstep : step = .setGeneratingReportData) :
    Keeps P (SetGeneratingReportData.execute env) := by
  refine (taskGet_spec _).bind fun task => ?_
  refine (read_spec World.body Body.taskId).bind fun id => ?_
  split
  · exact Spec.raise fun w hw => hw.1.1
  · rename_i userRoles hroles
    refine Spec.bind (Q := fun _ => P) ?_ fun _ => setCompleted_keeps hP
    unfold tasksCreate
    split
    · exact Spec.raise fun w hw => hw.1.1
    · rename_i hcreate
      refine Spec.bind (Q := fun _ => P) (Spec.change ?_) fun _ => ?_
      · rintro w ⟨⟨hw, htask⟩, rfl⟩
        exact hP w _ (.created hstep hcreate htask hroles) hw
      · split
        · exact Keeps.raise _
        · exact Keeps.pure _

theorem checkingEmployeeEmailSettings_keeps (hstep : step = .checkingEmployeeEmailSettings) :
    Keeps P (CheckingEmployeeEmailSettings.execute env) := by
  subst hstep
  refine (taskGet_keeps _).bind fun task => ?_
  split
  · exact .raise _
  · refine (callOut_keeps _).bind fun _ => ?_
    split
    · exact setCompleted_keeps hP
    · split
      · exact .raise _
      · refine (callOut_keeps _).bind fun _ => ?_
        split
        · exact advance_keeps hP rfl fun h => by cases h
        · exact setCompleted_keeps hP

theorem generateReportData_keeps (hstep : step = .generateReportData) :
    Keeps P (GenerateReportData.execute env) := by
  subst hstep
  refine (taskGet_keeps _).bind fun task => ?_
  refine (Keeps.read _).bind fun id => ?_
  split
  · exact .raise _
  · refine createReport_keeps.bind fun reportData => ?_
    split
    · exact (callOut_keeps _).bind fun _ => advance_keeps hP rfl fun h => by cases h
    · exact setCompleted_keeps hP

theorem putToHerald_keeps (hstep : step = .putToHerald) : Keeps P (PutToHerald.execute env) := by
  refine (taskGet_keeps _).bind fun task => ?_
  refine (read_spec World.body Body.taskId).bind fun id => ?_
  have hput : ∀ url, Spec (fun w => P w ∧ w.body.taskId = id)
      (onComplete env.herald ⟨url, id, maxRetries⟩) (fun _ => P) fun _ => P := by
    intro url
    have hheralded : ∀ w, P w ∧ w.body.taskId = id →
        P { w with herald := w.herald ++ [⟨url, id, maxRetries⟩] } := by
      rintro w ⟨hw, rfl⟩
      exact hP w _ (.heralded hstep rfl) hw
    exact Spec.call (fun _ => hheralded) (fun _ w hw => hw.1) fun _ => hheralded
  have hcompleted : ∀ e, Keeps P (setCompletedExecute env >>= fun _ => raise e : Act Unit) :=
    fun e => (setCompleted_keeps hP).bind fun _ => Keeps.raise e
  refine Spec.bind (Spec.caught ?_ fun e => (hcompleted e).spec) fun _ => setCompleted_keeps hP
  split
  · exact Spec.pure fun w hw => hw.1
  · exact hput _

/-- **What no change breaks, a step keeps.** -/
theorem execute_keeps : Keeps P (step.execute env) := by
  cases step with
  | setStarted => exact advance_keeps hP rfl fun h => by cases h
  | setGettingScopes => exact advance_keeps hP rfl fun h => by cases h
  | getScopes => exact getScopes_keeps hP rfl
  | setGettingRecipients => exact advance_keeps hP rfl fun h => by cases h
  | getRecipients => exact getRecipients_keeps hP rfl
  | setGeneratingReportData => exact setGeneratingReportData_keeps hP rfl
  | checkingEmployeeEmailSettings => exact checkingEmployeeEmailSettings_keeps hP rfl
  | generateReportData => exact generateReportData_keeps hP rfl
  | setPuttingToHerald => exact advance_keeps hP rfl fun h => by cases h
  | putToHerald => exact putToHerald_keeps hP rfl

/-- **What no change breaks, a run of a step keeps.** -/
theorem run_keeps : Keeps P (step.run env) := by
  refine (execute_keeps hP).caught fun e => ?_
  refine Keeps.bind ?_ fun _ => .raise _
  exact (handled_keeps hP.closed e).caught fun _ => .pure _

end Steps

/-! ## Messages -/

/-- **An execution that succeeds** is all there is. -/
theorem run_of_ok {w' : World} (h : step.execute env w = (.ok (), w')) : (step.run env w).2 = w' := by
  rw [Step.run, caught_of_ok h]

/-- **An execution that fails** is handled, and if that fails acknowledged. -/
theorem run_of_error {w' : World} {e : Exn} (h : step.execute env w = (.error e, w')) :
    (step.run env w).2 = ((handleException env e).caught (fun _ => ack env.lastAck) w').2 := by
  rw [Step.run, caught_of_error h, bind_of_ok (caught_pure _ _)]
  rfl

/-- **A message is dropped or its step run**: dropped where the task cannot be looked up, or has no
transition. -/
theorem processTask_cases (env : Env) (w : World) :
    (processTask env w = (ack env.ack w).2 ∧ ∀ t, w.tasks[w.body.taskId]? = some t →
      env.lookup = .done → tasksTransitions t.state = none) ∨
    ∃ t step, w.tasks[w.body.taskId]? = some t ∧ tasksTransitions t.state = some step ∧
      env.lookup = .done ∧ processTask env w = (step.run env w).2 := by
  have hraise : ∀ c : Call, c ≠ .done → env.lookup = c →
      lookupStep env w = (.error .external, w) := by
    intro c hc henv
    have hcall : callOut env.lookup w = (.error .external, w) := by
      rw [henv]
      cases c with
      | done => exact absurd rfl hc
      | refused => rfl
      | broken => rfl
    exact bind_of_error (bind_of_error hcall)
  by_cases hlookup : env.lookup = .done
  · have hcall : callOut env.lookup w = (.ok (), w) := by
      rw [hlookup]
      rfl
    cases htask : w.tasks[w.body.taskId]? with
    | none =>
      have hget : taskGet env.lookup w = (.error .external, w) := by
        refine (bind_of_ok hcall).trans ?_
        rw [storedTask, Session.read, htask]
      left
      refine ⟨?_, fun t ht => by cases ht⟩
      rw [processTask, lookupStep, bind_of_error hget]
    | some t =>
      have hget : taskGet env.lookup w = (.ok t, w) := by
        refine (bind_of_ok hcall).trans ?_
        rw [storedTask, Session.read, htask]
      cases hstep : tasksTransitions t.state with
      | none =>
        left
        refine ⟨?_, fun t' ht' _ => Option.some.inj ht' ▸ hstep⟩
        rw [processTask, lookupStep, bind_of_ok hget, hstep]
        rfl
      | some step =>
        right
        refine ⟨t, step, rfl, hstep, hlookup, ?_⟩
        rw [processTask, lookupStep, bind_of_ok hget, hstep]
        rfl
  · left
    refine ⟨?_, fun t _ h => absurd h hlookup⟩
    rw [processTask, hraise _ hlookup rfl]

/-- **The invariant rule of a message.** -/
theorem processTask_keeps (hP : ∀ step, Unbroken env step P) (hw : P w) : P (processTask env w) := by
  rcases processTask_cases env w with ⟨h, -⟩ | ⟨t, step, -, -, -, h⟩
  · rw [h]
    exact (ack_keeps (hP .setStarted).closed _).apply hw
  · rw [h]
    exact (run_keeps (hP step)).apply hw

end Katara
