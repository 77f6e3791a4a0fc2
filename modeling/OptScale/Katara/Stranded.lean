import OptScale.Katara.Changes

/-!
# Katara/Stranded — every unfinished task has its message

A task that is not finished goes on as long as exactly one message names it.  In a run whose steps lose no
message — the task is found, nothing fails after a publication, an exception is answered by another
message or by the state `error` — each task is finished or has exactly one message.
-/

namespace Katara

open Session

variable {env : Env} {step : Step} {w : World} {s : Store} {b : Body} {t : Task}

/-! ## Statements -/

/-- Each task is finished, or has exactly one message. -/
def Unstranded (q : Queue) : Prop :=
  ∀ i t, q.store.tasks[i]? = some t → t.state.finished = true ∨
    q.queue.countP (fun m => m.taskId = i) = 1

/-- The messages of `n` tasks all get on the queue. -/
def AllPut (put : ℕ → Call) (n : ℕ) : Prop :=
  ∀ i < n, put i ≠ .refused ∧ (i + 1 < n → put i = .done)

/-- The last step of the task is too long ago. -/
def Body.TimedOut (b : Body) (env : Env) : Prop := env.checkNow - b.lastUpdate > maxUpdateThreshold

/-- The task is put on the queue once more and its message acknowledged, or neither. -/
def Retried (env : Env) : Prop :=
  match env.republish with
  | .done => env.reack ≠ .refused ∨ env.lastAck ≠ .refused
  | .refused => env.lastAck = .refused
  | .broken => env.lastAck ≠ .refused

/-- The failure of the task is noted: its schedule is still there, and no call before that fails. -/
def Noted (env : Env) : Prop :=
  env.failGet = .done ∧ env.failSchedule ≠ none ∧ env.failOrganization = .done ∧
    env.failUpdate ≠ .refused

/-- **No message is lost**: the task is found, no call fails after the continuation was published, and
where an exception strikes, the task is tried again, or its failure noted, or its message kept; and the
tasks of its recipients all get on the queue. -/
structure Safe (env : Env) (t : Task) (b : Body) : Prop where
  lookup : env.lookup = .done ∨ env.ack = .refused
  continuation : env.publish = .refused ∨ (env.publish = .done ∧ env.ack = .done)
  retried : b.triesCount < maxRetries → Retried env
  failed : maxRetries ≤ b.triesCount ∨ b.TimedOut env → Noted env ∨ env.lastAck = .refused
  children : ∀ userRoles, t.state = .gotRecipients →
    (loadResult t.result).userRoles = some userRoles → env.create ≠ .refused →
      AllPut env.put userRoles.length

/-- The step of an unfinished task loses no message. -/
def SafeStep (q : Queue) (e : Event) (_ : Queue) : Prop :=
  match e with
  | .deliver place env => ∀ b t, q.queue[place]? = some b → q.store.tasks[b.taskId]? = some t →
      t.state.finished = false → Safe env t b
  | .generate schedules _ put => AllPut put schedules.length

/-! ## New messages -/

theorem putTasks_of_done {put : ℕ → Call} (ms : List Body) : ∀ i,
    (∀ j < ms.length, put (i + j) ≠ .refused ∧ (j + 1 < ms.length → put (i + j) = .done)) →
      putTasks put i ms = ms := by
  induction ms with
  | nil => exact fun _ _ => rfl
  | cons m ms ih =>
    intro i hput
    have hrest : put i = .done → putTasks put (i + 1) ms = ms := by
      refine fun _ => ih (i + 1) fun j hj => ?_
      rw [Nat.add_right_comm, Nat.add_assoc]
      exact (hput (j + 1) (Nat.succ_lt_succ hj)).imp_right fun h hj => h (Nat.succ_lt_succ hj)
    obtain ⟨hfirst, hdone⟩ := hput 0 (Nat.zero_lt_succ _)
    rw [Nat.add_zero] at hfirst hdone
    cases hcall : put i with
    | done => rw [putTasks, hcall]; exact congrArg _ (hrest hcall)
    | refused => exact absurd hcall hfirst
    | broken =>
      cases ms with
      | nil => rw [putTasks, hcall]
      | cons m' ms => simp [hcall] at hdone

/-- **Every new task has its message.** -/
theorem putTasks_newMessages {put : ℕ → Call} {n : ℕ} (hput : AllPut put n) (now : ℤ) (first : ℕ) :
    (putTasks put 0 (newMessages now first n)).map Body.taskId = List.range' first n := by
  have hlength : (newMessages now first n).length = n := by simp [newMessages]
  rw [putTasks_of_done _ 0 fun j hj => ?_]
  · rw [newMessages, List.map_map]
    exact List.map_id _
  · rw [hlength] at hj ⊢
    rw [Nat.zero_add]
    exact hput j hj

/-! ## What a message leaves of the others -/

/-- What a message leaves as it is, and one message for each task it creates. -/
structure Frame (step : Step) (s : Store) (b : Body) (w : World) : Prop extends Others s b w where
  published : ∀ m ∈ w.published, m.taskId = b.taskId
  queued : w.queued.map Body.taskId = List.range' s.tasks.length (w.tasks.length - s.tasks.length)
  result : step = .setGeneratingReportData →
    (w.tasks[b.taskId]?).map Task.result = (s.tasks[b.taskId]?).map Task.result

theorem Frame.fresh (step : Step) (s : Store) (b : Body) : Frame step s b (World.fresh s b) where
  toOthers := Others.fresh s b
  published _ hm := absurd hm List.not_mem_nil
  queued := by simp [World.fresh]
  result _ := rfl

theorem frame_unbroken (hstep : tasksTransitions t.state = some step)
    (htask : s.tasks[b.taskId]? = some t) (hsafe : Safe env t b) :
    Unbroken env step (Frame step s b) := by
  have hlt : b.taskId < s.tasks.length := (List.getElem?_eq_some_iff.mp htask).1
  rintro w w' hchange ⟨hothers, hpublished, hqueued, hresult⟩
  have hothers' := others_unbroken s b w w' hchange hothers
  obtain ⟨hid, -, hlength⟩ := hothers
  cases hchange with
  | noted _ => exact ⟨hothers', hpublished, hqueued, hresult⟩
  | @updated state result hupdates =>
    refine ⟨hothers', hpublished, ?_, fun h => ?_⟩
    · rwa [List.length_modify]
    · rw [← hresult h, ← hid, List.getElem?_modify_eq, Option.map_eq_map, Option.map_map]
      rcases hupdates with ⟨hnext, -⟩ | ⟨-, rfl⟩
      · subst h
        cases hnext
      · rfl
  | @created t' userRoles h hcreate htask' hroles =>
    have hsame : (loadResult t.result).userRoles = some userRoles := by
      have hkept := hresult h
      rw [← hid, htask', hid, htask] at hkept
      rw [← Option.some.inj hkept]
      exact hroles
    have hstate : t.state = .gotRecipients := by
      subst h
      revert hstep
      cases t.state <;> simp [tasksTransitions]
    have hput := hsafe.children userRoles hstate hsame hcreate
    have hnew := putTasks_newMessages (n := (childTasks t' w.body.taskId userRoles).length)
      (by rwa [childTasks, List.length_map]) env.serviceNow w.tasks.length
    refine ⟨hothers', hpublished, ?_, fun h => ?_⟩
    · simp only [World.withChildren, List.map_append, List.length_append, hqueued, hnew]
      rw [show w.tasks.length = s.tasks.length + (w.tasks.length - s.tasks.length) by omega,
        Nat.add_sub_cancel_left, List.range'_append_1]
      congr 1
      omega
    · rw [World.withChildren, List.getElem?_append_left (hlt.trans_le hlength)]
      exact hresult h
  | heralded _ _ => exact ⟨hothers', hpublished, hqueued, hresult⟩
  | published =>
    refine ⟨hothers', fun m hm => ?_, hqueued, hresult⟩
    rcases List.mem_append.mp hm with hm | hm
    · exact hpublished m hm
    · exact List.mem_singleton.mp hm ▸ hid
  | acked => exact ⟨hothers', hpublished, hqueued, hresult⟩

/-! ## What becomes of the message -/

/-- The task of the message is finished. -/
def World.Done (w : World) : Prop := ∃ t, w.tasks[w.body.taskId]? = some t ∧ t.state.finished = true

/-- The message is as it was, and its task is there. -/
def World.Waiting (w : World) : Prop :=
  w.published = [] ∧ w.acked = false ∧ ∃ t, w.tasks[w.body.taskId]? = some t

/-- The message was answered by one continuation. -/
def World.Answered (w : World) : Prop := w.published.length = 1 ∧ w.acked = true

/-- The step has not come to its end. -/
def Running (b : Body) (w : World) : Prop :=
  w.Waiting ∧ w.body.triesCount = b.triesCount ∧ w.body.lastUpdate = b.lastUpdate

/-- An exception has struck before the message was answered, or after its task was finished. -/
def Raised (b : Body) (env : Env) (e : Exn) (w : World) : Prop :=
  (w.Done ∨ w.Waiting) ∧ w.body.triesCount = b.triesCount ∧ (e = .timeout → b.TimedOut env)

theorem Running.raised (h : Running b w) {e : Exn} (he : e ≠ .timeout) : Raised b env e w :=
  ⟨Or.inr h.1, h.2.1, fun h => absurd h he⟩

theorem callOut_running (c : Call) :
    Spec (Running b) (callOut c) (fun _ => Running b) (Raised b env) :=
  Spec.call (fun _ _ hw => hw) (fun _ _ hw => hw.raised (by decide)) fun _ _ hw => hw.raised (by decide)

theorem taskGet_running (c : Call) :
    Spec (Running b) (taskGet c) (fun _ => Running b) (Raised b env) := by
  refine (callOut_running c).bind fun _ w hw => ⟨fun t w' h => ?_, fun e w' h => ?_⟩
  · obtain ⟨-, rfl⟩ := read_eq_ok.mp h
    exact hw
  · obtain ⟨herror, rfl⟩ := read_eq_error.mp h
    obtain ⟨t, ht⟩ := hw.1.2.2
    rw [ht] at herror
    cases herror

theorem read_running {α : Type} (f : World → α) :
    Spec (Running b) (read fun w => .ok (f w) : Act α) (fun _ => Running b) (Raised b env) :=
  fun w hw => ⟨fun a w' h => by cases h; exact hw, fun e w' h => by cases h⟩

/-- What a task that is there says of its update. -/
theorem taskUpdate_spec {P : World → Prop} {E : Exn → World → Prop} (c : Call) (now : ℤ)
    (state : TaskState) (result : Option Result) (hthere : ∀ w, P w → ∃ t, w.tasks[w.body.taskId]? = some t)
    (hrefused : c = .refused → ∀ w, P w → E .external w)
    (hbroken : c = .broken → ∀ w t, P w → w.tasks[w.body.taskId]? = some t → E .external { w with
      tasks := w.tasks.modify w.body.taskId (Task.edit now state result) }) :
    Spec P (taskUpdate c now state result) (fun _ w' => ∃ w t, P w ∧ w.tasks[w.body.taskId]? = some t ∧
      w' = { w with tasks := w.tasks.modify w.body.taskId (Task.edit now state result) }) E := by
  have hstored : Spec P storedTask (fun t w => P w ∧ w.tasks[w.body.taskId]? = some t) E := by
    intro w hw
    obtain ⟨t, ht⟩ := hthere w hw
    refine ⟨fun a w' h => ?_, fun e w' h => ?_⟩
    · obtain ⟨hok, rfl⟩ := read_eq_ok.mp h
      rw [ht] at hok
      exact ⟨hw, Except.ok.inj hok ▸ ht⟩
    · obtain ⟨herror, -⟩ := read_eq_error.mp h
      rw [ht] at herror
      cases herror
  exact hstored.bind fun t => Spec.call (fun _ w hw => ⟨w, t, hw.1, hw.2, rfl⟩)
    (fun h w hw => hrefused h w hw.1) fun h w hw => hbroken h w t hw.1 hw.2

theorem done_of_edit {now : ℤ} {state : TaskState} {result : Option Result}
    (ht : w.tasks[w.body.taskId]? = some t) (hstate : state.finished = true) : World.Done { w with
      tasks := w.tasks.modify w.body.taskId (Task.edit now state result) } :=
  ⟨_, by rw [List.getElem?_modify_eq, ht]; rfl, hstate⟩

theorem running_edit {now : ℤ} {state : TaskState} {result : Option Result}
    (ht : w.tasks[w.body.taskId]? = some t) (hw : Running b w) : Running b { w with
      tasks := w.tasks.modify w.body.taskId (Task.edit now state result) } :=
  ⟨⟨hw.1.1, hw.1.2.1, _, by rw [List.getElem?_modify_eq, ht]; rfl⟩, hw.2⟩

theorem ack_of_unacked {c : Call} (h : w.acked = false) :
    ack c w = call c .external (fun w => { w with acked := true }) w := by
  have hread : (read fun w => .ok w.acked : Act Bool) w = (.ok false, w) := by
    rw [Session.read, h]
  rw [ack, bind_of_ok hread]
  rfl

variable (env) in
/-- **A task that is finished** stays so. -/
theorem done_closed : Closed env World.Done := by
  rintro w w' hclosing ⟨t, ht, hfinished⟩
  cases hclosing with
  | noted hid => exact ⟨t, hid.symm ▸ ht, hfinished⟩
  | failed => exact done_of_edit ht rfl
  | published => exact ⟨t, ht, hfinished⟩
  | acked => exact ⟨t, ht, hfinished⟩

variable (env) in
/-- **The completion of a task.** -/
theorem setCompleted_running :
    Spec (Running b) (setCompletedExecute env) (fun _ => World.Done) (Raised b env) := by
  have hupdate : Spec (Running b) (taskUpdate env.update env.serviceNow .completed none)
      (fun _ w => w.Done ∧ w.body.triesCount = b.triesCount) (Raised b env) := by
    refine (taskUpdate_spec env.update env.serviceNow .completed none (fun w hw => hw.1.2.2)
      (fun _ w hw => hw.raised (by decide)) fun _ w t hw ht =>
        ⟨Or.inl (done_of_edit ht rfl), hw.2.1, fun h => by cases h⟩).mono (fun _ h => h) ?_ fun _ _ h => h
    rintro _ _ ⟨w, t, hw, ht, rfl⟩
    exact ⟨done_of_edit ht rfl, hw.2.1⟩
  refine hupdate.bind fun _ => ?_
  refine Spec.bind (Q := fun _ w => w.Done ∧ w.body.triesCount = b.triesCount)
    (fun w hw => ⟨fun a w' h => by cases h; exact hw, fun e w' h => by cases h⟩) fun acked => ?_
  split
  · exact Spec.raise fun w hw => ⟨Or.inl hw.1, hw.2, fun h => by cases h⟩
  · exact Spec.call (fun _ w hw => hw.1) (fun _ w hw => ⟨Or.inl hw.1, hw.2, fun h => by cases h⟩)
      fun _ w hw => ⟨Or.inl hw.1, hw.2, fun h => by cases h⟩

theorem setCompleted_answered :
    Spec (Running b) (setCompletedExecute env) (fun _ w => w.Done ∨ w.Answered) (Raised b env) :=
  (setCompleted_running env).mono (fun _ h => h) (fun _ _ => Or.inl) fun _ _ h => h

theorem raise_running {e : Exn} (he : e ≠ .timeout) :
    Spec (Running b) (raise e : Act Unit) (fun _ w => w.Done ∨ w.Answered) (Raised b env) :=
  Spec.raise fun _ hw => hw.raised he

theorem setGeneratingReportData_running : Spec (Running b) (SetGeneratingReportData.execute env)
    (fun _ w => w.Done ∨ w.Answered) (Raised b env) := by
  refine (taskGet_running _).bind fun task => ?_
  refine (read_running _).bind fun id => ?_
  split
  · exact raise_running (by decide)
  · refine Spec.bind (Q := fun _ => Running b) ?_ fun _ => setCompleted_answered
    unfold tasksCreate
    split
    · exact Spec.raise fun _ hw => hw.raised (by decide)
    · refine Spec.bind (Q := fun _ => Running b) (Spec.change fun w hw => ?_) fun _ => ?_
      · obtain ⟨⟨hpublished, hacked, t, ht⟩, hbody⟩ := hw
        refine ⟨⟨hpublished, hacked, t, ?_⟩, hbody⟩
        rw [List.getElem?_append_left (List.getElem?_eq_some_iff.mp ht).1]
        exact ht
      · split
        · exact Spec.raise fun _ hw => hw.raised (by decide)
        · exact Spec.pure fun _ hw => hw

theorem putToHerald_running : Spec (Running b) (PutToHerald.execute env)
    (fun _ w => w.Done ∨ w.Answered) (Raised b env) := by
  refine (taskGet_running _).bind fun task => ?_
  refine (read_running _).bind fun id => ?_
  refine Spec.bind (Q := fun _ => Running b) ?_ fun _ => setCompleted_answered
  refine Spec.caught (E := fun e w => Running b w ∧ e ≠ .timeout) ?_ fun e => ?_
  · split
    · exact Spec.pure fun _ hw => hw
    · exact Spec.call (fun _ _ hw => hw) (fun _ _ hw => ⟨hw, by decide⟩) fun _ _ hw => ⟨hw, by decide⟩
  · rintro w ⟨hw, he⟩
    refine Spec.bind (P := fun w => Running b w) (Q := fun _ w => w.Done ∧ w.body.triesCount = b.triesCount)
      ?_ (fun _ => Spec.raise fun w hw => ⟨Or.inl hw.1, hw.2, fun h => absurd h he⟩) w hw
    intro w hw
    refine ⟨fun a w' h => ⟨(setCompleted_running env).ok hw h, ?_⟩,
      fun e w' h => (setCompleted_running env).error hw h⟩
    have hkept : Keeps (fun w => w.body.triesCount = b.triesCount) (setCompletedExecute env) := by
      refine Keeps.bind ((Keeps.read _).bind fun _ => .call _ _ fun _ h => h) fun _ => ?_
      refine (Keeps.read _).bind fun acked => ?_
      split
      · exact .raise _
      · exact .call _ _ fun _ h => h
    exact hkept.ok hw.2.1 h

section Continuation

variable (hcontinuation : env.publish = .refused ∨ (env.publish = .done ∧ env.ack = .done))
include hcontinuation

/-- **The continuation of a task** is published and its message acknowledged, or neither. -/
theorem continueExecute_spec :
    Spec (fun w => w.Waiting ∧ w.body.triesCount = b.triesCount) (continueExecute env)
      (fun _ => World.Answered) (Raised b env) := by
  rcases hcontinuation with h | ⟨h, hack⟩
  · unfold continueExecute onContinue
    rw [h]
    refine Spec.bind (Q := fun _ _ => False) (Spec.call (fun h => by cases h)
      (fun _ w hw => ⟨Or.inr hw.1, hw.2, fun h => by cases h⟩) fun h => by cases h) fun _ w hw => hw.elim
  · rintro w ⟨⟨hpublished, hacked, -⟩, -⟩
    have hput : onContinue env.publish w =
        (.ok (), { w with published := w.published ++ [w.body] }) := by
      rw [h]
      rfl
    have hacked' : ack env.ack { w with published := w.published ++ [w.body] } =
        (.ok (), { w with published := w.published ++ [w.body], acked := true }) := by
      rw [hack]
      exact (ack_of_unacked (w := { w with published := w.published ++ [w.body] }) hacked).trans rfl
    have hrun : continueExecute env w =
        (.ok (), { w with published := w.published ++ [w.body], acked := true }) :=
      (bind_of_ok hput).trans hacked'
    rw [hrun]
    exact ⟨fun a w' h => by cases h; exact ⟨by simp [hpublished], rfl⟩, fun e w' h => by cases h⟩

theorem checkTimeoutThreshold_running :
    Spec (Running b) (checkTimeoutThresholdExecute env) (fun _ => World.Answered) (Raised b env) := by
  have hread : Spec (Running b) (read fun w => .ok w.body.lastUpdate : Act ℤ)
      (fun l w => Running b w ∧ w.body.lastUpdate = l) (Raised b env) :=
    read_spec World.body Body.lastUpdate
  refine hread.bind fun lastUpdate => ?_
  split
  · rename_i hlate
    refine Spec.raise fun w hw => ⟨Or.inr hw.1.1, hw.1.2.1, fun _ => ?_⟩
    rw [Body.TimedOut, ← hw.1.2.2, hw.2]
    exact hlate
  · refine Spec.bind (Q := fun _ w => w.Waiting ∧ w.body.triesCount = b.triesCount)
      (Spec.change fun w hw => ⟨hw.1.1, hw.1.2.1⟩) fun _ => continueExecute_spec hcontinuation

/-- **The end of a step that notes its next state.** -/
theorem advance_running (state : TaskState) (result : Option Result) :
    Spec (Running b) (taskUpdate env.update env.serviceNow state result >>= fun _ =>
      checkTimeoutThresholdExecute env : Act Unit) (fun _ => World.Answered) (Raised b env) := by
  refine Spec.bind (Q := fun _ => Running b) ?_ fun _ => checkTimeoutThreshold_running hcontinuation
  refine (taskUpdate_spec env.update env.serviceNow state result (fun w hw => hw.1.2.2)
    (fun _ w hw => hw.raised (by decide)) fun _ w t hw ht =>
      (running_edit ht hw).raised (by decide)).mono (fun _ h => h) ?_ fun _ _ h => h
  rintro _ _ ⟨w, t, hw, ht, rfl⟩
  exact running_edit ht hw

/-- The task is finished or its message answered. -/
theorem advance_answered (state : TaskState) (result : Option Result) :
    Spec (Running b) (taskUpdate env.update env.serviceNow state result >>= fun _ =>
      checkTimeoutThresholdExecute env : Act Unit) (fun _ w => w.Done ∨ w.Answered) (Raised b env) :=
  (advance_running hcontinuation state result).mono (fun _ h => h) (fun _ _ => Or.inr) fun _ _ h => h

theorem getScopes_running : Spec (Running b) (GetScopes.execute env)
    (fun _ w => w.Done ∨ w.Answered) (Raised b env) := by
  refine (taskGet_running _).bind fun _ => ?_
  split
  · exact setCompleted_answered
  · refine (callOut_running _).bind fun _ => ?_
    split
    · exact Spec.bind (Q := fun _ => Running b) (Spec.change fun w hw => hw) fun _ =>
        raise_running (by decide)
    · exact (callOut_running _).bind fun _ => advance_answered hcontinuation _ _

theorem getRecipients_running : Spec (Running b) (GetRecipients.execute env)
    (fun _ w => w.Done ∨ w.Answered) (Raised b env) := by
  refine (taskGet_running _).bind fun task => ?_
  split
  · exact setCompleted_answered
  · split
    · exact raise_running (by decide)
    · refine (callOut_running _).bind fun _ => ?_
      dsimp only
      split
      · exact setCompleted_answered
      · exact advance_answered hcontinuation _ _

theorem checkingEmployeeEmailSettings_running :
    Spec (Running b) (CheckingEmployeeEmailSettings.execute env)
      (fun _ w => w.Done ∨ w.Answered) (Raised b env) := by
  refine (taskGet_running _).bind fun task => ?_
  split
  · exact raise_running (by decide)
  · refine (callOut_running _).bind fun _ => ?_
    split
    · exact setCompleted_answered
    · split
      · exact raise_running (by decide)
      · refine (callOut_running _).bind fun _ => ?_
        split
        · exact advance_answered hcontinuation _ _
        · exact setCompleted_answered

theorem generateReportData_running : Spec (Running b) (GenerateReportData.execute env)
    (fun _ w => w.Done ∨ w.Answered) (Raised b env) := by
  refine (taskGet_running _).bind fun task => ?_
  refine (read_running _).bind fun id => ?_
  split
  · exact raise_running (by decide)
  · have hreport : Spec (Running b) (createReport env) (fun _ => Running b) (Raised b env) := by
      unfold createReport
      split
      · exact Spec.pure fun _ hw => hw
      · split
        · exact Spec.pure fun _ hw => hw
        · exact (callOut_running _).bind fun _ => Spec.pure fun _ hw => hw
    refine hreport.bind fun reportData => ?_
    split
    · exact (callOut_running _).bind fun _ => advance_answered hcontinuation _ _
    · exact setCompleted_answered

/-- **A step** finishes the task, answers the message by one continuation, or raises before that. -/
theorem execute_running : Spec (Running b) (step.execute env)
    (fun _ w => w.Done ∨ w.Answered) (Raised b env) := by
  cases step with
  | setStarted => exact advance_answered hcontinuation _ _
  | setGettingScopes => exact advance_answered hcontinuation _ _
  | getScopes => exact getScopes_running hcontinuation
  | setGettingRecipients => exact advance_answered hcontinuation _ _
  | getRecipients => exact getRecipients_running hcontinuation
  | setGeneratingReportData => exact setGeneratingReportData_running
  | checkingEmployeeEmailSettings => exact checkingEmployeeEmailSettings_running hcontinuation
  | generateReportData => exact generateReportData_running hcontinuation
  | setPuttingToHerald => exact advance_answered hcontinuation _ _
  | putToHerald => exact putToHerald_running

end Continuation

/-! ## Exceptions -/

theorem ack_of_acked {c : Call} (h : w.acked = true) : ack c w = (.error .acknowledged, w) := by
  have hread : (read fun w => .ok w.acked : Act Bool) w = (.ok true, w) := by
    rw [Session.read, h]
  rw [ack, bind_of_ok hread]
  rfl

/-- An acknowledgement that is not refused acknowledges. -/
theorem ack_acked {c : Call} (hc : c ≠ .refused) : (ack c w).2 = { w with acked := true } := by
  cases h : w.acked with
  | true =>
    rw [ack_of_acked h, ← h]
  | false =>
    rw [ack_of_unacked h]
    cases c with
    | refused => exact absurd rfl hc
    | _ => rfl

theorem ack_refused : (ack .refused w).2 = w := by
  cases h : w.acked with
  | true => rw [ack_of_acked h]
  | false =>
    rw [ack_of_unacked h]
    rfl

/-- **The failure of a task** finishes it, or raises where it cannot be noted. -/
theorem setFailed_waiting : Spec World.Waiting (SetFailed.execute env) (fun _ => World.Done)
    fun _ w => w.Done ∨ (w.Waiting ∧ ¬ Noted env) := by
  have hcall : ∀ c : Call, (c ≠ .done → ¬ Noted env) → Spec World.Waiting (callOut c)
      (fun _ => World.Waiting) fun _ w => w.Done ∨ (w.Waiting ∧ ¬ Noted env) := fun c hc =>
    Spec.call (fun _ _ hw => hw) (fun h _ hw => Or.inr ⟨hw, hc (by simp [h])⟩)
      fun h _ hw => Or.inr ⟨hw, hc (by simp [h])⟩
  have hget : Spec World.Waiting (taskGet env.failGet) (fun _ => World.Waiting)
      fun _ w => w.Done ∨ (w.Waiting ∧ ¬ Noted env) := by
    refine (hcall env.failGet fun h hnoted => h hnoted.1).bind fun _ w hw => ?_
    refine ⟨fun t w' h => (read_eq_ok.mp h).2 ▸ hw, fun e w' h => ?_⟩
    obtain ⟨t, ht⟩ := hw.2.2
    obtain ⟨herror, -⟩ := read_eq_error.mp h
    rw [ht] at herror
    cases herror
  refine hget.bind fun _ => ?_
  split
  · rename_i hnone
    exact Spec.raise fun w hw => Or.inr ⟨hw, fun hnoted => hnoted.2.1 hnone⟩
  · refine (hcall env.failOrganization fun h hnoted => h hnoted.2.2.1).bind fun _ => ?_
    -- from here on the task is finished
    have hupdate : Spec World.Waiting (taskUpdate env.failUpdate env.serviceNow .error none)
        (fun _ => World.Done) fun _ w => w.Done ∨ (w.Waiting ∧ ¬ Noted env) := by
      refine (taskUpdate_spec env.failUpdate env.serviceNow .error none (fun w hw => hw.2.2)
        (fun h w hw => Or.inr ⟨hw, fun hnoted => hnoted.2.2.2 h⟩) fun _ w t _ ht =>
          Or.inl (done_of_edit ht rfl)).mono (fun _ h => h) ?_ fun _ _ h => h
      rintro _ _ ⟨w, t, -, ht, rfl⟩
      exact done_of_edit ht rfl
    refine hupdate.bind fun _ => ?_
    refine Spec.mono (P := World.Done) (Q := fun _ => World.Done) (E := fun _ => World.Done) ?_
      (fun _ h => h) (fun _ _ h => h) fun _ _ => Or.inl
    refine (Keeps.read _).bind fun disabled => ?_
    refine Keeps.bind ?_ fun _ => ack_keeps (done_closed env) _
    split
    · exact .pure _
    · exact callOut_keeps _

/-- The message was answered, or is as it was, or its task is finished. -/
def World.Kept (w : World) : Prop := w.Done ∨ w.Answered ∨ w.Waiting

/-- Another try is put on the queue and the message acknowledged, or neither. -/
theorem retried_kept (hw : w.Waiting) (hretried : Retried env) {e : Exn}
    (he : canContinue e w.body = true) :
    ((handleException env e).caught (fun _ => ack env.lastAck) w).2.Kept := by
  obtain ⟨hpublished, hacked, hrow⟩ := hw
  have hread : (read fun w => .ok (canContinue e w.body) : Act Bool) w = (.ok true, w) := by
    rw [Session.read, he]
  have hhandle : handleException env e w = (do
      onContinue env.republish
      ack env.reack : Act Unit)
        { w with body := { w.body with triesCount := w.body.triesCount + 1 } } := by
    rw [handleException, bind_of_ok hread]
    rfl
  have hkept : ∀ b : Body, b.taskId = w.body.taskId →
      World.Waiting { w with body := b } := fun b hb => ⟨hpublished, hacked, hb ▸ hrow⟩
  let w₁ : World := { w with
    body := { w.body with triesCount := w.body.triesCount + 1 }
    published := w.published ++ [{ w.body with triesCount := w.body.triesCount + 1 }] }
  have hlength : w₁.published.length = 1 := by simp [w₁, hpublished]
  unfold Retried at hretried
  cases hrepublish : env.republish with
  | refused =>
    rw [hrepublish] at hretried
    have hput : onContinue env.republish
        { w with body := { w.body with triesCount := w.body.triesCount + 1 } } =
          (.error .external, { w with body := { w.body with triesCount := w.body.triesCount + 1 } }) := by
      rw [hrepublish]
      rfl
    rw [caught_of_error (hhandle.trans (bind_of_error hput)), hretried, ack_refused]
    exact Or.inr (Or.inr (hkept _ rfl))
  | broken =>
    rw [hrepublish] at hretried
    have hput : onContinue env.republish
        { w with body := { w.body with triesCount := w.body.triesCount + 1 } } = (.error .external, w₁) := by
      rw [hrepublish]
      rfl
    rw [caught_of_error (hhandle.trans (bind_of_error hput)), ack_acked hretried]
    exact Or.inr (Or.inl ⟨hlength, rfl⟩)
  | done =>
    rw [hrepublish] at hretried
    have hput : onContinue env.republish
        { w with body := { w.body with triesCount := w.body.triesCount + 1 } } = (.ok (), w₁) := by
      rw [hrepublish]
      rfl
    have hrest := hhandle.trans (bind_of_ok hput)
    have hanswered : World.Kept { w₁ with acked := true } := Or.inr (Or.inl ⟨hlength, rfl⟩)
    cases hreack : env.reack with
    | done =>
      have hack : ack env.reack w₁ = (.ok (), { w₁ with acked := true }) := by
        rw [hreack]
        exact (ack_of_unacked (w := w₁) hacked).trans rfl
      rw [caught_of_ok (hrest.trans hack)]
      exact hanswered
    | refused =>
      have hack : ack env.reack w₁ = (.error .external, w₁) := by
        rw [hreack]
        exact (ack_of_unacked (w := w₁) hacked).trans rfl
      rw [caught_of_error (hrest.trans hack), ack_acked (hretried.resolve_left (absurd hreack))]
      exact hanswered
    | broken =>
      have hack : ack env.reack w₁ = (.error .external, { w₁ with acked := true }) := by
        rw [hreack]
        exact (ack_of_unacked (w := w₁) hacked).trans rfl
      rw [caught_of_error (hrest.trans hack), ack_of_acked rfl]
      exact hanswered

/-- **An exception** finishes the task, or is answered once, or leaves the message. -/
theorem raised_kept {e : Exn} (hsafe : Safe env t b) (hw : Raised b env e w) :
    ((handleException env e).caught (fun _ => ack env.lastAck) w).2.Kept := by
  obtain ⟨hdone | hwaiting, htries, htime⟩ := hw
  · exact Or.inl ((handled_keeps (done_closed env) e).apply hdone)
  · cases hcont : canContinue e w.body with
    | true =>
      obtain ⟨-, hlt⟩ := of_decide_eq_true hcont
      exact retried_kept hwaiting (hsafe.retried (htries ▸ hlt)) hcont
    | false =>
      have hread : (read fun w => .ok (canContinue e w.body) : Act Bool) w = (.ok false, w) := by
        rw [Session.read, hcont]
      have hhandle : handleException env e w = SetFailed.execute env w := by
        rw [handleException, bind_of_ok hread]
        rfl
      have hfailed : Noted env ∨ env.lastAck = .refused := by
        refine hsafe.failed ?_
        by_cases he : e = .timeout
        · exact Or.inr (htime he)
        · refine Or.inl (not_lt.mp fun hlt => ?_)
          have htrue : canContinue e w.body = true := decide_eq_true ⟨he, htries ▸ hlt⟩
          rw [hcont] at htrue
          cases htrue
      cases hrun : SetFailed.execute env w with
      | mk r w' =>
        cases r with
        | ok a =>
          rw [caught_of_ok (hhandle.trans hrun)]
          exact Or.inl (setFailed_waiting.ok hwaiting hrun)
        | error e' =>
          rw [caught_of_error (hhandle.trans hrun)]
          rcases setFailed_waiting.error hwaiting hrun with hdone | ⟨hkept, hnot⟩
          · exact Or.inl ((ack_keeps (done_closed env) _).apply hdone)
          · rw [hfailed.resolve_left hnot, ack_refused]
            exact Or.inr (Or.inr hkept)

/-! ## Messages -/

/-- **A message of an unfinished task** is answered once, or kept, or its task finished. -/
theorem processTask_kept (htask : s.tasks[b.taskId]? = some t) (hopen : t.state.finished = false)
    (hsafe : Safe env t b) : (processTask env (World.fresh s b)).Kept := by
  have hrunning : Running b (World.fresh s b) := ⟨⟨rfl, rfl, t, htask⟩, rfl, rfl⟩
  rcases processTask_cases env (World.fresh s b) with ⟨hdrop, hnone⟩ | ⟨t', step, -, -, -, hrun⟩
  · have hlookup : env.lookup ≠ .done := by
      intro hlookup
      have := hnone t htask hlookup
      revert this hopen
      cases t.state <;> simp [tasksTransitions, TaskState.finished]
    rw [hdrop, hsafe.lookup.resolve_left hlookup, ack_refused]
    exact Or.inr (Or.inr hrunning.1)
  · rw [hrun]
    cases hexecute : step.execute env (World.fresh s b) with
    | mk r w' =>
      cases r with
      | ok a =>
        rw [run_of_ok hexecute]
        exact ((execute_running hsafe.continuation).ok hrunning hexecute).imp id Or.inl
      | error e =>
        rw [run_of_error hexecute]
        exact raised_kept hsafe ((execute_running hsafe.continuation).error hrunning hexecute)

/-- A message of a finished task is dropped. -/
theorem processTask_finished (htask : s.tasks[b.taskId]? = some t) (hfinished : t.state.finished = true) :
    processTask env (World.fresh s b) = (ack env.ack (World.fresh s b)).2 := by
  rcases processTask_cases env (World.fresh s b) with ⟨hdrop, -⟩ | ⟨t', step, ht', hstep, -, -⟩
  · exact hdrop
  · obtain rfl := Option.some.inj (htask.symm.trans ht')
    revert hstep hfinished
    cases t.state <;> simp [tasksTransitions, TaskState.finished]

theorem ack_frame (c : Call) : Frame .setStarted s b (ack c (World.fresh s b)).2 := by
  cases c with
  | refused =>
    rw [ack_refused]
    exact .fresh _ s b
  | _ => exact { Frame.fresh .setStarted s b with }

variable (env) in
/-- **A message leaves the other tasks as they are.** -/
theorem processTask_frame
    (hsafe : ∀ t, s.tasks[b.taskId]? = some t → t.state.finished = false → Safe env t b) :
    ∃ step, Frame step s b (processTask env (World.fresh s b)) := by
  rcases processTask_cases env (World.fresh s b) with ⟨hdrop, -⟩ | ⟨t, step, ht, hstep, -, hrun⟩
  · rw [hdrop]
    exact ⟨.setStarted, ack_frame _⟩
  · have hopen : t.state.finished = false := by
      revert hstep
      cases t.state <;> simp [tasksTransitions, TaskState.finished]
    rw [hrun]
    exact ⟨step, (run_keeps (frame_unbroken hstep ht (hsafe t ht hopen))).apply (.fresh _ s b)⟩

/-! ## Runs -/

/-- The messages of one task, counted. -/
theorem countP_of_taskId {ms : List Body} {id : ℕ} (h : ∀ m ∈ ms, m.taskId = id) (i : ℕ) :
    ms.countP (fun m => m.taskId = i) = if id = i then ms.length else 0 := by
  split
  · rename_i hid
    exact List.countP_eq_length.mpr fun m hm => decide_eq_true ((h m hm).trans hid)
  · rename_i hid
    exact List.countP_eq_zero.mpr fun m hm hof => hid ((h m hm).symm.trans (of_decide_eq_true hof))

/-- The messages of new tasks, counted. -/
theorem countP_of_range {ms : List Body} {first n : ℕ} (h : ms.map Body.taskId = List.range' first n)
    (i : ℕ) : ms.countP (fun m => m.taskId = i) = if first ≤ i ∧ i < first + n then 1 else 0 := by
  have hcount : ms.countP (fun m => m.taskId = i) = (ms.map Body.taskId).count i := by
    rw [List.count, List.countP_map]
    exact List.countP_congr fun m _ => by simp
  rw [hcount, h, List.Nodup.count List.nodup_range']
  simp only [List.mem_range'_1]

/-- **What holds of a run** whose steps lose no message. -/
structure Inv (q : Queue) : Prop where
  named : ∀ m ∈ q.queue, m.taskId < q.store.tasks.length
  unstranded : Unstranded q

theorem Inv.start : Inv start where
  named _ hm := absurd hm List.not_mem_nil
  unstranded i t ht := by cases ht

section Step

variable {q q' : Queue}

theorem Inv.generate (hinv : Inv q) {schedules : List String} {now : ℤ} {put : ℕ → Call}
    (h : occur q (.generate schedules now put) = some q') (hput : AllPut put schedules.length) :
    Inv q' := by
  obtain rfl := Option.some.inj h
  have hnew := putTasks_newMessages hput now q.store.tasks.length
  refine ⟨fun m hm => ?_, fun i t ht => ?_⟩
  · rw [List.length_append, List.length_map]
    rcases List.mem_append.mp hm with hm | hm
    · exact (hinv.named m hm).trans_le (Nat.le_add_right _ _)
    · have hid := List.mem_map_of_mem (f := Body.taskId) hm
      rw [hnew, List.mem_range'_1] at hid
      exact hid.2
  · have hlt := (List.getElem?_eq_some_iff.mp ht).1
    rw [List.length_append, List.length_map] at hlt
    have hcount := countP_of_range hnew i
    rw [List.countP_append]
    by_cases hold : i < q.store.tasks.length
    · rw [List.getElem?_append_left hold] at ht
      refine (hinv.unstranded i t ht).imp_right fun hone => ?_
      rw [hone, hcount, if_neg (by omega)]
    · right
      have hnone : q.queue.countP (fun m => m.taskId = i) = 0 :=
        List.countP_eq_zero.mpr fun m hm hof => hold (of_decide_eq_true hof ▸ hinv.named m hm)
      rw [hnone, hcount, if_pos (by omega)]

theorem Inv.deliver (hinv : Inv q) {place : ℕ} {env : Env}
    (h : occur q (.deliver place env) = some q')
    (hsafe : ∀ b t, q.queue[place]? = some b → q.store.tasks[b.taskId]? = some t →
      t.state.finished = false → Safe env t b) : Inv q' := by
  obtain ⟨b, l, r, hb, hqueue, hstore, hq⟩ := Mailbox.deliver_cases h
  have hmem : b ∈ q.queue := List.mem_of_getElem? hb
  have hlt := hinv.named b hmem
  obtain ⟨t, ht⟩ : ∃ t, q.store.tasks[b.taskId]? = some t := ⟨_, List.getElem?_eq_getElem hlt⟩
  obtain ⟨step, hframe⟩ := processTask_frame env fun t ht hopen => hsafe b t hb ht hopen
  have hkept : t.state.finished = false → (processTask env (World.fresh q.store b)).Kept :=
    fun hopen => processTask_kept ht hopen (hsafe b t hb ht hopen)
  have hdrop : t.state.finished = true → (processTask env (World.fresh q.store b)).tasks = q.store.tasks := by
    intro hfinished
    rw [processTask_finished ht hfinished]
    cases env.ack <;> rfl
  have hout : (handle env q.store b).2 = (if (processTask env (World.fresh q.store b)).acked then [] else [b]) ++
      ((processTask env (World.fresh q.store b)).published ++
        (processTask env (World.fresh q.store b)).queued) := rfl
  have htasks : q'.store.tasks = (processTask env (World.fresh q.store b)).tasks := by
    rw [hstore]
    rfl
  generalize processTask env (World.fresh q.store b) = w at *
  rw [hout] at hq
  have hlength := hframe.length
  refine ⟨fun m hm => ?_, fun i t' ht' => ?_⟩
  · rw [htasks]
    rw [hq, List.mem_append, List.mem_append, List.mem_append, List.mem_append] at hm
    rcases hm with (hm | hm) | hm | hm | hm
    · exact (hinv.named m (hqueue ▸ List.mem_append_left _ hm)).trans_le hlength
    · exact (hinv.named m (hqueue ▸ List.mem_append_right _ (List.mem_cons_of_mem _ hm))).trans_le hlength
    · split at hm
      · exact absurd hm List.not_mem_nil
      · exact (List.mem_singleton.mp hm ▸ hlt).trans_le hlength
    · exact (hframe.published m hm ▸ hlt).trans_le hlength
    · have hid := List.mem_map_of_mem (f := Body.taskId) hm
      rw [hframe.queued, List.mem_range'_1] at hid
      omega
  · have hlt' : i < w.tasks.length := htasks ▸ (List.getElem?_eq_some_iff.mp ht').1
    have hold : q.queue.countP (fun m => m.taskId = i) =
        (l ++ r).countP (fun m => m.taskId = i) + if b.taskId = i then 1 else 0 := by
      rw [hqueue]
      simp only [List.countP_append, List.countP_cons, decide_eq_true_eq]
      omega
    have hcount : q'.queue.countP (fun m => m.taskId = i) = (l ++ r).countP (fun m => m.taskId = i) +
        ((if w.acked then [] else [b]).countP (fun m => m.taskId = i) +
          ((if b.taskId = i then w.published.length else 0) +
            if q.store.tasks.length ≤ i ∧ i < w.tasks.length then 1 else 0)) := by
      have hcome : (w.published ++ w.queued).countP (fun m => m.taskId = i) =
          (if b.taskId = i then w.published.length else 0) +
            if q.store.tasks.length ≤ i ∧ i < w.tasks.length then 1 else 0 := by
        rw [List.countP_append, countP_of_taskId hframe.published, countP_of_range hframe.queued,
          Nat.add_sub_cancel' hlength]
      rw [hq, List.countP_append]
      congr 1
      rw [List.countP_append, hcome]
    have hself : b.taskId ≠ i → (if w.acked then [] else [b]).countP (fun m => m.taskId = i) = 0 := by
      intro hne
      split <;> simp [hne]
    by_cases hi : b.taskId = i
    · subst hi
      have hnot : ¬ (q.store.tasks.length ≤ b.taskId ∧ b.taskId < w.tasks.length) := by omega
      rw [if_neg hnot, if_pos rfl] at hcount
      rw [if_pos rfl] at hold
      cases hstate : t.state.finished with
      | true =>
        rw [htasks, hdrop hstate, ht] at ht'
        exact Or.inl (Option.some.inj ht' ▸ hstate)
      | false =>
        have hone := (hinv.unstranded b.taskId t ht).resolve_left (by simp [hstate])
        rcases hkept hstate with ⟨t'', ht'', hdone⟩ | ⟨hlen, hacked⟩ | ⟨hpublished, hacked, -⟩
        · rw [hframe.taskId, ← htasks, ht'] at ht''
          exact Or.inl (Option.some.inj ht'' ▸ hdone)
        · right
          rw [if_pos hacked, hlen, List.countP_nil] at hcount
          omega
        · right
          have hme : [b].countP (fun m => m.taskId = b.taskId) = 1 := by simp
          rw [if_neg (by simp [hacked]), hpublished, hme, List.length_nil] at hcount
          omega
    · rw [if_neg hi, hself hi] at hcount
      rw [if_neg hi] at hold
      by_cases hnew : i < q.store.tasks.length
      · rw [htasks, hframe.others i hnew (Ne.symm hi)] at ht'
        refine (hinv.unstranded i t' ht').imp_right fun hone => ?_
        rw [hcount, if_neg (by omega)]
        omega
      · right
        have hnone : q.queue.countP (fun m => m.taskId = i) = 0 :=
          List.countP_eq_zero.mpr fun m hm hof => hnew (of_decide_eq_true hof ▸ hinv.named m hm)
        rw [hcount, if_pos (by omega)]
        omega

/-- **The invariant, one step.** -/
theorem Inv.occur (hinv : Inv q) {e : Event} (h : Katara.occur q e = some q') (hsafe : SafeStep q e q') :
    Inv q' := by
  cases e with
  | deliver place env => exact hinv.deliver h hsafe
  | generate schedules now put => exact hinv.generate h hsafe

end Step

/-- **No task is stranded.**  In every run whose steps lose no message, each task that was created is
finished or has exactly one message, in every state that is reached. -/
theorem unstranded_of_along (es : List Event) (hsafe : Run.Along occur SafeStep start es) :
    Run.Always occur Unstranded start es :=
  (Run.always_of_along (fun _ _ _ hinv h hsafe => hinv.occur h hsafe) Inv.start hsafe).mono
    fun _ hinv => hinv.unstranded

/-- The schedule of a report for the members of an organization. -/
def memberReport : ScheduleDetails := ⟨"org", none, some "optscale_member", "organization_expenses"⟩

/-- All calls answer at once: there is one member, who gets his report. -/
def answered : Env where
  checkNow := 0
  updateNow := 0
  serviceNow := 0
  lookup := .done
  get := .done
  schedule := some memberReport
  organization := .done
  organizationDisabled := false
  pool := .done
  poolChildren := []
  userRolesGet := .done
  userRoles _ _ _ := [⟨"user", "assignment"⟩]
  employeeList := .done
  employees _ := [⟨"employee", "user"⟩]
  employeeEmails := .done
  emailsEnabled _ _ := [true]
  createReport := .done
  reportData := true
  upload := .done
  update := .done
  create := .done
  put _ := .done
  herald := .done
  publish := .done
  ack := .done
  republish := .done
  reack := .done
  failGet := .done
  failSchedule := some memberReport
  failOrganization := .done
  failUpdate := .done
  activity := .done
  lastAck := .done

theorem safe_answered (t : Task) (b : Body) : Safe answered t b where
  lookup := Or.inl rfl
  continuation := Or.inr ⟨rfl, rfl⟩
  retried _ := Or.inl (by decide)
  failed _ := Or.inl ⟨rfl, by decide, rfl, by decide⟩
  children _ _ _ _ := fun _ _ => ⟨by simp [answered], fun _ => rfl⟩

/-- A task is scheduled, and its message delivered. -/
theorem unstranded_answered : Run.Always occur Unstranded start
    [.generate ["schedule"] 0 fun _ => .done, .deliver 0 answered, .deliver 0 answered] := by
  refine unstranded_of_along _ fun q₁ _ => ⟨fun _ _ => ⟨by simp, fun _ => rfl⟩, ?_⟩
  exact fun q₂ _ => ⟨fun b t _ _ _ => safe_answered t b,
    fun q₃ _ => ⟨fun b t _ _ _ => safe_answered t b, trivial⟩⟩

/-- **A task may be stranded**: its message is dropped when the task cannot be looked up; and a task that
is too late is not set failed, and its message dropped, when its schedule was deleted. -/
theorem exists_stranded :
    (∃ q, Run.run occur start [.generate ["schedule"] 0 fun _ => .done,
      .deliver 0 { answered with lookup := .refused }] = some q ∧ ¬ Unstranded q) ∧
    ∃ q, Run.run occur start [.generate ["schedule"] 0 fun _ => .done,
      .deliver 0 { answered with
        checkNow := 3601
        failSchedule := none }] = some q ∧ ¬ Unstranded q := by
  refine ⟨⟨_, rfl, fun hall => ?_⟩, ⟨_, rfl, fun hall => ?_⟩⟩
  · rcases hall 0 _ rfl with h | h <;> exact absurd h (by decide)
  · rcases hall 0 _ rfl with h | h <;> exact absurd h (by decide)

end Katara
