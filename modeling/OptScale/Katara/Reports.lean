import OptScale.Katara.Stranded

/-!
# Katara/Reports — one report for each recipient

The tasks of the recipients are created, and herald is sent a report, in steps that complete their task
afterwards.  Where the completion never fails once the effect is there, and never succeeds without it,
each recipient has one task, each task sends one report, and a task that completes with a report has sent
it.
-/

namespace Katara

open Session

variable {env : Env} {step : Step} {w : World} {s : Store} {b : Body} {t : Task}

/-! ## Statements -/

/-- The parent of a task, and the user it is for. -/
def Task.recipient (t : Task) : Option ℕ × Option String :=
  (t.parentId, (loadResult t.result).userRole.map UserRole.userId)

/-- One task was created for each recipient at most, and herald was sent one message by each task. -/
def OneEach (q : Queue) : Prop :=
  (q.store.created.map Task.recipient).Nodup ∧
    ∀ i, q.store.herald.countP (fun m => m.taskId = i) ≤ 1

/-- The task has a report to send. -/
def Task.Reports (t : Task) : Prop :=
  t.state = .puttingToHerald ∧ (loadResult t.result).downloadUrl ≠ none

/-- **An effect and the completion of its task** come both or neither: once tasks are created, their
creation does not fail any more, and the task is completed; and it completes exactly if herald was sent
the report. -/
structure AtOnce (env : Env) (t : Task) : Prop where
  created : ∀ userRoles, t.state = .gotRecipients → (loadResult t.result).userRoles = some userRoles →
    env.create = .refused ∨
      (env.create = .done ∧ allDone env.put userRoles.length = true ∧ env.update ≠ .refused)
  sent : t.Reports → (env.herald = .refused ↔ env.update = .refused)

/-- The effects of a step come with the completion of its task. -/
def AtOnceStep (q : Queue) (e : Event) (_ : Queue) : Prop :=
  match e with
  | .deliver place env => ∀ b t, q.queue[place]? = some b → q.store.tasks[b.taskId]? = some t → AtOnce env t
  | .generate _ _ _ => True

/-- A task that completes with a report has sent it. -/
def SendsStep (q : Queue) (e : Event) (q' : Queue) : Prop :=
  match e with
  | .deliver place _ => ∀ b t t', q.queue[place]? = some b → q.store.tasks[b.taskId]? = some t →
      t.Reports → q'.store.tasks[b.taskId]? = some t' → t'.state = .completed →
        q'.store.herald.countP (fun m => m.taskId = b.taskId) = 1
  | .generate _ _ _ => True

/-! ## Rows -/

/-- What a message leaves of the rows: those of others, new ones for recipients, and different recipients
where it found them. -/
structure Rows (s : Store) (b : Body) (w : World) : Prop extends Others s b w where
  new : ∀ j t, s.tasks.length ≤ j → w.tasks[j]? = some t → t.state = .checkingEmailSettings
  own : ∀ t, w.tasks[b.taskId]? = some t → t.state = .gotRecipients → (loadResult t.result).Distinct

theorem rows_unbroken (hlt : b.taskId < s.tasks.length) : Unbroken env step (Rows s b) := by
  rintro w w' hchange ⟨hothers, hnew, hown⟩
  have hothers' := others_unbroken s b w w' hchange hothers
  obtain ⟨hid, -, hlength⟩ := hothers
  cases hchange with
  | noted _ => exact ⟨hothers', hnew, hown⟩
  | @updated state result hupdates =>
    refine ⟨hothers', fun j t hj ht => ?_, fun t ht hstate => ?_⟩
    · rw [List.getElem?_modify_ne _ _ (by omega)] at ht
      exact hnew j t hj ht
    · rw [← hid, List.getElem?_modify_eq] at ht
      obtain ⟨t₀, -, rfl⟩ := Option.map_eq_some_iff.mp ht
      rcases hupdates with ⟨-, hdistinct⟩ | ⟨h | h, -⟩
      · obtain ⟨r, rfl, hr⟩ := hdistinct hstate
        exact hr
      · cases h.symm.trans hstate
      · cases h.symm.trans hstate
  | @created t₀ userRoles _ _ _ _ =>
    refine ⟨hothers', fun j t hj ht => ?_, fun t ht hstate => ?_⟩
    · rw [World.withChildren, List.getElem?_append] at ht
      split at ht
      · exact hnew j t hj ht
      · obtain ⟨userRole, -, rfl⟩ := List.mem_map.mp (List.mem_of_getElem? ht)
        rfl
    · rw [World.withChildren, List.getElem?_append_left (hlt.trans_le hlength)] at ht
      exact hown t ht hstate
  | heralded _ _ => exact ⟨hothers', hnew, hown⟩
  | published => exact ⟨hothers', hnew, hown⟩
  | acked => exact ⟨hothers', hnew, hown⟩

/-! ## Effects -/

/-- The tasks of the recipients were created, and the task is finished. -/
def Born (t : Task) (b : Body) (w : World) : Prop :=
  (∃ userRoles, (loadResult t.result).userRoles = some userRoles ∧
    w.created = childTasks t b.taskId userRoles) ∧ w.Done

/-- Herald was sent a report, and the task is finished. -/
def Sent (s : Store) (b : Body) (w : World) : Prop :=
  (∃ report : HeraldTask, report.taskId = b.taskId ∧ w.herald = s.herald ++ [report]) ∧ w.Done

/-- Herald was sent nothing, and the task is not completed. -/
def Unsent (s : Store) (b : Body) (w : World) : Prop :=
  w.body.taskId = b.taskId ∧ w.herald = s.herald ∧
    ∀ t, w.tasks[b.taskId]? = some t → t.state ≠ .completed

variable (env) in
theorem created_closed (created : List Task) : Closed env fun w => w.created = created := by
  rintro w w' hclosing hw
  cases hclosing <;> exact hw

variable (env) in
theorem herald_closed (herald : List HeraldTask) : Closed env fun w => w.herald = herald := by
  rintro w w' hclosing hw
  cases hclosing <;> exact hw

theorem Closed.and {P Q : World → Prop} (hP : Closed env P) (hQ : Closed env Q) :
    Closed env fun w => P w ∧ Q w := fun w w' hclosing hw =>
  ⟨hP w w' hclosing hw.1, hQ w w' hclosing hw.2⟩

theorem Closed.or {P Q : World → Prop} (hP : Closed env P) (hQ : Closed env Q) :
    Closed env fun w => P w ∨ Q w := fun w w' hclosing hw =>
  hw.imp (hP w w' hclosing) (hQ w w' hclosing)

theorem born_closed : Closed env (Born t b) := by
  rintro w w' hclosing ⟨hcreated, hdone⟩
  refine ⟨?_, done_closed env w w' hclosing hdone⟩
  cases hclosing <;> exact hcreated

theorem sent_closed : Closed env (Sent s b) := by
  rintro w w' hclosing ⟨hsent, hdone⟩
  refine ⟨?_, done_closed env w w' hclosing hdone⟩
  cases hclosing <;> exact hsent

theorem unsent_closed : Closed env (Unsent s b) := by
  rintro w w' hclosing ⟨hid, hherald, hstate⟩
  cases hclosing with
  | noted h => exact ⟨h.trans hid, hherald, hstate⟩
  | failed =>
    refine ⟨hid, hherald, fun t ht => ?_⟩
    rw [hid, List.getElem?_modify_eq] at ht
    obtain ⟨t₀, -, rfl⟩ := Option.map_eq_some_iff.mp ht
    exact fun h => by cases h
  | published => exact ⟨hid, hherald, hstate⟩
  | acked => exact ⟨hid, hherald, hstate⟩

/-- **A completion that is not refused** completes the task, even if it raises. -/
theorem setCompleted_done (hupdate : env.update ≠ .refused) :
    Spec (fun w => ∃ t, w.tasks[w.body.taskId]? = some t) (setCompletedExecute env)
      (fun _ => World.Done) fun _ => World.Done := by
  refine Spec.bind (Q := fun _ => World.Done) ?_ fun _ => ack_keeps (done_closed env) _
  refine (taskUpdate_spec env.update env.serviceNow .completed none (fun w hw => hw)
    (fun h => absurd h hupdate) fun _ w t _ ht => done_of_edit ht rfl).mono (fun _ h => h) ?_
      fun _ _ h => h
  rintro _ _ ⟨w, t, -, ht, rfl⟩
  exact done_of_edit ht rfl

/-- A completion that is refused changes nothing. -/
theorem setCompleted_refused (hupdate : env.update = .refused) {w : World}
    (ht : w.tasks[w.body.taskId]? = some t) : setCompletedExecute env w = (.error .external, w) := by
  have hstored : storedTask w = (.ok t, w) := by
    rw [storedTask, Session.read, ht]
  have hcall : taskUpdate env.update env.serviceNow .completed none w = (.error .external, w) := by
    rw [taskUpdate, bind_of_ok hstored, hupdate]
    rfl
  rw [setCompletedExecute, bind_of_error hcall]

variable (env) in
/-- A completion creates no tasks and sends herald nothing. -/
theorem setCompleted_keeps_effects (created : List Task) (herald : List HeraldTask) :
    Keeps (fun w => w.created = created ∧ w.herald = herald) (setCompletedExecute env) := by
  refine Keeps.bind ((Keeps.read _).bind fun _ => .call _ _ fun _ h => h) fun _ => ?_
  exact ack_keeps ((created_closed env created).and (herald_closed env herald)) _

/-- The task of a message is found as it is, unless the call fails. -/
theorem taskGet_cases (c : Call) (htask : w.tasks[w.body.taskId]? = some t) :
    taskGet c w = (.ok t, w) ∨ taskGet c w = (.error .external, w) := by
  have hstored : storedTask w = (.ok t, w) := by
    rw [storedTask, Session.read, htask]
  cases c with
  | done => exact Or.inl ((bind_of_ok (show callOut .done w = (.ok (), w) from rfl)).trans hstored)
  | refused => exact Or.inr rfl
  | broken => exact Or.inr rfl

/-- **The creation of the recipients' tasks** completes the task, or creates nothing. -/
theorem setGeneratingReportData_born (htask : s.tasks[b.taskId]? = some t)
    (hstate : t.state = .gotRecipients) (hatOnce : AtOnce env t) {w : World}
    (hw : w = (SetGeneratingReportData.execute env (World.fresh s b)).2) :
    w.created = [] ∨ Born t b w := by
  have hid : (read fun w => .ok w.body.taskId : Act ℕ) (World.fresh s b) =
      (.ok b.taskId, World.fresh s b) := rfl
  rcases taskGet_cases (w := World.fresh s b) env.get htask with hget | hget
  · rw [SetGeneratingReportData.execute, bind_of_ok hget, bind_of_ok hid] at hw
    cases hroles : (loadResult t.result).userRoles with
    | none =>
      rw [hroles] at hw
      exact Or.inl (hw ▸ rfl)
    | some userRoles =>
      rw [hroles] at hw
      replace hw : w = ((tasksCreate env (childTasks t b.taskId userRoles) >>= fun _ =>
        setCompletedExecute env : Act Unit) (World.fresh s b)).2 := hw
      have hlength : (childTasks t b.taskId userRoles).length = userRoles.length := List.length_map _
      rcases hatOnce.created userRoles hstate hroles with hrefused | ⟨hdone, hall, hupdate⟩
      · have hcreate : tasksCreate env (childTasks t b.taskId userRoles) (World.fresh s b) =
            (.error .external, World.fresh s b) := by
          rw [tasksCreate, if_pos hrefused]
          rfl
        exact Or.inl (by rw [hw, bind_of_error hcreate]; rfl)
      · right
        have hgood : ¬ (env.create = .broken ∨
            ¬ allDone env.put (childTasks t b.taskId userRoles).length = true) := by
          rw [hdone, hlength, hall]
          simp
        have hcreate : tasksCreate env (childTasks t b.taskId userRoles) (World.fresh s b) =
            (.ok (), (World.fresh s b).withChildren env (childTasks t b.taskId userRoles)) := by
          rw [tasksCreate, if_neg (by rw [hdone]; decide), if_neg hgood]
          rfl
        have hrow : ∃ t', ((World.fresh s b).withChildren env
            (childTasks t b.taskId userRoles)).tasks[b.taskId]? = some t' := by
          refine ⟨t, ?_⟩
          show (s.tasks ++ childTasks t b.taskId userRoles)[b.taskId]? = some t
          rw [List.getElem?_append_left (List.getElem?_eq_some_iff.mp htask).1]
          exact htask
        obtain ⟨hfinished, hcreated, -⟩ := ((setCompleted_done hupdate).keeping
          (setCompleted_keeps_effects env (childTasks t b.taskId userRoles) s.herald)).apply
            ⟨hrow, rfl, rfl⟩
        rw [hw, bind_of_ok hcreate]
        exact ⟨⟨userRoles, hroles, hcreated⟩, hfinished⟩
  · rw [SetGeneratingReportData.execute, bind_of_error hget] at hw
    exact Or.inl (hw ▸ rfl)

/-- A session that is followed by an exception raises, with what it has done. -/
theorem exists_raise (x : Act Unit) (e : Exn) (w : World) :
    ∃ e', (x >>= fun _ => raise e : Act Unit) w = (.error e', (x w).2) := by
  cases hx : x w with
  | mk r w' =>
    cases r with
    | ok a => exact ⟨e, bind_of_ok hx⟩
    | error e' => exact ⟨e', bind_of_error hx⟩

/-- **The report of a task** is sent and the task completed, or neither. -/
theorem putToHerald_sent (htask : s.tasks[b.taskId]? = some t) (hstate : t.state = .puttingToHerald)
    (hatOnce : AtOnce env t) {w : World} (hw : w = (PutToHerald.execute env (World.fresh s b)).2) :
    ((loadResult t.result).downloadUrl = none ∧ w.herald = s.herald) ∨ Unsent s b w ∨ Sent s b w := by
  have hid : (read fun w => .ok w.body.taskId : Act ℕ) (World.fresh s b) =
      (.ok b.taskId, World.fresh s b) := rfl
  have hunsent : Unsent s b (World.fresh s b) := by
    refine ⟨rfl, rfl, fun t' ht' h => ?_⟩
    obtain rfl := Option.some.inj (htask.symm.trans ht')
    rw [hstate] at h
    cases h
  rcases taskGet_cases (w := World.fresh s b) env.get htask with hget | hget
  · rw [PutToHerald.execute, bind_of_ok hget, bind_of_ok hid] at hw
    cases hurl : (loadResult t.result).downloadUrl with
    | none =>
      left
      refine ⟨rfl, ?_⟩
      rw [hurl] at hw
      replace hw : w = (setCompletedExecute env (World.fresh s b)).2 := hw
      rw [hw]
      exact ((setCompleted_keeps_effects env [] s.herald).apply ⟨rfl, rfl⟩).2
    | some url =>
      right
      rw [hurl] at hw
      let report : HeraldTask := ⟨url, b.taskId, maxRetries⟩
      let w₁ : World := { World.fresh s b with herald := s.herald ++ [report] }
      replace hw : w = (((onComplete env.herald report).caught (fun ex =>
          (setCompletedExecute env >>= fun _ => raise ex : Act Unit)) >>= fun _ =>
        setCompletedExecute env : Act Unit) (World.fresh s b)).2 := hw
      have hsent := hatOnce.sent ⟨hstate, by simp [hurl]⟩
      have hcompleted : env.herald ≠ .refused → Sent s b (setCompletedExecute env w₁).2 := by
        intro hherald
        obtain ⟨hdone, -, hkept⟩ := ((setCompleted_done fun h => hherald (hsent.mpr h)).keeping
          (setCompleted_keeps_effects env [] (s.herald ++ [report]))).apply
            (show (∃ t', w₁.tasks[w₁.body.taskId]? = some t') ∧ _ from ⟨⟨t, htask⟩, rfl, rfl⟩)
        exact ⟨⟨report, rfl, hkept⟩, hdone⟩
      cases hherald : env.herald with
      | done =>
        have hput : onComplete env.herald report (World.fresh s b) = (.ok (), w₁) := by
          rw [hherald]
          rfl
        rw [hw, bind_of_ok (caught_of_ok hput)]
        exact Or.inr (hcompleted (by rw [hherald]; decide))
      | refused =>
        have hput : onComplete env.herald report (World.fresh s b) = (.error .external, World.fresh s b) := by
          rw [hherald]
          rfl
        have hcomplete := setCompleted_refused (hsent.mp hherald) (w := World.fresh s b) htask
        rw [hw, bind_of_error ((caught_of_error hput).trans (bind_of_error hcomplete))]
        exact Or.inl hunsent
      | broken =>
        have hput : onComplete env.herald report (World.fresh s b) = (.error .external, w₁) := by
          rw [hherald]
          rfl
        obtain ⟨e', he'⟩ := exists_raise (setCompletedExecute env) .external w₁
        rw [hw, bind_of_error ((caught_of_error hput).trans he')]
        exact Or.inr (hcompleted (by rw [hherald]; decide))
  · rw [PutToHerald.execute, bind_of_error hget] at hw
    exact Or.inr (Or.inl (hw ▸ hunsent))

/-! ## Messages -/

/-- **What a message does**: it creates the tasks of the recipients, or sends the report, and then its
task is finished. -/
structure Effects (s : Store) (b : Body) (t : Task) (w : World) : Prop where
  created : w.created = [] ∨ (t.state = .gotRecipients ∧ Born t b w)
  herald : w.herald = s.herald ∨ Sent s b w
  sent : t.Reports → Sent s b w ∨ ∀ t', w.tasks[b.taskId]? = some t' → t'.state ≠ .completed

/-- The run of a step, apart from what an exception does. -/
theorem run_of_closed {P : World → Prop} (hC : Closed env P) (h : P (step.execute env w).2) :
    P (step.run env w).2 := by
  cases hrun : step.execute env w with
  | mk r w' =>
    rw [hrun] at h
    cases r with
    | ok a =>
      rw [run_of_ok hrun]
      exact h
    | error e =>
      rw [run_of_error hrun]
      exact (handled_keeps hC e).apply h

theorem created_unbroken (hstep : step ≠ .setGeneratingReportData) (created : List Task) :
    Unbroken env step fun w => w.created = created := by
  rintro w w' hchange hw
  cases hchange with
  | created h _ _ _ => exact absurd h hstep
  | _ => exact hw

theorem herald_unbroken (hstep : step ≠ .putToHerald) (herald : List HeraldTask) :
    Unbroken env step fun w => w.herald = herald := by
  rintro w w' hchange hw
  cases hchange with
  | heralded h _ => exact absurd h hstep
  | _ => exact hw

theorem run_effects (htask : s.tasks[b.taskId]? = some t) (hstep : tasksTransitions t.state = some step)
    (hatOnce : AtOnce env t) : Effects s b t (step.run env (World.fresh s b)).2 := by
  have hcreated : step ≠ .setGeneratingReportData → (step.run env (World.fresh s b)).2.created = [] :=
    fun h => (run_keeps (created_unbroken h [])).apply rfl
  have hherald : step ≠ .putToHerald → (step.run env (World.fresh s b)).2.herald = s.herald :=
    fun h => (run_keeps (herald_unbroken h s.herald)).apply rfl
  by_cases hgenerate : step = .setGeneratingReportData
  · subst hgenerate
    have hstate : t.state = .gotRecipients := by
      revert hstep
      cases t.state <;> simp [tasksTransitions]
    refine ⟨?_, Or.inl (hherald (by decide)), fun h => ?_⟩
    · exact (run_of_closed ((created_closed env []).or born_closed)
        (setGeneratingReportData_born htask hstate hatOnce rfl)).imp_right fun h => ⟨hstate, h⟩
    · rw [Task.Reports, hstate] at h
      cases h.1
  · by_cases hput : step = .putToHerald
    · subst hput
      have hstate : t.state = .puttingToHerald := by
        revert hstep
        cases t.state <;> simp [tasksTransitions]
      have hclosed : Closed env fun w =>
          ((loadResult t.result).downloadUrl = none ∧ w.herald = s.herald) ∨
            Unsent s b w ∨ Sent s b w := by
        refine Closed.or (fun w w' hclosing hw => ⟨hw.1, ?_⟩) (unsent_closed.or sent_closed)
        exact herald_closed env s.herald w w' hclosing hw.2
      have hexecute := putToHerald_sent htask hstate hatOnce
        (w := (Step.execute env .putToHerald (World.fresh s b)).2) rfl
      have hall := run_of_closed hclosed hexecute
      refine ⟨Or.inl (hcreated hgenerate), ?_, fun h => ?_⟩
      · rcases hall with ⟨-, h⟩ | ⟨-, h, -⟩ | h
        · exact Or.inl h
        · exact Or.inl h
        · exact Or.inr h
      · rcases hall with ⟨hurl, -⟩ | ⟨-, -, hnot⟩ | hsent
        · exact absurd hurl h.2
        · exact Or.inr hnot
        · exact Or.inl hsent
    · refine ⟨Or.inl (hcreated hgenerate), Or.inl (hherald hput), fun h => ?_⟩
      rw [h.1] at hstep
      exact absurd (Option.some.inj hstep).symm hput

/-! ## Runs -/

/-- **What holds of a run** whose effects come with the completion of their tasks. -/
structure Served (q : Queue) : Prop where
  children : (q.store.created.map Task.recipient).Nodup
  parents : ∀ c ∈ q.store.created, ∃ p t, c.parentId = some p ∧ q.store.tasks[p]? = some t ∧
    t.state.finished = true
  reports : ∀ m ∈ q.store.herald, ∃ t, q.store.tasks[m.taskId]? = some t ∧ t.state.finished = true
  once : ∀ i, q.store.herald.countP (fun m => m.taskId = i) ≤ 1
  distinct : ∀ (i : ℕ) (t : Task), q.store.tasks[i]? = some t → t.state = .gotRecipients → (loadResult t.result).Distinct

theorem Served.start : Served start where
  children := List.nodup_nil
  parents _ h := absurd h List.not_mem_nil
  reports _ h := absurd h List.not_mem_nil
  once _ := Nat.zero_le _
  distinct i t h := by cases h

/-- The recipients of the tasks that are created for one parent. -/
theorem recipient_childTasks (t : Task) (id : ℕ) (userRoles : List UserRole) :
    (childTasks t id userRoles).map Task.recipient =
      (userRoles.map UserRole.userId).map fun user => (some id, some user) := by
  rw [childTasks, List.map_map, List.map_map]
  rfl

section Step

variable {q q' : Queue}

/-- A message does nothing, or its task is open and the step of its state is run. -/
theorem processTask_open (env : Env) (s : Store) (b : Body) :
    ((processTask env (World.fresh s b)).tasks = s.tasks ∧
      (processTask env (World.fresh s b)).created = [] ∧
      (processTask env (World.fresh s b)).herald = s.herald) ∨
    ∃ t step, s.tasks[b.taskId]? = some t ∧ tasksTransitions t.state = some step ∧
      processTask env (World.fresh s b) = (step.run env (World.fresh s b)).2 := by
  rcases processTask_cases env (World.fresh s b) with ⟨hdrop, -⟩ | ⟨t, step, ht, hstep, -, hrun⟩
  · left
    rw [hdrop]
    cases env.ack <;> exact ⟨rfl, rfl, rfl⟩
  · exact Or.inr ⟨t, step, ht, hstep, hrun⟩

theorem open_of_transition (h : tasksTransitions t.state = some step) : t.state.finished = false := by
  revert h
  cases t.state <;> simp [tasksTransitions, TaskState.finished]

/-- What holds after the step of an open task. -/
theorem Served.run (hq : Served q) (ht : q.store.tasks[b.taskId]? = some t)
    (hstep : tasksTransitions t.state = some step) (hrows : Rows q.store b w)
    (heffects : Effects q.store b t w)
    (htasks : q'.store.tasks = w.tasks) (hcreated : q'.store.created = q.store.created ++ w.created)
    (hherald : q'.store.herald = w.herald) : Served q' := by
  have hopen := open_of_transition hstep
  -- who was finished stays as he was
  have hfinished : ∀ (p : ℕ) (u : Task), q.store.tasks[p]? = some u → u.state.finished = true →
      q'.store.tasks[p]? = some u := by
    intro p u hu hfinished
    have hne : p ≠ b.taskId := by
      rintro rfl
      rw [Option.some.inj (ht.symm.trans hu), hfinished] at hopen
      cases hopen
    rw [htasks, hrows.others p (List.getElem?_eq_some_iff.mp hu).1 hne]
    exact hu
  have hdone : w.Done → ∃ u, q'.store.tasks[b.taskId]? = some u ∧ u.state.finished = true := by
    rintro ⟨u, hu, hdone⟩
    rw [hrows.taskId] at hu
    exact ⟨u, htasks ▸ hu, hdone⟩
  have hnoReport : ∀ m ∈ q.store.herald, m.taskId ≠ b.taskId := by
    intro m hm hid
    obtain ⟨u, hu, hfin⟩ := hq.reports m hm
    rw [hid] at hu
    rw [Option.some.inj (ht.symm.trans hu), hfin] at hopen
    cases hopen
  refine ⟨?_, fun c hc => ?_, fun m hm => ?_, fun i => ?_, fun i u hu hstate => ?_⟩
  · rw [hcreated]
    rcases heffects.created with hnone | ⟨hstate, ⟨userRoles, hroles, hborn⟩, -⟩
    · rw [hnone, List.append_nil]
      exact hq.children
    · rw [List.map_append, hborn, recipient_childTasks]
      refine List.nodup_append.mpr ⟨hq.children, ?_, ?_⟩
      · have hdistinct := hq.distinct b.taskId t ht hstate userRoles hroles
        exact hdistinct.map fun x y h => by simpa using h
      · rintro _ hold _ hnew rfl
        obtain ⟨c, hc, hkey⟩ := List.mem_map.mp hold
        obtain ⟨user, -, hkey'⟩ := List.mem_map.mp hnew
        obtain ⟨p, u, hp, hu, hfin⟩ := hq.parents c hc
        have hid : c.parentId = some b.taskId := (Prod.mk.inj (hkey.trans hkey'.symm)).1
        obtain rfl := Option.some.inj (hp.symm.trans hid)
        rw [Option.some.inj (ht.symm.trans hu), hfin] at hopen
        cases hopen
  · rw [hcreated] at hc
    rcases List.mem_append.mp hc with hc | hc
    · obtain ⟨p, u, hp, hu, hfin⟩ := hq.parents c hc
      exact ⟨p, u, hp, hfinished p u hu hfin, hfin⟩
    · rcases heffects.created with hnone | ⟨-, ⟨userRoles, -, hborn⟩, hfin⟩
      · rw [hnone] at hc
        exact absurd hc List.not_mem_nil
      · rw [hborn] at hc
        obtain ⟨userRole, -, rfl⟩ := List.mem_map.mp hc
        obtain ⟨u, hu, hfin⟩ := hdone hfin
        exact ⟨b.taskId, u, rfl, hu, hfin⟩
  · rw [hherald] at hm
    rcases heffects.herald with hsame | ⟨⟨report, hid, hsent⟩, hfin⟩
    · rw [hsame] at hm
      obtain ⟨u, hu, hfin⟩ := hq.reports m hm
      exact ⟨u, hfinished _ u hu hfin, hfin⟩
    · rw [hsent] at hm
      rcases List.mem_append.mp hm with hm | hm
      · obtain ⟨u, hu, hfin⟩ := hq.reports m hm
        exact ⟨u, hfinished _ u hu hfin, hfin⟩
      · obtain rfl := List.mem_singleton.mp hm
        rw [hid]
        exact hdone hfin
  · rw [hherald]
    rcases heffects.herald with hsame | ⟨⟨report, hid, hsent⟩, -⟩
    · rw [hsame]
      exact hq.once i
    · rw [hsent, List.countP_append]
      by_cases hi : b.taskId = i
      · subst hi
        have hnone : q.store.herald.countP (fun m => m.taskId = b.taskId) = 0 :=
          List.countP_eq_zero.mpr fun m hm hof => hnoReport m hm (of_decide_eq_true hof)
        rw [hnone, Nat.zero_add]
        exact List.countP_le_length
      · have hother : [report].countP (fun m => m.taskId = i) = 0 := by simp [hid, hi]
        rw [hother, Nat.add_zero]
        exact hq.once i
  · rw [htasks] at hu
    by_cases hi : i = b.taskId
    · subst hi
      exact hrows.own u hu hstate
    · by_cases hlt : i < q.store.tasks.length
      · rw [hrows.others i hlt hi] at hu
        exact hq.distinct i u hu hstate
      · rw [hrows.new i u (not_lt.mp hlt) hu] at hstate
        cases hstate

/-- What a delivery leaves of a store, for the message that is delivered. -/
theorem deliver_served (hq : Served q) {place : ℕ} {env : Env}
    (h : occur q (.deliver place env) = some q')
    (hatOnce : ∀ b t, q.queue[place]? = some b → q.store.tasks[b.taskId]? = some t → AtOnce env t) :
    Served q' ∧ SendsStep q (.deliver place env) q' := by
  obtain ⟨b, l, r, hb, -, hstore, -⟩ := Mailbox.deliver_cases h
  have htasks : q'.store.tasks = (processTask env (World.fresh q.store b)).tasks := by
    rw [hstore]
    rfl
  have hcreated : q'.store.created =
      q.store.created ++ (processTask env (World.fresh q.store b)).created := by
    rw [hstore]
    rfl
  have hherald : q'.store.herald = (processTask env (World.fresh q.store b)).herald := by
    rw [hstore]
    rfl
  rcases processTask_open env q.store b with ⟨htasks', hcreated', hherald'⟩ | ⟨t, step, ht, hstep, hrun⟩
  · rw [htasks'] at htasks
    rw [hcreated', List.append_nil] at hcreated
    rw [hherald'] at hherald
    refine ⟨⟨hcreated ▸ hq.children, ?_, ?_, hherald ▸ hq.once, ?_⟩, ?_⟩
    · rw [hcreated, htasks]
      exact hq.parents
    · rw [hherald, htasks]
      exact hq.reports
    · rw [htasks]
      exact hq.distinct
    · intro b' t t' hb' ht hreports ht' hcompleted
      obtain rfl := Option.some.inj (hb.symm.trans hb')
      rw [htasks, ht] at ht'
      rw [← Option.some.inj ht', hreports.1] at hcompleted
      cases hcompleted
  · have hlt := (List.getElem?_eq_some_iff.mp ht).1
    have heffects := run_effects ht hstep (hatOnce b t hb ht)
    have hrows : Rows q.store b (step.run env (World.fresh q.store b)).2 := by
      refine (run_keeps (rows_unbroken hlt)).apply ⟨Others.fresh q.store b, fun j u hj hu => ?_, fun u hu hstate => ?_⟩
      · have := (List.getElem?_eq_some_iff.mp hu).1
        exact absurd hj (not_le.mpr this)
      · exact hq.distinct b.taskId u hu hstate
    rw [hrun] at htasks hcreated hherald
    refine ⟨hq.run ht hstep hrows heffects htasks hcreated hherald, ?_⟩
    intro b' t' u hb' ht' hreports hu hcompleted
    obtain rfl := Option.some.inj (hb.symm.trans hb')
    obtain rfl := Option.some.inj (ht.symm.trans ht')
    rw [htasks] at hu
    rcases heffects.sent hreports with ⟨⟨report, hid, hsent⟩, -⟩ | hnot
    · have hnone : q.store.herald.countP (fun m => m.taskId = b.taskId) = 0 := by
        refine List.countP_eq_zero.mpr fun m hm hof => ?_
        obtain ⟨u', hu', hfin⟩ := hq.reports m hm
        rw [of_decide_eq_true hof] at hu'
        have hopen := open_of_transition hstep
        rw [Option.some.inj (ht.symm.trans hu'), hfin] at hopen
        cases hopen
      rw [hherald, hsent, List.countP_append, hnone]
      simp [hid]
    · exact absurd hcompleted (hnot u hu)

theorem generate_served (hq : Served q) {schedules : List String} {now : ℤ} {put : ℕ → Call}
    (h : occur q (.generate schedules now put) = some q') : Served q' := by
  obtain rfl := Option.some.inj h
  have hold : ∀ {p : ℕ} {u : Task}, q.store.tasks[p]? = some u →
      (q.store.tasks ++ schedules.map scheduledTask)[p]? = some u := by
    intro p u hu
    rw [List.getElem?_append_left (List.getElem?_eq_some_iff.mp hu).1]
    exact hu
  refine ⟨hq.children, fun c hc => ?_, fun m hm => ?_, hq.once, fun i u hu hstate => ?_⟩
  · obtain ⟨p, u, hp, hu, hfin⟩ := hq.parents c hc
    exact ⟨p, u, hp, hold hu, hfin⟩
  · obtain ⟨u, hu, hfin⟩ := hq.reports m hm
    exact ⟨u, hold hu, hfin⟩
  · rw [List.getElem?_append] at hu
    split at hu
    · exact hq.distinct i u hu hstate
    · obtain ⟨schedule, -, rfl⟩ := List.mem_map.mp (List.mem_of_getElem? hu)
      cases hstate

end Step

/-- **Each recipient gets one report.**  In every run whose effects come with the completion of their
tasks, one task is created for each recipient at most, each task sends herald at most one message, and a
task that completes with a report has sent exactly one. -/
theorem oneEach_of_along (es : List Event) (hatOnce : Run.Along occur AtOnceStep start es) :
    Run.Always occur OneEach start es ∧ Run.Along occur SendsStep start es := by
  have hserved : ∀ q e q', Served q → occur q e = some q' → AtOnceStep q e q' →
      Served q' ∧ SendsStep q e q' := by
    intro q e q' hq h hatOnce
    cases e with
    | deliver place env => exact deliver_served hq h hatOnce
    | generate schedules now put => exact ⟨generate_served hq h, trivial⟩
  have hrun : Run.Always occur Served start es :=
    Run.always_of_along (fun q e q' hq h hatOnce => (hserved q e q' hq h hatOnce).1) Served.start hatOnce
  refine ⟨hrun.mono fun q hq => ⟨hq.children, hq.once⟩, ?_⟩
  have honce : Run.Along occur (fun q _ _ => Served q) start es :=
    Run.along_of_always (fun _ _ _ hq _ _ => hq) hrun
  have hsends : ∀ q e q', occur q e = some q' → ((Served q ∧ AtOnceStep q e q') ↔
      (Served q ∧ AtOnceStep q e q') ∧ SendsStep q e q') := fun q e q' h =>
    ⟨fun hq => ⟨hq, (hserved q e q' hq.1 h hq.2).2⟩, And.left⟩
  exact ((Run.along_congr hsends).mp (honce.and hatOnce)).mono fun _ _ _ h => h.2

theorem atOnce_answered (t : Task) : AtOnce answered t where
  created _ _ _ := Or.inr ⟨rfl, by simp [allDone, answered], by decide⟩
  sent _ := by decide

/-- A task is scheduled, and its message delivered. -/
theorem oneEach_answered : Run.Always occur OneEach start
    [.generate ["schedule"] 0 fun _ => .done, .deliver 0 answered, .deliver 0 answered] := by
  refine (oneEach_of_along _ fun q₁ _ => ⟨trivial, ?_⟩).1
  exact fun q₂ _ => ⟨fun b t _ _ => atOnce_answered t,
    fun q₃ _ => ⟨fun b t _ _ => atOnce_answered t, trivial⟩⟩

/-- **A recipient may get two reports, or none**: a task whose completion fails after the tasks of its
recipients were created creates them once more; one whose completion fails after its report was sent sends
it once more; and one whose report cannot be sent is completed nevertheless. -/
theorem exists_repeated :
    (∃ q, Run.run occur start (.generate ["schedule"] 0 (fun _ => .done) ::
        List.replicate 5 (.deliver 0 answered) ++
        [.deliver 0 { answered with update := .refused }, .deliver 0 answered]) = some q ∧
      ¬ (q.store.created.map Task.recipient).Nodup) ∧
    (∃ q, Run.run occur start (.generate ["schedule"] 0 (fun _ => .done) ::
        List.replicate 9 (.deliver 0 answered) ++
        [.deliver 0 { answered with update := .refused }, .deliver 0 answered]) = some q ∧
      q.store.herald.countP (fun m => m.taskId = 1) = 2) ∧
    ∃ q, Run.run occur start (.generate ["schedule"] 0 (fun _ => .done) ::
        List.replicate 9 (.deliver 0 answered) ++
        [.deliver 0 { answered with herald := .refused }]) = some q ∧
      q.store.tasks[1]?.map Task.state = some .completed ∧ q.store.herald = [] := by
  refine ⟨⟨_, rfl, ?_⟩, ⟨_, rfl, ?_⟩, ⟨_, rfl, ?_⟩⟩ <;> decide +kernel

end Katara
