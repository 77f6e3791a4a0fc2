import OptScale.Bumiworker.Queue

/-!
# Bumiworker/Fields — every step finds the keys it reads

The bodies of the scheduler and those of the children have different keys.  Along a run a body keeps
what it began with, and a task that waits has counted its children, so that a step finds every key it
reads — save for the completion of a child, whose exception handler reads the `wait_timeout` that a
child does not have.
-/

namespace Bumiworker

open Session

/-- What no step of a task changes. -/
def Body.ident (b : Body) : Body :=
  { b with lastUpdate := none, triesCount := none, state := none, childrenCount := none, reason := none }

theorem Body.moduleName_of_ident {b b' : Body} (h : b.ident = b'.ident) :
    b.moduleName = b'.moduleName := by
  change b.ident.moduleName = b'.ident.moduleName
  rw [h]

/-- A state a task may be in, with the number of its children where it waits for them. -/
def Body.InTask (b : Body) (s : TaskState) : Prop :=
  ∃ step, tasksTransitions s = some step ∧ (step.waits ≠ none → b.childrenCount ≠ none)

/-- A state a child may be in. -/
def InGroup (s : TaskState) : Prop := ∃ step, groupTasksTransitions s = some step

/-- **The body has what its next step needs**: the keys all bodies have, those of its kind, and a state
of its kind. -/
structure Body.Ready (b : Body) : Prop where
  lastUpdate : b.lastUpdate ≠ none
  triesCount : b.triesCount ≠ none
  organizationId : b.organizationId ≠ none
  checklistId : b.checklistId ≠ none
  createdAt : b.createdAt ≠ none
  taskTimeout : b.taskTimeout ≠ none
  maxRetries : b.maxRetries ≠ none
  ofTask : b.moduleName = none → b.waitTimeout ≠ none ∧ ∃ s, b.state = some s ∧ b.InTask s
  ofChild : b.moduleName ≠ none → b.moduleType ≠ none ∧ ∃ s, b.state = some s ∧ InGroup s

/-- The completion step of a child. -/
def Body.CompletesChild (b : Body) : Prop :=
  b.moduleName ≠ none ∧ (b.state = some .processed ∨ b.state = some .error)

instance (b : Body) : Decidable b.CompletesChild :=
  inferInstanceAs (Decidable (b.moduleName ≠ none ∧ (b.state = some .processed ∨ b.state = some .error)))

/-- No key the message's step reads is missing, whatever happens. -/
def KeysPresent (M : Modules) (objects : Bucket) (b : Body) : Prop :=
  ∀ env, (processTask M env objects b).missing = []

variable {M : Modules} {env : Env} {objects : Bucket} {b : Body} {step : Step}

theorem Schedule.ready (c : Schedule) : c.task.Ready where
  lastUpdate := by simp [Schedule.task]
  triesCount := by simp [Schedule.task]
  organizationId := by simp [Schedule.task]
  checklistId := by simp [Schedule.task]
  createdAt := by simp [Schedule.task]
  taskTimeout := by simp [Schedule.task]
  maxRetries := by simp [Schedule.task]
  ofTask _ := ⟨by simp [Schedule.task], .created, rfl, .setStarted, rfl, by simp [Step.waits]⟩
  ofChild h := absurd rfl h

theorem Body.Ready.childFor (hb : b.Ready) (env : Env) (folder : Folder) (name : String) :
    (b.childFor env folder name).Ready where
  lastUpdate := by simp [Body.childFor]
  triesCount := by simp [Body.childFor]
  organizationId := hb.organizationId
  checklistId := hb.checklistId
  createdAt := hb.createdAt
  taskTimeout := hb.taskTimeout
  maxRetries := hb.maxRetries
  ofTask h := by simp [Body.childFor] at h
  ofChild _ := ⟨by simp [Body.childFor], .created, rfl, .setStarted, rfl⟩

/-- A body that is ready has a step. -/
theorem Body.Ready.exists_transition (hb : b.Ready) : ∃ step, transition b = some step := by
  by_cases hname : b.moduleName = none
  · obtain ⟨-, s, hs, step, hstep, -⟩ := hb.ofTask hname
    exact ⟨step, by rw [transition, hs, Option.bind_some, if_pos hname, hstep]⟩
  · obtain ⟨-, s, hs, step, hstep⟩ := hb.ofChild hname
    exact ⟨step, by rw [transition, hs, Option.bind_some, if_neg hname, hstep]⟩

/-- The kind of a body is that of its step. -/
theorem transition_kind (h : transition b = some step) :
    ∃ s, b.state = some s ∧ (b.moduleName = none → tasksTransitions s = some step) ∧
      (b.moduleName ≠ none → groupTasksTransitions s = some step) := by
  obtain ⟨s, hs, hstep⟩ := Option.bind_eq_some_iff.mp h
  refine ⟨s, hs, fun hname => ?_, fun hname => ?_⟩
  · rwa [if_pos hname] at hstep
  · rwa [if_neg hname] at hstep

/-- **A step of a ready body finds the keys it reads**, save for the completion of a child. -/
theorem Body.Ready.has (hb : b.Ready) (h : transition b = some step)
    (hc : ¬ b.CompletesChild) : ∀ f ∈ step.reads, b.Has f := by
  obtain ⟨s, hs, htask, hgroup⟩ := transition_kind h
  obtain ⟨hlast, htries, horg, hcheck, hcreated, htimeout, hmax, hofTask, hofChild⟩ := hb
  by_cases hname : b.moduleName = none
  · obtain ⟨hwait, s', hs', step', hstep', hcount⟩ := hofTask hname
    obtain rfl : s = s' := Option.some.inj (hs.symm.trans hs')
    obtain rfl : step' = step := Option.some.inj (hstep'.symm.trans (htask hname))
    cases s <;> cases hstep' <;> intro f hf <;>
      simp [Step.reads, Step.base, Base.reads, Step.ownReads] at hf <;>
      grind [Body.Has, Step.waits]
  · obtain ⟨htype, -⟩ := hofChild hname
    have hstep := hgroup hname
    have hne : ¬ (b.state = some .processed ∨ b.state = some .error) := fun h => hc ⟨hname, h⟩
    cases s <;> cases hstep <;> intro f hf <;>
      simp [Step.reads, Step.base, Base.reads, Step.ownReads] at hf <;>
      grind [Body.Has]

/-! ## One message -/

/-- The body after a change of state. -/
theorem Body.Ready.withState (hb : b.Ready) {s : TaskState}
    (htask : b.moduleName = none → b.InTask s) (hgroup : b.moduleName ≠ none → InGroup s) :
    ({ b with state := some s } : Body).Ready :=
  ⟨hb.lastUpdate, hb.triesCount, hb.organizationId, hb.checklistId, hb.createdAt, hb.taskTimeout,
    hb.maxRetries, fun h => ⟨(hb.ofTask h).1, s, rfl, htask h⟩,
    fun h => ⟨(hb.ofChild h).1, s, rfl, hgroup h⟩⟩

theorem Body.Ready.failed (hb : b.Ready) (e : Exn) :
    ({ b with reason := some e, state := some .error } : Body).Ready :=
  ⟨hb.lastUpdate, hb.triesCount, hb.organizationId, hb.checklistId, hb.createdAt, hb.taskTimeout,
    hb.maxRetries,
    fun h => ⟨(hb.ofTask h).1, .error, rfl, .setFailedNotifiable, rfl, by simp [Step.waits]⟩,
    fun h => ⟨(hb.ofChild h).1, .error, rfl, .setFailed, rfl⟩⟩

theorem Body.Ready.counted (hb : b.Ready) (n : ℕ) : ({ b with childrenCount := some n } : Body).Ready :=
  ⟨hb.lastUpdate, hb.triesCount, hb.organizationId, hb.checklistId, hb.createdAt, hb.taskTimeout,
    hb.maxRetries,
    fun h => by
      obtain ⟨hwait, s, hs, step, hstep, -⟩ := hb.ofTask h
      exact ⟨hwait, s, hs, step, hstep, fun _ => by simp⟩,
    hb.ofChild⟩

theorem Body.Ready.stamped (hb : b.Ready) (t : ℤ) : ({ b with lastUpdate := some t } : Body).Ready :=
  ⟨by simp, hb.triesCount, hb.organizationId, hb.checklistId, hb.createdAt, hb.taskTimeout,
    hb.maxRetries, hb.ofTask, hb.ofChild⟩

theorem Body.Ready.retried (hb : b.Ready) (n : ℕ) : ({ b with triesCount := some n } : Body).Ready :=
  ⟨hb.lastUpdate, by simp, hb.organizationId, hb.checklistId, hb.createdAt, hb.taskTimeout,
    hb.maxRetries, hb.ofTask, hb.ofChild⟩

/-- The state a step moves to has a step of a task, which does not wait. -/
theorem Step.Moves.inTask {s : TaskState} (hs : step.Moves M env s) (b : Body) : b.InTask s := by
  have hnext : ∃ next, tasksTransitions s = some next ∧ next.waits = none := by
    cases step <;> simp only [Step.Moves] at hs
    · exact hs ▸ ⟨_, rfl, rfl⟩
    · exact hs.1 ▸ ⟨_, rfl, rfl⟩
    · rcases hs with rfl | rfl <;> exact ⟨_, rfl, rfl⟩
    · rcases hs with rfl | rfl <;> exact ⟨_, rfl, rfl⟩
    · exact hs ▸ ⟨_, rfl, rfl⟩
  obtain ⟨next, hnext, hwaits⟩ := hnext
  exact ⟨next, hnext, fun h => absurd hwaits h⟩

/-- The steps of a group: a child is not moved but by the first of them. -/
theorem group_cases {s : TaskState} (h : groupTasksTransitions s = some step) :
    step = .setStarted ∨ step = .process ∨ step = .cleanup ∨ step = .setFailed := by
  cases s <;> cases h <;> simp

theorem Step.Moves.inGroup {s s' : TaskState} (hs : step.Moves M env s)
    (h : groupTasksTransitions s' = some step) : InGroup s := by
  rcases group_cases h with rfl | rfl | rfl | rfl
  · exact hs ▸ ⟨.process, rfl⟩
  · exact hs.elim
  · exact hs.elim
  · exact hs.elim

/-- **What the processing of `b` keeps of the bodies**: all are ready, and those of the task itself are
still its own. -/
structure Sound (b : Body) (w : World) : Prop where
  ident : w.body.ident = b.ident
  ready : w.body.Ready
  published : ∀ m ∈ w.published, m.body.Ready ∧ m.body.ident = b.ident
  children : ∀ c ∈ w.children, c.Ready ∧ c.waitTimeout = none

theorem Sound.moduleName {w : World} (h : Sound b w) : w.body.moduleName = b.moduleName :=
  Body.moduleName_of_ident h.ident

theorem Sound.fresh (hb : b.Ready) : Sound b (World.fresh objects b) :=
  ⟨rfl, hb, fun _ hm => absurd hm List.not_mem_nil, fun _ hc => absurd hc List.not_mem_nil⟩

theorem sound_unbroken (htrans : transition b = some step) : Unbroken M env step (Sound b) := by
  obtain ⟨s₀, -, htask, hgroup⟩ := transition_kind htrans
  intro w w' hchange hw
  obtain ⟨hident, hready, hpublished, hchildren⟩ := hw
  have hname : w.body.moduleName = b.moduleName := Body.moduleName_of_ident hident
  cases hchange with
  | missed _ _ => exact ⟨hident, hready, hpublished, hchildren⟩
  | moved hs =>
    refine ⟨hident, hready.withState (fun _ => hs.inTask _) fun h => ?_, hpublished, hchildren⟩
    exact hs.inGroup (hgroup (hname ▸ h))
  | put _ _ _ _ =>
    refine ⟨hident, hready, hpublished, fun c hc => ?_⟩
    rcases List.mem_append.mp hc with hc | hc
    · exact hchildren c hc
    · obtain rfl := List.mem_singleton.mp hc
      exact ⟨hready.childFor _ _ _, rfl⟩
  | counted hstep _ _ _ =>
    refine ⟨hident, (hready.counted _).withState (fun _ => ?_) (fun h => ?_), hpublished, hchildren⟩
    · cases step <;> cases hstep <;> exact ⟨_, rfl, fun _ => by simp⟩
    · rcases group_cases (hgroup (hname ▸ h)) with rfl | rfl | rfl | rfl <;> cases hstep
  | waited hstep =>
    refine ⟨hident, (hready.stamped _).withState (fun _ => ?_) (fun h => ?_), hpublished, hchildren⟩
    · cases step <;> cases hstep <;> exact ⟨_, rfl, fun h => absurd rfl h⟩
    · rcases group_cases (hgroup (hname ▸ h)) with rfl | rfl | rfl | rfl <;> cases hstep
  | uploaded _ _ => exact ⟨hident, hready, hpublished, hchildren⟩
  | processed hstep _ =>
    subst hstep
    refine ⟨hident, hready.withState (fun h => ?_) fun _ => ⟨.cleanup, rfl⟩, hpublished, hchildren⟩
    have hnone := htask (hname ▸ h)
    cases s₀ <;> cases hnone
  | cleaned _ _ => exact ⟨hident, hready, hpublished, hchildren⟩

theorem sound_closed : Closed step (Sound b) := by
  intro w w' hclosing hw
  obtain ⟨hident, hready, hpublished, hchildren⟩ := hw
  cases hclosing with
  | missed _ _ => exact ⟨hident, hready, hpublished, hchildren⟩
  | stamped t => exact ⟨hident, hready.stamped t, hpublished, hchildren⟩
  | retried _ _ _ => exact ⟨hident, hready.retried _, hpublished, hchildren⟩
  | failed e _ => exact ⟨hident, hready.failed e, hpublished, hchildren⟩
  | continued =>
    refine ⟨hident, hready, fun m hm => ?_, hchildren⟩
    rcases List.mem_append.mp hm with hm | hm
    · exact hpublished m hm
    · obtain rfl := List.mem_singleton.mp hm
      exact ⟨hready, hident⟩
  | acked => exact ⟨hident, hready, hpublished, hchildren⟩

variable (M env objects) in
/-- **Processing a ready body** leaves nothing but ready bodies. -/
theorem processTask_sound (hb : b.Ready) : Sound b (processTask M env objects b) := by
  obtain ⟨step, hstep⟩ := hb.exists_transition
  exact processTask_keeps hstep (sound_unbroken hstep) sound_closed (.fresh hb)

theorem Change.has {w w' : World} (h : Change M env step w w') {f : Field} (hf : w.body.Has f) :
    w'.body.Has f := by
  cases h <;> cases f <;> first | exact hf | exact Option.some_ne_none _

theorem Closing.has {w w' : World} (h : Closing step w w') {f : Field} (hf : w.body.Has f) :
    w'.body.Has f := by
  cases h <;> cases f <;> first | exact hf | exact Option.some_ne_none _

/-- **Where the keys are there, none is missed.** -/
theorem processTask_missing (htrans : transition b = some step) (hhas : ∀ f ∈ step.reads, b.Has f) :
    (processTask M env objects b).missing = [] := by
  refine (processTask_keeps (P := fun w => w.missing = [] ∧ ∀ f ∈ step.reads, w.body.Has f) htrans
    ?_ ?_ ⟨rfl, hhas⟩).1
  · rintro w w' hchange ⟨hmissing, hbody⟩
    refine ⟨?_, fun f hf => hchange.has (hbody f hf)⟩
    cases hchange with
    | missed hread habsent => exact absurd (hbody _ hread) habsent
    | _ => exact hmissing
  · rintro w w' hclosing ⟨hmissing, hbody⟩
    refine ⟨?_, fun f hf => hclosing.has (hbody f hf)⟩
    cases hclosing with
    | missed hread habsent => exact absurd (hbody _ hread) habsent
    | _ => exact hmissing

/-- Neither the bucket nor the queue answers the first time. -/
def unanswered : Env where
  checkNow := 0
  childNow := 0
  updateNow := 0
  handleNow := 0
  disabled := []
  previousResult := false
  moduleError := false
  service := .refused
  write := .done
  child _ := .done
  publish := .done
  ack := .refused
  republish := .done
  reack := .done

/-- An exception of the completion of a child reads the `wait_timeout`. -/
theorem execute_missing {w : World} {e : Exn} (hbase : step.base = .completeBase)
    (herror : step.attempt M unanswered (World.fresh objects b) = (.error e, w))
    (hbody : w.body = b) (hmissing : w.missing = []) (hb : b.Ready) (hwait : b.waitTimeout = none) :
    (step.execute M unanswered (World.fresh objects b)).2.missing = [.waitTimeout] := by
  subst hbody
  obtain ⟨last, hlast⟩ := Option.ne_none_iff_exists'.mp hb.lastUpdate
  have hcomplete : step.handleException unanswered e =
      CompleteBase.handleException step unanswered := by rw [Step.handleException, hbase]
  have hhandler : step.handleException unanswered e w =
      (.error (.keyError .waitTimeout), { w with missing := [.waitTimeout] }) := by
    rw [hcomplete]
    refine (bind_of_ok (key_of_some hlast)).trans ((bind_of_error (key_of_none hwait)).trans ?_)
    rw [hmissing]
    rfl
  have hcaught : (step.handleException unanswered e).caught (fun _ => pure ()) w =
      (.ok (), { w with missing := [.waitTimeout] }) := caught_of_error hhandler
  rw [Step.execute, caught_of_error herror]
  exact congrArg (fun r : Except Exn Unit × World => r.2.missing) (bind_of_ok hcaught)

variable (M objects) in
/-- **The completion of a child** that is not answered reads the `wait_timeout` a child does not have. -/
theorem missing_of_completesChild (hb : b.Ready) (hwait : b.waitTimeout = none)
    (hc : b.CompletesChild) : (processTask M unanswered objects b).missing = [.waitTimeout] := by
  obtain ⟨hname, hstate⟩ := hc
  obtain ⟨org, horg⟩ := Option.ne_none_iff_exists'.mp hb.organizationId
  obtain ⟨checklist, hcheck⟩ := Option.ne_none_iff_exists'.mp hb.checklistId
  obtain ⟨created, hcreated⟩ := Option.ne_none_iff_exists'.mp hb.createdAt
  have hstep : ∀ step s, b.state = some s → groupTasksTransitions s = some step →
      transition b = some step := fun step s hs hstep => by
    rw [transition, hs, Option.bind_some, if_neg hname, hstep]
  rcases hstate with hs | hs
  · rw [processTask_of_transition (hstep .cleanup _ hs rfl)]
    refine execute_missing (w := World.fresh objects b) (e := .external) rfl ?_ rfl rfl hb hwait
    have hperform : Step.cleanup.perform M unanswered (World.fresh objects b) =
        (.error .external, World.fresh objects b) :=
      (bind_of_ok (key_of_some horg)).trans (bind_of_error rfl)
    exact (bind_of_ok (a := ()) rfl).trans (bind_of_error hperform)
  · rw [processTask_of_transition (hstep .setFailed _ hs rfl)]
    refine execute_missing (w := World.fresh objects b) (e := .external) rfl ?_ rfl rfl hb hwait
    have hperform : Step.setFailed.perform M unanswered (World.fresh objects b) =
        (.ok (), World.fresh objects b) := by
      refine (bind_of_ok (x := body) (a := b) rfl).trans ?_
      by_cases hempty : b.moduleName = none ∨ b.moduleName = some ""
      · rw [if_pos hempty]
        exact (bind_of_ok (key_of_some hcheck)).trans (bind_of_ok (key_of_some hcreated))
      · rw [if_neg hempty]
        rfl
    exact (bind_of_ok (a := ()) rfl).trans (bind_of_ok hperform)

/-! ## Runs -/

/-- What is in flight is ready, and a child has no `wait_timeout`. -/
def InFlight (b : Body) : Prop := b.Ready ∧ (b.moduleName ≠ none → b.waitTimeout = none)

/-- **All that is in flight stays ready.** -/
theorem inFlight_deliver {s s' : Queue} {d : ℕ × Env} (hs : ∀ b ∈ s.queue, InFlight b)
    (h : deliver M s d = some s') : ∀ b ∈ s'.queue, InFlight b := by
  refine (Mailbox.Holds.deliver (I := fun _ => True) (J := fun _ => InFlight) ⟨trivial, hs⟩ h
    (fun _ _ => trivial) (fun _ _ _ h => h) fun b hb b' hb' => ?_).2
  obtain ⟨hready, hwait⟩ := hs b (List.mem_of_getElem? hb)
  obtain ⟨-, -, hpublished, hchildren⟩ := processTask_sound M d.2
    s.store.objects hready
  simp only [handle, List.mem_append, List.mem_map] at hb'
  rcases hb' with hself | ⟨m, hm, rfl⟩ | hchild
  · split at hself
    · exact absurd hself List.not_mem_nil
    · exact List.mem_singleton.mp hself ▸ ⟨hready, hwait⟩
  · obtain ⟨hready', hident⟩ := hpublished m hm
    refine ⟨hready', fun hname => ?_⟩
    have hkept : m.body.ident.waitTimeout = b.ident.waitTimeout := by rw [hident]
    exact hkept.trans (hwait (Body.moduleName_of_ident hident ▸ hname))
  · exact ⟨(hchildren b' hchild).1, fun _ => (hchildren b' hchild).2⟩

/-- **Every step finds the keys it reads, save for the completion of a child.**  In every state of every
run, no key is ever missing for the step of a message exactly when the message is not that of a child
whose task was processed or has failed. -/
theorem keysPresent_iff (M : Modules) (objects : Bucket) (c : Schedule) (ds : List (ℕ × Env)) :
    Run.Always (deliver M)
      (fun s => ∀ b ∈ s.queue, KeysPresent M s.store.objects b ↔ ¬ b.CompletesChild)
      (start objects c) ds := by
  have hrun : Run.Always (deliver M) (fun s => ∀ b ∈ s.queue, InFlight b) (start objects c) ds := by
    refine Run.always_of_step (fun s d s' hs h => inFlight_deliver hs h) ds fun b hb => ?_
    obtain rfl := List.mem_singleton.mp hb
    exact ⟨c.ready, fun h => absurd rfl h⟩
  refine hrun.mono fun s hs b hb => ?_
  obtain ⟨hready, hwait⟩ := hs b hb
  constructor
  · intro hpresent hc
    have hmissing := missing_of_completesChild M s.store.objects hready
      (hwait hc.1) hc
    rw [hpresent unanswered] at hmissing
    exact List.cons_ne_nil _ _ hmissing.symm
  · intro hc env
    obtain ⟨step, hstep⟩ := hready.exists_transition
    exact processTask_missing hstep (hready.has hstep hc)

/-- All calls answer at once. -/
def answered : Env where
  checkNow := 0
  childNow := 0
  updateNow := 0
  handleNow := 0
  disabled := []
  previousResult := true
  moduleError := false
  service := .done
  write := .done
  child _ := .done
  publish := .done
  ack := .done
  republish := .done
  reack := .done

/-- One module, of recommendations. -/
def oneModule : Modules where
  names
    | .recommendations => ["m"]
    | _ => []
  nodup folder := by cases folder <;> simp

/-- A task that is scheduled at 10. -/
def tenOClock : Schedule := ⟨"org", "checklist", 10, 0, 3600, 7200, 5⟩

/-- **A step may miss a key**: a child whose module was processed, and whose bucket does not answer when
it cleans up, reads the `wait_timeout` of its body; the exception drops the task. -/
theorem exists_missing : ∃ s, Run.run (deliver oneModule) (start Table.empty tenOClock)
      [(0, answered), (0, answered), (1, answered), (1, answered)] = some s ∧
    ∃ b ∈ s.queue, ¬ KeysPresent oneModule s.store.objects b := by
  refine ⟨_, rfl, _, List.mem_cons_of_mem _ List.mem_cons_self, fun hpresent => ?_⟩
  have hmissing := hpresent unanswered
  revert hmissing
  decide +kernel

end Bumiworker
