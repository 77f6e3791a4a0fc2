import OptScale.Bumiworker.Agreement

/-!
# Bumiworker/Continuations — one continuation for each message

A message of a task that has not come to its completion step is answered by one continuation of the same
task, in the same state, the next one, or in error; a task without recommendation modules skips to its
last step but one.  That holds as long as no call fails after a message was put on the queue: then each
task has at most one message in flight, and puts each child on the queue once.
-/

namespace Bumiworker

open Session

variable {M : Modules} {env : Env} {objects : Bucket} {b : Body} {step : Step} {w : World}
  {folder : Folder} {c : Schedule}

/-! ## Statements -/

/-- The state a step leads to. -/
def Step.next : Step → Option TaskState
  | .setStarted => some .started
  | .initializeChecklist => some .initializedChecklist
  | .waitChecklist => some .waitedChecklist
  | .collectCheckResult => some .collectedCheckResult
  | .initializeArchive => some .initializedArchive
  | .waitArchive => some .waitedArchive
  | .checkArchiveResult => some .checkedArchiveResult
  | .initializeService => some .initializedService
  | .waitService => some .waitedService
  | .updateChecklist => some .updatedChecklist
  | .process => some .processed
  | _ => none

/-- The states of a task after one message: unchanged, the next one, error; or the last but one, for a
task that has no recommendation modules to wait for. -/
def Follows (M : Modules) (env : Env) (b : Body) (step : Step) (s : Option TaskState) : Prop :=
  s = b.state ∨ (s = step.next ∧ s ≠ none) ∨ s = some .error ∨
    (s = some .waitedService ∧ step = .initializeChecklist ∧ enabled M env .recommendations = [])

/-- The tries of a task are within bounds. -/
def Body.Tried (b : Body) : Prop := ∀ n m, b.triesCount = some n → b.maxRetries = some m → n ≤ m

/-- The children of a step are put on the queue all, or none. -/
def ChildrenWhole (M : Modules) (env : Env) (step : Step) : Prop :=
  ∀ folder s, step.initializes = some (folder, s) →
    env.child 0 = .refused ∨ ∀ i < (enabled M env folder).length, env.child i = .done

/-- **No call fails after a message was put on the queue**: the children are put there all or none, a
publication that raises has not published, the continuation of the exception handler is published, and
the message is acknowledged — at once, unless it is that of a completion step. -/
structure Clean (M : Modules) (env : Env) (step : Step) : Prop where
  children : ChildrenWhole M env step
  publish : env.publish ≠ .broken
  ack : step.base ≠ .completeBase → env.ack = .done
  republish : env.republish = .done
  reack : env.reack ≠ .refused

/-- **One continuation**: the message is acknowledged, and one message of the same task published. -/
def Continues (M : Modules) (env : Env) (objects : Bucket) (b : Body) (step : Step) : Prop :=
  (processTask M env objects b).acked = true ∧
    ∃ m, (processTask M env objects b).published = [m] ∧ m.body.ident = b.ident ∧
      Follows M env b step m.body.state ∧ m.body.Tried

/-- The message of a task or of one of its children. -/
def Body.IsOf (name : Option (Folder × String)) (b : Body) : Bool :=
  match name with
  | none => b.moduleName = none
  | some (folder, moduleName) => b.moduleType = some folder ∧ b.moduleName = some moduleName

/-- At most one message of each task is in flight. -/
def OneInFlight (s : Queue) : Prop := ∀ name, s.queue.countP (Body.IsOf name) ≤ 1

/-- Each child was put on the queue at most once. -/
def BornOnce (s : Queue) : Prop :=
  ∀ folder name, s.store.born.countP (Body.IsOf (some (folder, name))) ≤ 1

/-- The step of a message is clean. -/
def CleanStep (M : Modules) (s : Queue) (d : ℕ × Env) (_ : Queue) : Prop :=
  ∀ b step, s.queue[d.1]? = some b → transition b = some step → Clean M d.2 step

/-- A message that does not come to a completion step is continued. -/
def ContinuesStep (M : Modules) (s : Queue) (d : ℕ × Env) (_ : Queue) : Prop :=
  ∀ b step, s.queue[d.1]? = some b → transition b = some step → step.base ≠ .completeBase →
    Continues M d.2 s.store.objects b step

/-! ## States and tries -/

/-- What a message does to the state and the tries of its task. -/
structure Following (M : Modules) (env : Env) (b : Body) (step : Step) (w : World) : Prop where
  state : Follows M env b step w.body.state
  tried : w.body.Tried
  published : ∀ m ∈ w.published, Follows M env b step m.body.state ∧ m.body.Tried

theorem following_unbroken : Unbroken M env step (Following M env b step) := by
  rintro w w' hchange ⟨hstate, htried, hpublished⟩
  cases hchange with
  | missed _ _ => exact ⟨hstate, htried, hpublished⟩
  | moved hs =>
    refine ⟨Or.inr ?_, htried, hpublished⟩
    cases step <;> simp only [Step.Moves] at hs
    · exact hs ▸ Or.inl ⟨rfl, by simp⟩
    · exact hs.1 ▸ Or.inr (Or.inr ⟨rfl, rfl, hs.2⟩)
    · rcases hs with rfl | rfl
      · exact Or.inl ⟨rfl, by simp⟩
      · exact Or.inr (Or.inl rfl)
    · rcases hs with rfl | rfl
      · exact Or.inl ⟨rfl, by simp⟩
      · exact Or.inr (Or.inl rfl)
    · exact hs ▸ Or.inl ⟨rfl, by simp⟩
  | put _ _ _ _ => exact ⟨hstate, htried, hpublished⟩
  | counted hstep _ _ _ =>
    refine ⟨Or.inr (Or.inl ?_), htried, hpublished⟩
    cases step <;> cases hstep <;> exact ⟨rfl, by simp⟩
  | waited hstep =>
    refine ⟨Or.inr (Or.inl ?_), htried, hpublished⟩
    cases step <;> cases hstep <;> exact ⟨rfl, by simp⟩
  | uploaded _ _ => exact ⟨hstate, htried, hpublished⟩
  | processed hstep _ =>
    subst hstep
    exact ⟨Or.inr (Or.inl ⟨rfl, by simp⟩), htried, hpublished⟩
  | cleaned _ _ => exact ⟨hstate, htried, hpublished⟩

theorem following_closed : Closed step (Following M env b step) := by
  rintro w w' hclosing ⟨hstate, htried, hpublished⟩
  cases hclosing with
  | missed _ _ => exact ⟨hstate, htried, hpublished⟩
  | stamped _ => exact ⟨hstate, htried, hpublished⟩
  | @retried n m htries hmax hlt =>
    refine ⟨hstate, fun n' m' hn' hm' => ?_, hpublished⟩
    obtain rfl := Option.some.inj hn'
    obtain rfl := Option.some.inj (hmax.symm.trans hm')
    exact hlt
  | failed _ _ => exact ⟨Or.inr (Or.inr (Or.inl rfl)), htried, hpublished⟩
  | continued =>
    refine ⟨hstate, htried, fun m hm => ?_⟩
    rcases List.mem_append.mp hm with hm | hm
    · exact hpublished m hm
    · obtain rfl := List.mem_singleton.mp hm
      exact ⟨hstate, htried⟩
  | acked => exact ⟨hstate, htried, hpublished⟩

variable (M env objects) in
/-- **The tries of a task stay within bounds**, and its state follows. -/
theorem processTask_following (h : transition b = some step) (htried : b.Tried) :
    Following M env b step (processTask M env objects b) :=
  processTask_keeps h following_unbroken following_closed
    ⟨Or.inl rfl, htried, fun _ hm => absurd hm List.not_mem_nil⟩

/-! ## One continuation -/

/-- Nothing is published or acknowledged yet. -/
def World.Silent (w : World) : Prop := w.published = [] ∧ w.acked = false

theorem silent_unbroken : Unbroken M env step World.Silent := by
  rintro w w' hchange ⟨hpublished, hacked⟩
  cases hchange <;> exact ⟨hpublished, hacked⟩

/-- One message is published and the message acknowledged. -/
def World.Answered (w : World) : Prop := w.published.length = 1 ∧ w.acked = true

/-- **A base class that continues** does so once, or fails before. -/
theorem finish_silent (hbase : step.base ≠ .completeBase) (hpublish : env.publish ≠ .broken)
    (hack : env.ack = .done) :
    Spec World.Silent (step.finish env) (fun _ => World.Answered) fun _ => World.Silent := by
  have hcontinue : Spec World.Silent (continueExecute step env) (fun _ => World.Answered)
      fun _ => World.Silent := by
    have hput : Spec World.Silent (onContinue env.publish step.isDelayed)
        (fun _ w => w.published.length = 1) fun _ => World.Silent :=
      Spec.call (fun _ w hw => by simp [hw.1]) (fun _ w hw => hw) fun h _ _ => absurd h hpublish
    have hacked : Spec (fun w : World => w.published.length = 1) (ack env.ack)
        (fun _ => World.Answered) fun _ => World.Silent := by
      rw [hack]
      exact Spec.call (fun _ w hw => ⟨hw, rfl⟩) (fun h => by cases h) fun h => by cases h
    exact hput.bind fun _ => hacked
  unfold Step.finish
  split
  · have hstamp : Spec World.Silent (setBody fun b => { b with lastUpdate := some env.updateNow })
        (fun _ => World.Silent) fun _ => World.Silent := Spec.change fun w hw => hw
    exact hstamp.bind fun _ => hcontinue
  · exact hcontinue
  · exact hcontinue
  · rename_i hcomplete
    exact absurd hcomplete hbase

/-- The exception handler of a step that continues, with or without a new `last_update` first. -/
theorem handleException_cases (hbase : step.base ≠ .completeBase) (env : Env) (e : Exn) :
    step.handleException env e = Base.handleException step env e ∨
      step.handleException env e = (do
        setBody fun b => { b with lastUpdate := some env.handleNow }
        Base.handleException step env e : Act Unit) := by
  revert hbase
  cases step <;> simp [Step.handleException, Step.base]

/-- **An exception is answered once.** -/
theorem handleException_silent (hbase : step.base ≠ .completeBase) (hrepublish : env.republish = .done)
    (e : Exn) (hw : w.Silent) (htries : w.body.triesCount ≠ none) (hmax : w.body.maxRetries ≠ none) :
    (step.handleException env e w).2.published.length = 1 := by
  obtain ⟨n, hn⟩ := Option.ne_none_iff_exists'.mp htries
  obtain ⟨m, hm⟩ := Option.ne_none_iff_exists'.mp hmax
  have hput : ∀ u : World, u.published = [] →
      (onContinue env.republish step.isDelayed u).2.published.length = 1 := by
    intro u hu
    rw [hrepublish]
    simp [onContinue, call, hu]
  have hhandle : ∀ u : World, u.published = [] → u.body.triesCount = some n →
      u.body.maxRetries = some m → (Base.handleException step env e u).2.published.length = 1 := by
    intro u hu hn hm
    have hcontinues : ∃ continues, canContinue e u = (.ok continues, u) := by
      unfold canContinue
      split
      · exact ⟨_, rfl⟩
      · exact ⟨_, (bind_of_ok (key_of_some hn)).trans ((bind_of_ok (key_of_some hm)).trans rfl)⟩
    obtain ⟨continues, hcontinues⟩ := hcontinues
    have hnoted : ∃ u', noteException continues e u = (.ok (), u') ∧ u'.published = [] := by
      cases continues with
      | true => exact ⟨_, bind_of_ok (key_of_some hn), hu⟩
      | false => exact ⟨_, rfl, hu⟩
    obtain ⟨u', hnoted, hu'⟩ := hnoted
    rw [Base.handleException, bind_of_ok hcontinues, bind_of_ok hnoted]
    exact hput u' hu'
  rcases handleException_cases hbase env e with h | h
  · rw [h]
    exact hhandle w hw.1 hn hm
  · have hstamp : setBody (fun b => { b with lastUpdate := some env.handleNow }) w =
        (.ok (), { w with body := { w.body with lastUpdate := some env.handleNow } }) := rfl
    rw [h, bind_of_ok hstamp]
    exact hhandle _ hw.1 hn hm

variable (objects) in
/-- **A message that does not come to a completion step** is answered once. -/
theorem processTask_answered (hb : b.Ready) (h : transition b = some step)
    (hbase : step.base ≠ .completeBase) (hclean : Clean M env step) :
    (processTask M env objects b).Answered := by
  have hattempt : Spec (fun w => Sound b w ∧ w.Silent) (step.attempt M env)
      (fun _ => World.Answered) fun _ w => w.body.Ready ∧ w.Silent := by
    have hP : Unbroken M env step fun w => Sound b w ∧ w.Silent := fun w w' hchange hw =>
      ⟨sound_unbroken h w w' hchange hw.1, silent_unbroken w w' hchange hw.2⟩
    refine ((checkTimeout_keeps hP).spec.mono (fun _ h => h) (fun _ _ h => h)
      fun _ _ h => ⟨h.1.ready, h.2⟩).bind fun _ => ?_
    refine ((perform_keeps hP).spec.mono (fun _ h => h) (fun _ _ h => h)
      fun _ _ h => ⟨h.1.ready, h.2⟩).bind fun _ => ?_
    intro w hw
    refine ⟨fun a t ht => (finish_silent hbase hclean.publish (hclean.ack hbase)).ok hw.2 ht,
      fun e t ht => ⟨?_, (finish_silent hbase hclean.publish (hclean.ack hbase)).error hw.2 ht⟩⟩
    exact ((finish_keeps sound_closed).error hw.1 ht).ready
  have hfresh : Sound b (World.fresh objects b) ∧ (World.fresh objects b).Silent :=
    ⟨.fresh hb, rfl, rfl⟩
  rw [processTask_of_transition h]
  cases hrun : step.attempt M env (World.fresh objects b) with
  | mk r t =>
    cases r with
    | ok a =>
      rw [execute_of_ok hrun]
      exact hattempt.ok hfresh hrun
    | error e =>
      obtain ⟨hready, hsilent⟩ := hattempt.error hfresh hrun
      rw [execute_of_error hrun]
      refine ⟨?_, ?_⟩
      · rw [ack_published]
        exact handleException_silent hbase hclean.republish e hsilent hready.triesCount
          hready.maxRetries
      · cases hreack : env.reack with
        | done => rfl
        | refused => exact absurd hreack hclean.reack
        | broken => rfl

/-- **One continuation for each message.** -/
theorem continues_of_clean (hb : b.Ready) (htried : b.Tried) (h : transition b = some step)
    (hbase : step.base ≠ .completeBase) (hclean : Clean M env step) :
    Continues M env objects b step := by
  obtain ⟨hlength, hacked⟩ := processTask_answered objects hb h hbase hclean
  obtain ⟨m, hm⟩ := List.length_eq_one_iff.mp hlength
  have hmem : m ∈ (processTask M env objects b).published := hm ▸ List.mem_singleton_self m
  have hfollowing := (processTask_following M env objects h htried).published m hmem
  exact ⟨hacked, m, hm, (processTask_sound M env objects hb).published m hmem |>.2, hfollowing.1, hfollowing.2⟩

/-- An exception of a completion step is answered at most once. -/
theorem completeHandle_length (hbase : step.base = .completeBase) (e : Exn) :
    Spec (fun w => w.published = []) (step.handleException env e)
      (fun _ w => w.published.length ≤ 1) fun _ w => w.published.length ≤ 1 := by
  have hread : ∀ f ∈ [Field.lastUpdate, .waitTimeout], f ∈ step.reads := by
    revert hbase
    cases step <;> decide
  have hP : Missable step fun w => w.published = [] := fun w f _ _ h => h
  have hcomplete : step.handleException env e = CompleteBase.handleException step env := by
    rw [Step.handleException, hbase]
  rw [hcomplete]
  refine spec_of_body fun b => ?_
  refine hP.read (hread .lastUpdate (by decide)) absurd (fun _ _ => ?_) fun w h _ _ => by simp [h]
  refine hP.read (hread .waitTimeout (by decide)) absurd (fun _ _ => ?_) fun w h _ _ => by simp [h]
  split
  · exact Spec.call (fun _ w h => by simp [h.1]) (fun _ w h => by simp [h.1])
      fun _ w h => by simp [h.1]
  · exact Spec.pure fun w h => by simp [h.1]

/-- **A completion step** is answered at most once, and acknowledged. -/
theorem processTask_completed (h : transition b = some step) (hbase : step.base = .completeBase)
    (hclean : Clean M env step) : (processTask M env objects b).acked = true ∧
      (processTask M env objects b).published.length ≤ 1 := by
  have hattempt : Spec World.Silent (step.attempt M env)
      (fun _ w => w.acked = true ∧ w.published = []) fun _ w => w.published = [] := by
    refine ((checkTimeout_keeps (silent_unbroken (M := M))).spec.mono (fun _ h => h) (fun _ _ h => h)
      fun _ _ h => h.1).bind fun _ => ?_
    refine ((perform_keeps silent_unbroken).spec.mono (fun _ h => h) (fun _ _ h => h)
      fun _ _ h => h.1).bind fun _ => ?_
    have hfinish : step.finish env = ack env.ack := by rw [Step.finish, hbase]
    rw [hfinish]
    exact Spec.call (fun _ w hw => ⟨rfl, hw.1⟩) (fun _ w hw => hw.1) fun _ w hw => hw.1
  have hfresh : (World.fresh objects b).Silent := ⟨rfl, rfl⟩
  rw [processTask_of_transition h]
  cases hrun : step.attempt M env (World.fresh objects b) with
  | mk r t =>
    cases r with
    | ok a =>
      obtain ⟨hacked, hpublished⟩ := hattempt.ok hfresh hrun
      rw [execute_of_ok hrun, hpublished]
      exact ⟨hacked, Nat.zero_le _⟩
    | error e =>
      have hpublished := hattempt.error hfresh hrun
      rw [execute_of_error hrun]
      refine ⟨?_, ?_⟩
      · cases hreack : env.reack with
        | done => rfl
        | refused => exact absurd hreack hclean.reack
        | broken => rfl
      · rw [ack_published]
        cases hhandle : step.handleException env e t with
        | mk r u =>
          cases r with
          | ok a => exact (completeHandle_length hbase e).ok hpublished hhandle
          | error e' => exact (completeHandle_length hbase e).error hpublished hhandle

/-! ## The children of a step -/

/-- Children that are all put on the queue, one after the other. -/
theorem createChildren_of_done (l : List Body) : ∀ (i : ℕ) (w : World),
    (∀ j < l.length, env.child (i + j) = .done) →
      createChildren env i l w = (.ok (), { w with children := w.children ++ l }) := by
  induction l with
  | nil =>
    intro i w _
    rw [createChildren, List.append_nil]
    rfl
  | cons child l ih =>
    intro i w hdone
    have hput : putChild (env.child i) child w =
        (.ok (), { w with children := w.children ++ [child] }) := by
      rw [show env.child i = .done from hdone 0 (Nat.zero_lt_succ _)]
      rfl
    rw [createChildren, bind_of_ok hput, ih (i + 1) _ fun j hj => ?_]
    · rw [List.append_assoc]
      rfl
    · rw [Nat.add_right_comm, Nat.add_assoc]
      exact hdone (j + 1) (Nat.succ_lt_succ hj)

/-- **The children of a clean step** are put on the queue all or none, and all of them only where the
step goes on. -/
def Whole (M : Modules) (env : Env) (b : Body) (step : Step) (folder : Folder) (w : World) : Prop :=
  w.children = [] ∨
    (w.children = (enabled M env folder).map (b.childFor env folder) ∧
      (w.body.state = step.next ∨ w.body.state = some .error) ∧
      ∀ m ∈ w.published, m.body.state = step.next ∨ m.body.state = some .error)

theorem whole_closed : Closed step (Whole M env b step folder) := by
  rintro w w' hclosing (hnone | ⟨hall, hstate, hpublished⟩)
  · left
    cases hclosing <;> exact hnone
  · right
    cases hclosing with
    | missed _ _ => exact ⟨hall, hstate, hpublished⟩
    | stamped _ => exact ⟨hall, hstate, hpublished⟩
    | retried _ _ _ => exact ⟨hall, hstate, hpublished⟩
    | failed _ _ => exact ⟨hall, Or.inr rfl, hpublished⟩
    | continued =>
      refine ⟨hall, hstate, fun m hm => ?_⟩
      rcases List.mem_append.mp hm with hm | hm
      · exact hpublished m hm
      · obtain rfl := List.mem_singleton.mp hm
        exact hstate
    | acked => exact ⟨hall, hstate, hpublished⟩

theorem childrenParams_of_ready (hw : w.body.Ready) (names : List String) :
    childrenParams env folder names w = (.ok (names.map (w.body.childFor env folder)), w) := by
  obtain ⟨created, hcreated⟩ := Option.ne_none_iff_exists'.mp hw.createdAt
  obtain ⟨checklist, hcheck⟩ := Option.ne_none_iff_exists'.mp hw.checklistId
  obtain ⟨org, horg⟩ := Option.ne_none_iff_exists'.mp hw.organizationId
  obtain ⟨timeout, htimeout⟩ := Option.ne_none_iff_exists'.mp hw.taskTimeout
  obtain ⟨retries, hretries⟩ := Option.ne_none_iff_exists'.mp hw.maxRetries
  have hchild : ∀ name, getChildTask env folder name w = (.ok (w.body.childFor env folder name), w) := by
    intro name
    refine (bind_of_ok (key_of_some hcreated)).trans ((bind_of_ok (key_of_some hcheck)).trans
      ((bind_of_ok (key_of_some horg)).trans ((bind_of_ok (key_of_some htimeout)).trans
        ((bind_of_ok (key_of_some hretries)).trans ?_))))
    rw [Body.childFor, hcreated, hcheck, horg, htimeout, hretries]
    rfl
  induction names with
  | nil => rfl
  | cons name names ih =>
    rw [childrenParams, bind_of_ok (hchild name), bind_of_ok ih]
    rfl

/-- **The children of a clean step**, all or none. -/
theorem createChildrenTasks_cases (hw : w.body.Ready) (names : List String)
    (hchildren : env.child 0 = .refused ∨ ∀ i < names.length, env.child i = .done) :
    createChildrenTasks env folder names w =
        (.ok (), { w with children := w.children ++ names.map (w.body.childFor env folder) }) ∨
      createChildrenTasks env folder names w = (.error .external, w) := by
  rw [createChildrenTasks, bind_of_ok (childrenParams_of_ready hw names)]
  rcases hchildren with hrefused | hdone
  · cases names with
    | nil =>
      left
      rw [List.map_nil, createChildren, List.append_nil]
      rfl
    | cons name names =>
      right
      have hput : putChild (env.child 0) (w.body.childFor env folder name) w = (.error .external, w) := by
        rw [hrefused]
        rfl
      rw [List.map_cons, createChildren, bind_of_error hput]
  · left
    refine createChildren_of_done _ 0 w fun j hj => ?_
    rw [Nat.zero_add]
    exact hdone j (by rwa [List.length_map] at hj)

/-- The own part of a step that initializes keeps its children whole. -/
theorem perform_whole {s : TaskState} (hinit : step.initializes = some (folder, s)) (hb : b.Ready)
    (hchildren : ChildrenWhole M env step) :
    Spec (· = World.fresh objects b) (step.perform M env) (fun _ => Whole M env b step folder)
      fun _ => Whole M env b step folder := by
  have hfresh : Whole M env b step folder (World.fresh objects b) := Or.inl rfl
  have hnext : step.next = some s := by
    cases step <;> cases hinit <;> rfl
  have hcount : Spec (· = World.fresh objects b)
      (createChildrenTasks env folder (enabled M env folder) >>= fun _ =>
        setChildrenCount (enabled M env folder) s : Act Unit)
      (fun _ => Whole M env b step folder) fun _ => Whole M env b step folder := by
    rintro _ rfl
    rcases createChildrenTasks_cases (w := World.fresh objects b) hb (enabled M env folder)
      (hchildren folder s hinit) with h | h
    · have hset : Spec (fun w : World => w.published = [] ∧
            w.children = (enabled M env folder).map (b.childFor env folder))
          (setChildrenCount (enabled M env folder) s) (fun _ => Whole M env b step folder)
          fun _ => Whole M env b step folder := by
        refine Spec.change fun w hw => Or.inr ⟨hw.2, Or.inl hnext.symm, fun m hm => ?_⟩
        rw [show _ = w.published from rfl, hw.1] at hm
        exact absurd hm List.not_mem_nil
      rw [bind_of_ok h]
      exact hset _ ⟨rfl, rfl⟩
    · rw [bind_of_error h]
      exact ⟨fun a t ht => (by cases ht), fun e t ht => by cases ht; exact hfresh⟩
  have hlist : Spec (· = World.fresh objects b) (listModules M env folder)
      (fun names w => w = World.fresh objects b ∧ names = enabled M env folder)
      fun _ => Whole M env b step folder :=
    (listModules_spec (P := (· = World.fresh objects b)) folder).mono (fun _ h => h)
      (fun _ _ h => ⟨h.1, h.2.2⟩) fun _ _ h => h ▸ hfresh
  cases step <;> cases hinit
  · refine hlist.bind fun names w ⟨hw, hnames⟩ => ?_
    subst hnames
    by_cases hnone : enabled M env .recommendations = []
    · have hset : Spec (· = World.fresh objects b) (setState .waitedService)
          (fun _ => Whole M env b .initializeChecklist .recommendations)
          fun _ => Whole M env b .initializeChecklist .recommendations := by
        refine Spec.change ?_
        rintro _ rfl
        exact Or.inl rfl
      rw [if_pos hnone]
      exact hset w hw
    · rw [if_neg hnone]
      exact hcount w hw
  · refine hlist.bind fun names w ⟨hw, hnames⟩ => ?_
    subst hnames
    exact hcount w hw
  · refine hlist.bind fun names w ⟨hw, hnames⟩ => ?_
    subst hnames
    exact hcount w hw

variable (M objects) in
theorem processTask_whole {s : TaskState} (hb : b.Ready) (h : transition b = some step)
    (hinit : step.initializes = some (folder, s)) (hchildren : ChildrenWhole M env step) :
    Whole M env b step folder (processTask M env objects b) := by
  have hbase : step.base = .checkTimeoutThreshold ∧ step ≠ .process := by
    cases step <;> cases hinit <;> decide
  have hcheck : step.checkTimeout env = CheckTimeoutThreshold.checkTimeout env := by
    rw [Step.checkTimeout, hbase.1]
    exact if_neg hbase.2
  have hattempt : Spec (· = World.fresh objects b) (step.attempt M env)
      (fun _ => Whole M env b step folder) fun _ => Whole M env b step folder := by
    have htime : Spec (· = World.fresh objects b) (step.checkTimeout env)
        (fun _ w => w = World.fresh objects b) fun _ => Whole M env b step folder := by
      rintro _ rfl
      rw [hcheck]
      by_cases hlate : b.TimedOut env
      · rw [(checkTaskTimeout_of_ready (w := World.fresh objects b) hb).2 hlate]
        exact ⟨fun a t ht => (by cases ht), fun e t ht => by cases ht; exact Or.inl rfl⟩
      · rw [(checkTaskTimeout_of_ready (w := World.fresh objects b) hb).1 hlate]
        exact ⟨fun a t ht => by cases ht; rfl, fun e t ht => by cases ht⟩
    exact htime.bind fun _ => (perform_whole hinit hb hchildren).bind fun _ =>
      (finish_keeps whole_closed).spec
  rw [processTask_of_transition h]
  exact execute_of_attempt whole_closed hattempt

/-- A step that does not initialize puts no children on the queue. -/
theorem processTask_childless (h : transition b = some step) (hinit : step.initializes = none) :
    (processTask M env objects b).children = [] := by
  refine processTask_keeps (P := fun w => w.children = []) h ?_ ?_ rfl
  · rintro w w' hchange hnone
    cases hchange with
    | put hstep _ _ _ =>
      rw [hinit] at hstep
      cases hstep
    | _ => exact hnone
  · rintro w w' hclosing hnone
    cases hclosing <;> exact hnone

/-! ## Runs -/

/-- A task in this state has not put the children of the folder on the queue. -/
def TaskState.before : TaskState → Folder → Bool
  | .created, _ | .started, _ => true
  | .initializedChecklist, folder | .waitedChecklist, folder | .collectedCheckResult, folder =>
    folder ≠ .recommendations
  | .initializedArchive, folder | .waitedArchive, folder | .checkedArchiveResult, folder =>
    folder = .service
  | _, _ => false

/-- The task has not put the children of the folder on the queue. -/
def Body.Before (b : Body) (folder : Folder) : Prop := ∃ s, b.state = some s ∧ s.before folder = true

theorem before_of_initializes {s s' : TaskState} (h : tasksTransitions s = some step)
    (hinit : step.initializes = some (folder, s')) : s.before folder = true ∧ s'.before folder = false := by
  cases s <;> cases h <;> cases hinit <;> decide

/-- **A task does not go back** before its children. -/
theorem Follows.before {s : TaskState} {x : Body} (hs : b.state = some s)
    (h : tasksTransitions s = some step) (hfollows : Follows M env b step x.state)
    (hx : x.Before folder) : b.Before folder := by
  obtain ⟨t, ht, hbefore⟩ := hx
  rw [ht] at hfollows
  rcases hfollows with hsame | ⟨hnext, -⟩ | herror | ⟨hskip, -⟩
  · exact ⟨t, hsame.symm, hbefore⟩
  · refine ⟨s, hs, ?_⟩
    cases s <;> cases h <;> simp only [Step.next] at hnext <;> cases hnext <;> cases folder <;>
      first | rfl | cases hbefore
  · cases Option.some.inj herror
    cases hbefore
  · cases Option.some.inj hskip
    cases hbefore

theorem isOf_of_ident {b' : Body} (h : b'.ident = b.ident) (name : Option (Folder × String)) :
    b'.IsOf name = b.IsOf name := by
  have htype : b'.ident.moduleType = b.ident.moduleType := by rw [h]
  have hname : b'.ident.moduleName = b.ident.moduleName := by rw [h]
  change b'.moduleType = b.moduleType at htype
  change b'.moduleName = b.moduleName at hname
  unfold Body.IsOf
  rw [htype, hname]

theorem isOf_child {name : String} :
    b.IsOf (some (folder, name)) = true ↔ b.moduleType = some folder ∧ b.moduleName = some name := by
  simp [Body.IsOf]

/-- A child that was not put on the queue is not counted. -/
theorem countP_born {s : Store} {name : String} (h : ¬ s.Born folder name) :
    s.born.countP (Body.IsOf (some (folder, name))) = 0 :=
  List.countP_eq_zero.mpr fun child hchild hof => h ⟨child, hchild, isOf_child.mp hof⟩

/-- The children of one folder, one for each module. -/
theorem countP_childFor (b : Body) (env : Env) {folder' : Folder} {name : String} {names : List String}
    (hnames : names.Nodup) :
    (names.map (b.childFor env folder')).countP (Body.IsOf (some (folder, name))) ≤ 1 := by
  have hcount : ∀ x, ((Body.IsOf (some (folder, name)) ∘ b.childFor env folder') x = true) →
      (x == name) = true := by
    intro x hx
    exact beq_iff_eq.mpr (Option.some.inj (isOf_child.mp hx).2)
  rw [List.countP_map]
  exact (List.countP_mono_left fun x _ => hcount x).trans (List.nodup_iff_count_le_one.mp hnames name)

/-- The continuations of a message are of its task. -/
theorem countP_published {ms : List Message} (hident : ∀ m ∈ ms, m.body.ident = b.ident)
    (hlength : ms.length ≤ 1) (name : Option (Folder × String)) :
    (ms.map Message.body).countP (Body.IsOf name) ≤ if b.IsOf name then 1 else 0 := by
  split
  · exact List.countP_le_length.trans (by rwa [List.length_map])
  · rename_i hother
    refine (List.countP_eq_zero.mpr fun x hx => ?_).le
    obtain ⟨m, hm, rfl⟩ := List.mem_map.mp hx
    rwa [isOf_of_ident (hident m hm)]

/-- **What holds of a clean run.** -/
structure Once (s : Queue) : Prop where
  inFlight : ∀ b ∈ s.queue, InFlight b
  tried : ∀ b ∈ s.queue, b.Tried
  task : s.queue.countP (Body.IsOf none) ≤ 1
  child : ∀ folder name, s.queue.countP (Body.IsOf (some (folder, name))) ≤
    s.store.born.countP (Body.IsOf (some (folder, name)))
  born : BornOnce s
  ahead : ∀ p ∈ s.queue, p.moduleName = none → ∀ folder, p.Before folder →
    ∀ name, ¬ s.store.Born folder name

theorem Once.start (objects : Bucket) (c : Schedule) : Once (start objects c) where
  inFlight b hb := by
    obtain rfl := List.mem_singleton.mp hb
    exact ⟨c.ready, fun h => absurd rfl h⟩
  tried b hb := by
    obtain rfl := List.mem_singleton.mp hb
    intro n m hn _
    obtain rfl := Option.some.inj hn
    exact Nat.zero_le m
  task := List.countP_le_length
  child folder name := by simp [Bumiworker.start, Body.IsOf, Schedule.task]
  born folder name := Nat.zero_le _
  ahead p _ _ folder _ name hborn := by
    obtain ⟨child, hchild, -⟩ := hborn
    exact absurd hchild List.not_mem_nil

section Step

variable {s s' : Queue} {d : ℕ × Env}

/-- **What a clean step leaves**: at most one continuation in place of the message, and the children, all
or none. -/
theorem deliver_clean (hs : Once s) (h : deliver M s d = some s') (hclean : CleanStep M s d s') :
    ∃ b step l r w, w = processTask M d.2 s.store.objects b ∧ b ∈ s.queue ∧ b.Ready ∧ b.Tried ∧
      transition b = some step ∧ s.queue = l ++ b :: r ∧
      s'.queue = l ++ r ++ (w.published.map Message.body ++ w.children) ∧
      s'.store.born = s.store.born ++ w.children ∧ w.published.length ≤ 1 ∧
      (w.children = [] ∨ ∃ folder t, step.initializes = some (folder, t) ∧
        w.children = (enabled M d.2 folder).map (b.childFor d.2 folder) ∧
        ∀ m ∈ w.published, m.body.state = some t ∨ m.body.state = some .error) := by
  obtain ⟨b, l, r, hb, hqueue, hstore, hq⟩ := Mailbox.deliver_cases h
  have hmem : b ∈ s.queue := List.mem_of_getElem? hb
  obtain ⟨hready, -⟩ := hs.inFlight b hmem
  obtain ⟨step, htrans⟩ := hready.exists_transition
  have hstep := hclean b step hb htrans
  have hanswered : (processTask M d.2 s.store.objects b).acked = true ∧
      (processTask M d.2 s.store.objects b).published.length ≤ 1 := by
    by_cases hbase : step.base = .completeBase
    · exact processTask_completed htrans hbase hstep
    · obtain ⟨hlength, hacked⟩ :=
        processTask_answered s.store.objects hready htrans hbase hstep
      exact ⟨hacked, hlength.le⟩
  refine ⟨b, step, l, r, _, rfl, hmem, hready, hs.tried b hmem, htrans, hqueue, ?_, ?_, hanswered.2, ?_⟩
  · rw [hq, handle, hanswered.1]
    rfl
  · rw [hstore]
    rfl
  · cases hinit : step.initializes with
    | none => exact Or.inl (processTask_childless htrans hinit)
    | some key =>
      obtain ⟨folder, t⟩ := key
      have hnext : step.next = some t := by
        cases step <;> cases hinit <;> rfl
      rcases processTask_whole M s.store.objects hready htrans hinit
        hstep.children with hnone | ⟨hall, -, hpublished⟩
      · exact Or.inl hnone
      · exact Or.inr ⟨folder, t, rfl, hall, fun m hm => hnext ▸ hpublished m hm⟩

/-- **The invariant of a clean run, one step.** -/
theorem Once.deliver (hs : Once s) (h : Bumiworker.deliver M s d = some s')
    (hclean : CleanStep M s d s') : Once s' := by
  obtain ⟨b, step, l, r, w, hw, hmem, hready, htried, htrans, hqueue, hq, hborn, hlength, hchildren⟩ :=
    deliver_clean hs h hclean
  obtain ⟨state, hstate, htask, hgroup⟩ := transition_kind htrans
  have hsound := processTask_sound M d.2 s.store.objects hready
  have hfollowing := processTask_following M d.2 s.store.objects htrans htried
  rw [← hw] at hsound hfollowing
  have hnamed : ∀ x ∈ w.children, x.moduleName ≠ none := by
    intro x hx
    rcases hchildren with hnone | ⟨folder, t, -, hall, -⟩
    · rw [hnone] at hx
      exact absurd hx List.not_mem_nil
    · rw [hall] at hx
      obtain ⟨name, -, rfl⟩ := List.mem_map.mp hx
      exact Option.some_ne_none name
  -- a message goes, and at most one of the same task comes in its stead
  have hcount : ∀ name, s'.queue.countP (Body.IsOf name) ≤
      s.queue.countP (Body.IsOf name) + w.children.countP (Body.IsOf name) := by
    intro name
    have := countP_published (fun m hm => (hsound.published m hm).2) hlength name
    rw [hq, hqueue]
    simp only [List.countP_append, List.countP_cons]
    omega
  -- children are put on the queue by the task alone, which has not come there before
  have hfirst : ∀ folder t, step.initializes = some (folder, t) →
      b.moduleName = none ∧ state.before folder = true ∧ t.before folder = false := by
    intro folder t hinit
    have hname : b.moduleName = none := by
      by_contra hname
      rcases group_cases (hgroup hname) with rfl | rfl | rfl | rfl <;> cases hinit
    exact ⟨hname, before_of_initializes (htask hname) hinit⟩
  refine ⟨inFlight_deliver hs.inFlight h, fun b' hb' => ?_, ?_, fun folder name => ?_,
    fun folder name => ?_, fun p hp hname folder hbefore name hafter => ?_⟩
  · rw [hq, List.mem_append, List.mem_append, List.mem_append, List.mem_map] at hb'
    rcases hb' with (hl | hr) | ⟨m, hm, rfl⟩ | hchild
    · exact hs.tried b' (hqueue ▸ List.mem_append_left _ hl)
    · exact hs.tried b' (hqueue ▸ List.mem_append_right _ (List.mem_cons_of_mem _ hr))
    · exact (hfollowing.published m hm).2
    · rcases hchildren with hnone | ⟨folder, t, -, hall, -⟩
      · rw [hnone] at hchild
        exact absurd hchild List.not_mem_nil
      · rw [hall] at hchild
        obtain ⟨name, -, rfl⟩ := List.mem_map.mp hchild
        intro n m hn _
        obtain rfl := Option.some.inj hn
        exact Nat.zero_le m
  · have hnone : w.children.countP (Body.IsOf none) = 0 := by
      refine List.countP_eq_zero.mpr fun x hx hof => hnamed x hx ?_
      exact of_decide_eq_true hof
    exact (hcount none).trans (by rw [hnone]; exact hs.task)
  · have := hcount (some (folder, name))
    have := hs.child folder name
    rw [hborn, List.countP_append]
    omega
  · have hold := hs.born folder name
    rw [hborn, List.countP_append]
    rcases hchildren with hnone | ⟨folder', t, hinit, hall, -⟩
    · rw [hnone]
      exact hold
    · obtain ⟨hname, hbefore, -⟩ := hfirst folder' t hinit
      by_cases hfolder : folder = folder'
      · subst hfolder
        rw [countP_born (hs.ahead b hmem hname folder ⟨state, hstate, hbefore⟩ name), hall, Nat.zero_add]
        exact countP_childFor b d.2 ((M.nodup folder).sublist List.filter_sublist)
      · have hother : w.children.countP (Body.IsOf (some (folder, name))) = 0 := by
          refine List.countP_eq_zero.mpr fun x hx hof => hfolder ?_
          rw [hall] at hx
          obtain ⟨name', -, rfl⟩ := List.mem_map.mp hx
          exact Option.some.inj (isOf_child.mp hof).1.symm
        omega
  · rw [Store.born_append hborn] at hafter
    rw [hq, List.mem_append, List.mem_append, List.mem_append, List.mem_map] at hp
    rcases hp with hrest | ⟨m, hm, rfl⟩ | hchild
    · have hp : p ∈ s.queue := by
        rw [hqueue, List.mem_append, List.mem_cons]
        exact hrest.imp id Or.inr
      rcases hafter with hafter | ⟨x, hx, -⟩
      · exact hs.ahead p hp hname folder hbefore name hafter
      · rcases hchildren with hnone | ⟨folder', t, hinit, -, -⟩
        · rw [hnone] at hx
          exact absurd hx List.not_mem_nil
        · have hone := hs.task
          have hb : b.IsOf none = true := decide_eq_true (hfirst folder' t hinit).1
          have hother : 0 < (l ++ r).countP (Body.IsOf none) :=
            List.countP_pos_iff.mpr ⟨p, List.mem_append.mpr hrest, decide_eq_true hname⟩
          rw [hqueue] at hone
          simp only [List.countP_append, List.countP_cons, hb, if_true] at hone hother
          omega
    · have hkind := Body.moduleName_of_ident (hsound.published m hm).2
      have hb := Follows.before hstate (htask (hkind ▸ hname)) (hfollowing.published m hm).1 hbefore
      rcases hafter with hafter | ⟨x, hx, htype, -⟩
      · exact hs.ahead b hmem (hkind ▸ hname) folder hb name hafter
      · rcases hchildren with hnone | ⟨folder', t, hinit, hall, hstates⟩
        · rw [hnone] at hx
          exact absurd hx List.not_mem_nil
        · rw [hall] at hx
          obtain ⟨name', -, rfl⟩ := List.mem_map.mp hx
          obtain rfl := Option.some.inj htype
          obtain ⟨-, -, hnot⟩ := hfirst folder' t hinit
          obtain ⟨state', hstate', hbefore'⟩ := hbefore
          rcases hstates m hm with hnext | herror
          · obtain rfl := Option.some.inj (hstate'.symm.trans hnext)
            rw [hnot] at hbefore'
            cases hbefore'
          · obtain rfl := Option.some.inj (hstate'.symm.trans herror)
            cases hbefore'
    · exact hnamed p hchild hname

end Step

/-- Where the invariant holds, each task has one message in flight at most, within its tries. -/
theorem Once.inFlight_once {s : Queue} (hs : Once s) :
    OneInFlight s ∧ BornOnce s ∧ ∀ b ∈ s.queue, b.Tried := by
  refine ⟨fun name => ?_, hs.born, hs.tried⟩
  cases name with
  | none => exact hs.task
  | some key => exact (hs.child key.1 key.2).trans (hs.born key.1 key.2)

theorem clean_answered (M : Modules) (step : Step) : Clean M answered step where
  children _ _ _ := Or.inr fun _ _ => rfl
  publish := by decide
  ack _ := rfl
  republish := rfl
  reack := by decide

/-- No modules. -/
def noModules : Modules where
  names _ := []
  nodup _ := List.nodup_nil

/-- Two modules of recommendations. -/
def twoModules : Modules where
  names
    | .recommendations => ["m", "n"]
    | _ => []
  nodup folder := by cases folder <;> simp

end Bumiworker
