import OptScale.Bumiworker.Fields

/-!
# Bumiworker/Results — what a child leaves for its task

A task counts the result objects of its children until there is one for each.  `Process` writes the
object, before it goes on and before it gives up on a timeout of its own; nothing else does.  A child
that ends in `SetStarted`, or in `Process` before the upload, ends without one, and the task waits in
vain.
-/

namespace Bumiworker

open Session

variable {M : Modules} {env : Env} {objects : Bucket} {b b' : Body} {step : Step} {w : World}

/-! ## A child and its object -/

/-- The task has ended, as far as its own steps go. -/
def Body.Ended (b : Body) : Prop := b.state = some .processed ∨ b.state = some .error

/-- The step finds the task timed out. -/
def Body.TimedOut (b : Body) (env : Env) : Prop :=
  ∃ t d, b.lastUpdate = some t ∧ b.taskTimeout = some d ∧ env.checkNow - t > d

/-- The task has a try left. -/
def Body.RetriesLeft (b : Body) : Prop :=
  ∃ n m, b.triesCount = some n ∧ b.maxRetries = some m ∧ n < m

/-- **A child does not end without a result here**: it is not timed out before it started, and does not
fail at its last try, unless the result is there or is written first. -/
def LeavesResult (env : Env) (objects : Bucket) (b : Body) : Prop :=
  b.moduleName ≠ none →
    (b.state = some .created →
      ¬ b.TimedOut env ∧ (b.RetriesLeft ∨ env.publish = .done ∧ env.ack = .done)) ∧
    (b.state = some .started → b.RetriesLeft ∨ b.HasResult objects ∨
      (b.TimedOut env ∨ env.service = .done) ∧ env.write ≠ .refused)

theorem Body.KeyIs.of_ident (h : b'.ident = b.ident) {k : ResultKey} (hk : b.KeyIs k) : b'.KeyIs k := by
  change b'.ident.KeyIs k
  rw [h]
  exact hk

theorem Body.HasResult.of_ident (h : b'.ident = b.ident) (hb : b.HasResult objects) :
    b'.HasResult objects := by
  obtain ⟨o, ho, hk⟩ := hb
  exact ⟨o, ho, hk.of_ident h⟩

/-- The time of a run is in the keys of its objects. -/
theorem ResultKey.createdAt_infix (k : ResultKey) :
    (toString k.createdAt).toList <:+: k.path.toList := by
  refine ⟨(k.organizationId ++ "/").toList, ("/" ++ k.folder.name ++ "/" ++ k.moduleName ++ ".json").toList,
    ?_⟩
  simp [ResultKey.path, String.toList_append]

/-- **The objects of the run stay**, with what was uploaded over them: what the world has of a time, it
keeps. -/
def Stays (createdAt : Option ℤ) (objects objects' : Bucket) : Prop :=
  ∀ o ∈ objects.rows, createdAt = some o.key.createdAt → ∃ o' ∈ objects'.rows, o'.key = o.key

/-- What is new in the bucket is the object of the task. -/
def OnlyOwn (b : Body) (step : Step) (objects objects' : Bucket) : Prop :=
  ∀ o' ∈ objects'.rows, (∃ o ∈ objects.rows, o.key = o'.key) ∨ (step = .process ∧ b.KeyIs o'.key)

/-- What a message does to the bucket. -/
structure Uploads (b : Body) (step : Step) (objects : Bucket) (w : World) : Prop where
  ident : w.body.ident = b.ident
  stays : Stays b.createdAt objects w.objects
  onlyOwn : OnlyOwn b step objects w.objects

theorem uploads_unbroken : Unbroken M env step (Uploads b step objects) := by
  rintro w w' hchange ⟨hident, hstays, honly⟩
  cases hchange with
  | missed _ _ => exact ⟨hident, hstays, honly⟩
  | moved _ => exact ⟨hident, hstays, honly⟩
  | put _ _ _ _ => exact ⟨hident, hstays, honly⟩
  | counted _ _ _ _ => exact ⟨hident, hstays, honly⟩
  | waited _ => exact ⟨hident, hstays, honly⟩
  | processed _ _ => exact ⟨hident, hstays, honly⟩
  | @uploaded r hstep hkey =>
    refine ⟨hident, fun o ho hcreated => ?_, fun o' ho' => ?_⟩
    · obtain ⟨o₁, ho₁, hk₁⟩ := hstays o ho hcreated
      exact Table.exists_key_upsert.mpr (Or.inl ⟨o₁, ho₁, hk₁⟩)
    · rcases Table.exists_key_upsert.mp ⟨o', ho', rfl⟩ with ⟨o₁, ho₁, hk₁⟩ | hk
      · rcases honly o₁ ho₁ with ⟨o, ho, hk⟩ | ⟨hstep, hk⟩
        · exact Or.inl ⟨o, ho, hk.trans hk₁⟩
        · exact Or.inr ⟨hstep, hk₁ ▸ hk⟩
      · exact Or.inr ⟨hstep, hk ▸ hkey.of_ident hident.symm⟩
  | @cleaned org created hstep hcreated =>
    refine ⟨hident, fun o ho ho' => ?_, fun o' ho' => ?_⟩
    · obtain ⟨o₁, ho₁, hk₁⟩ := hstays o ho ho'
      refine ⟨o₁, Table.mem_deleteWhere.mpr ⟨ho₁, decide_eq_false fun hout => ?_⟩, hk₁⟩
      have hsame : created = o₁.key.createdAt := by
        have hkept : w.body.ident.createdAt = b.ident.createdAt := by rw [hident]
        rw [hk₁]
        exact Option.some.inj (hcreated.symm.trans (hkept.trans ho'))
      exact of_decide_eq_true (List.mem_filter.mp hout).2 (hsame ▸ o₁.key.createdAt_infix)
    · exact honly o' (Table.mem_deleteWhere.mp ho').1

theorem uploads_closed : Closed step (Uploads b step objects) := by
  rintro w w' hclosing ⟨hident, hstays, honly⟩
  cases hclosing <;> exact ⟨hident, hstays, honly⟩

variable (M env objects) in
/-- **A message leaves the objects of its run**, and adds at most that of its task. -/
theorem processTask_uploads (h : transition b = some step) :
    Uploads b step objects (processTask M env objects b) :=
  processTask_keeps h uploads_unbroken uploads_closed
    ⟨rfl, fun o ho _ => ⟨o, ho, rfl⟩, fun o ho => Or.inl ⟨o, ho, rfl⟩⟩

theorem Body.HasResult.stays {objects' : Bucket} (hb : b.HasResult objects)
    (h : Stays b.createdAt objects objects') : b.HasResult objects' := by
  obtain ⟨o, ho, hk⟩ := hb
  obtain ⟨o', ho', hkey⟩ := h o ho hk.2.1
  exact ⟨o', ho', hkey ▸ hk⟩

/-! ## A child that goes on -/

/-- A check for a timeout, where the body has its keys. -/
theorem checkTaskTimeout_of_ready (hw : w.body.Ready) :
    (¬ w.body.TimedOut env → CheckTimeoutThreshold.checkTimeout env w = (.ok (), w)) ∧
      (w.body.TimedOut env → CheckTimeoutThreshold.checkTimeout env w = (.error .taskTimeout, w)) := by
  obtain ⟨t, ht⟩ := Option.ne_none_iff_exists'.mp hw.lastUpdate
  obtain ⟨d, hd⟩ := Option.ne_none_iff_exists'.mp hw.taskTimeout
  have hcheck : CheckTimeoutThreshold.checkTimeout env w =
      (if env.checkNow - t > d then raise .taskTimeout else pure () : Act Unit) w :=
    (bind_of_ok (key_of_some ht)).trans (bind_of_ok (key_of_some hd))
  constructor
  · intro hnot
    have hle : ¬ env.checkNow - t > d := fun h => hnot ⟨t, d, ht, hd, h⟩
    rw [hcheck, if_neg hle]
    rfl
  · rintro ⟨t', d', ht', hd', h⟩
    obtain rfl : t = t' := Option.some.inj (ht.symm.trans ht')
    obtain rfl : d = d' := Option.some.inj (hd.symm.trans hd')
    rw [hcheck, if_pos h]
    rfl

/-- **The child goes on**: neither its body nor what it published says that it has ended, and it has the
tries it had. -/
structure Going (b : Body) (w : World) : Prop where
  published : ∀ m ∈ w.published, ¬ m.body.Ended
  body : ¬ w.body.Ended
  triesCount : w.body.triesCount = b.triesCount
  maxRetries : w.body.maxRetries = b.maxRetries

/-- The end of an attempt lets the child go on, and fails only in a call. -/
theorem finish_going : Spec (Going b) (step.finish env) (fun _ => Going b)
    fun e w => e = .external ∧ Going b w := by
  have hack : Spec (Going b) (ack env.ack) (fun _ => Going b) fun e w => e = .external ∧ Going b w :=
    Spec.call (fun _ w hw => ⟨hw.published, hw.body, hw.triesCount, hw.maxRetries⟩)
      (fun _ w hw => ⟨rfl, hw⟩)
      fun _ w hw => ⟨rfl, hw.published, hw.body, hw.triesCount, hw.maxRetries⟩
  have hcontinue : Spec (Going b) (continueExecute step env) (fun _ => Going b)
      fun e w => e = .external ∧ Going b w := by
    have hput : ∀ w, Going b w →
        Going b { w with published := w.published ++ [⟨w.body, step.isDelayed⟩] } := by
      refine fun w hw => ⟨fun m hm => ?_, hw.body, hw.triesCount, hw.maxRetries⟩
      rcases List.mem_append.mp hm with hm | hm
      · exact hw.published m hm
      · exact List.mem_singleton.mp hm ▸ hw.body
    exact (Spec.call (fun _ => hput) (fun _ w hw => ⟨rfl, hw⟩) fun _ w hw => ⟨rfl, hput w hw⟩).bind
      fun _ => hack
  unfold Step.finish
  split
  · exact (Spec.change fun w hw => ⟨hw.published, hw.body, hw.triesCount, hw.maxRetries⟩).bind
      fun _ => hcontinue
  · exact hcontinue
  · exact hcontinue
  · exact hack

/-- **A child with a try left goes on** after a failed call. -/
theorem handleException_going (hbase : step.base = .checkTimeoutThreshold) (hleft : b.RetriesLeft)
    (hw : Going b w) : ∀ m ∈ (step.handleException env .external w).2.published, ¬ m.body.Ended := by
  obtain ⟨n, m, hn, hm, hlt⟩ := hleft
  have hn' : w.body.triesCount = some n := hw.triesCount.trans hn
  have hm' : w.body.maxRetries = some m := hw.maxRetries.trans hm
  have hcont : canContinue .external w = (.ok true, w) := by
    refine (bind_of_ok (key_of_some hn')).trans ((bind_of_ok (key_of_some hm')).trans ?_)
    rw [decide_eq_true hlt]
    rfl
  have hretry : step.handleException env .external w =
      onContinue env.republish step.isDelayed
        { w with body := { w.body with triesCount := some (n + 1) } } := by
    rw [Step.handleException, hbase]
    refine (bind_of_ok hcont).trans (bind_of_ok (a := ()) ?_)
    exact bind_of_ok (key_of_some hn')
  rw [hretry]
  have hkeeps : Keeps (fun u : World => (∀ m ∈ u.published, ¬ m.body.Ended) ∧ ¬ u.body.Ended)
      (onContinue env.republish step.isDelayed) := by
    refine Keeps.call _ _ fun u hu => ⟨fun m hm => ?_, hu.2⟩
    rcases List.mem_append.mp hm with hm | hm
    · exact hu.1 m hm
    · exact List.mem_singleton.mp hm ▸ hu.2
  exact (hkeeps.apply (s := { w with body := { w.body with triesCount := some (n + 1) } })
    ⟨hw.published, hw.body⟩).1

/-- **After a failed call** the child goes on, if its attempt let it. -/
theorem execute_going (hbase : step.base = .checkTimeoutThreshold) (hleft : b.RetriesLeft)
    {w₀ : World} (herror : step.attempt M env w₀ = (.error .external, w)) (hw : Going b w) :
    ∀ m ∈ (step.execute M env w₀).2.published, ¬ m.body.Ended := by
  rw [execute_of_error herror, ack_published]
  exact handleException_going hbase hleft hw

variable (step) in
/-- The end of an attempt does not fail where its two calls are done. -/
theorem finish_of_done (hbase : step.base = .checkTimeoutThreshold) (hpublish : env.publish = .done)
    (hack : env.ack = .done) (w : World) : ∃ t, step.finish env w = (.ok (), t) := by
  have hfinish : step.finish env = updateTimeoutExecute step env := by rw [Step.finish, hbase]
  have hput : ∀ u, onContinue env.publish step.isDelayed u =
      (.ok (), { u with published := u.published ++ [⟨u.body, step.isDelayed⟩] }) := by
    rw [hpublish]
    exact fun _ => rfl
  have hacked : ∀ u, ack env.ack u = (.ok (), { u with acked := true }) := by
    rw [hack]
    exact fun _ => rfl
  have hstamp : ∀ u, setBody (fun b => { b with lastUpdate := some env.updateNow }) u =
      (.ok (), { u with body := { u.body with lastUpdate := some env.updateNow } }) := fun _ => rfl
  rw [hfinish]
  exact ⟨_, (bind_of_ok (hstamp w)).trans ((bind_of_ok (hput _)).trans (hacked _))⟩

/-- **A child that is started** in time, and has a try left or whose calls are done, goes on. -/
theorem setStarted_going (hb : b.Ready) (htime : ¬ b.TimedOut env) (hleft : b.RetriesLeft ∨ env.publish = .done ∧ env.ack = .done) :
    ∀ m ∈ (Step.setStarted.execute M env (World.fresh objects b)).2.published, ¬ m.body.Ended := by
  have hgoing : Going b { World.fresh objects b with body := { b with state := some .started } } :=
    ⟨fun _ hm => absurd hm List.not_mem_nil, by simp [Body.Ended], rfl, rfl⟩
  have hattempt : Step.setStarted.attempt M env (World.fresh objects b) =
      Step.setStarted.finish env
        { World.fresh objects b with body := { b with state := some .started } } :=
    (bind_of_ok ((checkTaskTimeout_of_ready (w := World.fresh objects b) hb).1 htime)).trans
      (bind_of_ok (a := ()) rfl)
  cases hfinish : Step.setStarted.finish env
      { World.fresh objects b with body := { b with state := some .started } } with
  | mk r t =>
    cases r with
    | ok a =>
      rw [execute_of_ok (hattempt.trans hfinish)]
      exact (finish_going.ok hgoing hfinish).published
    | error e =>
      obtain ⟨rfl, ht⟩ := finish_going.error hgoing hfinish
      rcases hleft with hleft | ⟨hpublish, hack⟩
      · exact execute_going rfl hleft (hattempt.trans hfinish) ht
      · obtain ⟨t', ht'⟩ := finish_of_done .setStarted rfl hpublish hack
          { World.fresh objects b with body := { b with state := some .started } }
        rw [ht'] at hfinish
        cases hfinish

/-! ## A child that is processed -/

/-- **While it is processed**, the child has its result or still goes on. -/
structure Working (b : Body) (w : World) : Prop where
  has : ∀ f ∈ Step.process.reads, w.body.Has f
  ident : w.body.ident = b.ident
  result : w.HasResult ∨ Going b w

variable (M env) in
theorem working_unbroken : Unbroken M env .process (Working b) := by
  rintro w w' hchange ⟨hhas, hident, hresult⟩
  refine ⟨fun f hf => hchange.has (hhas f hf), ?_, ?_⟩
  · cases hchange <;> exact hident
  · cases hchange with
    | missed hread habsent => exact absurd (hhas _ hread) habsent
    | moved hs => exact hs.elim
    | put hstep _ _ _ => cases hstep
    | counted hstep _ _ _ => cases hstep
    | waited hstep => cases hstep
    | @uploaded r _ hkey =>
      obtain ⟨o, ho, hk⟩ := w.objects.exists_upsert r (fun old => { r with key := old.key })
        (fun o => Eq.refl o.key)
      exact Or.inl ⟨o, ho, hk ▸ hkey⟩
    | processed _ hresult => exact Or.inl hresult
    | cleaned hstep _ => cases hstep

variable (env) in
/-- A child that works has its keys, so that saving its result fails only where the upload does. -/
theorem saveResultToFile_working (timeoutError error data : Bool) :
    Spec (Working b) (saveResultToFile env timeoutError error data)
      (fun _ w => Working b w ∧ w.HasResult)
      fun e w => Working b w ∧ (w.HasResult ∨ e = .external ∧ env.write = .refused) := by
  refine (saveResultToFile_spec (working_unbroken ⟨fun _ => [], fun _ => List.nodup_nil⟩ env) rfl
    timeoutError error data).mono (fun _ h => h) (fun _ _ h => h) fun e w ⟨hw, h⟩ => ⟨hw, ?_⟩
  rcases h with hresult | ⟨f, hf, -, habsent⟩ | h
  · exact Or.inl hresult
  · exact absurd (hw.has f hf) habsent
  · exact Or.inr h

/-- A child that works has what its module is called with. -/
theorem callModule_working : Spec (Working b) (callModule env) (fun _ => Working b)
    fun _ _ => False := by
  have hP : Missable .process (Working b) :=
    (working_unbroken ⟨fun _ => [], fun _ => List.nodup_nil⟩ env).missable
  have hhas : ∀ {f : Field}, f ∈ Step.process.reads → ∀ w, Working b w → ∀ b', w.body = b' →
      ¬ b'.Has f → False := fun hf w hw b' hb' habsent => habsent (hb' ▸ hw.has _ hf)
  refine Spec.caught (E := fun _ _ => False) ?_ fun e w hw => hw.elim
  refine spec_of_body fun b' => ?_
  refine hP.read (by decide) absurd (fun _ _ => ?_) fun w hw hb' h => hhas (by decide) w hw b' hb' h
  refine hP.read (by decide) absurd (fun _ _ => ?_) fun w hw hb' h => hhas (by decide) w hw b' hb' h
  refine hP.read (by decide) absurd (fun _ _ => ?_) fun w hw hb' h => hhas (by decide) w hw b' hb' h
  refine hP.read (by decide) absurd (fun _ _ => ?_) fun w hw hb' h => hhas (by decide) w hw b' hb' h
  exact Spec.pure fun w hw => hw.1

/-- **The own part of `Process`** ends with the result there, or in a failed call. -/
theorem process_working : Spec (Working b) (Process.perform env)
    (fun _ w => Working b w ∧ w.HasResult)
    fun e w => Working b w ∧
      (w.HasResult ∨ e = .external ∧ (env.service ≠ .done ∨ env.write = .refused)) := by
  have hservice : Spec (Working b) (callOut env.service) (fun _ => Working b)
      fun e w => Working b w ∧
        (w.HasResult ∨ e = .external ∧ (env.service ≠ .done ∨ env.write = .refused)) :=
    Spec.call (fun _ _ hw => hw)
      (fun h w hw => ⟨hw, Or.inr ⟨rfl, Or.inl (by simp [h])⟩⟩)
      fun h w hw => ⟨hw, Or.inr ⟨rfl, Or.inl (by simp [h])⟩⟩
  have hsave : ∀ error data : Bool, Spec (Working b)
      (saveResultToFile env false error data >>= fun _ => setState .processed : Act Unit)
      (fun _ w => Working b w ∧ w.HasResult)
      fun e w => Working b w ∧
        (w.HasResult ∨ e = .external ∧ (env.service ≠ .done ∨ env.write = .refused)) := by
    intro error data
    refine ((saveResultToFile_working env false error data).mono (fun _ h => h) (fun _ _ h => h)
      fun e w h => ⟨h.1, h.2.imp id fun h => ⟨h.1, Or.inr h.2⟩⟩).bind fun _ => ?_
    refine Spec.change fun w hw => ⟨?_, hw.2⟩
    exact working_unbroken ⟨fun _ => [], fun _ => List.nodup_nil⟩ env w _
      (.processed rfl hw.2) hw.1
  have hbody : Spec (Working b) body (fun _ => Working b)
      fun e w => Working b w ∧
        (w.HasResult ∨ e = .external ∧ (env.service ≠ .done ∨ env.write = .refused)) :=
    fun w hw => ⟨fun b' t h => by cases h; exact hw, fun e t h => by cases h⟩
  refine hservice.bind fun _ => hbody.bind fun b' => ?_
  split
  · exact hsave false true
  · exact (callModule_working.mono (fun _ h => h) (fun _ _ h => h) fun _ _ h => h.elim).bind
      fun error => hsave error true

/-- A timeout of `Process` has the result written, or fails in the upload. -/
theorem processTimeout_working (hb : b.Ready) (hfresh : Working b (World.fresh objects b))
    (htime : b.TimedOut env) :
    Spec (· = World.fresh objects b) (HandleTaskTimeout.checkTimeout env) (fun _ _ => False)
      fun e w => Working b w ∧ (w.HasResult ∨ e = .external ∧ env.write = .refused) := by
  rintro _ rfl
  have hcheck := (checkTaskTimeout_of_ready (w := World.fresh objects b) hb).2 htime
  have hload : Spec (Working b) (loadPreviousResult env) (fun _ => Working b)
      fun e w => Working b w ∧ (w.HasResult ∨ e = .external ∧ env.write = .refused) :=
    (loadPreviousResult_spec (working_unbroken ⟨fun _ => [], fun _ => List.nodup_nil⟩ env)
      rfl).mono (fun _ h => h) (fun _ _ h => h) fun _ _ h => h.elim
  have hhandler := hload.bind fun data =>
    (saveResultToFile_working env true false data).bind fun _ =>
      Spec.raise (e := Exn.taskTimeout) (Q := fun (_ : Unit) _ => False)
        fun w hw => ⟨hw.1, Or.inl hw.2⟩
  have hrun : HandleTaskTimeout.checkTimeout env (World.fresh objects b) =
      (do
        let previousResult ← loadPreviousResult env
        saveResultToFile env true false previousResult
        raise Exn.taskTimeout : Act Unit) (World.fresh objects b) :=
    caught_of_error hcheck
  rw [hrun]
  exact hhandler _ hfresh

theorem hasResult_closed : Closed step World.HasResult := by
  rintro w w' hclosing hresult
  cases hclosing <;> exact hresult

/-- **An attempt to process** that fails without the result being there failed in the upload, or before
it although there was time. -/
theorem process_attempt (hb : b.Ready) (hfresh : Working b (World.fresh objects b)) :
    Spec (· = World.fresh objects b) (Step.process.attempt M env) (fun _ w => w.HasResult)
      fun e w => w.HasResult ∨ e = .external ∧ Going b w ∧
        (env.write = .refused ∨ env.service ≠ .done ∧ ¬ b.TimedOut env) := by
  have hgoing : ∀ {w : World}, Working b w → ¬ w.HasResult → Going b w := fun hw hnot =>
    hw.result.resolve_left hnot
  by_cases htime : b.TimedOut env
  · refine ((processTimeout_working hb hfresh htime).mono (fun _ h => h) (fun _ _ h => h)
      fun e w h => ?_).bind fun _ _ h => h.elim
    by_cases hresult : w.HasResult
    · exact Or.inl hresult
    · obtain ⟨he, hwrite⟩ := h.2.resolve_left hresult
      exact Or.inr ⟨he, hgoing h.1 hresult, Or.inl hwrite⟩
  · have hcheck : Step.process.checkTimeout env (World.fresh objects b) =
        (.ok (), World.fresh objects b) :=
      caught_of_ok ((checkTaskTimeout_of_ready (w := World.fresh objects b) hb).1 htime)
    have hrest : Spec (Working b)
        (Step.process.perform M env >>= fun _ => Step.process.finish env : Act Unit)
        (fun _ w => w.HasResult)
        fun e w => w.HasResult ∨ e = .external ∧ Going b w ∧
          (env.write = .refused ∨ env.service ≠ .done ∧ ¬ b.TimedOut env) := by
      refine (process_working.mono (fun _ h => h) (fun _ _ h => h.2) fun e w h => ?_).bind fun _ =>
        (finish_keeps hasResult_closed).spec.mono (fun _ h => h) (fun _ _ h => h)
          fun _ _ h => Or.inl h
      by_cases hresult : w.HasResult
      · exact Or.inl hresult
      · obtain ⟨he, hcall⟩ := h.2.resolve_left hresult
        exact Or.inr ⟨he, hgoing h.1 hresult, hcall.symm.imp id fun h => ⟨h, htime⟩⟩
    rintro _ rfl
    rw [Step.attempt, bind_of_ok hcheck]
    exact hrest _ hfresh

/-- **A child that is processed** goes on, or its result is there. -/
theorem process_execute (hb : b.Ready) (hfresh : Working b (World.fresh objects b))
    (hleft : b.RetriesLeft ∨ (b.TimedOut env ∨ env.service = .done) ∧ env.write ≠ .refused) :
    (Step.process.execute M env (World.fresh objects b)).2.HasResult ∨
      ∀ m ∈ (Step.process.execute M env (World.fresh objects b)).2.published, ¬ m.body.Ended := by
  cases hattempt : Step.process.attempt M env (World.fresh objects b) with
  | mk r t =>
    cases r with
    | ok a =>
      rw [execute_of_ok hattempt]
      exact Or.inl ((process_attempt hb hfresh).ok rfl hattempt)
    | error e =>
      rcases (process_attempt hb hfresh).error rfl hattempt with hresult | ⟨rfl, hgoing, hcall⟩
      · left
        rw [execute_of_error hattempt]
        have hclosed : Closed .process World.HasResult := hasResult_closed
        exact (ack_keeps hclosed _).apply
          ((handleException_keeps hasResult_closed e).apply hresult)
      · have hleft : b.RetriesLeft := hleft.resolve_right fun ⟨htime, hwrite⟩ =>
          hcall.elim hwrite fun h => htime.elim h.2 h.1
        exact Or.inr (execute_going rfl hleft hattempt hgoing)

/-- **The messages of a child**: where a child does not end without a result, whatever is published for
it has not ended, or its result is there. -/
theorem processTask_result (hb : b.Ready) (hchild : b.moduleName ≠ none)
    (hended : b.Ended → b.HasResult objects) (hleaves : LeavesResult env objects b) :
    ∀ m ∈ (processTask M env objects b).published,
      m.body.Ended → m.body.HasResult (processTask M env objects b).objects := by
  obtain ⟨step, htrans⟩ := hb.exists_transition
  have hsound := processTask_sound M env objects hb
  have huploads := processTask_uploads M env objects htrans
  have hresult : (processTask M env objects b).HasResult →
      ∀ m ∈ (processTask M env objects b).published,
        m.body.Ended → m.body.HasResult (processTask M env objects b).objects := fun h m hm _ =>
    Body.HasResult.of_ident ((hsound.published m hm).2.trans hsound.ident.symm) h
  by_cases hhas : b.HasResult objects
  · exact hresult (Body.HasResult.of_ident hsound.ident (hhas.stays huploads.stays))
  · have hnot : ¬ b.Ended := fun h => hhas (hended h)
    obtain ⟨hcreated, hstarted⟩ := hleaves hchild
    obtain ⟨-, s, hs, step', hgroup⟩ := hb.ofChild hchild
    have hstep : transition b = some step' := by
      rw [transition, hs, Option.bind_some, if_neg hchild, hgroup]
    obtain rfl : step' = step := Option.some.inj (hstep.symm.trans htrans)
    rw [processTask_of_transition htrans] at hresult ⊢
    rcases group_cases hgroup with rfl | rfl | rfl | rfl
    · have hs' : b.state = some .created := by
        cases s <;> cases hgroup
        exact hs
      obtain ⟨htime, hleft⟩ := hcreated hs'
      exact fun m hm h => absurd h (setStarted_going hb htime hleft m hm)
    · have hs' : b.state = some .started := by
        cases s <;> cases hgroup
        exact hs
      have hfresh : Working b (World.fresh objects b) := by
        refine ⟨hb.has htrans fun hc => hnot hc.2, rfl, Or.inr ⟨?_, hnot, rfl, rfl⟩⟩
        exact fun m hm => absurd hm List.not_mem_nil
      have hleft := (hstarted hs').imp id fun h => h.resolve_left hhas
      rcases process_execute hb hfresh hleft with h | h
      · exact hresult h
      · exact fun m hm hend => absurd hend (h m hm)
    · exact absurd (Or.inl (by cases s <;> cases hgroup; exact hs)) hnot
    · exact absurd (Or.inr (by cases s <;> cases hgroup; exact hs)) hnot

end Bumiworker
