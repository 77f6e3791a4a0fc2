import OptScale.Katara.Schedules
import OptScale.Katara.Stranded

/-!
# Katara/Fired — a schedule is run once for what its crontab names

Each time the next run of a schedule is set, it is the first instant that the crontab names after that
time; a task is created when it has come, and sets it anew.  So the times cut the instants into windows:
each instant is in one of them, and each window gets one task, which is its own and has at most one
message, however the scheduler's bulks, the service and the workers interleave and whatever fails.
-/

namespace Katara.Scheduler

open Session

variable {croniter : Croniter} {s s' : State} {id : String} {now : ℤ} {ids : List String}
  {update : String × String × ℤ} {updates : List (String × String × ℤ)} {r r' : Reckoning}

/-! ## Statements -/

/-- The task of a schedule whose next run had come. -/
def Reckoning.task (r : Reckoning) : Option ℕ := r.fired.map Prod.snd

/-- What happened to a schedule. -/
def State.reckoningsOf (s : State) (id : String) : List Reckoning :=
  s.reckonings.filter fun r => r.schedule = id

/-- **Run once**: the times of a schedule follow each other, and its next run the last of them; every instant
from its creation to its last task is in one of the windows between them, each of which has got a task;
each task is that of one time, is the schedule's unless that is deleted, and has one message at most. -/
structure RunOnce (croniter : Croniter) (s : State) : Prop where
  follows : ∀ id, (s.reckoningsOf id).IsChain fun r r' => ∃ due task, r'.fired = some (due, task) ∧
    IsLeast {m | croniter.Names r.crontab m ∧ r.time < m} due ∧ due ≤ r'.time
  next : ∀ row ∈ s.schedules, ∃ r, (s.reckoningsOf row.id).getLast? = some r ∧
    IsLeast {m | croniter.Names r.crontab m ∧ r.time < m} row.nextRun
  window : ∀ id r r' m, (s.reckoningsOf id).head? = some r → (s.reckoningsOf id).getLast? = some r' →
    r.time < m → m ≤ r'.time → ∃! i, Windows.InWindow Reckoning.time (s.reckoningsOf id) m i
  tasks : (s.reckonings.filterMap Reckoning.task).Nodup
  own : ∀ r ∈ s.reckonings, ∀ k, r.task = some k → ∃ t : Task, s.tasks[k]? = some t ∧
    (t.scheduleId = some r.schedule ∨ t.scheduleId = none)
  published : (s.published.map Body.taskId).Nodup ∧ ∀ b ∈ s.published, b.taskId < s.tasks.length

/-- **The next time after another**: the first instant that the crontab named after that one had come. -/
def Follows (croniter : Croniter) (r r' : Reckoning) : Prop :=
  ∃ due task, r'.fired = some (due, task) ∧ croniter.nextRun r.crontab r.time = some due ∧ due ≤ r'.time

theorem Follows.lt (h : Follows croniter r r') : r.time < r'.time := by
  obtain ⟨due, task, -, hnext, hle⟩ := h
  exact (croniter.lt_nextRun hnext).trans_le hle

/-- **What is kept**: of each schedule, the times follow each other, and its next run follows the last of
them; each task is that of one time; the last run is nothing, or a task of the schedule was completed
then; and messages are those of tasks, one each. -/
structure Inv (croniter : Croniter) (s : State) : Prop where
  clock : 0 ≤ s.clock
  ids : (s.schedules.map Schedule.id).Nodup
  follows : ∀ id, (s.reckoningsOf id).IsChain (Follows croniter)
  last : ∀ row ∈ s.schedules, ∃ r, (s.reckoningsOf row.id).getLast? = some r ∧
    croniter.nextRun r.crontab r.time = some row.nextRun
  times : ∀ r ∈ s.reckonings, 0 ≤ r.time ∧ r.time ≤ s.clock
  tasks : (s.reckonings.filterMap Reckoning.task).Pairwise (· < ·)
  own : ∀ r ∈ s.reckonings, ∀ k, r.task = some k → ∃ t : Task, s.tasks[k]? = some t ∧
    (t.scheduleId = some r.schedule ∨ t.scheduleId = none)
  lastRun : ∀ row ∈ s.schedules, row.lastRun = 0 ∨ ∃ (k : ℕ) (t : Task), s.tasks[k]? = some t ∧
    t.scheduleId = some row.id ∧ t.completedAt = some row.lastRun
  published : (s.published.map Body.taskId).Pairwise (· < ·)
  messages : ∀ b ∈ s.published, b.taskId < s.tasks.length

/-- **What is left to a run** that began at an instant: schedules whose next run had come by then, each
once. -/
structure Ready (s : State) (now : ℤ) (ids : List String) : Prop where
  nodup : ids.Nodup
  nonneg : 0 ≤ now
  le_clock : now ≤ s.clock
  known : ∀ id ∈ ids, ∃ r ∈ s.reckonings, r.schedule = id
  come : ∀ row ∈ s.schedules, row.id ∈ ids → row.nextRun ≤ now

/-- The run on its way has such schedules left. -/
def State.GenerationReady (s : State) : Prop :=
  ∀ g, s.generation = some g → Ready s g.now (g.schedules.map Prod.fst)

/-! ## Reckonings -/

theorem reckoningsOf_append (h : s'.reckonings = s.reckonings ++ [r]) (id : String) :
    s'.reckoningsOf id = s.reckoningsOf id ++ if r.schedule = id then [r] else [] := by
  rw [State.reckoningsOf, h, List.filter_append, List.filter_singleton, State.reckoningsOf]
  by_cases hid : r.schedule = id <;> simp [hid]

theorem mem_reckoningsOf : r ∈ s.reckoningsOf id ↔ r ∈ s.reckonings ∧ r.schedule = id := by
  rw [State.reckoningsOf, List.mem_filter, decide_eq_true_eq]

/-- A new time of a schedule has to follow its last one. -/
theorem isChain_append (h : ∀ id, (s.reckoningsOf id).IsChain (Follows croniter))
    (happend : s'.reckonings = s.reckonings ++ [r])
    (hr : ∀ r₀, (s.reckoningsOf r.schedule).getLast? = some r₀ → Follows croniter r₀ r) (id : String) :
    (s'.reckoningsOf id).IsChain (Follows croniter) := by
  rw [reckoningsOf_append happend]
  by_cases hid : r.schedule = id
  · rw [if_pos hid]
    refine List.isChain_append.mpr ⟨h id, List.isChain_singleton r, fun r₀ hr₀ r₁ hr₁ => ?_⟩
    obtain rfl := Option.some.inj hr₁
    exact hr r₀ (hid ▸ hr₀)
  · rw [if_neg hid, List.append_nil]
    exact h id

/-- **The rows may change in what is not about their next runs.** -/
theorem Inv.of_rows (h : Inv croniter s) (hids : (s'.schedules.map Schedule.id).Nodup)
    (hrows : ∀ row' ∈ s'.schedules, ∃ row ∈ s.schedules, row'.id = row.id ∧ row'.nextRun = row.nextRun)
    (htasks : ∀ (k : ℕ) (t : Task), s.tasks[k]? = some t → ∃ t', s'.tasks[k]? = some t' ∧
      (t'.scheduleId = t.scheduleId ∨ t'.scheduleId = none))
    (hlastRun : ∀ row ∈ s'.schedules, row.lastRun = 0 ∨ ∃ (k : ℕ) (t : Task), s'.tasks[k]? = some t ∧
      t.scheduleId = some row.id ∧ t.completedAt = some row.lastRun)
    (hclock : s'.clock = s.clock) (hreckonings : s'.reckonings = s.reckonings)
    (hpublished : s'.published = s.published) : Inv croniter s' where
  clock := hclock ▸ h.clock
  ids := hids
  follows id := by
    rw [State.reckoningsOf, hreckonings]
    exact h.follows id
  last row' hrow' := by
    obtain ⟨row, hrow, hid, hnext⟩ := hrows row' hrow'
    rw [State.reckoningsOf, hreckonings, hid, hnext]
    exact h.last row hrow
  times := by
    rw [hreckonings, hclock]
    exact h.times
  tasks := by
    rw [hreckonings]
    exact h.tasks
  own r hr k hk := by
    obtain ⟨t, ht, howner⟩ := h.own r (hreckonings ▸ hr) k hk
    obtain ⟨t', ht', hsame | hnone⟩ := htasks k t ht
    · exact ⟨t', ht', hsame ▸ howner⟩
    · exact ⟨t', ht', Or.inr hnone⟩
  lastRun := hlastRun
  published := by
    rw [hpublished]
    exact h.published
  messages b hb := by
    rw [hpublished] at hb
    have hlt := h.messages b hb
    obtain ⟨t', ht', -⟩ := htasks _ _ (List.getElem?_eq_getElem hlt)
    exact (List.getElem?_eq_some_iff.mp ht').1

theorem inv_initial : Inv croniter initial where
  clock := le_rfl
  ids := List.nodup_nil
  follows _ := List.isChain_nil
  last _ hrow := absurd hrow List.not_mem_nil
  times _ hr := absurd hr List.not_mem_nil
  tasks := List.Pairwise.nil
  own _ hr := absurd hr List.not_mem_nil
  lastRun _ hrow := absurd hrow List.not_mem_nil
  published := List.Pairwise.nil
  messages _ hb := absurd hb List.not_mem_nil

/-- Time goes on. -/
theorem Inv.later (h : Inv croniter s) (hle : s.clock ≤ now) : Inv croniter { s with clock := now } where
  clock := h.clock.trans hle
  ids := h.ids
  follows := h.follows
  last := h.last
  times r hr := ⟨(h.times r hr).1, (h.times r hr).2.trans hle⟩
  tasks := h.tasks
  own := h.own
  lastRun := h.lastRun
  published := h.published
  messages := h.messages

/-! ## Schedules come and are run -/

/-- A row has been set its next run at some time. -/
theorem Inv.exists_reckoning (h : Inv croniter s) {row : Schedule} (hrow : row ∈ s.schedules) :
    ∃ r ∈ s.reckonings, r.schedule = row.id := by
  obtain ⟨r, hr, -⟩ := h.last row hrow
  exact ⟨r, mem_reckoningsOf.mp (List.mem_of_getLast? hr)⟩

/-- A new schedule. -/
def State.withSchedule (s : State) (row : Schedule) : State :=
  { s with
    schedules := s.schedules ++ [row]
    reckonings := s.reckonings ++ [⟨row.id, row.crontab, s.clock, none⟩] }

theorem Inv.withSchedule (h : Inv croniter s) {row : Schedule}
    (hfresh : ∀ r ∈ s.reckonings, r.schedule ≠ row.id)
    (hnext : croniter.nextRun row.crontab s.clock = some row.nextRun) (hlast : row.lastRun = 0) :
    Inv croniter (s.withSchedule row) := by
  have hnone : s.reckoningsOf row.id = [] :=
    List.filter_eq_nil_iff.mpr fun r hr hid => hfresh r hr (of_decide_eq_true hid)
  have hothers : ∀ row' ∈ s.schedules, row'.id ≠ row.id := fun row' hrow' hid => by
    obtain ⟨r, hr, hrid⟩ := h.exists_reckoning hrow'
    exact hfresh r hr (hrid.trans hid)
  refine ⟨h.clock, ?_, isChain_append h.follows rfl fun r₀ hr₀ => ?_, fun row' hrow' => ?_, fun r hr => ?_, ?_,
    fun r hr k hk => ?_, fun row' hrow' => ?_, h.published, h.messages⟩
  · rw [State.withSchedule, List.map_append, List.nodup_append]
    refine ⟨h.ids, List.nodup_singleton _, fun id hid id' hid' => ?_⟩
    obtain ⟨row', hrow', rfl⟩ := List.mem_map.mp hid
    obtain rfl := List.mem_singleton.mp hid'
    exact hothers row' hrow'
  · rw [show s.reckoningsOf _ = [] from hnone] at hr₀
    cases hr₀
  · rw [reckoningsOf_append rfl]
    rcases List.mem_append.mp hrow' with hold | hnew
    · rw [if_neg (hothers row' hold).symm, List.append_nil]
      exact h.last row' hold
    · obtain rfl := List.mem_singleton.mp hnew
      rw [if_pos rfl]
      exact ⟨_, List.getLast?_concat, hnext⟩
  · rcases List.mem_append.mp hr with hold | hnew
    · exact h.times r hold
    · obtain rfl := List.mem_singleton.mp hnew
      exact ⟨h.clock, le_rfl⟩
  · rw [State.withSchedule, List.filterMap_append]
    exact (List.append_nil (s.reckonings.filterMap Reckoning.task)).symm ▸ h.tasks
  · rcases List.mem_append.mp hr with hold | hnew
    · exact h.own r hold k hk
    · obtain rfl := List.mem_singleton.mp hnew
      cases hk
  · rcases List.mem_append.mp hrow' with hold | hnew
    · exact h.lastRun row' hold
    · obtain rfl := List.mem_singleton.mp hnew
      exact Or.inl hlast

@[simp] theorem Schedule.reckoned_id (id : String) (next : ℤ) (row : Schedule) :
    (row.reckoned id next).id = row.id := by
  rw [Schedule.reckoned]
  split <;> rfl

@[simp] theorem Schedule.reckoned_lastRun (id : String) (next : ℤ) (row : Schedule) :
    (row.reckoned id next).lastRun = row.lastRun := by
  rw [Schedule.reckoned]
  split <;> rfl

theorem Schedule.reckoned_of_ne {next : ℤ} {row : Schedule} (h : row.id ≠ id) :
    row.reckoned id next = row := if_neg h

theorem Schedule.reckoned_nextRun {next : ℤ} {row : Schedule} (h : row.id = id) :
    (row.reckoned id next).nextRun = next := by
  rw [Schedule.reckoned, if_pos h]

/-- What is done to a schedule that is there. -/
theorem Inv.fire_eq (h : Inv croniter s) {row : Schedule} (hrow : row ∈ s.schedules) (crontab : String)
    (next : ℤ) : fire now s (row.id, crontab, next) =
      { s with
        schedules := s.schedules.map (Schedule.reckoned row.id next)
        tasks := s.tasks ++ [scheduledTask row.id]
        reckonings := s.reckonings ++ [⟨row.id, crontab, now, some (row.nextRun, s.tasks.length)⟩] } := by
  have hfound : (s.schedules.find? fun row' => row'.id = row.id) = some row := by
    obtain ⟨row', hrow'⟩ : ∃ row', (s.schedules.find? fun row' => row'.id = row.id) = some row' :=
      Option.isSome_iff_exists.mp (List.find?_isSome.mpr ⟨row, hrow, decide_eq_true rfl⟩)
    rw [hrow']
    exact congrArg some (List.inj_on_of_nodup_map h.ids (List.mem_of_find?_eq_some hrow') hrow
      (by simpa using List.find?_some hrow'))
  rw [fire, hfound]
  rfl

/-- **A schedule that is left is run**, once its task and its next run are committed. -/
theorem Inv.fire (h : Inv croniter s) (hready : Ready s now (update.1 :: ids))
    (hnext : croniter.nextRun update.2.1 now = some update.2.2)
    (hrow : ∃ row ∈ s.schedules, row.id = update.1) : Inv croniter (fire now s update) := by
  obtain ⟨id, crontab, next⟩ := update
  obtain ⟨row, hrow, rfl⟩ := hrow
  have hpast : ∀ r ∈ s.reckonings, ∀ k, r.task = some k → k < s.tasks.length := fun r hr k hk => by
    obtain ⟨t, ht, -⟩ := h.own r hr k hk
    exact (List.getElem?_eq_some_iff.mp ht).1
  have hcome : row.nextRun ≤ now := hready.come row hrow (List.mem_cons_self ..)
  rw [h.fire_eq hrow]
  refine ⟨h.clock, ?_, isChain_append h.follows rfl fun r₀ hr₀ => ?_, fun row' hrow' => ?_, fun r hr => ?_, ?_,
    fun r hr k hk => ?_, fun row' hrow' => ?_, h.published, fun b hb => ?_⟩
  · show ((s.schedules.map _).map _).Nodup
    rw [List.map_map, show Schedule.id ∘ Schedule.reckoned row.id next = Schedule.id from
      funext fun row' => row'.reckoned_id row.id next]
    exact h.ids
  · obtain ⟨r₁, hr₁, hnext₁⟩ := h.last row hrow
    obtain rfl := Option.some.inj (hr₀.symm.trans hr₁)
    exact ⟨row.nextRun, s.tasks.length, rfl, hnext₁, hcome⟩
  · obtain ⟨row₀, hrow₀, rfl⟩ := List.mem_map.mp hrow'
    rw [reckoningsOf_append rfl, Schedule.reckoned_id]
    by_cases hid : row.id = row₀.id
    · rw [if_pos hid, Schedule.reckoned_nextRun hid.symm]
      exact ⟨_, List.getLast?_concat, hnext⟩
    · rw [if_neg hid, List.append_nil, Schedule.reckoned_of_ne (Ne.symm hid)]
      exact h.last row₀ hrow₀
  · rcases List.mem_append.mp hr with hold | hnew
    · exact h.times r hold
    · obtain rfl := List.mem_singleton.mp hnew
      exact ⟨hready.nonneg, hready.le_clock⟩
  · show ((s.reckonings ++ [_]).filterMap _).Pairwise _
    rw [List.filterMap_append]
    refine List.pairwise_append.mpr ⟨h.tasks, List.pairwise_singleton _ _, fun k hk k' hk' => ?_⟩
    obtain ⟨r, hr, hrk⟩ := List.mem_filterMap.mp hk
    obtain rfl := List.mem_singleton.mp hk'
    exact hpast r hr k hrk
  · rcases List.mem_append.mp hr with hold | hnew
    · obtain ⟨t, ht, howner⟩ := h.own r hold k hk
      exact ⟨t, (List.getElem?_append_left (hpast r hold k hk)).trans ht, howner⟩
    · obtain rfl := List.mem_singleton.mp hnew
      obtain rfl := Option.some.inj hk
      exact ⟨scheduledTask row.id, List.getElem?_concat_length, Or.inl rfl⟩
  · obtain ⟨row₀, hrow₀, rfl⟩ := List.mem_map.mp hrow'
    rw [Schedule.reckoned_lastRun, Schedule.reckoned_id]
    refine (h.lastRun row₀ hrow₀).imp_right fun ⟨k, t, ht, hwhose, hcompleted⟩ => ⟨k, t, ?_, hwhose, hcompleted⟩
    exact (List.getElem?_append_left (List.getElem?_eq_some_iff.mp ht).1).trans ht
  · show b.taskId < (s.tasks ++ [_]).length
    rw [List.length_append]
    exact (h.messages b hb).trans_le (Nat.le_add_right _ _)

/-- The schedules after that one are still left. -/
theorem Ready.fire (h : Inv croniter s) (hready : Ready s now (update.1 :: ids))
    (hrow : ∃ row ∈ s.schedules, row.id = update.1) : Ready (fire now s update) now ids := by
  obtain ⟨id, crontab, next⟩ := update
  obtain ⟨row, hrow, rfl⟩ := hrow
  obtain ⟨hout, hnodup⟩ := List.nodup_cons.mp hready.nodup
  rw [h.fire_eq hrow]
  refine ⟨hnodup, hready.nonneg, hready.le_clock, fun id hid => ?_, fun row' hrow' hid => ?_⟩
  · obtain ⟨r, hr, hrid⟩ := hready.known id (List.mem_cons_of_mem _ hid)
    exact ⟨r, List.mem_append_left _ hr, hrid⟩
  · obtain ⟨row₀, hrow₀, rfl⟩ := List.mem_map.mp hrow'
    rw [Schedule.reckoned_id] at hid
    rw [Schedule.reckoned_of_ne fun heq : row₀.id = row.id => hout (heq ▸ hid)]
    exact hready.come row₀ hrow₀ (List.mem_cons_of_mem _ hid)

/-- A row that is there is there after another one is run. -/
theorem mem_schedules_fire (h : ∃ row ∈ s.schedules, row.id = id) :
    ∃ row ∈ (fire now s update).schedules, row.id = id := by
  obtain ⟨row, hrow, rfl⟩ := h
  exact ⟨_, List.mem_map_of_mem hrow, row.reckoned_id ..⟩

/-- **A bulk is run**, schedule by schedule. -/
theorem Inv.fires (h : Inv croniter s) (hready : Ready s now (updates.map Prod.fst ++ ids))
    (hnext : ∀ update ∈ updates, croniter.nextRun update.2.1 now = some update.2.2)
    (hthere : ∀ update ∈ updates, ∃ row ∈ s.schedules, row.id = update.1) :
    Inv croniter (updates.foldl (Scheduler.fire now) s) ∧
      Ready (updates.foldl (Scheduler.fire now) s) now ids := by
  induction updates generalizing s with
  | nil => exact ⟨h, hready⟩
  | cons update updates ih =>
    have hrow := hthere update (List.mem_cons_self ..)
    exact ih (h.fire hready (hnext update (List.mem_cons_self ..)) hrow) (hready.fire h hrow)
      (fun update' hin => hnext update' (List.mem_cons_of_mem _ hin))
      fun update' hin => mem_schedules_fire (hthere update' (List.mem_cons_of_mem _ hin))

/-- The updates of a bulk: its schedules in their order, each with its next run. -/
theorem schedulesUpdates_eq_some {bulk : List (String × String)} :
    schedulesUpdates croniter now bulk = some updates →
      updates.map (fun update => (update.1, update.2.1)) = bulk ∧
        ∀ update ∈ updates, croniter.nextRun update.2.1 now = some update.2.2 := by
  induction bulk generalizing updates with
  | nil =>
    intro h
    obtain rfl := Option.some.inj h
    exact ⟨rfl, fun _ hin => absurd hin List.not_mem_nil⟩
  | cons row bulk ih =>
    intro h
    rw [schedulesUpdates, List.mapM_cons] at h
    obtain ⟨update, hupdate, h⟩ := Option.bind_eq_some_iff.mp h
    obtain ⟨rest, hrest, h⟩ := Option.bind_eq_some_iff.mp h
    obtain rfl := Option.some.inj h
    obtain ⟨next, hnext, rfl⟩ := Option.map_eq_some_iff.mp hupdate
    obtain ⟨hbulk, hall⟩ := ih hrest
    refine ⟨congrArg _ hbulk, fun update hin => ?_⟩
    rcases List.mem_cons.mp hin with rfl | hin
    · exact hnext
    · exact hall update hin

variable (now) in
/-- What a bulk leaves alone. -/
theorem fires_frame (updates : List (String × String × ℤ)) : ∀ s : State,
    (updates.foldl (Scheduler.fire now) s).tasks.length = s.tasks.length + updates.length ∧
      (updates.foldl (Scheduler.fire now) s).published = s.published ∧
        (updates.foldl (Scheduler.fire now) s).clock = s.clock := by
  induction updates with
  | nil => exact fun s => ⟨rfl, rfl, rfl⟩
  | cons update updates ih =>
    intro s
    obtain ⟨htasks, hpublished, hclock⟩ := ih (Scheduler.fire now s update)
    refine ⟨htasks.trans ?_, hpublished, hclock⟩
    simp only [Scheduler.fire, List.length_append, List.length_cons, List.length_nil]
    omega

/-! ## Messages -/

/-- Messages get on the queue in their order. -/
theorem putTasks_sublist {put : ℕ → Call} (messages : List Body) : ∀ i,
    (Katara.putTasks put i messages).Sublist messages := by
  induction messages with
  | nil => exact fun _ => List.Sublist.refl _
  | cons m messages ih =>
    intro i
    rw [Katara.putTasks]
    cases put i with
    | done => exact (ih (i + 1)).cons_cons m
    | refused => exact List.nil_sublist _
    | broken => exact (List.nil_sublist messages).cons_cons m

/-- **New tasks get one message at most.** -/
theorem Inv.publish (h : Inv croniter s) {first n : ℕ} {messages : List Body}
    (hfirst : ∀ b ∈ s.published, b.taskId < first) (hn : first + n ≤ s.tasks.length)
    (hmessages : messages.Sublist (newMessages s.clock first n)) :
    Inv croniter { s with published := s.published ++ messages } := by
  have hsub : (messages.map Body.taskId).Sublist (List.range' first n) := by
    have hall : (newMessages s.clock first n).map Body.taskId = List.range' first n := by
      rw [newMessages, List.map_map]
      exact List.map_id _
    exact hall ▸ hmessages.map Body.taskId
  have hrange : (List.range' first n).Pairwise (· < ·) := List.pairwise_lt_range'
  refine ⟨h.clock, h.ids, h.follows, h.last, h.times, h.tasks, h.own, h.lastRun, ?_, fun b hb => ?_⟩
  · rw [List.map_append]
    refine List.pairwise_append.mpr ⟨h.published, hrange.sublist hsub, fun k hk k' hk' => ?_⟩
    obtain ⟨b, hb, rfl⟩ := List.mem_map.mp hk
    exact (hfirst b hb).trans_le (List.mem_range'_1.mp (hsub.subset hk')).1
  · rcases List.mem_append.mp hb with hold | hnew
    · exact h.messages b hold
    · have hin := List.mem_range'_1.mp (hsub.subset (List.mem_map_of_mem hnew))
      exact hin.2.trans_le hn

/-! ## Events -/

/-- What is left is left as long as the rows keep their next runs. -/
theorem Ready.of_rows (h : Ready s now ids)
    (hrows : ∀ row' ∈ s'.schedules, row'.id ∈ ids →
      ∃ row ∈ s.schedules, row'.id = row.id ∧ row'.nextRun = row.nextRun)
    (hclock : s.clock ≤ s'.clock) (hreckonings : ∀ r ∈ s.reckonings, r ∈ s'.reckonings) :
    Ready s' now ids where
  nodup := h.nodup
  nonneg := h.nonneg
  le_clock := h.le_clock.trans hclock
  known id hid := by
    obtain ⟨r, hr, hrid⟩ := h.known id hid
    exact ⟨r, hreckonings r hr, hrid⟩
  come row' hrow' hid := by
    obtain ⟨row, hrow, hsame, hnext⟩ := hrows row' hrow' hid
    rw [hnext]
    exact h.come row hrow (hsame ▸ hid)

/-- **What is kept**, of the scheduler too. -/
def Kept (croniter : Croniter) (s : State) : Prop := Inv croniter s ∧ s.GenerationReady

/-- The scheduler is stopped. -/
theorem Kept.stop (h : Inv croniter s) : Kept croniter s.stop :=
  ⟨⟨h.clock, h.ids, h.follows, h.last, h.times, h.tasks, h.own, h.lastRun, h.published, h.messages⟩,
    fun _ hg => by cases hg⟩

theorem create_eq_ok {schedules : List Schedule} {c : Creation} {row : Schedule}
    (h : create croniter schedules now c = .ok row) :
    row.id = c.id ∧ row.lastRun = 0 ∧ croniter.nextRun row.crontab now = some row.nextRun := by
  simp only [create, Fallible.bind_eq_ok, Fallible.orFail_eq_ok, Fallible.pure_eq_ok] at h
  obtain ⟨_, _, nextRun, hnext, _, _, _, _, _, _, rfl⟩ := h
  exact ⟨rfl, rfl, hnext⟩

theorem edit_eq_ok {schedules schedules' : List Schedule} {id crontab : String}
    (h : edit croniter schedules id crontab = .ok schedules') :
    schedules' = schedules.map (Schedule.recrontab id crontab) := by
  simp only [edit, Fallible.bind_eq_ok, Fallible.pure_eq_ok] at h
  obtain ⟨_, _, _, _, _, _, rfl⟩ := h
  rfl

/-- **Rows that keep their ids, their next runs and their last runs**, and tasks that keep their schedules
and their completions, or lose their schedules. -/
theorem Kept.of_map (h : Kept croniter s) {f : Schedule → Schedule}
    (hf : ∀ row, (f row).id = row.id ∧ (f row).nextRun = row.nextRun ∧ (f row).lastRun = row.lastRun) :
    Kept croniter { s with schedules := s.schedules.map f } := by
  refine ⟨h.1.of_rows ?_ (fun row' hrow' => ?_) (fun k t ht => ⟨t, ht, Or.inl rfl⟩) (fun row' hrow' => ?_)
    rfl rfl rfl, fun g hg => (h.2 g hg).of_rows (fun row' hrow' _ => ?_) le_rfl fun _ hr => hr⟩
  · show ((s.schedules.map f).map Schedule.id).Nodup
    rw [List.map_map, show Schedule.id ∘ f = Schedule.id from funext fun row => (hf row).1]
    exact h.1.ids
  · obtain ⟨row, hrow, rfl⟩ := List.mem_map.mp hrow'
    exact ⟨row, hrow, (hf row).1, (hf row).2.1⟩
  · obtain ⟨row, hrow, rfl⟩ := List.mem_map.mp hrow'
    rw [(hf row).1, (hf row).2.2]
    exact h.1.lastRun row hrow
  · obtain ⟨row, hrow, rfl⟩ := List.mem_map.mp hrow'
    exact ⟨row, hrow, (hf row).1, (hf row).2.1⟩

/-- A schedule is deleted, and its tasks lose it. -/
theorem Kept.delete (h : Kept croniter s) (id : String) :
    Kept croniter { s with
      schedules := s.schedules.filter fun row => row.id ≠ id
      tasks := s.tasks.map (unschedule id) } := by
  have hold : ∀ row ∈ s.schedules.filter fun row => row.id ≠ id, row ∈ s.schedules ∧ row.id ≠ id :=
    fun row hrow => (List.mem_filter.mp hrow).imp_right of_decide_eq_true
  refine ⟨h.1.of_rows ?_ (fun row hrow => ⟨row, (hold row hrow).1, rfl, rfl⟩) (fun k t ht => ?_)
    (fun row hrow => ?_) rfl rfl rfl,
    fun g hg => (h.2 g hg).of_rows (fun row hrow _ => ⟨row, (hold row hrow).1, rfl, rfl⟩) le_rfl fun _ hr => hr⟩
  · exact h.1.ids.sublist ((List.filter_sublist).map Schedule.id)
  · refine ⟨unschedule id t, List.getElem?_map .. ▸ congrArg _ ht, ?_⟩
    rw [unschedule]
    split
    · exact Or.inr rfl
    · exact Or.inl rfl
  · refine (h.1.lastRun row (hold row hrow).1).imp_right fun ⟨k, t, ht, hwhose, hcompleted⟩ => ?_
    refine ⟨k, unschedule id t, List.getElem?_map .. ▸ congrArg _ ht, ?_⟩
    rw [unschedule, if_neg fun hid => (hold row hrow).2 (Option.some.inj (hwhose.symm.trans hid))]
    exact ⟨hwhose, hcompleted⟩

/-- Tasks are created. -/
theorem Kept.withTasks (h : Kept croniter s) (tasks : List Task) :
    Kept croniter { s with tasks := s.tasks ++ tasks } := by
  have hold : ∀ (k : ℕ) (t : Task), s.tasks[k]? = some t → (s.tasks ++ tasks)[k]? = some t := fun k t ht =>
    (List.getElem?_append_left (List.getElem?_eq_some_iff.mp ht).1).trans ht
  refine ⟨h.1.of_rows h.1.ids (fun row hrow => ⟨row, hrow, rfl, rfl⟩) (fun k t ht => ⟨t, hold k t ht, Or.inl rfl⟩)
    (fun row hrow => ?_) rfl rfl rfl,
    fun g hg => (h.2 g hg).of_rows (fun row hrow _ => ⟨row, hrow, rfl, rfl⟩) le_rfl fun _ hr => hr⟩
  exact (h.1.lastRun row hrow).imp_right fun ⟨k, t, ht, hrest⟩ => ⟨k, t, hold k t ht, hrest⟩

theorem Schedule.ranFor_id (t : Task) (now : ℤ) (row : Schedule) : (row.ranFor t now).id = row.id := by
  rw [Schedule.ranFor]
  split <;> rfl

theorem Schedule.ranFor_nextRun (t : Task) (now : ℤ) (row : Schedule) :
    (row.ranFor t now).nextRun = row.nextRun := by
  rw [Schedule.ranFor]
  split <;> rfl

/-- A task after an edit of one of them. -/
theorem getElem?_edited {tasks : List Task} {f : Task → Task} {task k : ℕ} {t : Task}
    (ht : tasks[k]? = some t) : (tasks.modify task f)[k]? = some (if task = k then f t else t) := by
  rw [List.getElem?_modify, ht]
  split <;> rfl

/-- **A task is edited**: if it is completed, it is the last run of its schedule. -/
theorem Kept.editTask (h : Kept croniter s) (task : ℕ) (state : Option TaskState) (result : Option Result) :
    Kept croniter (editTask s task state result) := by
  rw [Scheduler.editTask]
  cases htask : s.tasks[task]? with
  | none => exact h
  | some t =>
    have htasks : ∀ (k : ℕ) (t₀ : Task), s.tasks[k]? = some t₀ →
        ∃ t', (s.tasks.modify task (Task.edit s.clock (editedState state t) result))[k]? = some t' ∧
          (t'.scheduleId = t₀.scheduleId ∨ t'.scheduleId = none) := fun k t₀ ht₀ => by
      refine ⟨_, getElem?_edited ht₀, Or.inl ?_⟩
      split <;> rfl
    by_cases hcompleted : editedState state t = .completed
    · simp only [if_pos hcompleted]
      refine ⟨h.1.of_rows ?_ (fun row' hrow' => ?_) htasks (fun row' hrow' => ?_) rfl rfl rfl,
        fun g hg => (h.2 g hg).of_rows (fun row' hrow' _ => ?_) le_rfl fun _ hr => hr⟩
      · show ((s.schedules.map _).map Schedule.id).Nodup
        rw [List.map_map, show Schedule.id ∘ Schedule.ranFor t s.clock = Schedule.id from
          funext (Schedule.ranFor_id t s.clock)]
        exact h.1.ids
      · obtain ⟨row, hrow, rfl⟩ := List.mem_map.mp hrow'
        exact ⟨row, hrow, row.ranFor_id .., row.ranFor_nextRun ..⟩
      · obtain ⟨row, hrow, rfl⟩ := List.mem_map.mp hrow'
        rw [Schedule.ranFor_id, Schedule.ranFor]
        by_cases hwhose : t.scheduleId = some row.id
        · rw [if_pos hwhose]
          refine Or.inr ⟨task, _, getElem?_edited htask, ?_⟩
          rw [if_pos rfl, Task.edit, if_pos hcompleted]
          exact ⟨hwhose, rfl⟩
        · rw [if_neg hwhose]
          refine (h.1.lastRun row hrow).imp_right fun ⟨k, t₀, ht₀, hrest⟩ => ⟨k, _, getElem?_edited ht₀, ?_⟩
          rw [if_neg fun hk => ?_]
          · exact hrest
          · obtain rfl := Option.some.inj (htask.symm.trans (hk ▸ ht₀))
            exact hwhose hrest.1
      · obtain ⟨row, hrow, rfl⟩ := List.mem_map.mp hrow'
        exact ⟨row, hrow, row.ranFor_id .., row.ranFor_nextRun ..⟩
    · simp only [if_neg hcompleted]
      refine ⟨h.1.of_rows h.1.ids (fun row hrow => ⟨row, hrow, rfl, rfl⟩) htasks (fun row hrow => ?_) rfl rfl rfl,
        fun g hg => (h.2 g hg).of_rows (fun row hrow _ => ⟨row, hrow, rfl, rfl⟩) le_rfl fun _ hr => hr⟩
      refine (h.1.lastRun row hrow).imp_right fun ⟨k, t₀, ht₀, hrest⟩ => ⟨k, _, getElem?_edited ht₀, ?_⟩
      split
      · rw [Task.edit, if_neg hcompleted]
        exact hrest
      · exact hrest

/-- **A bulk**, however it ends. -/
theorem Kept.bulk (h : Kept croniter s) {g : Generation} (hg : s.generation = some g) (commit : Call)
    (put : ℕ → Call) : Kept croniter (bulk croniter s g commit put) := by
  have hready := h.2 g hg
  have hids : g.schedules.map Prod.fst = (g.schedules.take bulkSize).map Prod.fst ++
      (g.schedules.drop bulkSize).map Prod.fst := by
    rw [← List.map_append, List.take_append_drop]
  rw [Scheduler.bulk]
  cases hupdates : schedulesUpdates croniter g.now (g.schedules.take bulkSize) with
  | none => exact Kept.stop h.1
  | some updates =>
    obtain ⟨hrows, hnext⟩ := schedulesUpdates_eq_some hupdates
    have hfst : updates.map Prod.fst = (g.schedules.take bulkSize).map Prod.fst := by
      rw [← hrows, List.map_map]
      rfl
    have hlength : updates.length = (g.schedules.take bulkSize).length := by
      rw [← hrows, List.length_map]
    simp only
    split
    next hcommit =>
      have hall : Ready s g.now (updates.map Prod.fst ++ (g.schedules.drop bulkSize).map Prod.fst) :=
        hfst ▸ hids ▸ hready
      obtain ⟨hinv, hleft⟩ := h.1.fires hall hnext fun update hin => by
        have hrow : (update.1, update.2.1) ∈ g.schedules.take bulkSize := hrows ▸ List.mem_map_of_mem hin
        exact hcommit.1 _ hrow
      obtain ⟨htasks, hpublished, hclock⟩ := fires_frame g.now updates s
      have hput : Inv croniter ((updates.foldl (Scheduler.fire g.now) s).putTasks s.tasks.length
          (g.schedules.take bulkSize).length put) :=
        hinv.publish (hpublished ▸ h.1.messages) (by rw [htasks, hlength]) (putTasks_sublist _ 0)
      split
      · exact Kept.stop hinv
      · split
        · refine ⟨⟨hput.clock, hput.ids, hput.follows, hput.last, hput.times, hput.tasks, hput.own, hput.lastRun,
            hput.published, hput.messages⟩, fun g' hg' => ?_⟩
          obtain rfl := Option.some.inj hg'
          exact ⟨hleft.nodup, hleft.nonneg, hleft.le_clock, hleft.known, hleft.come⟩
        · exact Kept.stop hput
    · exact Kept.stop h.1

/-- The scheduler asks for the schedules that are due. -/
theorem Kept.query (h : Kept croniter s) {rows : List Schedule}
    (hrows : rows.Perm (s.schedules.filter (Due s.clock))) :
    Kept croniter { s with
      generation := if rows = [] then none
        else some ⟨s.clock, rows.map fun row => (row.id, row.crontab)⟩ } := by
  refine ⟨⟨h.1.clock, h.1.ids, h.1.follows, h.1.last, h.1.times, h.1.tasks, h.1.own, h.1.lastRun, h.1.published,
    h.1.messages⟩, fun g hg => ?_⟩
  obtain ⟨-, hg⟩ := Option.ite_none_left_eq_some.mp hg
  obtain rfl := Option.some.inj hg
  have hids : (rows.map fun row => (row.id, row.crontab)).map Prod.fst = rows.map Schedule.id := by
    rw [List.map_map]
    rfl
  have hdue : ∀ row ∈ rows, row ∈ s.schedules ∧ row.nextRun ≤ s.clock := fun row hrow => by
    obtain ⟨hin, hdue⟩ := List.mem_filter.mp (hrows.subset hrow)
    exact ⟨hin, (of_decide_eq_true hdue).1⟩
  rw [hids]
  refine ⟨(hrows.map Schedule.id).nodup_iff.mpr (h.1.ids.sublist ((List.filter_sublist).map _)), h.1.clock,
    le_rfl, fun id hid => ?_, fun row' hrow' hid => ?_⟩
  · obtain ⟨row, hrow, rfl⟩ := List.mem_map.mp hid
    exact h.1.exists_reckoning (hdue row hrow).1
  · obtain ⟨row, hrow, hsame⟩ := List.mem_map.mp hid
    rw [← List.inj_on_of_nodup_map h.1.ids (hdue row hrow).1 hrow' hsame]
    exact (hdue row hrow).2

/-- An event of the service or of a worker. -/
def Event.Outside : Event → Prop
  | .query _ => False
  | .bulk _ _ => False
  | .stop => False
  | _ => True

theorem Schedule.recrontab_id (id crontab : String) (row : Schedule) : (row.recrontab id crontab).id = row.id := by
  rw [Schedule.recrontab]
  split <;> rfl

/-- **What the service and the workers can do**: nothing, where something is refused, or one of these. -/
theorem effect_cases {e : Event} (he : e.Outside) (heffect : effect croniter s e = some s') :
    s' = s ∨
    (∃ row, (∀ r ∈ s.reckonings, r.schedule ≠ row.id) ∧ croniter.nextRun row.crontab s.clock = some row.nextRun ∧
      row.lastRun = 0 ∧ s' = s.withSchedule row) ∨
    (∃ id crontab, s' = { s with schedules := s.schedules.map (Schedule.recrontab id crontab) }) ∨
    (∃ id, e = .delete id ∧ s' = { s with
      schedules := s.schedules.filter fun row => row.id ≠ id
      tasks := s.tasks.map (unschedule id) }) ∨
    (∃ (tasks : List Task) (messages : List Body),
      messages.Sublist (newMessages s.clock s.tasks.length tasks.length) ∧
      s' = { s with tasks := s.tasks ++ tasks, published := s.published ++ messages }) ∨
    ∃ task state result commit, e = .editTask task state result commit ∧ s' = editTask s task state result := by
  cases e with
  | create c commit =>
    obtain ⟨hfresh, heffect⟩ := Option.ite_none_left_eq_some.mp heffect
    cases hcreate : create croniter s.schedules s.clock c with
    | error e =>
      rw [hcreate] at heffect
      exact Or.inl (Option.some.inj heffect).symm
    | ok row =>
      rw [hcreate] at heffect
      by_cases hcommit : commit = .refused
      · exact Or.inl (Option.some.inj ((if_pos hcommit).symm.trans heffect)).symm
      · obtain ⟨hid, hlast, hnext⟩ := create_eq_ok hcreate
        refine Or.inr (Or.inl ⟨row, fun r hr hrid => hfresh ⟨r, hr, hrid.trans hid⟩, hnext, hlast, ?_⟩)
        exact (Option.some.inj ((if_neg hcommit).symm.trans heffect)).symm
  | edit id crontab commit =>
    cases hedit : edit croniter s.schedules id crontab with
    | error e =>
      rw [effect, hedit] at heffect
      exact Or.inl (Option.some.inj heffect).symm
    | ok schedules =>
      rw [effect, hedit] at heffect
      obtain rfl := edit_eq_ok hedit
      by_cases hcommit : commit = .refused
      · exact Or.inl (Option.some.inj ((if_pos hcommit).symm.trans heffect)).symm
      · refine Or.inr (Or.inr (Or.inl ⟨id, crontab, ?_⟩))
        exact (Option.some.inj ((if_neg hcommit).symm.trans heffect)).symm
  | delete id => exact Or.inr (Or.inr (Or.inr (Or.inl ⟨id, rfl, (Option.some.inj heffect).symm⟩)))
  | createTasks payload commit put =>
    cases hcheck : payload.forM (checkTask s) with
    | error e =>
      rw [effect, hcheck] at heffect
      exact Or.inl (Option.some.inj heffect).symm
    | ok _ =>
      rw [effect, hcheck] at heffect
      by_cases hrefused : commit = .refused
      · exact Or.inl (Option.some.inj ((if_pos hrefused).symm.trans heffect)).symm
      · replace heffect := (if_neg hrefused).symm.trans heffect
        by_cases hbroken : commit = .broken
        · refine Or.inr (Or.inr (Or.inr (Or.inr (Or.inl ⟨payload.map fun t => { t with completedAt := none }, [],
            List.nil_sublist _, ?_⟩))))
          rw [List.append_nil]
          exact (Option.some.inj ((if_pos hbroken).symm.trans heffect)).symm
        · refine Or.inr (Or.inr (Or.inr (Or.inr (Or.inl ⟨payload.map fun t => { t with completedAt := none },
            Katara.putTasks put 0 (newMessages s.clock s.tasks.length payload.length), ?_, ?_⟩))))
          · rw [List.length_map]
            exact putTasks_sublist _ 0
          · exact (Option.some.inj ((if_neg hbroken).symm.trans heffect)).symm
  | editTask task state result commit =>
    by_cases hcommit : commit = .refused
    · exact Or.inl (Option.some.inj ((if_pos hcommit).symm.trans heffect)).symm
    · refine Or.inr (Or.inr (Or.inr (Or.inr (Or.inr ⟨task, state, result, commit, rfl, ?_⟩))))
      exact (Option.some.inj ((if_neg hcommit).symm.trans heffect)).symm
  | query rows => exact he.elim
  | bulk commit put => exact he.elim
  | stop => exact he.elim

/-- **What an event keeps.** -/
theorem Kept.effect (h : Kept croniter s) (e : Event) (heffect : effect croniter s e = some s') :
    Kept croniter s' := by
  by_cases he : e.Outside
  · rcases effect_cases he heffect with rfl | ⟨row, hnew, hnext, hlast, rfl⟩ | ⟨id, crontab, rfl⟩ | ⟨id, -, rfl⟩ |
      ⟨tasks, messages, hmessages, rfl⟩ | ⟨task, state, result, -, -, rfl⟩
    · exact h
    · refine ⟨h.1.withSchedule hnew hnext hlast, fun g hg => ?_⟩
      refine (h.2 g hg).of_rows (fun row' hrow' hin => ?_) le_rfl fun r hr => List.mem_append_left _ hr
      rcases List.mem_append.mp hrow' with hold | hnew'
      · exact ⟨row', hold, rfl, rfl⟩
      · obtain rfl := List.mem_singleton.mp hnew'
        obtain ⟨r, hr, hrid⟩ := (h.2 g hg).known _ hin
        exact absurd hrid (hnew r hr)
    · refine h.of_map fun row => ?_
      rw [Schedule.recrontab]
      split <;> exact ⟨rfl, rfl, rfl⟩
    · exact h.delete id
    · have hcommitted := h.withTasks tasks
      refine ⟨hcommitted.1.publish h.1.messages ?_ hmessages, fun g hg =>
        (hcommitted.2 g hg).of_rows (fun row hrow _ => ⟨row, hrow, rfl, rfl⟩) le_rfl fun _ hr => hr⟩
      show _ ≤ (s.tasks ++ tasks).length
      rw [List.length_append]
    · exact h.editTask task state result
  · cases e with
    | query rows =>
      obtain ⟨⟨-, hrows⟩, heffect⟩ := Option.ite_none_right_eq_some.mp heffect
      exact Option.some.inj heffect ▸ h.query hrows
    | bulk commit put =>
      obtain ⟨g, hg, rfl⟩ := Option.map_eq_some_iff.mp heffect
      exact h.bulk hg commit put
    | stop => exact Option.some.inj heffect ▸ Kept.stop h.1
    | _ => exact absurd trivial he

/-- Time goes on. -/
theorem Kept.later (h : Kept croniter s) (hle : s.clock ≤ now) : Kept croniter { s with clock := now } :=
  ⟨h.1.later hle, fun g hg =>
    (h.2 g hg).of_rows (fun row hrow _ => ⟨row, hrow, rfl, rfl⟩) hle fun _ hr => hr⟩

/-- **What a step keeps.** -/
theorem Kept.step (h : Kept croniter s) (e : ℤ × Event) (hstep : step croniter s e = some s') :
    Kept croniter s' := by
  obtain ⟨hle, hstep⟩ := Option.ite_none_right_eq_some.mp hstep
  exact (h.later hle).effect e.2 hstep

/-- **What is kept in any run.** -/
theorem kept_of_run {es : List (ℤ × Event)} (h : Run.run (step croniter) initial es = some s) :
    Kept croniter s :=
  Run.run_keeps (fun e _ _ _ hstep h => Kept.step h e hstep) ⟨inv_initial, fun _ hg => by cases hg⟩ h

/-! ## Run once -/

/-- Every five minutes. -/
def everyFiveMinutes : Croniter where
  accepts crontab := crontab = "*/5 * * * *"
  Names _ m := 300 ∣ m
  getNext _ base := some ((base / 300 + 1) * 300)
  isLeast {crontab base next} h := by
    obtain rfl := Option.some.inj h
    refine ⟨⟨Dvd.intro_left _ rfl, by omega⟩, fun m hm => ?_⟩
    obtain ⟨⟨k, rfl⟩, hlt⟩ := hm
    omega

/-- A schedule. -/
def memberSchedule : Schedule := ⟨"s", "report", "recipient", "*/5 * * * *", 10, 0, 300⟩

/-- A schedule is created; its first task gets no message; its second one is completed in the second of its
next run. -/
def twoTasks : List (ℤ × Event) :=
  [(10, .create ⟨"s", "report", "recipient", "*/5 * * * *", true, true⟩ .done),
    (301, .query [memberSchedule]), (301, .bulk .done fun _ => .refused),
    (1000, .query [{ memberSchedule with nextRun := 600 }]), (1001, .bulk .done fun _ => .done),
    (1200, .editTask 1 (some .completed) none .done)]

end Katara.Scheduler
