import OptScale.Katara.Fired

/-!
# Katara/Generations — a run of `generate_tasks`, from its query to its end

The schedules that are due when a run begins are cut into bulks, and between two of these the service and
the workers go on.  **A run that no bulk of fails serves them all**: each gets one task, with one message,
and a next run after the instant the run began at; the other schedules get none.

A schedule is not due when its last run is its next one.  **Such a schedule is passed over**: once a task
of it is completed in the very second of its next run, no run of the scheduler gives it another one.
-/

namespace Katara.Scheduler

open Session

variable {croniter : Croniter} {s₀ s s' : State} {id : String} {now : ℤ} {ids : List String}
  {update : String × String × ℤ} {updates : List (String × String × ℤ)} {rows done : List (String × String)}

/-! ## Statements -/

/-- The schedules that are left to the run on its way, each with its crontab. -/
def State.left (s : State) : List (String × String) := s.generation.elim [] Generation.schedules

/-- **Nothing goes wrong** for a run with these schedules: no bulk fails, none of them is deleted, and the
scheduler is neither stopped nor started anew. -/
def Event.Smooth (ids : List String) : Event → Prop
  | .bulk commit put => commit = .done ∧ ∀ i, put i = .done
  | .delete id => id ∉ ids
  | .query _ => False
  | .stop => False
  | _ => True

/-- It is a bulk. -/
def Event.isBulk : Event → Bool
  | .bulk _ _ => true
  | _ => false

/-- How many bulks there are. -/
def bulks (es : List (ℤ × Event)) : ℕ := es.countP fun e => e.2.isBulk

/-- **A schedule has got a task** since a state, at an instant, and the task a message. -/
def Served (s₀ s : State) (now : ℤ) (row : String × String) : Prop :=
  ∃ due k, s.reckoningsOf row.1 = s₀.reckoningsOf row.1 ++ [⟨row.1, row.2, now, some (due, k)⟩] ∧
    (∃ t : Task, s.tasks[k]? = some t ∧ t.scheduleId = some row.1) ∧ ∃ b ∈ s.published, b.taskId = k

/-- **A run on its way**: the schedules it has got to are served, and the others are as they were when it
began. -/
structure Underway (s₀ s : State) (now : ℤ) (rows done : List (String × String)) : Prop where
  parts : done ++ s.left = rows
  busy : ∀ g, s.generation = some g → g.schedules ≠ []
  began : ∀ g, s.generation = some g → g.now = now
  there : ∀ row ∈ rows, ∃ r ∈ s.schedules, r.id = row.1
  served : ∀ row ∈ done, Served s₀ s now row
  waiting : ∀ id, (∃ r ∈ s₀.reckonings, r.schedule = id) → id ∉ done.map Prod.fst →
    s.reckoningsOf id = s₀.reckoningsOf id

/-! ## What happens between the bulks -/

/-- **What an event leaves to the run on its way**, whose schedules these are. -/
structure Untouched (ids : List String) (s s' : State) : Prop where
  generation : s'.generation = s.generation
  reckoningsOf : ∀ id, (∃ r ∈ s.reckonings, r.schedule = id) → s'.reckoningsOf id = s.reckoningsOf id
  there : ∀ id ∈ ids, (∃ row ∈ s.schedules, row.id = id) → ∃ row ∈ s'.schedules, row.id = id
  tasks : ∀ id ∈ ids, ∀ k : ℕ, (∃ t : Task, s.tasks[k]? = some t ∧ t.scheduleId = some id) →
    ∃ t : Task, s'.tasks[k]? = some t ∧ t.scheduleId = some id
  published : ∀ b ∈ s.published, b ∈ s'.published

theorem Untouched.refl (ids : List String) (s : State) : Untouched ids s s :=
  ⟨rfl, fun _ _ => rfl, fun _ _ h => h, fun _ _ _ h => h, fun _ h => h⟩

/-- Rows that keep their ids. -/
theorem Untouched.of_map {f : Schedule → Schedule} (hf : ∀ row, (f row).id = row.id) :
    Untouched ids s { s with schedules := s.schedules.map f } := by
  refine ⟨rfl, fun _ _ => rfl, fun id _ hrow => ?_, fun _ _ _ h => h, fun _ h => h⟩
  obtain ⟨row, hrow, rfl⟩ := hrow
  exact ⟨f row, List.mem_map_of_mem hrow, hf row⟩

theorem Untouched.withSchedule {row : Schedule} (hfresh : ∀ r ∈ s.reckonings, r.schedule ≠ row.id) :
    Untouched ids s (s.withSchedule row) := by
  refine ⟨rfl, fun id hid => ?_, fun id _ hrow => ?_, fun _ _ _ h => h, fun _ h => h⟩
  · obtain ⟨r, hr, rfl⟩ := hid
    rw [State.withSchedule, reckoningsOf_append rfl, if_neg (hfresh r hr).symm, List.append_nil]
  · obtain ⟨row', hrow', hid⟩ := hrow
    exact ⟨row', List.mem_append_left _ hrow', hid⟩

/-- Another schedule is deleted. -/
theorem Untouched.delete (hid : id ∉ ids) :
    Untouched ids s { s with
      schedules := s.schedules.filter fun row => row.id ≠ id
      tasks := s.tasks.map (unschedule id) } := by
  have hother : ∀ id' ∈ ids, id' ≠ id := fun id' hin heq => hid (heq ▸ hin)
  refine ⟨rfl, fun _ _ => rfl, fun id' hin hrow => ?_, fun id' hin k ht => ?_, fun _ h => h⟩
  · obtain ⟨row, hrow, rfl⟩ := hrow
    exact ⟨row, List.mem_filter.mpr ⟨hrow, decide_eq_true (hother row.id hin)⟩, rfl⟩
  · obtain ⟨t, ht, hwhose⟩ := ht
    refine ⟨unschedule id t, List.getElem?_map .. ▸ congrArg _ ht, ?_⟩
    rw [unschedule, if_neg fun h => hother id' hin (Option.some.inj (hwhose.symm.trans h))]
    exact hwhose

/-- Tasks are created, and messages put on the queue. -/
theorem Untouched.withTasks (tasks : List Task) (messages : List Body) :
    Untouched ids s { s with tasks := s.tasks ++ tasks, published := s.published ++ messages } := by
  refine ⟨rfl, fun _ _ => rfl, fun _ _ h => h, fun id _ k ht => ?_, fun _ h => List.mem_append_left _ h⟩
  obtain ⟨t, ht, hwhose⟩ := ht
  exact ⟨t, (List.getElem?_append_left (List.getElem?_eq_some_iff.mp ht).1).trans ht, hwhose⟩

theorem Untouched.trans {s'' : State} (h : Untouched ids s s') (h' : Untouched ids s' s'') :
    Untouched ids s s'' where
  generation := h'.generation.trans h.generation
  reckoningsOf id hid := by
    obtain ⟨r, hr, rfl⟩ := hid
    have hsame := h.reckoningsOf r.schedule ⟨r, hr, rfl⟩
    have hr' : r ∈ s'.reckoningsOf r.schedule := hsame ▸ mem_reckoningsOf.mpr ⟨hr, rfl⟩
    exact (h'.reckoningsOf r.schedule ⟨r, (mem_reckoningsOf.mp hr').1, rfl⟩).trans hsame
  there id hid hrow := h'.there id hid (h.there id hid hrow)
  tasks id hid k ht := h'.tasks id hid k (h.tasks id hid k ht)
  published b hb := h'.published b (h.published b hb)

/-- A task is edited, and its schedule's last run set. -/
theorem Untouched.editTask (task : ℕ) (state : Option TaskState) (result : Option Result) :
    Untouched ids s (editTask s task state result) := by
  rw [Scheduler.editTask]
  cases htask : s.tasks[task]? with
  | none => exact Untouched.refl ids s
  | some t =>
    have htasks : Untouched ids s { s with
        tasks := s.tasks.modify task (Task.edit s.clock (editedState state t) result) } := by
      refine ⟨rfl, fun _ _ => rfl, fun _ _ h => h, fun id _ k ht => ?_, fun _ h => h⟩
      obtain ⟨t₀, ht₀, hwhose⟩ := ht
      refine ⟨_, getElem?_edited ht₀, ?_⟩
      split
      · exact hwhose
      · exact hwhose
    by_cases hcompleted : editedState state t = .completed
    · simp only [if_pos hcompleted]
      exact htasks.trans (Untouched.of_map (Schedule.ranFor_id t s.clock))
    · simp only [if_neg hcompleted]
      exact htasks

theorem Event.Smooth.bulk_or_outside {e : Event} (h : e.Smooth ids) :
    (∃ put, e = .bulk .done put ∧ ∀ i, put i = .done) ∨ e.Outside := by
  cases e with
  | bulk commit put =>
    obtain ⟨rfl, hput⟩ := h
    exact Or.inl ⟨put, rfl, hput⟩
  | query rows => exact h.elim
  | stop => exact h.elim
  | _ => exact Or.inr trivial

theorem Event.Outside.not_bulk {e : Event} (he : e.Outside) : ¬ e.isBulk = true := by
  cases e with
  | bulk commit put => exact he.elim
  | _ => exact Bool.false_ne_true

/-- **An event that is not a bulk** leaves everything to the run on its way. -/
theorem Untouched.effect {e : Event} (hsmooth : e.Smooth ids) (he : e.Outside)
    (heffect : effect croniter s e = some s') : Untouched ids s s' := by
  rcases effect_cases he heffect with rfl | ⟨row, hfresh, -, -, rfl⟩ | ⟨id, crontab, rfl⟩ |
    ⟨id, rfl, rfl⟩ | ⟨tasks, messages, -, rfl⟩ | ⟨task, state, result, commit, -, rfl⟩
  · exact Untouched.refl ids s'
  · exact Untouched.withSchedule hfresh
  · exact Untouched.of_map (Schedule.recrontab_id id crontab)
  · exact Untouched.delete hsmooth
  · exact Untouched.withTasks tasks messages
  · exact Untouched.editTask task state result

/-- What happened before the run is not forgotten. -/
theorem Underway.known (h : Underway s₀ s now rows done) {r : Reckoning} (hr : r ∈ s₀.reckonings) :
    r ∈ s.reckonings := by
  have hr' : r ∈ s₀.reckoningsOf r.schedule := mem_reckoningsOf.mpr ⟨hr, rfl⟩
  by_cases hid : r.schedule ∈ done.map Prod.fst
  · obtain ⟨row, hrow, hrid⟩ := List.mem_map.mp hid
    obtain ⟨due, k, hreckonings, -⟩ := h.served row hrow
    have hin : r ∈ s.reckoningsOf row.1 := hreckonings ▸ List.mem_append_left _ (hrid ▸ hr')
    exact (mem_reckoningsOf.mp hin).1
  · rw [← h.waiting _ ⟨r, hr, rfl⟩ hid] at hr'
    exact (mem_reckoningsOf.mp hr').1

/-- **The run goes on** after such an event. -/
theorem Underway.frame (h : Underway s₀ s now rows done) (hframe : Untouched (rows.map Prod.fst) s s') :
    Underway s₀ s' now rows done := by
  have hids : ∀ row ∈ rows, row.1 ∈ rows.map Prod.fst := fun row hrow => List.mem_map_of_mem hrow
  refine ⟨?_, fun g hg => h.busy g (hframe.generation ▸ hg), fun g hg => h.began g (hframe.generation ▸ hg),
    fun row hrow => hframe.there row.1 (hids row hrow) (h.there row hrow), fun row hrow => ?_,
    fun id hid hout => ?_⟩
  · rw [State.left, hframe.generation]
    exact h.parts
  · obtain ⟨due, k, hreckonings, htask, b, hb, hbk⟩ := h.served row hrow
    have hin : row ∈ rows := h.parts ▸ List.mem_append_left _ hrow
    refine ⟨due, k, ?_, hframe.tasks row.1 (hids row hin) k htask, b, hframe.published b hb, hbk⟩
    have hlast : ⟨row.1, row.2, now, some (due, k)⟩ ∈ s.reckoningsOf row.1 :=
      hreckonings ▸ List.mem_append_right _ (List.mem_singleton_self _)
    exact (hframe.reckoningsOf row.1 ⟨_, mem_reckoningsOf.mp hlast⟩).trans hreckonings
  · obtain ⟨r, hr, hrid⟩ := hid
    exact (hframe.reckoningsOf id ⟨r, h.known hr, hrid⟩).trans (h.waiting id ⟨r, hr, hrid⟩ hout)

/-! ## The bulks -/

variable (now) in
/-- A schedule that is not in a bulk is left alone by it. -/
theorem fires_reckoningsOf (updates : List (String × String × ℤ)) : ∀ s : State,
    id ∉ updates.map Prod.fst →
      (updates.foldl (fire now) s).reckoningsOf id = s.reckoningsOf id := by
  induction updates with
  | nil => exact fun _ _ => rfl
  | cons update updates ih =>
    intro s hid
    rw [List.map_cons, List.mem_cons, not_or] at hid
    obtain ⟨hne, hid⟩ := hid
    refine (ih _ hid).trans ?_
    rw [reckoningsOf_append rfl, if_neg (Ne.symm hne), List.append_nil]

/-- The tasks of a bulk. -/
theorem fires_tasks (updates : List (String × String × ℤ)) : ∀ s : State,
    (updates.foldl (fire now) s).tasks = s.tasks ++ updates.map fun update => scheduledTask update.1 := by
  induction updates with
  | nil => exact fun s => (List.append_nil s.tasks).symm
  | cons update updates ih =>
    intro s
    refine (ih _).trans ?_
    rw [fire, List.append_assoc]
    rfl

theorem mem_schedules_fires (updates : List (String × String × ℤ)) : ∀ {s : State},
    (∃ row ∈ s.schedules, row.id = id) →
      ∃ row ∈ (updates.foldl (fire now) s).schedules, row.id = id := by
  induction updates with
  | nil => exact fun h => h
  | cons update updates ih => exact fun h => ih (mem_schedules_fire h)

/-- **Each schedule of a bulk gets its task.** -/
theorem fires_served (h : Inv croniter s) (hready : Ready s now (updates.map Prod.fst ++ ids))
    (hnext : ∀ update ∈ updates, croniter.nextRun update.2.1 now = some update.2.2)
    (hthere : ∀ update ∈ updates, ∃ row ∈ s.schedules, row.id = update.1) :
    ∀ update ∈ updates, ∃ due k, s.tasks.length ≤ k ∧ k < s.tasks.length + updates.length ∧
      (updates.foldl (fire now) s).reckoningsOf update.1 =
        s.reckoningsOf update.1 ++ [⟨update.1, update.2.1, now, some (due, k)⟩] ∧
      ∃ t : Task, (updates.foldl (fire now) s).tasks[k]? = some t ∧ t.scheduleId = some update.1 := by
  induction updates generalizing s with
  | nil => exact fun _ hin => absurd hin List.not_mem_nil
  | cons first updates ih =>
    obtain ⟨hout, -⟩ := List.nodup_cons.mp hready.nodup
    have hfirst : first.1 ∉ updates.map Prod.fst := fun hin => hout (List.mem_append_left _ hin)
    have hrow := hthere first (List.mem_cons_self ..)
    intro update hin
    rcases List.mem_cons.mp hin with rfl | hin
    · obtain ⟨id, crontab, next⟩ := update
      obtain ⟨row, hrow, rfl⟩ := hrow
      refine ⟨row.nextRun, s.tasks.length, le_rfl, ?_, ?_, scheduledTask row.id, ?_, rfl⟩
      · rw [List.length_cons]
        omega
      · rw [List.foldl_cons, fires_reckoningsOf now updates _ hfirst, h.fire_eq hrow, reckoningsOf_append rfl,
          if_pos rfl]
      · rw [fires_tasks, List.map_cons, List.getElem?_append_right le_rfl, Nat.sub_self]
        rfl
    · obtain ⟨due, k, hle, hlt, hreckonings, htask⟩ := ih
        (h.fire hready (hnext first (List.mem_cons_self ..)) hrow) (hready.fire h hrow)
        (fun update' hin' => hnext update' (List.mem_cons_of_mem _ hin'))
        (fun update' hin' => mem_schedules_fire (hthere update' (List.mem_cons_of_mem _ hin'))) update hin
      have hlength : (fire now s first).tasks.length = s.tasks.length + 1 := by
        rw [fire, List.length_append]
        rfl
      have hne : first.1 ≠ update.1 := fun heq => hfirst (heq ▸ List.mem_map_of_mem hin)
      rw [hlength] at hle hlt
      refine ⟨due, k, by omega, by rw [List.length_cons]; omega, hreckonings.trans ?_, htask⟩
      rw [fire, reckoningsOf_append rfl, if_neg hne, List.append_nil]

/-- The next runs of a bulk are found. -/
theorem exists_schedulesUpdates {bulk : List (String × String)}
    (h : ∀ row ∈ bulk, (croniter.nextRun row.2 now).isSome) :
    ∃ updates, schedulesUpdates croniter now bulk = some updates := by
  induction bulk with
  | nil => exact ⟨[], rfl⟩
  | cons row bulk ih =>
    obtain ⟨next, hnext⟩ := Option.isSome_iff_exists.mp (h row (List.mem_cons_self ..))
    obtain ⟨updates, hupdates⟩ := ih fun row' hin => h row' (List.mem_cons_of_mem _ hin)
    refine ⟨(row.1, row.2, next) :: updates, ?_⟩
    rw [schedulesUpdates] at hupdates ⊢
    rw [List.mapM_cons, hnext, hupdates]
    rfl

/-- All the messages get on the queue. -/
theorem putTasks_of_done {put : ℕ → Call} (hput : ∀ i, put i = .done) (messages : List Body) : ∀ i,
    Katara.putTasks put i messages = messages := by
  induction messages with
  | nil => exact fun _ => rfl
  | cons m messages ih =>
    intro i
    rw [Katara.putTasks, hput i]
    exact congrArg _ (ih (i + 1))

/-- **A bulk that does not fail.** -/
theorem bulk_of_done {g : Generation} {put : ℕ → Call} (hput : ∀ i, put i = .done)
    (hupdates : schedulesUpdates croniter g.now (g.schedules.take bulkSize) = some updates)
    (hthere : AllThere s (g.schedules.take bulkSize)) :
    bulk croniter s g .done put =
      { updates.foldl (fire g.now) s with
        published := (updates.foldl (fire g.now) s).published ++
          newMessages (updates.foldl (fire g.now) s).clock s.tasks.length (g.schedules.take bulkSize).length
        generation := if g.schedules.drop bulkSize ≠ [] then some ⟨g.now, g.schedules.drop bulkSize⟩
          else none } := by
  have hall : ∀ n, allDone put n := fun n => List.all_eq_true.mpr fun i _ => decide_eq_true (hput i)
  have hcommit : AllThere s (g.schedules.take bulkSize) ∧ Call.done ≠ .refused := ⟨hthere, by decide⟩
  have hunbroken : ¬ Call.done = .broken := by decide
  rw [bulk, hupdates]
  simp only [if_pos hcommit, if_neg hunbroken, State.putTasks, putTasks_of_done hput, hall, true_and]
  split
  · rfl
  · rfl

/-- What it leaves to the run. -/
theorem left_bulk_of_done {g : Generation} {put : ℕ → Call} (hput : ∀ i, put i = .done)
    (hupdates : schedulesUpdates croniter g.now (g.schedules.take bulkSize) = some updates)
    (hthere : AllThere s (g.schedules.take bulkSize)) :
    (bulk croniter s g .done put).left = g.schedules.drop bulkSize := by
  rw [bulk_of_done hput hupdates hthere]
  by_cases hdrop : g.schedules.drop bulkSize = []
  · simp only [State.left, hdrop, ne_eq, not_true_eq_false, if_false, Option.elim_none]
  · simp only [State.left, hdrop, ne_eq, not_false_eq_true, if_true, Option.elim_some]

/-- **A bulk serves its schedules**, and leaves the others. -/
theorem Underway.bulk (h : Underway s₀ s now rows done) (hkept : Kept croniter s)
    (hknown : ∀ row ∈ rows, ∃ r ∈ s₀.reckonings, r.schedule = row.1) (hnodup : (rows.map Prod.fst).Nodup)
    (hfinds : ∀ row ∈ rows, (croniter.nextRun row.2 now).isSome) {g : Generation}
    (hg : s.generation = some g) {put : ℕ → Call} (hput : ∀ i, put i = .done) :
    Underway s₀ (bulk croniter s g .done put) now rows (done ++ g.schedules.take bulkSize) ∧
      (Scheduler.bulk croniter s g .done put).left = s.left.drop bulkSize := by
  obtain rfl := h.began g hg
  have hleft : s.left = g.schedules.take bulkSize ++ g.schedules.drop bulkSize := by
    rw [State.left, hg, List.take_append_drop]
    rfl
  have hparts := h.parts
  rw [hleft, ← List.append_assoc] at hparts
  have hmem : ∀ row ∈ g.schedules.take bulkSize, row ∈ rows := fun row hrow =>
    hparts ▸ List.mem_append_left _ (List.mem_append_right _ hrow)
  obtain ⟨updates, hupdates⟩ := exists_schedulesUpdates fun row hrow => hfinds row (hmem row hrow)
  obtain ⟨hrows, hnext⟩ := schedulesUpdates_eq_some hupdates
  have hids : updates.map Prod.fst = (g.schedules.take bulkSize).map Prod.fst := by
    rw [← hrows, List.map_map]
    rfl
  have hlength : updates.length = (g.schedules.take bulkSize).length := by
    rw [← hrows, List.length_map]
  have hthere : AllThere s (g.schedules.take bulkSize) := fun row hrow => h.there row (hmem row hrow)
  have hapart : ∀ row ∈ done, row.1 ∉ updates.map Prod.fst := fun row hrow hin => by
    rw [← hparts, List.map_append, List.map_append] at hnodup
    exact List.disjoint_of_nodup_append (List.nodup_append.mp hnodup).1 (List.mem_map_of_mem hrow) (hids ▸ hin)
  have hready : Ready s g.now (updates.map Prod.fst ++ (g.schedules.drop bulkSize).map Prod.fst) := by
    rw [hids, ← List.map_append, List.take_append_drop]
    exact hkept.2 g hg
  have hfires := fires_served hkept.1 hready hnext fun update hin =>
    hthere (update.1, update.2.1) (hrows ▸ List.mem_map_of_mem hin)
  have hpublished := (fires_frame g.now updates s).2.1
  have hrest := left_bulk_of_done hput hupdates hthere
  have hfirst : g.schedules.drop bulkSize = s.left.drop bulkSize := by
    rw [State.left, hg]
    rfl
  rw [← hrest] at hparts
  refine ⟨?_, hrest.trans hfirst⟩
  rw [bulk_of_done hput hupdates hthere] at hparts ⊢
  refine ⟨hparts, fun g' hg' => ?_, fun g' hg' => ?_,
    fun row hrow => mem_schedules_fires updates (h.there row hrow), fun row hrow => ?_, fun id hid hout => ?_⟩
  · obtain ⟨hdrop, hg'⟩ := Option.ite_none_right_eq_some.mp hg'
    obtain rfl := Option.some.inj hg'
    exact hdrop
  · obtain ⟨-, hg'⟩ := Option.ite_none_right_eq_some.mp hg'
    obtain rfl := Option.some.inj hg'
    rfl
  · rcases List.mem_append.mp hrow with hold | hnew
    · obtain ⟨due, k, hreckonings, ⟨t, ht, hwhose⟩, b, hb, hbk⟩ := h.served row hold
      have hsame := fires_reckoningsOf g.now updates s (hapart row hold)
      refine ⟨due, k, hsame.trans hreckonings, ⟨t, ?_, hwhose⟩, b, ?_, hbk⟩
      · show (updates.foldl (fire g.now) s).tasks[k]? = some t
        rw [fires_tasks]
        exact (List.getElem?_append_left (List.getElem?_eq_some_iff.mp ht).1).trans ht
      · exact List.mem_append_left _ (hpublished ▸ hb)
    · obtain ⟨update, hin, rfl⟩ := List.mem_map.mp (hrows ▸ hnew)
      obtain ⟨due, k, hle, hlt, hreckonings, htask⟩ := hfires update hin
      have hwaited : update.1 ∉ done.map Prod.fst := fun hdone => by
        obtain ⟨row, hrow, hrid⟩ := List.mem_map.mp hdone
        exact hapart row hrow (hrid ▸ List.mem_map_of_mem hin)
      refine ⟨due, k, hreckonings.trans ?_, htask, ⟨k, (updates.foldl (fire g.now) s).clock, 0, false⟩,
        List.mem_append_right _ ?_, rfl⟩
      · rw [h.waiting update.1 (hknown _ (hmem _ hnew)) hwaited]
      · exact List.mem_map_of_mem (List.mem_range'_1.mpr ⟨hle, hlength ▸ hlt⟩)
  · rw [List.map_append, List.mem_append, not_or] at hout
    exact (fires_reckoningsOf g.now updates s (hids ▸ hout.2)).trans (h.waiting id hid hout.1)

/-! ## Runs -/

/-- The run is over when no schedule is left to it. -/
theorem Underway.over_iff (h : Underway s₀ s now rows done) : s.generation = none ↔ s.left = [] := by
  refine ⟨fun hover => congrArg (fun g => g.elim [] Generation.schedules) hover, fun hleft => ?_⟩
  cases hg : s.generation with
  | none => rfl
  | some g =>
    rw [State.left, hg] at hleft
    exact absurd hleft (h.busy g hg)

/-- **What a step leaves of a run on its way**, when nothing goes wrong. -/
theorem Underway.step (h : Underway s₀ s now rows done) (hkept : Kept croniter s)
    (hknown : ∀ row ∈ rows, ∃ r ∈ s₀.reckonings, r.schedule = row.1) (hnodup : (rows.map Prod.fst).Nodup)
    (hfinds : ∀ row ∈ rows, (croniter.nextRun row.2 now).isSome) (e : ℤ × Event)
    (hsmooth : e.2.Smooth (rows.map Prod.fst)) (hstep : step croniter s e = some s') :
    ∃ done, Underway s₀ s' now rows done ∧ s'.left = s.left.drop (bulkSize * bulks [e]) := by
  obtain ⟨hle, heffect⟩ := Option.ite_none_right_eq_some.mp hstep
  have hlater : Underway s₀ { s with clock := e.1 } now rows done :=
    ⟨h.parts, h.busy, h.began, h.there, h.served, h.waiting⟩
  rcases hsmooth.bulk_or_outside with ⟨put, he, hput⟩ | he
  · have hone : bulks [e] = 1 := List.countP_eq_length.mpr fun e' he' => by
      rw [List.mem_singleton.mp he', he]
      rfl
    rw [he] at heffect
    obtain ⟨g, hg, rfl⟩ := Option.map_eq_some_iff.mp heffect
    rw [hone, Nat.mul_one]
    exact ⟨_, hlater.bulk (hkept.later hle) hknown hnodup hfinds hg hput⟩
  · have hnone : bulks [e] = 0 := List.countP_eq_zero.mpr fun e' he' => by
      rw [List.mem_singleton.mp he']
      exact he.not_bulk
    have huntouched := Untouched.effect hsmooth he heffect
    refine ⟨done, hlater.frame huntouched, ?_⟩
    rw [hnone, Nat.mul_zero, List.drop_zero, State.left, huntouched.generation]
    rfl

/-- **What events leave of a run on its way**, when nothing goes wrong: each bulk takes the next schedules. -/
theorem Underway.run (hknown : ∀ row ∈ rows, ∃ r ∈ s₀.reckonings, r.schedule = row.1)
    (hnodup : (rows.map Prod.fst).Nodup) (hfinds : ∀ row ∈ rows, (croniter.nextRun row.2 now).isSome)
    {es : List (ℤ × Event)} : ∀ {s : State} {done : List (String × String)},
      (∀ e ∈ es, e.2.Smooth (rows.map Prod.fst)) → Underway s₀ s now rows done → Kept croniter s →
      Run.run (Scheduler.step croniter) s es = some s' →
      ∃ done, Underway s₀ s' now rows done ∧ s'.left = s.left.drop (bulkSize * bulks es) := by
  induction es with
  | nil =>
    intro s done _ h _ hrun
    obtain rfl := Option.some.inj hrun
    exact ⟨done, h, rfl⟩
  | cons e es ih =>
    intro s done hsmooth h hkept hrun
    obtain ⟨t, hstep, hrun⟩ := Option.bind_eq_some_iff.mp hrun
    obtain ⟨done', hunder, hleft⟩ :=
      h.step hkept hknown hnodup hfinds e (hsmooth e (List.mem_cons_self ..)) hstep
    obtain ⟨done'', hunder', hleft'⟩ := ih (fun e' he' => hsmooth e' (List.mem_cons_of_mem _ he')) hunder
      (hkept.step e hstep) hrun
    have hbulks : bulks (e :: es) = bulks [e] + bulks es := by
      rw [bulks, bulks, bulks, ← List.countP_append, List.singleton_append]
    refine ⟨done'', hunder', hleft'.trans ?_⟩
    rw [hleft, List.drop_drop, hbulks, Nat.mul_add]

/-- **Each schedule that was due is served**: it gets one task, for its next run, with one message, and is to
be run next at the first instant after this one that its crontab names; the others get none. -/
def ServesDue (croniter : Croniter) (s s' : State) (now : ℤ) : Prop :=
  ∀ row ∈ s.schedules,
    (Due now row → ∃ k,
      s'.reckoningsOf row.id = s.reckoningsOf row.id ++ [⟨row.id, row.crontab, now, some (row.nextRun, k)⟩] ∧
      (∃ t : Task, s'.tasks[k]? = some t ∧ t.scheduleId = some row.id) ∧
      (∃! b, b ∈ s'.published ∧ b.taskId = k) ∧
      ∃ row' ∈ s'.schedules, row'.id = row.id ∧
        IsLeast {m | croniter.Names row.crontab m ∧ now < m} row'.nextRun) ∧
    (¬ Due now row → s'.reckoningsOf row.id = s.reckoningsOf row.id)

/-- The query of a run. -/
theorem Underway.start {rows : List Schedule}
    (hquery : Scheduler.step croniter s (now, .query rows) = some s') :
    Underway s s' now (rows.map fun row => (row.id, row.crontab)) [] ∧
      ∀ row, row ∈ rows ↔ row ∈ s.schedules ∧ Due now row := by
  obtain ⟨-, heffect⟩ := Option.ite_none_right_eq_some.mp hquery
  obtain ⟨⟨-, hrows⟩, heffect⟩ := Option.ite_none_right_eq_some.mp heffect
  obtain rfl := Option.some.inj heffect
  have hdue : ∀ row, row ∈ rows ↔ row ∈ s.schedules ∧ Due now row := fun row =>
    hrows.mem_iff.trans (List.mem_filter.trans (and_congr_right' decide_eq_true_iff))
  refine ⟨⟨?_, fun g hg => ?_, fun g hg => ?_, fun row hrow => ?_, fun _ hin => absurd hin List.not_mem_nil,
    fun _ _ _ => rfl⟩, hdue⟩
  · by_cases hempty : rows = []
    · simp only [State.left, hempty, if_true, Option.elim_none, List.map_nil, List.append_nil]
    · simp only [State.left, hempty, if_false, Option.elim_some, List.nil_append]
  · obtain ⟨hempty, hg⟩ := Option.ite_none_left_eq_some.mp hg
    obtain rfl := Option.some.inj hg
    exact fun hnil => hempty (List.map_eq_nil_iff.mp hnil)
  · obtain ⟨-, hg⟩ := Option.ite_none_left_eq_some.mp hg
    obtain rfl := Option.some.inj hg
    rfl
  · obtain ⟨row, hin, rfl⟩ := List.mem_map.mp hrow
    exact ⟨row, ((hdue row).mp hin).1, rfl⟩

/-- **A run that is over has served them all.** -/
theorem Underway.servesDue {rows : List Schedule}
    (h : Underway s s' now (rows.map fun row => (row.id, row.crontab)) done)
    (hkept : Kept croniter s) (hkept' : Kept croniter s')
    (hdue : ∀ row, row ∈ rows ↔ row ∈ s.schedules ∧ Due now row) (hover : s'.generation = none) :
    ServesDue croniter s s' now := by
  have hparts := h.parts
  rw [State.left, hover, Option.elim_none, List.append_nil] at hparts
  subst hparts
  refine fun row hrow => ⟨fun hcome => ?_,
    fun hnot => h.waiting row.id (hkept.1.exists_reckoning hrow) fun hin => ?_⟩
  · have hin : (row.id, row.crontab) ∈ rows.map fun row => (row.id, row.crontab) :=
      List.mem_map_of_mem ((hdue row).mpr ⟨hrow, hcome⟩)
    obtain ⟨due, k, hreckonings, htask, b, hb, hbk⟩ := h.served _ hin
    have hfor : due = row.nextRun := by
      obtain ⟨r, hr, hnext⟩ := hkept.1.last row hrow
      have hchain := hkept'.1.follows row.id
      rw [hreckonings] at hchain
      obtain ⟨due', task, hfired, hnext', -⟩ := (List.isChain_append.mp hchain).2.2 r hr _ rfl
      have hsame := Option.some.inj hfired
      exact (congrArg Prod.fst hsame).trans (Option.some.inj (hnext'.symm.trans hnext))
    subst hfor
    refine ⟨k, hreckonings, htask, ⟨b, ⟨hb, hbk⟩, fun b' hb' => ?_⟩, ?_⟩
    · exact List.inj_on_of_nodup_map (hkept'.1.published.imp Nat.ne_of_lt) hb'.1 hb (hb'.2.trans hbk.symm)
    · obtain ⟨row', hrow', hid⟩ := h.there _ hin
      obtain ⟨r, hr, hnext⟩ := hkept'.1.last row' hrow'
      rw [hid, hreckonings, List.getLast?_concat] at hr
      obtain rfl := Option.some.inj hr
      exact ⟨row', hrow', hid, croniter.nextRun_isLeast hnext⟩
  · rw [List.map_map] at hin
    obtain ⟨row', hrow', hid⟩ := List.mem_map.mp hin
    obtain ⟨hthere, hcome⟩ := (hdue row').mp hrow'
    exact hnot (List.inj_on_of_nodup_map hkept.1.ids hthere hrow hid ▸ hcome)

/-- **A run of the scheduler serves the schedules that are due**, whatever the service and the workers do
between its bulks, if none of the bulks fails: it is over when there were enough bulks for them, and then they
are served. -/
theorem generation_serves_due {before es : List (ℤ × Event)} {rows : List Schedule} {s₁ : State}
    (hbefore : Run.run (step croniter) initial before = some s)
    (hquery : step croniter s (now, .query rows) = some s₁)
    (hfinds : ∀ row ∈ rows, (croniter.nextRun row.crontab now).isSome)
    (hrun : Run.run (step croniter) s₁ es = some s')
    (hsmooth : ∀ e ∈ es, e.2.Smooth (rows.map Schedule.id)) :
    (s'.generation = none ↔ rows.length ≤ bulkSize * bulks es) ∧
      (s'.generation = none → ServesDue croniter s s' now) := by
  have hkept := kept_of_run hbefore
  have hkept₁ : Kept croniter s₁ := hkept.step _ hquery
  obtain ⟨hstart, hdue⟩ := Underway.start hquery
  have hids : (rows.map fun row => (row.id, row.crontab)).map Prod.fst = rows.map Schedule.id := by
    rw [List.map_map]
    rfl
  have hnodup : ((rows.map fun row => (row.id, row.crontab)).map Prod.fst).Nodup := by
    rw [hids]
    obtain ⟨-, heffect⟩ := Option.ite_none_right_eq_some.mp hquery
    obtain ⟨⟨-, hrows⟩, -⟩ := Option.ite_none_right_eq_some.mp heffect
    exact (hrows.map Schedule.id).nodup_iff.mpr (hkept.1.ids.sublist ((List.filter_sublist).map _))
  have hknown : ∀ row ∈ rows.map fun row => (row.id, row.crontab), ∃ r ∈ s.reckonings, r.schedule = row.1 :=
    fun row hrow => by
      obtain ⟨row, hin, rfl⟩ := List.mem_map.mp hrow
      exact hkept.1.exists_reckoning ((hdue row).mp hin).1
  have hfinds' : ∀ row ∈ rows.map fun row => (row.id, row.crontab), (croniter.nextRun row.2 now).isSome :=
    fun row hrow => by
      obtain ⟨row, hin, rfl⟩ := List.mem_map.mp hrow
      exact hfinds row hin
  have hkept' : Kept croniter s' := Run.run_keeps (fun e _ _ _ hstep h => Kept.step h e hstep) hkept₁ hrun
  obtain ⟨done, hunder, hleft⟩ := Underway.run hknown hnodup hfinds' (hids ▸ hsmooth) hstart hkept₁ hrun
  have hstart_left := hstart.parts
  rw [List.nil_append] at hstart_left
  refine ⟨?_, hunder.servesDue hkept hkept' hdue⟩
  rw [hunder.over_iff, hleft, hstart_left, List.drop_eq_nil_iff, List.length_map]

/-- A schedule is created; when it is due, another one is created before the bulk. -/
theorem generation_serves_due_memberSchedule : ∃ s s',
    Run.run (step everyFiveMinutes) initial
      [(10, .create ⟨"s", "report", "recipient", "*/5 * * * *", true, true⟩ .done)] = some s ∧
    ServesDue everyFiveMinutes s s' 301 := by
  obtain ⟨s', hs', hover⟩ := Option.map_eq_some_iff.mp (show
    ((Run.run (step everyFiveMinutes) initial
      [(10, .create ⟨"s", "report", "recipient", "*/5 * * * *", true, true⟩ .done)]).bind fun s =>
        (step everyFiveMinutes s (301, .query [memberSchedule])).bind fun s₁ =>
          Run.run (step everyFiveMinutes) s₁
            [(302, .create ⟨"t", "report", "another", "*/5 * * * *", true, true⟩ .done),
              (303, .bulk .done fun _ => .done)]).map State.generation = some none by decide)
  obtain ⟨s, hs, hs'⟩ := Option.bind_eq_some_iff.mp hs'
  obtain ⟨s₁, hs₁, hs'⟩ := Option.bind_eq_some_iff.mp hs'
  exact ⟨s, s', hs, (generation_serves_due hs hs₁ (by decide) hs' (by simp [Event.Smooth])).2 hover⟩

/-! ## Schedules that are passed over -/

/-- **A schedule is passed over**: the last task of it that was completed was completed in the very second of
its next run, and it is not left to the run on its way. -/
structure PassedOver (s : State) (id : String) : Prop where
  row : ∃ row ∈ s.schedules, row.id = id ∧ row.nextRun = row.lastRun
  left : id ∉ s.left.map Prod.fst

/-- A task of the schedule is completed. -/
def Completes (s : State) (id : String) (e : Event) : Prop :=
  ∃ task state result commit t, e = .editTask task state result commit ∧ s.tasks[task]? = some t ∧
    t.scheduleId = some id ∧ editedState state t = .completed

theorem Event.Outside.smooth {e : Event} (he : e.Outside) (hdelete : e ≠ .delete id) : e.Smooth [id] := by
  cases e with
  | delete id' => exact fun hin => hdelete (congrArg _ (List.mem_singleton.mp hin))
  | query rows => exact he.elim
  | bulk commit put => exact he.elim
  | stop => exact he.elim
  | _ => exact trivial

/-- **Only a completed task changes the last run**, and only a bulk the next one. -/
theorem PassedOver.row_effect (h : PassedOver s id) {e : Event} (he : e.Outside) (hdelete : e ≠ .delete id)
    (hcompletes : ¬ Completes s id e) (heffect : effect croniter s e = some s') :
    ∃ row ∈ s'.schedules, row.id = id ∧ row.nextRun = row.lastRun := by
  obtain ⟨row, hrow, rfl, hlast⟩ := h.row
  rcases effect_cases he heffect with rfl | ⟨row', -, -, -, rfl⟩ | ⟨id, crontab, rfl⟩ | ⟨id, rfl, rfl⟩ |
    ⟨tasks, messages, -, rfl⟩ | ⟨task, state, result, commit, rfl, rfl⟩
  · exact ⟨row, hrow, rfl, hlast⟩
  · exact ⟨row, List.mem_append_left _ hrow, rfl, hlast⟩
  · refine ⟨_, List.mem_map_of_mem hrow, Schedule.recrontab_id id crontab row, ?_⟩
    rw [Schedule.recrontab]
    split
    · exact hlast
    · exact hlast
  · have hother : row.id ≠ id := fun hid => hdelete (congrArg _ hid.symm)
    exact ⟨row, List.mem_filter.mpr ⟨hrow, decide_eq_true hother⟩, rfl, hlast⟩
  · exact ⟨row, hrow, rfl, hlast⟩
  · rw [Scheduler.editTask]
    cases htask : s.tasks[task]? with
    | none => exact ⟨row, hrow, rfl, hlast⟩
    | some t =>
      by_cases hcompleted : editedState state t = .completed
      · have hother : ¬ t.scheduleId = some row.id := fun hwhose =>
          hcompletes ⟨task, state, result, commit, t, rfl, htask, hwhose, hcompleted⟩
        have hsame : row.ranFor t s.clock = row := if_neg hother
        simp only [if_pos hcompleted]
        exact ⟨row, List.mem_map.mpr ⟨row, hrow, hsame⟩, rfl, hlast⟩
      · simp only [if_neg hcompleted]
        exact ⟨row, hrow, rfl, hlast⟩

variable (now) in
/-- A row that is not in a bulk is left alone by it. -/
theorem mem_schedules_fires_of_notMem {row : Schedule} (updates : List (String × String × ℤ)) : ∀ {s : State},
    row ∈ s.schedules → row.id ∉ updates.map Prod.fst → row ∈ (updates.foldl (fire now) s).schedules := by
  induction updates with
  | nil => exact fun hrow _ => hrow
  | cons update updates ih =>
    intro s hrow hid
    rw [List.map_cons, List.mem_cons, not_or] at hid
    exact ih (List.mem_map.mpr ⟨row, hrow, Schedule.reckoned_of_ne hid.1⟩) hid.2

/-- **A bulk**, however it ends, does nothing with the schedules that the run does not have. -/
theorem PassedOver.bulk (h : PassedOver s id) {g : Generation} (hg : s.generation = some g) (commit : Call)
    (put : ℕ → Call) : PassedOver (bulk croniter s g commit put) id ∧
      (Scheduler.bulk croniter s g commit put).reckoningsOf id = s.reckoningsOf id := by
  obtain ⟨row, hrow, rfl, hlast⟩ := h.row
  have hout : row.id ∉ g.schedules.map Prod.fst := by
    have hleft := h.left
    rw [State.left, hg] at hleft
    exact hleft
  have hstop : ∀ {t : State}, row ∈ t.schedules → t.reckoningsOf row.id = s.reckoningsOf row.id →
      PassedOver t.stop row.id ∧ t.stop.reckoningsOf row.id = s.reckoningsOf row.id := fun hin hsame =>
    ⟨⟨⟨row, hin, rfl, hlast⟩, List.not_mem_nil⟩, hsame⟩
  rw [Scheduler.bulk]
  cases hupdates : schedulesUpdates croniter g.now (g.schedules.take bulkSize) with
  | none => exact hstop hrow rfl
  | some updates =>
    have hids : updates.map Prod.fst = (g.schedules.take bulkSize).map Prod.fst := by
      rw [← (schedulesUpdates_eq_some hupdates).1, List.map_map]
      rfl
    have hfires : row.id ∉ updates.map Prod.fst := fun hin =>
      hout (List.map_subset Prod.fst (List.take_subset ..) (hids ▸ hin))
    have hin := mem_schedules_fires_of_notMem g.now updates hrow hfires
    have hsame : (updates.foldl (fire g.now) s).reckoningsOf row.id = s.reckoningsOf row.id :=
      fires_reckoningsOf g.now updates s hfires
    simp only
    split
    · split
      · exact hstop hin hsame
      · split
        · have hrest : row.id ∉ (g.schedules.drop bulkSize).map Prod.fst := fun hdrop =>
            hout (List.map_subset Prod.fst (List.drop_subset ..) hdrop)
          exact ⟨⟨⟨row, hin, rfl, hlast⟩, hrest⟩, hsame⟩
        · exact hstop hin hsame
    · exact hstop hrow rfl

/-- **What a step leaves of a schedule that is passed over.** -/
theorem PassedOver.step (h : PassedOver s id) (hkept : Kept croniter s) (e : ℤ × Event)
    (hdelete : e.2 ≠ .delete id) (hcompletes : ¬ Completes s id e.2)
    (hstep : Scheduler.step croniter s e = some s') :
    PassedOver s' id ∧ s'.reckoningsOf id = s.reckoningsOf id := by
  obtain ⟨now, e⟩ := e
  have hquery := hstep
  obtain ⟨-, heffect⟩ := Option.ite_none_right_eq_some.mp hstep
  have hlater : PassedOver { s with clock := now } id := ⟨h.row, h.left⟩
  obtain ⟨row, hrow, rfl, hlast⟩ := h.row
  by_cases he : e.Outside
  · have huntouched := Untouched.effect (he.smooth hdelete) he heffect
    refine ⟨⟨hlater.row_effect he hdelete hcompletes heffect, ?_⟩, ?_⟩
    · rw [State.left, huntouched.generation]
      exact h.left
    · exact huntouched.reckoningsOf row.id (hkept.1.exists_reckoning hrow)
  · cases e with
    | query rows =>
      obtain ⟨hstart, hdue⟩ := Underway.start hquery
      obtain ⟨-, heffect⟩ := Option.ite_none_right_eq_some.mp heffect
      refine ⟨⟨⟨row, Option.some.inj heffect ▸ hrow, rfl, hlast⟩, fun hin => ?_⟩,
        hstart.waiting row.id (hkept.1.exists_reckoning hrow) List.not_mem_nil⟩
      have hparts := hstart.parts
      rw [List.nil_append] at hparts
      rw [hparts, List.map_map] at hin
      obtain ⟨row', hrow', hid⟩ := List.mem_map.mp hin
      obtain ⟨hthere, hcome⟩ := (hdue row').mp hrow'
      obtain rfl := List.inj_on_of_nodup_map hkept.1.ids hthere hrow hid
      exact hcome.2 hlast
    | bulk commit put =>
      obtain ⟨g, hg, rfl⟩ := Option.map_eq_some_iff.mp heffect
      exact hlater.bulk hg commit put
    | stop =>
      obtain rfl := Option.some.inj heffect
      exact ⟨⟨⟨row, hrow, rfl, hlast⟩, List.not_mem_nil⟩, rfl⟩
    | _ => exact absurd trivial he

/-- **A schedule that is passed over gets no task** from any run of the scheduler, at any later time, until one
of its tasks is completed or it is deleted. -/
theorem passed_over_for_good {before es : List (ℤ × Event)}
    (hbefore : Run.run (step croniter) initial before = some s) (h : PassedOver s id)
    (hes : Run.Along (step croniter) (fun t e _ => e.2 ≠ .delete id ∧ ¬ Completes t id e.2) s es) :
    Run.Always (step croniter) (fun t => PassedOver t id ∧ t.reckoningsOf id = s.reckoningsOf id) s es := by
  refine (Run.always_of_along (P := fun t => Kept croniter t ∧ PassedOver t id ∧
    t.reckoningsOf id = s.reckoningsOf id) (fun t e t' hP hstep hG => ?_) ⟨kept_of_run hbefore, h, rfl⟩ hes).mono
      fun _ hP => hP.2
  obtain ⟨hkept, hpassed, hsame⟩ := hP
  obtain ⟨hpassed', hsame'⟩ := hpassed.step hkept e hG.1 hG.2 hstep
  exact ⟨hkept.step e hstep, hpassed', hsame'.trans hsame⟩

/-- The second task is completed in the second of the next run; a day later, nothing is due. -/
theorem passed_over_for_good_twoTasks : ∃ s, Run.run (step everyFiveMinutes) initial twoTasks = some s ∧
    PassedOver s "s" ∧ Run.Always (step everyFiveMinutes)
      (fun t => PassedOver t "s" ∧ t.reckoningsOf "s" = s.reckoningsOf "s") s [(90000, .query [])] := by
  obtain ⟨s, hs, hlast⟩ := Option.map_eq_some_iff.mp (show
    (Run.run (step everyFiveMinutes) initial twoTasks).map (fun s => (s.schedules, s.left)) =
      some ([{ memberSchedule with lastRun := 1200, nextRun := 1200 }], []) by decide)
  obtain ⟨hschedules, hleft⟩ := Prod.mk.inj hlast
  have hpassed : PassedOver s "s" :=
    ⟨⟨_, hschedules ▸ List.mem_singleton_self _, rfl, rfl⟩, hleft ▸ List.not_mem_nil⟩
  refine ⟨s, hs, hpassed, passed_over_for_good hs hpassed fun _ _ => ?_⟩
  exact ⟨⟨by simp, fun h => by simp [Completes] at h⟩, trivial⟩

end Katara.Scheduler
