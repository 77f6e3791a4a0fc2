import OptScale.Foundations.Windows
import OptScale.Katara.Steps

/-!
# Katara/Schedules — the schedules of reports, and their tasks

A schedule has a crontab, the instant it is to be run at next, and the instant a task of it was completed
last.  The scheduler asks for the schedules whose next run has come, unless that is the instant of the
last completion, and takes them in bulks: each bulk gets a task for every schedule and the next runs
after the instant the scheduler began at, in one transaction, and then a message for every task.  It is
a process of its own: between its transactions the service creates, edits and deletes schedules, and the
workers create tasks and complete them.
-/

namespace Katara.Scheduler

open Session
open Fallible (require orFail)

/-! ## Crontabs -/

/-- `croniter`: the crontabs it accepts, the instants they name, and the first of them after another one,
which it may fail to find. -/
structure Croniter where
  accepts : String → Bool
  Names : String → ℤ → Prop
  getNext : String → ℤ → Option ℤ
  isLeast : ∀ {crontab base next}, getNext crontab base = some next →
    IsLeast {m | Names crontab m ∧ base < m} next

/-- `croniter(crontab, base).get_next()`; a base within a second has the same next instant as the second. -/
def Croniter.nextRun (croniter : Croniter) (crontab : String) (base : ℤ) : Option ℤ :=
  if croniter.accepts crontab then croniter.getNext crontab base else none

theorem Croniter.nextRun_isLeast {croniter : Croniter} {crontab : String} {base next : ℤ}
    (h : croniter.nextRun crontab base = some next) :
    IsLeast {m | croniter.Names crontab m ∧ base < m} next :=
  croniter.isLeast (Option.ite_none_right_eq_some.mp h).2

theorem Croniter.lt_nextRun {croniter : Croniter} {crontab : String} {base next : ℤ}
    (h : croniter.nextRun crontab base = some next) : base < next :=
  (croniter.nextRun_isLeast h).1.2

/-! ## The tables -/

/-- A row of `schedule`. -/
structure Schedule where
  id : String
  reportId : String
  recipientId : String
  crontab : String
  createdAt : ℤ
  lastRun : ℤ
  nextRun : ℤ
deriving DecidableEq, Repr

/-- The schedule was created, or a task of it: when its next run was set, by which crontab, and the next
run that had come then, with the task for it. -/
structure Reckoning where
  schedule : String
  crontab : String
  time : ℤ
  fired : Option (ℤ × ℕ)
deriving DecidableEq, Repr

/-- A run of `generate_tasks` on its way: the instant it began at, and the schedules that are left, each
with its crontab. -/
structure Generation where
  now : ℤ
  schedules : List (String × String)
deriving DecidableEq, Repr

/-- The tables, the messages that were published, and the scheduler; `reckonings` is what happened to the
next runs. -/
structure State where
  schedules : List Schedule
  tasks : List Task
  published : List Body
  generation : Option Generation
  clock : ℤ
  reckonings : List Reckoning

/-- Nothing yet. -/
def initial : State := ⟨[], [], [], none, 0, []⟩

/-! ## The service -/

/-- What the service refuses. -/
inductive Refusal
  | oka0004 (model id : String)
  | oka0005 (reportId recipientId crontab : String)
  | oka0006 (crontab : String)
  | oka0013 (model id : String)
  | oka0017
  | oka0022 (state : TaskState)
  | badDate
deriving DecidableEq, Repr

/-- `get_uniqueness_filter`, without the schedule itself. -/
def Taken (schedules : List Schedule) (itself : Option String) (reportId recipientId crontab : String) :
    Prop :=
  ∃ s ∈ schedules, some s.id ≠ itself ∧ s.crontab = crontab ∧ s.recipientId = recipientId ∧
    s.reportId = reportId

instance (schedules : List Schedule) (itself : Option String) (reportId recipientId crontab : String) :
    Decidable (Taken schedules itself reportId recipientId crontab) :=
  inferInstanceAs (Decidable (∃ s ∈ schedules, _))

/-- The arguments of a new schedule, and whether its recipient and its report are there. -/
structure Creation where
  id : String
  reportId : String
  recipientId : String
  crontab : String
  recipientExists : Bool
  reportExists : Bool
deriving DecidableEq, Repr

/-- `_check_crontab` -/
def checkCrontab (croniter : Croniter) (crontab : String) : Except Refusal Unit :=
  require (croniter.accepts crontab) (.oka0006 crontab)

/-- `ScheduleController.create`, up to the commit: the new row. -/
def create (croniter : Croniter) (schedules : List Schedule) (now : ℤ) (c : Creation) :
    Except Refusal Schedule := do
  checkCrontab croniter c.crontab
  let nextRun ← orFail (croniter.nextRun c.crontab now) .badDate
  require c.recipientExists (.oka0004 "Recipient" c.recipientId)
  require c.reportExists (.oka0004 "Report" c.reportId)
  require (¬ Taken schedules none c.reportId c.recipientId c.crontab)
    (.oka0005 c.reportId c.recipientId c.crontab)
  return ⟨c.id, c.reportId, c.recipientId, c.crontab, now, 0, nextRun⟩

/-- The crontab of a row is another one. -/
def Schedule.recrontab (id crontab : String) (row : Schedule) : Schedule :=
  if row.id = id then { row with crontab := crontab } else row

/-- `ScheduleController.edit`, of the crontab, up to the commit: an empty one is not checked, and the next
run stays. -/
def edit (croniter : Croniter) (schedules : List Schedule) (id crontab : String) :
    Except Refusal (List Schedule) := do
  let row ← orFail (schedules.find? fun row => row.id = id) (.oka0013 "Schedule" id)
  require (¬ Taken schedules (some id) row.reportId row.recipientId crontab)
    (.oka0005 row.reportId row.recipientId crontab)
  require (crontab = "" ∨ croniter.accepts crontab) (.oka0006 crontab)
  return schedules.map (Schedule.recrontab id crontab)

/-- `ondelete='SET NULL'` -/
def unschedule (id : String) (t : Task) : Task :=
  if t.scheduleId = some id then { t with scheduleId := none } else t

/-- `TaskController.create`, up to the commit, of tasks that are given with their schedule, parent, state
and result. -/
def checkTask (s : State) (t : Task) : Except Refusal Unit := do
  require (∀ id ∈ t.scheduleId, ∃ row ∈ s.schedules, row.id = id) (.oka0004 "Schedule" (t.scheduleId.getD ""))
  require (∀ id ∈ t.parentId, id < s.tasks.length) (.oka0004 "Task" (toString (t.parentId.getD 0)))
  require (t.state ≠ .completed) (.oka0022 .completed)

/-- The state of a task after an edit. -/
def editedState (state : Option TaskState) (t : Task) : TaskState := state.getD t.state

/-- The last run of the schedule of a task. -/
def Schedule.ranFor (t : Task) (now : ℤ) (row : Schedule) : Schedule :=
  if t.scheduleId = some row.id then { row with lastRun := now } else row

/-- `TaskController.edit`: a task that is completed, now or before, is the last run of its schedule. -/
def editTask (s : State) (task : ℕ) (state : Option TaskState) (result : Option Result) : State :=
  match s.tasks[task]? with
  | none => s
  | some t =>
    { s with
      tasks := s.tasks.modify task (Task.edit s.clock (editedState state t) result)
      schedules := if editedState state t = .completed then s.schedules.map (Schedule.ranFor t s.clock)
        else s.schedules }

/-! ## The scheduler -/

/-- `BULK_SIZE` -/
def bulkSize : ℕ := 2000

/-- The filter of `generate_tasks`. -/
def Due (now : ℤ) (s : Schedule) : Prop := s.nextRun ≤ now ∧ s.nextRun ≠ s.lastRun

instance (now : ℤ) : DecidablePred (Due now) := fun s =>
  inferInstanceAs (Decidable (s.nextRun ≤ now ∧ s.nextRun ≠ s.lastRun))

/-- `schedules_updates`: each schedule with its crontab and its next run. -/
def schedulesUpdates (croniter : Croniter) (now : ℤ) (bulk : List (String × String)) :
    Option (List (String × String × ℤ)) :=
  bulk.mapM fun row => (croniter.nextRun row.2 now).map fun next => (row.1, row.2, next)

/-- The next run of a row is set. -/
def Schedule.reckoned (id : String) (next : ℤ) (row : Schedule) : Schedule :=
  if row.id = id then { row with nextRun := next } else row

/-- A row of `bulk_update_mappings`, and the one of `bulk_save_objects` beside it. -/
def fire (now : ℤ) (s : State) (update : String × String × ℤ) : State :=
  { s with
    schedules := s.schedules.map (Schedule.reckoned update.1 update.2.2)
    tasks := s.tasks ++ [scheduledTask update.1]
    reckonings := s.reckonings ++ [⟨update.1, update.2.1, now,
      (s.schedules.find? fun row => row.id = update.1).map fun row => (row.nextRun, s.tasks.length)⟩] }

/-- The schedules of a bulk are all there, so that their tasks can refer to them. -/
def AllThere (s : State) (bulk : List (String × String)) : Prop :=
  ∀ update ∈ bulk, ∃ row ∈ s.schedules, row.id = update.1

instance (s : State) (bulk : List (String × String)) : Decidable (AllThere s bulk) :=
  inferInstanceAs (Decidable (∀ update ∈ bulk, ∃ row ∈ s.schedules, _))

/-- The generation is over. -/
def State.stop (s : State) : State := { s with generation := none }

/-- `put_tasks`, of the tasks from a place on: the messages that get on the queue. -/
def State.putTasks (s : State) (first n : ℕ) (put : ℕ → Call) : State :=
  { s with published := s.published ++ Katara.putTasks put 0 (newMessages s.clock first n) }

/-- A bulk of `generate_tasks`: whatever is raised ends the run. -/
def bulk (croniter : Croniter) (s : State) (g : Generation) (commit : Call) (put : ℕ → Call) : State :=
  let rows := g.schedules.take bulkSize
  match schedulesUpdates croniter g.now rows with
  | none => s.stop
  | some updates =>
    if AllThere s rows ∧ commit ≠ .refused then
      let committed := updates.foldl (fire g.now) s
      if commit = .broken then committed.stop
      else
        let put' := committed.putTasks s.tasks.length rows.length put
        if allDone put rows.length ∧ g.schedules.drop bulkSize ≠ [] then
          { put' with generation := some ⟨g.now, g.schedules.drop bulkSize⟩ }
        else put'.stop
    else s.stop

/-! ## Runs -/

/-- What happens.  `query` is the beginning of `generate_tasks`, with the rows in the order they come, and
`bulk` one of its bulks; `stop` stops the scheduler. -/
inductive Event
  | create (c : Creation) (commit : Call)
  | edit (id crontab : String) (commit : Call)
  | delete (id : String)
  | createTasks (payload : List Task) (commit : Call) (put : ℕ → Call)
  | editTask (task : ℕ) (state : Option TaskState) (result : Option Result) (commit : Call)
  | query (rows : List Schedule)
  | bulk (commit : Call) (put : ℕ → Call)
  | stop

/-- The effect of an event, at the instant of the clock.  `gen_id` gives a new schedule an id of its own. -/
def effect (croniter : Croniter) (s : State) : Event → Option State
  | .create c commit =>
    if ∃ r ∈ s.reckonings, r.schedule = c.id then none
    else match create croniter s.schedules s.clock c with
      | .error _ => some s
      | .ok row => if commit = .refused then some s else some
        { s with
          schedules := s.schedules ++ [row]
          reckonings := s.reckonings ++ [⟨row.id, row.crontab, s.clock, none⟩] }
  | .edit id crontab commit =>
    match edit croniter s.schedules id crontab with
    | .error _ => some s
    | .ok schedules => if commit = .refused then some s else some { s with schedules := schedules }
  | .delete id => some
    { s with
      schedules := s.schedules.filter fun row => row.id ≠ id
      tasks := s.tasks.map (unschedule id) }
  | .createTasks payload commit put =>
    match payload.forM (checkTask s) with
    | .error _ => some s
    | .ok _ =>
      let committed : State :=
        { s with tasks := s.tasks ++ payload.map fun t => { t with completedAt := none } }
      if commit = .refused then some s
      else if commit = .broken then some committed
      else some (committed.putTasks s.tasks.length payload.length put)
  | .editTask task state result commit =>
    if commit = .refused then some s else some (editTask s task state result)
  | .query rows =>
    if s.generation = none ∧ rows.Perm (s.schedules.filter (Due s.clock)) then some
      { s with
        generation := if rows = [] then none
          else some ⟨s.clock, rows.map fun row => (row.id, row.crontab)⟩ }
    else none
  | .bulk commit put => s.generation.map fun g => bulk croniter s g commit put
  | .stop => some s.stop

/-- An event, at an instant that is not before the last one. -/
def step (croniter : Croniter) (s : State) (e : ℤ × Event) : Option State :=
  if s.clock ≤ e.1 then effect croniter { s with clock := e.1 } e.2 else none

end Katara.Scheduler
