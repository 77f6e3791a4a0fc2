import OptScale.Foundations.Session
import OptScale.Rest.Text

/-!
# PowerSchedule/Action — `PowerScheduleWorker.get_action`

The triggers of a schedule, as instants of the local day, cut it into periods.  The run reaches from the
last evaluation to now; what it has in common with the periods, one after the other, decides which trigger
fires.
-/

open Fallible

namespace PowerScheduleWorker

/-- `PowerScheduleActions` -/
inductive PowerAction
  | POWER_ON
  | POWER_OFF
  deriving DecidableEq, Repr

/-- A trigger of a schedule. -/
structure Trigger where
  time : Text
  action : PowerAction
  deriving DecidableEq, Repr

/-- What `power_schedule_get` answers, as far as the worker reads it. -/
structure PowerSchedule where
  id : Uuid
  organizationId : Uuid
  name : Text
  enabled : Bool
  triggers : List Trigger
  lastEval : ℤ
  deriving DecidableEq, Repr

/-- `PowerScheduleReasons`, or the text of an error. -/
inductive Reason
  | NO_RESOURCES
  | DISABLED
  | DISABLED_ORG
  | OUTDATED
  | NO_CHANGES
  | error (e : Failure)
  deriving DecidableEq, Repr

/-- The result of a task. -/
structure Result where
  startInstance : ℕ := 0
  stopInstance : ℕ := 0
  error : ℕ := 0
  notActive : ℕ := 0
  reason : Option Reason := none
  deriving DecidableEq, Repr

/-! ## Segments -/

/-- `_intersect`: the tuple of the ends. -/
def intersect (segment₁ segment₂ : ℤ × ℤ) : List ℤ :=
  let firstPoint := max segment₁.1 segment₂.1
  let lastPoint := min segment₁.2 segment₂.2
  if firstPoint < lastPoint then [firstPoint, lastPoint]
  else if firstPoint = lastPoint then [firstPoint]
  else []

/-- `zip(times_today[:-1], times_today[1:])` -/
def timePeriods (timesToday : List ℤ) : List (ℤ × ℤ) := timesToday.dropLast.zip timesToday.tail

/-- The loop of `get_action` over the periods: the time of the trigger that fires. -/
def searchPeriods (run : ℤ × ℤ) : List (ℤ × ℤ) → Option ℤ → Except Failure (Option ℤ)
  | [], candidate => .ok candidate
  | period :: timePeriods, candidate =>
    let cross := intersect period run
    if cross ≠ [] ∧ cross = [run.1, run.2] then
      -- the time of the trigger has not come
      .ok none
    else if cross ≠ [] ∧ cross ≠ [run.1, run.2] ∧ cross ≠ [period.1, period.2] then do
      let time ← orFail ([period.1, period.2].filter (· ≤ run.2)).max? (.python "ValueError")
      pure (some time)
    else if cross ≠ [] ∧ cross = [period.1, period.2] then
      searchPeriods run timePeriods (some ((candidate.map fun c => max c period.2).getD period.2))
    else searchPeriods run timePeriods candidate

/-! ## `get_action` -/

/-- What `get_action` finds: the clock, and where `_local_time_to_utc` puts a time of the current local
day. -/
structure Today where
  /-- `datetime.now(tz=pytz.utc)` -/
  now : ℤ
  localTimeToUtc : Text → Except Failure ℤ

variable (D : Today)

/-- `time_action_map` -/
def timeActionMap : List Trigger → List (ℤ × PowerAction) → Except Failure (List (ℤ × PowerAction))
  | [], map => .ok map
  | trigger :: triggers, map => do
    let time ← D.localTimeToUtc trigger.time
    -- conflicting triggers
    require (time ∉ map.map Prod.fst) (.python "PowerScheduleException")
    timeActionMap triggers (map ++ [(time, trigger.action)])

/-- The time of the trigger that fires. -/
def requiredTime (lastEval : ℤ) (timesToday : List ℤ) : Except Failure (Option ℤ) :=
  match timesToday with
  | [time] => .ok (if lastEval ≤ time ∧ time ≤ D.now then some time else none)
  | _ => searchPeriods (lastEval, D.now) (timePeriods timesToday) none

/-- `get_action` -/
def getAction (schedule : PowerSchedule) : Session Result Failure (Option PowerAction) := do
  let map ← Session.read fun _ => timeActionMap D schedule.triggers []
  let timesToday := (map.map Prod.fst).insertionSort (· ≤ ·)
  let time ← Session.read fun _ => requiredTime D schedule.lastEval timesToday
  match time with
  | none => do
    Session.change fun result => { result with reason := some .NO_CHANGES }
    pure none
  | some time => do
    let action ← Session.read fun _ => orFail (map.lookup time) (.python "KeyError")
    pure (some action)

/-! ## Which trigger fires -/

/-- The trigger times between the last evaluation and now. -/
def due (lastEval now : ℤ) (times : List ℤ) : List ℤ := times.filter fun t => lastEval < t ∧ t < now

variable {D} {lastEval now : ℤ}

theorem due_cons_of_lt {t : ℤ} {ts : List ℤ} (h : t < lastEval) : due lastEval now (t :: ts) =
    due lastEval now ts :=
  List.filter_cons_of_neg (by simp; omega)

theorem due_cons_of_mem {t : ℤ} {ts : List ℤ} (h : lastEval < t) (h' : t < now) :
    due lastEval now (t :: ts) = t :: due lastEval now ts :=
  List.filter_cons_of_pos (by simp; omega)

theorem due_of_later {ts : List ℤ} (h : ∀ t ∈ ts, now < t) : due lastEval now ts = [] :=
  List.filter_eq_nil_iff.mpr fun t ht => by have := h t ht; simp; omega

theorem intersect_cases (p run : ℤ × ℤ) :
    (max p.1 run.1 < min p.2 run.2 ∧ intersect p run = [max p.1 run.1, min p.2 run.2]) ∨
      (max p.1 run.1 = min p.2 run.2 ∧ intersect p run = [max p.1 run.1]) ∨
        (min p.2 run.2 < max p.1 run.1 ∧ intersect p run = []) := by
  unfold intersect
  dsimp only
  split_ifs with h h'
  · exact Or.inl ⟨h, rfl⟩
  · exact Or.inr (Or.inl ⟨h', rfl⟩)
  · exact Or.inr (Or.inr ⟨by omega, rfl⟩)

/-! Of a period without a trigger time at the ends of the run there are five kinds. -/

section Period

variable {p : ℤ × ℤ} {periods : List (ℤ × ℤ)} {candidate : Option ℤ}

/-- The period is over before the run, or comes after it. -/
theorem searchPeriods_of_apart (h : min p.2 now < max p.1 lastEval) :
    searchPeriods (lastEval, now) (p :: periods) candidate =
      searchPeriods (lastEval, now) periods candidate := by
  have hcross : intersect p (lastEval, now) = [] := by
    obtain ⟨h', -⟩ | ⟨h', -⟩ | ⟨-, hc⟩ := intersect_cases p (lastEval, now)
    · exact absurd h' (not_lt.mpr h.le)
    · exact absurd h'.symm h.ne
    · exact hc
  simp [searchPeriods, hcross]

/-- The run lies in the period. -/
theorem searchPeriods_of_inside (h : p.1 ≤ lastEval) (h' : now ≤ p.2) (hrun : lastEval < now) :
    searchPeriods (lastEval, now) (p :: periods) candidate = .ok none := by
  have hcross : intersect p (lastEval, now) = [lastEval, now] := by
    rw [intersect, max_eq_right h, min_eq_right h', if_pos hrun]
  simp [searchPeriods, hcross]

/-- The run starts before the period and ends in it. -/
theorem searchPeriods_of_first (h : lastEval < p.1) (h' : p.1 < now) (h'' : now < p.2) :
    searchPeriods (lastEval, now) (p :: periods) candidate = .ok (some p.1) := by
  have hcross : intersect p (lastEval, now) = [p.1, now] := by
    rw [intersect, max_eq_left h.le, min_eq_right h''.le, if_pos h']
  have hpast : [p.1, p.2].filter (· ≤ now) = [p.1] := by
    rw [List.filter_cons_of_pos (by simpa using h'.le), List.filter_cons_of_neg (by simpa using h'')]
    rfl
  have hne : p.1 ≠ lastEval := h.ne'
  have hne' : now ≠ p.2 := h''.ne
  simp [searchPeriods, hcross, hpast, hne, hne']

/-- The run starts in the period and ends after it. -/
theorem searchPeriods_of_last (h : p.1 < lastEval) (h' : lastEval < p.2) (h'' : p.2 < now) :
    searchPeriods (lastEval, now) (p :: periods) candidate = .ok (some p.2) := by
  have hcross : intersect p (lastEval, now) = [lastEval, p.2] := by
    rw [intersect, max_eq_right h.le, min_eq_left h''.le, if_pos h']
  have hpast : ([p.1, p.2].filter (· ≤ now)).max? = some p.2 := by
    rw [List.filter_cons_of_pos (by simp; omega), List.filter_cons_of_pos (by simp; omega)]
    simp
    omega
  have hne : lastEval ≠ p.1 := h.ne'
  have hne' : p.2 ≠ now := h''.ne
  simp [searchPeriods, hcross, hpast, hne, hne']

/-- The run covers the period. -/
theorem searchPeriods_of_covered (h : lastEval < p.1) (h' : p.1 < p.2) (h'' : p.2 < now) :
    searchPeriods (lastEval, now) (p :: periods) candidate =
      searchPeriods (lastEval, now) periods
        (some ((candidate.map fun c => max c p.2).getD p.2)) := by
  have hcross : intersect p (lastEval, now) = [p.1, p.2] := by
    rw [intersect, max_eq_left h.le, min_eq_left h''.le, if_pos h']
  have hne : p.1 ≠ lastEval := h.ne'
  simp [searchPeriods, hcross, hne]

end Period

end PowerScheduleWorker
