import OptScale.Bookings.Booking
import OptScale.Foundations.Run
import OptScale.Foundations.Watermark

/-!
# Bookings/Observer — the activities the booking observer publishes

    task (observe_time) ──▸ window (stored observe_time, now] ──▸ activities, stored := observe_time

A turn publishes what happened up to *now* and then stores the time its task was made.  So what
happens between the two is published again by the next turn, and what happens between two stored
times is lost when the organization is disabled in between.  A turn keeps the log in step with the
stored time exactly when it meets `Tiles` (`upTo_step_iff`).
-/

open Fallible Run Watermark

namespace ShareableBookingController

/-- The booking is one of the organization's, and starts or ends in the window. -/
abbrev InWindow (organizationId : Uuid) (startDate endDate : ℕ) (b : ShareableBooking) : Prop :=
  b.organizationId = organizationId ∧ ¬ b.Deleted ∧
    (b.releasedAt > startDate ∧ b.releasedAt ≤ endDate ∨
      b.acquiredSince > startDate ∧ b.acquiredSince ≤ endDate)

/-- `get_shareable_bookings`, behind its handler. -/
def getShareableBookings (bookings : Bookings) (organizationId : Uuid) (startDate endDate : ℕ) :
    Except Failure (List ShareableBooking) := do
  require (startDate ≤ endDate) (.wrongArguments .OE0446 ["end_date", "start_date"])
  pure (bookings.rows.filter fun b => InWindow organizationId startDate endDate b)

end ShareableBookingController

/-! ## The worker -/

namespace BookingObserverWorker

/-- The actions of `field_action_map`. -/
inductive Action
  | bookingAcquire
  | bookingRelease
  deriving DecidableEq, Repr

/-- The field an action watches. -/
def Action.value (b : ShareableBooking) : Action → ℕ
  | bookingAcquire => b.acquiredSince
  | bookingRelease => b.releasedAt

/-- A published activity task about a booking. -/
structure Activity where
  organizationId : Uuid
  action : Action
  objectId : Uuid
  deriving DecidableEq, Repr

/-- What the worker leaves behind for one organization. -/
structure Observed where
  /-- `observe_time` of the organization's document, if it has one. -/
  observeTime : Option ℕ
  /-- The published tasks, the oldest first. -/
  published : List Activity

/-- A task, and what the worker finds when it processes it. -/
structure Turn where
  observeTime : ℕ
  now : ℕ
  /-- Whether the organization is disabled, as `organization_get` answers. -/
  organizationGet : Except Failure Bool
  bookings : Bookings

/-- `get_start_date` -/
def getStartDate (s : Observed) : ℕ := s.observeTime.getD 0

@[simp] theorem getStartDate_stored (o : ℕ) (log : List Activity) :
    getStartDate ⟨some o, log⟩ = o := rfl

/-- The tasks built from one booking. -/
def activitiesOf (organizationId : Uuid) (startDate endDate : ℕ) (b : ShareableBooking) :
    List Activity :=
  ([Action.bookingAcquire, .bookingRelease].filter fun action =>
      action.value b ≠ 0 ∧ startDate < action.value b ∧ action.value b ≤ endDate).map
    fun action => ⟨organizationId, action, b.id⟩

/-- `_process` -/
def process (organizationId : Uuid) (s : Observed) (t : Turn) : Except Failure Observed := do
  let endDate := t.now
  let startDate := getStartDate s
  let disabled ← t.organizationGet
  if disabled then pure { s with observeTime := some t.observeTime }
  else do
    let bookings ← ShareableBookingController.getShareableBookings t.bookings organizationId
      startDate endDate
    let tasks := bookings.flatMap (activitiesOf organizationId startDate endDate)
    pure { observeTime := some t.observeTime, published := s.published ++ tasks }

/-- `process_booking_activities` -/
def processBookingActivities (organizationId : Uuid) (s : Observed) (t : Turn) :
    Except Failure Observed := do
  require (t.observeTime ≠ 0) (.python "Exception")
  process organizationId s t

/-- `process_task`: a failure is logged and the message acknowledged. -/
def processTask (organizationId : Uuid) (s : Observed) (t : Turn) : Observed :=
  match processBookingActivities organizationId s t with
  | .ok s' => s'
  | .error _ => s

/-- One turn of a run. -/
def step (organizationId : Uuid) (s : Observed) (t : Turn) : Option Observed :=
  some (processTask organizationId s t)

/-! ## Instants -/

/-- The booking of the activity is acquired or released at `v`. -/
def Instant (bookings : Bookings) (organizationId : Uuid) (e : Activity) (v : ℕ) : Prop :=
  e.organizationId = organizationId ∧ v ≠ 0 ∧ ∃ b ∈ bookings.rows, b.id = e.objectId ∧
    ¬ b.Deleted ∧ b.organizationId = organizationId ∧ e.action.value b = v

/-- The turn finds the bookings as they will be, as far as the clock has come. -/
def Turn.Fixed (final : Bookings) (organizationId : Uuid) (t : Turn) : Prop :=
  ∀ e v, v ≤ t.now → (Instant t.bookings organizationId e v ↔ Instant final organizationId e v)

/-- Nothing happens between the two times. -/
def Quiet (final : Bookings) (organizationId : Uuid) (a b : ℕ) : Prop :=
  ∀ e v, Instant final organizationId e v → v ∉ Set.uIoc a b

/-- **When a turn keeps the log in step with the stored time**: nothing happens between the time it
stores and the end of its window, or, for a disabled organization, the time stored before. -/
def Tiles (final : Bookings) (organizationId : Uuid) (s : Observed) (t : Turn) : Prop :=
  t.observeTime ≠ 0 →
    (t.organizationGet = .ok true → Quiet final organizationId (getStartDate s) t.observeTime) ∧
    (t.organizationGet = .ok false → getStartDate s ≤ t.now →
      Quiet final organizationId t.now t.observeTime)

/-- **Exactly once**: what happened before the stored time was published once, and nothing was
published twice. -/
def ExactlyOnce (final : Bookings) (organizationId : Uuid) (s : Observed) : Prop :=
  ∀ e v, Instant final organizationId e v →
    s.published.count e ≤ 1 ∧ (v < getStartDate s → s.published.count e = 1)

/-- The log is up to the stored time. -/
def InStep (final : Bookings) (organizationId : Uuid) (s : Observed) : Prop :=
  UpTo (Instant final organizationId) (getStartDate s) s.published

theorem InStep.exactlyOnce {final : Bookings} {organizationId : Uuid} {s : Observed}
    (h : InStep final organizationId s) : ExactlyOnce final organizationId s :=
  fun _ _ he => ⟨h.count_le_one he, fun hv => h.count_eq_one he hv.le⟩

/-! ## One turn -/

section Turn

variable {final : Bookings} {organizationId : Uuid} {s : Observed} {t : Turn}

/-- The tasks a window's bookings give: one for each instant in the window. -/
def tasksOf (bookings : Bookings) (organizationId : Uuid) (startDate endDate : ℕ) :
    List Activity :=
  (bookings.rows.filter fun b => ShareableBookingController.InWindow organizationId startDate
      endDate b).flatMap (activitiesOf organizationId startDate endDate)

theorem mem_activitiesOf {startDate endDate : ℕ} {b : ShareableBooking} {e : Activity} :
    e ∈ activitiesOf organizationId startDate endDate b ↔ e.organizationId = organizationId ∧
      e.objectId = b.id ∧ e.action.value b ≠ 0 ∧ startDate < e.action.value b ∧
      e.action.value b ≤ endDate := by
  obtain ⟨o, action, id⟩ := e
  simp only [activitiesOf, List.mem_map, List.mem_filter, Activity.mk.injEq, decide_eq_true_eq]
  constructor
  · rintro ⟨_, ⟨-, h⟩, rfl, rfl, rfl⟩
    exact ⟨rfl, rfl, h⟩
  · rintro ⟨rfl, rfl, h⟩
    refine ⟨action, ⟨?_, h⟩, rfl, rfl, rfl⟩
    cases action <;> simp

/-- **A window's tasks are its instants.** -/
theorem mem_tasksOf {bookings : Bookings} {startDate endDate : ℕ} {e : Activity} :
    e ∈ tasksOf bookings organizationId startDate endDate ↔
      ∃ v, Instant bookings organizationId e v ∧ startDate < v ∧ v ≤ endDate := by
  simp only [tasksOf, List.mem_flatMap, List.mem_filter, decide_eq_true_eq, mem_activitiesOf]
  constructor
  · rintro ⟨b, ⟨hb, horg, hdel, -⟩, he, hid, hne, hlo, hhi⟩
    exact ⟨_, ⟨he, hne, b, hb, hid.symm, hdel, horg, rfl⟩, hlo, hhi⟩
  · rintro ⟨_, ⟨he, hne, b, hb, hid, hdel, horg, rfl⟩, hlo, hhi⟩
    refine ⟨b, ⟨hb, horg, hdel, ?_⟩, he, hid.symm, hne, hlo, hhi⟩
    obtain ⟨_, _ | _, _⟩ := e
    · exact Or.inr ⟨hlo, hhi⟩
    · exact Or.inl ⟨hlo, hhi⟩

/-- Within a window nothing is published twice. -/
theorem nodup_tasksOf {bookings : Bookings} {startDate endDate : ℕ} :
    (tasksOf bookings organizationId startDate endDate).Nodup := by
  unfold tasksOf
  rw [List.nodup_flatMap]
  constructor
  · intro b _
    refine List.Nodup.map (fun x y h => ?_) (List.Nodup.filter _ (by decide))
    exact (Activity.mk.inj h).2.1
  · refine ((List.pairwise_map.mp bookings.nodup).filter _).imp fun hne e he he' => hne ?_
    exact (mem_activitiesOf.mp he).2.1.symm.trans (mem_activitiesOf.mp he').2.1

/-- An activity has one instant. -/
theorem Instant.unique {bookings : Bookings} {e : Activity} {v w : ℕ}
    (hv : Instant bookings organizationId e v) (hw : Instant bookings organizationId e w) :
    v = w := by
  obtain ⟨-, -, b, hb, hid, -, -, rfl⟩ := hv
  obtain ⟨-, -, c, hc, hid', -, -, rfl⟩ := hw
  rw [bookings.eq_of_key hb hc (hid.trans hid'.symm)]

/-- **What a turn does**: nothing when it fails, the stored time alone for a disabled organization,
else its window and the stored time. -/
theorem processTask_eq (organizationId : Uuid) (s : Observed) (t : Turn) :
    processTask organizationId s t =
      if t.observeTime = 0 then s
      else match t.organizationGet with
        | .error _ => s
        | .ok true => { s with observeTime := some t.observeTime }
        | .ok false =>
          if getStartDate s ≤ t.now then
            { observeTime := some t.observeTime
              published := s.published ++
                tasksOf t.bookings organizationId (getStartDate s) t.now }
          else s := by
  unfold processTask processBookingActivities process
  by_cases h0 : t.observeTime = 0
  · rw [if_pos h0, require_not (not_not.mpr h0)]
    rfl
  · rw [if_neg h0, require_of h0]
    rcases t.organizationGet with _ | _ | _
    · rfl
    · by_cases hle : getStartDate s ≤ t.now
      · simp only [ShareableBookingController.getShareableBookings, require_of hle, ok_bind,
          if_pos hle]
        rfl
      · simp only [ShareableBookingController.getShareableBookings, require_not hle, ok_bind,
          error_bind, if_neg hle]
        rfl
    · rfl

/-- The window's tasks, where the bookings are found as they will be. -/
theorem UpTo.window {w : ℕ} {log : List Activity}
    (h : UpTo (Instant final organizationId) w log) (hfixed : t.Fixed final organizationId)
    (hle : w ≤ t.now) :
    UpTo (Instant final organizationId) t.now
      (log ++ tasksOf t.bookings organizationId w t.now) := by
  refine h.append nodup_tasksOf (fun e v he => ?_) hle
  rw [mem_tasksOf]
  constructor
  · rintro ⟨v', hv', hlo, hhi⟩
    obtain rfl := he.unique ((hfixed e v' hhi).mp hv')
    exact ⟨hlo, hhi⟩
  · exact fun ⟨hlo, hhi⟩ => ⟨v, (hfixed e v hhi).mpr he, hlo, hhi⟩

/-- **A turn keeps the log in step exactly when it meets `Tiles`.** -/
theorem upTo_step_iff (hfixed : t.Fixed final organizationId)
    (h : InStep final organizationId s) :
    InStep final organizationId (processTask organizationId s t) ↔
      Tiles final organizationId s t := by
  rw [processTask_eq]
  unfold Tiles
  by_cases h0 : t.observeTime = 0
  · simp [h0, h]
  · rw [if_neg h0]
    rcases horg : t.organizationGet with _ | _ | _
    · simp [h]
    · dsimp only
      by_cases hle : getStartDate s ≤ t.now
      · rw [if_pos hle]
        refine (upTo_iff (UpTo.window h hfixed hle)).trans ?_
        simp [h0, hle, Quiet]
      · simp [hle, h]
    · dsimp only
      refine (upTo_iff h).trans ?_
      simp [h0, Quiet]

end Turn

/-! ## Runs -/

/-- **A run whose turns all meet `Tiles` publishes exactly once**, whatever the clock does. -/
theorem exactlyOnce_of_tiles (final : Bookings) (organizationId : Uuid) (start : Option ℕ)
    (turns : List Turn)
    (hafter : ∀ e v, Instant final organizationId e v → getStartDate ⟨start, []⟩ < v)
    (hfixed : ∀ t ∈ turns, t.Fixed final organizationId)
    (htiles : Along (step organizationId) (fun s t _ => Tiles final organizationId s t)
      ⟨start, []⟩ turns) :
    Always (step organizationId) (ExactlyOnce final organizationId) ⟨start, []⟩ turns := by
  have hstart : InStep final organizationId ⟨start, []⟩ := fun e v he => by
    rw [List.count_nil, if_neg (not_le.mpr (hafter e v he))]
  have hstep : ∀ s t s', InStep final organizationId s → step organizationId s t = some s' →
      t.Fixed final organizationId ∧ Tiles final organizationId s t →
      InStep final organizationId s' := by
    intro s t s' h hs hturn
    obtain rfl := Option.some.inj hs
    exact (upTo_step_iff hturn.1 h).mpr hturn.2
  have hinstep : Always (step organizationId) (InStep final organizationId) ⟨start, []⟩ turns :=
    always_of_along hstep hstart ((along_of_mem hfixed _).and htiles)
  exact hinstep.mono fun s h => h.exactlyOnce

/-! ### Two turns, and an instant between

The first turn's task was made at `10` and processed at `12`; the booking starts at `11`, so both
windows hold it.
-/

/-- The turns are made one after the other, each after its task. -/
def Timely (turns : List Turn) : Prop :=
  (∀ t ∈ turns, t.observeTime ≤ t.now) ∧ turns.IsChain fun t u => t.now ≤ u.now

/-- One booking of organization `1`, from `11` on. -/
def oneBooking : Bookings := ⟨[⟨6, 3, 4, 1, 11, 0, 0⟩], by decide⟩

/-- The turns at `12` and `20`, each finding the booking. -/
def twoTurns : List Turn := [⟨10, 12, .ok false, oneBooking⟩, ⟨20, 20, .ok false, oneBooking⟩]

theorem oneBooking_instant {e : Activity} {v : ℕ} (h : Instant oneBooking 1 e v) :
    e = ⟨1, .bookingAcquire, 6⟩ ∧ v = 11 := by
  obtain ⟨o, action, id⟩ := e
  obtain ⟨rfl, hne, b, hb, rfl, -, -, rfl⟩ := h
  obtain rfl := List.mem_singleton.mp hb
  cases action with
  | bookingAcquire => exact ⟨rfl, rfl⟩
  | bookingRelease => exact absurd rfl hne

/-- **An instant between a task and its processing is published twice.** -/
theorem instant_published_twice :
    ¬ ∀ (final : Bookings) (organizationId : Uuid) (start : Option ℕ) (turns : List Turn),
        (∀ e v, Instant final organizationId e v → getStartDate ⟨start, []⟩ < v) →
        (∀ t ∈ turns, t.Fixed final organizationId) → Timely turns →
        Always (step organizationId) (ExactlyOnce final organizationId) ⟨start, []⟩ turns := by
  intro h
  have hfixed : ∀ t ∈ twoTurns, t.Fixed oneBooking 1 := by
    intro t ht
    rcases List.mem_cons.mp ht with rfl | ht
    · exact fun e v _ => Iff.rfl
    · obtain rfl := List.mem_singleton.mp ht
      exact fun e v _ => Iff.rfl
  have hrun := (h oneBooking 1 (some 5) twoTurns
    (fun e v he => (oneBooking_instant he).2 ▸ by decide) hfixed
    ⟨by decide, by simp [twoTurns]⟩).last rfl
  have hinstant : Instant oneBooking 1 ⟨1, .bookingAcquire, 6⟩ 11 :=
    ⟨rfl, by decide, _, List.mem_singleton_self _, rfl, by decide, rfl, rfl⟩
  exact absurd (hrun _ _ hinstant).1 (by decide)

/-- Processed at the time they were made, the two turns publish the instant once. -/
theorem exactlyOnce_of_tiles_prompt :
    Always (step 1) (ExactlyOnce oneBooking 1) ⟨some 5, []⟩
      [⟨10, 10, .ok false, oneBooking⟩, ⟨20, 20, .ok false, oneBooking⟩] := by
  refine exactlyOnce_of_tiles oneBooking 1 (some 5) _
    (fun e v he => (oneBooking_instant he).2 ▸ by decide) ?_ ?_
  · intro t ht
    rcases List.mem_cons.mp ht with rfl | ht
    · exact fun e v _ => Iff.rfl
    · obtain rfl := List.mem_singleton.mp ht
      exact fun e v _ => Iff.rfl
  · have hquiet : ∀ a, Quiet oneBooking 1 a a := fun a e v _ => by simp
    refine fun s _ => ⟨fun _ => ⟨fun h => (nomatch h), fun _ _ => hquiet 10⟩, fun s' _ => ?_⟩
    exact ⟨fun _ => ⟨fun h => (nomatch h), fun _ _ => hquiet 20⟩, trivial⟩

end BookingObserverWorker
