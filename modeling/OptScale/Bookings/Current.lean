import OptScale.Bookings.Overlap

/-!
# Bookings/Current — `get_resource_current_booking` against `is_active`

The booking of a resource that is current is looked up by a filter of its own, which lets a booking last
until the second of its end and `is_active` until the one before it.  Where the bookings of the resource
are apart the lookup finds the active one exactly when none of them ends now (`current_iff`).
-/

open Fallible Run

/-- `one_or_none` -/
def oneOrNone {α : Type*} : List α → Except Failure (Option α)
  | [] => .ok none
  | [a] => .ok (some a)
  | _ => .error (.python "MultipleResultsFound")

theorem oneOrNone_eq_ok {α : Type*} {rows : List α} {r : Option α} :
    oneOrNone rows = .ok r ↔ rows = r.toList := by
  rcases rows with _ | ⟨a, _ | ⟨b, l⟩⟩ <;> cases r <;> simp [oneOrNone]

namespace ShareableBookingController

/-- The filter of `get_resource_current_booking`. -/
def SelectedAt (resourceId : Uuid) (nowTs : ℕ) (b : ShareableBooking) : Prop :=
  b.resourceId = resourceId ∧ b.acquiredSince ≤ nowTs ∧ b.deletedAt = 0 ∧
    (b.releasedAt = 0 ∨ nowTs ≤ b.releasedAt)

instance (resourceId : Uuid) (nowTs : ℕ) (b : ShareableBooking) :
    Decidable (SelectedAt resourceId nowTs b) := inferInstanceAs (Decidable (_ ∧ _))

/-- `get_resource_current_booking`: the row. -/
def getResourceCurrentBooking (db : Bookings) (nowTs : ℕ) (resourceId : Uuid) :
    Except Failure (Option ShareableBooking) :=
  oneOrNone (db.rows.filter fun b => SelectedAt resourceId nowTs b)

/-- The booking of the resource that is active. -/
def ActiveAt (db : Bookings) (nowTs : ℕ) (resourceId : Uuid) (b : ShareableBooking) : Prop :=
  b ∈ db.rows ∧ ¬ b.Deleted ∧ b.resourceId = resourceId ∧ b.IsActive nowTs

/-- The lookup finds the active booking, or none where there is none. -/
def FindsActive (db : Bookings) (nowTs : ℕ) (resourceId : Uuid) : Prop :=
  ∃ r, getResourceCurrentBooking db nowTs resourceId = .ok r ∧
    ∀ b, r = some b ↔ ActiveAt db nowTs resourceId b

/-- A live booking of the resource ends now. -/
def EndsAt (nowTs : ℕ) (resourceId : Uuid) (b : ShareableBooking) : Prop :=
  b.resourceId = resourceId ∧ ¬ b.Deleted ∧ b.acquiredSince ≤ nowTs ∧ b.releasedAt = nowTs ∧
    b.releasedAt ≠ 0

section Lookup

variable {db : Bookings} {nowTs : ℕ} {resourceId : Uuid}

/-- **The filter selects what is active and what ends now.** -/
theorem selectedAt_iff {b : ShareableBooking} : SelectedAt resourceId nowTs b ↔
    (¬ b.Deleted ∧ b.resourceId = resourceId ∧ b.IsActive nowTs) ∨ EndsAt nowTs resourceId b := by
  constructor
  · rintro ⟨hres, hsince, hlive, hopen | hend⟩
    · exact Or.inl ⟨not_not_intro hlive, hres, hsince, Or.inl hopen⟩
    · by_cases hopen : b.releasedAt = 0
      · exact Or.inl ⟨not_not_intro hlive, hres, hsince, Or.inl hopen⟩
      · obtain hend | hend := hend.eq_or_lt
        · exact Or.inr ⟨hres, not_not_intro hlive, hsince, hend.symm, hopen⟩
        · exact Or.inl ⟨not_not_intro hlive, hres, hsince, Or.inr hend⟩
  · rintro (⟨hlive, hres, hsince, hopen | hend⟩ | ⟨hres, hlive, hsince, hend, -⟩)
    · exact ⟨hres, hsince, not_not.mp hlive, Or.inl hopen⟩
    · exact ⟨hres, hsince, not_not.mp hlive, Or.inr hend.le⟩
    · exact ⟨hres, hsince, not_not.mp hlive, Or.inr hend.ge⟩

/-- What ends now is not active. -/
theorem EndsAt.not_isActive {b : ShareableBooking} (h : EndsAt nowTs resourceId b) :
    ¬ b.IsActive nowTs := by
  obtain ⟨-, -, -, hend, hne⟩ := h
  rintro ⟨-, hzero | hlt⟩
  · exact hne hzero
  · exact absurd hend hlt.ne'

/-- Of bookings that are apart one is active at most. -/
theorem ActiveAt.unique (hdb : NonOverlapping db) {b c : ShareableBooking}
    (hb : ActiveAt db nowTs resourceId b) (hc : ActiveAt db nowTs resourceId c) : b = c := by
  obtain ⟨hmem, hlive, hres, hactive⟩ := hb
  obtain ⟨hmem', hlive', hres', hactive'⟩ := hc
  by_contra hne
  have hapart := hdb b hmem c hmem' hne hlive hlive' (hres.trans hres'.symm)
  exact ShareableBooking.apart_iff.mp hapart nowTs ⟨hactive, hactive'⟩

/-- **The lookup finds the active booking** of a resource whose bookings are apart exactly when none of
them ends now. -/
theorem current_iff (hdb : NonOverlapping db) :
    FindsActive db nowTs resourceId ↔ ∀ b ∈ db.rows, ¬ EndsAt nowTs resourceId b := by
  have hmem {b : ShareableBooking} : b ∈ db.rows.filter (fun b => SelectedAt resourceId nowTs b) ↔
      ActiveAt db nowTs resourceId b ∨ (b ∈ db.rows ∧ EndsAt nowTs resourceId b) := by
    rw [List.mem_filter, decide_eq_true_eq, selectedAt_iff, and_or_left]
    rfl
  constructor
  · rintro ⟨r, hr, hactive⟩ b hb hends
    have hsel := hmem.mpr (Or.inr ⟨hb, hends⟩)
    rw [oneOrNone_eq_ok.mp hr] at hsel
    exact hends.not_isActive ((hactive b).mp (Option.mem_toList.mp hsel)).2.2.2
  · intro hnone
    have hsel {b : ShareableBooking} :
        b ∈ db.rows.filter (fun b => SelectedAt resourceId nowTs b) ↔ ActiveAt db nowTs resourceId b :=
      hmem.trans (or_iff_left fun h => hnone b h.1 h.2)
    have hnodup : (db.rows.filter fun b => SelectedAt resourceId nowTs b).Nodup :=
      (List.Nodup.of_map _ db.nodup).filter _
    cases hrows : db.rows.filter fun b => SelectedAt resourceId nowTs b with
    | nil =>
      refine ⟨none, oneOrNone_eq_ok.mpr hrows, fun b => iff_of_false (by simp) fun hb => ?_⟩
      have hb := hsel.mpr hb
      rw [hrows] at hb
      exact absurd hb List.not_mem_nil
    | cons a rest =>
      have ha : ActiveAt db nowTs resourceId a := hsel.mp (hrows ▸ List.mem_cons_self)
      have hrest : rest = [] := by
        refine List.eq_nil_iff_forall_not_mem.mpr fun c hc => ?_
        have hac : a = c := ha.unique hdb (hsel.mp (hrows ▸ List.mem_cons_of_mem a hc))
        rw [hrows] at hnodup
        exact (List.nodup_cons.mp hnodup).1 (hac ▸ hc)
      refine ⟨some a, oneOrNone_eq_ok.mpr (by rw [hrows, hrest]; rfl), fun b => ?_⟩
      constructor
      · intro hab
        exact Option.some.inj hab ▸ ha
      · exact fun hb => congrArg some (ha.unique hdb hb)

end Lookup

/-! ### Back to back -/

/-- Book instance `3` until `200` and from `200`. -/
def backToBackCalls : List Call :=
  [.create reopening ⟨50, 50, 50, Nat.le_refl _, Nat.le_refl _⟩
      { id := 6, organizationId := 1, acquiredById := some 4, resourceId := 3,
        acquiredSince := some 100, releasedAt := some 200 },
    .create reopening ⟨60, 60, 60, Nat.le_refl _, Nat.le_refl _⟩
      { id := 7, organizationId := 1, acquiredById := some 4, resourceId := 3,
        acquiredSince := some 200, releasedAt := some 300 }]

/-- The bookings after these calls. -/
def backToBack : Bookings := ⟨[⟨6, 3, 4, 1, 100, 200, 0⟩, ⟨7, 3, 4, 1, 200, 300, 0⟩], by decide⟩

theorem nonOverlapping_backToBack : NonOverlapping backToBack := by
  intro b hb c hc hne _ _ _
  refine ShareableBooking.apart_iff.mpr fun t ht => ?_
  simp only [backToBack, List.mem_cons, List.not_mem_nil, or_false] at hb hc
  obtain rfl | rfl := hb <;> obtain rfl | rfl := hc <;>
    simp [ShareableBooking.IsActive] at hne ht <;> omega

/-- Between the two the lookup is as it should be. -/
theorem current_backToBack : FindsActive backToBack 150 3 ↔
    ∀ b ∈ backToBack.rows, ¬ EndsAt 150 3 b := current_iff nonOverlapping_backToBack

/-- **Where one booking ends and the next begins the lookup fails**, although only the next is active. -/
theorem backToBack_two_rows : run step Table.empty backToBackCalls = some backToBack ∧
    NonOverlapping backToBack ∧ ActiveAt backToBack 200 3 ⟨7, 3, 4, 1, 200, 300, 0⟩ ∧
      getResourceCurrentBooking backToBack 200 3 = .error (.python "MultipleResultsFound") :=
  ⟨rfl, nonOverlapping_backToBack, ⟨List.mem_cons_of_mem _ List.mem_cons_self, by decide, rfl, by decide⟩,
    rfl⟩

end ShareableBookingController
