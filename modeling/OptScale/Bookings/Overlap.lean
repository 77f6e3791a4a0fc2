import OptScale.Bookings.Booking
import OptScale.Foundations.Run
import OptScale.Foundations.Slot

/-!
# Bookings/Overlap — which calls keep the bookings of a resource apart

A live booking occupies a slot of its resource, and two live bookings of one resource must not meet.
`create` looks at the slot it is asked for, except that a start given as `0` is checked as *now* and
stored as `0`; `release` looks at the bookings that start strictly later and at no others.  So a
call keeps the bookings apart exactly when it meets `Call.Keeps` (`step_iff`), and a run does
throughout exactly when all its calls do (`nonOverlapping_iff`).
-/

open Fallible Run

/-! ## Slots of bookings -/

namespace ShareableBooking

/-- The slot a booking occupies; no end while `released_at` is `0`. -/
def slot (b : ShareableBooking) : Slot ℕ :=
  ⟨b.acquiredSince, if b.releasedAt = 0 then ⊤ else WithTop.some b.releasedAt⟩

/-- **A booking is active exactly in its slot.** -/
theorem mem_slot {b : ShareableBooking} {t : ℕ} : t ∈ b.slot.instants ↔ b.IsActive t := by
  unfold slot
  rw [Slot.mem_instants]
  refine and_congr_right fun _ => ?_
  dsimp only
  split_ifs with h
  · simp [h]
  · rw [WithTop.coe_lt_coe]
    exact (or_iff_right h).symm

/-- The two bookings are never active together. -/
def Apart (b c : ShareableBooking) : Prop := Disjoint b.slot.instants c.slot.instants

theorem Apart.symm {b c : ShareableBooking} (h : b.Apart c) : c.Apart b := Disjoint.symm h

/-- Being apart, in the words of `is_active`. -/
theorem apart_iff {b c : ShareableBooking} :
    b.Apart c ↔ ∀ t, ¬ (b.IsActive t ∧ c.IsActive t) := by
  simp only [Apart, Set.disjoint_left, mem_slot, not_and]

/-- **Bookings meet exactly where one of them starts.** -/
theorem not_apart_iff {b c : ShareableBooking} :
    ¬ b.Apart c ↔ b.IsActive b.acquiredSince ∧ c.IsActive b.acquiredSince ∨
      b.IsActive c.acquiredSince ∧ c.IsActive c.acquiredSince := by
  have h := Slot.not_disjoint_iff (A := b.slot) (B := c.slot)
  simp only [mem_slot] at h
  exact h

end ShareableBooking

/-- **Any two distinct live bookings of one resource are apart.** -/
def NonOverlapping (db : Bookings) : Prop :=
  ∀ b ∈ db.rows, ∀ c ∈ db.rows, b ≠ c → ¬ b.Deleted → ¬ c.Deleted →
    b.resourceId = c.resourceId → b.Apart c

namespace ShareableBookingController

/-! ## Runs of calls -/

/-- A call of the controller, with what it finds around it and on the clock. -/
inductive Call
  | create (env : Surroundings) (clock : Clock) (a : CreateArgs)
  | release (env : Surroundings) (nowTs : ℕ) (a : ReleaseArgs)
  | delete (env : Surroundings) (nowTs : ℕ) (itemId : Uuid) (isAdminPermission : Bool)

/-- One successful call. -/
def step (db : Bookings) : Call → Option Bookings
  | .create env clock a => toOption (create env clock db a)
  | .release env nowTs a => toOption (release env nowTs db a)
  | .delete env nowTs itemId isAdmin => toOption (delete env nowTs db itemId isAdmin)

/-- The end a call is given, `0` for none. -/
def endOf (releasedAt : Option ℤ) : ℕ := (releasedAt.getD 0).toNat

/-- **When `create` keeps the bookings apart**: a start given as `0` asks for every instant before
the end, so no live booking of the resource may have held it before that. -/
def CreateKeeps (db : Bookings) (a : CreateArgs) : Prop :=
  a.acquiredSince = some 0 → ∀ b ∈ db.rows, ¬ b.Deleted → b.resourceId = a.resourceId →
    b.IsActive b.acquiredSince → endOf a.releasedAt ≠ 0 ∧ endOf a.releasedAt ≤ b.acquiredSince

/-- **When `release` keeps the bookings apart**: unless it leaves the booking empty, no other live
booking of the resource is active where the booking starts. -/
def ReleaseKeeps (db : Bookings) (a : ReleaseArgs) : Prop :=
  ∀ item ∈ db.rows, item.id = a.itemId →
    (endOf a.releasedAt = 0 ∨ item.acquiredSince < endOf a.releasedAt) →
    ∀ b ∈ db.rows, b ≠ item → ¬ b.Deleted → b.resourceId = item.resourceId →
      ¬ b.IsActive item.acquiredSince

/-- When a call keeps the bookings apart. -/
def Call.Keeps (db : Bookings) : Call → Prop
  | .create _ _ a => CreateKeeps db a
  | .release _ _ a => ReleaseKeeps db a
  | .delete .. => True

/-! ## What a successful call did -/

theorem nullableInt_eq_ok {key : String} {v : Option ℤ} {w : Option ℕ}
    (h : nullableInt key v = .ok w) : w = v.map Int.toNat ∧ ∀ x ∈ v, 0 ≤ x := by
  cases v with
  | none => simpa [nullableInt, eq_comm] using h
  | some x =>
    simp only [nullableInt, bind_eq_ok, require_eq_ok, pure_eq_ok] at h
    obtain ⟨-, hx, rfl⟩ := h
    simpa using hx.1

/-- The start `create` stores: the one given, or the clock when the row is written. -/
def startOf (acquiredSince : Option ℤ) (flush : ℕ) : ℕ :=
  (acquiredSince.map Int.toNat).getD flush

/-- The start `create` checks: the one given, or the clock when that is missing *or zero*. -/
def checkedStart (acquiredSince : Option ℤ) (nowTs : ℕ) : ℕ :=
  if startOf acquiredSince 0 = 0 then nowTs else startOf acquiredSince 0

/-- **What a successful `create` did**: one live row more, on a slot that clashed with no booking
where it was checked. -/
theorem create_eq_ok {env : Surroundings} {clock : Clock} {db db' : Bookings} {a : CreateArgs}
    (h : create env clock db a = .ok db') :
    ∃ n : ShareableBooking, db'.rows = db.rows ++ [n] ∧ n.id ∉ db.rows.map (·.id) ∧
      ¬ n.Deleted ∧ n.resourceId = a.resourceId ∧
      n.acquiredSince = startOf a.acquiredSince clock.flush ∧
      n.releasedAt = endOf a.releasedAt ∧ (∀ s ∈ a.acquiredSince, 0 ≤ s) ∧
      ∀ b ∈ db.rows, b.resourceId = a.resourceId → ¬ b.Deleted →
        ¬ Clashes b (checkedStart a.acquiredSince clock.slot) (endOf a.releasedAt) := by
  simp only [create, bind_eq_ok, orFail_eq_ok] at h
  obtain ⟨employee, -, since, hsince, released, hreleased, _, -, _, hslots, _, -, _, -, h⟩ := h
  obtain ⟨rfl, hpos⟩ := nullableInt_eq_ok hsince
  obtain ⟨rfl, -⟩ := nullableInt_eq_ok hreleased
  obtain ⟨hfresh, hrows⟩ := Table.insert?_eq_some.mp h
  have hend : (a.releasedAt.map Int.toNat).getD 0 = endOf a.releasedAt := by
    cases a.releasedAt <;> rfl
  refine ⟨_, hrows, hfresh, not_not.mpr rfl, rfl, rfl, hend, hpos, ?_⟩
  simp only [checkSlotsWithExisting, require_eq_ok, hend] at hslots
  exact hslots

theorem getBooking_eq_ok {db : Bookings} {itemId : Uuid} {item : ShareableBooking} :
    getBooking db itemId = .ok item ↔ item ∈ db.rows ∧ item.id = itemId ∧ ¬ item.Deleted := by
  simp only [getBooking, bind_eq_ok, orFail_eq_ok, Table.get?_eq_some, require_eq_ok, pure_eq_ok]
  constructor
  · rintro ⟨b, ⟨hb, hid⟩, -, hlive, rfl⟩
    exact ⟨hb, hid, hlive⟩
  · rintro ⟨hb, hid, hlive⟩
    exact ⟨item, ⟨hb, hid⟩, (), hlive, rfl⟩

/-- **What a successful `release` did**: it gave a live row an end that is not before its start and
not past the start of a booking that starts later. -/
theorem release_eq_ok {env : Surroundings} {nowTs : ℕ} {db db' : Bookings} {a : ReleaseArgs}
    (h : release env nowTs db a = .ok db') :
    ∃ item ∈ db.rows, item.id = a.itemId ∧ ¬ item.Deleted ∧
      (endOf a.releasedAt = 0 ∨ item.acquiredSince ≤ endOf a.releasedAt) ∧
      (∀ b ∈ db.rows, b ≠ item → b.resourceId = item.resourceId →
        b.acquiredSince > item.acquiredSince → ¬ b.Deleted →
        endOf a.releasedAt ≠ 0 ∧ endOf a.releasedAt ≤ b.acquiredSince) ∧
      db' = setReleasedAt db a.itemId (endOf a.releasedAt) := by
  simp only [release, bind_eq_ok, getBooking_eq_ok, require_eq_ok, pure_eq_ok] at h
  obtain ⟨item, ⟨hitem, hid, hlive⟩, _, -, _, -, r, hr, _, -, _, hdates, _, hlater, _, -, _, -,
    h⟩ := h
  obtain rfl : r = endOf a.releasedAt := by
    cases hv : a.releasedAt with
    | none => simp [checkIntAttribute, hv, orFail] at hr
    | some v =>
      simp only [checkIntAttribute, hv, orFail_eq_ok, bind_eq_ok, require_eq_ok, pure_eq_ok] at hr
      obtain ⟨_, hv', -, -, rfl⟩ := hr
      obtain rfl := Option.some.inj hv'
      rfl
  refine ⟨item, hitem, hid, hlive, ?_, fun b hb hne hres hgt hdel => ?_, h.symm⟩
  · simp only [checkDates, require_eq_ok] at hdates
    omega
  · have := hlater b hb (db.key_ne hb hitem hne) hres hgt hdel
    omega

/-- **What a successful `delete` did.** -/
theorem delete_eq_ok {env : Surroundings} {nowTs : ℕ} {db db' : Bookings} {itemId : Uuid}
    {isAdmin : Bool} (h : delete env nowTs db itemId isAdmin = .ok db') :
    ∃ item ∈ db.rows, item.id = itemId ∧ ¬ item.Deleted ∧ db' = setDeletedAt db itemId nowTs := by
  simp only [delete, bind_eq_ok, getBooking_eq_ok, pure_eq_ok] at h
  obtain ⟨item, ⟨hitem, hid, hlive⟩, _, -, _, -, _, -, h⟩ := h
  exact ⟨item, hitem, hid, hlive, h.symm⟩

/-! ## What one call does to the slots -/

/-- A live row more keeps the bookings apart exactly when it is apart from the others. -/
theorem nonOverlapping_append {db db' : Bookings} {n : ShareableBooking} (hdb : NonOverlapping db)
    (hrows : db'.rows = db.rows ++ [n]) (hlive : ¬ n.Deleted) :
    NonOverlapping db' ↔
      ∀ b ∈ db.rows, ¬ b.Deleted → b.resourceId = n.resourceId → b ≠ n → b.Apart n := by
  unfold NonOverlapping
  simp only [hrows, List.mem_append, List.mem_singleton]
  constructor
  · exact fun h b hb hdel hres hne => h b (Or.inl hb) n (Or.inr rfl) hne hdel hlive hres
  · rintro h b (hb | rfl) c (hc | rfl) hne hdel hdel' hres
    · exact hdb b hb c hc hne hdel hdel' hres
    · exact h b hb hdel hres hne
    · exact (h c hc hdel' hres.symm hne.symm).symm
    · exact absurd rfl hne

/-- A changed row keeps the bookings apart exactly when it is apart from the others. -/
theorem nonOverlapping_setReleasedAt {db : Bookings} {item : ShareableBooking} {r : ℕ}
    (hdb : NonOverlapping db) (hitem : item ∈ db.rows) (hlive : ¬ item.Deleted) :
    NonOverlapping (setReleasedAt db item.id r) ↔
      ∀ b ∈ db.rows, b ≠ item → ¬ b.Deleted → b.resourceId = item.resourceId →
        b.Apart { item with releasedAt := r } := by
  have hmem : ∀ b, b ∈ (setReleasedAt db item.id r).rows ↔
      b = { item with releasedAt := r } ∨ b ∈ db.rows ∧ b ≠ item := by
    intro b
    rw [setReleasedAt, Table.mem_updateWhere]
    constructor
    · rintro ⟨c, hc, rfl⟩
      by_cases hid : c.id = item.id
      · obtain rfl := db.eq_of_key hc hitem hid
        simp
      · rw [if_neg (by simpa using hid)]
        exact Or.inr ⟨hc, fun h => hid (h ▸ rfl)⟩
    · rintro (rfl | ⟨hb, hne⟩)
      · exact ⟨item, hitem, by simp⟩
      · exact ⟨b, hb, if_neg (by simpa using db.key_ne hb hitem hne)⟩
  unfold NonOverlapping
  simp only [hmem]
  constructor
  · intro h b hb hne hdel hres
    refine h b (Or.inr ⟨hb, hne⟩) _ (Or.inl rfl) (fun hb' => ?_) hdel hlive hres
    exact db.key_ne hb hitem hne (hb' ▸ rfl)
  · rintro h b (rfl | ⟨hb, hbi⟩) c (rfl | ⟨hc, hci⟩) hne hdel hdel' hres
    · exact absurd rfl hne
    · exact (h c hc hci hdel' hres.symm).symm
    · exact h b hb hbi hdel hres
    · exact hdb b hb c hc hne hdel hdel' hres

/-- Deleting a booking keeps the others apart. -/
theorem nonOverlapping_setDeletedAt {db : Bookings} {item : ShareableBooking} {t : ℕ}
    (hdb : NonOverlapping db) (hitem : item ∈ db.rows) (hlive : ¬ item.Deleted) :
    NonOverlapping (setDeletedAt db item.id t) := by
  -- a live row of the new table sits where a live row of the old one does
  have hold : ∀ b ∈ (setDeletedAt db item.id t).rows, ¬ b.Deleted → ∃ c ∈ db.rows,
      ¬ c.Deleted ∧ c.slot = b.slot ∧ c.resourceId = b.resourceId ∧ c.id = b.id := by
    intro b hb hdel
    obtain ⟨c, hc, rfl⟩ := Table.mem_updateWhere.mp hb
    by_cases hid : c.id = item.id
    · obtain rfl := db.eq_of_key hc hitem hid
      refine ⟨c, hc, hlive, ?_, ?_, ?_⟩ <;> simp [ShareableBooking.slot]
    · rw [if_neg (by simpa using hid)] at hdel ⊢
      exact ⟨c, hc, hdel, rfl, rfl, rfl⟩
  intro b hb b' hb' hne hdel hdel' hres
  obtain ⟨c, hc, hcdel, hslot, hcres, hid⟩ := hold b hb hdel
  obtain ⟨c', hc', hcdel', hslot', hcres', hid'⟩ := hold b' hb' hdel'
  have hne' : c ≠ c' := fun hcc =>
    (setDeletedAt db item.id t).key_ne hb hb' hne (hid.symm.trans ((congrArg _ hcc).trans hid'))
  have hapart : c.Apart c' :=
    hdb c hc c' hc' hne' hcdel hcdel' (hcres.trans (hres.trans hcres'.symm))
  simpa only [ShareableBooking.Apart, hslot, hslot'] using hapart

/-- **`create` keeps the bookings apart exactly when it meets `CreateKeeps`.** -/
theorem create_iff {env : Surroundings} {clock : Clock} {db db' : Bookings} {a : CreateArgs}
    (hdb : NonOverlapping db) (h : create env clock db a = .ok db') :
    NonOverlapping db' ↔ CreateKeeps db a := by
  obtain ⟨n, hrows, hfresh, hlive, hres, hstart, hend, hpos, hclash⟩ := create_eq_ok h
  rw [nonOverlapping_append hdb hrows hlive]
  have hne : ∀ b ∈ db.rows, b ≠ n := fun b hb hbn =>
    hfresh (List.mem_map.mpr ⟨b, hb, congrArg _ hbn⟩)
  have hclock := clock.slot_le.trans clock.past_le
  unfold CreateKeeps
  constructor
  · -- a start of zero is stored as zero, so the new booking holds everything before its end
    intro happart hzero b hb hdel hbres hself
    have hn := ShareableBooking.apart_iff.mp
      (happart b hb hdel (hbres.trans hres.symm) (hne b hb)) b.acquiredSince
    have hn0 : n.acquiredSince = 0 := by rw [hstart, hzero]; rfl
    simp only [ShareableBooking.IsActive, hn0, hend] at hn hself
    omega
  · intro hkeeps b hb hdel hbres _
    have hb' := hclash b hb (hbres.trans hres) hdel
    by_contra hmeet
    rw [ShareableBooking.not_apart_iff] at hmeet
    simp only [ShareableBooking.IsActive, hend] at hmeet hb' hkeeps
    cases hs : a.acquiredSince with
    | none =>
      have hn : n.acquiredSince = clock.flush := by rw [hstart, hs]; rfl
      have hc : checkedStart a.acquiredSince clock.slot = clock.slot := by rw [hs]; rfl
      rw [hn] at hmeet
      rw [hc] at hb'
      omega
    | some s =>
      have hn : n.acquiredSince = s.toNat := by rw [hstart, hs]; rfl
      have hs0 : 0 ≤ s := hpos s hs
      rw [hn] at hmeet
      by_cases hzero : s = 0
      · have hfree := hkeeps (hzero ▸ hs) b hb hdel (hbres.trans hres)
        omega
      · have hc : checkedStart a.acquiredSince clock.slot = s.toNat := by
          rw [hs]
          exact if_neg (show s.toNat ≠ 0 by omega)
        rw [hc] at hb'
        omega

/-- **`release` keeps the bookings apart exactly when it meets `ReleaseKeeps`.** -/
theorem release_iff {env : Surroundings} {nowTs : ℕ} {db db' : Bookings} {a : ReleaseArgs}
    (hdb : NonOverlapping db) (h : release env nowTs db a = .ok db') :
    NonOverlapping db' ↔ ReleaseKeeps db a := by
  obtain ⟨item, hitem, hid, hlive, hdates, hlater, rfl⟩ := release_eq_ok h
  rw [← hid, nonOverlapping_setReleasedAt hdb hitem hlive]
  unfold ReleaseKeeps
  constructor
  · intro happart item' hitem' hid' hlong b hb hne hdel hres hactive
    obtain rfl := db.eq_of_key hitem' hitem (hid'.trans hid.symm)
    have hn := ShareableBooking.apart_iff.mp (happart b hb hne hdel hres) item'.acquiredSince
    simp only [ShareableBooking.IsActive] at hn hactive
    omega
  · intro hkeeps b hb hne hdel hres
    by_contra hmeet
    have hfree := fun hlong => hkeeps item hitem hid hlong b hb hne hdel hres
    have hafter := hlater b hb hne hres
    rw [ShareableBooking.not_apart_iff] at hmeet
    simp only [ShareableBooking.IsActive] at hmeet hfree
    omega

/-- **A successful call keeps the bookings apart exactly when it meets `Call.Keeps`.** -/
theorem step_iff {db db' : Bookings} {c : Call} (hdb : NonOverlapping db)
    (h : step db c = some db') : NonOverlapping db' ↔ c.Keeps db := by
  cases c with
  | create env clock a => exact create_iff hdb (toOption_eq_some.mp h)
  | release env nowTs a => exact release_iff hdb (toOption_eq_some.mp h)
  | delete env nowTs itemId isAdmin =>
    obtain ⟨item, hitem, rfl, hlive, rfl⟩ := delete_eq_ok (toOption_eq_some.mp h)
    exact iff_of_true (nonOverlapping_setDeletedAt hdb hitem hlive) trivial

/-! ## Runs -/

/-- **A run from no bookings keeps the bookings apart in every state exactly when each of its
calls meets `Call.Keeps`.** -/
theorem nonOverlapping_iff (calls : List Call) :
    Always step NonOverlapping Table.empty calls ↔
      Along step (fun db c _ => c.Keeps db) Table.empty calls :=
  always_iff_along (fun _ c _ hdb h => step_iff (c := c) hdb h)
    (fun _ hb => absurd hb List.not_mem_nil)

/-! ### A booking reopened over its neighbour

An empty booking clashes with nothing, also not with one that starts at the same instant; reopened,
it holds that instant together with it.
-/

/-- The clock when the call began. -/
def Call.began : Call → ℕ
  | .create _ clock _ => clock.slot
  | .release _ nowTs _ => nowTs
  | .delete _ nowTs _ _ => nowTs

/-- The clock when the call ended. -/
def Call.ended : Call → ℕ
  | .create _ clock _ => clock.flush
  | .release _ nowTs _ => nowTs
  | .delete _ nowTs _ _ => nowTs

/-- The calls are made one after the other. -/
def Timely (calls : List Call) : Prop := calls.IsChain fun c d => c.ended ≤ d.began

/-- Organization `1` with its account `2`, a shareable instance `3` and employee `4`. -/
def reopening : Surroundings where
  organization o := o = 1
  employee e o := if e = 4 ∧ o = 1 then some ⟨4, "employee", 5⟩ else none
  resource r :=
    if r = 3 then
      some { id := 3, cloudAccountId := some 2, resourceType := instanceType, active := true,
             shareable := true }
    else none
  accountOrganization c := if c = 2 then some 1 else none
  sshKey _ := none
  userId := some 5
  authorizeUserList _ _ := some true
  calendar := .ok ()

/-- Book instance `3` from `100`, first for nothing and then until `200`, and reopen the first. -/
def reopeningCalls : List Call :=
  [.create reopening ⟨50, 50, 50, le_rfl, le_rfl⟩
      { id := 6, organizationId := 1, acquiredById := some 4, resourceId := 3,
        acquiredSince := some 100, releasedAt := some 100 },
    .create reopening ⟨60, 60, 60, le_rfl, le_rfl⟩
      { id := 7, organizationId := 1, acquiredById := some 4, resourceId := 3,
        acquiredSince := some 100, releasedAt := some 200 },
    .release reopening 70 { itemId := 6, isAdminPermission := false, releasedAt := some 0 }]

/-- **Bookings do come to overlap.** -/
theorem reopened_booking_overlaps :
    ¬ ∀ calls, Timely calls → Always step NonOverlapping Table.empty calls := by
  intro h
  let reopened : ShareableBooking := ⟨6, 3, 4, 1, 100, 0, 0⟩
  let other : ShareableBooking := ⟨7, 3, 4, 1, 100, 200, 0⟩
  have hrun : run step Table.empty reopeningCalls = some ⟨[reopened, other], by decide⟩ := rfl
  have htimely : Timely reopeningCalls := by simp [Timely, reopeningCalls, Call.ended, Call.began]
  have hapart : reopened.Apart other :=
    (h _ htimely).last hrun _ (by simp) _ (by simp) (by decide) (by decide) (by decide) rfl
  exact ShareableBooking.apart_iff.mp hapart 100 (by decide)

end ShareableBookingController
