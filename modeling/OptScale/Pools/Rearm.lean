import OptScale.Pools.Alert
import OptScale.Foundations.Run

/-!
# Pools/Rearm — which runs re-arm the alerts that cleared

Everything but `last_shoot_at` may change from one run to the next.  A run that gets to `commit`
stores `0` for every alert below its threshold; a run in which nothing exceeds stores nothing.  So
the alerts are re-armed exactly in the runs that meet `Commits` (`rearms_iff`).
-/

open Fallible Run

namespace PoolAlertController

/-- One run, by what it stores. -/
def step (lastShootAt : LastShootAt) (t : Turn) : Option LastShootAt :=
  (toOption (processAlerts lastShootAt t)).map Outcome.lastShootAt

/-- The run notifies for the alert. -/
def Notifies (lastShootAt : LastShootAt) (t : Turn) (alertId : Uuid) : Prop :=
  ∃ outcome, processAlerts lastShootAt t = .ok outcome ∧
    ∃ task ∈ outcome.tasks, task.alertId = alertId

/-- After the run every alert that does not exceed is armed. -/
def Rearmed (t : Turn) (lastShootAt : LastShootAt) : Prop :=
  ∀ a ∈ t.affectedAlerts, ¬ t.Exceeds a → lastShootAt a.id = 0

/-- The run notifies for an alert exactly when it exceeds and was armed or notified for at least
12 hours ago. -/
def NotifiesDue (lastShootAt : LastShootAt) (t : Turn) : Prop :=
  ∀ a ∈ t.affectedAlerts, Notifies lastShootAt t a.id ↔
    t.Exceeds a ∧ (lastShootAt a.id = 0 ∨ lastShootAt a.id + notificationInterval ≤ t.now a.id)

/-- **When a run re-arms**: some alert exceeds, or every alert is armed as it is. -/
def Commits (lastShootAt : LastShootAt) (t : Turn) : Prop :=
  (∃ a ∈ t.affectedAlerts, t.Exceeds a) ∨ ∀ a ∈ t.affectedAlerts, lastShootAt a.id = 0

/-- An alert that cleared in one run and exceeds again in a later one, for the first time since, is
notified for in that one. -/
def RenotifiesCleared (lastShootAt : LastShootAt) (turns : List Turn) : Prop :=
  ∀ before t between u after, turns = before ++ t :: (between ++ u :: after) →
    ∀ stored, run step lastShootAt (before ++ t :: between) = some stored →
    ∀ a ∈ t.affectedAlerts, ¬ t.Exceeds a →
      (∀ v ∈ between, ∀ b ∈ v.affectedAlerts, b.id = a.id → ¬ v.Exceeds b) →
      ∀ b ∈ u.affectedAlerts, b.id = a.id → u.Exceeds b → u.organizationFound →
        Notifies stored u a.id

/-! ## One run -/

section Turn

variable {t : Turn} {s s' : LastShootAt}

theorem affected_eq_of_id {a b : PoolAlert} (ha : a ∈ t.affectedAlerts) (hb : b ∈ t.affectedAlerts)
    (h : a.id = b.id) : a = b :=
  t.alerts.eq_of_key (List.mem_filter.mp ha).1 (List.mem_filter.mp hb).1 h

/-- An exceeding alert is not among the re-armed ones. -/
theorem session_of_exceeds {a : PoolAlert} (ha : a ∈ t.affectedAlerts) (hex : t.Exceeds a) :
    (if ∃ b ∈ t.affectedAlerts, b.id = a.id ∧ ¬ t.Exceeds b then 0 else s a.id) = s a.id := by
  refine if_neg ?_
  rintro ⟨b, hb, hid, hnot⟩
  exact hnot (affected_eq_of_id hb ha hid ▸ hex)

theorem mem_exceeding {a : PoolAlert} :
    a ∈ t.affectedAlerts.filter (fun a => t.Exceeds a) ↔ a ∈ t.affectedAlerts ∧ t.Exceeds a := by
  rw [List.mem_filter, decide_eq_true_eq]

/-- **What a run does**: it notifies for what exceeds and is not recent, stores `0` for what does not
exceed if it commits at all, and leaves the other alerts alone. -/
theorem processAlerts_spec (hfound : t.organizationFound) (s : LastShootAt) :
    ∃ outcome, processAlerts s t = .ok outcome ∧
      (∀ a ∈ t.affectedAlerts, (∃ task ∈ outcome.tasks, task.alertId = a.id) ↔
        t.Exceeds a ∧ ¬ Recent (s a.id) (t.now a.id)) ∧
      (∀ a ∈ t.affectedAlerts, ¬ t.Exceeds a → outcome.lastShootAt a.id =
        if ∃ b ∈ t.affectedAlerts, t.Exceeds b then 0 else s a.id) ∧
      ∀ id, (∀ a ∈ t.affectedAlerts, a.id ≠ id) → outcome.lastShootAt id = s id := by
  unfold processAlerts
  rw [require_of hfound, ok_bind]
  by_cases hex : ∃ b ∈ t.affectedAlerts, t.Exceeds b
  · have hne : t.affectedAlerts.filter (fun a => t.Exceeds a) ≠ [] := by
      obtain ⟨b, hb, hbex⟩ := hex
      exact List.ne_nil_of_mem (mem_exceeding.mpr ⟨hb, hbex⟩)
    have hresult : ∀ a, a ∈ (t.affectedAlerts.filter fun a => t.Exceeds a).filter (fun a =>
          ¬ Recent (if ∃ b ∈ t.affectedAlerts, b.id = a.id ∧ ¬ t.Exceeds b then 0 else s a.id)
            (t.now a.id)) ↔
        a ∈ t.affectedAlerts ∧ t.Exceeds a ∧ ¬ Recent (s a.id) (t.now a.id) := by
      intro a
      rw [List.mem_filter, mem_exceeding, and_assoc, decide_eq_true_eq]
      refine and_congr_right fun ha => and_congr_right fun hexa => ?_
      rw [session_of_exceeds ha hexa]
    simp only [if_neg hne]
    refine ⟨_, rfl, fun a ha => ?_, fun a ha hnot => ?_, fun id hid => ?_⟩
    · simp only [List.mem_flatMap, hresult, List.mem_map]
      constructor
      · rintro ⟨_, ⟨b, ⟨hb, hbex, hdue⟩, info, -, rfl⟩, hid⟩
        obtain rfl := affected_eq_of_id hb ha hid
        exact ⟨hbex, hdue⟩
      · rintro ⟨hexa, hdue⟩
        obtain ⟨info, hinfo⟩ := List.exists_mem_of_ne_nil _ hexa
        exact ⟨_, ⟨a, ⟨ha, hexa, hdue⟩, info, hinfo, rfl⟩, rfl⟩
    · dsimp only
      rw [if_neg, if_pos ⟨a, ha, rfl, hnot⟩, if_pos hex]
      rintro ⟨b, hb, hid⟩
      obtain ⟨hb, hbex, -⟩ := (hresult b).mp hb
      exact hnot (affected_eq_of_id hb ha hid ▸ hbex)
    · dsimp only
      rw [if_neg, if_neg]
      · exact fun ⟨b, hb, hbid, _⟩ => hid b hb hbid
      · exact fun ⟨b, hb, hbid⟩ => hid b ((hresult b).mp hb).1 hbid
  · have hnil : t.affectedAlerts.filter (fun a => t.Exceeds a) = [] :=
      List.eq_nil_iff_forall_not_mem.mpr fun a ha =>
        hex ⟨a, (mem_exceeding.mp ha).1, (mem_exceeding.mp ha).2⟩
    simp only [if_pos hnil]
    refine ⟨_, rfl, fun a ha => ?_, fun a _ _ => (if_neg hex).symm, fun _ _ => rfl⟩
    exact iff_of_false (by simp) fun h => hex ⟨a, ha, h.1⟩

theorem step_eq_some :
    step s t = some s' ↔ ∃ outcome, processAlerts s t = .ok outcome ∧ outcome.lastShootAt = s' := by
  simp only [step, Option.map_eq_some_iff, toOption_eq_some]

theorem found_of_ok {outcome : Outcome} (h : processAlerts s t = .ok outcome) :
    t.organizationFound := by
  by_contra hnot
  rw [processAlerts, require_not hnot] at h
  exact nomatch h

/-- What a stored run says of the alerts that do not exceed. -/
theorem stored_of_not_exceeds (h : step s t = some s') {a : PoolAlert}
    (ha : a ∈ t.affectedAlerts) (hnot : ¬ t.Exceeds a) :
    s' a.id = if ∃ b ∈ t.affectedAlerts, t.Exceeds b then 0 else s a.id := by
  obtain ⟨o, ho, rfl⟩ := step_eq_some.mp h
  obtain ⟨o', ho', -, hstored, -⟩ := processAlerts_spec (found_of_ok ho) s
  obtain rfl := Except.ok.inj (ho.symm.trans ho')
  exact hstored a ha hnot

/-- An armed alert stays armed in a run in which it does not exceed. -/
theorem armed_of_not_exceeds (h : step s t = some s') {id : Uuid} (harmed : s id = 0)
    (hnot : ∀ a ∈ t.affectedAlerts, a.id = id → ¬ t.Exceeds a) : s' id = 0 := by
  by_cases haff : ∃ a ∈ t.affectedAlerts, a.id = id
  · obtain ⟨a, ha, rfl⟩ := haff
    rw [stored_of_not_exceeds h ha (hnot a ha rfl), harmed, ite_self]
  · obtain ⟨o, ho, rfl⟩ := step_eq_some.mp h
    obtain ⟨o', ho', -, -, hother⟩ := processAlerts_spec (found_of_ok ho) s
    obtain rfl := Except.ok.inj (ho.symm.trans ho')
    rw [hother id fun a ha hid => haff ⟨a, ha, hid⟩, harmed]

/-- **A run notifies exactly for what is due.** -/
theorem notifiesDue (hfound : t.organizationFound) (s : LastShootAt) : NotifiesDue s t := by
  intro a ha
  obtain ⟨o, ho, htasks, -⟩ := processAlerts_spec hfound s
  have hnotifies : Notifies s t a.id ↔ ∃ task ∈ o.tasks, task.alertId = a.id :=
    ⟨fun ⟨o', ho', h⟩ => Except.ok.inj (ho.symm.trans ho') ▸ h, fun h => ⟨o, ho, h⟩⟩
  rw [hnotifies, htasks a ha]
  refine and_congr_right fun _ => ?_
  simp only [Recent]
  omega

/-- **A run re-arms exactly when it commits** or has nothing to re-arm. -/
theorem rearmed_iff (h : step s t = some s') : Rearmed t s' ↔ Commits s t := by
  unfold Rearmed Commits
  by_cases hex : ∃ b ∈ t.affectedAlerts, t.Exceeds b
  · refine iff_of_true (fun a ha hnot => ?_) (Or.inl hex)
    rw [stored_of_not_exceeds h ha hnot, if_pos hex]
  · refine Iff.trans ?_ (or_iff_right hex).symm
    refine forall₂_congr fun a ha => ?_
    have hnot : ¬ t.Exceeds a := fun h => hex ⟨a, ha, h⟩
    rw [forall_prop_of_true hnot, stored_of_not_exceeds h ha hnot, if_neg hex]

end Turn

/-! ## Runs -/

/-- **The alerts are re-armed in every run exactly when every run meets `Commits`**; each run
notifies for what is due, and where they all re-arm, an alert that cleared is notified for when it
next exceeds. -/
theorem rearms_iff (lastShootAt : LastShootAt) (turns : List Turn) :
    (Along step (fun s t s' => Rearmed t s' ∧ NotifiesDue s t) lastShootAt turns ↔
      Along step (fun s t _ => Commits s t) lastShootAt turns) ∧
    (Along step (fun s t _ => Commits s t) lastShootAt turns →
      RenotifiesCleared lastShootAt turns) := by
  constructor
  · exact along_congr fun s t s' h =>
      ⟨fun hboth => (rearmed_iff h).mp hboth.1, fun hcommits => ⟨(rearmed_iff h).mpr hcommits, by
        obtain ⟨o, ho, -⟩ := step_eq_some.mp h
        exact notifiesDue (found_of_ok ho) s⟩⟩
  · rintro hcommits before t between u after rfl stored hrun a ha hnot hbetween b hb hid hex hfound
    rw [run_append] at hrun
    obtain ⟨s, hbefore, hrun⟩ := Option.bind_eq_some_iff.mp hrun
    obtain ⟨s', hs, hrun⟩ := Option.bind_eq_some_iff.mp hrun
    have hrearmed : Rearmed t s' := (rearmed_iff hs).mpr ((hcommits.drop hbefore) s' hs).1
    have harmed : stored a.id = 0 :=
      run_keeps (fun v hv _ _ hstep h0 => armed_of_not_exceeds hstep h0 (hbetween v hv))
        (hrearmed a ha hnot) hrun
    rw [← hid] at harmed ⊢
    exact (notifiesDue hfound stored b hb).mpr ⟨hex, Or.inl harmed⟩

/-! ### A lone alert

The only alert of an organization exceeds, clears and exceeds again within 12 hours.
-/

/-- The clock does not go back from one run to the next. -/
def Timely (turns : List Turn) : Prop := turns.IsChain fun t u => ∀ x y, t.now x ≤ u.now y

/-- One pool `2` with one alert `1` above `10`, costing `cost` at `now`. -/
def loneAlert (cost : ℚ) (now : ℕ) : Turn where
  organizationId := 3
  pools := .cons 2 100 .nil .nil
  alerts := ⟨[{ id := 1, poolId := 2, threshold := 10 }], by decide⟩
  expenses _ := { cost := cost }
  now _ := now

/-- **A lone alert that cleared is not re-armed**, and not notified for when it exceeds again. -/
theorem lone_alert_not_rearmed :
    ¬ ∀ (lastShootAt : LastShootAt) (turns : List Turn), Timely turns →
        Along step (fun s t s' => Rearmed t s' ∧ NotifiesDue s t) lastShootAt turns ∧
          RenotifiesCleared lastShootAt turns := by
  intro h
  have hrun : (run step (fun _ => 0) [loneAlert 20 1000, loneAlert 0 2000]).map (· 1) =
      some 1000 := by decide +kernel
  obtain ⟨s, hrun, hs⟩ := Option.map_eq_some_iff.mp hrun
  have htimely : Timely [loneAlert 20 1000, loneAlert 0 2000, loneAlert 20 3000] := by
    simp [Timely, loneAlert]
  let alert : PoolAlert := { id := 1, poolId := 2, threshold := 10 }
  have hthird : alert ∈ (loneAlert 20 3000).affectedAlerts := by decide +kernel
  have hnotified : Notifies s (loneAlert 20 3000) 1 :=
    (h (fun _ => 0) _ htimely).2 [loneAlert 20 1000] (loneAlert 0 2000) [] (loneAlert 20 3000) []
      rfl s hrun alert (by decide +kernel) (by decide +kernel)
      (fun _ hv => absurd hv List.not_mem_nil) alert hthird rfl (by decide +kernel) rfl
  obtain ⟨-, hdue⟩ := (notifiesDue rfl s alert hthird).mp hnotified
  have hrecent : ¬ (1000 = 0 ∨ 1000 + notificationInterval ≤ 3000) := by decide
  exact hrecent (hs ▸ hdue)

end PoolAlertController
