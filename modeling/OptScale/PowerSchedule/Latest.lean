import OptScale.PowerSchedule.Action

/-!
# PowerSchedule/Latest — which due trigger `get_action` fires

The loop over the periods returns early: where the run starts between two triggers it fires the first due
trigger, and only where it starts before all of them the latest one.  So it fires the latest due trigger
exactly when no trigger comes before the last evaluation or the first due one has the same action
(`firesLatest_iff`).
-/

open Fallible

namespace PowerScheduleWorker

variable {D : Today} {lastEval now : ℤ}

/-! ## The search -/

/-- After a trigger before the run the first due one fires. -/
theorem searchPeriods_of_before {t : ℤ} {ts : List ℤ} (hts : (t :: ts).Pairwise (· < ·))
    (hrun : lastEval < now) (hends : ∀ u ∈ t :: ts, u ≠ lastEval ∧ u ≠ now) (ht : t < lastEval) :
    searchPeriods (lastEval, now) (timePeriods (t :: ts)) none =
      .ok (due lastEval now (t :: ts)).head? := by
  induction ts generalizing t with
  | nil => rw [due_cons_of_lt ht]; rfl
  | cons u ts ih =>
    obtain ⟨htu, hts⟩ := List.pairwise_cons.mp hts
    obtain ⟨hu, -⟩ := List.pairwise_cons.mp hts
    obtain ⟨hulast, hunow⟩ := hends u (List.mem_cons_of_mem _ List.mem_cons_self)
    rw [due_cons_of_lt ht]
    change searchPeriods (lastEval, now) ((t, u) :: timePeriods (u :: ts)) none = _
    obtain hlt | hgt := lt_or_gt_of_ne hulast
    · rw [searchPeriods_of_apart (p := (t, u)) (by omega)]
      exact ih hts (fun v hv => hends v (List.mem_cons_of_mem _ hv)) hlt
    · obtain hlt' | hgt' := lt_or_gt_of_ne hunow
      · rw [searchPeriods_of_last ht hgt hlt', due_cons_of_mem hgt hlt']
        rfl
      · have hlater : ∀ v ∈ u :: ts, now < v := by
          intro v hv
          obtain rfl | hv := List.mem_cons.mp hv
          · exact hgt'
          · exact hgt'.trans (hu v hv)
        rw [searchPeriods_of_inside ht.le hgt'.le hrun, due_of_later hlater]
        rfl

/-- **Where all triggers come after the start of the run** the latest due one fires. -/
theorem searchPeriods_of_after {t : ℤ} {ts : List ℤ} {candidate : Option ℤ}
    (hts : (t :: ts).Pairwise (· < ·)) (hends : ∀ u ∈ t :: ts, u ≠ now) (ht : lastEval < t)
    (hcandidate : candidate = some t ∧ t < now ∨ candidate = none ∧ (ts ≠ [] ∨ now < t)) :
    searchPeriods (lastEval, now) (timePeriods (t :: ts)) candidate =
      .ok (due lastEval now (t :: ts)).getLast? := by
  induction ts generalizing t candidate with
  | nil =>
    obtain ⟨rfl, hnow⟩ | ⟨rfl, h | hnow⟩ := hcandidate
    · rw [due_cons_of_mem ht hnow]
      rfl
    · exact absurd rfl h
    · rw [due_of_later (by simpa using hnow)]
      rfl
  | cons u ts ih =>
    obtain ⟨htu, hts⟩ := List.pairwise_cons.mp hts
    obtain ⟨hu, -⟩ := List.pairwise_cons.mp hts
    have htu := htu u List.mem_cons_self
    have hunow := hends u (List.mem_cons_of_mem _ List.mem_cons_self)
    have hends' : ∀ v ∈ u :: ts, v ≠ now := fun v hv => hends v (List.mem_cons_of_mem _ hv)
    have hlater (h : now < u) : ∀ v ∈ u :: ts, now < v := by
      intro v hv
      obtain rfl | hv := List.mem_cons.mp hv
      · exact h
      · exact h.trans (hu v hv)
    change searchPeriods (lastEval, now) ((t, u) :: timePeriods (u :: ts)) candidate = _
    obtain htnow | htnow := lt_or_gt_of_ne (hends t List.mem_cons_self)
    · rw [due_cons_of_mem ht htnow]
      obtain hunow | hunow := lt_or_gt_of_ne hunow
      · rw [searchPeriods_of_covered ht htu hunow, ih hts hends' (ht.trans htu) (Or.inl ⟨?_, hunow⟩),
          due_cons_of_mem (ht.trans htu) hunow, List.getLast?_cons_cons]
        obtain ⟨rfl, -⟩ | ⟨rfl, -⟩ := hcandidate
        · exact congrArg some (max_eq_right htu.le)
        · rfl
      · rw [searchPeriods_of_first ht htnow hunow, due_of_later (hlater hunow)]
        rfl
    · obtain ⟨-, h⟩ | ⟨rfl, -⟩ := hcandidate
      · exact absurd h htnow.not_gt
      · have hunow := htnow.trans htu
        rw [searchPeriods_of_apart (p := (t, u)) (by omega),
          ih hts hends' (ht.trans htu) (Or.inr ⟨rfl, Or.inr hunow⟩), due_of_later (hlater hunow),
          due_of_later]
        intro v hv
        obtain rfl | hv := List.mem_cons.mp hv
        · exact htnow
        · exact hlater hunow v hv

/-- **The trigger time that fires**: the first due one after a trigger before the run, else the latest. -/
theorem requiredTime_eq {ts : List ℤ} (hts : ts.Pairwise (· < ·)) (hrun : lastEval < D.now)
    (hends : ∀ u ∈ ts, u ≠ lastEval ∧ u ≠ D.now) :
    requiredTime D lastEval ts = .ok (if ∃ t ∈ ts, t < lastEval then (due lastEval D.now ts).head?
      else (due lastEval D.now ts).getLast?) := by
  rcases ts with _ | ⟨t, _ | ⟨u, ts⟩⟩
  · simp [requiredTime, timePeriods, searchPeriods, due]
  · have h := hends t List.mem_cons_self
    have hiff : (lastEval ≤ t ∧ t ≤ D.now) ↔ (lastEval < t ∧ t < D.now) := by omega
    simp only [requiredTime, due, hiff]
    by_cases hdue : lastEval < t ∧ t < D.now <;> simp [hdue]
  · obtain ht | ht := lt_or_gt_of_ne (hends t List.mem_cons_self).1
    · rw [if_pos ⟨t, List.mem_cons_self, ht⟩]
      exact searchPeriods_of_before hts hrun hends ht
    · have hnone : ¬ ∃ v ∈ t :: u :: ts, v < lastEval := by
        rintro ⟨v, hv, hlt⟩
        obtain rfl | hv := List.mem_cons.mp hv
        · exact absurd hlt ht.not_gt
        · exact absurd hlt (ht.trans ((List.pairwise_cons.mp hts).1 v hv)).not_gt
      rw [if_neg hnone]
      exact searchPeriods_of_after hts (fun v hv => (hends v hv).2) ht
        (Or.inr ⟨rfl, Or.inl (List.cons_ne_nil _ _)⟩)

/-! ## The triggers of the day -/

/-- The trigger is due. -/
def Due (lastEval now : ℤ) (e : ℤ × PowerAction) : Prop := lastEval < e.1 ∧ e.1 < now

instance (lastEval now : ℤ) (e : ℤ × PowerAction) : Decidable (Due lastEval now e) :=
  inferInstanceAs (Decidable (_ ∧ _))

/-- The latest due trigger of the day. -/
structure IsLatest (lastEval now : ℤ) (map : List (ℤ × PowerAction)) (e : ℤ × PowerAction) : Prop where
  mem : e ∈ map
  due : Due lastEval now e
  le : ∀ e' ∈ map, Due lastEval now e' → e'.1 ≤ e.1

/-- The first due trigger of the day. -/
structure IsFirst (lastEval now : ℤ) (map : List (ℤ × PowerAction)) (e : ℤ × PowerAction) : Prop where
  mem : e ∈ map
  due : Due lastEval now e
  le : ∀ e' ∈ map, Due lastEval now e' → e.1 ≤ e'.1

/-- `get_action` returns the action of the latest due trigger, and nothing where none is due. -/
def FiresLatest (D : Today) (schedule : PowerSchedule) (map : List (ℤ × PowerAction)) : Prop :=
  ∀ result, ∃ action result', getAction D schedule result = (.ok action, result') ∧
    (∀ e, IsLatest schedule.lastEval D.now map e → action = some e.2) ∧
      ((∀ e ∈ map, ¬ Due schedule.lastEval D.now e) → action = none)

theorem getLast?_of_le {l : List ℤ} (hl : l.Pairwise (· < ·)) {x : ℤ} (hx : x ∈ l)
    (hle : ∀ y ∈ l, y ≤ x) : l.getLast? = some x := by
  obtain ⟨pre, y, rfl⟩ := List.eq_nil_or_concat l |>.resolve_left (List.ne_nil_of_mem hx)
  rw [List.concat_eq_append] at hl hx hle ⊢
  rw [List.getLast?_concat]
  obtain hx | hx := List.mem_append.mp hx
  · have hlt := (List.pairwise_append.mp hl).2.2 x hx y (List.mem_singleton_self y)
    exact absurd (hle y (List.mem_append_right _ (List.mem_singleton_self y))) hlt.not_ge
  · rw [List.mem_singleton.mp hx]

theorem head?_of_le {l : List ℤ} (hl : l.Pairwise (· < ·)) {x : ℤ} (hx : x ∈ l)
    (hle : ∀ y ∈ l, x ≤ y) : l.head? = some x := by
  obtain ⟨y, l, rfl⟩ := List.exists_cons_of_ne_nil (List.ne_nil_of_mem hx)
  obtain rfl | hx := List.mem_cons.mp hx
  · rfl
  · exact absurd (hle y List.mem_cons_self) ((List.pairwise_cons.mp hl).1 x hx).not_ge

theorem nodup_of_timeActionMap {ts : List Trigger} : ∀ {map map' : List (ℤ × PowerAction)},
    (map.map Prod.fst).Nodup → timeActionMap D ts map = .ok map' → (map'.map Prod.fst).Nodup := by
  induction ts with
  | nil =>
    intro map map' hmap h
    exact Except.ok.inj h ▸ hmap
  | cons t ts ih =>
    intro map map' hmap h
    simp only [timeActionMap, bind_eq_ok, require_eq_ok] at h
    obtain ⟨time, -, _, hnew, h⟩ := h
    refine ih ?_ h
    rw [List.map_append, List.nodup_append]
    refine ⟨hmap, List.nodup_singleton _, fun x hx y hy hxy => hnew ?_⟩
    obtain rfl : y = time := List.mem_singleton.mp hy
    exact hxy ▸ hx

theorem timeActionMap_nodup {ts : List Trigger} {map : List (ℤ × PowerAction)}
    (h : timeActionMap D ts [] = .ok map) : (map.map Prod.fst).Nodup := by
  have hnil : (([] : List (ℤ × PowerAction)).map Prod.fst).Nodup := List.nodup_nil
  exact nodup_of_timeActionMap hnil h

section Day

variable {schedule : PowerSchedule} {map : List (ℤ × PowerAction)}

theorem lookup_of_mem (hnodup : (map.map Prod.fst).Nodup) {e : ℤ × PowerAction} (he : e ∈ map) :
    map.lookup e.1 = some e.2 := by
  induction map with
  | nil => exact absurd he List.not_mem_nil
  | cons a map ih =>
    obtain ⟨ha, hnodup⟩ := List.nodup_cons.mp hnodup
    obtain rfl | he := List.mem_cons.mp he
    · exact List.lookup_cons_self
    · have hne : e.1 ≠ a.1 := fun h => ha (h ▸ List.mem_map_of_mem he)
      rw [List.lookup_cons, beq_eq_false_iff_ne.mpr hne]
      exact ih hnodup he

/-- The trigger times of the day, in their order. -/
abbrev sortedTimes (map : List (ℤ × PowerAction)) : List ℤ :=
  (map.map Prod.fst).insertionSort (· ≤ ·)

theorem pairwise_sortedTimes (hnodup : (map.map Prod.fst).Nodup) :
    (sortedTimes map).Pairwise (· < ·) := by
  have hle : (sortedTimes map).Pairwise (· ≤ ·) := List.pairwise_insertionSort _ _
  have hne : (sortedTimes map).Pairwise (· ≠ ·) := (List.perm_insertionSort _ _).nodup_iff.mpr hnodup
  exact (hle.and hne).imp fun h => lt_of_le_of_ne h.1 h.2

theorem mem_due {t : ℤ} : t ∈ due lastEval now (sortedTimes map) ↔
    ∃ e ∈ map, e.1 = t ∧ Due lastEval now e := by
  rw [due, List.mem_filter, List.mem_insertionSort, List.mem_map, decide_eq_true_eq]
  constructor
  · rintro ⟨⟨e, he, rfl⟩, hdue⟩
    exact ⟨e, he, rfl, hdue⟩
  · rintro ⟨e, he, rfl, hdue⟩
    exact ⟨⟨e, he, rfl⟩, hdue⟩

theorem getLast?_due (hnodup : (map.map Prod.fst).Nodup) {e : ℤ × PowerAction}
    (he : IsLatest lastEval now map e) : (due lastEval now (sortedTimes map)).getLast? = some e.1 := by
  refine getLast?_of_le ((pairwise_sortedTimes hnodup).filter _) (mem_due.mpr ⟨e, he.mem, rfl, he.due⟩) ?_
  intro t ht
  obtain ⟨e', he', rfl, hdue⟩ := mem_due.mp ht
  exact he.le e' he' hdue

theorem head?_due (hnodup : (map.map Prod.fst).Nodup) {e : ℤ × PowerAction}
    (he : IsFirst lastEval now map e) : (due lastEval now (sortedTimes map)).head? = some e.1 := by
  refine head?_of_le ((pairwise_sortedTimes hnodup).filter _) (mem_due.mpr ⟨e, he.mem, rfl, he.due⟩) ?_
  intro t ht
  obtain ⟨e', he', rfl, hdue⟩ := mem_due.mp ht
  exact he.le e' he' hdue

theorem exists_isLatest (h : ∃ e ∈ map, Due lastEval now e) : ∃ e, IsLatest lastEval now map e := by
  classical
  obtain ⟨e₁, he₁, hdue₁⟩ := h
  have hne : (map.toFinset.filter (Due lastEval now)).Nonempty :=
    ⟨e₁, Finset.mem_filter.mpr ⟨List.mem_toFinset.mpr he₁, hdue₁⟩⟩
  obtain ⟨e, he, hmax⟩ := Finset.exists_max_image _ Prod.fst hne
  obtain ⟨he, hdue⟩ := Finset.mem_filter.mp he
  refine ⟨e, List.mem_toFinset.mp he, hdue, fun e' he' hdue' => hmax e' ?_⟩
  exact Finset.mem_filter.mpr ⟨List.mem_toFinset.mpr he', hdue'⟩

theorem exists_isFirst (h : ∃ e ∈ map, Due lastEval now e) : ∃ e, IsFirst lastEval now map e := by
  classical
  obtain ⟨e₁, he₁, hdue₁⟩ := h
  have hne : (map.toFinset.filter (Due lastEval now)).Nonempty :=
    ⟨e₁, Finset.mem_filter.mpr ⟨List.mem_toFinset.mpr he₁, hdue₁⟩⟩
  obtain ⟨e, he, hmin⟩ := Finset.exists_min_image _ Prod.fst hne
  obtain ⟨he, hdue⟩ := Finset.mem_filter.mp he
  refine ⟨e, List.mem_toFinset.mp he, hdue, fun e' he' hdue' => hmin e' ?_⟩
  exact Finset.mem_filter.mpr ⟨List.mem_toFinset.mpr he', hdue'⟩

/-- What `get_action` returns, by the time that fires. -/
theorem getAction_eq (hmap : timeActionMap D schedule.triggers [] = .ok map) {time : Option ℤ}
    (htime : requiredTime D schedule.lastEval (sortedTimes map) = .ok time) (result : Result) :
    (time = none → ∃ result', getAction D schedule result = (.ok none, result')) ∧
      ∀ e ∈ map, time = some e.1 → getAction D schedule result = (.ok (some e.2), result) := by
  have hnodup := timeActionMap_nodup hmap
  constructor
  · rintro rfl
    refine ⟨{ result with reason := some .NO_CHANGES }, ?_⟩
    rw [getAction, Session.read_bind_of_ok (f := fun _ => timeActionMap D schedule.triggers []) hmap]
    exact Session.read_bind_of_ok
      (f := fun _ => requiredTime D schedule.lastEval (sortedTimes map)) htime
  · rintro e he rfl
    rw [getAction, Session.read_bind_of_ok (f := fun _ => timeActionMap D schedule.triggers []) hmap]
    refine (Session.read_bind_of_ok
      (f := fun _ => requiredTime D schedule.lastEval (sortedTimes map)) htime).trans ?_
    have hlookup : orFail (map.lookup e.1) (Failure.python "KeyError") = .ok e.2 :=
      orFail_eq_ok.mpr (lookup_of_mem hnodup he)
    exact Session.read_bind_of_ok hlookup

/-- **`get_action` fires the latest due trigger** exactly when no trigger of the day comes before the last
evaluation, or the first due trigger has the action of the latest. -/
theorem firesLatest_iff (hmap : timeActionMap D schedule.triggers [] = .ok map)
    (hrun : schedule.lastEval < D.now) (hends : ∀ e ∈ map, e.1 ≠ schedule.lastEval ∧ e.1 ≠ D.now) :
    FiresLatest D schedule map ↔ ∀ e₀ ∈ map, e₀.1 < schedule.lastEval → ∀ e e',
      IsFirst schedule.lastEval D.now map e → IsLatest schedule.lastEval D.now map e' → e.2 = e'.2 := by
  have hnodup := timeActionMap_nodup hmap
  have hends' : ∀ t ∈ sortedTimes map, t ≠ schedule.lastEval ∧ t ≠ D.now := by
    intro t ht
    obtain ⟨e, he, rfl⟩ := List.mem_map.mp ((List.mem_insertionSort _).mp ht)
    exact hends e he
  have htime := requiredTime_eq (pairwise_sortedTimes hnodup) hrun hends'
  have hbefore : (∃ t ∈ sortedTimes map, t < schedule.lastEval) ↔
      ∃ e ∈ map, e.1 < schedule.lastEval := by
    simp only [sortedTimes, List.mem_insertionSort, List.mem_map, exists_exists_and_eq_and]
  constructor
  · intro h e₀ he₀ hlt e e' hfirst hlatest
    rw [if_pos (hbefore.mpr ⟨e₀, he₀, hlt⟩), head?_due hnodup hfirst] at htime
    obtain ⟨action, result', hrun, hfires, -⟩ := h {}
    have hactual := (getAction_eq hmap htime {}).2 e hfirst.mem rfl
    have hsame := Except.ok.inj (Prod.mk.inj (hrun.symm.trans hactual)).1
    exact Option.some.inj (hsame.symm.trans (hfires e' hlatest))
  · intro h result
    by_cases hdue : ∃ e ∈ map, Due schedule.lastEval D.now e
    · obtain ⟨e, hfirst⟩ := exists_isFirst hdue
      obtain ⟨e', hlatest⟩ := exists_isLatest hdue
      have hunique : ∀ e₁, IsLatest schedule.lastEval D.now map e₁ → e'.2 = e₁.2 := by
        intro e₁ h₁
        have hlast := (getLast?_due hnodup hlatest).symm.trans (getLast?_due hnodup h₁)
        have hlookup := lookup_of_mem hnodup hlatest.mem
        rw [Option.some.inj hlast, lookup_of_mem hnodup h₁.mem] at hlookup
        exact (Option.some.inj hlookup).symm
      have hnot : ¬ ∀ e ∈ map, ¬ Due schedule.lastEval D.now e := by
        obtain ⟨e₁, he₁, hdue₁⟩ := hdue
        exact fun hall => hall e₁ he₁ hdue₁
      refine ⟨some e'.2, result, ?_, fun e₁ h₁ => congrArg some (hunique e₁ h₁), fun hall => (hnot hall).elim⟩
      by_cases hb : ∃ t ∈ sortedTimes map, t < schedule.lastEval
      · obtain ⟨e₀, he₀, hlt⟩ := hbefore.mp hb
        rw [if_pos hb, head?_due hnodup hfirst] at htime
        rw [← h e₀ he₀ hlt e e' hfirst hlatest]
        exact (getAction_eq hmap htime result).2 e hfirst.mem rfl
      · rw [if_neg hb, getLast?_due hnodup hlatest] at htime
        exact (getAction_eq hmap htime result).2 e' hlatest.mem rfl
    · have hnil : due schedule.lastEval D.now (sortedTimes map) = [] := by
        refine List.eq_nil_iff_forall_not_mem.mpr fun t ht => hdue ?_
        obtain ⟨e, he, -, hd⟩ := mem_due.mp ht
        exact ⟨e, he, hd⟩
      rw [hnil] at htime
      obtain ⟨result', hrun⟩ := (getAction_eq hmap htime result).1 (by split <;> rfl)
      exact ⟨none, result', hrun, fun e he => (hdue ⟨e, he.mem, he.due⟩).elim, fun _ => rfl⟩

end Day

/-! ### Three triggers -/

/-- The local day is that of UTC, and times are read as `HH:MM` with two digits each. -/
def plainDay (now : ℤ) : Today where
  now
  localTimeToUtc
    | [a, b, ':', c, d] =>
      .ok (((a.toNat - 48) * 10 + (b.toNat - 48)) * 3600 + ((c.toNat - 48) * 10 + (d.toNat - 48)) * 60)
    | _ => .error (.python "ValueError")

/-- On at one, off at three, on at five; last evaluated at two. -/
def threeTriggers : PowerSchedule where
  id := 0
  organizationId := 0
  name := []
  enabled := true
  triggers := [⟨"01:00".toList, .POWER_ON⟩, ⟨"03:00".toList, .POWER_OFF⟩, ⟨"05:00".toList, .POWER_ON⟩]
  lastEval := 7200

/-- The times of these triggers. -/
def threeTimes : List (ℤ × PowerAction) := [(3600, .POWER_ON), (10800, .POWER_OFF), (18000, .POWER_ON)]

/-- At four only the one at three is due. -/
theorem firesLatest_threeTriggers : FiresLatest (plainDay 14400) threeTriggers threeTimes ↔
    ∀ e₀ ∈ threeTimes, e₀.1 < threeTriggers.lastEval → ∀ e e',
      IsFirst threeTriggers.lastEval 14400 threeTimes e →
        IsLatest threeTriggers.lastEval 14400 threeTimes e' → e.2 = e'.2 :=
  firesLatest_iff (by decide +kernel) (by decide) (by decide)

/-- At six the machines ought to be on since five, but the trigger at three fires. -/
theorem firesFirst_threeTriggers : timeActionMap (plainDay 21600) threeTriggers.triggers [] = .ok threeTimes ∧
    IsLatest threeTriggers.lastEval 21600 threeTimes (18000, .POWER_ON) ∧
      (getAction (plainDay 21600) threeTriggers {}).1 = .ok (some .POWER_OFF) ∧
        ¬ FiresLatest (plainDay 21600) threeTriggers threeTimes := by
  have hlatest : IsLatest threeTriggers.lastEval 21600 threeTimes (18000, .POWER_ON) :=
    ⟨by decide, by decide, by decide⟩
  have hoff : (getAction (plainDay 21600) threeTriggers {}).1 = .ok (some .POWER_OFF) := by
    decide +kernel
  refine ⟨by decide +kernel, hlatest, hoff, fun h => ?_⟩
  obtain ⟨action, result', hrun, hfires, -⟩ := h {}
  rw [hrun, hfires _ hlatest] at hoff
  cases hoff

end PowerScheduleWorker
