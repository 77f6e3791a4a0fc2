import OptScale.Violations.Constraint
import OptScale.Foundations.Run

/-!
# Violations/LimitHits — which hits a period can get

A run looks for a hit in a window of its own and creates one at the window's end if it finds none.
The history keeps the hits in the order they were created, each with the instant it was created
for.  A hit that is after its period's first second, and not later than the one to be created, is
found; so of such hits a period has one (`oneHitPerPeriod`).
-/

open Fallible Run

namespace OrganizationViolationsWorker

/-! ## Windows -/

/-- The instant a run evaluates, and the bounds it looks for a hit in. -/
structure Window where
  evaluated : ℤ
  minCreatedAt : ℤ
  maxCreatedAt : ℤ
  deriving DecidableEq

/-- Strictly after the lower bound, up to the upper one. -/
abbrev Window.Holds (w : Window) (createdAt : ℤ) : Prop :=
  w.minCreatedAt < createdAt ∧ createdAt ≤ w.maxCreatedAt

namespace Definition

/-- The windows a run may use for a constraint. -/
def windows (t : Turn) : Definition → List Window
  | expenseAnomaly .. =>
    [⟨t.date, t.date - 86400, t.date⟩, ⟨t.date - 86400, t.date - 86400 - 86400, t.date - 86400⟩]
  | expiringBudget .. => [⟨t.date, 0, t.start⟩]
  | recurringBudget .. => [⟨t.date, monthStart t.date, t.date⟩]
  | resourceCountAnomaly .. => [⟨t.date, t.date - 86400, t.date⟩]
  | resourceQuota .. => [⟨t.date, todayStart t.date, t.start⟩]
  | taggingPolicy .. => [⟨t.start, todayStart t.start, t.start⟩]

/-- The instant a run evaluated, by the hit it created. -/
def evaluated (t : Turn) (createdAt : ℤ) : Definition → ℤ
  | expiringBudget .. | resourceQuota .. => t.date
  | _ => createdAt

/-- Two instants are in one period: a day, a month, or the life of the constraint. -/
def SamePeriod : Definition → ℤ → ℤ → Prop
  | expiringBudget .., _, _ => True
  | recurringBudget .., x, y => monthStart x = monthStart y
  | _, x, y => todayStart x = todayStart y

end Definition

/-! ## Histories -/

/-- A hit a run created, and what the run created it for. -/
structure Creation where
  organizationId : Uuid
  constraintId : Uuid
  evaluated : ℤ
  createdAt : ℤ
  /-- The task asks for notifications. -/
  notifications : Bool
  deriving DecidableEq

/-- The hits a run created for a constraint. -/
def newHits (t : Turn) (c : Constraint) : List LimitHit :=
  (afterRun t c).limitHits.rows.filter fun h => h.createdAt ∉ c.limitHits.rows.map LimitHit.createdAt

/-- The entries of a run for a constraint. -/
def creations (t : Turn) (c : Constraint) : List Creation :=
  (newHits t c).map fun h =>
    ⟨t.organizationId, c.id, c.definition.evaluated t h.createdAt, h.createdAt, t.notifications⟩

/-- The constraints of an organization and what the runs so far created and published. -/
structure History where
  constraints : Table Constraint.id
  clock : ℤ := 0
  created : List Creation := []
  tasks : List NotifTask := []

namespace History

/-- The constraints as given, without hits. -/
def start (constraints : Table Constraint.id) : History where
  constraints := constraints.updateWhere (fun _ => true) (fun c => { c with limitHits := .empty })
    fun _ => rfl

/-- One run: the clock does not go back, and the task's date is not ahead of it.  A task that fails
changes nothing. -/
def step (s : History) (t : Turn) : Option History :=
  if 0 < t.start ∧ s.clock ≤ t.start ∧ t.date ≤ t.start then
    match processOrganizationConstraints s.constraints t with
    | .ok (constraints, tasks) => some
        { constraints := constraints
          clock := t.start
          created :=
            s.created ++ if t.disabled then [] else s.constraints.rows.flatMap (creations t)
          tasks := s.tasks ++ tasks }
    | .error _ => some { s with clock := t.start }
  else none

/-- The entries of a constraint, in order. -/
def createdFor (s : History) (c : Constraint) : List Creation :=
  s.created.filter fun h => h.constraintId = c.id

/-- The entries are the hits. -/
def Recorded (s : History) : Prop :=
  ∀ c ∈ s.constraints.rows,
    c.limitHits.rows.map LimitHit.createdAt = (s.createdFor c).map Creation.createdAt

/-- A task was published for each hit whose run was to notify, and for nothing else. -/
def NotifiesCreated (s : History) : Prop :=
  s.tasks = (s.created.filter Creation.notifications).map fun h =>
    ⟨h.organizationId, h.constraintId⟩

end History

/-- The earlier hit is after its period's first second and not later than the later one; the hits of
quotas, tagging policies and expiring budgets carry the clock, and are in order as it is. -/
def Definition.InOrder : Definition → Creation → Creation → Prop
  | resourceQuota .., h, _ | taggingPolicy .., h, _ => h.createdAt ≠ todayStart h.evaluated
  | recurringBudget .., h, h' =>
    h.createdAt ≠ monthStart h.evaluated ∧ h.createdAt ≤ h'.createdAt
  | expenseAnomaly .., h, h' | resourceCountAnomaly .., h, h' => h.createdAt ≤ h'.createdAt
  | expiringBudget .., _, _ => True

namespace History

/-- No two hits of a constraint that are in order have one period. -/
def OnePerPeriod (s : History) : Prop :=
  ∀ c ∈ s.constraints.rows, (s.createdFor c).Pairwise fun h h' =>
    c.definition.InOrder h h' → ¬ c.definition.SamePeriod h.evaluated h'.evaluated

/-- The hits a run overwrote are in a window of the run. -/
def OverwritesWindow (s : History) (t : Turn) (s' : History) : Prop :=
  ∀ c ∈ s.constraints.rows, ∀ c' ∈ s'.constraints.rows, c'.id = c.id →
    ∀ h ∈ c.limitHits.rows, h ∉ c'.limitHits.rows →
      ∃ w ∈ c.definition.windows t, w.Holds h.createdAt

end History

/-! ## Days and months -/

theorem todayStart_le (x : ℤ) : todayStart x ≤ x := by
  unfold todayStart
  omega

theorem monthStart_le (x : ℤ) : monthStart x ≤ x := by
  have hday : 1 ≤ dayOfMonth x := by
    simp only [dayOfMonth]
    omega
  unfold monthStart
  omega

/-! ## The hits a run looks at -/

section Lookup

variable {t : Turn} {c : Constraint} {h : LimitHit}

/-- **The days asked for are enough**: the hits since the month's start and since the start of the
day before the date are listed. -/
theorem mem_listedHits (hmem : h ∈ c.limitHits.rows)
    (hsince : monthStart t.date ≤ h.createdAt ∨ todayStart (t.date - 86400) ≤ h.createdAt) :
    h ∈ listedHits c t.start (hitDays t.start t.date) := by
  refine List.mem_filter.mpr ⟨hmem, decide_eq_true ?_⟩
  have hmonth := le_max_left (t.start / 86400 - monthStart t.date / 86400 + 1)
    (t.start / 86400 - (t.date - 86400) / 86400 + 1)
  have hday := le_max_right (t.start / 86400 - monthStart t.date / 86400 + 1)
    (t.start / 86400 - (t.date - 86400) / 86400 + 1)
  change _ ≤ hitDays t.start t.date at hmonth hday
  rcases hsince with hsince | hsince
  · have hmul : monthStart t.date / 86400 * 86400 = monthStart t.date := by
      unfold monthStart
      omega
    omega
  · unfold todayStart at hsince
    omega

/-- The hits `_update_limit_hit` is given: an expiring budget has all its hits fetched, where the
listed ones are none. -/
def searchedHits (c : Constraint) (limitHits : List LimitHit) : List LimitHit :=
  match c.definition with
  | .expiringBudget .. => if limitHits = [] then c.limitHits.rows else limitHits
  | _ => limitHits

theorem mem_of_mem_searchedHits {start days : ℤ}
    (hmem : h ∈ searchedHits c (listedHits c start days)) : h ∈ c.limitHits.rows := by
  have hlisted : ∀ x ∈ listedHits c start days, x ∈ c.limitHits.rows :=
    fun x hx => (List.mem_filter.mp hx).1
  unfold searchedHits at hmem
  split at hmem
  · split_ifs at hmem
    · exact hmem
    · exact hlisted h hmem
  · exact hlisted h hmem

/-- **Each kind writes in a window of its own.** -/
theorem processFunc_write {limitHits : List LimitHit} {r : HitWrite × Option NotifTask}
    (hwrite : (processFunc t c limitHits).write = some r) :
    ∃ w ∈ c.definition.windows t, ∃ params, r = updateLimitHit t.organizationId c.id
      (searchedHits c limitHits) t.notifications w.minCreatedAt w.maxCreatedAt params := by
  unfold processFunc at hwrite
  unfold searchedHits
  cases hd : c.definition with
  | expenseAnomaly threshold days =>
    simp only [hd, processExpenseAnomaly] at hwrite
    split_ifs at hwrite
    split at hwrite
    · exact ⟨_, List.mem_cons_self, _, (Option.some.inj hwrite).symm⟩
    · split at hwrite
      · exact ⟨_, List.mem_cons_of_mem _ List.mem_cons_self, _, (Option.some.inj hwrite).symm⟩
      · exact nomatch hwrite
  | expiringBudget total startDate =>
    simp only [hd, processExpiringBudget] at hwrite
    split_ifs at hwrite with _ hexceeds hnil
    · exact ⟨_, List.mem_cons_self, _, by rw [if_pos hnil]; exact (Option.some.inj hwrite).symm⟩
    · exact ⟨_, List.mem_cons_self, _, by rw [if_neg hnil]; exact (Option.some.inj hwrite).symm⟩
  | recurringBudget monthly =>
    simp only [hd, processRecurringBudget] at hwrite
    split_ifs at hwrite
    exact ⟨_, List.mem_cons_self, _, (Option.some.inj hwrite).symm⟩
  | resourceCountAnomaly threshold days =>
    simp only [hd, processResourceCountAnomaly] at hwrite
    split at hwrite
    · exact ⟨_, List.mem_cons_self, _, (Option.some.inj hwrite).symm⟩
    · exact nomatch hwrite
  | resourceQuota maxValue =>
    simp only [hd, processResourceQuota] at hwrite
    split_ifs at hwrite
    exact ⟨_, List.mem_cons_self, _, (Option.some.inj hwrite).symm⟩
  | taggingPolicy startDate =>
    simp only [hd, processTaggingPolicy] at hwrite
    split_ifs at hwrite
    exact ⟨_, List.mem_cons_self, _, (Option.some.inj hwrite).symm⟩

end Lookup

/-! ## One constraint in one run -/

/-- The hits the run finds for a constraint, before it looks at the window. -/
abbrev searchedBy (t : Turn) (c : Constraint) : List LimitHit :=
  searchedHits c (listedHits c t.start (hitDays t.start t.date))

/-- What a run does to a constraint. -/
inductive Effect (t : Turn) (c : Constraint) : Prop
  | untouched (hits : (afterRun t c).limitHits = c.limitHits) (task : notifTask t c = none)
  | overwrites (w : Window) (window : w ∈ c.definition.windows t) (createdAt : ℤ)
      (holds : w.Holds createdAt) (params : HitParams)
      (hits : (afterRun t c).limitHits.rows =
        c.limitHits.rows.map fun x => if x.createdAt = createdAt then { x with params } else x)
      (task : notifTask t c = none)
  | creates (w : Window) (window : w ∈ c.definition.windows t) (params : HitParams)
      (hits : (afterRun t c).limitHits.rows = c.limitHits.rows ++ [⟨w.maxCreatedAt, params⟩])
      (none_found : ∀ x ∈ searchedBy t c, ¬ w.Holds x.createdAt)
      (task : notifTask t c = if t.notifications then some ⟨t.organizationId, c.id⟩ else none)

/-- What `_update_limit_hit` writes and publishes. -/
theorem updateLimitHit_cases (organizationId constraintId : Uuid) (limitHits : List LimitHit)
    (notifications : Bool) (w : Window) (params : HitParams) :
    (∃ x ∈ limitHits, w.Holds x.createdAt ∧
      updateLimitHit organizationId constraintId limitHits notifications w.minCreatedAt
        w.maxCreatedAt params = (.update x.createdAt params, none)) ∨
    (∀ x ∈ limitHits, ¬ w.Holds x.createdAt) ∧
      updateLimitHit organizationId constraintId limitHits notifications w.minCreatedAt
        w.maxCreatedAt params = (.create w.maxCreatedAt params,
          if notifications then some ⟨organizationId, constraintId⟩ else none) := by
  unfold updateLimitHit
  split
  · rename_i hit hmax
    obtain ⟨hmem, hholds⟩ := List.mem_filter.mp (latest?_mem hmax)
    exact Or.inl ⟨hit, hmem, of_decide_eq_true hholds, rfl⟩
  · rename_i hnone
    refine Or.inr ⟨fun x hx hholds => ?_, rfl⟩
    have hnil := List.filter_eq_nil_iff.mp (latest?_eq_none.mp hnone) x hx
    exact hnil (decide_eq_true hholds)

/-- **What a run does to a constraint**: nothing, or it overwrites a hit of its window, or it
creates one at the window's end, having found none. -/
theorem effect (t : Turn) (c : Constraint) : Effect t c := by
  cases hproc : processOrganizationConstraint t c with
  | error e =>
    exact .untouched (by simp [afterRun, hproc]) (by simp [notifTask, hproc])
  | ok result =>
    obtain ⟨c', task⟩ := result
    have hafter : afterRun t c = c' := by simp [afterRun, hproc]
    have htask : notifTask t c = task := by simp [notifTask, hproc]
    unfold processOrganizationConstraint at hproc
    split_ifs at hproc
    · obtain ⟨rfl, rfl⟩ := Prod.mk.inj (pure_eq_ok.mp hproc)
      exact .untouched (by rw [hafter]) htask
    · obtain ⟨limitHits, happly, hpure⟩ := bind_eq_ok.mp hproc
      obtain ⟨rfl, rfl⟩ := Prod.mk.inj (pure_eq_ok.mp hpure)
      unfold Processed.apply at happly
      cases hwrite : (processFunc t c (listedHits c t.start (hitDays t.start t.date))).write with
      | none =>
        rw [hwrite] at happly htask
        obtain rfl := pure_eq_ok.mp happly
        exact .untouched (by rw [hafter]) htask
      | some r =>
        rw [hwrite] at happly htask
        obtain ⟨w, hw, params, rfl⟩ := processFunc_write hwrite
        obtain ⟨x, hx, hholds, hr⟩ | ⟨hnone, hr⟩ := updateLimitHit_cases t.organizationId c.id
          (searchedBy t c) t.notifications w params
        · rw [hr] at happly htask
          obtain rfl := pure_eq_ok.mp happly
          refine .overwrites w hw x.createdAt hholds params ?_ htask
          rw [hafter]
          simp [Table.updateWhere]
        · rw [hr] at happly htask
          obtain ⟨-, hrows⟩ := Table.insert?_eq_some.mp (orFail_eq_ok.mp happly)
          exact .creates w hw params (by rw [hafter]; exact hrows) hnone htask

section Creations

variable {t : Turn} {c : Constraint}

/-- The hits a run adds are those under a `created_at` of their own. -/
theorem newHits_eq {kept new : List LimitHit} (hrows : (afterRun t c).limitHits.rows = kept ++ new)
    (hkept : kept.map LimitHit.createdAt = c.limitHits.rows.map LimitHit.createdAt) :
    newHits t c = new := by
  have hnodup := (afterRun t c).limitHits.nodup
  rw [hrows, List.map_append, List.nodup_append] at hnodup
  unfold newHits
  rw [hrows, List.filter_append, ← hkept]
  have hold : kept.filter (fun h => h.createdAt ∉ kept.map LimitHit.createdAt) = [] := by
    refine List.filter_eq_nil_iff.mpr fun h hh => ?_
    rw [decide_eq_true_eq, not_not]
    exact List.mem_map_of_mem hh
  have hfresh : new.filter (fun h => h.createdAt ∉ kept.map LimitHit.createdAt) = new := by
    refine List.filter_eq_self.mpr fun h hh => decide_eq_true fun hin => ?_
    exact hnodup.2.2 _ hin _ (List.mem_map_of_mem hh) rfl
  rw [hold, hfresh, List.nil_append]

/-- An overwritten hit keeps its `created_at`. -/
theorem createdAt_overwritten (rows : List LimitHit) (createdAt : ℤ) (params : HitParams) :
    (rows.map fun x => if x.createdAt = createdAt then { x with params } else x).map
      LimitHit.createdAt = rows.map LimitHit.createdAt := by
  rw [List.map_map]
  refine List.map_congr_left fun x _ => ?_
  simp only [Function.comp_apply]
  split <;> rfl

/-- A run creates nothing and notifies of nothing, or creates a hit at the end of a window in which
it found none. -/
theorem newHits_cases (t : Turn) (c : Constraint) :
    (newHits t c = [] ∧ notifTask t c = none ∧
      (afterRun t c).limitHits.rows.map LimitHit.createdAt =
        c.limitHits.rows.map LimitHit.createdAt) ∨
    ∃ w ∈ c.definition.windows t, ∃ params, newHits t c = [⟨w.maxCreatedAt, params⟩] ∧
      (notifTask t c = if t.notifications then some ⟨t.organizationId, c.id⟩ else none) ∧
      (afterRun t c).limitHits.rows = c.limitHits.rows ++ [⟨w.maxCreatedAt, params⟩] ∧
      ∀ x ∈ searchedBy t c, ¬ w.Holds x.createdAt := by
  have hkept : (afterRun t c).limitHits.rows.map LimitHit.createdAt =
      c.limitHits.rows.map LimitHit.createdAt → newHits t c = [] :=
    fun hkept => newHits_eq (List.append_nil _).symm hkept
  cases effect t c with
  | untouched hits task =>
    have hsame := congrArg (fun hits => hits.rows.map LimitHit.createdAt) hits
    exact Or.inl ⟨hkept hsame, task, hsame⟩
  | overwrites w _ createdAt _ params hits task =>
    have hsame := hits ▸ createdAt_overwritten c.limitHits.rows createdAt params
    exact Or.inl ⟨hkept hsame, task, hsame⟩
  | creates w window params hits none_found task =>
    exact Or.inr ⟨w, window, params, newHits_eq hits rfl, task, hits, none_found⟩

/-- **A run keeps the `created_at` of the hits it finds** and adds the new ones at the end. -/
theorem createdAt_afterRun (t : Turn) (c : Constraint) :
    (afterRun t c).limitHits.rows.map LimitHit.createdAt =
      c.limitHits.rows.map LimitHit.createdAt ++ (creations t c).map Creation.createdAt := by
  unfold creations
  obtain ⟨hnew, -, hsame⟩ | ⟨w, -, params, hnew, -, hrows, -⟩ := newHits_cases t c
  · rw [hnew, hsame]
    exact (List.append_nil _).symm
  · rw [hnew, hrows, List.map_append]
    rfl

/-- **A task is published exactly for a hit that is created**, where the run is to notify. -/
theorem notifTask_toList (t : Turn) (c : Constraint) :
    (notifTask t c).toList = ((creations t c).filter Creation.notifications).map fun h =>
      ⟨h.organizationId, h.constraintId⟩ := by
  unfold creations
  obtain ⟨hnew, htask, -⟩ | ⟨w, -, params, hnew, htask, -⟩ := newHits_cases t c
  · rw [hnew, htask]
    rfl
  · rw [hnew, htask]
    cases t.notifications <;> rfl

/-- A created hit is at the end of a window in which the run found none. -/
theorem window_of_mem_creations {h : Creation} (hmem : h ∈ creations t c) :
    h.constraintId = c.id ∧ h.evaluated = c.definition.evaluated t h.createdAt ∧
      ∃ w ∈ c.definition.windows t, w.maxCreatedAt = h.createdAt ∧
        ∀ x ∈ searchedBy t c, ¬ w.Holds x.createdAt := by
  obtain ⟨hit, hhit, rfl⟩ := List.mem_map.mp hmem
  refine ⟨rfl, rfl, ?_⟩
  obtain ⟨hnew, -⟩ | ⟨w, hw, params, hnew, -, -, hnone⟩ := newHits_cases t c
  · exact absurd (hnew ▸ hhit) List.not_mem_nil
  · obtain rfl := List.mem_singleton.mp (hnew ▸ hhit)
    exact ⟨w, hw, rfl, hnone⟩

theorem creations_pairwise (t : Turn) (c : Constraint) (R : Creation → Creation → Prop) :
    (creations t c).Pairwise R := by
  unfold creations
  obtain ⟨hnew, -⟩ | ⟨w, -, params, hnew, -⟩ := newHits_cases t c
  · rw [hnew]
    exact List.Pairwise.nil
  · rw [hnew]
    exact List.pairwise_singleton R _

end Creations

/-! ## What an earlier hit rules out -/

section Earlier

variable {t : Turn} {c : Constraint}

/-- What an entry says of its instants: it is not stamped before the instant it was created for;
kinds that stamp the clock have stamped it by now, the others stamp the evaluated instant. -/
def Stamped (clock : ℤ) (d : Definition) (h : Creation) : Prop :=
  h.evaluated ≤ h.createdAt ∧
    match d with
    | .resourceQuota .. | .taggingPolicy .. | .expiringBudget .. =>
      0 < h.createdAt ∧ h.createdAt ≤ clock
    | _ => h.evaluated = h.createdAt

theorem Stamped.mono {x y : ℤ} {d : Definition} {h : Creation} (hstamped : Stamped x d h)
    (hxy : x ≤ y) : Stamped y d h := by
  unfold Stamped at *
  refine ⟨hstamped.1, ?_⟩
  cases d <;> grind

theorem stamped_of_mem_creations {h : Creation} (hstart : 0 < t.start) (hdate : t.date ≤ t.start)
    (hmem : h ∈ creations t c) : Stamped t.start c.definition h := by
  obtain ⟨-, hevaluated, w, hw, hmax, -⟩ := window_of_mem_creations hmem
  unfold Stamped
  cases hd : c.definition <;> rw [hd] at hevaluated hw <;>
    simp only [Definition.evaluated, Definition.windows, List.mem_cons, List.not_mem_nil,
      or_false] at hevaluated hw <;> grind

/-- **An earlier entry of the period is in the window**, and among the hits that are listed. -/
theorem holds_of_samePeriod {d : Definition} {w : Window} {h h' : Creation}
    (hdate : t.date ≤ t.start) (hstamped : Stamped t.start d h) (hw : w ∈ d.windows t)
    (hmax : w.maxCreatedAt = h'.createdAt) (hevaluated : h'.evaluated = d.evaluated t h'.createdAt)
    (horder : d.InOrder h h') (hsame : d.SamePeriod h.evaluated h'.evaluated) :
    w.Holds h.createdAt ∧ ((∃ total startDate, d = .expiringBudget total startDate) ∨
      monthStart t.date ≤ h.createdAt ∨ todayStart (t.date - 86400) ≤ h.createdAt) := by
  obtain ⟨hbefore, hkind⟩ := hstamped
  have hmonth := monthStart_le h.evaluated
  cases d with
  | expiringBudget total startDate =>
    obtain rfl := List.mem_singleton.mp hw
    exact ⟨hkind, Or.inl ⟨total, startDate, rfl⟩⟩
  | recurringBudget monthly =>
    obtain rfl := List.mem_singleton.mp hw
    simp only [Definition.evaluated, Definition.InOrder, Definition.SamePeriod] at *
    rw [hevaluated, ← hmax] at hsame
    exact ⟨⟨by dsimp only; omega, by dsimp only; omega⟩, Or.inr (Or.inl (by omega))⟩
  | expenseAnomaly threshold days =>
    simp only [Definition.windows, Definition.evaluated, Definition.InOrder, Definition.SamePeriod,
      todayStart, List.mem_cons, List.not_mem_nil, or_false] at *
    obtain rfl | rfl := hw
    all_goals
      simp only at hmax
      exact ⟨⟨by dsimp only; omega, by dsimp only; omega⟩, Or.inr (Or.inr (by omega))⟩
  | resourceCountAnomaly threshold days =>
    obtain rfl := List.mem_singleton.mp hw
    simp only [Definition.evaluated, Definition.InOrder, Definition.SamePeriod, todayStart] at *
    exact ⟨⟨by dsimp only; omega, by dsimp only; omega⟩, Or.inr (Or.inr (by omega))⟩
  | resourceQuota maxValue =>
    obtain rfl := List.mem_singleton.mp hw
    simp only [Definition.evaluated, Definition.InOrder, Definition.SamePeriod, todayStart] at *
    exact ⟨⟨by dsimp only; omega, by dsimp only; omega⟩, Or.inr (Or.inr (by omega))⟩
  | taggingPolicy startDate =>
    obtain rfl := List.mem_singleton.mp hw
    simp only [Definition.evaluated, Definition.InOrder, Definition.SamePeriod, todayStart] at *
    exact ⟨⟨by dsimp only; omega, by dsimp only; omega⟩, Or.inr (Or.inr (by omega))⟩

theorem mem_searchedBy_of_listed {x : LimitHit}
    (hx : x ∈ listedHits c t.start (hitDays t.start t.date)) : x ∈ searchedBy t c := by
  unfold searchedBy searchedHits
  split
  · rw [if_neg (List.ne_nil_of_mem hx)]
    exact hx
  · exact hx

/-- Where an expiring budget has hits, some are searched. -/
theorem searchedBy_ne_nil (h : c.limitHits.rows ≠ []) {total : ℚ} {startDate : ℤ}
    (hd : c.definition = .expiringBudget total startDate) : searchedBy t c ≠ [] := by
  simp only [searchedBy, searchedHits, hd]
  split_ifs with hnil
  · exact h
  · exact hnil

/-- **No second hit**: an earlier entry of the period, in order, is a hit the run would find. -/
theorem not_samePeriod {entries : List Creation} {h h' : Creation} (hdate : t.date ≤ t.start)
    (hrecorded : c.limitHits.rows.map LimitHit.createdAt = entries.map Creation.createdAt)
    (hstamped : ∀ h ∈ entries, Stamped t.start c.definition h) (hearlier : h ∈ entries)
    (hmem : h' ∈ creations t c) (horder : c.definition.InOrder h h') :
    ¬ c.definition.SamePeriod h.evaluated h'.evaluated := by
  intro hsame
  obtain ⟨-, hevaluated, w, hw, hmax, hnone⟩ := window_of_mem_creations hmem
  obtain ⟨x, hx, hxh⟩ := List.mem_map.mp (hrecorded ▸ List.mem_map_of_mem hearlier)
  obtain ⟨hholds, ⟨total, startDate, hd⟩ | hsince⟩ :=
    holds_of_samePeriod hdate (hstamped h hearlier) hw hmax hevaluated horder hsame
  · -- the hit found may be another one: an expiring budget's window holds them all
    obtain ⟨y, hy⟩ := List.exists_mem_of_ne_nil _ (searchedBy_ne_nil (List.ne_nil_of_mem hx) hd)
    obtain ⟨k, hk, hyk⟩ :=
      List.mem_map.mp (hrecorded ▸ List.mem_map_of_mem (mem_of_mem_searchedHits hy))
    have hpast := (hstamped k hk).2
    simp only [hd, Definition.windows, List.mem_singleton] at hw hpast
    obtain rfl := hw
    exact hnone y hy (hyk ▸ hpast)
  · exact hnone x (mem_searchedBy_of_listed (mem_listedHits hx (hxh ▸ hsince))) (hxh ▸ hholds)

end Earlier

/-! ## Runs -/

namespace History

variable {s s' : History} {t : Turn}

/-- **What a run does to a history**: nothing but move the clock, or let every constraint take its
turn and log what they did. -/
theorem step_cases (hstep : step s t = some s') :
    (0 < t.start ∧ s.clock ≤ t.start ∧ t.date ≤ t.start) ∧ s'.clock = t.start ∧
      (s'.constraints = s.constraints ∧ s'.created = s.created ∧ s'.tasks = s.tasks ∨
        s'.constraints.rows = s.constraints.rows.map (afterRun t) ∧
          s'.created = s.created ++ s.constraints.rows.flatMap (creations t) ∧
          s'.tasks = s.tasks ++ s.constraints.rows.filterMap (notifTask t)) := by
  unfold step at hstep
  by_cases horder : 0 < t.start ∧ s.clock ≤ t.start ∧ t.date ≤ t.start
  · rw [if_pos horder] at hstep
    refine ⟨horder, ?_⟩
    cases hproc : processOrganizationConstraints s.constraints t with
    | error e =>
      rw [hproc] at hstep
      obtain rfl := Option.some.inj hstep
      exact ⟨rfl, Or.inl ⟨rfl, rfl, rfl⟩⟩
    | ok result =>
      rw [hproc] at hstep
      obtain rfl := Option.some.inj hstep
      obtain ⟨_, -, hproc⟩ := bind_eq_ok.mp hproc
      by_cases hdisabled : t.disabled
      · rw [if_pos hdisabled] at hproc
        obtain rfl := pure_eq_ok.mp hproc
        rw [if_pos hdisabled, List.append_nil, List.append_nil]
        exact ⟨rfl, Or.inl ⟨rfl, rfl, rfl⟩⟩
      · rw [if_neg hdisabled] at hproc
        obtain rfl := pure_eq_ok.mp hproc
        rw [if_neg hdisabled]
        exact ⟨rfl, Or.inr ⟨by simp [Table.updateWhere], rfl, rfl⟩⟩
  · rw [if_neg horder] at hstep
    cases hstep

/-- What every history has that starts without hits. -/
structure Inv (s : History) : Prop where
  recorded : s.Recorded
  notifies : s.NotifiesCreated
  onePerPeriod : s.OnePerPeriod
  stamped : ∀ c ∈ s.constraints.rows, ∀ h ∈ s.createdFor c, Stamped s.clock c.definition h

theorem inv_start (constraints : Table Constraint.id) : (start constraints).Inv := by
  have hrows : ∀ c ∈ (start constraints).constraints.rows, c.limitHits.rows = [] := by
    intro c hc
    obtain ⟨a, -, rfl⟩ := List.mem_map.mp hc
    rfl
  exact {
    recorded := fun c hc => by rw [hrows c hc]; rfl
    notifies := rfl
    onePerPeriod := fun c _ => List.Pairwise.nil
    stamped := fun c _ h hh => absurd hh List.not_mem_nil }

/-- A constraint's entries are the old ones and the run's own for it. -/
theorem createdFor_of_created
    (hcreated : s'.created = s.created ++ s.constraints.rows.flatMap (creations t)) {c : Constraint}
    (hc : c ∈ s.constraints.rows) :
    s'.createdFor (afterRun t c) = s.createdFor c ++ creations t c := by
  have hshare : (s.constraints.rows.flatMap (creations t)).filter (fun h => h.constraintId = c.id) =
      creations t c :=
    s.constraints.filter_flatMap (fun a _ h hh => (window_of_mem_creations hh).1) hc
  rw [createdFor, hcreated, afterRun_id, List.filter_append, hshare]
  rfl

theorem inv_step (hinv : s.Inv) (hstep : step s t = some s') : s'.Inv := by
  obtain ⟨⟨hstart, hclock, hdate⟩, hclock', ⟨hcs, hcreated, htasks⟩ | ⟨hcs, hcreated, htasks⟩⟩ :=
    step_cases hstep
  · have hfor : ∀ c, s'.createdFor c = s.createdFor c := fun c => by
      rw [createdFor, hcreated]
      rfl
    exact {
      recorded := fun c hc => hfor c ▸ hinv.recorded c (hcs ▸ hc)
      notifies := by
        rw [NotifiesCreated, htasks, hcreated]
        exact hinv.notifies
      onePerPeriod := fun c hc => hfor c ▸ hinv.onePerPeriod c (hcs ▸ hc)
      stamped := fun c hc h hh =>
        (hinv.stamped c (hcs ▸ hc) h (hfor c ▸ hh)).mono (hclock' ▸ hclock) }
  · have hturn : ∀ c' ∈ s'.constraints.rows, ∃ c ∈ s.constraints.rows, afterRun t c = c' ∧
        s'.createdFor c' = s.createdFor c ++ creations t c := by
      intro c' hc'
      obtain ⟨c, hc, rfl⟩ := List.mem_map.mp (hcs ▸ hc')
      exact ⟨c, hc, rfl, createdFor_of_created hcreated hc⟩
    have hstamped : ∀ c ∈ s.constraints.rows, ∀ h ∈ s.createdFor c,
        Stamped t.start c.definition h := fun c hc h hh => (hinv.stamped c hc h hh).mono hclock
    refine ⟨fun c' hc' => ?_, ?_, fun c' hc' => ?_, fun c' hc' h hh => ?_⟩
    · obtain ⟨c, hc, rfl, hfor⟩ := hturn c' hc'
      rw [hfor, createdAt_afterRun, hinv.recorded c hc, List.map_append]
    · have hbatch : s.constraints.rows.filterMap (notifTask t) =
          ((s.constraints.rows.flatMap (creations t)).filter Creation.notifications).map fun h =>
            ⟨h.organizationId, h.constraintId⟩ := by
        rw [List.filter_flatMap, List.map_flatMap, List.filterMap_eq_flatMap_toList]
        exact List.flatMap_congr fun c _ => notifTask_toList t c
      rw [NotifiesCreated, htasks, hcreated, hinv.notifies, hbatch, List.filter_append,
        List.map_append]
    · obtain ⟨c, hc, rfl, hfor⟩ := hturn c' hc'
      rw [hfor, afterRun_definition, List.pairwise_append]
      refine ⟨hinv.onePerPeriod c hc, creations_pairwise t c _, fun h hh h' hh' => ?_⟩
      exact not_samePeriod hdate (hinv.recorded c hc) (hstamped c hc) hh hh'
    · obtain ⟨c, hc, rfl, hfor⟩ := hturn c' hc'
      rw [hclock', afterRun_definition]
      rcases List.mem_append.mp (hfor ▸ hh) with hh | hh
      · exact hstamped c hc h hh
      · exact stamped_of_mem_creations hstart hdate hh

/-- **A run overwrites hits of its windows only.** -/
theorem overwritesWindow (hstep : step s t = some s') : OverwritesWindow s t s' := by
  intro c hc c' hc' hid h hh hgone
  obtain ⟨-, -, ⟨hcs, -⟩ | ⟨hcs, -⟩⟩ := step_cases hstep
  · obtain rfl := s.constraints.eq_of_key (hcs ▸ hc') hc hid
    exact absurd hh hgone
  · obtain ⟨a, ha, rfl⟩ := List.mem_map.mp (hcs ▸ hc')
    obtain rfl := s.constraints.eq_of_key ha hc ((afterRun_id t a).symm.trans hid)
    cases effect t a with
    | untouched hits _ => exact absurd (hits ▸ hh) hgone
    | overwrites w hw createdAt holds params hits _ =>
      refine ⟨w, hw, ?_⟩
      by_cases hat : h.createdAt = createdAt
      · exact hat ▸ holds
      · exact absurd (hits ▸ List.mem_map.mpr ⟨h, hh, if_neg hat⟩) hgone
    | creates w _ params hits _ _ => exact absurd (hits ▸ List.mem_append_left _ hh) hgone

end History

/-- **One hit per period**: over every sequence of runs the hits of a constraint that are in order
have periods of their own, each is notified of where its run was to notify, and a run overwrites
hits of its windows only. -/
theorem oneHitPerPeriod (constraints : Table Constraint.id) (turns : List Turn) :
    Always History.step (fun s => s.Recorded ∧ s.OnePerPeriod ∧ s.NotifiesCreated)
      (History.start constraints) turns ∧
    Along History.step History.OverwritesWindow (History.start constraints) turns := by
  have hinv : Always History.step History.Inv (History.start constraints) turns :=
    always_of_step (fun _ _ _ => History.inv_step) turns (History.inv_start constraints)
  have hoverwrites : ∀ s t s', History.Inv s → History.step s t = some s' → History.Inv s' →
      History.OverwritesWindow s t s' := fun _ _ _ _ hstep _ => History.overwritesWindow hstep
  exact ⟨hinv.mono fun s h => ⟨h.recorded, h.onePerPeriod, h.notifies⟩,
    along_of_always hoverwrites hinv⟩

/-! ### An anomaly of the day after

The same constraint is violated at 10:00 of one day and at 9:00 of the next: the window of the
second run reaches back to 9:00 of the first day, and the second day gets no hit of its own.
-/

namespace History

/-- No two hits of a constraint have one period. -/
def AtMostOnePerPeriod (s : History) : Prop :=
  ∀ c ∈ s.constraints.rows, (s.createdFor c).Pairwise fun h h' =>
    ¬ c.definition.SamePeriod h.evaluated h'.evaluated

/-- A task was published for each hit. -/
def NotifiesAll (s : History) : Prop :=
  s.tasks = s.created.map fun h => ⟨h.organizationId, h.constraintId⟩

/-- The hits a run overwrote were created for a period it evaluated. -/
def OverwritesOwnPeriod (s : History) (t : Turn) (s' : History) : Prop :=
  ∀ c ∈ s.constraints.rows, ∀ c' ∈ s'.constraints.rows, c'.id = c.id →
    ∀ h ∈ c.limitHits.rows, h ∉ c'.limitHits.rows →
      ∃ w ∈ c.definition.windows t, ∃ e ∈ s.createdFor c, e.createdAt = h.createdAt ∧
        c.definition.SamePeriod e.evaluated w.evaluated

end History

/-- One constraint on resource counts. -/
def countConstraints : Table Constraint.id :=
  ⟨[{ id := 1, definition := .resourceCountAnomaly 50 7, limitHits := .empty }], by decide⟩

/-- A run at an instant, with a count above an average of `5`. -/
def countTurn (start : ℤ) (todays : ℚ) : Turn where
  organizationId := 2
  date := start
  notifications := true
  start := start
  info _ _ _ := (todays, 5, [])

/-- The hits of each constraint. -/
def History.hits (s : History) : List (Uuid × Definition × List LimitHit) :=
  s.constraints.rows.map fun c => (c.id, c.definition, c.limitHits.rows)

/-- **An anomaly of the next morning overwrites the hit of the day before.** -/
theorem anomaly_of_day_before_overwritten :
    ¬ ∀ (constraints : Table Constraint.id) (turns : List Turn), (∀ t ∈ turns, t.notifications) →
      Always History.step (fun s => s.AtMostOnePerPeriod ∧ s.NotifiesAll)
        (History.start constraints) turns ∧
      Along History.step History.OverwritesOwnPeriod (History.start constraints) turns := by
  intro h
  have hfirst : (run History.step (History.start countConstraints) [countTurn 122400 10]).map
      (fun s => (s.hits, s.created)) =
      some ([(1, .resourceCountAnomaly 50 7, [⟨122400, 5, 10, .anomaly 5 10 []⟩])],
        [⟨2, 1, 122400, 122400, true⟩]) := by decide +kernel
  have hsecond : (run History.step (History.start countConstraints)
      [countTurn 122400 10, countTurn 205200 20]).map History.hits =
      some [(1, .resourceCountAnomaly 50 7, [⟨122400, 5, 20, .anomaly 5 20 []⟩])] := by
    decide +kernel
  obtain ⟨s, hs, hview⟩ := Option.map_eq_some_iff.mp hfirst
  obtain ⟨s', hs', hview'⟩ := Option.map_eq_some_iff.mp hsecond
  obtain ⟨hhits, hcreated⟩ := Prod.mk.inj hview
  obtain ⟨s₁, hstep, hs⟩ := Option.bind_eq_some_iff.mp hs
  obtain rfl := Option.some.inj hs
  obtain ⟨s₂, hstep₂, hs'⟩ := Option.bind_eq_some_iff.mp hs'
  obtain rfl := Option.some.inj (hstep.symm.trans hstep₂)
  obtain ⟨s₂, hstep', hs'⟩ := Option.bind_eq_some_iff.mp hs'
  obtain rfl := Option.some.inj hs'
  obtain ⟨c, hc, hrow⟩ := List.mem_map.mp (hhits ▸ List.mem_singleton_self _)
  obtain ⟨c', hc', hrow'⟩ := List.mem_map.mp (hview' ▸ List.mem_singleton_self _)
  simp only [Prod.mk.injEq] at hrow hrow'
  have hown := (((h countConstraints [countTurn 122400 10, countTurn 205200 20] (by decide)).2
    _ hstep).2 _ hstep').1
  obtain ⟨w, hw, e, he, -, hsame⟩ := hown c hc c' hc' (hrow'.1.trans hrow.1.symm)
    ⟨122400, 5, 10, .anomaly 5 10 []⟩ (hrow.2.2 ▸ List.mem_singleton_self _)
    (by rw [hrow'.2.2]; decide +kernel)
  rw [hrow.2.1] at hw hsame
  obtain rfl := List.mem_singleton.mp hw
  have hentry := (List.mem_filter.mp he).1
  rw [hcreated] at hentry
  obtain rfl := List.mem_singleton.mp hentry
  have hdays : todayStart 122400 ≠ todayStart 205200 := by decide
  exact hdays hsame

end OrganizationViolationsWorker
