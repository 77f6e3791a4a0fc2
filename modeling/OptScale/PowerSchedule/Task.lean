import OptScale.Foundations.Table
import OptScale.PowerSchedule.Action

/-!
# PowerSchedule/Task — `PowerScheduleWorker.process_resources` and `process_task`

The active resources of a schedule are switched account by account.  A failure of a resource is counted,
and one that is not about the resource itself raised again once its account is through; the accounts after
it are then left out.  So the action reaches every active resource exactly when nothing is raised before the
last account (`reachesAll_iff`), although `last_eval` is advanced in any case.
-/

open Fallible

namespace PowerScheduleWorker

/-! ## What a task finds -/

/-- A document of the schedule. -/
structure Machine where
  /-- `_id` -/
  id : Uuid
  active : Bool
  cloudAccountId : Option Uuid
  deriving DecidableEq, Repr

/-- The methods of a cloud adapter. -/
inductive AdapterAction
  | start_instance
  | stop_instance
  deriving DecidableEq, Repr

/-- `action_func_map` -/
def actionFunc : PowerAction → AdapterAction
  | .POWER_ON => .start_instance
  | .POWER_OFF => .stop_instance

/-- What `cloud_action` raises. -/
inductive CloudFailure
  | resourceNotFound
  | invalidResourceState
  | other (e : Failure)
  deriving DecidableEq, Repr

/-- The error is kept to be raised again. -/
def CloudFailure.fatal? : CloudFailure → Option Failure
  | resourceNotFound => none
  | invalidResourceState => none
  | other e => some e

/-- The services a task switches resources through. -/
structure Clouds where
  /-- The documents with the schedule's id. -/
  resources : List Machine
  /-- `cloud_account_get` -/
  cloudAccountGet : Option Uuid → Except Failure Unit
  /-- `Cloud.get_adapter` -/
  getAdapter : Option Uuid → Except Failure Unit
  /-- `cloud_action`, on the resource. -/
  cloudAction : AdapterAction → Machine → Except CloudFailure Unit
  /-- `publish_activities_task`, after an account. -/
  publish : Option Uuid → Except Failure Unit
  /-- The order in which the futures of an account complete. -/
  completed : List Machine → List Machine
  completed_perm : ∀ machines, (completed machines).Perm machines

/-- The result of a task, and the resources the action was attempted on. -/
structure Progress where
  result : Result := {}
  attempted : List Machine := []
  deriving DecidableEq, Repr

variable (E : Clouds) (action : AdapterAction)

/-! ## `process_resources` -/

/-- The resources of an account. -/
structure AccountResources where
  cloudAccountId : Option Uuid
  resources : List Machine
  deriving DecidableEq, Repr

/-- `cloud_acc_resources`: the active resources by their accounts, in the order they come. -/
def cloudAccResources (resources : List Machine) : Table AccountResources.cloudAccountId :=
  (resources.filter (·.active)).foldl (fun t r =>
    t.upsert ⟨r.cloudAccountId, [r]⟩ (fun g => { g with resources := g.resources ++ [r] }) fun _ => rfl)
    .empty

/-- `self.result[action] += 1` -/
def Result.count (result : Result) : AdapterAction → Result
  | .start_instance => { result with startInstance := result.startInstance + 1 }
  | .stop_instance => { result with stopInstance := result.stopInstance + 1 }

/-- One future: the attempt, and how it is counted. -/
def attempt (s : Progress) (r : Machine) : Progress where
  result :=
    match E.cloudAction action r with
    | .ok () => s.result.count action
    | .error _ => { s.result with error := s.result.error + 1 }
  attempted := s.attempted ++ [r]

/-- The error of a resource that is raised again. -/
def fatalError (r : Machine) : Option Failure :=
  match E.cloudAction action r with
  | .ok () => none
  | .error e => e.fatal?

/-- One account. -/
def processAccount (g : AccountResources) : Session Progress Failure Unit := do
  Session.read fun _ => E.cloudAccountGet g.cloudAccountId
  Session.read fun _ => E.getAdapter g.cloudAccountId
  let done := E.completed g.resources
  Session.change fun s => done.foldl (attempt E action) s
  Session.read fun _ => E.publish g.cloudAccountId
  -- handle all instances and raise exception in the end
  match (done.filterMap (fatalError E action)).head? with
  | some e => Session.raise e
  | none => pure ()

/-- The loop over the accounts. -/
def processAccounts : List AccountResources → Session Progress Failure Unit
  | [] => pure ()
  | g :: groups => do
    processAccount E action g
    processAccounts groups

/-- `process_resources` -/
def processResources : Session Progress Failure Unit := do
  if E.resources = [] then
    Session.change fun s => { s with result := { s.result with reason := some .NO_RESOURCES } }
  else
    Session.change fun s => { s with result :=
      { s.result with notActive := s.result.notActive + (E.resources.filter fun r => !r.active).length } }
    processAccounts E action (cloudAccResources E.resources).rows

/-! ## `process_task` -/

/-- A task, with what it finds. -/
structure Task where
  /-- The second the task came in. -/
  nowTs : ℤ
  today : Today
  /-- `power_schedule_get`, of the id the task comes with. -/
  schedule : Except Failure PowerSchedule
  /-- `is_schedule_outdated` -/
  outdated : PowerSchedule → Bool
  /-- `organization_get`: whether the organization is disabled. -/
  organizationDisabled : Uuid → Except Failure Bool
  clouds : Clouds

/-- `is_executable_ps`: the reason not to go on. -/
def notExecutable (T : Task) (schedule : PowerSchedule) : Except Failure (Option Reason) :=
  if schedule.enabled = false then .ok (some .DISABLED)
  else if T.outdated schedule = true then .ok (some .OUTDATED)
  else do
    let disabled ← T.organizationDisabled schedule.organizationId
    pure (if disabled = true then some .DISABLED_ORG else none)

/-- `process_schedule` -/
def processSchedule (T : Task) : Session Progress Failure Unit := do
  let schedule ← Session.read fun _ => T.schedule
  let reason ← Session.read fun _ => notExecutable T schedule
  match reason with
  | some reason => Session.change fun s => { s with result := { s.result with reason := some reason } }
  | none => do
    let requiredAction ← Session.within Progress.result (fun result s => { s with result })
      (getAction T.today schedule)
    match requiredAction with
    | some powerAction => processResources T.clouds (actionFunc powerAction)
    | none => pure ()

/-- What `power_schedule_update` is sent. -/
structure Updates where
  lastEval : ℤ
  lastRun : Option ℤ
  /-- `some none` resets the error. -/
  lastRunError : Option (Option Failure)
  deriving DecidableEq, Repr

/-- The reasons that are no run. -/
def quietReasons : List (Option Reason) :=
  [some .NO_CHANGES, some .DISABLED, some .OUTDATED, some .DISABLED_ORG]

/-- `process_task`: what is sent to the API, and what was done. -/
def processTask (T : Task) : Updates × Progress :=
  let (outcome, s) := processSchedule T {}
  let error : Option Failure := match outcome with
    | .ok () => none
    | .error e => some e
  let s : Progress := match error with
    | none => s
    | some e => { s with result := { s.result with reason := some (.error e) } }
  let ran : Bool := s.result.reason ∉ quietReasons
  ({ lastEval := T.nowTs
     lastRun := if ran then some T.nowTs else none
     lastRunError := match error with
       | some e => some (some e)
       | none => if ran then some none else none }, s)

/-! ## One account -/

/-- The account is found, and an adapter made for it. -/
def Reachable (g : AccountResources) : Prop :=
  E.cloudAccountGet g.cloudAccountId = .ok () ∧ E.getAdapter g.cloudAccountId = .ok ()

/-- Nothing is raised for the account. -/
def Passes (g : AccountResources) : Prop :=
  Reachable E g ∧ E.publish g.cloudAccountId = .ok () ∧
    ∀ r ∈ g.resources, fatalError E action r = none

/-- **Nothing is raised before the last account**, and that one is reached. -/
def Unbroken : List AccountResources → Prop
  | [] => True
  | [g] => Reachable E g
  | g :: g' :: groups => Passes E action g ∧ Unbroken (g' :: groups)

/-- The resources counted one way or the other. -/
def Result.counted (result : Result) : ℕ :=
  result.startInstance + result.stopInstance + result.error + result.notActive

variable {E action} {s : Progress} {g : AccountResources}

theorem counted_attempt (r : Machine) :
    (attempt E action s r).result.counted = s.result.counted + 1 := by
  unfold attempt Result.counted
  dsimp only
  split
  · cases action <;> simp only [Result.count] <;> omega
  · dsimp only
    omega

theorem foldl_attempt (rs : List Machine) : ∀ s : Progress,
    (rs.foldl (attempt E action) s).attempted = s.attempted ++ rs ∧
      (rs.foldl (attempt E action) s).result.counted = s.result.counted + rs.length := by
  induction rs with
  | nil => exact fun s => ⟨(List.append_nil _).symm, rfl⟩
  | cons r rs ih =>
    intro s
    obtain ⟨hattempted, hcounted⟩ := ih (attempt E action s r)
    rw [List.foldl_cons, hattempted, hcounted, counted_attempt, List.length_cons]
    exact ⟨List.append_assoc .., by omega⟩

/-- The progress after an account that is reached. -/
def afterAccount (E : Clouds) (action : AdapterAction) (g : AccountResources) (s : Progress) : Progress :=
  (E.completed g.resources).foldl (attempt E action) s

theorem fatal_eq_nil_iff : (E.completed g.resources).filterMap (fatalError E action) = [] ↔
    ∀ r ∈ g.resources, fatalError E action r = none := by
  rw [List.filterMap_eq_nil_iff]
  exact forall_congr' fun r => by rw [(E.completed_perm g.resources).mem_iff]

/-- An account that is reached goes on to its resources. -/
theorem processAccount_of_reachable (h : Reachable E g) : processAccount E action g s =
    (do
      Session.read fun _ => E.publish g.cloudAccountId
      match ((E.completed g.resources).filterMap (fatalError E action)).head? with
      | some e => Session.raise e
      | none => pure () : Session Progress Failure Unit) (afterAccount E action g s) := by
  rw [processAccount, Session.read_bind_of_ok (f := fun _ => E.cloudAccountGet g.cloudAccountId) h.1]
  exact Session.read_bind_of_ok (f := fun _ => E.getAdapter g.cloudAccountId) h.2

/-- An account that is not reached is left alone. -/
theorem processAccount_of_not_reachable (action : AdapterAction) (s : Progress)
    (h : ¬ Reachable E g) :
    ∃ e, processAccount E action g s = (.error e, s) := by
  cases hget : E.cloudAccountGet g.cloudAccountId with
  | error e => exact ⟨e, Session.bind_of_error (by rw [Session.read, hget])⟩
  | ok =>
    cases hadapter : E.getAdapter g.cloudAccountId with
    | error e =>
      refine ⟨e, (Session.read_bind_of_ok (f := fun _ => E.cloudAccountGet g.cloudAccountId) hget).trans
        (Session.bind_of_error ?_)⟩
      rw [Session.read, hadapter]
    | ok => exact absurd ⟨hget, hadapter⟩ h

/-- **An account that is reached**: what it leaves, and that it raises nothing exactly when it passes. -/
theorem processAccount_spec (action : AdapterAction) (s : Progress) (h : Reachable E g) :
    (processAccount E action g s).2 = afterAccount E action g s ∧
      ((processAccount E action g s).1 = .ok () ↔ Passes E action g) := by
  rw [processAccount_of_reachable h]
  cases hpublish : E.publish g.cloudAccountId with
  | error e =>
    refine ⟨rfl, iff_of_false (fun h => by cases h) fun h => ?_⟩
    rw [h.2.1] at hpublish
    cases hpublish
  | ok =>
    cases hfatal : (E.completed g.resources).filterMap (fatalError E action) with
    | nil => exact ⟨rfl, iff_of_true rfl ⟨h, hpublish, fatal_eq_nil_iff.mp hfatal⟩⟩
    | cons e errors =>
      refine ⟨rfl, iff_of_false (fun h => by cases h) fun h => ?_⟩
      rw [fatal_eq_nil_iff.mpr h.2.2] at hfatal
      cases hfatal

/-! ## All accounts -/

theorem processAccounts_of_passes (h : Passes E action g) (groups : List AccountResources) :
    processAccounts E action (g :: groups) s =
      processAccounts E action groups (afterAccount E action g s) := by
  obtain ⟨hstate, hok⟩ := processAccount_spec action s h.1
  exact Session.bind_of_ok (Prod.ext (hok.mpr h) hstate)

/-- An account at which something is raised is the last one. -/
theorem processAccounts_of_not_passes (h : ¬ Passes E action g) (groups : List AccountResources) :
    (processAccounts E action (g :: groups) s).2 = (processAccount E action g s).2 := by
  cases hrun : processAccount E action g s with
  | mk outcome t =>
    cases outcome with
    | error e => exact congrArg Prod.snd (Session.bind_of_error hrun)
    | ok =>
      by_cases hreach : Reachable E g
      · exact absurd ((processAccount_spec action s hreach).2.mp (by rw [hrun])) h
      · obtain ⟨e, herror⟩ := processAccount_of_not_reachable action s hreach
        rw [hrun] at herror
        cases herror

/-- **Unbroken accounts** have the action attempted on all their resources, and each counted. -/
theorem processAccounts_of_unbroken {groups : List AccountResources} : ∀ {s : Progress},
    Unbroken E action groups →
    (processAccounts E action groups s).2.attempted.Perm
        (s.attempted ++ groups.flatMap AccountResources.resources) ∧
      (processAccounts E action groups s).2.result.counted =
        s.result.counted + (groups.flatMap AccountResources.resources).length := by
  have hafter (g : AccountResources) (s : Progress) :
      (afterAccount E action g s).attempted.Perm (s.attempted ++ g.resources) ∧
        (afterAccount E action g s).result.counted = s.result.counted + g.resources.length := by
    rw [afterAccount, (foldl_attempt _ s).1, (foldl_attempt _ s).2,
      (E.completed_perm g.resources).length_eq]
    exact ⟨(E.completed_perm g.resources).append_left _, rfl⟩
  induction groups with
  | nil => exact fun _ => ⟨by simp [processAccounts], by simp [processAccounts]⟩
  | cons g groups ih =>
    intro s h
    cases groups with
    | nil =>
      have hstate : (processAccounts E action [g] s).2 = afterAccount E action g s := by
        by_cases hpasses : Passes E action g
        · rw [processAccounts_of_passes hpasses]
          rfl
        · rw [processAccounts_of_not_passes hpasses]
          exact (processAccount_spec action s h).1
      rw [hstate, List.flatMap_singleton]
      exact hafter g s
    | cons g' groups =>
      obtain ⟨hpasses, h⟩ := h
      obtain ⟨hperm, hcounted⟩ := ih (s := afterAccount E action g s) h
      obtain ⟨hperm', hcounted'⟩ := hafter g s
      rw [processAccounts_of_passes hpasses, hcounted, hcounted', List.flatMap_cons, List.length_append]
      refine ⟨hperm.trans ?_, by omega⟩
      rw [← List.append_assoc]
      exact hperm'.append_right _

/-- **Broken accounts** leave resources out. -/
theorem processAccounts_of_broken {groups : List AccountResources} (hne : ∀ g ∈ groups, g.resources ≠ []) :
    ∀ {s : Progress}, ¬ Unbroken E action groups →
      (processAccounts E action groups s).2.attempted.length <
        s.attempted.length + (groups.flatMap AccountResources.resources).length := by
  induction groups with
  | nil => exact fun h => absurd trivial h
  | cons g groups ih =>
    intro s h
    obtain ⟨hg, hgroups⟩ := List.forall_mem_cons.mp hne
    have hpos := List.length_pos_iff.mpr hg
    have hlength : (afterAccount E action g s).attempted.length =
        s.attempted.length + g.resources.length := by
      rw [afterAccount, (foldl_attempt _ _).1, List.length_append, (E.completed_perm _).length_eq]
    rw [List.flatMap_cons, List.length_append]
    by_cases hpasses : Passes E action g
    · cases groups with
      | nil => exact absurd hpasses.1 h
      | cons g' groups =>
        have h' := ih hgroups (s := afterAccount E action g s) fun h' => h ⟨hpasses, h'⟩
        rw [processAccounts_of_passes hpasses]
        omega
    · rw [processAccounts_of_not_passes hpasses]
      by_cases hreach : Reachable E g
      · rw [(processAccount_spec action s hreach).1, hlength]
        cases groups with
        | nil => exact absurd hreach h
        | cons g' groups =>
          have hpos' := List.length_pos_iff.mpr (hgroups g' List.mem_cons_self)
          rw [List.flatMap_cons, List.length_append]
          omega
      · obtain ⟨e, herror⟩ := processAccount_of_not_reachable action s hreach
        rw [herror]
        dsimp only
        omega

/-! ## The resources by their accounts -/

/-- A resource more in one of the groups. -/
theorem flatMap_join_perm {rows : List AccountResources} {r : Machine}
    (hnodup : (rows.map AccountResources.cloudAccountId).Nodup)
    (hmem : r.cloudAccountId ∈ rows.map AccountResources.cloudAccountId) :
    ((rows.map fun g => if g.cloudAccountId = r.cloudAccountId
        then { g with resources := g.resources ++ [r] } else g).flatMap AccountResources.resources).Perm
      (rows.flatMap AccountResources.resources ++ [r]) := by
  induction rows with
  | nil => exact absurd hmem List.not_mem_nil
  | cons g rows ih =>
    obtain ⟨hg, hnodup⟩ := List.nodup_cons.mp hnodup
    rw [List.map_cons, List.flatMap_cons, List.flatMap_cons]
    obtain heq | hmem := List.mem_cons.mp hmem
    · have hkeep : (rows.map fun g => if g.cloudAccountId = r.cloudAccountId
          then { g with resources := g.resources ++ [r] } else g) = rows := by
        refine (List.map_congr_left fun g' hg' => if_neg fun h => hg ?_).trans (List.map_id' _)
        exact heq ▸ h ▸ List.mem_map_of_mem hg'
      rw [hkeep, if_pos heq.symm, List.append_assoc, List.append_assoc]
      exact List.perm_append_comm.append_left _
    · have hne : g.cloudAccountId ≠ r.cloudAccountId := fun h => hg (h ▸ hmem)
      rw [if_neg hne, List.append_assoc]
      exact (ih hnodup hmem).append_left _

/-- **Every active resource is in one group**, and no group is empty. -/
theorem cloudAccResources_spec (resources : List Machine) :
    ((cloudAccResources resources).rows.flatMap AccountResources.resources).Perm
        (resources.filter (·.active)) ∧
      ∀ g ∈ (cloudAccResources resources).rows, g.resources ≠ [] := by
  unfold cloudAccResources
  induction resources.filter (·.active) using List.reverseRecOn with
  | nil => exact ⟨.refl _, fun g hg => absurd hg List.not_mem_nil⟩
  | append_singleton rs r ih =>
    obtain ⟨hperm, hne⟩ := ih
    rw [List.foldl_append, List.foldl_cons, List.foldl_nil]
    generalize List.foldl _ Table.empty rs = t at hperm hne ⊢
    by_cases hold : r.cloudAccountId ∈ t.rows.map AccountResources.cloudAccountId
    · rw [Table.rows_upsert_of_old hold]
      refine ⟨(flatMap_join_perm t.nodup hold).trans (hperm.append_right _), fun g hg => ?_⟩
      obtain ⟨g', hg', rfl⟩ := List.mem_map.mp hg
      split
      · exact List.append_ne_nil_of_right_ne_nil _ (List.cons_ne_nil _ _)
      · exact hne g' hg'
    · rw [Table.rows_upsert_of_new hold, List.flatMap_append, List.flatMap_singleton]
      refine ⟨hperm.append_right _, fun g hg => ?_⟩
      obtain hg | hg := List.mem_append.mp hg
      · exact hne g hg
      · obtain rfl := List.mem_singleton.mp hg
        exact List.cons_ne_nil _ _

/-! ## A run over all resources -/

variable (E action) in
/-- The action was attempted once on each active resource, and every resource is counted. -/
def Covers (s : Progress) : Prop :=
  s.attempted.Perm (E.resources.filter (·.active)) ∧ s.result.counted = E.resources.length

variable (E action) in
/-- The task requires the action of its resources. -/
def Requires (T : Task) : Prop :=
  T.clouds = E ∧ ∃ schedule powerAction result, T.schedule = .ok schedule ∧
    notExecutable T schedule = .ok none ∧
    getAction T.today schedule {} = (.ok (some powerAction), result) ∧ actionFunc powerAction = action

variable (E action) in
/-- `process_resources` covers all resources, so a task that requires the action does, and does not advance
`last_eval` without it. -/
def ReachesAll : Prop :=
  Covers E (processResources E action {}).2 ∧
    ∀ T, Requires E action T → (processTask T).1.lastEval = T.nowTs → Covers E (processTask T).2

/-- **`process_resources` covers all resources** exactly when nothing is raised before the last account. -/
theorem covers_iff : Covers E (processResources E action {}).2 ↔
    Unbroken E action (cloudAccResources E.resources).rows := by
  obtain ⟨hperm, hne⟩ := cloudAccResources_spec E.resources
  by_cases hnil : E.resources = []
  · have hrows : (cloudAccResources E.resources).rows = [] := by
      rw [hnil]
      rfl
    rw [hrows, processResources, if_pos hnil, Covers, hnil]
    exact iff_of_true ⟨.refl _, rfl⟩ trivial
  have hsplit := List.length_eq_length_filter_add (l := E.resources) (fun r => r.active)
  let start : Progress := { result := { notActive := 0 + (E.resources.filter fun r => !r.active).length } }
  have hrun : processResources E action {} =
      processAccounts E action (cloudAccResources E.resources).rows start := by
    rw [processResources, if_neg hnil]
    rfl
  rw [hrun]
  constructor
  · rintro ⟨hattempted, -⟩
    by_contra hbroken
    have hlt := processAccounts_of_broken hne (s := start) hbroken
    rw [hattempted.length_eq, hperm.length_eq] at hlt
    exact absurd hlt (by simp [start])
  · intro h
    obtain ⟨hattempted, hcounted⟩ := processAccounts_of_unbroken (s := start) h
    refine ⟨hattempted.trans hperm, ?_⟩
    rw [hcounted, hperm.length_eq]
    simp only [start, Result.counted]
    omega

/-- An action that is required leaves the result as it was. -/
theorem getAction_eq_some {D : Today} {schedule : PowerSchedule} {result result' : Result}
    {powerAction : PowerAction} (h : getAction D schedule result = (.ok (some powerAction), result')) :
    result' = result := by
  rw [getAction] at h
  obtain ⟨map, t, hmap, h⟩ := Session.bind_eq_ok.mp h
  obtain ⟨-, rfl⟩ := Session.read_eq_ok.mp hmap
  obtain ⟨time, t, htime, h⟩ := Session.bind_eq_ok.mp h
  obtain ⟨-, rfl⟩ := Session.read_eq_ok.mp htime
  cases time with
  | none => cases h
  | some time =>
    obtain ⟨action, t, haction, h⟩ := Session.bind_eq_ok.mp h
    obtain ⟨-, rfl⟩ := Session.read_eq_ok.mp haction
    exact (Prod.mk.inj h).2.symm

/-- **A task that requires an action** does what `process_resources` does. -/
theorem processTask_of_requires {T : Task} (h : Requires E action T) :
    (processTask T).2.attempted = (processResources E action {}).2.attempted ∧
      (processTask T).2.result.counted = (processResources E action {}).2.result.counted := by
  obtain ⟨rfl, schedule, powerAction, result, hschedule, hexecutable, haction, rfl⟩ := h
  obtain rfl := getAction_eq_some haction
  have hrun : processSchedule T {} = processResources T.clouds (actionFunc powerAction) {} := by
    rw [processSchedule, Session.read_bind_of_ok (f := fun _ => T.schedule) hschedule,
      Session.read_bind_of_ok (f := fun _ => notExecutable T schedule) hexecutable]
    have hrequired : Session.within Progress.result (fun result s => { s with result })
        (getAction T.today schedule) {} = (.ok (some powerAction), ({} : Progress)) := by
      rw [Session.within, haction]
    exact Session.bind_of_ok hrequired
  unfold processTask
  rw [hrun]
  cases processResources T.clouds (actionFunc powerAction) {} with
  | mk outcome s => cases outcome <;> exact ⟨rfl, rfl⟩

/-- **The action reaches every active resource** exactly when nothing is raised before the last account. -/
theorem reachesAll_iff (E : Clouds) (action : AdapterAction) :
    ReachesAll E action ↔ Unbroken E action (cloudAccResources E.resources).rows := by
  rw [← covers_iff, ReachesAll]
  refine and_iff_left_of_imp fun h T hT _ => ?_
  obtain ⟨hattempted, hcounted⟩ := processTask_of_requires hT
  exact ⟨hattempted ▸ h.1, hcounted.trans h.2⟩

/-- Two accounts with a machine each; the first machine's adapter fails. -/
def twoAccounts : Clouds where
  resources := [⟨1, true, some 10⟩, ⟨2, true, some 20⟩]
  cloudAccountGet := fun _ => .ok ()
  getAdapter := fun _ => .ok ()
  cloudAction := fun _ r => if r.id = 1 then .error (.other (.python "ConnectionError")) else .ok ()
  publish := fun _ => .ok ()
  completed := id
  completed_perm := fun _ => .refl _

/-- The machine of the second account is left running. -/
theorem twoAccounts_misses : ¬ ReachesAll twoAccounts .stop_instance := by
  intro h
  have hcounted : (processResources twoAccounts .stop_instance {}).2.result.counted = 1 := by decide
  exact absurd (hcounted.symm.trans h.1.2) (by decide)

end PowerScheduleWorker
