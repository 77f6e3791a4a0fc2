import OptScale.Foundations.Forest
import OptScale.Rules.Decision

/-!
# Rules/Validity — `collect_relations` and `get_valid_rules`

The permissions of the employees are collected over a join that starts from the cloud accounts, and an
active rule whose owner has none on its pool or above it is deactivated.  Where the organization has a cloud
account these are the rules that lost their permission.  Where it has none the join is empty, no employee is
found, and every active rule is deactivated (`deactivatesLost_iff`).
-/

open Fallible RuleConditions OrganizationRules Forest

namespace RuleValidity

/-! ## Tables -/

/-- A row of `employee`. -/
structure EmployeeRow where
  id : Uuid
  organizationId : Uuid
  authUserId : Option Uuid
  deletedAt : ℕ := 0
  deriving DecidableEq, Repr

/-- The tables the relations are collected from. -/
structure Relations where
  cloudAccounts : Table CloudAccount.id
  employees : Table EmployeeRow.id
  pools : Table Pool.id
  /-- `uc_employee_org_auth_user`, which does not see nulls. -/
  unique : ∀ e ∈ employees.rows, ∀ e' ∈ employees.rows, e.organizationId = e'.organizationId →
    e.deletedAt = e'.deletedAt → e.authUserId ≠ none → e.authUserId = e'.authUserId → e = e'
  /-- The live pools are trees within their organizations. -/
  forest : IsForest Pool.id Pool.parentId (pools.rows.filter fun p => ¬ p.Deleted)
  organization : ∀ p ∈ pools.rows, ∀ q ∈ pools.rows, ¬ p.Deleted → ¬ q.Deleted →
    p.parentId = some q.id → p.organizationId = q.organizationId

/-- The actions that are asked for. -/
inductive Action
  | MANAGE_OWN_RESOURCES
  | MANAGE_RESOURCES
  deriving DecidableEq, Repr

/-- The auth service: its users, and the resources it lists for a user by action. -/
structure AuthService where
  known : Option Uuid → Bool
  listed : Uuid → List (Action × List (String × Uuid))

variable (R : Relations) (A : AuthService) (organizationId : Uuid)

/-! ## `collect_relations` -/

/-- A row of the query. -/
structure Joined where
  cloudAccount : CloudAccount
  employee : Option EmployeeRow
  pool : Option Pool

/-- What is joined from the outside: a null where there is nothing. -/
def outer {α : Type} (rows : List α) : List (Option α) :=
  if rows.isEmpty then [none] else rows.map some

/-- The live cloud accounts of the organization. -/
def cloudAccounts : List CloudAccount :=
  R.cloudAccounts.rows.filter fun ca => ca.organizationId = organizationId ∧ ca.deletedAt = 0

/-- The live employees of the organization. -/
def employees : List EmployeeRow :=
  R.employees.rows.filter fun e => e.organizationId = organizationId ∧ e.deletedAt = 0

/-- The live pools of the organization. -/
def pools : List Pool :=
  R.pools.rows.filter fun p => p.organizationId = organizationId ∧ ¬ p.Deleted

/-- The query: cloud accounts with the employees and pools of their organization. -/
def joined : List Joined :=
  (cloudAccounts R organizationId).flatMap fun cloudAccount =>
    (outer (employees R cloudAccount.organizationId)).flatMap fun employee =>
      (outer (pools R cloudAccount.organizationId)).map fun pool => { cloudAccount, employee, pool }

/-- The employees the query came by. -/
def joinedEmployees : List EmployeeRow := (joined R organizationId).filterMap Joined.employee

/-- `auth_id_employee_map`, read; of employees with one auth user the last counts. -/
def authIdEmployeeMap (authUserId : Option Uuid) : Option EmployeeRow :=
  (joinedEmployees R organizationId).reverse.find? fun e => e.authUserId = authUserId

/-- The values of `pools_map`. -/
def poolsMap : List Pool := ((joined R organizationId).filterMap Joined.pool).dedup

/-- `pool_children_map`, read. -/
def poolChildrenMap (poolId : Uuid) : List Uuid :=
  ((poolsMap R organizationId).filter fun p => p.parentId = some poolId).map Pool.id

/-- `_get_pools_children_ids`; there are no more levels than pools, and the given ones. -/
def getPoolsChildrenIds (poolIds : List Uuid) : List Uuid :=
  descend (poolChildrenMap R organizationId) ((poolsMap R organizationId).length + 1) poolIds

/-- `bulk_action_resources_get`: an unknown user fails the whole call. -/
def bulkActionResourcesGet (userIds : List (Option Uuid)) :
    Except Failure (List (Uuid × List (Action × List (String × Uuid)))) := do
  require (∀ u ∈ userIds, A.known u = true) (.http 404)
  pure ((userIds.filterMap id).map fun u => (u, A.listed u))

/-- `get_bulk_allowed_action_pools_map` -/
def getBulkAllowedActionPoolsMap (userIds : List (Option Uuid)) :
    Except Failure (List (Uuid × List (Action × List Uuid))) := do
  let response ← bulkActionResourcesGet A userIds
  pure (response.map fun user => (user.1, user.2.map fun resources =>
    (resources.1, (resources.2.filter fun r => r.1 = "pool").map Prod.snd)))

/-- One turn of the last loop: an employee with all pools it is allowed. -/
def allowedEntry (user : Uuid × List (Action × List Uuid)) : Except Failure (Uuid × List Uuid) := do
  let employee ← orFail (authIdEmployeeMap R organizationId (some user.1)) (.python "KeyError")
  pure (employee.id, user.2.flatMap fun actionPools => getPoolsChildrenIds R organizationId actionPools.2)

/-- `collect_relations`: the cloud accounts, and `employee_allowed_pools` as it is read. -/
def collectRelations : Except Failure (List CloudAccount × (Uuid → List Uuid)) := do
  let userActionPoolMap ← getBulkAllowedActionPoolsMap A
    ((joinedEmployees R organizationId).map EmployeeRow.authUserId).dedup
  let entries ← userActionPoolMap.mapM (allowedEntry R organizationId)
  pure (((joined R organizationId).map Joined.cloudAccount).dedup,
    fun employeeId => ((entries.reverse.find? fun e => e.1 = employeeId).map Prod.snd).getD [])

/-! ## `get_valid_rules` -/

/-- `RuleWrapper(rule)` -/
def wrap (L : Reading) (rule : StoredRule) : Except Failure (RuleDecision.RuleWrapper L) :=
  match h : convertedConditions L rule.conditions with
  | .ok converted => .ok ⟨rule, converted, h⟩
  | .error e => .error e

/-- A rule that is asked for. -/
abbrev IsActive (r : StoredRule) : Prop :=
  ¬ r.Deleted ∧ r.organizationId = organizationId ∧ r.active = true

/-- The active rules of the organization, by priority. -/
def activeRules (t : Rules) : List StoredRule :=
  (t.rows.filter fun r => IsActive organizationId r).insertionSort fun r r' => r.priority ≤ r'.priority

/-- The rules are marked. -/
def deactivate (ids : List Uuid) (t : Rules) : Rules :=
  t.updateWhere (fun r => r.id ∈ ids) (fun r => { r with active := false }) fun _ => rfl

/-- `get_valid_rules`; `publish` is the activity of a rule that is deactivated. -/
def getValidRules (L : Reading) (publish : StoredRule → Except Failure Unit)
    (employeeAllowedPools : Uuid → List Uuid) :
    Session Rules Failure (List (RuleDecision.RuleWrapper L)) := do
  let allRules ← Session.read fun t => .ok (activeRules organizationId t)
  let validRules ← Session.read fun _ =>
    (allRules.filter fun r => r.poolId ∈ employeeAllowedPools r.ownerId).mapM (wrap L)
  let invalidRules := allRules.filter fun r => r.poolId ∉ employeeAllowedPools r.ownerId
  Session.read fun _ => invalidRules.forM publish
  Session.change (deactivate (invalidRules.map StoredRule.id))
  pure validRules

/-- `get_valid_rules`, on the map `collect_relations` returns. -/
def validate (L : Reading) (publish : StoredRule → Except Failure Unit) :
    Session Rules Failure (List (RuleDecision.RuleWrapper L)) := do
  let relations ← Session.read fun _ => collectRelations R A organizationId
  getValidRules organizationId L publish relations.2

/-! ## The permission of a rule -/

/-- The user has one of the permissions on the pool. -/
def Holds (authUserId poolId : Uuid) : Prop :=
  ∃ resources ∈ A.listed authUserId, ("pool", poolId) ∈ resources.2

/-- A pool of the organization is directly below another. -/
def Child (a b : Uuid) : Prop := ∃ p ∈ pools R organizationId, p.parentId = some a ∧ p.id = b

/-- **The owner of the rule has one of the permissions** on its pool, or above it. -/
def Permitted (r : StoredRule) : Prop :=
  ∃ e ∈ employees R organizationId, e.id = r.ownerId ∧ ∃ u, e.authUserId = some u ∧
    ∃ a, Holds A u a ∧ Relation.ReflTransGen (Child R organizationId) a r.poolId

variable {R A organizationId}

/-! ## What the query comes by -/

theorem exists_mem_outer {α : Type} (rows : List α) : ∃ x, x ∈ outer rows := by
  cases rows with
  | nil => exact ⟨none, List.mem_singleton.mpr rfl⟩
  | cons a rows => exact ⟨some a, List.mem_map_of_mem List.mem_cons_self⟩

theorem some_mem_outer {α : Type} {rows : List α} {a : α} : some a ∈ outer rows ↔ a ∈ rows := by
  cases rows with
  | nil => simp [outer]
  | cons b rows => simp [outer, eq_comm]

theorem organizationId_of_mem {ca : CloudAccount} (h : ca ∈ cloudAccounts R organizationId) :
    ca.organizationId = organizationId :=
  (of_decide_eq_true (List.mem_filter.mp h).2).1

section Account

variable {ca : CloudAccount} (hca : ca ∈ cloudAccounts R organizationId)
include hca

/-- With a cloud account, every employee of the organization is joined. -/
theorem mem_joinedEmployees {e : EmployeeRow} :
    e ∈ joinedEmployees R organizationId ↔ e ∈ employees R organizationId := by
  simp only [joinedEmployees, joined, List.mem_filterMap, List.mem_flatMap, List.mem_map]
  constructor
  · rintro ⟨_, ⟨ca', hca', employee, hemployee, pool, -, rfl⟩, rfl⟩
    rw [organizationId_of_mem hca'] at hemployee
    exact some_mem_outer.mp hemployee
  · intro he
    obtain ⟨pool, hpool⟩ := exists_mem_outer (pools R ca.organizationId)
    refine ⟨⟨ca, some e, pool⟩, ⟨ca, hca, some e, ?_, pool, hpool, rfl⟩, rfl⟩
    rw [organizationId_of_mem hca]
    exact some_mem_outer.mpr he

/-- With a cloud account, every pool of the organization is joined. -/
theorem mem_poolsMap {p : Pool} : p ∈ poolsMap R organizationId ↔ p ∈ pools R organizationId := by
  simp only [poolsMap, List.mem_dedup, joined, List.mem_filterMap, List.mem_flatMap, List.mem_map]
  constructor
  · rintro ⟨_, ⟨ca', hca', employee, -, pool, hpool, rfl⟩, rfl⟩
    rw [organizationId_of_mem hca'] at hpool
    exact some_mem_outer.mp hpool
  · intro hp
    obtain ⟨employee, hemployee⟩ := exists_mem_outer (employees R ca.organizationId)
    refine ⟨⟨ca, employee, some p⟩, ⟨ca, hca, employee, hemployee, some p, ?_, rfl⟩, rfl⟩
    rw [organizationId_of_mem hca]
    exact some_mem_outer.mpr hp

theorem mem_poolChildrenMap {a b : Uuid} :
    b ∈ poolChildrenMap R organizationId a ↔ Child R organizationId a b := by
  simp only [poolChildrenMap, List.mem_map, List.mem_filter, decide_eq_true_eq, mem_poolsMap hca, Child,
    and_assoc]

/-- **The recursion finds the pools below**. -/
theorem mem_getPoolsChildrenIds {poolIds : List Uuid} {x : Uuid} :
    x ∈ getPoolsChildrenIds R organizationId poolIds ↔
      ∃ a ∈ poolIds, Relation.ReflTransGen (Child R organizationId) a x := by
  obtain ⟨rank, hrank⟩ := R.forest.ranked
  have hchild : (fun a b => b ∈ poolChildrenMap R organizationId a) = Child R organizationId := by
    funext a b
    exact propext (mem_poolChildrenMap hca)
  have hbelow : ∀ a, ∀ b ∈ poolChildrenMap R organizationId a, rank a < rank b := by
    intro a b hb
    obtain ⟨p, hp, hpar, rfl⟩ := (mem_poolChildrenMap hca).mp hb
    obtain ⟨hp, hlive⟩ := List.mem_filter.mp hp
    exact hrank p (List.mem_filter.mpr ⟨hp, decide_eq_true (of_decide_eq_true hlive).2⟩) a hpar
  have hall : ∀ a, ∀ b ∈ poolChildrenMap R organizationId a, b ∈ (poolsMap R organizationId).map Pool.id := by
    intro a b hb
    obtain ⟨p, hp, -, rfl⟩ := (mem_poolChildrenMap hca).mp hb
    exact List.mem_map_of_mem ((mem_poolsMap hca).mpr hp)
  rw [getPoolsChildrenIds, mem_descend rank hbelow _ hall, hchild]
  intro a _
  have hle := List.length_filter_le (fun b => decide (rank a < rank b))
    ((poolsMap R organizationId).map Pool.id)
  rw [List.length_map] at hle
  omega

/-- An auth user is one employee of the organization. -/
theorem authIdEmployeeMap_eq_some {u : Uuid} {e : EmployeeRow} :
    authIdEmployeeMap R organizationId (some u) = some e ↔
      e ∈ employees R organizationId ∧ e.authUserId = some u := by
  constructor
  · intro h
    have hmem := List.mem_reverse.mp (List.mem_of_find?_eq_some h)
    exact ⟨(mem_joinedEmployees hca).mp hmem, by simpa using List.find?_some h⟩
  · rintro ⟨he, hu⟩
    cases h : authIdEmployeeMap R organizationId (some u) with
    | none =>
      have hmem := List.mem_reverse.mpr ((mem_joinedEmployees hca).mpr he)
      exact absurd (decide_eq_true hu) (List.find?_eq_none.mp h e hmem)
    | some e' =>
      have hmem := List.mem_reverse.mp (List.mem_of_find?_eq_some h)
      have hu' : e'.authUserId = some u := by simpa using List.find?_some h
      obtain ⟨he, hlive⟩ := List.mem_filter.mp he
      obtain ⟨he', hlive'⟩ := List.mem_filter.mp ((mem_joinedEmployees hca).mp hmem)
      obtain ⟨horg, hdel⟩ := of_decide_eq_true hlive
      obtain ⟨horg', hdel'⟩ := of_decide_eq_true hlive'
      refine congrArg some (R.unique e' he' e he (horg'.trans horg.symm) (hdel'.trans hdel.symm) ?_
        (hu'.trans hu.symm))
      rw [hu']
      exact Option.some_ne_none u

/-! ## The map of allowed pools -/

/-- The pools a user is allowed: those below what is listed. -/
def allowedIds (R : Relations) (A : AuthService) (organizationId u : Uuid) : List Uuid :=
  ((A.listed u).map fun resources =>
    (resources.1, (resources.2.filter fun r => r.1 = "pool").map Prod.snd)).flatMap fun actionPools =>
      getPoolsChildrenIds R organizationId actionPools.2

theorem mem_allowedIds {u x : Uuid} : x ∈ allowedIds R A organizationId u ↔
    ∃ a, Holds A u a ∧ Relation.ReflTransGen (Child R organizationId) a x := by
  simp only [allowedIds, List.mem_flatMap, List.mem_map, mem_getPoolsChildrenIds hca, Holds]
  constructor
  · rintro ⟨_, ⟨resources, hresources, rfl⟩, a, ha, hpath⟩
    obtain ⟨⟨type, a'⟩, hr, rfl⟩ := List.mem_map.mp ha
    obtain ⟨hr, htype⟩ := List.mem_filter.mp hr
    obtain rfl : type = "pool" := of_decide_eq_true htype
    exact ⟨a', ⟨resources, hresources, hr⟩, hpath⟩
  · rintro ⟨a, ⟨resources, hresources, ha⟩, hpath⟩
    exact ⟨_, ⟨resources, hresources, rfl⟩, a,
      List.mem_map.mpr ⟨("pool", a), List.mem_filter.mpr ⟨ha, decide_eq_true rfl⟩, rfl⟩, hpath⟩

omit hca in
/-- An entry of the map belongs to an auth user the query came by. -/
theorem collectRelations_entries {cas : List CloudAccount} {allowed : Uuid → List Uuid}
    (h : collectRelations R A organizationId = .ok (cas, allowed)) :
    ∃ entries : List (Uuid × List Uuid),
      (∀ x, x ∈ entries ↔ ∃ u e, (∃ e' ∈ joinedEmployees R organizationId, e'.authUserId = some u) ∧
        authIdEmployeeMap R organizationId (some u) = some e ∧
          x = (e.id, allowedIds R A organizationId u)) ∧
      allowed = fun employeeId =>
        ((entries.reverse.find? fun e => e.1 = employeeId).map Prod.snd).getD [] := by
  simp only [collectRelations, getBulkAllowedActionPoolsMap, bulkActionResourcesGet, bind_eq_ok,
    pure_eq_ok, require_eq_ok] at h
  obtain ⟨_, ⟨_, ⟨_, -, rfl⟩, rfl⟩, entries, hentries, heq⟩ := h
  obtain ⟨-, rfl⟩ := Prod.mk.inj heq
  refine ⟨entries, fun x => ?_, rfl⟩
  rw [mem_of_mapM_eq_ok hentries]
  simp only [List.mem_map, List.mem_filterMap, List.mem_dedup, id, exists_eq_right]
  constructor
  · rintro ⟨_, ⟨_, ⟨u, ⟨e', he', hu⟩, rfl⟩, rfl⟩, hx⟩
    obtain ⟨e, he, hx⟩ := bind_eq_ok.mp hx
    exact ⟨u, e, ⟨e', he', hu⟩, orFail_eq_ok.mp he, (pure_eq_ok.mp hx).symm⟩
  · rintro ⟨u, e, ⟨e', he', hu⟩, he, rfl⟩
    refine ⟨_, ⟨_, ⟨u, ⟨e', he', hu⟩, rfl⟩, rfl⟩, ?_⟩
    exact bind_eq_ok.mpr ⟨e, orFail_eq_ok.mpr he, rfl⟩

omit hca in
/-- A map whose entries of one key are one is read off its entries. -/
theorem mem_lastEntry {entries : List (Uuid × List Uuid)} {k x : Uuid}
    (hone : ∀ a ∈ entries, ∀ b ∈ entries, a.1 = b.1 → a = b) :
    x ∈ ((entries.reverse.find? fun e => e.1 = k).map Prod.snd).getD [] ↔
      ∃ e ∈ entries, e.1 = k ∧ x ∈ e.2 := by
  cases h : entries.reverse.find? fun e => e.1 = k with
  | none =>
    refine iff_of_false List.not_mem_nil ?_
    rintro ⟨e, he, hk, -⟩
    exact absurd (decide_eq_true hk) (List.find?_eq_none.mp h e (List.mem_reverse.mpr he))
  | some e =>
    have he := List.mem_reverse.mp (List.mem_of_find?_eq_some h)
    have hk : e.1 = k := by simpa using List.find?_some h
    constructor
    · exact fun hx => ⟨e, he, hk, hx⟩
    · rintro ⟨e', he', hk', hx⟩
      exact hone e' he' e he (hk'.trans hk.symm) ▸ hx

/-- **With a cloud account the map is right**: it allows an employee the pools it has a permission on, or
above. -/
theorem mem_allowed {cas : List CloudAccount} {allowed : Uuid → List Uuid}
    (h : collectRelations R A organizationId = .ok (cas, allowed)) {r : StoredRule} :
    r.poolId ∈ allowed r.ownerId ↔ Permitted R A organizationId r := by
  obtain ⟨entries, hentries, rfl⟩ := collectRelations_entries h
  rw [mem_lastEntry]
  · constructor
    · rintro ⟨x, hx, hk, hpool⟩
      obtain ⟨u, e, -, he, rfl⟩ := (hentries x).mp hx
      obtain ⟨hmem, hu⟩ := (authIdEmployeeMap_eq_some hca).mp he
      exact ⟨e, hmem, hk, u, hu, (mem_allowedIds hca).mp hpool⟩
    · rintro ⟨e, hmem, hk, u, hu, hpool⟩
      have he := (authIdEmployeeMap_eq_some hca).mpr ⟨hmem, hu⟩
      exact ⟨_, (hentries _).mpr ⟨u, e, ⟨e, (mem_joinedEmployees hca).mpr hmem, hu⟩, he, rfl⟩, hk,
        (mem_allowedIds hca).mpr hpool⟩
  · intro a ha b hb hab
    obtain ⟨u, e, -, he, rfl⟩ := (hentries a).mp ha
    obtain ⟨u', e', -, he', rfl⟩ := (hentries b).mp hb
    obtain ⟨hmem, hu⟩ := (authIdEmployeeMap_eq_some hca).mp he
    obtain ⟨hmem', hu'⟩ := (authIdEmployeeMap_eq_some hca).mp he'
    obtain rfl := R.employees.eq_of_key (List.mem_of_mem_filter hmem) (List.mem_of_mem_filter hmem') hab
    obtain rfl := Option.some.inj (hu.symm.trans hu')
    rfl

end Account

/-- **Without a cloud account the map is empty.** -/
theorem collectRelations_of_no_account (h : cloudAccounts R organizationId = []) :
    collectRelations R A organizationId = .ok ([], fun _ => []) := by
  have hjoined : joined R organizationId = [] := by rw [joined, h, List.flatMap_nil]
  have hemployees : joinedEmployees R organizationId = [] := by rw [joinedEmployees, hjoined, List.filterMap_nil]
  rw [collectRelations, hemployees, hjoined]
  rfl

/-! ## What `get_valid_rules` stores -/

variable {L : Reading} {publish : StoredRule → Except Failure Unit} {t t' : Rules}
  {valid : List (RuleDecision.RuleWrapper L)} {allowed : Uuid → List Uuid}

theorem wrap_rule {r : StoredRule} {w : RuleDecision.RuleWrapper L} (h : wrap L r = .ok w) :
    w.rule = r := by
  unfold wrap at h
  split at h
  · exact (Except.ok.inj h) ▸ rfl
  · cases h

theorem exists_wrap {r : StoredRule} (h : ∃ c, convertedConditions L r.conditions = .ok c) :
    ∃ w, wrap L r = .ok w := by
  obtain ⟨c, hc⟩ := h
  unfold wrap
  split
  · exact ⟨_, rfl⟩
  · rename_i e he
    cases he.symm.trans hc

theorem map_rule_of_mapM {rules : List StoredRule} : ∀ {ws : List (RuleDecision.RuleWrapper L)},
    rules.mapM (wrap L) = .ok ws → ws.map RuleDecision.RuleWrapper.rule = rules := by
  induction rules with
  | nil =>
    intro ws h
    obtain rfl := Except.ok.inj h
    rfl
  | cons r rules ih =>
    intro ws h
    rw [List.mapM_cons] at h
    obtain ⟨w, hw, h⟩ := bind_eq_ok.mp h
    obtain ⟨rest, hrest, h⟩ := bind_eq_ok.mp h
    obtain rfl := pure_eq_ok.mp h
    rw [List.map_cons, wrap_rule hw, ih hrest]

theorem mem_activeRules {r : StoredRule} :
    r ∈ activeRules organizationId t ↔ r ∈ t.rows ∧ IsActive organizationId r := by
  rw [activeRules, List.mem_insertionSort, List.mem_filter, decide_eq_true_eq]

/-- **What a call returns and stores**: the allowed rules, and the others marked. -/
theorem getValidRules_eq_ok : getValidRules organizationId L publish allowed t = (.ok valid, t') ↔
    ((activeRules organizationId t).filter fun r => r.poolId ∈ allowed r.ownerId).mapM (wrap L) =
        .ok valid ∧
      (∀ r ∈ activeRules organizationId t, r.poolId ∉ allowed r.ownerId → publish r = .ok ()) ∧
      t' = deactivate (((activeRules organizationId t).filter fun r =>
        r.poolId ∉ allowed r.ownerId).map StoredRule.id) t := by
  simp only [getValidRules, Session.bind_eq_ok, Session.read_eq_ok, Session.pure_eq_ok]
  constructor
  · rintro ⟨_, _, ⟨hrules, rfl⟩, _, _, ⟨hvalid, rfl⟩, _, _, ⟨hpublish, rfl⟩, _, _, hchange, rfl, rfl⟩
    obtain rfl := Except.ok.inj hrules
    obtain rfl := (Prod.mk.inj hchange).2
    refine ⟨hvalid, fun r hr hnot => ?_, rfl⟩
    exact forM_eq_ok.mp hpublish r (List.mem_filter.mpr ⟨hr, decide_eq_true hnot⟩)
  · rintro ⟨hvalid, hpublish, rfl⟩
    refine ⟨_, _, ⟨rfl, rfl⟩, valid, _, ⟨hvalid, rfl⟩, (), _, ⟨forM_eq_ok.mpr fun r hr => ?_, rfl⟩, (), _, rfl,
      rfl, rfl⟩
    obtain ⟨hr, hnot⟩ := List.mem_filter.mp hr
    exact hpublish r hr (of_decide_eq_true hnot)

/-! ## Rules that lost their permission -/

variable (R A organizationId L publish t) in
/-- **Only rules that lost their permission are deactivated**, the others are returned by priority. -/
structure DeactivatesLost : Prop where
  returned : ∀ valid t', validate R A organizationId L publish t = (.ok valid, t') → ∀ r,
    r ∈ valid.map RuleDecision.RuleWrapper.rule ↔
      (r ∈ t.rows ∧ IsActive organizationId r) ∧ Permitted R A organizationId r
  ordered : ∀ valid t', validate R A organizationId L publish t = (.ok valid, t') →
    (valid.map RuleDecision.RuleWrapper.rule).Pairwise (fun r r' => r.priority ≤ r'.priority) ∧
      (valid.map RuleDecision.RuleWrapper.rule).Nodup
  stored : ∀ valid t', validate R A organizationId L publish t = (.ok valid, t') →
    ∃ lost : StoredRule → Bool, t'.rows = t.rows.map (fun r =>
        if lost r then { r with active := false } else r) ∧
      ∀ r ∈ t.rows, lost r = true ↔ IsActive organizationId r ∧ ¬ Permitted R A organizationId r
  answers : (∀ e ∈ employees R organizationId, A.known e.authUserId = true) →
    (∀ r ∈ t.rows, IsActive organizationId r → ∃ c, convertedConditions L r.conditions = .ok c) →
    (∀ r, publish r = .ok ()) →
    ∃ valid t', validate R A organizationId L publish t = (.ok valid, t')

theorem sorted_activeRules : (activeRules organizationId t).Pairwise (fun r r' => r.priority ≤ r'.priority) := by
  refine List.pairwise_insertionSort _ _

theorem nodup_activeRules : (activeRules organizationId t).Nodup := by
  have hrows : t.rows.Nodup := List.Nodup.of_map _ t.nodup
  exact ((List.perm_insertionSort _ _).nodup_iff).mpr (hrows.filter _)

theorem validate_eq_ok : validate R A organizationId L publish t = (.ok valid, t') ↔
    ∃ cas allowed, collectRelations R A organizationId = .ok (cas, allowed) ∧
      getValidRules organizationId L publish allowed t = (.ok valid, t') := by
  simp only [validate, Session.bind_eq_ok, Session.read_eq_ok]
  constructor
  · rintro ⟨⟨cas, allowed⟩, _, ⟨hrelations, rfl⟩, hrun⟩
    exact ⟨cas, allowed, hrelations, hrun⟩
  · rintro ⟨cas, allowed, hrelations, hrun⟩
    exact ⟨(cas, allowed), t, ⟨hrelations, rfl⟩, hrun⟩

/-- The relations are collected where the auth service knows the employees. -/
theorem exists_collectRelations
    (hknown : ∀ e ∈ employees R organizationId, A.known e.authUserId = true) :
    ∃ cas allowed, collectRelations R A organizationId = .ok (cas, allowed) := by
  by_cases hnone : cloudAccounts R organizationId = []
  · exact ⟨_, _, collectRelations_of_no_account hnone⟩
  obtain ⟨ca, hca⟩ := List.exists_mem_of_ne_nil _ hnone
  have hasked : ∀ u ∈ ((joinedEmployees R organizationId).map EmployeeRow.authUserId).dedup,
      A.known u = true := by
    intro u hu
    obtain ⟨e, he, rfl⟩ := List.mem_map.mp (List.mem_dedup.mp hu)
    exact hknown e ((mem_joinedEmployees hca).mp he)
  have hentries : ∀ users : List (Uuid × List (Action × List Uuid)),
      (∀ user ∈ users, some user.1 ∈ (joinedEmployees R organizationId).map EmployeeRow.authUserId) →
      ∃ entries, users.mapM (allowedEntry R organizationId) = .ok entries := by
    refine fun users husers => mapM_ok.mpr fun user huser => ?_
    obtain ⟨e, he, hauth⟩ := List.mem_map.mp (husers user huser)
    have he' := (authIdEmployeeMap_eq_some hca).mpr ⟨(mem_joinedEmployees hca).mp he, hauth⟩
    exact ⟨_, bind_eq_ok.mpr ⟨e, orFail_eq_ok.mpr he', rfl⟩⟩
  simp only [collectRelations, getBulkAllowedActionPoolsMap, bulkActionResourcesGet, require_of hasked,
    ok_bind, pure_bind, List.map_map]
  refine ⟨_, _, bind_eq_ok.mpr ⟨_, (hentries _ fun user huser => ?_).choose_spec, rfl⟩⟩
  obtain ⟨u, hu, rfl⟩ := List.mem_map.mp huser
  obtain ⟨_, hasked, rfl⟩ := List.mem_filterMap.mp hu
  exact List.mem_dedup.mp hasked

/-- **Rules are deactivated rightly** where the map allows an active rule exactly its permission. -/
theorem deactivatesLost_of_allowed
    (h : ∀ cas allowed, collectRelations R A organizationId = .ok (cas, allowed) →
      ∀ r ∈ activeRules organizationId t,
        r.poolId ∈ allowed r.ownerId ↔ Permitted R A organizationId r) :
    DeactivatesLost R A organizationId L publish t where
  returned := by
    intro valid t' hrun r
    obtain ⟨cas, allowed, hrelations, hrun⟩ := validate_eq_ok.mp hrun
    obtain ⟨hvalid, -, -⟩ := getValidRules_eq_ok.mp hrun
    rw [map_rule_of_mapM hvalid, List.mem_filter, decide_eq_true_eq, ← mem_activeRules]
    exact and_congr_right fun hr => h cas allowed hrelations r hr
  ordered := by
    intro valid t' hrun
    obtain ⟨cas, allowed, -, hrun⟩ := validate_eq_ok.mp hrun
    obtain ⟨hvalid, -, -⟩ := getValidRules_eq_ok.mp hrun
    rw [map_rule_of_mapM hvalid]
    exact ⟨sorted_activeRules.filter _, nodup_activeRules.filter _⟩
  stored := by
    intro valid t' hrun
    obtain ⟨cas, allowed, hrelations, hrun⟩ := validate_eq_ok.mp hrun
    obtain ⟨-, -, rfl⟩ := getValidRules_eq_ok.mp hrun
    refine ⟨fun r => r.id ∈ ((activeRules organizationId t).filter fun r =>
      r.poolId ∉ allowed r.ownerId).map StoredRule.id, rfl, fun r hr => ?_⟩
    rw [decide_eq_true_eq, List.mem_map]
    constructor
    · rintro ⟨r', hr', hid⟩
      obtain ⟨hr', hnot⟩ := List.mem_filter.mp hr'
      obtain rfl := t.eq_of_key (mem_activeRules.mp hr').1 hr hid
      exact ⟨(mem_activeRules.mp hr').2, fun hp =>
        of_decide_eq_true hnot ((h cas allowed hrelations r' hr').mpr hp)⟩
    · rintro ⟨hactive, hlost⟩
      have hr' := mem_activeRules.mpr ⟨hr, hactive⟩
      exact ⟨r, List.mem_filter.mpr ⟨hr', decide_eq_true fun hallowed =>
        hlost ((h cas allowed hrelations r hr').mp hallowed)⟩, rfl⟩
  answers := by
    intro hknown hbuilt hpublish
    obtain ⟨cas, allowed, hrelations⟩ := exists_collectRelations hknown
    obtain ⟨valid, hvalid⟩ := (mapM_ok (f := wrap L)
      (l := (activeRules organizationId t).filter fun r => r.poolId ∈ allowed r.ownerId)).mpr
        fun r hr => by
          obtain ⟨hr, hactive⟩ := mem_activeRules.mp (List.mem_of_mem_filter hr)
          exact exists_wrap (hbuilt r hr hactive)
    exact ⟨valid, _, validate_eq_ok.mpr ⟨cas, allowed, hrelations,
      getValidRules_eq_ok.mpr ⟨hvalid, fun r _ _ => hpublish r, rfl⟩⟩⟩

/-- **Only rules that lost their permission are deactivated** exactly when the organization has a cloud
account, or no active rule of it has its permission, or an activity cannot be published. -/
theorem deactivatesLost_iff (R : Relations) (A : AuthService) (organizationId : Uuid) (L : Reading)
    (publish : StoredRule → Except Failure Unit) (t : Rules) :
    DeactivatesLost R A organizationId L publish t ↔ cloudAccounts R organizationId ≠ [] ∨
      (∀ r ∈ t.rows, IsActive organizationId r → ¬ Permitted R A organizationId r) ∨
      ∃ r ∈ t.rows, IsActive organizationId r ∧ publish r ≠ .ok () := by
  by_cases hnone : cloudAccounts R organizationId = []
  swap
  · obtain ⟨ca, hca⟩ := List.exists_mem_of_ne_nil _ hnone
    refine iff_of_true (deactivatesLost_of_allowed fun cas allowed h r _ => mem_allowed hca h) (Or.inl hnone)
  have hrelations := collectRelations_of_no_account (A := A) hnone
  rw [or_iff_right (not_not.mpr hnone)]
  constructor
  · intro hlost
    by_contra hnot
    simp only [not_or, not_forall, not_exists, not_not, not_and] at hnot
    obtain ⟨⟨r, hr, hactive, hpermitted⟩, hpublish⟩ := hnot
    -- no rule is allowed, so that all are published and marked, and none is returned
    have hnil : (activeRules organizationId t).filter (fun r => r.poolId ∈ ([] : List Uuid)) = [] :=
      List.filter_eq_nil_iff.mpr fun _ _ h => List.not_mem_nil (of_decide_eq_true h)
    have hcall : getValidRules organizationId L publish (fun _ => []) t = (.ok [], _) :=
      getValidRules_eq_ok.mpr ⟨by rw [hnil]; rfl, fun r hr _ =>
        hpublish r (mem_activeRules.mp hr).1 (mem_activeRules.mp hr).2, rfl⟩
    have hrun := validate_eq_ok.mpr ⟨_, _, hrelations, hcall⟩
    exact absurd ((hlost.returned [] _ hrun r).mpr ⟨⟨hr, hactive⟩, hpermitted⟩) List.not_mem_nil
  · rintro (hlost | ⟨r, hr, hactive, hrefused⟩)
    · refine deactivatesLost_of_allowed fun cas allowed h r hr => ?_
      obtain ⟨-, rfl⟩ := Prod.mk.inj (Except.ok.inj (hrelations.symm.trans h))
      obtain ⟨hr, hactive⟩ := mem_activeRules.mp hr
      exact iff_of_false List.not_mem_nil (hlost r hr hactive)
    · -- the call does not go through
      have hraises : ∀ valid t', validate R A organizationId L publish t ≠ (.ok valid, t') := by
        intro valid t' hrun
        obtain ⟨cas, allowed, h, hrun⟩ := validate_eq_ok.mp hrun
        obtain ⟨-, rfl⟩ := Prod.mk.inj (Except.ok.inj (hrelations.symm.trans h))
        obtain ⟨-, hpublish, -⟩ := getValidRules_eq_ok.mp hrun
        exact hrefused (hpublish r (mem_activeRules.mpr ⟨hr, hactive⟩) List.not_mem_nil)
      exact
        { returned := fun valid t' hrun => absurd hrun (hraises valid t')
          ordered := fun valid t' hrun => absurd hrun (hraises valid t')
          stored := fun valid t' hrun => absurd hrun (hraises valid t')
          answers := fun _ _ hpublish => absurd (hpublish r) hrefused }

/-! ### An organization without a cloud account -/

/-- An organization with an employee and its root pool. -/
def noAccount : Relations where
  cloudAccounts := .empty
  employees := ⟨[⟨9, 2, some 90, 0⟩], by decide⟩
  pools := ⟨[{ id := 1, organizationId := 2 }], by decide⟩
  unique := by decide
  forest := ⟨by decide, by decide, ⟨id, by decide⟩⟩
  organization := by decide

/-- The employee may manage the resources of the pool. -/
def manager : AuthService where
  known u := u = some 90
  listed _ := [(.MANAGE_RESOURCES, [("pool", 1)])]

/-- A rule of the employee on the pool. -/
def managedRule : StoredRule :=
  { id := 7
    name := ['r']
    priority := 1
    creatorId := 9
    organizationId := 2
    poolId := 1
    ownerId := 9
    conditions := [⟨8, .REGION_IS, some ['w'], 0⟩] }

/-- **A rule with its permission is deactivated.** -/
theorem managedRule_deactivated : ¬ DeactivatesLost noAccount manager 2 plainReading (fun _ => .ok ())
    ⟨[managedRule], by decide⟩ := by
  intro hlost
  have hrun : validate noAccount manager 2 plainReading (fun _ => .ok ()) ⟨[managedRule], by decide⟩ =
      (.ok [], ⟨[{ managedRule with active := false }], by decide⟩) := rfl
  have hpermitted : Permitted noAccount manager 2 managedRule :=
    ⟨⟨9, 2, some 90, 0⟩, by decide, rfl, 90, rfl, 1,
      ⟨(.MANAGE_RESOURCES, [("pool", 1)]), by decide, by decide⟩, .refl⟩
  have hreturned := (hlost.returned _ _ hrun managedRule).mpr
    ⟨⟨List.mem_singleton.mpr rfl, by decide⟩, hpermitted⟩
  exact List.not_mem_nil hreturned

end RuleValidity
