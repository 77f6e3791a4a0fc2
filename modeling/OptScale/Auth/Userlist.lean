import OptScale.Auth.Tables
import OptScale.Foundations.Fallible

/-!
# Auth/Userlist — one user at a time, and many at once

`check_permissions` authorizes one user, `auth_user_list` many users at once.  Both go over the
join of `Auth/Tables`; they part in two places.  The single query does not ask whether the action
is deleted, and the batch drops the restrictions of the context.  So they agree about a user exactly
when the two omissions do not show (`listed_iff_permitted_iff`).
-/

open Fallible

/-! ## Contexts -/

/-- An element of a context's list: an id, or an id with the actions still allowed there. -/
inductive ContextValue
  | plain (id : Uuid)
  | restricted (id : Uuid) (allowedActions : List String)
  deriving DecidableEq, Repr

namespace ContextValue

/-- The id the element is about. -/
def id : ContextValue → Uuid
  | plain id => id
  | restricted id _ => id

/-- The restriction the element carries. -/
def restriction? : ContextValue → Option (Uuid × List String)
  | plain _ => none
  | restricted id allowedActions => some (id, allowedActions)

end ContextValue

/-- What `context` answers: the ids of each level. -/
abbrev Context := List (ScopeType × List ContextValue)

namespace ContextController

/-- The organization or the pool an item comes down to. -/
inductive Item
  | organization (id : Uuid)
  /-- A pool, with its ancestors as the recursive query finds them. -/
  | pool (organizationId : Uuid) (ancestors : List Uuid) (id : Uuid)
  deriving DecidableEq, Repr

namespace Item

def id : Item → Uuid
  | organization id => id
  | pool _ _ id => id

def organizationId : Item → Uuid
  | organization id => id
  | pool o _ _ => o

/-- `result_map` -/
def resultMap : Item → List (ScopeType × List Uuid)
  | organization id => [(.organization, [id])]
  | pool o ancestors id => [(.organization, [o]), (.pool, ancestors ++ [id])]

end Item

/-- `restrict_allowed_actions`: a disabled organization keeps one action. -/
def restrictAllowedActions (disabled : Uuid → Bool) (result : List (ScopeType × List Uuid)) :
    Context :=
  result.map fun entry => (entry.1, entry.2.map fun id =>
    if entry.1 = .organization ∧ disabled id then .restricted id ["INFO_ORGANIZATION"]
    else .plain id)

/-- `context` -/
def context (disabled : Uuid → Bool) (item : Item) : Context :=
  restrictAllowedActions disabled item.resultMap

end ContextController

open ContextController

/-- `get_context_values`: the ids, and the ids that are restricted. -/
def getContextValues (context : Context) : List Uuid × List (Uuid × List String) :=
  let values := context.flatMap Prod.snd
  (values.map ContextValue.id, values.filterMap ContextValue.restriction?)

namespace Auth

/-- `context_level` -/
def contextLevel (n : ℕ) : Except Failure ScopeType :=
  orFail [ScopeType.root, .organization, .pool][n]? (.python "KeyError")

/-- What a request is about. -/
structure Request where
  /-- Nothing when the request names no scope. -/
  item : Option Item
  /-- The request names the organization or the pool itself, and not something in it. -/
  own : Bool

namespace Request

/-- `get_context` -/
def getContext (disabled : Uuid → Bool) (request : Request) : Context :=
  match request.item with
  | none => []
  | some item => context disabled item

/-- `scope_id`, dropped where the type asked for is not in the context. -/
def scopeId (request : Request) : Option Uuid :=
  if request.own then request.item.map Item.id else none

end Request

namespace TokenStore

variable (db : Db)

/-! ## One user -/

/-- The first failure of `check_permissions` and all its others. -/
def forbidden : Failure := .forbidden .OA0012 []

/-- `check_restrictions` -/
def checkRestrictions (actionName : String) (assignments : List Assignment)
    (restrictionsMap : List (Uuid × List String)) : Except Failure Unit :=
  restrictionsMap.forM fun restriction => do
    -- the map keeps the last assignment of a resource
    let assignment ← orFail
      (assignments.reverse.find? fun a => a.resourceId = some restriction.1) forbidden
    let actions := (db.roleActionsOf assignment.roleId).map Action.name
    require (actionName ∈ actions ∧ actionName ∈ restriction.2) forbidden

/-- `check_permissions` -/
def checkPermissions (user : Option User) (actionName : String) (context : Context)
    (assType : ScopeType) (scopeId : Option Uuid) : Except Failure (List Assignment) := do
  let user ← orFail user forbidden
  let (contextValues, restrictions) := getContextValues context
  require (∀ s ∈ scopeId, s ∈ contextValues) forbidden
  let assignments := (db.joined.filter fun row =>
    row.1.userId = user.id ∧ row.1.type ∈ assType :: assType.parentTree ∧ ¬ row.1.Deleted ∧
      row.2.name = actionName ∧
      (row.1.resourceId = none ∨ context ≠ [] ∧ ∃ s ∈ contextValues, row.1.resourceId = some s)
    ).map Prod.fst
  require (assignments ≠ []) forbidden
  checkRestrictions db actionName assignments restrictions
  pure assignments

/-! ## Many users -/

/-- `auth_user_list`, not in its order. -/
def authUserList (userIdList : List Uuid) (actionList : List String)
    (allowedLvls : List ScopeType) (context : List Uuid) : List (Uuid × String) :=
  (db.joined.filter fun row =>
    row.2.name ∈ actionList ∧ ¬ row.2.Deleted ∧ ¬ row.1.Deleted ∧ row.1.type ∈ allowedLvls ∧
      row.1.userId ∈ userIdList ∧
      ((∃ s ∈ context, row.1.resourceId = some s) ∨ row.1.resourceId = none)
    ).map fun row => (row.1.userId, row.2.name)

end TokenStore

/-- `authorize_userlist`: each user's actions. -/
def authorizeUserlist (db : Db) (users : List Uuid) (actions : List String) (context : Context) :
    Except Failure (List (Uuid × List String)) := do
  let (contextValues, _) := getContextValues context
  let actualType ← contextLevel context.length
  let authUserlist :=
    TokenStore.authUserList db users actions (actualType.parentTree ++ [actualType]) contextValues
  pure (users.dedup.map fun u => (u, ((authUserlist.filter (·.1 = u)).map Prod.snd).dedup))

/-- `check_permissions` of the controller, for a user whose row is at hand. -/
def checkPermissions (db : Db) (disabled : Uuid → Bool) (request : Request) (user : Option User)
    (action : String) : Except Failure (List Assignment) := do
  let context := request.getContext disabled
  let scopeType ← contextLevel context.length
  TokenStore.checkPermissions db user action context scopeType request.scopeId

/-! ## Where the two agree -/

section Agreement

variable (db : Db) (disabled : Uuid → Bool) (request : Request) (u : Uuid) (A : String)

/-- The batch call lists the action for the user. -/
def Listed (users : List Uuid) (actions : List String) : Prop :=
  ∃ result, authorizeUserlist db users actions (request.getContext disabled) = .ok result ∧
    ∃ as, (u, as) ∈ result ∧ A ∈ as

/-- The single call lets the user do the action. -/
def Permitted : Prop :=
  ∃ assignments, checkPermissions db disabled request (db.users.get? u) A = .ok assignments

/-- The level of the scope. -/
def Request.level : ScopeType :=
  match request.item with
  | none => .root
  | some (.organization _) => .organization
  | some (.pool ..) => .pool

/-- The ids an assignment may be on. -/
def Request.ids : List Uuid :=
  match request.item with
  | none => []
  | some (.organization id) => [id]
  | some (.pool o ancestors id) => o :: (ancestors ++ [id])

/-- An active assignment of the user at the scope or above it, with the action among its role's. -/
def Assigned (a : Assignment) : Prop :=
  a ∈ db.assignments.rows ∧ a.userId = u ∧ ¬ a.Deleted ∧ db.UserActive a ∧ db.RoleActive a ∧
    a.type ∈ request.level :: request.level.parentTree ∧
    (a.resourceId = none ∨ ∃ s ∈ request.ids, a.resourceId = some s) ∧
    ∃ act ∈ db.roleActionsOf a.roleId, act.name = A

/-- The organization of the scope is not disabled, or the action is the one it keeps and the user
is assigned it on the organization itself. -/
def Unrestricted : Prop :=
  ∀ item ∈ request.item, disabled item.organizationId →
    A = "INFO_ORGANIZATION" ∧
      ∃ a, Assigned db request u A a ∧ a.resourceId = some item.organizationId

/-- **When the two calls agree about a user and an action**: the user is not assigned the action, or
the action is not deleted exactly when no restriction stands against it. -/
def CallsAgree : Prop :=
  (∃ a, Assigned db request u A a) →
    ((∃ act ∈ db.actions.rows, act.name = A ∧ ¬ act.Deleted) ↔
      Unrestricted db disabled request u A)

end Agreement

/-! ## What a context holds -/

section Context

variable {disabled : Uuid → Bool} {request : Request}

theorem getContextValues_ids :
    (getContextValues (request.getContext disabled)).1 = request.ids := by
  have hplain : ContextValue.id ∘ ContextValue.plain = fun x => x := rfl
  obtain ⟨_ | ⟨id⟩ | ⟨o, ancestors, id⟩, own⟩ := request
  · rfl
  · cases h : disabled id <;>
      simp [getContextValues, Request.getContext, Request.ids, context, restrictAllowedActions,
        Item.resultMap, ContextValue.id, h]
  · cases h : disabled o <;>
      simp [getContextValues, Request.getContext, Request.ids, context, restrictAllowedActions,
        Item.resultMap, ContextValue.id, hplain, h]

/-- **Only a disabled organization is restricted.** -/
theorem mem_restrictions {restriction : Uuid × List String} :
    restriction ∈ (getContextValues (request.getContext disabled)).2 ↔
      ∃ item ∈ request.item, disabled item.organizationId ∧
        restriction = (item.organizationId, ["INFO_ORGANIZATION"]) := by
  obtain ⟨_ | ⟨id⟩ | ⟨o, ancestors, id⟩, own⟩ := request
  · simp [getContextValues, Request.getContext]
  · cases h : disabled id <;>
      simp [getContextValues, Request.getContext, context, restrictAllowedActions, Item.resultMap,
        Item.organizationId, ContextValue.restriction?, h]
  · cases h : disabled o <;>
      simp [getContextValues, Request.getContext, context, restrictAllowedActions, Item.resultMap,
        Item.organizationId, ContextValue.restriction?, h]

theorem contextLevel_getContext :
    contextLevel (request.getContext disabled).length = .ok request.level := by
  obtain ⟨_ | ⟨id⟩ | ⟨o, ancestors, id⟩, own⟩ := request <;> rfl

theorem ids_nil_of_context_nil (h : request.getContext disabled = []) : request.ids = [] := by
  have hids : (getContextValues (request.getContext disabled)).1 = request.ids :=
    getContextValues_ids
  rw [← hids, h]
  rfl

/-- The scope asked for is in its own context. -/
theorem scopeId_mem : ∀ s ∈ request.scopeId, s ∈ request.ids := by
  obtain ⟨_ | ⟨id⟩ | ⟨o, ancestors, id⟩, _ | _⟩ := request <;>
    simp [Request.scopeId, Request.ids, Item.id]

end Context

/-! ## The two calls -/

section Agreement

variable {db : Db} {disabled : Uuid → Bool} {request : Request} {u : Uuid} {A : String}

/-- An assignment at the scope or above it, as a row of the join. -/
theorem assigned_iff {a : Assignment} :
    Assigned db request u A a ↔ a.userId = u ∧ ¬ a.Deleted ∧
      a.type ∈ request.level :: request.level.parentTree ∧
      (a.resourceId = none ∨ ∃ s ∈ request.ids, a.resourceId = some s) ∧
      ∃ act, (a, act) ∈ db.joined ∧ act.name = A := by
  simp only [Assigned, Db.mem_joined]
  constructor
  · rintro ⟨ha, hu, hdel, huser, hrole, htype, hres, act, hact, hname⟩
    exact ⟨hu, hdel, htype, hres, act, ⟨ha, huser, hrole, hact⟩, hname⟩
  · rintro ⟨hu, hdel, htype, hres, act, ⟨ha, huser, hrole, hact⟩, hname⟩
    exact ⟨ha, hu, hdel, huser, hrole, htype, hres, act, hact, hname⟩

/-- **The batch lists an action that is assigned and not deleted.** -/
theorem listed_iff {users : List Uuid} {actions : List String} (hu : u ∈ users)
    (hA : A ∈ actions) :
    Listed db disabled request u A users actions ↔
      (∃ a, Assigned db request u A a) ∧ ∃ act ∈ db.actions.rows, act.name = A ∧ ¬ act.Deleted := by
  have hrow : Listed db disabled request u A users actions ↔
      (u, A) ∈ TokenStore.authUserList db users actions
        (request.level.parentTree ++ [request.level]) request.ids := by
    simp only [Listed, authorizeUserlist, contextLevel_getContext, getContextValues_ids, ok_bind,
      pure_eq_ok, exists_eq_left', List.mem_map, List.mem_dedup, Prod.mk.injEq]
    constructor
    · rintro ⟨as, ⟨v, -, rfl, rfl⟩, has⟩
      obtain ⟨⟨w, B⟩, hfilter, rfl⟩ := List.mem_map.mp (List.mem_dedup.mp has)
      obtain ⟨hrow, hw⟩ := List.mem_filter.mp hfilter
      obtain rfl : w = v := of_decide_eq_true hw
      exact hrow
    · exact fun hrow => ⟨_, ⟨u, hu, rfl, rfl⟩, List.mem_dedup.mpr (List.mem_map.mpr
        ⟨(u, A), List.mem_filter.mpr ⟨hrow, decide_eq_true rfl⟩, rfl⟩)⟩
  rw [hrow]
  simp only [TokenStore.authUserList, List.mem_map, List.mem_filter, decide_eq_true_eq, Prod.exists,
    Prod.mk.injEq, assigned_iff, List.mem_append, List.mem_singleton]
  constructor
  · rintro ⟨a, act, ⟨hjoin, -, hlive, hdel, hlvl, -, hres⟩, rfl, rfl⟩
    exact ⟨⟨a, rfl, hdel, List.mem_cons.mpr hlvl.symm, hres.symm, act, hjoin, rfl⟩, act,
      (Db.mem_roleActionsOf.mp (Db.mem_joined.mp hjoin).2.2.2).1, rfl, hlive⟩
  · rintro ⟨⟨a, rfl, hdel, hlvl, hres, act, hjoin, rfl⟩, act', hact', hname, hlive⟩
    -- names are unique, so the live action is the one the role has
    obtain rfl : act' = act := Db.action_eq_of_name hact'
      (Db.mem_roleActionsOf.mp (Db.mem_joined.mp hjoin).2.2.2).1 hname
    exact ⟨a, act', ⟨hjoin, hA, hlive, hdel, (List.mem_cons.mp hlvl).symm, hu, hres.symm⟩, rfl, rfl⟩

/-- The restrictions let an action through that is allowed on each restricted id, for a user who is
assigned on it. -/
theorem checkRestrictions_eq_ok {assignments : List Assignment}
    {restrictionsMap : List (Uuid × List String)}
    (hall : ∀ a ∈ assignments, ∃ act ∈ db.roleActionsOf a.roleId, act.name = A) :
    TokenStore.checkRestrictions db A assignments restrictionsMap = .ok () ↔
      ∀ r ∈ restrictionsMap, A ∈ r.2 ∧ ∃ a ∈ assignments, a.resourceId = some r.1 := by
  unfold TokenStore.checkRestrictions
  rw [forM_eq_ok]
  refine forall₂_congr fun r _ => ?_
  simp only [bind_eq_ok, orFail_eq_ok, require_eq_ok]
  constructor
  · rintro ⟨a, ha, -, hA⟩
    have hres := List.find?_some ha
    exact ⟨hA, a, List.mem_reverse.mp (List.mem_of_find?_eq_some ha), by simpa using hres⟩
  · rintro ⟨hA, a, ha, hres⟩
    cases hfind : assignments.reverse.find? fun a => a.resourceId = some r.1 with
    | none => simp_all
    | some b =>
      obtain ⟨act, hact, hname⟩ := hall b (List.mem_reverse.mp (List.mem_of_find?_eq_some hfind))
      exact ⟨b, rfl, List.mem_map.mpr ⟨act, hact, hname⟩, hA⟩

/-- **The single call permits an action that is assigned and not restricted.** -/
theorem permitted_iff :
    Permitted db disabled request u A ↔
      (∃ a, Assigned db request u A a) ∧ Unrestricted db disabled request u A := by
  -- the assignments the query finds are those of `Assigned`
  have hquery : ∀ (v : User) (a : Assignment), v.id = u →
      (a ∈ (db.joined.filter fun row => row.1.userId = v.id ∧
        row.1.type ∈ request.level :: request.level.parentTree ∧ ¬ row.1.Deleted ∧
        row.2.name = A ∧ (row.1.resourceId = none ∨ request.getContext disabled ≠ [] ∧
          ∃ s ∈ request.ids, row.1.resourceId = some s)).map Prod.fst ↔
        Assigned db request u A a) := by
    rintro v a rfl
    simp only [List.mem_map, List.mem_filter, decide_eq_true_eq, Prod.exists, exists_and_right,
      exists_eq_right, assigned_iff]
    constructor
    · rintro ⟨act, hjoin, hu, htype, hdel, hname, hres⟩
      exact ⟨hu, hdel, htype, hres.imp_right And.right, act, hjoin, hname⟩
    · rintro ⟨hu, hdel, htype, hres, act, hjoin, hname⟩
      refine ⟨act, hjoin, hu, htype, hdel, hname, hres.imp_right fun hs => ⟨fun hnil => ?_, hs⟩⟩
      obtain ⟨s, hs, -⟩ := hs
      exact List.not_mem_nil (ids_nil_of_context_nil hnil ▸ hs)
  cases huser : db.users.get? u with
  | none =>
    refine iff_of_false ?_ ?_
    · rintro ⟨_, h⟩
      rw [huser] at h
      simp only [checkPermissions, contextLevel_getContext, ok_bind, TokenStore.checkPermissions,
        orFail_none, error_bind, reduceCtorEq] at h
    · rintro ⟨⟨a, -, rfl, -, ⟨v, hv, hid, -⟩, -⟩, -⟩
      exact nomatch huser.symm.trans (Table.get?_eq_some.mpr ⟨hv, hid⟩)
  | some v =>
    have hid := (Table.get?_eq_some.mp huser).2
    unfold Permitted Unrestricted
    simp only [huser, checkPermissions, contextLevel_getContext, ok_bind,
      TokenStore.checkPermissions, orFail_some, getContextValues_ids, bind_eq_ok, require_eq_ok]
    constructor
    · rintro ⟨assignments, _, -, _, hne, _, hrestr, -⟩
      obtain ⟨a, ha⟩ := List.exists_mem_of_ne_nil _ hne
      refine ⟨⟨a, (hquery v a hid).mp ha⟩, fun item hitem hdisabled => ?_⟩
      have hall := (checkRestrictions_eq_ok fun b hb =>
        ((hquery v b hid).mp hb).2.2.2.2.2.2.2).mp hrestr
      obtain ⟨hA, b, hb, hres⟩ := hall _ (mem_restrictions.mpr ⟨item, hitem, hdisabled, rfl⟩)
      exact ⟨List.mem_singleton.mp hA, b, (hquery v b hid).mp hb, hres⟩
    · rintro ⟨⟨a, ha⟩, hunrestr⟩
      refine ⟨_, (), scopeId_mem, (), List.ne_nil_of_mem ((hquery v a hid).mpr ha), (), ?_, rfl⟩
      refine (checkRestrictions_eq_ok fun b hb =>
        ((hquery v b hid).mp hb).2.2.2.2.2.2.2).mpr fun r hr => ?_
      obtain ⟨item, hitem, hdisabled, rfl⟩ := mem_restrictions.mp hr
      obtain ⟨hA, b, hb, hres⟩ := hunrestr item hitem hdisabled
      exact ⟨List.mem_singleton.mpr hA, b, (hquery v b hid).mpr hb, hres⟩

/-- **The two calls agree about a user and an action exactly when no deleted action and no disabled
organization is in the way.** -/
theorem listed_iff_permitted_iff (db : Db) (disabled : Uuid → Bool) (request : Request)
    {users : List Uuid} {actions : List String} {u : Uuid} {A : String} (hu : u ∈ users)
    (hA : A ∈ actions) :
    (Listed db disabled request u A users actions ↔ Permitted db disabled request u A) ↔
      CallsAgree db disabled request u A := by
  rw [listed_iff hu hA, permitted_iff]
  exact and_congr_right_iff

end Agreement

/-! ### A user of one organization -/

/-- User `1` may book environments in organization `10`. -/
def booker : Db where
  users := ⟨[{ id := 1 }], List.nodup_singleton _⟩
  roles := ⟨[{ id := 1 }], by decide⟩
  actions := ⟨[⟨1, "BOOK_ENVIRONMENTS", 0⟩], by decide⟩
  roleActions := [⟨1, 1⟩]
  assignments := ⟨[⟨1, .organization, 1, 1, some 10, 0⟩], by decide⟩
  actionNames := by decide

/-- Organization `10` itself. -/
def bookedOrganization : Request := ⟨some (.organization 10), true⟩

/-- **In a disabled organization the batch lists what the single call forbids.** -/
theorem disabled_organization_listed :
    ¬ ∀ (db : Db) (disabled : Uuid → Bool) (request : Request) (users : List Uuid)
        (actions : List String), ∀ u ∈ users, ∀ A ∈ actions,
        (Listed db disabled request u A users actions ↔ Permitted db disabled request u A) := by
  intro h
  have hlisted : Listed booker (fun _ => true) bookedOrganization 1 "BOOK_ENVIRONMENTS" [1]
      ["BOOK_ENVIRONMENTS"] :=
    ⟨[(1, ["BOOK_ENVIRONMENTS"])], rfl, _, List.mem_singleton_self _, List.mem_singleton_self _⟩
  obtain ⟨assignments, hok⟩ := (h _ _ _ [1] ["BOOK_ENVIRONMENTS"] 1 (by simp) _ (by simp)).mp hlisted
  have hforbidden : checkPermissions booker (fun _ => true) bookedOrganization
      (booker.users.get? 1) "BOOK_ENVIRONMENTS" = .error TokenStore.forbidden := rfl
  exact nomatch hforbidden.symm.trans hok

/-- In an organization that is not disabled the two agree. -/
theorem listed_iff_permitted_iff_enabled :
    Listed booker (fun _ => false) bookedOrganization 1 "BOOK_ENVIRONMENTS" [1]
        ["BOOK_ENVIRONMENTS"] ↔
      Permitted booker (fun _ => false) bookedOrganization 1 "BOOK_ENVIRONMENTS" := by
  refine (listed_iff_permitted_iff booker (fun _ => false) bookedOrganization
    (List.mem_singleton_self _) (List.mem_singleton_self _)).mpr fun _ => iff_of_true ?_ ?_
  · exact ⟨⟨1, "BOOK_ENVIRONMENTS", 0⟩, by decide, rfl, by decide⟩
  · exact fun _ _ h => absurd h Bool.false_ne_true

end Auth
