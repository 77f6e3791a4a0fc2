import OptScale.Foundations.Table
import OptScale.Rest.Failure

/-!
# Auth/Tables — users, roles, actions and assignments

The tables of the auth service and the join every authorization query is built on: an assignment
of a live, active user, over a live, active role, with one of the role's actions.
-/

/-- The rows of `type`, which no controller writes: the levels a scope can have. -/
inductive ScopeType
  | root
  | organization
  | pool
  deriving DecidableEq, Repr

namespace ScopeType

/-- `Type.id` -/
def id : ScopeType → ℕ
  | root => 1
  | organization => 2
  | pool => 3

/-- `parent_tree` -/
def parentTree : ScopeType → List ScopeType
  | root => []
  | organization => [root]
  | pool => [organization, root]

end ScopeType

namespace Auth

/-- A row of `user`. -/
structure User where
  id : Uuid
  isActive : Bool := true
  deletedAt : ℕ := 0
  deriving DecidableEq, Repr

/-- A row of `role`. -/
structure Role where
  id : ℕ
  isActive : Bool := true
  deletedAt : ℕ := 0
  deriving DecidableEq, Repr

/-- A row of `action`. -/
structure Action where
  id : ℕ
  name : String
  deletedAt : ℕ := 0
  deriving DecidableEq, Repr

/-- A row of `role_action`. -/
structure RoleAction where
  roleId : ℕ
  actionId : ℕ
  deriving DecidableEq, Repr

/-- A row of `assignment`. -/
structure Assignment where
  id : Uuid
  type : ScopeType
  roleId : ℕ
  userId : Uuid
  resourceId : Option Uuid
  deletedAt : ℕ := 0
  deriving DecidableEq, Repr

/-- The tables of the auth service. -/
structure Db where
  users : Table User.id
  roles : Table Role.id
  actions : Table Action.id
  roleActions : List RoleAction
  assignments : Table Assignment.id
  /-- `name` is unique. -/
  actionNames : (actions.rows.map Action.name).Nodup

/-- `deleted` -/
abbrev User.Deleted (u : User) : Prop := u.deletedAt ≠ 0

/-- `deleted` -/
abbrev Role.Deleted (r : Role) : Prop := r.deletedAt ≠ 0

/-- `deleted` -/
abbrev Action.Deleted (a : Action) : Prop := a.deletedAt ≠ 0

/-- `deleted` -/
abbrev Assignment.Deleted (a : Assignment) : Prop := a.deletedAt ≠ 0

namespace Db

variable (db : Db)

/-- The user of the assignment is live and active. -/
abbrev UserActive (a : Assignment) : Prop :=
  ∃ u ∈ db.users.rows, u.id = a.userId ∧ ¬ u.Deleted ∧ u.isActive

/-- The role of the assignment is live and active. -/
abbrev RoleActive (a : Assignment) : Prop :=
  ∃ r ∈ db.roles.rows, r.id = a.roleId ∧ ¬ r.Deleted ∧ r.isActive

/-- The actions of a role, deleted ones included: `Role.actions`. -/
def roleActionsOf (roleId : ℕ) : List Action :=
  (db.roleActions.filter fun ra => ra.roleId = roleId).flatMap fun ra =>
    db.actions.rows.filter fun act => act.id = ra.actionId

/-- The join of assignments, users, roles and actions. -/
def joined : List (Assignment × Action) :=
  (db.assignments.rows.filter fun a => db.UserActive a ∧ db.RoleActive a).flatMap fun a =>
    (db.roleActionsOf a.roleId).map fun act => (a, act)

variable {db}

theorem mem_roleActionsOf {roleId : ℕ} {act : Action} :
    act ∈ db.roleActionsOf roleId ↔ act ∈ db.actions.rows ∧ ⟨roleId, act.id⟩ ∈ db.roleActions := by
  simp only [roleActionsOf, List.mem_flatMap, List.mem_filter, decide_eq_true_eq]
  constructor
  · rintro ⟨⟨_, _⟩, ⟨hra, rfl⟩, hact, rfl⟩
    exact ⟨hact, hra⟩
  · exact fun ⟨hact, hra⟩ => ⟨_, ⟨hra, rfl⟩, hact, rfl⟩

/-- **A row of the join is an assignment with an action of its role.** -/
theorem mem_joined {a : Assignment} {act : Action} :
    (a, act) ∈ db.joined ↔ a ∈ db.assignments.rows ∧ db.UserActive a ∧ db.RoleActive a ∧
      act ∈ db.roleActionsOf a.roleId := by
  simp only [joined, List.mem_flatMap, List.mem_filter, List.mem_map, decide_eq_true_eq,
    Prod.mk.injEq]
  constructor
  · rintro ⟨_, ⟨ha, hu, hr⟩, _, hact, rfl, rfl⟩
    exact ⟨ha, hu, hr, hact⟩
  · exact fun ⟨ha, hu, hr, hact⟩ => ⟨a, ⟨ha, hu, hr⟩, act, hact, rfl, rfl⟩

/-- Actions with one name are one action. -/
theorem action_eq_of_name {x y : Action} (hx : x ∈ db.actions.rows) (hy : y ∈ db.actions.rows)
    (h : x.name = y.name) : x = y :=
  List.inj_on_of_nodup_map db.actionNames hx hy h

end Db

end Auth
