import OptScale.Employees.Deletion

/-!
# Employees/Redirected — nothing is left to a deleted employee

A deletion that is refused while it looks around leaves everything as it is.  One that goes through
passes on what the employee had: pools, rules, resources, bookings, layouts, and the part in every
request whose other part is not the employee's or the new owner's.  The limits of the organization that ask
for the employee are not passed on but deleted with their hits.
-/

open Fallible
open RuleValidity (EmployeeRow)

namespace EmployeeController

variable {E : Surroundings} {s s' : State} {employee : EmployeeRow} {o : Uuid}

/-! ## The new owner is somebody else -/

theorem get_eq_some {id : Uuid} (h : get s id = some employee) :
    employee ∈ s.employees.rows ∧ employee.id = id ∧ employee.deletedAt = 0 := by
  have hfound : employee.id = id ∧ employee.deletedAt = 0 := by
    simpa using List.find?_some h
  exact ⟨List.mem_of_find?_eq_some h, hfound⟩

theorem getEmployeeByUserAndOrganization_eq_ok {userId organizationId : Uuid}
    (h : getEmployeeByUserAndOrganization s userId organizationId = .ok employee) :
    employee ∈ s.employees.rows ∧ employee.authUserId = some userId := by
  obtain ⟨_, -, h⟩ := bind_eq_ok.mp h
  have hmem := List.mem_of_mem_head? (orFail_eq_ok.mp h)
  obtain ⟨hmem, hfound⟩ := List.mem_filter.mp hmem
  exact ⟨hmem, (of_decide_eq_true hfound).2.1⟩

/-- An employee of another user is another employee. -/
theorem id_ne_of_user_ne {owner : EmployeeRow} {userId organizationId : Uuid}
    (hemployee : employee ∈ s.employees.rows)
    (howner : getEmployeeByUserAndOrganization s userId organizationId = .ok owner)
    (hne : some userId ≠ employee.authUserId) : owner.id ≠ employee.id := by
  intro hid
  obtain ⟨hmem, hauth⟩ := getEmployeeByUserAndOrganization_eq_ok howner
  obtain rfl := s.employees.eq_of_key hmem hemployee hid
  exact hne hauth.symm

theorem managingOwner_ne (hemployee : employee ∈ s.employees.rows)
    (h : managingOwner E s employee = .ok o) : o ≠ employee.id := by
  obtain ⟨found, hfound, h⟩ := bind_eq_ok.mp h
  obtain ⟨user, huser, h⟩ := bind_eq_ok.mp h
  obtain ⟨owner, howner, h⟩ := bind_eq_ok.mp h
  obtain rfl := pure_eq_ok.mp h
  obtain rfl := orFail_eq_ok.mp huser
  obtain ⟨managers, -, hfound⟩ := bind_eq_ok.mp hfound
  have hother := List.find?_some (pure_eq_ok.mp hfound)
  exact id_ne_of_user_ne hemployee howner (of_decide_eq_true hother).1

/-- **The new owner is never the employee** who is deleted. -/
theorem newOwner_ne {newOwnerId userId : Option Uuid} (hemployee : employee ∈ s.employees.rows)
    (h : newOwner E s employee newOwnerId userId = .ok o) : o ≠ employee.id := by
  unfold newOwner at h
  split at h
  · obtain ⟨owner, -, h⟩ := bind_eq_ok.mp h
    obtain ⟨_, hne, h⟩ := bind_eq_ok.mp h
    obtain ⟨assignments, -, h⟩ := bind_eq_ok.mp h
    obtain ⟨_, -, h⟩ := bind_eq_ok.mp h
    obtain rfl := pure_eq_ok.mp h
    exact require_eq_ok.mp hne
  · exact managingOwner_ne hemployee h
  · split at h
    · exact managingOwner_ne hemployee h
    · rename_i hne
      obtain ⟨owner, howner, h⟩ := bind_eq_ok.mp h
      obtain ⟨assignments, -, h⟩ := bind_eq_ok.mp h
      obtain rfl := pure_eq_ok.mp h
      exact id_ne_of_user_ne hemployee howner hne

theorem prepare_eq_ok {itemId : Uuid} {newOwnerId userId : Option Uuid} {p : Prepared}
    (h : prepare E itemId true newOwnerId userId s = .ok p) :
    get s itemId = some p.employee ∧ ∃ o, newOwner E s p.employee newOwnerId userId = .ok o ∧
      p.newOwnerId = some o := by
  obtain ⟨employee, hemployee, h⟩ := bind_eq_ok.mp h
  obtain ⟨assignments, -, h⟩ := bind_eq_ok.mp h
  obtain ⟨owner, howner, h⟩ := bind_eq_ok.mp h
  obtain rfl := pure_eq_ok.mp h
  refine ⟨orFail_eq_ok.mp hemployee, ?_⟩
  cases hnew : newOwner E s employee newOwnerId userId with
  | ok o =>
    rw [if_pos rfl, hnew] at howner
    exact ⟨o, rfl, (Except.ok.inj howner).symm⟩
  | error e =>
    rw [if_pos rfl, hnew] at howner
    exact nomatch howner

/-! ## What is written -/

theorem commitTables_eq_ok {n : ℕ} {f : State → State} {u : Unit}
    (h : commitTables E n f s = (.ok u, s')) : s' = f s := by
  obtain ⟨_, -, h⟩ := bind_eq_ok.mp (Session.commit_eq_ok.mp h)
  exact (Prod.mk.inj (pure_eq_ok.mp h)).2.symm

/-- The state after a deletion that goes through. -/
def deleted (now : Timestamp) (employee : EmployeeRow) (o : Uuid) (s : State) : State :=
  deleteRow now employee.id (deleteConstraintsWithHits now employee.organizationId employee.id
    (deleteEmployeeEmails now employee.id (deleteEmployeeEmails now employee.id
      (reassignTables o employee (reassignResources o employee s)))))

/-- **A deletion that goes through** has found the employee and a new owner, and written everything. -/
theorem delete_eq_ok {itemId : Uuid} {newOwnerId userId : Option Uuid} {u : Unit}
    (h : delete E itemId true newOwnerId userId s = (.ok u, s')) :
    ∃ employee o, get s itemId = some employee ∧
      newOwner E s employee newOwnerId userId = .ok o ∧ s' = deleted E.now employee o s := by
  obtain ⟨p, t₀, hlook, h⟩ := Session.bind_eq_ok.mp h
  obtain ⟨hprepare, rfl⟩ := Session.read_eq_ok.mp hlook
  obtain ⟨_, t₁, hreassign, h⟩ := Session.bind_eq_ok.mp h
  obtain ⟨_, t₂, hroles, h⟩ := Session.bind_eq_ok.mp h
  obtain ⟨-, rfl⟩ := Session.read_eq_ok.mp hroles
  obtain ⟨_, t₃, hconstraints, hrow⟩ := Session.bind_eq_ok.mp h
  obtain ⟨hget, o, howner, hsome⟩ := prepare_eq_ok hprepare
  rw [hsome] at hreassign
  obtain ⟨_, t₄, hchange, htables⟩ := Session.bind_eq_ok.mp hreassign
  obtain ⟨-, rfl⟩ := Prod.mk.inj hchange
  obtain ⟨-, hid, -⟩ := get_eq_some hget
  refine ⟨p.employee, o, hget, howner, ?_⟩
  rw [commitTables_eq_ok hrow, commitTables_eq_ok hconstraints, commitTables_eq_ok htables, deleted,
    hid]

/-! ## What becomes of the references -/

/-- The request with the new owner in the employee's place. -/
def substitute (e o : Uuid) (q : AssignmentRequest) : AssignmentRequest :=
  { q with
    approverId := if q.approverId = e then o else q.approverId
    requesterId := if q.requesterId = e then o else q.requesterId }

/-- The employee takes part, and the other part is the employee's or the new owner's. -/
abbrev Tangled (e o : Uuid) (q : AssignmentRequest) : Prop :=
  TakesPart e q ∧ (q.approverId = e ∨ q.approverId = o) ∧ (q.requesterId = e ∨ q.requesterId = o)

/-- **In other requests the employee has one part**, and that is the one passed on. -/
theorem passOn_eq_substitute {e : Uuid} {q : AssignmentRequest} (hpart : TakesPart e q)
    (hq : ¬ Tangled e o q) : passOn e o q = substitute e o q := by
  unfold passOn substitute
  by_cases ha : q.approverId = e
  · have hr : q.requesterId ≠ e := fun hr => hq ⟨hpart, Or.inl ha, Or.inl hr⟩
    rw [if_pos ha, if_pos ha, if_neg hr]
  · have hr : q.requesterId = e := hpart.2.resolve_left ha
    rw [if_neg ha, if_neg ha, if_pos hr]

/-- What was the employee's is the new owner's, and nothing else has changed. -/
structure PassedOn (employee : EmployeeRow) (o : Uuid) (now : Timestamp) (s s' : State) : Prop where
  pools : s'.pools.rows = s.pools.rows.map fun p =>
    if OwnsPool employee p then { p with defaultOwnerId := some o } else p
  rules : s'.rules.rows = s.rules.rows.map fun r =>
    if OwnsRule employee r then { r with ownerId := o } else r
  layouts : s'.layouts.rows = s.layouts.rows.map fun l =>
    if l.ownerId = employee.id then { l with ownerId := o } else l
  bookings : s'.store.bookings.rows = s.store.bookings.rows.map fun b =>
    if Books employee.id b then { b with acquiredById := o } else b
  resources : s'.store.resources.rows = s.store.resources.rows.map fun r =>
    if OwnsResource employee.id r then { r with employeeId := some o } else r
  /-- Requests that are not tangled. -/
  requests : ∃ f : AssignmentRequest → AssignmentRequest,
    s'.store.requests.rows = s.store.requests.rows.map f ∧ (∀ q, (f q).id = q.id) ∧
      ∀ q, ¬ Tangled employee.id o q →
        f q = if TakesPart employee.id q then substitute employee.id o q else q
  /-- Limits that ask for the employee are deleted. -/
  constraints : s'.constraints.rows = s.constraints.rows.map fun c =>
    if AsksFor employee.organizationId employee.id c then { c with deletedAt := now } else c
  limitHits : s'.limitHits.rows = s.limitHits.rows.map fun h =>
    if (∃ c ∈ s.constraints.rows, AsksFor employee.organizationId employee.id c ∧
        c.id = h.constraintId) ∧ h.deletedAt = 0 then { h with deletedAt := now } else h
  emails : s'.emails.rows = s.emails.rows.map fun m =>
    if m.employeeId = employee.id ∧ m.deletedAt = 0 then { m with deletedAt := now } else m
  employees : s'.employees.rows = s.employees.rows.map fun e =>
    if e.id = employee.id then { e with deletedAt := now } else e
  organizations : s'.organizations = s.organizations
  clusterTypes : s'.store.clusterTypes = s.store.clusterTypes
  resourceConstraints : s'.store.constraints = s.store.constraints

/-- Nothing that is live refers to the employee. -/
structure Unreferenced (employee : EmployeeRow) (o : Uuid) (s s' : State) : Prop where
  pools : ∀ p ∈ s'.pools.rows, ¬ OwnsPool employee p
  rules : ∀ r ∈ s'.rules.rows, ¬ OwnsRule employee r
  layouts : ∀ l ∈ s'.layouts.rows, l.ownerId ≠ employee.id
  bookings : ∀ b ∈ s'.store.bookings.rows, ¬ Books employee.id b
  resources : ∀ r ∈ s'.store.resources.rows, ¬ OwnsResource employee.id r
  constraints : ∀ c ∈ s'.constraints.rows, ¬ AsksFor employee.organizationId employee.id c
  /-- Requests that are not tangled; nor does anybody ask himself who did not before. -/
  requests : ∀ q ∈ s.store.requests.rows, ¬ Tangled employee.id o q →
    ∀ q' ∈ s'.store.requests.rows, q'.id = q.id → ¬ TakesPart employee.id q' ∧
      (q.approverId ≠ q.requesterId → q'.approverId ≠ q'.requesterId)

/-- The constraints that are deleted are those that ask for the employee. -/
theorem mem_constraintsToDelete {organizationId employeeId id : Uuid} :
    id ∈ constraintsToDelete organizationId employeeId s ↔
      ∃ c ∈ s.constraints.rows, AsksFor organizationId employeeId c ∧ c.id = id := by
  simp only [constraintsToDelete, List.mem_map, List.mem_filter, decide_eq_true_eq, and_assoc]

/-- By its id a constraint is deleted exactly when it asks for the employee itself. -/
theorem id_mem_constraintsToDelete {organizationId employeeId : Uuid} {c : OrganizationConstraint}
    (hc : c ∈ s.constraints.rows) :
    c.id ∈ constraintsToDelete organizationId employeeId s ↔ AsksFor organizationId employeeId c := by
  rw [mem_constraintsToDelete]
  constructor
  · rintro ⟨d, hd, hasks, hid⟩
    rwa [← s.constraints.eq_of_key hd hc hid]
  · exact fun hasks => ⟨c, hc, hasks, rfl⟩

/-- The rows after an update, its filter read as what it decides. -/
theorem rows_of_decide {α : Type} {P : α → Prop} [DecidablePred P] {f : α → α} {rows : List α} :
    (rows.map fun a => if decide (P a) = true then f a else a) =
      rows.map fun a => if P a then f a else a := by
  simp only [decide_eq_true_eq]

theorem deleted_passedOn (now : Timestamp) (employee : EmployeeRow) (o : Uuid) (s : State) :
    PassedOn employee o now s (deleted now employee o s) where
  pools := rows_of_decide
  rules := rows_of_decide
  layouts := rows_of_decide
  bookings := rows_of_decide
  resources := rows_of_decide
  requests := by
    refine ⟨fun q => if TakesPart employee.id q then passOn employee.id o q else q,
      rows_of_decide, fun q => ?_, fun q hq => ?_⟩
    · show (if TakesPart employee.id q then passOn employee.id o q else q).id = q.id
      split
      · exact passOn_id employee.id o q
      · rfl
    · refine ite_congr rfl (fun hpart => ?_) fun _ => rfl
      exact passOn_eq_substitute hpart hq
  constraints := by
    have hrows : (deleted now employee o s).constraints.rows = s.constraints.rows.map fun c =>
        if c.id ∈ constraintsToDelete employee.organizationId employee.id s ∧ c.deletedAt = 0 then
          { c with deletedAt := (now : ℕ) } else c := rows_of_decide
    rw [hrows]
    refine List.map_congr_left fun c hc => ite_congr (propext ?_) (fun _ => rfl) fun _ => rfl
    rw [id_mem_constraintsToDelete hc]
    exact ⟨fun h => h.1, fun h => ⟨h, h.1⟩⟩
  limitHits := by
    have hrows : (deleted now employee o s).limitHits.rows = s.limitHits.rows.map fun h =>
        if h.constraintId ∈ constraintsToDelete employee.organizationId employee.id s ∧
          h.deletedAt = 0 then { h with deletedAt := (now : ℕ) } else h := rows_of_decide
    rw [hrows]
    refine List.map_congr_left fun h _ => ite_congr (propext ?_) (fun _ => rfl) fun _ => rfl
    rw [mem_constraintsToDelete]
  emails := by
    -- the second time there is nothing left to delete
    have hrows : (deleted now employee o s).emails.rows = (s.emails.rows.map fun m =>
        if m.employeeId = employee.id ∧ m.deletedAt = 0 then { m with deletedAt := (now : ℕ) }
        else m).map fun m =>
          if m.employeeId = employee.id ∧ m.deletedAt = 0 then { m with deletedAt := (now : ℕ) }
          else m := rows_of_decide.trans (congrArg (List.map _) rows_of_decide)
    rw [hrows, List.map_map]
    refine List.map_congr_left fun m _ => ?_
    have hnow : (now : ℕ) ≠ 0 := now.2.ne'
    simp only [Function.comp_apply]
    split <;> simp_all
  employees := rows_of_decide
  organizations := rfl
  clusterTypes := rfl
  resourceConstraints := rfl

/-- Where what refers is redirected, nothing refers any more. -/
theorem none_refers {α : Type} {refers : α → Prop} [DecidablePred refers] {redirect : α → α}
    {rows rows' : List α} (hrows : rows' = rows.map fun a => if refers a then redirect a else a)
    (hredirect : ∀ a, ¬ refers (redirect a)) : ∀ a ∈ rows', ¬ refers a := by
  rw [hrows]
  refine List.forall_mem_map.mpr fun a _ => ?_
  split
  · exact hredirect a
  · assumption

/-- **The new owner in the employee's place**: the employee takes no part, and who was asked by
somebody else still is. -/
theorem substitute_takesPart {e : Uuid} (ho : o ≠ e) {q : AssignmentRequest} (hq : ¬ Tangled e o q) :
    ¬ TakesPart e (if TakesPart e q then substitute e o q else q) ∧
      (q.approverId ≠ q.requesterId →
        (if TakesPart e q then substitute e o q else q).approverId ≠
          (if TakesPart e q then substitute e o q else q).requesterId) := by
  by_cases hpart : TakesPart e q
  · rw [if_pos hpart]
    simp only [TakesPart, substitute]
    by_cases ha : q.approverId = e
    · have hr : q.requesterId ≠ e := fun hr => hq ⟨hpart, Or.inl ha, Or.inl hr⟩
      have hro : q.requesterId ≠ o := fun hr => hq ⟨hpart, Or.inl ha, Or.inr hr⟩
      rw [if_pos ha, if_neg hr]
      exact ⟨fun h => h.2.elim ho hr, fun _ => Ne.symm hro⟩
    · have hr : q.requesterId = e := hpart.2.resolve_left ha
      have hao : q.approverId ≠ o := fun hao => hq ⟨hpart, Or.inr hao, Or.inl hr⟩
      rw [if_neg ha, if_pos hr]
      exact ⟨fun h => h.2.elim ha ho, fun _ => hao⟩
  · rw [if_neg hpart]
    exact ⟨hpart, fun h => h⟩

/-- **What is passed on to somebody else is no longer the employee's.** -/
theorem PassedOn.unreferenced {now : Timestamp} (h : PassedOn employee o now s s')
    (ho : o ≠ employee.id) : Unreferenced employee o s s' where
  pools := none_refers h.pools fun p hp => ho (Option.some.inj hp.2.2)
  rules := none_refers h.rules fun r hr => ho hr.2.2
  layouts := none_refers h.layouts fun l hl => ho hl
  bookings := none_refers h.bookings fun b hb => ho hb.2
  resources := none_refers h.resources fun r hr => ho (Option.some.inj hr.1)
  constraints := none_refers h.constraints fun c hc => now.2.ne' hc.1
  requests q hq hfree q' hq' hid := by
    obtain ⟨f, hrows, hfid, hf⟩ := h.requests
    obtain ⟨q₀, hq₀, rfl⟩ := List.mem_map.mp (hrows ▸ hq')
    obtain rfl := s.store.requests.eq_of_key hq₀ hq ((hfid q₀).symm.trans hid)
    rw [hf q₀ hfree]
    exact substitute_takesPart ho hfree

/-- **The deletion of an employee**: where it is refused while it looks around, nothing has changed;
where it goes through, what the employee had is the new owner's, and nothing live refers to the employee. -/
theorem delete_spec (E : Surroundings) (itemId : Uuid) (newOwnerId userId : Option Uuid) (s : State) :
    (∀ e, prepare E itemId true newOwnerId userId s = .error e →
      delete E itemId true newOwnerId userId s = (.error e, s)) ∧
    ∀ u s', delete E itemId true newOwnerId userId s = (.ok u, s') →
      ∃ employee o, get s itemId = some employee ∧
        newOwner E s employee newOwnerId userId = .ok o ∧ o ≠ itemId ∧
          PassedOn employee o E.now s s' ∧ Unreferenced employee o s s' := by
  refine ⟨fun e he => Session.bind_of_error (by rw [Session.read, he]), fun u s' h => ?_⟩
  obtain ⟨employee, o, hget, howner, rfl⟩ := delete_eq_ok h
  obtain ⟨hmem, hid, -⟩ := get_eq_some hget
  have ho := newOwner_ne hmem howner
  have hpassed := deleted_passedOn E.now employee o s
  exact ⟨employee, o, hget, howner, hid ▸ ho, hpassed, hpassed.unreferenced ho⟩

/-! ### An employee with a limit and two requests -/

/-- An organization with a member and a manager.  A limit asks for the member's resources; the member is
asked by himself, and by the manager. -/
def memberAndManager : State where
  employees := ⟨[⟨1, 100, some 201, 0⟩, ⟨2, 100, some 202, 0⟩], by decide⟩
  organizations := ⟨[{ id := 100 }], by decide⟩
  pools := ⟨[{ id := 5, organizationId := 100, defaultOwnerId := some 1 }], by decide⟩
  rules := Table.empty
  layouts := Table.empty
  emails := ⟨[⟨7, 1, 0⟩], by decide⟩
  constraints := ⟨[⟨8, 100, [some 1], 0⟩], by decide⟩
  limitHits := Table.empty
  store :=
    { resources := ⟨[{ id := 31, employeeId := some 1 }], by decide⟩
      clusterTypes := Table.empty
      bookings := Table.empty
      requests := ⟨[⟨41, 31, none, 1, 1, .PENDING, 0⟩, ⟨42, 32, none, 1, 2, .PENDING, 0⟩], by decide⟩
      constraints := Table.empty }

/-- Both have a role in the organization; the auth service deletes roles, or does not. -/
def roles (assignmentDelete : Except Failure Unit) : Surroundings where
  assignmentList user :=
    .ok [⟨50, 100, if user = some 202 then "Manager" else "Member"⟩]
  orgManagers _ := .ok [202]
  assignmentDelete _ := assignmentDelete
  commit _ := .ok ()
  now := ⟨1000, by decide⟩

/-- **The limit is deleted, the member still takes part in a request, and the manager asks himself**; where
the role cannot be deleted, the e-mails are gone although the call fails. -/
theorem member_leaves :
    ((delete (roles (.ok ())) 1 true (some 2) none memberAndManager).1 = .ok () ∧
      ((delete (roles (.ok ())) 1 true (some 2) none memberAndManager).2.constraints.rows.map fun c =>
        (c.deletedAt, c.ownerFilter)) = [(1000, [some 1])] ∧
      ((delete (roles (.ok ())) 1 true (some 2) none memberAndManager).2.store.requests.rows.map fun q =>
        (q.deletedAt, q.approverId, q.requesterId)) = [(0, 2, 1), (0, 2, 2)]) ∧
    (delete (roles (.error (.http 500))) 1 true (some 2) none memberAndManager).1 = .error (.http 500) ∧
      (delete (roles (.error (.http 500))) 1 true (some 2) none memberAndManager).2.emails ≠
        memberAndManager.emails := by
  refine ⟨⟨rfl, rfl, rfl⟩, rfl, fun h => ?_⟩
  exact absurd (congrArg (fun t => t.rows.map EmployeeEmail.deletedAt) h) (by decide)

/-- What the deletion does to the rest of the organization. -/
theorem member_leaves_spec :
    ∃ employee o, get memberAndManager 1 = some employee ∧
      newOwner (roles (.ok ())) memberAndManager employee (some 2) none = .ok o ∧ o ≠ 1 ∧
        PassedOn employee o ⟨1000, by decide⟩ memberAndManager
          (delete (roles (.ok ())) 1 true (some 2) none memberAndManager).2 ∧
        Unreferenced employee o memberAndManager
          (delete (roles (.ok ())) 1 true (some 2) none memberAndManager).2 :=
  (delete_spec (roles (.ok ())) 1 (some 2) none memberAndManager).2 () _ rfl

end EmployeeController
