import OptScale.Clusters.Members
import OptScale.Employees.Deletion

/-!
# Resources/Requests — one live request of a resource

A live request is retired by whoever makes another, assigns the resource, answers or withdraws it, deletes
the pool it comes from, or puts the resource into a cluster; the deletion of an employee passes it on.  So a
resource never has two (`AtMostOne`).  An accepted request gives the resource away before it is finished:
where something fails in between, the resource is gone and the request still there (`acceptSound_iff`).
-/

open Fallible Resource Run

/-! ## One live request -/

/-- **A resource has at most one live request.** -/
def AtMostOne (requests : Table AssignmentRequest.id) : Prop :=
  ∀ q ∈ requests.rows, ∀ q' ∈ requests.rows, q.deletedAt = 0 → q'.deletedAt = 0 →
    q.resourceId = q'.resourceId → q = q'

namespace AtMostOne

variable {requests requests' : Table AssignmentRequest.id}

/-- **Requests stay with their resource and do not come back to life.** -/
theorem of_map (h : AtMostOne requests) {p : AssignmentRequest → Bool}
    {f : AssignmentRequest → AssignmentRequest}
    (hrows : requests'.rows = requests.rows.map fun q => if p q then f q else q)
    (hresource : ∀ q, (f q).resourceId = q.resourceId)
    (hlive : ∀ q, (f q).deletedAt = 0 → q.deletedAt = 0) : AtMostOne requests' := by
  have hkept : ∀ q, (if p q then f q else q).resourceId = q.resourceId ∧
      ((if p q then f q else q).deletedAt = 0 → q.deletedAt = 0) := by
    intro q
    split
    · exact ⟨hresource q, hlive q⟩
    · exact ⟨rfl, fun h => h⟩
  rw [AtMostOne, hrows]
  refine List.forall_mem_map.mpr fun q hq => List.forall_mem_map.mpr fun q' hq' hl hl' hres => ?_
  rw [(hkept q).1, (hkept q').1] at hres
  rw [h q hq q' hq' ((hkept q).2 hl) ((hkept q').2 hl') hres]

/-- A request that is retired is live no more. -/
theorem retire (h : AtMostOne requests) {p : AssignmentRequest → Bool}
    {f : AssignmentRequest → AssignmentRequest}
    (hrows : requests'.rows = requests.rows.map fun q => if p q then f q else q)
    (hresource : ∀ q, (f q).resourceId = q.resourceId) (hretired : ∀ q, (f q).deletedAt ≠ 0) :
    AtMostOne requests' :=
  h.of_map hrows hresource fun q hq => absurd hq (hretired q)

end AtMostOne

namespace AssignmentController

variable {E : Surroundings} {requests requests' : Table AssignmentRequest.id}

/-- **The live request of a resource is invalidated**, and there was only one. -/
theorem invalidateRequests_eq_ok {id : Uuid} (h : AtMostOne requests)
    (hok : invalidateRequests E id requests = .ok requests') :
    AtMostOne requests' ∧ ∀ q ∈ requests'.rows, q.resourceId = id → q.deletedAt ≠ 0 := by
  unfold invalidateRequests at hok
  split at hok
  · rename_i hnone
    obtain rfl := Except.ok.inj hok
    refine ⟨h, fun q hq hid hlive => ?_⟩
    have hmem : q ∈ requests.rows.filter fun q => q.resourceId = id ∧ q.deletedAt = 0 :=
      List.mem_filter.mpr ⟨hq, decide_eq_true ⟨hid, hlive⟩⟩
    rw [List.getLast?_eq_none_iff.mp hnone] at hmem
    exact absurd hmem List.not_mem_nil
  · rename_i last hlast
    obtain ⟨_, -, hok⟩ := bind_eq_ok.mp hok
    obtain rfl := pure_eq_ok.mp hok
    obtain ⟨hmem, hprop⟩ := List.mem_filter.mp (List.mem_of_getLast? hlast)
    obtain ⟨hid, hlive⟩ := of_decide_eq_true hprop
    refine ⟨h.retire rfl (fun _ => rfl) fun _ => E.now.2.ne', ?_⟩
    refine List.forall_mem_map.mpr fun q hq => ?_
    split
    · exact fun _ => E.now.2.ne'
    · rename_i hother
      exact fun hq' hl => hother (decide_eq_true
        (congrArg _ (h q hq last hmem hl hlive (hq'.trans hid.symm))))

/-- The store has at most one live request of a resource. -/
abbrev OneRequest (s : Store) : Prop := AtMostOne s.requests

theorem createAssignment_oneRequest (E : Surroundings) (byRequest : Bool) (p : Params) :
    (createAssignment E byRequest p).Keeps OneRequest := by
  unfold createAssignment
  refine .bind (.read _) fun employee => .bind (.read _) fun data => .bind (.read _) fun _ =>
    .bind (.commit fun s _ s' hs hok => ?_) fun _ => .bind (.commit fun s _ s' hs hok => ?_) fun _ =>
    .read _
  · obtain ⟨requests, hrequests, hok⟩ := bind_eq_ok.mp hok
    obtain ⟨-, rfl⟩ := Prod.mk.inj (pure_eq_ok.mp hok)
    split at hrequests
    · obtain rfl := Except.ok.inj hrequests
      exact hs
    · exact (invalidateRequests_eq_ok hs hrequests).1
  · obtain ⟨created, -, hok⟩ := bind_eq_ok.mp hok
    obtain ⟨-, rfl⟩ := Prod.mk.inj (pure_eq_ok.mp hok)
    exact hs

theorem freeResource_id {t : Resources} {id : Option Uuid} {r : Resource}
    (h : freeResource t id = .ok r) : id = some r.id := by
  obtain ⟨i, hi, h⟩ := bind_eq_ok.mp h
  obtain ⟨found, hfound, h⟩ := bind_eq_ok.mp h
  obtain ⟨_, -, h⟩ := bind_eq_ok.mp h
  obtain rfl := pure_eq_ok.mp h
  have hget : found.id = i ∧ found.Live := by simpa using List.find?_some (orFail_eq_ok.mp hfound)
  rw [orFail_eq_ok.mp hi, hget.1]

/-- **What an assignment is about**: the resource, the pool and the owner that are named. -/
theorem prepareAssignData_named {t : Resources} {employee : Employee} {p : Params}
    {data : Resource × Pool × Employee} (h : prepareAssignData E t employee p = .ok data) :
    data.1 ∈ t.rows ∧ data.1.Live ∧ p.resourceId = some data.1.id ∧ p.poolId = some data.2.1.id ∧
      ∀ id ∈ p.ownerId, data.2.2.id = id := by
  obtain ⟨resource, hresource, h⟩ := bind_eq_ok.mp h
  obtain ⟨owner, howner, h⟩ := bind_eq_ok.mp h
  obtain ⟨poolId, hpoolId, h⟩ := bind_eq_ok.mp h
  obtain ⟨pool, hpool, h⟩ := bind_eq_ok.mp h
  obtain rfl := pure_eq_ok.mp h
  obtain ⟨hmem, hlive, -⟩ := freeResource_eq_ok hresource
  refine ⟨hmem, hlive, freeResource_id hresource, ?_, fun id hid => ?_⟩
  · rw [orFail_eq_ok.mp hpoolId, E.getPool_id poolId pool (orFail_eq_ok.mp hpool)]
  · rw [Option.mem_def.mp hid] at howner
    exact E.getEmployee_id id owner (orFail_eq_ok.mp howner)

/-- **A direct assignment leaves no live request** of its resource. -/
theorem createAssignment_leaves_none {p : Params} {s s' : Store} {u : Unit} (hs : OneRequest s)
    (h : createAssignment E false p s = (.ok u, s')) {id : Uuid} (hid : p.resourceId = some id) :
    ∀ q ∈ s'.requests.rows, q.resourceId = id → q.deletedAt ≠ 0 := by
  obtain ⟨employee, t, h₁, h⟩ := Session.bind_eq_ok.mp h
  obtain ⟨-, rfl⟩ := Session.read_eq_ok.mp h₁
  obtain ⟨data, t, h₁, h⟩ := Session.bind_eq_ok.mp h
  obtain ⟨hdata, rfl⟩ := Session.read_eq_ok.mp h₁
  obtain ⟨_, t, h₁, h⟩ := Session.bind_eq_ok.mp h
  obtain ⟨-, rfl⟩ := Session.read_eq_ok.mp h₁
  obtain ⟨_, t, hinvalidate, h⟩ := Session.bind_eq_ok.mp h
  obtain ⟨_, t', hcreate, h⟩ := Session.bind_eq_ok.mp h
  obtain ⟨-, rfl⟩ := Session.read_eq_ok.mp h
  obtain ⟨requests, hrequests, hinvalidate⟩ := bind_eq_ok.mp (Session.commit_eq_ok.mp hinvalidate)
  obtain ⟨-, rfl⟩ := Prod.mk.inj (pure_eq_ok.mp hinvalidate)
  obtain ⟨created, -, hcreate⟩ := bind_eq_ok.mp (Session.commit_eq_ok.mp hcreate)
  obtain ⟨-, rfl⟩ := Prod.mk.inj (pure_eq_ok.mp hcreate)
  obtain ⟨-, -, hnamed, -⟩ := prepareAssignData_named hdata
  obtain rfl : id = data.1.id := Option.some.inj (hid.symm.trans hnamed)
  exact (invalidateRequests_eq_ok hs hrequests).2

end AssignmentController

namespace AtMostOne

variable {requests requests' : Table AssignmentRequest.id}

/-- **A request may be added** where the resource has no live one. -/
theorem insert (h : AtMostOne requests) {q : AssignmentRequest}
    (hrows : requests'.rows = requests.rows ++ [q])
    (hnone : ∀ x ∈ requests.rows, x.deletedAt = 0 → x.resourceId ≠ q.resourceId) :
    AtMostOne requests' := by
  rw [AtMostOne, hrows]
  intro x hx y hy hxl hyl hres
  obtain hx | hx := List.mem_append.mp hx <;> obtain hy | hy := List.mem_append.mp hy
  · exact h x hx y hy hxl hyl hres
  · rw [List.mem_singleton.mp hy] at hres
    exact absurd hres (hnone x hx hxl)
  · rw [List.mem_singleton.mp hx] at hres
    exact absurd hres.symm (hnone y hy hyl)
  · rw [List.mem_singleton.mp hx, List.mem_singleton.mp hy]

end AtMostOne

namespace AssignmentRequestController

open AssignmentController (OneRequest Concerns SlotFree)

variable {E : AssignmentController.Surroundings} {s s' : Store}

/-! ## What each call does to the requests -/

/-- **A request that is finished** is live no more, and it is the only one that changes. -/
theorem finishRequest_eq_ok {request : AssignmentRequest} {status : AssignmentRequestStatus}
    {requests requests' : Table AssignmentRequest.id}
    (h : finishRequest E request status requests = .ok requests') :
    SlotFree requests request E.now ∧ (AtMostOne requests → AtMostOne requests') ∧
      ∀ q ∈ requests'.rows, q.id = request.id → q.deletedAt ≠ 0 := by
  obtain ⟨_, hslot, h⟩ := bind_eq_ok.mp h
  obtain rfl := pure_eq_ok.mp h
  refine ⟨require_eq_ok.mp hslot, fun hone => hone.retire rfl (fun _ => rfl) fun _ => E.now.2.ne', ?_⟩
  refine List.forall_mem_map.mpr fun q _ => ?_
  split
  · exact fun _ => E.now.2.ne'
  · rename_i hother
    exact fun hid => absurd (decide_eq_true hid) hother

theorem finish_oneRequest (E : AssignmentController.Surroundings) (request : AssignmentRequest)
    (status : AssignmentRequestStatus) :
    (Session.commit fun s => do
      let requests ← finishRequest E request status s.requests
      pure ((), { s with requests := requests })).Keeps OneRequest := by
  refine .commit fun s _ s' hs hok => ?_
  obtain ⟨requests, hrequests, hok⟩ := bind_eq_ok.mp hok
  obtain ⟨-, rfl⟩ := Prod.mk.inj (pure_eq_ok.mp hok)
  exact (finishRequest_eq_ok hrequests).2.1 hs

theorem createAssignmentRequest_oneRequest (E : AssignmentController.Surroundings)
    (p : RequestParams) : (createAssignmentRequest E p).Keeps OneRequest := by
  unfold createAssignmentRequest
  refine .bind (.read _) fun employee => .bind (.read _) fun data => .bind (.read _) fun _ =>
    .commit fun s _ s' hs hok => ?_
  obtain ⟨requests, hrequests, hok⟩ := bind_eq_ok.mp hok
  obtain ⟨_, -, hok⟩ := bind_eq_ok.mp hok
  obtain ⟨requests', hinsert, hok⟩ := bind_eq_ok.mp hok
  obtain ⟨-, rfl⟩ := Prod.mk.inj (pure_eq_ok.mp hok)
  obtain ⟨hone, hnone⟩ := AssignmentController.invalidateRequests_eq_ok hs hrequests
  obtain ⟨-, hrows⟩ := Table.insert?_eq_some.mp (orFail_eq_ok.mp hinsert)
  exact hone.insert hrows fun x hx hlive hres => hnone x hx hres hlive

theorem acceptAssignmentRequest_oneRequest (E : AssignmentController.Surroundings)
    (requestId : Uuid) (poolId ownerId : Option Uuid) :
    (acceptAssignmentRequest E requestId poolId ownerId).Keeps OneRequest := by
  unfold acceptAssignmentRequest
  exact .bind (.read _) fun request => .bind (.read _) fun _ => .bind (.read _) fun employee =>
    .bind (.read _) fun _ =>
      .bind (AssignmentController.createAssignment_oneRequest E true _) fun _ =>
        .bind (finish_oneRequest E request .APPROVED) fun _ => .read _

theorem declineAssignmentRequest_oneRequest (E : AssignmentController.Surroundings)
    (requestId : Uuid) : (declineAssignmentRequest E requestId).Keeps OneRequest := by
  unfold declineAssignmentRequest
  exact .bind (.read _) fun request => .bind (.read _) fun _ => .bind (.read _) fun employee =>
    .bind (.read _) fun _ => .bind (finish_oneRequest E request .DECLINED) fun _ => .read _

theorem cancelAssignmentRequest_oneRequest (E : AssignmentController.Surroundings)
    (requestId : Uuid) : (cancelAssignmentRequest E requestId).Keeps OneRequest := by
  unfold cancelAssignmentRequest
  exact .bind (.read _) fun request => .bind (.read _) fun _ => .bind (.read _) fun employee =>
    .bind (.read _) fun _ => finish_oneRequest E request .CANCELED

end AssignmentRequestController

namespace PoolController

theorem deleteForResources_oneRequest (E : Surroundings) (itemId : Uuid) (allowRootDeletion : Bool) :
    (deleteForResources E itemId allowRootDeletion).Keeps AssignmentController.OneRequest := by
  unfold deleteForResources
  refine .bind (.read _) fun item => .bind (.read _) fun _ => .bind (.read _) fun _ => ?_
  split
  · exact .pure _
  · refine .bind (.commit fun s _ s' hs hok => ?_) fun _ => .bind (.read _) fun parent =>
      .bind (.read _) fun owners => .bind (.commit fun s _ s' hs hok => ?_) fun _ => .read _
    · obtain ⟨requests, hrequests, hok⟩ := bind_eq_ok.mp hok
      obtain ⟨-, rfl⟩ := Prod.mk.inj (pure_eq_ok.mp hok)
      obtain ⟨_, -, hrequests⟩ := bind_eq_ok.mp hrequests
      obtain rfl := pure_eq_ok.mp hrequests
      exact AtMostOne.retire hs rfl (fun _ => rfl) fun _ => E.now.2.ne'
    · obtain ⟨-, rfl⟩ := Prod.mk.inj (Except.ok.inj hok)
      exact hs

end PoolController

namespace ClusterTypeApplyController

theorem reapplyClusters_oneRequest (O : OrganizationContext) (R : RuleContext) (E : Surroundings) :
    (reapplyClusters O R E).Keeps AssignmentController.OneRequest := by
  unfold reapplyClusters
  refine .bind (.read _) fun types => ?_
  split
  · exact .pure _
  · refine .bind (.read _) fun _ => .bind (.read _) fun _ => .bind (.read _) fun entries =>
      .bind (.read _) fun total => .bind (.within _ fun _ _ hs => hs) fun stored =>
      .bind (.read _) fun _ => .bind (.commit fun s _ s' hs hok => ?_) fun _ =>
      .bind (.read _) fun _ => .pure _
    obtain ⟨-, rfl⟩ := Prod.mk.inj (Except.ok.inj hok)
    exact AtMostOne.retire hs rfl (fun _ => rfl) fun _ => E.now.2.ne'

end ClusterTypeApplyController

namespace EmployeeController

theorem commitTables_keeps (E : Surroundings) {P : State → Prop} (n : ℕ) {f : State → State}
    (hf : ∀ s, P s → P (f s)) : (commitTables E n f).Keeps P := by
  refine .commit fun s _ s' hs hok => ?_
  obtain ⟨_, -, hok⟩ := bind_eq_ok.mp hok
  obtain ⟨-, rfl⟩ := Prod.mk.inj (pure_eq_ok.mp hok)
  exact hf s hs

/-- **Requests that are passed on stay the only ones.** -/
theorem delete_oneRequest (E : Surroundings) (itemId : Uuid) (reassignResources : Bool)
    (newOwnerId userId : Option Uuid) : (delete E itemId reassignResources newOwnerId userId).Keeps
      fun s => AtMostOne s.store.requests := by
  unfold delete
  refine .bind (.read _) fun p => .bind ?_ fun _ => .bind (.read _) fun _ =>
    .bind (commitTables_keeps E 1 fun _ hs => hs) fun _ => commitTables_keeps E 2 fun _ hs => hs
  cases p.newOwnerId with
  | none => exact .pure _
  | some o =>
    refine .bind (.change fun _ hs => hs) fun _ => commitTables_keeps E 0 fun s hs => ?_
    exact AtMostOne.of_map hs rfl (passOn_resourceId p.employee.id o) fun q hq =>
      (passOn_deletedAt p.employee.id o q).symm.trans hq

end EmployeeController

/-! ## An accepted request -/

namespace AssignmentRequestController

open AssignmentController

variable (E : AssignmentController.Surroundings) (requestId : Uuid) (poolId ownerId : Option Uuid)

/-- The assignment an accepted request asks for. -/
def acceptParams (request : AssignmentRequest) : Params :=
  { resourceId := some request.resourceId, poolId, ownerId := ownerId.or (some request.approverId) }

/-- What `accept_assignment_request` looks at before it writes anything. -/
def checkAccept (s : Store) : Except Failure (AssignmentRequest × (Resource × Pool × Employee)) := do
  let request ← getRequest s requestId
  require (∃ r ∈ s.resources.rows, r.id = request.resourceId)
    (.notFound .OE0002 ["Resource", toString request.resourceId])
  let employee ← E.employee
  require (request.approverId = employee.id) (.forbidden .OE0391 [])
  let employee ← E.employee
  let data ← prepareAssignData E s.resources employee (acceptParams poolId ownerId request)
  validateAssignment E true employee data
  pure (request, data)

/-- The resource goes to the pool and the owner. -/
def giveAway (data : Resource × Pool × Employee) : Session Store Failure Unit := do
  Session.commit fun s => do
    let (_, t) ← create data.1.id data.2.1.id data.2.2.id s.resources
    pure ((), { s with resources := t })
  Session.read fun _ => E.publish "resource_assigned"

/-- The request is finished. -/
def approve (request : AssignmentRequest) : Session Store Failure Unit := do
  Session.commit fun s => do
    let requests ← finishRequest E request .APPROVED s.requests
    pure ((), { s with requests := requests })
  Session.read fun _ => E.publish "assignment_request_accepted"

variable {E requestId poolId ownerId} {s s' : Store} {request : AssignmentRequest}
  {data : Resource × Pool × Employee}

/-- **Where a check fails** nothing is written. -/
theorem accept_of_refused {e : Failure} (h : checkAccept E requestId poolId ownerId s = .error e) :
    acceptAssignmentRequest E requestId poolId ownerId s = (.error e, s) := by
  unfold acceptAssignmentRequest createAssignment
  refine Session.read_bind_of_refused h fun request _ h => ?_
  refine Session.read_bind_of_refused h fun _ _ h => ?_
  refine Session.read_bind_of_refused h fun employee _ h => ?_
  refine Session.read_bind_of_refused h fun _ _ h => Session.bind_of_error ?_
  refine Session.read_bind_of_refused h fun employee _ h => ?_
  refine Session.read_bind_of_refused h fun data _ h => ?_
  exact Session.read_bind_of_refused h fun _ _ h => nomatch h

/-- **Where the checks pass** the resource is given away, and then the request is finished. -/
theorem accept_of_checked (h : checkAccept E requestId poolId ownerId s = .ok (request, data)) :
    acceptAssignmentRequest E requestId poolId ownerId s =
      (giveAway E data >>= fun _ => approve E request) s := by
  obtain ⟨q, hq, h⟩ := bind_eq_ok.mp h
  obtain ⟨_, hresource, h⟩ := bind_eq_ok.mp h
  obtain ⟨employee, hemployee, h⟩ := bind_eq_ok.mp h
  obtain ⟨_, happrover, h⟩ := bind_eq_ok.mp h
  obtain ⟨employee', hemployee', h⟩ := bind_eq_ok.mp h
  obtain ⟨d, hd, h⟩ := bind_eq_ok.mp h
  obtain ⟨_, hvalid, h⟩ := bind_eq_ok.mp h
  obtain ⟨rfl, rfl⟩ := Prod.mk.inj (pure_eq_ok.mp h)
  unfold acceptAssignmentRequest
  rw [Session.read_bind_of_ok (s := s) hq, Session.read_bind_of_ok (s := s) hresource,
    Session.read_bind_of_ok (s := s) hemployee, Session.read_bind_of_ok (s := s) happrover]
  refine Session.bind_congr ?_
  unfold createAssignment
  rw [Session.read_bind_of_ok (s := s) hemployee', Session.read_bind_of_ok (s := s) hd,
    Session.read_bind_of_ok (s := s) hvalid]
  exact Session.bind_of_ok rfl

/-- Every live resource the assignment is about has the pool and the owner. -/
def AssignedTo (resourceId poolId ownerId : Uuid) (t : Resources) : Prop :=
  ∀ r ∈ t.rows, Concerns resourceId r → r.poolId = some poolId ∧ r.employeeId = some ownerId

/-- A resource given away is the one it was. -/
theorem id_given (poolId ownerId : Uuid) (r : Resource) :
    ({ r with poolId := some poolId, employeeId := some ownerId } : Resource).id = r.id := rfl

/-- The resources after they are given away. -/
def given (resourceId poolId ownerId : Uuid) (t : Resources) : Resources :=
  t.updateWhere (fun r => Concerns resourceId r)
    (fun r => { r with poolId := some poolId, employeeId := some ownerId }) (id_given poolId ownerId)

theorem given_assignedTo (resourceId poolId ownerId : Uuid) (t : Resources) :
    AssignedTo resourceId poolId ownerId (given resourceId poolId ownerId t) := by
  refine List.forall_mem_map.mpr fun r _ => ?_
  split
  · exact fun _ => ⟨rfl, rfl⟩
  · rename_i hother
    exact fun h => absurd (decide_eq_true h) hother

/-- What is given away is still there. -/
theorem exists_given {t : Resources} {r : Resource} (poolId ownerId : Uuid) (hr : r ∈ t.rows)
    (hlive : r.Live) : ∃ r' ∈ (given r.id poolId ownerId t).rows, r'.id = r.id ∧ r'.Live := by
  refine ⟨{ r with poolId := some poolId, employeeId := some ownerId }, ?_, rfl, hlive⟩
  exact List.mem_map.mpr ⟨r, hr, if_pos (decide_eq_true ⟨Or.inl rfl, hlive⟩)⟩

/-- **Giving away changes nothing** exactly where everything is given already. -/
theorem given_eq_iff {resourceId poolId ownerId : Uuid} {t : Resources} :
    given resourceId poolId ownerId t = t ↔ AssignedTo resourceId poolId ownerId t := by
  constructor
  · intro h
    rw [← h]
    exact given_assignedTo resourceId poolId ownerId t
  · intro h
    refine Table.ext ((List.map_congr_left fun r hr => ?_).trans (List.map_id _))
    split
    · rename_i hconcerns
      obtain ⟨hpool, howner⟩ := h r hr (of_decide_eq_true hconcerns)
      rw [← hpool, ← howner]
      rfl
    · rfl

/-- What the checks find. -/
theorem checkAccept_eq_ok (h : checkAccept E requestId poolId ownerId s = .ok (request, data)) :
    request ∈ s.requests.rows ∧ request.id = requestId ∧ request.deletedAt = 0 ∧
      data.1 ∈ s.resources.rows ∧ data.1.Live ∧ data.1.id = request.resourceId ∧
      poolId = some data.2.1.id ∧ data.2.2.id = ownerId.getD request.approverId := by
  obtain ⟨q, hq, h⟩ := bind_eq_ok.mp h
  obtain ⟨_, -, h⟩ := bind_eq_ok.mp h
  obtain ⟨employee, -, h⟩ := bind_eq_ok.mp h
  obtain ⟨_, -, h⟩ := bind_eq_ok.mp h
  obtain ⟨employee', -, h⟩ := bind_eq_ok.mp h
  obtain ⟨d, hd, h⟩ := bind_eq_ok.mp h
  obtain ⟨_, -, h⟩ := bind_eq_ok.mp h
  obtain ⟨rfl, rfl⟩ := Prod.mk.inj (pure_eq_ok.mp h)
  have hfind := orFail_eq_ok.mp hq
  have hfound : q.id = requestId ∧ q.deletedAt = 0 := by simpa using List.find?_some hfind
  obtain ⟨hmem, hlive, hresource, hpool, howner⟩ := prepareAssignData_named hd
  refine ⟨List.mem_of_find?_eq_some hfind, hfound.1, hfound.2, hmem, hlive,
    (Option.some.inj hresource).symm, hpool, ?_⟩
  cases ownerId with
  | none => exact howner q.approverId rfl
  | some id => exact howner id rfl

/-- **A resource that was found is given away.** -/
theorem giveAway_create (hmem : data.1 ∈ s.resources.rows) (hlive : data.1.Live) :
    Session.commit (fun s : Store => do
      let (_, t) ← create data.1.id data.2.1.id data.2.2.id s.resources
      pure ((), { s with resources := t })) s =
      ((.ok (), { s with resources := given data.1.id data.2.1.id data.2.2.id s.resources }) :
        Except Failure Unit × Store) := by
  have hcreate : create data.1.id data.2.1.id data.2.2.id s.resources =
      .ok ((), given data.1.id data.2.1.id data.2.2.id s.resources) := by
    rw [create, require_of ⟨data.1, hmem, Or.inl rfl, hlive⟩]
    rfl
  rw [Session.commit, hcreate]
  rfl

/-- **How an accepted request ends**: the resource is given away in any case; the request is finished if
that was published and its slot is free. -/
theorem accept_outcome (h : checkAccept E requestId poolId ownerId s = .ok (request, data)) :
    (∃ e, ¬ (E.publish "resource_assigned" = .ok () ∧ SlotFree s.requests request E.now) ∧
      acceptAssignmentRequest E requestId poolId ownerId s = (.error e, { s with
        resources := given data.1.id data.2.1.id data.2.2.id s.resources })) ∨
    (E.publish "resource_assigned" = .ok () ∧ SlotFree s.requests request E.now) ∧
      ∃ requests, finishRequest E request .APPROVED s.requests = .ok requests ∧
        acceptAssignmentRequest E requestId poolId ownerId s =
          (E.publish "assignment_request_accepted", { s with
            resources := given data.1.id data.2.1.id data.2.2.id s.resources, requests }) := by
  obtain ⟨-, -, -, hmem, hlive, -⟩ := checkAccept_eq_ok h
  have hgiven := giveAway_create hmem hlive
  rw [accept_of_checked h]
  cases hpublish : E.publish "resource_assigned" with
  | error e =>
    refine Or.inl ⟨e, fun hall => (nomatch hall.1), Session.bind_of_error ?_⟩
    exact (Session.bind_of_ok hgiven).trans (congrArg (fun x => (x, _)) hpublish)
  | ok u =>
    have hgive : giveAway E data s = (.ok (), { s with
        resources := given data.1.id data.2.1.id data.2.2.id s.resources }) :=
      (Session.bind_of_ok hgiven).trans (congrArg (fun x => (x, _)) hpublish)
    by_cases hslot : SlotFree s.requests request E.now
    · refine Or.inr ⟨⟨rfl, hslot⟩, s.requests.updateWhere (fun q => q.id = request.id)
        (fun q => { q with status := .APPROVED, deletedAt := E.now }) fun _ => rfl, ?_, ?_⟩
      · rw [finishRequest, require_of hslot]
        rfl
      · refine (Session.bind_of_ok hgive).trans (Session.bind_of_ok (a := ()) ?_)
        rw [Session.commit, finishRequest, require_of hslot]
        rfl
    · refine Or.inl ⟨.wrongArguments .OE0003 [], fun hall => hslot hall.2,
        (Session.bind_of_ok hgive).trans (Session.bind_of_error ?_)⟩
      rw [Session.commit, finishRequest, require_not hslot]
      rfl

variable (E requestId poolId ownerId s)

/-- An accepted request ends with its resource assigned, the members of a cluster with it, and live no
more; one that fails leaves resources and requests as they were. -/
def AcceptSound : Prop :=
  (∀ u s', acceptAssignmentRequest E requestId poolId ownerId s = (.ok u, s') →
    ∃ request ∈ s.requests.rows, request.id = requestId ∧ request.deletedAt = 0 ∧
      (∃ r ∈ s'.resources.rows, r.id = request.resourceId ∧ r.Live) ∧
      (∃ pool, poolId = some pool ∧
        AssignedTo request.resourceId pool (ownerId.getD request.approverId) s'.resources) ∧
      ∀ q ∈ s'.requests.rows, q.id = requestId → q.deletedAt ≠ 0) ∧
  ∀ e s', acceptAssignmentRequest E requestId poolId ownerId s = (.error e, s') →
    s'.resources = s.resources ∧ s'.requests = s.requests

/-- Once the checks of `accept_assignment_request` pass, both activities can be published and no other
request of the resource went in the same second; or else there is nothing to be given away. -/
def AcceptSmooth : Prop :=
  ∀ request data, checkAccept E requestId poolId ownerId s = .ok (request, data) →
    ((E.publish "resource_assigned" = .ok () ∧ SlotFree s.requests request E.now) ∧
      E.publish "assignment_request_accepted" = .ok ()) ∨
    (¬ (E.publish "resource_assigned" = .ok () ∧ SlotFree s.requests request E.now) ∧
      AssignedTo data.1.id data.2.1.id data.2.2.id s.resources)

/-- **An accepted request is sound exactly where it is smooth.** -/
theorem acceptSound_iff :
    AcceptSound E requestId poolId ownerId s ↔ AcceptSmooth E requestId poolId ownerId s := by
  cases hcheck : checkAccept E requestId poolId ownerId s with
  | error e =>
    have hrefused := accept_of_refused hcheck
    refine ⟨fun _ request data h => (by rw [hcheck] at h; exact nomatch h), fun _ => ⟨?_, ?_⟩⟩
    · rintro u s' h
      exact nomatch (Prod.mk.inj (hrefused.symm.trans h)).1
    · rintro e' s' h
      obtain ⟨-, rfl⟩ := Prod.mk.inj (hrefused.symm.trans h)
      exact ⟨rfl, rfl⟩
  | ok d =>
    obtain ⟨request, data⟩ := d
    obtain ⟨hmem, hid, hreq, hdata, hlive, hresource, hpool, howner⟩ := checkAccept_eq_ok hcheck
    constructor
    · rintro ⟨-, herror⟩ request' data' hcheck'
      obtain ⟨rfl, rfl⟩ := Prod.mk.inj (Except.ok.inj (hcheck.symm.trans hcheck'))
      obtain ⟨e, hfails, haccept⟩ | ⟨hpasses, requests, hfinish, haccept⟩ := accept_outcome hcheck
      · exact Or.inr ⟨hfails, given_eq_iff.mp (herror e _ haccept).1⟩
      · refine Or.inl ⟨hpasses, ?_⟩
        cases hpublish : E.publish "assignment_request_accepted" with
        | ok u => rfl
        | error e =>
          rw [hpublish] at haccept
          obtain rfl : requests = s.requests := (herror e _ haccept).2
          exact absurd hreq ((finishRequest_eq_ok hfinish).2.2 request hmem rfl)
    · intro hsmooth
      obtain ⟨e, hfails, haccept⟩ | ⟨hpasses, requests, hfinish, haccept⟩ := accept_outcome hcheck
      · have hgiven := (hsmooth request data hcheck).resolve_left fun h => hfails h.1
        refine ⟨fun u s' h => (nomatch (Prod.mk.inj (haccept.symm.trans h)).1), fun e' s' h => ?_⟩
        obtain ⟨-, rfl⟩ := Prod.mk.inj (haccept.symm.trans h)
        exact ⟨given_eq_iff.mpr hgiven.2, rfl⟩
      · have hpublish := ((hsmooth request data hcheck).resolve_right fun h => h.1 hpasses).2
        rw [hpublish] at haccept
        refine ⟨fun u s' h => ?_, fun e s' h => (nomatch (Prod.mk.inj (haccept.symm.trans h)).1)⟩
        obtain ⟨-, rfl⟩ := Prod.mk.inj (haccept.symm.trans h)
        refine ⟨request, hmem, hid, hreq, ?_, ⟨data.2.1.id, hpool, ?_⟩, ?_⟩
        · rw [← hresource]
          exact exists_given data.2.1.id data.2.2.id hdata hlive
        · rw [← hresource, ← howner]
          exact given_assignedTo data.1.id data.2.1.id data.2.2.id s.resources
        · rw [← hid]
          exact (finishRequest_eq_ok hfinish).2.2

end AssignmentRequestController

/-! ## Runs -/

namespace AssignmentRequestController

open EmployeeController (State)

/-- A call that makes, answers, passes on or retires requests, with what it finds around it. -/
inductive RequestCall
  | createRequest (E : AssignmentController.Surroundings) (p : RequestParams)
  | accept (E : AssignmentController.Surroundings) (requestId : Uuid) (poolId ownerId : Option Uuid)
  | decline (E : AssignmentController.Surroundings) (requestId : Uuid)
  | cancel (E : AssignmentController.Surroundings) (requestId : Uuid)
  | assign (E : AssignmentController.Surroundings) (p : AssignmentController.Params)
  | deleteEmployee (E : EmployeeController.Surroundings) (itemId : Uuid) (newOwnerId userId : Option Uuid)
  | deletePool (E : PoolController.Surroundings) (itemId : Uuid) (allowRootDeletion : Bool)
  | reapplyClusters (R : RuleContext) (E : ClusterTypeApplyController.Surroundings)

/-- The state after a call, whether or not it is refused. -/
def RequestCall.after (O : OrganizationContext) (s : State) : RequestCall → State
  | createRequest E p => { s with store := (createAssignmentRequest E p s.store).2 }
  | accept E requestId poolId ownerId =>
    { s with store := (acceptAssignmentRequest E requestId poolId ownerId s.store).2 }
  | decline E requestId => { s with store := (declineAssignmentRequest E requestId s.store).2 }
  | cancel E requestId => { s with store := (cancelAssignmentRequest E requestId s.store).2 }
  | assign E p => { s with store := (AssignmentController.createAssignment E false p s.store).2 }
  | deleteEmployee E itemId newOwnerId userId =>
    (EmployeeController.delete E itemId true newOwnerId userId s).2
  | deletePool E itemId allowRootDeletion =>
    { s with store := (PoolController.deleteForResources E itemId allowRootDeletion s.store).2 }
  | reapplyClusters R E =>
    { s with store := (ClusterTypeApplyController.reapplyClusters O R E s.store).2 }

/-- The step of a run. -/
def requestStep (O : OrganizationContext) (s : State) (c : RequestCall) : Option State :=
  some (c.after O s)

/-- **Every call leaves a resource at most one live request.** -/
theorem RequestCall.atMostOne (O : OrganizationContext) {s : State} (c : RequestCall)
    (hs : AtMostOne s.store.requests) : AtMostOne (c.after O s).store.requests := by
  cases c with
  | createRequest E p => exact (createAssignmentRequest_oneRequest E p).apply hs
  | accept E requestId poolId ownerId =>
    exact (acceptAssignmentRequest_oneRequest E requestId poolId ownerId).apply hs
  | decline E requestId => exact (declineAssignmentRequest_oneRequest E requestId).apply hs
  | cancel E requestId => exact (cancelAssignmentRequest_oneRequest E requestId).apply hs
  | assign E p => exact (AssignmentController.createAssignment_oneRequest E false p).apply hs
  | deleteEmployee E itemId newOwnerId userId =>
    exact (EmployeeController.delete_oneRequest E itemId true newOwnerId userId).apply hs
  | deletePool E itemId allowRootDeletion =>
    exact (PoolController.deleteForResources_oneRequest E itemId allowRootDeletion).apply hs
  | reapplyClusters R E =>
    exact (ClusterTypeApplyController.reapplyClusters_oneRequest O R E).apply hs

/-- What is promised of a call: an acceptance is sound, and a direct assignment leaves no live request
of its resource. -/
def RequestCall.Kept (s : State) : RequestCall → Prop
  | accept E requestId poolId ownerId => AcceptSound E requestId poolId ownerId s.store
  | assign E p => ∀ u s', AssignmentController.createAssignment E false p s.store = (.ok u, s') →
      ∀ id, p.resourceId = some id → ∀ q ∈ s'.requests.rows, q.resourceId = id → q.deletedAt ≠ 0
  | _ => True

/-- An acceptance goes smoothly. -/
def RequestCall.Smooth (s : State) : RequestCall → Prop
  | accept E requestId poolId ownerId => AcceptSmooth E requestId poolId ownerId s.store
  | _ => True

/-- **Where requests are one by resource, a call keeps its promise exactly when it goes smoothly.** -/
theorem RequestCall.kept_iff {s : State} (hs : AtMostOne s.store.requests) (c : RequestCall) :
    c.Kept s ↔ c.Smooth s := by
  cases c with
  | accept E requestId poolId ownerId => exact acceptSound_iff E requestId poolId ownerId s.store
  | assign E p =>
    refine ⟨fun _ => trivial, fun _ u s' h id hid => ?_⟩
    exact AssignmentController.createAssignment_leaves_none hs h hid
  | _ => exact Iff.rfl

/-- **In every run** a resource never has two live requests, and every call keeps its promise exactly
when all acceptances go smoothly. -/
theorem requests_iff (O : OrganizationContext) (s : State) (calls : List RequestCall)
    (hs : AtMostOne s.store.requests) :
    Always (requestStep O) (fun s => AtMostOne s.store.requests) s calls ∧
      (Along (requestStep O) (fun s c _ => c.Kept s) s calls ↔
        Along (requestStep O) (fun s c _ => c.Smooth s) s calls) := by
  have halways : Always (requestStep O) (fun s => AtMostOne s.store.requests) s calls := by
    refine always_of_step (fun s c s' hs hstep => ?_) calls hs
    obtain rfl := Option.some.inj hstep
    exact c.atMostOne O hs
  have hiff : Along (requestStep O) (fun s c _ => c.Kept s ↔ c.Smooth s) s calls :=
    along_of_always (fun s c _ hs _ _ => c.kept_iff hs) halways
  refine ⟨halways, fun h => ?_, fun h => ?_⟩
  · exact (h.and hiff).mono fun _ _ _ h => h.2.mp h.1
  · exact (h.and hiff).mono fun _ _ _ h => h.2.mpr h.1

/-! ### A request that is made again -/

/-- A store with one resource, of the first employee. -/
def oneResource : State where
  employees := Table.empty
  organizations := Table.empty
  pools := Table.empty
  rules := Table.empty
  layouts := Table.empty
  emails := Table.empty
  constraints := Table.empty
  limitHits := Table.empty
  store :=
    { resources := ⟨[{ id := 1, poolId := some 5, employeeId := some 11 }], by decide⟩
      clusterTypes := Table.empty
      bookings := Table.empty
      requests := Table.empty
      constraints := Table.empty }

/-- An organization without data sources. -/
def noSources : OrganizationContext where
  organizationId := 0
  cloudAccounts := []
  encoding := ⟨fun s => s, fun s => s, fun _ => rfl⟩
  genId := .successor

/-- What a call of an employee finds at the hundredth second. -/
def calledBy (employeeId : Uuid) : AssignmentController.Surroundings where
  employee := .ok ⟨employeeId, "", employeeId⟩
  getEmployee id := some ⟨id, "", id⟩
  getEmployee_id id e he := by rw [← Option.some.inj he]
  getPool id := some { id, organizationId := 0 }
  getPool_id id p hp := by rw [← Option.some.inj hp]
  authorizeCurrentUser _ _ := true
  authorizeAnotherUser _ _ _ := .ok true
  publish _ := .ok ()
  now := ⟨100, by decide⟩

/-- A request is made, cancelled, made again and accepted within a second. -/
def requestedTwice : List RequestCall :=
  [.createRequest (calledBy 11) ⟨21, some 1, some 12⟩, .cancel (calledBy 11) 21,
    .createRequest (calledBy 11) ⟨22, some 1, some 12⟩, .accept (calledBy 12) 22 (some 6) none]

/-- **It fails, and the resource is gone**: both requests would have gone in one second. -/
theorem requestedTwice_fails :
    ¬ Along (requestStep noSources) (fun s c _ => c.Kept s) oneResource requestedTwice := by
  intro h
  have haccept := ((((h _ rfl).2 _ rfl).2 _ rfl).2 _ rfl).1
  have hunchanged := (haccept.2 _ _ rfl).1
  exact absurd (congrArg (fun t => t.rows.map Resource.poolId) hunchanged) (by decide)

/-- In the same run a resource never has two live requests. -/
theorem requestedTwice_iff :
    Always (requestStep noSources) (fun s => AtMostOne s.store.requests) oneResource requestedTwice ∧
      (Along (requestStep noSources) (fun s c _ => c.Kept s) oneResource requestedTwice ↔
        Along (requestStep noSources) (fun s c _ => c.Smooth s) oneResource requestedTwice) :=
  requests_iff noSources oneResource requestedTwice fun _ h => absurd h List.not_mem_nil

end AssignmentRequestController
