import OptScale.Bookings.Overlap
import OptScale.Clusters.Members
import OptScale.Resources.Sharing

/-!
# Clusters/Exclusion — a member of a cluster is not used on its own

Nobody shares, books, asks for or constrains a resource that is in a cluster: each of these calls
looks at `cluster_id` first, and a resource that enters a cluster in `reapply_clusters` loses what
was its own.  An environment is shareable from the start, and the code that saves it binds it to the
cluster its tags name.  So the exclusion holds in the runs in which no environment is bound
(`exclusive_of_unbound`), and fails where one is (`environment_bound_and_shareable`).
-/

open Fallible Resource Run ClusterTypeController

/-! ## Exclusion -/

/-- A live booking, a pending request or a live constraint is about the resource. -/
def Handled (s : Store) (id : Uuid) : Prop :=
  (∃ b ∈ s.bookings.rows, b.deletedAt = 0 ∧ b.resourceId = id) ∨
    (∃ q ∈ s.requests.rows, q.deletedAt = 0 ∧ q.status = .PENDING ∧ q.resourceId = id) ∨
    ∃ c ∈ s.constraints.rows, c.deletedAt = 0 ∧ c.resourceId = id

/-- **A live resource that is in a cluster** is not shareable, and nothing is about it alone. -/
def Exclusive (s : Store) : Prop :=
  ∀ r ∈ s.resources.rows, r.Live → r.clusterId.isSome → r.shareable = false ∧ ¬ Handled s r.id

/-- What is kept besides: what is about a resource is about one that is there, and the constraints
are those of the organization. -/
structure Excluded (O : OrganizationContext) (s : Store) : Prop where
  members : Members O s
  exclusive : Exclusive s
  known : ∀ id, Handled s id → id ∈ s.resources.rows.map Resource.id
  owned : ∀ c ∈ s.constraints.rows, c.deletedAt = 0 → c.organizationId = O.organizationId

namespace Excluded

variable {O : OrganizationContext} {s : Store}

/-! ### Resources are saved -/

/-- **Saving keeps the exclusion** unless a shareable resource is bound. -/
theorem changed (h : Excluded O s) {S : Saving} {t : Resources} (hold : S.old = s.resources)
    (hplace : S.cloudAccountId ∈ O.cloudAccounts) (happart : ¬ (S.shared ∧ S.binds))
    (hchanged : Changed O (listTypes s.clusterTypes O.organizationId) S t) :
    Excluded O { s with resources := t } where
  members := hchanged.consistent hplace (hold ▸ h.members)
  exclusive r hr hlive hcluster := by
    rcases hchanged.origin r hr with ⟨r₀, hr₀, hret⟩ | ⟨hnew, hfree⟩
    · obtain ⟨hshareable, hhandled⟩ := h.exclusive r₀ (hold ▸ hr₀) (hret.deletedAt.symm.trans hlive)
        (hret.clusterId ▸ hcluster)
      refine ⟨?_, fun hr' => hhandled (hret.id ▸ hr')⟩
      by_contra hs
      exact absurd (hret.shareable (by simpa using hs)) (by simp [hshareable])
    · refine ⟨?_, fun hr' => hnew (hold ▸ h.known r.id hr')⟩
      by_contra hs
      exact happart (hfree hcluster (by simpa using hs))
  known id hid := hchanged.id_mem (hold ▸ h.known id hid)
  owned := h.owned

/-- `save_bulk` of resources that are not bound while shareable. -/
theorem saveBulk (h : Excluded O s) (R : RuleContext) (K : CloudResourceController.Kind)
    (a : CloudResourceController.SaveBulkArgs)
    (happart : K.environment.isSome → ¬ CloudResourceController.BindsSome O K
      (listTypes s.clusterTypes O.organizationId) a s.resources) :
    Excluded O { s with resources := (CloudResourceController.saveBulk O R K
      (listTypes s.clusterTypes O.organizationId) a s.resources).2 } := by
  rcases CloudResourceController.saveBulk_changed R K a h.members with hsame | ⟨hplace, hchanged⟩
  · rw [hsame]
    exact h
  · exact h.changed rfl hplace (fun hboth => happart hboth.1 hboth.2) hchanged

/-! ### Something is created for one resource -/

/-- **Something more may be about a resource that is in no cluster.** -/
theorem handle (h : Excluded O s) {s' : Store} {r : Resource} (hr : r ∈ s.resources.rows)
    (hfree : r.clusterId = none) (hresources : s'.resources = s.resources)
    (htypes : s'.clusterTypes = s.clusterTypes)
    (hhandled : ∀ id, Handled s' id → Handled s id ∨ id = r.id)
    (howned : ∀ c ∈ s'.constraints.rows, c.deletedAt = 0 → c.organizationId = O.organizationId) :
    Excluded O s' where
  members := by
    rw [Members, hresources, htypes]
    exact h.members
  exclusive x hx hlive hcluster := by
    rw [hresources] at hx
    obtain ⟨hshareable, hout⟩ := h.exclusive x hx hlive hcluster
    refine ⟨hshareable, fun hx' => ?_⟩
    rcases hhandled x.id hx' with hold | hid
    · exact hout hold
    · rw [s.resources.eq_of_key hx hr hid, hfree] at hcluster
      exact nomatch hcluster
  known id hid := by
    rw [hresources]
    rcases hhandled id hid with hold | rfl
    · exact h.known id hold
    · exact List.mem_map_of_mem hr
  owned := howned

/-! ### Sharing -/

/-- **Resources that are in no cluster may become shareable, and any may cease to be.** -/
theorem share (h : Excluded O s) {s' : Store} {f : Resource → Resource}
    (hrows : s'.resources.rows = s.resources.rows.map f)
    (hf : ∀ r ∈ s.resources.rows, ∃ shareable, f r = { r with shareable } ∧
      (shareable → r.shareable ∨ r.clusterId = none))
    (htypes : s'.clusterTypes = s.clusterTypes) (hhandled : ∀ id, Handled s' id → Handled s id)
    (hconstraints : s'.constraints = s.constraints) : Excluded O s' where
  members := by
    rw [Members, htypes]
    refine h.members.apart hrows fun r hr => ?_
    obtain ⟨shareable, hfr, -⟩ := hf r hr
    exact ⟨shareable, r.active, hfr⟩
  exclusive := by
    rw [Exclusive, hrows]
    refine List.forall_mem_map.mpr fun r hr hlive hcluster => ?_
    obtain ⟨shareable, hfr, hfree⟩ := hf r hr
    rw [hfr] at hlive hcluster ⊢
    obtain ⟨hshareable, hout⟩ := h.exclusive r hr hlive hcluster
    refine ⟨?_, fun hr' => hout (hhandled r.id hr')⟩
    cases hs : shareable with
    | false => rfl
    | true =>
      rcases hfree hs with hold | hnone
      · rw [hshareable] at hold
        exact nomatch hold
      · rw [show r.clusterId = none from hnone] at hcluster
        exact nomatch hcluster
  known id hid := by
    have hids : (s.resources.rows.map f).map Resource.id = s.resources.rows.map Resource.id := by
      rw [List.map_map]
      refine List.map_congr_left fun r hr => ?_
      obtain ⟨shareable, hfr, -⟩ := hf r hr
      rw [Function.comp_apply, hfr]
    rw [hrows, hids]
    exact h.known id (hhandled id hid)
  owned := by
    rw [hconstraints]
    exact h.owned

end Excluded

/-! ## `reapply_clusters` -/

namespace ClusterTypeApplyController

variable {O : OrganizationContext} {s₀ s : Store} {stored : List (Entry × Resource)} {t : Resources}

/-- What is about a resource afterwards was so before, and the resource has not changed its
cluster. -/
theorem handled_settle (now : Timestamp) (howned : ∀ c ∈ s.constraints.rows, c.deletedAt = 0 →
      c.organizationId = O.organizationId) {id : Uuid} (h : Handled (settle O stored now s) id) :
    Handled s id ∧ id ∉ (newClustered stored).map (·.1.id) := by
  rcases h with ⟨b, hb, hlive, hid⟩ | ⟨q, hq, hlive, hpending, hid⟩ | ⟨c, hc, hlive, hid⟩
  · obtain ⟨b₀, hb₀, rfl⟩ := List.mem_map.mp hb
    split at hlive
    · exact absurd hlive now.2.ne'
    · rename_i hstays
      rw [if_neg hstays] at hid
      exact ⟨Or.inl ⟨b₀, hb₀, hlive, hid⟩, fun hmem => hstays (decide_eq_true ⟨hlive, hid ▸ hmem⟩)⟩
  · obtain ⟨q₀, hq₀, rfl⟩ := List.mem_map.mp hq
    split at hlive
    · exact absurd hlive now.2.ne'
    · rename_i hstays
      rw [if_neg hstays] at hid hpending
      exact ⟨Or.inr (Or.inl ⟨q₀, hq₀, hlive, hpending, hid⟩), fun hmem =>
        hstays (decide_eq_true ⟨hlive, hpending, hid ▸ hmem⟩)⟩
  · obtain ⟨hmem, hstays⟩ := Table.mem_deleteWhere.mp hc
    exact ⟨Or.inr (Or.inr ⟨c, hmem, hlive, hid⟩), fun hin =>
      of_decide_eq_false hstays ⟨hlive, howned c hmem hlive, hid ▸ hin⟩⟩

/-- **A resource that is in a cluster afterwards** was in the collection, and has entered or stayed
as `entered` says. -/
theorem settle_member_origin (now : Timestamp) {r : Resource}
    (hr : r ∈ (settle O stored now s).resources.rows) (hlive : r.Live)
    (hcluster : r.clusterId.isSome) :
    ∃ r₁ ∈ s.resources.rows, r = entered (newClustered stored) r₁ := by
  rw [show (settle O stored now s).resources = deleteEmptyClusters O now _ from rfl,
    deleteEmptyClusters_rows] at hr
  obtain ⟨r₃, hr₃, rfl⟩ := List.mem_map.mp hr
  obtain hsame : retired O now _ r₃ = r₃ := by
    rcases retired_cases now r₃ with hsame | ⟨-, -, hretired⟩
    · exact hsame
    · rw [hretired] at hlive
      exact absurd hlive now.2.ne'
  rw [hsame] at hcluster ⊢
  obtain ⟨r₂, hr₂, rfl⟩ := List.mem_map.mp hr₃
  split at hcluster
  · exact nomatch hcluster
  · rename_i hstays
    rw [if_neg hstays]
    rw [enterClusters_rows] at hr₂
    obtain ⟨r₁, hr₁, rfl⟩ := List.mem_map.mp hr₂
    exact ⟨r₁, hr₁, rfl⟩

/-- The ids of the collection stay. -/
theorem settle_ids (now : Timestamp) : (settle O stored now s).resources.rows.map Resource.id =
    s.resources.rows.map Resource.id := by
  rw [show (settle O stored now s).resources = deleteEmptyClusters O now _ from rfl,
    deleteEmptyClusters_rows, List.map_map]
  simp only [leaveClusters, Table.updateWhere, enterClusters_rows, List.map_map]
  refine List.map_congr_left fun r _ => ?_
  simp only [Function.comp_apply, retired_id]
  split <;> exact (entered_spec (newClustered stored) r).1

/-- **Whoever enters a cluster loses what was its own.** -/
theorem Settled.excluded {now : Timestamp} (h : Settled O now s₀ s) (hs₀ : Excluded O s₀) :
    Excluded O s := by
  have hmembers := (h.members hs₀.members).1
  obtain ⟨a, ha, stored, t, rfl, hstoring⟩ := h
  have hstored : Excluded O { s₀ with resources := t } :=
    hs₀.changed rfl ha (fun hboth => hboth.1) hstoring.changed
  refine ⟨hmembers, fun r hr hlive hcluster => ?_, fun id hid => ?_, fun c hc hlive => ?_⟩
  · obtain ⟨r₁, hr₁, rfl⟩ := settle_member_origin now hr hlive hcluster
    obtain ⟨hid, -, -, -, hdeleted, hcases⟩ := entered_spec (newClustered stored) r₁
    rcases hcases with ⟨hout, hsame⟩ | ⟨u, hu, huid, -, -, -, hshareable⟩
    · rw [hsame] at hlive hcluster ⊢
      obtain ⟨hshareable, hhandled⟩ := hstored.exclusive r₁ hr₁ hlive hcluster
      exact ⟨hshareable, fun h => hhandled (handled_settle now hstored.owned h).1⟩
    · constructor
      · obtain ⟨e, hp, hread, -⟩ := mem_newClustered.mp hu
        obtain ⟨hret, -, -⟩ := hstoring.retains hp hread hr₁ huid
        by_contra hs
        obtain ⟨hold, hnot⟩ := hshareable (by simpa using hs)
        exact absurd (hret.shareable hold) (by simp [hnot])
      · exact fun h => (handled_settle now hstored.owned h).2 (List.mem_map.mpr
          ⟨u, hu, huid.trans hid.symm⟩)
  · rw [settle_ids]
    exact hstored.known id (handled_settle now hstored.owned hid).1
  · exact hs₀.owned c (Table.mem_deleteWhere.mp hc).1 hlive

end ClusterTypeApplyController

/-! ## The calls that look at `cluster_id` -/

section Calls

variable {O : OrganizationContext} {s : Store}

/-- What `bulk_share` makes shareable is in no cluster. -/
theorem ShareableResourceBulkController.toShare_free (hs : Members O s) {ids : List Uuid}
    {r : Resource} (hr : r ∈ toShare O s.resources ids) : r.clusterId = none := by
  obtain ⟨hmem, hr⟩ := List.mem_filter.mp hr
  obtain ⟨-, -, hcan⟩ := of_decide_eq_true hr
  simp only [canBeShared, Bool.and_eq_true, Bool.or_eq_true, decide_eq_true_eq,
    Option.isNone_iff_eq_none] at hcan
  rcases hcan.2 with ⟨-, hfree⟩ | hcluster
  · exact hfree
  · exact (hs.sound r hmem).plain hcluster

/-- **Sharing in bulk keeps the exclusion.** -/
theorem ShareableResourceBulkController.bulkShare_keeps (ids : List Uuid)
    (email : Except Failure Unit) : (bulkShare O ids email).Keeps (Excluded O) := by
  unfold bulkShare
  refine .bind (.read _) fun answer => ?_
  refine Session.Triple.bind (Q := fun shareIds s => Excluded O s ∧
    shareIds = (toShare O s.resources ids).map Resource.id)
    (.read (fun s _ hs hok => ⟨hs, (Except.ok.inj hok).symm⟩) fun _ hs => hs) fun shareIds => ?_
  refine Session.Triple.bind (Q := fun _ s => Excluded O s ∧
    shareIds = (toShare O s.resources ids).map Resource.id)
    (.read (fun _ _ hs _ => hs) fun _ hs => hs.1) fun first => ?_
  refine Session.Triple.bind (Q := fun _ => Excluded O) (.commit ?_ fun _ hs => hs.1) fun _ =>
    Session.Keeps.bind (.read _) fun _ => .pure _
  rintro s _ s' ⟨hs, rfl⟩ hok
  obtain ⟨-, rfl⟩ := Prod.mk.inj (Except.ok.inj hok)
  refine hs.share rfl (fun r hr => ?_) rfl (fun _ h => h) rfl
  split
  · rename_i hin
    obtain ⟨r₀, hr₀, hid⟩ := List.mem_map.mp (of_decide_eq_true hin)
    obtain rfl := s.resources.eq_of_key (List.mem_of_mem_filter hr₀) hr hid
    exact ⟨true, rfl, fun _ => Or.inr (toShare_free hs.members hr₀)⟩
  · exact ⟨r.shareable, rfl, Or.inl⟩

/-- **Unsharing keeps the exclusion.** -/
theorem CloudResourceController.editShareable_keeps (itemId : Uuid) (shareable : Bool)
    (now : Timestamp) : (editShareable itemId shareable now).Keeps (Excluded O) := by
  unfold editShareable
  refine Session.Triple.bind (Q := fun _ s => shareable = false ∧ Excluded O s)
    (.read (fun s _ hs hok => ⟨require_eq_ok.mp hok, hs⟩) fun _ hs => hs) fun _ => .fact ?_
  rintro rfl
  refine Session.Keeps.bind (.read _) fun _ => .bind (.read _) fun _ =>
    .bind (.commit fun s _ s' hs hok => ?_) fun _ => .commit fun s _ s' hs hok => ?_
  · obtain ⟨bookings, hdelete, hok⟩ := bind_eq_ok.mp hok
    obtain ⟨-, rfl⟩ := Prod.mk.inj (pure_eq_ok.mp hok)
    obtain ⟨_, -, hdelete⟩ := bind_eq_ok.mp hdelete
    obtain rfl := pure_eq_ok.mp hdelete
    refine hs.share (List.map_id _).symm (fun r _ => ⟨r.shareable, rfl, Or.inl⟩) rfl ?_ rfl
    rintro id (⟨b, hb, hlive, hid⟩ | hrest)
    · obtain ⟨b₀, hb₀, rfl⟩ := List.mem_map.mp hb
      split at hlive
      · exact absurd hlive now.2.ne'
      · rename_i hstays
        rw [if_neg hstays] at hid
        exact Or.inl ⟨b₀, hb₀, hlive, hid⟩
    · exact Or.inr hrest
  · obtain ⟨-, rfl⟩ := Prod.mk.inj (Except.ok.inj hok)
    refine hs.share rfl (fun r _ => ?_) rfl (fun _ h => h) rfl
    split
    · exact ⟨false, rfl, nofun⟩
    · exact ⟨r.shareable, rfl, Or.inl⟩

/-- `create` of a booking, on the store. -/
def ShareableBookingController.createStored (env : Surroundings) (clock : Clock)
    (a : CreateArgs) : Session Store Failure Unit :=
  Session.commit fun s => do
    let bookings ← create { env with resource := s.resources.get? } clock s.bookings a
    pure ((), { s with bookings := bookings })

/-- What can be booked is in no cluster. -/
theorem ShareableBookingController.checkResourceParam_free (hs : Members O s) {env : Surroundings}
    (henv : env.resource = s.resources.get?) {organizationId resourceId : Uuid} {r : Resource}
    (h : checkResourceParam env organizationId resourceId = .ok r) :
    r ∈ s.resources.rows ∧ r.id = resourceId ∧ r.clusterId = none := by
  obtain ⟨found, hget, h⟩ := bind_eq_ok.mp h
  obtain ⟨found', hfound, hget⟩ := bind_eq_ok.mp hget
  obtain ⟨_, -, hget⟩ := bind_eq_ok.mp hget
  obtain rfl := pure_eq_ok.mp hget
  rw [orFail_eq_ok, henv, Table.get?_eq_some] at hfound
  split at h
  · rename_i hcluster
    obtain ⟨_, -, h⟩ := bind_eq_ok.mp h
    obtain rfl := pure_eq_ok.mp h
    exact ⟨hfound.1, hfound.2, (hs.sound _ hfound.1).plain hcluster⟩
  · obtain ⟨_, hcheck, h⟩ := bind_eq_ok.mp h
    obtain rfl := pure_eq_ok.mp h
    simp only [checkResource, bind_eq_ok, require_eq_ok] at hcheck
    obtain ⟨_, -, _, -, _, -, _, -, _, -, _, hfree, -⟩ := hcheck
    exact ⟨hfound.1, hfound.2, hfree⟩

/-- **Booking keeps the exclusion.** -/
theorem ShareableBookingController.createStored_keeps (env : Surroundings) (clock : Clock)
    (a : CreateArgs) : (createStored env clock a).Keeps (Excluded O) := by
  refine .commit fun s _ s' hs hok => ?_
  obtain ⟨bookings, hcreate, hok⟩ := bind_eq_ok.mp hok
  obtain ⟨-, rfl⟩ := Prod.mk.inj (pure_eq_ok.mp hok)
  obtain ⟨n, hrows, -, -, hresource, -⟩ := create_eq_ok hcreate
  obtain ⟨employee, hcheck, -⟩ := bind_eq_ok.mp hcreate
  simp only [checkCreate, bind_eq_ok] at hcheck
  obtain ⟨_, -, _, -, _, -, r, hparam, -⟩ := hcheck
  obtain ⟨hr, hid, hfree⟩ := checkResourceParam_free hs.members rfl hparam
  refine hs.handle hr hfree rfl rfl ?_ hs.owned
  rintro id (⟨b, hb, hlive, hbid⟩ | hrest)
  · rw [hrows] at hb
    rcases List.mem_append.mp hb with hb | hb
    · exact Or.inl (Or.inl ⟨b, hb, hlive, hbid⟩)
    · obtain rfl := List.mem_singleton.mp hb
      exact Or.inr (hbid.symm.trans (hresource.trans hid.symm))
  · exact Or.inl (Or.inr hrest)

/-- A request that is cancelled is not pending. -/
theorem AssignmentController.invalidateRequests_pending {E : Surroundings} {id : Uuid}
    {requests requests' : Table AssignmentRequest.id} {q : AssignmentRequest}
    (h : invalidateRequests E id requests = .ok requests') (hq : q ∈ requests'.rows) (hpending : q.status = .PENDING) :
    q ∈ requests.rows := by
  unfold invalidateRequests at h
  split at h
  · obtain rfl := Except.ok.inj h
    exact hq
  · obtain ⟨_, -, h⟩ := bind_eq_ok.mp h
    obtain rfl := pure_eq_ok.mp h
    obtain ⟨q₀, hq₀, rfl⟩ := List.mem_map.mp hq
    split at hpending
    · exact nomatch hpending
    · rename_i hstays
      rwa [if_neg hstays]

/-- **Asking for an assignment keeps the exclusion.** -/
theorem AssignmentRequestController.createAssignmentRequest_keeps
    (E : AssignmentController.Surroundings) (p : RequestParams) :
    (createAssignmentRequest E p).Keeps (Excluded O) := by
  unfold createAssignmentRequest
  refine .bind (.read _) fun employee => ?_
  refine Session.Triple.bind (Q := fun data s => Excluded O s ∧ data.1 ∈ s.resources.rows ∧
    data.1.clusterId = none) (.read (fun s data hs hok => ⟨hs, ?_⟩) fun _ hs => hs) fun data => ?_
  · obtain ⟨resource, hresource, hok⟩ := bind_eq_ok.mp hok
    obtain ⟨_, -, hok⟩ := bind_eq_ok.mp hok
    obtain ⟨_, -, hok⟩ := bind_eq_ok.mp hok
    obtain rfl := pure_eq_ok.mp hok
    obtain ⟨hmem, -, hfree⟩ := AssignmentController.freeResource_eq_ok hresource
    exact ⟨hmem, hfree⟩
  refine Session.Triple.bind (Q := fun _ s => Excluded O s ∧ data.1 ∈ s.resources.rows ∧
    data.1.clusterId = none) (.read (fun _ _ hs _ => hs) fun _ hs => hs.1) fun _ =>
    .commit ?_ fun _ hs => hs.1
  rintro s _ s' ⟨hs, hmem, hfree⟩ hok
  obtain ⟨remaining, hinvalidate, hok⟩ := bind_eq_ok.mp hok
  obtain ⟨_, -, hok⟩ := bind_eq_ok.mp hok
  obtain ⟨requests, hinsert, hok⟩ := bind_eq_ok.mp hok
  obtain ⟨-, rfl⟩ := Prod.mk.inj (pure_eq_ok.mp hok)
  obtain ⟨-, hrows⟩ := Table.insert?_eq_some.mp (orFail_eq_ok.mp hinsert)
  refine hs.handle hmem hfree rfl rfl ?_ hs.owned
  rintro id (hbooking | ⟨q, hq, hlive, hpending, hid⟩ | hconstraint)
  · exact Or.inl (Or.inl hbooking)
  · rw [hrows] at hq
    rcases List.mem_append.mp hq with hq | hq
    · exact Or.inl (Or.inr (Or.inl ⟨q, AssignmentController.invalidateRequests_pending hinvalidate hq hpending,
        hlive, hpending, hid⟩))
    · obtain rfl := List.mem_singleton.mp hq
      exact Or.inr hid.symm
  · exact Or.inl (Or.inr (Or.inr hconstraint))

/-- **Constraining a resource keeps the exclusion.** -/
theorem ResourceConstraintController.create_keeps (p : Params) (now : ℕ)
    (publish : String → Except Failure Unit) : (create O p now publish).Keeps (Excluded O) := by
  unfold create
  refine Session.Triple.bind (Q := fun r s => Excluded O s ∧ r ∈ s.resources.rows ∧
    r.id = p.resourceId ∧ r.clusterId = none)
    (.read (fun s r hs hok => ⟨hs, ?_⟩) fun _ hs => hs) fun r => ?_
  · obtain ⟨found, hfound, hok⟩ := bind_eq_ok.mp hok
    obtain ⟨_, -, hok⟩ := bind_eq_ok.mp hok
    obtain ⟨_, hfree, hok⟩ := bind_eq_ok.mp hok
    obtain rfl := pure_eq_ok.mp hok
    have hget := orFail_eq_ok.mp hfound
    rw [AssignmentController.getResource] at hget
    have hid : found.id = p.resourceId ∧ found.Live := by simpa using List.find?_some hget
    exact ⟨List.mem_of_find?_eq_some hget, hid.1, require_eq_ok.mp hfree⟩
  have hpass : ∀ {α : Type} (f : Store → Except Failure α),
      (Session.read f).Triple (fun s => Excluded O s ∧ r ∈ s.resources.rows ∧ r.id = p.resourceId ∧
        r.clusterId = none) (fun _ s => Excluded O s ∧ r ∈ s.resources.rows ∧ r.id = p.resourceId ∧
        r.clusterId = none) (Excluded O) := fun f => .read (fun _ _ hs _ => hs) fun _ hs => hs.1
  refine Session.Triple.bind (hpass _) fun type => Session.Triple.bind (hpass _) fun _ =>
    Session.Triple.bind (hpass _) fun limit => ?_
  refine Session.Triple.bind (Q := fun organizationId s => organizationId = O.organizationId ∧
    Excluded O s ∧ r ∈ s.resources.rows ∧ r.id = p.resourceId ∧ r.clusterId = none)
    (.read (fun s _ hs hok => ⟨?_, hs⟩) fun _ hs => hs.1) fun organizationId => .fact ?_
  · unfold getOrganizationIdFromEntity at hok
    split at hok
    · rename_i hcluster
      have horg := (hs.1.members.sound r hs.2.1).owned hcluster
      rw [orFail_eq_ok, horg] at hok
      exact (Option.some.inj hok).symm
    · obtain ⟨_, -, hok⟩ := bind_eq_ok.mp hok
      exact (pure_eq_ok.mp hok).symm
  rintro rfl
  refine Session.Triple.bind (Q := fun _ => Excluded O) (.commit ?_ fun _ hs => hs.1) fun _ =>
    .read (fun _ _ hs _ => hs) fun _ hs => hs
  rintro s _ s' ⟨hs, hmem, hid, hfree⟩ hok
  obtain ⟨constraints, hinsert, hok⟩ := bind_eq_ok.mp hok
  obtain ⟨-, rfl⟩ := Prod.mk.inj (pure_eq_ok.mp hok)
  obtain ⟨-, hrows⟩ := Table.insert?_eq_some.mp (orFail_eq_ok.mp hinsert)
  refine hs.handle hmem hfree rfl rfl ?_ ?_
  · rintro id (hbooking | hrequest | ⟨c, hc, hlive, hcid⟩)
    · exact Or.inl (Or.inl hbooking)
    · exact Or.inl (Or.inr (Or.inl hrequest))
    · rw [hrows] at hc
      rcases List.mem_append.mp hc with hc | hc
      · exact Or.inl (Or.inr (Or.inr ⟨c, hc, hlive, hcid⟩))
      · obtain rfl := List.mem_singleton.mp hc
        exact Or.inr (hcid.symm.trans hid.symm)
  · rw [hrows]
    exact List.forall_mem_append.mpr ⟨hs.owned, List.forall_mem_singleton.mpr fun _ => rfl⟩

end Calls

/-! ## Runs -/

namespace EnvironmentResourceController

/-- `create`, on the store. -/
def createStored (O : OrganizationContext) (R : RuleContext) (E : Surroundings) (p : Payload) :
    Session Store Failure Unit := do
  let types ← Session.read fun s => .ok (listTypes s.clusterTypes O.organizationId)
  Session.within Store.resources (fun t s => { s with resources := t }) (create O R E types p)

/-- **The environment is not put into a cluster**: it is bound neither by its tags nor by what is
stored under its name and type. -/
def Unbound (O : OrganizationContext) (E : Surroundings) (p : Payload) (s : Store) : Prop :=
  ∀ accountId, E.environmentAccount = .ok accountId →
    ¬ CloudResourceController.BindsSome O (kind E) (listTypes s.clusterTypes O.organizationId)
      (saveBulkArgs E accountId p) s.resources

/-- **An environment that is not bound keeps the exclusion.** -/
theorem createStored_excluded {O : OrganizationContext} {R : RuleContext} {E : Surroundings}
    {p : Payload} {s s' : Store} {u : Unit} (hs : Excluded O s) (hunbound : Unbound O E p s)
    (h : createStored O R E p s = (.ok u, s')) : Excluded O s' := by
  obtain ⟨types, s₁, hread, h⟩ := Session.bind_eq_ok.mp h
  obtain ⟨htypes, rfl⟩ := Session.read_eq_ok.mp hread
  obtain rfl := Except.ok.inj htypes
  obtain ⟨hcreate, rfl⟩ := Prod.mk.inj h
  generalize hrun : create O R E (listTypes s.clusterTypes O.organizationId) p s.resources = out
    at hcreate
  obtain ⟨r, t⟩ := out
  obtain rfl : r = .ok u := hcreate
  obtain ⟨_, t₁, hread, hrun⟩ := Session.bind_eq_ok.mp hrun
  obtain ⟨-, rfl⟩ := Session.read_eq_ok.mp hread
  obtain ⟨accountId, t₁, hread, hrun⟩ := Session.bind_eq_ok.mp hrun
  obtain ⟨haccount, rfl⟩ := Session.read_eq_ok.mp hread
  obtain ⟨_, t₁, hread, hrun⟩ := Session.bind_eq_ok.mp hrun
  obtain ⟨-, rfl⟩ := Session.read_eq_ok.mp hread
  obtain ⟨_, t₁, hsave, hrun⟩ := Session.bind_eq_ok.mp hrun
  obtain ⟨-, rfl⟩ := Session.read_eq_ok.mp hrun
  have := hs.saveBulk R (kind E) (saveBulkArgs E accountId p) fun _ => hunbound accountId haccount
  rw [hsave] at this
  exact this

end EnvironmentResourceController

namespace ClusterTypeController

/-- A call, with what it finds around it. -/
inductive HandlingCall
  /-- Discovery and report import. -/
  | saveBulk (R : RuleContext) (a : CloudResourceController.SaveBulkArgs)
  | createEnvironment (R : RuleContext) (E : EnvironmentResourceController.Surroundings)
      (p : Payload)
  | reapplyClusters (R : RuleContext) (E : ClusterTypeApplyController.Surroundings)
  | bulkShare (resourceIds : List Uuid) (email : Except Failure Unit)
  | editShareable (itemId : Uuid) (shareable : Bool) (now : Timestamp)
  | createBooking (env : Surroundings) (clock : ShareableBookingController.Clock)
      (a : ShareableBookingController.CreateArgs)
  | createAssignmentRequest (E : AssignmentController.Surroundings)
      (p : AssignmentRequestController.RequestParams)
  | createConstraint (p : ResourceConstraintController.Params) (now : ℕ)
      (publish : String → Except Failure Unit)

/-- The store after a call that goes through. -/
def handlingStep (O : OrganizationContext) (s : Store) (c : HandlingCall) : Option Store :=
  let after {α : Type} (x : Session Store Failure α) : Option Store :=
    match x s with
    | (.ok _, s') => some s'
    | (.error _, _) => none
  match c with
  | .saveBulk R a => after (CloudResourceController.saveBulkStored O R {} a)
  | .createEnvironment R E p => after (EnvironmentResourceController.createStored O R E p)
  | .reapplyClusters R E => after (ClusterTypeApplyController.reapplyClusters O R E)
  | .bulkShare ids email => after (ShareableResourceBulkController.bulkShare O ids email)
  | .editShareable itemId shareable now =>
    after (CloudResourceController.editShareable itemId shareable now)
  | .createBooking env clock a => after (ShareableBookingController.createStored env clock a)
  | .createAssignmentRequest E p =>
    after (AssignmentRequestController.createAssignmentRequest E p)
  | .createConstraint p now publish => after (ResourceConstraintController.create O p now publish)

/-- **No environment is bound to a cluster** when it is created. -/
def HandlingCall.Unbound (O : OrganizationContext) (s : Store) : HandlingCall → Prop
  | .createEnvironment _ E p => EnvironmentResourceController.Unbound O E p s
  | _ => True

/-- What a call that goes through leaves. -/
theorem after_eq_some {α : Type} {x : Session Store Failure α} {s s' : Store}
    (h : (match x s with
      | (.ok _, s') => some s'
      | (.error _, _) => none) = some s') : ∃ a, x s = (.ok a, s') := by
  cases hx : x s with
  | mk r t =>
    cases r with
    | ok a =>
      rw [hx] at h
      exact ⟨a, by rw [← Option.some.inj h]⟩
    | error e =>
      rw [hx] at h
      exact nomatch h

/-- **A call keeps the exclusion** if it does not bind an environment. -/
theorem HandlingCall.excluded {O : OrganizationContext} {s s' : Store} (c : HandlingCall)
    (hs : Excluded O s) (hunbound : c.Unbound O s) (h : handlingStep O s c = some s') :
    Excluded O s' := by
  cases c with
  | saveBulk R a =>
    obtain ⟨_, h⟩ := after_eq_some h
    have := hs.saveBulk R {} a nofun
    rw [← CloudResourceController.saveBulkStored_apply, h] at this
    exact this
  | createEnvironment R E p =>
    obtain ⟨_, h⟩ := after_eq_some h
    exact EnvironmentResourceController.createStored_excluded hs hunbound h
  | reapplyClusters R E =>
    obtain ⟨_, h⟩ := after_eq_some h
    rcases (ClusterTypeApplyController.reapplyClusters_triple (R := R) E hs.members).ok rfl h with
      ⟨-, rfl⟩ | hsettled
    · exact hs
    · exact hsettled.excluded hs
  | bulkShare ids email =>
    obtain ⟨_, h⟩ := after_eq_some h
    exact (ShareableResourceBulkController.bulkShare_keeps ids email).ok hs h
  | editShareable itemId shareable now =>
    obtain ⟨_, h⟩ := after_eq_some h
    exact (CloudResourceController.editShareable_keeps itemId shareable now).ok hs h
  | createBooking env clock a =>
    obtain ⟨_, h⟩ := after_eq_some h
    exact (ShareableBookingController.createStored_keeps env clock a).ok hs h
  | createAssignmentRequest E p =>
    obtain ⟨_, h⟩ := after_eq_some h
    exact (AssignmentRequestController.createAssignmentRequest_keeps E p).ok hs h
  | createConstraint p now publish =>
    obtain ⟨_, h⟩ := after_eq_some h
    exact (ResourceConstraintController.create_keeps p now publish).ok hs h

/-- A store with cluster types, and nothing else. -/
def freshStore (clusterTypes : Table ClusterType.id) : Store where
  resources := Table.empty
  clusterTypes := clusterTypes
  bookings := Table.empty
  requests := Table.empty
  constraints := Table.empty

theorem freshStore_excluded (O : OrganizationContext) (clusterTypes : Table ClusterType.id) :
    Excluded O (freshStore clusterTypes) where
  members := ⟨fun _ h => absurd h List.not_mem_nil, follows_nil⟩
  exclusive _ h := absurd h List.not_mem_nil
  known _ h := by
    rcases h with ⟨_, h, -⟩ | ⟨_, h, -⟩ | ⟨_, h, -⟩ <;> exact absurd h List.not_mem_nil
  owned _ h := absurd h List.not_mem_nil

/-- **In every run in which no environment is bound** when it is created, a live resource that is in
a cluster is never shareable, and has no live booking, no pending request and no live constraint. -/
theorem exclusive_of_unbound (O : OrganizationContext) (clusterTypes : Table ClusterType.id)
    (calls : List HandlingCall)
    (hunbound : Along (handlingStep O) (fun s c _ => c.Unbound O s) (freshStore clusterTypes)
      calls) :
    Always (handlingStep O) Exclusive (freshStore clusterTypes) calls := by
  have hrun : ∀ s, Excluded O s → Along (handlingStep O) (fun s c _ => c.Unbound O s) s calls →
      Always (handlingStep O) Exclusive s calls := by
    clear hunbound
    induction calls with
    | nil => exact fun s hs _ => hs.exclusive
    | cons c calls ih =>
      intro s hs hunbound
      refine ⟨hs.exclusive, fun s' hs' => ?_⟩
      obtain ⟨hc, hrest⟩ := hunbound s' hs'
      exact ih s' (c.excluded hs hc hs') hrest
  exact hrun _ (freshStore_excluded O clusterTypes) hunbound

/-! ### An environment is bound -/

/-- An organization with one data source. -/
def oneSource : OrganizationContext where
  organizationId := 1
  cloudAccounts := [2]
  encoding := ⟨fun s => s, fun s => s, fun _ => rfl⟩
  genId := .successor

/-- No rules: everything goes to the root pool. -/
def rootOnly : RuleContext where
  rules := []
  ruleMatches _ _ := false
  allowedPools _ := []
  rootPool := some { id := 3, organizationId := 1, defaultOwnerId := some 4 }

/-- One cluster type, for the tag key `tn`. -/
def oneType : Table ClusterType.id where
  rows := [{ id := 5, name := "ct", tagKey := "tn", priority := 1, organizationId := 1 }]
  nodup := List.nodup_singleton _

/-- Environments go to the one data source. -/
def environments : EnvironmentResourceController.Surroundings where
  organization := .ok ()
  environmentAccount := .ok 2
  genCloudResourceId _ _ := "environment"
  announce := .ok ()
  now := 6

/-- An environment with tags. -/
def stand (tags : Option Tags) : Payload where
  resourceType := "stand"
  name := some "qa"
  tags := tags

/-- **An environment with the tag `tn` is in a cluster, and shareable**, once it is created. -/
theorem environment_bound_and_shareable :
    ¬ ∀ (O : OrganizationContext) (clusterTypes : Table ClusterType.id) (calls : List HandlingCall),
      Always (handlingStep O) Exclusive (freshStore clusterTypes) calls := by
  intro hclaim
  have hbound : (handlingStep oneSource (freshStore oneType)
      (.createEnvironment rootOnly environments (stand (some [("tn", "tv")])))).any fun s =>
        s.resources.rows.any fun r => r.deletedAt = 0 ∧ r.clusterId.isSome ∧ r.shareable := by
    decide +kernel
  obtain ⟨s, hs, hany⟩ := (Option.any_eq_true _ _).mp hbound
  obtain ⟨r, hr, hbad⟩ := List.any_eq_true.mp hany
  obtain ⟨hlive, hcluster, hshareable⟩ := of_decide_eq_true hbad
  have hexclusive := ((hclaim oneSource oneType [_]).2 s hs) r hr hlive hcluster
  rw [hexclusive.1] at hshareable
  exact nomatch hshareable

/-- Without tags it is in no cluster, and is so after the clusters are applied. -/
theorem exclusive_of_untagged : Always (handlingStep oneSource) Exclusive (freshStore oneType)
    [.createEnvironment rootOnly environments (stand none),
      .reapplyClusters rootOnly ⟨.ok (), fun _ => .ok (), ⟨7, by decide⟩⟩] := by
  refine exclusive_of_unbound oneSource oneType _ fun s _ => ⟨?_, fun s' _ => ⟨trivial, trivial⟩⟩
  rintro accountId - ⟨resources, hresources, p, hp, uniqueId, -, hbinds⟩
  obtain rfl := Except.ok.inj hresources
  obtain rfl := List.mem_singleton.mp hp
  exact nomatch (show false = true from hbinds)

end ClusterTypeController
