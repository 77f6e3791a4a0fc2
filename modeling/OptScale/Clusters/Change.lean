import OptScale.Foundations.Followers
import OptScale.Resources.Store

/-!
# Clusters/Change — how the collection changes while resources are saved

A cluster leads, its members follow: a document with a `cluster_id` refers to a cluster, and a live
one agrees with a live cluster on pool and owner (`Consistent`).  Saving resources changes the
collection in four ways only: documents are brought up to date, a cluster is added, a resource is
added under its cluster, and resources that were added are taken back (`Change`).  Each of them
keeps the collection consistent, and a document that was there from the start keeps its place.
-/

/-! ## Clusters and members -/

namespace Resource

/-- The document is a cluster: it has a `cluster_type_id`. -/
abbrev IsCluster (r : Resource) : Prop := r.clusterTypeId.isSome

/-- The document is in the cluster `c`. -/
abbrev RefersTo (r : Resource) (c : Uuid) : Prop := r.clusterId = some c

/-- A live member has a live cluster with its pool and its owner. -/
def Agrees (k r : Resource) : Prop :=
  r.Live → k.Live ∧ k.poolId = r.poolId ∧ k.employeeId = r.employeeId

/-- The document after a change that leaves it its place: it is in the same cluster, with the same
assignment, and not shareable if it was not. -/
structure Retains (r r' : Resource) : Prop where
  id : r'.id = r.id
  clusterId : r'.clusterId = r.clusterId
  clusterTypeId : r'.clusterTypeId = r.clusterTypeId
  cloudAccountId : r'.cloudAccountId = r.cloudAccountId
  organizationId : r'.organizationId = r.organizationId
  poolId : r'.poolId = r.poolId
  employeeId : r'.employeeId = r.employeeId
  deletedAt : r'.deletedAt = r.deletedAt
  shareable : r'.shareable → r.shareable

theorem Retains.refl (r : Resource) : Retains r r :=
  ⟨rfl, rfl, rfl, rfl, rfl, rfl, rfl, rfl, fun h => h⟩

theorem Retains.trans {r s t : Resource} (h : Retains r s) (h' : Retains s t) : Retains r t where
  id := h'.id.trans h.id
  clusterId := h'.clusterId.trans h.clusterId
  clusterTypeId := h'.clusterTypeId.trans h.clusterTypeId
  cloudAccountId := h'.cloudAccountId.trans h.cloudAccountId
  organizationId := h'.organizationId.trans h.organizationId
  poolId := h'.poolId.trans h.poolId
  employeeId := h'.employeeId.trans h.employeeId
  deletedAt := h'.deletedAt.trans h.deletedAt
  shareable hs := h.shareable (h'.shareable hs)

/-- **Agreement is about what is retained.** -/
theorem Agrees.of_retains {k k' r r' : Resource} (h : Agrees k r) (hk : Retains k k')
    (hr : Retains r r') : Agrees k' r' := by
  intro hlive
  obtain ⟨hklive, hpool, howner⟩ := h (hr.deletedAt.symm.trans hlive)
  exact ⟨hk.deletedAt.trans hklive, by rw [hk.poolId, hr.poolId, hpool],
    by rw [hk.employeeId, hr.employeeId, howner]⟩

end Resource

open Resource

/-- The reference of `r` to `c` is to a cluster among `rows` that `r` agrees with. -/
abbrev LedBy (rows : List Resource) : Resource → Uuid → Prop := Led Resource.id IsCluster Agrees rows

/-- A document that is what it says it is: a live cluster has a live type, a cluster is in no
cluster and belongs to the organization, which has a data source; any other resource belongs to a
data source. -/
structure Sound (O : OrganizationContext) (types : List ClusterType) (r : Resource) : Prop where
  typed : r.Live → ∀ t, r.clusterTypeId = some t → ∃ clusterType ∈ types, clusterType.id = t
  plain : r.IsCluster → r.clusterId = none
  owned : r.IsCluster → r.organizationId = some O.organizationId
  sourced : r.IsCluster → O.cloudAccounts ≠ []
  placed : ¬ r.IsCluster → ∃ a ∈ O.cloudAccounts, r.cloudAccountId = some a

/-- **Soundness carries over** to a document of the same kind and place that is live only if it was,
and in a cluster only if it is not one. -/
theorem Sound.of_same {O : OrganizationContext} {types : List ClusterType} {r r' : Resource}
    (h : Sound O types r) (htype : r'.clusterTypeId = r.clusterTypeId)
    (hplace : r'.cloudAccountId = r.cloudAccountId) (horg : r'.organizationId = r.organizationId)
    (hlive : r'.Live → r.Live) (hcluster : r.IsCluster → r.clusterId = none → r'.clusterId = none) :
    Sound O types r' := by
  have hkind : r'.IsCluster ↔ r.IsCluster := by rw [IsCluster, htype]
  constructor
  · exact fun hr' t ht => h.typed (hlive hr') t (htype.symm.trans ht)
  · exact fun hr' => hcluster (hkind.mp hr') (h.plain (hkind.mp hr'))
  · exact fun hr' => horg.trans (h.owned (hkind.mp hr'))
  · exact fun hr' => h.sourced (hkind.mp hr')
  · intro hr'
    obtain ⟨a, ha, haccount⟩ := h.placed fun hr => hr' (hkind.mpr hr)
    exact ⟨a, ha, hplace.trans haccount⟩

theorem Sound.of_retains {O : OrganizationContext} {types : List ClusterType} {r r' : Resource}
    (h : Sound O types r) (hr : Retains r r') : Sound O types r' :=
  h.of_same hr.clusterTypeId hr.cloudAccountId hr.organizationId
    (fun hlive => hr.deletedAt.symm.trans hlive) fun _ hnone => hr.clusterId.trans hnone

/-- **The collection is consistent**: its documents are sound, and members follow their clusters. -/
structure Consistent (O : OrganizationContext) (types : List ClusterType) (t : Resources) :
    Prop where
  sound : ∀ r ∈ t.rows, Sound O types r
  follows : Follows Resource.id IsCluster RefersTo Agrees t.rows

namespace Resources

variable {O : OrganizationContext} {types : List ClusterType} {t : Resources}

/-- A document that somebody refers to is a cluster. -/
theorem isCluster_of_refersTo (h : Consistent O types t) {r k : Resource} (hr : r ∈ t.rows)
    (hk : k ∈ t.rows) (href : r.RefersTo k.id) : k.IsCluster := by
  obtain ⟨k', hk', hcluster, hid, -⟩ := h.follows r hr k.id href
  rwa [t.eq_of_key hk hk' hid.symm]

/-- A member is not a cluster. -/
theorem not_isCluster_of_refersTo (h : Consistent O types t) {r : Resource} (hr : r ∈ t.rows)
    {c : Uuid} (href : r.RefersTo c) : ¬ r.IsCluster := fun hcluster => by
  rw [RefersTo, (h.sound r hr).plain hcluster] at href
  exact nomatch href

end Resources

/-! ## Changes -/

section Change

variable (O : OrganizationContext) (types : List ClusterType)

/-- What a call that saves resources is about. -/
structure Saving where
  /-- The data source of the resources. -/
  cloudAccountId : Uuid
  /-- The documents that were there from the start. -/
  old : Resources
  /-- The resources are shareable. -/
  shared : Prop
  /-- Some of the resources are put into clusters. -/
  binds : Prop

/-- One change of the collection by the call. -/
inductive Change (S : Saving) : Resources → Resources → Prop
  /-- Documents are brought up to date. -/
  | update {t t' : Resources} (f : Resource → Resource) (hrows : t'.rows = t.rows.map f)
      (hf : ∀ r ∈ t.rows, Retains r (f r)) : Change S t t'
  /-- A cluster is added. -/
  | cluster {t t' : Resources} (d : Resource) (hrows : t'.rows = t.rows ++ [d])
      (hnew : d.id ∉ S.old.rows.map Resource.id) (hcluster : d.IsCluster)
      (hsound : Sound O types d) : Change S t t'
  /-- A resource is added, under its cluster if it has one. -/
  | resource {t t' : Resources} (d : Resource) (hrows : t'.rows = t.rows ++ [d])
      (hnew : d.id ∉ S.old.rows.map Resource.id) (hplain : ¬ d.IsCluster)
      (hplace : d.cloudAccountId = some S.cloudAccountId)
      (hled : ∀ c, d.RefersTo c → LedBy t.rows d c) (hshared : d.shareable → S.shared)
      (hbinds : d.clusterId.isSome → S.binds) : Change S t t'
  /-- Resources that were added are taken back. -/
  | discard {t t' : Resources} (p : Resource → Bool) (hrows : t'.rows = t.rows.filter p)
      (hp : ∀ r ∈ t.rows, r.IsCluster ∨ r.id ∈ S.old.rows.map Resource.id → p r) : Change S t t'

variable {O types} {S : Saving} {t t' : Resources}

/-- **Clusters persist**, with their assignment, and so do the documents that were there. -/
theorem Change.persists (h : Change O types S t t') {k : Resource} (hk : k ∈ t.rows)
    (hstays : k.IsCluster ∨ k.id ∈ S.old.rows.map Resource.id) :
    ∃ k' ∈ t'.rows, Retains k k' := by
  cases h with
  | update f hrows hf => exact ⟨f k, hrows ▸ List.mem_map_of_mem hk, hf k hk⟩
  | cluster d hrows => exact ⟨k, hrows ▸ List.mem_append_left _ hk, .refl k⟩
  | resource d hrows => exact ⟨k, hrows ▸ List.mem_append_left _ hk, .refl k⟩
  | discard p hrows hp =>
    exact ⟨k, hrows ▸ List.mem_filter.mpr ⟨hk, hp k hk hstays⟩, .refl k⟩

/-- A leader leads on. -/
theorem Change.led (h : Change O types S t t') {r : Resource} {c : Uuid}
    (hled : LedBy t.rows r c) : LedBy t'.rows r c := by
  obtain ⟨k, hk, hcluster, rfl, hagrees⟩ := hled
  obtain ⟨k', hk', hret⟩ := h.persists hk (Or.inl hcluster)
  exact ⟨k', hk', by rwa [IsCluster, hret.clusterTypeId], hret.id, hagrees.of_retains hret (.refl r)⟩

/-- **Every change keeps the collection consistent.** -/
theorem Change.consistent (hplace : S.cloudAccountId ∈ O.cloudAccounts)
    (h : Change O types S t t') (ht : Consistent O types t) : Consistent O types t' := by
  cases h with
  | update f hrows hf =>
    refine ⟨?_, ?_⟩
    · rw [hrows]
      refine List.forall_mem_map.mpr fun r hr => ?_
      exact (ht.sound r hr).of_retains (hf r hr)
    · rw [hrows]
      refine ht.follows.map (fun r hr => (hf r hr).id) ?_ ?_
      · intro r hr c hc
        exact (hf r hr).clusterId.symm.trans hc
      · intro r hr k hk _ hcluster hagrees
        exact ⟨by rwa [IsCluster, (hf k hk).clusterTypeId], hagrees.of_retains (hf k hk) (hf r hr)⟩
  | cluster d hrows _ hcluster hsound =>
    refine ⟨?_, ?_⟩
    · rw [hrows]
      exact List.forall_mem_append.mpr ⟨ht.sound, List.forall_mem_singleton.mpr hsound⟩
    · rw [hrows]
      refine ht.follows.add fun c hc => ?_
      rw [RefersTo, hsound.plain hcluster] at hc
      exact nomatch hc
  | resource d hrows _ hplain haccount hled =>
    refine ⟨?_, ?_⟩
    · rw [hrows]
      refine List.forall_mem_append.mpr ⟨ht.sound, List.forall_mem_singleton.mpr ?_⟩
      exact ⟨fun _ c hc => absurd (by rw [IsCluster, hc]; rfl) hplain, fun h => absurd h hplain,
        fun h => absurd h hplain, fun h => absurd h hplain, fun _ => ⟨_, hplace, haccount⟩⟩
    · rw [hrows]
      exact ht.follows.add hled
  | discard p hrows hp =>
    refine ⟨?_, ?_⟩
    · rw [hrows]
      exact fun r hr => ht.sound r (List.mem_of_mem_filter hr)
    · rw [hrows]
      exact ht.follows.filter fun k hk hcluster => hp k hk (Or.inl hcluster)

/-! ## All changes of a call -/

/-- The collection is one the call can lead to. -/
abbrev Changed (O : OrganizationContext) (types : List ClusterType) (S : Saving) (t : Resources) :
    Prop := Relation.ReflTransGen (Change O types S) S.old t

theorem Changed.consistent (hplace : S.cloudAccountId ∈ O.cloudAccounts)
    (h : Changed O types S t) (hold : Consistent O types S.old) : Consistent O types t := by
  induction h with
  | refl => exact hold
  | tail _ hchange ih => exact hchange.consistent hplace ih

/-- **What was there is there**, in its place. -/
theorem Changed.persists (h : Changed O types S t) {r : Resource} (hr : r ∈ S.old.rows) :
    ∃ r' ∈ t.rows, Retains r r' := by
  induction h with
  | refl => exact ⟨r, hr, .refl r⟩
  | tail _ hchange ih =>
    obtain ⟨r', hr', hret⟩ := ih
    have hknown : r'.id ∈ S.old.rows.map Resource.id := hret.id ▸ List.mem_map_of_mem hr
    obtain ⟨r'', hr'', hret'⟩ := hchange.persists hr' (Or.inr hknown)
    exact ⟨r'', hr'', hret.trans hret'⟩

theorem Changed.id_mem (h : Changed O types S t) {id : Uuid}
    (hid : id ∈ S.old.rows.map Resource.id) : id ∈ t.rows.map Resource.id := by
  obtain ⟨r, hr, rfl⟩ := List.mem_map.mp hid
  obtain ⟨r', hr', hret⟩ := h.persists hr
  exact hret.id ▸ List.mem_map_of_mem hr'

/-- What a document of the collection can be: one that was there, in its place, or a new one. -/
def Origin (S : Saving) (r : Resource) : Prop :=
  (∃ r₀ ∈ S.old.rows, Retains r₀ r) ∨
    r.id ∉ S.old.rows.map Resource.id ∧ (r.clusterId.isSome → r.shareable → S.shared ∧ S.binds)

/-- **Every document of the collection** was there, or is new and has not been in a cluster and
shareable unless the call makes it so. -/
theorem Changed.origin (h : Changed O types S t) : ∀ r ∈ t.rows, Origin S r := by
  induction h with
  | refl => exact fun r hr => Or.inl ⟨r, hr, .refl r⟩
  | tail _ hchange ih =>
    cases hchange with
    | update f hrows hf =>
      rw [hrows]
      refine List.forall_mem_map.mpr fun r hr => ?_
      have hret : Retains r (f r) := hf r hr
      obtain ⟨r₀, hr₀, hret₀⟩ | ⟨hnew, hfree⟩ := ih r hr
      · exact Or.inl ⟨r₀, hr₀, hret₀.trans hret⟩
      · exact Or.inr ⟨hret.id ▸ hnew, fun hc hs => hfree (hret.clusterId ▸ hc) (hret.shareable hs)⟩
    | cluster d hrows hnew hcluster hsound =>
      rw [hrows]
      refine List.forall_mem_append.mpr ⟨ih, List.forall_mem_singleton.mpr (Or.inr ⟨hnew, ?_⟩)⟩
      rw [hsound.plain hcluster]
      exact fun h => nomatch h
    | resource d hrows hnew _ _ _ hshared hbinds =>
      rw [hrows]
      exact List.forall_mem_append.mpr ⟨ih, List.forall_mem_singleton.mpr
        (Or.inr ⟨hnew, fun hc hs => ⟨hshared hs, hbinds hc⟩⟩)⟩
    | discard p hrows =>
      rw [hrows]
      exact fun r hr => ih r (List.mem_of_mem_filter hr)

end Change
