import OptScale.Clusters.Change

/-!
# Clusters/Keeping — changes of many documents that keep the collection consistent

Apart from saving resources, four things happen to stored documents: they are given to another pool
or owner, clusters and members alike (`Consistent.reassign`); they leave their clusters
(`Consistent.leave`); they join a cluster with its assignment (`Consistent.join`); and a cluster
nobody refers to is deleted (`Consistent.retire`).
-/

open Resource

namespace Resource

/-- The document after a change of its assignment. -/
structure Stays (r r' : Resource) : Prop where
  id : r'.id = r.id
  clusterId : r'.clusterId = r.clusterId
  clusterTypeId : r'.clusterTypeId = r.clusterTypeId
  cloudAccountId : r'.cloudAccountId = r.cloudAccountId
  organizationId : r'.organizationId = r.organizationId
  deletedAt : r'.deletedAt = r.deletedAt
  shareable : r'.shareable = r.shareable

theorem Stays.refl (r : Resource) : Stays r r := ⟨rfl, rfl, rfl, rfl, rfl, rfl, rfl⟩

theorem Stays.trans {r s t : Resource} (h : Stays r s) (h' : Stays s t) : Stays r t where
  id := h'.id.trans h.id
  clusterId := h'.clusterId.trans h.clusterId
  clusterTypeId := h'.clusterTypeId.trans h.clusterTypeId
  cloudAccountId := h'.cloudAccountId.trans h.cloudAccountId
  organizationId := h'.organizationId.trans h.organizationId
  deletedAt := h'.deletedAt.trans h.deletedAt
  shareable := h'.shareable.trans h.shareable

end Resource

variable {O : OrganizationContext} {types types' : List ClusterType} {t t' : Resources}

/-- **Everything is given anew**: where a member has what its cluster has, it gets what its cluster
gets. -/
theorem Consistent.reassign (h : Consistent O types t) {f : Resource → Resource}
    (hrows : t'.rows = t.rows.map f) (hstays : ∀ r ∈ t.rows, Stays r (f r))
    (huniform : ∀ r ∈ t.rows, ∀ k ∈ t.rows, r.RefersTo k.id → k.IsCluster → r.Live → k.Live →
      k.poolId = r.poolId → k.employeeId = r.employeeId →
      (f k).poolId = (f r).poolId ∧ (f k).employeeId = (f r).employeeId) :
    Consistent O types t' := by
  refine ⟨?_, ?_⟩
  · rw [hrows]
    refine List.forall_mem_map.mpr fun r hr => ?_
    have hsame := hstays r hr
    exact (h.sound r hr).of_same hsame.clusterTypeId hsame.cloudAccountId hsame.organizationId
      (fun hlive => hsame.deletedAt.symm.trans hlive) fun _ hnone => hsame.clusterId.trans hnone
  · rw [hrows]
    refine h.follows.map (fun r hr => (hstays r hr).id) ?_ ?_
    · exact fun r hr c hc => (hstays r hr).clusterId.symm.trans hc
    · intro r hr k hk href hcluster hagrees
      refine ⟨by rwa [IsCluster, (hstays k hk).clusterTypeId], fun hlive => ?_⟩
      have hrlive : r.Live := (hstays r hr).deletedAt.symm.trans hlive
      obtain ⟨hklive, hpool, howner⟩ := hagrees hrlive
      exact ⟨(hstays k hk).deletedAt.trans hklive, huniform r hr k hk
        ((hstays r hr).clusterId.symm.trans href) hcluster hrlive hklive hpool howner⟩

/-- **Documents leave their clusters**, and clusters that nobody is left in are deleted; the types
that live clusters have are still there. -/
theorem Consistent.leave (h : Consistent O types t) {f : Resource → Resource}
    (hrows : t'.rows = t.rows.map f)
    (hid : ∀ r ∈ t.rows, (f r).id = r.id)
    (hkind : ∀ r ∈ t.rows, (f r).clusterTypeId = r.clusterTypeId ∧
      (f r).cloudAccountId = r.cloudAccountId ∧ (f r).organizationId = r.organizationId ∧
      (f r).poolId = r.poolId ∧ (f r).employeeId = r.employeeId)
    (hleave : ∀ r ∈ t.rows, (f r).clusterId = r.clusterId ∨ (f r).clusterId = none)
    (hlive : ∀ r ∈ t.rows, (f r).Live → r.Live ∧
      ∀ c, r.clusterTypeId = some c → ∃ clusterType ∈ types', clusterType.id = c)
    (hstay : ∀ r ∈ t.rows, ∀ k ∈ t.rows, (f r).RefersTo k.id → k.IsCluster → k.Live → (f k).Live) :
    Consistent O types' t' := by
  refine ⟨?_, ?_⟩
  · rw [hrows]
    refine List.forall_mem_map.mpr fun r hr => ?_
    obtain ⟨htype, hplace, horg, -⟩ := hkind r hr
    have hsame : (f r).IsCluster ↔ r.IsCluster := by rw [IsCluster, htype]
    have hsound := h.sound r hr
    refine ⟨fun hl c hc => (hlive r hr hl).2 c (htype.symm.trans hc), fun hc => ?_,
      fun hc => horg.trans (hsound.owned (hsame.mp hc)), fun hc => hsound.sourced (hsame.mp hc),
      fun hc => ?_⟩
    · rcases hleave r hr with hl | hl
      · exact hl.trans (hsound.plain (hsame.mp hc))
      · exact hl
    · obtain ⟨a, ha, haccount⟩ := hsound.placed fun hr' => hc (hsame.mpr hr')
      exact ⟨a, ha, hplace.trans haccount⟩
  · rw [hrows]
    refine h.follows.map hid (fun r hr c hc => ?_) fun r hr k hk href hcluster hagrees => ?_
    · rcases hleave r hr with hl | hl
      · exact hl.symm.trans hc
      · rw [RefersTo, hl] at hc
        cases hc
    · obtain ⟨htype, -, -, hpool, howner⟩ := hkind k hk
      obtain ⟨-, -, -, hrpool, hrowner⟩ := hkind r hr
      refine ⟨by rwa [IsCluster, htype], fun hl => ?_⟩
      obtain ⟨hklive, hp, ho⟩ := hagrees (hlive r hr hl).1
      exact ⟨hstay r hr k hk href hcluster hklive, by rw [hpool, hrpool, hp],
        by rw [howner, hrowner, ho]⟩

/-- **Resources join a cluster**, with its assignment; clusters are left alone. -/
theorem Consistent.join (h : Consistent O types t) {f : Resource → Resource}
    (hrows : t'.rows = t.rows.map f) (hclusters : ∀ r ∈ t.rows, r.IsCluster → f r = r)
    (hkind : ∀ r ∈ t.rows, (f r).clusterTypeId = r.clusterTypeId ∧
      (f r).cloudAccountId = r.cloudAccountId ∧ (f r).organizationId = r.organizationId ∧
      (f r).deletedAt = r.deletedAt)
    (hjoin : ∀ r ∈ t.rows, ∀ c, (f r).RefersTo c → f r = r ∨ LedBy t.rows (f r) c) :
    Consistent O types t' := by
  refine ⟨?_, ?_⟩
  · rw [hrows]
    refine List.forall_mem_map.mpr fun r hr => ?_
    obtain ⟨htype, hplace, horg, hdeleted⟩ := hkind r hr
    refine (h.sound r hr).of_same htype hplace horg (fun hl => hdeleted.symm.trans hl) ?_
    intro hcluster hnone
    rwa [hclusters r hr hcluster]
  · rw [hrows]
    exact h.follows.join hclusters hjoin

/-- **What is not about clusters** may change as it likes. -/
theorem Consistent.apart (h : Consistent O types t) {f : Resource → Resource}
    (hrows : t'.rows = t.rows.map f)
    (hf : ∀ r ∈ t.rows, ∃ shareable active, f r = { r with shareable, active }) :
    Consistent O types t' := by
  have hfield : ∀ {α : Type} (g : Resource → α) (_ : ∀ r shareable active,
      g { r with shareable, active } = g r), ∀ r ∈ t.rows, g (f r) = g r := by
    intro α g hg r hr
    obtain ⟨shareable, active, hfr⟩ := hf r hr
    rw [hfr, hg]
  refine h.leave hrows (hfield Resource.id fun _ _ _ => rfl) (fun r hr => ⟨?_, ?_, ?_, ?_, ?_⟩)
    (fun r hr => Or.inl (hfield Resource.clusterId (fun _ _ _ => rfl) r hr)) (fun r hr hlive => ?_)
    fun r hr k hk _ _ hlive => ?_
  · exact hfield Resource.clusterTypeId (fun _ _ _ => rfl) r hr
  · exact hfield Resource.cloudAccountId (fun _ _ _ => rfl) r hr
  · exact hfield Resource.organizationId (fun _ _ _ => rfl) r hr
  · exact hfield Resource.poolId (fun _ _ _ => rfl) r hr
  · exact hfield Resource.employeeId (fun _ _ _ => rfl) r hr
  · have hl : r.Live := (hfield Resource.deletedAt (fun _ _ _ => rfl) r hr).symm.trans hlive
    exact ⟨hl, (h.sound r hr).typed hl⟩
  · exact (hfield Resource.deletedAt (fun _ _ _ => rfl) k hk).trans hlive
