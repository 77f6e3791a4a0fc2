import OptScale.Clusters.Apply
import OptScale.Clusters.Binding
import OptScale.Clusters.Keeping

/-!
# Clusters/Applied — what `reapply_clusters` leaves behind

Up to the last cluster stored the collection only changes by `Change`s; what follows puts every
resource under the cluster its tags name, or under none.  Afterwards the collection is consistent,
and every live cluster has a live member (`settle_consistent`, `settle_member`).
-/

open Fallible Resource ClusterTypeController

namespace ClusterTypeApplyController

variable {O : OrganizationContext} {R : RuleContext} {types : List ClusterType} {S : Saving}
  {t t' : Resources}

/-! ## The clusters to be stored -/

/-- The entry is that of a live cluster of the organization, with live resources. -/
structure Entry.Proper (O : OrganizationContext) (types : List ClusterType) (t : Resources)
    (e : Entry) : Prop where
  isCluster : e.cluster.IsCluster
  sound : Sound O types e.cluster
  live : e.cluster.Live
  resources : ∀ r ∈ e.resources, r ∈ t.rows ∧ r.Live ∧ r.clusterTypeId = none

theorem putCluster_proper {entries : List Entry} {c : Resource} (hcluster : c.IsCluster)
    (hsound : Sound O types c) (hlive : c.Live) (h : ∀ e ∈ entries, e.Proper O types t) :
    ∀ e ∈ putCluster entries c, e.Proper O types t := by
  unfold putCluster
  split
  · refine List.forall_mem_map.mpr fun e he => ?_
    split
    · exact ⟨hcluster, hsound, hlive, (h e he).resources⟩
    · exact h e he
  · exact List.forall_mem_append.mpr ⟨h, List.forall_mem_singleton.mpr
      ⟨hcluster, hsound, hlive, fun r hr => absurd hr List.not_mem_nil⟩⟩

/-- **The clusters that are there** make proper entries. -/
theorem existingClusters_proper (ht : Consistent O types t) :
    ∀ e ∈ existingClusters O types t, e.Proper O types t := by
  refine List.foldlRecOn _ _ (motive := fun es => ∀ e ∈ es, Entry.Proper O types t e)
    (fun _ h => absurd h List.not_mem_nil) fun es hes c hc => ?_
  obtain ⟨r, hr, rfl⟩ := List.mem_map.mp hc
  obtain ⟨hmem, hr⟩ := List.mem_filter.mp hr
  obtain ⟨⟨clusterType, -, htype⟩, hlive⟩ := of_decide_eq_true hr
  refine putCluster_proper ?_ ?_ hlive hes
  · show r.clusterTypeId.isSome
    rw [htype]
    rfl
  · exact (ht.sound r hmem).of_same rfl rfl rfl (fun h => h) fun _ h => h

theorem mem_taggedResources {r : Resource} (hr : r ∈ taggedResources O types t) :
    r ∈ t.rows ∧ r.Live ∧ r.clusterTypeId = none := by
  obtain ⟨hmem, hr⟩ := List.mem_filter.mp hr
  obtain ⟨-, hlive, htype, -⟩ := of_decide_eq_true hr
  exact ⟨hmem, hlive, htype⟩

/-- **One turn of the loop over the resources.** -/
theorem addResource_proper {es : List Entry} {r : Resource × ℕ} (hsource : O.cloudAccounts ≠ [])
    (hr : r.1 ∈ t.rows ∧ r.1.Live ∧ r.1.clusterTypeId = none)
    (hes : ∀ e ∈ es, e.Proper O types t) :
    ∀ e ∈ addResource O types es r, e.Proper O types t := by
  have hadd : ∀ rs : List Resource, (∀ x ∈ rs, x ∈ t.rows ∧ x.Live ∧ x.clusterTypeId = none) →
      ∀ x ∈ rs ++ [r.1], x ∈ t.rows ∧ x.Live ∧ x.clusterTypeId = none := fun rs h =>
    List.forall_mem_append.mpr ⟨h, List.forall_mem_singleton.mpr hr⟩
  obtain ⟨r, number⟩ := r
  dsimp only [addResource]
  split
  · exact hes
  · rename_i cType htype
    obtain ⟨tag, -, htag⟩ := getResourceClusterType_eq_some htype
    have hmem : cType ∈ types := getTagClusterTypeMap_mem htag
    split
    · refine List.forall_mem_map.mpr fun e he => ?_
      obtain ⟨hcluster, hsound, hlive, hresources⟩ := hes e he
      split
      · exact ⟨hcluster, hsound, hlive, hadd _ hresources⟩
      · exact hes e he
    · refine List.forall_mem_append.mpr ⟨hes, List.forall_mem_singleton.mpr ?_⟩
      exact ⟨rfl, fillCluster_sound hmem hsource, rfl,
        hadd [] fun x hx => absurd hx List.not_mem_nil⟩

theorem entries_proper (hsource : O.cloudAccounts ≠ []) (ht : Consistent O types t) :
    ∀ e ∈ entries O types t, e.Proper O types t := by
  refine List.foldlRecOn _ _ (motive := fun es => ∀ e ∈ es, Entry.Proper O types t e)
    (existingClusters_proper ht) fun es hes r hr => ?_
  exact addResource_proper hsource (mem_taggedResources (List.fst_mem_of_mem_zipIdx hr)) hes

/-! ## The clusters are stored -/

/-- The cluster is in the collection, as it was stored. -/
def Kept (t : Resources) (c : Resource) : Prop :=
  c.IsCluster ∧ c.Live ∧ ∃ k ∈ t.rows, Retains c k

theorem Kept.change {c : Resource} (h : Change O types S t t') (hc : Kept t c) : Kept t' c := by
  obtain ⟨hcluster, hlive, k, hk, hret⟩ := hc
  obtain ⟨k', hk', hret'⟩ := h.persists hk (Or.inl (by rwa [IsCluster, hret.clusterTypeId]))
  exact ⟨hcluster, hlive, k', hk', hret.trans hret'⟩

theorem storeEntries_triple {es : List Entry} :
    ∀ known : List (Entry × Resource), (∀ e ∈ es, e.Proper O types S.old) →
    Session.Triple
      (fun t => Changed O types S t ∧ ∀ p ∈ known, p.1.Proper O types S.old ∧ Kept t p.2)
      (storeEntries O R es)
      (fun stored t => Changed O types S t ∧
        ∀ p ∈ known ++ stored, p.1.Proper O types S.old ∧ Kept t p.2)
      (Changed O types S) := by
  induction es with
  | nil =>
    exact fun _ _ => .pure fun t h => ⟨h.1, by rw [List.append_nil]; exact h.2⟩
  | cons e es ih =>
    intro known hproper
    obtain ⟨he, hes⟩ := List.forall_mem_cons.mp hproper
    refine .bind (Q := fun c t => Changed O types S t ∧
      ∀ p ∈ known ++ [(e, c)], p.1.Proper O types S.old ∧ Kept t p.2)
      (.commit ?_ fun t h => h.1) fun c => ?_
    · rintro t c t' ⟨ht, hknown⟩ hstore
      obtain ⟨hchange, hmem, hcluster, hdeleted⟩ :=
        storeCluster_change he.isCluster he.sound ht hstore
      refine ⟨ht.tail hchange, List.forall_mem_append.mpr ⟨?_, List.forall_mem_singleton.mpr ?_⟩⟩
      · exact fun p hp => ⟨(hknown p hp).1, (hknown p hp).2.change hchange⟩
      · exact ⟨he, hcluster, hdeleted.trans he.live, c, hmem, .refl c⟩
    · refine .bind (ih _ hes) fun stored => .pure fun t h => ⟨h.1, ?_⟩
      rw [List.append_cons]
      exact h.2

/-! ## Resources enter their clusters -/

/-- A resource after the writes. -/
def entered (updates : List (Resource × Resource)) (r : Resource) : Resource :=
  updates.foldl (fun r u => if r.id = u.1.id then enter u.1 u.2 r else r) r

theorem enterClusters_rows (updates : List (Resource × Resource)) : ∀ t : Resources,
    (enterClusters updates t).rows = t.rows.map (entered updates) := by
  induction updates with
  | nil => exact fun t => (List.map_id' t.rows).symm
  | cons u updates ih =>
    intro t
    rw [enterClusters, List.foldl_cons, ← enterClusters, ih]
    show (t.rows.map _).map _ = _
    rw [List.map_map]
    refine List.map_congr_left fun r _ => ?_
    simp only [Function.comp_apply, entered, List.foldl_cons, decide_eq_true_eq]

/-- **A resource after the writes** is in the cluster of one of them, with its assignment, and not
shareable if it was read so; or none of them is about it. -/
theorem entered_spec (updates : List (Resource × Resource)) (r : Resource) :
    (entered updates r).id = r.id ∧ (entered updates r).clusterTypeId = r.clusterTypeId ∧
      (entered updates r).cloudAccountId = r.cloudAccountId ∧
      (entered updates r).organizationId = r.organizationId ∧
      (entered updates r).deletedAt = r.deletedAt ∧
      ((∀ u ∈ updates, u.1.id ≠ r.id) ∧ entered updates r = r ∨
        ∃ u ∈ updates, u.1.id = r.id ∧ (entered updates r).clusterId = some u.2.id ∧
          (entered updates r).poolId = u.2.poolId ∧
          (entered updates r).employeeId = u.2.employeeId ∧
          ((entered updates r).shareable → r.shareable ∧ u.1.shareable = false)) := by
  induction updates using List.reverseRecOn with
  | nil => exact ⟨rfl, rfl, rfl, rfl, rfl, Or.inl ⟨fun _ h => absurd h List.not_mem_nil, rfl⟩⟩
  | append_singleton updates u ih =>
    obtain ⟨hid, htype, hplace, horg, hdeleted, hcases⟩ := ih
    have hlast : entered (updates ++ [u]) r =
        if (entered updates r).id = u.1.id then enter u.1 u.2 (entered updates r)
        else entered updates r := by
      rw [entered, List.foldl_append, List.foldl_cons, List.foldl_nil, ← entered]
    rw [hlast, hid]
    split
    · rename_i hu
      refine ⟨hid, htype, hplace, horg, hdeleted, Or.inr ⟨u, ?_, hu.symm, rfl, rfl, rfl, ?_⟩⟩
      · exact List.mem_append_right _ (List.mem_singleton.mpr rfl)
      · intro hs
        have hold : (entered updates r).shareable → r.shareable := by
          rcases hcases with ⟨-, hsame⟩ | ⟨_, -, -, -, -, -, hshareable⟩
          · exact fun h => hsame ▸ h
          · exact fun h => (hshareable h).1
        cases hread : u.1.shareable with
        | true =>
          rw [enter, hread] at hs
          exact nomatch hs
        | false =>
          rw [enter, hread] at hs
          exact ⟨hold hs, rfl⟩
    · rename_i hu
      refine ⟨hid, htype, hplace, horg, hdeleted, ?_⟩
      rcases hcases with ⟨hnone, hsame⟩ | ⟨v, hv, hrest⟩
      · exact Or.inl ⟨List.forall_mem_append.mpr ⟨hnone, List.forall_mem_singleton.mpr (Ne.symm hu)⟩,
          hsame⟩
      · exact Or.inr ⟨v, List.mem_append_left _ hv, hrest⟩

/-- What is known of the stored clusters and their resources before these enter. -/
structure Storing (O : OrganizationContext) (types : List ClusterType) (S : Saving)
    (stored : List (Entry × Resource)) (t : Resources) : Prop where
  changed : Changed O types S t
  stored : ∀ p ∈ stored, p.1.Proper O types S.old ∧ Kept t p.2

variable {stored : List (Entry × Resource)}

theorem mem_newClustered {u : Resource × Resource} :
    u ∈ newClustered stored ↔ ∃ e, (e, u.2) ∈ stored ∧ u.1 ∈ e.resources ∧
      u.1.clusterId ≠ some u.2.id := by
  simp only [newClustered, List.mem_flatMap, List.mem_map, List.mem_filter, decide_eq_true_eq]
  constructor
  · rintro ⟨⟨e, c⟩, hp, r, ⟨hr, hne⟩, rfl⟩
    exact ⟨e, hp, hr, hne⟩
  · rintro ⟨e, hp, hr, hne⟩
    exact ⟨(e, u.2), hp, u.1, ⟨hr, hne⟩, rfl⟩

/-- **A resource that was read is in the collection**, in its place. -/
theorem Storing.read (h : Storing O types S stored t) {p : Entry × Resource} (hp : p ∈ stored)
    {r : Resource} (hr : r ∈ p.1.resources) :
    r ∈ S.old.rows ∧ r.Live ∧ r.clusterTypeId = none ∧ ∃ r' ∈ t.rows, Retains r r' := by
  obtain ⟨hmem, hlive, htype⟩ := (h.stored p hp).1.resources r hr
  exact ⟨hmem, hlive, htype, h.changed.persists hmem⟩

/-- A row of the collection whose id is that of a resource that was read is what became of it. -/
theorem Storing.retains (h : Storing O types S stored t) {p : Entry × Resource} (hp : p ∈ stored)
    {r r' : Resource} (hr : r ∈ p.1.resources) (hr' : r' ∈ t.rows) (hid : r.id = r'.id) :
    Retains r r' ∧ r.Live ∧ r.clusterTypeId = none := by
  obtain ⟨-, hlive, htype, r'', hr'', hret⟩ := h.read hp hr
  rw [t.eq_of_key hr' hr'' (hid.symm.trans hret.id.symm)]
  exact ⟨hret, hlive, htype⟩

/-- **The resources have entered their clusters.** -/
theorem enterClusters_consistent (h : Storing O types S stored t) (ht : Consistent O types t) :
    Consistent O types (enterClusters (newClustered stored) t) := by
  refine ht.join (enterClusters_rows _ t) ?_ ?_ ?_
  · intro r hr hcluster
    rcases (entered_spec (newClustered stored) r).2.2.2.2.2 with ⟨-, hsame⟩ | ⟨u, hu, hid, -⟩
    · exact hsame
    · obtain ⟨e, hp, hread, -⟩ := mem_newClustered.mp hu
      obtain ⟨hret, -, htype⟩ := h.retains hp hread hr hid
      rw [IsCluster, hret.clusterTypeId, htype] at hcluster
      cases hcluster
  · intro r _
    obtain ⟨-, htype, hplace, horg, hdeleted, -⟩ := entered_spec (newClustered stored) r
    exact ⟨htype, hplace, horg, hdeleted⟩
  · intro r hr c hc
    rcases (entered_spec (newClustered stored) r).2.2.2.2.2 with
      ⟨-, hsame⟩ | ⟨u, hu, -, hcluster, hpool, howner, -⟩
    · exact Or.inl hsame
    · obtain ⟨e, hp, -, -⟩ := mem_newClustered.mp hu
      obtain ⟨hkcluster, hklive, k, hk, hret⟩ := (h.stored _ hp).2
      refine Or.inr ⟨k, hk, by rwa [IsCluster, hret.clusterTypeId], ?_, fun _ => ⟨?_, ?_, ?_⟩⟩
      · exact hret.id.trans (Option.some.inj (hcluster.symm.trans hc))
      · exact hret.deletedAt.trans hklive
      · rw [hret.poolId, hpool]
      · rw [hret.employeeId, howner]

/-! ## Resources leave, empty clusters go -/

theorem leaveClusters_consistent (ids : List Uuid) (ht : Consistent O types t) :
    Consistent O types (leaveClusters O ids t) := by
  refine ht.leave rfl (fun r _ => ?_) (fun r _ => ?_) (fun r _ => ?_) (fun r hr hlive => ?_)
    fun r _ k _ _ _ hlive => ?_
  · split <;> rfl
  · split <;> exact ⟨rfl, rfl, rfl, rfl, rfl⟩
  · split
    · exact Or.inr rfl
    · exact Or.inl rfl
  · have hl : r.Live := by
      split at hlive <;> exact hlive
    exact ⟨hl, (ht.sound r hr).typed hl⟩
  · split <;> exact hlive

/-- The clusters that somebody in the organization's data sources is in. -/
def inhabited (O : OrganizationContext) (t : Resources) : List Uuid :=
  (t.rows.filter fun r => ∃ a ∈ O.cloudAccounts, r.cloudAccountId = some a).filterMap
    Resource.clusterId

theorem mem_inhabited {c : Uuid} :
    c ∈ inhabited O t ↔ ∃ r ∈ t.rows, (∃ a ∈ O.cloudAccounts, r.cloudAccountId = some a) ∧
      r.clusterId = some c := by
  simp only [inhabited, List.mem_filterMap, List.mem_filter, decide_eq_true_eq, and_assoc]

/-- The row after `delete_empty_clusters`. -/
def retired (O : OrganizationContext) (now : Timestamp) (t : Resources) (r : Resource) : Resource :=
  if decide (r.id ∉ inhabited O t ∧ r.organizationId = some O.organizationId ∧
    r.clusterTypeId.isSome ∧ r.Live) then { r with deletedAt := now } else r

theorem deleteEmptyClusters_rows (now : Timestamp) :
    (deleteEmptyClusters O now t).rows = t.rows.map (retired O now t) := rfl

theorem retired_cases (now : Timestamp) (r : Resource) :
    retired O now t r = r ∨ r.IsCluster ∧ r.id ∉ inhabited O t ∧
      retired O now t r = { r with deletedAt := now } := by
  unfold retired
  split
  · rename_i h
    obtain ⟨hempty, -, hcluster, -⟩ := of_decide_eq_true h
    exact Or.inr ⟨hcluster, hempty, rfl⟩
  · exact Or.inl rfl

theorem retired_id (now : Timestamp) (r : Resource) : (retired O now t r).id = r.id := by
  rcases retired_cases now r with h | ⟨-, -, h⟩ <;> rw [h]

/-- A cluster that is live afterwards is inhabited. -/
theorem mem_inhabited_of_live (now : Timestamp) {k : Resource}
    (horg : k.organizationId = some O.organizationId) (hcluster : k.IsCluster)
    (hlive : (retired O now t k).Live) : k.id ∈ inhabited O t := by
  unfold retired at hlive
  split at hlive
  · exact absurd hlive now.2.ne'
  · rename_i hstays
    by_contra hempty
    exact hstays (decide_eq_true ⟨hempty, horg, hcluster, hlive⟩)

/-- Nobody is in a cluster that goes. -/
theorem mem_inhabited_of_refersTo (ht : Consistent O types t) {r k : Resource} (hr : r ∈ t.rows)
    (href : r.RefersTo k.id) : k.id ∈ inhabited O t :=
  mem_inhabited.mpr ⟨r, hr,
    (ht.sound r hr).placed (Resources.not_isCluster_of_refersTo ht hr href), href⟩

theorem deleteEmptyClusters_consistent (now : Timestamp) (ht : Consistent O types t) :
    Consistent O types (deleteEmptyClusters O now t) := by
  refine ht.leave (deleteEmptyClusters_rows now) (fun r _ => ?_) (fun r _ => ?_) (fun r _ => ?_)
    (fun r hr hlive => ?_) fun r hr k _ href _ hlive => ?_
  · exact retired_id now r
  · rcases retired_cases now r with h | ⟨-, -, h⟩ <;> rw [h] <;> exact ⟨rfl, rfl, rfl, rfl, rfl⟩
  · rcases retired_cases now r with h | ⟨-, -, h⟩ <;> exact Or.inl (by rw [h])
  · have hl : r.Live := by
      rcases retired_cases now r with h | ⟨-, -, h⟩
      · rwa [h] at hlive
      · rw [h] at hlive
        exact absurd hlive now.2.ne'
    exact ⟨hl, (ht.sound r hr).typed hl⟩
  · have hmember : r.RefersTo k.id := by
      rcases retired_cases now r with h | ⟨-, -, h⟩ <;> rwa [h] at href
    rcases retired_cases now k with h | ⟨-, hempty, -⟩
    · rwa [h]
    · exact absurd (mem_inhabited_of_refersTo ht hr hmember) hempty

/-! ## Everything after the clusters are stored -/

section Settle

variable (h : Storing O types S stored t) (ht : Consistent O types t)

include h ht

/-- The collection after resources have entered and left. -/
theorem left_consistent : Consistent O types
    (leaveClusters O (clusteredResourceIds stored) (enterClusters (newClustered stored) t)) :=
  leaveClusters_consistent _ (enterClusters_consistent h ht)

/-- **`reapply_clusters` leaves a consistent collection.** -/
theorem settle_consistent (now : Timestamp) {s : Store} (hs : s.resources = t) :
    Consistent O types (settle O stored now s).resources := by
  subst hs
  exact deleteEmptyClusters_consistent now (left_consistent h ht)

/-- **Every live cluster has a live member afterwards.** -/
theorem settle_member (now : Timestamp) {s : Store} (hs : s.resources = t) :
    ∀ k ∈ (settle O stored now s).resources.rows, k.Live → k.IsCluster →
      ∃ r ∈ (settle O stored now s).resources.rows, r.Live ∧ r.RefersTo k.id := by
  subst hs
  have hleft := left_consistent h ht
  intro k' hk' hlive hcluster
  rw [show (settle O stored now s).resources = deleteEmptyClusters O now _ from rfl,
    deleteEmptyClusters_rows] at hk' ⊢
  obtain ⟨k, hk, rfl⟩ := List.mem_map.mp hk'
  have hkind : k.IsCluster := by
    rcases retired_cases now k with hsame | ⟨hk, -⟩
    · rwa [hsame] at hcluster
    · exact hk
  obtain ⟨r, hr, hplace, href⟩ :=
    mem_inhabited.mp (mem_inhabited_of_live now ((hleft.sound k hk).owned hkind) hkind hlive)
  have hsame : ∀ t' : Resources, retired O now t' r = r := fun t' =>
    (retired_cases now r).resolve_right fun hr' =>
      Resources.not_isCluster_of_refersTo hleft hr href hr'.1
  refine ⟨r, List.mem_map.mpr ⟨r, hr, hsame _⟩, ?_, href.trans (congrArg some (retired_id now k).symm)⟩
  -- a resource that is in a cluster still was read, and was live then
  obtain ⟨r₂, hr₂, hleave⟩ := List.mem_map.mp hr
  split at hleave
  · subst hleave
    exact nomatch href
  · rename_i hstays
    subst hleave
    have hclustered : r₂.id ∈ clusteredResourceIds stored := by
      by_contra hout
      exact hstays (decide_eq_true ⟨hplace, hout, by rw [href]; rfl⟩)
    obtain ⟨p, hp, hread⟩ := List.mem_flatMap.mp hclustered
    obtain ⟨x, hx, hxid⟩ := List.mem_map.mp hread
    rw [enterClusters_rows] at hr₂
    obtain ⟨r₁, hr₁, rfl⟩ := List.mem_map.mp hr₂
    obtain ⟨hid, -, -, -, hdeleted, -⟩ := entered_spec (newClustered stored) r₁
    obtain ⟨hret, hxlive, -⟩ := h.retains hp hx hr₁ (hxid.trans hid)
    exact hdeleted.trans (hret.deletedAt.trans hxlive)

end Settle

/-! ## The call -/

/-- What the call is about: it puts no resource. -/
def reapplying (a : Uuid) (t : Resources) : Saving where
  cloudAccountId := a
  old := t
  shared := False
  binds := False

/-- The call has stored clusters and gone no further. -/
def Stored (O : OrganizationContext) (s₀ s : Store) : Prop :=
  ∃ a ∈ O.cloudAccounts, ∃ t, s = { s₀ with resources := t } ∧
    Changed O (listTypes s₀.clusterTypes O.organizationId) (reapplying a s₀.resources) t

/-- The call has gone through. -/
def Settled (O : OrganizationContext) (now : Timestamp) (s₀ s : Store) : Prop :=
  ∃ a ∈ O.cloudAccounts, ∃ stored t, s = settle O stored now { s₀ with resources := t } ∧
    Storing O (listTypes s₀.clusterTypes O.organizationId) (reapplying a s₀.resources) stored t

/-- There is nothing to be done. -/
def Idle (O : OrganizationContext) (s₀ : Store) : Prop :=
  O.cloudAccounts = [] ∨ listTypes s₀.clusterTypes O.organizationId = []

/-- **`reapply_clusters`** succeeds with everything settled, unless there is nothing to be done; it
refuses before or after the clusters are stored, or at the very end. -/
theorem reapplyClusters_triple {s₀ : Store} (E : Surroundings)
    (hold : Consistent O (listTypes s₀.clusterTypes O.organizationId) s₀.resources) :
    (reapplyClusters O R E).Triple (fun s => s = s₀)
      (fun _ s => Idle O s₀ ∧ s = s₀ ∨ Settled O E.now s₀ s)
      (fun s => s = s₀ ∨ Stored O s₀ s ∨ Settled O E.now s₀ s) := by
  have hread : ∀ {α : Type} (f : Store → Except Failure α),
      (Session.read f).Triple (fun s => s = s₀) (fun a s => f s₀ = .ok a ∧ s = s₀)
        (fun s => s = s₀ ∨ Stored O s₀ s ∨ Settled O E.now s₀ s) := fun f =>
    .read (by rintro s a rfl hok; exact ⟨hok, rfl⟩) fun s hs => Or.inl hs
  unfold reapplyClusters
  refine .bind (hread _) fun types => .fact fun htypes => ?_
  obtain rfl := Except.ok.inj htypes
  split
  · rename_i hidle
    exact .pure fun s hs => Or.inl ⟨hidle, hs⟩
  · rename_i hbusy
    obtain ⟨a, ha⟩ := List.exists_mem_of_ne_nil _ (not_or.mp hbusy).1
    refine .bind (hread _) fun _ => .fact fun _ => ?_
    refine .bind (hread _) fun _ => .fact fun _ => ?_
    refine .bind (hread _) fun es => .fact fun hentries => ?_
    obtain rfl := Except.ok.inj hentries
    refine .bind (hread _) fun total => .fact fun _ => ?_
    refine .bind (Q := fun stored s => ∃ t, s = { s₀ with resources := t } ∧
      Storing O (listTypes s₀.clusterTypes O.organizationId) (reapplying a s₀.resources) stored t)
      (.within ((storeEntries_triple (S := reapplying a s₀.resources) []
        (entries_proper (not_or.mp hbusy).1 hold)).mono ?_ (fun _ _ h => h) fun _ h => h)
        (fun _ hs => congrArg Store.resources hs) ?_ ?_) fun stored => ?_
    · rintro t rfl
      exact ⟨.refl, fun p hp => absurd hp List.not_mem_nil⟩
    · rintro stored s t rfl ⟨hchanged, hstored⟩
      exact ⟨t, rfl, hchanged, hstored⟩
    · rintro s t rfl hchanged
      exact Or.inr (Or.inl ⟨a, ha, t, rfl, hchanged⟩)
    refine .bind (Q := fun _ s => ∃ t, s = { s₀ with resources := t } ∧
      Storing O (listTypes s₀.clusterTypes O.organizationId) (reapplying a s₀.resources) stored t)
      (.read (fun s _ hs _ => hs) ?_) fun _ => ?_
    · rintro s ⟨t, hs, hstoring⟩
      exact Or.inr (Or.inl ⟨a, ha, t, hs, hstoring.changed⟩)
    refine .bind (Q := fun _ s => Settled O E.now s₀ s) (.commit ?_ ?_) fun _ => ?_
    · rintro s _ s' ⟨t, rfl, hstoring⟩ hok
      obtain ⟨-, rfl⟩ := Prod.mk.inj (Except.ok.inj hok)
      exact ⟨a, ha, stored, t, rfl, hstoring⟩
    · rintro s ⟨t, hs, hstoring⟩
      exact Or.inr (Or.inl ⟨a, ha, t, hs, hstoring.changed⟩)
    refine .bind (Q := fun _ s => Settled O E.now s₀ s)
      (.read (fun s _ hs _ => hs) fun s hs => Or.inr (Or.inr hs)) fun _ => ?_
    exact .pure fun s hs => Or.inr hs

end ClusterTypeApplyController
