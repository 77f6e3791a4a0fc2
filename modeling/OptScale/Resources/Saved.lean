import OptScale.Clusters.Binding
import OptScale.Resources.SaveBulk

/-!
# Resources/Saved — what `save_bulk` does to the collection

Whatever becomes of a call, the collection it leaves is one that `Change`s lead to
(`saveBulk_changed`): the clusters are bound first, every resource that is put comes with the
assignment of its cluster, and what a refused write takes back is new.
-/

open Fallible Resource ClusterTypeController

namespace CloudResourceController

variable {O : OrganizationContext} {R : RuleContext} {types : List ClusterType} {S : Saving}
  {t t' : Resources} {fresh : List Uuid}

/-! ## One write -/

/-- A write that the call may come to: it puts no cluster, and a resource only under its cluster. -/
structure Write.Proper (S : Saving) (fresh : List Uuid) (t : Resources) (w : Write) : Prop where
  plain : ¬ w.insertion.IsCluster
  place : w.insertion.cloudAccountId = some S.cloudAccountId
  shared : w.insertion.shareable → S.shared
  /-- A document with the `_id` of a stored one is refused. -/
  origin : w.insertion.id ∈ fresh ∨ w.insertion.id ∈ S.old.rows.map Resource.id
  binds : w.insertion.id ∈ fresh → w.insertion.clusterId.isSome → S.binds
  led : w.insertion.id ∈ fresh → ∀ c, w.insertion.RefersTo c → LedBy t.rows w.insertion c
  update : w.update.shareable ≠ some true

theorem Write.Proper.change {w : Write} (hw : w.Proper S fresh t) (h : Change O types S t t') :
    w.Proper S fresh t' :=
  { hw with led := fun hid c hc => h.led (hw.led hid c hc) }

/-- An update leaves a document its place. -/
theorem retains_apply {u : Update} (hu : u.shareable ≠ some true) (r : Resource) :
    Retains r (u.apply r) where
  id := rfl
  clusterId := rfl
  clusterTypeId := rfl
  cloudAccountId := rfl
  organizationId := rfl
  poolId := rfl
  employeeId := rfl
  deletedAt := rfl
  shareable h := by
    cases hs : u.shareable with
    | none =>
      rw [Update.apply, hs] at h
      exact h
    | some b =>
      rw [Update.apply, hs] at h
      obtain rfl : b = true := h
      exact absurd hs hu

/-- Where the writes are: the new `_id`s are no cluster's, and the writes still to come are
proper. -/
structure Writing (O : OrganizationContext) (types : List ClusterType) (S : Saving)
    (fresh : List Uuid) (writes : List Write) (t : Resources) : Prop where
  changed : Changed O types S t
  plain : ∀ r ∈ t.rows, r.id ∈ fresh → ¬ r.IsCluster
  writes : ∀ w ∈ writes, w.Proper S fresh t

variable {writes : List Write} {w : Write}

/-- **An insertion** puts a resource under its cluster. -/
theorem Writing.insert (h : Writing O types S fresh writes t) (hw : w ∈ writes)
    (hinsert : t.insert w.insertion = .ok t') : Writing O types S fresh writes t' := by
  obtain ⟨-, hid, hrows⟩ := Resources.insert_eq_ok.mp hinsert
  have hproper := h.writes w hw
  have hold : w.insertion.id ∉ S.old.rows.map Resource.id := fun hold =>
    hid (h.changed.id_mem hold)
  have hfresh : w.insertion.id ∈ fresh := hproper.origin.resolve_right hold
  have hchange : Change O types S t t' := .resource w.insertion hrows hold hproper.plain
    hproper.place (hproper.led hfresh) hproper.shared (hproper.binds hfresh)
  refine ⟨h.changed.tail hchange, ?_, fun v hv => (h.writes v hv).change hchange⟩
  rw [hrows]
  exact List.forall_mem_append.mpr
    ⟨h.plain, List.forall_mem_singleton.mpr fun _ => hproper.plain⟩

theorem Writing.insertOne (h : Writing O types S fresh writes t) (hw : w ∈ writes) {u : Unit}
    (hinsert : w.insertOne t = .ok (u, t')) : Writing O types S fresh writes t' := by
  obtain ⟨t₁, hput, hpure⟩ := bind_eq_ok.mp hinsert
  obtain ⟨-, rfl⟩ := Prod.mk.inj (pure_eq_ok.mp hpure)
  exact h.insert hw hput

/-- **An upsert** brings a document up to date, or puts a resource under its cluster. -/
theorem Writing.upsert (h : Writing O types S fresh writes t) (hw : w ∈ writes) {u : Unit}
    (hupsert : w.upsert t = .ok (u, t')) : Writing O types S fresh writes t' := by
  unfold Write.upsert at hupsert
  split at hupsert
  · obtain ⟨_, -, hpure⟩ := bind_eq_ok.mp hupsert
    obtain ⟨-, rfl⟩ := Prod.mk.inj (pure_eq_ok.mp hpure)
    rename_i found _ _
    have hretains : ∀ r ∈ t.rows,
        Retains r (if decide (r.id = found.id) then w.update.apply r else r) := by
      intro r _
      split
      · exact retains_apply (h.writes w hw).update r
      · exact .refl r
    have hchange : Change O types S t
        (t.updateWhere (fun r => r.id = found.id) w.update.apply fun _ => rfl) :=
      .update _ rfl hretains
    refine ⟨h.changed.tail hchange, ?_, fun v hv => (h.writes v hv).change hchange⟩
    refine List.forall_mem_map.mpr fun r hr hid => ?_
    have hret := hretains r hr
    rw [IsCluster, hret.clusterTypeId]
    exact h.plain r hr (hret.id ▸ hid)
  · obtain ⟨t₁, hinsert, hpure⟩ := bind_eq_ok.mp hupsert
    obtain ⟨-, rfl⟩ := Prod.mk.inj (pure_eq_ok.mp hpure)
    exact h.insert hw hinsert

/-- **What is taken back** is new. -/
theorem Writing.deleteMany (h : Writing O types S fresh writes t) {ids : List Uuid}
    (hids : ∀ id ∈ ids, id ∈ fresh) (hfresh : ∀ id ∈ fresh, id ∉ S.old.rows.map Resource.id) :
    Changed O types S (t.deleteMany ids) := by
  refine h.changed.tail (.discard _ rfl fun r hr hstays => decide_eq_true fun hid => ?_)
  rcases hstays with hcluster | hold
  · exact h.plain r hr (hids r.id hid) hcluster
  · exact hfresh r.id (hids r.id hid) hold

/-- **The bulk write.** -/
theorem write_triple (behavior : Behavior) {newIds : List Uuid} (hnew : ∀ id ∈ newIds, id ∈ fresh)
    (hfresh : ∀ id ∈ fresh, id ∉ S.old.rows.map Resource.id) :
    Session.Triple (Writing O types S fresh writes) (write behavior newIds fresh writes)
      (fun _ => Changed O types S) (Changed O types S) := by
  have hupserts : (Session.retry (writes.forM fun w => Session.commit w.upsert) 9).Keeps
      (Writing O types S fresh writes) :=
    Session.Keeps.retry (.forM fun w hw => .commit fun _ _ _ h hok => h.upsert hw hok) 9
  have hinserts : (writes.forM fun w => Session.commit w.insertOne).Keeps
      (Writing O types S fresh writes) :=
    .forM fun w hw => .commit fun _ _ _ h hok => h.insertOne hw hok
  unfold write
  split
  · exact (hinserts.mono (fun _ h => h) (fun _ _ h => h.changed) fun _ h => h).onRefusal
      fun _ h => h.deleteMany (fun _ h => h) hfresh
  · exact (hupserts.mono (fun _ h => h) (fun _ _ h => h.changed) fun _ h => h).onRefusal
      fun _ h => h.deleteMany hnew hfresh

/-! ## What is written -/

theorem freshIds_not_mem {genId : IdSource} {n : ℕ} :
    ∀ {used : List Uuid}, ∀ id ∈ freshIds genId n used, id ∉ used := by
  induction n with
  | zero => exact fun _ h => absurd h List.not_mem_nil
  | succ n ih =>
    intro used id hid
    obtain rfl | hid := List.mem_cons.mp hid
    · exact genId.next_not_mem used
    · exact fun hused => ih id hid (List.mem_cons_of_mem _ hused)

/-- **The document of an incoming resource** has the assignment of its cluster. -/
theorem assign_eq_ok {cluster : Option Resource} {r doc : Resource}
    (h : assign R cluster r = .ok doc) :
    doc.id = r.id ∧ doc.clusterTypeId = r.clusterTypeId ∧ doc.cloudAccountId = r.cloudAccountId ∧
      doc.shareable = r.shareable ∧
      (doc.clusterId = r.clusterId ∨ ∃ c ∈ cluster, doc.clusterId = some c.id ∧
        c.poolId = doc.poolId ∧ c.employeeId = doc.employeeId) := by
  cases cluster with
  | some c =>
    obtain rfl := Except.ok.inj h
    exact ⟨rfl, rfl, rfl, rfl, Or.inr ⟨c, rfl, rfl, rfl, rfl⟩⟩
  | none =>
    have hsame := RuleApplyController.handleAssignmentData_eq_ok h
    rw [hsame]
    exact ⟨rfl, rfl, rfl, rfl, Or.inl rfl⟩

/-- **The document that is put** is the resource's, but for the place of a stored one. -/
theorem splitChanges_spec (behavior : Behavior) (isReportImport : Bool) (now cloudAccountId : ℕ)
    (p : Payload) (doc : Resource) (db : Option Resource) :
    let w := splitChanges O behavior isReportImport now cloudAccountId p doc db
    w.insertion.clusterTypeId = doc.clusterTypeId ∧
      w.insertion.cloudAccountId = doc.cloudAccountId ∧ w.insertion.shareable = doc.shareable ∧
      (w.insertion.id = doc.id ∧ w.insertion.clusterId = doc.clusterId ∧
          w.insertion.poolId = doc.poolId ∧ w.insertion.employeeId = doc.employeeId ∨
        ∃ r ∈ db, w.insertion.id = r.id) ∧
      (w.update.shareable = none ∨ w.update.shareable = p.shareable) := by
  unfold splitChanges
  cases behavior with
  | update_existing =>
    cases db with
    | none => exact ⟨rfl, rfl, rfl, Or.inl ⟨rfl, rfl, rfl, rfl⟩, Or.inr rfl⟩
    | some r => exact ⟨rfl, rfl, rfl, Or.inr ⟨r, rfl, rfl⟩, Or.inr rfl⟩
  | error_existing => exact ⟨rfl, rfl, rfl, Or.inl ⟨rfl, rfl, rfl, rfl⟩, Or.inl rfl⟩
  | skip_existing => exact ⟨rfl, rfl, rfl, Or.inl ⟨rfl, rfl, rfl, rfl⟩, Or.inl rfl⟩

/-- A resource that comes in is not shareable, unless it is an environment, which becomes so. -/
theorem checkRestrictions_shareable {K : Kind} {p : Payload} {u : Unit}
    (h : checkRestrictions K p = .ok u) :
    p.shareable ≠ some true ∧ (K.environment.isSome ∨ p.shareable.getD false = false) := by
  simp only [checkRestrictions, bind_eq_ok] at h
  obtain ⟨_, -, _, -, _, -, _, -, _, -, h⟩ := h
  split at h
  · rename_i hkind
    simp only [bind_eq_ok, require_eq_ok] at h
    obtain ⟨_, -, _, hnone, -⟩ := h
    rw [hnone]
    exact ⟨by simp, Or.inl hkind⟩
  · simp only [bind_eq_ok, require_eq_ok] at h
    obtain ⟨_, hshareable, -⟩ := h
    refine ⟨hshareable, Or.inr ?_⟩
    rcases hp : p.shareable with _ | _ | _
    · rfl
    · rfl
    · exact absurd hp hshareable

/-- **The write of an incoming resource** is proper, if what is bound is. -/
theorem prepare_proper {K : Kind} {behavior : Behavior} {isReportImport : Bool} {now : ℕ}
    {found : Found} {b : Bound} {p : Payload × Uuid}
    (hshared : K.environment.isSome → S.shared) (hfound : found.In S.old)
    (hb : b.Proper S.binds t) (hid : p.2 ∈ fresh)
    (hfresh : ∀ id ∈ fresh, id ∉ S.old.rows.map Resource.id)
    (h : prepare O R K behavior isReportImport now S.cloudAccountId found b.clusterOf p = .ok w) :
    w.Proper S fresh t := by
  obtain ⟨_, hcheck, h⟩ := bind_eq_ok.mp h
  obtain ⟨hincoming, hplain⟩ := checkRestrictions_shareable hcheck
  obtain ⟨doc, hdoc, h⟩ := bind_eq_ok.mp h
  obtain rfl := pure_eq_ok.mp h
  obtain ⟨hdocId, hdocType, hdocPlace, hdocShareable, hdocCluster⟩ := assign_eq_ok hdoc
  obtain ⟨htype, hplace, hshareable, hput, hupdate⟩ := splitChanges_spec (O := O) behavior
    isReportImport now S.cloudAccountId p.1
    { doc with tags := Tags.encoded O.encoding doc.tags } (counterpart found p.1)
  have hstored : ∀ r ∈ counterpart found p.1, r.id ∈ S.old.rows.map Resource.id := by
    intro r hr
    obtain ⟨f, hf, rfl⟩ := Option.map_eq_some_iff.mp hr
    have hget : ∃ key, found.get key = some f := by
      rcases Option.or_eq_some_iff.mp hf with hf | ⟨-, hf⟩
      · obtain ⟨key, -, hkey⟩ := Option.bind_eq_some_iff.mp hf
        exact ⟨key, hkey⟩
      · obtain ⟨key, -, hkey⟩ := Option.bind_eq_some_iff.mp hf
        exact ⟨key, hkey⟩
    obtain ⟨key, hkey⟩ := hget
    obtain ⟨entry, hentry, -, rfl⟩ := Found.get_mem hkey
    exact List.mem_map_of_mem (hfound entry hentry)
  generalize splitChanges O behavior isReportImport now S.cloudAccountId p.1
    { doc with tags := Tags.encoded O.encoding doc.tags } (counterpart found p.1) = w at *
  -- a new document is the resource's own; in a cluster it has the cluster's assignment
  have hnew : w.insertion.id ∈ fresh → w.insertion.clusterId = doc.clusterId ∧
      w.insertion.poolId = doc.poolId ∧ w.insertion.employeeId = doc.employeeId := by
    intro hw
    rcases hput with ⟨-, hsame⟩ | ⟨r, hr, hwid⟩
    · exact hsame
    · exact absurd (hstored r hr) (hwid ▸ hfresh _ hw)
  have hbound : ∀ c, doc.clusterId = some c → ∃ k, S.binds ∧ k ∈ t.rows ∧ k.IsCluster ∧ k.Live ∧
      k.id = c ∧ k.poolId = doc.poolId ∧ k.employeeId = doc.employeeId := by
    intro c hc
    rcases hdocCluster with hnone | ⟨k, hk, hkc, hpool, howner⟩
    · rw [hnone] at hc
      cases hc
    · obtain ⟨uniqueId, -, hk⟩ := Option.bind_eq_some_iff.mp hk
      obtain ⟨hbinds, hmem, hcluster, hlive⟩ := hb uniqueId k hk
      exact ⟨k, hbinds, hmem, hcluster, hlive, Option.some.inj (hkc.symm.trans hc), hpool, howner⟩
  refine ⟨?_, hplace.trans hdocPlace, ?_, ?_, ?_, ?_, ?_⟩
  · rw [IsCluster, htype, hdocType]
    exact Bool.false_ne_true
  · rw [hshareable, hdocShareable]
    intro hs
    rcases hplain with hkind | hnot
    · exact hshared hkind
    · rcases (Bool.or_eq_true _ _).mp hs with hkind | hs
      · exact hshared hkind
      · exact absurd hs (by rw [hnot]; simp)
  · rcases hput with ⟨hwid, -⟩ | ⟨r, hr, hwid⟩
    · exact Or.inl (by rw [hwid, hdocId]; exact hid)
    · exact Or.inr (hwid ▸ hstored r hr)
  · intro hw hsome
    rw [(hnew hw).1] at hsome
    obtain ⟨c, hc⟩ := Option.isSome_iff_exists.mp hsome
    obtain ⟨-, hbinds, -⟩ := hbound c hc
    exact hbinds
  · intro hw c hc
    obtain ⟨hcluster, hpool, howner⟩ := hnew hw
    obtain ⟨k, -, hk, hkcluster, hlive, hkid, hkpool, hkowner⟩ := hbound c (hcluster ▸ hc)
    exact ⟨k, hk, hkcluster, hkid, fun _ => ⟨hlive, by rw [hkpool, hpool], by rw [hkowner, howner]⟩⟩
  · rcases hupdate with hnone | hsame
    · rw [hnone]
      simp
    · rw [hsame]
      exact hincoming

/-! ## The whole call -/

/-- The call's resources are looked up in the collection. -/
theorem getResourcesByHashOrId_in (t : Resources) (cloudAccountId : Uuid)
    (resources : List Payload) (includeDeleted unique : Bool) :
    (getResourcesByHashOrId t cloudAccountId resources includeDeleted unique).In t := by
  have hkeys : ∀ r, ∀ entry ∈ keysOf unique r, entry.2.1 = r := by
    intro r entry hentry
    unfold keysOf at hentry
    split at hentry
    · split_ifs at hentry
      · obtain rfl := List.mem_singleton.mp hentry
        rfl
      · obtain rfl | hentry := List.mem_cons.mp hentry
        · rfl
        · obtain rfl := List.mem_singleton.mp hentry
          rfl
    · obtain rfl := List.mem_singleton.mp hentry
      rfl
    · obtain rfl := List.mem_singleton.mp hentry
      rfl
    · exact absurd hentry List.not_mem_nil
  intro entry hentry
  rcases List.mem_append.mp hentry with hentry | hentry
  · obtain ⟨r, hr, hentry⟩ := List.mem_flatMap.mp hentry
    exact hkeys r entry hentry ▸ List.mem_of_mem_filter (List.mem_of_mem_filter hr)
  · obtain ⟨r, hr, hentry⟩ := List.mem_flatMap.mp hentry
    exact hkeys r entry hentry ▸ List.mem_of_mem_filter (List.mem_of_mem_filter hr)

/-- The call puts one of its resources into a cluster. -/
def BindsSome (O : OrganizationContext) (K : Kind) (types : List ClusterType) (a : SaveBulkArgs)
    (t : Resources) : Prop :=
  ∃ resources, genCloudResourceIds K a.resources = .ok resources ∧ ∃ p ∈ resources, ∃ uniqueId,
    let found := getResourcesByHashOrId t a.cloudAccountId resources
      (a.behavior ≠ .error_existing) true
    Binds O types (dbClusters found t) found p uniqueId

/-- What the call is about. -/
def saving (O : OrganizationContext) (K : Kind) (types : List ClusterType) (a : SaveBulkArgs)
    (t : Resources) : Saving where
  cloudAccountId := a.cloudAccountId
  old := t
  shared := K.environment.isSome
  binds := BindsSome O K types a t

/-- **`_save_bulk`** leads to a collection that changes lead to, whether or not it succeeds. -/
theorem saveBulkRows_triple {K : Kind} {a : SaveBulkArgs} {resources : List Payload}
    (hplace : a.cloudAccountId ∈ O.cloudAccounts) (hold : Consistent O types t)
    (hresources : genCloudResourceIds K a.resources = .ok resources) :
    Session.Triple (fun s => s = t) (saveBulkRows O R K types a resources)
      (fun _ => Changed O types (saving O K types a t))
      (Changed O types (saving O K types a t)) := by
  unfold saveBulkRows
  refine .bind (Q := fun found s => found = getResourcesByHashOrId t a.cloudAccountId resources
      (a.behavior ≠ .error_existing) false ∧ s = t) (.read ?_ ?_) fun found => .fact fun hfound => ?_
  · rintro s found rfl hok
    exact ⟨(Except.ok.inj hok).symm, rfl⟩
  · rintro s rfl
    exact .refl
  subst hfound
  refine .bind (Q := fun found s => found = getResourcesByHashOrId t a.cloudAccountId resources
      (a.behavior ≠ .error_existing) true ∧ s = t) (.read ?_ ?_) fun found => .fact fun hfound => ?_
  · rintro s found rfl hok
    exact ⟨(Except.ok.inj hok).symm, rfl⟩
  · rintro s rfl
    exact .refl
  subst hfound
  refine .bind (bindClusters_triple (S := saving O K types a t) hplace hold
    (getResourcesByHashOrId_in t _ _ _ _) fun p hp uniqueId hbinds =>
      ⟨resources, hresources, p, hp, uniqueId, hbinds⟩) fun bound => ?_
  refine .bind (Q := fun ids s => (∀ id ∈ ids, id ∉ t.rows.map Resource.id) ∧
    (∀ id ∈ ids, id ∉ s.rows.map Resource.id) ∧ Changed O types (saving O K types a t) s ∧
    bound.Proper (saving O K types a t).binds s) (.read ?_ fun _ h => h.1)
    fun ids => .fact fun hfresh => ?_
  · rintro s ids h hok
    obtain rfl := Except.ok.inj hok
    exact ⟨fun id hid hold => freshIds_not_mem id hid (h.1.id_mem hold), freshIds_not_mem, h⟩
  refine .bind (Q := fun writes => Writing O types (saving O K types a t) ids writes)
    (.read ?_ fun _ h => h.2.1) fun writes => write_triple a.behavior ?_ hfresh
  · rintro s writes ⟨hids, hchanged, hbound⟩ hok
    refine ⟨hchanged, fun r hr hid => absurd (List.mem_map_of_mem hr) (hids _ hid), ?_⟩
    intro w hw
    obtain ⟨p, hp, hprepare⟩ := (mem_of_mapM_eq_ok hok w).mp hw
    exact prepare_proper (S := saving O K types a t) (fun h => h)
      (getResourcesByHashOrId_in t _ _ _ _) hbound (List.of_mem_zip hp).2 hfresh hprepare
  · intro id hid
    obtain ⟨p, hp, rfl⟩ := List.mem_map.mp hid
    exact (List.of_mem_zip (List.mem_of_mem_filter hp)).2

/-- **`save_bulk`**: the collection stays as it is, or the data source is one of the organization
and changes lead to the collection. -/
theorem saveBulk_changed (R : RuleContext) (K : Kind) (a : SaveBulkArgs)
    (hold : Consistent O types t) :
    (saveBulk O R K types a t).2 = t ∨ a.cloudAccountId ∈ O.cloudAccounts ∧
      Changed O types (saving O K types a t) (saveBulk O R K types a t).2 := by
  have hkeeps : (saveBulk O R K types a).Triple (fun s => s = t)
      (fun _ s => s = t ∨ a.cloudAccountId ∈ O.cloudAccounts ∧
        Changed O types (saving O K types a t) s)
      (fun s => s = t ∨ a.cloudAccountId ∈ O.cloudAccounts ∧
        Changed O types (saving O K types a t) s) := by
    unfold saveBulk
    refine .bind (Q := fun resources s => genCloudResourceIds K a.resources = .ok resources ∧ s = t)
      (.read (fun s resources hs hok => ⟨hok, hs⟩) fun s hs => Or.inl hs) fun resources =>
        .fact fun hresources => ?_
    refine .bind (Q := fun _ s => a.cloudAccountId ∈ O.cloudAccounts ∧ s = t)
      (.read (fun s _ hs hok => ⟨require_eq_ok.mp hok, hs⟩) fun s hs => Or.inl hs) fun _ =>
        .fact fun hplace => ?_
    refine .bind (Q := fun _ s => s = t)
      (.read (fun s _ hs _ => hs) fun s hs => Or.inl hs) fun _ => ?_
    split
    · exact .pure fun s hs => Or.inl hs
    · exact (saveBulkRows_triple hplace hold hresources).mono (fun _ h => h)
        (fun _ s h => Or.inr ⟨hplace, h⟩) fun s h => Or.inr ⟨hplace, h⟩
  cases hrun : saveBulk O R K types a t with
  | mk r s =>
    cases r with
    | ok u => exact hkeeps.ok rfl hrun
    | error e => exact hkeeps.error rfl hrun

end CloudResourceController
