import OptScale.Violations.Batches

/-!
# Violations/ClusterData — `collect_processing_data`, whatever the order

The total cost of a cluster is summed up and its earliest date found over all members.  Its last expense and its
pool are those of the member that comes first.  So the order does not matter, and a cluster is what all its
members make it, just when each member alone would do: it is in the pool of the others, and its last expense is
that of the cluster (`orderIndependent_iff`).
-/

namespace LimitHitsController

open ResourceObserverController

/-- Resources as they are processed: no two of one id, and none under the id of a cluster. -/
structure Processed where
  rows : List Found
  nodup : (rows.map Found.id).Nodup
  apart : Apart rows

/-- What is evaluated under an id. -/
def entries (resources : List Found) (id : Uuid) : List ResourceData :=
  (collectProcessingData resources).rows.filter fun d => d.resourceId = id

/-- In every order a resource outside clusters is evaluated on its own values, and a cluster on the same data,
which is what all its members make it. -/
def OrderIndependent (R : Processed) : Prop :=
  ∀ rs, rs.Perm R.rows →
    (∀ r ∈ R.rows, r.clusterId = none → entries rs r.id = [r.data r.id]) ∧
      ∀ clusterId, members clusterId R.rows ≠ [] →
        ∃ d, entries rs clusterId = [d] ∧ entries R.rows clusterId = [d] ∧ Whole (members clusterId R.rows) d

/-- Each member of a cluster has the last expense of the cluster, and the members have one pool. -/
def Uniform (R : Processed) : Prop :=
  ∀ clusterId, ∀ r ∈ members clusterId R.rows,
    LastExpense (members clusterId R.rows) r.lastExpenseDate r.lastExpenseCost ∧
      ∀ r' ∈ members clusterId R.rows, r'.poolId = r.poolId ∧ r'.lastExpenseDate = r.lastExpenseDate

section Order

variable {ms ms' rs : List Found} {clusterId : Uuid}

/-! ## Clusters in another order -/

theorem LastExpense.perm {date : ℤ} {cost : ℚ} (h : LastExpense ms date cost) (hms : ms.Perm ms') :
    LastExpense ms' date cost where
  last := by
    have hset : {day | ∃ r ∈ ms', dayStart r.lastExpenseDate = day} =
        {day | ∃ r ∈ ms, dayStart r.lastExpenseDate = day} := by
      ext day
      exact exists_congr fun r => and_congr_left' hms.symm.mem_iff
    rw [hset]
    exact h.last
  cost := h.cost.trans (((hms.filter _).map _).sum_eq)

theorem Whole.perm {d : ResourceData} (h : Whole ms d) (hms : ms.Perm ms') : Whole ms' d where
  totalCost := h.totalCost.trans ((hms.map _).sum_eq)
  mindate := by
    have hset : {t | ∃ r ∈ ms', r.firstSeen = t} = {t | ∃ r ∈ ms, r.firstSeen = t} := by
      ext t
      exact exists_congr fun r => and_congr_left' hms.symm.mem_iff
    rw [hset]
    exact h.mindate
  lastExpense := LastExpense.perm h.lastExpense hms

theorem members_perm (h : rs.Perm ms) : (members clusterId rs).Perm (members clusterId ms) := h.filter _

theorem apart_perm (h : rs.Perm ms) (hapart : Apart ms) : Apart rs := fun r hr r' hr' =>
  hapart r (h.subset hr) r' (h.subset hr')

/-- **A cluster has the pool and the last expense of its first member.** -/
theorem aggregate_first {r : Found} {d : ResourceData} (h : aggregate clusterId (r :: rs) = some d) :
    d.resourceId = clusterId ∧ d.poolId = r.poolId ∧ d.lastExpenseDate = r.lastExpenseDate := by
  obtain rfl := Option.some.inj h
  rw [foldl_join]
  exact ⟨rfl, rfl, rfl⟩

/-- What all members make of a cluster is one. -/
theorem Whole.unique {d d' : ResourceData} (h : Whole ms d) (h' : Whole ms d') (hid : d.resourceId = d'.resourceId)
    (hpool : d.poolId = d'.poolId) (hdate : d.lastExpenseDate = d'.lastExpenseDate) : d = d' := by
  have htotal : d.totalCost = d'.totalCost := h.totalCost.trans h'.totalCost.symm
  have hmin : d.mindate = d'.mindate := h.mindate.unique h'.mindate
  have hcost : d.lastExpenseCost = d'.lastExpenseCost := by
    rw [h.lastExpense.cost, h'.lastExpense.cost, hdate]
  cases d
  cases d'
  exact ResourceData.mk.injEq .. ▸ ⟨hid, hpool, htotal, hmin, hcost, hdate⟩

/-! ## Resources outside clusters -/

/-- A resource outside clusters is evaluated on its own values. -/
theorem entries_own (hnodup : (rs.map Found.id).Nodup) (hapart : Apart rs) {r : Found} (hr : r ∈ rs)
    (hcluster : r.clusterId = none) : entries rs r.id = [r.data r.id] := by
  induction rs using List.reverseRecOn with
  | nil => cases hr
  | append_singleton rs a ih =>
    rw [List.map_append, List.map_singleton, List.nodup_append] at hnodup
    obtain ⟨hnodup, -, hdisjoint⟩ := hnodup
    rw [entries, collect_concat, collect]
    obtain hr' | hr' := List.mem_append.mp hr
    · have hne : (a.data a.id).resourceId ≠ r.id :=
        (hdisjoint r.id (List.mem_map_of_mem hr') a.id (List.mem_singleton_self _)).symm
      have hold : entries rs r.id = [r.data r.id] := ih hnodup (fun b hb b' hb' =>
        hapart b (List.mem_append_left _ hb) b' (List.mem_append_left _ hb')) hr'
      cases hc : a.clusterId with
      | none => exact (Table.filter_upsert_of_ne hne).trans hold
      | some c =>
        have hne' : (a.data c).resourceId ≠ r.id := fun hid =>
          hapart a (List.mem_append_right _ (List.mem_singleton_self a)) r hr (hc.trans (congrArg some hid))
        exact (Table.filter_upsert_of_ne hne').trans hold
    · obtain rfl := List.mem_singleton.mp hr'
      rw [hcluster]
      have hself : ((collectProcessingData rs).upsert (r.data r.id) (fun d => r.data d.resourceId)
          fun _ => rfl).rows.filter (fun d => d.resourceId = (r.data r.id).resourceId) =
            if r.id ∈ (collectProcessingData rs).rows.map ResourceData.resourceId then
              ((collectProcessingData rs).rows.filter fun d => d.resourceId = r.id).map
                fun d => r.data d.resourceId
            else [r.data r.id] := Table.filter_upsert_self
      have hnew : r.id ∉ (collectProcessingData rs).rows.map ResourceData.resourceId := by
        intro hmem
        obtain ⟨d, hd, hid⟩ := List.mem_map.mp hmem
        obtain ⟨b, hb, hbd⟩ := exists_of_mem_collect hd
        unfold subject at hbd
        cases hc : b.clusterId with
        | none =>
          rw [hc] at hbd
          exact hdisjoint b.id (List.mem_map_of_mem hb) r.id (List.mem_singleton_self _) (hbd.trans hid)
        | some c =>
          rw [hc] at hbd
          exact hapart b (List.mem_append_left _ hb) r hr (hc.trans (congrArg some (hbd.trans hid)))
      exact hself.trans (if_neg hnew)

/-! ## The order -/

theorem entries_cluster (hapart : Apart rs) (hmembers : members clusterId rs ≠ []) :
    entries rs clusterId = (aggregate clusterId (members clusterId rs)).toList := by
  refine filter_collect fun r hr _ hid => ?_
  obtain ⟨m, hm⟩ := List.exists_mem_of_ne_nil _ hmembers
  obtain ⟨hm, hcluster⟩ := List.mem_filter.mp hm
  exact hapart m hm r hr ((of_decide_eq_true hcluster).trans (congrArg some hid.symm))

/-- A cluster in any order, by its first member. -/
theorem exists_entries {R : Processed} (hrs : rs.Perm R.rows) (hmembers : members clusterId R.rows ≠ []) :
    ∃ r d, (members clusterId rs).head? = some r ∧ r ∈ members clusterId R.rows ∧ entries rs clusterId = [d] ∧
      (d.resourceId = clusterId ∧ d.poolId = r.poolId ∧ d.lastExpenseDate = r.lastExpenseDate) ∧
        (Whole (members clusterId R.rows) d ↔
          LastExpense (members clusterId R.rows) r.lastExpenseDate r.lastExpenseCost) := by
  have hperm : (members clusterId rs).Perm (members clusterId R.rows) := members_perm hrs
  have hnonempty : members clusterId rs ≠ [] := fun hnil => hmembers (List.Perm.eq_nil (hnil ▸ hperm.symm))
  have hentries := entries_cluster (apart_perm hrs R.apart) hnonempty
  obtain ⟨r, ms, hms⟩ := List.exists_cons_of_ne_nil hnonempty
  rw [hms] at hentries hperm
  obtain ⟨d, hd⟩ : ∃ d, aggregate clusterId (r :: ms) = some d := ⟨_, rfl⟩
  refine ⟨r, d, by rw [hms]; rfl, hperm.subset List.mem_cons_self, by rw [hentries, hd]; rfl, aggregate_first hd, ?_⟩
  have hwhole := whole_aggregate hd
  exact ⟨fun h => LastExpense.perm (hwhole.mp (Whole.perm h hperm.symm)) hperm,
    fun h => Whole.perm (hwhole.mpr (LastExpense.perm h hperm.symm)) hperm⟩

end Order

/-- **When the order of the resources does not matter.**  The clusters are then what all their members make
them. -/
theorem orderIndependent_iff (R : Processed) : OrderIndependent R ↔ Uniform R := by
  refine ⟨fun h clusterId r hr => ?_, fun h rs hrs => ⟨fun r hr hcluster => ?_, fun clusterId hmembers => ?_⟩⟩
  · have hmembers : members clusterId R.rows ≠ [] := List.ne_nil_of_mem hr
    -- each member may come first
    have hfirst : ∀ m ∈ members clusterId R.rows, ∃ d, entries R.rows clusterId = [d] ∧
        LastExpense (members clusterId R.rows) m.lastExpenseDate m.lastExpenseCost ∧
          d.poolId = m.poolId ∧ d.lastExpenseDate = m.lastExpenseDate := by
      intro m hm
      obtain ⟨hmem, hcluster⟩ := List.mem_filter.mp hm
      have hrs : (m :: R.rows.erase m).Perm R.rows := (List.perm_cons_erase hmem).symm
      obtain ⟨-, hclusters⟩ := h _ hrs
      obtain ⟨d, hd, hsame, hwhole⟩ := hclusters clusterId hmembers
      obtain ⟨m', d', hhead, -, hd', ⟨-, hpool, hdate⟩, hiff⟩ := exists_entries hrs hmembers
      have hms : members clusterId (m :: R.rows.erase m) = m :: members clusterId (R.rows.erase m) :=
        List.filter_cons_of_pos hcluster
      rw [hms] at hhead
      obtain rfl := Option.some.inj hhead
      rw [hd] at hd'
      obtain rfl := List.singleton_inj.mp hd'
      exact ⟨d, hsame, hiff.mp hwhole, hpool, hdate⟩
    obtain ⟨d, hd, hlast, hpool, hdate⟩ := hfirst r hr
    refine ⟨hlast, fun r' hr' => ?_⟩
    obtain ⟨d', hd', -, hpool', hdate'⟩ := hfirst r' hr'
    rw [hd] at hd'
    obtain rfl := List.singleton_inj.mp hd'
    exact ⟨hpool'.symm.trans hpool, hdate'.symm.trans hdate⟩
  · have hids : (rs.map Found.id).Nodup := (hrs.map Found.id).nodup_iff.mpr R.nodup
    exact entries_own hids (apart_perm hrs R.apart) (hrs.symm.subset hr) hcluster
  · obtain ⟨r, d, -, hr, hd, ⟨hid, hpool, hdate⟩, hiff⟩ := exists_entries hrs hmembers
    obtain ⟨r₀, d₀, -, hr₀, hd₀, ⟨hid₀, hpool₀, hdate₀⟩, hiff₀⟩ := exists_entries (List.Perm.refl R.rows) hmembers
    obtain ⟨hlast, hsame⟩ := h clusterId r hr
    obtain ⟨hlast₀, -⟩ := h clusterId r₀ hr₀
    obtain ⟨hpools, hdates⟩ := hsame r₀ hr₀
    have hwhole := hiff.mpr hlast
    have heq : d = d₀ := Whole.unique hwhole (hiff₀.mpr hlast₀) (hid.trans hid₀.symm)
      (hpool.trans (hpools.symm.trans hpool₀.symm)) (hdate.trans (hdates.symm.trans hdate₀.symm))
    subst heq
    exact ⟨d, hd, hd₀, hwhole⟩

/-- Two members of cluster `9`, each with an expense of its own on one day. -/
def twoMembers : Processed where
  rows := [{ id := 1, clusterId := some 9, totalCost := 5, lastExpenseCost := 5, lastExpenseDate := 864000 },
    { id := 2, clusterId := some 9, totalCost := 7, lastExpenseCost := 7, lastExpenseDate := 864000 }]
  nodup := by decide
  apart := by unfold Apart; decide

/-- **The daily expense of a cluster** is that of the member that comes first. -/
theorem twoMembers_not_orderIndependent : ¬ OrderIndependent twoMembers := by
  intro h
  obtain ⟨-, hclusters⟩ := h twoMembers.rows (List.Perm.refl _)
  obtain ⟨d, hd, -, hwhole⟩ := hclusters 9 (by decide +kernel)
  have hcost : (entries twoMembers.rows 9).map ResourceData.lastExpenseCost = [5] := by decide +kernel
  have hdate : (entries twoMembers.rows 9).map ResourceData.lastExpenseDate = [864000] := by decide +kernel
  rw [hd] at hcost hdate
  have hsum := hwhole.lastExpense.cost
  rw [List.singleton_inj.mp hcost, List.singleton_inj.mp hdate] at hsum
  exact absurd hsum (by decide +kernel)

end LimitHitsController
