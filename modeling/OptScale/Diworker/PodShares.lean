import OptScale.Diworker.Recalculate
import OptScale.Foundations.Overwritten

/-!
# Diworker/PodShares — the cost of a node, by its pods

A node's day is paid by its pods, each by its value's share of the total.  The total counts every series, and the
store keeps one raw expense for a pod, a metric and a day: of two series of one pod the last one remains, and the
other one's share is lost.  A raw expense also keeps the name of the node that it was inserted for.  So the day
is paid exactly where nothing is overwritten that costs something, and what is kept under the names of other nodes
balances (`node_cost_distributed_iff`).
-/

open Fallible BaseReportImporter Chunks Grouped

namespace KubernetesReportImporter

/-! ## The pod of a container -/

section PodUuid

/-- What comes after a text's beginning. -/
def afterPrefix (beginning : List Char) (s : List Char) : Option (List Char) :=
  if beginning <+: s then some (s.drop beginning.length) else none

/-- `[a-f0-9_]` -/
def isUuidChar (c : Char) : Bool := ('a' ≤ c && c ≤ 'f') || ('0' ≤ c && c ≤ '9') || c == '_'

/-- `pod([a-f0-9_]+)\.slice$`, from the first character on; the end may be before a last line break. -/
def matchPod (s : List Char) : Option (List Char) :=
  (afterPrefix "pod".toList s).bind fun rest =>
    let uuid := rest.takeWhile isUuidChar
    let tail := rest.dropWhile isUuidChar
    if uuid ≠ [] ∧ (tail = ".slice".toList ∨ tail = ".slice\n".toList) then some uuid else none

/-- `extract_pod_uuid` -/
def extractPodUuid (containerId : String) : String :=
  match containerId.toList.tails.findSome? matchPod with
  | some uuid => String.ofList (uuid.map fun c => if c = '_' then '-' else c)
  | none => ((containerId.toList.tails.filterMap (afterPrefix "/pod".toList)).getLast?.map String.ofList).getD
      containerId

end PodUuid

variable {A : Account} {i : KubernetesReport} {M : KubernetesCostModel}

/-! ## The samples of a node's day -/

/-- The start of the day of a timestamp. -/
def dayStart (timestamp : ℤ) : Micros := timestamp * Micros.second - Micros.day

/-- The hours of a timestamp's day that have been worked. -/
def workedHrs (now : Micros) (timestamp : ℤ) : ℚ :=
  Micros.hours (min (timestamp * Micros.second) now - dayStart timestamp)

/-- The total of a node's pods. -/
def totalPodsValue (i : KubernetesReport) (metric : Metric) (timestamp : ℤ) (nodeName : String) : ℚ :=
  calculateTotalPodsMetrics (handleNegativeMetrics (i.getMetric metric)) timestamp nodeName

/-- What a node's day costs by a metric: the hourly price, for the hours worked. -/
def Sample.dayCost (M : KubernetesCostModel) (s : Sample) : ℚ :=
  KubernetesCostModel.hourlyCost (s.node.costModel.resolve M) s.metric * s.workedHrs

/-- A pod's share of it. -/
def Sample.share (M : KubernetesCostModel) (s : Sample) : ℚ := s.value / s.totalPodsValue * Sample.dayCost M s

theorem cost_expense (s : Sample) : (Sample.expense M s).cost = Sample.share M s := by
  simp only [Sample.expense, costFunc_eq, Sample.share, Sample.dayCost]
  ring

theorem stored_dayStart (timestamp : ℤ) : (dayStart timestamp).stored = dayStart timestamp := by
  have hmillis : dayStart timestamp = (timestamp * 1000 - 86400000) * 1000 := by
    simp only [dayStart, Micros.second, Micros.day, Micros.hour]
    ring
  rw [Micros.stored, hmillis, Int.mul_ediv_cancel _ (by decide)]

theorem dayStart_injective : Function.Injective dayStart := fun _ _ h =>
  mul_right_cancel₀ (by decide) (sub_left_injective h)

/-- An import that has its samples: the nodes are priced, and each value's node has a capacity. -/
structure Loading (A : Account) (i : KubernetesReport) where
  nodes : List (String × Node)
  customPrice : Option Bool
  samples : List Sample
  priced : NodesProvider.priceNodes i.prices i.customPrice i.nodeMetrics.rows = .ok (nodes, customPrice)
  built : KubernetesReportImporter.samples A i = .ok samples

/-- Where a sample comes from. -/
structure TakenAt (i : KubernetesReport) (nodes : List (String × Node)) (s : Sample) (timestamp : ℤ) : Prop where
  start : s.startDate = dayStart timestamp
  hrs : s.workedHrs = workedHrs i.now timestamp
  total : s.totalPodsValue = totalPodsValue i s.metric timestamp s.instance'
  node : nodes.lookup s.instance' = some s.node

variable {nodes : List (String × Node)} {metric : Metric} {ss : List Sample}

/-- The samples of a metric. -/
theorem metricSamples_taken (h : metricSamples A i nodes metric = .ok ss) {s : Sample} (hs : s ∈ ss) :
    s.metric = metric ∧ ∃ timestamp, TakenAt i nodes s timestamp := by
  obtain ⟨sss, hsss, h⟩ := bind_eq_ok.mp h
  obtain rfl := pure_eq_ok.mp h
  obtain ⟨ss, hss, hs⟩ := List.mem_flatten.mp hs
  obtain ⟨r, hr, hseries⟩ := (mem_of_mapM_eq_ok hsss ss).mp hss
  unfold seriesSamples at hseries
  split at hseries
  · obtain rfl := Except.ok.inj hseries
    exact absurd hs List.not_mem_nil
  · rename_i node hnode
    obtain ⟨v, hv, hsample⟩ := (mem_of_mapM_eq_ok hseries s).mp hs
    obtain ⟨info, -, hsample⟩ := bind_eq_ok.mp hsample
    obtain rfl := pure_eq_ok.mp hsample
    exact ⟨rfl, v.1, rfl, rfl, rfl, hnode⟩

/-- What is read of a sample: its day, its node and its value. -/
def reading (s : Sample) : Micros × String × ℚ := (s.startDate, s.instance', s.value)

/-- The readings of a series. -/
def seriesReadings (nodes : List (String × Node)) (r : Series) : List (Micros × String × ℚ) :=
  if (nodes.lookup r.instance').isSome then r.values.map fun v => (dayStart v.1, r.instance', v.2) else []

/-- **The samples are those of the series**, of nodes that are known. -/
theorem map_reading_metricSamples (h : metricSamples A i nodes metric = .ok ss) :
    ss.map reading = (handleNegativeMetrics (i.getMetric metric)).flatMap (seriesReadings nodes) := by
  obtain ⟨sss, hsss, h⟩ := bind_eq_ok.mp h
  obtain rfl := pure_eq_ok.mp h
  rw [List.map_flatten, List.flatMap_def]
  refine congrArg List.flatten (map_of_mapM_eq_ok (fun r _ ss hss => ?_) hsss)
  unfold seriesSamples at hss
  split at hss
  · rename_i hnode
    obtain rfl := Except.ok.inj hss
    rw [seriesReadings, hnode]
    rfl
  · rename_i node hnode
    rw [seriesReadings, hnode, Option.isSome_some, if_pos rfl]
    refine map_of_mapM_eq_ok (fun v _ s hs => ?_) hss
    obtain ⟨info, -, hs⟩ := bind_eq_ok.mp hs
    obtain rfl := pure_eq_ok.mp hs
    rfl

/-- **The values of a node's day add up to the total.** -/
theorem sum_readings (metrics : List Series) {name : String} (hname : (nodes.lookup name).isSome) (timestamp : ℤ) :
    (((metrics.flatMap (seriesReadings nodes)).filter fun x => x.1 = dayStart timestamp ∧ x.2.1 = name).map
      fun x => x.2.2).sum = calculateTotalPodsMetrics metrics timestamp name := by
  rw [calculateTotalPodsMetrics]
  induction metrics with
  | nil => rfl
  | cons r metrics ih =>
    rw [List.flatMap_cons, List.filter_append, List.map_append, List.sum_append, ih, List.filter_cons]
    by_cases hr : r.instance' = name
    · rw [if_pos (decide_eq_true hr), List.flatMap_cons, List.sum_append, seriesReadings, hr, if_pos hname,
        List.filter_map, List.map_map]
      simp only [Function.comp_def, dayStart_injective.eq_iff, and_true]
    · have hnone : (seriesReadings nodes r).filter (fun x => x.1 = dayStart timestamp ∧ x.2.1 = name) = [] := by
        refine List.filter_eq_nil_iff.mpr fun x hx => ?_
        unfold seriesReadings at hx
        split at hx
        · obtain ⟨v, -, rfl⟩ := List.mem_map.mp hx
          exact fun h => hr (of_decide_eq_true h).2
        · exact absurd hx List.not_mem_nil
      rw [if_neg (by simpa using hr), hnone, List.map_nil, List.sum_nil, zero_add]

/-- The day of a metric that a raw expense is of. -/
def OnDay (metric : Metric) (timestamp : ℤ) (k : KubernetesKey) : Prop :=
  k.metric = metric ∧ k.startDate = dayStart timestamp

instance (metric : Metric) (timestamp : ℤ) : DecidablePred (OnDay metric timestamp) := fun k =>
  inferInstanceAs (Decidable (k.metric = metric ∧ k.startDate = dayStart timestamp))

theorem TakenAt.onDay_iff {s : Sample} {timestamp : ℤ} (h : TakenAt i nodes s timestamp) {metric : Metric}
    {timestamp' : ℤ} : OnDay metric timestamp' (sampleKey s) ↔ s.metric = metric ∧ timestamp = timestamp' := by
  unfold OnDay sampleKey
  rw [h.start, stored_dayStart, dayStart_injective.eq_iff]

/-- The values of a metric's samples, of a node's day. -/
theorem sum_metricSamples (h : metricSamples A i nodes metric = .ok ss) {name : String}
    (hname : (nodes.lookup name).isSome) (metric' : Metric) (timestamp : ℤ) :
    ((ss.filter fun s => OnDay metric' timestamp (sampleKey s) ∧ s.instance' = name).map Sample.value).sum =
      if metric = metric' then totalPodsValue i metric timestamp name else 0 := by
  by_cases hmetric : metric = metric'
  · subst hmetric
    have hfilter : (ss.filter fun s => OnDay metric timestamp (sampleKey s) ∧ s.instance' = name) =
        ss.filter fun s => (reading s).1 = dayStart timestamp ∧ (reading s).2.1 = name := by
      refine List.filter_congr fun s hs => decide_eq_decide.mpr ?_
      obtain ⟨hmetric, t, ht⟩ := metricSamples_taken h hs
      rw [ht.onDay_iff, reading, ht.start, dayStart_injective.eq_iff, and_iff_right hmetric]
    have hsum := sum_readings (handleNegativeMetrics (i.getMetric metric)) hname timestamp
    rw [← map_reading_metricSamples h, List.filter_map, List.map_map] at hsum
    rw [if_pos rfl, hfilter]
    exact hsum
  · have hnone : (ss.filter fun s => OnDay metric' timestamp (sampleKey s) ∧ s.instance' = name) = [] := by
      refine List.filter_eq_nil_iff.mpr fun s hs hday => hmetric ?_
      rw [← (metricSamples_taken h hs).1]
      exact (of_decide_eq_true hday).1.1
    rw [if_neg hmetric, hnone]
    rfl

/-! ## What is stored -/

/-- The node a raw expense names: that of the raw expense that was there, or of the first sample. -/
def recordNode (raw : Raw) (ss : List Sample) (k : KubernetesKey) : Option String :=
  ((raw.get? k).map KubernetesExpense.instance').or ((group sampleKey ss k).head?.map Sample.instance')

/-- **The raw expense of a sample's key**: it names a node, and has the share of the last sample. -/
theorem get?_of_mem_keys (raw : Raw) {k : KubernetesKey} (hk : k ∈ keys sampleKey ss) :
    ∃ e last, (updateRawRecords fields (ss.map (Sample.expense M)) raw).get? k = some e ∧
      fields.unique e = k ∧ recordNode raw ss k = some e.instance' ∧
      (group sampleKey ss k).getLast? = some last ∧ last ∈ ss ∧ sampleKey last = k ∧ e.cost = Sample.share M last := by
  obtain ⟨last, hlast, hmem, hkey⟩ := exists_last hk
  have hwrites : ((ss.map (Sample.expense M)).filter fun e => fields.unique e = k) =
      (group sampleKey ss k).map (Sample.expense M) := List.filter_map
  have hnode := map_get?_of_kept (F := fields) (p := KubernetesExpense.instance') (fun _ _ => rfl)
    (ss.map (Sample.expense M)) raw k
  have hcost := map_get?_of_written (F := fields) (p := KubernetesExpense.cost) (fun _ _ => rfl)
    (ss.map (Sample.expense M)) raw k
  rw [hwrites, List.getLast?_map, hlast, Option.map_some, Option.map_some, Option.some_or, cost_expense] at hcost
  rw [hwrites, List.head?_map, Option.map_map] at hnode
  obtain ⟨e, he, hcost⟩ := Option.map_eq_some_iff.mp hcost
  rw [he] at hnode
  exact ⟨e, last, he, (Table.get?_eq_some.mp he).2, hnode.symm, hlast, hmem, hkey, hcost⟩

namespace Loading

variable (L : Loading A i)

theorem samples_eq : ∃ memory cpu, L.samples = memory ++ cpu ∧
    metricSamples A i L.nodes .containerMemoryUsageBytes = .ok memory ∧
    metricSamples A i L.nodes .containerCpuUsageSecondsTotal = .ok cpu := by
  have h := L.built
  unfold KubernetesReportImporter.samples at h
  rw [L.priced, ok_bind] at h
  obtain ⟨memory, hmemory, h⟩ := bind_eq_ok.mp h
  obtain ⟨cpu, hcpu, h⟩ := bind_eq_ok.mp h
  exact ⟨memory, cpu, (pure_eq_ok.mp h).symm, hmemory, hcpu⟩

theorem taken {s : Sample} (hs : s ∈ L.samples) : ∃ timestamp, TakenAt i L.nodes s timestamp := by
  obtain ⟨memory, cpu, hsamples, hmemory, hcpu⟩ := L.samples_eq
  rw [hsamples] at hs
  rcases List.mem_append.mp hs with hs | hs
  · exact (metricSamples_taken hmemory hs).2
  · exact (metricSamples_taken hcpu hs).2

/-- **The values of a node's day add up to its total.** -/
theorem sum_values {name : String} (hname : (L.nodes.lookup name).isSome) (metric : Metric) (timestamp : ℤ) :
    ((L.samples.filter fun s => OnDay metric timestamp (sampleKey s) ∧ s.instance' = name).map Sample.value).sum =
      totalPodsValue i metric timestamp name := by
  obtain ⟨memory, cpu, hsamples, hmemory, hcpu⟩ := L.samples_eq
  rw [hsamples, List.filter_append, List.map_append, List.sum_append, sum_metricSamples hmemory hname,
    sum_metricSamples hcpu hname]
  cases metric with
  | containerMemoryUsageBytes => rw [if_pos rfl, if_neg (by decide), add_zero]
  | containerCpuUsageSecondsTotal => rw [if_neg (by decide), if_pos rfl, zero_add]

/-- **The shares of a node's day add up to its cost.** -/
theorem sum_shares (M : KubernetesCostModel) {name : String} {node : Node} (hname : L.nodes.lookup name = some node)
    {metric : Metric} {timestamp : ℤ} (htotal : 0 < totalPodsValue i metric timestamp name) :
    ((L.samples.filter fun s => OnDay metric timestamp (sampleKey s) ∧ s.instance' = name).map
      (Sample.share M)).sum =
      KubernetesCostModel.hourlyCost (node.costModel.resolve M) metric * workedHrs i.now timestamp := by
  have hshare : ∀ s ∈ L.samples.filter fun s => OnDay metric timestamp (sampleKey s) ∧ s.instance' = name,
      Sample.share M s = s.value * ((totalPodsValue i metric timestamp name)⁻¹ *
        (KubernetesCostModel.hourlyCost (node.costModel.resolve M) metric * workedHrs i.now timestamp)) := by
    intro s hs
    obtain ⟨hmem, hnode⟩ := List.mem_filter.mp hs
    obtain ⟨hday, rfl⟩ := of_decide_eq_true hnode
    obtain ⟨t, ht⟩ := L.taken hmem
    obtain ⟨rfl, rfl⟩ := ht.onDay_iff.mp hday
    obtain rfl : node = s.node := Option.some.inj (hname.symm.trans ht.node)
    rw [Sample.share, Sample.dayCost, ht.total, ht.hrs, div_eq_mul_inv, mul_assoc]
  rw [List.map_congr_left hshare, List.sum_map_mul_right, L.sum_values (by rw [hname]; rfl),
    mul_inv_cancel_left₀ htotal.ne']

/-- The raw expenses of the import's keys. -/
def stored (raw : Raw) : List KubernetesExpense :=
  raw.rows.filter fun e => fields.unique e ∈ keys sampleKey L.samples

/-- **What is stored for a metric, a timestamp and a node.** -/
def spread (raw : Raw) (metric : Metric) (timestamp : ℤ) (name : String) : ℚ :=
  (((L.stored raw).filter fun e => OnDay metric timestamp (fields.unique e) ∧ e.instance' = name).map
    KubernetesExpense.cost).sum

/-- **The cost of the nodes is distributed**: what is stored for a node's day is its cost, and nothing is negative. -/
def Distributed (M : KubernetesCostModel) (raw : Raw) : Prop :=
  ∃ raw', loadRawData A M i raw = .ok raw' ∧ (∀ e ∈ L.stored raw', 0 ≤ e.cost) ∧
    ∀ metric timestamp name node, L.nodes.lookup name = some node → 0 < totalPodsValue i metric timestamp name →
      L.spread raw' metric timestamp name =
        KubernetesCostModel.hourlyCost (node.costModel.resolve M) metric * workedHrs i.now timestamp

/-- No day costs less than nothing. -/
def Charged (M : KubernetesCostModel) : Prop := ∀ s ∈ L.samples, 0 < s.value → 0 ≤ Sample.dayCost M s

/-- **Nothing is lost**: what is overwritten has no value, or its day costs nothing. -/
def NothingLost (M : KubernetesCostModel) : Prop :=
  ∀ s, Overwritten sampleKey L.samples s → s.value = 0 ∨ Sample.dayCost M s = 0

/-- **The names balance**: of a node's day, what is kept under other names is what is kept under its name of other
nodes. -/
def Balanced (M : KubernetesCostModel) (raw : Raw) : Prop :=
  ∀ metric timestamp name node, L.nodes.lookup name = some node → 0 < totalPodsValue i metric timestamp name →
    ((L.samples.filter fun s => (OnDay metric timestamp (sampleKey s) ∧ s.instance' = name) ∧
        ¬ recordNode raw L.samples (sampleKey s) = some name).map (Sample.share M)).sum =
      ((L.samples.filter fun s => (OnDay metric timestamp (sampleKey s) ∧
        recordNode raw L.samples (sampleKey s) = some name) ∧ ¬ s.instance' = name).map (Sample.share M)).sum

/-! ## The raw expenses after a load -/

variable {L} {raw : Raw}

variable (L raw) in
/-- What a load writes. -/
theorem loadRawData_eq (M : KubernetesCostModel) : loadRawData A M i raw =
    .ok (updateRawRecords fields (L.samples.map (Sample.expense M)) raw) := by
  rw [loadRawData, L.built, ok_bind, BaseReportImporter.foldl_updateRawRecords, flatten_toChunks]
  rfl

theorem share_eq_zero_iff {s : Sample} (hs : s ∈ L.samples) :
    Sample.share M s = 0 ↔ s.value = 0 ∨ Sample.dayCost M s = 0 := by
  obtain ⟨-, hvalue, htotal⟩ := samples_measured L.built s hs
  rw [Sample.share, mul_eq_zero, div_eq_zero_iff]
  refine or_congr_left ⟨fun h => h.elim id fun hzero => ?_, Or.inl⟩
  exact le_antisymm (htotal.trans hzero.le) hvalue

theorem Charged.share_nonneg (h : L.Charged M) {s : Sample} (hs : s ∈ L.samples) : 0 ≤ Sample.share M s := by
  obtain ⟨-, hvalue, htotal⟩ := samples_measured L.built s hs
  rcases hvalue.eq_or_lt with hzero | hpos
  · exact ((share_eq_zero_iff hs).mpr (Or.inl hzero.symm)).ge
  · exact mul_nonneg (div_nonneg hvalue (hvalue.trans htotal)) (h s hs hpos)

/-- A sample's raw expense names a node. -/
theorem exists_recordNode (L : Loading A i) (raw : Raw) {s : Sample} (hs : s ∈ L.samples) :
    ∃ name, recordNode raw L.samples (sampleKey s) = some name := by
  obtain ⟨e, -, -, -, hnode, -⟩ := get?_of_mem_keys (M := ⟨0, 0⟩) raw (mem_keys.mpr ⟨s, hs, rfl⟩)
  exact ⟨_, hnode⟩

variable (L raw M) in
/-- **The stored costs are those of the last samples.** -/
theorem sum_stored (q : KubernetesKey → String → Prop) [∀ k name, Decidable (q k name)] :
    (((L.stored (updateRawRecords fields (L.samples.map (Sample.expense M)) raw)).filter fun e =>
        q (fields.unique e) e.instance').map KubernetesExpense.cost).sum =
      sumLast sampleKey L.samples fun s =>
        if ∃ name ∈ recordNode raw L.samples (sampleKey s), q (sampleKey s) name then Sample.share M s else 0 := by
  have hkeys : (keys sampleKey L.samples).Nodup := List.nodup_dedup _
  rw [Grouped.sum_filter, stored, Table.sum_rows_of_keys hkeys]
  · refine congrArg List.sum (List.map_congr_left fun k hk => ?_)
    obtain ⟨e, last, he, hunique, hnode, hlast, -, rfl, hcost⟩ := get?_of_mem_keys (M := M) raw hk
    rw [he, weightLast, hlast, Option.map_some, Option.map_some, Option.getD_some, Option.getD_some, hunique, hcost,
      hnode]
    simp only [Option.mem_some_iff, exists_eq_left']
  · intro k hk
    obtain ⟨e, -, he, -⟩ := get?_of_mem_keys (M := M) raw hk
    obtain ⟨hrow, rfl⟩ := Table.get?_eq_some.mp he
    exact List.mem_map_of_mem hrow

/-- **Where nothing is lost**, a node's day has the shares that are kept under its name. -/
theorem spread_eq (hcharged : L.Charged M) (hlost : L.NothingLost M) (metric : Metric) (timestamp : ℤ)
    (name : String) :
    L.spread (updateRawRecords fields (L.samples.map (Sample.expense M)) raw) metric timestamp name =
      ((L.samples.filter fun s => OnDay metric timestamp (sampleKey s) ∧
        recordNode raw L.samples (sampleKey s) = some name).map (Sample.share M)).sum := by
  have hnode : ∀ s, (∃ name' ∈ recordNode raw L.samples (sampleKey s),
      OnDay metric timestamp (sampleKey s) ∧ name' = name) ↔
      OnDay metric timestamp (sampleKey s) ∧ recordNode raw L.samples (sampleKey s) = some name := fun s =>
    ⟨fun ⟨_, hname, hday, heq⟩ => ⟨hday, heq ▸ hname⟩, fun ⟨hday, hname⟩ => ⟨name, hname, hday, rfl⟩⟩
  have hover : ∀ f : Sample → ℚ, (∀ s, Sample.share M s = 0 → f s = 0) → (∀ s ∈ L.samples, 0 ≤ f s) →
      sumOver sampleKey L.samples f = 0 := fun f hf hnonneg => (sumOver_eq_zero_iff hnonneg).mpr fun s hs =>
    hf s ((share_eq_zero_iff hs.mem).mpr (hlost s hs))
  rw [spread, sum_stored M L raw fun k name' => OnDay metric timestamp k ∧ name' = name, Grouped.sum_filter]
  simp only [hnode]
  rw [← sumLast_add_sumOver sampleKey L.samples, hover, add_zero]
  · exact fun s hs => by rw [hs, ite_self]
  · intro s hs
    split
    · exact hcharged.share_nonneg hs
    · exact le_rfl

/-! ## What is distributed -/

theorem Distributed.charged (h : L.Distributed M raw) : L.Charged M := by
  obtain ⟨raw', -, hnonneg, hspread⟩ := h
  intro s hs hpos
  obtain ⟨-, -, htotal⟩ := samples_measured L.built s hs
  obtain ⟨t, ht⟩ := L.taken hs
  have hday := hspread s.metric t s.instance' s.node ht.node (ht.total ▸ hpos.trans_le htotal)
  rw [← ht.hrs] at hday
  rw [Sample.dayCost, ← hday]
  refine List.sum_nonneg fun x hx => ?_
  obtain ⟨e, he, rfl⟩ := List.mem_map.mp hx
  exact hnonneg e (List.mem_of_mem_filter he)

/-- The days of all nodes are not more than is stored. -/
theorem Distributed.sum_onDay_le (h : L.Distributed M raw) (metric : Metric) (timestamp : ℤ) :
    ((L.samples.filter fun s => OnDay metric timestamp (sampleKey s)).map (Sample.share M)).sum ≤
      sumLast sampleKey L.samples fun s => if OnDay metric timestamp (sampleKey s) then Sample.share M s else 0 := by
  have hcharged := h.charged
  obtain ⟨raw', hload, hnonneg, hspread⟩ := h
  obtain rfl := Except.ok.inj (hload.symm.trans (loadRawData_eq L raw M))
  have hstored := sum_stored M L raw fun k _ => OnDay metric timestamp k
  have hany : ∀ s ∈ L.samples, (if ∃ name ∈ recordNode raw L.samples (sampleKey s),
      OnDay metric timestamp (sampleKey s) then Sample.share M s else 0) =
      if OnDay metric timestamp (sampleKey s) then Sample.share M s else 0 := by
    intro s hs
    obtain ⟨name, hname⟩ := exists_recordNode L raw hs
    exact if_congr ⟨fun ⟨_, _, hday⟩ => hday, fun hday => ⟨name, hname, hday⟩⟩ rfl rfl
  rw [sumLast_congr sampleKey L.samples _ hany] at hstored
  rw [← hstored, ← sum_groups_of_nodup (List.nodup_dedup (L.nodes.map Prod.fst)) Sample.instance']
  · have hgroups : ((L.nodes.map Prod.fst).dedup.map fun name => ((group KubernetesExpense.instance'
        ((L.stored _).filter fun e => OnDay metric timestamp (fields.unique e)) name).map
          KubernetesExpense.cost).sum).sum ≤ _ :=
      sum_groups_le_of_nodup (List.nodup_dedup _) fun e he => hnonneg e (List.mem_of_mem_filter he)
    refine (List.sum_le_sum fun name hname => ?_).trans hgroups
    rw [group, filter_filter_prop, filter_filter_prop]
    obtain ⟨node, hnode⟩ : ∃ node, L.nodes.lookup name = some node := by
      obtain ⟨n, hn, rfl⟩ := List.mem_map.mp (List.mem_dedup.mp hname)
      exact Option.isSome_iff_exists.mp (List.lookup_isSome_iff.mpr ⟨n, hn, beq_self_eq_true _⟩)
    rcases lt_or_ge 0 (totalPodsValue i metric timestamp name) with htotal | htotal
    · exact ((L.sum_shares M hnode htotal).trans (hspread metric timestamp name node hnode htotal).symm).le
    · -- no pod of the node has a value
      have hzero : ∀ x ∈ (L.samples.filter fun s => OnDay metric timestamp (sampleKey s) ∧ s.instance' = name).map
          (Sample.share M), x = 0 := by
        intro x hx
        obtain ⟨s, hs, rfl⟩ := List.mem_map.mp hx
        obtain ⟨hmem, hnode⟩ := List.mem_filter.mp hs
        obtain ⟨hday, rfl⟩ := of_decide_eq_true hnode
        obtain ⟨t, ht⟩ := L.taken hmem
        obtain ⟨rfl, rfl⟩ := ht.onDay_iff.mp hday
        obtain ⟨-, hvalue, hle⟩ := samples_measured L.built s hmem
        exact (share_eq_zero_iff hmem).mpr (Or.inl (le_antisymm (hle.trans (ht.total ▸ htotal)) hvalue))
      rw [List.sum_eq_zero hzero]
      refine List.sum_nonneg fun x hx => ?_
      obtain ⟨e, he, rfl⟩ := List.mem_map.mp hx
      exact hnonneg e (List.mem_of_mem_filter he)
  · intro s hs
    obtain ⟨t, ht⟩ := L.taken (List.mem_of_mem_filter hs)
    have hname : (L.nodes.lookup s.instance').isSome := by rw [ht.node]; rfl
    obtain ⟨n, hn, hns⟩ := List.lookup_isSome_iff.mp hname
    exact List.mem_dedup.mpr (List.mem_map.mpr ⟨n, hn, (eq_of_beq hns).symm⟩)

theorem Distributed.nothingLost (h : L.Distributed M raw) : L.NothingLost M := by
  intro s hs
  obtain ⟨t, ht⟩ := L.taken hs.mem
  have hle := h.sum_onDay_le s.metric t
  rw [Grouped.sum_filter, ← sumLast_add_sumOver sampleKey L.samples] at hle
  have hnonneg : ∀ s' ∈ L.samples, 0 ≤ if OnDay s.metric t (sampleKey s') then Sample.share M s' else 0 := by
    intro s' hs'
    split
    · exact h.charged.share_nonneg hs'
    · exact le_rfl
  have hzero := le_antisymm (nonpos_of_add_le_right hle) (sumOver_nonneg hnonneg)
  have hshare := (sumOver_eq_zero_iff hnonneg).mp hzero s hs
  rw [if_pos (ht.onDay_iff.mpr ⟨rfl, rfl⟩)] at hshare
  exact (share_eq_zero_iff hs.mem).mp hshare

/-- The shares of a day that are a node's, and those that are kept under its name. -/
theorem sums_eq_iff (L : Loading A i) (M : KubernetesCostModel) (raw : Raw) (metric : Metric) (timestamp : ℤ)
    (name : String) :
    ((L.samples.filter fun s => OnDay metric timestamp (sampleKey s) ∧ s.instance' = name).map
        (Sample.share M)).sum =
      ((L.samples.filter fun s => OnDay metric timestamp (sampleKey s) ∧
        recordNode raw L.samples (sampleKey s) = some name).map (Sample.share M)).sum ↔
    ((L.samples.filter fun s => (OnDay metric timestamp (sampleKey s) ∧ s.instance' = name) ∧
        ¬ recordNode raw L.samples (sampleKey s) = some name).map (Sample.share M)).sum =
      ((L.samples.filter fun s => (OnDay metric timestamp (sampleKey s) ∧
        recordNode raw L.samples (sampleKey s) = some name) ∧ ¬ s.instance' = name).map (Sample.share M)).sum := by
  rw [sum_filter_and_not L.samples (Sample.share M) _ fun s => recordNode raw L.samples (sampleKey s) = some name,
    sum_filter_and_not L.samples (Sample.share M)
      (fun s => OnDay metric timestamp (sampleKey s) ∧ recordNode raw L.samples (sampleKey s) = some name)
      fun s => s.instance' = name]
  have hboth : (L.samples.filter fun s => (OnDay metric timestamp (sampleKey s) ∧ s.instance' = name) ∧
      recordNode raw L.samples (sampleKey s) = some name) =
      L.samples.filter fun s => (OnDay metric timestamp (sampleKey s) ∧
        recordNode raw L.samples (sampleKey s) = some name) ∧ s.instance' = name :=
    List.filter_congr fun s _ => decide_eq_decide.mpr and_right_comm
  rw [hboth, add_right_inj]

/-- **The cost of the nodes is distributed exactly where nothing is lost and the names balance.** -/
theorem node_cost_distributed_iff (L : Loading A i) (M : KubernetesCostModel) (raw : Raw) :
    L.Distributed M raw ↔ L.Charged M ∧ L.NothingLost M ∧ L.Balanced M raw := by
  constructor
  · intro h
    refine ⟨h.charged, h.nothingLost, fun metric t name node hnode htotal => ?_⟩
    rw [← sums_eq_iff, L.sum_shares M hnode htotal, ← spread_eq h.charged h.nothingLost]
    obtain ⟨raw', hload, -, hspread⟩ := h
    obtain rfl := Except.ok.inj (hload.symm.trans (loadRawData_eq L raw M))
    exact (hspread metric t name node hnode htotal).symm
  · rintro ⟨hcharged, hlost, hbalanced⟩
    refine ⟨_, loadRawData_eq L raw M, fun e he => ?_, fun metric t name node hnode htotal => ?_⟩
    · obtain ⟨he, hkey⟩ := List.mem_filter.mp he
      obtain ⟨e', last, he', -, -, -, hlast, -, hcost⟩ := get?_of_mem_keys (M := M) raw (of_decide_eq_true hkey)
      obtain rfl : e' = e := Option.some.inj (he'.symm.trans (Table.get?_eq_some.mpr ⟨he, rfl⟩))
      rw [hcost]
      exact hcharged.share_nonneg hlast
    · rw [spread_eq hcharged hlost, ← (sums_eq_iff L M raw metric t name).mpr
        (hbalanced metric t name node hnode htotal), L.sum_shares M hnode htotal]

/-! ### Two series of a pod -/

/-- A series of the pod `p` of the node `n`, with a label that differs. -/
def podSeries (instanceType : Option String) : Series :=
  ⟨"p", "n", "/kubepods.slice/kubepods-pod0a_1b.slice", instanceType, [(86400, 1)]⟩

/-- Two such series, of a local node. -/
def twoSeries : KubernetesReport where
  now := 86400 * Micros.second
  customPrice := none
  nodeMetrics := ⟨[("n", ⟨none, none, none, none⟩)], by decide⟩
  prices _ := []
  nodeInfo _ _ := some ⟨1, 1⟩
  getMetric
    | .containerMemoryUsageBytes => [podSeries none, podSeries (some "m5.large")]
    | .containerCpuUsageSecondsTotal => []

/-- The sample of a series. -/
def podSample (instanceType : Option String) : Sample :=
  sample ⟨1, extractPodUuid⟩ twoSeries.now .containerMemoryUsageBytes (podSeries instanceType)
    ⟨none, none, none, none, none, .default⟩ ⟨1, 1⟩
    (totalPodsValue twoSeries .containerMemoryUsageBytes 86400 "n") (86400, 1)

/-- What the import builds. -/
def podLoading : Loading ⟨1, extractPodUuid⟩ twoSeries where
  nodes := [("n", ⟨none, none, none, none, none, .default⟩)]
  customPrice := some true
  samples := [podSample none, podSample (some "m5.large")]
  priced := rfl
  built := rfl

/-- **Of two series of a pod one is lost.** -/
theorem half_lost : ¬ ∀ (A : Account) (i : KubernetesReport) (L : Loading A i) (M : KubernetesCostModel) (raw : Raw),
    L.Distributed M raw := by
  intro h
  have hover : Overwritten sampleKey podLoading.samples (podSample none) := by
    have hgroup : group sampleKey podLoading.samples (sampleKey (podSample none)) =
        [podSample none, podSample (some "m5.large")] := by
      refine List.filter_eq_self.mpr fun s hs => decide_eq_true ?_
      rcases List.mem_pair.mp hs with rfl | rfl
      · rfl
      · rfl
    rw [Overwritten, hgroup]
    exact List.mem_cons_self
  rcases (h _ _ podLoading ⟨1, 1⟩ .empty).nothingLost _ hover with hvalue | hcost
  · exact absurd hvalue one_ne_zero
  · have hday : Sample.dayCost ⟨1, 1⟩ (podSample none) = 24 := by
      decide +kernel
    rw [hday] at hcost
    exact absurd hcost (by decide)

end Loading

end KubernetesReportImporter
