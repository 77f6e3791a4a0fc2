import OptScale.Foundations.Grouped
import OptScale.Rest.Failure

/-!
# Metroculus/PodMetrics — `get_k8s_metrics`: the metrics of pods

Prometheus answers a query with series, several for a pod with several containers.  Their values are kept in
nested dictionaries, by namespace, type of metric, pod, date and metric: the container is no part of a place, and
what comes last at a place stays.
-/

open Dict

namespace MetricsProcessor

/-! ## Metrics and series -/

/-- The parts of `K8S_METRIC_QUERY_MAP`. -/
inductive MetricType
  | podLimits | namespaceResourceQuotas
  deriving DecidableEq, Repr

/-- The metrics that are queried. -/
inductive K8sMetric
  | podCpuAverageUsage | podMemoryAverageUsage
  | podCpuProvision | podCpuRequests | podMemoryProvision | podMemoryRequests
  | namespaceCpuProvisionUsed | namespaceMemoryProvisionUsed
  | namespaceCpuRequestsUsed | namespaceMemoryRequestsUsed
  | namespaceQuotaCpuProvisionHard | namespaceQuotaMemoryProvisionHard
  | namespaceQuotaCpuProvisionMedium | namespaceQuotaMemoryProvisionMedium
  | namespaceQuotaCpuProvisionLow | namespaceQuotaMemoryProvisionLow
  | namespaceQuotaCpuRequestsHard | namespaceQuotaMemoryRequestsHard
  | namespaceQuotaCpuRequestsMedium | namespaceQuotaMemoryRequestsMedium
  | namespaceQuotaCpuRequestsLow | namespaceQuotaMemoryRequestsLow
  deriving DecidableEq, Repr

/-- The pod-level metrics, in the order of their queries. -/
def podLimitMetrics : List K8sMetric :=
  [.podCpuAverageUsage, .podMemoryAverageUsage, .podCpuProvision, .podCpuRequests, .podMemoryProvision,
    .podMemoryRequests]

/-- The quota metrics, in the order of their queries. -/
def quotaMetrics : List K8sMetric :=
  [.namespaceCpuProvisionUsed, .namespaceMemoryProvisionUsed, .namespaceCpuRequestsUsed,
    .namespaceMemoryRequestsUsed, .namespaceQuotaCpuProvisionHard, .namespaceQuotaMemoryProvisionHard,
    .namespaceQuotaCpuProvisionMedium, .namespaceQuotaMemoryProvisionMedium, .namespaceQuotaCpuProvisionLow,
    .namespaceQuotaMemoryProvisionLow, .namespaceQuotaCpuRequestsHard, .namespaceQuotaMemoryRequestsHard,
    .namespaceQuotaCpuRequestsMedium, .namespaceQuotaMemoryRequestsMedium, .namespaceQuotaCpuRequestsLow,
    .namespaceQuotaMemoryRequestsLow]

/-- The metrics of `K8S_METRIC_QUERY_MAP`. -/
def k8sMetrics : List K8sMetric := podLimitMetrics ++ quotaMetrics

/-- The part of a metric. -/
def K8sMetric.type (m : K8sMetric) : MetricType :=
  if m ∈ podLimitMetrics then .podLimits else .namespaceResourceQuotas

/-- A series: its labels, and its values by their times, one for a time. -/
structure Series where
  namespaceName : Option String
  pod : Option String
  /-- The other labels: the container, the image, … -/
  labels : List (String × String) := []
  values : List (ℚ × ℚ)
  nodup_dates : (values.map Prod.fst).Nodup

/-- `METRIC_INTERVAL` -/
def metricInterval : ℚ := 900

/-- The value that is kept. -/
def metricValue (m : K8sMetric) (value : ℚ) : ℚ :=
  if m = .podCpuAverageUsage then max (value / metricInterval) 0 else value

/-- The pod of a series, if it has one. -/
def Series.podName (s : Series) : Option String := s.pod.filter fun pod => pod ≠ ""

/-! ## The map of metrics -/

/-- The way to a value in `k8s_metric_map`, up to the metric's name; there is no pod on it for a quota, nor for
a series without one. -/
structure Path where
  namespaceName : Option String
  type : MetricType
  pod : Option String
  date : ℚ
  deriving DecidableEq

/-- `k8s_metric_map` -/
abbrev MetricMap := Dict Path (Dict K8sMetric ℚ)

/-- The path to a value of a series. -/
def path (m : K8sMetric) (s : Series) (date : ℚ) : Path := ⟨s.namespaceName, m.type, s.podName, date⟩

/-- Keep the values of a series; only pod-level metrics have dictionaries of pods. -/
def addSeries (m : K8sMetric) (map : MetricMap) (s : Series) : Except Failure MetricMap :=
  if m.type = .namespaceResourceQuotas ∧ s.podName.isSome then .error (.python "KeyError")
  else .ok (s.values.foldl (fun map v => setAt map (path m s v.1) m (metricValue m v.2)) map)

/-- The series each query is answered with. -/
abbrev Answers := K8sMetric → List Series

/-- The loops over the queries and their series. -/
def metricMap (answers : Answers) : Except Failure MetricMap :=
  k8sMetrics.foldlM (fun map m => (answers m).foldlM (addSeries m) map) ∅

/-! ## The rows -/

/-- A row: the account, the resource, the date and a value for each metric. -/
structure Row where
  cloudAccountId : String
  resourceId : String
  date : ℚ
  values : K8sMetric → ℚ

/-- An item of `resource_ids_map`. -/
structure ResourceItem where
  cloudResourceId : String
  resourceId : String
  pod : Option String
  namespaceName : Option String

/-- `namespace_pod_map` -/
def namespacePodMap (resourceIdsMap : List ResourceItem) : Dict (Option String × Option String) String :=
  setAll (fun r : ResourceItem => (r.namespaceName, r.pod)) ResourceItem.resourceId resourceIdsMap

variable (cloudAccountId : String) (resourceIdsMap : List ResourceItem) (map : MetricMap)

/-- The resource of a pod-level path. -/
def resourceOf (p : Path) : Option String :=
  if p.type = .podLimits then
    (p.pod.bind fun pod => (namespacePodMap resourceIdsMap).lookup (p.namespaceName, some pod)).filter
      fun resourceId => resourceId ≠ ""
  else none

/-- The path of the quotas of a namespace. -/
def Path.quotas (p : Path) : Path := { p with type := .namespaceResourceQuotas, pod := none }

/-- The row of a pod's metrics at a date and of the quotas of its namespace; what is missing is zero. -/
def rowOf (p : Path) (resourceId : String) : Row :=
  let podMetrics := Dict.update ((map.lookup p).getD ∅) ((map.lookup p.quotas).getD ∅)
  { cloudAccountId := cloudAccountId
    resourceId := resourceId
    date := p.date
    values := fun m => (podMetrics.lookup m).getD 0 }

/-- The rows, each with its path. -/
def podRows : List (Path × Row) :=
  map.keys.filterMap fun p =>
    (resourceOf resourceIdsMap p).map fun resourceId => (p, rowOf cloudAccountId map p resourceId)

/-- `get_k8s_metrics` -/
def getK8sMetrics (answers : Answers) : Except Failure (List Row) :=
  (metricMap answers).map fun map => (podRows cloudAccountId resourceIdsMap map).map Prod.snd

/-! ## What is kept -/

/-- The values of a series at a path. -/
def Series.valuesAt (m : K8sMetric) (p : Path) (s : Series) : List ℚ :=
  (s.values.filter fun v => path m s v.1 = p).map fun v => metricValue m v.2

/-- The values of all the series at a path, as they come. -/
def valuesAt (answers : Answers) (m : K8sMetric) (p : Path) : List ℚ :=
  (answers m).flatMap (Series.valuesAt m p)

/-- The quota series without a pod, as it should be. -/
def Readable (answers : Answers) : Prop :=
  ∀ m, m.type = .namespaceResourceQuotas → ∀ s ∈ answers m, s.podName = none

/-- A value on its way. -/
structure Write where
  path : Path
  metric : K8sMetric
  value : ℚ

/-- The writes of a series. -/
def Series.writes (m : K8sMetric) (s : Series) : List Write :=
  s.values.map fun v => ⟨MetricsProcessor.path m s v.1, m, metricValue m v.2⟩

/-- All the writes. -/
def writes (answers : Answers) : List Write := k8sMetrics.flatMap fun m => (answers m).flatMap (Series.writes m)

/-- The map the writes make. -/
def written (writes : List Write) (map : MetricMap) : MetricMap :=
  writes.foldl (fun map w => setAt map w.path w.metric w.value) map

variable {answers : Answers} {map}

theorem mem_k8sMetrics (m : K8sMetric) : m ∈ k8sMetrics := by
  cases m <;> decide

theorem addSeries_of_readable {m : K8sMetric} {s : Series}
    (h : m.type = .namespaceResourceQuotas → s.podName = none) :
    addSeries m map s = .ok (written (s.writes m) map) := by
  have hnot : ¬ (m.type = .namespaceResourceQuotas ∧ s.podName.isSome) := fun hboth => by
    rw [h hboth.1] at hboth
    exact Bool.noConfusion hboth.2
  rw [addSeries, if_neg hnot, written, Series.writes, List.foldl_map]

theorem written_append (ws ws' : List Write) (map : MetricMap) :
    written (ws ++ ws') map = written ws' (written ws map) := List.foldl_append

/-- A loop that never fails writes what its turns write. -/
theorem foldlM_ok {α : Type} {f : MetricMap → α → Except Failure MetricMap} {g : α → List Write} {l : List α}
    (h : ∀ a ∈ l, ∀ map, f map a = .ok (written (g a) map)) (map : MetricMap) :
    l.foldlM f map = .ok (written (l.flatMap g) map) := by
  induction l generalizing map with
  | nil => rfl
  | cons a l ih =>
    rw [List.foldlM_cons, h a List.mem_cons_self, List.flatMap_cons, written_append]
    exact ih (fun b hb => h b (List.mem_cons_of_mem _ hb)) (written (g a) map)

/-- **The map is made of the writes**, if no quota series has a pod. -/
theorem metricMap_of_readable (h : Readable answers) : metricMap answers = .ok (written (writes answers) ∅) := by
  have hseries : ∀ m (map : MetricMap), (answers m).foldlM (addSeries m) map =
      .ok (written ((answers m).flatMap (Series.writes m)) map) := fun m =>
    foldlM_ok fun s hs _ => addSeries_of_readable fun hm => h m hm s hs
  exact foldlM_ok (fun m _ => hseries m) ∅

/-- A quota series with a pod ends it. -/
theorem metricMap_of_not_readable (h : ¬ Readable answers) : metricMap answers = .error (.python "KeyError") := by
  have hfail : ∀ (m : K8sMetric) (l : List Series) (map : MetricMap),
      (∃ s ∈ l, m.type = .namespaceResourceQuotas ∧ s.podName.isSome) →
        l.foldlM (addSeries m) map = .error (.python "KeyError") := by
    intro m l
    induction l with
    | nil => exact fun map ⟨s, hs, _⟩ => absurd hs List.not_mem_nil
    | cons s l ih =>
      rintro map ⟨s', hs', hbad⟩
      rw [List.foldlM_cons, addSeries]
      by_cases hs : m.type = .namespaceResourceQuotas ∧ s.podName.isSome
      · rw [if_pos hs]
        rfl
      · rw [if_neg hs]
        rcases List.mem_cons.mp hs' with rfl | hs'
        · exact absurd hbad hs
        · exact ih _ ⟨s', hs', hbad⟩
  have hloop : ∀ (ms : List K8sMetric) (map : MetricMap),
      (∃ m ∈ ms, ∃ s ∈ answers m, m.type = .namespaceResourceQuotas ∧ s.podName.isSome) →
        ms.foldlM (fun map m => (answers m).foldlM (addSeries m) map) map = .error (.python "KeyError") := by
    intro ms
    induction ms with
    | nil => exact fun map ⟨m, hm, _⟩ => absurd hm List.not_mem_nil
    | cons m ms ih =>
      rintro map ⟨m', hm', hbad⟩
      rw [List.foldlM_cons]
      by_cases hm : ∃ s ∈ answers m, m.type = .namespaceResourceQuotas ∧ s.podName.isSome
      · rw [hfail m _ map hm]
        rfl
      · rcases List.mem_cons.mp hm' with rfl | hm'
        · exact absurd hbad hm
        have hseries : (answers m).foldlM (addSeries m) map =
            .ok (written ((answers m).flatMap (Series.writes m)) map) := by
          refine foldlM_ok (g := Series.writes m) (fun s hs _ => addSeries_of_readable fun htype => ?_) map
          exact Option.not_isSome_iff_eq_none.mp fun hsome => hm ⟨s, hs, htype, hsome⟩
        rw [hseries]
        exact ih _ ⟨m', hm', hbad⟩
  unfold Readable at h
  push Not at h
  obtain ⟨m, htype, s, hs, hpod⟩ := h
  exact hloop _ ∅ ⟨m, mem_k8sMetrics m, s, hs, htype, Option.isSome_iff_ne_none.mpr hpod⟩

/-- **What is kept at a path** is what comes last there. -/
theorem lookupAt_written (answers : Answers) (p : Path) (m : K8sMetric) :
    lookupAt (written (writes answers) ∅) p m = (valuesAt answers m p).getLast? := by
  have hseries : ∀ s : Series, ((s.writes m).filter fun w => (w.path, w.metric) = (p, m)).map Write.value =
      s.valuesAt m p := by
    intro s
    rw [Series.writes, Series.valuesAt, List.filter_map, List.map_map]
    simp only [Function.comp_def, Prod.mk.injEq, and_true]
  have hother : ∀ m' ≠ m, ∀ s : Series,
      (s.writes m').filter (fun w => (w.path, w.metric) = (p, m)) = [] := by
    intro m' hm' s
    refine List.filter_eq_nil_iff.mpr fun w hw => ?_
    obtain ⟨v, -, rfl⟩ := List.mem_map.mp hw
    simp [hm']
  have hmetrics : ∀ ms : List K8sMetric, ms.Nodup → m ∈ ms →
      ((ms.flatMap fun m => (answers m).flatMap (Series.writes m)).filter
        fun w => (w.path, w.metric) = (p, m)).map Write.value = valuesAt answers m p := by
    intro ms hnodup hm
    obtain ⟨before, after, rfl⟩ := List.append_of_mem hm
    have hnone : ∀ ms' : List K8sMetric, m ∉ ms' →
        (ms'.flatMap fun m => (answers m).flatMap (Series.writes m)).filter
          (fun w => (w.path, w.metric) = (p, m)) = [] := by
      intro ms' hms'
      rw [List.filter_flatMap, List.flatMap_eq_nil_iff]
      intro m' hm'
      rw [List.filter_flatMap, List.flatMap_eq_nil_iff]
      exact fun s _ => hother m' (fun h => hms' (h ▸ hm')) s
    rw [List.nodup_append, List.nodup_cons] at hnodup
    rw [List.flatMap_append, List.flatMap_cons, List.filter_append, List.filter_append,
      hnone before fun h => hnodup.2.2 m h m List.mem_cons_self rfl, hnone after hnodup.2.1.1, List.nil_append,
      List.append_nil, List.filter_flatMap, List.map_flatMap, valuesAt]
    exact congrArg (fun f => (answers m).flatMap f) (funext hseries)
  have hlast := lookupAt_foldl_setAt (fun w : Write => (w.path, w.metric)) Write.value (writes answers) ∅ p m
  have hempty : lookupAt (∅ : MetricMap) p m = none := rfl
  rw [hempty, Option.or_none, ← List.getLast?_map] at hlast
  rw [← hmetrics k8sMetrics (by decide) (mem_k8sMetrics m)]
  exact hlast

end MetricsProcessor
