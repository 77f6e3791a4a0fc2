import OptScale.Diworker.RawRecords
import OptScale.Foundations.Chunks
import OptScale.Rest.Failure

/-!
# Diworker/Kubernetes — raw expenses of a Kubernetes account

An import asks for the metrics of the pods by day.  A pod's cost is its share of its node's cost: of
the node's hourly price, for the hours of the day so far, by the pod's value and the total of the
node's pods.  The price is that of the node's flavor, or the account's cost model.  A recalculation
goes over the raw expenses again with the account's cost model of now.
-/

open Fallible BaseReportImporter

/-- An instant, in microseconds. -/
abbrev Micros := ℤ

namespace Micros

def second : Micros := 1000000

def hour : Micros := 3600 * second

def day : Micros := 24 * hour

/-- The hours of an interval. -/
def hours (interval : Micros) : ℚ := interval / hour

/-- The database keeps milliseconds. -/
def stored (t : Micros) : Micros := t / 1000 * 1000

end Micros

/-- The metrics that cost something. -/
inductive Metric
  | containerMemoryUsageBytes | containerCpuUsageSecondsTotal
deriving DecidableEq, Repr

/-- A cost model: the hourly prices. -/
structure KubernetesCostModel where
  cpuHourlyCost : ℚ
  memoryHourlyCost : ℚ
deriving DecidableEq, Repr

/-- The cost model a node refers to: the account's, or the one of its flavor's price. -/
inductive NodeCostModel
  | default
  | flavor (price : ℚ)
deriving DecidableEq, Repr

/-- `_price_to_cost_model` -/
def priceToCostModel (price : ℚ) : KubernetesCostModel := ⟨price / 2, price / 2⟩

/-- The prices, once the account's cost model is known. -/
def NodeCostModel.resolve (defaultCostModel : KubernetesCostModel) : NodeCostModel → KubernetesCostModel
  | .default => defaultCostModel
  | .flavor price => priceToCostModel price

/-- `Node`, as far as it is priced. -/
structure Node where
  region : Option String
  flavor : Option String
  osType : Option String
  providerId : Option String
  customPrice : Option Bool
  costModel : NodeCostModel
deriving DecidableEq, Repr

/-- What the metrics say about a node. -/
structure NodeMetric where
  region : Option String
  flavor : Option String
  osType : Option String
  providerId : Option String
deriving DecidableEq, Repr

/-- The capacity of a node. -/
structure NodeInfo where
  cpu : ℚ
  memory : ℚ
deriving DecidableEq, Repr

namespace NodesProvider

/-- `Node.provider` -/
def provider (providerId : Option String) : Option String :=
  providerId.bind fun id =>
    match (id.splitOn "://").head? with
    | some "aws" => some "aws"
    | some "alicloud" => some "alibaba"
    | some "azure" => some "azure"
    | some "gce" => some "gcp"
    | _ => none

/-- What a flavor's price depends on. -/
structure PriceKey where
  provider : Option String
  flavor : Option String
  region : Option String
  osType : Option String
deriving DecidableEq, Repr

/-- A part of the key is there. -/
def given (part : Option String) : Prop := part ≠ none ∧ part ≠ some ""

instance : DecidablePred given := fun part =>
  inferInstanceAs (Decidable (part ≠ none ∧ part ≠ some ""))

/-- All parts of the key are there. -/
def PriceKey.Given (k : PriceKey) : Prop :=
  given k.provider ∧ given k.flavor ∧ given k.region ∧ given k.osType

instance (k : PriceKey) : Decidable k.Given :=
  inferInstanceAs (Decidable (given k.provider ∧ given k.flavor ∧ given k.region ∧ given k.osType))

/-- `_set_node_local` -/
def setNodeLocal (node : Node) : Node := { node with flavor := none, providerId := none }

/-- The price of a node, and the custom price flag that the next node finds. -/
def priceNode (prices : PriceKey → List ℚ) (customPrice : Option Bool) (metric : NodeMetric) :
    Except Failure (Node × Option Bool) :=
  let node : Node := ⟨metric.region, metric.flavor, metric.osType, metric.providerId, customPrice,
    .default⟩
  let key : PriceKey := ⟨provider metric.providerId, metric.flavor, metric.region, metric.osType⟩
  if metric.providerId.isSome ∧ customPrice ≠ some true then
    if key.Given then
      match prices key with
      | price :: _ => .ok ({ node with costModel := .flavor price }, some false)
      | [] =>
        if customPrice = none then
          .ok (setNodeLocal { node with customPrice := some true }, some true)
        else .error (.python "PriceCollectionException")
    else .ok (setNodeLocal node, customPrice)
  else if metric.providerId = none then
    if customPrice = some false then .error (.python "PriceCollectionException")
    else .ok (setNodeLocal node, some true)
  else .ok (node, customPrice)

/-- `load_data`: the nodes are priced one after the other. -/
def priceNodes (prices : PriceKey → List ℚ) : Option Bool → List (String × NodeMetric) →
    Except Failure (List (String × Node) × Option Bool)
  | customPrice, [] => .ok ([], customPrice)
  | customPrice, (name, metric) :: metrics => do
    let priced ← priceNode prices customPrice metric
    let rest ← priceNodes prices priced.2 metrics
    pure ((name, priced.1) :: rest.1, rest.2)

end NodesProvider

/-- A time series of a pod: its labels, and its values by timestamp, in seconds. -/
structure Series where
  pod : String
  instance' : String
  id : String
  nodeKubernetesIoInstanceType : Option String
  values : List (ℤ × ℚ)
deriving DecidableEq, Repr

/-- A raw expense. -/
structure KubernetesExpense where
  metric : Metric
  pod : String
  instance' : String
  startDate : Micros
  endDate : Micros
  cloudAccountId : Uuid
  resourceId : String
  value : ℚ
  cost : ℚ
  nodeKubernetesIoInstanceType : Option String
  nodeInfo : Option NodeInfo
  totalPodsValue : Option ℚ
deriving DecidableEq, Repr

/-- The unique fields. -/
structure KubernetesKey where
  startDate : Micros
  resourceId : String
  cloudAccountId : Uuid
  metric : Metric
  pod : String
deriving DecidableEq, Repr

/-- What an import finds out: the clock, the account's flag, the nodes and their prices, the
capacities by timestamp and node, and the series of each metric. -/
structure KubernetesReport where
  now : Micros
  customPrice : Option Bool
  nodeMetrics : Table (Prod.fst : String × NodeMetric → String)
  prices : NodesProvider.PriceKey → List ℚ
  nodeInfo : ℤ → String → Option NodeInfo
  getMetric : Metric → List Series

/-- What a raw expense is made of. -/
structure Sample where
  metric : Metric
  pod : String
  instance' : String
  startDate : Micros
  endDate : Micros
  workedHrs : ℚ
  cloudAccountId : Uuid
  resourceId : String
  value : ℚ
  totalPodsValue : ℚ
  nodeKubernetesIoInstanceType : Option String
  nodeInfo : NodeInfo
  node : Node
deriving DecidableEq, Repr

namespace KubernetesReportImporter

/-- `bytes_to_gb` -/
def bytesToGb (value : ℚ) : ℚ := value / 2 ^ 30

/-- `get_cost_by_avg_memory_usage` -/
def getCostByAvgMemoryUsage (costModel : KubernetesCostModel) (value totalPodsValue workedHrs : ℚ) : ℚ :=
  let nodeCost := costModel.memoryHourlyCost * workedHrs
  if totalPodsValue = 0 then 0
  else bytesToGb value * nodeCost / bytesToGb totalPodsValue

/-- `get_cost_by_cpu_usage_delta` -/
def getCostByCpuUsageDelta (costModel : KubernetesCostModel) (value totalPodsValue workedHrs : ℚ) : ℚ :=
  let nodeCost := costModel.cpuHourlyCost * workedHrs
  if totalPodsValue = 0 then 0 else value * nodeCost / totalPodsValue

/-- The cost function of a metric. -/
def costFunc : Metric → KubernetesCostModel → ℚ → ℚ → ℚ → ℚ
  | .containerMemoryUsageBytes => getCostByAvgMemoryUsage
  | .containerCpuUsageSecondsTotal => getCostByCpuUsageDelta

/-- The raw expense. -/
def Sample.expense (costModel : KubernetesCostModel) (s : Sample) : KubernetesExpense where
  metric := s.metric
  pod := s.pod
  instance' := s.instance'
  startDate := s.startDate.stored
  endDate := s.endDate.stored
  cloudAccountId := s.cloudAccountId
  resourceId := s.resourceId
  value := s.value
  cost := costFunc s.metric (s.node.costModel.resolve costModel) s.value s.totalPodsValue s.workedHrs
  nodeKubernetesIoInstanceType := s.nodeKubernetesIoInstanceType
  nodeInfo := some s.nodeInfo
  totalPodsValue := some s.totalPodsValue

/-- The unique fields and the update fields. -/
def fields : RawFields KubernetesExpense KubernetesKey where
  unique e := ⟨e.startDate, e.resourceId, e.cloudAccountId, e.metric, e.pod⟩
  update new old := { old with value := new.value, cost := new.cost }
  unique_update _ _ := rfl

/-- The raw expenses. -/
abbrev Raw := Table fields.unique

/-! ## Importing -/

/-- The account, and the pod's uuid in a container's id. -/
structure Account where
  cloudAccountId : Uuid
  extractPodUuid : String → String

/-- `_handle_negative_metrics` -/
def handleNegativeMetrics (metrics : List Series) : List Series :=
  metrics.map fun r => { r with values := r.values.map fun v => (v.1, if 0 < v.2 then v.2 else 0) }

/-- `calculate_total_pods_metrics`, of a timestamp and a node. -/
def calculateTotalPodsMetrics (metrics : List Series) (timestamp : ℤ) (nodeName : String) : ℚ :=
  ((metrics.filter fun r => r.instance' = nodeName).flatMap fun r =>
    (r.values.filter fun v => v.1 = timestamp).map Prod.snd).sum

/-- One value of a series. -/
def sample (A : Account) (now : Micros) (metric : Metric) (r : Series) (node : Node)
    (nodeInfo : NodeInfo) (total : ℚ) (v : ℤ × ℚ) : Sample :=
  let startDate : Micros := v.1 * Micros.second - Micros.day
  let endDate : Micros := min (v.1 * Micros.second) now
  { metric := metric
    pod := r.pod
    instance' := r.instance'
    startDate := startDate
    endDate := endDate - Micros.second
    workedHrs := Micros.hours (endDate - startDate)
    cloudAccountId := A.cloudAccountId
    resourceId := A.extractPodUuid r.id
    value := v.2
    totalPodsValue := total
    nodeKubernetesIoInstanceType := r.nodeKubernetesIoInstanceType
    nodeInfo := nodeInfo
    node := node }

/-- The values of a series; one of an unknown node is skipped. -/
def seriesSamples (A : Account) (i : KubernetesReport) (nodes : List (String × Node))
    (metric : Metric) (metrics : List Series) (r : Series) : Except Failure (List Sample) :=
  match nodes.lookup r.instance' with
  | none => .ok []
  | some node => r.values.mapM fun v => do
    let nodeInfo ← orFail (i.nodeInfo v.1 r.instance') (.python "KeyError")
    pure (sample A i.now metric r node nodeInfo
      (calculateTotalPodsMetrics metrics v.1 r.instance') v)

/-- The values of a metric. -/
def metricSamples (A : Account) (i : KubernetesReport) (nodes : List (String × Node))
    (metric : Metric) : Except Failure (List Sample) := do
  let metrics := handleNegativeMetrics (i.getMetric metric)
  let samples ← metrics.mapM (seriesSamples A i nodes metric metrics)
  pure samples.flatten

/-- Everything the import builds, in the order it builds it. -/
def samples (A : Account) (i : KubernetesReport) : Except Failure (List Sample) := do
  let nodes ← NodesProvider.priceNodes i.prices i.customPrice i.nodeMetrics.rows
  let memory ← metricSamples A i nodes.1 .containerMemoryUsageBytes
  let cpu ← metricSamples A i nodes.1 .containerCpuUsageSecondsTotal
  pure (memory ++ cpu)

/-- `CHUNK_SIZE` -/
def chunkSize : ℕ := 200

/-- `load_raw_data` -/
def loadRawData (A : Account) (costModel : KubernetesCostModel) (i : KubernetesReport) (raw : Raw) :
    Except Failure Raw := do
  let samples ← samples A i
  pure (((samples.map (Sample.expense costModel)).toChunks chunkSize).foldl
    (fun raw chunk => updateRawRecords fields chunk raw) raw)

/-- `remove_raw_expenses_from_period_start` -/
def removeRawExpenses (A : Account) (periodStart : Micros) (raw : Raw) : Raw :=
  raw.deleteWhere fun e => periodStart.stored ≤ e.startDate ∧ e.cloudAccountId = A.cloudAccountId

/-- What an account's importer does to the raw expenses: it removes those from an instant on, as it
does before the first import of a month, or imports. -/
inductive Event
  | remove (periodStart : Micros)
  | load (i : KubernetesReport)

def Event.apply (A : Account) (costModel : KubernetesCostModel) (raw : Raw) : Event → Except Failure Raw
  | .remove periodStart => .ok (removeRawExpenses A periodStart raw)
  | .load i => loadRawData A costModel i raw

/-- The raw expenses after an account's imports, all under one cost model. -/
def imported (A : Account) (costModel : KubernetesCostModel) (events : List Event) : Except Failure Raw :=
  events.foldlM (Event.apply A costModel) .empty

/-! ## Recalculating -/

/-- `base_filters` -/
def selected (A : Account) (e : KubernetesExpense) : Prop :=
  e.cloudAccountId = A.cloudAccountId ∧ e.nodeInfo.isSome ∧ e.totalPodsValue.isSome ∧
    e.nodeKubernetesIoInstanceType = none

instance (A : Account) : DecidablePred (selected A) := fun e =>
  inferInstanceAs (Decidable (e.cloudAccountId = A.cloudAccountId ∧ e.nodeInfo.isSome ∧
    e.totalPodsValue.isSome ∧ e.nodeKubernetesIoInstanceType = none))

/-- The cost of a raw expense under the account's cost model. -/
def recalculatedCost (costModel : KubernetesCostModel) (e : KubernetesExpense) : ℚ :=
  costFunc e.metric costModel e.value (e.totalPodsValue.getD 0)
    (Micros.hours (e.endDate - e.startDate + Micros.second))

/-- An update of a cost. -/
abbrev Change := KubernetesKey × ℚ

/-- `bulk_write` -/
def bulkWrite (changes : List Change) (raw : Raw) : Raw :=
  changes.foldl (fun raw c => raw.updateWhere (fun e => fields.unique e = c.1)
    (fun e => { e with cost := c.2 }) fun _ => rfl) raw

/-- The updates of a chunk of resources; what costs nothing is skipped. -/
def chunkChanges (A : Account) (costModel : KubernetesCostModel) (ids : List String) (raw : Raw) :
    List Change :=
  (raw.rows.filter fun e => selected A e ∧ e.resourceId ∈ ids ∧ e.cost ≠ 0).map fun e =>
    (fields.unique e, recalculatedCost costModel e)

/-- The loop over the resources; the updates of the chunks before are written again. -/
def recalculateChunks (A : Account) (costModel : KubernetesCostModel) :
    List (List String) → List Change → Raw → Raw
  | [], _, raw => raw
  | ids :: chunks, changes, raw =>
    let changes := changes ++ chunkChanges A costModel ids raw
    recalculateChunks A costModel chunks changes (bulkWrite changes raw)

/-- `recalculate_raw_expenses` -/
def recalculateRawExpenses (A : Account) (costModel : KubernetesCostModel) (raw : Raw) : Raw :=
  let resourceIds := ((raw.rows.filter fun e => selected A e).map
    KubernetesExpense.resourceId).dedup
  recalculateChunks A costModel (resourceIds.toChunks chunkSize) [] raw

end KubernetesReportImporter
