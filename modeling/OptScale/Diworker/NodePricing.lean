import OptScale.Diworker.Kubernetes

/-!
# Diworker/NodePricing — whether the order of nodes decides how they are priced

`load_data` takes the nodes as the metrics list them.  A stored flag decides for all of them alike: they have the
default cost model, or each must have the price of its flavor.  Without a flag the first node that tells decides
it for the rest, so a cluster that has a node with a known price and one that needs the default cost model is
priced or refused by the order of its nodes (`order_free_iff`).
-/

namespace NodesProvider

/-! ## What a node tells -/

/-- What the price of a node is looked up by. -/
def keyOf (metric : NodeMetric) : PriceKey :=
  ⟨provider metric.providerId, metric.flavor, metric.region, metric.osType⟩

variable (prices : PriceKey → List ℚ)

/-- The price of a node's flavor: a cloud node with all its labels may have one. -/
def flavorPrice (metric : NodeMetric) : Option ℚ :=
  if metric.providerId.isSome ∧ (keyOf metric).Given then (prices (keyOf metric)).head? else none

/-- **A node that needs the default cost model**: it is local, or has all its labels and no price. -/
def NeedsDefault (metric : NodeMetric) : Prop :=
  metric.providerId = none ∨ (keyOf metric).Given ∧ prices (keyOf metric) = []

instance (metric : NodeMetric) : Decidable (NeedsDefault prices metric) :=
  inferInstanceAs (Decidable (metric.providerId = none ∨ (keyOf metric).Given ∧ prices (keyOf metric) = []))

/-- The cost model by a node's flavor. -/
def flavorCostModel (metric : NodeMetric) : NodeCostModel :=
  match flavorPrice prices metric with
  | some price => .flavor price
  | none => .default

variable {prices} {metric : NodeMetric}

theorem flavorPrice_of_needsDefault (h : NeedsDefault prices metric) : flavorPrice prices metric = none := by
  unfold flavorPrice
  split
  next hcloud =>
    rcases h with hlocal | ⟨-, hnone⟩
    · rw [hlocal] at hcloud
      exact Bool.noConfusion hcloud.1
    · rw [hnone]
      rfl
  next => rfl

theorem flavorCostModel_of_needsDefault (h : NeedsDefault prices metric) :
    flavorCostModel prices metric = .default := by
  rw [flavorCostModel, flavorPrice_of_needsDefault h]

variable (prices) in
/-- The default cost model is for everyone. -/
theorem priceNode_true (metric : NodeMetric) :
    ∃ node, priceNode prices (some true) metric = .ok (node, some true) ∧ node.costModel = .default := by
  unfold priceNode
  rcases hp : metric.providerId with _ | id
  · exact ⟨_, by simp only [reduceCtorEq, Option.isSome_none, Bool.false_eq_true, false_and, if_false, if_true,
      Option.some.injEq]; rfl, rfl⟩
  · exact ⟨_, by simp only [ne_eq, not_true_eq_false, and_false, if_false, reduceCtorEq]; rfl, rfl⟩

variable (prices) in
/-- Prices of flavors are for everyone, or the nodes are refused. -/
theorem priceNode_false (metric : NodeMetric) :
    (NeedsDefault prices metric ∧ priceNode prices (some false) metric =
      .error (.python "PriceCollectionException")) ∨
    (¬ NeedsDefault prices metric ∧ ∃ node, priceNode prices (some false) metric = .ok (node, some false) ∧
      node.costModel = flavorCostModel prices metric) := by
  unfold priceNode flavorCostModel flavorPrice NeedsDefault keyOf
  rcases hp : metric.providerId with _ | id
  · exact Or.inl ⟨Or.inl rfl, by simp⟩
  · by_cases hkey : (PriceKey.mk (provider (some id)) metric.flavor metric.region metric.osType).Given
    · rcases hprices : prices (PriceKey.mk (provider (some id)) metric.flavor metric.region metric.osType)
        with _ | ⟨price, rest⟩
      · exact Or.inl ⟨Or.inr ⟨hkey, rfl⟩, by simp [hkey, hprices]⟩
      · exact Or.inr ⟨by simp, _, by simp [hkey, hprices]; rfl, by simp [hkey]⟩
    · exact Or.inr ⟨by simp [hkey], _, by simp [hkey]; rfl, by simp [hkey, setNodeLocal]⟩

variable (prices) in
/-- Without a flag a node decides it, if it tells anything. -/
theorem priceNode_none (metric : NodeMetric) :
    (NeedsDefault prices metric ∧ ∃ node, priceNode prices none metric = .ok (node, some true) ∧
      node.costModel = flavorCostModel prices metric) ∨
    (¬ NeedsDefault prices metric ∧ (flavorPrice prices metric).isSome ∧
      ∃ node, priceNode prices none metric = .ok (node, some false) ∧
        node.costModel = flavorCostModel prices metric) ∨
    (¬ NeedsDefault prices metric ∧ flavorPrice prices metric = none ∧
      ∃ node, priceNode prices none metric = .ok (node, none) ∧
        node.costModel = flavorCostModel prices metric) := by
  unfold priceNode flavorCostModel flavorPrice NeedsDefault keyOf
  rcases hp : metric.providerId with _ | id
  · exact Or.inl ⟨Or.inl rfl, _, by simp; rfl, by simp [setNodeLocal]⟩
  · by_cases hkey : (PriceKey.mk (provider (some id)) metric.flavor metric.region metric.osType).Given
    · rcases hprices : prices (PriceKey.mk (provider (some id)) metric.flavor metric.region metric.osType)
        with _ | ⟨price, rest⟩
      · exact Or.inl ⟨Or.inr ⟨hkey, rfl⟩, _, by simp [hkey, hprices]; rfl, by simp [hkey, setNodeLocal]⟩
      · exact Or.inr (Or.inl ⟨by simp, by simp [hkey], _, by simp [hkey, hprices]; rfl, by simp [hkey]⟩)
    · exact Or.inr (Or.inr ⟨by simp [hkey], by simp [hkey], _, by simp [hkey]; rfl,
        by simp [hkey, setNodeLocal]⟩)

/-! ## What the nodes come to -/

/-- What a run of the pricing comes to. -/
abbrev Pricing := Except Failure (List (String × Node) × Option Bool)

/-- The nodes with their cost models. -/
def costModels (nodes : List (String × Node)) : List (String × NodeCostModel) :=
  nodes.map fun n => (n.1, n.2.costModel)

/-- **Pricing that comes to cost models and a flag.** -/
def PricedAs (result : Pricing) (models : List (String × NodeCostModel)) (customPrice : Option Bool) : Prop :=
  ∃ nodes, result = .ok (nodes, customPrice) ∧ costModels nodes = models

/-- Pricing that is refused. -/
def Refused (result : Pricing) : Prop := result = .error (.python "PriceCollectionException")

variable {metrics : List (String × NodeMetric)} {customPrice customPrice' : Option Bool}

/-- One node, and then the others. -/
theorem PricedAs.cons {name : String} {node : Node} {models : List (String × NodeCostModel)}
    {flag : Option Bool} (hnode : priceNode prices customPrice metric = .ok (node, flag))
    (hrest : PricedAs (priceNodes prices flag metrics) models customPrice') :
    PricedAs (priceNodes prices customPrice ((name, metric) :: metrics)) ((name, node.costModel) :: models)
      customPrice' := by
  obtain ⟨nodes, hrest, rfl⟩ := hrest
  refine ⟨(name, node) :: nodes, ?_, rfl⟩
  rw [priceNodes, hnode]
  change (priceNodes prices flag metrics >>= fun rest => pure ((name, node) :: rest.1, rest.2)) = _
  rw [hrest]
  rfl

theorem Refused.cons {name : String} {node : Node} {flag : Option Bool}
    (hnode : priceNode prices customPrice metric = .ok (node, flag))
    (hrest : Refused (priceNodes prices flag metrics)) :
    Refused (priceNodes prices customPrice ((name, metric) :: metrics)) := by
  rw [Refused, priceNodes, hnode]
  change (priceNodes prices flag metrics >>= fun rest => pure ((name, node) :: rest.1, rest.2)) = _
  rw [hrest]
  rfl

theorem refused_cons {name : String}
    (hnode : priceNode prices customPrice metric = .error (.python "PriceCollectionException")) :
    Refused (priceNodes prices customPrice ((name, metric) :: metrics)) := by
  rw [Refused, priceNodes, hnode]
  rfl

variable (prices) in
/-- **With the flag** all the nodes have the default cost model. -/
theorem priceNodes_true (metrics : List (String × NodeMetric)) :
    PricedAs (priceNodes prices (some true) metrics) (metrics.map fun m => (m.1, .default)) (some true) := by
  induction metrics with
  | nil => exact ⟨[], rfl, rfl⟩
  | cons m metrics ih =>
    obtain ⟨node, hnode, hmodel⟩ := priceNode_true prices m.2
    have hpriced : PricedAs (priceNodes prices (some true) (m :: metrics)) _ _ := .cons hnode ih
    rw [hmodel] at hpriced
    exact hpriced

variable (prices) in
/-- **Without it** each node must have its own price. -/
theorem priceNodes_false (metrics : List (String × NodeMetric)) :
    ((∃ m ∈ metrics, NeedsDefault prices m.2) ∧ Refused (priceNodes prices (some false) metrics)) ∨
    ((∀ m ∈ metrics, ¬ NeedsDefault prices m.2) ∧ PricedAs (priceNodes prices (some false) metrics)
      (metrics.map fun m => (m.1, flavorCostModel prices m.2)) (some false)) := by
  induction metrics with
  | nil => exact Or.inr ⟨fun _ h => absurd h List.not_mem_nil, [], rfl, rfl⟩
  | cons m metrics ih =>
    rcases priceNode_false prices m.2 with ⟨hneeds, hnode⟩ | ⟨hneeds, node, hnode, hmodel⟩
    · exact Or.inl ⟨⟨m, List.mem_cons_self, hneeds⟩, refused_cons hnode⟩
    · rcases ih with ⟨⟨m', hm', hneeds'⟩, hrest⟩ | ⟨hall, hrest⟩
      · exact Or.inl ⟨⟨m', List.mem_cons_of_mem _ hm', hneeds'⟩, .cons hnode hrest⟩
      · refine Or.inr ⟨List.forall_mem_cons.mpr ⟨hneeds, hall⟩, ?_⟩
        rw [List.map_cons, ← hmodel]
        exact .cons hnode hrest

variable (prices) in
/-- **A mixed cluster**: one node has a price, another needs the default cost model. -/
def Mixed (metrics : List (String × NodeMetric)) : Prop :=
  (∃ m ∈ metrics, (flavorPrice prices m.2).isSome) ∧ ∃ m ∈ metrics, NeedsDefault prices m.2

variable (prices) in
/-- The flag that nodes set which are not mixed. -/
def flagOf (metrics : List (String × NodeMetric)) : Option Bool :=
  if ∃ m ∈ metrics, NeedsDefault prices m.2 then some true
  else if ∃ m ∈ metrics, (flavorPrice prices m.2).isSome then some false
  else none

theorem flavorCostModel_of_none (h : flavorPrice prices metric = none) :
    flavorCostModel prices metric = .default := by
  rw [flavorCostModel, h]

/-- **Without a flag**, and if they are not mixed, the nodes have the cost models of their flavors. -/
theorem priceNodes_none (hmixed : ¬ Mixed prices metrics) : PricedAs (priceNodes prices none metrics)
    (metrics.map fun m => (m.1, flavorCostModel prices m.2)) (flagOf prices metrics) := by
  induction metrics with
  | nil => exact ⟨[], rfl, rfl⟩
  | cons m metrics ih =>
    have hrest : ¬ Mixed prices metrics := fun ⟨⟨m₁, h₁, hprice⟩, ⟨m₂, h₂, hneeds⟩⟩ =>
      hmixed ⟨⟨m₁, List.mem_cons_of_mem _ h₁, hprice⟩, ⟨m₂, List.mem_cons_of_mem _ h₂, hneeds⟩⟩
    rw [List.map_cons]
    rcases priceNode_none prices m.2 with ⟨hneeds, node, hnode, hmodel⟩ |
      ⟨hneeds, hprice, node, hnode, hmodel⟩ | ⟨hneeds, hprice, node, hnode, hmodel⟩
    · -- the default cost model for all, of which none has a price
      have hdefault : ∀ m' ∈ metrics, flavorCostModel prices m'.2 = .default := fun m' hm' =>
        flavorCostModel_of_none (Option.not_isSome_iff_eq_none.mp fun hsome =>
          hmixed ⟨⟨m', List.mem_cons_of_mem _ hm', hsome⟩, ⟨m, List.mem_cons_self, hneeds⟩⟩)
      have hmodels : (metrics.map fun m => (m.1, flavorCostModel prices m.2)) =
          metrics.map fun m => (m.1, .default) :=
        List.map_congr_left fun m' hm' => by rw [hdefault m' hm']
      rw [flagOf, if_pos ⟨m, List.mem_cons_self, hneeds⟩, hmodels, ← hmodel]
      exact .cons hnode (priceNodes_true prices metrics)
    · -- prices of flavors for all, of which none needs the default
      have hnone : ∀ m' ∈ m :: metrics, ¬ NeedsDefault prices m'.2 := fun m' hm' hneeds' =>
        hmixed ⟨⟨m, List.mem_cons_self, hprice⟩, ⟨m', hm', hneeds'⟩⟩
      rw [flagOf, if_neg fun ⟨m', hm', hneeds'⟩ => hnone m' hm' hneeds',
        if_pos ⟨m, List.mem_cons_self, hprice⟩, ← hmodel]
      rcases priceNodes_false prices metrics with ⟨⟨m', hm', hneeds'⟩, -⟩ | ⟨-, hpriced⟩
      · exact absurd hneeds' (hnone m' (List.mem_cons_of_mem _ hm'))
      · exact .cons hnode hpriced
    · have hflag : flagOf prices (m :: metrics) = flagOf prices metrics := by
        simp only [flagOf, List.mem_cons, exists_eq_or_imp, hneeds, hprice, Option.isSome_none,
          Bool.false_eq_true, false_or]
      rw [hflag, ← hmodel]
      exact .cons hnode (ih hrest)

/-! ## The order of the nodes -/

/-- **Two runs come to the same**: both are refused, or the nodes have the same cost models and the flag is the
same. -/
def SamePricing (result result' : Pricing) : Prop :=
  (Refused result ∧ Refused result') ∨
    ∃ models models' customPrice, PricedAs result models customPrice ∧ PricedAs result' models' customPrice ∧
      models.Perm models'

/-- **The order does not matter.** -/
def OrderFree (prices : PriceKey → List ℚ) (customPrice : Option Bool)
    (nodes : Table (Prod.fst : String × NodeMetric → String)) : Prop :=
  ∀ metrics metrics', metrics.Perm nodes.rows → metrics'.Perm nodes.rows →
    SamePricing (priceNodes prices customPrice metrics) (priceNodes prices customPrice metrics')

theorem Mixed.perm {metrics' : List (String × NodeMetric)} (h : metrics.Perm metrics') :
    Mixed prices metrics ↔ Mixed prices metrics' := by
  simp only [Mixed, h.mem_iff]

theorem flagOf_perm {metrics' : List (String × NodeMetric)} (h : metrics.Perm metrics') :
    flagOf prices metrics = flagOf prices metrics' := by
  simp only [flagOf, h.mem_iff]

/-- A priced result is not refused. -/
theorem PricedAs.not_refused {result : Pricing} {models : List (String × NodeCostModel)}
    (h : PricedAs result models customPrice) : ¬ Refused result := by
  obtain ⟨nodes, hok, -⟩ := h
  exact fun hrefused => nomatch hok.symm.trans hrefused

/-- **A mixed cluster** is refused in one order and priced in another. -/
theorem mixed_orders (h : Mixed prices metrics) :
    (∃ metrics' : List (String × NodeMetric), metrics'.Perm metrics ∧ Refused (priceNodes prices none metrics')) ∧
    ∃ metrics' : List (String × NodeMetric), metrics'.Perm metrics ∧
      ∃ models, PricedAs (priceNodes prices none metrics') models (some true) := by
  obtain ⟨⟨priced, hpriced, hprice⟩, ⟨local', hlocal, hneeds⟩⟩ := h
  have hne : local' ≠ priced := by
    rintro rfl
    rw [flavorPrice_of_needsDefault hneeds] at hprice
    exact Bool.noConfusion hprice
  constructor
  · obtain ⟨before, after, rfl⟩ := List.append_of_mem hpriced
    have hlocal' : local' ∈ before ++ after := by
      rw [List.mem_append, List.mem_cons] at hlocal
      exact List.mem_append.mpr (hlocal.imp_right fun h => h.resolve_left hne)
    refine ⟨priced :: (before ++ after), List.perm_middle.symm, ?_⟩
    rcases priceNode_none prices priced.2 with ⟨hneeds', -⟩ | ⟨-, -, node, hnode, -⟩ | ⟨-, hnone, -⟩
    · rw [flavorPrice_of_needsDefault hneeds'] at hprice
      exact Bool.noConfusion hprice
    · rcases priceNodes_false prices (before ++ after) with ⟨-, hrefused⟩ | ⟨hall, -⟩
      · exact .cons hnode hrefused
      · exact absurd hneeds (hall local' hlocal')
    · rw [hnone] at hprice
      exact Bool.noConfusion hprice
  · obtain ⟨before, after, rfl⟩ := List.append_of_mem hlocal
    refine ⟨local' :: (before ++ after), List.perm_middle.symm, ?_⟩
    rcases priceNode_none prices local'.2 with ⟨-, node, hnode, -⟩ | ⟨hnot, -⟩ | ⟨hnot, -⟩
    · exact ⟨_, .cons hnode (priceNodes_true prices _)⟩
    · exact absurd hneeds hnot
    · exact absurd hneeds hnot

/-- **The order does not matter exactly where a flag is stored or the cluster is not mixed.** -/
theorem order_free_iff (prices : PriceKey → List ℚ) (customPrice : Option Bool)
    (nodes : Table (Prod.fst : String × NodeMetric → String)) :
    OrderFree prices customPrice nodes ↔ customPrice ≠ none ∨ ¬ Mixed prices nodes.rows := by
  constructor
  · intro h
    by_contra hnot
    push Not at hnot
    obtain ⟨rfl, hmixed⟩ := hnot
    obtain ⟨⟨metrics, hperm, hrefused⟩, ⟨metrics', hperm', models', hpriced⟩⟩ := mixed_orders hmixed
    rcases h metrics metrics' hperm hperm' with ⟨-, hrefused'⟩ | ⟨_, _, _, hpriced', -⟩
    · exact hpriced.not_refused hrefused'
    · exact hpriced'.not_refused hrefused
  · intro h metrics metrics' hperm hperm'
    have horder := hperm.trans hperm'.symm
    match customPrice with
    | some true =>
      exact Or.inr ⟨_, _, _, priceNodes_true prices metrics, priceNodes_true prices metrics', horder.map _⟩
    | some false =>
      rcases priceNodes_false prices metrics with ⟨⟨m, hm, hneeds⟩, hrefused⟩ | ⟨hall, hpriced⟩
      · rcases priceNodes_false prices metrics' with ⟨-, hrefused'⟩ | ⟨hall', -⟩
        · exact Or.inl ⟨hrefused, hrefused'⟩
        · exact absurd hneeds (hall' m (horder.mem_iff.mp hm))
      · rcases priceNodes_false prices metrics' with ⟨⟨m, hm, hneeds⟩, -⟩ | ⟨-, hpriced'⟩
        · exact absurd hneeds (hall m (horder.mem_iff.mpr hm))
        · exact Or.inr ⟨_, _, _, hpriced, hpriced', horder.map _⟩
    | none =>
      have hmixed : ¬ Mixed prices nodes.rows := h.resolve_left fun hnone => hnone rfl
      refine Or.inr ⟨_, _, _, priceNodes_none ((Mixed.perm hperm).not.mpr hmixed), ?_, horder.map _⟩
      rw [flagOf_perm horder]
      exact priceNodes_none ((Mixed.perm hperm').not.mpr hmixed)

/-- A local node and one in the cloud. -/
def mixedNodes : Table (Prod.fst : String × NodeMetric → String) where
  rows := [("local", ⟨none, none, none, none⟩),
    ("cloud", ⟨some "us-east-1", some "m5.large", some "linux", some "aws:///i-1"⟩)]
  nodup := by decide

theorem provider_aws : provider (some "aws:///i-1") = some "aws" := by
  have hsplit : "aws:///i-1".splitOn "://" = ["aws", "/i-1"] := by
    rw [String.splitOn, if_neg (by decide)]
    repeat (rw [String.splitOnAux]; simp +decide only [↓reduceIte])
  simp only [provider, Option.bind_some, hsplit, List.head?_cons]

/-- **The price of the second node decides**, if it comes first. -/
theorem refused_by_order : ¬ ∀ (prices : PriceKey → List ℚ) (customPrice : Option Bool)
    (nodes : Table (Prod.fst : String × NodeMetric → String)), OrderFree prices customPrice nodes := by
  intro h
  have hcloud : ("cloud", (⟨some "us-east-1", some "m5.large", some "linux", some "aws:///i-1"⟩ : NodeMetric)) ∈
      mixedNodes.rows := List.mem_cons_of_mem _ (List.mem_singleton_self _)
  have hprice : (flavorPrice (fun _ => [1])
      ⟨some "us-east-1", some "m5.large", some "linux", some "aws:///i-1"⟩).isSome := by
    have hgiven : (keyOf ⟨some "us-east-1", some "m5.large", some "linux", some "aws:///i-1"⟩).Given := by
      simp +decide only [PriceKey.Given, given, keyOf, provider_aws]
    rw [flavorPrice, if_pos ⟨rfl, hgiven⟩]
    rfl
  have hmixed : Mixed (fun _ => [1]) mixedNodes.rows :=
    ⟨⟨_, hcloud, hprice⟩, ⟨_, List.mem_cons_self, Or.inl rfl⟩⟩
  obtain ⟨⟨metrics, hperm, hrefused⟩, ⟨metrics', hperm', models', hpriced⟩⟩ := mixed_orders hmixed
  rcases h (fun _ => [1]) none mixedNodes metrics metrics' hperm hperm' with ⟨-, hrefused'⟩ | ⟨_, _, _, hpriced', -⟩
  · exact hpriced.not_refused hrefused'
  · exact hpriced'.not_refused hrefused

end NodesProvider
