import OptScale.Foundations.Grouped
import OptScale.Risp.Uncovered

/-!
# Risp/Offers — `process_ri_sp_expenses`

The raw expenses that an offer covered come in groups, one for each description and each pair of days
they begin and end on.  A group sets the values of its resource, day, offer and instance type in
`new_expenses_map`; it does not add to them, as `generate_uncovered_usage` does.  So of the groups of
one leaf the last one alone is kept, and the map has what the groups have exactly if the earlier
groups of each leaf come to nothing (`processRiSpExpenses_added_iff`).
-/

open Fallible

namespace AwsProcessor

open RispProcessorBase

/-! ## The model -/

/-- A group of raw expenses, with what was pushed for it; the values are read as numbers. -/
structure OfferGroup where
  /-- The day the expenses begin, by its first second. -/
  startDate : ℤ
  endDate : ℤ
  cloudResourceId : Text
  cloudOfferId : Text
  instanceType : Option Text
  description : Option Text
  usageHours : List ℚ
  usageSeconds : List ℚ
  onDemandCost : List ℚ
  offerCost : List ℚ
  riNormFactor : Option ℚ
  spRate : Option ℚ
  deriving DecidableEq

/-- `s[s.find('/') + 1:]` -/
def withoutPrefix (s : Text) : Text := if '/' ∈ s then (s.dropWhile (· ≠ '/')).tail else s

/-- `default_ri_norm_factor` -/
def defaultRiNormFactor : OfferType → ℚ
  | .ri => 1
  | .sp => 0

/-- A place in `new_expenses_map`. -/
structure Leaf where
  cloudResourceId : Text
  date : DateTime
  cloudOfferId : Text
  instanceType : Option Text
  deriving DecidableEq

namespace OfferGroup

/-- Where a group is put. -/
def leaf (g : OfferGroup) : Leaf where
  cloudResourceId := withoutPrefix g.cloudResourceId
  date := .utc g.startDate
  cloudOfferId := withoutPrefix g.cloudOfferId
  instanceType := (g.instanceType.filter (· ≠ [])).or g.description

/-- What is put there. -/
def values (offerType : OfferType) (g : OfferGroup) : UsageValues where
  offerCost := g.offerCost.sum
  onDemandCost := g.onDemandCost.sum
  usage := g.usageHours.sum + (g.usageSeconds.map (· / SECONDS_IN_HOUR)).sum
  riNormFactor := (g.riNormFactor.filter (· ≠ 0)).getD (defaultRiNormFactor offerType)
  spRate := (g.spRate.filter (· ≠ 0)).getD 0

/-- Its offer cost, on-demand cost and usage. -/
def costs (offerType : OfferType) (g : OfferGroup) : ℚ × ℚ × ℚ := (g.values offerType).costs

end OfferGroup

/-- `process_ri_sp_expenses`, of the groups that the pipeline returns: the new expenses and the
resources. -/
def processRiSpExpenses (offerType : OfferType) (groups : List OfferGroup) :
    Dict Leaf UsageValues × List Text :=
  groups.foldl (fun acc g =>
    (acc.1.set g.leaf (g.values offerType), acc.2.insert (withoutPrefix g.cloudResourceId))) (∅, [])

/-- The leaves of `new_expenses_map`. -/
def newExpensesMap (offerType : OfferType) (groups : List OfferGroup) : Dict Leaf UsageValues :=
  (processRiSpExpenses offerType groups).1

/-- The groups of a leaf. -/
def groupsOf (groups : List OfferGroup) (leaf : Leaf) : List OfferGroup :=
  groups.filter fun g => g.leaf = leaf

/-- **Nothing is lost**: the leaves have the offer cost, the on-demand cost and the usage of the groups. -/
def Conserves (offerType : OfferType) (groups : List OfferGroup) : Prop :=
  ((newExpensesMap offerType groups).entries.map fun entry => entry.2.costs).sum =
    (groups.map (OfferGroup.costs offerType)).sum

/-- **Groups of one leaf are added.** -/
def Added (offerType : OfferType) (groups : List OfferGroup) : Prop :=
  ∀ leaf v, (newExpensesMap offerType groups).lookup leaf = some v →
    v.costs = ((groupsOf groups leaf).map (OfferGroup.costs offerType)).sum

/-- The groups of each leaf but the last come to nothing. -/
def Redundant (offerType : OfferType) (groups : List OfferGroup) : Prop :=
  ∀ leaf, ((groupsOf groups leaf).dropLast.map (OfferGroup.costs offerType)).sum = 0

/-! ## The leaves -/

section Leaves

variable {offerType : OfferType} {groups : List OfferGroup}

/-- The map is set leaf by leaf. -/
theorem newExpensesMap_eq (offerType : OfferType) (groups : List OfferGroup) :
    newExpensesMap offerType groups =
      Dict.setAll OfferGroup.leaf (OfferGroup.values offerType) groups := by
  unfold newExpensesMap processRiSpExpenses
  induction groups using List.reverseRecOn with
  | nil => rfl
  | append_singleton groups g ih =>
    rw [List.foldl_concat, Dict.setAll, List.foldl_concat]
    exact congrArg (Dict.set · g.leaf (g.values offerType)) ih

/-- **A leaf has the values of its last group.** -/
theorem lookup_newExpensesMap (leaf : Leaf) : (newExpensesMap offerType groups).lookup leaf =
    (groupsOf groups leaf).getLast?.map (OfferGroup.values offerType) := by
  rw [newExpensesMap_eq]
  exact Dict.lookup_setAll ..

/-- The leaves have the sums of their groups, if the groups before the last ones come to nothing. -/
theorem added_iff : Added offerType groups ↔ Redundant offerType groups := by
  refine forall_congr' fun leaf => ?_
  rw [lookup_newExpensesMap]
  induction hgroups : groupsOf groups leaf using List.reverseRecOn with
  | nil => simp
  | append_singleton before last =>
    rw [List.getLast?_concat, List.dropLast_concat, List.map_append, List.sum_append,
      List.map_singleton, List.sum_singleton, Option.map_some]
    refine ⟨fun h => add_eq_right.mp (h _ rfl).symm, fun h v hv => ?_⟩
    rw [h, zero_add, ← Option.some.inj hv]
    rfl

/-- Leaves with the sums of their groups have what the groups have. -/
theorem Added.conserves (h : Added offerType groups) : Conserves offerType groups := by
  unfold Added at h
  unfold Conserves
  rw [newExpensesMap_eq] at h ⊢
  exact Dict.sum_setAll _ _ _ _ _ h

end Leaves

/-- **Usage and cost are conserved, and groups of one leaf are added**, exactly if the groups of each
leaf but the last come to nothing. -/
theorem processRiSpExpenses_added_iff (offerType : OfferType) (groups : List OfferGroup) :
    Conserves offerType groups ∧ Added offerType groups ↔ Redundant offerType groups :=
  ⟨fun h => added_iff.mp h.2, fun h => ⟨(added_iff.mpr h).conserves, added_iff.mpr h⟩⟩

/-! ## The last hour of a day -/

/-- The hours of a day that end on it. -/
def daytime : OfferGroup where
  startDate := 0
  endDate := 0
  cloudResourceId := "i-1".toList
  cloudOfferId := "ri-1".toList
  instanceType := some "m5.large".toList
  description := none
  usageHours := [23]
  usageSeconds := []
  onDemandCost := [46]
  offerCost := [23]
  riNormFactor := none
  spRate := none

/-- The last hour, which ends on the next day. -/
def lastHour : OfferGroup :=
  { daytime with endDate := 86400, usageHours := [1], onDemandCost := [2], offerCost := [1] }

/-- **The last hour of a day replaces the others.** -/
theorem lastHour_replaces_daytime : ¬ Conserves .ri [daytime, lastHour] := by
  unfold Conserves
  decide +kernel

end AwsProcessor
