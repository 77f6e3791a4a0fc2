import OptScale.Foundations.Chunks
import OptScale.Foundations.Renewal
import OptScale.Rest.Text

/-!
# Risp/Base — the tables of the RI/SP processors

`RispProcessorBase` keeps two ClickHouse tables of signed rows: `ri_sp_usage`, what reservations and savings
plans covered, and `uncovered_usage`, what they did not.  Newly computed expenses are saved in the same way to
both (`Renewal.renew`): what the table holds for their resources is looked up, an unchanged record leaves the
map together with its siblings, a changed one is cancelled, and what is left of the map is inserted.

`ClickHouse` stores a date as an instant and returns it without a time zone.
-/

open Ledger

namespace RispProcessorBase

def CHUNK_SIZE : ℕ := 200

/-- A `datetime`, by the seconds its fields read as: without a time zone, or in UTC. -/
inductive DateTime
  | naive (seconds : ℤ)
  | utc (seconds : ℤ)
  deriving DecidableEq

namespace DateTime

def seconds : DateTime → ℤ
  | naive s => s
  | utc s => s

/-- `date.replace(tzinfo=timezone.utc)` -/
def replaceUtc (date : DateTime) : DateTime := .utc date.seconds

theorem replaceUtc_utc (s : ℤ) : replaceUtc (.utc s) = .utc s := rfl

theorem naive_ne_replaceUtc (s : ℤ) (date : DateTime) : naive s ≠ date.replaceUtc := by
  intro h
  cases h

end DateTime

inductive OfferType
  | ri
  | sp
  deriving DecidableEq

/-! ## `ri_sp_usage` -/

/-- What the rows of `ri_sp_usage` are summed by. -/
structure UsageKey where
  cloudAccountId : Uuid
  resourceId : Text
  date : ℤ
  instanceType : Text
  offerId : Text
  offerType : OfferType
  deriving DecidableEq

/-- A row of `ri_sp_usage`. -/
structure RiSpUsage where
  cloudAccountId : Uuid
  resourceId : Text
  date : ℤ
  instanceType : Text
  offerId : Text
  offerType : OfferType
  onDemandCost : ℚ
  offerCost : ℚ
  usage : ℚ
  riNormFactor : ℚ
  spRate : ℚ
  expectedCost : ℚ
  sign : ℤ
  deriving DecidableEq

def RiSpUsage.key (r : RiSpUsage) : UsageKey :=
  ⟨r.cloudAccountId, r.resourceId, r.date, r.instanceType, r.offerId, r.offerType⟩

/-- A row with what is summed of it. -/
def RiSpUsage.toRow (r : RiSpUsage) : Row UsageKey (ℚ × ℚ × ℚ) :=
  ⟨r.key, (r.offerCost, r.onDemandCost, r.usage), r.sign⟩

/-- The table as a ledger. -/
def usageLedger (table : List RiSpUsage) : Multiset (Row UsageKey (ℚ × ℚ × ℚ)) := table.map RiSpUsage.toRow

/-- The net sign of a key, and its net offer cost, on-demand cost and usage. -/
def usageBalance (table : List RiSpUsage) (k : UsageKey) : ℤ × ℚ × ℚ × ℚ := balance (usageLedger table) k

/-- `ri_sp_usage_expense` -/
def riSpUsageExpense (cloudAccountId : Uuid) (resourceId : Text) (date : DateTime)
    (instanceType offerId : Text) (offerType : OfferType)
    (onDemandCost offerCost usage riNormFactor spRate expectedCost : ℚ) (sign : ℤ) : RiSpUsage :=
  ⟨cloudAccountId, resourceId, date.seconds, instanceType, offerId, offerType, onDemandCost, offerCost,
    usage, riNormFactor, spRate, expectedCost, sign⟩

/-- A row `get_ri_sp_usage_expenses` returns. -/
structure UsageExpense where
  resourceId : Text
  date : DateTime
  instanceType : Text
  offerId : Text
  riNormFactor : ℚ
  spRate : ℚ
  expectedCost : ℚ
  offerCost : ℚ
  onDemandCost : ℚ
  usage : ℚ
  deriving DecidableEq

def UsageExpense.key (cloudAccountId : Uuid) (offerType : OfferType) (e : UsageExpense) : UsageKey :=
  ⟨cloudAccountId, e.resourceId, e.date.seconds, e.instanceType, e.offerId, offerType⟩

/-- What a query is made for. -/
structure UsageQuery where
  cloudAccountId : Uuid
  offerType : OfferType
  startDate : ℤ
  endDate : ℤ

/-- The `WHERE` of a query, but for the resources. -/
def UsageQuery.Asks (Q : UsageQuery) (k : UsageKey) : Prop :=
  k.cloudAccountId = Q.cloudAccountId ∧ k.offerType = Q.offerType ∧ Q.startDate ≤ k.date ∧ k.date ≤ Q.endDate

/-- **What `get_ri_sp_usage_expenses` may return**: the net values of every key with a positive net sign, in
any order, and of the factors those of any of its rows. -/
structure GetRiSpUsageExpenses (table : List RiSpUsage) (Q : UsageQuery) (resourceIds : List Text)
    (expenses : List UsageExpense) : Prop where
  selects : Selects (usageLedger table)
    (fun k => Q.Asks k ∧ k.resourceId ∈ resourceIds) (UsageExpense.key Q.cloudAccountId Q.offerType)
    (fun e => (e.offerCost, e.onDemandCost, e.usage)) expenses
  riNormFactor : ∀ e ∈ expenses, ∃ r ∈ table, r.key = e.key Q.cloudAccountId Q.offerType ∧
    r.riNormFactor = e.riNormFactor
  spRate : ∀ e ∈ expenses, ∃ r ∈ table, r.key = e.key Q.cloudAccountId Q.offerType ∧ r.spRate = e.spRate
  expectedCost : ∀ e ∈ expenses, ∃ r ∈ table, r.key = e.key Q.cloudAccountId Q.offerType ∧
    r.expectedCost = e.expectedCost

/-- The values of an instance type in `new_expenses_map`. -/
structure UsageValues where
  offerCost : ℚ
  onDemandCost : ℚ
  usage : ℚ
  riNormFactor : ℚ
  spRate : ℚ
  deriving DecidableEq

/-- What is summed of them. -/
def UsageValues.costs (v : UsageValues) : ℚ × ℚ × ℚ := (v.offerCost, v.onDemandCost, v.usage)

/-- `new_expenses_map`: by resource, date and offer, and then by instance type. -/
structure NewExpenses where
  entries : Renewal.New (Text × DateTime × Text) Text UsageValues
  nodup : (entries.map Prod.fst).Nodup
  /-- The dates are made in UTC. -/
  utc : ∀ x ∈ entries, ∃ s, x.1.1.2.1 = .utc s

namespace UsageExpense

/-- Where a found record is looked up. -/
def place (e : UsageExpense) : (Text × DateTime × Text) × Text :=
  ((e.resourceId, e.date.replaceUtc, e.offerId), e.instanceType)

/-- `existing_expense_values` -/
def values (e : UsageExpense) : UsageValues := ⟨e.offerCost, e.onDemandCost, e.usage, e.riNormFactor, e.spRate⟩

/-- The cancel record. -/
def cancel (Q : UsageQuery) (e : UsageExpense) : RiSpUsage :=
  riSpUsageExpense Q.cloudAccountId e.resourceId e.date.replaceUtc e.instanceType e.offerId Q.offerType
    e.onDemandCost e.offerCost e.usage e.riNormFactor e.spRate e.expectedCost (-1)

end UsageExpense

/-- The record of a new expense. -/
def enterUsage (Q : UsageQuery) (offerExpCostPerDay : Text → DateTime → Option ℚ)
    (x : ((Text × DateTime × Text) × Text) × UsageValues) : RiSpUsage :=
  riSpUsageExpense Q.cloudAccountId x.1.1.1 x.1.1.2.1 x.1.2 x.1.1.2.2 Q.offerType x.2.onDemandCost x.2.offerCost
    x.2.usage x.2.riNormFactor x.2.spRate ((offerExpCostPerDay x.1.1.2.2 x.1.1.2.1).getD 0) 1

/-- `save_risp_expenses_to_ch`: the records it inserts. -/
def saveRispExpensesToCh (Q : UsageQuery) (getRiSpUsageExpenses : List Text → List UsageExpense)
    (cloudResourceIds : List Text) (newExpensesMap : NewExpenses)
    (offerExpCostPerDay : Text → DateTime → Option ℚ) : List RiSpUsage :=
  Renewal.renew UsageExpense.place UsageExpense.values (UsageExpense.cancel Q) (enterUsage Q offerExpCostPerDay)
    newExpensesMap.entries ((cloudResourceIds.toChunks CHUNK_SIZE).map getRiSpUsageExpenses)

/-! ## `uncovered_usage` -/

/-- What the rows of `uncovered_usage` are summed by. -/
structure UncoveredKey where
  cloudAccountId : Uuid
  date : ℤ
  resourceId : Text
  instanceType : Text
  os : Text
  location : Text
  deriving DecidableEq

/-- A row of `uncovered_usage`. -/
structure UncoveredUsage where
  cloudAccountId : Uuid
  date : ℤ
  resourceId : Text
  instanceType : Text
  os : Text
  location : Text
  cost : ℚ
  usage : ℚ
  sign : ℤ
  deriving DecidableEq

def UncoveredUsage.key (r : UncoveredUsage) : UncoveredKey :=
  ⟨r.cloudAccountId, r.date, r.resourceId, r.instanceType, r.os, r.location⟩

/-- A row with what is summed of it. -/
def UncoveredUsage.toRow (r : UncoveredUsage) : Row UncoveredKey (ℚ × ℚ) := ⟨r.key, (r.cost, r.usage), r.sign⟩

/-- The table as a ledger. -/
def uncoveredLedger (table : List UncoveredUsage) : Multiset (Row UncoveredKey (ℚ × ℚ)) :=
  table.map UncoveredUsage.toRow

/-- The net sign of a key, and its net cost and usage. -/
def uncoveredBalance (table : List UncoveredUsage) (k : UncoveredKey) : ℤ × ℚ × ℚ :=
  balance (uncoveredLedger table) k

/-- `uncovered_usage_expense` -/
def uncoveredUsageExpense (instanceType osType location : Text) (cloudAccountId : Uuid) (date : DateTime)
    (resourceId : Text) (usage cost : ℚ) (sign : ℤ) : UncoveredUsage :=
  ⟨cloudAccountId, date.seconds, resourceId, instanceType, osType, location, cost, usage, sign⟩

/-- A row `get_uncovered_usage_expenses` returns. -/
structure UncoveredExpense where
  instanceType : Text
  os : Text
  location : Text
  resourceId : Text
  date : DateTime
  cost : ℚ
  usage : ℚ
  deriving DecidableEq

/-- What a run is made for. -/
structure UncoveredQuery where
  cloudAccountId : Uuid
  startDate : ℤ
  endDate : ℤ

/-- The `WHERE` of a query, but for the resources. -/
def UncoveredQuery.Asks (Q : UncoveredQuery) (k : UncoveredKey) : Prop :=
  k.cloudAccountId = Q.cloudAccountId ∧ Q.startDate ≤ k.date ∧ k.date ≤ Q.endDate

/-- The cost and usage of an operating system, instance type and location, by resource and date. -/
abbrev Uncovered := ((Text × DateTime) × Text × Text × Text) × ℚ × ℚ

namespace UncoveredExpense

/-- Where a found record is looked up. -/
def place (e : UncoveredExpense) : (Text × DateTime) × Text × Text × Text :=
  ((e.resourceId, e.date.replaceUtc), e.os, e.instanceType, e.location)

/-- `existing_expense_values` -/
def values (e : UncoveredExpense) : ℚ × ℚ := (e.cost, e.usage)

/-- The cancel record. -/
def cancel (Q : UncoveredQuery) (e : UncoveredExpense) : UncoveredUsage :=
  uncoveredUsageExpense e.instanceType e.os e.location Q.cloudAccountId e.date.replaceUtc e.resourceId e.usage
    e.cost (-1)

end UncoveredExpense

/-- The record of a new expense. -/
def enterUncovered (Q : UncoveredQuery) (x : Uncovered) : UncoveredUsage :=
  uncoveredUsageExpense x.1.2.2.1 x.1.2.1 x.1.2.2.2 Q.cloudAccountId x.1.1.2 x.1.1.1 x.2.2 x.2.1 1

/-- `save_uncovered_expenses_to_ch`: the records it inserts. -/
def saveUncoveredExpensesToCh (Q : UncoveredQuery)
    (getUncoveredUsageExpenses : List Text → List UncoveredExpense) (newExpensesMap : List Uncovered) :
    List UncoveredUsage :=
  let cloudResourceIds := (newExpensesMap.map fun x => x.1.1.1).eraseDups
  Renewal.renew UncoveredExpense.place UncoveredExpense.values (UncoveredExpense.cancel Q) (enterUncovered Q)
    newExpensesMap ((cloudResourceIds.toChunks CHUNK_SIZE).map getUncoveredUsageExpenses)

end RispProcessorBase
