import OptScale.Foundations.Chunks
import OptScale.Foundations.Upserts
import OptScale.Rest.Failure

/-!
# Diworker/AzureUsage — the usage of an Azure account

An import numbers the rows of the usage report and upserts them, 200 at a time.  Several rows may be
alike in all unique fields; a row matches a record of another import, or the record of its own number.
When the report breaks off the rows are asked for and written again, under the same identity.  In the
end the records of other imports in the interval are deleted.
-/

open Upserts

/-- The update fields, beside the identity of the report and the number of the row. -/
inductive UsageField
  | endDate | usageQuantity | cost | effectivePrice | costInBillingCurrency | costInPricingCurrency
  | costInUSD | paygCostInBillingCurrency | paygCostInUSD | usageEndTime
deriving DecidableEq, Repr

/-- The unique fields; some may be missing. -/
structure UsageKey where
  startDate : ℤ
  meterId : Option String
  resourceId : Option String
  cloudAccountId : Uuid
  additionalProperties : Option String
  obtainedByDate : Option String
  billingPeriodStartDate : Option String
deriving DecidableEq, Repr

/-- A row of the report, as the import has filled and cleaned it: the update fields it has, the
identity of the import and the number of the row. -/
structure UsageRow (V : Type) where
  unique : UsageKey
  values : UsageField → Option V
  reportIdentity : ℤ
  recN : ℕ

/-- A raw record, of its unique and its update fields. -/
structure UsageRecord (V : Type) where
  unique : UsageKey
  values : UsageField → Option V
  reportIdentity : Option ℤ
  recN : Option ℕ

variable {V : Type}

/-- A row as a record of its own. -/
def UsageRow.record (r : UsageRow V) : UsageRecord V :=
  ⟨r.unique, r.values, some r.reportIdentity, some r.recN⟩

namespace AzureApiImporter

/-- `get_raw_upsert_filters`: the record is of another import, or has the number of the row. -/
def Matches (r : UsageRow V) (d : UsageRecord V) : Prop :=
  d.unique = r.unique ∧ (d.reportIdentity ≠ some r.reportIdentity ∨ d.recN = some r.recN)

/-- The update fields that the row has are set. -/
def setFields (r : UsageRow V) (d : UsageRecord V) : UsageRecord V where
  unique := d.unique
  values := fun f => (r.values f).or (d.values f)
  reportIdentity := some r.reportIdentity
  recN := some r.recN

/-- The upsert of a row. -/
def upsert (V : Type) : Upsert (UsageRow V) (UsageRecord V) UsageKey where
  rowKey := UsageRow.unique
  key := UsageRecord.unique
  Matches := Matches
  set := setFields
  fresh := UsageRow.record
  key_of_matches h := h.1
  key_set _ _ := rfl
  key_fresh _ := rfl

/-- `CHUNK_SIZE` -/
def chunkSize : ℕ := 200

/-- The account, the identity of the import, and where its period starts. -/
structure Import where
  cloudAccountId : Uuid
  reportIdentity : ℤ
  periodStart : ℤ

/-- A row is filled, with the account, the identity and the number. -/
def fill (I : Import) (usage : UsageKey × (UsageField → Option V)) (recordNumber : ℕ) :
    UsageRow V :=
  ⟨{ usage.1 with cloudAccountId := I.cloudAccountId }, usage.2, I.reportIdentity, recordNumber⟩

/-- The rows of a report that are written: numbered from one, those in the period. -/
def rows (I : Import) (usages : List (UsageKey × (UsageField → Option V))) : List (UsageRow V) :=
  ((usages.zipIdx 1).map fun u => fill I u.1 u.2).filter fun r => I.periodStart ≤ r.unique.startDate

/-- What an attempt writes before it fails: some of the chunks. -/
def written (rs : List (UsageRow V)) (chunks : ℕ) : List (UsageRow V) :=
  ((rs.toChunks chunkSize).take chunks).flatten

/-- `_load_usage_data`: each failed attempt, by the number of the chunks it has written, then the one
that does not fail. -/
inductive LoadUsageData (rs : List (UsageRow V)) :
    List ℕ → Multiset (UsageRecord V) → Multiset (UsageRecord V) → Prop
  | succeed {docs docs' : Multiset (UsageRecord V)}
    (h : Writes (upsert V) (rs.toChunks chunkSize).flatten docs docs') : LoadUsageData rs [] docs docs'
  | fail {chunks : ℕ} {attempts : List ℕ} {docs docs₁ docs' : Multiset (UsageRecord V)}
    (h : Writes (upsert V) (written rs chunks) docs docs₁)
    (hrest : LoadUsageData rs attempts docs₁ docs') :
    LoadUsageData rs (chunks :: attempts) docs docs'

/-- `_update_imported_raw_interval`, of one account. -/
def updateImportedRawInterval (interval : Option (ℤ × ℤ)) (startDate : ℤ) : Option (ℤ × ℤ) :=
  match interval with
  | none => some (startDate, startDate)
  | some (a, b) =>
    some (if startDate < a then startDate else a, if b < startDate then startDate else b)

/-- The interval that an import has written to, over all its attempts. -/
def importedRawInterval (rs : List (UsageRow V)) (attempts : List ℕ) : Option (ℤ × ℤ) :=
  (((attempts.flatMap (written rs)) ++ rs).map fun r => r.unique.startDate).foldl
    updateImportedRawInterval none

/-- The record is the account's, and in the interval. -/
def Imported (I : Import) : Option (ℤ × ℤ) → UsageRecord V → Prop
  | none, _ => False
  | some (a, b), d => d.unique.cloudAccountId = I.cloudAccountId ∧
      a ≤ d.unique.startDate ∧ d.unique.startDate ≤ b

instance (I : Import) : ∀ interval, DecidablePred (Imported (V := V) I interval)
  | none, _ => isFalse not_false
  | some (a, b), d => inferInstanceAs (Decidable (d.unique.cloudAccountId = I.cloudAccountId ∧
      a ≤ d.unique.startDate ∧ d.unique.startDate ≤ b))

/-- `clear_rudiments` -/
def clearRudiments (I : Import) (interval : Option (ℤ × ℤ)) (docs : Multiset (UsageRecord V)) :
    Multiset (UsageRecord V) :=
  docs.filter fun d => ¬ (Imported I interval d ∧ d.reportIdentity ≠ some I.reportIdentity)

/-- **The import is exact**: after it the records of the interval are the rows of the report. -/
def Exact (I : Import) (rs : List (UsageRow V)) (attempts : List ℕ)
    (docs : Multiset (UsageRecord V)) : Prop :=
  (clearRudiments I (importedRawInterval rs attempts) docs).filter
    (Imported I (importedRawInterval rs attempts)) = ↑(rs.map UsageRow.record)

end AzureApiImporter
