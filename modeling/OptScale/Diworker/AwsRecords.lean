import OptScale.Diworker.RawDocuments

/-!
# Diworker/AwsRecords — the records of a cost report

`load_raw_data` goes over the files of a report.  The rows of a file are numbered anew, and those of linked accounts
that are in the period are upserted; in the end the records of other reports are deleted from the interval that was
written.

Two rows of one file have two numbers, so a file alone loses nothing.  Rows of several files that agree in the unique
fields and in their numbers are taken for one (`import_is_exact`).
-/

open Upserts ExpenseDocument ReportFields BaseReportImporter

namespace AwsReportImporter

/-- `get_unique_field_list`.  Two names come to one where a comma is missing. -/
def getUniqueFieldList (includeDate : Bool) : List String :=
  ["lineItem/LineItemDescription", "lineItem/LineItemType", "lineItem/UsageType", "lineItem/Operation",
    "lineItem/ProductCode", "lineItem/ResourceId", "cloud_account_id", "lineItem/AvailabilityZone",
    "savingsPlan/SavingsPlanARN", "reservation/ReservationARNbill/BillingPeriodStartDate", "resource_id"] ++
    if includeDate then ["lineItem/UsageStartDate", "start_date"] else []

/-- `get_update_fields` -/
def getUpdateFields : List String :=
  ["discount/EdpDiscount", "lineItem/BlendedRate", "lineItem/BlendedCost", "lineItem/UnblendedRate",
    "lineItem/UnblendedCost", "lineItem/UsageEndDate", "lineItem/UsageAmount",
    "savingsPlan/SavingsPlanEffectiveCost", "reservation/EffectiveCost", "pricing/publicOnDemandCost",
    "savingPlan/UsedCommitment", "savingsPlan/SavingsPlanRate", "reservation/UnusedQuantity",
    "reservation/UnusedRecurringFee", "reservation/UnusedAmortizedUpfrontFeeForBillingPeriod",
    "reservation/AmortizedUpfrontFeeForBillingPeriod", "end_date", "cost", "report_identity", "_rec_n"]

/-- The fields of `get_raw_upsert_filters` and of the update. -/
def reportFields : ReportFields where
  unique := getUniqueFieldList true
  update := getUpdateFields
  disjoint := List.disjoint_left.mpr (by decide)
  account := by decide
  date := by decide
  identity := by decide
  number := by decide

/-- An import. -/
structure CostImport where
  reportIdentity : RawField
  minDateImportThreshold : ℤ
  /-- The account of the row is linked. -/
  linked : ExpenseDocument → Bool

/-- A report file, as it is read, with its rows. -/
inductive ReportFile
  | csv (rows : List ExpenseDocument)
  | parquet (rows : List ExpenseDocument)

variable (I : CostImport)

/-- The account and the date of a document. -/
abbrev accountAndDate (d : ExpenseDocument) : Uuid × ℤ := reportFields.upsert.key d

def isRIFee (d : ExpenseDocument) : Bool := d.lookup "lineItem/LineItemType" = some (.text "RIFee".toList)

/-- A row that is imported: in the period, or an `RIFee`. -/
def imported (r : ExpenseDocument) : Bool := I.minDateImportThreshold ≤ (accountAndDate r).2 || isRIFee r

/-- A row with its number and the identity of the report. -/
def numberedRow (r : ExpenseDocument × ℕ) : ExpenseDocument :=
  Dict.set (Dict.set r.1 "_rec_n" (.number r.2)) "report_identity" I.reportIdentity

/-- `load_report`: the rows of a file that are upserted.  In CSV the rows of linked accounts are counted, in Parquet
all rows. -/
def loadReport : ReportFile → List ExpenseDocument
  | .csv rows => (((rows.filter I.linked).zipIdx 1).map (numberedRow I)).filter (imported I)
  | .parquet rows => ((rows.zipIdx.filter fun r => I.linked r.1).map (numberedRow I)).filter (imported I)

/-- The rows of the files, chunk after chunk. -/
def reportRows (files : List ReportFile) : List ExpenseDocument := files.flatMap (loadReport I)

/-- `_update_imported_raw_interval`: an `RIFee` of an earlier date is left out. -/
def importedRawDates (rows : List ExpenseDocument) : Uuid → Option (ℤ × ℤ) :=
  ((rows.filter fun r => !((accountAndDate r).2 < I.minDateImportThreshold && isRIFee r)).map accountAndDate).foldl
    updateImportedRawInterval fun _ => none

/-- `clear_rudiments` -/
def clearRudiments (dates : Uuid → Option (ℤ × ℤ)) (docs : Multiset ExpenseDocument) : Multiset ExpenseDocument :=
  docs.filter fun d => ¬ (((dates (accountAndDate d).1).any fun i =>
    i.1 ≤ (accountAndDate d).2 && (accountAndDate d).2 ≤ i.2) ∧ ¬ Current I.reportIdentity d)

/-- What `load_raw_data` may leave of the records. -/
def LoadRawData (files : List ReportFile) (docs docs' : Multiset ExpenseDocument) : Prop :=
  ∃ written, Writes reportFields.upsert (reportRows I files) docs written ∧
    docs' = clearRudiments I (importedRawDates I (reportRows I files)) written

/-! ## The rows -/

variable {I} {files : List ReportFile} {file : ReportFile} {r : ExpenseDocument} {docs docs' : Multiset ExpenseDocument}

theorem numberedRow_spec (r : ExpenseDocument × ℕ) : Written I.reportIdentity (numberedRow I r) ∧
    (numberedRow I r).lookup "_rec_n" = some (.number r.2) := by
  have hnumber : (numberedRow I r).lookup "_rec_n" = some (.number r.2) := by
    rw [numberedRow, Dict.lookup_set, if_neg (by decide), Dict.lookup_set, if_pos rfl]
  refine ⟨⟨?_, by rw [hnumber]; rfl⟩, hnumber⟩
  exact (Dict.lookup_set ..).trans (if_pos rfl)

/-- The rows of a file are numbered rows, with different numbers. -/
theorem exists_numbered (file : ReportFile) : ∃ numbered : List (ExpenseDocument × ℕ),
    (numbered.map Prod.snd).Nodup ∧ loadReport I file = numbered.map (numberedRow I) := by
  have hnodup : ∀ (rows : List ExpenseDocument) (first : ℕ), ((rows.zipIdx first).map Prod.snd).Nodup := by
    intro rows first
    rw [List.zipIdx_map_snd]
    exact List.nodup_range'
  have hfilter : ∀ numbered : List (ExpenseDocument × ℕ), (numbered.map Prod.snd).Nodup →
      ∃ kept : List (ExpenseDocument × ℕ), (kept.map Prod.snd).Nodup ∧
        (numbered.map (numberedRow I)).filter (imported I) = kept.map (numberedRow I) := fun numbered h =>
    ⟨_, h.sublist (List.filter_sublist.map _), List.filter_map⟩
  cases file with
  | csv rows => exact hfilter _ (hnodup _ 1)
  | parquet rows => exact hfilter _ ((hnodup rows 0).sublist (List.filter_sublist.map _))

theorem written_of_mem (hr : r ∈ reportRows I files) : Written I.reportIdentity r := by
  obtain ⟨file, -, hr⟩ := List.mem_flatMap.mp hr
  obtain ⟨numbered, -, hfile⟩ := exists_numbered (I := I) file
  rw [hfile] at hr
  obtain ⟨x, -, rfl⟩ := List.mem_map.mp hr
  exact (numberedRow_spec x).1

/-- **The rows of a file** are in places of their own. -/
theorem nodup_loadReport (file : ReportFile) : ((loadReport I file).map reportFields.place).Nodup := by
  obtain ⟨numbered, hnodup, hfile⟩ := exists_numbered (I := I) file
  have hnumbers : (numbered.map fun x => (some (.number x.2) : Option RawField)).Nodup := by
    have hmap := hnodup.map (f := fun n : ℕ => (some (.number n) : Option RawField)) fun m n h => by
      simpa using h
    rwa [List.map_map] at hmap
  rw [hfile, List.map_map]
  refine List.Nodup.of_map Prod.snd ?_
  rw [List.map_map]
  have hsame : numbered.map (Prod.snd ∘ reportFields.place ∘ numberedRow I) =
      numbered.map fun x => (some (.number x.2) : Option RawField) :=
    List.map_congr_left fun x _ => (numberedRow_spec (I := I) x).2
  rwa [hsame]

/-- **No two files share a place**: rows of two files that agree in the unique fields have different numbers. -/
def Apart (I : CostImport) (files : List ReportFile) : Prop :=
  files.Pairwise fun file file' => ∀ r ∈ loadReport I file, ∀ r' ∈ loadReport I file',
    reportFields.place r ≠ reportFields.place r'

instance (I : CostImport) (files : List ReportFile) : Decidable (Apart I files) :=
  inferInstanceAs (Decidable (files.Pairwise _))

theorem nodup_reportRows : ((reportRows I files).map reportFields.place).Nodup ↔ Apart I files := by
  rw [reportRows, List.map_flatMap, List.nodup_flatMap]
  constructor
  · rintro ⟨-, hdisjoint⟩
    exact hdisjoint.imp fun h r hr r' hr' heq => h (List.mem_map_of_mem hr) (heq ▸ List.mem_map_of_mem hr')
  · refine fun h => ⟨fun file _ => nodup_loadReport file, h.imp fun hne p hp hp' => ?_⟩
    obtain ⟨r, hr, rfl⟩ := List.mem_map.mp hp
    obtain ⟨r', hr', heq⟩ := List.mem_map.mp hp'
    exact hne r hr r' hr' heq.symm

/-! ## The records -/

/-- The document is of the account and the day. -/
def On (a : Uuid) (day : ℤ) (d : ExpenseDocument) : Prop := accountAndDate d = (a, day)

instance (a : Uuid) (day : ℤ) : DecidablePred (On a day) := fun d => inferInstanceAs (Decidable (accountAndDate d = _))

/-- **The records of a day are its rows**, one each. -/
def ExactOn (I : CostImport) (files : List ReportFile) (docs : Multiset ExpenseDocument) (a : Uuid) (day : ℤ) : Prop :=
  ∃ ds : List ExpenseDocument, docs.filter (On a day) = ds ∧
    List.Forall₂ reportFields.Carries ((reportRows I files).filter fun r => On a day r) ds

theorem on_of_carries {d : ExpenseDocument} (h : reportFields.Carries r d) (a : Uuid) (day : ℤ) :
    On a day d ↔ On a day r := by
  have hkey : accountAndDate d = accountAndDate r := by
    refine Prod.ext ?_ ?_
    · exact congrArg accountOf (h.1 _ reportFields.account)
    · exact congrArg dateOf (h.1 _ reportFields.date)
  unfold On
  rw [hkey]

/-- What carries rows, carries those of a day. -/
theorem forall₂_filter {rows ds : List ExpenseDocument} (h : List.Forall₂ reportFields.Carries rows ds) (a : Uuid)
    (day : ℤ) : List.Forall₂ reportFields.Carries (rows.filter fun r => On a day r) (ds.filter fun d => On a day d) := by
  induction h with
  | nil => exact .nil
  | cons hcarry _ ih =>
    rename_i r d rows ds _
    have hiff := on_of_carries hcarry a day
    rw [List.filter_cons, List.filter_cons]
    by_cases hr : On a day r
    · rw [if_pos (decide_eq_true hr), if_pos (decide_eq_true (hiff.mpr hr))]
      exact .cons hcarry ih
    · rw [if_neg (by simpa using hr), if_neg (by simpa using mt hiff.mp hr)]
      exact ih

/-- In the interval only records of the report are left. -/
theorem filter_clearRudiments {dates : Uuid → Option (ℤ × ℤ)} {a : Uuid} {day : ℤ} {i : ℤ × ℤ} (hi : dates a = some i)
    (hlow : i.1 ≤ day) (hhigh : day ≤ i.2) :
    (clearRudiments I dates docs).filter (On a day) = (docs.filter (Current I.reportIdentity)).filter (On a day) := by
  rw [clearRudiments, Multiset.filter_filter, Multiset.filter_filter]
  refine Multiset.filter_congr fun d _ => and_congr_right fun hon => ?_
  rw [show accountAndDate d = (a, day) from hon, hi]
  simp [hlow, hhigh]

/-- **An import of a report is exact** on every day in its interval, whatever was there of other reports, when no two
files share a place; and of what comes to an empty collection every row is kept exactly then. -/
theorem import_is_exact (I : CostImport) (files : List ReportFile) (docs docs' : Multiset ExpenseDocument)
    (hother : ∀ d ∈ docs, ¬ Current I.reportIdentity d) (hload : LoadRawData I files docs docs') :
    (Apart I files → ∀ a i day, importedRawDates I (reportRows I files) a = some i → i.1 ≤ day → day ≤ i.2 →
      ExactOn I files docs' a day) ∧
    (docs = 0 → (reportFields.Kept I.reportIdentity (reportRows I files) docs' ↔ Apart I files)) := by
  obtain ⟨written, hwrites, rfl⟩ := hload
  have hrows : ∀ r ∈ reportRows I files, Written I.reportIdentity r := fun r hr => written_of_mem hr
  constructor
  · intro hapart a i day hi hlow hhigh
    have hnone : docs.filter (Current I.reportIdentity) = ([] : List ExpenseDocument) :=
      Multiset.filter_eq_nil.mpr hother
    obtain ⟨ds, hds, hcarries⟩ : reportFields.Kept I.reportIdentity (reportRows I files) written :=
      kept_of_writes hwrites hnone .nil hrows (nodup_reportRows.mpr hapart)
    refine ⟨ds.filter fun d => On a day d, ?_, forall₂_filter hcarries a day⟩
    rw [filter_clearRudiments hi hlow hhigh, hds]
    exact Multiset.filter_coe _ _
  · rintro rfl
    rw [← nodup_reportRows, ← kept_iff hwrites hrows]
    have hsame : (clearRudiments I (importedRawDates I (reportRows I files)) written).filter
        (Current I.reportIdentity) = written.filter (Current I.reportIdentity) := by
      rw [clearRudiments, Multiset.filter_filter]
      exact Multiset.filter_congr fun d _ => and_iff_left_of_imp fun hcurrent hnot => hnot.2 hcurrent
    unfold ReportFields.Kept
    rw [hsame]

/-- A row of a day, with one field more. -/
def rowOfDay (field : String) (value : RawField) : ExpenseDocument :=
  Dict.set (Dict.set (Dict.set ∅ "cloud_account_id" (.id 7)) "start_date" (.date 86400)) field value

/-- An import of everything. -/
def fullImport : CostImport := ⟨.number 2, 0, fun _ => true⟩

/-- A report of two files. -/
def twoFiles : List ReportFile := [.csv [rowOfDay "cost" (.number 3)], .parquet [rowOfDay "cost" (.number 4)]]

/-- Two files, over a record of an older report. -/
theorem import_is_exact_twoFiles : ∃ docs',
    LoadRawData fullImport twoFiles {rowOfDay "report_identity" (.number 1)} docs' ∧
      ExactOn fullImport twoFiles docs' 7 86400 := by
  obtain ⟨written, hwritten⟩ := exists_writes reportFields.upsert (reportRows fullImport twoFiles)
    {rowOfDay "report_identity" (.number 1)}
  refine ⟨_, ⟨written, hwritten, rfl⟩, ?_⟩
  exact (import_is_exact _ _ _ _ (by decide) ⟨written, hwritten, rfl⟩).1 (by decide) 7 (86400, 86400) 86400 (by decide)
    (by decide) (by decide)

theorem costs_of_carries {rows ds : List ExpenseDocument} (h : List.Forall₂ reportFields.Carries rows ds)
    (hcost : ∀ r ∈ rows, (r.lookup "cost").isSome) :
    ds.map (fun d => amountOf (d.lookup "cost")) = rows.map fun r => amountOf (r.lookup "cost") := by
  induction h with
  | nil => rfl
  | cons hcarry _ ih =>
    obtain ⟨hr, hrest⟩ := List.forall_mem_cons.mp hcost
    obtain ⟨v, hv⟩ := Option.isSome_iff_exists.mp hr
    rw [List.map_cons, List.map_cons, ih hrest, hcarry.2 _ (by decide) v hv, hv]

/-- **The costs are those of the report.** -/
theorem costs_of_exactOn {a : Uuid} {day : ℤ} (h : ExactOn I files docs a day)
    (hcost : ∀ r ∈ reportRows I files, (r.lookup "cost").isSome) :
    ((docs.filter (On a day)).map fun d => amountOf (d.lookup "cost")).sum =
      (((reportRows I files).filter fun r => On a day r).map fun r => amountOf (r.lookup "cost")).sum := by
  obtain ⟨ds, hds, hcarries⟩ := h
  rw [hds, Multiset.map_coe, Multiset.sum_coe,
    costs_of_carries hcarries fun r hr => hcost r (List.mem_of_mem_filter hr)]

end AwsReportImporter
