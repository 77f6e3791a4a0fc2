import OptScale.Foundations.Fallible
import OptScale.Foundations.Table
import OptScale.Foundations.Ledger
import OptScale.Rest.Failure
import OptScale.Foundations.Latest

/-!
# Diworker/Importer — `BaseReportImporter`

An importer turns the raw expenses of a resource into one clean expense a day and writes the
difference to what ClickHouse has into the table `expenses`.  The table is a ledger of signed rows;
the server collapses rows that take each other back whenever it likes.  Days are the instants they
begin at, in seconds.
-/

open Fallible

/-- What the rows of `expenses` are about. -/
structure ExpenseKey where
  cloudAccountId : Uuid
  resourceId : Uuid
  date : ℤ
  deriving DecidableEq

/-- A row of `expenses`. -/
abbrev Expense := Ledger.Row ExpenseKey ℚ

/-- The expense of a resource on a day. -/
structure CleanExpense where
  date : ℤ
  cost : ℚ
  resourceId : Uuid
  cloudAccountId : Uuid
  deriving DecidableEq

/-- The rows a clean expense is about. -/
def CleanExpense.key (e : CleanExpense) : ExpenseKey := ⟨e.cloudAccountId, e.resourceId, e.date⟩

/-- A resource as the rest service answers with it. -/
structure CloudResource where
  id : Uuid
  cloudResourceId : String
  deriving DecidableEq

/-- An importer, by what its class says of raw expenses `ρ`. -/
structure BaseReportImporter (ρ : Type) where
  cloudAccountId : ρ → Uuid
  cleanExpensesForResource : Uuid → List ρ → Table CleanExpense.date
  resourceId_eq : ∀ id es, ∀ e ∈ (cleanExpensesForResource id es).rows, e.resourceId = id
  cloudAccountId_mem : ∀ id es, ∀ e ∈ (cleanExpensesForResource id es).rows,
    ∃ raw ∈ es, cloudAccountId raw = e.cloudAccountId

namespace BaseReportImporter

/-! ## Clean expenses -/

/-- A raw expense. -/
structure RawExpense where
  startDate : ℤ
  cost : ℚ
  cloudAccountId : Uuid
  deriving DecidableEq

/-- `usage_date` -/
def RawExpense.usageDate (e : RawExpense) : ℤ := e.startDate / 86400 * 86400

/-- `clean_expenses_for_resource` -/
def cleanExpensesByDay (resourceId : Uuid) (expenses : List RawExpense) :
    Table CleanExpense.date :=
  expenses.foldl (fun cleanExpenses e =>
    cleanExpenses.upsert ⟨e.usageDate, e.cost, resourceId, e.cloudAccountId⟩
      (fun x => { x with cost := x.cost + e.cost }) fun _ => rfl) .empty

theorem cleanExpensesByDay_concat (resourceId : Uuid) (expenses : List RawExpense) (e : RawExpense) :
    cleanExpensesByDay resourceId (expenses ++ [e]) =
      (cleanExpensesByDay resourceId expenses).upsert
        ⟨e.usageDate, e.cost, resourceId, e.cloudAccountId⟩
        (fun x => { x with cost := x.cost + e.cost }) fun _ => rfl :=
  List.foldl_concat ..

/-- Every day that is used has its clean expense. -/
theorem exists_cleanExpense (resourceId : Uuid) {expenses : List RawExpense} {e : RawExpense}
    (he : e ∈ expenses) :
    ∃ c ∈ (cleanExpensesByDay resourceId expenses).rows, c.date = e.usageDate := by
  induction expenses using List.reverseRecOn with
  | nil => exact absurd he List.not_mem_nil
  | append_singleton expenses last ih =>
    simp only [cleanExpensesByDay_concat, Table.mem_upsert]
    obtain he | he := List.mem_append.mp he
    · obtain ⟨c, hc, hdate⟩ := ih he
      by_cases hday : c.date = last.usageDate
      · exact ⟨_, Or.inr (Or.inl ⟨c, hc, hday, rfl⟩), hdate⟩
      · exact ⟨c, Or.inl ⟨hc, hday⟩, hdate⟩
    · obtain rfl := List.mem_singleton.mp he
      by_cases hold : ∃ c ∈ (cleanExpensesByDay resourceId expenses).rows, c.date = e.usageDate
      · obtain ⟨c, hc, hday⟩ := hold
        exact ⟨_, Or.inr (Or.inl ⟨c, hc, hday, rfl⟩), hday⟩
      · refine ⟨_, Or.inr (Or.inr ⟨fun hin => hold ?_, rfl⟩), rfl⟩
        obtain ⟨c, hc, hday⟩ := List.mem_map.mp hin
        exact ⟨c, hc, hday⟩

/-- **A clean expense has its day's total.** -/
theorem cleanExpense_spec {resourceId : Uuid} {expenses : List RawExpense} {c : CleanExpense}
    (hc : c ∈ (cleanExpensesByDay resourceId expenses).rows) :
    c.resourceId = resourceId ∧ (∃ e ∈ expenses, e.cloudAccountId = c.cloudAccountId) ∧
      c.cost = ((expenses.filter fun e => e.usageDate = c.date).map RawExpense.cost).sum := by
  induction expenses using List.reverseRecOn generalizing c with
  | nil => exact absurd hc List.not_mem_nil
  | append_singleton expenses last ih =>
    rw [cleanExpensesByDay_concat, Table.mem_upsert] at hc
    rw [List.filter_append, List.map_append, List.sum_append]
    obtain ⟨hc, hday⟩ | ⟨c, hc, hday, rfl⟩ | ⟨hnew, rfl⟩ := hc
    · obtain ⟨hid, ⟨e, he, hca⟩, hcost⟩ := ih hc
      have hlast : [last].filter (fun e => e.usageDate = c.date) = [] := by
        simpa using fun h => hday h.symm
      refine ⟨hid, ⟨e, List.mem_append_left _ he, hca⟩, ?_⟩
      rw [hlast, hcost]
      exact (add_zero _).symm
    · obtain ⟨hid, ⟨e, he, hca⟩, hcost⟩ := ih hc
      have hlast : [last].filter (fun e => e.usageDate = c.date) = [last] := by
        simpa using hday.symm
      refine ⟨hid, ⟨e, List.mem_append_left _ he, hca⟩, ?_⟩
      dsimp only
      rw [hlast, hcost]
      simp
    · have hnone : expenses.filter (fun e => e.usageDate = last.usageDate) = [] := by
        refine List.filter_eq_nil_iff.mpr fun e he hday => hnew ?_
        obtain ⟨c, hc, hdate⟩ := exists_cleanExpense resourceId he
        exact List.mem_map.mpr ⟨c, hc, hdate.trans (of_decide_eq_true hday)⟩
      refine ⟨rfl, ⟨last, List.mem_append_right _ (List.mem_singleton_self _), rfl⟩, ?_⟩
      dsimp only
      rw [hnone]
      simp

/-- The base class. -/
def base : BaseReportImporter RawExpense where
  cloudAccountId := RawExpense.cloudAccountId
  cleanExpensesForResource := cleanExpensesByDay
  resourceId_eq _ _ _ h := (cleanExpense_spec h).1
  cloudAccountId_mem _ _ _ h := (cleanExpense_spec h).2.1

/-! ## Saving -/

variable {ρ : Type}

/-- `gen_clickhouse_expense` -/
def genClickhouseExpense (expense : CleanExpense) (newCost : Option ℚ) : Expense :=
  match newCost with
  | none => ⟨expense.key, expense.cost, 1⟩
  | some newCost => ⟨expense.key, newCost, -1⟩

/-- `get_clickhouse_expenses` -/
def getClickhouseExpenses (table : Multiset Expense) (fromDt toDt : ℤ) (resourceIds : List Uuid)
    (cloudAccountId : Uuid) : Multiset Expense :=
  table.filter fun r => r.key.cloudAccountId = cloudAccountId ∧ fromDt ≤ r.key.date ∧
    r.key.date ≤ toDt ∧ r.key.resourceId ∈ resourceIds

/-- The rows that bring a clean expense up to date, given the existing ones. -/
def clickhouseExpensesFor (existing : Multiset Expense) (expense : CleanExpense) : List Expense :=
  let clickhouseExpense := existing.filter fun r =>
    r.key.resourceId = expense.resourceId ∧ r.key.date = expense.date
  if clickhouseExpense = 0 then [genClickhouseExpense expense none]
  else if (clickhouseExpense.map Ledger.Row.sign).sum ≠ 0 then
    let cost := (clickhouseExpense.map fun r => r.cost * (r.sign : ℚ)).sum
    if cost ≠ expense.cost then
      [genClickhouseExpense expense (some cost), genClickhouseExpense expense none]
    else []
  else [genClickhouseExpense expense none]

/-- What one turn of the loop over the chunk has of a resource. -/
structure ResourceExpenses where
  resourceId : Uuid
  cleanExpenses : Table CleanExpense.date
  lastExpense : CleanExpense

/-- One turn of the loop over the chunk. -/
def resourceExpenses (importer : BaseReportImporter ρ) (resources : List CloudResource)
    (rId : String) (expenses : List ρ) : Except Failure ResourceExpenses := do
  let resource ← orFail (resources.reverse.find? fun r => r.cloudResourceId = rId)
    (.python "KeyError")
  let cleanExpenses := importer.cleanExpensesForResource resource.id expenses
  let lastExpense ← orFail (latest? CleanExpense.date cleanExpenses.rows) (.python "KeyError")
  pure ⟨resource.id, cleanExpenses, lastExpense⟩

/-- The raw expenses of each resource, by its id in the cloud. -/
abbrev Chunk (ρ : Type) := Table fun p : String × List ρ => p.1

/-- The rows that bring clean expenses up to date. -/
def clickhouseExpenses (cloudAccountId : Uuid) (resourceIds : List Uuid)
    (cleanExpenses : List CleanExpense) (table : Multiset Expense) : List Expense :=
  match (cleanExpenses.map CleanExpense.date).min?, (cleanExpenses.map CleanExpense.date).max? with
  | some minDate, some maxDate =>
    cleanExpenses.flatMap (clickhouseExpensesFor
      (getClickhouseExpenses table minDate maxDate resourceIds cloudAccountId))
  | _, _ => []

/-- What `save_clean_expenses` came to: what it computed, and the rows it inserted. -/
structure Saved where
  cleanExpenses : List CleanExpense
  lastExpenseInfo : List (Uuid × CleanExpense)
  inserted : List Expense

/-- `save_clean_expenses`, where the rest service answers with `resources`. -/
def saveCleanExpenses (importer : BaseReportImporter ρ) (cloudAccountId : Uuid) (chunk : Chunk ρ)
    (resources : Except Failure (List CloudResource)) (table : Multiset Expense) :
    Except Failure Saved := do
  let resources ← resources
  let parts ← chunk.rows.mapM fun p => resourceExpenses importer resources p.1 p.2
  let cleanExpenses := parts.flatMap fun part => part.cleanExpenses.rows
  let lastExpenseInfo := parts.map fun part => (part.resourceId, part.lastExpense)
  let resourceIds := lastExpenseInfo.map Prod.fst
  pure ⟨cleanExpenses, lastExpenseInfo,
    clickhouseExpenses cloudAccountId resourceIds cleanExpenses table⟩

end BaseReportImporter

/-- The rows `AlibabaReportImporter.fix_snapshot_chain_expenses` inserts: the net cost of what is
there is taken back, a resource and a day at a time. -/
def fixSnapshotChainExpenses (table : Multiset Expense) (fromDt toDt : ℤ) (resourceIds : List Uuid)
    (cloudAccountId : Uuid) : Multiset Expense :=
  let existing := BaseReportImporter.getClickhouseExpenses table fromDt toDt resourceIds
    cloudAccountId
  ((existing.map Ledger.Row.key).dedup.filter fun k => 0 < (Ledger.balance existing k).1).map fun k =>
    ⟨k, (Ledger.balance existing k).2, -1⟩
