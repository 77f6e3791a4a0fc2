import OptScale.Foundations.Chunks
import OptScale.Foundations.Dict
import OptScale.Foundations.Grouped
import OptScale.Foundations.Replacements
import OptScale.Rest.Text

/-!
# Trapper/Processor — `BaseTrafficExpenseProcessor`

The raw traffic expenses of an account in the windows of its tasks are summed by resource, day and regions, and
`traffic_expenses` is brought in line with the sums: a sum that the table has already is left out, another one
replaces what the table has.  So what a call plans (`planned_of_process`) is one replacement for every sum that is
not there yet, of keys whose days are in the windows.
-/

open Fallible Ledger Chunks

namespace Trapper

/-- `CHUNK_SIZE` -/
def CHUNK_SIZE : ℕ := 10000

/-- What expenses are summed by. -/
structure TrafficKey where
  resourceId : Text
  date : ℤ
  fromRegion : Text
  toRegion : Text
  deriving DecidableEq

/-- A cost and a usage. -/
abbrev Traffic := ℚ × ℚ

/-- The rows of `traffic_expenses`. -/
abbrev TrafficExpenses := Multiset (Row (Uuid × TrafficKey) Traffic)

/-- A `TrafficProcessingTask` that is not deleted. -/
structure TrafficProcessingTask where
  id : Uuid
  cloudAccountId : Uuid
  startDate : ℤ
  endDate : ℤ
  deriving DecidableEq

/-- The fields of a raw expense that are read for every cloud. -/
structure CommonFields (ρ : Type) where
  cloudAccountId : ρ → Uuid
  startDate : ρ → ℤ
  cost : ρ → ℚ

/-- What the processors of the clouds differ in. -/
structure BaseTrafficExpenseProcessor (ρ : Type) where
  /-- `get_expenses_filters`, but for the account and the dates. -/
  filters : ρ → Bool
  extractResourceId : ρ → Text
  /-- `extract_locations_and_usage` -/
  extractLocationsAndUsage : ρ → Except Failure (Text × Text × ℚ)

/-! ## Regions -/

/-- What the adapter knows of a region, as far as it is read. -/
structure RegionCoordinates where
  name : Option Text
  aliasName : Option Text
  deriving DecidableEq

/-- `get_region_names_map`; `lower` is `str.lower`. -/
def getRegionNamesMap (lower : Text → Text) (res : List (Text × RegionCoordinates)) : Dict Text Text :=
  res.foldl (fun names kv => [kv.2.name, kv.2.aliasName].foldl (fun names value =>
    (value.filter (· ≠ [])).elim names fun v => Dict.set names (lower v) kv.1) names) ∅

/-- `region_names_map.get(location.lower()) or location` -/
def regionName (lower : Text → Text) (names : Dict Text Text) (location : Text) : Text :=
  ((names.lookup (lower location)).filter (· ≠ [])).getD location

/-! ## The sums -/

/-- `replace(hour=0, minute=0, second=0, microsecond=0)` -/
def startOfDay (t : ℤ) : ℤ := t - t % 86400

section Process

variable {ρ : Type} (F : CommonFields ρ) (P : BaseTrafficExpenseProcessor ρ) (region : Text → Text)

/-- The key of a raw expense in `expenses_map`, and what is added there. -/
def keyedExpense (r : ρ) : Except Failure (TrafficKey × Traffic) := do
  let extracted ← P.extractLocationsAndUsage r
  pure (⟨P.extractResourceId r, startOfDay (F.startDate r), region extracted.1, region extracted.2.1⟩,
    F.cost r, extracted.2.2)

/-- Add an expense to a sum. -/
def addTo (x y : TrafficKey × Traffic) : TrafficKey × Traffic := (y.1, y.2 + x.2)

theorem addTo_fst (x y : TrafficKey × Traffic) : (addTo x y).1 = y.1 := rfl

/-- `expenses_map` -/
def expensesMap (expenses : List (TrafficKey × Traffic)) : Table (Prod.fst : TrafficKey × Traffic → TrafficKey) :=
  expenses.foldl (fun sums x => sums.upsert x (addTo x) (addTo_fst x)) Table.empty

/-- A date is in the window of a task. -/
def inWindows (tasks : List TrafficProcessingTask) (t : ℤ) : Bool :=
  tasks.any fun task => task.startDate ≤ t ∧ t ≤ task.endDate

/-- `get_existing_expenses`, by key. -/
def getExistingExpenses (table : TrafficExpenses) (cloudAccountId : Uuid) (tasks : List TrafficProcessingTask)
    (k : TrafficKey) : Option Traffic :=
  if inWindows tasks k.date then find table (cloudAccountId, k) else none

/-- The sums that differ from what there is, each with what it takes the place of. -/
def changedExpenses (cloudAccountId : Uuid) (sums : List (TrafficKey × Traffic))
    (existing : TrafficKey → Option Traffic) : List (Replacement (Uuid × TrafficKey) Traffic) :=
  (sums.filter fun x => existing x.1 ≠ some x.2).map fun x => ⟨(cloudAccountId, x.1), existing x.1, x.2⟩

/-- `get_expenses_filters` -/
def expensesFilter (cloudAccountId : Uuid) (tasks : List TrafficProcessingTask) (r : ρ) : Bool :=
  F.cloudAccountId r = cloudAccountId && inWindows tasks (F.startDate r) && P.filters r

/-- `process`, up to the insertions: what is to be inserted, chunk by chunk. -/
def process (cloudAccountId : Uuid) (tasks : List TrafficProcessingTask) (rawExpenses : List ρ)
    (table : TrafficExpenses) : Except Failure (List (List (Replacement (Uuid × TrafficKey) Traffic))) := do
  let expenses ← (rawExpenses.filter (expensesFilter F P cloudAccountId tasks)).mapM (keyedExpense F P region)
  pure ((changedExpenses cloudAccountId (expensesMap expenses).rows
    (getExistingExpenses table cloudAccountId tasks)).toChunks CHUNK_SIZE)

/-! ## What a call plans -/

/-- The sum of an expense's key is the sum over all expenses of the key. -/
theorem get?_expensesMap (expenses : List (TrafficKey × Traffic)) (k : TrafficKey) :
    (expensesMap expenses).get? k = if expenses.filter (fun x => x.1 = k) = [] then none
      else some (k, ((expenses.filter fun x => x.1 = k).map Prod.snd).sum) := by
  induction expenses using List.reverseRecOn with
  | nil => rfl
  | append_singleton expenses x ih =>
    have hlast : expensesMap (expenses ++ [x]) = (expensesMap expenses).upsert x (addTo x) (addTo_fst x) :=
      List.foldl_concat ..
    rw [hlast, Table.get?_upsert, ih, List.filter_append, List.filter_singleton]
    by_cases hk : x.1 = k
    · subst hk
      have hsome : expenses.filter (fun y => y.1 = x.1) ++ [x] ≠ [] := List.append_ne_nil_of_right_ne_nil _ (by simp)
      rw [if_pos rfl, decide_eq_true rfl, cond_true, if_neg hsome, List.map_append, List.sum_append]
      by_cases hnone : expenses.filter (fun y => y.1 = x.1) = []
      · simp [hnone]
      · simp [hnone, addTo]
    · rw [if_neg hk, decide_eq_false hk, cond_false, List.append_nil]

/-- The key of a raw expense, if it can be told. -/
def keyOf (r : ρ) : Option TrafficKey := (keyedExpense F P region r).toOption.map Prod.fst

/-- What a raw expense adds to its key. -/
def trafficOf (r : ρ) : Traffic := ((keyedExpense F P region r).toOption.map Prod.snd).getD 0

/-- **The raw expenses of a key** of the account, of all times. -/
def rawOf (cloudAccountId : Uuid) (rawExpenses : List ρ) (k : TrafficKey) : List ρ :=
  rawExpenses.filter fun r => F.cloudAccountId r = cloudAccountId ∧ P.filters r ∧ keyOf F P region r = some k

/-- **The cost and the usage of a key**, by the raw expenses. -/
def total (cloudAccountId : Uuid) (rawExpenses : List ρ) (k : TrafficKey) : Traffic :=
  ((rawOf F P region cloudAccountId rawExpenses k).map (trafficOf F P region)).sum

variable {F P region} {cloudAccountId : Uuid} {tasks : List TrafficProcessingTask} {rawExpenses : List ρ}
  {table : TrafficExpenses} {chunks : List (List (Replacement (Uuid × TrafficKey) Traffic))} {k : TrafficKey}

theorem keyedExpense_eq_ok {r : ρ} {x : TrafficKey × Traffic} (h : keyedExpense F P region r = .ok x) :
    keyOf F P region r = some x.1 ∧ trafficOf F P region r = x.2 ∧ x.1.date = startOfDay (F.startDate r) := by
  refine ⟨by rw [keyOf, h]; rfl, by rw [trafficOf, h]; rfl, ?_⟩
  unfold keyedExpense at h
  obtain ⟨extracted, -, h⟩ := bind_eq_ok.mp h
  obtain rfl := pure_eq_ok.mp h
  rfl

theorem date_of_keyOf {r : ρ} (h : keyOf F P region r = some k) : k.date = startOfDay (F.startDate r) := by
  unfold keyOf at h
  cases hx : keyedExpense F P region r with
  | error e =>
    rw [hx] at h
    cases h
  | ok x =>
    rw [hx] at h
    obtain rfl : x.1 = k := Option.some.inj h
    exact (keyedExpense_eq_ok hx).2.2

theorem mem_rawOf {r : ρ} : r ∈ rawOf F P region cloudAccountId rawExpenses k ↔
    r ∈ rawExpenses ∧ F.cloudAccountId r = cloudAccountId ∧ P.filters r = true ∧ keyOf F P region r = some k := by
  simp only [rawOf, List.mem_filter, decide_eq_true_eq]

/-- Of expenses that are read, those of a key. -/
theorem filter_of_mapM {es : List ρ} {expenses : List (TrafficKey × Traffic)}
    (h : es.mapM (keyedExpense F P region) = .ok expenses) (k : TrafficKey) :
    (expenses.filter fun x => x.1 = k).map Prod.snd =
      (es.filter fun r => keyOf F P region r = some k).map (trafficOf F P region) := by
  induction es generalizing expenses with
  | nil =>
    obtain rfl : [] = expenses := pure_eq_ok.mp (List.mapM_nil.symm.trans h)
    rfl
  | cons r es ih =>
    rw [List.mapM_cons] at h
    simp only [bind_eq_ok, pure_eq_ok] at h
    obtain ⟨x, hx, rest, hrest, rfl⟩ := h
    obtain ⟨hkey, htraffic, -⟩ := keyedExpense_eq_ok hx
    rw [List.filter_cons, List.filter_cons, hkey]
    by_cases hk : x.1 = k
    · rw [if_pos (decide_eq_true hk), if_pos (decide_eq_true (congrArg some hk)), List.map_cons, List.map_cons,
        htraffic, ih hrest]
    · rw [if_neg (by simpa using hk), if_neg (by simpa using hk), ih hrest]

/-- The raw expenses are dated by their days. -/
def Dated (F : CommonFields ρ) (rawExpenses : List ρ) : Prop :=
  ∀ r ∈ rawExpenses, startOfDay (F.startDate r) = F.startDate r

/-- A day in the windows has all its expenses there, and another one none. -/
theorem filter_expensesFilter (hdated : Dated F rawExpenses) :
    (rawExpenses.filter (expensesFilter F P cloudAccountId tasks)).filter (fun r => keyOf F P region r = some k) =
      if inWindows tasks k.date then rawOf F P region cloudAccountId rawExpenses k else [] := by
  have hin : ∀ r ∈ rawExpenses, (keyOf F P region r = some k ∧
      expensesFilter F P cloudAccountId tasks r = true) ↔ inWindows tasks k.date = true ∧
        F.cloudAccountId r = cloudAccountId ∧ P.filters r = true ∧ keyOf F P region r = some k := by
    intro r hr
    simp only [expensesFilter, Bool.and_eq_true, decide_eq_true_eq]
    constructor
    · rintro ⟨hkey, ⟨hid, hwin⟩, hfilters⟩
      rw [date_of_keyOf hkey, hdated r hr]
      exact ⟨hwin, hid, hfilters, hkey⟩
    · rintro ⟨hwin, hid, hfilters, hkey⟩
      rw [date_of_keyOf hkey, hdated r hr] at hwin
      exact ⟨hkey, ⟨hid, hwin⟩, hfilters⟩
  rw [List.filter_filter]
  split
  · rename_i hwin
    refine List.filter_congr fun r hr => ?_
    rw [Bool.eq_iff_iff]
    simpa [hwin] using hin r hr
  · rename_i hwin
    refine List.filter_eq_nil_iff.mpr fun r hr h => hwin ?_
    exact ((hin r hr).mp (by simpa using h)).1

/-- **A plan**: what is to be inserted to bring the windows in line with the raw expenses. -/
structure Planned (F : CommonFields ρ) (P : BaseTrafficExpenseProcessor ρ) (region : Text → Text)
    (cloudAccountId : Uuid) (tasks : List TrafficProcessingTask) (rawExpenses : List ρ) (table : TrafficExpenses)
    (plan : List (Replacement (Uuid × TrafficKey) Traffic)) : Prop where
  nodup : (plan.map Replacement.key).Nodup
  found : ∀ c ∈ plan, Found table c.key c.old
  /-- It changes days of the windows only. -/
  inWindows : ∀ c ∈ plan, c.key.1 = cloudAccountId ∧ inWindows tasks c.key.2.date = true
  new : ∀ c ∈ plan, c.new = total F P region cloudAccountId rawExpenses c.key.2
  /-- What has raw expenses there is in line, or will be. -/
  settles : ∀ k, Trapper.inWindows tasks k.date = true → rawOf F P region cloudAccountId rawExpenses k ≠ [] →
    balance table (cloudAccountId, k) = (1, total F P region cloudAccountId rawExpenses k) ∨
      ∃ c ∈ plan, c.key = (cloudAccountId, k)

/-- **What a call plans.** -/
theorem planned_of_process (hsingle : Single table) (hdated : Dated F rawExpenses)
    (h : process F P region cloudAccountId tasks rawExpenses table = .ok chunks) :
    Planned F P region cloudAccountId tasks rawExpenses table chunks.flatten := by
  unfold process at h
  obtain ⟨expenses, hexpenses, h⟩ := bind_eq_ok.mp h
  obtain rfl := pure_eq_ok.mp h
  rw [flatten_toChunks]
  set sums := expensesMap expenses with hsums
  have hsum : ∀ k, sums.get? k = if inWindows tasks k.date = true ∧ rawOf F P region cloudAccountId rawExpenses k ≠ []
      then some (k, total F P region cloudAccountId rawExpenses k) else none := by
    intro k
    have hkeyed := filter_of_mapM hexpenses k
    rw [filter_expensesFilter hdated] at hkeyed
    have hempty : (expenses.filter fun x => x.1 = k) = [] ↔
        ¬ (inWindows tasks k.date = true ∧ rawOf F P region cloudAccountId rawExpenses k ≠ []) := by
      rw [← List.map_eq_nil_iff (f := Prod.snd), hkeyed, List.map_eq_nil_iff]
      split
      · rename_i hwin
        simp [hwin]
      · rename_i hwin
        simp [hwin]
    rw [hsums, get?_expensesMap]
    by_cases hk : inWindows tasks k.date = true ∧ rawOf F P region cloudAccountId rawExpenses k ≠ []
    · rw [if_neg fun hnone => hempty.mp hnone hk, if_pos hk, hkeyed, if_pos hk.1]
      rfl
    · rw [if_pos (hempty.mpr hk), if_neg hk]
  have hrow : ∀ x ∈ sums.rows, inWindows tasks x.1.date = true ∧
      x.2 = total F P region cloudAccountId rawExpenses x.1 := by
    intro x hx
    have hget : sums.get? x.1 = some x := Table.get?_eq_some.mpr ⟨hx, rfl⟩
    rw [hsum] at hget
    split at hget
    · rename_i hk
      exact ⟨hk.1, (congrArg Prod.snd (Option.some.inj hget)).symm⟩
    · cases hget
  have hplan : ∀ c ∈ changedExpenses cloudAccountId sums.rows (getExistingExpenses table cloudAccountId tasks),
      ∃ x ∈ sums.rows, c = ⟨(cloudAccountId, x.1), getExistingExpenses table cloudAccountId tasks x.1, x.2⟩ := by
    intro c hc
    obtain ⟨x, hx, rfl⟩ := List.mem_map.mp hc
    exact ⟨x, List.mem_of_mem_filter hx, rfl⟩
  refine ⟨?_, fun c hc => ?_, fun c hc => ?_, fun c hc => ?_, fun k hwin hraw => ?_⟩
  · have hkeys : (sums.rows.map fun x => (cloudAccountId, x.1)).Nodup := by
      rw [show (fun x : TrafficKey × Traffic => (cloudAccountId, x.1)) = Prod.mk cloudAccountId ∘ Prod.fst from rfl,
        ← List.map_map]
      exact sums.nodup.map (Prod.mk_right_injective cloudAccountId)
    unfold changedExpenses
    rw [List.map_map]
    exact hkeys.sublist (List.filter_sublist.map _)
  · obtain ⟨x, hx, rfl⟩ := hplan c hc
    have hfound := hsingle.found (cloudAccountId, x.1)
    simpa only [getExistingExpenses, if_pos (hrow x hx).1] using hfound
  · obtain ⟨x, hx, rfl⟩ := hplan c hc
    exact ⟨rfl, (hrow x hx).1⟩
  · obtain ⟨x, hx, rfl⟩ := hplan c hc
    exact (hrow x hx).2
  · have hget : sums.get? k = some (k, total F P region cloudAccountId rawExpenses k) := by
      rw [hsum, if_pos ⟨hwin, hraw⟩]
    obtain ⟨hx, -⟩ := Table.get?_eq_some.mp hget
    by_cases hsame : getExistingExpenses table cloudAccountId tasks k =
        some (total F P region cloudAccountId rawExpenses k)
    · refine Or.inl (hsingle.balance_of_find ?_)
      rwa [getExistingExpenses, if_pos hwin] at hsame
    · exact Or.inr ⟨_, List.mem_map.mpr ⟨_, List.mem_filter.mpr ⟨hx, by simpa using hsame⟩, rfl⟩, rfl⟩

/-- **A call refuses nothing it can read.** -/
theorem process_succeeds (F : CommonFields ρ) (region : Text → Text) (cloudAccountId : Uuid)
    (tasks : List TrafficProcessingTask) (table : TrafficExpenses)
    (hread : ∀ r ∈ rawExpenses, P.filters r = true → ∃ x, P.extractLocationsAndUsage r = .ok x) :
    ∃ chunks, process F P region cloudAccountId tasks rawExpenses table = .ok chunks := by
  have hkeyed : ∃ expenses, (rawExpenses.filter (expensesFilter F P cloudAccountId tasks)).mapM
      (keyedExpense F P region) = .ok expenses := by
    refine mapM_ok.mpr fun r hr => ?_
    obtain ⟨hr, hasked⟩ := List.mem_filter.mp hr
    obtain ⟨x, hx⟩ := hread r hr (Bool.and_eq_true_iff.mp hasked).2
    exact ⟨_, bind_eq_ok.mpr ⟨x, hx, rfl⟩⟩
  obtain ⟨expenses, hexpenses⟩ := hkeyed
  exact ⟨_, bind_eq_ok.mpr ⟨expenses, hexpenses, rfl⟩⟩

end Process

end Trapper
