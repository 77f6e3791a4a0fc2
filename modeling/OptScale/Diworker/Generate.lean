import OptScale.Diworker.NetExpenses
import OptScale.Foundations.Chunks

/-!
# Diworker/Generate — `generate_clean_records`

A run goes over the resources that have raw expenses in its window, 200 at a time, and saves their
clean expenses.  Whatever it computes is what the ledger has afterwards, and what it does not
compute stays (`generateChunks_balance`).  So a run after a change of the raw expenses brings the
ledger in line with them where there still are some; what has no raw expense any more is never
visited (`BaseReportImporter.followsRaw_iff`).
-/

open Fallible Ledger Chunks

/-- The resources of the rest service: one for every id in the cloud, created when it is missing. -/
structure ResourceService where
  resourceId : String → Uuid
  injective : Function.Injective resourceId

/-- `create_resources_if_not_exist` -/
def ResourceService.createResourcesIfNotExist (S : ResourceService) (ids : List String) :
    List CloudResource := ids.map fun id => ⟨S.resourceId id, id⟩

namespace BaseReportImporter

variable {ρ : Type}

/-- `CHUNK_SIZE` -/
def chunkSize : ℕ := 200

/-- `set_raw_chunk`, of the resources that have raw expenses. -/
def setRawChunk (select : String → List ρ) (ids : List String) : Chunk ρ where
  rows := (ids.dedup.filter fun id => (select id).length ≠ 0).map fun id => (id, select id)
  nodup := by
    rw [List.map_map, Function.comp_def, List.map_id']
    exact ids.nodup_dedup.filter _

/-- `_generate_clean_records`, a chunk of resources at a time; `select` finds the raw expenses of a
resource. -/
def generateChunks (importer : BaseReportImporter ρ) (S : ResourceService) (cloudAccountId : Uuid)
    (select : String → List ρ) :
    List (List String) → Multiset Expense → Except Failure (Multiset Expense)
  | [], table => .ok table
  | ids :: chunks, table => do
    let saved ← saveCleanExpenses importer cloudAccountId (setRawChunk select ids)
      (.ok (S.createResourcesIfNotExist ids)) table
    generateChunks importer S cloudAccountId select chunks (table + saved.inserted)

/-! ## What a run computes -/

section Run

variable {importer : BaseReportImporter ρ} {S : ResourceService} {cloudAccountId : Uuid}
  {select : String → List ρ} {ids : List String} {chunks : List (List String)}
  {table table' : Multiset Expense}

theorem mem_setRawChunk {p : String × List ρ} :
    p ∈ (setRawChunk select ids).rows ↔ p.1 ∈ ids ∧ select p.1 ≠ [] ∧ p.2 = select p.1 := by
  obtain ⟨id, es⟩ := p
  simp only [setRawChunk, List.mem_map, List.mem_filter, List.mem_dedup, decide_eq_true_eq,
    Prod.mk.injEq, ne_eq, List.length_eq_zero_iff]
  constructor
  · rintro ⟨id', ⟨hid, hne⟩, rfl, rfl⟩
    exact ⟨hid, hne, rfl⟩
  · rintro ⟨hid, hne, rfl⟩
    exact ⟨id, ⟨hid, hne⟩, rfl, rfl⟩

/-- The clean expense is one that the run computes for the resource. -/
def Computes (importer : BaseReportImporter ρ) (S : ResourceService) (select : String → List ρ)
    (id : String) (e : CleanExpense) : Prop :=
  select id ≠ [] ∧ e ∈ (importer.cleanExpensesForResource (S.resourceId id) (select id)).rows

theorem Computes.resourceId {id : String} {e : CleanExpense} (h : Computes importer S select id e) :
    e.resourceId = S.resourceId id := importer.resourceId_eq _ _ e h.2

/-- Two clean expenses of one key are one. -/
theorem Computes.unique {id id' : String} {e e' : CleanExpense}
    (h : Computes importer S select id e) (h' : Computes importer S select id' e')
    (hkey : e.key = e'.key) : e = e' := by
  have hid : S.resourceId id = S.resourceId id' :=
    h.resourceId.symm.trans ((congrArg ExpenseKey.resourceId hkey).trans h'.resourceId)
  obtain rfl := S.injective hid
  exact Table.eq_of_key _ h.2 h'.2 (congrArg ExpenseKey.date hkey)

variable (hselect : ∀ id, ∀ e ∈ select id, importer.cloudAccountId e = cloudAccountId)

include hselect

/-- **One chunk**: what it computes the ledger has afterwards, and everything else stays. -/
theorem saveChunk_balance {saved : Saved} (hbalanced : Balanced table)
    (h : saveCleanExpenses importer cloudAccountId (setRawChunk select ids)
      (.ok (S.createResourcesIfNotExist ids)) table = .ok saved) :
    (∀ id ∈ ids, ∀ e, Computes importer S select id e →
      balance (table + (saved.inserted : Multiset Expense)) e.key = (1, e.cost)) ∧
    ∀ k, (∀ id ∈ ids, ∀ e, Computes importer S select id e → e.key ≠ k) →
      balance (table + (saved.inserted : Multiset Expense)) k = balance table k := by
  let call : SaveCall ρ :=
    { importer := importer
      cloudAccountId := cloudAccountId
      chunk := setRawChunk select ids
      resources := .ok (S.createResourcesIfNotExist ids)
      chunk_account := fun p hp e he => hselect p.1 e ((mem_setRawChunk.mp hp).2.2 ▸ he)
      resources_ids := by
        rintro rs ⟨⟩ r hr r' hr' hid
        obtain ⟨id, -, rfl⟩ := List.mem_map.mp hr
        obtain ⟨id', -, rfl⟩ := List.mem_map.mp hr'
        exact S.injective hid }
  have h : call.save table = .ok saved := h
  obtain ⟨hsettled, hkept, -⟩ := save_balance hbalanced h
  obtain ⟨resources, hresources, parts, hparts, hsaved⟩ := save_eq_ok.mp h
  obtain rfl := Except.ok.inj hresources
  have hcomputed : ∀ e, e ∈ saved.cleanExpenses ↔ ∃ id ∈ ids, Computes importer S select id e := by
    intro e
    rw [← hsaved]
    have hpart : ∀ part, ∀ id : String, resourceExpenses importer (S.createResourcesIfNotExist ids)
        id (select id) = .ok part →
        part.cleanExpenses = importer.cleanExpensesForResource (S.resourceId id) (select id) := by
      intro part id hok
      obtain ⟨⟨r, hr, hcloud, hid⟩, hclean⟩ := resourceExpenses_eq_ok hok
      obtain ⟨id', -, rfl⟩ := List.mem_map.mp hr
      obtain rfl : id' = id := hcloud
      rw [hclean, ← hid]
    constructor
    · intro he
      obtain ⟨part, hmem, he⟩ := List.mem_flatMap.mp he
      obtain ⟨p, hp, hok⟩ := (mem_of_mapM_eq_ok hparts part).mp hmem
      obtain ⟨hid, hne, hes⟩ := mem_setRawChunk.mp hp
      rw [hes] at hok
      exact ⟨p.1, hid, hne, hpart part p.1 hok ▸ he⟩
    · rintro ⟨id, hid, hne, he⟩
      have hp : (id, select id) ∈ (setRawChunk select ids).rows :=
        mem_setRawChunk.mpr ⟨hid, hne, rfl⟩
      obtain ⟨part, hok⟩ := mapM_ok.mp ⟨parts, hparts⟩ _ hp
      refine List.mem_flatMap.mpr ⟨part, (mem_of_mapM_eq_ok hparts part).mpr ⟨_, hp, hok⟩, ?_⟩
      rwa [hpart part id hok]
  exact ⟨fun id hid e he => hsettled e ((hcomputed e).mpr ⟨id, hid, he⟩),
    fun k hk => hkept k fun e he => by
      obtain ⟨id, hid, he⟩ := (hcomputed e).mp he
      exact hk id hid e he⟩

/-- **A run**: what it computes the ledger has afterwards, and everything else stays. -/
theorem generateChunks_balance (hbalanced : Balanced table)
    (h : generateChunks importer S cloudAccountId select chunks table = .ok table') :
    (∀ id ∈ chunks.flatten, ∀ e, Computes importer S select id e →
      balance table' e.key = (1, e.cost)) ∧
    (∀ k, (∀ id ∈ chunks.flatten, ∀ e, Computes importer S select id e → e.key ≠ k) →
      balance table' k = balance table k) ∧ Balanced table' := by
  induction chunks generalizing table with
  | nil =>
    obtain rfl := Except.ok.inj h
    exact ⟨fun _ h => absurd h List.not_mem_nil, fun _ _ => rfl, hbalanced⟩
  | cons ids chunks ih =>
    obtain ⟨saved, hsave, hrest⟩ := bind_eq_ok.mp h
    obtain ⟨hchunk, hother⟩ := saveChunk_balance hselect hbalanced hsave
    have hbalanced' : Balanced (table + (saved.inserted : Multiset Expense)) := by
      intro k
      by_cases hk : ∃ id ∈ ids, ∃ e, Computes importer S select id e ∧ e.key = k
      · obtain ⟨id, hid, e, he, rfl⟩ := hk
        exact Or.inr (congrArg Prod.fst (hchunk id hid e he))
      · rw [hother k fun id hid e he hkey => hk ⟨id, hid, e, he, hkey⟩]
        exact hbalanced k
    obtain ⟨hcomputed, hkept, hlast⟩ := ih hbalanced' hrest
    refine ⟨fun id hid e he => ?_, fun k hk => ?_, hlast⟩
    · by_cases hlater : ∃ id' ∈ chunks.flatten, ∃ e', Computes importer S select id' e' ∧
          e'.key = e.key
      · obtain ⟨id', hid', e', he', hkey⟩ := hlater
        obtain rfl := he'.unique he hkey
        exact hcomputed id' hid' e' he'
      · rw [hkept e.key fun id' hid' e' he' hkey => hlater ⟨id', hid', e', he', hkey⟩]
        rw [List.flatten_cons, List.mem_append] at hid
        rcases hid with hid | hid
        · exact hchunk id hid e he
        · exact absurd ⟨id, hid, e, he, rfl⟩ hlater
    · rw [List.flatten_cons] at hk
      rw [hkept k fun id hid => hk id (List.mem_append_right _ hid),
        hother k fun id hid => hk id (List.mem_append_left _ hid)]

end Run

/-! ## The base class -/

section Base

/-- A raw expense under its resource. -/
abbrev RawRow := String × RawExpense

/-- The raw expenses of the account in the window, of all resources. -/
def inWindow (cloudAccountId : Uuid) (periodStart : ℤ) (raw : List RawRow) : List RawRow :=
  raw.filter fun p => p.2.cloudAccountId = cloudAccountId ∧ periodStart ≤ p.2.startDate

/-- `get_resource_ids` -/
def getResourceIds (cloudAccountId : Uuid) (periodStart : ℤ) (raw : List RawRow) : List String :=
  ((inWindow cloudAccountId periodStart raw).map Prod.fst).dedup

/-- `get_raw_expenses_by_filters`, of one resource. -/
def getRawExpenses (cloudAccountId : Uuid) (periodStart : ℤ) (raw : List RawRow) (id : String) :
    List RawExpense :=
  ((inWindow cloudAccountId periodStart raw).filter fun p => p.1 = id).map Prod.snd

/-- `generate_clean_records` -/
def generateCleanRecords (S : ResourceService) (cloudAccountId : Uuid) (periodStart : ℤ)
    (raw : List RawRow) (table : Multiset Expense) : Except Failure (Multiset Expense) :=
  generateChunks base S cloudAccountId (getRawExpenses cloudAccountId periodStart raw)
    ((getResourceIds cloudAccountId periodStart raw).toChunks chunkSize) table

variable {S : ResourceService} {cloudAccountId : Uuid} {w w₁ : ℤ} {raw raw₁ raw₂ : List RawRow}
  {table table' : Multiset Expense}

theorem mem_getRawExpenses {id : String} {e : RawExpense} :
    e ∈ getRawExpenses cloudAccountId w raw id ↔
      (id, e) ∈ raw ∧ e.cloudAccountId = cloudAccountId ∧ w ≤ e.startDate := by
  simp only [getRawExpenses, inWindow, List.mem_map, List.mem_filter, decide_eq_true_eq]
  constructor
  · rintro ⟨⟨id', e'⟩, ⟨⟨hmem, hcond⟩, rfl⟩, rfl⟩
    exact ⟨hmem, hcond⟩
  · rintro ⟨hmem, hcond⟩
    exact ⟨(id, e), ⟨⟨hmem, hcond⟩, rfl⟩, rfl⟩

/-- The raw expenses of a resource on a day. -/
def onDay (cloudAccountId : Uuid) (raw : List RawRow) (id : String) (day : ℤ) : List RawExpense :=
  (raw.filter fun p =>
    p.1 = id ∧ p.2.cloudAccountId = cloudAccountId ∧ p.2.usageDate = day).map Prod.snd

theorem mem_onDay {id : String} {day : ℤ} {e : RawExpense} :
    e ∈ onDay cloudAccountId raw id day ↔
      (id, e) ∈ raw ∧ e.cloudAccountId = cloudAccountId ∧ e.usageDate = day := by
  simp only [onDay, List.mem_map, List.mem_filter, decide_eq_true_eq]
  constructor
  · rintro ⟨⟨id', e'⟩, ⟨hmem, rfl, hcond⟩, rfl⟩
    exact ⟨hmem, hcond⟩
  · rintro ⟨hmem, hcond⟩
    exact ⟨(id, e), ⟨hmem, rfl, hcond⟩, rfl⟩

/-- A day that begins in the window has all its expenses in the window. -/
theorem filter_getRawExpenses {id : String} {day : ℤ} (hday : w ≤ day) :
    (getRawExpenses cloudAccountId w raw id).filter (fun e => e.usageDate = day) =
      onDay cloudAccountId raw id day := by
  simp only [getRawExpenses, inWindow, onDay, List.filter_map, List.filter_filter]
  congr 1
  refine List.filter_congr fun p _ => ?_
  have hstart : p.2.usageDate = day → w ≤ p.2.startDate := by
    unfold RawExpense.usageDate
    omega
  simp only [Function.comp_apply]
  grind

/-- A clean expense has a raw one on its day. -/
theorem exists_rawExpense {resourceId : Uuid} {expenses : List RawExpense} {c : CleanExpense}
    (hc : c ∈ (cleanExpensesByDay resourceId expenses).rows) :
    ∃ e ∈ expenses, e.usageDate = c.date := by
  induction expenses using List.reverseRecOn generalizing c with
  | nil => exact absurd hc List.not_mem_nil
  | append_singleton expenses last ih =>
    rw [cleanExpensesByDay_concat, Table.mem_upsert] at hc
    obtain ⟨hc, -⟩ | ⟨c, hc, -, rfl⟩ | ⟨-, rfl⟩ := hc
    · obtain ⟨e, he, hday⟩ := ih hc
      exact ⟨e, List.mem_append_left _ he, hday⟩
    · obtain ⟨e, he, hday⟩ := ih hc
      exact ⟨e, List.mem_append_left _ he, hday⟩
    · exact ⟨last, List.mem_append_right _ (List.mem_singleton_self _), rfl⟩

/-- **What a run computes for a day in the window** is the total of the day's expenses, where there
are some. -/
theorem computes_onDay {id : String} {day : ℤ} (hday : w ≤ day)
    (hsome : onDay cloudAccountId raw id day ≠ []) :
    Computes base S (getRawExpenses cloudAccountId w raw) id
      ⟨day, ((onDay cloudAccountId raw id day).map RawExpense.cost).sum, S.resourceId id,
        cloudAccountId⟩ := by
  obtain ⟨e, he⟩ := List.exists_mem_of_ne_nil _ hsome
  have hread : e ∈ getRawExpenses cloudAccountId w raw id := by
    rw [← filter_getRawExpenses hday] at he
    exact List.mem_of_mem_filter he
  obtain ⟨c, hc, hdate⟩ := exists_cleanExpense (S.resourceId id) hread
  obtain ⟨hid, ⟨e', he', haccount⟩, hcost⟩ := cleanExpense_spec hc
  rw [(mem_onDay.mp he).2.2] at hdate
  rw [hdate, filter_getRawExpenses hday] at hcost
  have haccount := haccount.symm.trans (mem_getRawExpenses.mp he').2.1
  have hsame : ⟨day, ((onDay cloudAccountId raw id day).map RawExpense.cost).sum, S.resourceId id,
      cloudAccountId⟩ = c := by
    obtain ⟨date, cost, resourceId, account⟩ := c
    simp only at hdate hid haccount hcost
    rw [hdate, hid, haccount, hcost]
  exact ⟨List.ne_nil_of_mem hread, hsame ▸ hc⟩

/-- Where a day has no expenses, a run computes nothing for it. -/
theorem onDay_of_computes {id : String} {e : CleanExpense}
    (h : Computes base S (getRawExpenses cloudAccountId w raw) id e) :
    onDay cloudAccountId raw id e.date ≠ [] := by
  obtain ⟨x, hx, hdate⟩ := exists_rawExpense h.2
  obtain ⟨hmem, haccount, -⟩ := mem_getRawExpenses.mp hx
  exact List.ne_nil_of_mem (mem_onDay.mpr ⟨hmem, haccount, hdate⟩)

/-- **One run**: a day in the window that has expenses has their total afterwards, and one that has
none is left as it was. -/
theorem generateCleanRecords_balance (hbalanced : Balanced table)
    (h : generateCleanRecords S cloudAccountId w raw table = .ok table') :
    Balanced table' ∧ ∀ id day, w ≤ day →
      balance table' ⟨cloudAccountId, S.resourceId id, day⟩ =
        if onDay cloudAccountId raw id day = [] then
          balance table ⟨cloudAccountId, S.resourceId id, day⟩
        else (1, ((onDay cloudAccountId raw id day).map RawExpense.cost).sum) := by
  obtain ⟨hcomputed, hkept, hbalanced'⟩ := generateChunks_balance
    (fun id e he => (mem_getRawExpenses.mp he).2.1) hbalanced h
  refine ⟨hbalanced', fun id day hday => ?_⟩
  rw [flatten_toChunks] at hcomputed hkept
  split
  · rename_i hnone
    refine hkept _ fun id' _ e he hkey => ?_
    have hid : e.resourceId = S.resourceId id := congrArg ExpenseKey.resourceId hkey
    have hdate : e.date = day := congrArg ExpenseKey.date hkey
    obtain rfl := S.injective (he.resourceId.symm.trans hid)
    exact onDay_of_computes he (hdate ▸ hnone)
  · rename_i hsome
    have hcomputes := computes_onDay (S := S) hday hsome
    refine hcomputed id ?_ _ hcomputes
    obtain ⟨e, he⟩ := List.exists_mem_of_ne_nil _ hcomputes.1
    obtain ⟨hmem, haccount, hstart⟩ := mem_getRawExpenses.mp he
    exact List.mem_dedup.mpr (List.mem_map.mpr ⟨(id, e), List.mem_filter.mpr
      ⟨hmem, decide_eq_true ⟨haccount, hstart⟩⟩, rfl⟩)

/-- **A run of the base class does not refuse.** -/
theorem generateCleanRecords_succeeds (S : ResourceService) (cloudAccountId : Uuid) (w : ℤ)
    (raw : List RawRow) (table : Multiset Expense) :
    ∃ table', generateCleanRecords S cloudAccountId w raw table = .ok table' := by
  unfold generateCleanRecords
  generalize (getResourceIds cloudAccountId w raw).toChunks chunkSize = chunks
  induction chunks generalizing table with
  | nil => exact ⟨table, rfl⟩
  | cons ids chunks ih =>
    have hsave : ∃ saved, saveCleanExpenses base cloudAccountId
        (setRawChunk (getRawExpenses cloudAccountId w raw) ids)
        (.ok (S.createResourcesIfNotExist ids)) table = .ok saved := by
      have hparts : ∃ parts, (setRawChunk (getRawExpenses cloudAccountId w raw) ids).rows.mapM
          (fun p => resourceExpenses base (S.createResourcesIfNotExist ids) p.1 p.2) = .ok parts := by
        refine mapM_ok.mpr fun p hp => ?_
        obtain ⟨hid, hne, hes⟩ := mem_setRawChunk.mp hp
        have hfound : ((S.createResourcesIfNotExist ids).reverse.find? fun r =>
            r.cloudResourceId = p.1).isSome := by
          refine List.find?_isSome.mpr ⟨⟨S.resourceId p.1, p.1⟩, ?_, decide_eq_true rfl⟩
          exact List.mem_reverse.mpr (List.mem_map.mpr ⟨p.1, hid, rfl⟩)
        obtain ⟨r, hr⟩ := Option.isSome_iff_exists.mp hfound
        obtain ⟨e, he⟩ := List.exists_mem_of_ne_nil _ (hes ▸ hne)
        obtain ⟨c, hc, -⟩ := exists_cleanExpense r.id he
        have hlast : latest? CleanExpense.date (cleanExpensesByDay r.id p.2).rows ≠ none :=
          fun hnone => List.ne_nil_of_mem hc (latest?_eq_none.mp hnone)
        obtain ⟨last, hlast⟩ := Option.ne_none_iff_exists'.mp hlast
        exact ⟨_, bind_eq_ok.mpr ⟨r, orFail_eq_ok.mpr hr, bind_eq_ok.mpr
          ⟨last, orFail_eq_ok.mpr hlast, rfl⟩⟩⟩
      obtain ⟨parts, hparts⟩ := hparts
      exact ⟨_, bind_eq_ok.mpr ⟨_, rfl, bind_eq_ok.mpr ⟨parts, hparts, rfl⟩⟩⟩
    obtain ⟨saved, hsave⟩ := hsave
    obtain ⟨table', hrest⟩ := ih (table + saved.inserted)
    exact ⟨table', bind_eq_ok.mpr ⟨saved, hsave, hrest⟩⟩

/-! ## Two runs -/

/-- **The ledger follows the raw expenses** of a resource on a day: it has their total, and no net
sign where there are none. -/
def FollowsRaw (S : ResourceService) (cloudAccountId : Uuid) (raw : List RawRow)
    (table : Multiset Expense) (id : String) (day : ℤ) : Prop :=
  (balance table ⟨cloudAccountId, S.resourceId id, day⟩).2 =
      ((onDay cloudAccountId raw id day).map RawExpense.cost).sum ∧
    (onDay cloudAccountId raw id day = [] →
      (balance table ⟨cloudAccountId, S.resourceId id, day⟩).1 = 0)

/-- What two runs leave follows the raw expenses of the second where it visits what the first did. -/
theorem followsRaw_of_runs {table₁ table₂ : Multiset Expense} (hw : w₁ ≤ w)
    (h₁ : generateCleanRecords S cloudAccountId w₁ raw₁ 0 = .ok table₁)
    (h₂ : generateCleanRecords S cloudAccountId w raw₂ table₁ = .ok table₂) :
    (∀ id day, w ≤ day → FollowsRaw S cloudAccountId raw₂ table₂ id day) ↔
      ∀ id day, w ≤ day → onDay cloudAccountId raw₁ id day ≠ [] →
        onDay cloudAccountId raw₂ id day ≠ [] := by
  obtain ⟨hbalanced, hfirst⟩ := generateCleanRecords_balance (fun _ => Or.inl rfl) h₁
  obtain ⟨-, hsecond⟩ := generateCleanRecords_balance hbalanced h₂
  refine forall₂_congr fun id day => forall_congr' fun hday => ?_
  have hbalance := hsecond id day hday
  rw [hfirst id day (hw.trans hday), balance_zero] at hbalance
  unfold FollowsRaw
  rw [hbalance]
  by_cases hold : onDay cloudAccountId raw₁ id day = []
  · by_cases hnew : onDay cloudAccountId raw₂ id day = []
    · simp [hold, hnew]
    · simp [hold, hnew]
  · by_cases hnew : onDay cloudAccountId raw₂ id day = []
    · simp [hold, hnew]
    · simp [hold, hnew]

/-- **Two runs**, over the raw expenses before and after they are corrected, leave a ledger that
follows the corrected ones on every day in the window exactly when every day that had expenses
before still has some. -/
theorem followsRaw_iff (S : ResourceService) (cloudAccountId : Uuid) {w₁ w : ℤ} (hw : w₁ ≤ w)
    (raw₁ raw₂ : List RawRow) :
    ∃ table₁ table₂, generateCleanRecords S cloudAccountId w₁ raw₁ 0 = .ok table₁ ∧
      generateCleanRecords S cloudAccountId w raw₂ table₁ = .ok table₂ ∧
      ((∀ id day, w ≤ day → FollowsRaw S cloudAccountId raw₂ table₂ id day) ↔
        ∀ id day, w ≤ day → onDay cloudAccountId raw₁ id day ≠ [] →
          onDay cloudAccountId raw₂ id day ≠ []) := by
  obtain ⟨table₁, h₁⟩ := generateCleanRecords_succeeds S cloudAccountId w₁ raw₁ 0
  obtain ⟨table₂, h₂⟩ := generateCleanRecords_succeeds S cloudAccountId w raw₂ table₁
  exact ⟨table₁, table₂, h₁, h₂, followsRaw_of_runs hw h₁ h₂⟩

/-- A resource service that numbers the ids. -/
def numbered : ResourceService where
  resourceId id := Encodable.encode (id.toList.map Char.toNat)
  injective := Encodable.encode_injective.comp
    ((List.map_injective_iff.mpr fun _ _ => Char.toNat_inj.mp).comp fun _ _ => String.toList_inj.mp)

/-- **An expense that is taken back in the raw data stays in the ledger.** -/
theorem vanished_expense_stays :
    ¬ ∀ (S : ResourceService) (cloudAccountId : Uuid) (w : ℤ) (raw₁ raw₂ : List RawRow)
      (table₁ table₂ : Multiset Expense),
      (raw₁.filter fun p => p.2.startDate < w) = raw₂.filter (fun p => p.2.startDate < w) →
      generateCleanRecords S cloudAccountId w raw₁ 0 = .ok table₁ →
      generateCleanRecords S cloudAccountId w raw₂ table₁ = .ok table₂ →
      ∀ id day, w ≤ day → FollowsRaw S cloudAccountId raw₂ table₂ id day := by
  intro hclaim
  obtain ⟨table₁, h₁⟩ := generateCleanRecords_succeeds numbered 7 0 [("i-1", ⟨86400, 5, 7⟩)] 0
  obtain ⟨table₂, h₂⟩ := generateCleanRecords_succeeds numbered 7 0 [] table₁
  have hfollows := hclaim numbered 7 0 [("i-1", ⟨86400, 5, 7⟩)] [] table₁ table₂ (by decide) h₁ h₂
  exact (followsRaw_of_runs (le_refl 0) h₁ h₂).mp hfollows "i-1" 86400 (by decide) (by decide) rfl

/-- One day is corrected, and another one added. -/
theorem followsRaw_corrected : ∃ table₁ table₂,
    generateCleanRecords numbered 7 0 [("i-1", ⟨86400, 5, 7⟩)] 0 = .ok table₁ ∧
      generateCleanRecords numbered 7 3600 [("i-1", ⟨86400, 4, 7⟩), ("i-1", ⟨172800, 1, 7⟩)] table₁ =
        .ok table₂ ∧
      ((∀ id day, 3600 ≤ day → FollowsRaw numbered 7
          [("i-1", ⟨86400, 4, 7⟩), ("i-1", ⟨172800, 1, 7⟩)] table₂ id day) ↔
        ∀ id day, 3600 ≤ day → onDay 7 [("i-1", ⟨86400, 5, 7⟩)] id day ≠ [] →
          onDay 7 [("i-1", ⟨86400, 4, 7⟩), ("i-1", ⟨172800, 1, 7⟩)] id day ≠ []) :=
  followsRaw_iff numbered 7 (by decide) _ _

end Base

end BaseReportImporter
