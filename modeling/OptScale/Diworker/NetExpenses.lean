import OptScale.Diworker.Importer

/-!
# Diworker/NetExpenses — what `save_clean_expenses` makes of the ledger

In every ledger the importers reach, a key has no balance or net sign `1` (`balanced_of_reachable`).
From such a ledger a call brings each key of its chunk to net sign `1` and the cost it computed, and
leaves the other keys alone; the same call over again finds nothing to insert (`save_settles`).
-/

open Fallible Ledger

namespace BaseReportImporter

variable {ρ : Type}

/-! ## Calls and ledgers -/

/-- A call of `save_clean_expenses`: its callers collect the raw expenses of the account alone, and
the rest service answers with one resource an id. -/
structure SaveCall (ρ : Type) where
  importer : BaseReportImporter ρ
  cloudAccountId : Uuid
  chunk : Chunk ρ
  resources : Except Failure (List CloudResource)
  chunk_account : ∀ p ∈ chunk.rows, ∀ e ∈ p.2, importer.cloudAccountId e = cloudAccountId
  resources_ids : ∀ rs, resources = .ok rs → ∀ r ∈ rs, ∀ r' ∈ rs, r.id = r'.id →
    r.cloudResourceId = r'.cloudResourceId

/-- The call on a ledger. -/
def SaveCall.save (call : SaveCall ρ) (table : Multiset Expense) : Except Failure Saved :=
  saveCleanExpenses call.importer call.cloudAccountId call.chunk call.resources table

/-- The ledgers the importers and the server reach from the empty one. -/
inductive Reachable : Multiset Expense → Prop
  | empty : Reachable 0
  | save {ρ : Type} {table : Multiset Expense} {saved : Saved} (call : SaveCall ρ) :
    Reachable table → call.save table = .ok saved → Reachable (table + saved.inserted)
  | fixSnapshotChains {table : Multiset Expense} (fromDt toDt : ℤ) (resourceIds : List Uuid)
    (cloudAccountId : Uuid) : Reachable table →
    Reachable (table + fixSnapshotChainExpenses table fromDt toDt resourceIds cloudAccountId)
  | collapse {table table' : Multiset Expense} :
    Reachable table → Collapse table table' → Reachable table'

/-- A key has no balance, or net sign `1`. -/
def Balanced (table : Multiset Expense) : Prop :=
  ∀ k, balance table k = 0 ∨ (balance table k).1 = 1

/-! ## One clean expense -/

section CleanExpense

variable {table existing : Multiset Expense} {e : CleanExpense}

/-- The rows of a clean expense, by the balance of its key. -/
theorem clickhouseExpensesFor_eq
    (hexisting : (existing.filter fun r => r.key.resourceId = e.resourceId ∧ r.key.date = e.date) =
      table.filter fun r => r.key = e.key) :
    clickhouseExpensesFor existing e =
      if (balance table e.key).1 = 0 then [⟨e.key, e.cost, 1⟩]
      else if (balance table e.key).2 = e.cost then []
      else [⟨e.key, (balance table e.key).2, -1⟩, ⟨e.key, e.cost, 1⟩] := by
  simp only [clickhouseExpensesFor, hexisting, ← balance_fst, ← balance_snd]
  by_cases hnone : (table.filter fun r => r.key = e.key) = 0
  · have hzero : (balance table e.key).1 = 0 := by
      rw [balance_fst, hnone]
      rfl
    rw [if_pos hnone, if_pos hzero]
    rfl
  · rw [if_neg hnone]
    split_ifs <;> first | rfl | contradiction

@[simp] theorem genClickhouseExpense_key (newCost : Option ℚ) :
    (genClickhouseExpense e newCost).key = e.key := by
  cases newCost <;> rfl

theorem key_of_mem_clickhouseExpensesFor {r : Expense} (hr : r ∈ clickhouseExpensesFor existing e) :
    r.key = e.key := by
  simp only [clickhouseExpensesFor] at hr
  split_ifs at hr
  · rw [List.mem_singleton.mp hr, genClickhouseExpense_key]
  · obtain rfl | hr := List.mem_cons.mp hr
    · exact genClickhouseExpense_key _
    · rw [List.mem_singleton.mp hr, genClickhouseExpense_key]
  · exact absurd hr List.not_mem_nil
  · rw [List.mem_singleton.mp hr, genClickhouseExpense_key]

/-- **The rows of a clean expense settle its key.** -/
theorem balance_clickhouseExpensesFor
    (hexisting : (existing.filter fun r => r.key.resourceId = e.resourceId ∧ r.key.date = e.date) =
      table.filter fun r => r.key = e.key)
    (hbalanced : balance table e.key = 0 ∨ (balance table e.key).1 = 1) :
    balance (table + (clickhouseExpensesFor existing e : Multiset Expense)) e.key = (1, e.cost) := by
  rw [clickhouseExpensesFor_eq hexisting]
  obtain hzero | hone := hbalanced
  · have hsign : (balance table e.key).1 = 0 := congrArg Prod.fst hzero
    rw [if_pos hsign, add_comm, ← Multiset.cons_coe, Multiset.coe_nil, Multiset.cons_add, zero_add]
    exact balance_enter hzero e.cost
  · have hnet : balance table e.key = (1, (balance table e.key).2) := Prod.ext hone rfl
    rw [if_neg (hone ▸ one_ne_zero)]
    split_ifs with hcost
    · rw [← hcost]
      simpa using hnet
    · rw [add_comm, ← Multiset.cons_coe, ← Multiset.cons_coe, Multiset.coe_nil, Multiset.cons_add,
        Multiset.cons_add, zero_add]
      exact balance_replace hnet e.cost

/-- A settled key needs no rows. -/
theorem clickhouseExpensesFor_of_settled
    (hexisting : (existing.filter fun r => r.key.resourceId = e.resourceId ∧ r.key.date = e.date) =
      table.filter fun r => r.key = e.key)
    (hsettled : balance table e.key = (1, e.cost)) : clickhouseExpensesFor existing e = [] := by
  rw [clickhouseExpensesFor_eq hexisting, hsettled, if_neg one_ne_zero, if_pos rfl]

end CleanExpense

/-! ## One call -/

section Call

variable {call : SaveCall ρ} {table : Multiset Expense} {saved : Saved}

/-- What a turn of the loop says of the resource. -/
theorem resourceExpenses_eq_ok {importer : BaseReportImporter ρ} {resources : List CloudResource}
    {rId : String} {expenses : List ρ} {part : ResourceExpenses}
    (h : resourceExpenses importer resources rId expenses = .ok part) :
    (∃ r ∈ resources, r.cloudResourceId = rId ∧ r.id = part.resourceId) ∧
      part.cleanExpenses = importer.cleanExpensesForResource part.resourceId expenses := by
  obtain ⟨r, hr, h⟩ := bind_eq_ok.mp h
  obtain ⟨last, -, h⟩ := bind_eq_ok.mp h
  obtain rfl := pure_eq_ok.mp h
  have hfound := orFail_eq_ok.mp hr
  have hmem := List.mem_reverse.mp (List.mem_of_find?_eq_some hfound)
  exact ⟨⟨r, hmem, by simpa using List.find?_some hfound, rfl⟩, rfl⟩

/-- A call goes over the chunk without looking at the ledger, and then inserts what the ledger
lacks. -/
theorem save_eq_ok : call.save table = .ok saved ↔ ∃ resources, call.resources = .ok resources ∧
    ∃ parts, call.chunk.rows.mapM
      (fun p => resourceExpenses call.importer resources p.1 p.2) = .ok parts ∧
    ⟨parts.flatMap fun part => part.cleanExpenses.rows,
      parts.map fun part => (part.resourceId, part.lastExpense),
      clickhouseExpenses call.cloudAccountId (parts.map ResourceExpenses.resourceId)
        (parts.flatMap fun part => part.cleanExpenses.rows) table⟩ = saved := by
  unfold SaveCall.save saveCleanExpenses
  simp only [bind_eq_ok, pure_eq_ok, List.map_map]
  rfl

section Parts

variable {resources : List CloudResource} {parts : List ResourceExpenses}

/-- What the clean expenses of a call say of themselves. -/
theorem mem_cleanExpenses
    (hparts : call.chunk.rows.mapM
      (fun p => resourceExpenses call.importer resources p.1 p.2) = .ok parts) :
    ∀ part ∈ parts, ∀ e ∈ part.cleanExpenses.rows,
      e.resourceId = part.resourceId ∧ e.cloudAccountId = call.cloudAccountId := by
  intro part hpart e he
  obtain ⟨p, hp, hok⟩ := (mem_of_mapM_eq_ok hparts part).mp hpart
  obtain ⟨-, hclean⟩ := resourceExpenses_eq_ok hok
  rw [hclean] at he
  obtain ⟨raw, hraw, haccount⟩ := call.importer.cloudAccountId_mem _ _ e he
  exact ⟨call.importer.resourceId_eq _ _ e he, haccount ▸ call.chunk_account p hp raw hraw⟩

/-- **A call computes one clean expense a key.** -/
theorem cleanExpenses_nodup (hresources : call.resources = .ok resources)
    (hparts : call.chunk.rows.mapM
      (fun p => resourceExpenses call.importer resources p.1 p.2) = .ok parts) :
    ((parts.flatMap fun part => part.cleanExpenses.rows).map CleanExpense.key).Nodup := by
  have hids : parts.Pairwise fun part part' => part.resourceId ≠ part'.resourceId := by
    refine pairwise_of_mapM_eq_ok (fun p p' part part' hne hok hok' hid => hne ?_)
      (List.pairwise_map.mp call.chunk.nodup) hparts
    obtain ⟨⟨r, hr, hcloud, hrid⟩, -⟩ := resourceExpenses_eq_ok hok
    obtain ⟨⟨r', hr', hcloud', hrid'⟩, -⟩ := resourceExpenses_eq_ok hok'
    rw [← hcloud, ← hcloud']
    exact call.resources_ids resources hresources r hr r' hr' (by rw [hrid, hrid', hid])
  have hmem := mem_cleanExpenses hparts
  rw [List.map_flatMap, List.nodup_flatMap]
  constructor
  · intro part hpart
    have hdates := List.pairwise_map.mp part.cleanExpenses.nodup
    exact List.pairwise_map.mpr (hdates.imp fun hne hkey => hne (congrArg ExpenseKey.date hkey))
  · refine hids.imp_of_mem fun {part part'} hpart hpart' hne key hkey hkey' => ?_
    obtain ⟨e, he, rfl⟩ := List.mem_map.mp hkey
    obtain ⟨e', he', hsame⟩ := List.mem_map.mp hkey'
    have hid : e'.resourceId = e.resourceId := congrArg ExpenseKey.resourceId hsame
    rw [(hmem part hpart e he).1, (hmem part' hpart' e' he').1] at hid
    exact hne hid.symm

end Parts

/-! ### The rows it inserts -/

section Rows

variable {clean : Table CleanExpense.key} {resourceIds : List Uuid} {cloudAccountId : Uuid}

/-- **Every row of a clean expense's key is read**: it is of the account, one of the resources and
between the first day and the last. -/
theorem filter_getClickhouseExpenses {minDate maxDate : ℤ} {e : CleanExpense}
    (haccount : e.cloudAccountId = cloudAccountId) (hid : e.resourceId ∈ resourceIds)
    (hmin : minDate ≤ e.date) (hmax : e.date ≤ maxDate) :
    ((getClickhouseExpenses table minDate maxDate resourceIds cloudAccountId).filter fun r =>
      r.key.resourceId = e.resourceId ∧ r.key.date = e.date) = table.filter fun r => r.key = e.key := by
  unfold getClickhouseExpenses
  rw [Multiset.filter_filter]
  refine Multiset.filter_congr fun r _ => ?_
  obtain ⟨⟨ca, id, date⟩, cost, sign⟩ := r
  simp only [CleanExpense.key, ExpenseKey.mk.injEq]
  constructor
  · rintro ⟨⟨rfl, rfl⟩, rfl, -⟩
    exact ⟨haccount.symm, rfl, rfl⟩
  · rintro ⟨rfl, rfl, rfl⟩
    exact ⟨⟨rfl, rfl⟩, haccount, hmin, hmax, hid⟩

/-- The rows a call inserts, a clean expense at a time. -/
theorem clickhouseExpenses_eq (table : Multiset Expense)
    (hclean : ∀ e ∈ clean.rows, e.cloudAccountId = cloudAccountId ∧ e.resourceId ∈ resourceIds) :
    ∃ existing : Multiset Expense,
      clickhouseExpenses cloudAccountId resourceIds clean.rows table =
        clean.rows.flatMap (clickhouseExpensesFor existing) ∧
      ∀ e ∈ clean.rows,
        (existing.filter fun r => r.key.resourceId = e.resourceId ∧ r.key.date = e.date) =
          table.filter fun r => r.key = e.key := by
  unfold clickhouseExpenses
  split
  · rename_i minDate maxDate hmin hmax
    refine ⟨_, rfl, fun e he => ?_⟩
    have hdate : e.date ∈ clean.rows.map CleanExpense.date := List.mem_map_of_mem he
    exact filter_getClickhouseExpenses (hclean e he).1 (hclean e he).2
      ((List.min?_eq_some_iff.mp hmin).2 _ hdate) ((List.max?_eq_some_iff.mp hmax).2 _ hdate)
  · rename_i hnone
    have hnil : clean.rows = [] := by
      by_contra hne
      have hdates : clean.rows.map CleanExpense.date ≠ [] := fun h => hne (List.map_eq_nil_iff.mp h)
      exact hnone _ _ (List.min?_eq_some_min hdates) (List.max?_eq_some_max hdates)
    exact ⟨0, by rw [hnil]; rfl, fun e he => absurd (hnil ▸ he) List.not_mem_nil⟩

/-- What is inserted for a key is inserted for its clean expense. -/
theorem balance_flatMap {existing : Multiset Expense} {e : CleanExpense} (he : e ∈ clean.rows) :
    balance (clean.rows.flatMap (clickhouseExpensesFor existing) : Multiset Expense) e.key =
      balance (clickhouseExpensesFor existing e : Multiset Expense) e.key := by
  have hshare := clean.filter_flatMap
    (fun a _ r (hr : r ∈ clickhouseExpensesFor existing a) => key_of_mem_clickhouseExpensesFor hr) he
  unfold balance
  rw [Multiset.filter_coe, Multiset.filter_coe, hshare, List.filter_eq_self.mpr fun r hr =>
    decide_eq_true (key_of_mem_clickhouseExpensesFor hr)]

/-- Nothing is inserted for a key without a clean expense. -/
theorem balance_flatMap_of_ne {existing : Multiset Expense} {k : ExpenseKey}
    (hk : ∀ e ∈ clean.rows, e.key ≠ k) :
    balance (clean.rows.flatMap (clickhouseExpensesFor existing) : Multiset Expense) k = 0 := by
  refine balance_of_forall_ne fun r hr => ?_
  obtain ⟨e, he, hr⟩ := List.mem_flatMap.mp hr
  exact key_of_mem_clickhouseExpensesFor hr ▸ hk e he

variable (hclean : ∀ e ∈ clean.rows,
  e.cloudAccountId = cloudAccountId ∧ e.resourceId ∈ resourceIds)

include hclean

/-- **The rows inserted settle the keys of the clean expenses.** -/
theorem balance_clickhouseExpenses (hbalanced : Balanced table) :
    ∀ e ∈ clean.rows, balance
      (table + (clickhouseExpenses cloudAccountId resourceIds clean.rows table : Multiset Expense))
      e.key = (1, e.cost) := by
  intro e he
  obtain ⟨existing, hrows, hexisting⟩ := clickhouseExpenses_eq table hclean
  rw [hrows, balance_add, balance_flatMap he, ← balance_add]
  exact balance_clickhouseExpensesFor (hexisting e he) (hbalanced e.key)

/-- They leave the other keys alone. -/
theorem balance_clickhouseExpenses_of_ne {k : ExpenseKey} (hk : ∀ e ∈ clean.rows, e.key ≠ k) :
    balance
      (table + (clickhouseExpenses cloudAccountId resourceIds clean.rows table : Multiset Expense))
      k = balance table k := by
  obtain ⟨existing, hrows, -⟩ := clickhouseExpenses_eq table hclean
  rw [hrows, balance_add, balance_flatMap_of_ne hk, add_zero]

/-- There are none where the keys are settled. -/
theorem clickhouseExpenses_of_settled
    (hsettled : ∀ e ∈ clean.rows, balance table e.key = (1, e.cost)) :
    clickhouseExpenses cloudAccountId resourceIds clean.rows table = [] := by
  obtain ⟨existing, hrows, hexisting⟩ := clickhouseExpenses_eq table hclean
  rw [hrows]
  exact List.flatMap_eq_nil_iff.mpr fun e he =>
    clickhouseExpensesFor_of_settled (hexisting e he) (hsettled e he)

end Rows

/-- **One call**: it settles the keys it computed and keeps the others; where they are settled, the
same call succeeds again and inserts nothing. -/
theorem save_balance (hbalanced : Balanced table) (h : call.save table = .ok saved) :
    (∀ e ∈ saved.cleanExpenses,
      balance (table + (saved.inserted : Multiset Expense)) e.key = (1, e.cost)) ∧
    (∀ k, (∀ e ∈ saved.cleanExpenses, e.key ≠ k) →
      balance (table + (saved.inserted : Multiset Expense)) k = balance table k) ∧
    ∀ table', (∀ e ∈ saved.cleanExpenses, balance table' e.key = (1, e.cost)) →
      ∃ saved', call.save table' = .ok saved' ∧ saved'.inserted = [] := by
  obtain ⟨resources, hresources, parts, hparts, rfl⟩ := save_eq_ok.mp h
  let clean : Table CleanExpense.key := ⟨_, cleanExpenses_nodup hresources hparts⟩
  have hclean : ∀ e ∈ clean.rows, e.cloudAccountId = call.cloudAccountId ∧
      e.resourceId ∈ parts.map ResourceExpenses.resourceId := by
    intro e he
    obtain ⟨part, hpart, he⟩ := List.mem_flatMap.mp he
    obtain ⟨hid, haccount⟩ := mem_cleanExpenses hparts part hpart e he
    exact ⟨haccount, hid ▸ List.mem_map_of_mem hpart⟩
  exact ⟨balance_clickhouseExpenses hclean hbalanced,
    fun _ hk => balance_clickhouseExpenses_of_ne hclean hk,
    fun table' hsettled => ⟨_, save_eq_ok.mpr ⟨resources, hresources, parts, hparts, rfl⟩,
      clickhouseExpenses_of_settled hclean hsettled⟩⟩

end Call

/-! ## Reachable ledgers -/

/-- **Taking snapshot chains back** leaves each key as it was, or without a balance. -/
theorem balance_fixSnapshotChainExpenses {table : Multiset Expense} (hbalanced : Balanced table)
    (fromDt toDt : ℤ) (resourceIds : List Uuid) (cloudAccountId : Uuid) (k : ExpenseKey) :
    balance (table + fixSnapshotChainExpenses table fromDt toDt resourceIds cloudAccountId) k =
      balance table k ∨
    balance (table + fixSnapshotChainExpenses table fromDt toDt resourceIds cloudAccountId) k =
      0 := by
  unfold fixSnapshotChainExpenses
  rw [balance_add, balance_map (Multiset.Nodup.filter _ (Multiset.nodup_dedup _)) fun _ => rfl]
  split_ifs with hk
  · obtain ⟨hmem, hsign⟩ := Multiset.mem_filter.mp hk
    obtain ⟨r, hr, rfl⟩ := Multiset.mem_map.mp (Multiset.mem_dedup.mp hmem)
    have hsame : balance (getClickhouseExpenses table fromDt toDt resourceIds cloudAccountId) r.key =
        balance table r.key := by
      have hread := (Multiset.mem_filter.mp hr).2
      unfold balance getClickhouseExpenses
      rw [Multiset.filter_filter]
      refine congrArg (fun rows : Multiset Expense => (rows.map Row.worth).sum)
        (Multiset.filter_congr fun x _ => ?_)
      exact and_iff_left_of_imp fun hx => hx ▸ hread
    rw [hsame] at hsign
    refine Or.inr ?_
    obtain hzero | hone := hbalanced r.key
    · rw [hzero] at hsign
      exact absurd hsign (lt_irrefl 0)
    · rw [hsame, Prod.ext hone rfl (y := (1, (balance table r.key).2))]
      simp [Row.worth]
  · exact Or.inl (add_zero _)

/-- **The keys of a reachable ledger** have no balance, or net sign `1`. -/
theorem balanced_of_reachable {table : Multiset Expense} (h : Reachable table) : Balanced table := by
  induction h with
  | empty => exact fun k => Or.inl rfl
  | @save ρ table saved call _ hsave ih =>
    intro k
    obtain ⟨hsettled, hkept, -⟩ := save_balance ih hsave
    by_cases hk : ∃ e ∈ saved.cleanExpenses, e.key = k
    · obtain ⟨e, he, rfl⟩ := hk
      exact Or.inr (congrArg Prod.fst (hsettled e he))
    · rw [hkept k fun e he hkey => hk ⟨e, he, hkey⟩]
      exact ih k
  | fixSnapshotChains fromDt toDt ids ca _ ih =>
    intro k
    obtain hkept | hzero := balance_fixSnapshotChainExpenses ih fromDt toDt ids ca k
    · rw [hkept]
      exact ih k
    · exact Or.inl hzero
  | collapse _ hcollapse ih =>
    intro k
    rw [balance_collapse hcollapse]
    exact ih k

/-- Two raw expenses of one day, on an account `7`. -/
def oneDay : SaveCall RawExpense where
  importer := base
  cloudAccountId := 7
  chunk := ⟨[("i-1", [⟨86410, 5, 7⟩, ⟨90000, 3, 7⟩])], by decide⟩
  resources := .ok [⟨11, "i-1"⟩]
  chunk_account := by decide
  resources_ids := by
    rintro rs ⟨⟩ r hr r' hr' -
    rw [List.mem_singleton.mp hr, List.mem_singleton.mp hr']

end BaseReportImporter
