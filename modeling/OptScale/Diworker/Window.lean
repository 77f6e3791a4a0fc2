import OptScale.Diworker.AwsImporter

/-!
# Diworker/Window — regenerating a window of AWS expenses

    expense  ├──── day 0 ────┼──── day 1 ────┤          begins before the threshold
    expense                  ├──── day 1 ────┤          begins at it
    threshold                ▲

An expense counts on each of its days, but a window is made of the expenses that *begin* in it.  So
a regeneration replaces the cost of day 1 by the share of the second expense alone.  A day keeps its
cost exactly when the early expenses have no part in it (`regenerate_iff`).
-/

open Fallible Ledger Chunks BaseReportImporter

namespace AwsReportImporter

variable {S : ResourceService} {threshold : ℤ} {raw rows : List AwsRawExpense}
  {cloudAccountId : Uuid} {billingPeriod : Option String} {id : String} {day : ℤ}
  {table table' : Multiset Expense}

/-! ## Groups of a window -/

section Lists

variable {α β : Type*}

theorem dedup_filter [DecidableEq α] (p : α → Bool) (l : List α) :
    (l.filter p).dedup = l.dedup.filter p := by
  induction l with
  | nil => rfl
  | cons a l ih =>
    by_cases ha : a ∈ l <;> by_cases hp : p a <;>
      simp [ha, hp, ih, List.dedup_cons_of_mem, List.dedup_cons_of_notMem]

/-- What is taken from the chosen ones is chosen from what is taken. -/
theorem filterMap_filter_comm {f : α → Option β} {p : α → Bool} {q : β → Bool}
    (h : ∀ a b, f a = some b → q b = p a) (l : List α) :
    (l.filter p).filterMap f = (l.filterMap f).filter q := by
  rw [List.filterMap_filter, List.filter_filterMap]
  refine List.filterMap_congr fun a _ => ?_
  cases hf : f a with
  | none => simp
  | some b => simp [Option.filter, h a b hf]

end Lists

/-- A group begins on its day. -/
theorem startDay_of_groupExpense {g : DayGroup} {e : AwsRawExpense}
    (h : groupExpense rows g = some e) : e.startDate / 86400 = g.startDay := by
  unfold groupExpense at h
  split at h
  · exact nomatch h
  · rename_i first rest hrows
    obtain rfl := Option.some.inj h
    have hfirst : first ∈ rows.filter fun e => dayGroup e = g := by
      rw [hrows]
      exact List.mem_cons_self
    exact congrArg DayGroup.startDay (of_decide_eq_true (List.mem_filter.mp hfirst).2)

/-- **A window of whole days** takes whole groups. -/
theorem groupByDay_filter (t : ℤ) (rows : List AwsRawExpense) :
    groupByDay (rows.filter fun e => 86400 * t ≤ e.startDate) =
      (groupByDay rows).filter fun e => 86400 * t ≤ e.startDate := by
  have hdays : ∀ e : AwsRawExpense, (86400 * t ≤ e.startDate) ↔ t ≤ (dayGroup e).startDay := by
    intro e
    unfold dayGroup
    dsimp only
    omega
  have hkeys : ((rows.filter fun e => 86400 * t ≤ e.startDate).map dayGroup).dedup =
      (rows.map dayGroup).dedup.filter fun g => t ≤ g.startDay := by
    rw [← dedup_filter, List.filter_map]
    simp only [Function.comp_def, hdays]
  have hgroup : ∀ g : DayGroup, t ≤ g.startDay →
      groupExpense (rows.filter fun e => 86400 * t ≤ e.startDate) g = groupExpense rows g := by
    intro g hg
    unfold groupExpense
    rw [List.filter_filter]
    have hsame : (rows.filter fun e => decide (dayGroup e = g) && decide (86400 * t ≤ e.startDate)) =
        rows.filter fun e => dayGroup e = g := by
      refine List.filter_congr fun e _ => ?_
      by_cases he : dayGroup e = g
      · simp [he, hdays e, hg]
      · simp [he]
    rw [hsame]
  unfold groupByDay
  rw [hkeys, ← filterMap_filter_comm (p := fun g => decide (t ≤ g.startDay)) fun g e he => ?_]
  · refine List.filterMap_congr fun g hg => hgroup g ?_
    exact of_decide_eq_true (List.mem_filter.mp hg).2
  · rw [decide_eq_decide, ← startDay_of_groupExpense he]
    omega

/-! ## The shares of a day -/

/-- The shares that some expenses have in a day. -/
def sharesOn (day : ℤ) (expenses : List AwsRawExpense) : List ℚ :=
  ((expenses.flatMap sharesOf).filter fun share => share.usageDate = day).map RawExpense.cost

theorem sharesOn_append (day : ℤ) (es es' : List AwsRawExpense) :
    sharesOn day (es ++ es') = sharesOn day es ++ sharesOn day es' := by
  simp only [sharesOn, List.flatMap_append, List.filter_append, List.map_append]

theorem sharesOn_cons (day : ℤ) (e : AwsRawExpense) (es : List AwsRawExpense) :
    sharesOn day (e :: es) = sharesOn day [e] ++ sharesOn day es := sharesOn_append day [e] es

/-- The expenses of a resource in an account and a billing period, put together. -/
def expensesOf (raw : List AwsRawExpense) (cloudAccountId : Uuid) (id : String)
    (billingPeriod : Option String) : List AwsRawExpense :=
  (groupByDay (inPeriod cloudAccountId billingPeriod raw)).filter fun e => e.resourceId = some id

/-- The shares of the expenses that begin in the window. -/
def windowShares (threshold : ℤ) (raw : List AwsRawExpense) (cloudAccountId : Uuid) (id : String)
    (day : ℤ) (billingPeriod : Option String) : List ℚ :=
  sharesOn day ((expensesOf raw cloudAccountId id billingPeriod).filter fun e =>
    threshold ≤ e.startDate)

/-- The shares of the expenses that begin earlier. -/
def earlyShares (threshold : ℤ) (raw : List AwsRawExpense) (cloudAccountId : Uuid) (id : String)
    (day : ℤ) (billingPeriod : Option String) : List ℚ :=
  sharesOn day ((expensesOf raw cloudAccountId id billingPeriod).filter fun e =>
    e.startDate < threshold)

/-- **All shares are early or in the window.** -/
theorem sharesOn_split (threshold : ℤ) (day : ℤ) (es : List AwsRawExpense) :
    (sharesOn day es).Perm (sharesOn day (es.filter fun e => e.startDate < threshold) ++
      sharesOn day (es.filter fun e => threshold ≤ e.startDate)) := by
  rw [← sharesOn_append]
  have hsplit : es.Perm (es.filter (fun e => e.startDate < threshold) ++
      es.filter fun e => threshold ≤ e.startDate) := by
    have h := (List.filter_append_perm (fun e : AwsRawExpense => e.startDate < threshold) es).symm
    simpa only [← decide_not, not_lt] using h
  exact ((hsplit.flatMap_right _).filter _).map _

/-! ## One billing period -/

/-- A group has the account, the resource and the begin of one of its expenses. -/
theorem mem_groupByDay {e : AwsRawExpense} (he : e ∈ groupByDay rows) : ∃ first ∈ rows,
    first.cloudAccountId = e.cloudAccountId ∧ first.resourceId = e.resourceId ∧
      first.startDate = e.startDate := by
  obtain ⟨g, -, hg⟩ := List.mem_filterMap.mp he
  unfold groupExpense at hg
  split at hg
  · exact nomatch hg
  · rename_i first rest hrows
    obtain rfl := Option.some.inj hg
    have hfirst : first ∈ rows.filter fun e => dayGroup e = g := by
      rw [hrows]
      exact List.mem_cons_self
    exact ⟨first, List.mem_of_mem_filter hfirst, rfl, rfl, rfl⟩

/-- What is found for a resource is what begins in the window. -/
theorem getRawExpenses_eq (t : ℤ) : getRawExpenses cloudAccountId billingPeriod (86400 * t) raw id =
    (expensesOf raw cloudAccountId id billingPeriod).filter fun e => 86400 * t ≤ e.startDate := by
  rw [getRawExpenses, groupByDay_filter, expensesOf, List.filter_filter, List.filter_filter]
  exact List.filter_congr fun e _ => Bool.and_comm _ _

theorem cloudAccountId_of_mem {threshold : ℤ} {e : AwsRawExpense}
    (he : e ∈ getRawExpenses cloudAccountId billingPeriod threshold raw id) :
    e.cloudAccountId = cloudAccountId := by
  obtain ⟨first, hfirst, haccount, -⟩ := mem_groupByDay (List.mem_of_mem_filter he)
  have hperiod := (List.mem_filter.mp (List.mem_of_mem_filter hfirst)).2
  rw [← haccount]
  exact (of_decide_eq_true hperiod).1

theorem mem_sharesOf {e : AwsRawExpense} {share : RawExpense} (h : share ∈ sharesOf e) :
    share.cloudAccountId = e.cloudAccountId := by
  obtain ⟨d, -, rfl⟩ := List.mem_map.mp h
  rfl

theorem sharesOn_eq_nil {day : ℤ} {es : List AwsRawExpense} :
    sharesOn day es = [] ↔ ∀ share ∈ es.flatMap sharesOf, share.usageDate ≠ day := by
  simp only [sharesOn, List.map_eq_nil_iff, List.filter_eq_nil_iff, decide_eq_true_eq]

/-- A resource with a share in the window is visited. -/
theorem mem_getResourceIds {t : ℤ} {e : AwsRawExpense}
    (he : e ∈ getRawExpenses cloudAccountId billingPeriod (86400 * t) raw id) :
    id ∈ getResourceIds cloudAccountId billingPeriod (86400 * t) raw := by
  obtain ⟨hgroup, hid⟩ := List.mem_filter.mp he
  obtain ⟨first, hfirst, -, hresource, -⟩ := mem_groupByDay hgroup
  obtain ⟨hperiod, hstart⟩ := List.mem_filter.mp hfirst
  obtain ⟨hmem, hcond⟩ := List.mem_filter.mp hperiod
  obtain ⟨haccount, hbilling⟩ := of_decide_eq_true hcond
  refine List.mem_dedup.mpr (List.mem_filterMap.mpr ⟨first, List.mem_filter.mpr ⟨hmem, ?_⟩,
    hresource.trans (of_decide_eq_true hid)⟩)
  exact decide_eq_true ⟨haccount, of_decide_eq_true hstart, Or.inr hbilling⟩

/-- **One billing period**: a day with shares in the window has their sum afterwards, and any other
key of the account is left as it was; other accounts are left alone. -/
theorem generatePeriod_balance {t : ℤ} (hbalanced : Balanced table)
    (h : generatePeriod S (86400 * t) raw cloudAccountId billingPeriod table = .ok table') :
    Balanced table' ∧
    (∀ id day, balance table' ⟨cloudAccountId, S.resourceId id, day⟩ =
      if windowShares (86400 * t) raw cloudAccountId id day billingPeriod = [] then
        balance table ⟨cloudAccountId, S.resourceId id, day⟩
      else (1, (windowShares (86400 * t) raw cloudAccountId id day billingPeriod).sum)) ∧
    ∀ k : ExpenseKey, k.cloudAccountId ≠ cloudAccountId → balance table' k = balance table k := by
  obtain ⟨hcomputed, hkept, hbalanced'⟩ := generateChunks_balance
    (fun _ _ he => cloudAccountId_of_mem he) hbalanced h
  rw [flatten_toChunks] at hcomputed hkept
  have haccount : ∀ id e, Computes aws S (getRawExpenses cloudAccountId billingPeriod (86400 * t) raw)
      id e → e.cloudAccountId = cloudAccountId := by
    intro id e he
    obtain ⟨x, hx, hxe⟩ := aws.cloudAccountId_mem _ _ e he.2
    exact hxe.symm.trans (cloudAccountId_of_mem hx)
  have hclean : ∀ id, aws.cleanExpensesForResource (S.resourceId id)
      (getRawExpenses cloudAccountId billingPeriod (86400 * t) raw id) =
      cleanExpensesByDay (S.resourceId id)
        ((getRawExpenses cloudAccountId billingPeriod (86400 * t) raw id).flatMap sharesOf) :=
    fun id => cleanExpensesForResource_eq _ _
  refine ⟨hbalanced', fun id day => ?_, fun k hk => hkept k fun id _ e he hkey => ?_⟩
  · have hwindow : windowShares (86400 * t) raw cloudAccountId id day billingPeriod = sharesOn day
        (getRawExpenses cloudAccountId billingPeriod (86400 * t) raw id) := by
      rw [windowShares, getRawExpenses_eq]
    rw [hwindow]
    split
    · rename_i hnone
      refine hkept _ fun id' _ e he hkey => ?_
      have hid : e.resourceId = S.resourceId id := congrArg ExpenseKey.resourceId hkey
      obtain rfl := S.injective (he.resourceId.symm.trans hid)
      have hmem := he.2
      rw [hclean] at hmem
      obtain ⟨share, hshare, hdate⟩ := exists_rawExpense hmem
      exact sharesOn_eq_nil.mp hnone share hshare (hdate.trans (congrArg ExpenseKey.date hkey))
    · rename_i hsome
      obtain ⟨share, hshare, hday⟩ : ∃ share ∈ (getRawExpenses cloudAccountId billingPeriod
          (86400 * t) raw id).flatMap sharesOf, share.usageDate = day := by
        by_contra hnone
        exact hsome (sharesOn_eq_nil.mpr fun share hshare hday => hnone ⟨share, hshare, hday⟩)
      obtain ⟨x, hx, -⟩ := List.mem_flatMap.mp hshare
      obtain ⟨c, hc, hdate⟩ := exists_cleanExpense (S.resourceId id) hshare
      obtain ⟨hid, -, hcost⟩ := cleanExpense_spec hc
      rw [hday] at hdate
      have hcomputes : Computes aws S (getRawExpenses cloudAccountId billingPeriod (86400 * t) raw)
          id c := ⟨List.ne_nil_of_mem hx, (hclean id).symm ▸ hc⟩
      have hkey : c.key = ⟨cloudAccountId, S.resourceId id, day⟩ := by
        rw [CleanExpense.key, haccount id c hcomputes, hid, hdate]
      rw [← hkey, hcomputed id (mem_getResourceIds hx) c hcomputes, hcost, hdate]
      rfl
  · exact hk (hkey ▸ haccount id e he)

/-! ## All billing periods -/

/-- The sum of the shares of the last period that has some. -/
def lastShares (shares : Option String → List ℚ) : List (Option String) → Option ℚ
  | [] => none
  | period :: periods => (lastShares shares periods).or
    (if shares period = [] then none else some (shares period).sum)

section LastShares

variable {f g : Option String → List ℚ} {periods : List (Option String)}

theorem lastShares_append (l l' : List (Option String)) :
    lastShares f (l ++ l') = (lastShares f l').or (lastShares f l) := by
  induction l with
  | nil => simp [lastShares]
  | cons p l ih => rw [List.cons_append, lastShares, ih, lastShares, Option.or_assoc]

theorem lastShares_eq_none : lastShares f periods = none ↔ ∀ p ∈ periods, f p = [] := by
  induction periods with
  | nil => simp [lastShares]
  | cons p periods ih =>
    simp only [lastShares, Option.or_eq_none_iff, ih, List.forall_mem_cons]
    by_cases hp : f p = [] <;> simp [hp]

/-- **The last period with shares** is one behind which there are none. -/
theorem lastShares_eq_some {c : ℚ} : lastShares f periods = some c ↔ ∃ pre p post,
    periods = pre ++ p :: post ∧ f p ≠ [] ∧ (∀ q ∈ post, f q = []) ∧ (f p).sum = c := by
  induction periods with
  | nil => simp [lastShares]
  | cons p periods ih =>
    rw [lastShares, Option.or_eq_some_iff, ih, lastShares_eq_none]
    constructor
    · rintro (⟨pre, q, post, rfl, hq, hpost, rfl⟩ | ⟨hnone, hp⟩)
      · exact ⟨p :: pre, q, post, rfl, hq, hpost, rfl⟩
      · split at hp
        · exact nomatch hp
        · exact ⟨[], p, periods, rfl, ‹_›, hnone, Option.some.inj hp⟩
    · rintro ⟨pre, q, post, hsplit, hq, hpost, rfl⟩
      cases pre with
      | nil =>
        obtain ⟨rfl, rfl⟩ := List.cons.inj hsplit
        exact Or.inr ⟨hpost, if_neg hq⟩
      | cons r pre =>
        obtain ⟨rfl, rfl⟩ := List.cons.inj hsplit
        exact Or.inl ⟨pre, q, post, rfl, hq, hpost, rfl⟩

theorem lastShares_congr (h : ∀ p ∈ periods, (f p).Perm (g p)) :
    lastShares f periods = lastShares g periods := by
  induction periods with
  | nil => rfl
  | cons p periods ih =>
    obtain ⟨hp, hrest⟩ := List.forall_mem_cons.mp h
    have hnil : f p = [] ↔ g p = [] := ⟨fun hf => (hf ▸ hp).nil_eq.symm, fun hg => (hg ▸ hp).eq_nil⟩
    rw [lastShares, lastShares, ih hrest, hp.sum_eq]
    simp only [hnil]

end LastShares

variable {periods : List (Option String)} {accounts : List Uuid}

/-- **All billing periods of an account.** -/
theorem generatePeriods_balance {t : ℤ} (hbalanced : Balanced table)
    (h : generatePeriods S (86400 * t) raw cloudAccountId periods table = .ok table') :
    Balanced table' ∧
    (∀ id day, balance table' ⟨cloudAccountId, S.resourceId id, day⟩ =
      (lastShares (windowShares (86400 * t) raw cloudAccountId id day) periods).elim
        (balance table ⟨cloudAccountId, S.resourceId id, day⟩) fun c => (1, c)) ∧
    ∀ k : ExpenseKey, k.cloudAccountId ≠ cloudAccountId → balance table' k = balance table k := by
  induction periods generalizing table with
  | nil =>
    obtain rfl := Except.ok.inj h
    exact ⟨hbalanced, fun _ _ => rfl, fun _ _ => rfl⟩
  | cons p periods ih =>
    obtain ⟨table₁, hperiod, hrest⟩ := bind_eq_ok.mp h
    obtain ⟨hbalanced₁, hfirst, hother⟩ := generatePeriod_balance hbalanced hperiod
    obtain ⟨hbalanced', hlast, hother'⟩ := ih hbalanced₁ hrest
    refine ⟨hbalanced', fun id day => ?_, fun k hk => (hother' k hk).trans (hother k hk)⟩
    rw [hlast id day, hfirst id day, lastShares]
    cases lastShares (windowShares (86400 * t) raw cloudAccountId id day) periods with
    | none => split <;> rfl
    | some c => rfl

/-- **All accounts.** -/
theorem generateCleanRecords_balance {t : ℤ} (hbalanced : Balanced table)
    (h : generateCleanRecords S (86400 * t) raw periods accounts table = .ok table') :
    Balanced table' ∧
    (∀ cloudAccountId ∈ accounts, ∀ id day, balance table' ⟨cloudAccountId, S.resourceId id, day⟩ =
      (lastShares (windowShares (86400 * t) raw cloudAccountId id day) periods).elim
        (balance table ⟨cloudAccountId, S.resourceId id, day⟩) fun c => (1, c)) ∧
    ∀ k : ExpenseKey, k.cloudAccountId ∉ accounts → balance table' k = balance table k := by
  induction accounts generalizing table with
  | nil =>
    obtain rfl := Except.ok.inj h
    exact ⟨hbalanced, fun _ h => absurd h List.not_mem_nil, fun _ _ => rfl⟩
  | cons account accounts ih =>
    obtain ⟨table₁, haccount, hrest⟩ := bind_eq_ok.mp h
    obtain ⟨hbalanced₁, hfirst, hother⟩ := generatePeriods_balance hbalanced haccount
    obtain ⟨hbalanced', hlast, hother'⟩ := ih hbalanced₁ hrest
    refine ⟨hbalanced', fun a ha id day => ?_, fun k hk => ?_⟩
    · by_cases hlater : a ∈ accounts
      · rw [hlast a hlater id day]
        cases hc : lastShares (windowShares (86400 * t) raw a id day) periods with
        | some c => rfl
        | none =>
          by_cases hsame : a = account
          · subst hsame
            rw [Option.elim_none, hfirst id day, hc]
          · exact hother ⟨a, S.resourceId id, day⟩ hsame
      · obtain rfl | ha := List.mem_cons.mp ha
        · rw [hother' _ hlater, hfirst id day]
        · exact absurd ha hlater
    · rw [List.mem_cons, not_or] at hk
      rw [hother' k hk.2, hother k hk.1]

/-! ## Regenerating -/

/-- **The early expenses have no part in a day of the window**: in the last billing period that has
an expense of the window on the day, the shares of the early ones sum to zero; where a period behind
it has early expenses on the day, their shares sum to those of the window. -/
def EarlySettled (threshold : ℤ) (raw : List AwsRawExpense) (periods : List (Option String))
    (cloudAccountId : Uuid) (id : String) (day : ℤ) : Prop :=
  ∀ pre p post, periods = pre ++ p :: post →
    windowShares threshold raw cloudAccountId id day p ≠ [] →
    (∀ q ∈ post, windowShares threshold raw cloudAccountId id day q = []) →
    match lastShares (earlyShares threshold raw cloudAccountId id day) post with
    | none => (earlyShares threshold raw cloudAccountId id day p).sum = 0
    | some c => c = (windowShares threshold raw cloudAccountId id day p).sum

/-- Everything is in a window that nothing begins before. -/
theorem windowShares_all {t : ℤ} (hall : ∀ e ∈ raw, 86400 * t ≤ e.startDate)
    (period : Option String) : windowShares (86400 * t) raw cloudAccountId id day period =
      sharesOn day (expensesOf raw cloudAccountId id period) := by
  unfold windowShares
  refine congrArg (sharesOn day) (List.filter_eq_self.mpr fun e he => decide_eq_true ?_)
  obtain ⟨first, hfirst, -, -, hstart⟩ := mem_groupByDay (List.mem_of_mem_filter he)
  rw [← hstart]
  exact hall first (List.mem_of_mem_filter hfirst)

/-- What all expenses leave on a day is what those of the window leave, exactly where the early ones
have no part in it. -/
theorem earlySettled_iff {threshold : ℤ} : EarlySettled threshold raw periods cloudAccountId id day ↔
    ∀ c, lastShares (windowShares threshold raw cloudAccountId id day) periods = some c →
      lastShares (fun p => sharesOn day (expensesOf raw cloudAccountId id p)) periods = some c := by
  have hsplit : ∀ pre p post, periods = pre ++ p :: post →
      windowShares threshold raw cloudAccountId id day p ≠ [] →
      (∀ q ∈ post, windowShares threshold raw cloudAccountId id day q = []) →
      lastShares (fun p => sharesOn day (expensesOf raw cloudAccountId id p)) periods =
        (lastShares (earlyShares threshold raw cloudAccountId id day) post).or
          (some ((earlyShares threshold raw cloudAccountId id day p).sum +
            (windowShares threshold raw cloudAccountId id day p).sum)) := by
    rintro pre p post rfl hp hpost
    have hpost' : lastShares (fun p => sharesOn day (expensesOf raw cloudAccountId id p)) post =
        lastShares (earlyShares threshold raw cloudAccountId id day) post := by
      refine lastShares_congr fun q hq => ?_
      have hperm := sharesOn_split threshold day (expensesOf raw cloudAccountId id q)
      rwa [show sharesOn day ((expensesOf raw cloudAccountId id q).filter fun e =>
        threshold ≤ e.startDate) = [] from hpost q hq, List.append_nil] at hperm
    have hperm := sharesOn_split threshold day (expensesOf raw cloudAccountId id p)
    have hne : sharesOn day (expensesOf raw cloudAccountId id p) ≠ [] := by
      intro hnil
      rw [hnil] at hperm
      exact hp (List.append_eq_nil_iff.mp hperm.nil_eq.symm).2
    rw [lastShares_append, lastShares, hpost', if_neg hne, hperm.sum_eq, List.sum_append,
      Option.or_assoc]
    rfl
  constructor
  · intro hsettled c hc
    obtain ⟨pre, p, post, hperiods, hp, hpost, rfl⟩ := lastShares_eq_some.mp hc
    have hearly := hsettled pre p post hperiods hp hpost
    rw [hsplit pre p post hperiods hp hpost]
    cases hlast : lastShares (earlyShares threshold raw cloudAccountId id day) post with
    | none =>
      rw [hlast] at hearly
      rw [Option.none_or, hearly, zero_add]
    | some c =>
      rw [hlast] at hearly
      rw [Option.some_or, hearly]
  · intro hsame pre p post hperiods hp hpost
    have hwindow := hsame _ (lastShares_eq_some.mpr ⟨pre, p, post, hperiods, hp, hpost, rfl⟩)
    rw [hsplit pre p post hperiods hp hpost] at hwindow
    cases hlast : lastShares (earlyShares threshold raw cloudAccountId id day) post with
    | none =>
      rw [hlast, Option.none_or] at hwindow
      have hsum := Option.some.inj hwindow
      dsimp only
      linarith
    | some c =>
      rw [hlast, Option.some_or] at hwindow
      exact Option.some.inj hwindow

/-- A regeneration leaves the costs as they are where the early expenses are settled. -/
theorem regenerate_of_runs {t₀ t : ℤ} {table₁ table₂ : Multiset Expense}
    (hall : ∀ e ∈ raw, 86400 * t₀ ≤ e.startDate)
    (h₁ : generateCleanRecords S (86400 * t₀) raw periods accounts 0 = .ok table₁)
    (h₂ : generateCleanRecords S (86400 * t) raw periods accounts table₁ = .ok table₂) :
    (∀ cloudAccountId id day, (balance table₂ ⟨cloudAccountId, S.resourceId id, day⟩).2 =
      (balance table₁ ⟨cloudAccountId, S.resourceId id, day⟩).2) ↔
      ∀ cloudAccountId ∈ accounts, ∀ id day,
        EarlySettled (86400 * t) raw periods cloudAccountId id day := by
  obtain ⟨hbalanced, hfull, -⟩ := generateCleanRecords_balance (fun _ => Or.inl rfl) h₁
  obtain ⟨-, hwindow, hother⟩ := generateCleanRecords_balance hbalanced h₂
  have hcost : ∀ cloudAccountId ∈ accounts, ∀ id day,
      (balance table₂ ⟨cloudAccountId, S.resourceId id, day⟩).2 =
        (balance table₁ ⟨cloudAccountId, S.resourceId id, day⟩).2 ↔
        EarlySettled (86400 * t) raw periods cloudAccountId id day := by
    intro cloudAccountId haccount id day
    rw [earlySettled_iff, hwindow cloudAccountId haccount, hfull cloudAccountId haccount]
    simp only [funext (windowShares_all hall), balance_zero]
    cases hc : lastShares (windowShares (86400 * t) raw cloudAccountId id day) periods with
    | none => simp
    | some c =>
      -- a day with shares in the window has shares
      obtain ⟨pre, p, post, rfl, hp, -⟩ := lastShares_eq_some.mp hc
      have hsome : lastShares (fun p => sharesOn day (expensesOf raw cloudAccountId id p))
          (pre ++ p :: post) ≠ none := by
        intro hnone
        have hnil := lastShares_eq_none.mp hnone p
          (List.mem_append_right _ List.mem_cons_self)
        have hperm := sharesOn_split (86400 * t) day (expensesOf raw cloudAccountId id p)
        rw [hnil] at hperm
        exact hp (List.append_eq_nil_iff.mp hperm.nil_eq.symm).2
      obtain ⟨c', hc'⟩ := Option.ne_none_iff_exists'.mp hsome
      simp [hc', eq_comm]
  constructor
  · exact fun h cloudAccountId haccount id day =>
      (hcost cloudAccountId haccount id day).mp (h cloudAccountId id day)
  · intro h cloudAccountId id day
    by_cases haccount : cloudAccountId ∈ accounts
    · exact (hcost cloudAccountId haccount id day).mpr (h cloudAccountId haccount id day)
    · rw [hother _ haccount]

/-- **A regeneration from a threshold agrees with the full generation before it**, on every resource
and day, exactly when the early expenses have no part in any day of the window. -/
theorem regenerate_iff (S : ResourceService) (raw : List AwsRawExpense)
    (periods : List (Option String)) (accounts : List Uuid) (t₀ t : ℤ)
    {table₁ table₂ : Multiset Expense} (hall : ∀ e ∈ raw, 86400 * t₀ ≤ e.startDate)
    (h₁ : generateCleanRecords S (86400 * t₀) raw periods accounts 0 = .ok table₁)
    (h₂ : generateCleanRecords S (86400 * t) raw periods accounts table₁ = .ok table₂) :
    (∀ cloudAccountId id day, (balance table₂ ⟨cloudAccountId, S.resourceId id, day⟩).2 =
      (balance table₁ ⟨cloudAccountId, S.resourceId id, day⟩).2) ↔
      ∀ cloudAccountId ∈ accounts, ∀ id day,
        EarlySettled (86400 * t) raw periods cloudAccountId id day :=
  regenerate_of_runs hall h₁ h₂

/-! ### A fee over two days -/

/-- A fee for days 0 and 1, and an hour of day 1, of one resource. -/
def feeAndHour : List AwsRawExpense :=
  [⟨7, some "i-1", some "1970-01", [some "fee"], 0, 172800, 2⟩,
    ⟨7, some "i-1", some "1970-01", [some "usage"], 86400, 90000, 5⟩]

/-- Both runs, over all raw expenses and over a window. -/
def fullThenWindow (raw : List AwsRawExpense) (t : ℤ) :
    Except Failure (Multiset Expense × Multiset Expense) := do
  let table₁ ← generateCleanRecords numbered (86400 * 0) raw [some "1970-01"] [7] 0
  let table₂ ← generateCleanRecords numbered (86400 * t) raw [some "1970-01"] [7] table₁
  pure (table₁, table₂)

theorem fullThenWindow_eq_ok {t : ℤ} {tables : Multiset Expense × Multiset Expense}
    (h : fullThenWindow raw t = .ok tables) :
    generateCleanRecords numbered (86400 * 0) raw [some "1970-01"] [7] 0 = .ok tables.1 ∧
      generateCleanRecords numbered (86400 * t) raw [some "1970-01"] [7] tables.1 = .ok tables.2 := by
  obtain ⟨table₁, h₁, h⟩ := bind_eq_ok.mp h
  obtain ⟨table₂, h₂, h⟩ := bind_eq_ok.mp h
  obtain rfl := pure_eq_ok.mp h
  exact ⟨h₁, h₂⟩

theorem exists_fullThenWindow (raw : List AwsRawExpense) (t : ℤ) (h : (fullThenWindow raw t).isOk) :
    ∃ tables, fullThenWindow raw t = .ok tables := by
  cases hrun : fullThenWindow raw t with
  | ok tables => exact ⟨tables, rfl⟩
  | error e =>
    rw [hrun] at h
    exact nomatch h

/-- **The fee is lost from day 1** when day 1 is regenerated. -/
theorem fee_is_lost :
    ¬ ∀ (S : ResourceService) (raw : List AwsRawExpense) (periods : List (Option String))
      (accounts : List Uuid) (t₀ t : ℤ) (table₁ table₂ : Multiset Expense),
      (∀ e ∈ raw, e.startDate ≤ e.endDate) → (∀ e ∈ raw, 86400 * t₀ ≤ e.startDate) →
      generateCleanRecords S (86400 * t₀) raw periods accounts 0 = .ok table₁ →
      generateCleanRecords S (86400 * t) raw periods accounts table₁ = .ok table₂ →
      ∀ cloudAccountId id day, (balance table₂ ⟨cloudAccountId, S.resourceId id, day⟩).2 =
        (balance table₁ ⟨cloudAccountId, S.resourceId id, day⟩).2 := by
  intro hclaim
  obtain ⟨tables, htables⟩ := exists_fullThenWindow feeAndHour 1 (by decide +kernel)
  obtain ⟨h₁, h₂⟩ := fullThenWindow_eq_ok htables
  have hall : ∀ e ∈ feeAndHour, 86400 * 0 ≤ e.startDate := by decide
  have hcosts := hclaim numbered feeAndHour _ _ 0 1 _ _ (by decide) hall h₁ h₂
  have hearly : (earlyShares (86400 * 1) feeAndHour 7 "i-1" 86400 (some "1970-01")).sum = 0 :=
    (regenerate_of_runs hall h₁ h₂).mp hcosts 7 (List.mem_singleton_self 7) "i-1" 86400
    [] (some "1970-01") [] rfl (by decide +kernel) (fun _ h => absurd h List.not_mem_nil)
  exact absurd hearly (by decide +kernel)

/-- Without the fee, day 1 has its cost. -/
theorem regenerate_hour : ∃ tables : Multiset Expense × Multiset Expense,
    fullThenWindow (feeAndHour.drop 1) 1 = .ok tables ∧
      ((∀ cloudAccountId id day, (balance tables.2 ⟨cloudAccountId, numbered.resourceId id, day⟩).2 =
        (balance tables.1 ⟨cloudAccountId, numbered.resourceId id, day⟩).2) ↔
        ∀ cloudAccountId ∈ [7], ∀ id day,
          EarlySettled (86400 * 1) (feeAndHour.drop 1) [some "1970-01"] cloudAccountId id day) := by
  obtain ⟨tables, htables⟩ :=
    exists_fullThenWindow (feeAndHour.drop 1) 1 (by decide +kernel)
  obtain ⟨h₁, h₂⟩ := fullThenWindow_eq_ok htables
  exact ⟨tables, htables, regenerate_iff numbered _ _ _ 0 1 (by decide) h₁ h₂⟩

end AwsReportImporter
