import OptScale.Risp.Base

/-!
# Risp/Covered — what `save_risp_expenses_to_ch` makes of the ledger

The records of one offer, resource and day stand and fall together: an unchanged one takes its siblings out of
the map.  So a save comes out right, and the same save over again changes nothing, exactly when of each such
group the first record found is unchanged and the others stand already as they should, or no record found is
unchanged (`savedTwice_iff`).  An instance that changes its type within a day has an unchanged record and a
missing one, and the missing one is never entered (`resized_not_entered`).
-/

open Ledger Renewal

namespace RispProcessorBase

/-! ## Saves -/

section Save

variable (Q : UsageQuery)

/-- The key of an instance type in the map. -/
def UsageQuery.key (p : (Text × DateTime × Text) × Text) : UsageKey :=
  ⟨Q.cloudAccountId, p.1.1, p.1.2.1.seconds, p.2, p.1.2.2, Q.offerType⟩

/-- The resources of a save are looked up chunk by chunk. -/
def Answers (table : List RiSpUsage) (cloudResourceIds : List Text)
    (getRiSpUsageExpenses : List Text → List UsageExpense) : Prop :=
  ∀ chunk ∈ cloudResourceIds.toChunks CHUNK_SIZE, GetRiSpUsageExpenses table Q chunk (getRiSpUsageExpenses chunk)

/-- All that a save finds, in its order. -/
def existing (cloudResourceIds : List Text) (getRiSpUsageExpenses : List Text → List UsageExpense) :
    List UsageExpense :=
  ((cloudResourceIds.toChunks CHUNK_SIZE).map getRiSpUsageExpenses).flatten

/-- Every key has net sign `0` or `1`. -/
def Signed (table : List RiSpUsage) : Prop := ∀ k, (usageBalance table k).1 = 0 ∨ (usageBalance table k).1 = 1

/-- Every key of the map has net sign `1` and its new values, and every other key its old ones. -/
structure Renewed (before after : List RiSpUsage) (newExpensesMap : NewExpenses) : Prop where
  entered : ∀ x ∈ newExpensesMap.entries, usageBalance after (Q.key x.1) = (1, x.2.costs)
  kept : ∀ k, (∀ x ∈ newExpensesMap.entries, Q.key x.1 ≠ k) → usageBalance after k = usageBalance before k

variable {Q} {table : List RiSpUsage} {ids : List Text} {query : List Text → List UsageExpense}
  {M : NewExpenses} {expCost : Text → DateTime → Option ℚ}

theorem selects_existing (hids : ids.Nodup) (hquery : Answers Q table ids query) :
    Selects (usageLedger table)
      (fun k => Q.Asks k ∧ k.resourceId ∈ ids) (UsageExpense.key Q.cloudAccountId Q.offerType)
      (fun e => (e.offerCost, e.onDemandCost, e.usage)) (existing ids query) := by
  have hflat := Chunks.flatten_toChunks CHUNK_SIZE ids
  have h := Selects.flatten UsageKey.resourceId (by rwa [hflat]) fun c hc => (hquery c hc).selects
  rwa [hflat] at h

/-- **The ledger after a save.** -/
theorem usageBalance_save (k : UsageKey) :
    usageBalance (table ++ saveRispExpensesToCh Q query ids M expCost) k =
      balance (usageLedger table +
        (batch UsageExpense.place UsageExpense.values M.entries (existing ids query) Q.key UsageValues.costs :
          Multiset (Row UsageKey (ℚ × ℚ × ℚ)))) k := by
  rw [usageBalance, usageLedger, List.map_append, ← Multiset.coe_add, saveRispExpensesToCh,
    map_renew Q.key UsageValues.costs RiSpUsage.toRow _ _ (fun _ => rfl) fun _ => rfl]
  rfl

/-- A place of the map is known by its key. -/
theorem place_of_key {p q : (Text × DateTime × Text) × Text} (hp : ∃ s, p.1.2.1 = .utc s)
    (hq : ∃ s, q.1.2.1 = .utc s) (h : Q.key p = Q.key q) : p = q := by
  obtain ⟨⟨r, d, o⟩, i⟩ := p
  obtain ⟨⟨r', d', o'⟩, i'⟩ := q
  obtain ⟨s, rfl⟩ := hp
  obtain ⟨s', rfl⟩ := hq
  simp only [UsageQuery.key, UsageKey.mk.injEq, true_and, and_true] at h
  obtain ⟨rfl, hs, rfl, rfl⟩ := h
  rw [show s = s' from hs]

variable (Q ids) in
/-- The key is among those the query is made for. -/
def InReach (x : ((Text × DateTime × Text) × Text) × UsageValues) : Prop := Q.Asks (Q.key x.1) ∧ x.1.1.1 ∈ ids

variable (Q table ids query M) in
/-- The first save comes out right for an instance type: the first record found of its offer is unchanged and
its own values stand, or no record of the offer is unchanged and its own is found or was never entered. -/
def Savable (x : ((Text × DateTime × Text) × Text) × UsageValues) : Prop :=
  (FirstAgrees UsageExpense.place UsageExpense.values M.entries (existing ids query) x.1.1 ∧
      usageBalance table (Q.key x.1) = (1, x.2.costs)) ∨
    (NoneAgrees UsageExpense.place UsageExpense.values M.entries (existing ids query) x.1.1 ∧
      (usageBalance table (Q.key x.1) = 0 ∨ (usageBalance table (Q.key x.1)).1 = 1 ∧ InReach Q ids x))

variable (Q ids query M) in
/-- The same save over again changes nothing. -/
def SavableAgain (x : ((Text × DateTime × Text) × Text) × UsageValues) : Prop :=
  FirstAgrees UsageExpense.place UsageExpense.values M.entries (existing ids query) x.1.1 ∨
    (NoneAgrees UsageExpense.place UsageExpense.values M.entries (existing ids query) x.1.1 ∧ InReach Q ids x)

/-- What is found at a place of the map. -/
theorem exists_place_iff (hids : ids.Nodup) (hquery : Answers Q table ids query)
    {x : ((Text × DateTime × Text) × Text) × UsageValues} (hx : x ∈ M.entries) :
    (∃ e ∈ existing ids query, e.place = x.1) ↔ 0 < (usageBalance table (Q.key x.1)).1 ∧ InReach Q ids x := by
  have hmem := (selects_existing hids hquery).mem (Q.key x.1)
  have hkey : (∃ e ∈ existing ids query, e.place = x.1) ↔
      Q.key x.1 ∈ (existing ids query).map (UsageExpense.key Q.cloudAccountId Q.offerType) := by
    rw [List.mem_map]
    refine exists_congr fun e => and_congr_right fun _ => ⟨fun h => h ▸ rfl, fun h => ?_⟩
    exact place_of_key ⟨_, rfl⟩ (M.utc x hx) h
  rw [hkey, hmem]
  exact and_comm

/-- **One save.** -/
theorem renewed_iff (hsigned : Signed table) (hids : ids.Nodup) (hquery : Answers Q table ids query) :
    Renewed Q table (table ++ saveRispExpensesToCh Q query ids M expCost) M ↔
      ∀ x ∈ M.entries, Savable Q table ids query M x := by
  have hselects := selects_existing hids hquery
  have hkey : ∀ x ∈ M.entries, ∀ y ∈ M.entries, Q.key x.1 = Q.key y.1 → x.1 = y.1 :=
    fun x hx y hy h => place_of_key (M.utc x hx) (M.utc y hy) h
  have hplace : ((existing ids query).map UsageExpense.place).Nodup := by
    have hnodup := hselects.nodup
    rw [show UsageExpense.key Q.cloudAccountId Q.offerType = Q.key ∘ UsageExpense.place from rfl,
      ← List.map_map] at hnodup
    exact hnodup.of_map _
  have hfound : ∀ e ∈ existing ids query,
      balance (usageLedger table) (Q.key e.place) = (1, e.values.costs) :=
    fun e he => hselects.balance_eq hsigned he
  have hiff := renews_iff hkey M.nodup hplace hfound
  have hkept : ∀ k, (∀ x ∈ M.entries, Q.key x.1 ≠ k) →
      usageBalance (table ++ saveRispExpensesToCh Q query ids M expCost) k = usageBalance table k := by
    intro k hk
    rw [usageBalance_save]
    exact balance_batch_of_ne hk
  have hentered : Renewed Q table (table ++ saveRispExpensesToCh Q query ids M expCost) M ↔
      ∀ x ∈ M.entries, usageBalance (table ++ saveRispExpensesToCh Q query ids M expCost) (Q.key x.1) =
        (1, x.2.costs) :=
    ⟨fun h => h.entered, fun h => ⟨h, hkept⟩⟩
  simp only [usageBalance_save] at hentered
  refine hentered.trans (hiff.trans (forall₂_congr fun x hx => ?_))
  unfold Renewable Savable
  rw [exists_place_iff hids hquery hx]
  refine or_congr_right (and_congr_right fun _ => or_congr_right (and_congr_left fun _ => ?_))
  obtain hzero | hone := hsigned (Q.key x.1)
  · omega
  · omega

theorem Renewed.signed {after : List RiSpUsage} (h : Renewed Q table after M) (hsigned : Signed table) :
    Signed after := by
  intro k
  by_cases hk : ∃ x ∈ M.entries, Q.key x.1 = k
  · obtain ⟨x, hx, rfl⟩ := hk
    exact Or.inr (by rw [h.entered x hx])
  · rw [h.kept k fun x hx hkey => hk ⟨x, hx, hkey⟩]
    exact hsigned k

/-- A save that finds the new values in place changes nothing exactly when it renews them. -/
theorem Renewed.again_iff {before after : List RiSpUsage} (h : Renewed Q before table M) :
    (∀ k, usageBalance after k = usageBalance table k) ↔ Renewed Q table after M := by
  constructor
  · exact fun hsame => ⟨fun x hx => (hsame _).trans (h.entered x hx), fun k _ => hsame k⟩
  · intro hrenewed k
    by_cases hk : ∃ x ∈ M.entries, Q.key x.1 = k
    · obtain ⟨x, hx, rfl⟩ := hk
      rw [hrenewed.entered x hx, h.entered x hx]
    · exact hrenewed.kept k fun x hx hkey => hk ⟨x, hx, hkey⟩

theorem savable_of_entered {x : ((Text × DateTime × Text) × Text) × UsageValues}
    (h : usageBalance table (Q.key x.1) = (1, x.2.costs)) :
    Savable Q table ids query M x ↔ SavableAgain Q ids query M x := by
  unfold Savable SavableAgain
  rw [h]
  simp

variable (Q table ids query M expCost) in
/-- **A save and the same save over again**: the first renews what the map holds, and the second changes no net
value. -/
structure SavedTwice (query' : List Text → List UsageExpense) : Prop where
  first : Renewed Q table (table ++ saveRispExpensesToCh Q query ids M expCost) M
  again : ∀ k, usageBalance (table ++ saveRispExpensesToCh Q query ids M expCost ++
      saveRispExpensesToCh Q query' ids M expCost) k =
    usageBalance (table ++ saveRispExpensesToCh Q query ids M expCost) k

/-- **Saves come out right** exactly when each offer of the map is left alone or taken back as a whole. -/
theorem savedTwice_iff {query' : List Text → List UsageExpense} (hsigned : Signed table) (hids : ids.Nodup)
    (hquery : Answers Q table ids query)
    (hquery' : Answers Q (table ++ saveRispExpensesToCh Q query ids M expCost) ids query') :
    SavedTwice Q table ids query M expCost query' ↔
      ∀ x ∈ M.entries, Savable Q table ids query M x ∧ SavableAgain Q ids query' M x := by
  have hsplit : SavedTwice Q table ids query M expCost query' ↔
      Renewed Q table (table ++ saveRispExpensesToCh Q query ids M expCost) M ∧
        ∀ x ∈ M.entries, SavableAgain Q ids query' M x := by
    constructor
    · rintro ⟨hfirst, hagain⟩
      have hrenewed := hfirst.again_iff.mp hagain
      refine ⟨hfirst, fun x hx => ?_⟩
      exact (savable_of_entered (hfirst.entered x hx)).mp
        ((renewed_iff (hfirst.signed hsigned) hids hquery').mp hrenewed x hx)
    · rintro ⟨hfirst, hagain⟩
      refine ⟨hfirst, hfirst.again_iff.mpr ?_⟩
      refine (renewed_iff (hfirst.signed hsigned) hids hquery').mpr fun x hx => ?_
      exact (savable_of_entered (hfirst.entered x hx)).mpr (hagain x hx)
  rw [hsplit, renewed_iff hsigned hids hquery, ← forall₂_and]

end Save

/-! ## An instance that changes its type -/

namespace Resized

/-- Reservations of account `1`, on the first day. -/
def query : UsageQuery := ⟨1, .ri, 0, 86399⟩

/-- Half a day of instance `i` as an `m5.large`. -/
def row : RiSpUsage := ⟨1, ['i'], 0, ['l'], ['r'], .ri, 2, 1, 12, 4, 0, 0, 1⟩

/-- What is found of it. -/
def found : UsageExpense := ⟨['i'], .naive 0, ['l'], ['r'], 4, 0, 0, 1, 2, 12⟩

/-- The other half comes in later, as an `m5.xlarge`. -/
def newExpensesMap : NewExpenses where
  entries := [(((['i'], .utc 0, ['r']), ['l']), ⟨1, 2, 12, 4, 0⟩), (((['i'], .utc 0, ['r']), ['x']), ⟨2, 4, 12, 8, 0⟩)]
  nodup := by decide
  utc := by
    intro x hx
    simp only [List.mem_cons, List.not_mem_nil, or_false] at hx
    obtain rfl | rfl := hx
    · exact ⟨0, rfl⟩
    · exact ⟨0, rfl⟩

theorem usageBalance_row (k : UsageKey) : usageBalance [row] k = if row.key = k then (1, 1, 2, 12) else 0 := by
  have hledger : usageLedger [row] = row.toRow ::ₘ 0 := rfl
  rw [usageBalance, hledger]
  split
  · rename_i hk
    rw [show row.toRow = ⟨k, (1, 2, 12), 1⟩ by rw [← hk]; rfl, balance_cons_self]
    simp
  · rename_i hk
    rw [balance_cons_of_ne hk, balance_zero]

theorem signed_row : Signed [row] := by
  intro k
  rw [usageBalance_row]
  split
  · exact Or.inr rfl
  · exact Or.inl rfl

theorem answers_row : Answers query [row] [['i']] fun _ => [found] := by
  intro chunk hchunk
  rw [Chunks.toChunks_of_le (by decide) (List.cons_ne_nil _ _), List.mem_singleton] at hchunk
  subst hchunk
  refine ⟨⟨List.nodup_singleton _, fun k => ?_, fun e he => ?_⟩, ?_, ?_, ?_⟩
  · change k ∈ [row.key] ↔ (query.Asks k ∧ k.resourceId ∈ [['i']]) ∧ 0 < (usageBalance [row] k).1
    rw [usageBalance_row, List.mem_singleton]
    split
    · rename_i hk
      subst hk
      simp [query, UsageQuery.Asks, row, RiSpUsage.key]
    · rename_i hk
      exact iff_of_false (fun h => hk h.symm) fun h => lt_irrefl _ h.2
  · obtain rfl := List.mem_singleton.mp he
    have hbalance := usageBalance_row row.key
    rw [if_pos rfl] at hbalance
    exact congrArg Prod.snd hbalance
  all_goals
    intro e he
    obtain rfl := List.mem_singleton.mp he
    exact ⟨row, List.mem_singleton_self _, rfl, rfl⟩

/-- The first half alone. -/
def unchangedMap : NewExpenses where
  entries := [(((['i'], .utc 0, ['r']), ['l']), ⟨1, 2, 12, 4, 0⟩)]
  nodup := by decide
  utc := by
    intro x hx
    obtain rfl := List.mem_singleton.mp hx
    exact ⟨0, rfl⟩

theorem save_unchanged :
    saveRispExpensesToCh query (fun _ => [found]) [['i']] unchangedMap (fun _ _ => none) = [] := by
  decide +kernel

theorem firstAgrees_unchanged : FirstAgrees UsageExpense.place UsageExpense.values unchangedMap.entries
    (existing [['i']] fun _ => [found]) (['i'], .utc 0, ['r']) :=
  ⟨found, by decide +kernel, rfl⟩

theorem save_eq_nil : saveRispExpensesToCh query (fun _ => [found]) [['i']] newExpensesMap (fun _ _ => none) = [] := by
  decide +kernel

end Resized

/-- An unchanged instance alone is left alone. -/
theorem unchanged_savedTwice : SavedTwice Resized.query [Resized.row] [['i']] (fun _ => [Resized.found])
    Resized.unchangedMap (fun _ _ => none) fun _ => [Resized.found] := by
  refine (savedTwice_iff Resized.signed_row (List.nodup_singleton _) Resized.answers_row ?_).mpr fun x hx => ?_
  · rw [Resized.save_unchanged]
    exact Resized.answers_row
  · obtain rfl := List.mem_singleton.mp hx
    exact ⟨Or.inl ⟨Resized.firstAgrees_unchanged, (Resized.usageBalance_row _).trans (if_pos rfl)⟩,
      Or.inl Resized.firstAgrees_unchanged⟩

/-- The unchanged half takes the new one out of the map, which is not entered. -/
theorem resized_not_entered : Signed [Resized.row] ∧ List.Nodup [['i']] ∧
    Answers Resized.query [Resized.row] [['i']] (fun _ => [Resized.found]) ∧
    ∀ query', ¬ SavedTwice Resized.query [Resized.row] [['i']] (fun _ => [Resized.found]) Resized.newExpensesMap
      (fun _ _ => none) query' := by
  refine ⟨Resized.signed_row, List.nodup_singleton _, Resized.answers_row, fun query' h => ?_⟩
  have hentered := h.first.entered _ (List.mem_cons_of_mem _ List.mem_cons_self)
  rw [Resized.save_eq_nil, List.append_nil, Resized.usageBalance_row, if_neg (by decide)] at hentered
  exact absurd (congrArg Prod.fst hentered) (by decide)

end RispProcessorBase
