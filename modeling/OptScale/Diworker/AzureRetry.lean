import OptScale.Diworker.AzureUsage

/-!
# Diworker/AzureRetry — what a repeated load leaves

A row that is written again has a record of its own number, but as long as there are records of
other imports with its unique fields it may match one of these, and then it has two records.  A record
of another import keeps the update fields that the row does not have.  Records of one key are followed
through the attempts as what is left of the old ones and what is written (`Split`); `exact_iff` says
when every load is exact.
-/

open Upserts Chunks

namespace AzureApiImporter

variable {V : Type}

/-! ## The conditions -/

/-- The old records of a key are used up by the first attempt that writes a row of the key. -/
def Spends (old : ℕ) : List ℕ → Prop
  | [] => True
  | c :: cs => if c = 0 then Spends old cs else old ≤ c

/-- The rows that can match an old record of their key have all update fields that it has. -/
def Overwrites (K : List (UsageRow V)) (old : Multiset (UsageRecord V)) : Prop :=
  ∀ i, ∀ hi : i < K.length, i < old.card → ∀ d ∈ old, ∀ f, (d.values f).isSome →
    (K[i].values f).isSome

/-! ## One key -/

/-- The rows of a key, in one import, and the old records of the key. -/
structure OneKey (k : UsageKey) (R : ℤ) (K : List (UsageRow V)) (old : Multiset (UsageRecord V)) :
    Prop where
  key : ∀ r ∈ K, r.unique = k
  identity : ∀ r ∈ K, r.reportIdentity = R
  numbered : (K.map UsageRow.recN).Nodup
  oldKey : ∀ d ∈ old, d.unique = k
  oldIdentity : ∀ d ∈ old, d.reportIdentity ≠ some R

/-- After the first `s` rows: what is left of the old records, and what is written. -/
structure Split (k : UsageKey) (R : ℤ) (K : List (UsageRow V)) (old : Multiset (UsageRecord V))
    (s : ℕ) (left written : Multiset (UsageRecord V)) : Prop where
  le : left ≤ old
  card : left.card = old.card - s
  numbers : written.map UsageRecord.recN = ↑((K.take s).map fun r => some r.recN)
  own : ∀ p ∈ written, p.unique = k ∧ p.reportIdentity = some R
  exact : Overwrites K old → written = ↑((K.take s).map UsageRow.record)

section OneKey

variable {k : UsageKey} {R : ℤ} {K : List (UsageRow V)} {old left written : Multiset (UsageRecord V)}
  {s i : ℕ} {d p : UsageRecord V} {r : UsageRow V} {docs docs' : Multiset (UsageRecord V)}

/-- What a row overwrites whole is its own record. -/
theorem setFields_eq_record (hkey : d.unique = r.unique)
    (h : ∀ f, (d.values f).isSome → (r.values f).isSome) : setFields r d = r.record := by
  have hvalues : (fun f => (r.values f).or (d.values f)) = r.values := by
    funext f
    cases hr : r.values f with
    | some v => rfl
    | none =>
      cases hd : d.values f with
      | none => rfl
      | some v =>
        have := h f (by rw [hd]; rfl)
        rw [hr] at this
        cases this
  rw [setFields, UsageRow.record, hkey, hvalues]

theorem take_succ_map {α : Type} (hs : s < K.length) (g : UsageRow V → α) :
    ((↑((K.take (s + 1)).map g) : Multiset α)) = g K[s] ::ₘ ↑((K.take s).map g) := by
  rw [List.take_succ_eq_append_getElem hs, List.map_append, ← Multiset.coe_add, add_comm]
  rfl

theorem split_start (old : Multiset (UsageRecord V)) : Split k R K old 0 old 0 where
  le := le_rfl
  card := rfl
  numbers := by simp
  own _ hp := absurd hp (Multiset.notMem_zero _)
  exact _ := by simp

/-- **A new row** takes an old record. -/
theorem Split.claim (hK : OneKey k R K old) (hs : s < K.length)
    (h : Split k R K old s (d ::ₘ left) written) :
    Split k R K old (s + 1) left (setFields K[s] d ::ₘ written) := by
  have hold : d ∈ old := Multiset.mem_of_le h.le (Multiset.mem_cons_self _ _)
  have hcard := h.card
  rw [Multiset.card_cons] at hcard
  refine ⟨(Multiset.le_cons_self _ _).trans h.le, by omega, ?_, ?_, fun hover => ?_⟩
  · rw [Multiset.map_cons, h.numbers, take_succ_map hs]
    rfl
  · rintro p hp
    rcases Multiset.mem_cons.mp hp with rfl | hp
    · exact ⟨hK.oldKey d hold, congrArg some (hK.identity _ (List.getElem_mem hs))⟩
    · exact h.own p hp
  · have hset : setFields K[s] d = K[s].record :=
      setFields_eq_record ((hK.oldKey d hold).trans (hK.key _ (List.getElem_mem hs)).symm)
        (hover s hs (by omega) d hold)
    rw [h.exact hover, take_succ_map hs, hset]

/-- **A new row** is inserted when no old record is left. -/
theorem Split.insert (hK : OneKey k R K old) (hs : s < K.length)
    (h : Split k R K old s 0 written) :
    Split k R K old (s + 1) 0 (K[s].record ::ₘ written) := by
  have hcard := h.card
  rw [Multiset.card_zero] at hcard
  refine ⟨h.le, by rw [Multiset.card_zero]; omega, ?_, ?_, fun hover => ?_⟩
  · rw [Multiset.map_cons, h.numbers, take_succ_map hs]
    rfl
  · rintro p hp
    rcases Multiset.mem_cons.mp hp with rfl | hp
    · exact ⟨hK.key _ (List.getElem_mem hs), congrArg some (hK.identity _ (List.getElem_mem hs))⟩
    · exact h.own p hp
  · rw [h.exact hover, take_succ_map hs]

/-- A record that is written has the number of its row. -/
theorem eq_record (hK : OneKey k R K old) (hi : i < K.length)
    (hp : p ∈ (↑((K.take s).map UsageRow.record) : Multiset (UsageRecord V)))
    (hn : p.recN = some K[i].recN) : p = K[i].record := by
  obtain ⟨r, hr, rfl⟩ := List.mem_map.mp (Multiset.mem_coe.mp hp)
  rw [List.inj_on_of_nodup_map hK.numbered (List.mem_of_mem_take hr) (List.getElem_mem hi)
    (Option.some.inj hn)]

/-- **A row written again** updates its own record. -/
theorem Split.rewrite (hK : OneKey k R K old) (hi : i < K.length)
    (hn : p.recN = some K[i].recN) (h : Split k R K old s left (p ::ₘ written)) :
    Split k R K old s left (setFields K[i] p ::ₘ written) := by
  have hown := h.own p (Multiset.mem_cons_self _ _)
  refine ⟨h.le, h.card, ?_, ?_, fun hover => ?_⟩
  · rw [← h.numbers, Multiset.map_cons, Multiset.map_cons, hn]
    rfl
  · intro q hq
    rcases Multiset.mem_cons.mp hq with rfl | hq
    · exact ⟨hown.1, congrArg some (hK.identity _ (List.getElem_mem hi))⟩
    · exact h.own q (Multiset.mem_cons_of_mem hq)
  · have hexact := h.exact hover
    have hp : p = K[i].record :=
      eq_record hK hi (hexact ▸ Multiset.mem_cons_self _ _) hn
    rw [← hexact, setFields_eq_record (hown.1.trans (hK.key _ (List.getElem_mem hi)).symm)
      (fun f hf => by rw [hp] at hf; exact hf), ← hp]

/-- The records of a key after the first `s` rows. -/
def After (k : UsageKey) (R : ℤ) (K : List (UsageRow V)) (old : Multiset (UsageRecord V)) (s : ℕ)
    (docs : Multiset (UsageRecord V)) : Prop :=
  ∃ left written, docs = left + written ∧ Split k R K old s left written

/-- A record of the numbers written belongs to one of the first rows. -/
theorem Split.number_mem (h : Split k R K old s left written) (hp : p ∈ written) :
    ∃ r ∈ K.take s, p.recN = some r.recN := by
  have hmem : p.recN ∈ written.map UsageRecord.recN := Multiset.mem_map_of_mem _ hp
  rw [h.numbers] at hmem
  obtain ⟨r, hr, heq⟩ := List.mem_map.mp (Multiset.mem_coe.mp hmem)
  exact ⟨r, hr, heq.symm⟩

/-- A row that is written has a record of its own. -/
theorem Split.exists_own (h : Split k R K old s left written) (hi : i < K.length) (his : i < s) :
    ∃ p ∈ written, p.recN = some K[i].recN := by
  have hmem : some K[i].recN ∈ written.map UsageRecord.recN := by
    rw [h.numbers]
    refine Multiset.mem_coe.mpr (List.mem_map.mpr ⟨K[i], ?_, rfl⟩)
    exact List.mem_take_iff_getElem.mpr ⟨i, by omega, rfl⟩
  exact Multiset.mem_map.mp hmem

theorem not_mem_take (hK : OneKey k R K old) (hs : s < K.length) (hr : r ∈ K.take s) :
    r.recN ≠ K[s].recN := by
  intro hn
  obtain rfl := List.inj_on_of_nodup_map hK.numbered (List.mem_of_mem_take hr)
    (List.getElem_mem hs) hn
  obtain ⟨j, hj, hjs⟩ := List.mem_take_iff_getElem.mp hr
  have := (List.Nodup.getElem_inj_iff (List.Nodup.of_map _ hK.numbered)).mp hjs
  omega

/-- **One write of a new row.** -/
theorem After.new (hK : OneKey k R K old) (hs : s < K.length) (h : After k R K old s docs)
    (hone : UpdateOne (upsert V) K[s] docs docs') : After k R K old (s + 1) docs' := by
  obtain ⟨left, written, hdocs, h⟩ := h
  rcases hone with ⟨hmatch⟩ | hnone
  · rename_i d rest
    have hd : d ∈ left + written := hdocs ▸ Multiset.mem_cons_self _ _
    rcases Multiset.mem_add.mp hd with hd | hd
    · obtain ⟨left', rfl⟩ := Multiset.exists_cons_of_mem hd
      rw [Multiset.cons_add, Multiset.cons_inj_right] at hdocs
      exact ⟨left', _, by rw [hdocs, Multiset.add_cons]; rfl, h.claim hK hs⟩
    · obtain ⟨r, hr, hn⟩ := h.number_mem hd
      rcases hmatch.2 with hR | hn'
      · exact absurd ((h.own d hd).2.trans (congrArg some (hK.identity _ (List.getElem_mem hs)).symm))
          hR
      · exact absurd (Option.some.inj (hn.symm.trans hn')) (not_mem_take hK hs hr)
  · have hleft : left = 0 := by
      refine Multiset.eq_zero_of_forall_notMem fun d hd => hnone d ?_ ?_
      · rw [hdocs]
        exact Multiset.mem_add.mpr (Or.inl hd)
      · have hold := Multiset.mem_of_le h.le hd
        refine ⟨(hK.oldKey d hold).trans (hK.key _ (List.getElem_mem hs)).symm, Or.inl ?_⟩
        rw [hK.identity _ (List.getElem_mem hs)]
        exact hK.oldIdentity d hold
    subst hleft
    exact ⟨0, _, by rw [hdocs, Multiset.add_cons]; rfl, h.insert hK hs⟩

/-- **One write of a row again**, when no old record is left. -/
theorem After.again (hK : OneKey k R K old) (hi : i < K.length) (his : i < s) (hold : old.card ≤ s)
    (h : After k R K old s docs) (hone : UpdateOne (upsert V) K[i] docs docs') :
    After k R K old s docs' := by
  obtain ⟨left, written, hdocs, h⟩ := h
  have hleft : left = 0 := Multiset.card_eq_zero.mp (h.card.trans (by omega))
  subst hleft
  rw [zero_add] at hdocs
  obtain ⟨q, hq, hqn⟩ := h.exists_own hi his
  rcases hone with ⟨hmatch⟩ | hnone
  · rename_i d rest
    subst hdocs
    have hn : d.recN = some K[i].recN := by
      refine hmatch.2.resolve_left fun hR => hR ?_
      rw [hK.identity _ (List.getElem_mem hi)]
      exact (h.own d (Multiset.mem_cons_self _ _)).2
    exact ⟨0, _, (zero_add _).symm, h.rewrite hK hi hn⟩
  · exact absurd ⟨(h.own q hq).1.trans (hK.key _ (List.getElem_mem hi)).symm, Or.inr hqn⟩
      (hnone q (hdocs ▸ hq))

/-- **An attempt** writes the first `c` rows. -/
theorem After.attempt (hK : OneKey k R K old) (h : After k R K old s docs)
    (hspent : s = 0 ∨ old.card ≤ s) : ∀ {c : ℕ} {docs' : Multiset (UsageRecord V)}, c ≤ K.length →
    Writes (upsert V) (K.take c) docs docs' → After k R K old (max s c) docs' := by
  intro c
  induction c with
  | zero =>
    rintro docs' - hw
    rw [List.take_zero] at hw
    obtain _ | _ := hw
    rwa [Nat.max_zero]
  | succ c ih =>
    intro docs' hc hw
    rw [List.take_succ_eq_append_getElem hc] at hw
    obtain ⟨docs₁, hw₁, hw₂⟩ := writes_append.mp hw
    have h₁ := ih (by omega) hw₁
    obtain _ | ⟨hone, hnil⟩ := hw₂
    obtain _ | _ := hnil
    by_cases hcs : c < s
    · rw [max_eq_left hcs.le] at h₁
      rw [max_eq_left hcs]
      exact h₁.again hK (by omega) hcs (hspent.resolve_left (by omega)) hone
    · rw [max_eq_right (not_lt.mp hcs)] at h₁
      rw [max_eq_right (by omega)]
      exact h₁.new hK (by omega) hone

/-- The attempts on the rows of a key: each writes some of the first rows, the last one writes all. -/
inductive KeyLoad (K : List (UsageRow V)) :
    List ℕ → Multiset (UsageRecord V) → Multiset (UsageRecord V) → Prop
  | succeed {docs docs' : Multiset (UsageRecord V)} (h : Writes (upsert V) K docs docs') : KeyLoad K [] docs docs'
  | fail {c : ℕ} {cs : List ℕ} {docs docs₁ docs' : Multiset (UsageRecord V)}
    (h : Writes (upsert V) (K.take c) docs docs₁) (hrest : KeyLoad K cs docs₁ docs') : KeyLoad K (c :: cs) docs docs'

/-- **All attempts**, if the first that writes a row of the key uses up the old records. -/
theorem KeyLoad.after (hK : OneKey k R K old) {cs : List ℕ} (h : KeyLoad K cs docs docs') :
    ∀ {s : ℕ}, After k R K old s docs → s ≤ K.length → (∀ c ∈ cs, c ≤ K.length) →
    (old.card ≤ s ∨ s = 0 ∧ Spends old.card cs) → After k R K old K.length docs' := by
  induction h with
  | succeed h =>
    intro s hs hsK _ hspent
    have hafter := hs.attempt hK (by tauto) le_rfl (by rwa [List.take_length])
    rwa [max_eq_right hsK] at hafter
  | fail h _ ih =>
    rename_i c cs _ _ _ _
    intro s hs hsK hcs hspent
    have hc := hcs c List.mem_cons_self
    refine ih (hs.attempt hK (by tauto) hc h) (max_le hsK hc)
      (fun c' hc' => hcs c' (List.mem_cons_of_mem _ hc')) ?_
    rcases hspent with hspent | ⟨rfl, hspent⟩
    · exact Or.inl (hspent.trans (le_max_left _ _))
    · unfold Spends at hspent
      split at hspent
      · rename_i hzero
        exact Or.inr ⟨by rw [hzero]; rfl, hspent⟩
      · exact Or.inl (hspent.trans (le_max_right _ _))

/-! ## Records too many -/

/-- The records of the import. -/
def own (R : ℤ) (docs : Multiset (UsageRecord V)) : Multiset (UsageRecord V) :=
  docs.filter fun d => d.reportIdentity = some R

/-- There are more records of the import than numbers they have. -/
def TooMany (R : ℤ) (N : Finset ℕ) (docs : Multiset (UsageRecord V)) : Prop :=
  (∀ d ∈ own R docs, ∃ n ∈ N, d.recN = some n) ∧ N.card < (own R docs).card

theorem own_cons {rest : Multiset (UsageRecord V)} (h : d.reportIdentity = some R) :
    own R (d ::ₘ rest) = d ::ₘ own R rest :=
  Multiset.filter_cons_of_pos (p := fun d : UsageRecord V => d.reportIdentity = some R) rest h

theorem own_cons_of_ne {rest : Multiset (UsageRecord V)} (h : d.reportIdentity ≠ some R) :
    own R (d ::ₘ rest) = own R rest :=
  Multiset.filter_cons_of_neg (p := fun d : UsageRecord V => d.reportIdentity = some R) rest h

/-- **There stay too many.** -/
theorem TooMany.updateOne {N : Finset ℕ} (hR : r.reportIdentity = R) (h : TooMany R N docs)
    (hone : UpdateOne (upsert V) r docs docs') : TooMany R (insert r.recN N) docs' := by
  obtain ⟨hnumbers, hcard⟩ := h
  have hnew : ∀ d' ∈ own R docs, ∃ n ∈ insert r.recN N, d'.recN = some n := by
    intro d' hd'
    obtain ⟨n, hn, heq⟩ := hnumbers d' hd'
    exact ⟨n, Finset.mem_insert_of_mem hn, heq⟩
  have hfew : (insert r.recN N).card ≤ N.card + 1 := Finset.card_insert_le _ _
  rcases hone with ⟨hmatch⟩ | hnone
  · rename_i d rest
    have hset : own R (setFields r d ::ₘ rest) = setFields r d ::ₘ own R rest :=
      own_cons (congrArg some hR)
    change TooMany R _ (setFields r d ::ₘ rest)
    rw [TooMany, hset]
    by_cases hd : d.reportIdentity = some R
    · rw [own_cons hd] at hnew hcard hnumbers
      have hn : d.recN = some r.recN := hmatch.2.resolve_left fun hne => hne (hR ▸ hd)
      obtain ⟨n, hnN, hnd⟩ := hnumbers d (Multiset.mem_cons_self _ _)
      obtain rfl := Option.some.inj (hn.symm.trans hnd)
      rw [Finset.insert_eq_of_mem hnN] at hnew ⊢
      refine ⟨fun d' hd' => ?_, by rw [Multiset.card_cons] at hcard ⊢; exact hcard⟩
      rcases Multiset.mem_cons.mp hd' with rfl | hd'
      · exact ⟨_, hnN, rfl⟩
      · exact hnew d' (Multiset.mem_cons_of_mem hd')
    · rw [own_cons_of_ne hd] at hnew hcard
      refine ⟨fun d' hd' => ?_, by rw [Multiset.card_cons]; omega⟩
      rcases Multiset.mem_cons.mp hd' with rfl | hd'
      · exact ⟨_, Finset.mem_insert_self _ _, rfl⟩
      · exact hnew d' hd'
  · have hrecord : own R (r.record ::ₘ docs) = r.record ::ₘ own R docs :=
      own_cons (congrArg some hR)
    change TooMany R _ (r.record ::ₘ docs)
    rw [TooMany, hrecord]
    refine ⟨fun d' hd' => ?_, by rw [Multiset.card_cons]; omega⟩
    rcases Multiset.mem_cons.mp hd' with rfl | hd'
    · exact ⟨_, Finset.mem_insert_self _ _, rfl⟩
    · exact hnew d' hd'

/-- The numbers of rows. -/
def numbersOf (K : List (UsageRow V)) : Finset ℕ := (K.map UsageRow.recN).toFinset

theorem numbersOf_take (K : List (UsageRow V)) (c : ℕ) : numbersOf (K.take c) ⊆ numbersOf K := by
  intro n hn
  obtain ⟨r, hr, rfl⟩ := List.mem_map.mp (List.mem_toFinset.mp hn)
  exact List.mem_toFinset.mpr (List.mem_map_of_mem (List.mem_of_mem_take hr))

theorem TooMany.writes {K : List (UsageRow V)} (hw : Writes (upsert V) K docs docs') :
    ∀ {N : Finset ℕ}, (∀ r ∈ K, r.reportIdentity = R) → TooMany R N docs →
    TooMany R (N ∪ numbersOf K) docs' := by
  induction hw with
  | nil =>
    intro N _ h
    simpa [numbersOf] using h
  | cons hone _ ih =>
    rename_i r rows _ _ _ _
    intro N hR h
    have hrest := ih (fun r' hr' => hR r' (List.mem_cons_of_mem _ hr'))
      (h.updateOne (hR r List.mem_cons_self) hone)
    have hunion : insert r.recN N ∪ numbersOf rows = N ∪ numbersOf (r :: rows) := by
      rw [numbersOf, numbersOf, List.map_cons, List.toFinset_cons, Finset.insert_union,
        Finset.union_insert]
    rwa [hunion] at hrest

/-- Loading goes on, whatever the attempts are. -/
theorem exists_keyLoad (K : List (UsageRow V)) (cs : List ℕ) : ∀ docs : Multiset (UsageRecord V),
    ∃ docs', KeyLoad K cs docs docs' := by
  induction cs with
  | nil =>
    intro docs
    obtain ⟨docs', h⟩ := exists_writes (upsert V) K docs
    exact ⟨docs', .succeed h⟩
  | cons c cs ih =>
    intro docs
    obtain ⟨docs₁, h⟩ := exists_writes (upsert V) (K.take c) docs
    obtain ⟨docs', hrest⟩ := ih docs₁
    exact ⟨docs', .fail h hrest⟩

/-- **There are too many in the end.** -/
theorem TooMany.load {cs : List ℕ} (hR : ∀ r ∈ K, r.reportIdentity = R)
    (h : KeyLoad K cs docs docs') : ∀ {N : Finset ℕ}, N ⊆ numbersOf K → TooMany R N docs →
    (numbersOf K).card < (own R docs').card := by
  induction h with
  | succeed hw =>
    intro N hN h
    have hafter := h.writes hw hR
    rw [Finset.union_eq_right.mpr hN] at hafter
    exact hafter.2
  | fail hw _ ih =>
    rename_i c _ _ _ _ _
    intro N hN h
    exact ih (Finset.union_subset hN (numbersOf_take K c))
      (h.writes hw fun r hr => hR r (List.mem_of_mem_take hr))

theorem own_old (hK : OneKey k R K old) (h : left ≤ old) : own R left = 0 :=
  Multiset.filter_eq_nil.mpr fun d hd => hK.oldIdentity d (Multiset.mem_of_le h hd)

theorem own_written (h : ∀ p ∈ written, p.unique = k ∧ p.reportIdentity = some R) :
    own R written = written :=
  Multiset.filter_eq_self.mpr fun p hp => (h p hp).2

/-- **A row written again may match an old record**, as long as there is one. -/
theorem exists_first_again {rows : List (UsageRow V)} (hK : OneKey k R (r :: rows) old)
    (h : After k R (r :: rows) old s docs) (hs : 0 < s) (hleft : s < old.card) :
    ∃ docs₁, UpdateOne (upsert V) r docs docs₁ ∧
      TooMany R (numbersOf ((r :: rows).take s)) docs₁ := by
  obtain ⟨left, written, rfl, h⟩ := h
  have hcard := h.card
  obtain ⟨d, hd⟩ := Multiset.card_pos_iff_exists_mem.mp (by omega : 0 < left.card)
  obtain ⟨left', rfl⟩ := Multiset.exists_cons_of_mem hd
  have hold : d ∈ old := Multiset.mem_of_le h.le hd
  have hmatch : Matches r d := ⟨(hK.oldKey d hold).trans (hK.key r List.mem_cons_self).symm,
    Or.inl (by rw [hK.identity r List.mem_cons_self]; exact hK.oldIdentity d hold)⟩
  refine ⟨setFields r d ::ₘ (left' + written), ?_, ?_⟩
  · rw [Multiset.cons_add]
    exact UpdateOne.update (U := upsert V) hmatch
  · have hown : own R (setFields r d ::ₘ (left' + written)) = setFields r d ::ₘ written := by
      rw [own_cons (congrArg some (hK.identity r List.mem_cons_self))]
      refine congrArg _ ((Multiset.filter_add _ _ _).trans ?_)
      exact (congrArg₂ _ (own_old hK ((Multiset.le_cons_self _ _).trans h.le))
        (own_written h.own)).trans (zero_add _)
    have hwritten : written.card = ((r :: rows).take s).length := by
      rw [← Multiset.card_map UsageRecord.recN, h.numbers, Multiset.coe_card, List.length_map]
    have hnumbers : (numbersOf ((r :: rows).take s)).card ≤ ((r :: rows).take s).length :=
      (List.toFinset_card_le _).trans (List.length_map _).le
    have hmem : ∀ r' ∈ (r :: rows).take s, r'.recN ∈ numbersOf ((r :: rows).take s) :=
      fun r' hr' => List.mem_toFinset.mpr (List.mem_map_of_mem hr')
    rw [TooMany, hown]
    refine ⟨fun p hp => ?_, by rw [Multiset.card_cons]; omega⟩
    rcases Multiset.mem_cons.mp hp with rfl | hp
    · refine ⟨r.recN, hmem r ?_, rfl⟩
      obtain ⟨s, rfl⟩ := Nat.exists_eq_succ_of_ne_zero hs.ne'
      exact List.mem_cons_self
    · obtain ⟨r', hr', hn⟩ := h.number_mem hp
      exact ⟨r'.recN, hmem r' hr', hn⟩

/-- Old records that an attempt has left over may be matched by the next one. -/
theorem exists_leftover {rows : List (UsageRow V)} (hK : OneKey k R (r :: rows) old) (hs : 0 < s)
    (hleft : s < old.card) (cs : List ℕ) : ∀ {docs : Multiset (UsageRecord V)},
    After k R (r :: rows) old s docs → ∃ docs', KeyLoad (r :: rows) cs docs docs' ∧
      (numbersOf (r :: rows)).card < (own R docs').card := by
  have hrR := hK.identity
  induction cs with
  | nil =>
    intro docs h
    obtain ⟨docs₁, hone, htoo⟩ := exists_first_again hK h hs hleft
    obtain ⟨docs', hrest⟩ := exists_writes (upsert V) rows docs₁
    refine ⟨docs', .succeed (.cons hone hrest), lt_of_le_of_lt (Finset.card_le_card ?_)
      (htoo.writes hrest fun r' hr' => hrR r' (List.mem_cons_of_mem _ hr')).2⟩
    intro n hn
    rw [numbersOf, List.map_cons, List.toFinset_cons, Finset.mem_insert] at hn
    rcases hn with rfl | hn
    · obtain ⟨s, rfl⟩ := Nat.exists_eq_succ_of_ne_zero hs.ne'
      exact Finset.mem_union_left _ (List.mem_toFinset.mpr (List.mem_map_of_mem List.mem_cons_self))
    · exact Finset.mem_union_right _ hn
  | cons c cs ih =>
    intro docs h
    cases c with
    | zero =>
      obtain ⟨docs', hload, htoo⟩ := ih h
      exact ⟨docs', .fail .nil hload, htoo⟩
    | succ c =>
      obtain ⟨docs₁, hone, htoo⟩ := exists_first_again hK h hs hleft
      obtain ⟨docs₂, hrest⟩ := exists_writes (upsert V) (rows.take c) docs₁
      obtain ⟨docs', hload⟩ := exists_keyLoad (r :: rows) cs docs₂
      have hafter := htoo.writes hrest fun r' hr' =>
        hrR r' (List.mem_cons_of_mem _ (List.mem_of_mem_take hr'))
      refine ⟨docs', .fail (.cons hone hrest) hload, TooMany.load hrR hload ?_ hafter⟩
      refine Finset.union_subset (numbersOf_take _ _) fun n hn => ?_
      have hn := numbersOf_take _ _ hn
      rw [numbersOf, List.map_cons, List.toFinset_cons]
      exact Finset.mem_insert_of_mem hn

/-- **A load that does not use up the old records** may leave too many. -/
theorem exists_tooMany (hK : OneKey k R K old) (cs : List ℕ) : (∀ c ∈ cs, c ≤ K.length) →
    ¬ Spends old.card cs → ∃ docs', KeyLoad K cs old docs' ∧
      (numbersOf K).card < (own R docs').card := by
  induction cs with
  | nil => exact fun _ h => absurd trivial h
  | cons c cs ih =>
    intro hcs h
    unfold Spends at h
    split at h
    · rename_i hzero
      subst hzero
      obtain ⟨docs', hload, htoo⟩ := ih (fun c hc => hcs c (List.mem_cons_of_mem _ hc)) h
      exact ⟨docs', .fail (by rw [List.take_zero]; exact .nil) hload, htoo⟩
    · rename_i hpos
      have hc := hcs c List.mem_cons_self
      obtain ⟨docs₁, hw⟩ := exists_writes (upsert V) (K.take c) old
      have hstart : After k R K old 0 old := ⟨old, 0, (add_zero _).symm, split_start old⟩
      have hafter := hstart.attempt hK (Or.inl rfl) hc hw
      rw [Nat.zero_max] at hafter
      cases K with
      | nil => exact absurd (Nat.le_zero.mp hc) hpos
      | cons r rows =>
        obtain ⟨docs', hload, htoo⟩ := exists_leftover hK (Nat.pos_of_ne_zero hpos)
          (not_le.mp h) cs hafter
        exact ⟨docs', .fail hw hload, htoo⟩

/-! ## Fields that stay -/

/-- The old record is kept for the row, which leaves one of its fields as it is. -/
def Kept (k : UsageKey) (R : ℤ) (K : List (UsageRow V)) (old : Multiset (UsageRecord V))
    (d : UsageRecord V) (f : UsageField) (i n : ℕ) (s : ℕ) (docs : Multiset (UsageRecord V)) : Prop :=
  ∃ left written, docs = left + written ∧ Split k R K old s left written ∧ (s ≤ i → d ∈ left) ∧
    (i < s → ∃ p ∈ written, p.recN = some n ∧ (p.values f).isSome)

theorem matches_old (hK : OneKey k R K old) (hr : r ∈ K) (hd : d ∈ old) : Matches r d :=
  ⟨(hK.oldKey d hd).trans (hK.key r hr).symm, Or.inl (by
    rw [hK.identity r hr]
    exact hK.oldIdentity d hd)⟩

/-- **A new row** may leave the old record for its row, or is that row. -/
theorem Kept.exists_new {f : UsageField} (hK : OneKey k R K old) (hi : i < K.length)
    (hiold : i < old.card) (hd : (d.values f).isSome) (hs : s < K.length)
    (h : Kept k R K old d f i K[i].recN s docs) :
    ∃ docs', UpdateOne (upsert V) K[s] docs docs' ∧ Kept k R K old d f i K[i].recN (s + 1) docs' := by
  obtain ⟨left, written, rfl, h, hleft, hwritten⟩ := h
  have hmem := List.getElem_mem hs
  have hclaim : ∀ e left', left = e ::ₘ left' → ∃ docs', UpdateOne (upsert V) K[s] (left + written) docs' ∧
      docs' = left' + (setFields K[s] e ::ₘ written) := by
    rintro e left' rfl
    have he : e ∈ old := Multiset.mem_of_le h.le (Multiset.mem_cons_self _ _)
    refine ⟨_, ?_, rfl⟩
    rw [Multiset.cons_add, Multiset.add_cons]
    exact UpdateOne.update (U := upsert V) (matches_old hK hmem he)
  rcases lt_trichotomy s i with hsi | rfl | hsi
  · -- another old record is there for this row
    obtain ⟨left', rfl⟩ := Multiset.exists_cons_of_mem (hleft hsi.le)
    have hcard := h.card
    rw [Multiset.card_cons] at hcard
    obtain ⟨e, he⟩ := Multiset.card_pos_iff_exists_mem.mp (by omega : 0 < left'.card)
    obtain ⟨left'', rfl⟩ := Multiset.exists_cons_of_mem he
    rw [Multiset.cons_swap] at h hclaim
    obtain ⟨docs', hone, rfl⟩ := hclaim e (d ::ₘ left'') rfl
    rw [Multiset.cons_swap]
    exact ⟨_, hone, _, _, rfl, h.claim hK hs, fun _ => Multiset.mem_cons_self _ _,
      fun his => absurd his (by omega)⟩
  · obtain ⟨left', rfl⟩ := Multiset.exists_cons_of_mem (hleft le_rfl)
    obtain ⟨docs', hone, rfl⟩ := hclaim d left' rfl
    refine ⟨_, hone, _, _, rfl, h.claim hK hs, fun his => absurd his (by omega), fun _ =>
      ⟨_, Multiset.mem_cons_self _ _, rfl, ?_⟩⟩
    change ((K[s].values f).or (d.values f)).isSome
    rw [Option.isSome_or, hd, Bool.or_true]
  · obtain ⟨p, hp, hpn, hpf⟩ := hwritten hsi
    have hkept : ∀ {q : UsageRecord V}, ∃ p ∈ q ::ₘ written, p.recN = some K[i].recN ∧
        (p.values f).isSome := fun {q} => ⟨p, Multiset.mem_cons_of_mem hp, hpn, hpf⟩
    rcases Multiset.empty_or_exists_mem left with rfl | ⟨e, he⟩
    · rw [zero_add]
      refine ⟨_, .insert fun q hq hmatch => ?_, 0, _, (zero_add _).symm, h.insert hK hs,
        fun his => absurd his (by omega), fun _ => hkept⟩
      obtain ⟨r', hr', hn⟩ := h.number_mem hq
      rcases hmatch.2 with hne | hn'
      · exact hne ((h.own q hq).2.trans (congrArg some (hK.identity _ hmem)).symm)
      · exact not_mem_take hK hs hr' (Option.some.inj (hn.symm.trans hn'))
    · obtain ⟨left', rfl⟩ := Multiset.exists_cons_of_mem he
      obtain ⟨docs', hone, rfl⟩ := hclaim e left' rfl
      exact ⟨_, hone, _, _, rfl, h.claim hK hs, fun his => absurd his (by omega), fun _ => hkept⟩

/-- **A row written again** may match its own record. -/
theorem Kept.exists_again {f : UsageField} {j : ℕ} (hK : OneKey k R K old) (hi : i < K.length)
    (hrow : K[i].values f = none) (hj : j < K.length) (hjs : j < s)
    (h : Kept k R K old d f i K[i].recN s docs) :
    ∃ docs', UpdateOne (upsert V) K[j] docs docs' ∧ Kept k R K old d f i K[i].recN s docs' := by
  obtain ⟨left, written, rfl, h, hleft, hwritten⟩ := h
  have hrewrite : ∀ p written', written = p ::ₘ written' → p.recN = some K[j].recN →
      ∃ docs', UpdateOne (upsert V) K[j] (left + written) docs' ∧
        docs' = left + (setFields K[j] p ::ₘ written') := by
    rintro p written' rfl hn
    refine ⟨_, ?_, rfl⟩
    rw [Multiset.add_cons, Multiset.add_cons]
    exact UpdateOne.update (U := upsert V)
      ⟨(h.own p (Multiset.mem_cons_self _ _)).1.trans (hK.key _ (List.getElem_mem hj)).symm, Or.inr hn⟩
  by_cases hij : j = i ∧ i < s
  · obtain ⟨rfl, his⟩ := hij
    obtain ⟨p, hp, hn, hpf⟩ := hwritten his
    obtain ⟨written', rfl⟩ := Multiset.exists_cons_of_mem hp
    obtain ⟨docs', hone, rfl⟩ := hrewrite p written' rfl hn
    refine ⟨_, hone, _, _, rfl, h.rewrite hK hj hn, hleft, fun _ =>
      ⟨_, Multiset.mem_cons_self _ _, rfl, ?_⟩⟩
    change ((K[j].values f).or (p.values f)).isSome
    rw [hrow]
    exact hpf
  · obtain ⟨p, hp, hn⟩ := h.exists_own hj hjs
    obtain ⟨written', rfl⟩ := Multiset.exists_cons_of_mem hp
    obtain ⟨docs', hone, rfl⟩ := hrewrite p written' rfl hn
    refine ⟨_, hone, _, _, rfl, h.rewrite hK hj hn, hleft, fun his => ?_⟩
    obtain ⟨q, hq, hqn, hqf⟩ := hwritten his
    rcases Multiset.mem_cons.mp hq with rfl | hq
    · have hnumber := Option.some.inj (hn.symm.trans hqn)
      exact absurd ⟨(List.Nodup.getElem_inj_iff (List.Nodup.of_map _ hK.numbered)).mp
        (List.inj_on_of_nodup_map hK.numbered (List.getElem_mem hj) (List.getElem_mem hi) hnumber),
        his⟩ hij
    · exact ⟨q, Multiset.mem_cons_of_mem hq, hqn, hqf⟩

theorem Kept.exists_attempt {f : UsageField} (hK : OneKey k R K old) (hi : i < K.length)
    (hiold : i < old.card) (hd : (d.values f).isSome) (hrow : K[i].values f = none)
    (h : Kept k R K old d f i K[i].recN s docs) : ∀ c ≤ K.length,
    ∃ docs', Writes (upsert V) (K.take c) docs docs' ∧
      Kept k R K old d f i K[i].recN (max s c) docs' := by
  intro c
  induction c with
  | zero => exact fun _ => ⟨docs, by rw [List.take_zero]; exact .nil, by rwa [Nat.max_zero]⟩
  | succ c ih =>
    intro hc
    obtain ⟨docs₁, hw, h₁⟩ := ih (by omega)
    rw [List.take_succ_eq_append_getElem hc]
    by_cases hcs : c < s
    · rw [max_eq_left hcs.le] at h₁
      obtain ⟨docs', hone, h'⟩ := h₁.exists_again hK hi hrow hc hcs
      exact ⟨docs', hw.append (.cons hone .nil), by rwa [max_eq_left hcs]⟩
    · rw [max_eq_right (not_lt.mp hcs)] at h₁
      obtain ⟨docs', hone, h'⟩ := h₁.exists_new hK hi hiold hd hc
      exact ⟨docs', hw.append (.cons hone .nil), by rwa [max_eq_right (by omega)]⟩

/-- **A field that a row does not have** may stay as it was. -/
theorem Kept.exists_load {f : UsageField} (hK : OneKey k R K old) (hi : i < K.length)
    (hiold : i < old.card) (hd : (d.values f).isSome) (hrow : K[i].values f = none) (cs : List ℕ) :
    ∀ {s : ℕ} {docs : Multiset (UsageRecord V)}, s ≤ K.length → (∀ c ∈ cs, c ≤ K.length) →
    Kept k R K old d f i K[i].recN s docs →
    ∃ docs', KeyLoad K cs docs docs' ∧ Kept k R K old d f i K[i].recN K.length docs' := by
  induction cs with
  | nil =>
    intro s docs hs _ h
    obtain ⟨docs', hw, h'⟩ := h.exists_attempt hK hi hiold hd hrow K.length le_rfl
    rw [List.take_length] at hw
    exact ⟨docs', .succeed hw, by rwa [max_eq_right hs] at h'⟩
  | cons c cs ih =>
    intro s docs hs hcs h
    have hc := hcs c List.mem_cons_self
    obtain ⟨docs₁, hw, h₁⟩ := h.exists_attempt hK hi hiold hd hrow c hc
    obtain ⟨docs', hload, h'⟩ := ih (max_le hs hc)
      (fun c' hc' => hcs c' (List.mem_cons_of_mem _ hc')) h₁
    exact ⟨docs', .fail hw hload, h'⟩

/-! ## Every load of a key -/

theorem own_after (hK : OneKey k R K old) (h : Split k R K old s left written) :
    own R (left + written) = written :=
  (Multiset.filter_add _ _ _).trans
    ((congrArg₂ _ (own_old hK h.le) (own_written h.own)).trans (zero_add _))

theorem card_numbersOf (hK : OneKey k R K old) : (numbersOf K).card = K.length := by
  rw [numbersOf, List.toFinset_card_of_nodup hK.numbered, List.length_map]

/-- **Every load of a key leaves exactly its rows**, when the old records are used up and
overwritten. -/
theorem keyLoad_exact_iff (hK : OneKey k R K old) {cs : List ℕ} (hcs : ∀ c ∈ cs, c ≤ K.length) :
    (∀ docs', KeyLoad K cs old docs' → own R docs' = ↑(K.map UsageRow.record)) ↔
      Spends old.card cs ∧ Overwrites K old := by
  have hstart : After k R K old 0 old := ⟨old, 0, (add_zero _).symm, split_start old⟩
  constructor
  · intro h
    constructor
    · by_contra hspent
      obtain ⟨docs', hload, htoo⟩ := exists_tooMany hK cs hcs hspent
      rw [h docs' hload, card_numbersOf hK, Multiset.coe_card, List.length_map] at htoo
      exact lt_irrefl _ htoo
    · intro i hi hiold d hd f hdf
      by_contra hrow
      rw [Option.not_isSome_iff_eq_none] at hrow
      have hkept : Kept k R K old d f i K[i].recN 0 old :=
        ⟨old, 0, (add_zero _).symm, split_start old, fun _ => hd, fun his => absurd his (by omega)⟩
      obtain ⟨docs', hload, left, written, rfl, hsplit, -, hwritten⟩ :=
        hkept.exists_load hK hi hiold hdf hrow cs (Nat.zero_le _) hcs
      obtain ⟨p, hp, hn, hpf⟩ := hwritten hi
      have hexact := h _ hload
      rw [own_after hK hsplit] at hexact
      rw [hexact] at hp
      rw [eq_record hK hi (s := K.length) (by rwa [List.take_length]) hn] at hpf
      exact absurd hpf (by rw [show K[i].record.values f = none from hrow]; simp)
  · rintro ⟨hspent, hover⟩ docs' hload
    obtain ⟨left, written, rfl, hsplit⟩ :=
      hload.after hK hstart (Nat.zero_le _) hcs (Or.inr ⟨rfl, hspent⟩)
    rw [own_after hK hsplit, hsplit.exact hover, List.take_length]

end OneKey

/-! ## Every load -/

section Load

variable {I : Import} {usages : List (UsageKey × (UsageField → Option V))} {attempts : List ℕ}
  {docs docs' : Multiset (UsageRecord V)} {rs : List (UsageRow V)}

theorem mem_rows {r : UsageRow V} (hr : r ∈ rows I usages) :
    r.reportIdentity = I.reportIdentity ∧ r.unique.cloudAccountId = I.cloudAccountId := by
  obtain ⟨u, -, rfl⟩ := List.mem_map.mp (List.mem_of_mem_filter hr)
  exact ⟨rfl, rfl⟩

/-- The rows are numbered. -/
theorem rows_numbered (I : Import) (usages : List (UsageKey × (UsageField → Option V))) :
    ((rows I usages).map UsageRow.recN).Nodup := by
  have hall : (((usages.zipIdx 1).map fun u => fill I u.1 u.2).map UsageRow.recN).Nodup := by
    rw [List.map_map]
    change ((usages.zipIdx 1).map Prod.snd).Nodup
    rw [List.zipIdx_map_snd]
    exact List.nodup_range'
  exact hall.sublist (List.filter_sublist.map _)

/-- An attempt writes some of the first rows. -/
theorem written_initial (rs : List (UsageRow V)) (j : ℕ) : written rs j <+: rs := by
  refine ⟨((rs.toChunks chunkSize).drop j).flatten, ?_⟩
  rw [written, ← List.flatten_append, List.take_append_drop, flatten_toChunks]

/-- How many rows of a key an attempt writes. -/
def writtenOf (rs : List (UsageRow V)) (k : UsageKey) (j : ℕ) : ℕ :=
  (rowsOf (upsert V) k (written rs j)).length

theorem rowsOf_written (rs : List (UsageRow V)) (k : UsageKey) (j : ℕ) :
    rowsOf (upsert V) k (written rs j) = (rowsOf (upsert V) k rs).take (writtenOf rs k j) := by
  exact List.prefix_iff_eq_take.mp ((written_initial rs j).filter _)

theorem writtenOf_le (rs : List (UsageRow V)) (k : UsageKey) (j : ℕ) :
    writtenOf rs k j ≤ (rowsOf (upsert V) k rs).length :=
  ((written_initial rs j).filter _).length_le

/-- A load, on the records of a key. -/
theorem LoadUsageData.restrict (h : LoadUsageData rs attempts docs docs') (k : UsageKey) :
    KeyLoad (rowsOf (upsert V) k rs) (attempts.map (writtenOf rs k)) (ofKey (upsert V) k docs)
      (ofKey (upsert V) k docs') := by
  induction h with
  | succeed hw =>
    rw [flatten_toChunks] at hw
    exact .succeed (hw.restrict k)
  | fail hw _ ih =>
    refine .fail ?_ ih
    rw [← rowsOf_written]
    exact hw.restrict k

/-- **What can happen to the records of a key** can happen in a load. -/
theorem LoadUsageData.lift {k : UsageKey} {docsₖ : Multiset (UsageRecord V)} :
    ∀ {docs : Multiset (UsageRecord V)}, KeyLoad (rowsOf (upsert V) k rs)
      (attempts.map (writtenOf rs k)) (ofKey (upsert V) k docs) docsₖ →
    ∃ docs', LoadUsageData rs attempts docs docs' ∧ ofKey (upsert V) k docs' = docsₖ := by
  induction attempts with
  | nil =>
    intro docs h
    obtain ⟨hw⟩ | _ := h
    obtain ⟨docs', hw', heq⟩ := hw.lift
    exact ⟨docs', .succeed (by rwa [flatten_toChunks]), heq⟩
  | cons j attempts ih =>
    intro docs h
    obtain _ | ⟨hw, hrest⟩ := h
    rw [← rowsOf_written] at hw
    obtain ⟨docs₁, hw', rfl⟩ := hw.lift
    obtain ⟨docs', hload, heq⟩ := ih hrest
    exact ⟨docs', .fail hw' hload, heq⟩

/-- A key's rows and old records. -/
theorem oneKey (hold : ∀ d ∈ docs, d.reportIdentity ≠ some I.reportIdentity) (k : UsageKey) :
    OneKey k I.reportIdentity (rowsOf (upsert V) k (rows I usages)) (ofKey (upsert V) k docs) where
  key _ hr := of_decide_eq_true (List.mem_filter.mp hr).2
  identity _ hr := (mem_rows (List.mem_filter.mp hr).1).1
  numbered := (rows_numbered I usages).sublist (List.filter_sublist.map _)
  oldKey _ hd := (mem_ofKey.mp hd).2
  oldIdentity d hd := hold d (mem_ofKey.mp hd).1

/-- Widening keeps what is in the interval. -/
theorem interval_mono (starts : List ℤ) : ∀ {interval : Option (ℤ × ℤ)} {d : UsageRecord V},
    Imported I interval d → Imported I (starts.foldl updateImportedRawInterval interval) d := by
  induction starts with
  | nil => exact fun h => h
  | cons s starts ih =>
    intro interval d h
    refine ih ?_
    rcases interval with _ | ⟨a, b⟩
    · exact h.elim
    · obtain ⟨haccount, ha, hb⟩ := h
      refine ⟨haccount, ?_, ?_⟩
      · split <;> omega
      · split <;> omega

theorem interval_covers {d : UsageRecord V} (haccount : d.unique.cloudAccountId = I.cloudAccountId)
    (starts : List ℤ) : ∀ interval : Option (ℤ × ℤ), d.unique.startDate ∈ starts →
    Imported I (starts.foldl updateImportedRawInterval interval) d := by
  induction starts with
  | nil => exact fun _ h => absurd h List.not_mem_nil
  | cons s starts ih =>
    intro interval h
    rcases List.mem_cons.mp h with rfl | h
    · refine interval_mono starts ?_
      rcases interval with _ | ⟨a, b⟩
      · exact ⟨haccount, le_rfl, le_rfl⟩
      · refine ⟨haccount, ?_, ?_⟩
        · split <;> omega
        · split <;> omega
    · exact ih _ h

/-- **The rows' records are in the interval.** -/
theorem imported_of_row {r : UsageRow V} {d : UsageRecord V} (hr : r ∈ rows I usages)
    (hd : d.unique = r.unique) :
    Imported I (importedRawInterval (rows I usages) attempts) d := by
  refine interval_covers (by rw [hd]; exact (mem_rows hr).2) _ _ ?_
  rw [hd]
  exact List.mem_map_of_mem (List.mem_append_right _ hr)

theorem ext_ofKey {M N : Multiset (UsageRecord V)}
    (h : ∀ k, ofKey (upsert V) k M = ofKey (upsert V) k N) : M = N := by
  classical
  ext d
  have hcount : ∀ M : Multiset (UsageRecord V), M.count d =
      (ofKey (upsert V) d.unique M).count d := fun M =>
    (Multiset.count_filter_of_pos (p := fun d' : UsageRecord V => d'.unique = d.unique) rfl).symm
  rw [hcount, hcount N, h]

/-- After the deletions the interval has the records of the import. -/
theorem imported_clearRudiments (interval : Option (ℤ × ℤ)) (docs : Multiset (UsageRecord V)) :
    (clearRudiments I interval docs).filter (Imported I interval) =
      (own I.reportIdentity docs).filter (Imported I interval) := by
  rw [clearRudiments, own, Multiset.filter_filter, Multiset.filter_filter]
  refine Multiset.filter_congr fun d _ => ?_
  tauto

theorem ofKey_records (k : UsageKey) (rs : List (UsageRow V)) :
    ofKey (upsert V) k ↑(rs.map UsageRow.record) =
      ↑((rowsOf (upsert V) k rs).map UsageRow.record) := by
  rw [ofKey, Multiset.filter_coe, List.filter_map]
  rfl

theorem ofKey_own (k : UsageKey) (R : ℤ) (docs : Multiset (UsageRecord V)) :
    ofKey (upsert V) k (own R docs) = own R (ofKey (upsert V) k docs) :=
  Multiset.filter_comm _ _ _

/-- **A load is exact** when every key is. -/
theorem exact_of_keys (h : ∀ k, own I.reportIdentity (ofKey (upsert V) k docs') =
      ↑((rowsOf (upsert V) k (rows I usages)).map UsageRow.record)) :
    Exact I (rows I usages) attempts docs' := by
  have hown : own I.reportIdentity docs' = ↑((rows I usages).map UsageRow.record) :=
    ext_ofKey fun k => by rw [ofKey_own, h, ofKey_records]
  rw [Exact, imported_clearRudiments, hown]
  refine Multiset.filter_eq_self.mpr fun d hd => ?_
  obtain ⟨r, hr, rfl⟩ := List.mem_map.mp (Multiset.mem_coe.mp hd)
  exact imported_of_row hr rfl

/-- A key that has a row is exact after an exact load. -/
theorem Exact.key {k : UsageKey} (h : Exact I (rows I usages) attempts docs')
    (hk : rowsOf (upsert V) k (rows I usages) ≠ []) :
    own I.reportIdentity (ofKey (upsert V) k docs') =
      ↑((rowsOf (upsert V) k (rows I usages)).map UsageRow.record) := by
  obtain ⟨r, hr⟩ := List.exists_mem_of_ne_nil _ hk
  obtain ⟨hr, hrk⟩ := List.mem_filter.mp hr
  have hrk : r.unique = k := of_decide_eq_true hrk
  rw [Exact, imported_clearRudiments] at h
  rw [← ofKey_records, ← h, ← ofKey_own]
  refine Eq.trans ?_ (Multiset.filter_comm _ _ _)
  refine (Multiset.filter_eq_self.mpr fun d hd => ?_).symm
  exact imported_of_row hr ((mem_ofKey.mp hd).2.trans hrk.symm)

theorem spends_of_nothing {old : ℕ} {cs : List ℕ} (h : ∀ c ∈ cs, c = 0) : Spends old cs := by
  induction cs with
  | nil => trivial
  | cons c cs ih =>
    obtain ⟨hc, hcs⟩ := List.forall_mem_cons.mp h
    rw [Spends, if_pos hc]
    exact ih hcs

theorem spends_zero (cs : List ℕ) : Spends 0 cs := by
  induction cs with
  | nil => trivial
  | cons c cs ih =>
    rw [Spends]
    split
    · exact ih
    · exact Nat.zero_le c

/-- **Every load of a report is exact exactly when, for each key, the old records are used up by the
first attempt that writes a row of it, and the rows that can match them have all their fields.** -/
theorem load_exact_iff (I : Import) (usages : List (UsageKey × (UsageField → Option V)))
    (attempts : List ℕ) {docs : Multiset (UsageRecord V)}
    (hold : ∀ d ∈ docs, d.reportIdentity ≠ some I.reportIdentity) :
    (∀ docs', LoadUsageData (rows I usages) attempts docs docs' →
      Exact I (rows I usages) attempts docs') ↔
    ∀ k, Spends (ofKey (upsert V) k docs).card (attempts.map (writtenOf (rows I usages) k)) ∧
      Overwrites (rowsOf (upsert V) k (rows I usages)) (ofKey (upsert V) k docs) := by
  have hle : ∀ k, ∀ c ∈ attempts.map (writtenOf (rows I usages) k),
      c ≤ (rowsOf (upsert V) k (rows I usages)).length := by
    intro k c hc
    obtain ⟨j, -, rfl⟩ := List.mem_map.mp hc
    exact writtenOf_le _ _ _
  have hkey := fun k => keyLoad_exact_iff (oneKey hold k) (hle k)
  constructor
  · intro h k
    by_cases hk : rowsOf (upsert V) k (rows I usages) = []
    · refine ⟨spends_of_nothing fun c hc => ?_, fun i hi => ?_⟩
      · have := hle k c hc
        rw [hk] at this
        exact Nat.le_zero.mp this
      · rw [hk] at hi
        exact absurd hi (Nat.not_lt_zero i)
    · refine (hkey k).mp fun docsₖ hload => ?_
      obtain ⟨docs', hload', rfl⟩ := LoadUsageData.lift hload
      exact (h docs' hload').key hk
  · intro h docs' hload
    exact exact_of_keys fun k => (hkey k).mpr (h k) _ (hload.restrict k)

end Load

/-! ## One row, two old records -/

/-- The unique fields of a usage. -/
def someUsage : UsageKey := ⟨0, some "meter", some "resource", 1, none, none, none⟩

/-- A cost alone. -/
def costOnly (cost : ℚ) : UsageField → Option ℚ
  | .cost => some cost
  | _ => none

/-- An import of account 1, of identity 7. -/
def someImport : Import := ⟨1, 7, 0⟩

/-- A record of an older import. -/
def oldRecord (cost : ℚ) : UsageRecord ℚ := ⟨someUsage, costOnly cost, some 3, some 1⟩

/-- The row. -/
def someRow : UsageRow ℚ := ⟨someUsage, costOnly 5, 7, 1⟩

/-- Two old records and one row, whose first load breaks off after it: the cost is there twice. -/
theorem retry_duplicates : ∃ docs',
    LoadUsageData (rows someImport [(someUsage, costOnly 5)]) [1] {oldRecord 2, oldRecord 3} docs' ∧
      ¬ Exact someImport (rows someImport [(someUsage, costOnly 5)]) [1] docs' := by
  have hrows : rows someImport [(someUsage, costOnly 5)] = [someRow] := rfl
  have hmatch : ∀ cost, Matches someRow (oldRecord cost) := fun _ =>
    ⟨rfl, Or.inl (by simp [oldRecord, someRow])⟩
  have hfirst : Writes (upsert ℚ) (written [someRow] 1) {oldRecord 2, oldRecord 3}
      (setFields someRow (oldRecord 2) ::ₘ {oldRecord 3}) :=
    .cons (.update (hmatch 2)) .nil
  have hagain : Writes (upsert ℚ) ([someRow].toChunks chunkSize).flatten
      (setFields someRow (oldRecord 2) ::ₘ {oldRecord 3})
      (setFields someRow (oldRecord 3) ::ₘ {setFields someRow (oldRecord 2)}) := by
    rw [show setFields someRow (oldRecord 2) ::ₘ {oldRecord 3} =
      oldRecord 3 ::ₘ {setFields someRow (oldRecord 2)} from Multiset.cons_swap _ _ _]
    exact .cons (.update (hmatch 3)) .nil
  rw [hrows]
  refine ⟨_, .fail hfirst (.succeed hagain), fun hexact => ?_⟩
  rw [Exact, imported_clearRudiments, own, Multiset.filter_filter] at hexact
  have hall := congrArg Multiset.card hexact
  rw [Multiset.filter_eq_self.mpr ?_] at hall
  · exact absurd hall (by simp)
  · intro d hd
    have himported : ∀ cost, Imported someImport (importedRawInterval [someRow] [1])
        (setFields someRow (oldRecord cost)) := fun _ => by
      refine ⟨rfl, ?_, ?_⟩ <;> simp [setFields, oldRecord, someRow]
    rcases Multiset.mem_cons.mp hd with rfl | hd
    · exact ⟨himported 3, rfl⟩
    · rw [Multiset.mem_singleton.mp hd]
      exact ⟨himported 2, rfl⟩

/-- Without old records every load is exact, however often it breaks off. -/
theorem retries_without_old_records :
    (∀ d ∈ (0 : Multiset (UsageRecord ℚ)), d.reportIdentity ≠ some someImport.reportIdentity) ∧
      ∀ docs', LoadUsageData (rows someImport [(someUsage, costOnly 5)]) [1, 0] 0 docs' →
        Exact someImport (rows someImport [(someUsage, costOnly 5)]) [1, 0] docs' := by
  have hnone : ∀ d ∈ (0 : Multiset (UsageRecord ℚ)),
      d.reportIdentity ≠ some someImport.reportIdentity :=
    fun d hd => absurd hd (Multiset.notMem_zero d)
  exact ⟨hnone, (load_exact_iff someImport [(someUsage, costOnly 5)] [1, 0] hnone).mpr
    fun _ => ⟨spends_zero _, fun i _ hi => absurd hi (Nat.not_lt_zero i)⟩⟩

end AzureApiImporter
