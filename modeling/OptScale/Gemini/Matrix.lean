import OptScale.Foundations.Queries

/-!
# Gemini/Matrix — `_calculate_cross_matrix`, and the export of duplicates

For two buckets the matrix counts the objects of either whose tag is in both, and so many rows are exported for
the two.  For one bucket it counts all the objects the run has found in it: what is duplicated in other buckets
only counts as duplicated in its own, while the export leaves it out (`matrix_agrees_iff`).
-/

open Dict Grouped Queries

/-- A row of the table `gemini`. -/
structure GeminiRow where
  id : String
  tag : String
  bucket : String
  key : String
  size : ℕ
  deriving DecidableEq, Repr

namespace GeminiWorker

/-! ## The query -/

/-- The rows of a run in some buckets. -/
def kept (rows : List GeminiRow) (geminiId : String) (buckets : List String) : List GeminiRow :=
  rows.filter fun r => r.id = geminiId ∧ r.bucket ∈ buckets

/-- A row of `base`. -/
structure BaseRow where
  tag : String
  bucket : String
  cnt : ℕ
  size : ℕ
  deriving DecidableEq, Repr

/-- A row of a group. -/
def BaseRow.of (g : (String × String) × List GeminiRow) : BaseRow :=
  { tag := g.1.1, bucket := g.1.2, cnt := g.2.length, size := (g.2.map GeminiRow.size).sum }

/-- `base` -/
def base (rows : List GeminiRow) (geminiId : String) (buckets : List String) : List BaseRow :=
  (groupBy (fun r : GeminiRow => (r.tag, r.bucket)) (kept rows geminiId buckets)).map BaseRow.of

/-- A row of the result. -/
structure PairRow where
  bucket1 : String
  bucket2 : String
  totalCount : ℕ
  totalSize : ℕ
  deriving DecidableEq, Repr

/-- A row of the pairs of two buckets. -/
def PairRow.of (g : (String × String) × List (BaseRow × BaseRow)) : PairRow :=
  { bucket1 := g.1.1
    bucket2 := g.1.2
    totalCount := (g.2.map fun p => p.1.cnt + p.2.cnt).sum
    totalSize := (g.2.map fun p => p.1.size).sum }

/-- The buckets of a pair. -/
def buckets (p : BaseRow × BaseRow) : String × String := (p.1.bucket, p.2.bucket)

/-- The query of `_calculate_cross_matrix`. -/
def crossRows (rows : List GeminiRow) (geminiId : String) (names : List String) : List PairRow :=
  let base := base rows geminiId names
  (groupBy buckets (join BaseRow.tag BaseRow.tag base base)).map PairRow.of

/-! ## The matrix -/

/-- What is known of a bucket. -/
structure BucketStats where
  size : ℕ := 0
  monthlyCost : Option ℚ := none

/-- An entry of the matrix. -/
structure Info where
  duplicatedObjects : Option ℕ := none
  duplicatesSize : Option ℕ := none
  monthlySavings : Option ℚ := none
  deriving DecidableEq, Repr

/-- The matrix. -/
abbrev CrossMatrix := Dict String (Dict String Info)

/-- `_calculate_monthly_savings` -/
def calculateMonthlySavings (duplicatesSize size : ℕ) (monthlyCost : ℚ) : ℚ :=
  if size ≠ 0 ∧ monthlyCost ≠ 0 then duplicatesSize / size * monthlyCost else 0

/-- The entry of a row. -/
def info (bucketsStats : Dict String BucketStats) (r : PairRow) : Info :=
  let stats := (bucketsStats.lookup r.bucket1).getD {}
  { duplicatedObjects :=
      some (if r.bucket1 = r.bucket2 then r.totalCount / 2 else r.totalCount)
    duplicatesSize := some r.totalSize
    monthlySavings := stats.monthlyCost.map (calculateMonthlySavings r.totalSize stats.size) }

/-- The entry with zeroes for what is missing. -/
def Info.filled (i : Info) : Info :=
  { duplicatedObjects := some (i.duplicatedObjects.getD 0)
    duplicatesSize := some (i.duplicatesSize.getD 0)
    monthlySavings := some (i.monthlySavings.getD 0) }

/-- Fill an entry. -/
def fillAt (m : CrossMatrix) (b₁ b₂ : String) : CrossMatrix :=
  setAt m b₁ b₂ ((lookupAt m b₁ b₂).getD {}).filled

/-- Fill the entries of a pair. -/
def fill (m : CrossMatrix) (pair : String × String) : CrossMatrix :=
  let m := fillAt m pair.1 pair.2
  if pair.1 ≠ pair.2 then fillAt m pair.2 pair.1 else m

/-- `combinations(l, 2)` -/
def combinations {α : Type} : List α → List (α × α)
  | [] => []
  | a :: l => l.map (fun b => (a, b)) ++ combinations l

/-- `bucket_pairs` -/
def bucketPairs (names : List String) : List (String × String) :=
  combinations names ++ names.map fun b => (b, b)

/-- `_calculate_cross_matrix` -/
def calculateCrossMatrix (rows : List GeminiRow) (geminiId : String) (names : List String)
    (bucketsStats : Dict String BucketStats) : CrossMatrix :=
  let crossMatrix := (crossRows rows geminiId names).foldl
    (fun m r => setAt m r.bucket1 r.bucket2 (info bucketsStats r)) ∅
  (bucketPairs names).foldl fill crossMatrix

/-- `matrix[b₁][b₂]['duplicated_objects']` -/
def duplicatedObjects (m : CrossMatrix) (b₁ b₂ : String) : Option ℕ :=
  (lookupAt m b₁ b₂).bind Info.duplicatedObjects

end GeminiWorker

namespace GeminiDataWorker

/-! ## The export -/

variable (rows : List GeminiRow) (geminiId : String)

/-- The rows of a run in a bucket. -/
def inBucket (bucket : String) : List GeminiRow :=
  rows.filter fun r => r.id = geminiId ∧ r.bucket = bucket

/-- The tags that occur more than once in a bucket. -/
def repeatedTags (bucket : String) : List String :=
  ((groupBy GeminiRow.tag (inBucket rows geminiId bucket)).filter fun g => 1 < g.2.length).map Prod.fst

/-- The tags that occur in both buckets. -/
def sharedTags (bucket₁ bucket₂ : String) : List String :=
  ((groupBy GeminiRow.tag (rows.filter fun r =>
    r.id = geminiId ∧ (r.bucket = bucket₁ ∨ r.bucket = bucket₂))).filter fun g =>
      (g.2.map GeminiRow.bucket).dedup.length = 2).map Prod.fst

/-- `_calculate`: none where the list of buckets is empty. -/
def calculate (buckets : List String) : Option (List GeminiRow) :=
  match buckets.dedup with
  | [] => none
  | [bucket] => some (rows.filter fun r =>
      r.id = geminiId ∧ r.bucket = bucket ∧ r.tag ∈ repeatedTags rows geminiId bucket)
  | bucket₁ :: bucket₂ :: more => some (rows.filter fun r =>
      r.id = geminiId ∧ r.bucket ∈ bucket₁ :: bucket₂ :: more ∧
        r.tag ∈ sharedTags rows geminiId bucket₁ bucket₂)

/-- How often a tag occurs in a bucket. -/
def occurrences (bucket tag : String) : ℕ :=
  ((inBucket rows geminiId bucket).filter fun r => r.tag = tag).length

variable {rows geminiId}

theorem mem_repeatedTags {bucket tag : String} :
    tag ∈ repeatedTags rows geminiId bucket ↔ 1 < occurrences rows geminiId bucket tag := by
  simp only [repeatedTags, List.mem_map, List.mem_filter, mem_groupBy, decide_eq_true_eq]
  constructor
  · rintro ⟨⟨t, group⟩, ⟨⟨-, hgroup⟩, hmany⟩, rfl⟩
    rwa [hgroup] at hmany
  · intro hmany
    obtain ⟨r, hr⟩ := List.exists_mem_of_length_pos (Nat.zero_lt_of_lt hmany)
    obtain ⟨hr, htag⟩ := List.mem_filter.mp hr
    exact ⟨(tag, _), ⟨⟨⟨r, hr, of_decide_eq_true htag⟩, rfl⟩, hmany⟩, rfl⟩

/-- Rows of two buckets are of both exactly when there are two buckets among them. -/
theorem two_buckets {l : List String} {b₁ b₂ : String} (hne : b₁ ≠ b₂)
    (hl : ∀ b ∈ l, b = b₁ ∨ b = b₂) : l.dedup.length = 2 ↔ b₁ ∈ l ∧ b₂ ∈ l := by
  have hsub : l.toFinset ⊆ {b₁, b₂} := by
    intro b hb
    simpa using hl b (List.mem_toFinset.mp hb)
  have hpair : ({b₁, b₂} : Finset String).card = 2 := Finset.card_pair hne
  rw [← List.card_toFinset]
  constructor
  · intro hcard
    have hall : l.toFinset = {b₁, b₂} := Finset.eq_of_subset_of_card_le hsub (by rw [hpair, hcard])
    constructor <;> rw [← List.mem_toFinset, hall] <;> simp
  · rintro ⟨h₁, h₂⟩
    have hall : l.toFinset = {b₁, b₂} := by
      refine hsub.antisymm fun b hb => ?_
      obtain rfl | rfl : b = b₁ ∨ b = b₂ := by simpa using hb
      · exact List.mem_toFinset.mpr h₁
      · exact List.mem_toFinset.mpr h₂
    rw [hall, hpair]

theorem mem_sharedTags {bucket₁ bucket₂ tag : String} (hne : bucket₁ ≠ bucket₂) :
    tag ∈ sharedTags rows geminiId bucket₁ bucket₂ ↔
      (∃ r ∈ inBucket rows geminiId bucket₁, r.tag = tag) ∧
        ∃ r ∈ inBucket rows geminiId bucket₂, r.tag = tag := by
  have hgroup : ∀ b, (b = bucket₁ ∨ b = bucket₂) →
      (b ∈ ((rows.filter fun r => r.id = geminiId ∧ (r.bucket = bucket₁ ∨ r.bucket = bucket₂)).filter
        fun r => r.tag = tag).map GeminiRow.bucket ↔ ∃ r ∈ inBucket rows geminiId b, r.tag = tag) := by
    intro b hb
    simp only [List.mem_map, List.mem_filter, inBucket, decide_eq_true_eq]
    constructor
    · rintro ⟨r, ⟨⟨hr, hid, -⟩, htag⟩, rfl⟩
      exact ⟨r, ⟨hr, hid, rfl⟩, htag⟩
    · rintro ⟨r, ⟨hr, hid, rfl⟩, htag⟩
      exact ⟨r, ⟨⟨hr, hid, hb⟩, htag⟩, rfl⟩
  have htwo := two_buckets hne (l := ((rows.filter fun r =>
    r.id = geminiId ∧ (r.bucket = bucket₁ ∨ r.bucket = bucket₂)).filter fun r => r.tag = tag).map
      GeminiRow.bucket) fun b hb => by
        obtain ⟨r, hr, rfl⟩ := List.mem_map.mp hb
        exact (of_decide_eq_true (List.mem_filter.mp (List.mem_filter.mp hr).1).2).2
  rw [hgroup bucket₁ (Or.inl rfl), hgroup bucket₂ (Or.inr rfl)] at htwo
  rw [← htwo]
  simp only [sharedTags, List.mem_map, List.mem_filter, mem_groupBy, decide_eq_true_eq]
  constructor
  · rintro ⟨⟨t, group⟩, ⟨⟨-, hrows⟩, hlength⟩, rfl⟩
    rwa [hrows] at hlength
  · intro hlength
    obtain ⟨r, hr, htag⟩ := (htwo.mp hlength).1
    obtain ⟨hr, hid, hbucket⟩ : r ∈ rows ∧ r.id = geminiId ∧ r.bucket = bucket₁ := by
      simpa [inBucket] using hr
    exact ⟨(tag, _), ⟨⟨⟨r, ⟨hr, hid, Or.inl hbucket⟩, htag⟩, rfl⟩, hlength⟩, rfl⟩

end GeminiDataWorker

namespace GeminiWorker

open GeminiDataWorker (inBucket occurrences calculate)

variable {rows : List GeminiRow} {geminiId : String} {names : List String} {b b₁ b₂ : String}

/-! ## What the query counts -/

/-- The objects of a bucket whose tag occurs in a bucket. -/
def shared (rows : List GeminiRow) (geminiId b₁ b₂ : String) : List GeminiRow :=
  (inBucket rows geminiId b₁).filter fun r => ∃ r' ∈ inBucket rows geminiId b₂, r'.tag = r.tag

theorem shared_eq (rows : List GeminiRow) (geminiId b₁ b₂ : String) :
    shared rows geminiId b₁ b₂ = rows.filter fun r =>
      (∃ r' ∈ inBucket rows geminiId b₂, r'.tag = r.tag) ∧ r.id = geminiId ∧ r.bucket = b₁ := by
  show (rows.filter fun r => r.id = geminiId ∧ r.bucket = b₁).filter _ = _
  rw [List.filter_filter]
  exact List.filter_congr fun r _ => (Bool.decide_and _ _).symm

theorem exists_kept {tag : String} (hb : b ∈ names) :
    (∃ r ∈ kept rows geminiId names, (r.tag, r.bucket) = (tag, b)) ↔
      ∃ r ∈ inBucket rows geminiId b, r.tag = tag := by
  simp only [kept, inBucket, List.mem_filter, decide_eq_true_eq, Prod.mk.injEq]
  constructor
  · rintro ⟨r, ⟨hr, hid, -⟩, htag, hbucket⟩
    exact ⟨r, ⟨hr, hid, hbucket⟩, htag⟩
  · rintro ⟨r, ⟨hr, hid, hbucket⟩, htag⟩
    exact ⟨r, ⟨hr, hid, hbucket ▸ hb⟩, htag, hbucket⟩

/-- **There is one row of a tag in a bucket**, if there is any. -/
theorem sum_base_row (tag : String) (hb : b ∈ names) (n : ℕ) :
    ((base rows geminiId names).map fun y => if tag = y.tag ∧ y.bucket = b then n else 0).sum =
      if ∃ r ∈ inBucket rows geminiId b, r.tag = tag then n else 0 := by
  have hfilter : (base rows geminiId names).filter (fun y => tag = y.tag ∧ y.bucket = b) =
      ((groupBy (fun r : GeminiRow => (r.tag, r.bucket)) (kept rows geminiId names)).filter
        fun g => g.1 = (tag, b)).map BaseRow.of := by
    rw [base, List.filter_map]
    refine congrArg (List.map _) (List.filter_congr fun g _ => ?_)
    refine decide_eq_decide.mpr ⟨fun h => Prod.ext h.1.symm h.2, fun h => ?_⟩
    exact ⟨(congrArg Prod.fst h).symm, congrArg Prod.snd h⟩
  rw [← sum_filter (fun y : BaseRow => tag = y.tag ∧ y.bucket = b) fun _ => n, hfilter,
    filter_groupBy]
  simp only [exists_kept hb]
  split
  · exact Nat.add_zero n
  · rfl

/-- **The rows of a bucket count its objects.** -/
theorem sum_base (p : String → Prop) [DecidablePred p] (b : String) :
    ((base rows geminiId names).map fun x => if x.bucket = b ∧ p x.tag then x.cnt else 0).sum =
      ((kept rows geminiId names).filter fun r => r.bucket = b ∧ p r.tag).length := by
  have hgroup : ∀ g ∈ groupBy (fun r : GeminiRow => (r.tag, r.bucket)) (kept rows geminiId names),
      (if (BaseRow.of g).bucket = b ∧ p (BaseRow.of g).tag then (BaseRow.of g).cnt else 0) =
        (g.2.map fun r => if r.bucket = b ∧ p r.tag then 1 else 0).sum := by
    intro g hg
    obtain ⟨-, hrows⟩ := mem_groupBy.mp hg
    have hkey : ∀ r ∈ g.2, (r.tag, r.bucket) = g.1 := by
      intro r hr
      rw [hrows] at hr
      exact of_decide_eq_true (List.mem_filter.mp hr).2
    have hrow : g.2.map (fun r => if r.bucket = b ∧ p r.tag then 1 else 0) =
        g.2.map fun _ => if g.1.2 = b ∧ p g.1.1 then 1 else 0 :=
      List.map_congr_left fun r hr => by rw [← hkey r hr]
    rw [hrow, List.map_const', List.sum_replicate]
    show (if g.1.2 = b ∧ p g.1.1 then g.2.length else 0) = _
    split <;> simp
  rw [base, List.map_map]
  refine (congrArg List.sum (List.map_congr_left hgroup)).trans ?_
  rw [sum_groupBy, ← sum_filter (fun r : GeminiRow => r.bucket = b ∧ p r.tag) fun _ => 1,
    List.map_const', List.sum_replicate, smul_eq_mul, mul_one]

/-- **The pairs of two buckets**, each counted as often as its first tag occurs. -/
theorem sum_pairs (hb₁ : b₁ ∈ names) (hb₂ : b₂ ∈ names) :
    ((base rows geminiId names).map fun x => ((base rows geminiId names).map fun y =>
      if x.tag = y.tag ∧ x.bucket = b₁ ∧ y.bucket = b₂ then x.cnt else 0).sum).sum =
        (shared rows geminiId b₁ b₂).length := by
  have hrow : ∀ x : BaseRow, ((base rows geminiId names).map fun y =>
      if x.tag = y.tag ∧ x.bucket = b₁ ∧ y.bucket = b₂ then x.cnt else 0).sum =
        if x.bucket = b₁ ∧ ∃ r ∈ inBucket rows geminiId b₂, r.tag = x.tag then x.cnt else 0 := by
    intro x
    by_cases hx : x.bucket = b₁
    · simp only [hx, true_and]
      exact sum_base_row x.tag hb₂ x.cnt
    · simp [hx]
  simp only [hrow]
  rw [sum_base (fun tag => ∃ r ∈ inBucket rows geminiId b₂, r.tag = tag) b₁]
  refine congrArg List.length ?_
  rw [shared_eq, kept, List.filter_filter]
  refine List.filter_congr fun r _ => ?_
  rw [Bool.eq_iff_iff]
  simp only [Bool.and_eq_true, decide_eq_true_eq]
  constructor
  · rintro ⟨⟨hbucket, hshared⟩, hid, -⟩
    exact ⟨hshared, hid, hbucket⟩
  · rintro ⟨hshared, hid, hbucket⟩
    exact ⟨⟨hbucket, hshared⟩, hid, hbucket ▸ hb₁⟩

variable (rows geminiId) in
/-- **What two buckets share**: the objects of either whose tag is in the other. -/
theorem sum_joined (hb₁ : b₁ ∈ names) (hb₂ : b₂ ∈ names) :
    (((join BaseRow.tag BaseRow.tag (base rows geminiId names) (base rows geminiId names)).filter
      fun p => buckets p = (b₁, b₂)).map fun p => p.1.cnt + p.2.cnt).sum =
        (shared rows geminiId b₁ b₂).length + (shared rows geminiId b₂ b₁).length := by
  rw [sum_filter (fun p => buckets p = (b₁, b₂)), sum_join, ← sum_pairs hb₁ hb₂, ← sum_pairs hb₂ hb₁,
    sum_comm fun x y : BaseRow => if x.tag = y.tag ∧ x.bucket = b₂ ∧ y.bucket = b₁ then x.cnt else 0,
    ← List.sum_map_add]
  refine congrArg List.sum (List.map_congr_left fun x _ => ?_)
  rw [← List.sum_map_add]
  refine congrArg List.sum (List.map_congr_left fun y _ => ?_)
  simp only [buckets, Prod.mk.injEq]
  by_cases htag : x.tag = y.tag <;> by_cases hx : x.bucket = b₁ <;> by_cases hy : y.bucket = b₂ <;>
    simp [htag, hx, hy, eq_comm]

/-! ## What the matrix holds -/

theorem lookupAt_fillAt {m : CrossMatrix} {k i : String} :
    lookupAt (fillAt m b₁ b₂) k i =
      if k = b₁ ∧ i = b₂ then some ((lookupAt m b₁ b₂).getD {}).filled else lookupAt m k i :=
  lookupAt_setAt ..

/-- The entries a pair fills. -/
def places (pair : String × String) : List (String × String) :=
  if pair.1 ≠ pair.2 then [pair, pair.swap] else [pair]

theorem fill_eq (m : CrossMatrix) (pair : String × String) :
    fill m pair = (places pair).foldl (fun m p => fillAt m p.1 p.2) m := by
  unfold fill places
  split <;> rfl

/-- **Filling** leaves what is there, and puts zeroes where nothing is. -/
theorem lookupAt_fills {k i : String} (l : List (String × String)) (m : CrossMatrix) :
    lookupAt (l.foldl (fun m p => fillAt m p.1 p.2) m) k i =
      if (k, i) ∈ l then some ((lookupAt m k i).getD {}).filled else lookupAt m k i := by
  induction l generalizing m with
  | nil => rfl
  | cons p l ih =>
    obtain ⟨b₁, b₂⟩ := p
    rw [List.foldl_cons, ih, lookupAt_fillAt]
    by_cases hk : k = b₁ ∧ i = b₂
    · obtain ⟨rfl, rfl⟩ := hk
      simp [Info.filled]
    · simp [hk]

theorem mem_combinations {α : Type} {l : List α} {a c : α} (ha : a ∈ l) (hc : c ∈ l) (hne : a ≠ c) :
    (a, c) ∈ combinations l ∨ (c, a) ∈ combinations l := by
  induction l with
  | nil => exact absurd ha List.not_mem_nil
  | cons x l ih =>
    simp only [combinations, List.mem_append]
    obtain ha | ha := List.mem_cons.mp ha <;> obtain hc | hc := List.mem_cons.mp hc
    · exact absurd (ha.trans hc.symm) hne
    · exact Or.inl (Or.inl (ha ▸ List.mem_map_of_mem hc))
    · exact Or.inr (Or.inl (hc ▸ List.mem_map_of_mem ha))
    · exact (ih ha hc).imp Or.inr Or.inr

/-- Every entry of two listed buckets is filled. -/
theorem mem_places (hb₁ : b₁ ∈ names) (hb₂ : b₂ ∈ names) :
    (b₁, b₂) ∈ (bucketPairs names).flatMap places := by
  simp only [List.mem_flatMap, bucketPairs, List.mem_append]
  by_cases hne : b₁ = b₂
  · subst hne
    refine ⟨(b₁, b₁), Or.inr (List.mem_map_of_mem hb₁), ?_⟩
    simp [places]
  · obtain h | h := mem_combinations hb₁ hb₂ hne
    · exact ⟨(b₁, b₂), Or.inl h, by simp [places, hne]⟩
    · exact ⟨(b₂, b₁), Or.inl h, by simp [places, Ne.symm hne]⟩

/-- **The matrix has an entry for two listed buckets**: the objects they share; for one bucket, half
of what it shares with itself. -/
theorem duplicatedObjects_eq (bucketsStats : Dict String BucketStats) (hb₁ : b₁ ∈ names)
    (hb₂ : b₂ ∈ names) :
    duplicatedObjects (calculateCrossMatrix rows geminiId names bucketsStats) b₁ b₂ =
      some (if b₁ = b₂ then
        ((shared rows geminiId b₁ b₂).length + (shared rows geminiId b₂ b₁).length) / 2
      else (shared rows geminiId b₁ b₂).length + (shared rows geminiId b₂ b₁).length) := by
  have hfills : calculateCrossMatrix rows geminiId names bucketsStats =
      ((bucketPairs names).flatMap places).foldl (fun m p => fillAt m p.1 p.2)
        ((crossRows rows geminiId names).foldl
          (fun m r => setAt m r.bucket1 r.bucket2 (info bucketsStats r)) ∅) := by
    rw [List.foldl_flatMap]
    exact congrArg (fun f => (bucketPairs names).foldl f _) (funext₂ fill_eq)
  have hrow : (crossRows rows geminiId names).filter (fun r => (r.bucket1, r.bucket2) = (b₁, b₂)) =
      ((groupBy buckets (join BaseRow.tag BaseRow.tag (base rows geminiId names)
        (base rows geminiId names))).filter fun g => g.1 = (b₁, b₂)).map PairRow.of := by
    rw [crossRows, List.filter_map]
    rfl
  have hsum := sum_joined rows geminiId hb₁ hb₂
  rw [duplicatedObjects, hfills, lookupAt_fills, if_pos (mem_places hb₁ hb₂), Option.bind_some,
    lookupAt_foldl_setAt fun r : PairRow => (r.bucket1, r.bucket2), hrow, filter_groupBy]
  split
  · simp only [List.map_cons, List.map_nil, List.getLast?_singleton, Option.map_some, Option.some_or,
      Option.getD_some, Info.filled, info, PairRow.of, hsum]
  · rename_i hnone
    have hempty : (join BaseRow.tag BaseRow.tag (base rows geminiId names)
        (base rows geminiId names)).filter (fun p => buckets p = (b₁, b₂)) = [] :=
      List.filter_eq_nil_iff.mpr fun p hp hpair => hnone ⟨p, hp, of_decide_eq_true hpair⟩
    rw [hempty] at hsum
    rw [← hsum]
    split <;> rfl

/-! ## What is exported -/

open GeminiDataWorker (mem_repeatedTags mem_sharedTags repeatedTags sharedTags)

variable (rows geminiId) in
/-- **For one bucket** the objects are exported whose tag occurs there again. -/
theorem calculate_one (b : String) : ∃ exported, calculate rows geminiId [b, b] = some exported ∧
    exported.length = ((inBucket rows geminiId b).filter fun r =>
      1 < occurrences rows geminiId b r.tag).length := by
  have hone : [b, b].dedup = [b] := by simp
  refine ⟨_, by rw [calculate, hone], congrArg List.length ?_⟩
  rw [inBucket, List.filter_filter]
  refine List.filter_congr fun r _ => ?_
  rw [Bool.eq_iff_iff]
  simp only [Bool.and_eq_true, decide_eq_true_eq, mem_repeatedTags]
  exact ⟨fun h => ⟨h.2.2, h.1, h.2.1⟩, fun h => ⟨h.2.1, h.2.2, h.1⟩⟩

variable (rows geminiId) in
/-- **For two buckets** the objects are exported that they share. -/
theorem calculate_two (hne : b₁ ≠ b₂) : ∃ exported, calculate rows geminiId [b₁, b₂] = some exported ∧
    exported.length = (shared rows geminiId b₁ b₂).length + (shared rows geminiId b₂ b₁).length := by
  have htwo : [b₁, b₂].dedup = [b₁, b₂] := List.Nodup.dedup (by simpa using hne)
  refine ⟨_, by rw [calculate, htwo], ?_⟩
  rw [List.length_eq_length_filter_add fun r : GeminiRow => decide (r.bucket = b₁)]
  refine congrArg₂ _ (congrArg List.length ?_) (congrArg List.length ?_)
  all_goals
    rw [shared_eq, List.filter_filter]
    refine List.filter_congr fun r hr => ?_
    rw [Bool.eq_iff_iff]
    simp only [Bool.and_eq_true, Bool.not_eq_true', decide_eq_true_eq, decide_eq_false_iff_not,
      mem_sharedTags hne, List.mem_cons, List.not_mem_nil, or_false]
  · constructor
    · rintro ⟨hbucket, hid, -, -, hother⟩
      exact ⟨hother, hid, hbucket⟩
    · rintro ⟨hother, hid, hbucket⟩
      exact ⟨hbucket, hid, Or.inl hbucket, ⟨r, by simp [inBucket, hr, hid, hbucket], rfl⟩, hother⟩
  · constructor
    · rintro ⟨hbucket, hid, hlisted, hother, -⟩
      exact ⟨hother, hid, hlisted.resolve_left hbucket⟩
    · rintro ⟨hother, hid, hbucket⟩
      exact ⟨fun h => hne (h.symm.trans hbucket), hid, Or.inr hbucket, hother,
        ⟨r, by simp [inBucket, hr, hid, hbucket], rfl⟩⟩

/-! ## Where they agree -/

/-- The matrix has an entry for every two buckets, symmetric, and with as many objects as are exported. -/
def Agrees (rows : List GeminiRow) (geminiId : String) (names : List String)
    (bucketsStats : Dict String BucketStats) : Prop :=
  ∀ b₁ ∈ names, ∀ b₂ ∈ names, ∃ n exported,
    duplicatedObjects (calculateCrossMatrix rows geminiId names bucketsStats) b₁ b₂ = some n ∧
      duplicatedObjects (calculateCrossMatrix rows geminiId names bucketsStats) b₂ b₁ = some n ∧
      calculate rows geminiId [b₁, b₂] = some exported ∧ exported.length = n

/-- A bucket shares all its objects with itself. -/
theorem shared_self (b : String) : shared rows geminiId b b = inBucket rows geminiId b :=
  List.filter_eq_self.mpr fun r hr => decide_eq_true ⟨r, hr, rfl⟩

/-- All objects of a bucket are duplicated in it exactly when no tag occurs there once. -/
theorem all_repeated_iff (b : String) : ((inBucket rows geminiId b).filter fun r =>
    1 < occurrences rows geminiId b r.tag).length = (inBucket rows geminiId b).length ↔
      ∀ tag, occurrences rows geminiId b tag ≠ 1 := by
  rw [List.length_filter_eq_length_iff]
  simp only [decide_eq_true_eq]
  constructor
  · intro h tag hone
    obtain ⟨r, hr⟩ := List.exists_mem_of_length_pos (l := (inBucket rows geminiId b).filter
      fun r => r.tag = tag) (by rw [occurrences] at hone; omega)
    obtain ⟨hr, htag⟩ := List.mem_filter.mp hr
    have hmany := h r hr
    rw [of_decide_eq_true htag, hone] at hmany
    exact absurd hmany (lt_irrefl 1)
  · intro h r hr
    have hpos : 0 < occurrences rows geminiId b r.tag :=
      List.length_pos_of_mem (List.mem_filter.mpr ⟨hr, decide_eq_true rfl⟩)
    have hone := h r.tag
    omega

/-- **The matrix agrees with the exports** exactly when no listed bucket has a tag once. -/
theorem matrix_agrees_iff (rows : List GeminiRow) (geminiId : String) (names : List String)
    (bucketsStats : Dict String BucketStats) : Agrees rows geminiId names bucketsStats ↔
      ∀ b ∈ names, ∀ tag, occurrences rows geminiId b tag ≠ 1 := by
  have hdiagonal : ∀ b ∈ names,
      duplicatedObjects (calculateCrossMatrix rows geminiId names bucketsStats) b b =
        some (inBucket rows geminiId b).length := by
    intro b hb
    rw [duplicatedObjects_eq bucketsStats hb hb, if_pos rfl, shared_self]
    exact congrArg some (by omega)
  constructor
  · intro h b hb
    obtain ⟨n, exported, hentry, -, hexport, hlength⟩ := h b hb b hb
    obtain ⟨exported', hexport', hlength'⟩ := calculate_one rows geminiId b
    obtain rfl := Option.some.inj (hexport.symm.trans hexport')
    obtain rfl := Option.some.inj (hentry.symm.trans (hdiagonal b hb))
    exact (all_repeated_iff b).mp (hlength'.symm.trans hlength)
  · intro h b₁ hb₁ b₂ hb₂
    by_cases hne : b₁ = b₂
    · subst hne
      obtain ⟨exported, hexport, hlength⟩ := calculate_one rows geminiId b₁
      exact ⟨_, exported, hdiagonal b₁ hb₁, hdiagonal b₁ hb₁, hexport,
        hlength.trans ((all_repeated_iff b₁).mpr (h b₁ hb₁))⟩
    · obtain ⟨exported, hexport, hlength⟩ :=
        calculate_two rows geminiId hne
      refine ⟨_, exported, ?_, ?_, hexport, hlength⟩
      · rw [duplicatedObjects_eq bucketsStats hb₁ hb₂, if_neg hne]
      · rw [duplicatedObjects_eq bucketsStats hb₂ hb₁, if_neg (Ne.symm hne), add_comm]

/-- **An object that is duplicated in another bucket only** counts as duplicated in its own. -/
theorem duplicated_elsewhere : ¬ Agrees [⟨"run", "tag", "a", "x", 5⟩, ⟨"run", "tag", "b", "y", 5⟩]
    "run" ["a", "b"] ∅ := by
  intro h
  obtain ⟨n, exported, hentry, -, hexport, hlength⟩ := h "a" (by decide) "a" (by decide)
  obtain rfl : 1 = n := Option.some.inj (Eq.trans (by decide) hentry)
  obtain rfl : [] = exported := Option.some.inj (Eq.trans (by decide) hexport)
  exact nomatch hlength

end GeminiWorker
