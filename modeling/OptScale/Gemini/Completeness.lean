import OptScale.Gemini.Search

/-!
# Gemini/Completeness — whether a search that succeeds is complete

A failure of the cloud's client fails the task.  Any other failure during the search is swallowed: the task
succeeds with the objects counted until then and without duplicates.  So a successful search is complete but for
such a failure, where that lost an object or there was a duplicate to be found (`search_complete_iff`).
-/

open Attempts Fallible

namespace GeminiSearch

/-! ## Duplicates -/

/-- One object for each tag. -/
structure OnePerTag (kept objects : List ObjectInfo) : Prop where
  subset : kept ⊆ objects
  nodup : (kept.map ObjectInfo.tag).Nodup
  covers : ∀ o ∈ objects, o.tag ∈ kept.map ObjectInfo.tag

/-- **What is counted of a sorted list** is its size without one object for each tag. -/
theorem exists_onePerTag_from {item : ObjectInfo} {rest : List ObjectInfo}
    (hsorted : (item :: rest).Pairwise fun o o' => o.tag ≤ o'.tag) :
    ∃ kept, OnePerTag (item :: kept) (item :: rest) ∧
      calculateDupSizeFrom item rest + ((item :: kept).map ObjectInfo.size).sum =
        ((item :: rest).map ObjectInfo.size).sum := by
  induction rest generalizing item with
  | nil => exact ⟨[], ⟨fun _ => id, List.nodup_singleton _, by simp⟩, by simp [calculateDupSizeFrom]⟩
  | cons next rest ih =>
    obtain ⟨hitem, hrest⟩ := List.pairwise_cons.mp hsorted
    by_cases htag : next.tag = item.tag
    · -- a further object of the same tag is counted
      obtain ⟨kept, ⟨hsub, hnodup, hcovers⟩, hsum⟩ := ih <| List.pairwise_cons.mpr
        ⟨fun o ho => hitem o (List.mem_cons_of_mem _ ho), (List.pairwise_cons.mp hrest).2⟩
      refine ⟨kept, ⟨fun o ho => ?_, hnodup, fun o ho => ?_⟩, ?_⟩
      · rcases List.mem_cons.mp (hsub ho) with rfl | ho
        · exact List.mem_cons_self
        · exact List.mem_cons_of_mem _ (List.mem_cons_of_mem _ ho)
      · rcases List.mem_cons.mp ho with rfl | ho
        · exact List.mem_cons_self
        · rcases List.mem_cons.mp ho with rfl | ho
          · rw [htag]
            exact List.mem_cons_self
          · exact hcovers o (List.mem_cons_of_mem _ ho)
      · rw [calculateDupSizeFrom, if_pos htag]
        simp only [List.map_cons, List.sum_cons] at hsum ⊢
        omega
    · -- the first object of another tag is kept
      obtain ⟨kept, ⟨hsub, hnodup, hcovers⟩, hsum⟩ := ih hrest
      have hlater : ∀ o ∈ next :: rest, o.tag ≠ item.tag := fun o ho heq => by
        rcases List.mem_cons.mp ho with rfl | ho'
        · exact htag heq
        · have hle := (List.pairwise_cons.mp hrest).1 o ho'
          exact htag (le_antisymm (heq ▸ hle) (hitem next List.mem_cons_self))
      refine ⟨next :: kept, ⟨fun o ho => ?_, ?_, fun o ho => ?_⟩, ?_⟩
      · rcases List.mem_cons.mp ho with rfl | ho
        · exact List.mem_cons_self
        · exact List.mem_cons_of_mem _ (hsub ho)
      · refine List.nodup_cons.mpr ⟨fun hmem => ?_, hnodup⟩
        obtain ⟨o, ho, heq⟩ := List.mem_map.mp hmem
        exact hlater o (hsub ho) heq
      · rcases List.mem_cons.mp ho with rfl | ho
        · exact List.mem_cons_self
        · exact List.mem_cons_of_mem _ (hcovers o ho)
      · rw [calculateDupSizeFrom, if_neg htag]
        simp only [List.map_cons, List.sum_cons] at hsum ⊢
        omega

theorem exists_onePerTag {objects : List ObjectInfo}
    (hsorted : objects.Pairwise fun o o' => o.tag ≤ o'.tag) :
    ∃ kept, OnePerTag kept objects ∧
      calculateDupSize objects + (kept.map ObjectInfo.size).sum = (objects.map ObjectInfo.size).sum := by
  cases objects with
  | nil => exact ⟨[], ⟨fun _ => id, List.nodup_nil, by simp⟩, rfl⟩
  | cons item rest =>
    obtain ⟨kept, hkept, hsum⟩ := exists_onePerTag_from hsorted
    exact ⟨item :: kept, hkept, hsum⟩

theorem sorted_sortedDuplicates (cache : List ObjectInfo) :
    (sortedDuplicates cache).Pairwise fun o o' => o.tag ≤ o'.tag := by
  have htrans : ∀ a b c : ObjectInfo, decide (a.tag ≤ b.tag) = true → decide (b.tag ≤ c.tag) = true →
      decide (a.tag ≤ c.tag) = true := fun a b c hab hbc =>
    decide_eq_true (le_trans (of_decide_eq_true hab) (of_decide_eq_true hbc))
  have htotal : ∀ a b : ObjectInfo, (decide (a.tag ≤ b.tag) || decide (b.tag ≤ a.tag)) = true := fun a b => by
    simpa using le_total a.tag b.tag
  have hsorted := List.pairwise_mergeSort htrans htotal (duplicatesOf cache)
  exact hsorted.imp of_decide_eq_true

theorem duplicatesOf_perm {objects objects' : List ObjectInfo} (h : objects.Perm objects') :
    (duplicatesOf objects).Perm (duplicatesOf objects') := by
  have hcount : duplicatesOf objects' =
      objects'.filter fun o => 1 < (objects.map ObjectInfo.tag).count o.tag := by
    refine List.filter_congr fun o _ => ?_
    rw [(h.map ObjectInfo.tag).count_eq]
  rw [hcount]
  exact h.filter _

/-- **Nothing is a duplicate** exactly where no tag is repeated. -/
theorem duplicatesOf_eq_nil {objects : List ObjectInfo} :
    duplicatesOf objects = [] ↔ (objects.map ObjectInfo.tag).Nodup := by
  simp only [duplicatesOf, List.filter_eq_nil_iff, decide_eq_true_eq, not_lt, List.nodup_iff_count_le_one]
  constructor
  · intro h tag
    by_cases hmem : tag ∈ objects.map ObjectInfo.tag
    · obtain ⟨o, ho, rfl⟩ := List.mem_map.mp hmem
      exact h o ho
    · rw [List.count_eq_zero_of_not_mem hmem]
      exact Nat.zero_le _
  · exact fun h o _ => h o.tag

/-! ## Complete searches -/

/-- **The statistics and the duplicates are those of the objects**: the size is the size of the duplicates
without one object for each tag. -/
structure Complete (objects : List ObjectInfo) (stats : Stats) (found : List ObjectInfo) : Prop where
  filteredObjects : stats.filteredObjects = objects.length
  duplicatedObjects : stats.duplicatedObjects = (duplicatesOf objects).length
  duplicatesSize : ∃ kept, OnePerTag kept (duplicatesOf objects) ∧
    stats.duplicatesSize + (kept.map ObjectInfo.size).sum = ((duplicatesOf objects).map ObjectInfo.size).sum
  found : found.Perm (duplicatesOf objects)

theorem OnePerTag.perm {kept objects objects' : List ObjectInfo} (h : OnePerTag kept objects)
    (hperm : objects.Perm objects') : OnePerTag kept objects' :=
  ⟨fun _ ho => hperm.mem_iff.mp (h.subset ho), h.nodup, fun o ho => h.covers o (hperm.mem_iff.mpr ho)⟩

/-- What was found and counted of some objects. -/
theorem complete_of_perm {objects cache : List ObjectInfo} (hperm : cache.Perm objects) {stats : Stats}
    (hfiltered : stats.filteredObjects = cache.length)
    (hsize : stats.duplicatesSize = calculateDupSize (sortedDuplicates cache))
    (hcount : stats.duplicatedObjects = (sortedDuplicates cache).length) :
    Complete objects stats (sortedDuplicates cache) := by
  have hfound : (sortedDuplicates cache).Perm (duplicatesOf objects) :=
    (List.mergeSort_perm _ _).trans (duplicatesOf_perm hperm)
  obtain ⟨kept, hkept, hsum⟩ := exists_onePerTag (sorted_sortedDuplicates cache)
  refine ⟨?_, ?_, ⟨kept, hkept.perm hfound, ?_⟩, hfound⟩
  · rw [hfiltered, hperm.length_eq]
  · rw [hcount, hfound.length_eq]
  · rw [hsize, hsum, (hfound.map ObjectInfo.size).sum_eq]

/-- What is complete without any duplicate. -/
theorem complete_nil_iff {objects : List ObjectInfo} {stats : Stats} (hcount : stats.duplicatedObjects = 0)
    (hsize : stats.duplicatesSize = 0) :
    Complete objects stats [] ↔
      stats.filteredObjects = objects.length ∧ (objects.map ObjectInfo.tag).Nodup := by
  rw [← duplicatesOf_eq_nil]
  constructor
  · intro h
    exact ⟨h.filteredObjects, List.eq_nil_of_length_eq_zero (h.duplicatedObjects.symm.trans hcount)⟩
  · rintro ⟨hfiltered, hnil⟩
    refine ⟨hfiltered, by rw [hcount, hnil]; rfl, ⟨[], ?_, by rw [hsize, hnil]; rfl⟩, by rw [hnil]⟩
    rw [hnil]
    exact ⟨fun _ => id, List.nodup_nil, by simp⟩

/-! ## The attempts of a search -/

variable (minSize : ℕ)

/-- A page that is yielded brings its objects of sufficient size, and then is cached. -/
def Yielded.attempts (y : Yielded) : List (Attempt Fault ObjectInfo) :=
  [{ brings := filterOutBySize y.objects minSize }, { fault := y.failing minSize }]

/-- An attempt of the enumeration, and the pages it yields. -/
def turnAttempts (a : Attempt Fault Yielded) : List (Attempt Fault ObjectInfo) :=
  { fault := a.fault } :: a.brings.flatMap (Yielded.attempts minSize)

/-- What `do_cache` attempts. -/
def cacheAttempts (turns : List (Attempt Fault Yielded)) : List (Attempt Fault ObjectInfo) :=
  turns.flatMap (turnAttempts minSize)

/-- Nothing but the rows and the counts of the search changes, and they follow the attempts. -/
structure Counted (s : Search) (l : List (Attempt Fault ObjectInfo)) (r : Search × Option Fault) : Prop where
  follows : Follows (fun s : Search => s.stats.filteredObjects) Search.cache s l r
  duplicatesSize : r.1.stats.duplicatesSize = s.stats.duplicatesSize
  duplicatedObjects : r.1.stats.duplicatedObjects = s.stats.duplicatedObjects

variable {minSize}

theorem Counted.append_of_raised {s s' : Search} {l l' : List (Attempt Fault ObjectInfo)} {fault : Fault}
    (h : Counted s l (s', some fault)) : Counted s (l ++ l') (s', some fault) :=
  ⟨h.follows.append_of_raised l', h.duplicatesSize, h.duplicatedObjects⟩

theorem Counted.append {s s' : Search} {l l' : List (Attempt Fault ObjectInfo)} {r : Search × Option Fault}
    (h : Counted s l (s', none)) (h' : Counted s' l' r) : Counted s (l ++ l') r :=
  ⟨h.follows.append h'.follows, h'.duplicatesSize.trans h.duplicatesSize,
    h'.duplicatedObjects.trans h.duplicatedObjects⟩

theorem counted_nil (s : Search) : Counted s [] (s, none) := ⟨Follows.nil, rfl, rfl⟩

/-- A failing attempt that is made before anything is counted. -/
theorem counted_fault (s : Search) (fault : Option Fault) : Counted s [{ fault := fault }] (s, fault) := by
  cases fault with
  | none => exact ⟨⟨rfl, rfl, fun _ => (List.append_nil _).symm⟩, rfl, rfl⟩
  | some fault => exact ⟨⟨rfl, rfl, fun h => nomatch h⟩, rfl, rfl⟩

variable (minSize) in
/-- **One page**: it is counted before it is cached. -/
theorem cachePage_counted (s : Search) (y : Yielded) :
    Counted s (y.attempts minSize) (cachePage minSize s y) := by
  unfold cachePage Yielded.attempts
  rcases hobjects : y.objects with _ | ⟨first, rest⟩
  · have hfailing : y.failing minSize = some (.other "list index out of range") := by
      rw [Yielded.failing, if_pos hobjects]
    rw [hfailing]
    exact ⟨⟨rfl, rfl, fun h => by cases h⟩, rfl, rfl⟩
  · rcases hfailing : y.failing minSize with _ | fault
    · refine ⟨⟨rfl, ?_, fun _ => ?_⟩, rfl, rfl⟩ <;> simp [brought, Stats.count]
    · refine ⟨⟨rfl, ?_, fun h => by cases h⟩, rfl, rfl⟩
      simp [brought, Stats.count]

variable (minSize) in
theorem cachePages_counted (s : Search) (ys : List Yielded) :
    Counted s (ys.flatMap (Yielded.attempts minSize)) (cachePages minSize s ys) := by
  induction ys generalizing s with
  | nil => exact counted_nil s
  | cons y ys ih =>
    have hpage := cachePage_counted minSize s y
    rw [List.flatMap_cons, cachePages]
    rcases hp : cachePage minSize s y with ⟨s', _ | fault⟩
    · exact (hp ▸ hpage).append (ih s')
    · exact (hp ▸ hpage).append_of_raised

variable (minSize) in
/-- **`do_cache` follows its attempts.** -/
theorem doCache_counted (s : Search) (turns : List (Attempt Fault Yielded)) :
    Counted s (cacheAttempts minSize turns) (doCache minSize s turns) := by
  induction turns generalizing s with
  | nil => exact counted_nil s
  | cons a turns ih =>
    have hstart := counted_fault s a.fault
    have hcons : cacheAttempts minSize (a :: turns) = [{ fault := a.fault }] ++
        (a.brings.flatMap (Yielded.attempts minSize) ++ cacheAttempts minSize turns) := rfl
    rw [hcons, doCache]
    rcases hf : a.fault with _ | fault
    · have hpages := cachePages_counted minSize s a.brings
      refine Counted.append (hf ▸ hstart) ?_
      rcases hp : cachePages minSize s a.brings with ⟨s', _ | fault⟩
      · exact (hp ▸ hpages).append (ih s')
      · exact (hp ▸ hpages).append_of_raised
    · exact Counted.append_of_raised (hf ▸ hstart)

/-- What a search attempts: to cache the objects, and to read the duplicates. -/
def searchAttempts (w : World) (minSize : ℕ) (turns : List (Attempt Fault Yielded)) : List (Attempt Fault ObjectInfo) :=
  cacheAttempts minSize turns ++ [{ fault := w.getDuplicates }]

variable {w : World} {turns : List (Attempt Fault Yielded)}

theorem offered_searchAttempts :
    offered (searchAttempts w minSize turns) = offered (cacheAttempts minSize turns) := by
  rw [searchAttempts, offered_append]
  exact List.append_nil _

/-- **A search in which nothing fails.** -/
theorem attemptSearch_of_none (h : raised (searchAttempts w minSize turns) = none)
    {objects : List ObjectInfo} (hperm : (offered (searchAttempts w minSize turns)).Perm objects) :
    ∃ stats found, attemptSearch w minSize turns = (stats, .ok found) ∧ Complete objects stats found := by
  have hcounted := doCache_counted minSize {} turns
  rw [searchAttempts, raised_append, Option.or_eq_none_iff, raised_singleton] at h
  rw [offered_searchAttempts] at hperm
  rcases hcache : doCache minSize {} turns with ⟨s, fault⟩
  rw [hcache] at hcounted
  obtain rfl : fault = none := hcounted.follows.raised_eq.trans h.1
  have hquery : w.getDuplicates = none := h.2
  have hbrought := brought_of_raised_eq_none h.1
  have hkept : s.cache = offered (cacheAttempts minSize turns) :=
    (hcounted.follows.kept_eq rfl).trans hbrought
  refine ⟨_, sortedDuplicates s.cache, by rw [attemptSearch, hcache]; simp only [hquery]; rfl, ?_⟩
  refine complete_of_perm (hkept ▸ hperm) ?_ ?_ ?_
  · rw [hkept, ← hbrought]
    exact hcounted.follows.count_eq.trans (Nat.zero_add _)
  · have hzero : s.stats.duplicatesSize = 0 := hcounted.duplicatesSize
    simp only [hzero, Nat.zero_add]
  · have hzero : s.stats.duplicatedObjects = 0 := hcounted.duplicatedObjects
    simp only [hzero, Nat.zero_add]

/-- **A search in which something fails** has counted what was brought before. -/
theorem attemptSearch_of_some {fault : Fault} (h : raised (searchAttempts w minSize turns) = some fault) :
    ∃ stats, attemptSearch w minSize turns = (stats, .error fault) ∧ stats.duplicatedObjects = 0 ∧
      stats.duplicatesSize = 0 ∧
      stats.filteredObjects = (brought (searchAttempts w minSize turns)).length := by
  have hcounted := doCache_counted minSize {} turns
  rcases hcache : doCache minSize {} turns with ⟨s, raisedFault⟩
  rw [hcache] at hcounted
  have hraised := hcounted.follows.raised_eq
  have hcount : s.stats.filteredObjects = (brought (cacheAttempts minSize turns)).length :=
    hcounted.follows.count_eq.trans (Nat.zero_add _)
  rw [searchAttempts, raised_append, ← hraised] at h
  refine ⟨s.stats, ?_, hcounted.duplicatedObjects, hcounted.duplicatesSize, ?_⟩
  · rcases raisedFault with _ | other
    · have hquery : w.getDuplicates = some fault := by simpa using h
      rw [attemptSearch, hcache]
      simp only [hquery]
    · obtain rfl : other = fault := Option.some.inj h
      rw [attemptSearch, hcache]
  · rw [hcount, searchAttempts]
    rcases raisedFault with _ | other
    · rw [brought_append_of_none hraised.symm, List.length_append]
      have hnothing : brought [({ fault := w.getDuplicates } : Attempt Fault ObjectInfo)] = [] := by
        cases hq : w.getDuplicates <;> rfl
      rw [hnothing, List.length_nil, Nat.add_zero]
    · rw [brought_append_of_raised hraised.symm]

end GeminiSearch

namespace GeminiWorker

open GeminiSearch

/-! ## Tasks -/

/-- The objects of a requested bucket: none where it does not exist. -/
def objectsOf (w : World) (b : String × String) : List ObjectInfo :=
  ((w.bucket b.1 b.2).getD []).flatMap fun page =>
    (page.contents.getD []).map (ObjectInfo.fromAwsObjectInfo b.2)

/-- The objects of sufficient size in the requested buckets, each bucket once. -/
def sought (w : World) (gemini : Gemini) : List ObjectInfo :=
  filterOutBySize (gemini.buckets.dedup.flatMap (objectsOf w)) (effectiveMinSize gemini.minSize)

/-- What `enumerate` does for all the accounts. -/
def turns (order : SetOrder String) (w : World) (gemini : Gemini) : List (Attempt Fault Yielded) :=
  (data order gemini.buckets).flatMap fun d => enumerate w d.1 d.2

/-- What the search of a task attempts. -/
def attempts (order : SetOrder String) (w : World) (gemini : Gemini) : List (Attempt Fault ObjectInfo) :=
  searchAttempts w (effectiveMinSize gemini.minSize) (turns order w gemini)

variable {order : SetOrder String} {w : World} {gemini : Gemini}

theorem offered_bucket (minSize : ℕ) (account bucket : String) :
    offered (cacheAttempts minSize (enumerateBucket w account bucket)) =
      filterOutBySize (objectsOf w (account, bucket)) minSize := by
  rw [enumerateBucket, objectsOf]
  rcases hb : w.bucket account bucket with _ | pages
  · rfl
  · have hpage : ∀ page : Page, offered (turnAttempts minSize (enumeratePage bucket page)) =
        filterOutBySize ((page.contents.getD []).map (ObjectInfo.fromAwsObjectInfo bucket)) minSize := by
      intro page
      rcases hc : page.contents with _ | contents <;>
        simp [turnAttempts, enumeratePage, Yielded.attempts, offered, filterOutBySize, hc]
    have hall : offered (cacheAttempts minSize (pages.map (enumeratePage bucket))) =
        pages.flatMap fun page => offered (turnAttempts minSize (enumeratePage bucket page)) := by
      rw [cacheAttempts, offered, List.flatMap_assoc, List.flatMap_map]
      rfl
    calc offered (cacheAttempts minSize
          ({ fault := w.getBucketLocation account bucket } ::
            { fault := w.getPaginator account bucket } :: pages.map (enumeratePage bucket)))
        = offered (cacheAttempts minSize (pages.map (enumeratePage bucket))) := rfl
      _ = pages.flatMap fun page => offered (turnAttempts minSize (enumeratePage bucket page)) := hall
      _ = _ := by
        simp only [hpage, filterOutBySize, List.filter_flatMap, Option.getD_some]

/-- **The objects offered to a search are those sought**, in some order. -/
theorem offered_attempts : (offered (attempts order w gemini)).Perm (sought w gemini) := by
  have haccount : ∀ (minSize : ℕ) (d : String × List String),
      offered (cacheAttempts minSize (enumerate w d.1 d.2)) =
        (d.2.map fun bucket => (d.1, bucket)).flatMap fun b => filterOutBySize (objectsOf w b) minSize := by
    intro minSize d
    have hstart : offered (cacheAttempts minSize (enumerate w d.1 d.2)) =
        offered (cacheAttempts minSize (d.2.flatMap (enumerateBucket w d.1))) := rfl
    rw [hstart, cacheAttempts, offered, List.flatMap_assoc, List.flatMap_assoc, List.flatMap_map]
    refine congrArg (fun f => d.2.flatMap f) (funext fun bucket => ?_)
    rw [← offered_bucket, cacheAttempts, offered, List.flatMap_assoc]
  have hall : offered (attempts order w gemini) =
      ((data order gemini.buckets).flatMap fun d => d.2.map fun bucket => (d.1, bucket)).flatMap
        fun b => filterOutBySize (objectsOf w b) (effectiveMinSize gemini.minSize) := by
    rw [attempts, offered_searchAttempts, turns, cacheAttempts, offered, List.flatMap_assoc,
      List.flatMap_assoc, List.flatMap_assoc]
    refine congrArg (fun f => (data order gemini.buckets).flatMap f) (funext fun d => ?_)
    rw [← haccount, cacheAttempts, offered, List.flatMap_assoc]
  have hpairs : ((data order gemini.buckets).flatMap fun d => d.2.map fun bucket => (d.1, bucket)).Perm
      gemini.buckets.dedup := by
    rw [data, List.flatMap_map]
    exact order.flatMap_toList_perm order gemini.buckets
  rw [hall, sought, filterOutBySize, List.filter_flatMap]
  exact hpairs.flatMap_right _

/-- **Nothing outside the search fails.** -/
structure Undisturbed (w : World) (gemini : Gemini) : Prop where
  organizationGet : w.organizationGet = .ok false
  queued : gemini.status = "QUEUED"
  cloudAccountGet : ∀ b ∈ gemini.buckets, w.cloudAccountGet b.1 = none
  openCache : w.openCache = none
  getAdapter : ∀ b ∈ gemini.buckets, w.getAdapter b.1 = none
  closeCache : w.closeCache = none
  insert : w.insert = none
  calculateBucketsStats : w.calculateBucketsStats = none
  calculateCrossMatrix : w.calculateCrossMatrix = none
  calculateObjectsWithDuplicates : w.calculateObjectsWithDuplicates = none
  updateStats : w.updateStats = none

/-- **The search loses something**: what is raised first is no `ClientError`, and from then on there was an
object to come, or a tag is repeated among the objects. -/
structure Loses (order : SetOrder String) (w : World) (gemini : Gemini) : Prop where
  raised : ∃ message, raised (attempts order w gemini) = some (.other message)
  lost : ¬ (missed (attempts order w gemini) = [] ∧ ((sought w gemini).map ObjectInfo.tag).Nodup)

/-- **A successful search is a complete one.** -/
structure CompleteOrFailed (order : SetOrder String) (w : World) (geminiId : Option String)
    (geminiGet : Except Fault Gemini) : Prop where
  /-- A task is rejected, or was done before, or it is reported to have failed or to have succeeded. -/
  reported : geminiId.getD "" = "" ∨ (∃ gemini, geminiGet = .ok gemini ∧ gemini.status = "SUCCESS") ∨
    (∃ lastError, processTask order w geminiId geminiGet = .failed lastError) ∨
      ∃ stats rows, processTask order w geminiId geminiGet = .success stats rows
  complete : ∀ stats rows, processTask order w geminiId geminiGet = .success stats rows →
    ∃ gemini found, geminiGet = .ok gemini ∧ rows = found.map (row gemini.id) ∧
      Complete (sought w gemini) stats found

theorem throwIf_eq_ok {fault : Option Fault} {u : Unit} : throwIf fault = .ok u ↔ fault = none := by
  cases fault with
  | none => exact ⟨fun _ => rfl, fun _ => rfl⟩
  | some fault => exact ⟨fun h => (nomatch h), fun h => (nomatch h)⟩

theorem mem_data {account : String} : (∃ d ∈ data order gemini.buckets, d.1 = account) ↔
    ∃ b ∈ gemini.buckets, b.1 = account := by
  simp only [data, List.mem_map, order.mem]
  constructor
  · rintro ⟨_, ⟨_, hb, rfl⟩, rfl⟩
    exact hb
  · exact fun hb => ⟨_, ⟨account, hb, rfl⟩, rfl⟩

theorem forM_data_eq_ok {f : String → Option Fault} {u : Unit} :
    ((data order gemini.buckets).forM fun d => throwIf (f d.1)) = .ok u ↔
      ∀ b ∈ gemini.buckets, f b.1 = none := by
  have hall := forM_eq_ok (f := fun d : String × List String => throwIf (f d.1))
    (l := data order gemini.buckets)
  rw [show u = ⟨⟩ from rfl, hall]
  simp only [throwIf_eq_ok]
  constructor
  · intro h b hb
    obtain ⟨d, hd, heq⟩ := mem_data.mpr ⟨b, hb, rfl⟩
    exact heq ▸ h d hd
  · intro h d hd
    obtain ⟨b, hb, heq⟩ := mem_data.mp ⟨d, hd, rfl⟩
    exact heq ▸ h b hb

/-- **What is left of a failure**: nothing but a `ClientError` reaches the caller of `find_duplicates`. -/
theorem findDuplicates_eq_ok {minSize : Option ℕ} {found : List ObjectInfo} {stats : Stats} :
    findDuplicates w (data order gemini.buckets) minSize = .ok (found, stats) ↔
      w.openCache = none ∧ (∀ b ∈ gemini.buckets, w.getAdapter b.1 = none) ∧ w.closeCache = none ∧
        (attemptSearch w (effectiveMinSize minSize) (turns order w gemini) = (stats, .ok found) ∨
          ∃ message, attemptSearch w (effectiveMinSize minSize) (turns order w gemini) =
            (stats, .error (.other message)) ∧ found = []) := by
  unfold findDuplicates
  simp only [bind_eq_ok, throwIf_eq_ok, forM_data_eq_ok, exists_const]
  refine and_congr_right' (and_congr_right' (and_congr_right' ?_))
  unfold turns
  generalize attemptSearch w (effectiveMinSize minSize) _ = tried
  rcases tried with ⟨stats', fault | res⟩
  · cases fault <;> simp [eq_comm, and_comm]
  · simp [and_comm]

theorem search_eq_ok {stats : Stats} {rows : List GeminiRow} :
    search order w gemini = .ok (stats, rows) ↔
      (∀ b ∈ gemini.buckets, w.cloudAccountGet b.1 = none) ∧
      (∃ found, findDuplicates w (data order gemini.buckets) gemini.minSize = .ok (found, stats) ∧
        rows = found.map (row gemini.id)) ∧
      w.insert = none ∧ w.calculateBucketsStats = none ∧ w.calculateCrossMatrix = none ∧
        w.calculateObjectsWithDuplicates = none ∧ w.updateStats = none := by
  unfold search
  simp only [bind_eq_ok, throwIf_eq_ok, forM_data_eq_ok, exists_const, pure_eq_ok, Prod.mk.injEq,
    Prod.exists]
  constructor
  · rintro ⟨haccounts, found, _, hfound, hi, hb, hc, ho, hu, rfl, rfl⟩
    exact ⟨haccounts, ⟨found, hfound, rfl⟩, hi, hb, hc, ho, hu⟩
  · rintro ⟨haccounts, ⟨found, hfound, rfl⟩, hi, hb, hc, ho, hu⟩
    exact ⟨haccounts, found, _, hfound, hi, hb, hc, ho, hu, rfl, rfl⟩

/-- **A task succeeds** where nothing fails outside its search, and nothing but a swallowed exception in it. -/
theorem processGemini_eq_success {stats : Stats} {rows : List GeminiRow} :
    processGemini order w gemini = .ok (.success stats rows) ↔
      Undisturbed w gemini ∧ ∃ found, rows = found.map (row gemini.id) ∧
        (attemptSearch w (effectiveMinSize gemini.minSize) (turns order w gemini) = (stats, .ok found) ∨
          ∃ message, attemptSearch w (effectiveMinSize gemini.minSize) (turns order w gemini) =
            (stats, .error (.other message)) ∧ found = []) := by
  have hsearch : (search order w gemini).map (fun done => Outcome.success done.1 done.2) =
      .ok (.success stats rows) ↔ search order w gemini = .ok (stats, rows) := by
    rcases search order w gemini with fault | ⟨stats', rows'⟩
    · exact iff_of_false (fun h => by cases h) fun h => by cases h
    · simp [Except.map]
  unfold processGemini
  simp only [bind_eq_ok, require_eq_ok]
  constructor
  · rintro ⟨disabled, horganization, -, hdisabled, -, hstatus, hrun⟩
    split at hrun
    · cases hrun
    next hnew =>
    obtain ⟨haccounts, ⟨found, hfound, rfl⟩, hi, hb, hc, ho, hu⟩ := search_eq_ok.mp (hsearch.mp hrun)
    obtain ⟨hopen, hadapters, hclose, htried⟩ := findDuplicates_eq_ok.mp hfound
    have hqueued : gemini.status = "QUEUED" := by simpa [validStates, hnew] using hstatus
    obtain rfl : disabled = false := by simpa using hdisabled
    exact ⟨⟨horganization, hqueued, haccounts, hopen, hadapters, hclose, hi, hb, hc, ho, hu⟩,
      found, rfl, htried⟩
  · rintro ⟨h, found, rfl, htried⟩
    refine ⟨false, h.organizationGet, ⟨⟩, by simp, ⟨⟩, by simp [validStates, h.queued], ?_⟩
    rw [if_neg (by simp [h.queued]), hsearch]
    exact search_eq_ok.mpr ⟨h.cloudAccountGet,
      ⟨found, findDuplicates_eq_ok.mpr ⟨h.openCache, h.getAdapter, h.closeCache, htried⟩, rfl⟩,
      h.insert, h.calculateBucketsStats, h.calculateCrossMatrix, h.calculateObjectsWithDuplicates,
      h.updateStats⟩

theorem processTask_eq_success {geminiId : Option String} {geminiGet : Except Fault Gemini} {stats : Stats}
    {rows : List GeminiRow} : processTask order w geminiId geminiGet = .success stats rows ↔
      geminiId.getD "" ≠ "" ∧ ∃ gemini, geminiGet = .ok gemini ∧
        processGemini order w gemini = .ok (.success stats rows) := by
  unfold processTask
  split
  next hid => exact ⟨fun h => (nomatch h), fun h => absurd hid h.1⟩
  next hid =>
    rcases geminiGet with fault | gemini
    · simp [hid]
    · simp only [ok_bind, Except.ok.injEq, exists_eq_left', ne_eq, hid, not_false_eq_true, true_and]
      rcases processGemini order w gemini with fault | outcome <;> simp

/-- A task is rejected, was done before, fails or succeeds. -/
theorem processTask_reports (geminiId : Option String) (geminiGet : Except Fault Gemini) :
    geminiId.getD "" = "" ∨ (∃ gemini, geminiGet = .ok gemini ∧ gemini.status = "SUCCESS") ∨
      (∃ lastError, processTask order w geminiId geminiGet = .failed lastError) ∨
        ∃ stats rows, processTask order w geminiId geminiGet = .success stats rows := by
  by_cases hid : geminiId.getD "" = ""
  · exact Or.inl hid
  refine Or.inr ?_
  unfold processTask
  rw [if_neg hid]
  rcases hrun : geminiGet >>= processGemini order w with fault | outcome
  · exact Or.inr (Or.inl ⟨fault.message, rfl⟩)
  obtain ⟨gemini, hget, hgemini⟩ := bind_eq_ok.mp hrun
  unfold processGemini at hgemini
  simp only [bind_eq_ok, require_eq_ok] at hgemini
  obtain ⟨disabled, -, -, -, -, -, houtcome⟩ := hgemini
  by_cases hstatus : gemini.status = "SUCCESS"
  · exact Or.inl ⟨gemini, hget, hstatus⟩
  rw [if_neg hstatus] at houtcome
  rcases hsearch : search order w gemini with fault | done
  · rw [hsearch] at houtcome
    cases houtcome
  · rw [hsearch] at houtcome
    obtain rfl := Except.ok.inj houtcome
    exact Or.inr (Or.inr ⟨done.1, done.2, rfl⟩)

/-- **A swallowed exception** leaves a complete search exactly where nothing is lost by it. -/
theorem complete_nil_iff_missed {stats : Stats} (hcount : stats.duplicatedObjects = 0)
    (hsize : stats.duplicatesSize = 0)
    (hfiltered : stats.filteredObjects = (brought (attempts order w gemini)).length) :
    Complete (sought w gemini) stats [] ↔
      missed (attempts order w gemini) = [] ∧ ((sought w gemini).map ObjectInfo.tag).Nodup := by
  have hlength := congrArg List.length (brought_append_missed (attempts order w gemini))
  rw [List.length_append, offered_attempts.length_eq] at hlength
  rw [complete_nil_iff hcount hsize, hfiltered, ← List.length_eq_zero_iff]
  refine and_congr_left fun _ => ?_
  omega

/-- **A successful search is complete exactly where no swallowed exception loses an object or a duplicate.** -/
theorem search_complete_iff (order : SetOrder String) (w : World) (geminiId : Option String)
    (geminiGet : Except Fault Gemini) :
    CompleteOrFailed order w geminiId geminiGet ↔
      ∀ gemini, geminiId.getD "" ≠ "" → geminiGet = .ok gemini → Undisturbed w gemini →
        ¬ Loses order w gemini := by
  constructor
  · rintro h gemini hid hget hundisturbed ⟨⟨message, hraised⟩, hlost⟩
    obtain ⟨stats, hattempt, hcount, hsize, hfiltered⟩ := attemptSearch_of_some hraised
    obtain ⟨gemini', found, hget', hrows, hcomplete⟩ := h.complete stats [] <| processTask_eq_success.mpr
      ⟨hid, gemini, hget, processGemini_eq_success.mpr
        ⟨hundisturbed, [], rfl, Or.inr ⟨message, hattempt, rfl⟩⟩⟩
    obtain rfl : gemini = gemini' := Except.ok.inj (hget.symm.trans hget')
    obtain rfl : found = [] := List.map_eq_nil_iff.mp hrows.symm
    exact hlost ((complete_nil_iff_missed hcount hsize hfiltered).mp hcomplete)
  · intro h
    refine ⟨processTask_reports geminiId geminiGet, fun stats rows hsuccess => ?_⟩
    obtain ⟨hid, gemini, hget, hgemini⟩ := processTask_eq_success.mp hsuccess
    obtain ⟨hundisturbed, found, hrows, htried⟩ := processGemini_eq_success.mp hgemini
    refine ⟨gemini, found, hget, hrows, ?_⟩
    rcases hraised : raised (attempts order w gemini) with _ | fault
    · -- nothing is raised: everything was cached and read
      obtain ⟨stats', found', hattempt, hcomplete⟩ := attemptSearch_of_none hraised offered_attempts
      rcases htried with hok | ⟨message, herror, -⟩
      · obtain ⟨rfl, hfound⟩ := Prod.mk.inj (hattempt.symm.trans hok)
        exact Except.ok.inj hfound ▸ hcomplete
      · exact nomatch (Prod.mk.inj (hattempt.symm.trans herror)).2
    · obtain ⟨stats', hattempt, hcount, hsize, hfiltered⟩ := attemptSearch_of_some hraised
      rcases htried with hok | ⟨message, herror, rfl⟩
      · exact nomatch (Prod.mk.inj (hattempt.symm.trans hok)).2
      · obtain ⟨rfl, hfault⟩ := Prod.mk.inj (hattempt.symm.trans herror)
        obtain rfl : fault = .other message := Except.error.inj hfault
        refine (complete_nil_iff_missed hcount hsize hfiltered).mpr (not_not.mp fun hlost => ?_)
        exact h gemini hid hget hundisturbed ⟨⟨message, hraised⟩, hlost⟩

/-- A bucket of two pages: the connection breaks before the second. -/
def brokenConnection : World where
  bucket account bucket :=
    if account = "a1" ∧ bucket = "b1" then
      some [{ contents := some [⟨"e1", "k1", 10⟩] },
        { contents := some [⟨"e1", "k2", 10⟩], fetching := some (.other "timed out") }]
    else none

/-- A search of that bucket. -/
def requestedBucket : Gemini :=
  { id := "g1", status := "QUEUED", organizationId := "o1", buckets := [("a1", "b1")] }

/-- **The copy on the second page is not seen**, and the task succeeds. -/
theorem succeeds_with_half : ¬ ∀ (order : SetOrder String) (w : World) (geminiId : Option String)
    (geminiGet : Except Fault Gemini), CompleteOrFailed order w geminiId geminiGet := by
  intro h
  obtain ⟨gemini, found, hget, -, hcomplete⟩ :=
    (h SetOrder.lastCome brokenConnection (some "g1") (.ok requestedBucket)).complete _ _ rfl
  obtain rfl : requestedBucket = gemini := Except.ok.inj hget
  exact absurd hcomplete.filteredObjects (by decide)

end GeminiWorker
