import OptScale.Foundations.Attempts
import OptScale.Foundations.Fallible
import OptScale.Foundations.SetOrder
import OptScale.Gemini.Matrix

/-!
# Gemini/Search — `process_task`: the search for duplicates

The objects of the requested buckets are written to a cache page by page, and counted on the way.  Three layers
meet an exception: `do_cache` raises it again, `find_duplicates` raises botocore's `ClientError` again and only
logs the others, and `process_task` reports what reaches it as a failure.
-/

open Attempts Fallible

namespace GeminiSearch

/-! ## The cloud -/

/-- An exception: botocore's `ClientError`, or any other. -/
inductive Fault
  | clientError (message : String)
  | other (message : String)
  deriving DecidableEq, Repr

/-- `str(exc)` -/
def Fault.message : Fault → String
  | .clientError message => message
  | .other message => message

/-- Fail with what is raised, if anything is. -/
def throwIf : Option Fault → Except Fault Unit
  | some fault => .error fault
  | none => .ok ()

/-- An object as S3 lists it. -/
structure S3Object where
  eTag : String
  key : String
  size : ℕ
  deriving DecidableEq, Repr

/-- A page of `list_objects_v2`. -/
structure Page where
  contents : Option (List S3Object) := none
  /-- What is raised when it is fetched, or one of its objects is read. -/
  fetching : Option Fault := none
  /-- What is raised when its objects are written to the cache. -/
  caching : Option Fault := none

/-- `ObjectInfo` -/
structure ObjectInfo where
  tag : String
  bucket : String
  key : String
  size : ℕ
  deriving DecidableEq, Repr

/-- The double quote. -/
def quote : Char := Char.ofNat 34

/-- `s.strip` of double quotes. -/
def stripQuotes (s : String) : String :=
  String.ofList ((s.toList.dropWhile (· = quote)).reverse.dropWhile (· = quote)).reverse

/-- `from_aws_object_info` -/
def ObjectInfo.fromAwsObjectInfo (bucket : String) (obj : S3Object) : ObjectInfo :=
  { tag := stripQuotes obj.eTag, bucket := bucket, key := obj.key, size := obj.size }

/-- What a task meets: the answers of the services, and what is raised where. -/
structure World where
  /-- The pages of a bucket of an account, if it exists. -/
  bucket : String → String → Option (List Page)
  getAdapter : String → Option Fault := fun _ => none
  createClient : String → Option Fault := fun _ => none
  getBucketLocation : String → String → Option Fault := fun _ _ => none
  getPaginator : String → String → Option Fault := fun _ _ => none
  openCache : Option Fault := none
  getDuplicates : Option Fault := none
  closeCache : Option Fault := none
  organizationGet : Except Fault Bool := .ok false
  cloudAccountGet : String → Option Fault := fun _ => none
  insert : Option Fault := none
  calculateBucketsStats : Option Fault := none
  calculateCrossMatrix : Option Fault := none
  calculateObjectsWithDuplicates : Option Fault := none
  updateStats : Option Fault := none

/-! ## The enumeration of objects -/

/-- What `enumerate` yields, and what caching it raises. -/
structure Yielded where
  objects : List ObjectInfo
  caching : Option Fault

variable (w : World)

/-- A page of a bucket. -/
def enumeratePage (bucket : String) (page : Page) : Attempt Fault Yielded :=
  { fault := page.fetching
    brings := match page.contents with
      | some contents => [⟨contents.map (ObjectInfo.fromAwsObjectInfo bucket), page.caching⟩]
      | none => [] }

/-- A bucket of an account: it is left out where it does not exist. -/
def enumerateBucket (account bucket : String) : List (Attempt Fault Yielded) :=
  { fault := w.getBucketLocation account bucket } ::
    match w.bucket account bucket with
    | some pages => { fault := w.getPaginator account bucket } :: pages.map (enumeratePage bucket)
    | none => []

/-- `AWSObjectEnumerator.enumerate`: what it does in turn, until something is raised. -/
def enumerate (account : String) (buckets : List String) : List (Attempt Fault Yielded) :=
  { fault := w.createClient account } :: buckets.flatMap (enumerateBucket w account)

/-! ## The search -/

/-- What is counted of a bucket. -/
structure BucketCounts where
  totalObjects : ℕ := 0
  filteredObjects : ℕ := 0
  size : ℕ := 0

/-- `Stats` -/
structure Stats where
  totalObjects : ℕ := 0
  filteredObjects : ℕ := 0
  totalSize : ℕ := 0
  duplicatesSize : ℕ := 0
  duplicatedObjects : ℕ := 0
  buckets : Dict String BucketCounts := ∅

/-- The statistics and the rows of the cache. -/
structure Search where
  stats : Stats := {}
  cache : List ObjectInfo := []

/-- `_filter_out_by_size` -/
def filterOutBySize (objects : List ObjectInfo) (size : ℕ) : List ObjectInfo :=
  objects.filter fun o => size ≤ o.size

/-- Count the objects of a page. -/
def Stats.count (stats : Stats) (bucket : String) (objects filtered : List ObjectInfo) : Stats :=
  let counts := (stats.buckets.lookup bucket).getD {}
  let size := (filtered.map ObjectInfo.size).sum
  { stats with
    totalObjects := stats.totalObjects + objects.length
    filteredObjects := stats.filteredObjects + filtered.length
    totalSize := stats.totalSize + size
    buckets := Dict.set stats.buckets bucket
      { totalObjects := counts.totalObjects + objects.length
        filteredObjects := counts.filteredObjects + filtered.length
        size := counts.size + size } }

/-- What caching a page raises: the first object is asked for its bucket, and nothing is written where no
object is of sufficient size. -/
def Yielded.failing (minSize : ℕ) (y : Yielded) : Option Fault :=
  if y.objects = [] then some (.other "list index out of range")
  else if filterOutBySize y.objects minSize = [] then none
  else y.caching

/-- One page of the loop of `do_cache`. -/
def cachePage (minSize : ℕ) (s : Search) (y : Yielded) : Search × Option Fault :=
  match y.objects with
  | [] => (s, y.failing minSize)
  | first :: _ =>
    let filtered := filterOutBySize y.objects minSize
    let stats := s.stats.count first.bucket y.objects filtered
    match y.failing minSize with
    | some fault => ({ s with stats := stats }, some fault)
    | none => ({ stats := stats, cache := s.cache ++ filtered }, none)

/-- The pages one attempt of the enumeration yields. -/
def cachePages (minSize : ℕ) (s : Search) : List Yielded → Search × Option Fault
  | [] => (s, none)
  | y :: ys =>
    match cachePage minSize s y with
    | (s', some fault) => (s', some fault)
    | (s', none) => cachePages minSize s' ys

/-- `do_cache` -/
def doCache (minSize : ℕ) (s : Search) : List (Attempt Fault Yielded) → Search × Option Fault
  | [] => (s, none)
  | a :: as =>
    match a.fault with
    | some fault => (s, some fault)
    | none =>
      match cachePages minSize s a.brings with
      | (s', some fault) => (s', some fault)
      | (s', none) => doCache minSize s' as

/-- The objects whose tag occurs more than once. -/
def duplicatesOf (objects : List ObjectInfo) : List ObjectInfo :=
  objects.filter fun o => 1 < (objects.map ObjectInfo.tag).count o.tag

/-- `_calculate_dup_size`, from an item on. -/
def calculateDupSizeFrom (curItem : ObjectInfo) : List ObjectInfo → ℕ
  | [] => 0
  | item :: rest =>
    if item.tag = curItem.tag then item.size + calculateDupSizeFrom curItem rest
    else calculateDupSizeFrom item rest

/-- `_calculate_dup_size` -/
def calculateDupSize : List ObjectInfo → ℕ
  | [] => 0
  | item :: rest => calculateDupSizeFrom item rest

/-- `get_duplicates`, in the order of the tags. -/
def sortedDuplicates (cache : List ObjectInfo) : List ObjectInfo :=
  (duplicatesOf cache).mergeSort fun o o' => o.tag ≤ o'.tag

/-- The part of `find_duplicates` that is tried. -/
def attemptSearch (minSize : ℕ) (turns : List (Attempt Fault Yielded)) :
    Stats × Except Fault (List ObjectInfo) :=
  match doCache minSize {} turns with
  | (s, some fault) => (s.stats, .error fault)
  | (s, none) =>
    match w.getDuplicates with
    | some fault => (s.stats, .error fault)
    | none =>
      let res := sortedDuplicates s.cache
      ({ s.stats with
          duplicatesSize := s.stats.duplicatesSize + calculateDupSize res
          duplicatedObjects := s.stats.duplicatedObjects + res.length }, .ok res)

/-- `min_size`: neither none nor zero. -/
def effectiveMinSize : Option ℕ → ℕ
  | some (n + 1) => n + 1
  | _ => 1

/-- `find_duplicates` -/
def findDuplicates (data : List (String × List String)) (minSize : Option ℕ) :
    Except Fault (List ObjectInfo × Stats) := do
  throwIf w.openCache
  data.forM fun d => throwIf (w.getAdapter d.1)
  let tried := attemptSearch w (effectiveMinSize minSize) (data.flatMap fun d => enumerate w d.1 d.2)
  throwIf w.closeCache
  match tried with
  | (stats, .ok res) => .ok (res, stats)
  | (_, .error (.clientError message)) => .error (.clientError message)
  | (stats, .error (.other _)) => .ok ([], stats)

end GeminiSearch

namespace GeminiWorker

open GeminiSearch

/-! ## The task -/

/-- A `gemini` as the rest service has it. -/
structure Gemini where
  id : String
  status : String
  organizationId : String
  /-- The accounts and names of the requested buckets. -/
  buckets : List (String × String)
  minSize : Option ℕ := none

/-- `valid_states` -/
def validStates : List String := ["QUEUED", "SUCCESS"]

/-- What becomes of a task. -/
inductive Outcome
  | rejected
  | foundSuccess
  | failed (lastError : String)
  | success (stats : Stats) (rows : List GeminiRow)

variable (order : SetOrder String) (w : World)

/-- The accounts with their buckets. -/
def data (buckets : List (String × String)) : List (String × List String) :=
  (order.toList (buckets.map Prod.fst)).map fun account =>
    (account, order.toList ((buckets.filter fun b => b.1 = account).map Prod.snd))

/-- The row of a duplicate. -/
def row (geminiId : String) (o : ObjectInfo) : GeminiRow :=
  { id := geminiId, tag := o.tag, bucket := o.bucket, key := o.key, size := o.size }

/-- What is done once the task is running. -/
def search (gemini : Gemini) : Except Fault (Stats × List GeminiRow) := do
  let data := data order gemini.buckets
  data.forM fun d => throwIf (w.cloudAccountGet d.1)
  let found ← findDuplicates w data gemini.minSize
  throwIf w.insert
  throwIf w.calculateBucketsStats
  throwIf w.calculateCrossMatrix
  throwIf w.calculateObjectsWithDuplicates
  throwIf w.updateStats
  return (found.2, found.1.map (row gemini.id))

/-- What a task whose gemini is known comes to. -/
def processGemini (gemini : Gemini) : Except Fault Outcome := do
  let disabled ← w.organizationGet
  require (¬ disabled) (.other s!"Organization {gemini.organizationId} is disabled")
  require (gemini.status ∈ validStates) (.other s!"Gemini {gemini.id} in wrong status: {gemini.status}")
  (if gemini.status = "SUCCESS" then .ok .foundSuccess
    else (search order w gemini).map fun done => .success done.1 done.2 : Except Fault Outcome)

/-- `process_task`: the id in the message, and what the rest service answers for it. -/
def processTask (geminiId : Option String) (geminiGet : Except Fault Gemini) : Outcome :=
  if geminiId.getD "" = "" then .rejected
  else
    match geminiGet >>= processGemini order w with
    | .ok outcome => outcome
    | .error fault => .failed fault.message

end GeminiWorker
