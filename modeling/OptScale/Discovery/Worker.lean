import OptScale.Foundations.Chunks
import OptScale.Foundations.Interleave
import OptScale.Rest.Database

/-!
# Discovery/Worker — `_discover_resources` and its saver

The discovery loop asks its generators in turn, gathers what they yield in one set, and hands the
set over to the saver when it is full.  What goes through the queue is a reference to the set: the
loop empties the set after that and goes on with it.  The saver is another thread, which takes
references from the queue and saves what is in the set by then.
-/

/-- An exception, with the status of its response if it has one. -/
structure Exception where
  statusCode : Option ℕ
  text : String
deriving DecidableEq, Repr

/-- A discovery generator: what is still to be yielded, and the exception it ends with, if any. -/
structure Generator (ρ : Type) where
  yields : List ρ
  raises : Option Exception
deriving DecidableEq, Repr

/-- What `next` of a generator gives: a resource, nothing, or an exception. -/
inductive Extracted (ρ : Type)
  | resource (res : ρ)
  | nothing
  | exception (e : Exception)
deriving DecidableEq, Repr

/-- A resource, with what the worker sets in it. -/
structure Discovered (ρ : Type) where
  resource : ρ
  cloudAccountId : Uuid
  cloudType : String
deriving DecidableEq, Repr

/-- A reference to a set. -/
abbrev SetRef := ℕ

namespace DiscoveryWorker

/-- `CHUNK_SIZE` -/
def chunkSize : ℕ := 200

/-- The cloud account, the parallelism of its adapter, and the length of the queue; the queue has no
bound when that is 0. -/
structure Config where
  cloudAccountId : Uuid
  cloudType : String
  maxParallelRequests : ℕ+
  queueLen : ℕ

/-- A resource, once its account and cloud type are set. -/
def Config.own {ρ : Type} (C : Config) (res : ρ) : Discovered ρ :=
  ⟨res, C.cloudAccountId, C.cloudType⟩

/-- Where the discovery loop is: between two futures, before a `send`, before a `clear`, before the
last `send`, after it. -/
inductive Phase
  | discovering | sending | clearing | flushing | finished
deriving DecidableEq, Repr

/-- The two threads: the slices of `gen_list` to come, the generators that stay in
`gen_list_chunk`, the futures of the round; the sets by reference, the set in use, the counter and
the errors; the queue; and what the saver has taken and saved. -/
structure State (ρ : Type) where
  phase : Phase
  slices : List (List (Generator ρ))
  genListChunk : List (Generator ρ)
  futures : List (Extracted ρ × Generator ρ)
  sets : SetRef → Finset (Discovered ρ)
  discoveredResources : SetRef
  resourcesCount : ℕ
  errors : List String
  queue : List SetRef
  chunk : Option SetRef
  saved : List (Finset (Discovered ρ))

variable {ρ : Type}

/-- `extract_from_generator`; a generator that has raised has ended. -/
def extractFromGenerator : Generator ρ → Extracted ρ × Generator ρ
  | ⟨r :: rs, e⟩ => (.resource r, ⟨rs, e⟩)
  | ⟨[], some e⟩ => (.exception e, ⟨[], none⟩)
  | ⟨[], none⟩ => (.nothing, ⟨[], none⟩)

/-- `is_404` -/
def is404 (e : Exception) : Prop := e.statusCode = some 404

instance : DecidablePred is404 := fun e => inferInstanceAs (Decidable (e.statusCode = some 404))

/-- The set in use. -/
def State.discovered (s : State ρ) : Finset (Discovered ρ) := s.sets s.discoveredResources

/-- The set in use holds something else. -/
def State.setDiscovered (s : State ρ) (resources : Finset (Discovered ρ)) : State ρ :=
  { s with sets := Function.update s.sets s.discoveredResources resources }

/-- The check for a full set, after a future. -/
def checkChunk (s : State ρ) : State ρ :=
  if chunkSize ≤ s.discovered.card then
    { s with phase := .sending, resourcesCount := s.resourcesCount + s.discovered.card }
  else s

/-- One future: a 404 is skipped, another exception or the end removes the generator, a resource is
added to the set. -/
def processFuture [DecidableEq ρ] (C : Config) (res : Extracted ρ) (gen : Generator ρ)
    (s : State ρ) : State ρ :=
  match res with
  | .exception e =>
    if is404 e then { s with genListChunk := s.genListChunk ++ [gen] }
    else checkChunk { s with errors := s.errors.insert e.text }
  | .resource r =>
    checkChunk (({ s with genListChunk := s.genListChunk ++ [gen] } : State ρ).setDiscovered
      (insert (C.own r) s.discovered))
  | .nothing => checkChunk s

/-- After the last slice: what is left in the set is sent. -/
def finish (s : State ρ) : State ρ :=
  if s.discovered.Nonempty then
    { s with phase := .flushing, resourcesCount := s.resourcesCount + s.discovered.card }
  else { s with phase := .finished }

/-- `send`: it waits while the queue is full. -/
def send (C : Config) (next : Phase) (s : State ρ) : Option (State ρ) :=
  if 0 < C.queueLen ∧ C.queueLen ≤ s.queue.length then none
  else some { s with queue := s.queue ++ [s.discoveredResources], phase := next }

/-- The discovery loop goes on: with the next future, else the next round, else the next slice. -/
def discover [DecidableEq ρ] (C : Config) (s : State ρ) : Option (State ρ) :=
  match s.phase with
  | .discovering =>
    match s.futures, s.genListChunk, s.slices with
    | (res, gen) :: futures, _, _ => some (processFuture C res gen { s with futures := futures })
    | [], gen :: gens, _ =>
      some { s with genListChunk := [], futures := (gen :: gens).map extractFromGenerator }
    | [], [], slice :: slices => some { s with slices := slices, genListChunk := slice }
    | [], [], [] => some (finish s)
  | .sending => send C .clearing s
  | .clearing => some { s.setDiscovered ∅ with phase := .discovering }
  | .flushing => send C .finished s
  | .finished => none

end DiscoveryWorker

namespace ResourcesSaver

open DiscoveryWorker

variable {ρ : Type}

/-- `_save_chunks`: a chunk is taken from the queue, then saved. -/
def saveChunks (s : State ρ) : Option (State ρ) :=
  match s.chunk, s.queue with
  | some chunk, _ => some { s with chunk := none, saved := s.saved ++ [s.sets chunk] }
  | none, chunk :: queue => some { s with chunk := some chunk, queue := queue }
  | none, [] => none

end ResourcesSaver

namespace DiscoveryWorker

variable {ρ : Type}

/-- The beginning: the generators are cut into slices, the set is new, nothing is queued. -/
def start (C : Config) (genList : List (Generator ρ)) : State ρ where
  phase := .discovering
  slices := genList.toChunks C.maxParallelRequests
  genListChunk := []
  futures := []
  sets := fun _ => ∅
  discoveredResources := 0
  resourcesCount := 0
  errors := []
  queue := []
  chunk := none
  saved := []

/-- The end of the run: discovery is over and the saver has nothing left to do. -/
def State.Done (s : State ρ) : Prop := s.phase = .finished ∧ s.queue = [] ∧ s.chunk = none

/-- The run gets here in some order of the two threads' steps. -/
def Reaches [DecidableEq ρ] (C : Config) : State ρ → State ρ → Prop :=
  Interleave.Reaches (discover C) ResourcesSaver.saveChunks

/-- What the generators yield, with the account's data set. -/
def yielded (C : Config) (genList : List (Generator ρ)) : Multiset (Discovered ρ) :=
  ↑((genList.flatMap Generator.yields).map C.own)

/-- **Every discovered resource is saved once**, and counted. -/
def SavedOnce (C : Config) (genList : List (Generator ρ)) (s : State ρ) : Prop :=
  (s.saved.map Finset.val).sum = yielded C genList ∧
    s.resourcesCount = (yielded C genList).card

end DiscoveryWorker
