import OptScale.Discovery.Worker

/-!
# Discovery/Saved — what the saver is passed

Whatever the order of the two threads' steps, the counter ends at the number of the discovered
resources (`resourcesCount_of_done`).  The saver is passed them all as long as the set never fills
up; once it does, the loop may empty the set before the saver looks into it (`savedOnce_iff`).
-/

open Chunks

/-- The resource, if it is one. -/
def Extracted.toList {ρ : Type} : Extracted ρ → List ρ
  | .resource r => [r]
  | _ => []

/-- How often the generator is still asked. -/
def Generator.work {ρ : Type} (g : Generator ρ) : ℕ :=
  g.yields.length + (if g.raises.isSome then 1 else 0) + 1

namespace DiscoveryWorker

variable {ρ : Type} {C : Config} {genList : List (Generator ρ)} {s s' t : State ρ}

/-! ## What is still to come -/

/-- What the generators still hold. -/
def yieldsOf (gens : List (Generator ρ)) : Multiset ρ := ↑(gens.flatMap Generator.yields)

/-- What the futures still hold. -/
def answersOf (futures : List (Extracted ρ × Generator ρ)) : Multiset ρ :=
  ↑(futures.flatMap fun f => f.1.toList ++ f.2.yields)

/-- What futures, generators in use and slices still hold. -/
def toCome (C : Config) (futures : List (Extracted ρ × Generator ρ))
    (genListChunk : List (Generator ρ)) (slices : List (List (Generator ρ))) :
    Multiset (Discovered ρ) :=
  (answersOf futures + yieldsOf genListChunk + yieldsOf slices.flatten).map C.own

/-- What is in the set or still to come. -/
def State.held (C : Config) (s : State ρ) : Multiset (Discovered ρ) :=
  s.discovered.val + toCome C s.futures s.genListChunk s.slices

/-- Only a generator that gave a resource has more to give. -/
def State.WellFormed (s : State ρ) : Prop :=
  ∀ f ∈ s.futures, f.1.toList = [] → f.2.yields = []

/-- The work of a future. -/
def futureWork : Extracted ρ × Generator ρ → ℕ
  | (.nothing, _) => 1
  | (_, gen) => 2 * gen.work + 1

/-- The work left; every turn of the loop makes it less. -/
def work (futures : List (Extracted ρ × Generator ρ)) (genListChunk : List (Generator ρ))
    (slices : List (List (Generator ρ))) : ℕ :=
  (futures.map futureWork).sum + 2 * (genListChunk.map Generator.work).sum +
    (slices.map fun slice => 1 + 2 * (slice.map Generator.work).sum).sum

section Pieces

variable {res : Extracted ρ} {gen : Generator ρ} {gens slice : List (Generator ρ)}
  {futures : List (Extracted ρ × Generator ρ)} {slices : List (List (Generator ρ))}

theorem own_injective (C : Config) : Function.Injective (C.own : ρ → Discovered ρ) :=
  fun _ _ h => congrArg Discovered.resource h

theorem extract_yields (g : Generator ρ) :
    (extractFromGenerator g).1.toList ++ (extractFromGenerator g).2.yields = g.yields := by
  rcases g with ⟨_ | ⟨r, rs⟩, _ | e⟩ <;> rfl

theorem extract_ended {g : Generator ρ} (h : (extractFromGenerator g).1.toList = []) :
    (extractFromGenerator g).2.yields = [] := by
  rcases g with ⟨_ | ⟨r, rs⟩, _ | e⟩
  · rfl
  · rfl
  · cases h
  · cases h

theorem futureWork_extract (g : Generator ρ) :
    futureWork (extractFromGenerator g) < 2 * g.work := by
  rcases g with ⟨_ | ⟨r, rs⟩, _ | e⟩ <;>
    simp only [extractFromGenerator, futureWork, Generator.work, List.length_cons,
      List.length_nil, Option.isSome_some, Option.isSome_none, if_true, Bool.false_eq_true,
      if_false] <;> omega

theorem toCome_future : toCome C ((res, gen) :: futures) gens slices =
    ((↑(res.toList ++ gen.yields) : Multiset ρ)).map C.own + toCome C futures gens slices := by
  simp only [toCome, answersOf, List.flatMap_cons, ← Multiset.coe_add, Multiset.map_add]
  abel

theorem toCome_keep : toCome C futures (gens ++ [gen]) slices =
    (↑gen.yields : Multiset ρ).map C.own + toCome C futures gens slices := by
  simp only [toCome, yieldsOf, List.flatMap_append, List.flatMap_singleton, ← Multiset.coe_add,
    Multiset.map_add]
  abel

theorem toCome_round :
    toCome C (gens.map extractFromGenerator) [] slices = toCome C [] gens slices := by
  simp [toCome, answersOf, yieldsOf, List.flatMap_map, extract_yields]

theorem toCome_slice : toCome C [] slice slices = toCome C [] [] (slice :: slices) := by
  simp [toCome, answersOf, yieldsOf]

theorem work_future : work ((res, gen) :: futures) gens slices =
    futureWork (res, gen) + work futures gens slices := by
  simp only [work, List.map_cons, List.sum_cons]
  omega

theorem work_keep : work futures (gens ++ [gen]) slices =
    2 * gen.work + work futures gens slices := by
  simp only [work, List.map_append, List.sum_append, List.map_cons, List.map_nil, List.sum_cons,
    List.sum_nil]
  omega

theorem work_round (h : gens ≠ []) :
    work (gens.map extractFromGenerator) [] slices < work [] gens slices := by
  have hsum : ((gens.map extractFromGenerator).map futureWork).sum <
      2 * (gens.map Generator.work).sum := by
    rw [List.map_map, ← List.sum_map_mul_left]
    exact List.sum_lt_sum_of_ne_nil h _ _ fun g _ => futureWork_extract g
  simp only [work, List.map_nil, List.sum_nil]
  omega

theorem work_slice : work [] slice slices < work [] [] (slice :: slices) := by
  simp only [work, List.map_nil, List.sum_nil, List.map_cons, List.sum_cons]
  omega

end Pieces

theorem card_held (s : State ρ) : (s.held C).card =
    s.discovered.card + (toCome C s.futures s.genListChunk s.slices).card := by
  rw [State.held, Multiset.card_add]
  rfl

/-- Nothing is lost in slices. -/
theorem held_start (C : Config) (genList : List (Generator ρ)) :
    (start C genList).held C = yielded C genList := by
  have hslices : (start C genList).slices.flatten = genList := flatten_toChunks _ _
  rw [State.held, toCome, hslices]
  exact zero_add _

/-- The generators' resources are pairwise distinct. -/
def Distinct (genList : List (Generator ρ)) : Prop := (genList.flatMap Generator.yields).Nodup

theorem nodup_yielded (h : Distinct genList) : (yielded C genList).Nodup :=
  Multiset.coe_nodup.mpr (h.map (own_injective C))

theorem wellFormed_start (C : Config) (genList : List (Generator ρ)) :
    (start C genList).WellFormed := fun _ hf => absurd hf List.not_mem_nil

theorem chunkSize_pos : 0 < chunkSize := by decide

/-! ## The threads' steps -/

theorem send_eq_some {next : Phase} (h : send C next s = some s') :
    s' = { s with queue := s.queue ++ [s.discoveredResources], phase := next } := by
  unfold send at h
  split at h
  · cases h
  · exact (Option.some.inj h).symm

/-- There is room in an empty queue. -/
theorem send_of_empty {next : Phase} (h : s.queue = []) : send C next s =
    some { s with queue := [s.discoveredResources], phase := next } := by
  have hroom : ¬ (0 < C.queueLen ∧ C.queueLen ≤ 0) := fun hfull => absurd hfull.1 hfull.2.not_gt
  simp only [send, h, List.length_nil, List.nil_append, if_neg hroom]

/-- **What the saver does**: it takes a chunk, or saves the one it has. -/
theorem saveChunks_cases (h : ResourcesSaver.saveChunks s = some s') :
    (∃ r, s.chunk = some r ∧ s' = { s with chunk := none, saved := s.saved ++ [s.sets r] }) ∨
    ∃ r queue, s.chunk = none ∧ s.queue = r :: queue ∧
      s' = { s with chunk := some r, queue := queue } := by
  unfold ResourcesSaver.saveChunks at h
  split at h
  · rename_i r hchunk
    exact Or.inl ⟨r, hchunk, (Option.some.inj h).symm⟩
  · rename_i r queue hchunk hqueue
    exact Or.inr ⟨r, queue, hchunk, hqueue, (Option.some.inj h).symm⟩
  · cases h

/-! ## One turn of the loop -/

/-- A turn of the loop does nothing to the queue and the saver. -/
structure Unsent (s s' : State ρ) : Prop where
  discoveredResources : s'.discoveredResources = s.discoveredResources
  queue : s'.queue = s.queue
  chunk : s'.chunk = s.chunk
  saved : s'.saved = s.saved

/-- What a turn of the loop ends in. -/
inductive Turned (C : Config) (s s' : State ρ) : Prop
  | discovering (phase : s'.phase = .discovering) (card : s'.discovered.card < chunkSize)
      (count : s'.resourcesCount = s.resourcesCount) (wellFormed : s'.WellFormed)
      (work : work s'.futures s'.genListChunk s'.slices < work s.futures s.genListChunk s.slices)
  | sending (phase : s'.phase = .sending) (card : s'.discovered.card = chunkSize)
      (count : s'.resourcesCount = s.resourcesCount + chunkSize) (wellFormed : s'.WellFormed)
      (work : work s'.futures s'.genListChunk s'.slices < work s.futures s.genListChunk s.slices)
  | flushing (phase : s'.phase = .flushing) (same : s'.discovered = s.discovered)
      (count : s'.resourcesCount = s.resourcesCount + s.discovered.card)
      (nonempty : s.discovered.Nonempty) (exhausted : toCome C s'.futures s'.genListChunk s'.slices = 0)
  | finished (phase : s'.phase = .finished) (count : s'.resourcesCount = s.resourcesCount)
      (empty : s'.discovered = ∅) (exhausted : toCome C s'.futures s'.genListChunk s'.slices = 0)

@[simp] theorem discovered_setDiscovered (s : State ρ) (resources : Finset (Discovered ρ)) :
    (s.setDiscovered resources).discovered = resources :=
  Function.update_self _ _ _

/-- A turn loses nothing and comes closer to the end. -/
structure Turn (C : Config) (s s' : State ρ) : Prop where
  held : s'.held C = s.held C
  unsent : Unsent s s'
  turned : Turned C s s'

/-- **After a future**, the set is full or it is not. -/
theorem Turn.checkChunk (hheld : s'.held C = s.held C) (hunsent : Unsent s s')
    (hcount : s'.resourcesCount = s.resourcesCount) (hphase : s'.phase = .discovering)
    (hcard : s'.discovered.card ≤ chunkSize) (hwf : s'.WellFormed)
    (hwork : work s'.futures s'.genListChunk s'.slices < work s.futures s.genListChunk s.slices) :
    Turn C s (checkChunk s') := by
  unfold DiscoveryWorker.checkChunk
  split
  · rename_i hfull
    have hcard' := le_antisymm hcard hfull
    refine ⟨hheld, ⟨hunsent.discoveredResources, hunsent.queue, hunsent.chunk, hunsent.saved⟩,
      .sending rfl hcard' ?_ hwf hwork⟩
    change s'.resourcesCount + s'.discovered.card = _
    rw [hcount, hcard']
  · rename_i hfull
    exact ⟨hheld, hunsent, .discovering hphase (not_le.mp hfull) hcount hwf hwork⟩

variable [DecidableEq ρ]

/-- **A future gives its resource to the set**, and its generator to the next round. -/
theorem processFuture_turn {res : Extracted ρ} {gen : Generator ρ}
    {futures : List (Extracted ρ × Generator ρ)} (hfutures : s.futures = (res, gen) :: futures)
    (hphase : s.phase = .discovering) (hcard : s.discovered.card < chunkSize)
    (hwf : s.WellFormed) (hnodup : (s.held C).Nodup) :
    Turn C s (processFuture C res gen { s with futures := futures }) := by
  have hwf' : ∀ f ∈ futures, f.1.toList = [] → f.2.yields = [] := fun f hf =>
    hwf f (hfutures ▸ List.mem_cons_of_mem _ hf)
  have hgen : res.toList = [] → gen.yields = [] := hwf (res, gen) (hfutures ▸ List.mem_cons_self)
  have hwork : work s.futures s.genListChunk s.slices =
      futureWork (res, gen) + work futures s.genListChunk s.slices := by
    rw [hfutures, work_future]
  have hheld : s.held C = s.discovered.val + ((↑(res.toList ++ gen.yields) : Multiset ρ).map C.own +
      toCome C futures s.genListChunk s.slices) := by
    rw [State.held, hfutures, toCome_future]
  cases res with
  | resource r =>
    have hnew : C.own r ∉ s.discovered := by
      rw [hheld, Multiset.nodup_add] at hnodup
      exact fun hmem => Multiset.disjoint_left.mp hnodup.2.2 hmem (by simp [Extracted.toList])
    refine .checkChunk ?_ ⟨rfl, rfl, rfl, rfl⟩ rfl hphase ?_ hwf' ?_
    · rw [hheld, State.held, discovered_setDiscovered]
      change (insert (C.own r) s.discovered).val +
        toCome C futures (s.genListChunk ++ [gen]) s.slices = _
      rw [Finset.insert_val_of_notMem hnew, toCome_keep]
      simp [Extracted.toList, ← Multiset.cons_coe]
    · rw [discovered_setDiscovered]
      exact (Finset.card_insert_le _ _).trans hcard
    · change work futures (s.genListChunk ++ [gen]) s.slices < _
      rw [hwork, work_keep, show futureWork (.resource r, gen) = 2 * gen.work + 1 from rfl]
      omega
  | nothing =>
    refine .checkChunk ?_ ⟨rfl, rfl, rfl, rfl⟩ rfl hphase hcard.le hwf' ?_
    · rw [hheld, hgen rfl]
      simp [State.held, State.discovered, Extracted.toList]
    · rw [hwork]
      exact Nat.lt_add_of_pos_left Nat.one_pos
  | exception e =>
    simp only [processFuture]
    split
    · refine ⟨?_, ⟨rfl, rfl, rfl, rfl⟩, .discovering hphase hcard rfl hwf' ?_⟩
      · rw [hheld, State.held]
        change s.discovered.val + toCome C futures (s.genListChunk ++ [gen]) s.slices = _
        rw [toCome_keep]
        simp [Extracted.toList]
      · change work futures (s.genListChunk ++ [gen]) s.slices < _
        rw [hwork, work_keep, show futureWork (.exception e, gen) = 2 * gen.work + 1 from rfl]
        omega
    · refine .checkChunk ?_ ⟨rfl, rfl, rfl, rfl⟩ rfl hphase hcard.le hwf' ?_
      · rw [hheld, hgen rfl]
        simp [State.held, State.discovered, Extracted.toList]
      · change work futures s.genListChunk s.slices < _
        rw [hwork, show futureWork (.exception e, gen) = 2 * gen.work + 1 from rfl]
        omega

/-- **One turn of the loop**, whatever it turns to. -/
theorem discover_turn (hphase : s.phase = .discovering) (hcard : s.discovered.card < chunkSize)
    (hwf : s.WellFormed) (hnodup : (s.held C).Nodup) :
    ∃ s', discover C s = some s' ∧ Turn C s s' := by
  unfold discover
  simp only [hphase]
  split
  · -- a future
    rename_i res gen futures hfutures
    refine ⟨_, rfl, ?_⟩
    simpa only [hphase] using processFuture_turn hfutures hphase hcard hwf hnodup
  · -- a round
    rename_i gen gens hfutures hchunk
    refine ⟨_, rfl, ?_, ⟨rfl, rfl, rfl, rfl⟩, .discovering rfl hcard rfl ?_ ?_⟩
    · rw [State.held, State.held, hfutures, hchunk]
      exact congrArg (s.discovered.val + ·) toCome_round
    · intro f hf hnone
      obtain ⟨g, -, rfl⟩ := List.mem_map.mp hf
      exact extract_ended hnone
    · rw [hfutures, hchunk]
      exact work_round (List.cons_ne_nil _ _)
  · -- a slice
    rename_i slice slices hfutures hchunk hslices
    refine ⟨_, rfl, ?_, ⟨rfl, rfl, rfl, rfl⟩, .discovering rfl hcard rfl hwf ?_⟩
    · rw [State.held, State.held, hfutures, hchunk, hslices]
      exact congrArg (s.discovered.val + ·) toCome_slice
    · rw [hfutures, hchunk, hslices]
      exact work_slice
  · -- the end
    rename_i hfutures hchunk hslices
    have hnone : toCome C s.futures s.genListChunk s.slices = 0 := by
      rw [hfutures, hchunk, hslices]
      rfl
    refine ⟨_, rfl, ?_⟩
    unfold finish
    split
    · rename_i hsome
      exact ⟨rfl, ⟨rfl, rfl, rfl, rfl⟩, .flushing rfl rfl rfl hsome hnone⟩
    · rename_i hempty
      exact ⟨rfl, ⟨rfl, rfl, rfl, rfl⟩,
        .finished rfl rfl (Finset.not_nonempty_iff_eq_empty.mp hempty) hnone⟩

/-! ## The counter -/

/-- The counter is behind by what is in the set and still to come. -/
inductive Counted (C : Config) (n : ℕ) (s : State ρ) : Prop
  | discovering (phase : s.phase = .discovering) (card : s.discovered.card < chunkSize)
      (wellFormed : s.WellFormed) (nodup : (s.held C).Nodup)
      (count : s.resourcesCount + (s.held C).card = n)
  | sending (phase : s.phase = .sending ∨ s.phase = .clearing) (wellFormed : s.WellFormed)
      (nodup : (toCome C s.futures s.genListChunk s.slices).Nodup)
      (count : s.resourcesCount + (toCome C s.futures s.genListChunk s.slices).card = n)
  | finished (phase : s.phase = .flushing ∨ s.phase = .finished) (count : s.resourcesCount = n)

theorem Counted.discover {n : ℕ} (h : Counted C n s) (hstep : discover C s = some s') :
    Counted C n s' := by
  rcases h with ⟨hphase, hcard, hwf, hnodup, hcount⟩ | ⟨hphase | hphase, hwf, hnodup, hcount⟩ |
    ⟨hphase | hphase, hcount⟩
  · obtain ⟨s₁, hstep₁, hheld, -, hturned⟩ := discover_turn hphase hcard hwf hnodup
    obtain rfl := Option.some.inj (hstep₁.symm.trans hstep)
    rw [← hheld] at hnodup hcount
    rcases hturned with ⟨hphase', hcard', hcount', hwf', -⟩ | ⟨hphase', hcard', hcount', hwf', -⟩ |
      ⟨hphase', hsame, hcount', -, hnone⟩ | ⟨hphase', hcount', hempty, hnone⟩
    · exact .discovering hphase' hcard' hwf' hnodup (hcount' ▸ hcount)
    · refine .sending (Or.inl hphase') hwf' (Multiset.nodup_add.mp hnodup).2.1 ?_
      rw [card_held] at hcount
      omega
    · refine .finished (Or.inl hphase') ?_
      rw [card_held, hnone, hsame, Multiset.card_zero] at hcount
      omega
    · refine .finished (Or.inr hphase') ?_
      rw [card_held, hnone, hempty, Multiset.card_zero, Finset.card_empty] at hcount
      omega
  · simp only [DiscoveryWorker.discover, hphase] at hstep
    obtain rfl := send_eq_some hstep
    exact .sending (Or.inr rfl) hwf hnodup hcount
  · simp only [DiscoveryWorker.discover, hphase] at hstep
    obtain rfl := Option.some.inj hstep
    have hempty : State.discovered { s.setDiscovered ∅ with phase := .discovering } = ∅ :=
      discovered_setDiscovered s ∅
    have hheld : State.held C { s.setDiscovered ∅ with phase := .discovering } =
        toCome C s.futures s.genListChunk s.slices := by
      rw [State.held, hempty]
      exact zero_add _
    exact .discovering rfl (by rw [hempty]; exact chunkSize_pos) hwf (hheld ▸ hnodup) (hheld ▸ hcount)
  · simp only [DiscoveryWorker.discover, hphase] at hstep
    obtain rfl := send_eq_some hstep
    exact .finished (Or.inr rfl) hcount
  · simp only [DiscoveryWorker.discover, hphase] at hstep
    cases hstep

omit [DecidableEq ρ] in
theorem Counted.saveChunks {n : ℕ} (h : Counted C n s)
    (hstep : ResourcesSaver.saveChunks s = some s') : Counted C n s' := by
  obtain ⟨r, -, rfl⟩ | ⟨r, queue, -, -, rfl⟩ := saveChunks_cases hstep
  · rcases h with ⟨h₁, h₂, h₃, h₄, h₅⟩ | ⟨h₁, h₂, h₃, h₄⟩ | ⟨h₁, h₂⟩
    · exact .discovering h₁ h₂ h₃ h₄ h₅
    · exact .sending h₁ h₂ h₃ h₄
    · exact .finished h₁ h₂
  · rcases h with ⟨h₁, h₂, h₃, h₄, h₅⟩ | ⟨h₁, h₂, h₃, h₄⟩ | ⟨h₁, h₂⟩
    · exact .discovering h₁ h₂ h₃ h₄ h₅
    · exact .sending h₁ h₂ h₃ h₄
    · exact .finished h₁ h₂

/-- **The counter is right in every order of steps.** -/
theorem resourcesCount_of_done (hdistinct : Distinct genList)
    (h : Reaches C (start C genList) t) (hdone : t.Done) :
    t.resourcesCount = (yielded C genList).card := by
  have hcounted : Counted C (yielded C genList).card t := by
    refine Interleave.Reaches.keeps (fun _ _ => Counted.discover) (fun _ _ => Counted.saveChunks) h ?_
    refine .discovering rfl chunkSize_pos (wellFormed_start C genList) ?_ ?_
    · rw [held_start]
      exact nodup_yielded hdistinct
    · rw [held_start]
      exact zero_add _
  rcases hcounted with ⟨hphase, -⟩ | ⟨hphase | hphase, -⟩ | ⟨-, hcount⟩
  · cases hphase.symm.trans hdone.1
  · cases hphase.symm.trans hdone.1
  · cases hphase.symm.trans hdone.1
  · exact hcount

/-! ## A set that never fills up -/

/-- Nothing is queued, taken or saved. -/
def Idle (s : State ρ) : Prop := s.queue = [] ∧ s.chunk = none ∧ s.saved = []

/-- Where the set of a run that never fills it up is. -/
inductive Whole (C : Config) (all : Multiset (Discovered ρ)) (s : State ρ) : Prop
  | discovering (phase : s.phase = .discovering) (idle : Idle s) (wellFormed : s.WellFormed)
      (held : s.held C = all)
  | flushing (phase : s.phase = .flushing) (idle : Idle s) (whole : s.discovered.val = all)
  | queued (phase : s.phase = .finished) (whole : s.discovered.val = all)
      (queue : s.queue = [s.discoveredResources]) (chunk : s.chunk = none) (saved : s.saved = [])
  | taken (phase : s.phase = .finished) (whole : s.discovered.val = all)
      (queue : s.queue = []) (chunk : s.chunk = some s.discoveredResources) (saved : s.saved = [])
  | saved (phase : s.phase = .finished) (queue : s.queue = []) (chunk : s.chunk = none)
      (saved : (s.saved.map Finset.val).sum = all)

variable {all : Multiset (Discovered ρ)}

theorem Whole.discover (hall : all.card < chunkSize) (hnodup : all.Nodup) (h : Whole C all s)
    (hstep : discover C s = some s') : Whole C all s' := by
  rcases h with ⟨hphase, ⟨hqueue, hchunk, hsaved⟩, hwf, hheld⟩ |
    ⟨hphase, ⟨hqueue, hchunk, hsaved⟩, hwhole⟩ | ⟨hphase, -⟩ | ⟨hphase, -⟩ | ⟨hphase, -⟩
  · have hcard : s.discovered.card < chunkSize := by
      rw [← hheld, card_held] at hall
      omega
    obtain ⟨s₁, hstep₁, hheld₁, hunsent, hturned⟩ :=
      discover_turn (C := C) hphase hcard hwf (hheld ▸ hnodup)
    obtain rfl := Option.some.inj (hstep₁.symm.trans hstep)
    have hidle : Idle s₁ := ⟨hunsent.queue.trans hqueue, hunsent.chunk.trans hchunk,
      hunsent.saved.trans hsaved⟩
    have hheld' := hheld₁.trans hheld
    rcases hturned with ⟨hphase', -, -, hwf', -⟩ | ⟨-, hcard', -⟩ | ⟨hphase', -, -, -, hnone⟩ |
      ⟨hphase', -, hempty, hnone⟩
    · exact .discovering hphase' hidle hwf' hheld'
    · rw [← hheld', card_held] at hall
      omega
    · rw [State.held, hnone, add_zero] at hheld'
      exact .flushing hphase' hidle hheld'
    · rw [State.held, hnone, hempty] at hheld'
      exact .saved hphase' hidle.1 hidle.2.1 (by rw [hidle.2.2]; exact hheld')
  · simp only [DiscoveryWorker.discover, hphase] at hstep
    obtain rfl := send_eq_some hstep
    exact .queued rfl hwhole (by rw [hqueue]; rfl) hchunk hsaved
  all_goals
    simp only [DiscoveryWorker.discover, hphase] at hstep
    cases hstep

omit [DecidableEq ρ] in
theorem Whole.saveChunks (h : Whole C all s) (hstep : ResourcesSaver.saveChunks s = some s') :
    Whole C all s' := by
  obtain ⟨r, hr, rfl⟩ | ⟨r, queue, hchunk, hqueue, rfl⟩ := saveChunks_cases hstep
  · rcases h with ⟨-, ⟨-, hchunk, -⟩, -⟩ | ⟨-, ⟨-, hchunk, -⟩, -⟩ | ⟨-, -, -, hchunk, -⟩ |
      ⟨hphase, hwhole, hqueue, hchunk, hsaved⟩ | ⟨-, -, hchunk, -⟩
    · cases hr.symm.trans hchunk
    · cases hr.symm.trans hchunk
    · cases hr.symm.trans hchunk
    · obtain rfl := Option.some.inj (hr.symm.trans hchunk)
      refine .saved hphase hqueue rfl ?_
      simpa [hsaved, State.discovered] using hwhole
    · cases hr.symm.trans hchunk
  · rcases h with ⟨-, ⟨hnone, -, -⟩, -⟩ | ⟨-, ⟨hnone, -, -⟩, -⟩ |
      ⟨hphase, hwhole, hone, -, hsaved⟩ | ⟨-, -, hnone, -⟩ | ⟨-, hnone, -⟩
    · cases hqueue.symm.trans hnone
    · cases hqueue.symm.trans hnone
    · obtain ⟨rfl, rfl⟩ := List.cons.inj (hqueue.symm.trans hone)
      exact .taken hphase hwhole rfl rfl hsaved
    · cases hqueue.symm.trans hnone
    · cases hqueue.symm.trans hnone

/-- **A set that never fills up is saved whole**, in every order of steps. -/
theorem saved_of_small (hdistinct : Distinct genList)
    (hsmall : (yielded C genList).card < chunkSize) (h : Reaches C (start C genList) t)
    (hdone : t.Done) : (t.saved.map Finset.val).sum = yielded C genList := by
  have hwhole : Whole C (yielded C genList) t :=
    Interleave.Reaches.keeps (fun _ _ => Whole.discover hsmall (nodup_yielded hdistinct))
      (fun _ _ => Whole.saveChunks) h
      (.discovering rfl ⟨rfl, rfl, rfl⟩ (wellFormed_start C genList) (held_start C genList))
  obtain ⟨hphase, hqueue, hchunk⟩ := hdone
  rcases hwhole with ⟨h', -⟩ | ⟨h', -⟩ | ⟨-, -, h', -⟩ | ⟨-, -, -, h', -⟩ | ⟨-, -, -, hsaved⟩
  · cases h'.symm.trans hphase
  · cases h'.symm.trans hphase
  · cases h'.symm.trans hqueue
  · cases h'.symm.trans hchunk
  · exact hsaved

/-! ## A set that fills up -/

/-- How many resources the saver was passed. -/
def State.savedCount (s : State ρ) : ℕ := (s.saved.map Finset.card).sum

/-- A full set is queued and emptied, and then the saver looks into it. -/
theorem reaches_emptied (hphase : s.phase = .sending) (hqueue : s.queue = [])
    (hchunk : s.chunk = none) :
    Reaches C s { s.setDiscovered ∅ with
      phase := .discovering, queue := [], chunk := none, saved := s.saved ++ [∅] } := by
  have hsend : discover C s =
      some { s with queue := [s.discoveredResources], phase := .clearing } := by
    simp only [discover, hphase]
    exact send_of_empty hqueue
  refine .left hsend ?_
  refine .left (m := { s.setDiscovered ∅ with
    queue := [s.discoveredResources], phase := .discovering }) rfl ?_
  refine .right (m := { s.setDiscovered ∅ with
    queue := [], chunk := some s.discoveredResources, phase := .discovering }) ?_ ?_
  · simp [ResourcesSaver.saveChunks, hchunk, State.setDiscovered]
  · refine .right (m := { s.setDiscovered ∅ with
      queue := [], chunk := none, phase := .discovering, saved := s.saved ++ [∅] }) ?_ (.refl _)
    simp [ResourcesSaver.saveChunks, State.setDiscovered]

/-- The last set is queued, and saved as it is. -/
theorem reaches_flushed (hphase : s.phase = .flushing) (hqueue : s.queue = [])
    (hchunk : s.chunk = none) :
    Reaches C s { s with
      phase := .finished, queue := [], chunk := none, saved := s.saved ++ [s.discovered] } := by
  have hsend : discover C s =
      some { s with queue := [s.discoveredResources], phase := .finished } := by
    simp only [discover, hphase]
    exact send_of_empty hqueue
  refine .left hsend ?_
  refine .right (m := { s with
    queue := [], chunk := some s.discoveredResources, phase := .finished }) ?_ ?_
  · simp [ResourcesSaver.saveChunks, hchunk]
  · exact .right rfl (.refl _)

/-- **The saver may come late**: where it looks into every set only when the loop has emptied it, what
it is passed is what the last set is left with. -/
theorem exists_emptied (n : ℕ) : ∀ s : State ρ, work s.futures s.genListChunk s.slices = n →
    s.phase = .discovering → s.discovered.card < chunkSize → s.WellFormed → (s.held C).Nodup →
    s.queue = [] → s.chunk = none →
    ∃ t, Reaches C s t ∧ t.Done ∧ t.savedCount = s.savedCount + (s.held C).card % chunkSize := by
  induction n using Nat.strong_induction_on with
  | _ n ih =>
    rintro s rfl hphase hcard hwf hnodup hqueue hchunk
    obtain ⟨s₁, hstep, hheld, hunsent, hturned⟩ := discover_turn hphase hcard hwf hnodup
    have hqueue₁ := hunsent.queue.trans hqueue
    have hchunk₁ := hunsent.chunk.trans hchunk
    have hsaved₁ : s₁.savedCount = s.savedCount := by
      rw [State.savedCount, hunsent.saved]
      rfl
    rw [← hheld] at hnodup ⊢
    rcases hturned with ⟨hphase₁, hcard₁, -, hwf₁, hwork⟩ | ⟨hphase₁, hcard₁, -, hwf₁, hwork⟩ |
      ⟨hphase₁, hsame, -, -, hnone⟩ | ⟨hphase₁, -, hempty, hnone⟩
    · obtain ⟨t, hreaches, hdone, hsaved⟩ :=
        ih _ hwork s₁ rfl hphase₁ hcard₁ hwf₁ hnodup hqueue₁ hchunk₁
      exact ⟨t, .left hstep hreaches, hdone, hsaved₁ ▸ hsaved⟩
    · have hnew := reaches_emptied (C := C) hphase₁ hqueue₁ hchunk₁
      rw [State.held, Multiset.nodup_add] at hnodup
      generalize hs₂ : ({ s₁.setDiscovered ∅ with
        phase := .discovering, queue := [], chunk := none, saved := s₁.saved ++ [∅] } : State ρ) = s₂
        at hnew
      have hempty : s₂.discovered = ∅ := hs₂ ▸ discovered_setDiscovered s₁ ∅
      have hheld₂ : s₂.held C = toCome C s₁.futures s₁.genListChunk s₁.slices := by
        rw [State.held, hempty, ← hs₂]
        exact zero_add _
      have hsaved₂ : s₂.savedCount = s₁.savedCount := by
        rw [← hs₂]
        simp [State.savedCount]
      obtain ⟨t, hreaches, hdone, hsaved⟩ := ih _ hwork s₂ (by rw [← hs₂]; rfl) (by rw [← hs₂])
        (by rw [hempty]; exact chunkSize_pos) (by rw [← hs₂]; exact hwf₁) (hheld₂ ▸ hnodup.2.1)
        (by rw [← hs₂]) (by rw [← hs₂])
      refine ⟨t, .left hstep (hnew.trans hreaches), hdone, ?_⟩
      rw [hsaved, hsaved₂, hsaved₁, hheld₂, card_held, hcard₁, Nat.add_mod_left]
    · refine ⟨_, .left hstep (reaches_flushed hphase₁ hqueue₁ hchunk₁), ⟨rfl, rfl, rfl⟩, ?_⟩
      rw [card_held, hnone, hsame, Multiset.card_zero, add_zero, Nat.mod_eq_of_lt hcard, ← hsaved₁]
      simp [State.savedCount]
    · refine ⟨s₁, .left hstep (.refl _), ⟨hphase₁, hqueue₁, hchunk₁⟩, ?_⟩
      rw [hsaved₁, card_held, hempty, hnone]
      rfl

/-- **Once the set fills up, a run may lose what was in it.** -/
theorem exists_lost (hdistinct : Distinct genList)
    (hfull : chunkSize ≤ (yielded C genList).card) :
    ∃ t, Reaches C (start C genList) t ∧ t.Done ∧
      (t.saved.map Finset.val).sum ≠ yielded C genList := by
  obtain ⟨t, hreaches, hdone, hsaved⟩ := exists_emptied (C := C) _ (start C genList) rfl rfl
    chunkSize_pos (wellFormed_start C genList) (held_start C genList ▸ nodup_yielded hdistinct)
    rfl rfl
  refine ⟨t, hreaches, hdone, fun hall => ?_⟩
  have hcount : t.savedCount = (yielded C genList).card := by
    rw [← hall, State.savedCount]
    exact ((map_list_sum Multiset.cardHom _).trans (by rw [List.map_map]; rfl)).symm
  have hnone : (start C genList).savedCount = 0 := rfl
  rw [held_start, hcount, hnone, zero_add] at hsaved
  exact absurd (Nat.mod_lt (yielded C genList).card chunkSize_pos) (by omega)

/-! ## Every discovered resource is saved once -/

/-- **Every discovered resource is saved once, in every order of the two threads' steps, exactly when
the generators yield less than a full set.** -/
theorem savedOnce_iff (C : Config) (genList : List (Generator ρ)) (hdistinct : Distinct genList) :
    (∀ t, Reaches C (start C genList) t → t.Done → SavedOnce C genList t) ↔
      (genList.flatMap Generator.yields).length < chunkSize := by
  have hcard : (yielded C genList).card = (genList.flatMap Generator.yields).length := by
    simp [yielded]
  rw [← hcard]
  constructor
  · intro h
    by_contra hfull
    obtain ⟨t, hreaches, hdone, hlost⟩ := exists_lost (C := C) hdistinct (not_lt.mp hfull)
    exact hlost (h t hreaches hdone).1
  · exact fun hsmall t hreaches hdone => ⟨saved_of_small hdistinct hsmall hreaches hdone,
      resourcesCount_of_done hdistinct hreaches hdone⟩

/-- An account of a cloud without a limit of its own. -/
def plainConfig : Config := ⟨1, "aws_cnr", 50, 50⟩

/-- A generator of a full chunk. -/
def fullChunk : Generator ℕ := ⟨List.range 200, none⟩

/-- A full set is sent, emptied, and saved after that. -/
theorem full_chunk_lost : ¬ ∀ t, Reaches plainConfig (start plainConfig [fullChunk]) t → t.Done →
    SavedOnce plainConfig [fullChunk] t := by
  intro h
  obtain ⟨t, hreaches, hdone, hlost⟩ := exists_lost (C := plainConfig)
    (show Distinct [fullChunk] by unfold Distinct fullChunk; decide +kernel) (by decide +kernel)
  exact hlost (h t hreaches hdone).1

/-- Two generators, one of which fails with a 404. -/
def twoGenerators : List (Generator ℕ) := [⟨[1, 2], some ⟨some 404, ""⟩⟩, ⟨[3], none⟩]

theorem two_generators_saved : Distinct twoGenerators ∧
    ∀ t, Reaches plainConfig (start plainConfig twoGenerators) t → t.Done →
      SavedOnce plainConfig twoGenerators t := by
  have hdistinct : Distinct twoGenerators := by
    unfold Distinct
    decide
  exact ⟨hdistinct, (savedOnce_iff plainConfig _ hdistinct).mpr (by decide)⟩

end DiscoveryWorker
