import OptScale.Foundations.Run
import OptScale.Violations.ResourceHits

/-!
# Violations/RedGreen — the hits of a resource as an automaton

Over runs at increasing seconds the hits of a resource and a type alternate: a run records at most one of
them, a green one after a red one, and a red one after a red one only if it is of another pool or limit,
or of a later day for a daily limit.
-/

open Fallible Run

namespace LimitHitsController

variable {S : Surroundings} {hits : List ConstraintLimitHit} {resourceId : Uuid}
  {type : ConstraintType} {data : Table ResourceData.resourceId} {d : ResourceData}

/-! ## The automaton -/

/-- A hit may be recorded directly after another one. -/
structure Follows (h h' : ConstraintLimitHit) : Prop where
  later : h.createdAt < h'.createdAt
  green : h'.state = .GREEN → h.state = .RED
  red : h'.state = .RED → h.state = .RED → h'.poolId ≠ h.poolId ∨
    h'.constraintLimit ≠ h.constraintLimit ∨
      h'.type = .DAILY_EXPENSE_LIMIT ∧ dayStart h.createdAt < dayStart h'.createdAt

/-- **The hits of a resource and a type**, in the order they were recorded: the first is red, and each
follows the one before it. -/
structure Automaton (l : List ConstraintLimitHit) : Prop where
  first : ∀ h ∈ l.head?, h.state = .RED
  chain : l.IsChain Follows
  ordered : l.Pairwise fun h h' => h.createdAt < h'.createdAt

theorem Automaton.nil : Automaton [] where
  first _ h := nomatch h
  chain := .nil
  ordered := .nil

/-- Of ordered hits the latest is the last. -/
theorem latest?_eq_getLast? {l : List ConstraintLimitHit}
    (h : l.Pairwise fun h h' => h.createdAt < h'.createdAt) :
    latest? ConstraintLimitHit.createdAt l = l.getLast? := by
  induction l using List.reverseRecOn with
  | nil => rfl
  | append_singleton l a ih =>
    obtain ⟨hl, -, hlast⟩ := List.pairwise_append.mp h
    rw [latest?_concat, List.getLast?_concat, ih hl]
    cases hb : l.getLast? with
    | none => rfl
    | some b => exact if_pos (hlast b (List.mem_of_getLast? hb) a List.mem_cons_self)

/-- **One more hit.** -/
theorem Automaton.concat {l : List ConstraintLimitHit} (hl : Automaton l) {a : ConstraintLimitHit}
    (hfirst : l = [] → a.state = .RED) (hfollows : ∀ h ∈ l.getLast?, Follows h a)
    (hlater : ∀ h ∈ l, h.createdAt < a.createdAt) : Automaton (l ++ [a]) where
  first := by
    cases l with
    | nil =>
      intro h hh
      obtain rfl := Option.some.inj hh
      exact hfirst rfl
    | cons b l => exact hl.first
  chain := List.isChain_append.mpr ⟨hl.chain, .singleton _, fun h hh b hb =>
    (Option.some.inj hb) ▸ hfollows h hh⟩
  ordered := List.pairwise_append.mpr ⟨hl.ordered, List.pairwise_singleton _ _,
    fun h hh b hb => (List.mem_singleton.mp hb) ▸ hlater h hh⟩

/-! ## What a run records of one resource and type -/

theorem hitsOf_append {new : List ConstraintLimitHit} :
    hitsOf (hits ++ new) resourceId type = hitsOf hits resourceId type ++ hitsOf new resourceId type :=
  List.filter_append _ _

theorem mem_hitsOf {h : ConstraintLimitHit} : h ∈ hitsOf hits resourceId type ↔
    h ∈ hits ∧ h.deletedAt = 0 ∧ h.resourceId = resourceId ∧ h.type = type := by
  rw [hitsOf, List.mem_filter, decide_eq_true_eq]

section ForEach

variable {f : ResourceData → ConstraintType → Option ConstraintLimitHit}
  (hf : ∀ d type h, f d type = some h → h.deletedAt = 0 ∧ h.resourceId = d.resourceId ∧ h.type = type)
include hf

/-- Of the hits of a resource those of one type. -/
theorem filterMap_types_filter (d : ResourceData) (type : ConstraintType) :
    (constraintTypes.filterMap (f d)).filter (fun h => h.type = type) = (f d type).toList := by
  have hone (type' : ConstraintType) : (f d type').toList.filter (fun h => h.type = type) =
      if type' = type then (f d type').toList else [] := by
    cases h : f d type' with
    | none => simp
    | some a =>
      obtain ⟨-, -, ha⟩ := hf d type' a h
      by_cases heq : type' = type <;> simp [heq, ha]
  rw [List.filterMap_eq_flatMap_toList, List.filter_flatMap]
  simp only [constraintTypes, List.flatMap_cons, List.flatMap_nil, hone]
  cases type <;> simp

/-- **A run's hits of one resource and type** are what it has for these. -/
theorem hitsOf_forEach (hd : d ∈ data.rows) :
    hitsOf (forEach data f) d.resourceId type = (f d type).toList := by
  have hall : ∀ h ∈ forEach data f, h.deletedAt = 0 := by
    intro h hh
    obtain ⟨d', -, hh⟩ := List.mem_flatMap.mp hh
    obtain ⟨type', -, hh⟩ := List.mem_filterMap.mp hh
    exact (hf d' type' h hh).1
  have hsplit : hitsOf (forEach data f) d.resourceId type =
      ((forEach data f).filter fun h => h.resourceId = d.resourceId).filter fun h => h.type = type := by
    rw [hitsOf, List.filter_filter]
    refine List.filter_congr fun h hh => ?_
    simp [hall h hh, and_comm]
  rw [hsplit, forEach, data.filter_flatMap (fun d' _ h hh => ?_) hd, filterMap_types_filter hf]
  obtain ⟨type', -, hh⟩ := List.mem_filterMap.mp hh
  exact (hf d' type' h hh).2.1

/-- Of what is not evaluated a run has none. -/
theorem hitsOf_forEach_none (hnone : ∀ d ∈ data.rows, d.resourceId ≠ resourceId) :
    hitsOf (forEach data f) resourceId type = [] := by
  refine List.filter_eq_nil_iff.mpr fun h hh hkey => ?_
  obtain ⟨d', hd', hh⟩ := List.mem_flatMap.mp hh
  obtain ⟨type', -, hh⟩ := List.mem_filterMap.mp hh
  exact hnone d' hd' ((hf d' type' h hh).2.1.symm.trans (of_decide_eq_true hkey).2.1)

end ForEach

/-- A green hit ends a red one. -/
theorem greenHit_eq_some {h : ConstraintLimitHit} (hgreen : greenHit S hits d type = some h) :
    violation S d type = none ∧ (type = .DAILY_EXPENSE_LIMIT → d.lastExpenseCost ≠ 0) ∧
      (∃ limit, latestHit hits d.resourceId type = some limit ∧ limit.state = .RED) ∧
      h.deletedAt = 0 ∧ h.resourceId = d.resourceId ∧ h.type = type ∧ h.createdAt = S.now ∧
        h.state = .GREEN := by
  unfold greenHit at hgreen
  split at hgreen
  · rename_i limit hnone hlatest
    split at hgreen
    · rename_i hcond
      obtain rfl := Option.some.inj hgreen
      refine ⟨hnone, fun hdaily => ?_, ⟨limit, hlatest, hcond.1⟩, rfl, rfl, rfl, rfl, rfl⟩
      have hcost := hcond.2 hdaily
      rw [hdaily] at hcost
      exact hcost
    · cases hgreen
  · cases hgreen

/-- A red hit is one the latest does not record. -/
theorem redHit_eq_some {h : ConstraintLimitHit} (hred : redHit S hits d type = some h) :
    ∃ v, violation S d type = some v ∧
      (∀ hit ∈ latestHit hits d.resourceId type, ¬ Records S v hit) ∧
      h.deletedAt = 0 ∧ h.resourceId = d.resourceId ∧ h.type = type ∧ h.createdAt = S.now ∧
        h.state = .RED ∧ h.poolId = v.poolId ∧ h.constraintLimit = v.constraintLimit := by
  unfold redHit at hred
  split at hred
  · cases hred
  · rename_i v hv
    split at hred
    · cases hred
    · rename_i hnot
      obtain rfl := Option.some.inj hred
      exact ⟨v, hv, fun hit hhit hrecords => hnot ⟨hit, hhit, hrecords⟩, rfl, rfl, rfl, rfl, rfl, rfl,
        rfl⟩

/-! ## A run -/

/-- The green hits of a run. -/
abbrev greenHits (S : Surroundings) (resources : List Found) (hits : List ConstraintLimitHit) :
    List ConstraintLimitHit := forEach (collectProcessingData resources) (greenHit S hits)

/-- The red hits of a run. -/
abbrev redHits (S : Surroundings) (resources : List Found) (hits : List ConstraintLimitHit) :
    List ConstraintLimitHit := forEach (collectProcessingData resources) (redHit S hits)

/-- The hits of a run as far as it got. -/
def Part (S : Surroundings) (resources : List Found) (hits new : List ConstraintLimitHit) : Prop :=
  new = [] ∨ new = greenHits S resources hits ∨
    new = greenHits S resources hits ++ redHits S resources hits

/-- **What a run has recorded**: its green hits and its red ones; if it raises, as far as it got. -/
theorem processResources_triple (resources : List Found) (hits : List ConstraintLimitHit) :
    Session.Triple (fun s => s = hits) (processResources S resources)
      (fun _ s => s = hits ++ (greenHits S resources hits ++ redHits S resources hits))
      (fun s => ∃ new, Part S resources hits new ∧ s = hits ++ new) := by
  by_cases hnil : resources = []
  · subst hnil
    exact .pure fun s hs => hs.trans (List.append_nil _).symm
  have hnone : ∀ s, s = hits → ∃ new, Part S resources hits new ∧ s = hits ++ new :=
    fun s hs => ⟨[], Or.inl rfl, hs.trans (List.append_nil _).symm⟩
  have hgreen : ∀ s, s = hits ++ greenHits S resources hits →
      ∃ new, Part S resources hits new ∧ s = hits ++ new := fun s hs => ⟨_, Or.inr (Or.inl rfl), hs⟩
  rw [processResources, if_neg hnil]
  refine .bind (Q := fun a s => a = hits ∧ s = hits)
    (.read (fun s a hs ha => ⟨(Except.ok.inj ha).symm.trans hs, hs⟩) hnone) fun a => .fact fun ha => ?_
  subst ha
  refine .bind (Q := fun _ s => s = a) (.read (fun s _ hs _ => hs) hnone) fun _ => ?_
  refine .bind (Q := fun _ s => s = a ++ greenHits S resources a)
    (.commit (fun s _ t hs h => ?_) hnone) fun _ => ?_
  · rw [← (Prod.mk.inj (Except.ok.inj h)).2, hs]
  refine .bind (Q := fun _ s => s = a ++ greenHits S resources a)
    (.read (fun s _ hs _ => hs) hgreen) fun _ => ?_
  refine .bind (Q := fun _ s => s = a ++ (greenHits S resources a ++ redHits S resources a))
    (.commit (fun s _ t hs h => ?_) hgreen) fun _ => ?_
  · rw [← (Prod.mk.inj (Except.ok.inj h)).2, hs, List.append_assoc]
  exact .bind (Q := fun _ s => s = a ++ (greenHits S resources a ++ redHits S resources a))
    (.read (fun s _ hs _ => hs) fun s hs => ⟨_, Or.inr (Or.inr rfl), hs⟩) fun _ => .pure fun s hs => hs

/-- The hits after a run, whether it returns or raises. -/
theorem processResources_hits (resources : List Found) (hits : List ConstraintLimitHit) :
    ∃ new, Part S resources hits new ∧ (processResources S resources hits).2 = hits ++ new := by
  have h := processResources_triple (S := S) resources hits
  cases hrun : processResources S resources hits with
  | mk r s =>
    cases r with
    | ok a => exact ⟨_, Or.inr (Or.inr rfl), h.ok rfl hrun⟩
    | error e => exact h.error rfl hrun

/-- The hits there are, and the second of the last run. -/
structure History where
  hits : List ConstraintLimitHit := []
  clock : ℤ := 0

/-- A run, at a second after that of the one before, whether it returns or raises. -/
def step (s : History) (run : Surroundings × List Found) : Option History :=
  if s.clock < run.1.now then
    some ⟨(processResources run.1 run.2 s.hits).2, run.1.now⟩
  else none

/-- The hits of every resource and type are an automaton, and none is of a later second. -/
structure Alternates (s : History) : Prop where
  automaton : ∀ resourceId type, Automaton (hitsOf s.hits resourceId type)
  before : ∀ h ∈ s.hits, h.createdAt ≤ s.clock

/-- **What a run that returns has settled**: of all it evaluates, the latest hit is red exactly if there is
a violation; a daily limit whose current value is 0 keeps its last hit. -/
def Settles (s : History) (run : Surroundings × List Found) (s' : History) : Prop :=
  ∀ d ∈ (collectProcessingData run.2).rows, ∀ type,
    if type = .DAILY_EXPENSE_LIMIT ∧ d.lastExpenseCost = 0 then
      latestHit s'.hits d.resourceId type = latestHit s.hits d.resourceId type
    else (∃ h, latestHit s'.hits d.resourceId type = some h ∧ h.state = .RED) ↔
      (violation run.1 d type).isSome

theorem greenHit_own (type : ConstraintType) (d : ResourceData) (h : ConstraintLimitHit)
    (hgreen : greenHit S hits d type = some h) :
    h.deletedAt = 0 ∧ h.resourceId = d.resourceId ∧ h.type = type := by
  obtain ⟨-, -, -, hdel, hid, htype, -⟩ := greenHit_eq_some hgreen
  exact ⟨hdel, hid, htype⟩

theorem redHit_own (type : ConstraintType) (d : ResourceData) (h : ConstraintLimitHit)
    (hred : redHit S hits d type = some h) :
    h.deletedAt = 0 ∧ h.resourceId = d.resourceId ∧ h.type = type := by
  obtain ⟨_, -, -, hdel, hid, htype, -⟩ := redHit_eq_some hred
  exact ⟨hdel, hid, htype⟩

theorem hitsOf_greenHits {resources : List Found} (hd : d ∈ (collectProcessingData resources).rows) :
    hitsOf (greenHits S resources hits) d.resourceId type = (greenHit S hits d type).toList :=
  hitsOf_forEach (fun d type => greenHit_own type d) hd

theorem hitsOf_redHits {resources : List Found} (hd : d ∈ (collectProcessingData resources).rows) :
    hitsOf (redHits S resources hits) d.resourceId type = (redHit S hits d type).toList :=
  hitsOf_forEach (fun d type => redHit_own type d) hd

/-- The hits of one resource and type after a run that returns. -/
theorem hitsOf_after {resources : List Found} (hd : d ∈ (collectProcessingData resources).rows) :
    hitsOf (hits ++ (greenHits S resources hits ++ redHits S resources hits)) d.resourceId type =
      hitsOf hits d.resourceId type ++ ((greenHit S hits d type).toList ++
        (redHit S hits d type).toList) := by
  rw [hitsOf_append, hitsOf_append, hitsOf_greenHits hd, hitsOf_redHits hd]

/-- **Of a resource and a type a run records one hit at most.** -/
theorem hitsOf_part {resources : List Found} {new : List ConstraintLimitHit}
    (hpart : Part S resources hits new) (resourceId : Uuid) (type : ConstraintType) :
    hitsOf new resourceId type = [] ∨ ∃ d h, d.resourceId = resourceId ∧
      hitsOf new resourceId type = [h] ∧
        (greenHit S hits d type = some h ∨ redHit S hits d type = some h) := by
  by_cases hd : ∃ d ∈ (collectProcessingData resources).rows, d.resourceId = resourceId
  · obtain ⟨d, hd, rfl⟩ := hd
    have hgreen : hitsOf (greenHits S resources hits) d.resourceId type =
        (greenHit S hits d type).toList := hitsOf_greenHits hd
    have hred : hitsOf (redHits S resources hits) d.resourceId type =
        (redHit S hits d type).toList := hitsOf_redHits hd
    obtain rfl | rfl | rfl := hpart
    · exact Or.inl rfl
    · rw [hgreen]
      cases hg : greenHit S hits d type with
      | none => exact Or.inl rfl
      | some h => exact Or.inr ⟨d, h, rfl, rfl, Or.inl hg⟩
    · rw [hitsOf_append, hgreen, hred]
      cases hg : greenHit S hits d type with
      | none =>
        cases hr : redHit S hits d type with
        | none => exact Or.inl rfl
        | some h => exact Or.inr ⟨d, h, rfl, rfl, Or.inr hr⟩
      | some h =>
        have hr : redHit S hits d type = none := by rw [redHit, (greenHit_eq_some hg).1]
        rw [hr]
        exact Or.inr ⟨d, h, rfl, rfl, Or.inl hg⟩
  · have hnone : ∀ d ∈ (collectProcessingData resources).rows, d.resourceId ≠ resourceId :=
      fun d hmem hid => hd ⟨d, hmem, hid⟩
    have hgreen : hitsOf (greenHits S resources hits) resourceId type = [] :=
      hitsOf_forEach_none (fun d type => greenHit_own type d) hnone
    have hred : hitsOf (redHits S resources hits) resourceId type = [] :=
      hitsOf_forEach_none (fun d type => redHit_own type d) hnone
    obtain rfl | rfl | rfl := hpart
    · exact Or.inl rfl
    · exact Or.inl hgreen
    · exact Or.inl (by rw [hitsOf_append, hgreen, hred]; rfl)

/-- A run's hits are of its second. -/
theorem createdAt_of_part {resources : List Found} {new : List ConstraintLimitHit}
    (hpart : Part S resources hits new) : ∀ h ∈ new, h.createdAt = S.now := by
  have hgreen : ∀ h ∈ greenHits S resources hits, h.createdAt = S.now := by
    intro h hh
    obtain ⟨d, -, hh⟩ := List.mem_flatMap.mp hh
    obtain ⟨type, -, hh⟩ := List.mem_filterMap.mp hh
    obtain ⟨-, -, -, -, -, -, hcreated, -⟩ := greenHit_eq_some hh
    exact hcreated
  have hred : ∀ h ∈ redHits S resources hits, h.createdAt = S.now := by
    intro h hh
    obtain ⟨d, -, hh⟩ := List.mem_flatMap.mp hh
    obtain ⟨type, -, hh⟩ := List.mem_filterMap.mp hh
    obtain ⟨_, -, -, -, -, -, hcreated, -⟩ := redHit_eq_some hh
    exact hcreated
  obtain rfl | rfl | rfl := hpart
  · exact fun h hh => absurd hh List.not_mem_nil
  · exact hgreen
  · exact List.forall_mem_append.mpr ⟨hgreen, hred⟩

/-- Nothing is violated at a daily cost of 0. -/
theorem violation_of_no_cost (hcost : d.lastExpenseCost = 0) :
    violation S d .DAILY_EXPENSE_LIMIT = none := by
  have hhandle : ∀ (poolId : Option Uuid) (limit ttlLimit : ℤ), 0 < limit →
      handleResource S d poolId limit ttlLimit .DAILY_EXPENSE_LIMIT = none := by
    intro poolId limit ttlLimit hlimit
    have hnot : ¬ (limit : ℚ) < d.lastExpenseCost := by
      rw [hcost, not_lt]
      exact_mod_cast hlimit.le
    rw [handleResource, if_neg hnot, ite_self]
  have hconstraint : constraintViolation S d .DAILY_EXPENSE_LIMIT = none := by
    refine List.findSome?_eq_none_iff.mpr fun c hc => hhandle _ _ _ ?_
    have hlimit := (of_decide_eq_true (List.mem_filter.mp (List.mem_reverse.mp hc)).2).2.1
    exact_mod_cast hlimit
  have hpolicy : policyViolation S d .DAILY_EXPENSE_LIMIT = none := by
    unfold policyViolation
    split
    · rfl
    · refine List.findSome?_eq_none_iff.mpr fun p hp => hhandle _ _ _ ?_
      exact (of_decide_eq_true (List.mem_filter.mp (List.mem_reverse.mp hp)).2).2.2.1
  rw [violation, hconstraint, hpolicy]
  rfl

theorem dayStart_mono {a b : ℤ} (h : a ≤ b) : dayStart a ≤ dayStart b := by
  unfold dayStart
  omega

section Step

variable {s s' : History} (hs : Alternates s)
include hs

theorem latestHit_eq_getLast? (resourceId : Uuid) (type : ConstraintType) :
    latestHit s.hits resourceId type = (hitsOf s.hits resourceId type).getLast? :=
  latest?_eq_getLast? (hs.automaton resourceId type).ordered

/-- **A hit a run records** continues the automaton of its resource and type. -/
theorem automaton_new (hclock : s.clock < S.now) {h : ConstraintLimitHit}
    (hnew : greenHit S s.hits d type = some h ∨ redHit S s.hits d type = some h) :
    Automaton (hitsOf s.hits d.resourceId type ++ [h]) := by
  have hlast : ∀ last ∈ (hitsOf s.hits d.resourceId type).getLast?,
      latestHit s.hits d.resourceId type = some last :=
    fun last hlast => (latestHit_eq_getLast? hs _ _).trans hlast
  have hearlier : ∀ h' ∈ hitsOf s.hits d.resourceId type, h'.createdAt < S.now :=
    fun h' hh' => lt_of_le_of_lt (hs.before h' (mem_hitsOf.mp hh').1) hclock
  obtain hgreen | hred := hnew
  · obtain ⟨-, -, ⟨limit, hlatest, hlimit⟩, -, -, -, hcreated, hstate⟩ := greenHit_eq_some hgreen
    refine (hs.automaton _ _).concat (fun hnil => ?_) (fun last hmem => ?_) (hcreated ▸ hearlier)
    · rw [latestHit, hnil] at hlatest
      cases hlatest
    · obtain rfl := Option.some.inj (hlatest.symm.trans (hlast last hmem))
      refine ⟨hcreated ▸ hearlier _ (List.mem_of_getLast? hmem), fun _ => hlimit, fun h => ?_⟩
      rw [hstate] at h
      cases h
  · obtain ⟨v, hv, hnot, -, -, htype, hcreated, hstate, hpool, hlim⟩ := redHit_eq_some hred
    refine (hs.automaton _ _).concat (fun _ => hstate) (fun last hmem => ?_) (hcreated ▸ hearlier)
    have hlt := hearlier last (List.mem_of_getLast? hmem)
    refine ⟨hcreated ▸ hlt, fun h => ?_, fun _ hlastRed => ?_⟩
    · rw [hstate] at h
      cases h
    · have hnot := hnot last (hlast last hmem)
      have hlastType := (mem_hitsOf.mp (List.mem_of_getLast? hmem)).2.2.2
      rw [hpool, hlim, hcreated, htype]
      by_contra hsame
      simp only [not_or, not_and, not_lt, ne_eq, not_not] at hsame
      refine hnot ⟨hsame.1, hsame.2.1, hlastRed, fun hdaily => ?_⟩
      exact le_antisymm (hsame.2.2 (hlastType.symm.trans hdaily)) (dayStart_mono hlt.le)

/-- **One run** keeps the automata, whether it returns or raises. -/
theorem alternates_step {run : Surroundings × List Found} (hstep : step s run = some s') :
    Alternates s' := by
  obtain ⟨S, resources⟩ := run
  unfold step at hstep
  split at hstep
  on_goal 2 => cases hstep
  rename_i hclock
  obtain rfl := Option.some.inj hstep
  obtain ⟨new, hpart, hnew⟩ := processResources_hits (S := S) resources s.hits
  constructor
  · intro resourceId type
    change Automaton (hitsOf (processResources S resources s.hits).2 resourceId type)
    rw [hnew, hitsOf_append]
    obtain hnil | ⟨d, h, rfl, hone, hown⟩ := hitsOf_part hpart resourceId type
    · rw [hnil, List.append_nil]
      exact hs.automaton resourceId type
    · rw [hone]
      exact automaton_new hs hclock hown
  · intro h hh
    change h ∈ (processResources S resources s.hits).2 at hh
    rw [hnew] at hh
    obtain hh | hh := List.mem_append.mp hh
    · exact (hs.before h hh).trans hclock.le
    · exact (createdAt_of_part hpart h hh).le

/-- **A run that returns has settled what it evaluates.** -/
theorem settles_step {run : Surroundings × List Found} (hstep : step s run = some s') {ids : List Uuid}
    (hids : (processResources run.1 run.2 s.hits).1 = .ok ids) : Settles s run s' := by
  have hs' := alternates_step hs hstep
  obtain ⟨S, resources⟩ := run
  have hhits : s'.hits = s.hits ++ (greenHits S resources s.hits ++ redHits S resources s.hits) := by
    unfold step at hstep
    split at hstep
    · obtain rfl := Option.some.inj hstep
      exact (processResources_triple (S := S) resources s.hits).ok rfl (Prod.ext hids rfl)
    · cases hstep
  intro d hd type
  have hafter : hitsOf s'.hits d.resourceId type = hitsOf s.hits d.resourceId type ++
      ((greenHit S s.hits d type).toList ++ (redHit S s.hits d type).toList) := by
    rw [hhits]
    exact hitsOf_after hd
  have hlatest := latestHit_eq_getLast? hs d.resourceId type
  have hlatest' := latestHit_eq_getLast? hs' d.resourceId type
  rw [hlatest', hlatest, hafter]
  split
  · rename_i hdaily
    obtain ⟨rfl, hcost⟩ := hdaily
    have hnone := violation_of_no_cost (S := S) hcost
    have hgreen : greenHit S s.hits d .DAILY_EXPENSE_LIMIT = none := by
      cases hg : greenHit S s.hits d .DAILY_EXPENSE_LIMIT with
      | none => rfl
      | some h => exact absurd hcost ((greenHit_eq_some hg).2.1 rfl)
    have hred : redHit S s.hits d .DAILY_EXPENSE_LIMIT = none := by rw [redHit, hnone]
    rw [hgreen, hred]
    simp
  · rename_i hdaily
    cases hv : violation S d type with
    | none =>
      have hred : redHit S s.hits d type = none := by rw [redHit, hv]
      refine iff_of_false ?_ (by simp)
      rintro ⟨h, hlast, hstate⟩
      rw [hred] at hlast
      cases hg : greenHit S s.hits d type with
      | some g =>
        rw [hg] at hlast
        simp only [Option.toList_some, Option.toList_none, List.append_nil, List.getLast?_concat,
          Option.some.injEq] at hlast
        obtain rfl := hlast
        obtain ⟨-, -, -, -, -, -, -, hgreen⟩ := greenHit_eq_some hg
        rw [hgreen] at hstate
        cases hstate
      | none =>
        -- the latest hit was green already, or a green one would have been recorded
        rw [hg] at hlast
        simp only [Option.toList_none, List.append_nil] at hlast
        rw [greenHit, hv, hlatest, hlast] at hg
        simp only [hstate, true_and] at hg
        split at hg
        · cases hg
        · rename_i hcost
          refine hdaily ⟨?_, ?_⟩
          · by_contra htype
            exact hcost fun h => absurd h htype
          · by_contra hne
            refine hcost fun h => ?_
            rw [h]
            exact hne
    | some v =>
      have hgreen : greenHit S s.hits d type = none := by rw [greenHit, hv]
      refine iff_of_true ?_ rfl
      rw [hgreen]
      cases hr : redHit S s.hits d type with
      | some h =>
        obtain ⟨_, -, -, -, -, -, -, hstate, -⟩ := redHit_eq_some hr
        exact ⟨h, by simp, hstate⟩
      | none =>
        rw [redHit, hv] at hr
        simp only at hr
        split at hr
        · rename_i hrecords
          obtain ⟨h, hmem, -, -, hstate, -⟩ := hrecords
          rw [hlatest] at hmem
          exact ⟨h, by simpa using hmem, hstate⟩
        · cases hr

end Step

end LimitHitsController
