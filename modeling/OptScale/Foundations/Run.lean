import Mathlib

/-!
# Foundations/Run — runs of a partial step

A step `σ → ι → Option σ` takes a state and an input and may refuse.  A run feeds it a list of
inputs and stops at the first refusal.  `Always` says what holds of every state a run reaches,
`Along` what holds of every step it takes; `always_iff_along` turns a fact about one step into
the same fact about every run.
-/

namespace Run

variable {σ ι : Type*}

/-- The state after the inputs, if none of them is refused. -/
def run (step : σ → ι → Option σ) : σ → List ι → Option σ
  | s, [] => some s
  | s, i :: is => (step s i).bind fun s' => run step s' is

/-- `P` holds of every state the run reaches, the first one included. -/
def Always (step : σ → ι → Option σ) (P : σ → Prop) : σ → List ι → Prop
  | s, [] => P s
  | s, i :: is => P s ∧ ∀ s', step s i = some s' → Always step P s' is

/-- `G` holds of every step the run takes. -/
def Along (step : σ → ι → Option σ) (G : σ → ι → σ → Prop) : σ → List ι → Prop
  | _, [] => True
  | s, i :: is => ∀ s', step s i = some s' → G s i s' ∧ Along step G s' is

variable {step : σ → ι → Option σ} {P : σ → Prop} {G H : σ → ι → σ → Prop}

@[simp] theorem run_nil (s : σ) : run step s [] = some s := rfl

@[simp] theorem run_cons (s : σ) (i : ι) (is : List ι) :
    run step s (i :: is) = (step s i).bind fun s' => run step s' is := rfl

@[simp] theorem always_nil {s : σ} : Always step P s [] ↔ P s := Iff.rfl

@[simp] theorem always_cons {s : σ} {i : ι} {is : List ι} :
    Always step P s (i :: is) ↔ P s ∧ ∀ s', step s i = some s' → Always step P s' is := Iff.rfl

@[simp] theorem along_nil {s : σ} : Along step G s [] := trivial

@[simp] theorem along_cons {s : σ} {i : ι} {is : List ι} :
    Along step G s (i :: is) ↔ ∀ s', step s i = some s' → G s i s' ∧ Along step G s' is := Iff.rfl

theorem run_append {is js : List ι} : ∀ {s : σ},
    run step s (is ++ js) = (run step s is).bind fun t => run step t js := by
  induction is with
  | nil => exact rfl
  | cons i is ih =>
    intro s
    cases h : step s i with
    | none => simp [h]
    | some s' => simp [h, ih]

/-- **The rest of a run** is a run from where its beginning ends. -/
theorem Along.drop {is js : List ι} : ∀ {s t : σ}, Along step G s (is ++ js) →
    run step s is = some t → Along step G t js := by
  induction is with
  | nil =>
    intro s t h ht
    obtain rfl : s = t := Option.some.inj ht
    exact h
  | cons i is ih =>
    intro s t h ht
    obtain ⟨s', hs, ht⟩ := Option.bind_eq_some_iff.mp ht
    exact ih (h s' hs).2 ht

/-- What each input keeps, a run over these inputs keeps. -/
theorem run_keeps {Q : σ → Prop} {is : List ι}
    (h : ∀ i ∈ is, ∀ s s', step s i = some s' → Q s → Q s') : ∀ {s t : σ}, Q s →
    run step s is = some t → Q t := by
  induction is with
  | nil =>
    intro s t hs ht
    obtain rfl : s = t := Option.some.inj ht
    exact hs
  | cons i is ih =>
    intro s t hs ht
    obtain ⟨s', hs', ht⟩ := Option.bind_eq_some_iff.mp ht
    exact ih (fun j hj => h j (List.mem_cons_of_mem _ hj)) (h i List.mem_cons_self s s' hs' hs) ht

theorem Always.head {s : σ} {is : List ι} (h : Always step P s is) : P s := by
  cases is with
  | nil => exact h
  | cons i is => exact h.1

/-- **The last state of a run is one it reaches.** -/
theorem Always.last {is : List ι} : ∀ {s t : σ}, Always step P s is → run step s is = some t → P t := by
  induction is with
  | nil =>
    intro s t h ht
    obtain rfl : s = t := Option.some.inj ht
    exact h
  | cons i is ih =>
    intro s t h ht
    obtain ⟨s', hs, ht⟩ := Option.bind_eq_some_iff.mp ht
    exact ih (h.2 s' hs) ht

theorem Always.mono {Q : σ → Prop} (hPQ : ∀ s, P s → Q s) {is : List ι} :
    ∀ {s : σ}, Always step P s is → Always step Q s is := by
  induction is with
  | nil => exact fun h => hPQ _ h
  | cons i is ih => exact fun h => ⟨hPQ _ h.1, fun s' hs => ih (h.2 s' hs)⟩

theorem Always.and {Q : σ → Prop} {is : List ι} : ∀ {s : σ}, Always step P s is → Always step Q s is →
    Always step (fun s => P s ∧ Q s) s is := by
  induction is with
  | nil => exact fun hP hQ => ⟨hP, hQ⟩
  | cons i is ih => exact fun hP hQ => ⟨⟨hP.1, hQ.1⟩, fun s' hs => ih (hP.2 s' hs) (hQ.2 s' hs)⟩

theorem Along.mono (hGH : ∀ s i s', G s i s' → H s i s') {is : List ι} :
    ∀ {s : σ}, Along step G s is → Along step H s is := by
  induction is with
  | nil => exact fun _ => trivial
  | cons i is ih => exact fun h s' hs => ⟨hGH _ _ _ (h s' hs).1, ih (h s' hs).2⟩

/-- Conditions that agree on every step agree along every run. -/
theorem along_congr (hGH : ∀ s i s', step s i = some s' → (G s i s' ↔ H s i s')) {is : List ι} :
    ∀ {s : σ}, Along step G s is ↔ Along step H s is := by
  induction is with
  | nil => exact Iff.rfl
  | cons i is ih =>
    exact forall₂_congr fun s' hs => and_congr (hGH _ _ _ hs) ih

theorem Along.and {is : List ι} : ∀ {s : σ}, Along step G s is → Along step H s is →
    Along step (fun s i s' => G s i s' ∧ H s i s') s is := by
  induction is with
  | nil => exact fun _ _ => trivial
  | cons i is ih =>
    exact fun hG hH s' hs => ⟨⟨(hG s' hs).1, (hH s' hs).1⟩, ih (hG s' hs).2 (hH s' hs).2⟩

/-- What the inputs say of themselves, a run has along all its steps. -/
theorem along_of_mem {Q : ι → Prop} {is : List ι} :
    (∀ i ∈ is, Q i) → ∀ s, Along step (fun _ i _ => Q i) s is := by
  induction is with
  | nil => exact fun _ _ => trivial
  | cons i is ih =>
    exact fun h s s' _ => ⟨h i List.mem_cons_self, ih (fun j hj => h j (List.mem_cons_of_mem _ hj)) s'⟩

/-- **The invariant rule**: what the first state has and every allowed step keeps, every state of
an allowed run has. -/
theorem always_of_along (hstep : ∀ s i s', P s → step s i = some s' → G s i s' → P s')
    {is : List ι} : ∀ {s : σ}, P s → Along step G s is → Always step P s is := by
  induction is with
  | nil => exact fun h _ => h
  | cons i is ih =>
    exact fun h hG => ⟨h, fun s' hs => ih (hstep _ _ _ h hs (hG s' hs).1) (hG s' hs).2⟩

/-- **The exact invariant rule**: where a step keeps the invariant exactly when it meets a
condition, a run has the invariant throughout exactly when all its steps meet the condition. -/
theorem always_iff_along (hstep : ∀ s i s', P s → step s i = some s' → (P s' ↔ G s i s'))
    {is : List ι} : ∀ {s : σ}, P s → (Always step P s is ↔ Along step G s is) := by
  induction is with
  | nil => exact fun h => ⟨fun _ => trivial, fun _ => h⟩
  | cons i is ih =>
    intro s h
    constructor
    · exact fun hA s' hs => ⟨(hstep _ _ _ h hs).mp (hA.2 s' hs).head,
        (ih (hA.2 s' hs).head).mp (hA.2 s' hs)⟩
    · refine fun hG => ⟨h, fun s' hs => ?_⟩
      have hs' : P s' := (hstep _ _ _ h hs).mpr (hG s' hs).1
      exact (ih hs').mpr (hG s' hs).2

/-- An unconditional invariant: the invariant rule with nothing to ask of a step. -/
theorem always_of_step (hstep : ∀ s i s', P s → step s i = some s' → P s') (is : List ι) {s : σ}
    (h : P s) : Always step P s is := by
  induction is generalizing s with
  | nil => exact h
  | cons i is ih => exact ⟨h, fun s' hs => ih (hstep _ _ _ h hs)⟩

/-- What an invariant makes true of each step, a run has along all its steps. -/
theorem along_of_always (hG : ∀ s i s', P s → step s i = some s' → P s' → G s i s') {is : List ι} :
    ∀ {s : σ}, Always step P s is → Along step G s is := by
  induction is with
  | nil => exact fun _ => trivial
  | cons i is ih =>
    exact fun h s' hs => ⟨hG _ _ _ h.1 hs (h.2 s' hs).head, ih (h.2 s' hs)⟩

end Run
