import Mathlib

/-!
# Foundations/Attempts — what is attempted in turn until something fails

Attempts are made one after another, and each brings a piece of a list or raises something: what is raised
first ends them.  So what they bring is the beginning of what they were to bring, and the rest is missed
(`brought_append_missed`).
-/

namespace Attempts

variable {ε α β : Type*}

/-- An attempt. -/
structure Attempt (ε α : Type*) where
  /-- What it raises, if it fails. -/
  fault : Option ε := none
  /-- What it brings, if it does not. -/
  brings : List α := []

/-- What is raised first. -/
def raised (l : List (Attempt ε α)) : Option ε := l.findSome? Attempt.fault

/-- What is brought before. -/
def brought (l : List (Attempt ε α)) : List α := (l.takeWhile fun a => a.fault.isNone).flatMap Attempt.brings

/-- What is missed from then on. -/
def missed (l : List (Attempt ε α)) : List α := (l.dropWhile fun a => a.fault.isNone).flatMap Attempt.brings

/-- All there is to bring. -/
def offered (l : List (Attempt ε α)) : List α := l.flatMap Attempt.brings

variable {l l' : List (Attempt ε α)} {a : Attempt ε α} {e : ε}

theorem brought_append_missed (l : List (Attempt ε α)) : brought l ++ missed l = offered l := by
  rw [brought, missed, offered, ← List.flatMap_append, List.takeWhile_append_dropWhile]

@[simp] theorem raised_nil : raised ([] : List (Attempt ε α)) = none := rfl

@[simp] theorem brought_nil : brought ([] : List (Attempt ε α)) = [] := rfl

@[simp] theorem raised_singleton (a : Attempt ε α) : raised [a] = a.fault := by
  cases ha : a.fault <;> simp [raised, ha]

theorem raised_cons_of_fault (h : a.fault = some e) : raised (a :: l) = some e := by
  simp only [raised, List.findSome?_cons, h]

theorem brought_cons_of_fault (h : a.fault = some e) : brought (a :: l) = [] := by
  simp [brought, h]

theorem raised_cons_of_none (h : a.fault = none) : raised (a :: l) = raised l := by
  simp only [raised, List.findSome?_cons, h]

theorem brought_cons_of_none (h : a.fault = none) : brought (a :: l) = a.brings ++ brought l := by
  simp [brought, h]

theorem missed_cons_of_none (h : a.fault = none) : missed (a :: l) = missed l := by
  simp [missed, h]

/-- **Nothing is missed where nothing is raised.** -/
theorem missed_of_raised_eq_none (h : raised l = none) : missed l = [] := by
  have hall : l.dropWhile (fun a => a.fault.isNone) = [] := List.dropWhile_eq_nil_iff.mpr fun a ha => by
    rw [List.findSome?_eq_none_iff.mp h a ha]
    rfl
  rw [missed, hall, List.flatMap_nil]

theorem brought_of_raised_eq_none (h : raised l = none) : brought l = offered l := by
  have hall := brought_append_missed l
  rwa [missed_of_raised_eq_none h, List.append_nil] at hall

theorem raised_append (l l' : List (Attempt ε α)) : raised (l ++ l') = (raised l).or (raised l') := by
  rw [raised, List.findSome?_append]
  rfl

theorem offered_append (l l' : List (Attempt ε α)) : offered (l ++ l') = offered l ++ offered l' :=
  List.flatMap_append

/-- Where something is raised, nothing later is brought. -/
theorem brought_append_of_raised (h : raised l = some e) (l' : List (Attempt ε α)) :
    brought (l ++ l') = brought l := by
  induction l with
  | nil => exact nomatch h
  | cons a l ih =>
    cases hf : a.fault with
    | none =>
      rw [raised_cons_of_none hf] at h
      rw [List.cons_append, brought_cons_of_none hf, brought_cons_of_none hf, ih h]
    | some f => rw [List.cons_append, brought_cons_of_fault hf, brought_cons_of_fault hf]

/-- Where nothing is raised, the later attempts are made. -/
theorem brought_append_of_none (h : raised l = none) (l' : List (Attempt ε α)) :
    brought (l ++ l') = brought l ++ brought l' := by
  induction l with
  | nil => rfl
  | cons a l ih =>
    have hf : a.fault = none := List.findSome?_eq_none_iff.mp h a List.mem_cons_self
    rw [raised_cons_of_none hf] at h
    rw [List.cons_append, brought_cons_of_none hf, brought_cons_of_none hf, ih h, List.append_assoc]

/-- **Steps that follow attempts.**  `Follows count s l r`: from `s` on, the attempts `l` lead to `r`, which
has what they brought beside what `s` had. -/
structure Follows {σ : Type*} (count : σ → ℕ) (kept : σ → List α) (s : σ) (l : List (Attempt ε α))
    (r : σ × Option ε) : Prop where
  raised_eq : r.2 = raised l
  count_eq : count r.1 = count s + (brought l).length
  kept_eq : r.2 = none → kept r.1 = kept s ++ brought l

namespace Follows

variable {σ : Type*} {count : σ → ℕ} {kept : σ → List α} {s s' : σ} {r : σ × Option ε}

theorem nil : Follows count kept s ([] : List (Attempt ε α)) (s, none) :=
  ⟨rfl, rfl, fun _ => (List.append_nil _).symm⟩

/-- What was raised stays raised. -/
theorem append_of_raised (h : Follows count kept s l (s', some e)) (l' : List (Attempt ε α)) :
    Follows count kept s (l ++ l') (s', some e) := by
  refine ⟨?_, ?_, fun h => nomatch h⟩
  · rw [raised_append, ← h.raised_eq]
    rfl
  · rw [brought_append_of_raised h.raised_eq.symm]
    exact h.count_eq

/-- **One after the other.** -/
theorem append (h : Follows count kept s l (s', none)) (h' : Follows count kept s' l' r) :
    Follows count kept s (l ++ l') r := by
  have hnone : raised l = none := h.raised_eq.symm
  refine ⟨?_, ?_, fun hr => ?_⟩
  · rw [raised_append, hnone, h'.raised_eq]
    rfl
  · rw [h'.count_eq, h.count_eq, brought_append_of_none hnone, List.length_append, Nat.add_assoc]
  · rw [h'.kept_eq hr, h.kept_eq rfl, brought_append_of_none hnone, List.append_assoc]

end Follows

end Attempts
