import Mathlib

/-!
# Foundations/Fallible — computations that may refuse

A fallible computation is an `Except ε`.  A check is `require`, and a successful computation is
taken apart one bind at a time by `bind_eq_ok`, so that no caller ever unfolds the monad.
-/

namespace Fallible

universe u v

variable {ε : Type u} {α β : Type v}

/-- Go on if `p` holds, refuse with `e` otherwise. -/
def require (p : Prop) [Decidable p] (e : ε) : Except ε Unit :=
  if p then .ok () else .error e

/-- **A check passes exactly when its condition holds.** -/
@[simp] theorem require_eq_ok {p : Prop} [Decidable p] {e : ε} {u : Unit} :
    require p e = .ok u ↔ p := by
  unfold require
  split <;> simp_all

theorem require_of {p : Prop} [Decidable p] {e : ε} (h : p) : require p e = .ok () :=
  if_pos h

theorem require_not {p : Prop} [Decidable p] {e : ε} (h : ¬ p) : require p e = .error e :=
  if_neg h

/-- The value of a lookup, or the refusal. -/
def orFail (x : Option α) (e : ε) : Except ε α :=
  match x with
  | some a => .ok a
  | none => .error e

@[simp] theorem orFail_some {a : α} {e : ε} : orFail (some a) e = .ok a := rfl

@[simp] theorem orFail_none {e : ε} : orFail (none : Option α) e = .error e := rfl

@[simp] theorem orFail_eq_ok {x : Option α} {e : ε} {a : α} :
    orFail x e = .ok a ↔ x = some a := by
  cases x <;> simp [orFail]

@[simp] theorem ok_bind {a : α} {f : α → Except ε β} : (Except.ok a >>= f) = f a := rfl

@[simp] theorem error_bind {e : ε} {f : α → Except ε β} :
    ((Except.error e : Except ε α) >>= f) = .error e := rfl

/-- **A sequence succeeds exactly when its two parts do.** -/
@[simp] theorem bind_eq_ok {x : Except ε α} {f : α → Except ε β} {b : β} :
    (x >>= f) = .ok b ↔ ∃ a, x = .ok a ∧ f a = .ok b := by
  cases x with
  | ok a => exact ⟨fun h => ⟨a, rfl, h⟩, fun ⟨_, h, hf⟩ => (Except.ok.inj h) ▸ hf⟩
  | error e => exact ⟨fun h => (nomatch h), fun ⟨_, h, _⟩ => (nomatch h)⟩

@[simp] theorem pure_eq_ok {a b : α} : (pure a : Except ε α) = .ok b ↔ a = b :=
  ⟨Except.ok.inj, congrArg _⟩

/-- **A list of checks passes exactly when each of them does.** -/
theorem forM_eq_ok {f : α → Except ε PUnit} {l : List α} :
    l.forM f = .ok ⟨⟩ ↔ ∀ a ∈ l, f a = .ok ⟨⟩ := by
  induction l with
  | nil => exact ⟨fun _ a ha => absurd ha List.not_mem_nil, fun _ => rfl⟩
  | cons a l ih =>
    have hcons : (a :: l).forM f = (f a >>= fun _ => l.forM f) := rfl
    rw [hcons, bind_eq_ok, List.forall_mem_cons, ← ih]
    exact ⟨fun ⟨_, h⟩ => h, fun h => ⟨_, h⟩⟩

/-- **A pass over a list succeeds exactly when each of its turns does**, and then holds what these
gave. -/
theorem mem_of_mapM_eq_ok {f : α → Except ε β} {l : List α} : ∀ {r : List β}, l.mapM f = .ok r →
    ∀ b, b ∈ r ↔ ∃ a ∈ l, f a = .ok b := by
  induction l with
  | nil =>
    intro r h b
    obtain rfl : [] = r := pure_eq_ok.mp (List.mapM_nil.symm.trans h)
    simp
  | cons a l ih =>
    intro r h b
    rw [List.mapM_cons] at h
    simp only [bind_eq_ok, pure_eq_ok] at h
    obtain ⟨c, hc, r', hr', rfl⟩ := h
    rw [List.mem_cons, ih hr', List.exists_mem_cons_iff, hc, Except.ok.injEq, eq_comm]

/-- **What the results of a pass have**, where each turn's result has it. -/
theorem map_of_mapM_eq_ok {γ : Type*} {f : α → Except ε β} {g : α → γ} {h : β → γ} {l : List α} :
    ∀ {r : List β}, (∀ a ∈ l, ∀ b, f a = .ok b → h b = g a) → l.mapM f = .ok r → r.map h = l.map g := by
  induction l with
  | nil =>
    intro r _ hr
    obtain rfl : [] = r := pure_eq_ok.mp (List.mapM_nil.symm.trans hr)
    rfl
  | cons a l ih =>
    intro r hgh hr
    rw [List.mapM_cons] at hr
    simp only [bind_eq_ok, pure_eq_ok] at hr
    obtain ⟨b, hb, r', hr', rfl⟩ := hr
    rw [List.map_cons, List.map_cons, hgh a List.mem_cons_self b hb,
      ih (fun a' ha' => hgh a' (List.mem_cons_of_mem _ ha')) hr']

/-- What holds between the turns of a pass, its results have between them. -/
theorem pairwise_of_mapM_eq_ok {f : α → Except ε β} {R : α → α → Prop} {S : β → β → Prop}
    (hRS : ∀ a a' b b', R a a' → f a = .ok b → f a' = .ok b' → S b b') {l : List α} :
    ∀ {r : List β}, l.Pairwise R → l.mapM f = .ok r → r.Pairwise S := by
  induction l with
  | nil =>
    intro r _ h
    obtain rfl : [] = r := pure_eq_ok.mp (List.mapM_nil.symm.trans h)
    exact List.Pairwise.nil
  | cons a l ih =>
    intro r hl h
    rw [List.mapM_cons] at h
    simp only [bind_eq_ok, pure_eq_ok] at h
    obtain ⟨b, hb, r', hr', rfl⟩ := h
    obtain ⟨ha, hl⟩ := List.pairwise_cons.mp hl
    refine List.pairwise_cons.mpr ⟨fun b' hb' => ?_, ih hl hr'⟩
    obtain ⟨a', ha', hab'⟩ := (mem_of_mapM_eq_ok hr' b').mp hb'
    exact hRS a a' b b' (ha a' ha') hb hab'

theorem mapM_ok {f : α → Except ε β} {l : List α} :
    (∃ r, l.mapM f = .ok r) ↔ ∀ a ∈ l, ∃ b, f a = .ok b := by
  induction l with
  | nil => exact ⟨fun _ a ha => absurd ha List.not_mem_nil, fun _ => ⟨[], List.mapM_nil⟩⟩
  | cons a l ih =>
    simp only [List.mapM_cons, bind_eq_ok, pure_eq_ok, List.forall_mem_cons, ← ih]
    constructor
    · rintro ⟨_, b, hb, r, hr, -⟩
      exact ⟨⟨b, hb⟩, r, hr⟩
    · rintro ⟨⟨b, hb⟩, r, hr⟩
      exact ⟨b :: r, b, hb, r, hr, rfl⟩

/-- **A loop whose turns all succeed** is a loop that cannot fail. -/
theorem foldlM_ok {σ : Type v} {f : σ → α → Except ε σ} {g : σ → α → σ} {l : List α}
    (h : ∀ s, ∀ a ∈ l, f s a = .ok (g s a)) (s : σ) : l.foldlM f s = .ok (l.foldl g s) := by
  induction l generalizing s with
  | nil => rfl
  | cons a l ih =>
    rw [List.foldlM_cons, h s a List.mem_cons_self, ok_bind, List.foldl_cons]
    exact ih (fun s b hb => h s b (List.mem_cons_of_mem _ hb)) (g s a)

/-- The value of a successful computation. -/
def toOption : Except ε α → Option α
  | .ok a => some a
  | .error _ => none

@[simp] theorem toOption_eq_some {x : Except ε α} {a : α} :
    toOption x = some a ↔ x = .ok a := by
  cases x <;> simp [toOption]

end Fallible
