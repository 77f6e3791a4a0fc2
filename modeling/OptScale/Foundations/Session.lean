import OptScale.Foundations.Fallible

/-!
# Foundations/Session — computations that commit as they go

A session computes over a store and may refuse.  What it committed before it refused stays
(`commit`); a step that only looks (`read`) leaves the store as it is.  A successful session is
taken apart one bind at a time by `bind_eq_ok`; what holds before and after is composed by the rules
of `Triple`, and a property that every commit keeps is kept by the whole session whether or not it
refuses (`Keeps.bind`).  Where the refusals of a part are handled, `Spec` says which of them leave
what behind, and a `call` out of the program is done, refused, or broken after the fact.
-/

universe u v w

/-- A computation over a store `σ` that may refuse with an `ε`. -/
def Session (σ : Type u) (ε : Type v) (α : Type w) := σ → Except ε α × σ

namespace Session

variable {σ : Type u} {ε : Type v} {α β : Type w}

instance : Monad (Session σ ε) where
  pure a := fun s => (.ok a, s)
  bind x f := fun s =>
    match x s with
    | (.ok a, t) => f a t
    | (.error e, t) => (.error e, t)

/-- Look at the store. -/
def read (f : σ → Except ε α) : Session σ ε α := fun s => (f s, s)

/-- Change the store, unless that is refused. -/
def commit (f : σ → Except ε (α × σ)) : Session σ ε α := fun s =>
  match f s with
  | .ok (a, t) => (.ok a, t)
  | .error e => (.error e, s)

/-! ## Taking a session apart -/

@[simp] theorem pure_apply {a : α} {s : σ} : (pure a : Session σ ε α) s = (.ok a, s) := rfl

@[simp] theorem pure_eq_ok {a b : α} {s t : σ} :
    (pure a : Session σ ε α) s = (.ok b, t) ↔ a = b ∧ s = t := by
  rw [pure_apply, Prod.mk.injEq, Except.ok.injEq]

@[simp] theorem read_eq_ok {f : σ → Except ε α} {s t : σ} {a : α} :
    read f s = (.ok a, t) ↔ f s = .ok a ∧ s = t := by
  rw [read, Prod.mk.injEq]

@[simp] theorem read_eq_error {f : σ → Except ε α} {s t : σ} {e : ε} :
    read f s = (.error e, t) ↔ f s = .error e ∧ s = t := by
  rw [read, Prod.mk.injEq]

@[simp] theorem commit_eq_ok {f : σ → Except ε (α × σ)} {s t : σ} {a : α} :
    commit f s = (.ok a, t) ↔ f s = .ok (a, t) := by
  unfold commit
  split <;> simp_all

@[simp] theorem commit_eq_error {f : σ → Except ε (α × σ)} {s t : σ} {e : ε} :
    commit f s = (.error e, t) ↔ f s = .error e ∧ s = t := by
  unfold commit
  split <;> simp_all

/-- **A sequence succeeds exactly when its two parts do, one after the other.** -/
@[simp] theorem bind_eq_ok {x : Session σ ε α} {f : α → Session σ ε β} {s u : σ} {b : β} :
    (x >>= f) s = (.ok b, u) ↔ ∃ a t, x s = (.ok a, t) ∧ f a t = (.ok b, u) := by
  show (match x s with | (.ok a, t) => f a t | (.error e, t) => (.error e, t)) = _ ↔ _
  cases h : x s with
  | mk r t => cases r <;> simp

/-- **A sequence refuses where one of its parts does.** -/
theorem bind_eq_error {x : Session σ ε α} {f : α → Session σ ε β} {s u : σ} {e : ε} :
    (x >>= f) s = (.error e, u) ↔
      x s = (.error e, u) ∨ ∃ a t, x s = (.ok a, t) ∧ f a t = (.error e, u) := by
  show (match x s with | (.ok a, t) => f a t | (.error e, t) => (.error e, t)) = _ ↔ _
  cases h : x s with
  | mk r t => cases r <;> simp

/-- What was found on looking, the rest goes on with. -/
theorem read_bind_of_ok {f : σ → Except ε α} {g : α → Session σ ε β} {s : σ} {a : α}
    (h : f s = .ok a) : (read f >>= g) s = g a s := by
  show (match (f s, s) with | (.ok a, t) => g a t | (.error e, t) => (.error e, t)) = _
  rw [h]

theorem bind_of_ok {x : Session σ ε α} {f : α → Session σ ε β} {s t : σ} {a : α}
    (h : x s = (.ok a, t)) : (x >>= f) s = f a t := by
  show (match x s with | (.ok a, t) => f a t | (.error e, t) => (.error e, t)) = _
  rw [h]

theorem bind_of_error {x : Session σ ε α} {f : α → Session σ ε β} {s t : σ} {e : ε}
    (h : x s = (.error e, t)) : (x >>= f) s = (.error e, t) := by
  show (match x s with | (.ok a, t) => f a t | (.error e, t) => (.error e, t)) = _
  rw [h]

/-- What refuses on looking, the session refuses: the looks are compared one by one. -/
theorem read_bind_of_refused {γ : Type w} {f : σ → Except ε α} {F : α → Except ε γ}
    {g : α → Session σ ε β} {s : σ} {e : ε} (h : (f s >>= F) = .error e)
    (hg : ∀ a, f s = .ok a → F a = .error e → g a s = (.error e, s)) :
    (read f >>= g) s = (.error e, s) := by
  cases hf : f s with
  | ok a =>
    rw [hf] at h
    exact (read_bind_of_ok hf).trans (hg a hf h)
  | error e' =>
    rw [hf] at h
    obtain rfl := Except.error.inj h
    exact bind_of_error (by rw [read, hf])

/-- Sessions that begin alike go on alike. -/
theorem bind_congr {x y : Session σ ε α} {f : α → Session σ ε β} {s : σ} (h : x s = y s) :
    (x >>= f) s = (y >>= f) s := by
  show (match x s with | (.ok a, t) => f a t | (.error e, t) => (.error e, t)) = _
  rw [h]
  rfl

/-! ## Success -/

/-- The session does not refuse. -/
def Succeeds (x : Session σ ε α) (s : σ) : Prop := ∃ a t, x s = (.ok a, t)

/-- A session refuses or succeeds. -/
theorem not_succeeds_iff {x : Session σ ε α} {s : σ} :
    ¬ x.Succeeds s ↔ ∃ e t, x s = (.error e, t) := by
  unfold Succeeds
  cases h : x s with
  | mk r t => cases r <;> simp

theorem succeeds_bind {x : Session σ ε α} {f : α → Session σ ε β} {s : σ} :
    (x >>= f).Succeeds s ↔ ∃ a t, x s = (.ok a, t) ∧ (f a).Succeeds t := by
  simp only [Succeeds, bind_eq_ok]
  exact ⟨fun ⟨b, u, a, t, h, hf⟩ => ⟨a, t, h, b, u, hf⟩,
    fun ⟨a, t, h, b, u, hf⟩ => ⟨b, u, a, t, h, hf⟩⟩

/-- Looking first: the rest runs on the same store. -/
theorem succeeds_read_bind {f : σ → Except ε α} {g : α → Session σ ε β} {s : σ} :
    (read f >>= g).Succeeds s ↔ ∃ a, f s = .ok a ∧ (g a).Succeeds s := by
  rw [succeeds_bind]
  exact ⟨fun ⟨a, _, h, hg⟩ => by obtain ⟨hf, rfl⟩ := read_eq_ok.mp h; exact ⟨a, hf, hg⟩,
    fun ⟨a, hf, hg⟩ => ⟨a, s, read_eq_ok.mpr ⟨hf, rfl⟩, hg⟩⟩

@[simp] theorem succeeds_pure {a : α} {s : σ} : (pure a : Session σ ε α).Succeeds s :=
  ⟨a, s, rfl⟩

/-! ## Before and after -/

/-- **From `P`** the session succeeds with `Q` of its value and the store, or refuses with `R` of
the store. -/
def Triple (P : σ → Prop) (x : Session σ ε α) (Q : α → σ → Prop) (R : σ → Prop) : Prop :=
  ∀ s, P s → (∀ a t, x s = (.ok a, t) → Q a t) ∧ ∀ e t, x s = (.error e, t) → R t

variable {P P' : σ → Prop} {Q Q' : α → σ → Prop} {R R' : σ → Prop}

theorem Triple.ok {x : Session σ ε α} (h : Triple P x Q R) {s t : σ} {a : α} (hs : P s)
    (hx : x s = (.ok a, t)) : Q a t := (h s hs).1 a t hx

theorem Triple.error {x : Session σ ε α} (h : Triple P x Q R) {s t : σ} {e : ε} (hs : P s)
    (hx : x s = (.error e, t)) : R t := (h s hs).2 e t hx

/-- The rule of consequence. -/
theorem Triple.mono {x : Session σ ε α} (h : Triple P x Q R) (hP : ∀ s, P' s → P s)
    (hQ : ∀ a s, Q a s → Q' a s) (hR : ∀ s, R s → R' s) : Triple P' x Q' R' := fun s hs =>
  ⟨fun a t hx => hQ a t (h.ok (hP s hs) hx), fun _ t hx => hR t (h.error (hP s hs) hx)⟩

/-- What is known apart from the store is a hypothesis. -/
theorem Triple.fact {p : Prop} {x : Session σ ε α} (h : p → Triple P x Q R) :
    Triple (fun s => p ∧ P s) x Q R := fun s hs => h hs.1 s hs.2

theorem Triple.pure {a : α} (h : ∀ s, P s → Q a s) : Triple P (pure a : Session σ ε α) Q R :=
  fun s hs => ⟨fun b t hx => by obtain ⟨rfl, rfl⟩ := pure_eq_ok.mp hx; exact h s hs,
    fun e t hx => nomatch (Prod.mk.inj hx).1⟩

theorem Triple.read {f : σ → Except ε α} (hok : ∀ s a, P s → f s = .ok a → Q a s)
    (herror : ∀ s, P s → R s) : Triple P (read f) Q R :=
  fun s hs => ⟨fun a t hx => by obtain ⟨hf, rfl⟩ := read_eq_ok.mp hx; exact hok s a hs hf,
    fun e t hx => by obtain ⟨-, rfl⟩ := read_eq_error.mp hx; exact herror s hs⟩

theorem Triple.commit {f : σ → Except ε (α × σ)} (hok : ∀ s a t, P s → f s = .ok (a, t) → Q a t)
    (herror : ∀ s, P s → R s) : Triple P (commit f) Q R :=
  fun s hs => ⟨fun a t hx => hok s a t hs (commit_eq_ok.mp hx),
    fun e t hx => by obtain ⟨-, rfl⟩ := commit_eq_error.mp hx; exact herror s hs⟩

/-- **The rule of sequence.** -/
theorem Triple.bind {x : Session σ ε α} {f : α → Session σ ε β} {S : β → σ → Prop}
    (hx : Triple P x Q R) (hf : ∀ a, Triple (Q a) (f a) S R) : Triple P (x >>= f) S R := by
  refine fun s hs => ⟨fun b u h => ?_, fun e u h => ?_⟩
  · obtain ⟨a, t, ha, hb⟩ := bind_eq_ok.mp h
    exact (hf a).ok (hx.ok hs ha) hb
  · obtain h | ⟨a, t, ha, hb⟩ := bind_eq_error.mp h
    · exact hx.error hs h
    · exact (hf a).error (hx.ok hs ha) hb

/-! ## What a session keeps -/

/-- Whatever the outcome, what `P` says of the store still holds. -/
def Keeps (P : σ → Prop) (x : Session σ ε α) : Prop := Triple P x (fun _ => P) P

theorem Keeps.apply {x : Session σ ε α} (h : Keeps P x) {s : σ} (hs : P s) : P (x s).2 := by
  cases hx : x s with
  | mk r t =>
    cases r with
    | ok a => exact h.ok hs hx
    | error e => exact h.error hs hx

theorem Keeps.pure (a : α) : Keeps P (pure a : Session σ ε α) := Triple.pure fun _ h => h

theorem Keeps.read (f : σ → Except ε α) : Keeps P (read f) :=
  Triple.read (fun _ _ h _ => h) fun _ h => h

theorem Keeps.commit {f : σ → Except ε (α × σ)} (hf : ∀ s a t, P s → f s = .ok (a, t) → P t) :
    Keeps P (commit f) := Triple.commit hf fun _ h => h

/-- **What each part keeps, the sequence keeps.** -/
theorem Keeps.bind {x : Session σ ε α} {f : α → Session σ ε β} (hx : Keeps P x)
    (hf : ∀ a, Keeps P (f a)) : Keeps P (x >>= f) := Triple.bind hx hf

/-- **What each turn keeps, the loop keeps.** -/
theorem Keeps.forM {ι : Type*} {f : ι → Session σ ε PUnit.{w + 1}} {l : List ι}
    (hf : ∀ i ∈ l, Keeps P (f i)) : Keeps P (l.forM f) := by
  induction l with
  | nil => exact .pure _
  | cons i l ih =>
    exact .bind (hf i List.mem_cons_self) fun _ => ih fun j hj => hf j (List.mem_cons_of_mem _ hj)

/-! ## The store at the end -/

section End

variable {f : σ → Except ε α} {h : σ → Except ε (α × σ)} {g : α → Session σ ε β} {s : σ}

/-- A look leaves the store to what comes after it. -/
theorem read_bind_end (hs : P s) (hg : ∀ a, f s = .ok a → P (g a s).2) : P ((Session.read f >>= g) s).2 := by
  cases hf : f s with
  | ok a =>
    rw [read_bind_of_ok hf]
    exact hg a hf
  | error e =>
    rw [bind_of_error (read_eq_error.mpr ⟨hf, rfl⟩)]
    exact hs

/-- A commit leaves what it stored to what comes after it, or the store as it was. -/
theorem commit_bind_end (hs : P s) (hg : ∀ a t, h s = .ok (a, t) → P (g a t).2) :
    P ((Session.commit h >>= g) s).2 := by
  cases hf : h s with
  | ok r =>
    rw [bind_of_ok (commit_eq_ok.mpr hf)]
    exact hg r.1 r.2 hf
  | error e =>
    rw [bind_of_error (commit_eq_error.mpr ⟨hf, rfl⟩)]
    exact hs

theorem commit_end (hs : P s) (hc : ∀ a t, h s = .ok (a, t) → P t) : P (Session.commit h s).2 := by
  cases hf : h s with
  | ok r =>
    rw [commit_eq_ok.mpr hf]
    exact hc r.1 r.2 hf
  | error e =>
    rw [commit_eq_error.mpr ⟨hf, rfl⟩]
    exact hs

end End

/-! ## Refusals handled -/

/-- Clean up where the session refuses. -/
def onRefusal (x : Session σ ε α) (cleanup : σ → σ) : Session σ ε α := fun s =>
  match x s with
  | (.ok a, t) => (.ok a, t)
  | (.error e, t) => (.error e, cleanup t)

theorem Triple.onRefusal {x : Session σ ε α} {cleanup : σ → σ} (hx : Triple P x Q R')
    (hcleanup : ∀ s, R' s → R (cleanup s)) : Triple P (onRefusal x cleanup) Q R := by
  intro s hs
  unfold Session.onRefusal
  cases hrun : x s with
  | mk r t =>
    cases r with
    | ok a => exact ⟨fun b u h => (by cases h; exact hx.ok hs hrun), fun e u h => (nomatch h)⟩
    | error e =>
      exact ⟨fun b u h => (nomatch h), fun e' u h => (by cases h; exact hcleanup _ (hx.error hs hrun))⟩

/-- Try again after a refusal, at most `n` times. -/
def retry (x : Session σ ε α) : ℕ → Session σ ε α
  | 0 => x
  | n + 1 => fun s =>
    match x s with
    | (.ok a, t) => (.ok a, t)
    | (.error _, t) => retry x n t

/-- **What one attempt keeps, all attempts keep.** -/
theorem Keeps.retry {x : Session σ ε α} (hx : Keeps P x) (n : ℕ) : Keeps P (retry x n) := by
  induction n with
  | zero => exact hx
  | succ n ih =>
    intro s hs
    unfold Session.retry
    cases hrun : x s with
    | mk r t =>
      cases r with
      | ok a => exact ⟨fun b u h => (by cases h; exact hx.ok hs hrun), fun e u h => (nomatch h)⟩
      | error e => exact ih t (hx.error hs hrun)

/-! ## Refusals told apart -/

/-- `Triple`, with what is known of the refusal itself. -/
def Spec (P : σ → Prop) (x : Session σ ε α) (Q : α → σ → Prop) (E : ε → σ → Prop) : Prop :=
  ∀ s, P s → (∀ a t, x s = (.ok a, t) → Q a t) ∧ ∀ e t, x s = (.error e, t) → E e t

variable {E E' : ε → σ → Prop}

theorem Triple.spec {x : Session σ ε α} (h : Triple P x Q R) : Spec P x Q fun _ => R := h

theorem Keeps.spec {x : Session σ ε α} (h : Keeps P x) : Spec P x (fun _ => P) fun _ => P := h

theorem Spec.ok {x : Session σ ε α} (h : Spec P x Q E) {s t : σ} {a : α} (hs : P s)
    (hx : x s = (.ok a, t)) : Q a t := (h s hs).1 a t hx

theorem Spec.error {x : Session σ ε α} (h : Spec P x Q E) {s t : σ} {e : ε} (hs : P s)
    (hx : x s = (.error e, t)) : E e t := (h s hs).2 e t hx

theorem Spec.mono {x : Session σ ε α} (h : Spec P x Q E) (hP : ∀ s, P' s → P s)
    (hQ : ∀ a s, Q a s → Q' a s) (hE : ∀ e s, E e s → E' e s) : Spec P' x Q' E' := fun s hs =>
  ⟨fun a t hx => hQ a t (h.ok (hP s hs) hx), fun e t hx => hE e t (h.error (hP s hs) hx)⟩

theorem Spec.pure {a : α} (h : ∀ s, P s → Q a s) : Spec P (pure a : Session σ ε α) Q E :=
  fun s hs => ⟨fun b t hx => by obtain ⟨rfl, rfl⟩ := pure_eq_ok.mp hx; exact h s hs,
    fun e t hx => by cases hx⟩

theorem Spec.bind {x : Session σ ε α} {f : α → Session σ ε β} {S : β → σ → Prop}
    (hx : Spec P x Q E) (hf : ∀ a, Spec (Q a) (f a) S E) : Spec P (x >>= f) S E := by
  refine fun s hs => ⟨fun b u h => ?_, fun e u h => ?_⟩
  · obtain ⟨a, t, ha, hb⟩ := bind_eq_ok.mp h
    exact (hf a).ok (hx.ok hs ha) hb
  · obtain h | ⟨a, t, ha, hb⟩ := bind_eq_error.mp h
    · exact hx.error hs h
    · exact (hf a).error (hx.ok hs ha) hb

/-- **What a session keeps** stays true beside what it establishes. -/
theorem Spec.keeping {x : Session σ ε α} (h : Spec P x Q E) (hR : Keeps R x) :
    Spec (fun s => P s ∧ R s) x (fun a s => Q a s ∧ R s) (fun e s => E e s ∧ R s) := fun s hs =>
  ⟨fun a t hx => ⟨h.ok hs.1 hx, hR.ok hs.2 hx⟩, fun e t hx => ⟨h.error hs.1 hx, hR.error hs.2 hx⟩⟩

/-- What holds after the session whatever its outcome. -/
theorem Spec.apply {x : Session σ ε α} (h : Spec P x (fun _ => R) fun _ => R) {s : σ} (hs : P s) :
    R (x s).2 := by
  cases hx : x s with
  | mk r t =>
    cases r with
    | ok a => exact h.ok hs hx
    | error e => exact h.error hs hx

/-- Refuse. -/
def raise (e : ε) : Session σ ε α := fun s => (.error e, s)

theorem Spec.raise {e : ε} (h : ∀ s, P s → E e s) : Spec P (raise e : Session σ ε α) Q E :=
  fun s hs => ⟨fun a t hx => (by cases hx), fun e' t hx => by cases hx; exact h s hs⟩

theorem Keeps.raise (e : ε) : Keeps P (raise e : Session σ ε α) := Spec.raise fun _ h => h

/-- The session, and where it refuses, the handler on what the store is by then. -/
def caught (x : Session σ ε α) (handler : ε → Session σ ε α) : Session σ ε α := fun s =>
  match x s with
  | (.ok a, t) => (.ok a, t)
  | (.error e, t) => handler e t

theorem caught_of_error {x : Session σ ε α} {handler : ε → Session σ ε α} {s t : σ} {e : ε}
    (h : x s = (.error e, t)) : caught x handler s = handler e t := by
  unfold Session.caught
  rw [h]

theorem caught_of_ok {x : Session σ ε α} {handler : ε → Session σ ε α} {s t : σ} {a : α}
    (h : x s = (.ok a, t)) : caught x handler s = (.ok a, t) := by
  unfold Session.caught
  rw [h]

/-- A session whose refusals are swallowed. -/
theorem caught_pure {τ : Type u} {ε : Type v} (x : Session τ ε Unit) (s : τ) :
    caught x (fun _ => Pure.pure ()) s = (.ok (), (x s).2) := by
  cases h : x s with
  | mk r t =>
    cases r with
    | ok a => rw [caught_of_ok h]
    | error e => rw [caught_of_error h]; rfl

theorem Spec.caught {x : Session σ ε α} {handler : ε → Session σ ε α} (hx : Spec P x Q E)
    (hhandler : ∀ e, Spec (E e) (handler e) Q E') : Spec P (caught x handler) Q E' := by
  intro s hs
  unfold Session.caught
  cases hrun : x s with
  | mk r t =>
    cases r with
    | ok a => exact ⟨fun b u h => (by cases h; exact hx.ok hs hrun), fun e u h => (by cases h)⟩
    | error e => exact hhandler e t (hx.error hs hrun)

/-- **What a session and its handler keep**, the two keep together. -/
theorem Keeps.caught {x : Session σ ε α} {handler : ε → Session σ ε α} (hx : Keeps P x)
    (hhandler : ∀ e, Keeps P (handler e)) : Keeps P (caught x handler) :=
  Spec.caught hx.spec hhandler

/-! ## Changes and calls -/

/-- Change the store. -/
def change (f : σ → σ) : Session σ ε Unit := fun s => (.ok (), f s)

theorem Spec.change {f : σ → σ} {Q : Unit → σ → Prop} (h : ∀ s, P s → Q () (f s)) :
    Spec P (change f : Session σ ε Unit) Q E :=
  fun s hs => ⟨fun a t hx => by cases hx; exact h s hs, fun e t hx => by cases hx⟩

theorem Keeps.change {f : σ → σ} (h : ∀ s, P s → P (f s)) :
    Keeps P (change f : Session σ ε Unit) := Spec.change h

/-- How a call out of the program ends: it does what it is for; it raises and has done nothing; it
raises although it has done it. -/
inductive Call
  | done | refused | broken
deriving DecidableEq, Repr

/-- The call does what it is for. -/
def Call.effective (c : Call) : Prop := c ≠ .refused

instance : DecidablePred Call.effective := fun c => inferInstanceAs (Decidable (c ≠ .refused))

/-- A call that is for changing the store by `f`, and may raise `e`. -/
def call (c : Call) (e : ε) (f : σ → σ) : Session σ ε Unit := fun s =>
  match c with
  | .done => (.ok (), f s)
  | .refused => (.error e, s)
  | .broken => (.error e, f s)

/-- **A call** returns when it is done, and otherwise raises with its effect or without. -/
theorem Spec.call {c : Call} {e : ε} {f : σ → σ} {Q : Unit → σ → Prop}
    (hdone : c = .done → ∀ s, P s → Q () (f s)) (hrefused : c = .refused → ∀ s, P s → E e s)
    (hbroken : c = .broken → ∀ s, P s → E e (f s)) : Spec P (call c e f) Q E := by
  intro s hs
  cases c with
  | done => exact ⟨fun a t hx => by cases hx; exact hdone rfl s hs, fun e t hx => by cases hx⟩
  | refused => exact ⟨fun a t hx => (by cases hx), fun e t hx => by cases hx; exact hrefused rfl s hs⟩
  | broken => exact ⟨fun a t hx => (by cases hx), fun e t hx => by cases hx; exact hbroken rfl s hs⟩

theorem Keeps.call (c : Call) (e : ε) {f : σ → σ} (h : ∀ s, P s → P (f s)) :
    Keeps P (call c e f) := Spec.call (fun _ => h) (fun _ _ hs => hs) fun _ => h

/-! ## Part of a store -/

variable {τ : Type u}

/-- A session on a part of the store. -/
def within (part : τ → σ) (put : σ → τ → τ) (x : Session σ ε α) : Session τ ε α := fun s =>
  ((x (part s)).1, put (x (part s)).2 s)

/-- **What a session does to its part**, it does to the store. -/
theorem Triple.within {part : τ → σ} {put : σ → τ → τ} {x : Session σ ε α} {s₀ : σ}
    {P : τ → Prop} {Q : α → τ → Prop} {R : τ → Prop} {Q' : α → σ → Prop} {R' : σ → Prop}
    (hx : Triple (fun s => s = s₀) x Q' R') (hP : ∀ s, P s → part s = s₀)
    (hQ : ∀ a s t, P s → Q' a t → Q a (put t s)) (hR : ∀ s t, P s → R' t → R (put t s)) :
    Triple P (Session.within part put x) Q R := by
  intro s hs
  unfold Session.within
  constructor
  · intro a t h
    obtain ⟨hrun, rfl⟩ := Prod.mk.inj h
    exact hQ a s _ hs (hx.ok (hP s hs) (Prod.ext hrun rfl))
  · intro e t h
    obtain ⟨hrun, rfl⟩ := Prod.mk.inj h
    exact hR s _ hs (hx.error (hP s hs) (Prod.ext hrun rfl))

/-- What is said of the rest of the store, a session on a part keeps. -/
theorem Keeps.within {part : τ → σ} {put : σ → τ → τ} (x : Session σ ε α) {P : τ → Prop}
    (hput : ∀ s t, P s → P (put t s)) : Keeps P (Session.within part put x) := by
  intro s hs
  refine ⟨fun a t h => ?_, fun e t h => ?_⟩
  · obtain ⟨-, rfl⟩ := Prod.mk.inj h
    exact hput s _ hs
  · obtain ⟨-, rfl⟩ := Prod.mk.inj h
    exact hput s _ hs

end Session
