import Mathlib

/-!
# Foundations/Interleave — two parties that act on one state in any order

A party is a partial step, blocked where it has none.  Two of them interleave when either may act
whenever it is not blocked.  What each party's step keeps, every order of their steps keeps
(`Reaches.keeps`).
-/

namespace Interleave

variable {σ : Type*}

/-- One of the parties acts. -/
inductive Step (p q : σ → Option σ) (s s' : σ) : Prop
  | left (h : p s = some s')
  | right (h : q s = some s')

/-- The parties get from one state to another, in some order of their steps. -/
def Reaches (p q : σ → Option σ) : σ → σ → Prop := Relation.ReflTransGen (Step p q)

namespace Reaches

variable {p q : σ → Option σ} {s m t : σ} {I : σ → Prop}

theorem refl (s : σ) : Reaches p q s s := Relation.ReflTransGen.refl

theorem trans (h : Reaches p q s m) (h' : Reaches p q m t) : Reaches p q s t :=
  Relation.ReflTransGen.trans h h'

/-- The first party acts, then the rest. -/
theorem left (h : p s = some m) (h' : Reaches p q m t) : Reaches p q s t :=
  Relation.ReflTransGen.head (.left h) h'

/-- The second party acts, then the rest. -/
theorem right (h : q s = some m) (h' : Reaches p q m t) : Reaches p q s t :=
  Relation.ReflTransGen.head (.right h) h'

/-- **What both parties keep, all orders keep.** -/
theorem keeps (hp : ∀ s s', I s → p s = some s' → I s') (hq : ∀ s s', I s → q s = some s' → I s')
    (h : Reaches p q s t) (hs : I s) : I t := by
  induction h with
  | refl => exact hs
  | tail _ hstep ih =>
    rcases hstep with hstep | hstep
    · exact hp _ _ ih hstep
    · exact hq _ _ ih hstep

end Reaches

end Interleave
