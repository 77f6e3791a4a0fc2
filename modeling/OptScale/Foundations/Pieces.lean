import Mathlib

/-!
# Foundations/Pieces — what is delivered piece by piece

A source is asked again and again, each time in its own way, and answers with a piece of a list and what it
is by then.  If a piece is always the beginning of what is left (`Delivers`), the pieces make up the list;
if only a source with nothing left answers with nothing, every order of asking comes to its end
(`exists_piece_eq_nil`), and then everything is there (`flatMap_pieces`).
-/

namespace Pieces

variable {σ ι α : Type*}

/-- A source, the ways it is asked, and what is left in it. -/
structure Delivers (next : ι → σ → List α × σ) (rest : σ → List α) (asked : ι → Prop)
    (valid : σ → Prop) : Prop where
  valid_next : ∀ i s, asked i → valid s → valid (next i s).2
  /-- A piece is the beginning of what is left. -/
  rest_eq : ∀ i s, asked i → valid s → rest s = (next i s).1 ++ rest (next i s).2
  /-- Nothing is the answer where nothing is left. -/
  rest_eq_nil : ∀ i s, asked i → valid s → (next i s).1 = [] → rest s = []

variable (next : ι → σ → List α × σ) (is : ℕ → ι) (s : σ)

/-- The source after it was asked `n` times. -/
def source : ℕ → σ
  | 0 => s
  | n + 1 => (next (is n) (source n)).2

/-- Its answer to the question after that. -/
def piece (n : ℕ) : List α := (next (is n) (source next is s n)).1

namespace Delivers

variable {next is s} {rest : σ → List α} {asked : ι → Prop} {valid : σ → Prop}
  (h : Delivers next rest asked valid)

include h

theorem valid_source (hasked : ∀ n, asked (is n)) (hs : valid s) (n : ℕ) :
    valid (source next is s n) := by
  induction n with
  | zero => exact hs
  | succ n ih => exact h.valid_next (is n) _ (hasked n) ih

/-- **The pieces so far and what is left** are the list. -/
theorem flatMap_append_rest (hasked : ∀ n, asked (is n)) (hs : valid s) (n : ℕ) :
    (List.range n).flatMap (piece next is s) ++ rest (source next is s n) = rest s := by
  induction n with
  | zero => rfl
  | succ n ih =>
    rw [List.range_succ, List.flatMap_append, List.flatMap_singleton, List.append_assoc]
    rw [h.rest_eq (is n) _ (hasked n) (h.valid_source hasked hs n)] at ih
    exact ih

/-- **Where nothing is answered** the pieces make up the list. -/
theorem flatMap_pieces (hasked : ∀ n, asked (is n)) (hs : valid s) {n : ℕ}
    (hn : piece next is s n = []) : (List.range n).flatMap (piece next is s) = rest s := by
  have hleft := h.rest_eq_nil (is n) _ (hasked n) (h.valid_source hasked hs n) hn
  rw [← h.flatMap_append_rest hasked hs n, hleft, List.append_nil]

/-- **The end is reached**: as long as something is answered, less is left. -/
theorem exists_piece_eq_nil (hasked : ∀ n, asked (is n)) (hs : valid s) :
    ∃ n, piece next is s n = [] := by
  by_contra hnever
  have hlong : ∀ n, n ≤ ((List.range n).flatMap (piece next is s)).length := by
    intro n
    induction n with
    | zero => exact Nat.zero_le _
    | succ n ih =>
      have hpos : 0 < (piece next is s n).length :=
        List.length_pos_of_ne_nil fun hn => hnever ⟨n, hn⟩
      rw [List.range_succ, List.flatMap_append, List.flatMap_singleton, List.length_append]
      omega
  have hall := congrArg List.length (h.flatMap_append_rest hasked hs ((rest s).length + 1))
  have hmore := hlong ((rest s).length + 1)
  rw [List.length_append] at hall
  omega

end Delivers

end Pieces
