import Mathlib

/-!
# Foundations/Chunks — lists cut into chunks

Cutting a list into chunks of a size loses nothing (`flatten_toChunks`), makes no longer chunk
(`length_le_of_mem_toChunks`), and cuts off a full chunk after the other (`toChunks_append`).
-/

namespace Chunks

variable {α : Type*}

theorem flatten_toChunks_go (n : ℕ) (xs : List α) : ∀ (chunk : Array α) (chunks : Array (List α)),
    (List.toChunks.go n xs chunk chunks).flatten =
      chunks.toList.flatten ++ (chunk.toList ++ xs) := by
  induction xs with
  | nil => simp [List.toChunks.go]
  | cons x xs ih =>
    intro chunk chunks
    unfold List.toChunks.go
    split <;> simp [ih]

/-- **Nothing is lost in chunks.** -/
theorem flatten_toChunks (n : ℕ) (xs : List α) : (xs.toChunks n).flatten = xs := by
  unfold List.toChunks
  split
  · rfl
  · simp
  · simp [flatten_toChunks_go]

theorem length_le_of_mem_go {n : ℕ} (hn : 0 < n) (xs : List α) : ∀ (chunk : Array α) (chunks : Array (List α)),
    chunk.size ≤ n → (∀ c ∈ chunks, c.length ≤ n) →
      ∀ c ∈ List.toChunks.go n xs chunk chunks, c.length ≤ n := by
  induction xs with
  | nil =>
    intro chunk chunks hchunk hchunks c hc
    simp only [List.toChunks.go, Array.toList_push, List.mem_append, List.mem_singleton, Array.mem_toList_iff] at hc
    obtain hc | rfl := hc
    · exact hchunks c hc
    · simpa using hchunk
  | cons x xs ih =>
    intro chunk chunks hchunk hchunks
    unfold List.toChunks.go
    split
    · refine ih _ _ (by simp; omega) fun c hc => ?_
      obtain hc | rfl := Array.mem_push.mp hc
      · exact hchunks c hc
      · simpa using hchunk
    · rename_i hroom
      rw [beq_iff_eq] at hroom
      exact ih _ _ (by simp; omega) hchunks

/-- No chunk is longer than its size. -/
theorem length_le_of_mem_toChunks {n : ℕ} (hn : 0 < n) {xs c : List α} (hc : c ∈ xs.toChunks n) : c.length ≤ n := by
  obtain ⟨n, rfl⟩ : ∃ m, n = m + 1 := ⟨n - 1, by omega⟩
  cases xs with
  | nil => simp [List.toChunks] at hc
  | cons x xs =>
    simp only [List.toChunks] at hc
    exact length_le_of_mem_go hn xs _ _ (by simp) (by simp) c hc

theorem toChunks_go_full {n : ℕ} (xs : List α) (y : α) (ys : List α) :
    ∀ (chunk : Array α) (chunks : Array (List α)), chunk.size + xs.length = n →
      List.toChunks.go n (xs ++ y :: ys) chunk chunks =
        List.toChunks.go n ys #[y] (chunks.push (chunk.toList ++ xs)) := by
  induction xs with
  | nil =>
    intro chunk chunks h
    have hfull : chunk.size = n := h
    simp [List.toChunks.go, hfull]
  | cons x xs ih =>
    intro chunk chunks h
    rw [List.length_cons] at h
    have hroom : (chunk.size == n) = false := by
      rw [beq_eq_false_iff_ne]
      omega
    rw [List.cons_append, List.toChunks.go, if_neg (by simp [hroom]), ih _ _ (by simp; omega)]
    simp

theorem toChunks_go_chunks (n : ℕ) (xs : List α) : ∀ (chunk : Array α) (chunks : Array (List α)),
    List.toChunks.go n xs chunk chunks = chunks.toList ++ List.toChunks.go n xs chunk #[] := by
  induction xs with
  | nil => simp [List.toChunks.go]
  | cons x xs ih =>
    intro chunk chunks
    unfold List.toChunks.go
    split
    · rw [ih _ (chunks.push _), ih _ (#[].push _)]
      simp
    · exact ih _ _

/-- **A full chunk is cut off.** -/
theorem toChunks_append {n : ℕ} {xs : List α} (hn : xs.length = n) (hxs : xs ≠ []) (y : α)
    (ys : List α) : (xs ++ y :: ys).toChunks n = xs :: (y :: ys).toChunks n := by
  obtain ⟨x, xs, rfl⟩ := List.exists_cons_of_ne_nil hxs
  subst hn
  simp only [List.cons_append, List.length_cons, List.toChunks]
  rw [toChunks_go_full xs y ys _ _ (by simp; omega), toChunks_go_chunks]
  simp

/-- A list shorter than a chunk is one. -/
theorem toChunks_of_le {n : ℕ} {xs : List α} (hn : xs.length ≤ n) (hxs : xs ≠ []) :
    xs.toChunks n = [xs] := by
  have hgo : ∀ (ys : List α) (chunk : Array α), chunk.size + ys.length ≤ n →
      List.toChunks.go n ys chunk #[] = [chunk.toList ++ ys] := by
    intro ys
    induction ys with
    | nil => simp [List.toChunks.go]
    | cons y ys ih =>
      intro chunk h
      rw [List.length_cons] at h
      have hroom : (chunk.size == n) = false := by
        rw [beq_eq_false_iff_ne]
        omega
      rw [List.toChunks.go, if_neg (by simp [hroom]), ih _ (by simp; omega)]
      simp
  obtain ⟨x, xs, rfl⟩ := List.exists_cons_of_ne_nil hxs
  obtain ⟨n, rfl⟩ : ∃ m, n = m + 1 := ⟨n - 1, by simp at hn; omega⟩
  simp only [List.toChunks]
  rw [hgo xs _ (by simp at hn ⊢; omega)]
  simp

end Chunks
