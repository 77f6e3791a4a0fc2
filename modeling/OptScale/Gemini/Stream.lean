import OptScale.Foundations.Pieces

/-!
# Gemini/Stream — `IteratorIO`

The file of duplicates is made chunk by chunk and uploaded in reads of any size.  What a read does not need
waits in a buffer.  The end is noted while the buffer is being filled, so a read that notes it takes all there
is: nothing waits behind the end (`read_faithful`).
-/

namespace GeminiDataWorker

/-- Bytes. -/
abbrev Bytes := List UInt8

/-- `IteratorIO` -/
structure IteratorIO where
  /-- What the iterator has yet to give. -/
  iterator : List Bytes
  buffer : Bytes := []
  streamEnded : Bool := false
  deriving DecidableEq, Repr

namespace IteratorIO

/-- The read needs more than is in the buffer. -/
abbrev Lacks (size : ℤ) (buffer : Bytes) : Prop := size < 0 ∨ (buffer.length : ℤ) < size

/-- The loop of `read`. -/
def fill (size : ℤ) : Bytes → List Bytes → IteratorIO
  | buffer, [] => { iterator := [], buffer, streamEnded := Lacks size buffer }
  | buffer, chunk :: iterator =>
    if Lacks size buffer then fill size (buffer ++ chunk) iterator
    else { iterator := chunk :: iterator, buffer }

/-- `read` -/
def read (size : ℤ) (s : IteratorIO) : Bytes × IteratorIO :=
  if s.streamEnded then ([], s)
  else
    let filled := fill size s.buffer s.iterator
    if size < 0 then (filled.buffer, { filled with buffer := [] })
    else (filled.buffer.take size.toNat, { filled with buffer := filled.buffer.drop size.toNat })

/-- What has not been read yet. -/
def rest (s : IteratorIO) : Bytes := s.buffer ++ s.iterator.flatten

/-- Behind the end there is nothing. -/
def Drained (s : IteratorIO) : Prop := s.streamEnded → s.rest = []

/-- **Filling the buffer** loses nothing; it stops at the end, or where the buffer will do. -/
theorem fill_spec (size : ℤ) (buffer : Bytes) (iterator : List Bytes) :
    (fill size buffer iterator).rest = buffer ++ iterator.flatten ∧
      if Lacks size (fill size buffer iterator).buffer then
        (fill size buffer iterator).iterator = [] ∧ (fill size buffer iterator).streamEnded
      else (fill size buffer iterator).streamEnded = false := by
  induction iterator generalizing buffer with
  | nil =>
    refine ⟨rfl, ?_⟩
    by_cases hlacks : Lacks size buffer <;> simp [fill, hlacks]
  | cons chunk iterator ih =>
    by_cases hlacks : Lacks size buffer
    · rw [fill, if_pos hlacks, List.flatten_cons, ← List.append_assoc]
      exact ih (buffer ++ chunk)
    · rw [fill, if_neg hlacks, if_neg hlacks]
      exact ⟨rfl, rfl⟩

/-- **A read takes the beginning of what is left**, and all of it where it notes the end. -/
theorem read_spec {size : ℤ} {s : IteratorIO} (hs : s.Drained) :
    s.rest = (read size s).1 ++ (read size s).2.rest ∧ (read size s).2.Drained ∧
      (size ≠ 0 → (read size s).1 = [] → s.rest = []) ∧
      (0 ≤ size → ((read size s).1.length : ℤ) ≤ size) := by
  unfold read
  split
  · rename_i hended
    exact ⟨rfl, hs, fun _ _ => hs hended, fun hsize => hsize⟩
  · obtain ⟨hrest, hend⟩ := fill_spec size s.buffer s.iterator
    set filled := fill size s.buffer s.iterator with hfilled
    have hall : s.rest = filled.buffer ++ filled.iterator.flatten := hrest.symm
    split
    · rename_i hnegative
      obtain ⟨hiterator, -⟩ := (if_pos (Or.inl hnegative : Lacks size filled.buffer)).mp hend
      refine ⟨hall, fun _ => ?_, fun _ hnone => ?_, fun hsize => absurd hnegative hsize.not_gt⟩
      · rw [rest, hiterator]
        rfl
      · rw [hall, hiterator, show filled.buffer = [] from hnone]
        rfl
    · rename_i hsize
      refine ⟨?_, fun hended => ?_, fun hne hnone => ?_, fun hnonneg => ?_⟩
      · rw [hall, rest, ← List.append_assoc, List.take_append_drop]
      · by_cases hlacks : Lacks size filled.buffer
        · obtain ⟨hiterator, -⟩ := (if_pos hlacks).mp hend
          have hshort : filled.buffer.length ≤ size.toNat := by
            rcases hlacks with h | h <;> omega
          show filled.buffer.drop size.toNat ++ filled.iterator.flatten = []
          rw [hiterator, List.drop_eq_nil_of_le hshort]
          rfl
        · rw [if_neg hlacks] at hend
          exact absurd hended (by simp [hend])
      · have hempty : filled.buffer = [] := by
          rcases List.take_eq_nil_iff.mp hnone with h | h
          · omega
          · exact h
        have hlacks : Lacks size filled.buffer := by
          rw [hempty]
          exact Or.inr (lt_of_le_of_ne (not_lt.mp hsize) hne.symm)
        obtain ⟨hiterator, -⟩ := (if_pos hlacks).mp hend
        rw [hall, hempty, hiterator]
        rfl
      · rw [List.length_take]
        omega

end IteratorIO

open IteratorIO

/-- Reads of a size that is not zero deliver the stream. -/
theorem delivers : Pieces.Delivers read rest (· ≠ 0) Drained where
  valid_next _ _ _ hs := (read_spec hs).2.1
  rest_eq _ _ _ hs := (read_spec hs).1
  rest_eq_nil _ _ hsize hs := (read_spec hs).2.2.1 hsize

/-- The stream of an iterator. -/
def stream (chunks : List Bytes) : IteratorIO := { iterator := chunks }

theorem stream_drained (chunks : List Bytes) : (stream chunks).Drained := nofun

/-- The result of the `n`th read. -/
def result (chunks : List Bytes) (sizes : ℕ → ℤ) (n : ℕ) : Bytes :=
  Pieces.piece read sizes (stream chunks) n

/-- **The upload stream is faithful**: whatever the chunks and the sizes of the reads, there comes an empty
result, by then the results are the chunks, before it they are a beginning of them, and no result is longer
than was asked for. -/
theorem read_faithful (chunks : List Bytes) (sizes : ℕ → ℤ) (hsizes : ∀ n, sizes n ≠ 0) :
    (∃ n, result chunks sizes n = []) ∧
      (∀ n, result chunks sizes n = [] →
        (List.range n).flatMap (result chunks sizes) = chunks.flatten) ∧
      (∀ n, (List.range n).flatMap (result chunks sizes) <+: chunks.flatten) ∧
      ∀ n, 0 < sizes n → ((result chunks sizes n).length : ℤ) ≤ sizes n := by
  have hdrained := stream_drained chunks
  refine ⟨delivers.exists_piece_eq_nil hsizes hdrained,
    fun n hn => delivers.flatMap_pieces hsizes hdrained hn, fun n => ?_, fun n hn => ?_⟩
  · exact ⟨_, delivers.flatMap_append_rest hsizes hdrained n⟩
  · exact (read_spec (delivers.valid_source hsizes hdrained n)).2.2.2 hn.le

/-- Chunks with an empty one among them, in reads of three bytes and of all there is. -/
theorem read_faithful_mixed :
    (∃ n, result [[1, 2, 3, 4], [], [5]] (fun n => if n = 0 then 3 else -1) n = []) ∧
      (∀ n, result [[1, 2, 3, 4], [], [5]] (fun n => if n = 0 then 3 else -1) n = [] →
        (List.range n).flatMap (result [[1, 2, 3, 4], [], [5]] fun n => if n = 0 then 3 else -1) =
          [1, 2, 3, 4, 5]) ∧
      (∀ n, (List.range n).flatMap (result [[1, 2, 3, 4], [], [5]] fun n => if n = 0 then 3 else -1) <+:
        [1, 2, 3, 4, 5]) ∧
      ∀ n, 0 < (if n = 0 then 3 else -1 : ℤ) →
        ((result [[1, 2, 3, 4], [], [5]] (fun n => if n = 0 then 3 else -1) n).length : ℤ) ≤
          if n = 0 then 3 else -1 :=
  read_faithful [[1, 2, 3, 4], [], [5]] (fun n => if n = 0 then 3 else -1)
    fun n => by split <;> decide

/-! ## The file -/

/-- `csv_generator`: the header and the rows, as `writerow` writes them. -/
def csvGenerator {ρ : Type} (writerow : ρ → Bytes) (header : ρ) (rows : List ρ) : List Bytes :=
  writerow header :: rows.map writerow

/-- **What is uploaded is the file**: the line of the header and those of the rows, in their order. -/
theorem upload_csv {ρ : Type} (writerow : ρ → Bytes) (header : ρ) (rows : List ρ) (sizes : ℕ → ℤ)
    (hsizes : ∀ n, sizes n ≠ 0) {n : ℕ}
    (hn : result (csvGenerator writerow header rows) sizes n = []) :
    (List.range n).flatMap (result (csvGenerator writerow header rows) sizes) =
      writerow header ++ rows.flatMap writerow :=
  delivers.flatMap_pieces hsizes (stream_drained _) hn

end GeminiDataWorker
