import OptScale.Rest.Failure

/-!
# Rest/Text — names, and how the code and the database read them

A name the code takes apart is the list of its characters.  `Collation` is the database's own view
of names: what `=` and `LIKE` take for equal.
-/

open Fallible

/-- A string, by its characters. -/
abbrev Text := List Char

/-- Whether a string is in a list is decided by `=`. -/
instance Text.lawfulBEq : LawfulBEq Text := inferInstance

namespace Text

/-- The characters of `str.isspace`. -/
def isSpaceChar (c : Char) : Bool :=
  c.toNat ∈ [0x09, 0x0A, 0x0B, 0x0C, 0x0D, 0x1C, 0x1D, 0x1E, 0x1F, 0x20, 0x85, 0xA0, 0x1680, 0x2028,
    0x2029, 0x202F, 0x205F, 0x3000] ∨ 0x2000 ≤ c.toNat ∧ c.toNat ≤ 0x200A

/-- `str.isspace`: nothing but white space, and something. -/
def isSpace (s : Text) : Bool := s ≠ [] && s.all isSpaceChar

/-- `re.findall(r'[a-zA-Z0-9]+', s)` -/
def words (s : Text) : List Text := (s.splitOnP fun c => ¬ c.isAlphanum).filter (· ≠ [])

/-- `part in s` -/
def contains (s : Text) (part : String) : Bool := part.toList <:+: s

/-- `str.isdigit`, on a word. -/
def isDigit (s : Text) : Bool := s ≠ [] && s.all Char.isDigit

/-- `int`, on a word of digits. -/
def toNat (s : Text) : ℕ := s.foldl (fun n c => 10 * n + (c.toNat - '0'.toNat)) 0

/-- `str` of a number. -/
def ofNat (n : ℕ) : Text := Nat.toDigits 10 n

/-- `check_string_attribute`, with its default bounds. -/
def checkStringAttribute (name : String) (value : Text) : Except Failure Unit := do
  require (¬ value.isSpace) (.wrongArguments .OE0416 [name])
  require (1 ≤ value.length ∧ value.length ≤ 255) (.wrongArguments .OE0215 [name, "1-255"])

/-- The validator of a `NotWhiteSpaceString` column. -/
def notWhiteSpaceString (key : String) (value : Text) : Except Failure Unit := do
  require (1 ≤ value.length ∧ value.length ≤ 255) (.wrongArguments .OE0215 [key, "1-255"])
  require (¬ value.isSpace) (.wrongArguments .OE0416 [key])

/-! ### White space and numbers -/

theorem not_isSpace_of_mem {s : Text} {c : Char} (hc : c ∈ s) (h : isSpaceChar c = false) :
    s.isSpace = false := by
  simp only [isSpace, Bool.and_eq_false_iff, List.all_eq_false]
  exact Or.inr ⟨c, hc, by simp [h]⟩

theorem isSpaceChar_of_isDigit {c : Char} (h : c.isDigit) : isSpaceChar c = false := by
  have hrange : 48 ≤ c.toNat ∧ c.toNat ≤ 57 := by
    simpa [Char.isDigit, UInt32.le_iff_toNat_le] using h
  simp only [isSpaceChar, List.mem_cons, List.not_mem_nil, or_false, decide_eq_false_iff_not]
  omega

/-- A number is not white space. -/
theorem exists_mem_ofNat (n : ℕ) : ∃ c ∈ ofNat n, isSpaceChar c = false := by
  obtain ⟨c, hc⟩ := List.exists_mem_of_ne_nil _ (Nat.toDigits_ne_nil (n := n) (b := 10))
  exact ⟨c, hc, isSpaceChar_of_isDigit (Nat.isDigit_of_mem_toDigits (by omega) (Nat.le_refl _) hc)⟩

end Text

/-- How the database compares text. -/
structure Collation where
  /-- `=` -/
  equal : Text → Text → Bool
  /-- Two characters match under `LIKE`. -/
  same : Char → Char → Bool

namespace Collation

/-- `text LIKE pattern`, with `%`, `_` and the escape `\`. -/
def like (C : Collation) : Text → Text → Bool
  | [], text => text.isEmpty
  | '%' :: pattern, text => text.tails.any fun rest => C.like pattern rest
  | '\\' :: p :: pattern, c :: text => C.same p c && C.like pattern text
  | '_' :: pattern, _ :: text => C.like pattern text
  | p :: pattern, c :: text => C.same p c && C.like pattern text
  | _ :: _, [] => false

/-- `Column.startswith(name)`: the name is the pattern, nothing in it is escaped. -/
def startsWith (C : Collation) (name text : Text) : Bool := C.like (name ++ ['%']) text

end Collation
