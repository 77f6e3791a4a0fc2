import Mathlib

/-!
# Foundations/Calendar — dates and months

A date of the Gregorian calendar has a year, a month, a day and a time of that day; its fields are within
their bounds, and dates are ordered by their fields.  Months are dates of which only year and month are left,
counted by `Month.index`; a month reaches from its first instant to its last second, and each comparison of a
date with one of these is one of indices.
-/

/-- A month. -/
structure Month where
  year : ℕ
  month : ℕ
  month_mem : 1 ≤ month ∧ month ≤ 12
  deriving DecidableEq

namespace Month

/-- A year with a leap day. -/
def leap (year : ℕ) : Prop := year % 4 = 0 ∧ (year % 100 ≠ 0 ∨ year % 400 = 0)

instance (year : ℕ) : Decidable (leap year) :=
  inferInstanceAs (Decidable (year % 4 = 0 ∧ (year % 100 ≠ 0 ∨ year % 400 = 0)))

/-- The last day of a month. -/
def lastDay (m : Month) : ℕ :=
  if m.month = 2 then (if leap m.year then 29 else 28) else if m.month ∈ [4, 6, 9, 11] then 30 else 31

theorem le_lastDay (m : Month) : 28 ≤ m.lastDay := by
  unfold lastDay
  repeat' split
  all_goals omega

/-- The months, counted. -/
def index (m : Month) : ℕ := 12 * m.year + m.month

theorem index_injective : Function.Injective index := by
  rintro ⟨y, m, hm⟩ ⟨y', m', hm'⟩ h
  have hfields : y = y' ∧ m = m' := by
    simp only [index] at h
    omega
  obtain ⟨rfl, rfl⟩ := hfields
  rfl

/-- The month after. -/
def next (m : Month) : Month :=
  if h : m.month + 1 ≤ 12 then ⟨m.year, m.month + 1, by omega⟩ else ⟨m.year + 1, 1, by omega⟩

@[simp] theorem index_next (m : Month) : m.next.index = m.index + 1 := by
  have hm := m.month_mem
  unfold next
  split <;> simp only [index] <;> omega

end Month

/-- A date, to the microsecond. -/
structure Datetime where
  toMonth : Month
  day : ℕ
  /-- The microseconds of the day. -/
  time : ℕ
  day_mem : 1 ≤ day ∧ day ≤ toMonth.lastDay
  time_lt : time < 86400000000
  deriving DecidableEq

namespace Datetime

/-- The fields dates are compared by. -/
def fields (d : Datetime) : ℕ ×ₗ ℕ ×ₗ ℕ ×ₗ ℕ :=
  toLex (d.toMonth.year, toLex (d.toMonth.month, toLex (d.day, d.time)))

theorem fields_injective : Function.Injective fields := by
  rintro ⟨⟨y, m, hm⟩, d, t, hd, ht⟩ ⟨⟨y', m', hm'⟩, d', t', hd', ht'⟩ h
  simp only [fields, EmbeddingLike.apply_eq_iff_eq, Prod.mk.injEq] at h
  obtain ⟨rfl, rfl, rfl, rfl⟩ := h
  rfl

instance : LinearOrder Datetime := LinearOrder.lift' fields fields_injective

variable {d d' : Datetime} {m : Month}

/-- **Dates are compared** by their months first. -/
theorem lt_iff : d < d' ↔ d.toMonth.index < d'.toMonth.index ∨
    d.toMonth.index = d'.toMonth.index ∧ (d.day < d'.day ∨ d.day = d'.day ∧ d.time < d'.time) := by
  have hm := d.toMonth.month_mem
  have hm' := d'.toMonth.month_mem
  change d.fields < d'.fields ↔ _
  simp only [fields, Prod.Lex.toLex_lt_toLex, Month.index]
  omega

/-- The first instant of a month. -/
def firstOf (m : Month) : Datetime :=
  { toMonth := m, day := 1, time := 0, day_mem := ⟨le_refl 1, by have := m.le_lastDay; omega⟩,
    time_lt := by omega }

/-- The last second of a month. -/
def lastOf (m : Month) : Datetime :=
  { toMonth := m, day := m.lastDay, time := 86399000000,
    day_mem := ⟨by have := m.le_lastDay; omega, le_refl _⟩, time_lt := by omega }

@[simp] theorem toMonth_firstOf : (firstOf m).toMonth = m := rfl

@[simp] theorem toMonth_lastOf : (lastOf m).toMonth = m := rfl

/-- A date is after the first instants of its month and of earlier ones. -/
theorem firstOf_le_iff : firstOf m ≤ d ↔ m.index ≤ d.toMonth.index := by
  have hday := d.day_mem
  rw [← not_lt, lt_iff]
  simp only [firstOf]
  omega

/-- The first instants that are not before a date are those of later months, but for its own. -/
theorem le_firstOf_iff : d ≤ firstOf m ↔ d.toMonth.index < m.index ∨ d = firstOf m := by
  rw [le_iff_lt_or_eq, lt_iff]
  have hday := d.day_mem
  refine or_congr_left ?_
  simp only [firstOf]
  omega

/-- The last seconds that are not after a date are those of earlier months, but in the last second of its own. -/
theorem lastOf_le_iff : lastOf m ≤ d ↔ m.index < d.toMonth.index ∨
    m = d.toMonth ∧ lastOf d.toMonth ≤ d := by
  rw [← not_lt, ← not_lt, lt_iff, lt_iff]
  by_cases h : m = d.toMonth
  · subst h
    simp
  · have hindex : m.index ≠ d.toMonth.index := fun heq => h (Month.index_injective heq)
    simp only [toMonth_lastOf, h, false_and, or_false]
    omega

/-- One second later. -/
def addSecond (d : Datetime) : Datetime :=
  if ht : d.time + 1000000 < 86400000000 then { d with time := d.time + 1000000, time_lt := ht }
  else if hd : d.day + 1 ≤ d.toMonth.lastDay then
    { toMonth := d.toMonth, day := d.day + 1, time := d.time + 1000000 - 86400000000,
      day_mem := ⟨by omega, hd⟩, time_lt := by have := d.time_lt; omega }
  else
    { toMonth := d.toMonth.next, day := 1, time := d.time + 1000000 - 86400000000,
      day_mem := ⟨le_refl 1, by have := d.toMonth.next.le_lastDay; omega⟩,
      time_lt := by have := d.time_lt; omega }

/-- **The last second of a month is followed by the first instant of the next.** -/
@[simp] theorem addSecond_lastOf : (lastOf m).addSecond = firstOf m.next := by
  have hlast : (lastOf m).time = 86399000000 := rfl
  have htime : ¬ (lastOf m).time + 1000000 < 86400000000 := by omega
  have hday : ¬ (lastOf m).day + 1 ≤ (lastOf m).toMonth.lastDay := Nat.not_succ_le_self _
  have hrest : (lastOf m).time + 1000000 - 86400000000 = 0 := by omega
  rw [addSecond, dif_neg htime, dif_neg hday]
  simp only [hrest]
  rfl

/-- `replace` of year and month, on a day that every month has. -/
def replaceMonth (d : Datetime) (hday : d.day ≤ 28) (m : Month) : Datetime :=
  { d with toMonth := m, day_mem := ⟨d.day_mem.1, hday.trans m.le_lastDay⟩ }

@[simp] theorem replaceMonth_firstOf {m' : Month} (hday : (firstOf m).day ≤ 28) :
    (firstOf m).replaceMonth hday m' = firstOf m' := rfl

end Datetime
