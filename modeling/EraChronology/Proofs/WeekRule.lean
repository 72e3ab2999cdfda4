import EraChronology.WeekRule
import Mathlib.Order.Bounds.Basic

set_option autoImplicit false

/-! # Weeks and the periods they are counted in

A week has `minimalDays` of its days in a period when the period begins by the day `lastBeginning`
of the week. Week 1 of a period is the first such week (`isLeast_firstWeek`), and the last week of
a year is counted in the next one when it is such a week for New Year (`rolledTail_eq`).

Weeks are counted on from week 1, so the number of a week does not fall with the day and does not
rise with the beginning of the period (`weekNumber_le_weekNumber`). It stays the same when both are
moved by whole weeks (`weekNumber_add_seven_mul`).
-/

namespace EraChronology.WeekRule

variable (w : WeekRule) {a b i j s : Int}

def IsWeekStart (j : Int) : Prop := w.position j = 0

/-- The last day on which a period can begin that has enough days of the week from `s` on. -/
def lastBeginning (s : Int) : Int := s + 7 - w.minimalDays

/-- The first days of the weeks with enough days from `a` on. -/
def weeksFrom (a : Int) : Set Int := {s | w.IsWeekStart s ∧ a ≤ w.lastBeginning s}

/-! ## Days and weeks -/

theorem position_eq (j : Int) : w.position j = (j + 2 - w.firstDay) % 7 := by
  unfold position Gregorian.dayOfWeek
  omega

theorem weekStart_eq (j : Int) : w.weekStart j = j - (j + 2 - w.firstDay) % 7 := by
  unfold weekStart
  rw [position_eq]

theorem weekStart_le (j : Int) : w.weekStart j ≤ j := by
  rw [weekStart_eq]
  omega

theorem lt_weekStart_add (j : Int) : j < w.weekStart j + 7 := by
  rw [weekStart_eq]
  omega

theorem isWeekStart_weekStart (j : Int) : w.IsWeekStart (w.weekStart j) := by
  unfold IsWeekStart
  rw [position_eq, weekStart_eq]
  omega

/-- Weeks start seven days apart. -/
theorem IsWeekStart.le {w : WeekRule} (hi : w.IsWeekStart i) (hj : w.IsWeekStart j)
    (h : i < j + 7) : i ≤ j := by
  unfold IsWeekStart at hi hj
  rw [position_eq] at hi hj
  omega

theorem IsWeekStart.sub_seven {w : WeekRule} (hs : w.IsWeekStart s) : w.IsWeekStart (s - 7) := by
  unfold IsWeekStart at hs ⊢
  rw [position_eq] at hs ⊢
  omega

theorem weekStart_eq_of_mem {w : WeekRule} (hs : w.IsWeekStart s) (h : s ≤ j ∧ j < s + 7) :
    w.weekStart j = s := by
  unfold IsWeekStart at hs
  rw [position_eq] at hs
  rw [weekStart_eq]
  omega

/-! ## Week 1 -/

theorem firstWeek_mem (a : Int) : a - 6 ≤ w.firstWeek a ∧ w.firstWeek a ≤ a + 6 := by
  have hle := w.weekStart_le (a + 6)
  have hlt := w.lt_weekStart_add (a + 6)
  have hdays := w.minimalDays_mem
  simp only [firstWeek]
  split <;> omega

theorem isLeast_firstWeek (a : Int) : IsLeast (w.weeksFrom a) (w.firstWeek a) := by
  have hstart := w.isWeekStart_weekStart (a + 6)
  have hle := w.weekStart_le (a + 6)
  have hlt := w.lt_weekStart_add (a + 6)
  have hdays := w.minimalDays_mem
  have hbefore := hstart.sub_seven
  unfold weeksFrom lastBeginning
  by_cases hshort : w.minimalDays ≤ w.weekStart (a + 6) - a
  · have hfirst : w.firstWeek a = w.weekStart (a + 6) - 7 := if_pos hshort
    rw [hfirst]
    refine ⟨⟨hbefore, by omega⟩, ?_⟩
    rintro s ⟨hs, hbegun⟩
    exact hbefore.le hs (by omega)
  · have hfirst : w.firstWeek a = w.weekStart (a + 6) := if_neg hshort
    rw [hfirst]
    refine ⟨⟨hstart, by omega⟩, ?_⟩
    rintro s ⟨hs, hbegun⟩
    exact hstart.le hs (by omega)

theorem firstWeek_eq {w : WeekRule} (hs : w.IsWeekStart s) (hbegun : a ≤ w.lastBeginning s)
    (hbefore : w.lastBeginning (s - 7) < a) : w.firstWeek a = s := by
  obtain ⟨⟨hstart, hfirst⟩, hleast⟩ := w.isLeast_firstWeek a
  have hle := hleast ⟨hs, hbegun⟩
  by_contra hne
  have hearlier := hstart.le hs.sub_seven (by omega)
  unfold lastBeginning at hfirst hbefore
  omega

theorem weekNumber_eq (a j : Int) :
    w.weekNumber a j = (w.weekStart j - w.firstWeek a) / 7 + 1 := by
  have hfirst := (w.isLeast_firstWeek a).1.1
  unfold IsWeekStart at hfirst
  rw [position_eq] at hfirst
  unfold weekNumber
  rw [weekStart_eq]
  omega

/-- Days before week 1 have no positive number. -/
theorem one_le_weekNumber_iff (a j : Int) :
    1 ≤ w.weekNumber a j ↔ a ≤ w.lastBeginning (w.weekStart j) := by
  have hleast := w.isLeast_firstWeek a
  have hstart := w.isWeekStart_weekStart j
  rw [weekNumber_eq]
  constructor
  · intro hpos
    have hbegun := hleast.1.2
    unfold lastBeginning at hbegun ⊢
    omega
  · intro hbegun
    have hle := hleast.2 ⟨hstart, hbegun⟩
    omega

/-- The last week of a year is counted in the next one when New Year comes in its course, but in
time for enough days. -/
theorem rolledTail_eq (last : Int) :
    w.rolledTail last =
      if w.weekStart (last + 1) ≤ last ∧ last + 1 ≤ w.lastBeginning (w.weekStart (last + 1)) then
        some (w.weekStart (last + 1))
      else none := by
  have hposition := w.position_eq (last + 1)
  have htail : last + 1 - w.position (last + 1) = w.weekStart (last + 1) := rfl
  have hcondition : (w.position (last + 1) ≠ 0 ∧ w.minimalDays ≤ 7 - w.position (last + 1)) ↔
      w.weekStart (last + 1) ≤ last ∧
        last + 1 ≤ w.lastBeginning (w.weekStart (last + 1)) := by
    unfold lastBeginning
    omega
  simp only [rolledTail, htail]
  by_cases hrolls : w.weekStart (last + 1) ≤ last ∧
      last + 1 ≤ w.lastBeginning (w.weekStart (last + 1))
  · rw [if_pos hrolls, if_pos (hcondition.mpr hrolls)]
  · rw [if_neg hrolls, if_neg fun h => hrolls (hcondition.mp h)]

/-! ## Weeks of a year -/

/-- A week that begins in a year and has enough days of the next one is counted in the next one, or
at the end of the era with the week before it. -/
theorem weekOfYear_of_rolls {span : Span} (hj : j ≤ span.naturalLast)
    (hrolls : span.naturalLast + 1 ≤ w.lastBeginning (w.weekStart j)) :
    w.weekOfYear span j =
      if span.endsEra then w.weekFromAnchor span (w.weekStart j - 1) else 1 := by
  have hle := w.weekStart_le j
  have hdays := w.minimalDays_mem
  have htail : w.weekStart (span.naturalLast + 1) = w.weekStart j := by
    apply weekStart_eq_of_mem (w.isWeekStart_weekStart j)
    unfold lastBeginning at hrolls
    omega
  unfold weekOfYear
  rw [rolledTail_eq, htail, if_pos ⟨by omega, hrolls⟩]
  simp only [Int.not_lt.mpr hle, if_false]

/-- A week that has not enough days of the next year is counted from the anchor. -/
theorem weekOfYear_of_stays {span : Span} (hj : j ≤ span.naturalLast)
    (hstays : w.lastBeginning (w.weekStart j) < span.naturalLast + 1) :
    w.weekOfYear span j = w.weekFromAnchor span j := by
  unfold weekOfYear
  rw [rolledTail_eq]
  split
  next => rfl
  next tail htail =>
    split at htail
    next hrolls =>
      cases htail
      -- Otherwise the day would lie in the week that rolls.
      have hbefore : j < w.weekStart (span.naturalLast + 1) := by
        by_contra hin
        have hlt := w.lt_weekStart_add (span.naturalLast + 1)
        have hsame : w.weekStart j = w.weekStart (span.naturalLast + 1) :=
          weekStart_eq_of_mem (w.isWeekStart_weekStart _) ⟨by omega, by omega⟩
        rw [hsame] at hstays
        omega
      rw [if_pos hbefore]
    next => cases htail

/-- The weeks of a year whose last week does not roll are counted up to its last day. -/
theorem maxWeekOfYear_of_stays {span : Span}
    (hstays : w.lastBeginning (w.weekStart (span.naturalLast + 1)) < span.naturalLast + 1) :
    w.maxWeekOfYear span = max (w.weekNumber span.anchor span.last) 1 := by
  unfold maxWeekOfYear
  rw [rolledTail_eq, if_neg fun hrolls => by omega]

theorem maxWeekOfYear_mem {span : Span} (h : span.last ≤ span.anchor + 365) :
    1 ≤ w.maxWeekOfYear span ∧ w.maxWeekOfYear span ≤ 54 := by
  have hfirst := w.firstWeek_mem span.anchor
  have hlast : ∀ j, j ≤ span.last → w.weekNumber span.anchor j ≤ 54 := by
    intro j hj
    unfold weekNumber
    omega
  unfold maxWeekOfYear
  cases w.rolledTail span.naturalLast with
  | none =>
      have hend := hlast span.last (Int.le_refl _)
      simp only
      omega
  | some tail =>
      by_cases htail : tail ≤ span.last
      · have hend := hlast (tail - 1) (by omega)
        simp only [if_pos htail]
        omega
      · have hend := hlast span.last (Int.le_refl _)
        simp only [if_neg htail]
        omega

/-! ## Order -/

theorem firstWeek_le_firstWeek (h : a ≤ b) : w.firstWeek a ≤ w.firstWeek b := by
  have hb := (w.isLeast_firstWeek b).1
  exact (w.isLeast_firstWeek a).2 ⟨hb.1, Int.le_trans h hb.2⟩

theorem weekNumber_le_weekNumber (hab : a ≤ b) (hij : i ≤ j) :
    w.weekNumber b i ≤ w.weekNumber a j := by
  have hfirst := w.firstWeek_le_firstWeek hab
  unfold weekNumber
  omega

theorem weekOfMonth_le (span : Span) (h : i ≤ j) : w.weekOfMonth span i ≤ w.weekOfMonth span j := by
  have hle := w.weekNumber_le_weekNumber (Int.le_refl span.anchor) h
  simp only [weekOfMonth]
  split
  · omega
  · exact hle

/-! ## Moving by whole weeks -/

theorem weekStart_add_seven_mul (j k : Int) :
    w.weekStart (j + 7 * k) = w.weekStart j + 7 * k := by
  rw [weekStart_eq, weekStart_eq]
  omega

theorem firstWeek_add_seven_mul (a k : Int) :
    w.firstWeek (a + 7 * k) = w.firstWeek a + 7 * k := by
  have hnext := w.weekStart_add_seven_mul (a + 6) k
  have hsum : a + 7 * k + 6 = a + 6 + 7 * k := by omega
  simp only [firstWeek, hsum, hnext]
  split <;> split <;> omega

theorem weekNumber_add_seven_mul (a j k : Int) :
    w.weekNumber (a + 7 * k) (j + 7 * k) = w.weekNumber a j := by
  unfold weekNumber
  rw [firstWeek_add_seven_mul]
  omega

theorem rolledTail_add_seven_mul (last k : Int) :
    w.rolledTail (last + 7 * k) = (w.rolledTail last).map (· + 7 * k) := by
  have hstart := w.weekStart_add_seven_mul (last + 1) k
  have hsum : last + 7 * k + 1 = last + 1 + 7 * k := by omega
  have hcondition : (w.weekStart (last + 1) + 7 * k ≤ last + 7 * k ∧
      last + 1 + 7 * k ≤ w.lastBeginning (w.weekStart (last + 1) + 7 * k)) ↔
      w.weekStart (last + 1) ≤ last ∧
        last + 1 ≤ w.lastBeginning (w.weekStart (last + 1)) := by
    unfold lastBeginning
    omega
  rw [rolledTail_eq, rolledTail_eq, hsum, hstart]
  simp only [hcondition]
  split <;> rfl

end EraChronology.WeekRule
