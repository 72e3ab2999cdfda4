import EraChronology.Proofs.WeekRule
import Mathlib.Data.Finset.Card
import Mathlib.Data.Int.Interval

set_option autoImplicit false

/-! # The number of a week as a number of weeks

The weeks with enough days from the beginning of a period on are week 1 and every seventh day after
it (`mem_weeksFrom_iff`). So the number of the week of a day is the number of such weeks that have
begun by that day (`weekNumber_counts`).
-/

namespace EraChronology.WeekRule

variable (w : WeekRule) {a j s : Int}

/-- The days of the week from `s` on that do not come before `a`. -/
def daysFrom (a s : Int) : Finset Int :=
  ((Finset.range 7).image fun (i : Nat) => s + (i : Int)).filter (a ≤ ·)

/-- The first days of the weeks that have begun by the day `j` and have enough days from `a` on. -/
def begunWeeks (a j : Int) : Finset Int :=
  (Finset.range (w.weekNumber a j).toNat).image fun (k : Nat) => w.firstWeek a + 7 * (k : Int)

/-! ## Weeks with enough days -/

theorem card_daysFrom (a s : Int) : ((daysFrom a s).card : Int) = max 0 (s + 7 - max a s) := by
  have hdays : daysFrom a s = Finset.Icc (max a s) (s + 6) := by
    ext d
    simp only [daysFrom, Finset.mem_filter, Finset.mem_image, Finset.mem_range, Finset.mem_Icc]
    constructor
    · rintro ⟨⟨i, hi, rfl⟩, hfrom⟩
      omega
    · intro hd
      exact ⟨⟨(d - s).toNat, by omega, by omega⟩, by omega⟩
  rw [hdays, Int.card_Icc]
  omega

/-- A week has enough days when it is among the weeks that are counted. -/
theorem minimalDays_le_card_iff (hs : w.IsWeekStart s) :
    w.minimalDays ≤ (daysFrom a s).card ↔ s ∈ w.weeksFrom a := by
  have hdays := w.minimalDays_mem
  have hcard := card_daysFrom a s
  show _ ↔ w.IsWeekStart s ∧ a ≤ w.lastBeginning s
  simp only [hs, true_and, lastBeginning]
  omega

/-- These weeks are week 1 and those that begin whole weeks after it. -/
theorem mem_weeksFrom_iff (a s : Int) :
    s ∈ w.weeksFrom a ↔ ∃ k : Nat, s = w.firstWeek a + 7 * (k : Int) := by
  obtain ⟨⟨hstart, hbegun⟩, hleast⟩ := w.isLeast_firstWeek a
  unfold IsWeekStart at hstart
  rw [position_eq] at hstart
  constructor
  · intro hs
    have hle := hleast hs
    have hweek := hs.1
    unfold IsWeekStart at hweek
    rw [position_eq] at hweek
    exact ⟨((s - w.firstWeek a) / 7).toNat, by omega⟩
  · rintro ⟨k, rfl⟩
    refine ⟨?_, ?_⟩
    · unfold IsWeekStart
      rw [position_eq]
      omega
    · unfold lastBeginning at hbegun ⊢
      omega

/-! ## Counting them -/

theorem mem_begunWeeks_iff (a j s : Int) :
    s ∈ w.begunWeeks a j ↔ w.IsWeekStart s ∧ s ≤ j ∧ w.minimalDays ≤ (daysFrom a s).card := by
  have hcounted : s ∈ w.begunWeeks a j ↔ s ∈ w.weeksFrom a ∧ s ≤ j := by
    simp only [begunWeeks, Finset.mem_image, Finset.mem_range, mem_weeksFrom_iff, weekNumber]
    constructor
    · rintro ⟨k, hk, rfl⟩
      exact ⟨⟨k, rfl⟩, by omega⟩
    · rintro ⟨⟨k, rfl⟩, hle⟩
      exact ⟨k, by omega, rfl⟩
  rw [hcounted]
  constructor
  · rintro ⟨hs, hle⟩
    exact ⟨hs.1, hle, (w.minimalDays_le_card_iff hs.1).mpr hs⟩
  · rintro ⟨hs, hle, henough⟩
    exact ⟨(w.minimalDays_le_card_iff hs).mp henough, hle⟩

theorem card_begunWeeks (a j : Int) : (w.begunWeeks a j).card = (w.weekNumber a j).toNat := by
  have hinjective : Function.Injective fun (k : Nat) => w.firstWeek a + 7 * (k : Int) := by
    intro k l hkl
    simp only at hkl
    omega
  rw [begunWeeks, Finset.card_image_of_injective _ hinjective, Finset.card_range]

/-- Week 1 begins within a week of the period, so from then on no day has a negative number. -/
theorem weekNumber_nonneg (h : a ≤ j) : 0 ≤ w.weekNumber a j := by
  have hfirst := w.firstWeek_mem a
  unfold weekNumber
  omega

/-- The number of the week of a day is the number of the weeks that have begun by that day and have
enough days from the beginning of the period on. So it is never negative, it does not fall with the
day, and it does not rise with the beginning of the period. -/
theorem weekNumber_counts (w : WeekRule) :
    (∀ a j, a ≤ j →
      (∃ weeks : Finset Int,
        (∀ s, s ∈ weeks ↔ w.IsWeekStart s ∧ s ≤ j ∧ w.minimalDays ≤ (daysFrom a s).card) ∧
          w.weekNumber a j = weeks.card) ∧
        0 ≤ w.weekNumber a j) ∧
    (∀ a i j, i ≤ j → w.weekNumber a i ≤ w.weekNumber a j) ∧
    ∀ a b j, a ≤ b → w.weekNumber b j ≤ w.weekNumber a j := by
  refine ⟨?_, ?_, ?_⟩
  · intro a j h
    have hnonneg := w.weekNumber_nonneg h
    refine ⟨⟨w.begunWeeks a j, w.mem_begunWeeks_iff a j, ?_⟩, hnonneg⟩
    rw [card_begunWeeks]
    omega
  · intro a i j hij
    exact w.weekNumber_le_weekNumber (Int.le_refl a) hij
  · intro a b j hab
    exact w.weekNumber_le_weekNumber hab (Int.le_refl j)

/-- By the weeks of the ISO calendar 53 weeks with four days of 2020 have begun by its last day. -/
theorem weekNumber_counts_iso :
    ∃ w, ofSettings? 2 4 = .ok w ∧ ∃ weeks : Finset Int,
      (∀ s, s ∈ weeks ↔ w.IsWeekStart s ∧ s ≤ 2459215 ∧ 4 ≤ ((daysFrom 2458850 s).card : Int)) ∧
        weeks.card = 53 := by
  refine ⟨_, rfl, ?_⟩
  obtain ⟨⟨weeks, hweeks, hcard⟩, -⟩ :=
    (weekNumber_counts ⟨2, 4, by decide, by decide⟩).1 2458850 2459215 (by decide)
  refine ⟨weeks, hweeks, ?_⟩
  have hnumber : weekNumber ⟨2, 4, by decide, by decide⟩ 2458850 2459215 = 53 := by decide
  omega

end EraChronology.WeekRule
