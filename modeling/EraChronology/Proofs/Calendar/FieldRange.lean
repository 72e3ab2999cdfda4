import EraChronology.Calendar.FieldRange
import EraChronology.Proofs.Calendar.Period

set_option autoImplicit false

/-! # When a date has a range of a field

Every month of an era has an extent (`exists_extent_eq_ok`) and every field a limit
(`exists_limit_eq_ok`), so only the label that announces a cut range can be in the way: a date of
the calendar has a range unless the range is cut and the year is too long to be written
(`fieldRange_eq`).
-/

namespace EraChronology.Calendar

variable {c : Calendar} {e : Era} {f : Field} {n m : Int} {x : EraDate}

/-! ## Extents -/

theorem exists_greatestYear (h : c.table.IsOrdered) :
    ∃ greatest, c.table.greatestYear = .ok greatest := by
  obtain ⟨years, hyears⟩ := h.exists_maxYears
  exact ⟨_, map_eq_ok_iff.mpr ⟨years, hyears, rfl⟩⟩

theorem exists_extent_eq_ok (h : c.table.IsOrdered) (he : e ∈ c.table.eras)
    (hm : 1 ≤ m ∧ m ≤ 12) (f : Field) (n : Int) : ∃ r, c.extent f e n m = .ok r := by
  obtain ⟨greatest, hgreatest⟩ := exists_greatestYear h
  obtain ⟨highest, hhighest⟩ := h.exists_maxYear he
  obtain ⟨y, hy, -⟩ := exists_yearSpan h he n
  obtain ⟨s, hs, -⟩ := exists_monthSpan h he n hm
  cases f <;> simp only [extent, hgreatest, hhighest, hy, hs, monthLengthOf_eq hm] <;>
    exact ⟨_, rfl⟩

/-! ## Limits -/

/-- The months in which eras start and end are months of eras of the table. -/
theorem exists_cutMonths (h : c.table.IsOrdered) :
    ∃ cuts, c.cutMonths = .ok cuts ∧
      ∀ p ∈ cuts, p.era ∈ c.table.eras ∧ 1 ≤ p.month ∧ p.month ≤ 12 := by
  have hcuts : ∀ e ∈ c.table.eras, ∃ cuts, c.cutMonthsOf e = .ok cuts ∧
      ∀ p ∈ cuts, p.era ∈ c.table.eras ∧ 1 ≤ p.month ∧ p.month ≤ 12 := by
    intro e he
    obtain ⟨last, hlast⟩ := h.exists_lastDay he
    refine ⟨_, by rw [cutMonthsOf, hlast]; rfl, ?_⟩
    intro p hp
    obtain ⟨j, -, rfl⟩ := List.mem_map.mp hp
    exact ⟨he, (Gregorian.isValid_ofDayNumber j).1⟩
  obtain ⟨cuts, hall, hmem⟩ := exists_mapM_eq_ok hcuts
  refine ⟨cuts.flatten, map_eq_ok_iff.mpr ⟨cuts, hall, rfl⟩, ?_⟩
  intro p hp
  obtain ⟨ps, hps, hp⟩ := List.mem_flatten.mp hp
  exact hmem ps hps p hp

theorem exists_gregorianLimit (h : c.table.IsOrdered) (f : Field) :
    ∃ l, c.gregorianLimit f = .ok l := by
  obtain ⟨years, hyears⟩ := h.exists_maxYears
  cases f <;> simp only [gregorianLimit, EraTable.leastMaxYear, hyears] <;> exact ⟨_, rfl⟩

theorem exists_limit_eq_ok (h : c.table.IsOrdered) (f : Field) : ∃ l, c.limit f = .ok l := by
  obtain ⟨uncut, huncut⟩ := exists_gregorianLimit h f
  obtain ⟨cuts, hcuts, hmem⟩ := exists_cutMonths h
  have hfold : ∃ l, cuts.foldlM (fun l p => (c.extent f p.era p.year p.month).map l.narrow)
      uncut = .ok l := by
    apply exists_foldlM_eq_ok
    intro l p hp
    obtain ⟨he, hm⟩ := hmem p hp
    obtain ⟨r, hr⟩ := exists_extent_eq_ok h he hm f p.year
    exact ⟨_, map_eq_ok_iff.mpr ⟨r, hr, rfl⟩⟩
  unfold limit
  simp only [huncut, hcuts, bind, Except.bind]
  split
  · exact ⟨uncut, rfl⟩
  · exact hfold

/-! ## Labels -/

theorem isWritable_of_lt_hundred {k : Int} (h : 0 ≤ k ∧ k < 100) : Text.isWritable k = true := by
  have hdigits : k.natAbs.repr.length ≤ 2 := by
    rw [Nat.length_repr_le_iff (by decide)]
    omega
  exact (Text.isWritable_iff k).mpr (Nat.le_trans hdigits (by decide))

/-- Of the numbers in the label of a date only the year may be too long. -/
theorem label_map_eq (hx : c.IsDate x) (h : c.table.IsOrdered) :
    (x.label.map fun _ => ()) =
      if Text.isWritable x.year then .ok () else .error (.input .longNumber) := by
  obtain ⟨-, -, hdate⟩ := (isDate_iff h).mp hx
  obtain ⟨hmonth, hday⟩ := Gregorian.isValid_ofDayNumber x.dayNumber
  have hlength := Gregorian.monthLength_mem (Gregorian.ofDayNumber x.dayNumber).year
    (Gregorian.ofDayNumber x.dayNumber).month
  have hm : Text.isWritable x.month = true := by
    rw [← hdate]
    apply isWritable_of_lt_hundred
    show 0 ≤ (Gregorian.ofDayNumber x.dayNumber).month ∧
      (Gregorian.ofDayNumber x.dayNumber).month < 100
    omega
  have hd : Text.isWritable x.day = true := by
    rw [← hdate]
    apply isWritable_of_lt_hundred
    show 0 ≤ (Gregorian.ofDayNumber x.dayNumber).day ∧
      (Gregorian.ofDayNumber x.dayNumber).day < 100
    omega
  simp only [EraDate.label, writing, requireWritable, List.all_cons, List.all_nil, hm, hd,
    Bool.and_true]
  cases Text.isWritable x.year <;> rfl

theorem requireLabel_eq (h : c.table.IsOrdered) (hx : c.IsDate x) (clamped : Bool) :
    requireLabel clamped x =
      if clamped ∧ ¬ Text.isWritable x.year then .error (.input .longNumber) else .ok () := by
  unfold requireLabel
  rw [label_map_eq hx h]
  cases clamped <;> cases Text.isWritable x.year <;> rfl

/-! ## Ranges -/

/-- A date has a range of each field, with the bounds of its extent, unless the range is cut and
the year of the date is too long to be written. -/
theorem fieldRange_eq (h : c.table.IsOrdered) (hx : c.IsDate x) (f : Field) :
    ∃ r l, c.extent f x.era x.year x.month = .ok r ∧ c.limit f = .ok l ∧
      c.fieldRange x f =
        if r.clamped ∧ ¬ Text.isWritable x.year then .error (.input .longNumber)
        else .ok ⟨f, r.minimum, l.greatestMinimum, l.leastMaximum, r.maximum, r.actualMinimum,
          r.actualMaximum, r.clamped⟩ := by
  obtain ⟨r, hr⟩ := exists_extent_eq_ok h (hx.era_mem h) (hx.month_mem h) f x.year
  obtain ⟨l, hl⟩ := exists_limit_eq_ok h f
  refine ⟨r, l, hr, hl, ?_⟩
  unfold fieldRange
  simp only [hr, hl, requireLabel_eq h hx, bind, Except.bind]
  by_cases hlong : r.clamped = true ∧ ¬ Text.isWritable x.year = true
  · rw [if_pos hlong, if_pos hlong]
  · rw [if_neg hlong, if_neg hlong]
    rfl

end EraChronology.Calendar
