import EraChronology.Proofs.EraTable.Ownership
import EraChronology.Representable
import EraChronology.Spec

set_option autoImplicit false

/-! # The last year of an era

An era is cut by its end or, if it is open, by the ceiling. Either way its last year is the year
of the last of its days that are not past the ceiling (`IsOrdered.exists_last`).

This makes the last year a threshold for all integers: a year is not past it exactly when its New
Year comes before the end of the era, or not after the ceiling (`le_maxYear_iff`).
-/

namespace EraChronology

/-! ## The least and the greatest of a list -/

theorem min?_getD_le {xs : List Int} {x : Int} (hx : x ∈ xs) (d : Int) : xs.min?.getD d ≤ x := by
  cases hmin : xs.min? with
  | none =>
      rw [List.min?_eq_none_iff.mp hmin] at hx
      cases hx
  | some least => exact (List.min?_eq_some_iff.mp hmin).2 x hx

theorem le_max?_getD {xs : List Int} {x : Int} (hx : x ∈ xs) (d : Int) : x ≤ xs.max?.getD d := by
  cases hmax : xs.max? with
  | none =>
      rw [List.max?_eq_none_iff.mp hmax] at hx
      cases hx
  | some greatest => exact (List.max?_eq_some_iff.mp hmax).2 x hx

namespace EraTable

variable {table : EraTable}

/-! ## The last years of all eras -/

section

variable {e : Era} {n least greatest : Int} (he : e ∈ table.eras) (hn : table.maxYear e = .ok n)
include he hn

theorem mem_maxYears {years : List Int} (hyears : table.maxYears = .ok years) : n ∈ years := by
  obtain ⟨n', hmem, hn'⟩ := exists_mem_of_mapM_eq_ok hyears he
  rw [hn] at hn'
  cases hn'
  exact hmem

theorem le_greatestYear (h : table.greatestYear = .ok greatest) : n ≤ greatest := by
  obtain ⟨years, hyears, rfl⟩ := map_eq_ok_iff.mp h
  exact le_max?_getD (mem_maxYears he hn hyears) 0

theorem leastMaxYear_le (h : table.leastMaxYear = .ok least) : least ≤ n := by
  obtain ⟨years, hyears, rfl⟩ := map_eq_ok_iff.mp h
  exact min?_getD_le (mem_maxYears he hn hyears) 0

end

/-! ## The last year of one era -/

namespace IsOrdered

variable (h : table.IsOrdered) {e : Era}
include h

theorem eq_openEra (he : e ∈ table.eras) (hopen : e.isOpen = true) : e = table.openEra := by
  obtain ⟨i, hi, -⟩ := h.exists_getElem? he
  have hend := (h.isOpen_iff i e hi).mp hopen
  have hlast : table.eras[i]? = some table.openEra := by
    unfold openEra
    rw [← List.getLast?_eq_some_getLast, List.getLast?_eq_getElem?]
    congr 1
    omega
  exact Option.some.inj (hi.symm.trans hlast)

theorem firstDay_le_ceilingDay (he : e ∈ table.eras) (hstart : e.since ≠ none) :
    e.firstDay ≤ table.ceilingDay := by
  obtain ⟨t, ht⟩ := Option.ne_none_iff_exists'.mp hstart
  rw [Era.firstDay_of_since ht]
  exact dayOfInstant_le (h.startsWithin e he t ht).2.1.2

/-- The days of an era that are not past the ceiling end on a day of its last year. -/
theorem exists_last (he : e ∈ table.eras) :
    ∃ last, table.maxYear e = .ok (e.eraYear (Gregorian.ofDayNumber last).year) ∧
      ∀ j, (j ≤ table.ceilingDay ∧ ∀ l, table.lastDay e = .ok (some l) → j ≤ l) ↔ j ≤ last := by
  unfold maxYear
  rcases h.lastDay_eq he with ⟨hopen, hlast⟩ |
    ⟨hclosed, next, hnext, -, hstart, hlast⟩
  · refine ⟨table.ceilingDay, ?_, ?_⟩
    · rw [if_pos hopen, h.eq_openEra he hopen]
      rfl
    · intro j
      simp [hlast]
  · have hceiling := h.firstDay_le_ceilingDay hnext hstart
    refine ⟨next.firstDay - 1, ?_, ?_⟩
    · simp only [hclosed, hlast, Bool.false_eq_true, if_false]
    · intro j
      simp only [hlast, Except.ok.injEq, Option.some.injEq, forall_eq']
      omega

theorem exists_maxYear (he : e ∈ table.eras) : ∃ n, table.maxYear e = .ok n := by
  obtain ⟨last, hmax, -⟩ := h.exists_last he
  exact ⟨_, hmax⟩

theorem exists_maxYears : ∃ years, table.maxYears = .ok years := by
  have hyears : ∀ e ∈ table.eras, ∃ n, table.maxYear e = .ok n ∧ True := by
    intro e he
    obtain ⟨n, hn⟩ := h.exists_maxYear he
    exact ⟨n, hn, trivial⟩
  obtain ⟨years, hmax, -⟩ := exists_mapM_eq_ok hyears
  exact ⟨years, hmax⟩

theorem isOpen_openEra : table.openEra.isOpen = true := by
  have hlast : table.eras[table.eras.length - 1]? = some table.openEra := by
    rw [← List.getLast?_eq_getElem?, List.getLast?_eq_some_getLast table.eras_ne_nil]
    rfl
  have hlength := List.length_pos_iff.mpr table.eras_ne_nil
  exact (h.isOpen_iff _ _ hlast).mpr (by omega)

end IsOrdered

/-! ## The last year as a threshold -/

/-- The years of an era up to the one of a day are those whose New Year has come by that day. -/
theorem le_eraYear_iff (e : Era) (n j : Int) :
    n ≤ e.eraYear (Gregorian.ofDayNumber j).year ↔
      Gregorian.dayNumber (e.absoluteYear n) 1 1 ≤ j := by
  have hyear := Gregorian.year_ofDayNumber_lt_iff j (e.absoluteYear n)
  unfold Era.absoluteYear at hyear ⊢
  unfold Era.eraYear
  omega

theorem maxYear_of_nextStart {e : Era} {start : Int} (hclosed : e.isOpen = false)
    (hstart : table.nextStart e = .ok (some start)) :
    table.maxYear e = .ok (e.eraYear (yearOfInstant (start - 1))) := by
  unfold maxYear lastDay lastInstant
  rw [hstart, hclosed]
  rfl

theorem maxYear_of_isOpen {e : Era} (hopen : e.isOpen = true) :
    table.maxYear e = .ok table.openMaxYear := if_pos hopen

/-- The cell for the last year of the open era after some questions. -/
def keptAfter (table : EraTable) : Nat → Once Int
  | 0 => {}
  | asked + 1 => (table.askOpenMaxYear (table.keptAfter asked)).2

/-- The first question is answered by a computation, and all later ones by what was kept. -/
theorem keptAfter_succ (table : EraTable) (asked : Nat) :
    table.keptAfter (asked + 1) = ⟨some table.openMaxYear, 1⟩ := by
  induction asked with
  | zero => rfl
  | succ asked ih =>
      rw [keptAfter, askOpenMaxYear, Once.get_of_value_eq_some (by rw [ih])]
      exact ih

theorem askOpenMaxYear_keptAfter (table : EraTable) (asked : Nat) :
    (table.askOpenMaxYear (table.keptAfter asked)).1 = .ok table.openMaxYear := by
  cases asked with
  | zero => rfl
  | succ asked => rw [askOpenMaxYear, Once.get_of_value_eq_some (by rw [keptAfter_succ])]

/-- A year of an era that ends is not past its last year exactly when the year begins before the
next era. A year of the open era is not past its last year exactly when it begins by the ceiling.
This holds of all integers, also of years before the era. However often the last year of the open
era is asked for, it is the same, and it is computed at most once. -/
theorem le_maxYear_iff {bound : Bound} {defs : List EraDef}
    (htable : ofDefs? bound defs = .ok table) :
    (∀ e ∈ table.eras, e.isOpen = false →
      ∃ last start, table.maxYear e = .ok last ∧ table.nextStart e = .ok (some start) ∧
        ∀ n, n ≤ last ↔ midnight (Gregorian.dayNumber (e.absoluteYear n) 1 1) < start) ∧
    table.openEra ∈ table.eras ∧ table.openEra.isOpen = true ∧
      table.maxYear table.openEra = .ok table.openMaxYear ∧
      (∀ n, n ≤ table.openMaxYear ↔
        midnight (Gregorian.dayNumber (table.openEra.absoluteYear n) 1 1) ≤ bound.ceiling) ∧
      ∀ asked, (table.askOpenMaxYear (table.keptAfter asked)).1 = .ok table.openMaxYear ∧
        (table.keptAfter asked).computations ≤ 1 := by
  obtain ⟨h, rfl⟩ := isOrdered_of_ofDefs? htable
  refine ⟨?_, List.getLast_mem _, h.isOpen_openEra, maxYear_of_isOpen h.isOpen_openEra, ?_, ?_⟩
  · intro e he hclosed
    rcases h.nextStart_eq he with ⟨hopen, -⟩ | ⟨-, next, -, -, start, -, hstart⟩
    · rw [hclosed] at hopen
      cases hopen
    · refine ⟨_, start, maxYear_of_nextStart hclosed hstart, hstart, ?_⟩
      intro n
      -- The era ends with the instant before the next start, whatever its time of day.
      calc n ≤ e.eraYear (yearOfInstant (start - 1))
          ↔ Gregorian.dayNumber (e.absoluteYear n) 1 1 ≤ dayOfInstant (start - 1) :=
            le_eraYear_iff e n _
        _ ↔ midnight (Gregorian.dayNumber (e.absoluteYear n) 1 1) ≤ start - 1 :=
            (midnight_le_iff _ _).symm
        _ ↔ midnight (Gregorian.dayNumber (e.absoluteYear n) 1 1) < start := by omega
  · intro n
    exact (le_eraYear_iff table.openEra n _).trans (midnight_le_iff _ _).symm
  · intro asked
    refine ⟨table.askOpenMaxYear_keptAfter asked, ?_⟩
    cases asked with
    | zero => exact Nat.zero_le 1
    | succ asked => exact Nat.le_of_eq (congrArg Once.computations (table.keptAfter_succ asked))

/-- Year 64 of Showa begins a week before Heisei. -/
theorem le_maxYear_showa :
    ∃ table showa, ofDefs? Bound.standard Spec.japanese.eras = .ok table ∧
      table.eras[3]? = some showa ∧ table.maxYear showa = .ok 64 ∧
      midnight (Gregorian.dayNumber (showa.absoluteYear 64) 1 1) < 600220800000 ∧
      ¬ midnight (Gregorian.dayNumber (showa.absoluteYear 65) 1 1) < 600220800000 := by
  refine ⟨_, _, rfl, rfl, rfl, ?_⟩
  obtain ⟨last, start, hlast, hstart, hyears⟩ :=
    (@le_maxYear_iff _ Bound.standard Spec.japanese.eras rfl).1 _
      (@List.mem_of_getElem? _ _ 3 _ rfl) rfl
  cases hlast
  cases hstart
  exact ⟨(hyears 64).mp (by decide), mt (hyears 65).mpr (by decide)⟩

end EraTable

end EraChronology
