import EraChronology.Proofs.Calendar.NextDay
import EraChronology.Proofs.Calendar.Period
import Mathlib.Data.Int.Init

set_option autoImplicit false

/-! # The years of an era tile its days

The representable days of an era follow each other without a gap, and from one of them to the next
the year stays or goes up by one (`year_step`). So the spans of the years cut these days into
consecutive pieces (`years_tile`): every day is in the span of one year, the years that have days
are consecutive, and each of them begins on the day after the year before it ends.

What is used of years is only the step from one day to the next, so the tiling is stated for any
number that counts days this way (`tiles_of_steps`).
-/

namespace EraChronology

/-! ## Parts that follow each other -/

/-- The parts cut `days` into pieces without a gap and without an overlap. Parts that have no days
come before all others or after them. -/
structure Tiles (part : Int → Span) (days : Set Int) : Prop where
  mem_iff : ∀ j, j ∈ days ↔ ∃ n, j ∈ (part n).days
  eq_of_mem : ∀ j n k, j ∈ (part n).days → j ∈ (part k).days → n = k
  nonempty_between : ∀ n i k, n ≤ i → i ≤ k → (part n).days.Nonempty → (part k).days.Nonempty →
    (part i).days.Nonempty
  first_eq : ∀ n, (part n).days.Nonempty → (part (n + 1)).days.Nonempty →
    (part (n + 1)).first = (part n).last + 1

theorem Span.first_mem_days {s : Span} (hs : s.days.Nonempty) : s.first ∈ s.days := by
  obtain ⟨j, hlo, hhi⟩ := hs
  exact ⟨Int.le_refl _, Int.le_trans hlo hhi⟩

theorem Span.last_mem_days {s : Span} (hs : s.days.Nonempty) : s.last ∈ s.days := by
  obtain ⟨j, hlo, hhi⟩ := hs
  exact ⟨Int.le_trans hlo hhi, Int.le_refl _⟩

theorem Span.last_lt_first_iff (s : Span) : s.last < s.first ↔ ∀ j, j ∉ s.days := by
  constructor
  · rintro hlt j ⟨hlo, hhi⟩
    omega
  · intro hnone
    by_contra hle
    exact hnone s.first ⟨Int.le_refl _, Int.not_lt.mp hle⟩

section

variable {first last i j k : Int} {index : Int → Int}
  (hstep : ∀ j, first ≤ j → j < last → index (j + 1) = index j ∨ index (j + 1) = index j + 1)
include hstep

/-- A number that only stays or goes up by one from day to day does not fall over many days. -/
theorem index_le_of_steps (hj : first ≤ j) (hjk : j ≤ k) (hk : k ≤ last) :
    index j ≤ index k := by
  induction k, hjk using Int.leInduction with
  | base => exact Int.le_refl _
  | succ k hjk ih =>
      have hle := ih (by omega)
      rcases hstep k (by omega) (by omega) with heq | heq
      · omega
      · omega

/-- It leaves out no number on its way. -/
theorem exists_index_eq_of_steps (hj : first ≤ j) (hjk : j ≤ k) (hk : k ≤ last)
    (hlo : index j ≤ i) (hhi : i ≤ index k) : ∃ l, first ≤ l ∧ l ≤ last ∧ index l = i := by
  induction k, hjk using Int.leInduction with
  | base => exact ⟨j, hj, hk, by omega⟩
  | succ k hjk ih =>
      by_cases hbefore : i ≤ index k
      · exact ih (by omega) hbefore
      · -- The number is passed in this very step.
        have hs := hstep k (by omega) (by omega)
        exact ⟨k + 1, by omega, hk, by omega⟩

/-- The days with the same number are consecutive, and so are those with consecutive numbers. -/
theorem tiles_of_steps {part : Int → Span}
    (hpart : ∀ n j, j ∈ (part n).days ↔ (first ≤ j ∧ j ≤ last) ∧ index j = n) :
    Tiles part {j | first ≤ j ∧ j ≤ last} := by
  refine
    { mem_iff := ?mem, eq_of_mem := ?unique, nonempty_between := ?between, first_eq := ?meets }
  case mem =>
    intro j
    constructor
    · intro hj
      exact ⟨index j, (hpart _ j).mpr ⟨hj, rfl⟩⟩
    · rintro ⟨n, hj⟩
      exact ((hpart n j).mp hj).1
  case unique =>
    intro j n k hn hk
    rw [← ((hpart n j).mp hn).2, ← ((hpart k j).mp hk).2]
  case between =>
    rintro n i k hni hik ⟨a, ha⟩ ⟨b, hb⟩
    obtain ⟨⟨halo, hahi⟩, rfl⟩ := (hpart n a).mp ha
    obtain ⟨⟨hblo, hbhi⟩, rfl⟩ := (hpart k b).mp hb
    rcases Int.le_total a b with hab | hba
    · obtain ⟨l, hlo, hhi, hl⟩ := exists_index_eq_of_steps hstep halo hab hbhi hni hik
      exact ⟨l, (hpart i l).mpr ⟨⟨hlo, hhi⟩, hl⟩⟩
    · have hle := index_le_of_steps hstep hblo hba hahi
      exact ⟨a, (hpart i a).mpr ⟨⟨halo, hahi⟩, by omega⟩⟩
  case meets =>
    intro n hn hnext
    have hend := Span.last_mem_days hn
    have hbegin := Span.first_mem_days hnext
    obtain ⟨⟨helo, hehi⟩, he⟩ := (hpart n _).mp hend
    obtain ⟨⟨hblo, hbhi⟩, hb⟩ := (hpart (n + 1) _).mp hbegin
    have hlt : (part n).last < (part (n + 1)).first := by
      by_contra hle
      have := index_le_of_steps hstep hblo (Int.not_lt.mp hle) hehi
      omega
    -- The day after the last of part `n` has the next number, since it has not the same.
    have hafter : (part n).last + 1 ∈ (part (n + 1)).days := by
      refine (hpart _ _).mpr ⟨⟨by omega, by omega⟩, ?_⟩
      rcases hstep _ helo (by omega) with hsame | hup
      · have hmem := (hpart n ((part n).last + 1)).mpr ⟨⟨by omega, by omega⟩, by omega⟩
        have hover : (part n).last + 1 ≤ (part n).last := hmem.2
        omega
      · omega
    exact Int.le_antisymm hafter.1 (by omega)

end

namespace Calendar

variable {c : Calendar} {e : Era} {j : Int}

/-! ## Years -/

theorem year_step (hj : (c.dateOfDay j 0).era = e) (hnext : (c.dateOfDay (j + 1) 0).era = e) :
    (c.dateOfDay (j + 1) 0).year = (c.dateOfDay j 0).year ∨
      (c.dateOfDay (j + 1) 0).year = (c.dateOfDay j 0).year + 1 := by
  have hera : c.table.eraOfDay (j + 1) = c.table.eraOfDay j := hnext.trans hj.symm
  have hyear := year_add_one hera
  rw [Gregorian.ofDayNumber_add_one] at hyear
  rcases Gregorian.Date.next_year (Gregorian.ofDayNumber j) with hsame | hnew
  · omega
  · rw [hnew] at hyear
    simp only at hyear
    omega

/-- The span of a year of an era has the representable days that are dated in this year, the span of
a month those that are dated in this month; where there are none it ends before it begins. The
spans of the years tile the representable days of the era. -/
theorem years_tile {spec : Spec} (hc : ofSpec? spec = .ok c) (he : e ∈ c.table.eras) :
    ∃ (year : Int → Span) (month : Int → Int → Span),
      (∀ n, c.yearSpan e n = .ok (year n) ∧
        (∀ j, (year n).first ≤ j ∧ j ≤ (year n).last ↔ c.InYear j e n) ∧
        ((year n).last < (year n).first ↔ ∀ j, ¬ c.InYear j e n)) ∧
      (∀ n m, 1 ≤ m ∧ m ≤ 12 → c.monthSpan e n m = .ok (month n m) ∧
        (∀ j, (month n m).first ≤ j ∧ j ≤ (month n m).last ↔ c.InMonth j e n m) ∧
        ((month n m).last < (month n m).first ↔ ∀ j, ¬ c.InMonth j e n m)) ∧
      Tiles year {j | c.table.RepresentsDay j ∧ (c.dateOfDay j 0).era = e} := by
  have h := isOrdered_of_ofSpec? hc
  obtain ⟨eraLast, hlast⟩ := h.exists_lastDay he
  obtain ⟨first, last, -, hdays⟩ := exists_daysOfEra h he
  refine ⟨fun n => c.cut e eraLast (Gregorian.dayNumber (e.absoluteYear n) 1 1)
      (Gregorian.dayNumber (e.absoluteYear n) 12 31),
    fun n m => c.cut e eraLast (Gregorian.dayNumber (e.absoluteYear n) m 1)
      (Gregorian.dayNumber (e.absoluteYear n) m 1 +
        Gregorian.monthLength (e.absoluteYear n) m - 1), ?_, ?_, ?_⟩
  · intro n
    refine ⟨yearSpan_eq hlast n, fun j => mem_days_year_iff h he hlast, ?_⟩
    rw [Span.last_lt_first_iff]
    exact forall_congr' fun j => not_congr (mem_days_year_iff h he hlast)
  · intro n m hm
    refine ⟨monthSpan_eq hlast hm, fun j => mem_days_month_iff h he hlast hm, ?_⟩
    rw [Span.last_lt_first_iff]
    exact forall_congr' fun j => not_congr (mem_days_month_iff h he hlast hm)
  · rw [← Set.ext hdays]
    -- The days of the era are consecutive and their years go up by steps of one.
    have hstep : ∀ j, first ≤ j → j < last →
        (c.dateOfDay (j + 1) 0).year = (c.dateOfDay j 0).year ∨
          (c.dateOfDay (j + 1) 0).year = (c.dateOfDay j 0).year + 1 := by
      intro j hlo hhi
      exact year_step ((hdays j).mp ⟨hlo, by omega⟩).2 ((hdays (j + 1)).mp ⟨by omega, hhi⟩).2
    refine @tiles_of_steps first last (fun j => (c.dateOfDay j 0).year) hstep _ ?_
    intro n j
    rw [mem_days_year_iff h he hlast, hdays, and_assoc]
    rfl

/-- Year 64 of Showa begins after year 63, has seven days and is the last that has any. -/
theorem years_tile_showa :
    ∃ c showa s t u, ofSpec? Spec.japanese = .ok c ∧ c.table.eras[3]? = some showa ∧
      c.yearSpan showa 63 = .ok s ∧ c.yearSpan showa 64 = .ok t ∧ c.yearSpan showa 65 = .ok u ∧
      t.first = s.last + 1 ∧ t.length = 7 ∧ u.last < u.first := by
  refine ⟨_, _, _, _, _, rfl, rfl, rfl, rfl, rfl, ?_, by decide, by decide⟩
  obtain ⟨year, -, hyear, -, htiles⟩ :=
    @years_tile _ _ Spec.japanese rfl (@List.mem_of_getElem? _ _ 3 _ rfl)
  have h63 := Except.ok.inj (hyear 63).1
  have h64 := Except.ok.inj (hyear 64).1
  have hmeets := htiles.first_eq 63
  rw [show (63 : Int) + 1 = 64 from rfl, ← h63, ← h64] at hmeets
  exact hmeets ⟨2447527, by decide, by decide⟩ ⟨2447534, by decide, by decide⟩

end Calendar

end EraChronology
