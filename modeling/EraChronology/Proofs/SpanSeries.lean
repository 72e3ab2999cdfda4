import EraChronology.Proofs.Calendar.DateOrder
import EraChronology.Proofs.Calendar.Limits
import EraChronology.Proofs.Calendar.Resolving
import EraChronology.Report.SpanSeries

set_option autoImplicit false

/-! # What a series of maxima samples

A series of maxima looks at two days of each year, the first and the last. Every date of an era in a
year has the same greatest value of a field that is counted through the year, so the sample that is
taken on one of the two days is that of the era in the year (`ofDate_eq`). Year by year
(`ofYear_eq`) the series therefore has one sample for each era that has the first or the last day
(`collect_ofYear`), in the order of time (`pairwise_erasOfYears`).

An era that begins after the first day of a year and ends before the last is not in the series
(`EraInYear.not_hasEndOf_iff`). Other than that a series can only fail by a year that is too large
for a chart (`MaximumChart.ofYears_samples`). The maxima themselves are numbers of few bits, which
any conversion to numbers of a chart keeps as they are.
-/

namespace EraChronology

structure EraInYear where
  year : Int
  era : Era

namespace EraInYear

/-- The order in time. -/
def Before (p q : EraInYear) : Prop :=
  p.year < q.year ∨ p.year = q.year ∧ p.era.index < q.era.index

def HasDayOf (c : Calendar) (p : EraInYear) : Prop :=
  ∃ j, (Gregorian.ofDayNumber j).year = p.year ∧ c.table.eraOfDay j = p.era

def HasEndOf (c : Calendar) (p : EraInYear) : Prop :=
  c.table.eraOfDay (Gregorian.dayNumber p.year 1 1) = p.era ∨
    c.table.eraOfDay (Gregorian.dayNumber p.year 12 31) = p.era

end EraInYear

/-- A field that is counted through the year. -/
def Field.IsYearly (f : Field) : Prop := f = .month ∨ f = .dayOfYear ∨ f = .weekOfYear

/-- All days of the years from `start` to `stop` have a date. -/
def Calendar.CoversYears (c : Calendar) (start stop : Int) : Prop :=
  ∀ j, start ≤ (Gregorian.ofDayNumber j).year → (Gregorian.ofDayNumber j).year ≤ stop →
    ∃ x, c.resolve (midnight j) 0 = .ok x

/-- A sample of a field for an era in a year. All dates of the era in the year have its maxima,
which are no larger than a year is long. -/
structure MaximumSample.IsTakenFor (s : MaximumSample) (c : Calendar) (f : Field)
    (p : EraInYear) : Prop where
  year_eq : s.year = p.year
  atYearEnd_iff :
    s.atYearEnd = true ↔ c.table.eraOfDay (Gregorian.dayNumber p.year 1 1) ≠ p.era
  actual_mem : 1 ≤ s.actual ∧ s.actual ≤ 366
  generic_mem : 1 ≤ s.generic ∧ s.generic ≤ 366
  maxima : ∀ x, c.IsDate x → x.era = p.era → x.absoluteYear = p.year →
    ∃ range, c.fieldRange x f = .ok range ∧ s.actual = range.actualMaximum ∧
      s.generic = range.maximum

def MaximumChart.ofSamples (samples : List MaximumSample) : MaximumChart :=
  ⟨samples.map (·.place), samples.map (·.actual), samples.map (·.generic)⟩

variable {c : Calendar} {f : Field} {x : EraDate} {y start stop j : Int}

/-! ## The days of a year -/

theorem Calendar.CoversYears.resolve_midnight (hcovers : c.CoversYears start stop)
    (hj : start ≤ (Gregorian.ofDayNumber j).year ∧ (Gregorian.ofDayNumber j).year ≤ stop) :
    c.resolve (midnight j) 0 = .ok (c.dateOfDay j 0) ∧ c.table.RepresentsDay j := by
  obtain ⟨x, hx⟩ := hcovers j hj.1 hj.2
  obtain ⟨hday, hdate⟩ := Calendar.dateOfDay_of_resolve_midnight hx
  exact ⟨hx.trans (congrArg Except.ok hdate.symm), hday⟩

/-- Years are covered if their first and their last day are representable. -/
theorem Calendar.coversYears_of_represents
    (hfirst : c.table.Represents (midnight (Gregorian.dayNumber start 1 1)))
    (hlast : c.table.Represents (midnight (Gregorian.dayNumber stop 12 31))) :
    c.CoversYears start stop := by
  intro j hstart hstop
  obtain ⟨hbegun, hover⟩ := (Gregorian.year_ofDayNumber_eq_iff j _).mp rfl
  exact Calendar.exists_resolve_midnight hfirst hlast
    (Int.le_trans (Gregorian.newYear_le hstart) hbegun)
    (Int.le_trans hover (Gregorian.newYearsEve_le hstop))

/-! ## Bounds -/

/-- The maxima of a field that is counted through the year are small. -/
theorem Calendar.maxima_mem {r : Extent} (h : c.table.IsOrdered) (hf : f.IsYearly)
    (hx : c.IsDate x) (hr : c.extent f x.era x.year x.month = .ok r) :
    (1 ≤ r.actualMaximum ∧ r.actualMaximum ≤ 366) ∧ 1 ≤ r.maximum ∧ r.maximum ≤ 366 := by
  have he := hx.era_mem h
  obtain ⟨s, hs, -, hmem⟩ := exists_yearSpan h he x.year
  obtain ⟨hbegun, hover⟩ := (hmem _).mpr (hx.inMonth h).inYear
  obtain ⟨hfirst, hlast⟩ := natural_yearSpan h he hs
  have hwithin := within_yearSpan h he hs
  have hnext := Gregorian.newYear_add_one (x.era.absoluteYear x.year)
  have heve := Gregorian.newYearsEve_eq (x.era.absoluteYear x.year)
  have hlength := Gregorian.yearLength_mem (x.era.absoluteYear x.year)
  rcases hf with rfl | rfl | rfl
  · simp only [extent, hs] at hr
    cases hr
    have hmonth := (Gregorian.isValid_ofDayNumber s.last).1
    simp only
    omega
  · simp only [extent, hs] at hr
    cases hr
    simp only
    omega
  · simp only [extent, hs] at hr
    cases hr
    have hnatural : s.natural.last ≤ s.natural.anchor + 365 := by
      show s.naturalLast ≤ s.naturalFirst + 365
      omega
    have hweeks := c.weeks.maxWeekOfYear_mem (show s.last ≤ s.anchor + 365 by omega)
    have hweeks' := c.weeks.maxWeekOfYear_mem hnatural
    simp only
    omega

theorem Calendar.clamped_of_covers {r : Extent} (h : c.table.IsOrdered) (hf : f.IsYearly)
    (hx : c.IsDate x) (hcovers : c.CoversYears start stop)
    (hyear : start ≤ x.absoluteYear ∧ x.absoluteYear ≤ stop)
    (hr : c.extent f x.era x.year x.month = .ok r) : r.clamped = false := by
  have he := hx.era_mem h
  obtain ⟨last, hlast⟩ := h.exists_lastDay he
  have hs := yearSpan_eq hlast x.year
  have hnew : c.table.RepresentsDay (Gregorian.dayNumber x.absoluteYear 1 1) :=
    (hcovers.resolve_midnight (by rwa [Gregorian.year_newYear])).2
  have hold : c.table.RepresentsDay (Gregorian.dayNumber x.absoluteYear 12 31) :=
    (hcovers.resolve_midnight (by rwa [Gregorian.year_newYearsEve])).2
  rcases hf with rfl | rfl | rfl
  all_goals
    simp only [extent, hs] at hr
    cases hr
    exact not_clamped_cut hnew.1 hold.2

/-- All dates of an era in a year have the same range of a field that is counted through it. -/
theorem Calendar.fieldRange_of_covers {r : Extent} {x' : EraDate} (h : c.table.IsOrdered)
    (hf : f.IsYearly) (hx : c.IsDate x) (hr : c.extent f x.era x.year x.month = .ok r)
    (hcovers : c.CoversYears start stop)
    (hyear : start ≤ x.absoluteYear ∧ x.absoluteYear ≤ stop) (hx' : c.IsDate x')
    (hera : x'.era = x.era) (hsame : x'.absoluteYear = x.absoluteYear) :
    ∃ range, c.fieldRange x' f = .ok range ∧ r.actualMaximum = range.actualMaximum ∧
      r.maximum = range.maximum := by
  have hyears : x'.year = x.year := by
    unfold EraDate.absoluteYear Era.absoluteYear at hsame
    rw [hera] at hsame
    omega
  -- The month of the date does not matter.
  have hr' : c.extent f x'.era x'.year x'.month = .ok r := by
    rw [hera, hyears, ← hr]
    rcases hf with rfl | rfl | rfl <;> rfl
  obtain ⟨r', l, hextent, -, hrange⟩ := fieldRange_eq h hx' f
  cases hr'.symm.trans hextent
  rw [if_neg (by simp [clamped_of_covers h hf hx hcovers hyear hr])] at hrange
  exact ⟨_, hrange, rfl, rfl⟩

/-! ## One sample -/

namespace MaximumSample

/-- The sample on a day is that of the era and the year of the day. -/
theorem ofDate_eq (h : c.table.IsOrdered) (hf : f.IsYearly) (hcovers : c.CoversYears start stop)
    (hy : start ≤ y ∧ y ≤ stop) (hj : (Gregorian.ofDayNumber j).year = y) (atYearEnd : Bool)
    (hend : atYearEnd = true ↔
      c.table.eraOfDay (Gregorian.dayNumber y 1 1) ≠ c.table.eraOfDay j) :
    ∃ s : MaximumSample, s.IsTakenFor c f ⟨y, c.table.eraOfDay j⟩ ∧
      ofDate c f.name y atYearEnd (c.dateOfDay j 0) = (toBinary64 y).map fun _ => s := by
  subst hj
  have hx := Calendar.isDate_dateOfDay h (hcovers.resolve_midnight hy).2
    (show IsTimeOfDay 0 by decide)
  have hyear := Calendar.absoluteYear_dateOfDay c j 0
  rw [← hyear] at hy
  obtain ⟨r, hr⟩ := Calendar.exists_extent_eq_ok h (hx.era_mem h) (hx.month_mem h) f
    (c.dateOfDay j 0).year
  obtain ⟨hactual, hgeneric⟩ := Calendar.maxima_mem h hf hx hr
  refine ⟨⟨_, atYearEnd, r.actualMaximum, r.maximum⟩, ⟨rfl, hend, hactual, hgeneric, ?_⟩, ?_⟩
  · intro x' hx' hera hsame
    exact Calendar.fieldRange_of_covers h hf hx hr hcovers hy hx' hera (hsame.trans hyear.symm)
  · obtain ⟨range, hrange, hmax, hmax'⟩ :=
      Calendar.fieldRange_of_covers h hf hx hr hcovers hy hx rfl rfl
    rw [hmax, hmax']
    unfold ofDate Calendar.fieldRangeNamed Field.named
    rw [Field.ofName?_name]
    simp only [hrange, bind, Except.bind]
    cases toBinary64 (Gregorian.ofDayNumber j).year <;> rfl

/-! ## One year -/

/-- The eras that a year is sampled for: that of the first day, and that of the last. -/
def sampledEras (c : Calendar) (y : Int) : List EraInYear :=
  let first := c.table.eraOfDay (Gregorian.dayNumber y 1 1)
  let last := c.table.eraOfDay (Gregorian.dayNumber y 12 31)
  if last.index = first.index then [⟨y, first⟩] else [⟨y, first⟩, ⟨y, last⟩]

theorem mem_sampledEras_iff (h : c.table.IsOrdered) {p : EraInYear} :
    p ∈ sampledEras c y ↔ p.year = y ∧ p.HasEndOf c := by
  obtain ⟨year, e⟩ := p
  unfold sampledEras EraInYear.HasEndOf
  by_cases hsame : (c.table.eraOfDay (Gregorian.dayNumber y 12 31)).index =
      (c.table.eraOfDay (Gregorian.dayNumber y 1 1)).index
  · have hera := h.eq_of_index_eq (c.table.eraOfDay_mem _) (c.table.eraOfDay_mem _) hsame
    simp only [if_pos hsame, List.mem_singleton, EraInYear.mk.injEq]
    constructor
    · rintro ⟨rfl, rfl⟩
      exact ⟨rfl, Or.inl rfl⟩
    · rintro ⟨rfl, hfirst | hlast⟩
      · exact ⟨rfl, hfirst.symm⟩
      · exact ⟨rfl, hlast.symm.trans hera⟩
  · simp only [if_neg hsame, List.mem_cons, List.not_mem_nil, or_false, EraInYear.mk.injEq]
    constructor
    · rintro (⟨rfl, rfl⟩ | ⟨rfl, rfl⟩)
      · exact ⟨rfl, Or.inl rfl⟩
      · exact ⟨rfl, Or.inr rfl⟩
    · rintro ⟨rfl, hfirst | hlast⟩
      · exact Or.inl ⟨rfl, hfirst.symm⟩
      · exact Or.inr ⟨rfl, hlast.symm⟩

theorem pairwise_sampledEras (h : c.table.IsOrdered)
    (hfirst : c.table.first.firstDay ≤ Gregorian.dayNumber y 1 1) :
    (sampledEras c y).Pairwise EraInYear.Before := by
  have hle := h.index_eraOfDay_le hfirst (Gregorian.newYear_le_newYearsEve y)
  unfold sampledEras
  by_cases hsame : (c.table.eraOfDay (Gregorian.dayNumber y 12 31)).index =
      (c.table.eraOfDay (Gregorian.dayNumber y 1 1)).index
  · simp only [if_pos hsame, List.pairwise_singleton]
  · simp only [if_neg hsame, List.pairwise_pair]
    exact Or.inr ⟨rfl, lt_of_le_of_ne hle (Ne.symm hsame)⟩

/-- A year yields one sample for each of its sampled eras, unless it is too large for a chart. -/
theorem ofYear_eq (h : c.table.IsOrdered) (hf : f.IsYearly) (hcovers : c.CoversYears start stop)
    (hy : start ≤ y ∧ y ≤ stop) :
    ∃ samples, List.Forall₂ (fun p s => s.IsTakenFor c f p) (sampledEras c y) samples ∧
      ofYear c f.name y = (toBinary64 y).map fun _ => samples := by
  have hnew := (hcovers.resolve_midnight (j := Gregorian.dayNumber y 1 1)
    (by rwa [Gregorian.year_newYear])).1
  have hold := (hcovers.resolve_midnight (j := Gregorian.dayNumber y 12 31)
    (by rwa [Gregorian.year_newYearsEve])).1
  obtain ⟨first, hfirst, hyield⟩ :=
    ofDate_eq h hf hcovers hy (Gregorian.year_newYear y) false (by simp)
  unfold ofYear sampledEras
  simp only [hnew, hold, hyield, bind, Except.bind]
  -- One era has both ends of the year, or there is a second sample for the era of its last day.
  by_cases hsame : (c.table.eraOfDay (Gregorian.dayNumber y 12 31)).index =
      (c.table.eraOfDay (Gregorian.dayNumber y 1 1)).index
  · refine ⟨[first], ?_, ?_⟩
    · rw [if_pos hsame]
      exact .cons hfirst .nil
    · cases toBinary64 y with
      | error e => rfl
      | ok _ => exact if_pos hsame
  · have hne : c.table.eraOfDay (Gregorian.dayNumber y 1 1) ≠
        c.table.eraOfDay (Gregorian.dayNumber y 12 31) :=
      fun heq => hsame (congrArg Era.index heq.symm)
    obtain ⟨last, hlast, hyield'⟩ :=
      ofDate_eq h hf hcovers hy (Gregorian.year_newYearsEve y) true (by simpa using hne)
    refine ⟨[first, last], ?_, ?_⟩
    · rw [if_neg hsame]
      exact .cons hfirst (.cons hlast .nil)
    · simp only [hyield']
      cases toBinary64 y with
      | error e => rfl
      | ok _ => exact if_neg hsame

/-! ## All years -/

/-- The eras that `count` years from `y` on are sampled for. -/
def erasOfYears (c : Calendar) : Nat → Int → List EraInYear
  | 0, _ => []
  | count + 1, y => sampledEras c y ++ erasOfYears c count (y + 1)

theorem mem_erasOfYears_iff (h : c.table.IsOrdered) {p : EraInYear} (count : Nat) :
    p ∈ erasOfYears c count y ↔ (y ≤ p.year ∧ p.year < y + count) ∧ p.HasEndOf c := by
  induction count generalizing y with
  | zero =>
      simp only [erasOfYears, List.not_mem_nil, false_iff, not_and]
      omega
  | succ count ih =>
      rw [erasOfYears, List.mem_append, mem_sampledEras_iff h, ih, ← or_and_right]
      refine and_congr_left fun _ => ?_
      omega

theorem pairwise_erasOfYears (h : c.table.IsOrdered) (count : Nat)
    (hfirst : ∀ n, y ≤ n → n < y + count →
      c.table.first.firstDay ≤ Gregorian.dayNumber n 1 1) :
    (erasOfYears c count y).Pairwise EraInYear.Before := by
  induction count generalizing y with
  | zero => exact .nil
  | succ count ih =>
      rw [erasOfYears, List.pairwise_append]
      refine ⟨pairwise_sampledEras h (hfirst y (by omega) (by omega)),
        ih fun n hle hlt => hfirst n (by omega) (by omega), ?_⟩
      intro p hp q hq
      have hyear := ((mem_sampledEras_iff h).mp hp).1
      have hlater := ((mem_erasOfYears_iff h count).mp hq).1.1
      exact Or.inl (by omega)

theorem collect_succ {α : Type} (yield : Int → Except Error (List α)) (count : Nat) (y : Int) :
    collect yield [] (count + 1) y =
      yield y >>= fun found => (collect yield [] count (y + 1)).map (found ++ ·) := by
  rw [collect]
  cases yield y with
  | error e => rfl
  | ok found =>
      simp only [List.append_nil]
      rw [collect_eq, List.reverse_reverse]
      rfl

/-- The years yield the samples of their eras one after the other, up to a year that is too large
for a chart. -/
theorem collect_ofYear (h : c.table.IsOrdered) (hf : f.IsYearly)
    (hcovers : c.CoversYears start stop) (count : Nat)
    (hy : ∀ n, y ≤ n → n < y + count → start ≤ n ∧ n ≤ stop) :
    ∃ samples, List.Forall₂ (fun p s => s.IsTakenFor c f p) (erasOfYears c count y) samples ∧
      ((∀ n, y ≤ n → n < y + count → Binary64.isFinite n = true) →
        collect (ofYear c f.name) [] count y = .ok samples) ∧
      ∀ n, y ≤ n → n < y + count → Binary64.isFinite n = false →
        collect (ofYear c f.name) [] count y = .error .chartSize := by
  induction count generalizing y with
  | zero =>
      refine ⟨[], .nil, fun _ => rfl, ?_⟩
      intro n hle hlt
      omega
  | succ count ih =>
      obtain ⟨found, hfound, hyield⟩ := ofYear_eq h hf hcovers (hy y (by omega) (by omega))
      obtain ⟨later, hlater, hall, hlarge⟩ :=
        ih (y := y + 1) fun n hle hlt => hy n (by omega) (by omega)
      refine ⟨found ++ later, List.rel_append hfound hlater, ?_, ?_⟩
      · intro hfinite
        have hown : toBinary64 y = .ok (Binary64.nearest y) :=
          if_pos (hfinite y (by omega) (by omega))
        rw [collect_succ, hyield, hown,
          hall fun n hle hlt => hfinite n (by omega) (by omega)]
        rfl
      · -- This year is too large or a later one is; the series ends at the first that is.
        intro n hle hlt hn
        rw [collect_succ, hyield]
        cases hown : Binary64.isFinite y with
        | false =>
            rw [toBinary64, hown]
            rfl
        | true =>
            have hne : n ≠ y := fun heq => by simp [heq, hown] at hn
            rw [toBinary64, hown, hlarge n (by omega) (by omega) hn]
            rfl

end MaximumSample

/-! ## Eras within a year -/

/-- Of the eras that have a day of a year, those that have neither the first nor the last day are
those that begin after the first and end before the last. -/
theorem EraInYear.not_hasEndOf_iff {p : EraInYear} (h : c.table.IsOrdered)
    (hfirst : c.table.first.firstDay ≤ Gregorian.dayNumber p.year 1 1) (hp : p.HasDayOf c) :
    ¬ p.HasEndOf c ↔
      Gregorian.dayNumber p.year 1 1 < p.era.firstDay ∧
        ∃ last, c.table.lastDay p.era = .ok (some last) ∧
          last < Gregorian.dayNumber p.year 12 31 := by
  obtain ⟨j, hyear, hera⟩ := hp
  obtain ⟨hbegun, hover⟩ := (Gregorian.year_ofDayNumber_eq_iff _ _).mp hyear
  have he : p.era ∈ c.table.eras := hera ▸ c.table.eraOfDay_mem j
  have hday : c.table.HasDay p.era j := (h.eraOfDay_eq_iff he (by omega)).mp hera
  have hlast := Int.le_trans hfirst (Gregorian.newYear_le_newYearsEve p.year)
  unfold HasEndOf
  rw [h.eraOfDay_eq_iff he hfirst, h.eraOfDay_eq_iff he hlast, not_or, hday.iff_of_le hbegun,
    hday.not_iff_of_le hover, Int.not_le]

/-! ## The chart -/

section

variable {convert : Int → Except Error Int}
  (hconvert : ∀ n : Int, n.natAbs < Nat.pow 2 Binary64.precision → convert n = .ok n)
include hconvert

theorem mapM_convert {ns : List Int} (h : ∀ n ∈ ns, 1 ≤ n ∧ n ≤ 366) :
    ns.mapM convert = .ok ns := by
  have hlarge : 366 < Nat.pow 2 Binary64.precision := by decide
  have hkept : ∀ n ∈ ns, convert n = .ok (id n) := by
    intro n hn
    have hmem := h n hn
    exact hconvert n (by omega)
  rw [mapM_eq_ok_map hkept, List.map_id]

/-- The chart of a series shows the maxima as they are. -/
theorem MaximumChart.ofYears_eq {pairs : List EraInYear} {samples : List MaximumSample}
    (hsamples : List.Forall₂ (fun p s => s.IsTakenFor c f p) pairs samples)
    (hseries : MaximumSample.series c f.name start stop = .ok samples) :
    ofYears convert c f.name start stop = .ok (ofSamples samples) := by
  have hsmall : ∀ s ∈ samples,
      (1 ≤ s.actual ∧ s.actual ≤ 366) ∧ 1 ≤ s.generic ∧ s.generic ≤ 366 :=
    ((List.forall₂_and_left _ _).mp
      (hsamples.flip.imp fun _ _ hs => ⟨⟨hs.actual_mem, hs.generic_mem⟩, hs⟩)).1
  have hactuals : ∀ n ∈ samples.map (·.actual), 1 ≤ n ∧ n ≤ 366 := by
    simpa using fun s hs => (hsmall s hs).1
  have hgenerics : ∀ n ∈ samples.map (·.generic), 1 ≤ n ∧ n ≤ 366 := by
    simpa using fun s hs => (hsmall s hs).2
  unfold ofYears
  simp only [hseries, mapM_convert hconvert hactuals, mapM_convert hconvert hgenerics, bind,
    Except.bind]
  rfl

end

/-- A series of a field that is counted through the year, over years of which all days have a date.
Its samples are in the order of time, one for each era that has the first or the last day of a year,
with the maxima that all dates of the era in the year have. The chart shows them unless a year is
too large for it, whatever the conversion to numbers of the chart does with numbers of more than 53
bits. Among the eras that have a day of a year those are passed over that begin after
the first day and end before the last, and no others. -/
theorem MaximumChart.ofYears_samples {spec : Spec} (hc : Calendar.ofSpec? spec = .ok c)
    (hf : f.IsYearly) (hcovers : c.CoversYears start stop) {convert : Int → Except Error Int}
    (hconvert : ∀ n : Int, n.natAbs < Nat.pow 2 Binary64.precision → convert n = .ok n) :
    ∃ (pairs : List EraInYear) (samples : List MaximumSample),
      pairs.Pairwise EraInYear.Before ∧
      (∀ p, p ∈ pairs ↔ (start ≤ p.year ∧ p.year ≤ stop) ∧ p.HasEndOf c) ∧
      List.Forall₂ (fun p s => s.IsTakenFor c f p) pairs samples ∧
      ((∀ y, start ≤ y → y ≤ stop → Binary64.isFinite y = true) →
        ofYears convert c f.name start stop = .ok (ofSamples samples)) ∧
      (∀ y, start ≤ y → y ≤ stop → Binary64.isFinite y = false →
        ofYears convert c f.name start stop = .error .chartSize) ∧
      ∀ p : EraInYear, start ≤ p.year → p.year ≤ stop → p.HasDayOf c →
        (p ∉ pairs ↔ Gregorian.dayNumber p.year 1 1 < p.era.firstDay ∧
          ∃ last, c.table.lastDay p.era = .ok (some last) ∧
            last < Gregorian.dayNumber p.year 12 31) := by
  have h := Calendar.isOrdered_of_ofSpec? hc
  have hfirst : ∀ y, start ≤ y → y ≤ stop →
      c.table.first.firstDay ≤ Gregorian.dayNumber y 1 1 := by
    intro y hstart hstop
    have hday := (hcovers.resolve_midnight (j := Gregorian.dayNumber y 1 1)
      (by rw [Gregorian.year_newYear]; exact ⟨hstart, hstop⟩)).2
    exact Int.le_trans c.table.firstDay_first_le_floorDay hday.1
  have hmem : ∀ p, p ∈ MaximumSample.erasOfYears c (stop - start + 1).toNat start ↔
      (start ≤ p.year ∧ p.year ≤ stop) ∧ p.HasEndOf c := by
    intro p
    rw [MaximumSample.mem_erasOfYears_iff h]
    refine and_congr_left fun _ => ?_
    omega
  -- The years of the series, counted from the first one.
  have hyears : ∀ n, start ≤ n → n < start + (stop - start + 1).toNat → start ≤ n ∧ n ≤ stop := by
    intro n hn hn'
    omega
  obtain ⟨samples, hsamples, hfinite, hlarge⟩ := MaximumSample.collect_ofYear h hf hcovers _ hyears
  refine ⟨_, samples, MaximumSample.pairwise_erasOfYears h _ ?_, hmem, hsamples, ?_, ?_, ?_⟩
  · intro n hn hn'
    exact hfirst n (hyears n hn hn').1 (hyears n hn hn').2
  · intro hall
    refine ofYears_eq hconvert hsamples (hfinite ?_)
    intro n hn hn'
    exact hall n (hyears n hn hn').1 (hyears n hn hn').2
  · intro y hstart hstop hy
    have hseries : MaximumSample.series c f.name start stop = .error .chartSize :=
      hlarge y hstart (by omega) hy
    unfold ofYears
    rw [hseries]
    rfl
  · intro p hstart hstop hp
    rw [hmem, ← p.not_hasEndOf_iff h (hfirst _ hstart hstop) hp]
    simp [hstart, hstop]

theorem toBinary64_eq_self {n : Int} (hn : n.natAbs < Nat.pow 2 Binary64.precision) :
    toBinary64 n = .ok n := by
  have hself : Binary64.nearest n = n := Binary64.nearest_eq_self hn
  have hexponent : Binary64.precision ≤ 1024 := by decide
  have hfinite : Binary64.isFinite n = true := by
    unfold Binary64.isFinite
    rw [hself, decide_eq_true_eq]
    -- The largest exponent is not computed with.
    generalize 1024 = largest at hexponent ⊢
    exact Nat.lt_of_lt_of_le hn (Nat.pow_le_pow_right (by decide) hexponent)
  rw [toBinary64, if_pos hfinite, hself]

/-- In 1989 both Showa and Heisei are sampled. -/
theorem MaximumChart.ofYears_samples_showa :
    ∃ (c : Calendar) (pairs : List EraInYear) (samples : List MaximumSample),
      Calendar.ofSpec? Spec.japanese = .ok c ∧ Field.IsYearly .month ∧ c.CoversYears 1989 1989 ∧
      List.Forall₂ (fun p s => s.IsTakenFor c .month p) pairs samples ∧
      ofYears toBinary64 c "month" 1989 1989 = .ok (ofSamples samples) ∧
      samples.map (·.actual) = [1, 12] := by
  have hyearly : Field.IsYearly .month := Or.inl rfl
  obtain ⟨c, hc⟩ : ∃ c, Calendar.ofSpec? Spec.japanese = .ok c := ⟨_, rfl⟩
  have hcovers : c.CoversYears 1989 1989 := by
    cases hc
    exact Calendar.coversYears_of_represents (by decide) (by decide)
  obtain ⟨pairs, samples, -, -, hsamples, hchart, -⟩ :=
    ofYears_samples hc hyearly hcovers fun _ hn => toBinary64_eq_self hn
  have hfinite : ∀ y, 1989 ≤ y → y ≤ 1989 → Binary64.isFinite y = true := by
    intro y hstart hstop
    have hy : y = 1989 := by omega
    subst hy
    decide +kernel
  have hshown := hchart hfinite
  refine ⟨c, pairs, samples, hc, hyearly, hcovers, hsamples, hshown, ?_⟩
  have hactual : (ofYears toBinary64 c "month" 1989 1989).toOption.map (·.actual) =
      some [1, 12] := by
    cases hc
    decide +kernel
  rw [show "month" = Field.name .month from rfl, hshown] at hactual
  exact Option.some.inj hactual

/-- Three eras in the year 2000: the second begins in March and ends in May. -/
def threeEras : Spec :=
  { Spec.japanese with
    eras :=
      [⟨"First", none, some 1, "", by decide⟩,
       ⟨"Second", some (Gregorian.since 2000 3 1), none, "", by decide⟩,
       ⟨"Third", some (Gregorian.since 2000 6 1), none, "", by decide⟩] }

/-- The chart of the months of the year 2000 goes from the last month of the first era, which is 2,
to the last of the third. There is no sample for the second era, whose last month is 5. -/
theorem MaximumChart.ofYears_threeEras :
    ∃ c x range, Calendar.ofSpec? threeEras = .ok c ∧ c.CoversYears 2000 2000 ∧
      c.date? (.name "Second") 1 5 31 0 = .ok x ∧ x.absoluteYear = 2000 ∧
      (⟨2000, x.era⟩ : EraInYear).HasDayOf c ∧
      c.fieldRange x .month = .ok range ∧ range.actualMaximum = 5 ∧
      (ofYears toBinary64 c "month" 2000 2000).toOption.map (·.places) = some [8000, 8001] ∧
      (ofYears toBinary64 c "month" 2000 2000).toOption.map (·.actual) = some [2, 12] := by
  refine ⟨_, _, _, rfl, Calendar.coversYears_of_represents (by decide) (by decide), rfl, rfl,
    ⟨Gregorian.dayNumber 2000 5 31, rfl, rfl⟩, rfl, rfl, ?_, ?_⟩
  · decide +kernel
  · decide +kernel

end EraChronology
