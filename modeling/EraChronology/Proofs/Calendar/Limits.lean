import EraChronology.Proofs.Calendar.FieldRange
import EraChronology.Proofs.Calendar.YearCycle

set_option autoImplicit false

/-! # The limits of a field

The limits of a field over a calendar are computed from the uncut periods and from the periods in
which an era starts or ends. They bound the extents of all periods that the representable
range does not cut (`limit_bounds`): such a period of a date is either uncut or holds the first
or the last day of its era (`isWhole_or_isBoundary`).
-/

namespace EraChronology

structure Span.IsWhole (s : Span) : Prop where
  first_eq : s.first = s.naturalFirst
  last_eq : s.last = s.naturalLast
  anchor_eq : s.anchor = s.naturalFirst

namespace WeekRule

variable (w : WeekRule) {s : Span}

/-- Weeks are counted in an uncut span as in its uncut period. -/
theorem maxWeekOfYear_of_isWhole (hs : s.IsWhole) :
    w.maxWeekOfYear s = w.maxWeekOfYear s.natural := by
  unfold maxWeekOfYear
  rw [hs.last_eq, hs.anchor_eq]
  rfl

theorem weekOfMonth_of_isWhole (hs : s.IsWhole) (j : Int) :
    w.weekOfMonth s j = w.weekOfMonth s.natural j := by
  unfold weekOfMonth Span.truncatedStart
  rw [hs.first_eq, hs.anchor_eq]
  rfl

theorem minWeekOfMonth_of_isWhole (hs : s.IsWhole) :
    w.minWeekOfMonth s = w.minWeekOfMonth s.natural := by
  unfold minWeekOfMonth
  rw [w.weekOfMonth_of_isWhole hs, hs.first_eq]
  rfl

theorem maxWeekOfMonth_of_isWhole (hs : s.IsWhole) :
    w.maxWeekOfMonth s = w.maxWeekOfMonth s.natural := by
  unfold maxWeekOfMonth
  rw [w.weekOfMonth_of_isWhole hs, hs.last_eq]
  rfl

end WeekRule

namespace Limit

variable {l : Limit} {r r' : Extent}

/-- The period of `r` starts no higher than the greatest minimum and ends no lower than the least
maximum. -/
def Bounds (l : Limit) (r : Extent) : Prop :=
  r.actualMinimum ≤ l.greatestMinimum ∧ l.leastMaximum ≤ r.actualMaximum

theorem narrow_bounds (l : Limit) (r : Extent) : (l.narrow r).Bounds r :=
  ⟨Int.le_max_right _ _, Int.min_le_right _ _⟩

theorem Bounds.narrow (h : l.Bounds r') (r : Extent) : (l.narrow r).Bounds r' :=
  ⟨Int.le_trans h.1 (Int.le_max_left _ _), Int.le_trans (Int.min_le_left _ _) h.2⟩

end Limit

namespace Calendar

variable {c : Calendar} {e : Era} {f : Field} {l uncut : Limit} {n m j k lo hi : Int}
  {x : EraDate} {r : Extent} {s : Span}

/-! ## Narrowing -/

/-- A narrowed limit bounds what it bounded before, and the periods it is narrowed by. -/
theorem bounds_of_foldlM {cuts : List EraMonth}
    (hfold : cuts.foldlM (fun l p => (c.extent f p.era p.year p.month).map l.narrow) uncut =
      .ok l) :
    (∀ r, uncut.Bounds r → l.Bounds r) ∧
      ∀ p ∈ cuts, ∀ r, c.extent f p.era p.year p.month = .ok r → l.Bounds r := by
  induction cuts generalizing uncut with
  | nil =>
      rw [List.foldlM_nil, pure_eq_ok_iff] at hfold
      subst hfold
      exact ⟨fun _ h => h, by simp⟩
  | cons p cuts ih =>
      rw [List.foldlM_cons] at hfold
      obtain ⟨narrowed, hnarrowed, hfold⟩ := bind_eq_ok_iff.mp hfold
      obtain ⟨r, hr, rfl⟩ := map_eq_ok_iff.mp hnarrowed
      obtain ⟨hkept, hcuts⟩ := ih hfold
      refine ⟨fun r' h => hkept r' (h.narrow r), ?_⟩
      intro p' hp' r' hr'
      rcases List.mem_cons.mp hp' with rfl | hp'
      · rw [hr] at hr'
        cases hr'
        exact hkept r (uncut.narrow_bounds r)
      · exact hcuts p' hp' r' hr'

def IsBoundary (c : Calendar) (e : Era) (k : Int) : Prop :=
  e.since ≠ none ∧ k = e.firstDay ∨ c.table.lastDay e = .ok (some k)

theorem mem_cutMonths {cuts : List EraMonth} (hcuts : c.cutMonths = .ok cuts)
    (he : e ∈ c.table.eras) (hk : c.IsBoundary e k) : eraMonthOf e k ∈ cuts := by
  obtain ⟨all, hall, rfl⟩ := map_eq_ok_iff.mp hcuts
  obtain ⟨months, hmem, hmonths⟩ := exists_mem_of_mapM_eq_ok hall he
  refine List.mem_flatten.mpr ⟨months, hmem, ?_⟩
  unfold cutMonthsOf at hmonths
  obtain ⟨last, hlast, hmonths⟩ := bind_eq_ok_iff.mp hmonths
  rw [pure_eq_ok_iff] at hmonths
  subst hmonths
  apply List.mem_map_of_mem
  rcases hk with ⟨hstart, rfl⟩ | hend
  · have hnot : e.isProleptic = false := by
      unfold Era.isProleptic
      rwa [Option.isNone_eq_false_iff, Option.isSome_iff_ne_none]
    simp [hnot]
  · rw [hend] at hlast
    cases hlast
    simp

/-- The limit over the uncut periods, narrowed by the months in which eras start and end. -/
theorem exists_of_limit (hl : c.limit f = .ok l) :
    ∃ uncut, c.gregorianLimit f = .ok uncut ∧
      ((f = .era ∨ f = .year) ∧ l = uncut ∨
        ∃ cuts, c.cutMonths = .ok cuts ∧
          cuts.foldlM (fun l p => (c.extent f p.era p.year p.month).map l.narrow) uncut =
            .ok l) := by
  obtain ⟨uncut, huncut, hl⟩ := bind_eq_ok_iff.mp hl
  refine ⟨uncut, huncut, ?_⟩
  by_cases hwide : f = .era ∨ f = .year
  · rw [if_pos hwide, pure_eq_ok_iff] at hl
    exact Or.inl ⟨hwide, hl.symm⟩
  · rw [if_neg hwide] at hl
    exact Or.inr (bind_eq_ok_iff.mp hl)

theorem limit_bounds_of_uncut (hl : c.limit f = .ok l) (huncut : c.gregorianLimit f = .ok uncut)
    (hr : uncut.Bounds r) : l.Bounds r := by
  obtain ⟨uncut', huncut', hlimit⟩ := exists_of_limit hl
  rw [huncut] at huncut'
  cases huncut'
  rcases hlimit with ⟨-, rfl⟩ | ⟨cuts, -, hfold⟩
  · exact hr
  · exact (bounds_of_foldlM hfold).1 r hr

theorem limit_bounds_of_boundary (hl : c.limit f = .ok l) (hera : f ≠ .era) (hyear : f ≠ .year)
    (he : e ∈ c.table.eras) (hk : c.IsBoundary e k)
    (hr : c.extent f e (eraMonthOf e k).year (eraMonthOf e k).month = .ok r) : l.Bounds r := by
  obtain ⟨uncut, -, ⟨hwide, -⟩ | ⟨cuts, hcuts, hfold⟩⟩ := exists_of_limit hl
  · exact absurd hwide (not_or.mpr ⟨hera, hyear⟩)
  · exact (bounds_of_foldlM hfold).2 _ (mem_cutMonths hcuts he hk) r hr

/-! ## Periods that are cut by their era -/

/-- A period of days of an era that is cut by the era at most is uncut or holds the first or the
last day of the era. -/
theorem isWhole_or_isBoundary {eraLast : Option Int} (hlast : c.table.lastDay e = .ok eraLast)
    (hclamped : (c.cut e eraLast lo hi).clamped = false)
    (hj : j ∈ (c.cut e eraLast lo hi).days) (hproleptic : e.since = none → e.firstDay ≤ lo) :
    (c.cut e eraLast lo hi).IsWhole ∨ ∃ k, c.IsBoundary e k ∧ lo ≤ k ∧ k ≤ hi := by
  have hin : lo ≤ j ∧ j ≤ hi := by
    have hwithin := c.cut_within e eraLast lo hi
    obtain ⟨hfirst, hend⟩ := hj
    omega
  rw [cut_of_not_clamped hclamped] at hj ⊢
  obtain ⟨hfirst, hend⟩ := hj
  simp only at hfirst hend
  by_cases hstart : e.firstDay ≤ lo
  · have hanchor : max lo e.firstDay = lo := Int.max_eq_left hstart
    cases eraLast with
    | none => exact Or.inl ⟨hanchor, rfl, hanchor⟩
    | some day =>
        simp only [Option.map_some, Option.getD_some] at hend ⊢
        by_cases hover : hi ≤ day
        · exact Or.inl ⟨hanchor, Int.min_eq_left hover, hanchor⟩
        · exact Or.inr ⟨day, Or.inr hlast, by omega, by omega⟩
  · have hsince : e.since ≠ none := fun hnone => hstart (hproleptic hnone)
    exact Or.inr ⟨e.firstDay, Or.inl ⟨hsince, rfl⟩, by omega, by omega⟩

theorem year_eraMonthOf (hyear : (Gregorian.ofDayNumber k).year = e.absoluteYear n) :
    (eraMonthOf e k).year = n := by
  show e.eraYear (Gregorian.ofDayNumber k).year = n
  rw [hyear, Era.eraYear_absoluteYear]

theorem firstDay_le_of_since_eq_none (hsince : e.since = none) (hn : 1 ≤ n) :
    e.firstDay ≤ Gregorian.dayNumber (e.absoluteYear n) 1 1 := by
  have hfirst : e.firstDay = Gregorian.dayNumber e.yearOrigin 1 1 := by
    unfold Era.firstDay
    rw [hsince]
  rw [hfirst]
  apply Gregorian.newYear_le
  unfold Era.absoluteYear
  omega

theorem natural_yearSpan (h : c.table.IsOrdered) (he : e ∈ c.table.eras)
    (hs : c.yearSpan e n = .ok s) :
    s.naturalFirst = Gregorian.dayNumber (e.absoluteYear n) 1 1 ∧
      s.naturalLast = Gregorian.dayNumber (e.absoluteYear n) 12 31 := by
  obtain ⟨last, hlast⟩ := h.exists_lastDay he
  rw [yearSpan_eq hlast] at hs
  cases hs
  exact ⟨rfl, rfl⟩

theorem within_yearSpan (h : c.table.IsOrdered) (he : e ∈ c.table.eras)
    (hs : c.yearSpan e n = .ok s) :
    s.naturalFirst ≤ s.anchor ∧ s.anchor ≤ s.first ∧ s.last ≤ s.naturalLast := by
  obtain ⟨last, hlast⟩ := h.exists_lastDay he
  rw [yearSpan_eq hlast] at hs
  cases hs
  exact c.cut_within e last _ _

theorem natural_monthSpan (h : c.table.IsOrdered) (he : e ∈ c.table.eras) (hm : 1 ≤ m ∧ m ≤ 12)
    (hs : c.monthSpan e n m = .ok s) :
    s.naturalFirst = Gregorian.dayNumber (e.absoluteYear n) m 1 ∧
      s.naturalLast = Gregorian.dayNumber (e.absoluteYear n) m
        (Gregorian.monthLength (e.absoluteYear n) m) := by
  obtain ⟨last, hlast⟩ := h.exists_lastDay he
  rw [monthSpan_eq hlast hm] at hs
  cases hs
  exact ⟨rfl, (Int.add_sub_assoc _ _ _).trans (Gregorian.dayNumber_eq_add _ _ _).symm⟩

/-- A limit bounds the extent of a period that is cut by its era at most: if it is cut, the limit is
narrowed by a month of it, and if not, the limit bounds it as an uncut period. -/
theorem limit_bounds_of_cut {eraLast : Option Int} (he : e ∈ c.table.eras)
    (hlast : c.table.lastDay e = .ok eraLast)
    (hclamped : (c.cut e eraLast lo hi).clamped = false)
    (hj : j ∈ (c.cut e eraLast lo hi).days) (hproleptic : e.since = none → e.firstDay ≤ lo)
    (hl : c.limit f = .ok l) (hera : f ≠ .era) (hyear : f ≠ .year)
    (hr : ∀ k, lo ≤ k ∧ k ≤ hi →
      c.extent f e (eraMonthOf e k).year (eraMonthOf e k).month = .ok r)
    (hwhole : (c.cut e eraLast lo hi).IsWhole →
      ∃ uncut, c.gregorianLimit f = .ok uncut ∧ uncut.Bounds r) : l.Bounds r := by
  rcases isWhole_or_isBoundary hlast hclamped hj hproleptic with huncut | ⟨k, hk, hin⟩
  · obtain ⟨uncut, hlimit, hbounds⟩ := hwhole huncut
    exact limit_bounds_of_uncut hl hlimit hbounds
  · exact limit_bounds_of_boundary hl hera hyear he hk (hr k hin)

theorem limit_bounds_of_yearSpan (h : c.table.IsOrdered) (hx : c.IsDate x)
    (hs : c.yearSpan x.era x.year = .ok s) (hclamped : s.clamped = false)
    (hl : c.limit f = .ok l) (hera : f ≠ .era) (hyear : f ≠ .year)
    (hr : ∀ m, c.extent f x.era x.year m = .ok r)
    (hwhole : s.IsWhole → ∃ uncut, c.gregorianLimit f = .ok uncut ∧ uncut.Bounds r) :
    l.Bounds r := by
  have he := hx.era_mem h
  obtain ⟨last, hlast⟩ := h.exists_lastDay he
  rw [yearSpan_eq hlast] at hs
  cases hs
  refine limit_bounds_of_cut he hlast hclamped
    ((mem_days_year_iff h he hlast).mpr (hx.inMonth h).inYear)
    (fun hsince => firstDay_le_of_since_eq_none hsince (hx.one_le_year h)) hl hera hyear ?_ hwhole
  -- The extent does not depend on the month.
  intro k hin
  rw [year_eraMonthOf ((Gregorian.year_ofDayNumber_eq_iff k _).mpr hin), hr]

theorem limit_bounds_of_monthSpan (h : c.table.IsOrdered) (hx : c.IsDate x)
    (hs : c.monthSpan x.era x.year x.month = .ok s) (hclamped : s.clamped = false)
    (hl : c.limit f = .ok l) (hera : f ≠ .era) (hyear : f ≠ .year)
    (hr : c.extent f x.era x.year x.month = .ok r)
    (hwhole : s.IsWhole → ∃ uncut, c.gregorianLimit f = .ok uncut ∧ uncut.Bounds r) :
    l.Bounds r := by
  have he := hx.era_mem h
  have hm := hx.month_mem h
  obtain ⟨last, hlast⟩ := h.exists_lastDay he
  rw [monthSpan_eq hlast hm] at hs
  cases hs
  have hstart : x.era.since = none →
      x.era.firstDay ≤ Gregorian.dayNumber (x.era.absoluteYear x.year) x.month 1 := fun hsince =>
    Int.le_trans (firstDay_le_of_since_eq_none hsince (hx.one_le_year h))
      (Gregorian.firstOfMonth_le _ 1 _ (by omega))
  refine limit_bounds_of_cut he hlast hclamped
    ((mem_days_month_iff h he hlast hm).mpr (hx.inMonth h)) hstart hl hera hyear ?_ hwhole
  intro k hin
  obtain ⟨hsameYear, hsameMonth⟩ := (Gregorian.month_ofDayNumber_eq_iff k _ _ hm).mpr hin
  rw [year_eraMonthOf hsameYear, ← hr, ← hsameMonth]
  rfl

/-! ## Uncut years and months -/

theorem dates_of_isWhole_year (h : c.table.IsOrdered) (he : e ∈ c.table.eras)
    (hs : c.yearSpan e n = .ok s) (hwhole : s.IsWhole) :
    Gregorian.ofDayNumber s.first = ⟨e.absoluteYear n, 1, 1⟩ ∧
      Gregorian.ofDayNumber s.last = ⟨e.absoluteYear n, 12, 31⟩ := by
  obtain ⟨hfirst, hlast⟩ := natural_yearSpan h he hs
  have hjan : Gregorian.monthLength (e.absoluteYear n) 1 = 31 :=
    Gregorian.monthLength_of_ne_two _ (by decide)
  have hdec : Gregorian.monthLength (e.absoluteYear n) 12 = 31 :=
    Gregorian.monthLength_of_ne_two _ (by decide)
  rw [hwhole.first_eq, hwhole.last_eq, hfirst, hlast]
  exact ⟨Gregorian.ofDayNumber_of_mem (by decide) (by omega),
    Gregorian.ofDayNumber_of_mem (by decide) (by omega)⟩

theorem dates_of_isWhole_month (h : c.table.IsOrdered) (he : e ∈ c.table.eras)
    (hm : 1 ≤ m ∧ m ≤ 12) (hs : c.monthSpan e n m = .ok s) (hwhole : s.IsWhole) :
    Gregorian.ofDayNumber s.first = ⟨e.absoluteYear n, m, 1⟩ ∧
      Gregorian.ofDayNumber s.last =
        ⟨e.absoluteYear n, m, Gregorian.monthLength (e.absoluteYear n) m⟩ := by
  obtain ⟨hfirst, hlast⟩ := natural_monthSpan h he hm hs
  have hlength := Gregorian.monthLength_mem (e.absoluteYear n) m
  rw [hwhole.first_eq, hwhole.last_eq, hfirst, hlast]
  exact ⟨Gregorian.ofDayNumber_of_mem hm (by omega), Gregorian.ofDayNumber_of_mem hm (by omega)⟩

/-! ## The fields -/

theorem limit_bounds_month (h : c.table.IsOrdered) (hx : c.IsDate x)
    (hl : c.limit .month = .ok l) (hr : c.extent .month x.era x.year x.month = .ok r)
    (hclamped : r.clamped = false) : l.Bounds r := by
  obtain ⟨s, hs, hextent⟩ := bind_eq_ok_iff.mp hr
  rw [pure_eq_ok_iff] at hextent
  subst hextent
  apply limit_bounds_of_yearSpan h hx hs hclamped hl (by decide) (by decide) fun _ => hr
  refine fun hwhole => ⟨_, rfl, ?_⟩
  obtain ⟨hfirst, hlast⟩ := dates_of_isWhole_year h (hx.era_mem h) hs hwhole
  simp [Limit.Bounds, hfirst, hlast]

theorem limit_bounds_dayOfMonth (h : c.table.IsOrdered) (hx : c.IsDate x)
    (hl : c.limit .dayOfMonth = .ok l) (hr : c.extent .dayOfMonth x.era x.year x.month = .ok r)
    (hclamped : r.clamped = false) : l.Bounds r := by
  have hm := hx.month_mem h
  have hlength := Gregorian.monthLength_mem (x.era.absoluteYear x.year) x.month
  obtain ⟨s, hs, hextent⟩ := bind_eq_ok_iff.mp hr
  obtain ⟨length, -, hextent⟩ := bind_eq_ok_iff.mp hextent
  rw [pure_eq_ok_iff] at hextent
  subst hextent
  apply limit_bounds_of_monthSpan h hx hs hclamped hl (by decide) (by decide) hr
  refine fun hwhole => ⟨_, rfl, ?_⟩
  obtain ⟨hfirst, hlast⟩ := dates_of_isWhole_month h (hx.era_mem h) hm hs hwhole
  simp only [Limit.Bounds, hfirst, hlast]
  omega

theorem limit_bounds_dayOfYear (h : c.table.IsOrdered) (hx : c.IsDate x)
    (hl : c.limit .dayOfYear = .ok l) (hr : c.extent .dayOfYear x.era x.year x.month = .ok r)
    (hclamped : r.clamped = false) : l.Bounds r := by
  obtain ⟨s, hs, hextent⟩ := bind_eq_ok_iff.mp hr
  rw [pure_eq_ok_iff] at hextent
  subst hextent
  apply limit_bounds_of_yearSpan h hx hs hclamped hl (by decide) (by decide) fun _ => hr
  refine fun hwhole => ⟨_, rfl, ?_⟩
  obtain ⟨hfirst, hlast⟩ := natural_yearSpan h (hx.era_mem h) hs
  have heve := Gregorian.newYearsEve_eq (x.era.absoluteYear x.year)
  have hadd := Gregorian.newYear_add_one (x.era.absoluteYear x.year)
  have hlength := Gregorian.yearLength_mem (x.era.absoluteYear x.year)
  simp only [Limit.Bounds, hwhole.first_eq, hwhole.last_eq, hwhole.anchor_eq, hfirst, hlast]
  omega

theorem limit_bounds_dayOfWeekInMonth (h : c.table.IsOrdered) (hx : c.IsDate x)
    (hl : c.limit .dayOfWeekInMonth = .ok l)
    (hr : c.extent .dayOfWeekInMonth x.era x.year x.month = .ok r)
    (hclamped : r.clamped = false) : l.Bounds r := by
  have hm := hx.month_mem h
  have hlength := Gregorian.monthLength_mem (x.era.absoluteYear x.year) x.month
  obtain ⟨s, hs, hextent⟩ := bind_eq_ok_iff.mp hr
  obtain ⟨length, -, hextent⟩ := bind_eq_ok_iff.mp hextent
  rw [pure_eq_ok_iff] at hextent
  subst hextent
  apply limit_bounds_of_monthSpan h hx hs hclamped hl (by decide) (by decide) hr
  refine fun hwhole => ⟨_, rfl, ?_⟩
  obtain ⟨hfirst, hlast⟩ := dates_of_isWhole_month h (hx.era_mem h) hm hs hwhole
  have hstep := Gregorian.sevenDayStep_le hlength.1
  simp only [Limit.Bounds, hfirst, hlast]
  exact ⟨by decide, hstep⟩

theorem limit_bounds_weekOfYear (h : c.table.IsOrdered) (hx : c.IsDate x)
    (hl : c.limit .weekOfYear = .ok l) (hr : c.extent .weekOfYear x.era x.year x.month = .ok r)
    (hclamped : r.clamped = false) : l.Bounds r := by
  obtain ⟨s, hs, hextent⟩ := bind_eq_ok_iff.mp hr
  rw [pure_eq_ok_iff] at hextent
  subst hextent
  apply limit_bounds_of_yearSpan h hx hs hclamped hl (by decide) (by decide) fun _ => hr
  refine fun hwhole => ⟨_, rfl, ?_⟩
  obtain ⟨hfirst, hlast⟩ := natural_yearSpan h (hx.era_mem h) hs
  have hleast := leastWeeksOfYear_le c.weeks (x.era.absoluteYear x.year)
  rw [gregorianYear, ← hfirst, ← hlast] at hleast
  refine ⟨Int.le_refl 1, ?_⟩
  simp only [c.weeks.maxWeekOfYear_of_isWhole hwhole]
  exact hleast

theorem limit_bounds_weekOfMonth (h : c.table.IsOrdered) (hx : c.IsDate x)
    (hl : c.limit .weekOfMonth = .ok l) (hr : c.extent .weekOfMonth x.era x.year x.month = .ok r)
    (hclamped : r.clamped = false) : l.Bounds r := by
  have hm := hx.month_mem h
  obtain ⟨s, hs, hextent⟩ := bind_eq_ok_iff.mp hr
  rw [pure_eq_ok_iff] at hextent
  subst hextent
  apply limit_bounds_of_monthSpan h hx hs hclamped hl (by decide) (by decide) hr
  refine fun hwhole => ⟨_, rfl, ?_⟩
  obtain ⟨hfirst, hlast⟩ := natural_monthSpan h (hx.era_mem h) hm hs
  have hbounds := gregorianWeeksOfMonth_mem c.weeks (x.era.absoluteYear x.year) hm
  have hmonth : gregorianMonth (x.era.absoluteYear x.year) x.month = s.natural := by
    rw [Gregorian.dayNumber_eq_add] at hlast
    simp only [gregorianMonth, Span.natural, hfirst, hlast, Int.add_sub_assoc]
  rw [hmonth] at hbounds
  simp only [Limit.Bounds, c.weeks.minWeekOfMonth_of_isWhole hwhole,
    c.weeks.maxWeekOfMonth_of_isWhole hwhole]
  exact hbounds

theorem limit_bounds_era (hl : c.limit .era = .ok l) (hr : c.extent .era e n m = .ok r) :
    l.Bounds r := by
  cases hr
  exact limit_bounds_of_uncut hl rfl ⟨Int.le_refl _, Int.le_refl _⟩

theorem limit_bounds_year (he : e ∈ c.table.eras) (hl : c.limit .year = .ok l)
    (hr : c.extent .year e n m = .ok r) : l.Bounds r := by
  obtain ⟨greatest, -, hextent⟩ := bind_eq_ok_iff.mp hr
  obtain ⟨highest, hhighest, hextent⟩ := bind_eq_ok_iff.mp hextent
  rw [pure_eq_ok_iff] at hextent
  subst hextent
  obtain ⟨uncut, huncut, -⟩ := exists_of_limit hl
  obtain ⟨least, hleast, rfl⟩ := map_eq_ok_iff.mp huncut
  exact limit_bounds_of_uncut hl huncut
    ⟨Int.le_refl 1, EraTable.leastMaxYear_le he hhighest hleast⟩

/-- The limits of a field bound its extent at every date where the representable range does not cut
it. -/
theorem limit_bounds (h : c.table.IsOrdered) (hx : c.IsDate x) (hl : c.limit f = .ok l)
    (hr : c.extent f x.era x.year x.month = .ok r) (hclamped : r.clamped = false) :
    l.Bounds r := by
  cases f with
  | era => exact limit_bounds_era hl hr
  | year => exact limit_bounds_year (hx.era_mem h) hl hr
  | month => exact limit_bounds_month h hx hl hr hclamped
  | dayOfMonth => exact limit_bounds_dayOfMonth h hx hl hr hclamped
  | dayOfYear => exact limit_bounds_dayOfYear h hx hl hr hclamped
  | dayOfWeekInMonth => exact limit_bounds_dayOfWeekInMonth h hx hl hr hclamped
  | weekOfYear => exact limit_bounds_weekOfYear h hx hl hr hclamped
  | weekOfMonth => exact limit_bounds_weekOfMonth h hx hl hr hclamped

end Calendar

end EraChronology
