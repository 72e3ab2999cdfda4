import EraChronology.Proofs.DayNumber
import EraChronology.Proofs.EraTable.Accepted
import EraChronology.Proofs.Instant

set_option autoImplicit false

/-! # Which era a day belongs to

In an ordered table every era but the last ends on the day before the next one starts
(`IsOrdered.lastDay_eq`), so from the first day of the first era on, a day belongs to exactly
one era: the one it lies in from first to last day (`IsOrdered.eraOfDay_eq_iff`).
-/

namespace EraChronology

theorem Era.firstDay_of_since {e : Era} {t : Int} (ht : e.since = some t) :
    e.firstDay = dayOfInstant t := by
  unfold firstDay
  rw [ht]

namespace EraTable

variable {table : EraTable}

/-! ## Positions -/

@[simp] theorem first_mem (table : EraTable) : table.first ∈ table.eras := List.head_mem _

theorem getElem?_first (table : EraTable) : table.eras[0]? = some table.first := by
  rw [← List.head?_eq_getElem?, List.head?_eq_some_head table.eras_ne_nil]
  rfl

theorem at?_eq_ok_iff {i : Int} {e : Era} (hi : 0 ≤ i) :
    table.at? i = .ok e ↔ table.eras[i.toNat]? = some e := by
  unfold at?
  simp only [if_pos hi]
  cases table.eras[i.toNat]? with
  | none => simp
  | some e' => simp

namespace IsOrdered

variable (h : table.IsOrdered) {a b e : Era}
include h

theorem exists_getElem? (he : e ∈ table.eras) :
    ∃ i : Nat, table.eras[i]? = some e ∧ e.index = i := by
  obtain ⟨i, hi⟩ := List.mem_iff_getElem?.mp he
  exact ⟨i, hi, h.index_eq i e hi⟩

theorem at?_index (he : e ∈ table.eras) : table.at? e.index = .ok e := by
  obtain ⟨i, hi, hindex⟩ := h.exists_getElem? he
  rw [hindex, at?_eq_ok_iff (Int.natCast_nonneg i), Int.toNat_natCast]
  exact hi

theorem first_index : table.first.index = 0 := h.index_eq 0 _ (getElem?_first table)

theorem eq_of_index_eq (ha : a ∈ table.eras) (hb : b ∈ table.eras) (hab : a.index = b.index) :
    a = b := by
  obtain ⟨i, hi, hia⟩ := h.exists_getElem? ha
  obtain ⟨k, hk, hkb⟩ := h.exists_getElem? hb
  have hik : i = k := by omega
  subst hik
  exact Option.some.inj (hi.symm.trans hk)

theorem precedes_of_index_lt (ha : a ∈ table.eras) (hb : b ∈ table.eras)
    (hab : a.index < b.index) : a.Precedes b := by
  obtain ⟨i, hi, hia⟩ := h.exists_getElem? ha
  obtain ⟨k, hk, hkb⟩ := h.exists_getElem? hb
  obtain ⟨hilt, rfl⟩ := List.getElem?_eq_some_iff.mp hi
  obtain ⟨hklt, rfl⟩ := List.getElem?_eq_some_iff.mp hk
  exact List.pairwise_iff_getElem.mp h.precedes i k hilt hklt (by omega)

theorem index_nonneg (he : e ∈ table.eras) : 0 ≤ e.index := by
  obtain ⟨i, -, hi⟩ := h.exists_getElem? he
  omega

/-- Only the first era may have no start. -/
theorem eq_first_of_since_eq_none (he : e ∈ table.eras) (hnone : e.since = none) :
    e = table.first := by
  have hnonneg := h.index_nonneg he
  rcases Int.lt_or_eq_of_le hnonneg with hpos | hzero
  · rw [← h.first_index] at hpos
    obtain ⟨t, ht, -⟩ := h.precedes_of_index_lt (first_mem table) he hpos
    rw [hnone] at ht
    cases ht
  · exact h.eq_of_index_eq he (first_mem table) (by rw [h.first_index, ← hzero])

theorem exists_next (he : e ∈ table.eras) (hclosed : e.isOpen = false) :
    ∃ next ∈ table.eras, next.index = e.index + 1 ∧ table.at? (e.index + 1) = .ok next := by
  obtain ⟨i, hi, hindex⟩ := h.exists_getElem? he
  have hlt : i < table.eras.length := (List.getElem?_eq_some_iff.mp hi).1
  have hne : ¬ i + 1 = table.eras.length := by
    intro hlast
    rw [(h.isOpen_iff i e hi).mpr hlast] at hclosed
    cases hclosed
  have hnext : table.eras[i + 1]? = some table.eras[i + 1] :=
    List.getElem?_eq_getElem (by omega)
  refine ⟨table.eras[i + 1], List.mem_of_getElem? hnext, ?_, ?_⟩
  · rw [h.index_eq (i + 1) _ hnext, hindex]
    rfl
  · have hnat : (e.index + 1).toNat = i + 1 := by omega
    unfold at?
    simp only [if_pos (show 0 ≤ e.index + 1 by omega), hnat, hnext]

/-- After an open era none starts, after any other the next one. -/
theorem nextStart_eq (he : e ∈ table.eras) :
    e.isOpen = true ∧ table.nextStart e = .ok none ∨
      e.isOpen = false ∧ ∃ next ∈ table.eras, next.index = e.index + 1 ∧
        ∃ t, next.since = some t ∧ table.nextStart e = .ok (some t) := by
  unfold nextStart
  cases hopen : e.isOpen with
  | true => exact Or.inl ⟨rfl, rfl⟩
  | false =>
      obtain ⟨next, hnext, hindex, hat⟩ := h.exists_next he hopen
      obtain ⟨t, ht, -⟩ := h.precedes_of_index_lt he hnext (by omega)
      refine Or.inr ⟨rfl, next, hnext, hindex, t, ht, ?_⟩
      rw [hat, ← ht]
      rfl

/-! ## First and last days -/

theorem year_firstDay (he : e ∈ table.eras) :
    (Gregorian.ofDayNumber e.firstDay).year = e.yearOrigin := by
  unfold Era.firstDay
  cases ht : e.since with
  | none => exact Gregorian.year_newYear e.yearOrigin
  | some t => exact (h.startsWithin e he t ht).2.2.symm

/-- By New Year of its year 2 an era has begun. -/
theorem firstDay_le_newYear (he : e ∈ table.eras) {y : Int} (hy : e.yearOrigin < y) :
    e.firstDay ≤ Gregorian.dayNumber y 1 1 := by
  have horigin := (Gregorian.year_ofDayNumber_eq_iff _ _).mp (h.year_firstDay he)
  calc e.firstDay
      ≤ Gregorian.dayNumber e.yearOrigin 12 31 := horigin.2
    _ = Gregorian.dayNumber (e.yearOrigin + 1) 1 1 - 1 := Gregorian.newYearsEve_eq e.yearOrigin
    _ ≤ Gregorian.dayNumber (e.yearOrigin + 1) 1 1 := by omega
    _ ≤ Gregorian.dayNumber y 1 1 := Gregorian.newYear_le (by omega)

theorem firstDay_lt (ha : a ∈ table.eras) (hb : b ∈ table.eras) (hstart : a.since ≠ none)
    (hab : a.index < b.index) : a.firstDay < b.firstDay := by
  obtain ⟨s, hs⟩ := Option.ne_none_iff_exists'.mp hstart
  obtain ⟨t, ht, hst⟩ := h.precedes_of_index_lt ha hb hab
  rw [Era.firstDay_of_since hs, Era.firstDay_of_since ht]
  exact dayOfInstant_lt (h.startsWithin b hb t ht).1 (hst s hs)

theorem firstDay_le (ha : a ∈ table.eras) (hb : b ∈ table.eras) (hstart : a.since ≠ none)
    (hab : a.index ≤ b.index) : a.firstDay ≤ b.firstDay := by
  rcases Int.lt_or_eq_of_le hab with hlt | heq
  · exact Int.le_of_lt (h.firstDay_lt ha hb hstart hlt)
  · exact Int.le_of_eq (congrArg Era.firstDay (h.eq_of_index_eq ha hb heq))

/-- An open era has no last day, any other ends on the day before the next one starts. -/
theorem lastDay_eq (he : e ∈ table.eras) :
    e.isOpen = true ∧ table.lastDay e = .ok none ∨
      e.isOpen = false ∧ ∃ next ∈ table.eras, next.index = e.index + 1 ∧ next.since ≠ none ∧
        table.lastDay e = .ok (some (next.firstDay - 1)) := by
  unfold lastDay lastInstant
  rcases h.nextStart_eq he with ⟨hopen, hstart⟩ | ⟨hclosed, next, hnext, hindex, t, ht, hstart⟩
  · rw [hstart]
    exact Or.inl ⟨hopen, rfl⟩
  · refine Or.inr ⟨hclosed, next, hnext, hindex, by rw [ht]; exact Option.some_ne_none t, ?_⟩
    rw [hstart, Era.firstDay_of_since ht, ← dayOfInstant_sub_one (h.startsWithin next hnext t ht).1]
    rfl

theorem exists_lastDay (he : e ∈ table.eras) : ∃ last, table.lastDay e = .ok last := by
  rcases h.lastDay_eq he with ⟨-, hlast⟩ | ⟨-, next, -, -, -, hlast⟩
  · exact ⟨none, hlast⟩
  · exact ⟨_, hlast⟩

/-- An era is over when a later one starts. -/
theorem exists_lastDay_lt (ha : a ∈ table.eras) (hb : b ∈ table.eras) (hab : a.index < b.index) :
    ∃ last, table.lastDay a = .ok (some last) ∧ last < b.firstDay := by
  rcases h.lastDay_eq ha with ⟨hopen, -⟩ | ⟨-, next, hnext, hindex, hstart, hlast⟩
  · obtain ⟨i, hi, hia⟩ := h.exists_getElem? ha
    obtain ⟨k, hk, hkb⟩ := h.exists_getElem? hb
    have hend := (h.isOpen_iff i a hi).mp hopen
    have hlt : k < table.eras.length := (List.getElem?_eq_some_iff.mp hk).1
    omega
  · have := h.firstDay_le hnext hb hstart (by omega)
    exact ⟨_, hlast, by omega⟩

end IsOrdered

/-! ## The era of a day -/

/-- A day on which an era has begun and, if it ends, not ended. -/
def HasDay (table : EraTable) (e : Era) (j : Int) : Prop :=
  e.firstDay ≤ j ∧ ∀ last, table.lastDay e = .ok (some last) → j ≤ last

/-- An era that has a day has an earlier one if it has begun. -/
theorem HasDay.iff_of_le {table : EraTable} {e : Era} {i j : Int} (h : table.HasDay e j)
    (hle : i ≤ j) : table.HasDay e i ↔ e.firstDay ≤ i :=
  and_iff_left fun last hlast => Int.le_trans hle (h.2 last hlast)

/-- An era that has a day has a later one unless it has ended. -/
theorem HasDay.not_iff_of_le {table : EraTable} {e : Era} {i j : Int} (h : table.HasDay e i)
    (hle : i ≤ j) :
    ¬ table.HasDay e j ↔ ∃ last, table.lastDay e = .ok (some last) ∧ last < j := by
  have hbegun : e.firstDay ≤ j := Int.le_trans h.1 hle
  unfold HasDay
  simp only [hbegun, true_and, Classical.not_forall, exists_prop, Int.not_le]

/-- The era of an instant has begun unless it is the first, and no era after it has. -/
theorem exists_append_eraAt (table : EraTable) (t : Int) :
    ∃ earlier later, table.eras = earlier ++ table.eraAt t :: later ∧
      (earlier = [] ∨ hasBegun t (table.eraAt t) = true) ∧ ∀ e ∈ later, ¬ hasBegun t e = true := by
  unfold eraAt
  cases hlast : (table.eras.filter (hasBegun t)).getLast? with
  | none =>
      have hnone := List.filter_eq_nil_iff.mp (List.getLast?_eq_none_iff.mp hlast)
      -- No era has begun, so the first is taken.
      refine ⟨[], table.eras.tail, (List.cons_head_tail table.eras_ne_nil).symm, Or.inl rfl, ?_⟩
      intro e he
      exact hnone e (List.mem_of_mem_tail he)
  | some e =>
      obtain ⟨before, hbefore⟩ := List.getLast?_eq_some_iff.mp hlast
      obtain ⟨l, r, hsplit, -, hr⟩ := List.filter_eq_append_iff.mp hbefore
      obtain ⟨skipped, later, hrest, -, hbegun, hlater⟩ := List.filter_eq_cons_iff.mp hr
      refine ⟨l ++ skipped, later, ?_, Or.inr hbegun, List.filter_eq_nil_iff.mp hlater⟩
      rw [hsplit, hrest, List.append_assoc]
      rfl

theorem eraAt_eq_first_or_hasBegun (table : EraTable) (t : Int) :
    table.eraAt t = table.first ∨ hasBegun t (table.eraAt t) = true := by
  obtain ⟨earlier, later, hsplit, hbegun, -⟩ := table.exists_append_eraAt t
  refine hbegun.imp_left fun hnil => ?_
  have hhead := getElem?_first table
  rw [hsplit, hnil] at hhead
  exact Option.some.inj hhead

@[simp] theorem eraAt_mem (table : EraTable) (t : Int) : table.eraAt t ∈ table.eras := by
  obtain ⟨earlier, later, hsplit, -⟩ := table.exists_append_eraAt t
  rw [hsplit]
  simp

@[simp] theorem eraOfDay_mem (table : EraTable) (j : Int) : table.eraOfDay j ∈ table.eras :=
  table.eraAt_mem (midnight j)

namespace IsOrdered

variable (h : table.IsOrdered) {a b e : Era} {j : Int}
include h

theorem hasBegun_midnight_iff (he : e ∈ table.eras) (hstart : e.since ≠ none) :
    hasBegun (midnight j) e = true ↔ e.firstDay ≤ j := by
  obtain ⟨t, ht⟩ := Option.ne_none_iff_exists'.mp hstart
  unfold hasBegun Era.firstDay
  rw [ht]
  simp only [decide_eq_true_eq]
  exact le_midnight_iff (h.startsWithin e he t ht).1 j

theorem firstDay_eraOfDay_le (hj : table.first.firstDay ≤ j) :
    (table.eraOfDay j).firstDay ≤ j := by
  have hmem := table.eraOfDay_mem j
  by_cases hstart : (table.eraOfDay j).since = none
  · rw [h.eq_first_of_since_eq_none hmem hstart]
    exact hj
  · rcases table.eraAt_eq_first_or_hasBegun (midnight j) with hfirst | hbegun
    · rw [show table.eraOfDay j = table.first from hfirst]
      exact hj
    · exact (h.hasBegun_midnight_iff hmem hstart).mp hbegun

/-- No era after the one of an instant has begun. -/
theorem not_hasBegun_of_index_lt {t : Int} (he : e ∈ table.eras)
    (hlt : (table.eraAt t).index < e.index) : ¬ hasBegun t e = true := by
  obtain ⟨earlier, later, hsplit, -, hlater⟩ := table.exists_append_eraAt t
  have hat : table.eras[earlier.length]? = some (table.eraAt t) := by
    rw [hsplit]
    simp
  have hposition := h.index_eq _ _ hat
  obtain ⟨i, hi, hindex⟩ := h.exists_getElem? he
  obtain ⟨k, rfl⟩ : ∃ k, i = earlier.length + 1 + k := ⟨i - (earlier.length + 1), by omega⟩
  rw [hsplit, List.getElem?_append_right (by omega),
    show earlier.length + 1 + k - earlier.length = k + 1 by omega,
    List.getElem?_cons_succ] at hi
  exact hlater e (List.mem_of_getElem? hi)

theorem le_lastDay_eraOfDay {last : Int}
    (hlast : table.lastDay (table.eraOfDay j) = .ok (some last)) : j ≤ last := by
  rcases h.lastDay_eq (table.eraOfDay_mem j) with
    ⟨-, hnone⟩ | ⟨-, next, hnext, hindex, hstart, hsome⟩
  · rw [hnone] at hlast
    cases hlast
  · have hlater : (table.eraOfDay j).index < next.index := by omega
    have hnot := h.not_hasBegun_of_index_lt hnext hlater
    rw [h.hasBegun_midnight_iff hnext hstart] at hnot
    rw [hsome] at hlast
    cases hlast
    omega

theorem hasDay_eraOfDay (hj : table.first.firstDay ≤ j) : table.HasDay (table.eraOfDay j) j :=
  ⟨h.firstDay_eraOfDay_le hj, fun _ hlast => h.le_lastDay_eraOfDay hlast⟩

theorem hasDay_firstDay (he : e ∈ table.eras) (hstart : e.since ≠ none) :
    table.HasDay e e.firstDay := by
  refine ⟨Int.le_refl _, ?_⟩
  intro last hlast
  rcases h.lastDay_eq he with ⟨-, hnone⟩ | ⟨-, next, hnext, hindex, -, hsome⟩
  · rw [hnone] at hlast
    cases hlast
  · have hlt := h.firstDay_lt he hnext hstart (by omega)
    rw [hsome] at hlast
    cases hlast
    omega

theorem eq_of_hasDay (ha : a ∈ table.eras) (hb : b ∈ table.eras) (hja : table.HasDay a j)
    (hjb : table.HasDay b j) : a = b := by
  rcases Int.lt_trichotomy a.index b.index with hlt | heq | hgt
  · -- The earlier era is over before the first day of the later one.
    obtain ⟨last, hlast, hover⟩ := h.exists_lastDay_lt ha hb hlt
    have := hja.2 last hlast
    have := hjb.1
    omega
  · exact h.eq_of_index_eq ha hb heq
  · obtain ⟨last, hlast, hover⟩ := h.exists_lastDay_lt hb ha hgt
    have := hjb.2 last hlast
    have := hja.1
    omega

/-- From the first day of the first era on, a day belongs to the one era that has it. -/
theorem eraOfDay_eq_iff (he : e ∈ table.eras) (hj : table.first.firstDay ≤ j) :
    table.eraOfDay j = e ↔ table.HasDay e j := by
  constructor
  · rintro rfl
    exact h.hasDay_eraOfDay hj
  · exact h.eq_of_hasDay (table.eraOfDay_mem j) he (h.hasDay_eraOfDay hj)

end IsOrdered

end EraTable

end EraChronology
