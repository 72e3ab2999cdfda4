import EraChronology.Proofs.DayNumber
import EraChronology.Proofs.EraTable.Accepted
import Mathlib.Data.List.Forall2

set_option autoImplicit false

/-! # Which definitions make a table

`EraTable.ofDefs?` compares a definition with the one before it alone. The lists it accepts are
those in which all starts are in order and all names differ (`EraTable.WellFormed`,
`exists_ofDefs?_iff`): `EraTable.Continues` says what the definitions still to come have to satisfy
after those already read, and one definition after the other can be taken off it
(`continues_cons_iff`). The eras of a table are those of its definitions (`forall₂_of_erasFrom?`).

Every other list has a fault. The fault is what is reported as long as it can be put into words,
and it can when the numbers of the definitions are short enough to be written
(`isWritable_of_ofDefs?`).
-/

namespace EraChronology

/-- A start is a midnight within the bound, and a year 1 that is stated with it is its year. -/
def EraDef.StartsWithin (d : EraDef) (b : Bound) : Prop :=
  ∀ t, d.since = some t →
    t % msPerDay = 0 ∧ b.Contains t ∧ ∀ y, d.yearOrigin = some y → y = EraTable.yearOfInstant t

/-- The numbers a definition states can be written. -/
def EraDef.IsWritable (d : EraDef) : Prop :=
  (∀ t, d.since = some t → Text.isWritable t = true) ∧
    ∀ y, d.yearOrigin = some y → Text.isWritable y = true

/-- The era of a definition: what is stated, and year 1 is the year of the start. Without a start
it is the stated year, or else the Gregorian year 1. -/
def Era.IsOf (e : Era) (d : EraDef) : Prop :=
  e.name = d.name ∧ e.abbr = d.abbr ∧ e.since = d.since ∧
    e.yearOrigin = (d.since.map EraTable.yearOfInstant).getD (d.yearOrigin.getD 1)

namespace EraTable

variable {bound : Bound} {before rest defs : List EraDef} {d : EraDef} {eras : List Era}
  {table : EraTable} {fault : TableFault} {t : Int}

/-- The definitions of a table: at least one, with different names, all but the first with a start,
and all starts in order, at midnight and within the bound. -/
structure WellFormed (bound : Bound) (defs : List EraDef) : Prop where
  ne_nil : defs ≠ []
  names_nodup : (defs.map EraDef.name).Nodup
  unbounded_first : ∀ (i : Nat) (d : EraDef), defs[i]? = some d → d.since = none → i = 0
  startsWithin : ∀ d ∈ defs, d.StartsWithin bound
  increasing : (defs.filterMap EraDef.since).Pairwise (· < ·)

/-- The definitions `rest` can follow the definitions `before`, the latest of them first. -/
structure Continues (bound : Bound) (before rest : List EraDef) : Prop where
  name_new : ∀ d ∈ rest, d.name ∉ before.map EraDef.name
  names_nodup : (rest.map EraDef.name).Nodup
  unbounded_first : ∀ (i : Nat) (d : EraDef), rest[i]? = some d → d.since = none →
    before = [] ∧ i = 0
  startsWithin : ∀ d ∈ rest, d.StartsWithin bound
  after : ∀ p ∈ before.head?, ∀ s, p.since = some s → ∀ t ∈ rest.filterMap EraDef.since, s < t
  increasing : (rest.filterMap EraDef.since).Pairwise (· < ·)

theorem Continues.nil (bound : Bound) (before : List EraDef) : Continues bound before [] where
  name_new := by simp
  names_nodup := by simp
  unbounded_first := by simp
  startsWithin := by simp
  after := by simp
  increasing := by simp

/-! ## One definition -/

/-- A definition is accepted for its name, for its place if it has no start, and for its start. -/
theorem exists_origin?_iff :
    (∃ y, origin? bound before d = .ok y) ↔
      d.name ∉ before.map EraDef.name ∧ (d.since = none → before = []) ∧ d.StartsWithin bound ∧
        ∀ p ∈ before.head?, ∀ s, p.since = some s → ∀ t, d.since = some t → s < t := by
  unfold EraDef.StartsWithin
  simp only [origin?_eq_ok_iff, startFault?_eq_none_iff]
  cases hsince : d.since with
  | none =>
      constructor
      · rintro ⟨y, hname, ⟨-, hfirst, -⟩ | ⟨t, ht, -⟩⟩
        · exact ⟨hname, fun _ => hfirst, by simp, by simp⟩
        · cases ht
      · rintro ⟨hname, hfirst, -, -⟩
        exact ⟨_, hname, Or.inl ⟨rfl, hfirst rfl, rfl⟩⟩
  | some t =>
      constructor
      · rintro ⟨y, hname, ⟨hnone, -⟩ | ⟨u, hu, ⟨hmidnight, horder, hbound, horigin⟩, -⟩⟩
        · cases hnone
        · cases hu
          refine ⟨hname, by simp, ?_, ?_⟩
          · rintro _ ⟨rfl⟩
            exact ⟨hmidnight, hbound, horigin⟩
          · rintro p hp s hs _ ⟨rfl⟩
            exact horder p hp s hs
      · rintro ⟨hname, -, hstart, horder⟩
        obtain ⟨hmidnight, hbound, horigin⟩ := hstart t rfl
        refine ⟨_, hname, Or.inr ⟨t, rfl, ⟨hmidnight, ?_, hbound, horigin⟩, rfl⟩⟩
        intro p hp s hs
        exact horder p hp s hs t rfl

theorem pairwise_starts_cons_iff :
    ((d :: rest).filterMap EraDef.since).Pairwise (· < ·) ↔
      (∀ s, d.since = some s → ∀ t ∈ rest.filterMap EraDef.since, s < t) ∧
        (rest.filterMap EraDef.since).Pairwise (· < ·) := by
  cases hs : d.since with
  | none =>
      rw [List.filterMap_cons_none hs]
      simp
  | some s =>
      rw [List.filterMap_cons_some hs, List.pairwise_cons]
      simp

theorem Continues.head (h : Continues bound before (d :: rest)) :
    ∃ y, origin? bound before d = .ok y := by
  rw [exists_origin?_iff]
  refine ⟨h.name_new d List.mem_cons_self, ?_, h.startsWithin d List.mem_cons_self, ?_⟩
  · intro hnone
    exact (h.unbounded_first 0 d rfl hnone).1
  · intro p hp s hs t ht
    exact h.after p hp s hs t (List.mem_filterMap.mpr ⟨d, List.mem_cons_self, ht⟩)

theorem Continues.tail (h : Continues bound before (d :: rest)) :
    Continues bound (d :: before) rest := by
  have hnodup := List.nodup_cons.mp h.names_nodup
  have hsorted := pairwise_starts_cons_iff.mp h.increasing
  refine
    { name_new := ?new, names_nodup := hnodup.2, unbounded_first := ?unbounded
      startsWithin := fun d' hd' => h.startsWithin d' (List.mem_cons_of_mem _ hd')
      after := ?after, increasing := hsorted.2 }
  case new =>
    intro d' hd'
    rw [List.map_cons, List.mem_cons, not_or]
    refine ⟨?_, h.name_new d' (List.mem_cons_of_mem _ hd')⟩
    intro heq
    exact hnodup.1 (heq ▸ List.mem_map_of_mem hd')
  case unbounded =>
    -- Only the first of all definitions may have no start, and that is not one of `rest`.
    intro i d' hd' hnone
    have := (h.unbounded_first (i + 1) d' (by simpa using hd') hnone).2
    omega
  case after =>
    rintro p hp s hs t ht
    cases Option.some.inj hp
    exact hsorted.1 s hs t ht

theorem Continues.cons (hd : ∃ y, origin? bound before d = .ok y)
    (h : Continues bound (d :: before) rest) : Continues bound before (d :: rest) := by
  obtain ⟨hname, hfirst, hstart, horder⟩ := exists_origin?_iff.mp hd
  have hafter : ∀ s, d.since = some s → ∀ t ∈ rest.filterMap EraDef.since, s < t :=
    h.after d rfl
  refine
    { name_new := ?new, names_nodup := ?nodup, unbounded_first := ?unbounded
      startsWithin := List.forall_mem_cons.mpr ⟨hstart, h.startsWithin⟩, after := ?after
      increasing := pairwise_starts_cons_iff.mpr ⟨hafter, h.increasing⟩ }
  case new =>
    refine List.forall_mem_cons.mpr ⟨hname, fun d' hd' hmem => ?_⟩
    exact h.name_new d' hd' (List.mem_cons_of_mem _ hmem)
  case nodup =>
    rw [List.map_cons, List.nodup_cons]
    refine ⟨?_, h.names_nodup⟩
    intro hmem
    obtain ⟨d', hd', heq⟩ := List.mem_map.mp hmem
    exact h.name_new d' hd' (by rw [heq]; exact List.mem_cons_self)
  case unbounded =>
    intro i d' hd' hnone
    cases i with
    | zero =>
        cases Option.some.inj hd'
        exact ⟨hfirst hnone, rfl⟩
    | succ i =>
        have := (h.unbounded_first i d' (by simpa using hd') hnone).1
        cases this
  case after =>
    intro p hp s hs t ht
    cases hd : d.since with
    | none =>
        -- A definition without a start is the first, and nothing stands before it.
        rw [hfirst hd] at hp
        cases hp
    | some u =>
        have hsu := horder p hp s hs u hd
        rw [List.filterMap_cons_some hd, List.mem_cons] at ht
        rcases ht with rfl | ht
        · exact hsu
        · exact Int.lt_trans hsu (hafter u hd t ht)

/-- The first definition is checked on its own and then stands before the others. -/
theorem continues_cons_iff :
    Continues bound before (d :: rest) ↔
      (∃ y, origin? bound before d = .ok y) ∧ Continues bound (d :: before) rest :=
  ⟨fun h => ⟨h.head, h.tail⟩, fun ⟨hd, h⟩ => h.cons hd⟩

/-! ## All definitions -/

theorem exists_erasFrom?_iff :
    (∃ eras, erasFrom? bound before rest = .ok eras) ↔ Continues bound before rest := by
  induction rest generalizing before with
  | nil => exact iff_of_true ⟨[], rfl⟩ (Continues.nil bound before)
  | cons d rest ih =>
      rw [continues_cons_iff, ← ih]
      simp only [erasFrom?_cons_eq_ok_iff]
      constructor
      · rintro ⟨-, y, later, hy, hlater, -⟩
        exact ⟨⟨y, hy⟩, later, hlater⟩
      · rintro ⟨⟨y, hy⟩, later, hlater⟩
        exact ⟨_, y, later, hy, hlater, rfl⟩

theorem wellFormed_iff_continues :
    WellFormed bound defs ↔ defs ≠ [] ∧ Continues bound [] defs := by
  constructor
  · intro h
    refine ⟨h.ne_nil, ?_⟩
    exact
      { name_new := by simp
        names_nodup := h.names_nodup
        unbounded_first := fun i d hd hnone => ⟨rfl, h.unbounded_first i d hd hnone⟩
        startsWithin := h.startsWithin
        after := by simp
        increasing := h.increasing }
  · rintro ⟨hne, h⟩
    exact
      { ne_nil := hne
        names_nodup := h.names_nodup
        unbounded_first := fun i d hd hnone => (h.unbounded_first i d hd hnone).2
        startsWithin := h.startsWithin
        increasing := h.increasing }

theorem ofDefs?_eq_ok_iff :
    ofDefs? bound defs = .ok table ↔
      defs ≠ [] ∧ table.bound = bound ∧ erasFrom? bound [] defs = .ok table.eras := by
  unfold ofDefs?
  cases heras : erasFrom? bound [] defs with
  | error fault => simp
  | ok eras =>
      have hlength := length_erasFrom? heras
      cases eras with
      | nil =>
          have hnil : defs = [] := List.length_eq_zero_iff.mp hlength.symm
          simp [hnil]
      | cons first later =>
          have hne : defs ≠ [] := by
            rintro rfl
            cases hlength
          cases table
          simp only [Except.ok.injEq, EraTable.mk.injEq, hne, ne_eq, not_false_eq_true, true_and]
          exact and_congr_left fun _ => eq_comm

theorem exists_ofDefs?_iff :
    (∃ table, ofDefs? bound defs = .ok table) ↔ WellFormed bound defs := by
  rw [wellFormed_iff_continues, ← exists_erasFrom?_iff]
  simp only [ofDefs?_eq_ok_iff]
  constructor
  · rintro ⟨table, hne, -, heras⟩
    exact ⟨hne, table.eras, heras⟩
  · rintro ⟨hne, eras, heras⟩
    have hlength := length_erasFrom? heras
    have heras_ne : eras ≠ [] := by
      rintro rfl
      exact hne (List.length_eq_zero_iff.mp hlength.symm)
    exact ⟨⟨bound, eras, heras_ne⟩, hne, rfl, heras⟩

/-- What is not accepted has a fault. -/
theorem exists_fault_of_not_wellFormed (h : ¬ WellFormed bound defs) :
    ∃ fault, ofDefs? bound defs = .error (.table fault) := by
  rw [← exists_ofDefs?_iff] at h
  unfold ofDefs? at h ⊢
  cases heras : erasFrom? bound [] defs with
  | error fault => exact ⟨fault, rfl⟩
  | ok eras =>
      rw [heras] at h
      cases eras with
      | nil => exact ⟨.noEras, rfl⟩
      | cons first later => exact absurd ⟨_, rfl⟩ h

theorem forall₂_of_erasFrom? (h : erasFrom? bound before rest = .ok eras) :
    List.Forall₂ Era.IsOf eras rest := by
  induction rest generalizing before eras with
  | nil =>
      cases h
      exact List.Forall₂.nil
  | cons d rest ih =>
      obtain ⟨y, later, hy, hlater, rfl⟩ := (erasFrom?_cons_eq_ok_iff bound before d rest eras).mp h
      refine List.Forall₂.cons ⟨rfl, rfl, rfl, ?_⟩ (ih hlater)
      show y = _
      obtain ⟨-, ⟨hnone, -, rfl⟩ | ⟨t, ht, -, rfl⟩⟩ := (origin?_eq_ok_iff bound before d y).mp hy
      · rw [hnone]
        rfl
      · rw [ht]
        rfl

/-! ## Faults in words -/

/-- A year is written with no more digits than an instant in it. -/
theorem isWritable_yearOfInstant (h : Text.isWritable t = true) :
    Text.isWritable (yearOfInstant t) = true := by
  have hdigits : 5 ≤ Text.digitLimit := by decide
  have hpow := Nat.pow_le_pow_right (n := 10) (by decide) hdigits
  have hthousands : Nat.pow 10 5 = 100000 := rfl
  rw [← Nat.pow_eq, ← Nat.pow_eq, hthousands] at hpow
  have hyear := (Gregorian.isValid_ofDayNumber (dayOfInstant t)).mem_year
  rw [Gregorian.dayNumber_ofDayNumber] at hyear
  unfold Text.isWritable at h ⊢
  rw [decide_eq_true_eq] at h ⊢
  unfold yearOfInstant
  -- The limit itself is too long to be computed with.
  generalize Nat.pow 10 Text.digitLimit = limit at h hpow ⊢
  generalize (Gregorian.ofDayNumber (dayOfInstant t)).year = y at hyear ⊢
  have hthis : Gregorian.dayNumber y 1 1 =
      Gregorian.daysToMarch (y - 1) + 306 + (Gregorian.marchZero - 1) + 1 := rfl
  have hnext : Gregorian.dayNumber (y + 1) 1 1 =
      Gregorian.daysToMarch (y + 1 - 1) + 306 + (Gregorian.marchZero - 1) + 1 := rfl
  rw [hthis, hnext] at hyear
  unfold Gregorian.daysToMarch Gregorian.marchZero dayOfInstant epochDay msPerDay at hyear
  omega

theorem isWritable_of_orderFault? (hd : d.IsWritable) (hbefore : ∀ p ∈ before, p.IsWritable)
    (ht : d.since = some t) (h : orderFault? before d t = some fault) :
    ∀ k ∈ fault.numbers, Text.isWritable k = true := by
  cases before with
  | nil => cases h
  | cons p before =>
      unfold orderFault? at h
      cases hp : p.since with
      | none => simp [hp] at h
      | some s =>
          simp only [hp] at h
          split at h
          · cases h
            simp [TableFault.numbers, hd.1 t ht, (hbefore p (by simp)).1 s hp]
          · cases h

theorem isWritable_of_originFault? (hd : d.IsWritable) (ht : d.since = some t)
    (h : originFault? d t = some fault) : ∀ k ∈ fault.numbers, Text.isWritable k = true := by
  unfold originFault? at h
  cases hy : d.yearOrigin with
  | none => simp [hy] at h
  | some y =>
      simp only [hy] at h
      split at h
      · cases h
        simp [TableFault.numbers, hd.2 y hy, isWritable_yearOfInstant (hd.1 t ht)]
      · cases h

theorem isWritable_of_startFault? (hd : d.IsWritable) (hbefore : ∀ p ∈ before, p.IsWritable)
    (ht : d.since = some t) (h : startFault? bound before d t = some fault) :
    ∀ k ∈ fault.numbers, Text.isWritable k = true := by
  unfold startFault? at h
  split at h
  · cases h
    simp [TableFault.numbers, hd.1 t ht]
  · split at h
    next horder =>
      cases h
      exact isWritable_of_orderFault? hd hbefore ht horder
    next =>
      split at h
      · cases h
        simp [TableFault.numbers, hd.1 t ht]
      · exact isWritable_of_originFault? hd ht h

theorem isWritable_of_origin? (hd : d.IsWritable) (hbefore : ∀ p ∈ before, p.IsWritable)
    (h : origin? bound before d = .error fault) :
    ∀ k ∈ fault.numbers, Text.isWritable k = true := by
  unfold origin? at h
  split at h
  · cases h
    simp [TableFault.numbers]
  · split at h
    next =>
      split at h
      · cases h
        simp [TableFault.numbers]
      · cases h
    next t ht =>
      split at h
      next hstart =>
        cases h
        exact isWritable_of_startFault? hd hbefore ht hstart
      next => cases h

theorem isWritable_of_erasFrom? (hbefore : ∀ p ∈ before, p.IsWritable)
    (hrest : ∀ d ∈ rest, d.IsWritable) (h : erasFrom? bound before rest = .error fault) :
    ∀ k ∈ fault.numbers, Text.isWritable k = true := by
  induction rest generalizing before with
  | nil => cases h
  | cons d rest ih =>
      have hd := hrest d (by simp)
      rw [erasFrom?] at h
      cases hy : origin? bound before d with
      | error first =>
          rw [hy] at h
          cases h
          exact isWritable_of_origin? hd hbefore hy
      | ok y =>
          cases hlater : erasFrom? bound (d :: before) rest with
          | error later =>
              rw [hy] at h
              simp only [hlater, bind, Except.bind] at h
              cases h
              refine ih ?_ (fun d' hd' => hrest d' (by simp [hd'])) hlater
              simpa using ⟨hd, hbefore⟩
          | ok later =>
              rw [hy] at h
              simp only [hlater, bind, Except.bind] at h
              cases h

/-- A fault of definitions that can be written can be written as well. -/
theorem isWritable_of_ofDefs? (hdefs : ∀ d ∈ defs, d.IsWritable)
    (h : ofDefs? bound defs = .error (.table fault)) :
    ∀ k ∈ fault.numbers, Text.isWritable k = true := by
  unfold ofDefs? at h
  split at h
  next heras =>
    cases h
    exact isWritable_of_erasFrom? (by simp) hdefs heras
  next =>
    cases h
    simp [TableFault.numbers]
  next => cases h

/-- A fault is reported unless it has a number that is too long to be written. -/
theorem reported_table (fault : TableFault) :
    (Error.table fault).reported =
      if ∀ k ∈ fault.numbers, Text.isWritable k = true then .table fault
      else .input .longNumber :=
  Error.reported_eq_ite (.table fault)

end EraTable

end EraChronology
