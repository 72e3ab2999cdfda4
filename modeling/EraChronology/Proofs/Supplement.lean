import EraChronology.Proofs.Calendar.Agreement
import EraChronology.Proofs.EraTable.Acceptance
import EraChronology.Supplement

set_option autoImplicit false

/-! # Supplemental eras are harmless

A line of text is read as the announcement of an era, and the era is tried on the table. Whatever
goes wrong on the way is an error about a value: the line is no announcement
(`Supplement.exists_fault_of_parse`) or the definitions have a fault
(`EraTable.exists_fault_of_not_wellFormed`). `Spec.supplemented?` passes over such errors and raises
all others; there are no others, so it always ends well (`Spec.supplemented?_eq`).

A table that builds therefore still builds with a line (`Spec.supplemented_cases`), and the built-in
calendars exist for every line: the Gregorian one is the preset one, and the Japanese one may only
have one more era (`Calendar.Prolongs`).
-/

namespace EraChronology

/-! ## Announcements -/

namespace Supplement

open Text

variable {part line : List Char} {items : NameMap String} {name abbr : String}
  {since yearOrigin : Option Int} {e : Error}

theorem exists_fault_of_item? (h : item? part = .error e) : ∃ fault, e = .input fault := by
  unfold item? at h
  split at h
  · cases h
  · cases h
    exact ⟨_, rfl⟩

theorem exists_fault_of_items? (h : items? line = .error e) : ∃ fault, e = .input fault := by
  obtain ⟨part, -, hpart⟩ := exists_mem_of_mapM_eq_error (map_eq_error_iff.mp h)
  exact exists_fault_of_item? hpart

theorem exists_fault_of_ofParts? (h : EraDef.ofParts? name since yearOrigin abbr = .error e) :
    ∃ fault, e = .input fault := by
  unfold EraDef.ofParts? at h
  split at h
  · cases h
  · cases h
    exact ⟨_, rfl⟩

theorem exists_fault_of_eraOfItems? (h : eraOfItems? items = .error e) :
    ∃ fault, e = .input fault := by
  unfold eraOfItems? at h
  simp only [ne_eq] at h
  -- Each check of the items fails with an input of its own; the last one is that of the parts.
  split at h
  · cases h
    exact ⟨_, rfl⟩
  · split at h
    next =>
      cases h
      exact ⟨_, rfl⟩
    next numeral hstart =>
      split at h
      · cases h
        exact ⟨_, rfl⟩
      · split at h
        · cases h
          exact ⟨_, rfl⟩
        · exact exists_fault_of_ofParts? h

/-- A line that announces no era is an unacceptable input, and nothing else. -/
theorem exists_fault_of_parse {line : String} (h : parse line = .error e) :
    ∃ fault, e = .input fault := by
  rcases bind_eq_error_iff.mp h with h | ⟨items, -, h⟩
  · exact exists_fault_of_items? h
  · exact exists_fault_of_eraOfItems? h

theorem parse_empty : parse "" = .error (.input (.malformedItem "")) := rfl

end Supplement

/-! ## What is passed over -/

/-- The errors about values: of a malformed table, a date that does not exist, an unacceptable
input. -/
def Error.isValueFault : Error → Bool
  | .table _ | .date _ | .input _ => true
  | _ => false

theorem Error.isValueFault_reported {e : Error} (h : e.isValueFault = true) :
    e.reported.isValueFault = true := by
  unfold Error.reported
  split
  · exact h
  · rfl

namespace Spec

variable {spec : Spec} {line : String} {e : Error}

/-- The specification with the era that a line announces. -/
def extended? (spec : Spec) (line : String) : Except Error Spec := do
  let d ← Supplement.parse line
  let _ ← EraTable.ofDefs? spec.bound (spec.withEra d).eras
  return spec.withEra d

/-- The specification with the era that a line announces, or unchanged if the line is empty or the
era fails with an error about a value. Any other error is raised. -/
def supplemented? (spec : Spec) (line : String) : Except Error Spec :=
  if line = "" then .ok spec
  else
    match spec.extended? line with
    | .ok extended => .ok extended
    | .error e => if e.reported.isValueFault then .ok spec else .error e.reported

/-- An era that fails fails with an error about a value. -/
theorem isValueFault_of_extended? (h : spec.extended? line = .error e) :
    e.isValueFault = true := by
  rcases bind_eq_error_iff.mp h with hparse | ⟨d, -, h⟩
  · obtain ⟨fault, rfl⟩ := Supplement.exists_fault_of_parse hparse
    rfl
  · rcases bind_eq_error_iff.mp h with htable | ⟨table, -, h⟩
    · by_cases hwell : EraTable.WellFormed spec.bound (spec.withEra d).eras
      · obtain ⟨table, hok⟩ := EraTable.exists_ofDefs?_iff.mpr hwell
        rw [hok] at htable
        cases htable
      · obtain ⟨fault, hfault⟩ := EraTable.exists_fault_of_not_wellFormed hwell
        rw [hfault] at htable
        cases htable
        rfl
    · cases h

theorem supplemented_eq (spec : Spec) (line : String) :
    spec.supplemented line =
      if line = "" then spec else (spec.extended? line).toOption.getD spec := by
  unfold supplemented extended?
  cases Supplement.parse line with
  | error e => rfl
  | ok d =>
      simp only [bind, Except.bind]
      cases EraTable.ofDefs? spec.bound (spec.withEra d).eras <;> rfl

/-- No error is left to be raised. -/
theorem supplemented?_eq (spec : Spec) (line : String) :
    spec.supplemented? line = .ok (spec.supplemented line) := by
  rw [supplemented_eq]
  unfold supplemented?
  split
  · rfl
  · cases h : spec.extended? line with
    | ok extended => rfl
    | error e =>
        have hvalue := Error.isValueFault_reported (isValueFault_of_extended? h)
        show (if e.reported.isValueFault = true then _ else _) = _
        rw [if_pos hvalue]
        rfl

theorem extended?_eq_ok_iff {extended : Spec} :
    spec.extended? line = .ok extended ↔
      ∃ d, Supplement.parse line = .ok d ∧
        EraTable.WellFormed spec.bound (spec.eras ++ [d]) ∧ extended = spec.withEra d := by
  unfold extended?
  simp only [bind_eq_ok_iff, pure_eq_ok_iff, ← EraTable.exists_ofDefs?_iff]
  constructor
  · rintro ⟨d, hd, table, htable, rfl⟩
    exact ⟨d, hd, ⟨table, htable⟩, rfl⟩
  · rintro ⟨d, hd, ⟨table, htable⟩, rfl⟩
    exact ⟨d, hd, table, htable, rfl⟩

/-- A line either announces an era that fits, which is appended, or it changes nothing. -/
theorem supplemented_cases (spec : Spec) (line : String) :
    (∃ d, Supplement.parse line = .ok d ∧ EraTable.WellFormed spec.bound (spec.eras ++ [d]) ∧
        spec.supplemented line = spec.withEra d) ∨
      (∀ d, Supplement.parse line = .ok d →
        ¬ EraTable.WellFormed spec.bound (spec.eras ++ [d])) ∧ spec.supplemented line = spec := by
  rw [supplemented_eq]
  cases h : spec.extended? line with
  | ok extended =>
      obtain ⟨d, hd, hwell, rfl⟩ := extended?_eq_ok_iff.mp h
      have hline : line ≠ "" := by
        rintro rfl
        rw [Supplement.parse_empty] at hd
        cases hd
      exact Or.inl ⟨d, hd, hwell, if_neg hline⟩
  | error e =>
      refine Or.inr ⟨?_, ite_self spec⟩
      intro d hd hwell
      have hok := extended?_eq_ok_iff.mpr ⟨d, hd, hwell, rfl⟩
      rw [h] at hok
      cases hok

end Spec

/-! ## Calendars with a line -/

/-- The calendar `c` is the calendar `preset`, but for at most one more era after the others. These
are the same, except that the last of them may have been open. -/
structure Calendar.Prolongs (c preset : Calendar) : Prop where
  id_eq : c.id = preset.id
  weeks_eq : c.weeks = preset.weeks
  bound_eq : c.table.bound = preset.table.bound
  eras_prefix : preset.table.eras.map Era.closed <+: c.table.eras.map Era.closed
  length_le : c.table.eras.length ≤ preset.table.eras.length + 1

theorem Calendar.Prolongs.refl (c : Calendar) : c.Prolongs c :=
  ⟨rfl, rfl, rfl, List.prefix_refl _, Nat.le_succ _⟩

/-- A calendar that can be made can be made with any line. -/
theorem Calendar.exists_prolongs {spec : Spec} {preset : Calendar}
    (hpreset : ofSpec? spec = .ok preset) (line : String) :
    ∃ c, ofSpec? (spec.supplemented line) = .ok c ∧ c.Prolongs preset := by
  rcases spec.supplemented_cases line with ⟨d, -, hwell, heq⟩ | ⟨-, heq⟩
  · obtain ⟨table, htable⟩ := EraTable.exists_ofDefs?_iff.mpr hwell
    obtain ⟨hbefore, hweeks, hid⟩ := ofSpec?_eq_ok_iff.mp hpreset
    obtain ⟨last, hext, -⟩ := EraTable.exists_extends_of_ofDefs? hbefore htable
    refine ⟨⟨spec.id, table, preset.weeks⟩, ?_, ?_⟩
    · rw [heq]
      exact ofSpec?_eq_ok_iff.mpr ⟨htable, hweeks, rfl⟩
    · have hidem : Era.closed ∘ Era.closed = Era.closed := rfl
      exact
        { id_eq := hid.symm
          weeks_eq := rfl
          bound_eq := hext.bound_eq
          eras_prefix := by
            rw [hext.eras_eq, List.map_append, List.map_map, hidem]
            exact List.prefix_append _ _
          length_le := by
            rw [hext.eras_eq, List.length_append, List.length_map]
            exact Nat.le_refl _ }
  · rw [heq]
    exact ⟨preset, hpreset, Prolongs.refl preset⟩

end EraChronology
