import EraChronology.Almanac
import EraChronology.Proofs.Supplement

set_option autoImplicit false

/-! # The built-in calendars

There are two of them whatever line announces a supplemental era (`Registry.exists_builtIn?`), so a
registry can always be set up (`Registry.every_line_builds`).
-/

namespace EraChronology.Registry

theorem exists_builtIn? (line : String) :
    ∃ (gregorian preset japanese : Calendar) (r : Registry),
      Calendar.ofSpec? Spec.gregorian = .ok gregorian ∧
      Calendar.ofSpec? Spec.japanese = .ok preset ∧
      Calendar.ofSpec? (Spec.japanese.supplemented line) = .ok japanese ∧
      japanese.Prolongs preset ∧ builtIn? line = .ok r ∧
      r.entries = [("gregorian", gregorian), ("japanese", japanese)] := by
  obtain ⟨gregorian, hgregorian⟩ : ∃ c, Calendar.ofSpec? Spec.gregorian = .ok c := ⟨_, rfl⟩
  obtain ⟨preset, hpreset⟩ : ∃ c, Calendar.ofSpec? Spec.japanese = .ok c := ⟨_, rfl⟩
  obtain ⟨japanese, hjapanese, hprolongs⟩ := Calendar.exists_prolongs hpreset line
  have hr : builtIn? line =
      .ok (Text.NameMap.ofList [("gregorian", gregorian), ("japanese", japanese)]) := by
    unfold builtIn?
    rw [hgregorian, hjapanese]
    rfl
  refine ⟨gregorian, preset, japanese, _, hgregorian, hpreset, hjapanese, hprolongs, hr, ?_⟩
  have hname : "japanese" ≠ "gregorian" := by decide
  have horder : ¬ "japanese" < "gregorian" := by decide
  simp only [Text.NameMap.ofList, Text.NameMap.insert, Text.NameMap.insertEntry,
    Text.NameMap.empty, List.foldl_cons, List.foldl_nil, if_neg hname, if_neg horder]

/-- What is found by name among the built-in calendars. -/
theorem find?_of_entries {r : Registry} {gregorian japanese c : Calendar} {k : String}
    (hentries : r.entries = [("gregorian", gregorian), ("japanese", japanese)])
    (h : r.find? k = some c) :
    k = "gregorian" ∧ c = gregorian ∨ k = "japanese" ∧ c = japanese := by
  unfold Text.NameMap.find? at h
  rw [hentries, List.find?_cons, List.find?_cons] at h
  by_cases hgregorian : "gregorian" = k
  · rw [decide_eq_true hgregorian] at h
    exact Or.inl ⟨hgregorian.symm, (Option.some.inj h).symm⟩
  · rw [decide_eq_false hgregorian] at h
    by_cases hjapanese : "japanese" = k
    · rw [decide_eq_true hjapanese] at h
      exact Or.inr ⟨hjapanese.symm, (Option.some.inj h).symm⟩
    · rw [decide_eq_false hjapanese] at h
      cases h

/-- No line does any harm. A table that builds gets exactly the era that the line announces, if
that era fits, and is left alone otherwise; nothing is raised. So for every line there are the
Gregorian calendar as it is and the Japanese one, with at most one era after its six. -/
theorem every_line_builds (line : String) :
    (∀ (spec : Spec) (table : EraTable), EraTable.ofDefs? spec.bound spec.eras = .ok table →
      ∃ (result : Spec) (table' : EraTable), spec.supplemented? line = .ok result ∧
        ((∃ d, Supplement.parse line = .ok d ∧
            EraTable.WellFormed spec.bound (spec.eras ++ [d]) ∧ result = spec.withEra d) ∨
          (∀ d, Supplement.parse line = .ok d →
            ¬ EraTable.WellFormed spec.bound (spec.eras ++ [d])) ∧ result = spec) ∧
        EraTable.ofDefs? result.bound result.eras = .ok table') ∧
    ∃ (gregorian preset japanese : Calendar) (r : Registry),
      Calendar.ofSpec? Spec.gregorian = .ok gregorian ∧
      Calendar.ofSpec? Spec.japanese = .ok preset ∧
      Spec.japanese.supplemented? line >>= Calendar.ofSpec? = .ok japanese ∧
      builtIn? line = .ok r ∧ r.names = ["gregorian", "japanese"] ∧
      r.find? "gregorian" = some gregorian ∧ r.find? "japanese" = some japanese ∧
      preset.table.eras.length = 6 ∧ japanese.table.eras.length ≤ 7 ∧ japanese.Prolongs preset := by
  constructor
  · intro spec table htable
    have hcases := spec.supplemented_cases line
    -- The definitions with the era are well-formed, or there is the table they made before.
    have hbuilds : ∃ table', EraTable.ofDefs? (spec.supplemented line).bound
        (spec.supplemented line).eras = .ok table' := by
      rcases hcases with ⟨d, -, hwell, heq⟩ | ⟨-, heq⟩
      · rw [heq]
        exact EraTable.exists_ofDefs?_iff.mpr hwell
      · rw [heq]
        exact ⟨table, htable⟩
    obtain ⟨table', htable'⟩ := hbuilds
    exact ⟨_, table', spec.supplemented?_eq line, hcases, htable'⟩
  · obtain ⟨gregorian, preset, japanese, r, hgregorian, hpreset, hjapanese, hprolongs, hr,
      hentries⟩ := exists_builtIn? line
    have hsix : preset.table.eras.length = 6 := by
      cases hpreset
      rfl
    have hseven := hprolongs.length_le
    refine ⟨gregorian, preset, japanese, r, hgregorian, hpreset, ?_, hr, ?_, ?_, ?_, hsix, ?_,
      hprolongs⟩
    · rw [Spec.supplemented?_eq]
      exact hjapanese
    · simp [Text.NameMap.names, hentries]
    · simp [Text.NameMap.find?, hentries]
    · simp [Text.NameMap.find?, hentries]
    · omega

/-- An era announced for the year 9999 is the seventh of Japan. -/
theorem every_line_builds_newEra :
    ∃ table, EraTable.ofDefs? Spec.japanese.bound Spec.japanese.eras = .ok table ∧
      ∃ result table',
        Spec.japanese.supplemented? "name=NewEra,abbr=N,since=253374307200000" = .ok result ∧
          EraTable.ofDefs? result.bound result.eras = .ok table' ∧ table'.eras.length = 7 := by
  refine ⟨_, rfl, ?_⟩
  obtain ⟨result, table', hresult, -, htable'⟩ :=
    (every_line_builds "name=NewEra,abbr=N,since=253374307200000").1 Spec.japanese _ rfl
  refine ⟨result, table', hresult, htable', ?_⟩
  cases hresult
  cases htable'
  rfl

end EraChronology.Registry
