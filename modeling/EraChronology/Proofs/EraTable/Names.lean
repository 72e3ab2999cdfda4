import EraChronology.Proofs.Calendar.Dates
import EraChronology.Proofs.EraTable.Appended

set_option autoImplicit false

/-! # Looking eras up by name

An era is called by its name, and by its short name if it has one. Names of a table differ, but a
short name may also be another era's name or short name. What is found then is fixed by two rules
(`IsOrdered.byName?_eq_ok_iff`): names go before short names, and of equal short names the last era
counts. So every name finds its era, and a short name finds its era unless one of the rules takes it
away (`byName?_finds`). Nothing is found only where no era is called so
(`byName?_eq_error_iff`). An era that is appended changes no look-up but those of its own two names
(`Extends.byName?_of_ne`).
-/

namespace EraChronology

/-- The name of an era, or its short name if it has one. -/
def Era.IsCalled (e : Era) (name : String) : Prop := e.name = name ∨ e.abbr ≠ "" ∧ e.abbr = name

namespace EraTable

variable {table s t : EraTable} {e last : Era} {name : String}

/-! ## The last era with a property -/

theorem IsOrdered.pairwise_index (h : table.IsOrdered) :
    table.eras.Pairwise fun a b => a.index < b.index := by
  rw [List.pairwise_iff_getElem]
  intro i k hi hk hik
  have hindex := h.index_eq i _ (List.getElem?_eq_getElem hi)
  have hindex' := h.index_eq k _ (List.getElem?_eq_getElem hk)
  omega

theorem IsOrdered.le_of_getLast?_filter (h : table.IsOrdered) {p : Era → Bool}
    (hlast : (table.eras.filter p).getLast? = some e) {e' : Era} (he' : e' ∈ table.eras)
    (hp : p e' = true) : e'.index ≤ e.index := by
  obtain ⟨earlier, hsplit⟩ := List.getLast?_eq_some_iff.mp hlast
  have hsorted := h.pairwise_index.sublist (List.filter_sublist (p := p))
  have hmem : e' ∈ table.eras.filter p := List.mem_filter.mpr ⟨he', hp⟩
  rw [hsplit] at hsorted hmem
  rcases List.mem_append.mp hmem with hearlier | hsame
  · exact Int.le_of_lt ((List.pairwise_append.mp hsorted).2.2 e' hearlier e (by simp))
  · rw [List.mem_singleton.mp hsame]

theorem IsOrdered.getLast?_filter_eq_some_iff (h : table.IsOrdered) {p : Era → Bool} :
    (table.eras.filter p).getLast? = some e ↔
      e ∈ table.eras ∧ p e = true ∧ ∀ e' ∈ table.eras, p e' = true → e'.index ≤ e.index := by
  constructor
  · intro hlast
    obtain ⟨he, hp⟩ := List.mem_filter.mp (List.mem_of_getLast? hlast)
    exact ⟨he, hp, fun e' => h.le_of_getLast?_filter hlast⟩
  · rintro ⟨he, hp, hgreatest⟩
    cases hlast : (table.eras.filter p).getLast? with
    | none =>
        have hnone := List.filter_eq_nil_iff.mp (List.getLast?_eq_none_iff.mp hlast)
        exact absurd hp (hnone e he)
    | some found =>
        -- The last one comes no earlier than `e`, and no later.
        obtain ⟨hfound, hpfound⟩ := List.mem_filter.mp (List.mem_of_getLast? hlast)
        have hle := h.le_of_getLast?_filter hlast he hp
        have hge := hgreatest found hfound hpfound
        rw [h.eq_of_index_eq hfound he (Int.le_antisymm hge hle)]

/-! ## What is found -/

/-- The era of a name is found, or else the last one that has it for its short name. -/
theorem IsOrdered.byName?_eq_ok_iff (h : table.IsOrdered) :
    table.byName? name = .ok e ↔
      e ∈ table.eras ∧ (e.name = name ∨
        (∀ e' ∈ table.eras, e'.name ≠ name) ∧ e.abbr ≠ "" ∧ e.abbr = name ∧
          ∀ e' ∈ table.eras, e'.abbr = name → e'.index ≤ e.index) := by
  constructor
  · intro hfound
    have he := Calendar.byName?_mem hfound
    refine ⟨he, ?_⟩
    unfold byName? at hfound
    cases hname : table.eras.find? fun e => e.name = name with
    | some found =>
        rw [hname] at hfound
        cases hfound
        exact Or.inl (by simpa using List.find?_some hname)
    | none =>
        rw [hname] at hfound
        cases habbr : (table.eras.filter fun e => e.abbr ≠ "" ∧ e.abbr = name).getLast? with
        | none =>
            rw [habbr] at hfound
            cases hfound
        | some found =>
            rw [habbr] at hfound
            cases hfound
            -- The last of those that are called so is the one with the greatest position.
            obtain ⟨-, hcalled, hgreatest⟩ := h.getLast?_filter_eq_some_iff.mp habbr
            obtain ⟨hne, heq⟩ : e.abbr ≠ "" ∧ e.abbr = name := by simpa using hcalled
            refine Or.inr ⟨by simpa using hname, hne, heq, ?_⟩
            intro e' he' heq'
            exact hgreatest e' he' (decide_eq_true ⟨by rw [heq', ← heq]; exact hne, heq'⟩)
  · rintro ⟨he, rfl | ⟨hnone, hne, heq, hgreatest⟩⟩
    · exact Calendar.byName?_name h he
    · have hname : (table.eras.find? fun e => e.name = name) = none := by simpa using hnone
      have habbr : (table.eras.filter fun e => e.abbr ≠ "" ∧ e.abbr = name).getLast? = some e := by
        refine h.getLast?_filter_eq_some_iff.mpr ⟨he, decide_eq_true ⟨hne, heq⟩, ?_⟩
        intro e' he' hcalled
        exact hgreatest e' he' (of_decide_eq_true hcalled).2
      unfold byName?
      rw [hname, habbr]

theorem byName?_eq_error_iff :
    table.byName? name = .error (.era (.unknown name table.names)) ↔
      ∀ e ∈ table.eras, ¬ e.IsCalled name := by
  unfold byName? Era.IsCalled
  cases hname : table.eras.find? fun e => e.name = name with
  | some found =>
      have hfound : found.name = name := by simpa using List.find?_some hname
      simp only [reduceCtorEq, false_iff, Classical.not_forall, Classical.not_not]
      exact ⟨found, List.mem_of_find?_eq_some hname, Or.inl hfound⟩
  | none =>
      have hnone : ∀ e ∈ table.eras, e.name ≠ name := by simpa using hname
      cases habbr : (table.eras.filter fun e => e.abbr ≠ "" ∧ e.abbr = name).getLast? with
      | some found =>
          obtain ⟨hmem, hcalled⟩ := List.mem_filter.mp (List.mem_of_getLast? habbr)
          simp only [reduceCtorEq, false_iff, Classical.not_forall, Classical.not_not]
          exact ⟨found, hmem, Or.inr (of_decide_eq_true hcalled)⟩
      | none =>
          have hfilter := List.filter_eq_nil_iff.mp (List.getLast?_eq_none_iff.mp habbr)
          simp only [true_iff]
          rintro e he (hcalled | hcalled)
          · exact hnone e he hcalled
          · exact hfilter e he (decide_eq_true hcalled)

/-- A short name finds its era unless it is the name of another one or a later era has it too. -/
theorem IsOrdered.byName?_abbr_eq_ok_iff (h : table.IsOrdered) (he : e ∈ table.eras)
    (hne : e.abbr ≠ "") :
    table.byName? e.abbr = .ok e ↔
      e.name = e.abbr ∨ (∀ e' ∈ table.eras, e'.name ≠ e.abbr) ∧
        ∀ e' ∈ table.eras, e'.abbr = e.abbr → e'.index ≤ e.index := by
  rw [h.byName?_eq_ok_iff]
  constructor
  · rintro ⟨-, hname | ⟨hnone, -, -, hgreatest⟩⟩
    · exact Or.inl hname
    · exact Or.inr ⟨hnone, hgreatest⟩
  · rintro (hname | ⟨hnone, hgreatest⟩)
    · exact ⟨he, Or.inl hname⟩
    · exact ⟨he, Or.inr ⟨hnone, hne, rfl, hgreatest⟩⟩

/-! ## An appended era -/

/-- What is not a name of the new era finds the same era as before. -/
theorem Extends.byName?_of_ne (h : s.Extends t last) (hname : last.name ≠ name)
    (habbr : last.abbr ≠ name) (hfound : s.byName? name = .ok e) :
    t.byName? name = .ok e.closed := by
  -- Neither search sees the new era, and closing an era changes none of its names.
  have hfind : (t.eras.find? fun e => e.name = name) =
      (s.eras.find? fun e => e.name = name).map Era.closed := by
    rw [h.eras_eq, List.find?_append, List.find?_map]
    simp only [List.find?_singleton, hname, decide_false, Bool.false_eq_true, if_false,
      Option.or_none]
    rfl
  have hfilter : (t.eras.filter fun e => e.abbr ≠ "" ∧ e.abbr = name) =
      (s.eras.filter fun e => e.abbr ≠ "" ∧ e.abbr = name).map Era.closed := by
    rw [h.eras_eq, List.filter_append, List.filter_map]
    simp only [List.filter_singleton, habbr, and_false, decide_false, Bool.cond_false,
      List.append_nil]
    rfl
  unfold byName? at hfound ⊢
  rw [hfind, hfilter, List.getLast?_map]
  cases hbefore : s.eras.find? fun e => e.name = name with
  | some found =>
      rw [hbefore] at hfound
      cases hfound
      rfl
  | none =>
      rw [hbefore] at hfound
      cases hshort : (s.eras.filter fun e => e.abbr ≠ "" ∧ e.abbr = name).getLast? with
      | some found =>
          rw [hshort] at hfound
          cases hfound
          rfl
      | none =>
          rw [hshort] at hfound
          cases hfound

/-! ## Looking up -/

/-- Every name of an accepted table finds its era. A short name finds its era exactly when that is
the era's name as well, or else no era has it for its name and no later one for its short name. What
no era is called is unknown. After an era with any names is appended all this holds again, and what
is neither of its names finds the same era as before. -/
theorem byName?_finds {bound : Bound} {defs : List EraDef} (h : ofDefs? bound defs = .ok table) :
    (∀ e ∈ table.eras, table.byName? e.name = .ok e) ∧
    (∀ e ∈ table.eras, e.abbr ≠ "" →
      (table.byName? e.abbr = .ok e ↔
        e.name = e.abbr ∨ (∀ e' ∈ table.eras, e'.name ≠ e.abbr) ∧
          ∀ e' ∈ table.eras, e'.abbr = e.abbr → e'.index ≤ e.index)) ∧
    (∀ name, table.byName? name = .error (.era (.unknown name table.names)) ↔
      ∀ e ∈ table.eras, ¬ e.IsCalled name) ∧
    ∀ d table', ofDefs? bound (defs ++ [d]) = .ok table' →
      ∀ name e, name ≠ d.name → name ≠ d.abbr → table.byName? name = .ok e →
        table'.byName? name = .ok e.closed := by
  have hordered := (isOrdered_of_ofDefs? h).1
  refine ⟨?_, ?_, ?_, ?_⟩
  · intro e he
    exact Calendar.byName?_name hordered he
  · intro e he hne
    exact hordered.byName?_abbr_eq_ok_iff he hne
  · intro name
    exact byName?_eq_error_iff
  · intro d table' h' name e hname habbr hfound
    obtain ⟨last, hext, hlast⟩ := exists_extends_of_ofDefs? h h'
    obtain ⟨hlastName, hlastAbbr, -⟩ := hlast
    exact hext.byName?_of_ne (by rw [hlastName]; exact hname.symm)
      (by rw [hlastAbbr]; exact habbr.symm) hfound

/-- Announcing an era for the year 9999 leaves Reiwa where it was, under its short name. -/
theorem byName?_finds_reiwa :
    ∃ table table' reiwa, ofDefs? Spec.japanese.bound Spec.japanese.eras = .ok table ∧
      ofDefs? Spec.japanese.bound
        (Spec.japanese.eras ++ [⟨"NewEra", some 253374307200000, none, "N", by decide⟩]) =
          .ok table' ∧
      reiwa ∈ table.eras ∧ reiwa.abbr = "R" ∧ table.byName? "R" = .ok reiwa ∧
      table'.byName? "R" = .ok reiwa.closed := by
  refine ⟨_, _, _, rfl, rfl, @List.mem_of_getElem? _ _ 5 _ rfl, rfl, rfl, ?_⟩
  exact (@byName?_finds _ Spec.japanese.bound Spec.japanese.eras rfl).2.2.2
    ⟨"NewEra", some 253374307200000, none, "N", by decide⟩ _ rfl "R" _ (by decide) (by decide) rfl

/-- An announced era of the name `H` takes that name from Heisei. -/
theorem byName?_shortName_taken :
    ∃ table heisei, ofDefs? Spec.japanese.bound
        (Spec.japanese.eras ++ [⟨"H", some 253374307200000, none, "", by decide⟩]) = .ok table ∧
      heisei ∈ table.eras ∧ heisei.name = "Heisei" ∧ heisei.abbr = "H" ∧
      table.byName? heisei.abbr ≠ .ok heisei := by
  refine ⟨_, _, rfl, @List.mem_of_getElem? _ _ 4 _ rfl, rfl, rfl, ?_⟩
  decide

end EraTable

end EraChronology
