import EraChronology.Proofs.EraTable.Acceptance
import EraChronology.Proofs.EraTable.Ownership
import EraChronology.Representable

set_option autoImplicit false

/-! # A table with an era appended

Appending a definition leaves the eras before it as they are, but closes the one that was open
(`erasFrom?_append_singleton`). Of the longer table (`EraTable.Extends`) the representable range is
the same, and up to the start of the new era the eras are found at the same instants
(`Extends.eraAt_of_lt`). The era that was open ends on the day before that start; all others end
as before (`Extends.lastDay_closed`).
-/

namespace EraChronology

/-- The era as it is once another one follows. -/
def Era.closed (e : Era) : Era := { e with isOpen := false }

namespace EraTable

variable {bound : Bound} {before rest defs : List EraDef} {d : EraDef} {eras : List Era}
  {s t : EraTable} {e last : Era} {start u : Int}

/-- The table `t` is the table `s` with the era `last` after it. -/
structure Extends (s t : EraTable) (last : Era) : Prop where
  bound_eq : t.bound = s.bound
  eras_eq : t.eras = s.eras.map Era.closed ++ [last]

/-! ## Definitions -/

theorem closed_rowOf (before : List EraDef) (d : EraDef) (rest : List EraDef) (y : Int)
    (d' : EraDef) : (rowOf before d rest y).closed = rowOf before d (rest ++ [d']) y := by
  simp [rowOf, Era.closed]

theorem erasFrom?_append_singleton (h : erasFrom? bound before (rest ++ [d]) = .ok eras) :
    ∃ earlier last, erasFrom? bound before rest = .ok earlier ∧ last.IsOf d ∧
      eras = earlier.map Era.closed ++ [last] := by
  -- By the list read so far: `before` grows, and only a list that is at its end opens an era.
  induction rest generalizing before eras with
  | nil =>
      obtain ⟨last, later, hlast, hnil, rfl⟩ :=
        List.forall₂_cons_right_iff.mp (forall₂_of_erasFrom? h)
      cases hnil
      exact ⟨[], last, rfl, hlast, rfl⟩
  | cons d' rest ih =>
      obtain ⟨y, later, hy, hlater, rfl⟩ :=
        (erasFrom?_cons_eq_ok_iff bound before d' (rest ++ [d]) eras).mp h
      obtain ⟨earlier, last, hearlier, hlast, rfl⟩ := ih hlater
      refine ⟨rowOf before d' rest y :: earlier, last, ?_, hlast, ?_⟩
      · exact (erasFrom?_cons_eq_ok_iff bound before d' rest _).mpr ⟨y, earlier, hy, hearlier, rfl⟩
      · rw [List.map_cons, closed_rowOf, List.cons_append]

theorem exists_extends_of_ofDefs? (hs : ofDefs? bound defs = .ok s)
    (ht : ofDefs? bound (defs ++ [d]) = .ok t) : ∃ last, s.Extends t last ∧ last.IsOf d := by
  obtain ⟨-, hbound, heras⟩ := ofDefs?_eq_ok_iff.mp hs
  obtain ⟨-, hbound', heras'⟩ := ofDefs?_eq_ok_iff.mp ht
  obtain ⟨earlier, last, hearlier, hlast, hsplit⟩ := erasFrom?_append_singleton heras'
  rw [heras, Except.ok.injEq] at hearlier
  subst hearlier
  exact ⟨last, ⟨hbound'.trans hbound.symm, hsplit⟩, hlast⟩

/-! ## Positions -/

namespace Extends

theorem getElem?_last (h : s.Extends t last) : t.eras[s.eras.length]? = some last := by
  rw [h.eras_eq, List.getElem?_append_right (by simp)]
  simp

theorem last_mem (h : s.Extends t last) : last ∈ t.eras := List.mem_of_getElem? h.getElem?_last

theorem closed_mem (h : s.Extends t last) (he : e ∈ s.eras) : e.closed ∈ t.eras := by
  rw [h.eras_eq]
  exact List.mem_append_left _ (List.mem_map_of_mem he)

theorem openEra_eq (h : s.Extends t last) : t.openEra = last := by
  simp [openEra, h.eras_eq]

theorem exists_start (h : s.Extends t last) (ht : t.IsOrdered) :
    ∃ start, last.since = some start := by
  have hlength := List.length_pos_iff.mpr s.eras_ne_nil
  have hlast := ht.index_eq _ _ h.getElem?_last
  have hfirst := ht.first_index
  obtain ⟨start, hstart, -⟩ := ht.precedes_of_index_lt (first_mem t) h.last_mem (by omega)
  exact ⟨start, hstart⟩

/-- The eras of the shorter table all start before the new one. -/
theorem closed_precedes (h : s.Extends t last) (ht : t.IsOrdered) (he : e ∈ s.eras) :
    e.closed.Precedes last := by
  have hprecedes := ht.precedes
  rw [h.eras_eq] at hprecedes
  exact (List.pairwise_append.mp hprecedes).2.2 _ (List.mem_map_of_mem he) _ (by simp)

theorem first_eq (h : s.Extends t last) : t.first = s.first.closed := by
  have hfirst := getElem?_first t
  have hlength := List.length_pos_iff.mpr s.eras_ne_nil
  rw [h.eras_eq, List.getElem?_append_left (by rwa [List.length_map]), List.getElem?_map,
    getElem?_first s] at hfirst
  exact (Option.some.inj hfirst).symm

/-! ## The representable range -/

theorem minInstant_eq (h : s.Extends t last) : t.minInstant = s.minInstant := by
  unfold minInstant
  rw [h.bound_eq, h.first_eq]
  rfl

theorem maxInstant_eq (h : s.Extends t last) : t.maxInstant = s.maxInstant :=
  congrArg Bound.ceiling h.bound_eq

theorem floorDay_eq (h : s.Extends t last) : t.floorDay = s.floorDay :=
  congrArg dayOfInstant h.minInstant_eq

theorem ceilingDay_eq (h : s.Extends t last) : t.ceilingDay = s.ceilingDay :=
  congrArg dayOfInstant h.maxInstant_eq

theorem checkInstant_eq (h : s.Extends t last) (u : Int) :
    t.checkInstant u = s.checkInstant u := by
  unfold checkInstant Represents
  simp only [h.minInstant_eq, h.maxInstant_eq]

/-! ## The era of an instant -/

/-- Before the new era the eras are as they were. -/
theorem eraAt_of_lt (h : s.Extends t last) (hstart : last.since = some start) (hu : u < start) :
    t.eraAt u = (s.eraAt u).closed := by
  have hnot : hasBegun u last = false := by
    simp [hasBegun, hstart, Int.not_le.mpr hu]
  have hbegun : t.eras.filter (hasBegun u) = (s.eras.filter (hasBegun u)).map Era.closed := by
    rw [h.eras_eq, List.filter_append, List.filter_map]
    simp only [List.filter_singleton, hnot, Bool.cond_false, List.append_nil]
    rfl
  unfold eraAt
  rw [hbegun, List.getLast?_map, h.first_eq]
  cases (s.eras.filter (hasBegun u)).getLast? <;> rfl

theorem eraAt_of_le (h : s.Extends t last) (hstart : last.since = some start) (hu : start ≤ u) :
    t.eraAt u = last := by
  have hbegun : hasBegun u last = true := by
    simp [hasBegun, hstart, hu]
  unfold eraAt
  rw [h.eras_eq, List.filter_append, List.filter_singleton, hbegun, Bool.cond_true,
    List.getLast?_append]
  rfl

/-! ## Ends -/

/-- The era that was open ends where the new one begins. The others end as before. -/
theorem lastDay_closed (h : s.Extends t last) (hs : s.IsOrdered) (ht : t.IsOrdered)
    (he : e ∈ s.eras) :
    s.lastDay e = .ok none ∧ t.lastDay e.closed = .ok (some (last.firstDay - 1)) ∨
      ∃ day, s.lastDay e = .ok (some day) ∧ t.lastDay e.closed = .ok (some day) := by
  have he' := h.closed_mem he
  obtain ⟨hopen, -⟩ | ⟨-, next', hnext', hindex', -, hend'⟩ := ht.lastDay_eq he'
  · cases hopen
  have hlast := ht.index_eq _ _ h.getElem?_last
  rcases hs.lastDay_eq he with ⟨hopen, hend⟩ | ⟨-, next, hnext, hindex, -, hend⟩
  · -- The era was the last, so the one after it is the new one.
    obtain ⟨i, hi, hposition⟩ := hs.exists_getElem? he
    have hlength := (hs.isOpen_iff i e hi).mp hopen
    have hsame : next' = last := by
      apply ht.eq_of_index_eq hnext' h.last_mem
      rw [hindex', hlast, ← hlength]
      show e.index + 1 = _
      omega
    exact Or.inl ⟨hend, by rw [hend', hsame]⟩
  · have hsame : next' = next.closed := by
      apply ht.eq_of_index_eq hnext' (h.closed_mem hnext)
      rw [hindex']
      exact hindex.symm
    exact Or.inr ⟨_, hend, by rw [hend', hsame]; rfl⟩

end Extends

end EraTable

end EraChronology
