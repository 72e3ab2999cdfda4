import EraChronology.Proofs.EraTable.Acceptance
import EraChronology.Proofs.EraTable.Ownership
import EraChronology.Spec

set_option autoImplicit false

/-! # Eras share out the instants

An era owns the instants from its start up to the start of the next era (`EraTable.Owns`). In an
ordered table every instant that is not before the first era has exactly one owner, and that is
the era `eraAt` finds (`IsOrdered.owns_eraAt`, `IsOrdered.eq_of_owns`). Starts are midnights, so
all instants of a day have the same era (`IsOrdered.eraAt_eq_of_dayOfInstant_eq`).

`eraAt` looks through the eras. A search of the sorted starts alone comes to the same position
(`IsOrdered.at?_searchPosition`); it is shifted by one where the first era has no start.
-/

namespace EraChronology.EraTable

variable {table : EraTable} {e : Era} {t u : Int}

/-- The era has begun by the instant `t`, and the next era has not. A side of the era that is not
bounded does not count. -/
def Owns (table : EraTable) (e : Era) (t : Int) : Prop :=
  (∀ s, e.since = some s → s ≤ t) ∧
    ∃ next, table.nextStart e = .ok next ∧ ∀ s, next = some s → t < s

def starts (table : EraTable) : List Int := table.eras.filterMap Era.since

/-- The position of the era of an instant by its start: of the starts that are not after the
instant the last, or else the first era. A first era without a start comes before all starts. -/
def searchPosition (table : EraTable) (t : Int) : Int :=
  max ((table.starts.countP (· ≤ t) : Int) - 1 + if table.first.isProleptic then 1 else 0) 0

theorem hasBegun_iff : hasBegun t e = true ↔ ∀ s, e.since = some s → s ≤ t := by
  unfold hasBegun
  cases hs : e.since with
  | none => simp
  | some s => simp

theorem hasBegun_eraAt (hfirst : hasBegun t table.first = true) :
    hasBegun t (table.eraAt t) = true := by
  rcases table.eraAt_eq_first_or_hasBegun t with heq | hbegun
  · rw [heq]
    exact hfirst
  · exact hbegun

theorem countP_starts (eras : List Era) (t : Int) :
    (eras.filterMap Era.since).countP (· ≤ t) + eras.countP Era.isProleptic =
      eras.countP (hasBegun t) := by
  induction eras with
  | nil => rfl
  | cons e eras ih =>
      cases hs : e.since with
      | none =>
          rw [List.filterMap_cons_none hs, List.countP_cons, List.countP_cons, ← ih]
          simp [Era.isProleptic, hasBegun, hs]
          omega
      | some s =>
          rw [List.filterMap_cons_some hs, List.countP_cons, List.countP_cons, List.countP_cons,
            ← ih]
          simp only [Era.isProleptic, hasBegun, hs, Option.isNone_some, Bool.false_eq_true,
            if_false]
          omega

/-! ## Owners -/

namespace IsOrdered

variable (h : table.IsOrdered) {a b : Era}
include h

theorem owns_eraAt (hfirst : hasBegun t table.first = true) : table.Owns (table.eraAt t) t := by
  refine ⟨hasBegun_iff.mp (hasBegun_eraAt hfirst), ?_⟩
  rcases h.nextStart_eq (table.eraAt_mem t) with
    ⟨-, hstart⟩ | ⟨-, next, hnext, hindex, s, hs, hstart⟩
  · exact ⟨none, hstart, by simp⟩
  · refine ⟨some s, hstart, ?_⟩
    rintro _ ⟨rfl⟩
    have hnot := h.not_hasBegun_of_index_lt (t := t) hnext (by omega)
    simpa [hasBegun, hs] using hnot

/-- When a later era has begun, an era is over. -/
theorem not_owns_of_index_lt (ha : a ∈ table.eras) (hb : b ∈ table.eras)
    (hab : a.index < b.index) (hbegun : ∀ s, b.since = some s → s ≤ t) : ¬ table.Owns a t := by
  rintro ⟨-, next, hnext, hbefore⟩
  rcases h.nextStart_eq ha with ⟨hopen, -⟩ | ⟨-, later, hlater, hindex, u, hu, hstart⟩
  · obtain ⟨i, hi, hia⟩ := h.exists_getElem? ha
    obtain ⟨k, hk, hkb⟩ := h.exists_getElem? hb
    have hend := (h.isOpen_iff i a hi).mp hopen
    have hlt := (List.getElem?_eq_some_iff.mp hk).1
    omega
  · rw [hstart] at hnext
    cases hnext
    have htu := hbefore u rfl
    -- The next era is `b` itself or one before it.
    rcases Int.lt_or_eq_of_le (show later.index ≤ b.index by omega) with hlt | heq
    · obtain ⟨s, hs, hus⟩ := h.precedes_of_index_lt hlater hb hlt
      have := hus u hu
      have := hbegun s hs
      omega
    · have := hbegun u (by rw [← h.eq_of_index_eq hlater hb heq, hu])
      omega

theorem eq_of_owns (ha : a ∈ table.eras) (hb : b ∈ table.eras) (hta : table.Owns a t)
    (htb : table.Owns b t) : a = b := by
  rcases Int.lt_trichotomy a.index b.index with hlt | heq | hgt
  · exact absurd hta (h.not_owns_of_index_lt ha hb hlt htb.1)
  · exact h.eq_of_index_eq ha hb heq
  · exact absurd htb (h.not_owns_of_index_lt hb ha hgt hta.1)

/-- An era begins with a day, so by one instant of a day it has begun when by any other. -/
theorem hasBegun_eq_of_dayOfInstant_eq (he : e ∈ table.eras)
    (hday : dayOfInstant t = dayOfInstant u) : hasBegun t e = hasBegun u e := by
  unfold hasBegun
  cases hs : e.since with
  | none => rfl
  | some s =>
      rw [decide_eq_decide, ← midnight_dayOfInstant (h.startsWithin e he s hs).1,
        midnight_le_iff, midnight_le_iff, hday]

theorem eraAt_eq_of_dayOfInstant_eq (hday : dayOfInstant t = dayOfInstant u) :
    table.eraAt t = table.eraAt u := by
  unfold eraAt
  rw [List.filter_congr fun e he => h.hasBegun_eq_of_dayOfInstant_eq he hday]

/-! ## A search of the starts -/

/-- Only the first era may have no start. -/
theorem countP_isProleptic :
    table.eras.countP Era.isProleptic = if table.first.isProleptic then 1 else 0 := by
  have hsplit : table.first :: table.eras.tail = table.eras :=
    List.cons_head_tail table.eras_ne_nil
  have hprecedes := h.precedes
  rw [← hsplit, List.pairwise_cons] at hprecedes
  have htail : table.eras.tail.countP Era.isProleptic = 0 := by
    rw [List.countP_eq_zero]
    intro e he
    obtain ⟨s, hs, -⟩ := hprecedes.1 e he
    simp [Era.isProleptic, hs]
  rw [← hsplit, List.countP_cons, htail, Nat.zero_add]

/-- The eras that have begun are those up to the one of the instant, or none of them. -/
theorem countP_hasBegun (t : Int) :
    (table.eras.countP (hasBegun t) : Int) = (table.eraAt t).index + 1 ∨
      table.eras.countP (hasBegun t) = 0 ∧ (table.eraAt t).index = 0 := by
  obtain ⟨earlier, later, hsplit, hbegun, hlater⟩ := table.exists_append_eraAt t
  have hat : table.eras[earlier.length]? = some (table.eraAt t) := by
    rw [hsplit]
    simp
  have hindex := h.index_eq _ _ hat
  have hlater' : later.countP (hasBegun t) = 0 := List.countP_eq_zero.mpr hlater
  have hcount : table.eras.countP (hasBegun t) =
      earlier.countP (hasBegun t) + if hasBegun t (table.eraAt t) then 1 else 0 := by
    conv => lhs; rw [hsplit]
    rw [List.countP_append, List.countP_cons, hlater', Nat.zero_add]
  have hprecedes := h.precedes
  rw [hsplit, List.pairwise_append] at hprecedes
  by_cases hthis : hasBegun t (table.eraAt t) = true
  · -- An earlier era has begun before the era of the instant has.
    have hearlier : earlier.countP (hasBegun t) = earlier.length := by
      rw [List.countP_eq_length]
      intro e he
      obtain ⟨s, hs, horder⟩ := hprecedes.2.2 e he (table.eraAt t) (by simp)
      rw [hasBegun_iff] at hthis ⊢
      intro r hr
      have := hthis s hs
      have := horder r hr
      omega
    rw [if_pos hthis] at hcount
    exact Or.inl (by omega)
  · rcases hbegun with hnil | hbegun
    · subst hnil
      rw [if_neg hthis] at hcount
      exact Or.inr ⟨hcount, hindex⟩
    · exact absurd hbegun hthis

/-- Searching the starts leads to the era of an instant. -/
theorem at?_searchPosition (t : Int) :
    table.at? (table.searchPosition t) = .ok (table.eraAt t) := by
  have hcount := countP_starts table.eras t
  rw [h.countP_isProleptic] at hcount
  obtain ⟨i, hi, hindex⟩ := h.exists_getElem? (table.eraAt_mem t)
  have hposition : table.searchPosition t = i := by
    unfold searchPosition starts
    rcases h.countP_hasBegun t with hbegun | ⟨hnone, hfirst⟩ <;>
      cases hproleptic : table.first.isProleptic <;> rw [hproleptic] at hcount <;>
      simp only [if_true, if_false, Bool.false_eq_true] at hcount ⊢ <;> omega
  unfold at?
  rw [hposition]
  simp [hi]

end IsOrdered

/-! ## Tables of definitions -/

/-- The well-formed definitions are those that make a table, and what is wrong with others is
reported unless a number in its wording is too long to be written. In a table the eras share out
the instants, and looking up an instant finds the owner. -/
theorem ofDefs?_partition (bound : Bound) (defs : List EraDef) :
    ((∃ table, ofDefs? bound defs = .ok table) ↔ WellFormed bound defs) ∧
    (¬ WellFormed bound defs → ∃ fault, ofDefs? bound defs = .error (.table fault) ∧
      ((Error.table fault).reported =
        if ∀ k ∈ fault.numbers, Text.isWritable k = true then .table fault
        else .input .longNumber) ∧
      ((∀ d ∈ defs, d.IsWritable) → (Error.table fault).reported = .table fault)) ∧
    ∀ table, ofDefs? bound defs = .ok table →
      List.Forall₂ Era.IsOf table.eras defs ∧
      (∀ (i : Nat) (e : Era), table.eras[i]? = some e →
        e.index = i ∧ (e.isOpen = true ↔ i + 1 = table.eras.length)) ∧
      (∀ t, (∀ s, table.first.since = some s → s ≤ t) →
        (∃! e, e ∈ table.eras ∧ table.Owns e t) ∧
          table.eraAt t ∈ table.eras ∧ table.Owns (table.eraAt t) t) ∧
      (∀ t u, dayOfInstant t = dayOfInstant u → table.eraAt t = table.eraAt u) ∧
      ∀ t, table.at? (table.searchPosition t) = .ok (table.eraAt t) := by
  refine ⟨exists_ofDefs?_iff, ?_, ?_⟩
  · intro hmalformed
    obtain ⟨fault, hfault⟩ := exists_fault_of_not_wellFormed hmalformed
    refine ⟨fault, hfault, reported_table fault, ?_⟩
    intro hdefs
    rw [reported_table, if_pos (isWritable_of_ofDefs? hdefs hfault)]
  · intro table htable
    have h := (isOrdered_of_ofDefs? htable).1
    refine ⟨forall₂_of_erasFrom? (ofDefs?_eq_ok_iff.mp htable).2.2, ?_, ?_, ?_, ?_⟩
    · intro i e he
      exact ⟨h.index_eq i e he, h.isOpen_iff i e he⟩
    · intro t hfirst
      have howns := h.owns_eraAt (hasBegun_iff.mpr hfirst)
      refine ⟨⟨table.eraAt t, ⟨table.eraAt_mem t, howns⟩, ?_⟩, table.eraAt_mem t, howns⟩
      rintro e ⟨he, hte⟩
      exact h.eq_of_owns he (table.eraAt_mem t) hte howns
    · intro t u hday
      exact h.eraAt_eq_of_dayOfInstant_eq hday
    · intro t
      exact h.at?_searchPosition t

/-- The last instant before Heisei belongs to Showa and to no other era. -/
theorem owner_before_heisei :
    ∃ table, ofDefs? Bound.standard Spec.japanese.eras = .ok table ∧
      (∃! e, e ∈ table.eras ∧ table.Owns e 600220799999) ∧
      (table.eraAt 600220799999).name = "Showa" := by
  refine ⟨_, rfl, ?_, rfl⟩
  exact (((ofDefs?_partition Bound.standard Spec.japanese.eras).2.2 _ rfl).2.2.1 600220799999
    (by decide)).1

/-- An era that starts far past the ceiling. -/
def farStart : EraDef :=
  ⟨"Far", some (msPerDay * Int.pow 10 Text.digitLimit), none, "", by decide⟩

/-- Its fault cannot be put into words. -/
theorem reported_farStart :
    ∃ fault, ofDefs? Bound.standard [farStart] = .error (.table fault) ∧
      (Error.table fault).reported = .input .longNumber := by
  have hfault : erasFrom? Bound.standard [] [farStart] =
      .error (.outsideBound "Far" (msPerDay * Int.pow 10 Text.digitLimit)) := by
    decide +kernel
  refine ⟨.outsideBound "Far" (msPerDay * Int.pow 10 Text.digitLimit), ?_, by decide +kernel⟩
  unfold ofDefs?
  rw [hfault]

end EraChronology.EraTable
