import EraChronology.Text.NameMap
import EraChronology.Text.Numeral

set_option autoImplicit false

/-! # Reading back what was written

Parts that are joined by a separator are the parts a text is split into (`splitOn_intercalate`).
Trimming takes away the blanks that were put around a text (`trim_append`). In a map made of
bindings of different names each name has its own value (`find?_ofList`). The decimal of an integer
is a plain numeral with its value and its digits (`plainNumeral?_toString`).
-/

namespace EraChronology.Text

variable {sep : Char} {cs before after : List Char} {parts : List (List Char)}

/-! ## Separators -/

theorem splitOn_intercalate (hne : parts ≠ []) (h : ∀ part ∈ parts, sep ∉ part) :
    splitOn sep ([sep].intercalate parts) = parts := by
  induction parts with
  | nil => exact absurd rfl hne
  | cons part parts ih =>
      have hpart : sep ∉ part := h part (by simp)
      -- There is a separator after a part unless it is the last.
      cases parts with
      | nil =>
          rw [List.intercalate_singleton]
          exact splitOn_eq_singleton hpart
      | cons next parts =>
          have hlater : ∀ p ∈ next :: parts, sep ∉ p := fun p hp => h p (List.mem_cons_of_mem _ hp)
          rw [List.intercalate_cons_cons, List.append_assoc, List.singleton_append,
            splitOn_append_cons hpart, ih (by simp) hlater]

/-! ## Blanks -/

/-- A text without blanks at either end. -/
structure IsTrimmed (cs : List Char) : Prop where
  head : cs.head?.any isBlank = false
  last : cs.getLast?.any isBlank = false

theorem IsTrimmed.of_forall (h : ∀ c ∈ cs, isBlank c = false) : IsTrimmed cs := by
  constructor
  · rw [Option.any_eq_false]
    exact fun c hc => h c (List.mem_of_mem_head? hc)
  · rw [Option.any_eq_false]
    exact fun c hc => h c (List.mem_of_getLast? hc)

theorem isBlank_of_isDigit {c : Char} (h : c.isDigit = true) : isBlank c = false := by
  have hrange : 0x30 ≤ c.toNat ∧ c.toNat ≤ 0x39 := Char.isDigit_iff_toNat.mp h
  rw [isBlank, List.any_eq_false]
  intro range hmem
  have houtside : range.2 < 0x30 ∨ 0x39 < range.1 := by
    revert range
    decide
  rw [Bool.and_eq_true, decide_eq_true_eq, decide_eq_true_eq]
  omega

theorem dropWhile_append (hbefore : before.all isBlank = true)
    (hcs : cs.head?.any isBlank = false) : (before ++ cs).dropWhile isBlank = cs := by
  rw [List.dropWhile_append_of_pos (List.all_eq_true.mp hbefore)]
  cases cs with
  | nil => rfl
  | cons c cs => exact List.dropWhile_cons_of_neg (Bool.eq_false_iff.mp hcs)

theorem trim_append (hcs : IsTrimmed cs) (hbefore : before.all isBlank = true)
    (hafter : after.all isBlank = true) : trim (before ++ cs ++ after) = cs := by
  unfold trim trimWhile
  cases cs with
  | nil =>
      -- The blanks on both sides are one stretch, all of which is taken away from the front.
      have hblank : (before ++ after).all isBlank = true := by
        rw [List.all_append, hbefore, hafter]
        rfl
      have hnone : (before ++ after ++ []).dropWhile isBlank = [] := dropWhile_append hblank rfl
      rw [List.append_nil, ← List.append_nil (before ++ after), hnone]
      rfl
  | cons c cs =>
      have hfirst : (before ++ (c :: cs ++ after)).dropWhile isBlank = c :: cs ++ after :=
        dropWhile_append hbefore hcs.head
      have hreversed : after.reverse.all isBlank = true := by rw [List.all_reverse, hafter]
      have hlast : (c :: cs).reverse.head?.any isBlank = false := by
        rw [List.head?_reverse]
        exact hcs.last
      rw [List.append_assoc, hfirst, List.reverse_append, dropWhile_append hreversed hlast,
        List.reverse_reverse]

/-! ## Bindings -/

namespace NameMap

variable {α : Type} {m : NameMap α} {bindings : List (String × α)} {name : String} {value : α}

theorem find?_foldl_of_not_mem (h : name ∉ bindings.map Prod.fst) :
    (bindings.foldl (fun m binding => m.insert binding.1 binding.2) m).find? name =
      m.find? name := by
  induction bindings generalizing m with
  | nil => rfl
  | cons binding bindings ih =>
      rw [List.map_cons, List.mem_cons, not_or] at h
      rw [List.foldl_cons, ih h.2, find?_insert, if_neg (Ne.symm h.1)]

theorem find?_foldl_of_mem (hnodup : (bindings.map Prod.fst).Nodup) (h : (name, value) ∈ bindings) :
    (bindings.foldl (fun m binding => m.insert binding.1 binding.2) m).find? name =
      some value := by
  induction bindings generalizing m with
  | nil => cases h
  | cons binding bindings ih =>
      rw [List.map_cons, List.nodup_cons] at hnodup
      rw [List.foldl_cons]
      rcases List.mem_cons.mp h with rfl | h
      · rw [find?_foldl_of_not_mem hnodup.1, find?_insert, if_pos rfl]
      · exact ih hnodup.2 h

theorem find?_ofList (hnodup : (bindings.map Prod.fst).Nodup) (h : (name, value) ∈ bindings) :
    (ofList bindings).find? name = some value :=
  find?_foldl_of_mem hnodup h

theorem find?_ofList_eq_none (h : name ∉ bindings.map Prod.fst) :
    (ofList bindings).find? name = none :=
  find?_foldl_of_not_mem h

theorem mem_map_fst_of_mem_names (h : name ∈ (ofList bindings).names) :
    name ∈ bindings.map Prod.fst := by
  obtain ⟨entry, hentry, rfl⟩ := List.mem_map.mp h
  apply Classical.byContradiction
  intro hnot
  have hnone := find?_ofList_eq_none hnot
  rw [find?, Option.map_eq_none_iff, List.find?_eq_none] at hnone
  simpa using hnone entry hentry

end NameMap

/-! ## Decimals -/

/-- The digits of a decimal are digits, with the values they have in it. -/
theorem digitValue?_of_isDigit {c : Char} (h : c.isDigit = true) :
    digitValue? c = some (c.toNat - '0'.toNat) := by
  have hrange := Char.isDigit_iff_toNat.mp h
  have hrun : (decide (0x30 ≤ c.toNat) && decide (c.toNat ≤ 0x30 + 9)) = true := by
    rw [Bool.and_eq_true, decide_eq_true_eq, decide_eq_true_eq]
    exact hrange
  have hfirst : zeroDigits = 0x30 :: zeroDigits.tail := rfl
  unfold digitValue?
  rw [hfirst, List.find?_cons, hrun]
  rfl

theorem isDigit_of_mem_toDigits {n : Nat} {c : Char} (h : c ∈ Nat.toDigits 10 n) :
    c.isDigit = true :=
  Nat.isDigit_of_mem_toDigits (by decide) (by decide) h

theorem digitsValue_toDigits (n : Nat) : digitsValue (Nat.toDigits 10 n) = n := by
  have hsame : ∀ (cs : List Char) (value : Nat), (∀ c ∈ cs, c.isDigit = true) →
      cs.foldl (fun n c => 10 * n + (digitValue? c).getD 0) value =
        Nat.ofDigitChars 10 cs value := by
    intro cs
    induction cs with
    | nil => exact fun _ _ => Nat.ofDigitChars_nil.symm
    | cons c cs ih =>
        intro value h
        rw [List.foldl_cons, digitValue?_of_isDigit (h c (by simp)), Nat.ofDigitChars_cons]
        exact ih _ fun d hd => h d (List.mem_cons_of_mem _ hd)
  unfold digitsValue
  rw [hsame _ _ fun _ hc => isDigit_of_mem_toDigits hc, Nat.ofDigitChars_ten_toDigits]

theorem isDigitRow_toDigits (n : Nat) : isDigitRow (Nat.toDigits 10 n) = true := by
  have hall : (Nat.toDigits 10 n).all isDigit = true := by
    rw [List.all_eq_true]
    intro c hc
    unfold isDigit
    rw [digitValue?_of_isDigit (isDigit_of_mem_toDigits hc)]
    rfl
  have hne : (Nat.toDigits 10 n).isEmpty = false :=
    List.isEmpty_eq_false_iff.mpr Nat.toDigits_ne_nil
  unfold isDigitRow
  rw [hall, hne]
  rfl

theorem dropFinalNewline_of_digits {sign : List Char} (n : Nat) :
    dropFinalNewline (sign ++ Nat.toDigits 10 n) = sign ++ Nat.toDigits 10 n := by
  refine if_neg ?_
  intro hlast
  rw [List.getLast?_append, List.getLast?_eq_some_getLast Nat.toDigits_ne_nil] at hlast
  have hdigit : ((Nat.toDigits 10 n).getLast Nat.toDigits_ne_nil).isDigit = true :=
    isDigit_of_mem_toDigits (List.getLast_mem _)
  rw [Option.some.inj hlast] at hdigit
  revert hdigit
  decide

/-- The numeral that the decimal of an integer is. -/
def numeralOf (n : Int) : Numeral := ⟨decide (n < 0), Nat.toDigits 10 n.natAbs⟩

theorem toList_toString_of_neg {n : Int} (h : n < 0) :
    (toString n).toList = ['-'] ++ Nat.toDigits 10 n.natAbs := by
  have habs : (-n).toNat = n.natAbs := by omega
  rw [Int.toString_eq_repr, Int.repr_eq_if, if_neg (Int.not_le.mpr h), String.toList_append,
    Nat.toList_repr, habs]
  rfl

theorem toList_toString_of_nonneg {n : Int} (h : 0 ≤ n) :
    (toString n).toList = [] ++ Nat.toDigits 10 n.natAbs := by
  have habs : n.toNat = n.natAbs := by omega
  rw [Int.toString_eq_repr, Int.repr_eq_if, if_pos h, Nat.toList_repr, habs]
  rfl

/-- A decimal consists of digits and perhaps a sign. -/
theorem isDigit_of_mem_toString {n : Int} {c : Char} (h : c ∈ (toString n).toList) :
    c = '-' ∨ c.isDigit = true := by
  rcases Int.lt_or_le n 0 with hn | hn
  · rw [toList_toString_of_neg hn, List.singleton_append, List.mem_cons] at h
    exact h.imp_right isDigit_of_mem_toDigits
  · rw [toList_toString_of_nonneg hn] at h
    exact Or.inr (isDigit_of_mem_toDigits h)

theorem comma_not_mem_toString (n : Int) : ',' ∉ (toString n).toList := by
  intro h
  have hcomma : ¬ (',' = '-' ∨ ','.isDigit = true) := by decide
  exact hcomma (isDigit_of_mem_toString h)

theorem isTrimmed_toString (n : Int) : IsTrimmed (toString n).toList := by
  refine IsTrimmed.of_forall ?_
  intro c hc
  rcases isDigit_of_mem_toString hc with rfl | hdigit
  · decide
  · exact isBlank_of_isDigit hdigit

/-- The decimal of an integer is read as it is written. -/
theorem plainNumeral?_toString (n : Int) :
    plainNumeral? (toString n).toList = some (numeralOf n) := by
  have hrow := isDigitRow_toDigits n.natAbs
  unfold plainNumeral? numeralOf
  rcases Int.lt_or_le n 0 with hn | hn
  · rw [toList_toString_of_neg hn, dropFinalNewline_of_digits, decide_eq_true hn]
    exact if_pos hrow
  · rw [toList_toString_of_nonneg hn, dropFinalNewline_of_digits,
      decide_eq_false (Int.not_lt.mpr hn)]
    split
    next digits hdigits =>
      -- The first character is a digit, so it is no sign.
      have hmem : '-' ∈ [] ++ Nat.toDigits 10 n.natAbs := by
        rw [hdigits]
        exact List.mem_cons_self
      have hdigit : '-'.isDigit = true := isDigit_of_mem_toDigits hmem
      cases hdigit
    next => exact if_pos hrow

theorem value_numeralOf (n : Int) : (numeralOf n).value = n := by
  unfold numeralOf Numeral.value
  rw [digitsValue_toDigits]
  by_cases hn : n < 0
  · rw [if_pos (decide_eq_true hn)]
    omega
  · rw [if_neg (by simpa using hn)]
    omega

theorem length_numeralOf (n : Int) : (numeralOf n).digits.length = n.natAbs.repr.length := by
  rw [← String.length_toList, Nat.toList_repr]
  rfl

theorem isShort_numeralOf (n : Int) :
    (numeralOf n).isShort = true ↔ n.natAbs.repr.length ≤ digitLimit := by
  rw [← length_numeralOf]
  exact decide_eq_true_iff

end EraChronology.Text
