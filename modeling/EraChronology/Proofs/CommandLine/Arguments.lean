import EraChronology.CommandLine.Arguments
import EraChronology.Proofs.Except

set_option autoImplicit false

/-! # Reading an operand and options

A command line is read word by word. An option and its value stand in one word or in two, and
reading them adds the option to those that were read (`foldlM_words`); a run of options adds one
after the other (`foldlM_options`). So a command that takes one operand reads the operand and the
options after it as they stand, or does not understand the line (`read_operand_options`).

A word in the place of the operand that is no operand and does not ask for help has no chance
(`read_of_not_plain`): it is an option, and then there is no operand, or it makes operands of all
the words after it, and then there are too many.

Words that ask for help are the same wherever they stand (`classify_help`), and they come first: a
command sees none of them that stands before a word `--` (`lookForHelp_append`).
-/

namespace EraChronology.CommandLine

open Text

/-- An option with its value, in one word or in two. -/
structure GivenOption where
  name : String
  value : String
  /-- The value follows the name after an equals sign. -/
  joined : Bool

/-- A name of an option of one value that is given in full. -/
structure Grammar.Takes (g : Grammar) (name : String) : Prop where
  find_eq : g.options.find? (fun o => o.1 = name) = some (name, 1)
  hyphen : name.startsWith "-" = true
  ne_hyphen : name ≠ "-"
  ne_separator : name ≠ "--"
  ne_help : name ≠ "--help"
  no_equals : ∀ k ∈ g.known, '=' ∉ k.toList

namespace GivenOption

def words (o : GivenOption) : List String :=
  if o.joined then [o.name ++ "=" ++ o.value] else [o.name, o.value]

/-- What is read for the value of an option. A word of its own has to be plain. -/
def read? (g : Grammar) (o : GivenOption) : Except Ending (String × List (Option String)) :=
  if o.joined then .ok (o.name, [Reading.carried o.value])
  else if o.value = "--" ∨ classify g.known o.value ≠ .plain then .error .usage
  else .ok (o.name, [some o.value])

end GivenOption

theorem classify_of_not_hyphen {known : List String} {w : String}
    (h : ¬ "-".toList <+: w.toList) : classify known w = .plain := by
  have hstart : ¬ w.startsWith "-" = true := by rwa [String.startsWith_string_iff]
  exact if_pos (Or.inl hstart)

theorem joined_ne (name value : String) {word : String} (h : '=' ∉ word.toList) :
    name ++ "=" ++ value ≠ word := by
  intro heq
  have hequals : '=' ∈ (name ++ "=" ++ value).toList := by simp
  rw [heq] at hequals
  exact h hequals

namespace Grammar.Takes

variable {g : Grammar} {name : String}

theorem mem_known (h : g.Takes name) : name ∈ g.known :=
  List.mem_cons_of_mem _ (List.mem_map_of_mem (List.mem_of_find?_eq_some h.find_eq))

theorem classify_name (h : g.Takes name) : classify g.known name = .option name none := by
  have hword : ¬ (¬ name.startsWith "-" = true ∨ name = "-") :=
    not_or.mpr ⟨Classical.not_not.mpr h.hyphen, h.ne_hyphen⟩
  simp only [classify, if_neg hword, if_pos h.mem_known]

/-- The name ends at the first equals sign. -/
theorem nameAndValue_joined (h : g.Takes name) (value : String) :
    nameAndValue (name ++ "=" ++ value) = (name, some value) := by
  have hcut : cutFirst '=' (name ++ "=" ++ value).toList = some (name.toList, value.toList) := by
    have hchars : (name ++ "=" ++ value).toList = name.toList ++ '=' :: value.toList := by simp
    rw [hchars]
    exact cutFirst_append_cons (h.no_equals name h.mem_known) value.toList
  unfold nameAndValue
  rw [hcut]
  simp

theorem classify_joined (h : g.Takes name) (value : String) :
    classify g.known (name ++ "=" ++ value) = .option name (some value) := by
  have hunknown : name ++ "=" ++ value ∉ g.known :=
    fun hmem => joined_ne name value (h.no_equals _ hmem) rfl
  have hhyphen : (name ++ "=" ++ value).startsWith "-" = true := by
    have hname := h.hyphen
    rw [String.startsWith_string_iff] at hname ⊢
    simpa using hname.trans (List.prefix_append _ _)
  have hne : name ++ "=" ++ value ≠ "-" := joined_ne name value (by decide)
  have hword : ¬ (¬ (name ++ "=" ++ value).startsWith "-" = true ∨ name ++ "=" ++ value = "-") :=
    not_or.mpr ⟨Classical.not_not.mpr hhyphen, hne⟩
  simp only [classify, if_neg hword, h.nameAndValue_joined, if_neg hunknown, if_pos h.mem_known]

end Grammar.Takes

variable {g : Grammar} {r : Reading} {o : GivenOption} {os : List GivenOption}

/-! ## Options -/

/-- The next word may be an operand or an option. -/
structure Reading.IsReady (r : Reading) : Prop where
  pending : r.pending = none
  operandsOnly : r.operandsOnly = false
  help : r.help = false

/-- The name of an option leaves its value open. -/
theorem next_name {name : String} (h : g.Takes name) (hr : r.IsReady) :
    Reading.next g r name =
      .ok { r with pending := some (name, 1, []), afterOperand := false } := by
  simp only [Reading.next, hr.operandsOnly, hr.help, hr.pending, h.ne_separator, h.classify_name,
    Reading.takeOption, h.ne_help, h.find_eq, Reading.takeValue]
  rfl

theorem next_value {name : String} (hr : r.IsReady) (value : String) :
    Reading.next g { r with pending := some (name, 1, []), afterOperand := false } value =
      if value = "--" ∨ classify g.known value ≠ .plain then .error .usage
      else
        .ok { r with options := r.options ++ [(name, [some value])], afterOperand := false } := by
  have hclosed : { r with pending := none } = r := by rw [← hr.pending]
  simp only [Reading.next, hr.operandsOnly, hr.help, Reading.takeValue]
  rw [← hclosed]
  rfl

/-- Reading an option adds it to those that were read. -/
theorem foldlM_words (h : g.Takes o.name) (hr : r.IsReady) :
    o.words.foldlM (Reading.next g) r = (o.read? g).map fun v =>
      { r with options := r.options ++ [v], afterOperand := false } := by
  unfold GivenOption.words GivenOption.read?
  cases o.joined with
  | true =>
      have hne : o.name ++ "=" ++ o.value ≠ "--" := joined_ne o.name o.value (by decide)
      simp only [if_true, List.foldlM_cons, List.foldlM_nil, Reading.next, hr.operandsOnly, hr.help,
        hr.pending, hne, h.classify_joined o.value, Reading.takeOption, h.ne_help, h.find_eq,
        Reading.takeValue]
      rw [← hr.pending]
      rfl
  | false =>
      simp only [Bool.false_eq_true, if_false, List.foldlM_cons, List.foldlM_nil, next_name h hr,
        bind, Except.bind, next_value hr]
      by_cases hplain : o.value = "--" ∨ classify g.known o.value ≠ .plain
      · rw [if_pos hplain, if_pos hplain]
        rfl
      · rw [if_neg hplain, if_neg hplain]
        rfl

/-- Reading a run of options adds them one after the other. -/
theorem foldlM_options (h : ∀ o ∈ os, g.Takes o.name) (hr : r.IsReady) :
    (os.flatMap GivenOption.words).foldlM (Reading.next g) r =
      (os.mapM (GivenOption.read? g)).map fun vs =>
        { r with options := r.options ++ vs, afterOperand := r.afterOperand && os.isEmpty } := by
  induction os generalizing r with
  | nil => simp [pure, Except.pure, Except.map]
  | cons o os ih =>
      rw [List.flatMap_cons, List.foldlM_append, foldlM_words (h o (by simp)) hr, List.mapM_cons]
      cases o.read? g with
      | error e => rfl
      | ok v =>
          have hlater : ∀ o ∈ os, g.Takes o.name := fun o' ho' => h o' (by simp [ho'])
          have hready : Reading.IsReady
              { r with options := r.options ++ [v], afterOperand := false } :=
            ⟨hr.pending, hr.operandsOnly, hr.help⟩
          simp only [Except.map, bind, Except.bind]
          rw [ih hlater hready]
          cases os.mapM (GivenOption.read? g) with
          | error e => rfl
          | ok vs => simp [Except.map, pure, Except.pure]

/-- Every option is read under its own name. -/
theorem map_fst_of_mapM_read? {vs : List (String × List (Option String))}
    (h : os.mapM (GivenOption.read? g) = .ok vs) :
    vs.map Prod.fst = os.map GivenOption.name := by
  induction os generalizing vs with
  | nil =>
      cases h
      rfl
  | cons o os ih =>
      rw [List.mapM_cons] at h
      obtain ⟨v, hv, h⟩ := bind_eq_ok_iff.mp h
      obtain ⟨later, hlater, h⟩ := bind_eq_ok_iff.mp h
      rw [pure_eq_ok_iff] at h
      subst h
      have hname : v.1 = o.name := by
        unfold GivenOption.read? at hv
        split at hv
        · cases hv
          rfl
        · obtain ⟨-, hv⟩ := ite_error_eq_ok_iff.mp hv
          cases hv
          rfl
      rw [List.map_cons, List.map_cons, hname, ih hlater]

/-- An option that is not understood ends the line. -/
theorem usage_of_mapM_read? {e : Ending} (h : os.mapM (GivenOption.read? g) = .error e) :
    e = .usage := by
  obtain ⟨o, -, ho⟩ := exists_mem_of_mapM_eq_error h
  unfold GivenOption.read? at ho
  split at ho
  · cases ho
  · split at ho <;> cases ho
    rfl

/-- A value without a hyphen in front is read as it stands, in a word of its own or not. -/
theorem read?_of_not_hyphen (h : ¬ "-".toList <+: o.value.toList) :
    o.read? g = .ok (o.name, [some o.value]) := by
  have hne : o.value ≠ "--" := by
    intro heq
    rw [heq] at h
    exact h (by decide)
  unfold GivenOption.read?
  cases o.joined with
  | true => simp [Reading.carried, hne]
  | false => simp [classify_of_not_hyphen h, hne]

/-! ## The operand -/

/-- Where only operands are left, each word is one more. -/
theorem foldlM_operandsOnly (ws : List String) (h : r.operandsOnly = true) :
    ∃ r', ws.foldlM (Reading.next g) r = .ok r' ∧ r'.help = r.help ∧
      r'.operands.length = r.operands.length + ws.length := by
  induction ws generalizing r with
  | nil => exact ⟨r, rfl, rfl, rfl⟩
  | cons w ws ih =>
      have hnext : Reading.next g r w = .ok (r.takeOperand w) := by
        simp only [Reading.next, h, if_true]
      obtain ⟨r', hr', hhelp, hlength⟩ := ih (r := r.takeOperand w) h
      refine ⟨r', ?_, hhelp, ?_⟩
      · rw [List.foldlM_cons, hnext]
        exact hr'
      · rw [hlength]
        simp only [Reading.takeOperand, List.length_append, List.length_cons, List.length_nil]
        omega

structure Reading.HasNoOperand (r : Reading) : Prop where
  operands : r.operands = []
  operandsOnly : r.operandsOnly = false
  help : r.help = false

/-- The name of an option is no value. -/
theorem next_of_pending {name : String} {p : String × Nat × List (Option String)}
    (h : g.Takes name) (hpending : r.pending = some p) (hr : r.HasNoOperand) :
    Reading.next g r name = .error .usage := by
  simp [Reading.next, hpending, hr.operandsOnly, hr.help, h.classify_name]

/-- An option in the place of the operand is read, or ends the line. -/
theorem hasNoOperand_takeOption {name : String} (hname : name ≠ "--help")
    (value : Option String) :
    (∃ r, Reading.takeOption g {} name value = .ok r ∧ r.HasNoOperand) ∨
      Reading.takeOption g {} name value = .error .usage := by
  have htake : ∀ name missing values,
      (Reading.takeValue {} name missing values).HasNoOperand := by
    intro name missing values
    unfold Reading.takeValue
    split <;> exact ⟨rfl, rfl, rfl⟩
  unfold Reading.takeOption
  rw [if_neg hname]
  split
  · exact Or.inl ⟨_, rfl, rfl, rfl, rfl⟩
  · exact Or.inl ⟨_, rfl, htake _ _ _⟩
  · split
    · exact Or.inl ⟨_, rfl, htake _ _ _⟩
    · exact Or.inr rfl

/-- Options leave no operand behind them, whether or not a value was still open. -/
theorem foldlM_no_operand {first : GivenOption} (hfirst : g.Takes first.name)
    (hsplit : first.joined = false) (h : ∀ o ∈ os, g.Takes o.name) (hr : r.HasNoOperand) :
    (∃ r', ((first :: os).flatMap GivenOption.words).foldlM (Reading.next g) r = .ok r' ∧
        r'.HasNoOperand) ∨
      ((first :: os).flatMap GivenOption.words).foldlM (Reading.next g) r = .error .usage := by
  cases hpending : r.pending with
  | some p =>
      have hwords : (first :: os).flatMap GivenOption.words =
          first.name :: first.value :: os.flatMap GivenOption.words := by
        simp [GivenOption.words, hsplit]
      rw [hwords, List.foldlM_cons, next_of_pending hfirst hpending hr]
      exact Or.inr rfl
  | none =>
      have hall : ∀ o ∈ first :: os, g.Takes o.name := by
        simpa using ⟨hfirst, h⟩
      rw [foldlM_options hall ⟨hpending, hr.operandsOnly, hr.help⟩]
      cases hread : (first :: os).mapM (GivenOption.read? g) with
      | error e =>
          rw [usage_of_mapM_read? hread]
          exact Or.inr rfl
      | ok vs => exact Or.inl ⟨_, rfl, hr.operands, hr.operandsOnly, hr.help⟩

/-- A line that cannot be read, or only with another number of operands, is not understood. -/
theorem read_eq_usage {ws : List String}
    (h : (∃ r', ws.foldlM (Reading.next g) {} = .ok r' ∧ r'.help = false ∧
        r'.operands.length ≠ g.operands) ∨ ws.foldlM (Reading.next g) {} = .error .usage) :
    Arguments.read g ws = .error .usage := by
  unfold Arguments.read
  rcases h with ⟨r', hr', hhelp, hnumber⟩ | herror
  · have hincomplete : ¬ (r'.help || r'.isComplete g) = true := by
      simp [Reading.isComplete, hhelp, hnumber]
    rw [hr']
    simp only [bind, Except.bind]
    rw [if_neg hincomplete]
    rfl
  · rw [herror]
    rfl

section

variable {w : String} {first : GivenOption} (hone : g.operands = 1)
  (hfirst : g.Takes first.name) (hsplit : first.joined = false) (h : ∀ o ∈ os, g.Takes o.name)
  (hhelp : w ≠ "--" → ∀ value, classify g.known w ≠ .option "--help" value)
include hone hfirst hsplit h hhelp

/-- A word that is no operand does not stand for one. -/
theorem read_of_not_plain (hw : ¬ (w ≠ "--" ∧ classify g.known w = .plain)) :
    Arguments.read g (w :: (first :: os).flatMap GivenOption.words) = .error .usage := by
  refine read_eq_usage ?_
  rw [List.foldlM_cons]
  by_cases hseparator : w = "--"
  · -- Two operands at least: the words of the first option.
    obtain ⟨r', hr', hnohelp, hlength⟩ := foldlM_operandsOnly (g := g)
      (r := { operandsOnly := true, loose := true }) ((first :: os).flatMap GivenOption.words) rfl
    have hnext : Reading.next g {} w = .ok { operandsOnly := true, loose := true } := by
      simp [Reading.next, hseparator]
    have hmany : r'.operands.length ≠ g.operands := by
      rw [hlength, hone]
      simp [GivenOption.words, hsplit]
    rw [hnext]
    exact Or.inl ⟨r', hr', hnohelp, hmany⟩
  · cases hword : classify g.known w with
    | plain => exact absurd ⟨hseparator, hword⟩ hw
    | option name value =>
        have hname : name ≠ "--help" := by
          rintro rfl
          exact hhelp hseparator value hword
        have hnext : Reading.next g {} w = Reading.takeOption g {} name value := by
          simp [Reading.next, hword, hseparator]
        rw [hnext]
        -- An option takes the place of the operand, and the options after it leave none behind.
        rcases hasNoOperand_takeOption hname value with ⟨r, hr, hnone⟩ | herror
        · rw [hr]
          rcases foldlM_no_operand hfirst hsplit h hnone with ⟨r', hr', hnone'⟩ | herror
          · exact Or.inl ⟨r', hr', hnone'.help, by simp [hnone'.operands, hone]⟩
          · exact Or.inr herror
        · rw [herror]
          exact Or.inr rfl
    | ambiguous =>
        have hnext : Reading.next g {} w = .error .usage := by
          simp [Reading.next, hword, hseparator]
        rw [hnext]
        exact Or.inr rfl

/-- A command that takes one operand reads an operand and the options after it as they stand. -/
theorem read_operand_options :
    Arguments.read g (w :: (first :: os).flatMap GivenOption.words) =
      if w ≠ "--" ∧ classify g.known w = .plain then
        ((first :: os).mapM (GivenOption.read? g)).map fun vs =>
          { operands := [some w], options := vs }
      else .error .usage := by
  by_cases hw : w ≠ "--" ∧ classify g.known w = .plain
  · have hall : ∀ o ∈ first :: os, g.Takes o.name := by
      simpa using ⟨hfirst, h⟩
    have hnext : Reading.next g {} w = .ok { operands := [some w], afterOperand := true } := by
      simp [Reading.next, hw.2, hw.1, Reading.takeOperand]
    unfold Arguments.read
    rw [if_pos hw, List.foldlM_cons, hnext]
    simp only [bind, Except.bind]
    rw [foldlM_options hall ⟨rfl, rfl, rfl⟩]
    cases (first :: os).mapM (GivenOption.read? g) with
    | error e => rfl
    | ok vs =>
        simp only [Except.map, Reading.isComplete, hone]
        rfl
  · rw [if_neg hw, read_of_not_plain hone hfirst hsplit h hhelp hw]

end

/-! ## Help -/

variable {known : List String} {w name : String} {value : Option String}

theorem completions_help (g : Grammar) (name : String) :
    completions ["--help"] name =
      if "--help" ∈ completions g.known name then ["--help"] else [] := by
  have hknown : "--help" ∈ g.known := List.mem_cons_self
  unfold completions
  by_cases hlong : "--".toList.isPrefixOf name.toList = true
  · rw [if_pos hlong, if_pos hlong, List.filter_cons, List.filter_nil]
    simp only [List.mem_filter, hknown, true_and]
  · rw [if_neg hlong, if_neg hlong, if_neg List.not_mem_nil]

/-- An option is named by the word itself or by what stands before its equals sign, in full or
shortened; or the word begins with the short name of the option for help. -/
theorem classify_eq_option (h : classify known w = .option name value) :
    ¬ (¬ w.startsWith "-" = true ∨ w = "-") ∧
      (w = name ∨ (nameAndValue w).1 = name ∨ name ∈ completions known (nameAndValue w).1 ∨
        (afterShortHelp? w).isSome) := by
  by_cases hplain : ¬ w.startsWith "-" = true ∨ w = "-"
  · rw [classify, if_pos hplain] at h
    cases h
  simp only [classify, if_neg hplain] at h
  refine ⟨hplain, ?_⟩
  by_cases hknown : w ∈ known
  · rw [if_pos hknown] at h
    cases h
    exact .inl rfl
  by_cases hname : (nameAndValue w).1 ∈ known
  · rw [if_neg hknown, if_pos hname] at h
    cases h
    exact .inr (.inl rfl)
  rw [if_neg hknown, if_neg hname] at h
  split at h
  next full hfull =>
    cases h
    exact .inr (.inr (.inl (hfull ▸ List.mem_cons_self)))
  next => cases h
  next =>
    cases hshort : afterShortHelp? w with
    | some value => exact .inr (.inr (.inr rfl))
    | none =>
        simp only [hshort] at h
        split at h
        · cases h
        · cases h
          exact .inl rfl

/-- What asks for help where other options are known asks for it everywhere. -/
theorem classify_help (h : classify g.known w = .option "--help" value) :
    ∃ value, classify ["--help"] w = .option "--help" value := by
  obtain ⟨hword, hnamed⟩ := classify_eq_option h
  simp only [classify, if_neg hword, List.mem_singleton]
  by_cases hfull : w = "--help"
  · rw [if_pos hfull, hfull]
    exact ⟨none, rfl⟩
  rw [if_neg hfull]
  by_cases hname : (nameAndValue w).1 = "--help"
  · rw [if_pos hname, hname]
    exact ⟨_, rfl⟩
  rw [if_neg hname]
  -- The name is not given in full, so it is a shortened one, if not the short name.
  rw [completions_help g]
  by_cases hshortened : "--help" ∈ completions g.known (nameAndValue w).1
  · rw [if_pos hshortened]
    exact ⟨_, rfl⟩
  · obtain ⟨after, hafter⟩ : ∃ after, afterShortHelp? w = some after := by
      simpa [hfull, hname, hshortened, Option.isSome_iff_exists] using hnamed
    rw [if_neg hshortened, hafter]
    exact ⟨after, rfl⟩

/-- A word that asks for help, well-formed or not, is found. -/
theorem lookForHelp_cons_of_ok {ws : List String} (h : lookForHelp (w :: ws) = .ok ())
    (hw : w ≠ "--") (value : Option String) : classify g.known w ≠ .option "--help" value := by
  intro hword
  obtain ⟨value, hhelp⟩ := classify_help hword
  unfold lookForHelp at h
  rw [if_neg hw, hhelp] at h
  cases value <;> cases h

/-- Words that do not ask for help can follow any others. -/
theorem lookForHelp_append {ws later : List String} (h : lookForHelp later = .ok ()) :
    lookForHelp (ws ++ later) = lookForHelp ws := by
  induction ws with
  | nil => exact h
  | cons w ws ih =>
      rw [List.cons_append]
      unfold lookForHelp
      rw [ih]

end EraChronology.CommandLine
