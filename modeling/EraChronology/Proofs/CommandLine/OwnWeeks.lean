import EraChronology.CommandLine.Commands
import EraChronology.Proofs.Calendar.AppendedEra
import EraChronology.Proofs.CommandLine.Arguments
import EraChronology.Proofs.Registry

set_option autoImplicit false

/-! # Giving a calendar its own week settings

A table of fields is asked for in the Japanese calendar, with any offsets and fields. Without week
settings the calendar that is registered answers (`run_tableOptions`). With week settings the
calendar is made anew from the built-in specification, even if the settings are those that the
specification has (`run_ownWeeks`). The calendar made anew lacks the era that a line of
text announced.

Nothing else differs between the two: the settings change nothing exactly when no era was announced
(`run_ownWeeks_iff`). What tells the calendars apart at any rate is the field that counts the eras,
whose last position the table shows at every point (`output_withEra_ne`).
-/

namespace EraChronology.CommandLine

open Command

inductive TableOption where
  | offset (value : String) (joined : Bool)
  | field (value : String) (joined : Bool)

def TableOption.given : TableOption → GivenOption
  | .offset value joined => ⟨"--offset", value, joined⟩
  | .field value joined => ⟨"--field", value, joined⟩

/-- The options of a table of fields in the Japanese calendar. -/
def tableOptions (options : List TableOption) : List GivenOption :=
  ⟨"--calendar", "japanese", false⟩ :: options.map TableOption.given

def tableLine (point : String) (options : List GivenOption) : List String :=
  "bounds" :: point :: options.flatMap GivenOption.words

/-- The week settings that the Japanese calendar has. -/
def ownWeeks : List GivenOption :=
  [⟨"--first-day-of-week", "1", false⟩, ⟨"--min-days", "1", false⟩]

def tableGrammar : Grammar :=
  ⟨1, [("--calendar", 1), ("--offset", 1), ("--field", 1), ("--first-day-of-week", 1),
    ("--min-days", 1)]⟩

/-- The arguments of a table of fields in the Japanese calendar, whose other options are `vs`. -/
def tableArguments (point : String) (vs : List (String × List (Option String))) : Arguments :=
  { operands := [some point], options := ("--calendar", [some "japanese"]) :: vs }

def ownWeeksRead : List (String × List (Option String)) :=
  [("--first-day-of-week", [some "1"]), ("--min-days", [some "1"])]

def Arguments.withOwnWeeks (args : Arguments) : Arguments :=
  { args with options := args.options ++ ownWeeksRead }

/-- Prints the table of fields at a point, once the calendar is known. -/
def printTable (c : Calendar) (point : String) (offset : Option Int)
    (fields : List (Option Field)) : Command Unit := do
  let t ← orFinish (readPoint point)
  let offset ← offsetAt c t offset
  let d ← attempt (c.resolve t offset)
  line (← attempt (FieldTable.title d))
  line FieldTable.heading
  for f in (if fields.isEmpty then Field.all.map some else fields) do
    let f ← need f
    line (← attempt (FieldTable.lineOf c d f))

/-- Prints the table of fields that the arguments ask for, whatever calendar they name. -/
def tableOf (c : Calendar) (args : Arguments) : Command Unit := do
  let offset ← orFinish (args.integer "--offset" 0)
  let fields ← orFinish ((args.texts "--field").mapM fieldArgument)
  printTable c (args.operand 0) offset fields

/-- Prints the table of fields that the words ask for, whatever calendar they name. -/
def readTable (c : Calendar) (words : List String) : Command Unit := do
  tableOf c (← orFinish (Arguments.read tableGrammar words))

/-- Prints the table of fields that a command line asks for, unless it asks for help. -/
def tableIn (c : Calendar) : List String → Command Unit := unlessHelp (readTable c)

variable {a : Almanac} {c preset : Calendar} {point : String} {options : List TableOption}

/-! ## Arguments -/

theorem takes_of_mem {name : String} (h : name ∈ tableGrammar.options.map Prod.fst) :
    tableGrammar.Takes name := by
  have hequals : ∀ k ∈ tableGrammar.known, '=' ∉ k.toList := by decide
  simp only [tableGrammar, List.map_cons, List.map_nil, List.mem_cons, List.not_mem_nil,
    or_false] at h
  rcases h with rfl | rfl | rfl | rfl | rfl
  all_goals
    exact
      { find_eq := rfl
        hyphen := String.startsWith_string_iff.mpr (by decide)
        ne_hyphen := by decide
        ne_separator := by decide
        ne_help := by decide
        no_equals := hequals }

theorem takes_of_mem_given {o : GivenOption} (h : o ∈ options.map TableOption.given) :
    tableGrammar.Takes o.name := by
  obtain ⟨option, -, rfl⟩ := List.mem_map.mp h
  cases option with
  | offset value joined => exact takes_of_mem (by decide : "--offset" ∈ _)
  | field value joined => exact takes_of_mem (by decide : "--field" ∈ _)

theorem takes_of_mem_ownWeeks {o : GivenOption} (h : o ∈ ownWeeks) :
    tableGrammar.Takes o.name :=
  takes_of_mem ((by decide : ∀ o ∈ ownWeeks, o.name ∈ tableGrammar.options.map Prod.fst) o h)

theorem mapM_read?_ownWeeks :
    ownWeeks.mapM (GivenOption.read? tableGrammar) = .ok ownWeeksRead := by
  have hplain : ∀ o ∈ ownWeeks, ¬ "-".toList <+: o.value.toList := by decide
  unfold ownWeeks at hplain ⊢
  rw [List.mapM_cons, read?_of_not_hyphen (hplain _ (by simp)), List.mapM_cons,
    read?_of_not_hyphen (hplain _ (by simp))]
  rfl

def NoHelp (point : String) : Prop :=
  point ≠ "--" → ∀ value, classify tableGrammar.known point ≠ .option "--help" value

theorem read_calendar {os : List GivenOption} (hpoint : NoHelp point)
    (h : ∀ o ∈ os, tableGrammar.Takes o.name) :
    Arguments.read tableGrammar
        (point :: (⟨"--calendar", "japanese", false⟩ :: os).flatMap GivenOption.words) =
      if point ≠ "--" ∧ classify tableGrammar.known point = .plain then
        (os.mapM (GivenOption.read? tableGrammar)).map (tableArguments point)
      else .error .usage := by
  let first : GivenOption := ⟨"--calendar", "japanese", false⟩
  have hfirst : tableGrammar.Takes first.name := takes_of_mem (by decide)
  rw [read_operand_options rfl hfirst rfl h hpoint, List.mapM_cons,
    read?_of_not_hyphen (by decide)]
  cases os.mapM (GivenOption.read? tableGrammar) <;> rfl

/-- The own week settings are read after the other options, or the line is not understood with them
nor without. -/
theorem read_tableOptions (hpoint : NoHelp point) (options : List TableOption) :
    (Arguments.read tableGrammar (point :: (tableOptions options).flatMap GivenOption.words) =
        .error .usage ∧
      Arguments.read tableGrammar
        (point :: (tableOptions options ++ ownWeeks).flatMap GivenOption.words) = .error .usage) ∨
    ∃ vs : List (String × List (Option String)), (∀ v ∈ vs, v.1 = "--offset" ∨ v.1 = "--field") ∧
      Arguments.read tableGrammar (point :: (tableOptions options).flatMap GivenOption.words) =
        .ok (tableArguments point vs) ∧
      Arguments.read tableGrammar
          (point :: (tableOptions options ++ ownWeeks).flatMap GivenOption.words) =
        .ok (tableArguments point vs).withOwnWeeks := by
  have hgiven : ∀ o ∈ options.map TableOption.given, tableGrammar.Takes o.name :=
    fun _ ho => takes_of_mem_given ho
  have hwith : ∀ o ∈ options.map TableOption.given ++ ownWeeks, tableGrammar.Takes o.name :=
    fun o ho => (List.mem_append.mp ho).elim takes_of_mem_given takes_of_mem_ownWeeks
  unfold tableOptions
  rw [List.cons_append, read_calendar hpoint hgiven, read_calendar hpoint hwith,
    List.mapM_append, mapM_read?_ownWeeks]
  -- Both lines fail alike at the point or at an option before the week settings.
  by_cases hpoint : point ≠ "--" ∧ classify tableGrammar.known point = .plain
  · rw [if_pos hpoint, if_pos hpoint]
    cases hvs : (options.map TableOption.given).mapM (GivenOption.read? tableGrammar) with
    | error e =>
        rw [usage_of_mapM_read? hvs]
        exact Or.inl ⟨rfl, rfl⟩
    | ok vs =>
        refine Or.inr ⟨vs, ?_, rfl, rfl⟩
        intro v hv
        have hname : v.1 ∈ (options.map TableOption.given).map GivenOption.name :=
          map_fst_of_mapM_read? hvs ▸ List.mem_map_of_mem hv
        rw [List.map_map] at hname
        obtain ⟨option, -, hname⟩ := List.mem_map.mp hname
        cases option with
        | offset value joined => exact Or.inl hname.symm
        | field value joined => exact Or.inr hname.symm
  · rw [if_neg hpoint, if_neg hpoint]
    exact Or.inl ⟨rfl, rfl⟩

/-! ## What the options say -/

variable {args : Arguments} {name : String} {vs : List (String × List (Option String))}

theorem valuesOf_withOwnWeeks (args : Arguments) (name : String) :
    args.withOwnWeeks.valuesOf name =
      args.valuesOf name ++ { args with options := ownWeeksRead }.valuesOf name := by
  simp [Arguments.valuesOf, Arguments.withOwnWeeks]

/-- The week settings say nothing about offsets, fields and the calendar. -/
theorem valuesOf_withOwnWeeks_of_ne (hday : name ≠ "--first-day-of-week")
    (hdays : name ≠ "--min-days") : args.withOwnWeeks.valuesOf name = args.valuesOf name := by
  have hnone : { args with options := ownWeeksRead }.valuesOf name = [] := by
    simp [Arguments.valuesOf, ownWeeksRead, hday.symm, hdays.symm]
  rw [valuesOf_withOwnWeeks, hnone, List.append_nil]

section

variable (hvs : ∀ v ∈ vs, v.1 = "--offset" ∨ v.1 = "--field")
include hvs

/-- Offsets and fields say nothing about the calendar and its weeks. -/
theorem valuesOf_tableArguments (hoffset : name ≠ "--offset") (hfield : name ≠ "--field") :
    (tableArguments point vs).valuesOf name =
      if "--calendar" = name then [[some "japanese"]] else [] := by
  have hnone : vs.filter (fun v => v.1 = name) = [] := by
    rw [List.filter_eq_nil_iff]
    intro v hv
    rcases hvs v hv with h | h
    · simpa [h] using hoffset.symm
    · simpa [h] using hfield.symm
  unfold Arguments.valuesOf tableArguments
  rw [List.filter_cons, hnone]
  by_cases hcalendar : "--calendar" = name
  · simp [hcalendar]
  · simp [hcalendar]

theorem calendarName_tableArguments :
    calendarName (tableArguments point vs) = some "japanese" := by
  unfold calendarName Arguments.text Arguments.texts
  rw [valuesOf_tableArguments hvs (by decide) (by decide)]
  rfl

theorem oneToSeven?_tableArguments (hoffset : name ≠ "--offset") (hfield : name ≠ "--field")
    (hcalendar : "--calendar" ≠ name) : (tableArguments point vs).oneToSeven? name = .ok none := by
  unfold Arguments.oneToSeven? Arguments.texts
  rw [valuesOf_tableArguments hvs hoffset hfield, if_neg hcalendar]
  rfl

theorem oneToSeven?_withOwnWeeks (hname : name ∈ ownWeeksRead.map Prod.fst) :
    (tableArguments point vs).withOwnWeeks.oneToSeven? name = .ok (some (some 1)) := by
  have hnames : name = "--first-day-of-week" ∨ name = "--min-days" := by
    simpa [ownWeeksRead] using hname
  unfold Arguments.oneToSeven? Arguments.texts
  rcases hnames with rfl | rfl
  all_goals
    rw [valuesOf_withOwnWeeks, valuesOf_tableArguments hvs (by decide) (by decide)]
    rfl

end

/-! ## The command -/

theorem orFinish_ok_bind {α β : Type} (x : α) (f : α → Command β) :
    orFinish (.ok x) >>= f = f x := rfl

theorem attempt_ok_bind {α β : Type} (x : α) (f : α → Command β) :
    attempt (.ok x) >>= f = f x := rfl

theorem boundsCommand_of_read {words : List String} {firstDay minimalDays : Option (Option Int)}
    (hread : Arguments.read tableGrammar words = .ok args) (hhelp : args.help = false)
    (hday : args.oneToSeven? "--first-day-of-week" = .ok firstDay)
    (hdays : args.oneToSeven? "--min-days" = .ok minimalDays)
    (hc : calendarWithWeeks a args firstDay minimalDays = orFinish (.ok c)) :
    boundsCommand a words = tableOf c args := by
  have hanswer : answerHelp args = pure () := by
    rw [answerHelp, hhelp]
    rfl
  unfold boundsCommand arguments
  unfold tableGrammar at hread
  simp only [hread, hday, hdays, hanswer, hc, orFinish_ok_bind, pure_bind]
  rfl

theorem boundsCommand_of_read_eq_error {words : List String} {e : Ending}
    (hread : Arguments.read tableGrammar words = .error e) :
    boundsCommand a words = finish e := by
  unfold boundsCommand arguments
  unfold tableGrammar at hread
  rw [hread]
  rfl

/-- The other options are read as without the week settings. -/
theorem tableOf_withOwnWeeks (c : Calendar) (args : Arguments) :
    tableOf c args.withOwnWeeks = tableOf c args := by
  unfold tableOf Arguments.integer Arguments.texts
  rw [valuesOf_withOwnWeeks_of_ne (by decide) (by decide),
    valuesOf_withOwnWeeks_of_ne (by decide) (by decide)]
  rfl

/-- Without week settings the table is about the calendar that is registered. -/
theorem boundsCommand_tableOptions {r : Registry} (hr : a.registry = some r)
    (hc : r.calendar? "japanese" = .ok c) (hpoint : NoHelp point) (options : List TableOption) :
    boundsCommand a (point :: (tableOptions options).flatMap GivenOption.words) =
      readTable c (point :: (tableOptions options).flatMap GivenOption.words) := by
  unfold readTable
  rcases read_tableOptions hpoint options with ⟨hread, -⟩ | ⟨vs, hvs, hread, -⟩
  · rw [hread, boundsCommand_of_read_eq_error hread]
    rfl
  · have hcalendar : calendarWithWeeks a (tableArguments point vs) none none =
        orFinish (.ok c) := by
      unfold calendarWithWeeks calendarOf Almanac.registry?
      rw [calendarName_tableArguments hvs, hr]
      simp only [Option.isNone_none, and_self, if_true]
      show attempt (r.calendar? "japanese") = _
      rw [hc]
      rfl
    rw [hread, orFinish_ok_bind]
    exact boundsCommand_of_read hread rfl
      (oneToSeven?_tableArguments hvs (by decide) (by decide) (by decide))
      (oneToSeven?_tableArguments hvs (by decide) (by decide) (by decide)) hcalendar

/-- With the own week settings the table is about the preset calendar. -/
theorem boundsCommand_ownWeeks (hpreset : Calendar.ofSpec? Spec.japanese = .ok preset)
    (hpoint : NoHelp point) (options : List TableOption) :
    boundsCommand a (point :: (tableOptions options ++ ownWeeks).flatMap GivenOption.words) =
      readTable preset (point :: (tableOptions options).flatMap GivenOption.words) := by
  unfold readTable
  rcases read_tableOptions hpoint options with ⟨hread, hread'⟩ | ⟨vs, hvs, hread, hread'⟩
  · rw [hread, boundsCommand_of_read_eq_error hread']
    rfl
  · have hcalendar : calendarWithWeeks a (tableArguments point vs).withOwnWeeks (some (some 1))
        (some (some 1)) = orFinish (.ok preset) := by
      have hname : calendarName (tableArguments point vs).withOwnWeeks = some "japanese" := by
        rw [← calendarName_tableArguments hvs]
        unfold calendarName Arguments.text Arguments.texts
        rw [valuesOf_withOwnWeeks_of_ne (by decide) (by decide)]
      unfold calendarWithWeeks
      rw [hname]
      show attempt (Calendar.ofSpec? Spec.japanese) = _
      rw [hpreset]
      rfl
    rw [hread, orFinish_ok_bind, ← tableOf_withOwnWeeks]
    exact boundsCommand_of_read hread' rfl (oneToSeven?_withOwnWeeks hvs (by decide))
      (oneToSeven?_withOwnWeeks hvs (by decide)) hcalendar

/-! ## The command line -/

theorem run_tableLine (a : Almanac) (point : String) (os : List GivenOption) :
    run a (tableLine point os) =
      Command.run (unlessHelp (boundsCommand a) (point :: os.flatMap GivenOption.words)) := by
  have hdate : isWrittenDate "bounds" = false := by decide
  have hplain : classify ["--help"] "bounds" = .plain := classify_of_not_hyphen (by decide)
  simp [run, tableLine, dispatch, leadingWord, hdate, hplain, orFinish]

/-- What follows the search for help matters only if none is asked for. -/
theorem unlessHelp_congr {command command' : List String → Command Unit}
    {words words' : List String} (hlook : lookForHelp words = lookForHelp words')
    (h : lookForHelp words = .ok () → command words = command' words') :
    unlessHelp command words = unlessHelp command' words' := by
  unfold unlessHelp
  rw [← hlook]
  cases hsearch : lookForHelp words with
  | error e => rfl
  | ok _ => rw [h hsearch]

theorem run_tableOptions {r : Registry} (hr : a.registry = some r)
    (hc : r.calendar? "japanese" = .ok c) (point : String) (options : List TableOption) :
    run a (tableLine point (tableOptions options)) =
      Command.run (tableIn c (point :: (tableOptions options).flatMap GivenOption.words)) := by
  rw [run_tableLine, tableIn, unlessHelp_congr rfl fun hlook =>
    boundsCommand_tableOptions hr hc (lookForHelp_cons_of_ok hlook) options]

theorem run_ownWeeks (hpreset : Calendar.ofSpec? Spec.japanese = .ok preset)
    (point : String) (options : List TableOption) :
    run a (tableLine point (tableOptions options ++ ownWeeks)) =
      Command.run (tableIn preset (point :: (tableOptions options).flatMap GivenOption.words)) := by
  have hnone : lookForHelp (ownWeeks.flatMap GivenOption.words) = .ok () :=
    eq_ok_of_toOption (by decide +kernel)
  have hsame : lookForHelp (point :: (tableOptions options ++ ownWeeks).flatMap
      GivenOption.words) = lookForHelp (point :: (tableOptions options).flatMap
      GivenOption.words) := by
    rw [List.flatMap_append, ← List.cons_append, lookForHelp_append hnone]
  rw [run_tableLine, tableIn, unlessHelp_congr hsame fun hlook =>
    boundsCommand_ownWeeks hpreset (lookForHelp_cons_of_ok hlook) options]

/-! ## The field that counts the eras -/

/-- Prints the row of the eras at the instant 0. -/
theorem output_tableIn_era {x : EraDate} {title text : String} (hx : c.resolve 0 0 = .ok x)
    (htitle : FieldTable.title x = .ok title) (htext : FieldTable.lineOf c x .era = .ok text) :
    (Command.run (tableIn c ("0" ::
        (tableOptions [.field "era" false]).flatMap GivenOption.words))).output =
      title ++ "\n" ++ FieldTable.heading ++ "\n" ++ text ++ "\n" := by
  have hread : Arguments.read tableGrammar ("0" ::
      (tableOptions [.field "era" false]).flatMap GivenOption.words) =
        .ok (tableArguments "0" [("--field", [some "era"])]) := by
    have hgiven : ∀ o ∈ [TableOption.field "era" false].map TableOption.given,
        tableGrammar.Takes o.name := fun _ ho => takes_of_mem_given ho
    have hplain : classify tableGrammar.known "0" = .plain := classify_of_not_hyphen (by decide)
    have hnone : NoHelp "0" := by
      intro _ value
      rw [hplain]
      exact Word.noConfusion
    unfold tableOptions
    rw [read_calendar hnone hgiven, if_pos ⟨by decide, hplain⟩, List.map_singleton, List.mapM_cons,
      read?_of_not_hyphen (by decide)]
    rfl
  have hpoint : readPoint "0" = .ok 0 := by rfl
  have hcheck : c.table.checkInstant 0 = .ok 0 :=
    Calendar.checkInstant_eq_ok_iff.mpr ⟨(Calendar.resolve_eq_ok_iff.mp hx).1, rfl⟩
  have hoffset : offsetAt c 0 (some 0) = orFinish (.ok 0) := by
    unfold offsetAt
    rw [hcheck]
    rfl
  have htable : tableOf c (tableArguments "0" [("--field", [some "era"])]) =
      printTable c "0" (some 0) [some .era] := by rfl
  have hlook : lookForHelp ("0" ::
      (tableOptions [.field "era" false]).flatMap GivenOption.words) = .ok () :=
    eq_ok_of_toOption (by decide +kernel)
  unfold tableIn unlessHelp readTable
  rw [hlook, orFinish_ok_bind, hread, orFinish_ok_bind, htable]
  unfold printTable
  simp only [hpoint, hoffset, hx, htitle, htext, orFinish_ok_bind, attempt_ok_bind,
    List.isEmpty_cons, Bool.false_eq_true, if_false, List.forIn_cons, List.forIn_nil, need,
    pure_bind, bind_assoc]
  show "" ++ title ++ "\n" ++ FieldTable.heading ++ "\n" ++ text ++ "\n" = _
  rw [String.empty_append]

/-- The row of the eras shows the position of the last one. -/
theorem lineOf_era (c : Calendar) (x : EraDate) :
    FieldTable.lineOf c x .era =
      FieldTable.line x.era.index
        ⟨.era, 0, 0, c.lastIndex, c.lastIndex, 0, c.lastIndex, false⟩ := by
  have hrange : c.fieldRange x .era =
      .ok ⟨.era, 0, 0, c.lastIndex, c.lastIndex, 0, c.lastIndex, false⟩ := rfl
  have hvalue : c.get x .era = .ok x.era.index := rfl
  unfold FieldTable.lineOf
  rw [hrange, hvalue]
  simp only [bind, Except.bind]

theorem resolve_zero (hpreset : Calendar.ofSpec? Spec.japanese = .ok preset) :
    ∃ x, preset.resolve 0 0 = .ok x ∧ x.era.index = 3 ∧
      FieldTable.title x = .ok "S45.01.01  (Showa 45, Gregorian 1970-01-01)" ∧
      FieldTable.title x.closed = .ok "S45.01.01  (Showa 45, Gregorian 1970-01-01)" := by
  cases hpreset
  exact ⟨_, rfl, rfl, eq_ok_of_toOption (by decide +kernel), eq_ok_of_toOption (by decide +kernel)⟩

/-- With an era appended to the Japanese calendar there is another last era, also at the instant 0,
which is long before. -/
theorem output_withEra_ne {d : EraDef} (hpreset : Calendar.ofSpec? Spec.japanese = .ok preset)
    (hc : Calendar.ofSpec? (Spec.japanese.withEra d) = .ok c) :
    (Command.run (tableIn preset ("0" ::
        (tableOptions [.field "era" false]).flatMap GivenOption.words))).output ≠
      (Command.run (tableIn c ("0" ::
        (tableOptions [.field "era" false]).flatMap GivenOption.words))).output := by
  have hordered := Calendar.isOrdered_of_ofSpec? hc
  obtain ⟨last, hextends, -⟩ := Calendar.exists_extends_of_ofSpec? hpreset hc
  obtain ⟨x, hx, hindex, htitle, htitle'⟩ := resolve_zero hpreset
  have hsix : preset.lastIndex = 5 := by
    cases hpreset
    rfl
  have hseven : c.lastIndex = 6 := by
    have hlength := congrArg List.length hextends.table.eras_eq
    unfold Calendar.lastIndex EraTable.size at hsix ⊢
    rw [List.length_append, List.length_map, List.length_singleton] at hlength
    omega
  have hreiwa : ⟨"Reiwa", "R", 5, some (Gregorian.since 2019 5 1), 2019, true⟩ ∈
      preset.table.eras := by
    cases hpreset
    decide
  obtain ⟨start, hstart, hlater⟩ := hextends.table.closed_precedes hordered hreiwa
  have hlate : 0 < start :=
    Int.lt_trans (by decide : 0 < Gregorian.since 2019 5 1) (hlater _ rfl)
  -- The instant lies before Reiwa, and so before any era that is appended.
  have hx' : c.resolve 0 0 = .ok x.closed := by
    rw [hextends.resolve_of_lt hordered hstart (by omega), hx]
    rfl
  -- The tables are equal up to the row of the eras, which shows another last position.
  have hrow : FieldTable.lineOf preset x .era =
      .ok (FieldTable.row "era" ["3", "0", "0", "0", "5", "5", "5"]) := by
    rw [lineOf_era, hindex, hsix]
    exact eq_ok_of_toOption (by decide +kernel)
  have hrow' : FieldTable.lineOf c x.closed .era =
      .ok (FieldTable.row "era" ["3", "0", "0", "0", "6", "6", "6"]) := by
    have hindex' : x.closed.era.index = 3 := hindex
    rw [lineOf_era, hindex', hseven]
    exact eq_ok_of_toOption (by decide +kernel)
  rw [output_tableIn_era hx htitle hrow, output_tableIn_era hx' htitle' hrow']
  decide +kernel

/-! ## With an announcement -/

/-- The almanac with a line answers with the calendar that is made with it. -/
theorem exists_almanac (line : String) :
    ∃ a c, Almanac.builtIn? line = .ok a ∧
      Calendar.ofSpec? (Spec.japanese.supplemented line) = .ok c ∧
      ∀ point options, run a (tableLine point (tableOptions options)) =
        Command.run (tableIn c (point :: (tableOptions options).flatMap GivenOption.words)) := by
  obtain ⟨gregorian, preset, japanese, r, -, -, hjapanese, -, hr, hentries⟩ :=
    Registry.exists_builtIn? line
  refine ⟨⟨some r, .standard⟩, japanese, ?_, hjapanese, ?_⟩
  · unfold Almanac.builtIn?
    rw [hr]
    rfl
  · intro point options
    have hfound : r.calendar? "japanese" = .ok japanese := by
      simp [Registry.calendar?, Text.NameMap.find?, hentries]
    exact run_tableOptions rfl hfound point options

/-- Whatever line announces a supplemental era, the table with the own week settings is that of the
Japanese calendar without it. So it is the table of the calendar that is registered, at every point
and for all offsets and fields, exactly when the line announces no era that fits. -/
theorem run_ownWeeks_iff (line : String) :
    ∃ a preset, Almanac.builtIn? line = .ok a ∧ Almanac.builtIn? "" = .ok preset ∧
      (∀ point options,
        run a (tableLine point (tableOptions options ++ ownWeeks)) =
          run preset (tableLine point (tableOptions options))) ∧
      ((∀ point options,
          run a (tableLine point (tableOptions options ++ ownWeeks)) =
            run a (tableLine point (tableOptions options))) ↔
        Spec.japanese.supplemented line = Spec.japanese) := by
  obtain ⟨a, registered, ha, hregistered, hrun⟩ := exists_almanac line
  obtain ⟨preset, unchanged, hpreset, hunchanged, hrun'⟩ := exists_almanac ""
  have hown : ∀ point options, run a (tableLine point (tableOptions options ++ ownWeeks)) =
      run preset (tableLine point (tableOptions options)) := by
    intro point options
    rw [run_ownWeeks hunchanged, hrun']
  refine ⟨a, preset, ha, hpreset, hown, ?_, ?_⟩
  · intro hsame
    -- With an era that fits the two tables would differ in the row of the eras.
    rcases Spec.japanese.supplemented_cases line with ⟨d, -, -, hwith⟩ | ⟨-, hwithout⟩
    · rw [hwith] at hregistered
      refine absurd ?_ (output_withEra_ne hunchanged hregistered)
      rw [← hrun', ← hrun, ← hown, hsame]
    · exact hwithout
  · intro hwithout point options
    rw [hwithout] at hregistered
    cases hunchanged.symm.trans hregistered
    rw [hown, hrun, hrun']

/-- A new era from 11 February 9999. On this day the table with the own week settings is about year
7981 of Reiwa, and the table without them about year 1 of the new era. -/
theorem run_ownWeeks_newEra :
    ∃ a, Almanac.builtIn? "name=NewEra,abbr=N,since=253374307200000" = .ok a ∧
      (run a (tableLine "9999-02-11" (tableOptions [.field "era" false] ++ ownWeeks))).output ≠
        (run a (tableLine "9999-02-11" (tableOptions [.field "era" false]))).output := by
  refine ⟨_, rfl, ?_⟩
  decide +kernel

end EraChronology.CommandLine
