import EraChronology.CommandLine.Console
import EraChronology.Text.Numeral

set_option autoImplicit false

/-! # Arguments

The words of a command line. A word that starts with a hyphen is the name of an option, which
may be shortened and may carry its value after an equals sign; but negative numbers, the
hyphen alone, and words with a blank that name no known option are plain, as are all others. An
option takes the plain words after it as its values; the remaining plain words are the operands.

The word `--` makes all words after it operands. It has to stand next to an operand, to which it
adds nothing. A second `--` is an operand: after a first one that belongs to the operand before
it, an operand without a value. Nor is there a value in an option that carries `--` with it.

A value that is missing is not checked: it passes for an integer or for a number in a range, and
is found missing when it is needed.

The option `--help`, with the short name `-h`, takes no value. It is known everywhere and ends a
command line where it stands.
-/

namespace EraChronology.CommandLine

open Text

/-! ## Words -/

/-- A negative number: digits after a minus sign, possibly with a point among or before them,
and a final newline being overlooked. -/
def isNegativeNumber (w : String) : Bool :=
  match dropFinalNewline w.toList with
  | '-' :: cs =>
    isDigitRow cs ||
      (match cutFirst '.' cs with
       | some (whole, fraction) => whole.all isDigit && isDigitRow fraction
       | none => false)
  | _ => false

inductive Word where
  | plain
  | option (name : String) (value : Option String)
  /-- A shortened name of several options. -/
  | ambiguous
deriving DecidableEq

/-- A word at its first equals sign: what may be the name of an option, and its value. -/
def nameAndValue (w : String) : String × Option String :=
  match cutFirst '=' w.toList with
  | some (name, value) => (String.ofList name, some (String.ofList value))
  | none => (w, none)

/-- The options among `known` that a name with two hyphens begins. -/
def completions (known : List String) (name : String) : List String :=
  if "--".toList.isPrefixOf name.toList then
    known.filter fun full => name.toList.isPrefixOf full.toList
  else []

/-- What stands after the short name of the option for help in a word that begins with it. The
short name may be repeated, also after an equals sign; anything else is a value, which this option
does not take. -/
def afterShortHelp? (w : String) : Option (Option String) :=
  match w.toList with
  | '-' :: 'h' :: cs =>
    let repeated :=
      match cs with
      | '=' :: c :: cs => c :: cs
      | cs => cs
    some (if repeated.all (· = 'h') then none else some (String.ofList cs))
  | _ => none

/-- What a word is where the options `known` are known. The name of an option may be shortened
as long as it begins only one of them. -/
def classify (known : List String) (w : String) : Word :=
  if ¬ w.startsWith "-" ∨ w = "-" then .plain
  else
    let (name, value) := nameAndValue w
    if w ∈ known then .option w none
    else if name ∈ known then .option name value
    else
      match completions known name with
      | [full] => .option full value
      | _ :: _ :: _ => .ambiguous
      | [] =>
        match afterShortHelp? w with
        | some value => .option "--help" value
        | none => if isNegativeNumber w || w.toList.contains ' ' then .plain else .option w none

/-- Looks for a word that asks for help where no other option is known. -/
def lookForHelp : List String → Except Ending Unit
  | [] => .ok ()
  | w :: rest =>
    if w = "--" then .ok ()
    else
      match classify ["--help"] w with
      | .option "--help" none => .error .help
      | .option "--help" (some _) => .error .usage
      | _ => lookForHelp rest

/-! ## Operands and options -/

/-- What a command takes: how many operands, and which options with how many values each. -/
structure Grammar where
  operands : Nat
  options : List (String × Nat)

/-- The options that are known, the one for help among them. -/
def Grammar.known (g : Grammar) : List String := "--help" :: g.options.map Prod.fst

/-- The operands and the options of a command line, in order. -/
structure Arguments where
  /-- The operands, of which some may have no value. -/
  operands : List (Option String)
  /-- The options with what stands for their values, of which some may be missing. -/
  options : List (String × List (Option String))
  /-- Help is asked for after these operands and options. -/
  help : Bool := false

/-- How far a command line has been read. -/
structure Reading where
  operands : List (Option String) := []
  options : List (String × List (Option String)) := []
  /-- An option that still needs values: its name, how many, and those it has. -/
  pending : Option (String × Nat × List (Option String)) := none
  /-- The word `--` has been read. -/
  operandsOnly : Bool := false
  /-- The word just read is an operand. -/
  afterOperand : Bool := false
  /-- The word `--` has been read next to no operand. -/
  loose : Bool := false
  /-- An option that is not known has been read. -/
  unknown : Bool := false
  /-- Help is asked for, so whatever comes next is not read any more. -/
  help : Bool := false

namespace Reading

def takeOperand (r : Reading) (w : String) : Reading :=
  let value := if w = "--" ∧ ¬ r.loose then none else some w
  { r with operands := r.operands ++ [value], afterOperand := true, loose := false }

/-- Reads a value of an option that still needs `missing` values. -/
def takeValue (r : Reading) (name : String) (missing : Nat) (values : List (Option String)) :
    Reading :=
  if missing = 0 then
    { r with options := r.options ++ [(name, values)], pending := none, afterOperand := false }
  else { r with pending := some (name, missing, values), afterOperand := false }

/-- The value that an option carries with it. -/
def carried (v : String) : Option String := if v = "--" then none else some v

def takeOption (g : Grammar) (r : Reading) (name : String) (value : Option String) :
    Except Ending Reading :=
  if name = "--help" then
    if value.isNone then .ok { r with help := true } else .error .usage
  else
    match g.options.find? (fun o => o.1 = name), value with
    | none, _ => .ok { r with unknown := true, afterOperand := false }
    | some (_, arity), none => .ok (r.takeValue name arity [])
    | some (_, arity), some v =>
      if arity = 1 then .ok (r.takeValue name 0 [carried v]) else .error .usage

/-- Reads a word where the options of `g` are known. -/
def next (g : Grammar) (r : Reading) (w : String) : Except Ending Reading :=
  let word := classify g.known w
  if r.operandsOnly then .ok (r.takeOperand w)
  else if r.help then
    -- A shortened name of several options is not understood, wherever it stands.
    if w = "--" then .ok { r with operandsOnly := true }
    else if word = .ambiguous then .error .usage
    else .ok r
  else
    match r.pending with
    | some (name, missing, values) =>
      if w = "--" ∨ word ≠ .plain then .error .usage
      else .ok (r.takeValue name (missing - 1) (values ++ [some w]))
    | none =>
      if w = "--" then .ok { r with operandsOnly := true, loose := ¬ r.afterOperand }
      else
        match word with
        | .plain => .ok (r.takeOperand w)
        | .option name value => takeOption g r name value
        | .ambiguous => .error .usage

end Reading

/-- A command line has been read to its end as the options and operands of `g`. -/
def Reading.isComplete (g : Grammar) (r : Reading) : Bool :=
  r.pending.isNone && !r.loose && !r.unknown && r.operands.length == g.operands

/-- The arguments of a command line. What is missing or not known does not matter once help is
asked for. -/
def Arguments.read (g : Grammar) (words : List String) : Except Ending Arguments := do
  let r ← words.foldlM (Reading.next g) {}
  if r.help || r.isComplete g then return ⟨r.operands, r.options, r.help⟩ else throw .usage

namespace Arguments

/-! ## Values -/

def integerOf : Option String → Except Ending (Option Int)
  | none => .ok none
  | some s =>
    match readInteger? s with
    | some n => .ok (some n)
    | none => .error .usage

def oneToSevenOf (value : Option String) : Except Ending (Option Int) := do
  let n ← integerOf value
  if n.all fun n => 1 ≤ n ∧ n ≤ 7 then return n else throw .usage

def operand (a : Arguments) (i : Nat) : String := (a.operands.getD i none).getD ""

def integerOperand (a : Arguments) (i : Nat) : Except Ending (Option Int) :=
  integerOf (a.operands.getD i none)

/-- What stands for the values of all occurrences of an option, in order. -/
def valuesOf (a : Arguments) (name : String) : List (List (Option String)) :=
  (a.options.filter fun o => o.1 = name).map Prod.snd

def texts (a : Arguments) (name : String) : List (Option String) := (a.valuesOf name).flatten

/-- The last text given to an option of one value, or a default for an option that is absent. -/
def text (a : Arguments) (name default : String) : Option String :=
  (a.texts name).getLast?.getD (some default)

/-- The last values given to an option of integers. Those given before have to be integers
as well. -/
def integers? (a : Arguments) (name : String) : Except Ending (Option (List (Option Int))) := do
  let all ← (a.valuesOf name).mapM fun values => values.mapM integerOf
  return all.getLast?

/-- The last integer given to an option of one value, or a default for an option that is absent.
Those given before have to be integers as well. -/
def integer (a : Arguments) (name : String) (default : Int) : Except Ending (Option Int) := do
  let all ← (a.texts name).mapM integerOf
  return all.getLast?.getD (some default)

/-- The last integer given to an option of one value from 1 to 7, if the option is there. Those
given before have to be in the range as well. -/
def oneToSeven? (a : Arguments) (name : String) : Except Ending (Option (Option Int)) := do
  let all ← (a.texts name).mapM oneToSevenOf
  return all.getLast?

end Arguments

end EraChronology.CommandLine
