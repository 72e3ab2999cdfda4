import EraChronology.Error

set_option autoImplicit false

/-! # Commands and their endings

A command prints text and comes to an ending. What was printed before an error stays printed.
-/

namespace EraChronology.CommandLine

/-- How a command ends. -/
inductive Ending where
  /-- With an exit code, and nothing more to say. -/
  | exit (code : Nat)
  /-- With a text for the user and exit code 1. -/
  | complaint (text : String)
  /-- With an error that the command does not put into words of its own. -/
  | failure (error : Error)

/-- The ending of a command line that is not understood. -/
def Ending.usage : Ending := .exit 2

/-- The ending of a command line that asks for help. The text for help is left out. -/
def Ending.help : Ending := .exit 0

/-- What a command has printed, and how it ended. -/
structure Outcome where
  output : String
  ending : Ending

abbrev Command (α : Type) := ExceptT Ending (StateM String) α

namespace Command

def line (s : String) : Command Unit := modify fun output => output ++ s ++ "\n"

def lines (ss : List String) : Command Unit := ss.forM line

def finish {α : Type} (ending : Ending) : Command α := throw ending

def orFinish {α : Type} (step : Except Ending α) : Command α :=
  match step with
  | .ok a => pure a
  | .error ending => finish ending

/-- How an error ends a command: what is reported for it is put into words if it is about eras,
dates or the representable range, and otherwise passed on. -/
def endingOf (e : Error) : Ending :=
  let r := e.reported
  if r.isCalendrical then .complaint ("error: " ++ r.message?.getD "") else .failure r

/-- The result of a step, whose errors end the command. -/
def attempt {α : Type} (step : Except Error α) : Command α := orFinish (step.mapError endingOf)

def need {α : Type} : Option α → Command α
  | some a => pure a
  | none => finish (.failure .missingValue)

/-- Runs a command. One that comes to its last step has exit code 0. -/
def run (command : Command Unit) : Outcome :=
  match (ExceptT.run command).run "" with
  | (.ok (), output) => ⟨output, .exit 0⟩
  | (.error ending, output) => ⟨output, ending⟩

end Command

end EraChronology.CommandLine
