import EraChronology.CommandLine.Commands

set_option autoImplicit false

/-! # The program

Runs the command line over the built-in calendars. The environment variable
`ERACAL_SUPPLEMENTAL_ERA` may announce one more era of the Japanese calendar.
-/

open EraChronology EraChronology.CommandLine

/-- Prints what a command printed and gives its exit code. -/
def finishWith (outcome : Outcome) : IO UInt32 := do
  IO.print outcome.output
  match outcome.ending with
  | .exit code => return code.toUInt32
  | .complaint text =>
    IO.eprintln text
    return 1
  | .failure e =>
    IO.eprintln (e.message?.getD "a value is missing or out of range")
    return 1

def main (args : List String) : IO UInt32 := do
  let supplement := (← IO.getEnv "ERACAL_SUPPLEMENTAL_ERA").getD ""
  match Almanac.builtIn? supplement with
  | .ok a => finishWith (run a args)
  | .error e => finishWith ⟨"", Command.endingOf e⟩
