import Aventuria.CommandLine.Run

/-!
The program: it answers one question about the rules from the command line. Without a seed the
dice are seeded by chance.
-/

set_option autoImplicit false
set_option relaxedAutoImplicit false

namespace Aventuria

def usage : String :=
  "usage: aventuria [--seed N] [--date TEXT] [--tradition guild|witch] [--traits 0|1|2] [-v]\n" ++
  "  roll TEXT [--times N]\n" ++
  "  formula TEXT POINTS\n" ++
  "  harvest TEXT [--points N] [--roll]\n" ++
  "  expiry TEXT\n" ++
  "  check RATING DIFFICULTY A B C [--exchange N] [--rolls A B C] [--points-name NAME]\n" ++
  "  cost TEXT POINTS [--base N] [--failed]"

def chooseSeed (request : CommandLine.Request) : IO Int :=
  match request.seed with
  | some (.value seed) => pure seed
  | _ => do
    let n ← IO.rand 0 0x40000000
    pure n

end Aventuria

open Aventuria in
def main (args : List String) : IO UInt32 := do
  match CommandLine.Request.ofArguments? args with
  | none =>
    IO.eprintln usage
    pure 2
  | some request =>
    if request.command = .help then
      IO.println usage
      pure 0
    else
      let seed ← chooseSeed request
      match (request.run.onTable (Dice.Table.fresh (Dice.Source.seeded seed))).1 with
      | .ok report =>
        IO.print report.output
        pure (UInt32.ofNat report.exitCode)
      | .error fault =>
        IO.eprintln fault.message
        pure 1
