/-
  Amity/Main.lean
  ===============
  **The command line.**  Reads the arguments and the environment and says which settings they
  make.  All that is decided here is decided by `Settings.resolve`; this file only carries texts
  in and out.
-/
import Amity.Settings.Usage

open Amity

/-- The variables of the environment that hold settings. -/
def settingVariables : IO (List (String × String)) :=
  Settings.Key.all.filterMapM fun k => do
    return (← IO.getEnv k.variable).map fun value => (k.variable, value)

/-- Resolves the settings and reports them, or says why there are none. -/
def main (args : List String) : IO UInt32 := do
  let environment ← settingVariables
  match Settings.resolve args fun name => environment.lookup name with
  | .ok s => do
    IO.println s.banner
    return 0
  | .error e => do
    if e.isQuestion then IO.println e.message else IO.eprintln e.message
    return e.exitStatus
