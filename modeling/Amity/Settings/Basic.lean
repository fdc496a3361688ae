/-
  Amity/Settings/Basic.lean
  =========================
  **Settings of the service.**  A setting comes from the command line, else from the environment,
  else it has its default.  The port is an argument by itself; host, database, mailbox capacity and
  log filter are options with a value, behind the option or joined to it by an equals sign; the
  temporary database is an option without one.  After `--` every argument is a port.

  An option is settled when the next one is met or the arguments end, so the value of an option that
  is waiting is checked only then; an argument that nothing is known about is reported before it.
-/
import Amity.Settings.Address
import Amity.Settings.Number

namespace Amity

structure Settings where
  port : Nat
  host : Settings.Address
  database : Option String
  capacity : Nat
  log : String
  temporary : Bool
  deriving DecidableEq, Repr

/-- Why there are no settings. -/
inductive UsageError where
  /-- A value is no number or no address. -/
  | valueValidation
  /-- A value is missing or is not one of those allowed. -/
  | invalidValue
  | unknownArgument
  /-- An option is given twice. -/
  | argumentConflict
  /-- A value is joined to an option that takes none. -/
  | tooManyValues
  | displayHelp
  | displayVersion
  deriving DecidableEq, Repr

namespace Settings

/-- The database directory: named after the port unless it is given. -/
def databasePath (s : Settings) : String :=
  s.database.getD ("sled" ++ String.ofList (Nat.toDigits 10 s.port))

def listenAddress (s : Settings) : String := s.host.withPort s.port

/-! ## Single settings -/

inductive Key where
  | port
  | host
  | database
  | capacity
  | log
  | temporary
  deriving DecidableEq, Repr

/-- All settings, in the order in which the environment is asked for them. -/
def Key.all : List Key := [.port, .host, .database, .capacity, .log, .temporary]

def Key.variable : Key → String
  | .port => "TETHER_PORT"
  | .host => "TETHER_HOST"
  | .database => "TETHER_DB"
  | .capacity => "TETHER_OUTBOUND_CAPACITY"
  | .log => "TETHER_LOG"
  | .temporary => "TETHER_TEMPORARY"

/-- The settings that have been given so far. -/
structure Given where
  port : Option Nat
  host : Option Address
  database : Option String
  capacity : Option Nat
  log : Option String
  temporary : Option Bool
  deriving DecidableEq, Repr

def Given.nothing : Given := ⟨none, none, none, none, none, none⟩

def Given.has (g : Given) : Key → Bool
  | .port => g.port.isSome
  | .host => g.host.isSome
  | .database => g.database.isSome
  | .capacity => g.capacity.isSome
  | .log => g.log.isSome
  | .temporary => g.temporary.isSome

def Given.enter (g : Given) (k : Key) (value : String) : Except UsageError Given :=
  match k with
  | .port =>
    match signed? (Nat.pow 2 16) value with
    | some n => .ok { g with port := some n }
    | none => .error .valueValidation
  | .host =>
    match Address.parse? value with
    | some a => .ok { g with host := some a }
    | none => .error .valueValidation
  | .database =>
    if value.isEmpty then .error .invalidValue else .ok { g with database := some value }
  | .capacity =>
    match unsigned? (Nat.pow 2 64) value with
    | some n => .ok { g with capacity := some n }
    | none => .error .valueValidation
  | .log => .ok { g with log := some value }
  | .temporary =>
    if value = "true" then .ok { g with temporary := some true }
    else if value = "false" then .ok { g with temporary := some false }
    else .error .invalidValue

def Given.enterOnce (g : Given) (k : Key) (value : String) : Except UsageError Given :=
  if g.has k then .error .argumentConflict else g.enter k value

/-! ## The command line -/

/-- How far the command line has been read. -/
structure Reading where
  given : Given
  /-- An option or the port that is not settled yet, with its value once that is there. -/
  waiting : Option (Key × Option String)
  onlyPort : Bool
  portMet : Bool

def Reading.settle (r : Reading) : Except UsageError Reading :=
  match r.waiting with
  | none => .ok r
  | some (_, none) => .error .invalidValue
  | some (k, some value) => do
    let given ← r.given.enterOnce k value
    return { r with given, waiting := none }

def Reading.readPort (r : Reading) (arg : String) : Except UsageError Reading :=
  if r.portMet then .error .unknownArgument
  else do
    let r ← r.settle
    return { r with waiting := some (.port, some arg), portMet := true }

def valuedOption? : String → Option Key
  | "host" => some .host
  | "db" => some .database
  | "outbound-capacity" => some .capacity
  | "log" => some .log
  | _ => none

/-- Reads an option with a long name, and the value joined to it. -/
def Reading.readLong (r : Reading) (name : String) (joined : Option String) :
    Except UsageError Reading :=
  match valuedOption? name with
  | some k => do
    let r ← r.settle
    match joined with
    | some value => return { r with given := ← r.given.enterOnce k value }
    | none => return { r with waiting := some (k, none) }
  | none =>
    if name ∉ ["temporary", "help", "version"] then .error .unknownArgument
    else if joined.isSome then .error .tooManyValues
    else do
      let r ← r.settle
      if name = "help" then .error .displayHelp
      else if name = "version" then .error .displayVersion
      else return { r with given := ← r.given.enterOnce .temporary "true" }

/-- Reads an option with a short name; only the first letter counts. -/
def Reading.readShort (r : Reading) (letter : Char) : Except UsageError Reading :=
  if letter = 'h' then do
    let _ ← r.settle
    .error .displayHelp
  else if letter = 'V' then do
    let _ ← r.settle
    .error .displayVersion
  else .error .unknownArgument

/-- Reads an argument that is no option: the value that is waited for, or the port. -/
def Reading.readPlain (r : Reading) (arg : String) : Except UsageError Reading :=
  match r.waiting with
  | some (k, none) => .ok { r with waiting := some (k, some arg) }
  | _ => r.readPort arg

/-- Cuts a long option at its first equals sign. -/
def splitJoined (cs : List Char) : String × Option String :=
  (String.ofList (cs.takeWhile (· ≠ '=')),
    match cs.dropWhile (· ≠ '=') with
    | _ :: value => some (String.ofList value)
    | [] => none)

def Reading.read (r : Reading) (arg : String) : Except UsageError Reading :=
  if r.onlyPort then r.readPort arg
  else
    match arg.toList with
    | ['-', '-'] => .ok { r with onlyPort := true }
    | '-' :: '-' :: cs => r.readLong (splitJoined cs).1 (splitJoined cs).2
    | '-' :: c :: _ => r.readShort c
    | _ => r.readPlain arg

def readArguments (args : List String) : Except UsageError Given := do
  let r ← args.foldlM Reading.read ⟨.nothing, none, false, false⟩
  return (← r.settle).given

/-! ## Environment and defaults -/

/-- Enters a setting from the environment, unless it has been given. -/
def Given.complete (environment : String → Option String) (g : Given) (k : Key) :
    Except UsageError Given :=
  if g.has k then .ok g
  else
    match environment k.variable with
    | some value => g.enter k value
    | none => .ok g

/-- The settings, with defaults where nothing is given. -/
def Given.settings (g : Given) : Settings where
  port := g.port.getD 8000
  host := g.host.getD (.v4 127 0 0 1)
  database := g.database
  capacity := g.capacity.getD 64
  log := g.log.getD "info"
  temporary := g.temporary.getD false

def resolve (args : List String) (environment : String → Option String) :
    Except UsageError Settings := do
  let given ← readArguments args
  let given ← Key.all.foldlM (Given.complete environment) given
  return given.settings

end Settings

end Amity
