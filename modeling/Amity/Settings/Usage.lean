/-
  Amity/Settings/Usage.lean
  =========================
  **What the command line answers.**  Asking for help or for the version is answered with a text and
  is no failure.  Everything else that keeps the service from having settings is reported in one
  line, followed by a hint to the help.
-/
import Amity.Settings.Basic

namespace Amity

namespace UsageError

/-- Whether the user asked for a text and not for the service. -/
def isQuestion : UsageError → Bool
  | .displayHelp => true
  | .displayVersion => true
  | _ => false

def exitStatus (e : UsageError) : UInt32 := if e.isQuestion then 0 else 2

def help : String :=
  String.intercalate "\n" ["Friends and presence service", "",
    "Usage: amity [OPTIONS] [PORT]", "",
    "  [PORT]                       port to listen on; 0 picks a free one [default: 8000]",
    "  --host <HOST>                address to listen on [default: 127.0.0.1]",
    "  --db <DB>                    database directory [default: sled<PORT>]",
    "  --outbound-capacity <COUNT>  notices that may wait for a session [default: 64]",
    "  --log <FILTER>               log filter [default: info]",
    "  --temporary                  keep the database in a temporary directory",
    "  -h, --help                   print this text",
    "  -V, --version                print the version"]

def message : UsageError → String
  | .displayHelp => help
  | .displayVersion => "amity 1.0"
  | .valueValidation => "error: a value is no number or no address; try --help"
  | .invalidValue => "error: a value is missing or not allowed; try --help"
  | .unknownArgument => "error: unknown argument; try --help"
  | .argumentConflict => "error: an option is given twice; try --help"
  | .tooManyValues => "error: a value for an option that takes none; try --help"

end UsageError

namespace Settings

def banner (s : Settings) : String :=
  "listening on " ++ s.listenAddress ++ ", database in " ++
    (if s.temporary && s.database.isNone then "a temporary directory" else s.databasePath)

end Settings

end Amity
