/-
  Amity/Engine/System.lean
  ========================
  **The engine with its sessions.**  The system holds the state of every session next to the engine,
  so that a step can be named by the connection that takes it.

  ## Draining ends

  A notice that is read is gone; reading a probe may post one answer, which is no probe.  So the
  weight of what waits in all mailboxes, a probe counting two and any other notice one, is a bound
  on the number of notices that can be read before all mailboxes are empty.
-/
import Amity.Engine.Commands
import Amity.Engine.Notices

namespace Amity

/-- The engine and the state of each session. -/
structure System where
  engine : Engine
  sessions : Table Connection Session

namespace System

def start (db : Database) (capacity : Nat) : System := ⟨.start db capacity, .empty⟩

/-! ## Single steps -/

def connect (sys : System) (n : Name) : Option (Connection × System) :=
  (sys.engine.connect n).map fun (s, engine) =>
    (s.connection, ⟨engine, sys.sessions.insert s.connection s⟩)

/-- A session leaves; its state stays for whoever still looks at it. -/
def disconnect (sys : System) (c : Connection) : System :=
  { sys with engine := sys.engine.disconnect c }

/-- Keeps what came out of a turn of a session. -/
def keep (sys : System) (turn : Turn) : Reply × System :=
  (turn.reply, ⟨turn.engine, sys.sessions.insert turn.session.connection turn.session⟩)

def command (sys : System) (c : Connection) (cmd : Command) : Option (Reply × System) :=
  (sys.sessions.find? c).map fun s => sys.keep (sys.engine.handleCommand s cmd)

def handle (sys : System) (c : Connection) (x : Notice) : Option (Reply × System) :=
  (sys.sessions.find? c).map fun s => sys.keep (sys.engine.handleNotice s x)

def readOne (sys : System) (c : Connection) : Option (Notice × Reply × System) := do
  let (x, presence) ← sys.engine.presence.takeNotice c
  let (reply, sys) ← { sys with engine := { sys.engine with presence } }.handle c x
  return (x, reply, sys)

/-! ## Draining -/

/-- How many notices reading this one can lead to, itself counted. -/
def noticeWeight : Notice → Nat
  | .probe .. => 2
  | _ => 1

def weightOf : List Notice → Nat
  | [] => 0
  | x :: xs => noticeWeight x + weightOf xs

/-- The weight of everything that waits. -/
def weight (sys : System) : Nat :=
  weightOf (sys.engine.presence.boxes.entries.flatMap fun e => e.2.items)

/-- A session reads at most this many notices, also those that come meanwhile. -/
def readUpTo (c : Connection) : Nat → System → List (Notice × Reply) × System
  | 0, sys => ([], sys)
  | limit + 1, sys =>
    match sys.readOne c with
    | none => ([], sys)
    | some (x, reply, sys) =>
      let (rest, sys) := readUpTo c limit sys
      ((x, reply) :: rest, sys)

/-- A session reads until nothing waits for it. -/
def readAll (c : Connection) (sys : System) : List (Notice × Reply) × System :=
  readUpTo c sys.weight sys

/-- Each session of the list reads until nothing waits for it; how many notices each one read. -/
def readEach : List Connection → System → List Nat × System
  | [], sys => ([], sys)
  | c :: cs, sys =>
    let (read, sys) := readAll c sys
    let (counts, sys) := readEach cs sys
    (read.length :: counts, sys)

/-- Rounds through the list until one finds nothing to read. -/
def readRounds (cs : List Connection) : Nat → System → List Nat × System
  | 0, sys => (cs.map fun _ => 0, sys)
  | rounds + 1, sys =>
    let (counts, sys) := readEach cs sys
    if counts.all (· = 0) then (counts, sys)
    else
      let (later, sys) := readRounds cs rounds sys
      (List.zipWith (· + ·) counts later, sys)

/-- The sessions of the list read in turn until nothing waits for any of them; how many notices each
    one read. -/
def settle (cs : List Connection) (sys : System) : List Nat × System :=
  readRounds cs sys.weight sys

end System

end Amity
