/-
  Amity/Gateway/Sockets.lean
  ==========================
  **Websockets.**  Each open websocket belongs to one session.  The client is greeted with a
  snapshot, and gets another one for every text it sends and for every notice its session reads; the
  news of a renaming comes before the snapshot.  When the ties of the player cannot be read, no
  snapshot is sent.  A session that is told to end closes its websocket, and a websocket that has
  ended, from whichever side, detaches its session.

  Everything that one step of a client leads to is done before the next step: sessions that were
  told to end are ended, then what waits is read, and so on until nothing is left to do.
-/
import Amity.Engine.System
import Amity.Gateway.Pages

namespace Amity.Gateway

inductive Frame where
  | event (e : Event)
  | snapshot (s : Snapshot)
  | close
  deriving DecidableEq, Repr

/-- Frames with the connections they go to, in the order they are sent. -/
abbrev Sent := List (Connection × Frame)

/-- The system and the connections whose websockets are open. -/
structure Hub where
  system : System
  sockets : List Connection

namespace Hub

def start (db : Database) (capacity : Nat) : Hub := ⟨.start db capacity, []⟩

/-! ## Frames -/

/-- The snapshot for the client of a connection, if it can be built. -/
def snapshotFrames (sys : System) (c : Connection) : Sent :=
  match (sys.sessions.find? c).map sys.engine.snapshot with
  | some (.ok s) => [(c, .snapshot s)]
  | _ => []

def replyFrames (sys : System) (c : Connection) : Reply → Sent
  | .snapshot => snapshotFrames sys c
  | .renamed old new => (c, .event (.renamed old new)) :: snapshotFrames sys c
  | .close => [(c, .close)]

/-! ## Single steps -/

def finish (hub : Hub) (c : Connection) : Hub :=
  let sys := hub.system.disconnect c
  let engine := { sys.engine with presence := sys.engine.presence.close c }
  ⟨{ sys with engine }, hub.sockets.filter (· ≠ c)⟩

/-- Opens a websocket of a player and greets the client. -/
def accept (hub : Hub) (n : Name) : Option (Connection × Sent × Hub) :=
  (hub.system.connect n).map fun (c, sys) => (c, snapshotFrames sys c, ⟨sys, hub.sockets ++ [c]⟩)

def receive (hub : Hub) (c : Connection) (text : String) : Sent × Hub :=
  match Command.parse text with
  | .error _ => (snapshotFrames hub.system c, hub)
  | .ok cmd =>
    match hub.system.command c cmd with
    | none => ([], hub)
    | some (reply, sys) =>
      let hub := { hub with system := sys }
      (replyFrames sys c reply, if reply = .close then hub.finish c else hub)

/-! ## Until nothing is left to do -/

/-- Ends the websockets among these whose sessions were told to end. -/
def endCancelled : List Connection → Hub → Sent × Hub
  | [], hub => ([], hub)
  | c :: cs, hub =>
    if hub.system.engine.presence.isCancelled c then
      let (sent, hub) := endCancelled cs (hub.finish c)
      ((c, .close) :: sent, hub)
    else endCancelled cs hub

/-- Reads at most this many waiting notices. -/
def readWaiting : Nat → Hub → Sent × Hub
  | 0, hub => ([], hub)
  | limit + 1, hub =>
    match hub.sockets.findSome? fun c => (hub.system.readOne c).map fun r => (c, r) with
    | none => ([], hub)
    | some (c, _, reply, sys) =>
      let (sent, hub) := readWaiting limit { hub with system := sys }
      (replyFrames sys c reply ++ sent, hub)

/-- Rounds of ending and reading, as long as some session is told to end. -/
def settleRounds : Nat → Hub → Sent × Hub
  | 0, hub => ([], hub)
  | rounds + 1, hub =>
    let (ended, hub) := endCancelled hub.sockets hub
    let (sent, hub) := readWaiting hub.system.weight hub
    if hub.sockets.any hub.system.engine.presence.isCancelled then
      let (later, hub) := settleRounds rounds hub
      (ended ++ sent ++ later, hub)
    else (ended ++ sent, hub)

/-- Does everything that is left to do; every round but the first ends a websocket. -/
def settle (hub : Hub) : Sent × Hub := settleRounds (hub.sockets.length + 1) hub

/-- What was sent in a step and in all that it leads to. -/
def thenSettle (sent : Sent) (hub : Hub) : Sent × Hub :=
  let (later, hub) := hub.settle
  (sent ++ later, hub)

/-! ## Steps of clients -/

/-- A request that is not for a websocket, or is refused one: the answer and what is sent. -/
def request (hub : Hub) (req : Request) : Outcome × Sent × Hub :=
  let (outcome, engine) := respond hub.system.engine req
  let (sent, hub) := thenSettle [] { hub with system := { hub.system with engine } }
  (outcome, sent, hub)

def openSocket (hub : Hub) (n : Name) : Option (Connection × Sent × Hub) :=
  (hub.accept n).map fun (c, sent, hub) => (c, thenSettle sent hub)

def receiveText (hub : Hub) (c : Connection) (text : String) : Sent × Hub :=
  let (sent, hub) := hub.receive c text
  thenSettle sent hub

/-- A client closes its websocket, which is answered in kind. -/
def receiveClose (hub : Hub) (c : Connection) : Sent × Hub :=
  thenSettle [(c, .close)] (hub.finish c)

/-- A client is gone without a word. -/
def drop (hub : Hub) (c : Connection) : Sent × Hub :=
  thenSettle [] (hub.finish c)

end Hub

end Amity.Gateway
