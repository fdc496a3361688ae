/-
  Amity/Engine/Basic.lean
  =======================
  **The engine.**  The engine keeps the database and the presence together and tells sessions what
  concerns them.  A session that comes sends a probe to every friend, who answer to it alone; when
  the last session of a player goes, the friends are told.

  What a session asks for is answered by a `Reply`: a fresh snapshot, the news of its player's
  renaming and a snapshot, or the end of the connection.
-/
import Amity.Database
import Amity.Session

namespace Amity

/-- The database, who is here, and how many notices a mailbox holds. -/
structure Engine where
  database : Database
  presence : Presence
  capacity : Nat

/-- What a session sends to its client. -/
inductive Reply where
  | snapshot
  | renamed (old new : Name)
  | close
  deriving DecidableEq, Repr

/-- The outcome of what a session did. -/
structure Turn where
  reply : Reply
  session : Session
  engine : Engine

namespace Engine

/-- An engine with nobody attached; every mailbox holds at least one notice. -/
def start (db : Database) (capacity : Nat) : Engine := ⟨db, .empty, max capacity 1⟩

def hasPlayer (e : Engine) (n : Name) : Bool := e.database.hasPlayer n

def notifyAll (e : Engine) (outbox : Outbox) : Engine :=
  { e with presence := (e.presence.notifyAll outbox).2 }

/-- The friends of a player, each with the same notice; nobody when the ties cannot be read. -/
def toFriends (e : Engine) (n : Name) (x : Notice) : Outbox :=
  match e.database.graph.friendsOf n with
  | .ok friends => friends.map (·, x)
  | .error _ => []

/-- Tells the friends of a player which status the player shows. -/
def broadcast (e : Engine) (n : Name) (s : Status) : Engine :=
  e.notifyAll (e.toFriends n (.status n s))

def tellSiblings (e : Engine) (s : Session) (x : Notice) : Engine :=
  { e with presence := (e.presence.notifyOthers s.name s.connection x).2 }

/-- Attaches a new session of a player and probes the friends; refused when there is no such
    player. -/
def connect (e : Engine) (n : Name) : Option (Session × Engine) :=
  if e.hasPlayer n then
    let (c, presence) := e.presence.accept e.capacity
    let e := { e with presence := presence.attach n c }
    let probe := Notice.probe n (e.presence.statusOf n) c
    some (.start c n, e.notifyAll (e.toFriends n probe))
  else none

/-- Detaches a session.  When it was the player's last, the friends are told.  Only the first time
    has an effect. -/
def disconnect (e : Engine) (c : Connection) : Engine :=
  match e.presence.detach c with
  | (none, _) => e
  | (some n, presence) =>
    let e := { e with presence }
    if presence.isOnline n || !e.hasPlayer n then e else e.broadcast n .disconnected

/-- What the client of a session is shown. -/
def snapshot (e : Engine) (s : Session) : Except GraphError Snapshot := do
  return s.snapshot (← e.database.graph.load s.name)

end Engine

end Amity
