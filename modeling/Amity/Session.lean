/-
  Amity/Session.lean
  ==================
  **What a connection knows.**  A session remembers the name of its player, the status it shows
  itself, and the last status it was told for other players.  From the stored ties and these
  statuses it assembles the snapshot for its client.
-/
import Amity.Message
import Amity.Presence
import Amity.Ties

namespace Amity

/-- The state of one connection. -/
structure Session where
  connection : Connection
  name : Name
  ownStatus : Status
  statuses : Table Name Status

namespace Session

def start (c : Connection) (n : Name) : Session := ⟨c, n, .connected, .empty⟩

/-- The status of a player, as far as the session knows. -/
def statusOf (s : Session) (n : Name) : Status := (s.statuses.find? n).getD .disconnected

/-- Remembers a status; the last one told counts. -/
def learn (s : Session) (n : Name) (status : Status) : Session :=
  { s with statuses := s.statuses.insert n status }

def forget (s : Session) (n : Name) : Session :=
  { s with statuses := s.statuses.erase n }

def renamed (s : Session) (n : Name) : Session := { s with name := n }

def setStatus (s : Session) (status : Status) : Session := { s with ownStatus := status }

end Session

/-- The friends in the order of their statuses; equal statuses stay in the order they were in. -/
def Snapshot.sortFriends (fs : List (Name × Status)) : List (Name × Status) :=
  [Status.connected, .disconnected, .inGame].flatMap fun s => fs.filter (·.2 = s)

/-- What the client of a session is shown for the given ties. -/
def Session.snapshot (s : Session) (t : Ties) : Snapshot where
  friends := Snapshot.sortFriends (t.friends.map fun n => (n, s.statusOf n))
  sent := t.sent
  received := t.received

end Amity
