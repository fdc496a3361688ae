/-
  Amity/Engine/Commands.lean
  ==========================
  **Carrying out commands.**  A command is carried out under the name the session's connection is
  attached under, whatever name the session remembers.  A session that is no longer attached, or
  whose player is gone, is closed.

  A command either changes the database and tells everybody concerned, or it changes nothing and the
  session gets a snapshot.  The notices of a change are addressed together with the change, so that
  they go to those who are attached when it happens.
-/
import Amity.Command
import Amity.Engine.Basic

namespace Amity.Engine

/-! ## Ties -/

/-- A change of the ties between a session's player and a target, and whom it concerns. -/
structure TieChange where
  /-- Whether anything changed, and the database after it. -/
  outcome : Except StoreError (Bool × Database)
  toTarget : List Notice
  toSiblings : Notice
  /-- The session after a change. -/
  session : Session

/-- Commits a change of ties and tells the target and the siblings. -/
def commitTies (e : Engine) (s : Session) (target : Name) (change : TieChange) : Turn :=
  match change.outcome with
  | .ok (true, database) =>
    let e := { e with database }.notifyAll (change.toTarget.map (target, ·))
    ⟨.snapshot, change.session, e.tellSiblings s change.toSiblings⟩
  | _ => ⟨.snapshot, s, e⟩

/-- The outcome of a change of the graph, as one of the database. -/
def onGraph (e : Engine) (r : Except GraphError (Bool × Graph)) :
    Except StoreError (Bool × Database) :=
  (Database.onGraph r).map fun (changed, graph) => (changed, { e.database with graph })

def request (e : Engine) (s : Session) (target : Name) : Turn :=
  e.commitTies s target
    ⟨e.database.request s.name target, [.update none], .update none, s⟩

def remove (e : Engine) (s : Session) (target : Name) : Turn :=
  e.commitTies s target
    ⟨e.onGraph (e.database.graph.removeFriendship s.name target), [.update (some s.name)],
      .update (some target), s.forget target⟩

def cancel (e : Engine) (s : Session) (target : Name) : Turn :=
  e.commitTies s target
    ⟨e.onGraph (e.database.graph.deleteRequest s.name target), [.update none], .update none, s⟩

/-- Says yes to a request; the new friend is probed by the session that said so. -/
def accept (e : Engine) (s : Session) (target : Name) : Turn :=
  e.commitTies s target
    ⟨e.onGraph (e.database.graph.acceptRequest target s.name),
      [.probe s.name (e.presence.statusOf s.name) s.connection, .update none], .update none, s⟩

def refuse (e : Engine) (s : Session) (target : Name) : Turn :=
  e.commitTies s target
    ⟨e.onGraph (e.database.graph.deleteRequest target s.name), [.update none], .update none, s⟩

/-- Acts on the player that a text names; does nothing when there is none. -/
def withTarget (e : Engine) (s : Session) (text : String)
    (act : Engine → Session → Name → Turn) : Turn :=
  match Name.parse? text with
  | some target => if e.hasPlayer target then act e s target else ⟨.snapshot, s, e⟩
  | none => ⟨.snapshot, s, e⟩

/-! ## Names and accounts -/

/-- Whom a renaming is told.  To a friend the old name goes away and the new one comes with the
    status of the player; then every peer is told that one became the other. -/
def renameOutbox (ties : Ties) (old new : Name) (status : Status) : Outbox :=
  ties.friends.map (·, Notice.status old .disconnected) ++
    ties.friends.map (·, Notice.status new status) ++
    ties.peers.map (·, Notice.renamed old new)

def rename (e : Engine) (s : Session) (text : String) : Turn :=
  match Name.parse? text with
  | none => ⟨.snapshot, s, e⟩
  | some new =>
    let old := s.name
    if new = old then ⟨.snapshot, s, e⟩
    else
      match e.database.rename old new with
      | .error _ => ⟨.snapshot, s, e⟩
      | .ok (ties, database) =>
        let status := e.presence.statusOf old
        let (_, presence) := e.presence.rebind old new (renameOutbox ties old new status)
        let s := s.renamed new
        ⟨.renamed old new, s, ({ e with database, presence }).tellSiblings s (.renamed old new)⟩

/-- Whom a deletion is told: each peer once, and a friend that the status is gone. -/
def deleteOutbox (ties : Ties) (n : Name) : Outbox :=
  ties.peers.map fun peer => (peer, .update (if peer ∈ ties.friends then some n else none))

/-- Deletes a player, ends the player's sessions and tells the peers; tells whether there was such a
    player. -/
def deletePlayer (e : Engine) (n : Name) : Except StoreError (Bool × Engine) := do
  match ← e.database.delete n with
  | none => return (false, { e with presence := (e.presence.evict n []).2 })
  | some (ties, database) =>
    let (_, presence) := e.presence.evict n (deleteOutbox ties n)
    return (true, { e with database, presence })

def deleteAccount (e : Engine) (s : Session) : Turn :=
  match e.deletePlayer s.name with
  | .ok (_, e) => ⟨.close, s, e⟩
  | .error _ => ⟨.snapshot, s, e⟩

/-! ## Statuses -/

/-- Lets the session show a status and tells the friends what the player shows now. -/
def showStatus (e : Engine) (s : Session) (status : Status) : Turn :=
  let e := { e with presence := e.presence.setStatus s.connection status }
  ⟨.snapshot, s.setStatus status, e.broadcast s.name (e.presence.statusOf s.name)⟩

/-! ## Commands -/

/-- Carries out a command of a session that is attached under the name it remembers. -/
def perform (e : Engine) (s : Session) : Command → Turn
  | .request t => e.withTarget s t request
  | .remove t => e.withTarget s t remove
  | .cancel t => e.withTarget s t cancel
  | .accept t => e.withTarget s t accept
  | .refuse t => e.withTarget s t refuse
  | .rename t => e.rename s t
  | .deleteAccount => e.deleteAccount s
  | .enterGame => e.showStatus s .inGame
  | .leaveGame => e.showStatus s .connected
  | .other _ => ⟨.snapshot, s, e⟩

def handleCommand (e : Engine) (s : Session) (command : Command) : Turn :=
  match e.presence.nameOf? s.connection with
  | none => ⟨.close, s, e⟩
  | some n =>
    let s := s.renamed n
    if e.hasPlayer n then e.perform s command else ⟨.close, s, e⟩

end Amity.Engine
