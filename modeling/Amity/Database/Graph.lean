/-
  Amity/Database/Graph.lean
  =========================
  **The friendship graph as stored records.**  Each player with a friend or a request has a record
  of ties under the player's name; a player without a record has no ties.  A change of the graph
  edits the records of all players it concerns, and gives either the new graph or an error, never
  half of the change.

  A record that cannot be read stops the operation that needs it.  Where an operation has nothing to
  do it answers `false` and gives back the graph as it was.
-/
import Amity.Table
import Amity.Ties

namespace Amity

/-- Stored texts by key. -/
abbrev Tree := Table String String

/-- The records of ties, by player name. -/
structure Graph where
  records : Tree

inductive GraphError where
  | corrupt
  | selfRelation
  | alreadyFriends (a b : Name)
  /-- There are ties under a name that should be free. -/
  | nameInUse (n : Name)
  deriving DecidableEq, Repr

/-- The wording of the error; what exactly is wrong with a record is not part of it. -/
def GraphError.message : GraphError → String
  | .corrupt => "corrupt relations record"
  | .selfRelation => "a player cannot befriend themselves"
  | .alreadyFriends a b => a.text ++ " and " ++ b.text ++ " are already friends"
  | .nameInUse n => n.text ++ " already has relations"

namespace Graph

def empty : Graph := ⟨.empty⟩

/-! ## Single records -/

def knows (g : Graph) (n : Name) : Bool := g.records.contains n.text

def load (g : Graph) (n : Name) : Except GraphError Ties :=
  match g.records.find? n.text with
  | none => .ok .empty
  | some text =>
    match Ties.decode? text with
    | some t => .ok t
    | none => .error .corrupt

def drop (g : Graph) (n : Name) : Graph := ⟨g.records.erase n.text⟩

/-- Writes the ties of a player; empty ties need no record. -/
def save (g : Graph) (n : Name) (t : Ties) : Graph :=
  if t.isEmpty then g.drop n else ⟨g.records.insert n.text t.encode⟩

/-- Edits the ties of each player of the list in turn. -/
def editAll (f : Ties → Ties) : List Name → Graph → Except GraphError Graph
  | [], g => .ok g
  | p :: ps, g => do
    let ties ← g.load p
    editAll f ps (g.save p (f ties))

/-! ## Questions -/

def areFriends (g : Graph) (a b : Name) : Except GraphError Bool := do
  return decide (b ∈ (← g.load a).friends)

/-- The friends of a player, oldest first. -/
def friendsOf (g : Graph) (n : Name) : Except GraphError (List Name) := do
  return (← g.load n).friends

/-- The players whom the player asked, oldest request first. -/
def pendingSent (g : Graph) (n : Name) : Except GraphError (List Name) := do
  return (← g.load n).sent

/-- The players who asked the player, oldest request first. -/
def pendingReceived (g : Graph) (n : Name) : Except GraphError (List Name) := do
  return (← g.load n).received

def requestExists (g : Graph) (sender receiver : Name) : Except GraphError Bool := do
  return decide (receiver ∈ (← g.load sender).sent)

/-! ## Friendships -/

/-- Makes two players friends; requests between them are gone. -/
def addFriendship (g : Graph) (a b : Name) : Except GraphError Graph :=
  if a = b then .error .selfRelation
  else do
    let left ← g.load a
    if b ∈ left.friends then .error (.alreadyFriends a b)
    else do
      let right ← g.load b
      return (g.save a (left.befriend b)).save b (right.befriend a)

def removeFriendship (g : Graph) (a b : Name) : Except GraphError (Bool × Graph) := do
  let left ← g.load a
  if b ∈ left.friends then do
    let right ← g.load b
    return (true, (g.save a (left.unfriend b)).save b (right.unfriend a))
  else return (false, g)

/-! ## Requests -/

/-- Records a request.  A request to oneself, a second one and one to a friend change nothing. -/
def createRequest (g : Graph) (sender receiver : Name) : Except GraphError (Bool × Graph) :=
  if sender = receiver then .ok (false, g)
  else do
    let asking ← g.load sender
    if receiver ∈ asking.sent ∨ receiver ∈ asking.friends then return (false, g)
    else do
      let asked ← g.load receiver
      return (true, (g.save sender (asking.addSent receiver)).save receiver
        (asked.addReceived sender))

def deleteRequest (g : Graph) (sender receiver : Name) : Except GraphError (Bool × Graph) := do
  let asking ← g.load sender
  if receiver ∈ asking.sent then do
    let asked ← g.load receiver
    return (true, (g.save sender (asking.dropSent receiver)).save receiver
      (asked.dropReceived sender))
  else return (false, g)

/-- Turns a request into a friendship; tells whether there was one.  A request in the other
    direction goes away too. -/
def acceptRequest (g : Graph) (sender receiver : Name) : Except GraphError (Bool × Graph) := do
  let asking ← g.load sender
  if receiver ∈ asking.sent then do
    let asked ← g.load receiver
    return (true, (g.save sender (asking.befriend receiver)).save receiver
      (asked.befriend sender))
  else return (false, g)

/-! ## Whole players -/

/-- Gives a player's ties another name, in the player's own record and in the peers'. -/
def rename (g : Graph) (old new : Name) : Except GraphError (Ties × Graph) := do
  let own ← g.load old
  if old = new then return (own, g)
  else if g.knows new then .error (.nameInUse new)
  else do
    let g ← editAll (Ties.renamePeer old new) own.peers g
    return (own, (g.drop old).save new own)

/-- Removes a player from the graph; gives the ties the player had. -/
def purge (g : Graph) (n : Name) : Except GraphError (Ties × Graph) := do
  let own ← g.load n
  let g ← editAll (Ties.forgetPeer n) own.peers g
  return (own, g.drop n)

end Graph

end Amity
