/-
  Amity/Database.lean
  ===================
  **Everything that is stored.**  The database is the friendship graph and the directory of
  accounts.  Three changes concern both: a player takes another name, a player leaves, and a
  request is made only between players who have accounts.  Each of them gives a whole new database
  or an error.
-/
import Amity.Database.Graph
import Amity.Database.Directory

namespace Amity

/-- The stored records. -/
structure Database where
  graph : Graph
  directory : Directory

/-- Why a change of the database failed. -/
inductive StoreError where
  | graph (e : GraphError)
  | directory (e : DirectoryError)
  deriving DecidableEq, Repr

def StoreError.message : StoreError → String
  | .graph e => e.message
  | .directory e => e.message

namespace Database

def empty : Database := ⟨.empty, .empty⟩

def hasPlayer (db : Database) (n : Name) : Bool := db.directory.has n

def onGraph {α : Type} (r : Except GraphError α) : Except StoreError α :=
  r.mapError .graph

def onDirectory {α : Type} (r : Except DirectoryError α) : Except StoreError α :=
  r.mapError .directory

/-- Gives a player another name; also the ties that now stand under it. -/
def rename (db : Database) (old new : Name) : Except StoreError (Ties × Database) := do
  let directory ← onDirectory (db.directory.rename old new)
  let (ties, graph) ← onGraph (db.graph.rename old new)
  return (ties, ⟨graph, directory⟩)

/-- Deletes a player; gives the ties the player had, or nothing when there is no such player. -/
def delete (db : Database) (n : Name) : Except StoreError (Option (Ties × Database)) := do
  match ← onDirectory (db.directory.delete n) with
  | none => return none
  | some directory => do
    let (ties, graph) ← onGraph (db.graph.purge n)
    return some (ties, ⟨graph, directory⟩)

/-- Records a request between two players. -/
def request (db : Database) (sender receiver : Name) : Except StoreError (Bool × Database) :=
  if db.hasPlayer sender ∧ db.hasPlayer receiver then do
    let (made, graph) ← onGraph (db.graph.createRequest sender receiver)
    return (made, { db with graph })
  else .ok (false, db)

end Database

end Amity
