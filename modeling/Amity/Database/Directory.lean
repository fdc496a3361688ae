/-
  Amity/Database/Directory.lean
  =============================
  **The accounts.**  Each player has an account under the player's name.  The aliases are indexed
  too: under an alias stands the name of the player who has it, so that nobody else can take it.
-/
import Amity.Database.Graph
import Amity.Profile
import Amity.Text.Quoted

namespace Amity

/-- The accounts by player name, and the names by alias. -/
structure Directory where
  profiles : Tree
  aliases : Tree

inductive DirectoryError where
  | corrupt
  | nameTaken (n : Name)
  | aliasTaken (text : String)
  | invalidAlias (text : String)
  | notFound (n : Name)
  deriving DecidableEq, Repr

/-- The wording of the error; what exactly is wrong with a record is not part of it. -/
def DirectoryError.message : DirectoryError → String
  | .corrupt => "corrupt player record"
  | .nameTaken n => "username " ++ n.text ++ " is already used"
  | .aliasTaken a => "tournament alias " ++ Text.quoted a ++ " is already used"
  | .invalidAlias a => "tournament alias " ++ Text.quoted a ++ " is not a valid name"
  | .notFound n => "no player named " ++ n.text

namespace Directory

def empty : Directory := ⟨.empty, .empty⟩

/-! ## Single accounts -/

/-- Whether there is an account under the name; its record is not looked at. -/
def has (d : Directory) (n : Name) : Bool := d.profiles.contains n.text

def find? (d : Directory) (n : Name) : Except DirectoryError (Option Profile) :=
  match d.profiles.find? n.text with
  | none => .ok none
  | some text =>
    match Profile.decode? text with
    | some p => .ok (some p)
    | none => .error .corrupt

/-- The account under a name, which has to be there. -/
def load (d : Directory) (n : Name) : Except DirectoryError Profile := do
  match ← d.find? n with
  | some p => return p
  | none => .error (.notFound n)

def save (d : Directory) (p : Profile) : Directory :=
  { d with profiles := d.profiles.insert p.name.text p.encode }

def drop (d : Directory) (n : Name) : Directory :=
  { d with profiles := d.profiles.erase n.text }

def claimAlias (d : Directory) (text : String) (n : Name) : Directory :=
  { d with aliases := d.aliases.insert text n.text }

def freeAlias (d : Directory) : Option String → Directory
  | some a => { d with aliases := d.aliases.erase a }
  | none => d

/-! ## Changes -/

def create (d : Directory) (n : Name) : Except DirectoryError (Profile × Directory) :=
  if d.has n then .error (.nameTaken n)
  else .ok (.fresh n, d.save (.fresh n))

/-- An alias that is wanted: the empty text stands for none, any other has to be a name. -/
def wantedAlias (choice : Option String) : Except DirectoryError (Option String) :=
  match choice with
  | none => .ok none
  | some a =>
    if a.isEmpty then .ok none
    else if Name.isValid a then .ok (some a)
    else .error (.invalidAlias a)

/-- Enters an alias that nobody has. -/
def claimFree (d : Directory) (n : Name) : Option String → Except DirectoryError Directory
  | none => .ok d
  | some a => if d.aliases.contains a then .error (.aliasTaken a) else .ok (d.claimAlias a n)

def setAlias (d : Directory) (n : Name) (choice : Option String) :
    Except DirectoryError (Profile × Directory) := do
  let wanted ← wantedAlias choice
  let p ← d.load n
  if p.aliasName = wanted then return (p, d)
  else do
    let claimed ← d.claimFree n wanted
    let changed := { p with aliasName := wanted }
    return (changed, (claimed.freeAlias p.aliasName).save changed)

/-- Moves an account to another name, and its alias with it. -/
def rename (d : Directory) (old new : Name) : Except DirectoryError Directory := do
  let p ← d.load old
  if d.has new then .error (.nameTaken new)
  else
    let moved := d.drop old
    let claimed := match p.aliasName with
      | some a => moved.claimAlias a new
      | none => moved
    return claimed.save { p with name := new }

/-- Closes an account; no answer when there is none. -/
def delete (d : Directory) (n : Name) : Except DirectoryError (Option Directory) := do
  match ← d.find? n with
  | none => return none
  | some p => return some ((d.drop n).freeAlias p.aliasName)

end Directory

end Amity
