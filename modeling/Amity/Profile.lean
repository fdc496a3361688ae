/-
  Amity/Profile.lean
  ==================
  **The account of a player.**  An account is the player's name and, for a player of tournaments, an
  alias.  Records from before there were aliases have no field for one.
-/
import Amity.Name

namespace Amity

/-- A player's account. -/
structure Profile where
  name : Name
  aliasName : Option String
  deriving DecidableEq, Repr

namespace Profile

def fresh (n : Name) : Profile := ⟨n, none⟩

/-- An alias is written as its text, the lack of one as null. -/
def aliasToJson : Option String → Json
  | some a => Json.ofText a
  | none => .null

/-- An alias is read from a string or from null. -/
def aliasOfJson? : Json → Option (Option String)
  | .null => some none
  | v => v.text?.map some

def toJson (p : Profile) : Json :=
  Json.ofFields [("username", p.name.toJson), ("tournament_alias", aliasToJson p.aliasName)]

/-- The account of a record; the alias may be missing. -/
def ofJson? (v : Json) : Option Profile :=
  match v.fields? ["username", "tournament_alias"] with
  | some [some name, some aliasName] => do return ⟨← Name.ofJson? name, ← aliasOfJson? aliasName⟩
  | some [some name, none] => do return ⟨← Name.ofJson? name, none⟩
  | _ => none

def encode (p : Profile) : String := p.toJson.write

def decode? (s : String) : Option Profile := (Json.scan? s).bind ofJson?

end Profile

end Amity
