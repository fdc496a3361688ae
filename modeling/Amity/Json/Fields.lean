/-
  Amity/Json/Fields.lean
  ======================
  **Records in JSON.**  A record has named fields in a fixed order.  It is written as an object with
  one member for each field.  It is read from such an object with the members in any order and other
  members among them, or from the array of its fields.  What the other members hold is not looked
  at, but their keys have to be texts.  A field that occurs twice makes the object no record.
-/
import Amity.Json.Reader
import Amity.Json.Writer

namespace Amity.Json

/-- The members of a record written with these field names. -/
def ofFields (fields : List (String × Json)) : Json :=
  .object (fields.map fun (name, v) => (.text name, v))

/-- The value of the field, if there is one; no answer when there are several. -/
def field? (members : List (Literal × Json)) (name : String) : Option (Option Json) :=
  match members.filter fun m => m.1 = .text name with
  | [] => some none
  | [(_, v)] => some (some v)
  | _ => none

/-- The values of the named fields, in the order of the names. -/
def fields? (names : List String) : Json → Option (List (Option Json))
  | .object members =>
    if members.all fun m => m.1.text?.isSome then names.mapM (field? members) else none
  | .array items =>
    if items.length ≤ names.length then
      some (items.map some ++ List.replicate (names.length - items.length) none)
    else none
  | _ => none

def ofTexts (ss : List String) : Json :=
  .array (ss.map ofText)

end Amity.Json
