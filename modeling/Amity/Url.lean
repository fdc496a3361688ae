/-
  Amity/Url.lean
  ==============
  **Addresses of a service.**  A client is given the address of the service as a text and derives
  from it the addresses of single pages and of the websocket.
-/
import Amity.Json.Fields

namespace Amity

/-- The address of a service, as it was given. -/
structure Url where
  text : String
  deriving DecidableEq, Repr

namespace Url

/-- What a text has before and after the first `://`. -/
def splitScheme : List Char → Option (List Char × List Char)
  | [] => none
  | ':' :: '/' :: '/' :: rest => some ([], rest)
  | c :: cs => (splitScheme cs).map fun (scheme, rest) => (c :: scheme, rest)

/-- The text without the slashes it ends in. -/
def trimSlashes (s : String) : String :=
  String.ofList (s.toList.reverse.dropWhile (· = '/')).reverse

/-- The address of a page: the path behind the address without its last slashes. -/
def page (u : Url) (path : String) : String :=
  trimSlashes u.text ++ path

/-- The address of the websocket: secure when the service is, and plain for any other scheme. -/
def websocket (u : Url) : Url :=
  match splitScheme u.text.toList with
  | some (scheme, rest) =>
    ⟨(if scheme = "https".toList then "wss://" else "ws://") ++ String.ofList rest⟩
  | none => ⟨"ws://" ++ u.text⟩

def encode (u : Url) : String := (Json.ofText u.text).write

def decode? (s : String) : Option Url := ((Json.scan? s).bind Json.text?).map Url.mk

end Url

end Amity
