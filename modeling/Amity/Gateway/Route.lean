/-
  Amity/Gateway/Route.lean
  ========================
  **Which page a path names.**  A path is cut at its slashes, and each piece is compared as it
  stands; the piece that names a player is percent-decoded afterwards.  It may be empty where more
  of the path follows it, and so be refused as a name; an empty piece at the end names no page.

  A player whose name is the first piece of another page's path is found all the same, since the
  pages differ in their second piece.
-/
import Amity.Gateway.Target

namespace Amity.Gateway

/-- A page, with the piece of the path that names the player. -/
inductive Route where
  | root
  | addPlayer (piece : String)
  | friends (piece : String)
  | sentRequests (piece : String)
  | receivedRequests (piece : String)
  | setAlias (piece : String)
  | deletePlayer (piece : String)
  | socket (piece : String)
  deriving DecidableEq, Repr

namespace Route

/-- The pieces of a path between its slashes. -/
def pieces (path : List Char) : List String :=
  (path.splitOn '/').map String.ofList

def ofPieces? : List String → Option Route
  | ["", ""] => some .root
  | ["", "add-user", ""] => none
  | ["", "add-user", u] => some (.addPlayer u)
  | ["", "ws", "friends", ""] => none
  | ["", "ws", "friends", u] => some (.socket u)
  | ["", "ws", "friends", u, ""] => some (.socket u)
  | ["", u, "private", "get", "friends"] => some (.friends u)
  | ["", u, "private", "get", "sent-friend-requests"] => some (.sentRequests u)
  | ["", u, "private", "get", "rec-friend-requests"] => some (.receivedRequests u)
  | ["", u, "private", "post", "tournament-alias"] => some (.setAlias u)
  | ["", u, "private", "post", "delete"] => some (.deletePlayer u)
  | _ => none

def piece? : Route → Option String
  | .root => none
  | .addPlayer u | .friends u | .sentRequests u | .receivedRequests u | .setAlias u
  | .deletePlayer u | .socket u => some u

def ofTarget? (target : String) : Option Route :=
  (Target.path? target).bind fun path => ofPieces? (pieces path)

/-- Whether the page changes something, and so is posted to. -/
def isPosted : Route → Bool
  | .setAlias _ => true
  | .deletePlayer _ => true
  | _ => false

/-- Whether the page answers to the method; a page that is got also answers to `HEAD`. -/
def allows (r : Route) (method : String) : Bool :=
  if r.isPosted then method = "POST" else method = "GET" || method = "HEAD"

/-! ## Percent-decoding -/

/-- The value of a hexadecimal digit, given as a byte. -/
def hexByte? (b : UInt8) : Option UInt8 :=
  if 48 ≤ b && b ≤ 57 then some (b - 48)
  else if 97 ≤ b && b ≤ 102 then some (b - 87)
  else if 65 ≤ b && b ≤ 70 then some (b - 55)
  else none

/-- Replaces each percent sign with two digits behind it by the byte they give. -/
def percentDecode : List UInt8 → List UInt8
  | 37 :: a :: b :: rest =>
    match hexByte? a, hexByte? b with
    | some x, some y => (16 * x + y) :: percentDecode rest
    | _, _ => 37 :: percentDecode (a :: b :: rest)
  | b :: rest => b :: percentDecode rest
  | [] => []

/-- The text that a piece of a path stands for, if its bytes are the encoding of one. -/
def decodePiece? (piece : String) : Option String :=
  String.fromUTF8? ⟨(percentDecode piece.toUTF8.toList).toArray⟩

end Route

end Amity.Gateway
