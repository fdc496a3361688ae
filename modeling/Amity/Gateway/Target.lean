/-
  Amity/Gateway/Target.lean
  =========================
  **What a request is made to.**  A target is a path with or without a query; or such a path behind
  a scheme, a colon, two slashes and an authority; or an authority alone; or a star.  An authority
  is a host, perhaps with a user in front and a port behind it.  What follows a number sign belongs
  to the client and is not looked at.

  Only the path matters for the answer.  It is `/` when nothing stands behind the authority, and
  empty when there is an authority and no scheme.
-/

namespace Amity.Gateway

namespace Target

/-! ## Path and query -/

/-- Whether a character may stand in a path: printable ASCII but for angle brackets and the
backtick. -/
def isPathChar (c : Char) : Bool := '!' ≤ c && c ≤ '~' && c ∉ ['<', '>', '\x60']

/-- Whether a character may stand in a query: printable ASCII but for angle brackets and the
quotation mark. -/
def isQueryChar (c : Char) : Bool := '!' ≤ c && c ≤ '~' && c ∉ ['<', '>', '"']

/-- The path in front of a query and a number sign. -/
def localPath? (cs : List Char) : Option (List Char) :=
  let (path, tail) := cs.span fun c => c ≠ '?' && c ≠ '#'
  let query := match tail with
    | '?' :: q => q.takeWhile (· ≠ '#')
    | _ => []
  if path.all isPathChar && query.all isQueryChar then some path else none

/-! ## Scheme and authority -/

def isSchemeChar (c : Char) : Bool := c.isAlphanum || c ∈ ['+', '-', '.', '~']

def maxScheme : Nat := 64

/-- Whether a character may stand anywhere in an authority. -/
def isHostChar (c : Char) : Bool :=
  c.isAlphanum || c ∈ ['!', '$', '&', '\'', '(', ')', '*', '+', ',', '-', '.', ';', '=', '_', '~']

/-- What has been met in an authority.  An at sign ends the user's part and a closing bracket ends
an address, and with them end the colons and percent signs met there. -/
structure AuthorityReading where
  colons : Nat
  percent : Bool
  bracketOpened : Bool
  bracketClosed : Bool
  deriving DecidableEq, Repr

namespace AuthorityReading

def start : AuthorityReading := ⟨0, false, false, false⟩

/-- Reads one character.  There is one pair of brackets at most, and no address in brackets has
more than eight colons. -/
def next? (r : AuthorityReading) : Char → Option AuthorityReading
  | ':' => if r.colons < 8 then some { r with colons := r.colons + 1 } else none
  | '@' => some { r with colons := 0, percent := false }
  | '%' => some { r with percent := true }
  | '[' => if r.percent || r.bracketOpened then none else some { r with bracketOpened := true }
  | ']' =>
    if r.bracketOpened && !r.bracketClosed then some ⟨0, false, true, true⟩ else none
  | c => if isHostChar c then some r else none

/-- Whether an authority may end here: the brackets are paired, and the host has no percent sign
and one colon at most, the one before its port. -/
def mayEnd (r : AuthorityReading) : Bool :=
  r.bracketOpened == r.bracketClosed && r.colons ≤ 1 && !r.percent

end AuthorityReading

def isAuthority (cs : List Char) : Bool :=
  !cs.isEmpty && cs.getLast? ≠ some '@' &&
    (cs.foldlM AuthorityReading.next? .start).any AuthorityReading.mayEnd

/-! ## Targets -/

/-- The longest target, in bytes. -/
def maxSize : Nat := 65534

/-- The path of a target with a scheme, given what follows the scheme. -/
def absolutePath? (cs : List Char) : Option (List Char) :=
  let (authority, tail) := cs.span fun c => c ∉ ['/', '?', '#']
  if isAuthority authority then
    (localPath? tail).map fun path => if path.isEmpty then ['/'] else path
  else none

def path? (target : String) : Option (List Char) :=
  if maxSize < target.utf8ByteSize then none
  else
    match target.toList with
    | ['*'] => some ['*']
    | '/' :: cs => localPath? ('/' :: cs)
    | cs =>
      match cs.span isSchemeChar with
      | (scheme, ':' :: '/' :: '/' :: rest) =>
        if scheme.length ≤ maxScheme then absolutePath? rest else none
      | _ => if isAuthority cs then some [] else none

end Target

end Amity.Gateway
