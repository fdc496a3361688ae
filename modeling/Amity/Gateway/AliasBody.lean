/-
  Amity/Gateway/AliasBody.lean
  ============================
  **The body of an alias request.**  The body has to be declared as JSON and to start with a string
  or with null; what comes behind that value is not read.  A body that starts with a value of
  another type is refused as such, anything else as malformed.
-/
import Amity.Json.Reader

namespace Amity.Gateway

/-! ## The declared type -/

namespace MediaType

def isTokenChar (c : Char) : Bool :=
  c.isAlphanum ||
    c ∈ ['!', '#', '$', '%', '&', '\'', '*', '+', '-', '.', '^', '_', '\x60', '|', '~']

/-- Whether a character may stand in a quoted value; the quotation mark may, as the first. -/
def isQuotable (c : Char) : Bool := ' ' ≤ c && c ≤ '~'

/-- How far a list of parameters, each a name, an equals sign and a value, has been read. -/
inductive Reading where
  /-- Before a parameter, or behind the last. -/
  | between
  | name
  /-- Behind the equals sign. -/
  | equals
  | value
  /-- Behind the quotation mark that opens a value. -/
  | opened
  | quoted
  /-- Behind the quotation mark that closes a value. -/
  | closed
  deriving DecidableEq, Repr

/-- Reads one character of a list of parameters.  Spaces may stand before a name and behind a
closing quotation mark, and nowhere else. -/
def Reading.next? : Reading → Char → Option Reading
  | .between, c => if c = ' ' then some .between else if isTokenChar c then some .name else none
  | .name, c => if c = '=' then some .equals else if isTokenChar c then some .name else none
  | .equals, c => if c = '"' then some .opened else if isTokenChar c then some .value else none
  | .value, c => if c = ';' then some .between else if isTokenChar c then some .value else none
  | .opened, c => if isQuotable c then some .quoted else none
  | .quoted, c => if c = '"' then some .closed else if isQuotable c then some .quoted else none
  | .closed, c => if c = ';' then some .between else if c = ' ' then some .closed else none

/-- Whether a list of parameters may end here.  A value may be left out at the end, a name alone
may not stand there. -/
def Reading.mayEnd : Reading → Bool
  | .name | .opened | .quoted => false
  | .between | .equals | .value | .closed => true

def isParameterList (cs : List Char) : Bool :=
  (cs.foldlM Reading.next? .between).any Reading.mayEnd

/-- Whether a subtype is JSON: up to its last plus sign, or behind it. -/
def isJsonSubtype (cs : List Char) : Bool :=
  let json := ['j', 's', 'o', 'n']
  match cs.reverse.span (· ≠ '+') with
  | (_, []) => cs = json
  | (suffix, _ :: base) =>
    if base.isEmpty then cs = json else suffix.reverse = json || base.reverse = json

/-- Whether a declared type is one of JSON.  A semicolon sets the parameters off. -/
def isJson (declared : String) : Bool :=
  match declared.toList.span isTokenChar with
  | (type, '/' :: cs) =>
    let (subtype, tail) := cs.span isTokenChar
    type.map Char.toLower = "application".toList && isJsonSubtype (subtype.map Char.toLower) &&
      match tail with
      | [] => true
      | ';' :: parameters => isParameterList parameters
      | _ => false
  | _ => false

end MediaType

/-! ## The value -/

inductive BodyError where
  | undeclared
  | malformed
  | wrongType
  deriving DecidableEq, Repr

def BodyError.status : BodyError → Nat
  | .undeclared => 415
  | .malformed => 400
  | .wrongType => 422

/-- What is wrong with characters that do not start with a string or with null. -/
def otherValueError : List Char → BodyError
  | '[' :: _ => .wrongType
  | '\x7b' :: _ => .wrongType
  | 't' :: 'r' :: 'u' :: 'e' :: _ => .wrongType
  | 'f' :: 'a' :: 'l' :: 's' :: 'e' :: _ => .wrongType
  | cs =>
    match Json.readNumeral cs with
    | some (x, _) => if x.outOfRange then .malformed else .wrongType
    | none => .malformed

/-- The alias that a body asks for, or that there shall be none. -/
def readAlias (body : String) : Except BodyError (Option String) :=
  match Json.skipBlanks body.toList with
  | 'n' :: 'u' :: 'l' :: 'l' :: _ => .ok none
  | '"' :: cs =>
    match Json.readLiteral cs with
    | some (.text s, _) => .ok (some s)
    | _ => .error .malformed
  | cs => .error (otherValueError cs)

def aliasOfRequest (declared : Option String) (body : String) :
    Except BodyError (Option String) :=
  if declared.any MediaType.isJson then readAlias body else .error .undeclared

end Amity.Gateway
