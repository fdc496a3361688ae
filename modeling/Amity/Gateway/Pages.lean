/-
  Amity/Gateway/Pages.lean
  ========================
  **Answering requests.**  A request is refused, in this order, when no page has its path, when the
  page does not answer to its method, when the piece that names the player is no text, and when a
  body is needed and is not acceptable.  After that the page decides.

  Apart from adding a player, every page wants the player to exist.
-/
import Amity.Engine.Commands
import Amity.Gateway.AliasBody
import Amity.Gateway.Failure
import Amity.Gateway.Route

namespace Amity.Gateway

structure Request where
  method : String
  target : String
  body : String
  contentType : Option String
  /-- Whether the client asks to go on with a websocket. -/
  upgrade : Bool

/-- Whether the parts make a request: the method is a token, the target is one, and the declared
type has no control characters but tabs. -/
def Request.isWellFormed (req : Request) : Bool :=
  !req.method.isEmpty && req.method.toList.all MediaType.isTokenChar &&
    (Target.path? req.target).isSome &&
    req.contentType.all fun t => t.toList.all fun c => c = '\t' || (' ' ≤ c && c ≠ '\x7f')

/-- What a request leads to: an answer, or a websocket of a player. -/
inductive Outcome where
  | answer (r : Response)
  | socket (n : Name)

/-- What a page ends with, a body or a failure, and the engine after it. -/
abbrev PageResult := Except Failure String × Engine

/-- What has been made of the engine counts only with an answer: after a failure it is as it was. -/
def transaction (e : Engine) : Except Failure (String × Engine) → PageResult
  | .ok (body, e) => (.ok body, e)
  | .error f => (.error f, e)

/-! ## Pages -/

def nameOf (text : String) : Except Failure Name :=
  (Name.parse text).mapError .request

def knownPlayer (e : Engine) (text : String) : Except Failure Name := do
  let n ← nameOf text
  if e.hasPlayer n then return n else .error (.unknownPlayer text)

def onDirectory {α : Type} (r : Except DirectoryError α) : Except Failure α :=
  r.mapError fun e => .store (.directory e)

def onGraph {α : Type} (r : Except GraphError α) : Except Failure α :=
  r.mapError fun e => .store (.graph e)

def addPlayer (e : Engine) (text : String) : PageResult :=
  transaction e do
    let n ← nameOf text
    let (profile, directory) ← onDirectory (e.database.directory.create n)
    return (profile.encode, { e with database := { e.database with directory } })

def showList (e : Engine) (text : String) (list : Graph → Name → Except GraphError (List Name)) :
    PageResult :=
  transaction e do
    let n ← knownPlayer e text
    let names ← onGraph (list e.database.graph n)
    return ((Name.listToJson names).write, e)

def setAlias (e : Engine) (text : String) (choice : Option String) : PageResult :=
  transaction e do
    let n ← knownPlayer e text
    let (profile, directory) ← onDirectory (e.database.directory.setAlias n choice)
    return (profile.encode, { e with database := { e.database with directory } })

/-- Deletes a player.  Sessions that are attached under the name are ended even when there is no
such player. -/
def deletePlayer (e : Engine) (text : String) : PageResult :=
  match nameOf text with
  | .error f => (.error f, e)
  | .ok n =>
    match e.deletePlayer n with
    | .error err => (.error (.store err), e)
    | .ok (existed, e) => (if existed then .ok "" else .error (.unknownPlayer text), e)

/-! ## Requests -/

/-- The answer for a page's result. -/
def answerResult : PageResult → Outcome × Engine
  | (.ok body, e) => (.answer (.page body), e)
  | (.error f, e) => (.answer f.response, e)

def openSocket (e : Engine) (text : String) : Outcome :=
  match Name.parse? text with
  | some n => if e.hasPlayer n then .socket n else .answer (.stock 403)
  | none => .answer (.stock 403)

/-- Answers a request for a page that names a player by this text. -/
def answerNamed (e : Engine) (req : Request) (text : String) : Route → Outcome × Engine
  | .root => (.answer (.stock 404), e)
  | .addPlayer _ => answerResult (addPlayer e text)
  | .friends _ => answerResult (showList e text Graph.friendsOf)
  | .sentRequests _ => answerResult (showList e text Graph.pendingSent)
  | .receivedRequests _ => answerResult (showList e text Graph.pendingReceived)
  | .deletePlayer _ => answerResult (deletePlayer e text)
  | .setAlias _ =>
    match aliasOfRequest req.contentType req.body with
    | .ok choice => answerResult (setAlias e text choice)
    | .error b => (.answer (.stock b.status), e)
  | .socket _ => (openSocket e text, e)

/-- Whether a request for a websocket page does not ask for a websocket, and the status then. -/
def refusedUpgrade? (req : Request) : Route → Option Nat
  | .socket _ =>
    if req.method = "HEAD" then some 405 else if req.upgrade then none else some 400
  | _ => none

/-- Answers a request for a page that answers to its method. -/
def answerRoute (e : Engine) (req : Request) (r : Route) : Outcome × Engine :=
  match refusedUpgrade? req r with
  | some status => (.answer (.stock status), e)
  | none =>
    match r.piece? with
    | none => (.answer (.page "tether is running"), e)
    | some piece =>
      match Route.decodePiece? piece with
      | some text => answerNamed e req text r
      | none => (.answer (.stock 400), e)

/-- Leaves out the body, as an answer to `HEAD` has none. -/
def withoutBody : Outcome → Outcome
  | .answer r => .answer { r with body := if r.status = 200 then some "" else none }
  | .socket n => .socket n

def respond (e : Engine) (req : Request) : Outcome × Engine :=
  match Route.ofTarget? req.target with
  | none => (.answer (.stock 404), e)
  | some r =>
    if r.allows req.method then
      let (outcome, e) := answerRoute e req r
      (if req.method = "HEAD" then withoutBody outcome else outcome, e)
    else (.answer (.stock 405), e)

end Amity.Gateway
