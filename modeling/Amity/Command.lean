/-
  Amity/Command.lean
  ==================
  **What a client may say.**  A message is a JSON array that starts with a verb; five verbs and the
  rename take one more string, and what follows is ignored.  Verbs nobody knows are kept, so that a
  newer client is answered like any other.  The string behind a verb is kept as it is: whether it
  names a player is decided where the command is carried out.
-/
import Amity.Json.Fields
import Amity.Name
import Amity.Text.Quoted

namespace Amity

inductive Command where
  | request (target : String)
  | remove (target : String)
  | cancel (target : String)
  | accept (target : String)
  | refuse (target : String)
  | rename (target : String)
  | deleteAccount
  | enterGame
  | leaveGame
  | other (verb : String)
  deriving DecidableEq, Repr

/-- Why a text from outside cannot be understood. -/
inductive RequestError where
  | malformed
  | notACommand
  | missingArgument (verb : String)
  | invalidName (text : String)
  deriving DecidableEq, Repr

/-- The wording of the error; what exactly is wrong with malformed JSON is not part of it. -/
def RequestError.message : RequestError → String
  | .malformed => "malformed message"
  | .notACommand => "message must be a non-empty array starting with a verb"
  | .missingArgument verb => verb ++ " expects a string argument"
  | .invalidName text => "invalid username " ++ Text.quoted text

def Name.parse (s : String) : Except RequestError Name :=
  match parse? s with
  | some n => .ok n
  | none => .error (.invalidName s)

namespace Command

def verb : Command → String
  | .request _ => "request_new_friend"
  | .remove _ => "remove_friend"
  | .cancel _ => "cancel_friend_request"
  | .accept _ => "accept_friend_request"
  | .refuse _ => "refuse_friend_request"
  | .rename _ => "rename"
  | .deleteAccount => "delete_user"
  | .enterGame => "in_game"
  | .leaveGame => "game_done"
  | .other verb => verb

def argument? : Command → Option String
  | .request t | .remove t | .cancel t | .accept t | .refuse t | .rename t => some t
  | _ => none

/-! ### Commands in JSON -/

def ofVerb (verb : String) (items : List Json) : Except RequestError Command :=
  let argument (shown : String) (make : String → Command) : Except RequestError Command :=
    match items.head?.bind Json.text? with
    | some t => .ok (make t)
    | none => .error (.missingArgument shown)
  match verb with
  | "request_new_friend" => argument "request_new_friend" .request
  | "remove_friend" => argument "remove_friend" .remove
  | "cancel_friend_request" => argument "cancel_friend_request" .cancel
  | "accept_friend_request" => argument "accept_friend_request" .accept
  | "refuse_friend_request" => argument "refuse_friend_request" .refuse
  | "rename" => argument "rename" .rename
  | "update_username" => argument "rename" .rename
  | "delete_user" => .ok .deleteAccount
  | "in_game" => .ok .enterGame
  | "in game" => .ok .enterGame
  | "game_done" => .ok .leaveGame
  | "game done" => .ok .leaveGame
  | verb => .ok (.other verb)

def ofJson : Json → Except RequestError Command
  | .array (v :: items) =>
    match v.text? with
    | some verb => ofVerb verb items
    | none => .error .notACommand
  | _ => .error .notACommand

def parse (s : String) : Except RequestError Command :=
  match Json.read? s with
  | some v => ofJson v
  | none => .error .malformed

/-- The array of the verb and the string behind it. -/
def toJson (c : Command) : Json :=
  Json.ofTexts (c.verb :: c.argument?.toList)

def encode (c : Command) : String := c.toJson.write

end Command

end Amity
