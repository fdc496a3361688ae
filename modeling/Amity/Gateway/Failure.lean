/-
  Amity/Gateway/Failure.lean
  ==========================
  **Answers, and how failures are answered.**  A failure has a cause, and the cause fixes the
  status: what was asked for is no valid request (400), the player does not exist (404), a name or
  an alias is somebody's already (409), and everything else is the service's own trouble (500).
-/
import Amity.Command
import Amity.Database

namespace Amity.Gateway

/-- An answer to a request.  The body is missing where it is the stock text for the status. -/
structure Response where
  status : Nat
  body : Option String
  deriving DecidableEq, Repr

def Response.page (body : String) : Response := ⟨200, some body⟩

def Response.stock (status : Nat) : Response := ⟨status, none⟩

/-- Why a request failed. -/
inductive Failure where
  | request (e : RequestError)
  | store (e : StoreError)
  | unknownPlayer (text : String)
  | other (text : String)
  /-- A failure for which the status was chosen by hand. -/
  | chosen (status : Nat) (text : String)
  deriving DecidableEq, Repr

namespace Failure

def message : Failure → String
  | .request e => e.message
  | .store e => e.message
  | .unknownPlayer text => "no player named " ++ Text.quoted text
  | .other text => text
  | .chosen _ text => text

def status : Failure → Nat
  | .request _ => 400
  | .store (.directory (.nameTaken _)) => 409
  | .store (.directory (.aliasTaken _)) => 409
  | .store (.directory (.notFound _)) => 404
  | .store (.directory (.invalidAlias _)) => 400
  | .store (.directory .corrupt) => 500
  | .store (.graph _) => 500
  | .unknownPlayer _ => 404
  | .other _ => 500
  | .chosen status _ => status

def response (f : Failure) : Response :=
  ⟨f.status, some ("Something went wrong: " ++ f.message)⟩

end Failure

end Amity.Gateway
