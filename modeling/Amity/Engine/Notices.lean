/-
  Amity/Engine/Notices.lean
  =========================
  **Reading notices.**  A session reads the notices of its mailbox one by one, oldest first, and
  sends its client a snapshot after each.  Reading changes what the session knows; only a probe is
  answered, by one notice to the connection that asked, and nothing that is stored changes.
-/
import Amity.Engine.Basic

namespace Amity.Engine

/-- Takes in a probe: a friend's status is remembered, and the friend is told the player's. -/
def answerProbe (e : Engine) (s : Session) (asker : Name) (status : Status) (replyTo : Connection) :
    Turn :=
  match e.database.graph.areFriends s.name asker with
  | .ok true =>
    let answer := Notice.status s.name (e.presence.statusOf s.name)
    ⟨.snapshot, s.learn asker status,
      { e with presence := (e.presence.sendTo asker replyTo answer).2 }⟩
  | _ => ⟨.snapshot, s, e⟩

def handleNotice (e : Engine) (s : Session) : Notice → Turn
  | .update none => ⟨.snapshot, s, e⟩
  | .update (some n) => ⟨.snapshot, s.learn n .disconnected, e⟩
  | .status friend status => ⟨.snapshot, s.learn friend status, e⟩
  | .probe asker status replyTo => e.answerProbe s asker status replyTo
  | .renamed old new =>
    if old = s.name ∨ new = s.name then ⟨.renamed old new, s.renamed new, e⟩
    else ⟨.snapshot, s.forget old, e⟩

end Amity.Engine
