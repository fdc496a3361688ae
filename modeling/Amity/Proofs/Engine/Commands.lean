/-
  Amity/Proofs/Engine/Commands.lean
  =================================
  **The five things a command can do.**  A command changes nothing, or it changes ties and tells the
  target and the siblings, or it renames the player, deletes the player, or lets the session show
  a status.  `handleCommand_cases` says so once for all commands, with what each of the five is; a
  statement about all commands is then proved for these five and never looks at a command again.
-/
import Amity.Engine.System
import Amity.Proofs.Changes
import Amity.Proofs.Presence.Delivery

namespace Amity.Engine

/-! ## Changes of ties -/

/-- The changes of ties that a session can ask for by a command, with whom they concern. -/
inductive Asks (e : Engine) (s : Session) (target : Name) : Command → TieChange → Prop where
  | request {t : String} : Asks e s target (.request t)
      ⟨e.database.request s.name target, [.update none], .update none, s⟩
  | remove {t : String} : Asks e s target (.remove t)
      ⟨e.onGraph (e.database.graph.removeFriendship s.name target), [.update (some s.name)],
        .update (some target), s.forget target⟩
  | cancel {t : String} : Asks e s target (.cancel t)
      ⟨e.onGraph (e.database.graph.deleteRequest s.name target), [.update none], .update none, s⟩
  | accept {t : String} : Asks e s target (.accept t)
      ⟨e.onGraph (e.database.graph.acceptRequest target s.name),
        [.probe s.name (e.presence.statusOf s.name) s.connection, .update none], .update none, s⟩
  | refuse {t : String} : Asks e s target (.refuse t)
      ⟨e.onGraph (e.database.graph.deleteRequest target s.name), [.update none], .update none, s⟩

/-- The engine with another database, after the notices of a change of ties have gone out. -/
def tieChanged (e : Engine) (s : Session) (target : Name) (change : TieChange)
    (database : Database) : Engine :=
  ({ e with database }.notifyAll (change.toTarget.map (target, ·))).tellSiblings s
    change.toSiblings

theorem commitTies_cases (e : Engine) (s : Session) (target : Name) (change : TieChange) :
    e.commitTies s target change = ⟨.snapshot, s, e⟩ ∨
      ∃ database, change.outcome = .ok (true, database) ∧
        e.commitTies s target change =
          ⟨.snapshot, change.session, e.tieChanged s target change database⟩ := by
  unfold commitTies
  split
  · next database houtcome => exact Or.inr ⟨database, houtcome, rfl⟩
  · exact Or.inl rfl

theorem onGraph_eq_ok {e : Engine} {r : Except GraphError (Bool × Graph)} {made : Bool}
    {database : Database} (h : e.onGraph r = .ok (made, database)) :
    ∃ graph, r = .ok (made, graph) ∧ database = { e.database with graph } := by
  unfold onGraph Database.onGraph at h
  cases r with
  | error => cases h
  | ok r =>
    obtain ⟨_, graph⟩ := r
    cases h
    exact ⟨graph, rfl, rfl⟩

theorem withTarget_cases (e : Engine) (s : Session) (text : String)
    (act : Engine → Session → Name → Turn) :
    e.withTarget s text act = ⟨.snapshot, s, e⟩ ∨
      ∃ target, e.hasPlayer target = true ∧ e.withTarget s text act = act e s target := by
  unfold withTarget
  split
  · next target _ =>
    split
    · next hplayer => exact Or.inr ⟨target, hplayer, rfl⟩
    · exact Or.inl rfl
  · exact Or.inl rfl

/-! ## Renaming and deletion -/

/-- The engine after a session's player has taken another name. -/
def renamed (e : Engine) (s : Session) (new : Name) (ties : Ties) (database : Database) : Engine :=
  { e with
    database
    presence := (e.presence.rebind s.name new
      (renameOutbox ties s.name new (e.presence.statusOf s.name))).2 }.tellSiblings
    (s.renamed new) (.renamed s.name new)

theorem renamed_eq (e : Engine) (s : Session) (new : Name) (ties : Ties) (database : Database) :
    e.renamed s new ties database =
      (({ e with database, presence := e.presence.rebound s.name new } : Engine).notifyAll
        (renameOutbox ties s.name new (e.presence.statusOf s.name))).tellSiblings
        (s.renamed new) (.renamed s.name new) := rfl

theorem rename_cases (e : Engine) (s : Session) (text : String) :
    e.rename s text = ⟨.snapshot, s, e⟩ ∨
      ∃ new ties database, Name.parse? text = some new ∧ s.name ≠ new ∧
        e.database.rename s.name new = .ok (ties, database) ∧
        e.rename s text =
          ⟨.renamed s.name new, s.renamed new, e.renamed s new ties database⟩ := by
  unfold rename
  split
  · exact Or.inl rfl
  · next new hparse =>
    dsimp only
    split
    · exact Or.inl rfl
    · next hne =>
      split
      · exact Or.inl rfl
      · next ties database hrename =>
        exact Or.inr ⟨new, ties, database, hparse, Ne.symm hne, hrename, rfl⟩

/-- The engine after the sessions of a name have been told to end. -/
def withoutPlayer (e : Engine) (n : Name) (outbox : Outbox) (database : Database) : Engine :=
  { e with database, presence := (e.presence.evict n outbox).2 }

theorem withoutPlayer_eq (e : Engine) (n : Name) (outbox : Outbox) (database : Database) :
    e.withoutPlayer n outbox database =
      ({ e with database, presence := e.presence.evicted n } : Engine).notifyAll outbox := rfl

/-- A deletion either finds no player and changes nothing that is stored, or it takes the player
    out and tells the peers. -/
theorem deletePlayer_eq_ok {e e' : Engine} {n : Name} {gone : Bool}
    (h : e.deletePlayer n = .ok (gone, e')) :
    (gone = false ∧ e.database.delete n = .ok none ∧ e' = e.withoutPlayer n [] e.database) ∨
      ∃ ties database, gone = true ∧ e.database.delete n = .ok (some (ties, database)) ∧
        e' = e.withoutPlayer n (deleteOutbox ties n) database := by
  unfold deletePlayer at h
  cases hdelete : e.database.delete n with
  | error => simp [hdelete, bind, Except.bind] at h
  | ok r =>
    cases r with
    | none =>
      simp only [hdelete, bind, Except.bind, pure, Except.pure] at h
      cases h
      exact Or.inl ⟨rfl, rfl, rfl⟩
    | some r =>
      obtain ⟨ties, database⟩ := r
      simp only [hdelete, bind, Except.bind, pure, Except.pure] at h
      cases h
      exact Or.inr ⟨ties, database, rfl, rfl, rfl⟩

/-! ## Commands -/

/-- The engine after a session has shown a status. -/
def shown (e : Engine) (s : Session) (status : Status) : Engine :=
  let e := { e with presence := e.presence.setStatus s.connection status }
  e.broadcast s.name (e.presence.statusOf s.name)

/-- What can come out of a command of a session that is attached under the name it remembers. -/
inductive Performs (e : Engine) (s : Session) (command : Command) : Turn → Prop where
  | nothing : Performs e s command ⟨.snapshot, s, e⟩
  | ties {target : Name} {change : TieChange} {database : Database}
      (hplayer : e.hasPlayer target = true) (hasks : e.Asks s target command change)
      (houtcome : change.outcome = .ok (true, database)) :
      Performs e s command ⟨.snapshot, change.session, e.tieChanged s target change database⟩
  | rename {text : String} {new : Name} {ties : Ties} {database : Database}
      (hcommand : command = .rename text) (hne : s.name ≠ new)
      (hrename : e.database.rename s.name new = .ok (ties, database)) :
      Performs e s command
        ⟨.renamed s.name new, s.renamed new, e.renamed s new ties database⟩
  | delete {gone : Bool} {e' : Engine} (hcommand : command = .deleteAccount)
      (hdelete : e.deletePlayer s.name = .ok (gone, e')) :
      Performs e s command ⟨.close, s, e'⟩
  | status (status : Status) :
      Performs e s command ⟨.snapshot, s.setStatus status, e.shown s status⟩

/-- A change of ties that is asked for by name. -/
theorem performs_withTarget (e : Engine) (s : Session) (command : Command) (text : String)
    {act : Engine → Session → Name → Turn} {change : Name → TieChange}
    (hact : ∀ target, act e s target = e.commitTies s target (change target))
    (hasks : ∀ target, e.Asks s target command (change target)) :
    e.Performs s command (e.withTarget s text act) := by
  rcases e.withTarget_cases s text act with heq | ⟨target, hplayer, heq⟩
  · rw [heq]
    exact .nothing
  · rw [heq, hact]
    rcases e.commitTies_cases s target (change target) with heq | ⟨database, houtcome, heq⟩
    · rw [heq]
      exact .nothing
    · rw [heq]
      exact .ties hplayer (hasks target) houtcome

theorem perform_performs (e : Engine) (s : Session) (command : Command) :
    e.Performs s command (e.perform s command) := by
  cases command with
  | request t => exact e.performs_withTarget s _ t (fun _ => rfl) fun _ => .request
  | remove t => exact e.performs_withTarget s _ t (fun _ => rfl) fun _ => .remove
  | cancel t => exact e.performs_withTarget s _ t (fun _ => rfl) fun _ => .cancel
  | accept t => exact e.performs_withTarget s _ t (fun _ => rfl) fun _ => .accept
  | refuse t => exact e.performs_withTarget s _ t (fun _ => rfl) fun _ => .refuse
  | rename t =>
    show e.Performs s _ (e.rename s t)
    rcases e.rename_cases s t with heq | ⟨new, ties, database, -, hne, hrename, heq⟩
    · rw [heq]
      exact .nothing
    · rw [heq]
      exact .rename rfl hne hrename
  | deleteAccount =>
    show e.Performs s _ (e.deleteAccount s)
    unfold deleteAccount
    split
    · next hdelete => exact .delete rfl hdelete
    · exact .nothing
  | enterGame => exact .status .inGame
  | leaveGame => exact .status .connected
  | other _ => exact .nothing

theorem handleCommand_eq {e : Engine} {s : Session} {n : Name} (command : Command)
    (hname : e.presence.nameOf? s.connection = some n) (hplayer : e.hasPlayer n = true) :
    e.handleCommand s command = e.perform (s.renamed n) command := by
  unfold handleCommand
  simp [hname, hplayer]

/-- A command is carried out under the name the connection is attached under, or not at all. -/
theorem handleCommand_cases (e : Engine) (s : Session) (command : Command) :
    (e.presence.nameOf? s.connection = none ∧ e.handleCommand s command = ⟨.close, s, e⟩) ∨
      ∃ n, e.presence.nameOf? s.connection = some n ∧
        ((e.hasPlayer n = false ∧ e.handleCommand s command = ⟨.close, s.renamed n, e⟩) ∨
          e.hasPlayer n = true ∧
            e.Performs (s.renamed n) command (e.handleCommand s command)) := by
  cases hname : e.presence.nameOf? s.connection with
  | none =>
    left
    unfold handleCommand
    rw [hname]
    exact ⟨rfl, rfl⟩
  | some n =>
    refine Or.inr ⟨n, rfl, ?_⟩
    cases hplayer : e.hasPlayer n with
    | true =>
      rw [handleCommand_eq command hname hplayer]
      exact Or.inr ⟨rfl, e.perform_performs (s.renamed n) command⟩
    | false =>
      left
      unfold handleCommand
      simp [hname, hplayer]

/-- By entering a game or leaving it a session shows a status, or nothing happens. -/
theorem handleCommand_status_cases (e : Engine) (s : Session) {command : Command}
    (hcommand : command = .enterGame ∨ command = .leaveGame) :
    (e.handleCommand s command).engine = e ∨
      ∃ n status, e.presence.nameOf? s.connection = some n ∧
        (e.handleCommand s command).engine = e.shown (s.renamed n) status := by
  rcases e.handleCommand_cases s command with ⟨-, heq⟩ | ⟨n, hname, ⟨-, heq⟩ | ⟨hplayer, -⟩⟩
  · left
    rw [heq]
  · left
    rw [heq]
  · right
    rw [handleCommand_eq command hname hplayer]
    rcases hcommand with rfl | rfl
    · exact ⟨n, .inGame, hname, rfl⟩
    · exact ⟨n, .connected, hname, rfl⟩

end Amity.Engine
