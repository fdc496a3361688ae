/-
  Amity/Proofs/Engine/Failures.lean
  =================================
  **A command that fails leaves everything as it was.**  Behind seven of the commands stands one
  change of the database (`changeBehind`).  The command commits that change, and whatever it tells
  anybody it tells after it.  So when the change fails, nothing has happened: the records, the
  groups, the mailboxes and what the session knows are as before, but for the name that the session
  now remembers.

  Nothing is assumed about the engine.  Its records may be texts that cannot be read, and the change
  may fail at any of them (`Database.fails_attempt` says when).
-/
import Amity.Gateway.Pages
import Amity.Proofs.Database.Failures
import Amity.Proofs.System.Run

namespace Amity

/-! ## The changes behind commands -/

namespace Engine

/-- The player that a text names, if there is one. -/
def target? (e : Engine) (text : String) : Option Name :=
  (Name.parse? text).filter fun target => e.hasPlayer target

/-- The change of the database that carries out a command of a player, if there is one. -/
def changeBehind (e : Engine) (n : Name) : Command → Option Database.Change
  | .request t => (e.target? t).map fun target => .request n target
  | .remove t => (e.target? t).map fun target => .graph (.unfriend n target)
  | .cancel t => (e.target? t).map fun target => .graph (.withdraw n target)
  | .accept t => (e.target? t).map fun target => .graph (.accept target n)
  | .refuse t => (e.target? t).map fun target => .graph (.withdraw target n)
  | .rename t => ((Name.parse? t).filter fun new => new ≠ n).map fun new => .rename n new
  | .deleteAccount => some (.delete n)
  | .enterGame | .leaveGame | .other _ => none

/-- A turn commits a change of the database, or leaves everything as it was when the change
    fails. -/
structure Commits (e : Engine) (s : Session) (c : Database.Change) (turn : Turn) : Prop where
  database : turn.engine.database = e.database.apply c
  keeps : Fails (e.database.attempt c) → turn = ⟨.snapshot, s, e⟩

section

variable {e : Engine} {s : Session}

theorem withTarget_eq (text : String) (act : Engine → Session → Name → Turn) :
    e.withTarget s text act =
      match e.target? text with
      | some target => act e s target
      | none => ⟨.snapshot, s, e⟩ := by
  unfold withTarget target?
  cases Name.parse? text with
  | none => rfl
  | some target => cases hplayer : e.hasPlayer target <;> simp [Option.filter, hplayer]

/-! ### Changes of ties -/

/-- A change of ties is committed when its outcome is that of the call. -/
theorem commits_commitTies {target : Name} {change : TieChange} {c : Database.Change}
    (hattempt : e.database.attempt c = change.outcome.map Prod.snd)
    (hidle : ∀ database, change.outcome = .ok (false, database) → database = e.database) :
    e.Commits s c (e.commitTies s target change) := by
  constructor
  · rw [Database.apply_eq, hattempt]
    unfold commitTies
    cases houtcome : change.outcome with
    | error => rfl
    | ok r =>
      obtain ⟨made, database⟩ := r
      cases made with
      | true => rfl
      | false => exact (hidle database houtcome).symm
  · intro hfails
    rw [hattempt, fails_map] at hfails
    unfold commitTies
    cases houtcome : change.outcome with
    | error => rfl
    | ok r =>
      rw [houtcome] at hfails
      exact absurd hfails (not_fails_ok _)

/-- A change of ties that is one of the graph. -/
theorem commits_onGraph {target : Name} {toTarget : List Notice} {toSiblings : Notice}
    {after : Session} {r : Except GraphError (Bool × Graph)} {c : Graph.Change}
    (hattempt : e.database.graph.attempt c = r.map Prod.snd)
    (hidle : ∀ g', r = .ok (false, g') → g' = e.database.graph) :
    e.Commits s (.graph c) (e.commitTies s target ⟨e.onGraph r, toTarget, toSiblings, after⟩) := by
  apply commits_commitTies
  · rw [Database.attempt, hattempt]
    cases r <;> rfl
  · intro database houtcome
    obtain ⟨g', hr, rfl⟩ := onGraph_eq_ok houtcome
    rw [hidle g' hr]

theorem commits_request (target : Name) :
    e.Commits s (.request s.name target) (e.request s target) := by
  refine commits_commitTies rfl fun database houtcome => ?_
  rcases Database.request_eq_ok houtcome with ⟨-, -, hdirectory, hgraph⟩ | ⟨-, rfl⟩
  · have hgraph := Graph.eq_of_createRequest hgraph
    cases database
    cases hgraph
    cases hdirectory
    rfl
  · rfl

theorem commits_withTarget {text : String} {act : Engine → Session → Name → Turn}
    {c : Database.Change} {change : Name → Database.Change}
    (hact : ∀ target, e.Commits s (change target) (act e s target))
    (hc : (e.target? text).map change = some c) : e.Commits s c (e.withTarget s text act) := by
  obtain ⟨target, htarget, rfl⟩ := Option.map_eq_some_iff.1 hc
  rw [withTarget_eq, htarget]
  exact hact target

/-! ### Names and accounts -/

theorem commits_rename {text : String} {new : Name} (hparse : Name.parse? text = some new)
    (hne : new ≠ s.name) : e.Commits s (.rename s.name new) (e.rename s text) := by
  unfold rename
  simp only [hparse, hne, if_false]
  constructor
  · rw [Database.apply_eq, Database.attempt]
    cases e.database.rename s.name new <;> rfl
  · intro hfails
    rw [Database.attempt, fails_map] at hfails
    cases hrename : e.database.rename s.name new with
    | error => rfl
    | ok r =>
      rw [hrename] at hfails
      exact absurd hfails (not_fails_ok _)

/-- A player is deleted exactly when the change of the database succeeds. -/
theorem fails_deletePlayer (n : Name) :
    Fails (e.deletePlayer n) ↔ Fails (e.database.attempt (.delete n)) := by
  unfold deletePlayer
  rw [Database.attempt, fails_map]
  cases e.database.delete n with
  | error => simp
  | ok r => cases r <;> simp

theorem commits_deleteAccount : e.Commits s (.delete s.name) (e.deleteAccount s) := by
  constructor
  · rw [Database.apply_eq, Database.attempt]
    unfold deleteAccount deletePlayer
    cases e.database.delete s.name with
    | error => rfl
    | ok r => cases r <;> rfl
  · intro hfails
    obtain ⟨err, hdelete⟩ := (fails_deletePlayer s.name).2 hfails
    unfold deleteAccount
    rw [hdelete]

/-! ### Commands -/

theorem commits_perform {command : Command} {c : Database.Change}
    (hc : e.changeBehind s.name command = some c) : e.Commits s c (e.perform s command) := by
  cases command with
  | request t => exact commits_withTarget commits_request hc
  | remove t =>
    exact commits_withTarget
      (fun _ => commits_onGraph rfl fun _ => Graph.eq_of_removeFriendship) hc
  | cancel t =>
    exact commits_withTarget (fun _ => commits_onGraph rfl fun _ => Graph.eq_of_deleteRequest) hc
  | accept t =>
    exact commits_withTarget (fun _ => commits_onGraph rfl fun _ => Graph.eq_of_acceptRequest) hc
  | refuse t =>
    exact commits_withTarget (fun _ => commits_onGraph rfl fun _ => Graph.eq_of_deleteRequest) hc
  | rename t =>
    obtain ⟨new, hnew, rfl⟩ := Option.map_eq_some_iff.1 hc
    obtain ⟨hparse, hne⟩ := Option.filter_eq_some_iff.1 hnew
    exact commits_rename hparse (by simpa using hne)
  | deleteAccount =>
    cases hc
    exact commits_deleteAccount
  | enterGame => cases hc
  | leaveGame => cases hc
  | other verb => cases hc

/-- A command without such a change stores nothing. -/
theorem database_perform {command : Command} (hc : e.changeBehind s.name command = none) :
    (e.perform s command).engine.database = e.database := by
  have hnobody : ∀ text act, e.target? text = none →
      (e.withTarget s text act).engine.database = e.database := by
    intro text act htarget
    rw [withTarget_eq, htarget]
  cases command with
  | request t => exact hnobody t _ (Option.map_eq_none_iff.1 hc)
  | remove t => exact hnobody t _ (Option.map_eq_none_iff.1 hc)
  | cancel t => exact hnobody t _ (Option.map_eq_none_iff.1 hc)
  | accept t => exact hnobody t _ (Option.map_eq_none_iff.1 hc)
  | refuse t => exact hnobody t _ (Option.map_eq_none_iff.1 hc)
  | rename t =>
    have hfilter := Option.map_eq_none_iff.1 hc
    show (e.rename s t).engine.database = e.database
    unfold rename
    cases hparse : Name.parse? t with
    | none => rfl
    | some new =>
      have hsame : new = s.name := by simpa [hparse, Option.filter] using hfilter
      simp [hsame]
  | deleteAccount => cases hc
  | enterGame => rfl
  | leaveGame => rfl
  | other verb => rfl

end

/-! ## Every engine -/

/-- Whatever is stored and whoever is here: what fails has no effect. -/
structure FailsCleanly (e : Engine) : Prop where
  /-- A command commits the change behind it or changes nothing, -/
  commits : ∀ s n command c, e.presence.nameOf? s.connection = some n → e.hasPlayer n = true →
    e.changeBehind n command = some c → e.Commits (s.renamed n) c (e.handleCommand s command)
  /-- and without such a change it stores nothing. -/
  idle : ∀ s n command, e.presence.nameOf? s.connection = some n →
    e.changeBehind n command = none → (e.handleCommand s command).engine.database = e.database
  /-- A player is deleted when the change of the database succeeds, and only then, -/
  deletes : ∀ n, Fails (e.deletePlayer n) ↔ Fails (e.database.attempt (.delete n))
  /-- and when it fails neither the engine nor any session changes. -/
  system : ∀ sys n, sys.engine = e → Fails (e.deletePlayer n) →
    System.act sys (.delete n) = sys
  page : ∀ n err req piece, e.deletePlayer n = .error err →
    Gateway.answerNamed e req n.text (.deletePlayer piece) =
      (.answer (Gateway.Failure.store err).response, e)

/-- **What fails has no effect**, in every engine. -/
theorem failsCleanly (e : Engine) : e.FailsCleanly where
  commits s n command c hname hplayer hc := by
    rw [handleCommand_eq command hname hplayer]
    exact commits_perform hc
  idle s n command hname hc := by
    cases hplayer : e.hasPlayer n with
    | true =>
      rw [handleCommand_eq command hname hplayer]
      exact database_perform hc
    | false => simp [handleCommand, hname, hplayer]
  deletes n := fails_deletePlayer n
  system sys n hsys hfails := by
    subst hsys
    obtain ⟨err, hdelete⟩ := hfails
    simp [System.act, hdelete, outcomeOr, Except.map]
  page n err req piece hdelete := by
    simp [Gateway.answerNamed, Gateway.deletePlayer, Gateway.nameOf, Name.parse, hdelete,
      Gateway.answerResult, Except.mapError]

/-! ### A record that cannot be read -/

/-- A player with a session, and whose only friend has a record that is no text of ties. -/
def unreadableFriend : Engine :=
  let ties : Ties := ⟨[⟨"r", Name.isValid_r⟩], [], []⟩
  let graph : Graph := ⟨(Table.empty.insert "q" ties.encode).insert "r" "?"⟩
  { start ⟨graph, Directory.empty.save (.fresh ⟨"q", Name.isValid_q⟩)⟩ 4 with
    presence := Presence.empty.attach ⟨"q", Name.isValid_q⟩ ⟨0⟩ }

/-- A renaming fails at the record of the friend.  The session remembers another name before, and
    that it then has the name of its player is all that happens. -/
theorem failsCleanly_unreadableFriend :
    Fails (unreadableFriend.database.attempt (.rename ⟨"q", by decide⟩ ⟨"s", by decide⟩)) ∧
      unreadableFriend.handleCommand (Session.start ⟨0⟩ ⟨"r", by decide⟩) (.rename "s") =
        Turn.mk .snapshot (Session.start ⟨0⟩ ⟨"q", by decide⟩) unreadableFriend := by
  have hfails : Fails (unreadableFriend.database.attempt
      (.rename ⟨"q", by decide⟩ ⟨"s", by decide⟩)) := by
    have hties : unreadableFriend.database.graph.ties ⟨"q", by decide⟩ =
        ⟨[⟨"r", by decide⟩], [], []⟩ := by decide +kernel
    have hunreadable : unreadableFriend.database.graph.Unreadable ⟨"r", by decide⟩ :=
      ⟨"?", by decide +kernel, by decide +kernel⟩
    rw [Database.fails_attempt]
    refine Or.inr (Or.inr (Or.inr (Or.inr ⟨by decide, Or.inr ⟨_, ?_, hunreadable⟩⟩)))
    rw [hties]
    decide
  have hchange : unreadableFriend.changeBehind ⟨"q", by decide⟩ (.rename "s") =
      some (.rename ⟨"q", by decide⟩ ⟨"s", by decide⟩) := by decide +kernel
  have hname : unreadableFriend.presence.nameOf? ⟨0⟩ = some ⟨"q", by decide⟩ := by decide +kernel
  have hplayer : unreadableFriend.hasPlayer ⟨"q", by decide⟩ = true := by decide +kernel
  have hcommits := (failsCleanly unreadableFriend).commits (Session.start ⟨0⟩ ⟨"r", by decide⟩)
    ⟨"q", by decide⟩ (.rename "s") _ hname hplayer hchange
  exact ⟨hfails, hcommits.keeps hfails⟩

end Engine

end Amity
