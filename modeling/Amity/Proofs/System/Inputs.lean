/-
  Amity/Proofs/System/Inputs.lean
  ===============================
  **Only players have ties and sessions.**  An `Input` is anything that can come from outside: an
  action, a notice that a session is handed out of turn, or the end of a mailbox's reader.  Whatever
  comes, the database goes on by guarded changes (`Database.Next`), so that who has ties has an
  account, and the registry follows the accounts.

  The accounts, the records of ties and the registry are changed by different operations; that they
  agree is `System.ReservesNames`, which also says what it is good for: a name without an account
  can be taken, and who takes it starts with nothing.
-/
import Amity.Proofs.Database.Players
import Amity.Proofs.System.Run

namespace Amity

/-- What can come from outside. -/
inductive Input where
  | action (a : Action)
  /-- A session is handed a notice, whether or not it waits for the session. -/
  | notice (c : Connection) (x : Notice)
  /-- Nobody reads the mailbox of the connection any more. -/
  | hangUp (c : Connection)
  deriving DecidableEq, Repr

/-! ## How the database goes on -/

/-- The database stays as it is, or there is a guarded change. -/
inductive Database.Next (db : Database) : Database → Prop where
  | same : Next db db
  | change {c : Database.Change} (hc : c.isGuarded = true) : Next db (db.apply c)

theorem Database.WellFormed.next {db db' : Database} (h : db.WellFormed) (hnext : db.Next db') :
    db'.WellFormed := by
  cases hnext with
  | same => exact h
  | change hc => exact h.apply hc

namespace Engine

variable {e e' : Engine}

theorem next_onGraph {r : Except GraphError (Bool × Graph)} {made : Bool} {database : Database}
    (c : Graph.Change) (hc : Database.Change.isGuarded (.graph c) = true)
    (hr : e.database.graph.attempt c = r.map Prod.snd)
    (houtcome : e.onGraph r = .ok (made, database)) : e.database.Next database := by
  obtain ⟨graph, rfl, rfl⟩ := onGraph_eq_ok houtcome
  have happly : e.database.apply (.graph c) = { e.database with graph } := by
    simp only [Database.apply, Graph.apply, hr]
    rfl
  exact happly ▸ .change hc

theorem Asks.next {s : Session} {target : Name} {command : Command} {change : TieChange}
    {made : Bool} {database : Database} (hasks : e.Asks s target command change)
    (houtcome : change.outcome = .ok (made, database)) : e.database.Next database := by
  cases hasks with
  | request =>
    have hrequest : e.database.request s.name target = .ok (made, database) := houtcome
    have happly : e.database.apply (.request s.name target) = database := by
      simp only [Database.apply, hrequest]
      rfl
    exact happly ▸ .change rfl
  | remove => exact next_onGraph (.unfriend s.name target) rfl rfl houtcome
  | cancel => exact next_onGraph (.withdraw s.name target) rfl rfl houtcome
  | accept => exact next_onGraph (.accept target s.name) rfl rfl houtcome
  | refuse => exact next_onGraph (.withdraw target s.name) rfl rfl houtcome

theorem next_deletePlayer {n : Name} {gone : Bool} (hdelete : e.deletePlayer n = .ok (gone, e')) :
    e.database.Next e'.database := by
  rcases deletePlayer_eq_ok hdelete with ⟨-, -, rfl⟩ | ⟨ties, database, -, hdatabase, rfl⟩
  · exact .same
  · have happly : e.database.apply (.delete n) = database := by
      simp only [Database.apply, hdatabase]
      rfl
    exact happly ▸ .change (c := .delete n) rfl

theorem next_performs {s : Session} {command : Command} {turn : Turn}
    (hturn : e.Performs s command turn) : e.database.Next turn.engine.database := by
  cases hturn with
  | nothing => exact .same
  | ties _ hasks houtcome => exact hasks.next houtcome
  | @rename _ new ties database _ _ hrename =>
    have happly : e.database.apply (.rename s.name new) = database := by
      simp only [Database.apply, hrename]
      rfl
    exact happly ▸ .change (c := .rename s.name new) rfl
  | delete _ hdelete => exact next_deletePlayer hdelete
  | status => exact .same

theorem next_handleCommand (e : Engine) (s : Session) (command : Command) :
    e.database.Next (e.handleCommand s command).engine.database := by
  rcases e.handleCommand_cases s command with ⟨-, heq⟩ | ⟨n, -, ⟨-, heq⟩ | ⟨-, hturn⟩⟩
  · rw [heq]
    exact .same
  · rw [heq]
    exact .same
  · exact next_performs hturn

theorem database_handleNotice (e : Engine) (s : Session) (x : Notice) :
    (e.handleNotice s x).engine.database = e.database := by
  rcases e.handleNotice_cases s x with ⟨-, heq⟩ | ⟨asker, status, replyTo, -, -, heq⟩
  · rw [heq]
  · rw [heq]

theorem database_connect {n : Name} {s : Session} (hconnect : e.connect n = some (s, e')) :
    e'.database = e.database := by
  rcases e.connect_cases n with ⟨-, heq⟩ | ⟨-, heq⟩
  · rw [heq] at hconnect
    cases hconnect
  · rw [heq] at hconnect
    cases hconnect
    rfl

theorem database_disconnect (e : Engine) (c : Connection) :
    (e.disconnect c).database = e.database := by
  rcases e.disconnect_cases c with ⟨-, heq⟩ | ⟨n, -, ⟨-, heq⟩ | ⟨-, heq⟩⟩
  · rw [heq]
  · rw [heq]
    rfl
  · rw [heq]
    rfl

theorem database_status (e : Engine) (s : Session) {command : Command}
    (hcommand : command = .enterGame ∨ command = .leaveGame) :
    (e.handleCommand s command).engine.database = e.database := by
  rcases e.handleCommand_status_cases s hcommand with heq | ⟨n, status, -, heq⟩
  · rw [heq]
  · rw [heq]
    rfl

end Engine

namespace System

/-- An action by which a session comes or goes, reads, or enters a game or leaves one. -/
def isPresence : Action → Bool
  | .connect _ | .disconnect _ | .read _ | .command _ .enterGame | .command _ .leaveGame => true
  | _ => false

/-- Such an action stores nothing. -/
theorem database_act (sys : System) {a : Action} (ha : isPresence a = true) :
    (sys.act a).engine.database = sys.engine.database := by
  match a, ha with
  | .connect n, _ =>
    rcases sys.act_connect_cases n with heq | ⟨s, engine, hconnect, heq⟩
    · rw [heq]
    · rw [heq]
      exact Engine.database_connect hconnect
  | .disconnect c, _ => exact Engine.database_disconnect _ c
  | .read c, _ =>
    rcases sys.act_read_cases c with heq | ⟨s, x, xs, -, -, heq⟩
    · rw [heq]
    · rw [heq]
      exact Engine.database_handleNotice (sys.engine.leaving c xs) s x
  | .command c .enterGame, _ =>
    rcases sys.act_command_cases c .enterGame with heq | ⟨s, -, heq⟩
    · rw [heq]
    · rw [heq]
      exact Engine.database_status _ s (Or.inl rfl)
  | .command c .leaveGame, _ =>
    rcases sys.act_command_cases c .leaveGame with heq | ⟨s, -, heq⟩
    · rw [heq]
    · rw [heq]
      exact Engine.database_status _ s (Or.inr rfl)

/-! ## Runs on inputs -/

/-- The system after an input; what does not apply changes nothing. -/
def take (sys : System) : Input → System
  | .action a => sys.act a
  | .notice c x => ((sys.handle c x).map (·.2)).getD sys
  | .hangUp c => sys.withEngine { sys.engine with presence := sys.engine.presence.close c }

/-- The system after some inputs, the first one first. -/
def run (sys : System) (is : List Input) : System := is.foldl take sys

theorem take_notice_cases (sys : System) (c : Connection) (x : Notice) :
    sys.take (.notice c x) = sys ∨
      ∃ s, sys.sessions.find? c = some s ∧
        sys.take (.notice c x) = (sys.keep (sys.engine.handleNotice s x)).2 := by
  simp only [take, handle]
  cases hfind : sys.sessions.find? c with
  | none => exact Or.inl rfl
  | some s => exact Or.inr ⟨s, rfl, rfl⟩

theorem next_act (sys : System) (a : Action) :
    sys.engine.database.Next (sys.act a).engine.database := by
  cases a with
  | create n => exact .change (c := .create n) rfl
  | setAlias n choice => exact .change (c := .setAlias n choice) rfl
  | delete n =>
    rcases sys.act_delete_cases n with heq | ⟨gone, engine, hdelete, heq⟩
    · rw [heq]
      exact .same
    · rw [heq]
      exact Engine.next_deletePlayer hdelete
  | connect n =>
    rcases sys.act_connect_cases n with heq | ⟨s, engine, hconnect, heq⟩
    · rw [heq]
      exact .same
    · rw [heq]
      exact Engine.database_connect hconnect ▸ .same
  | disconnect c => exact Engine.database_disconnect _ c ▸ .same
  | command c command =>
    rcases sys.act_command_cases c command with heq | ⟨s, -, heq⟩
    · rw [heq]
      exact .same
    · rw [heq]
      exact Engine.next_handleCommand _ s command
  | read c =>
    rcases sys.act_read_cases c with heq | ⟨s, x, xs, -, -, heq⟩
    · rw [heq]
      exact .same
    · rw [heq]
      exact (Engine.database_handleNotice (sys.engine.leaving c xs) s x) ▸ .same

theorem next_take (sys : System) (i : Input) :
    sys.engine.database.Next (sys.take i).engine.database := by
  cases i with
  | action a => exact sys.next_act a
  | notice c x =>
    rcases sys.take_notice_cases c x with heq | ⟨s, -, heq⟩
    · rw [heq]
      exact .same
    · rw [heq]
      exact (Engine.database_handleNotice sys.engine s x) ▸ .same
  | hangUp c => exact .same

theorem WellFormed.take {sys : System} (h : sys.WellFormed) (i : Input) :
    (sys.take i).WellFormed := by
  cases i with
  | action a => exact h.act a
  | notice c x =>
    rcases sys.take_notice_cases c x with heq | ⟨s, -, heq⟩
    · rw [heq]
      exact h
    · rw [heq]
      exact h.keep (h.engine.handleNotice s x)
        fun d n hd => ⟨n, h.engine.attached_of_handleNotice hd⟩
  | hangUp c =>
    exact h.withEngine (h.engine.withPresence (h.engine.presence.congr rfl rfl rfl) fun _ _ => id)
      fun d n hd => ⟨n, hd⟩

/-- A system whose database is well-formed too. -/
structure Sound (sys : System) : Prop where
  wellFormed : sys.WellFormed
  database : sys.engine.database.WellFormed

theorem sound_start (capacity : Nat) : (start .empty capacity).Sound where
  wellFormed := wellFormed_start Graph.wellFormed_empty capacity
  database := Database.wellFormed_empty

theorem Sound.take {sys : System} (h : sys.Sound) (i : Input) : (sys.take i).Sound where
  wellFormed := h.wellFormed.take i
  database := h.database.next (sys.next_take i)

theorem Sound.run {sys : System} (h : sys.Sound) (is : List Input) : (sys.run is).Sound := by
  induction is generalizing sys with
  | nil => exact h
  | cons i is ih => exact ih (h.take i)

theorem Sound.after {sys : System} (h : sys.Sound) (as : List Action) : (sys.after as).Sound := by
  induction as generalizing sys with
  | nil => exact h
  | cons a as ih => exact ih (h.take (.action a))

/-! ## Names and accounts -/

/-- What has to do with a name is reserved for the player who has an account under it. -/
structure ReservesNames (sys : System) : Prop where
  /-- Every record of ties is a player's. -/
  records : ∀ key text, sys.engine.database.graph.records.find? key = some text →
    ∃ n : Name, key = n.text ∧ sys.engine.hasPlayer n = true
  /-- Every name in a list of ties is a player's. -/
  ties : ∀ n, ∃ t, sys.engine.database.graph.load n = .ok t ∧
    ∀ m, m ∈ t.friends ∨ m ∈ t.sent ∨ m ∈ t.received → sys.engine.hasPlayer m = true
  /-- Every name under which a session is attached is a player's. -/
  sessions : ∀ n, sys.engine.presence.isOnline n = true → sys.engine.hasPlayer n = true
  /-- No renaming is stopped by ties that stand under the new name. -/
  renamings : ∀ old new n, sys.engine.database.rename old new ≠ .error (.graph (.nameInUse n))
  /-- A player who gets an account under a free name has no ties and no sessions. -/
  newcomers : ∀ n, sys.engine.hasPlayer n = false →
    (sys.act (.create n)).engine.hasPlayer n = true ∧
      (sys.act (.create n)).engine.database.graph.load n = .ok .empty ∧
      (sys.act (.create n)).engine.presence.sessionsOf n = []

theorem Sound.reservesNames {sys : System} (h : sys.Sound) : sys.ReservesNames where
  records key text hfind := by
    obtain ⟨n, t, rfl, -⟩ := h.database.graph.canonical key text hfind
    exact ⟨n, rfl, h.database.players n (Table.contains_iff.2 ⟨text, hfind⟩)⟩
  ties n := by
    refine ⟨_, Graph.load_eq_ties h.database.graph.canonical n, fun m hm => ?_⟩
    exact h.database.hasPlayer_of_mem_peers (Ties.mem_peers.2 hm)
  sessions n hn := by
    cases hplayer : sys.engine.hasPlayer n with
    | true => rfl
    | false =>
      have hgroup := h.wellFormed.engine.group_eq_nil hplayer
      exact absurd hgroup (h.wellFormed.engine.presence.isOnline_iff.1 hn)
  renamings := h.database.rename_ne_nameInUse
  newcomers n hn := by
    have hfree : sys.engine.database.directory.has n = false := hn
    have hcreate : sys.act (.create n) = sys.withDatabase (sys.engine.database.withDirectory
        (sys.engine.database.directory.save (.fresh n))) := by
      simp only [act, Database.apply, Directory.create, hfree]
      rfl
    rw [hcreate]
    refine ⟨Directory.has_save _ _ |>.2 (Or.inl rfl), ?_, ?_⟩
    · refine (Graph.load_eq_ties h.database.graph.canonical n).trans ?_
      rw [h.database.ties_eq_empty hn]
    · exact congrArg (List.map (·.connection)) (h.wellFormed.engine.group_eq_nil hn)

/-- **Only players have ties and sessions**, whatever comes from outside. -/
theorem reservesNames_run (capacity : Nat) (is : List Input) :
    ((start .empty capacity).run is).ReservesNames :=
  ((sound_start capacity).run is).reservesNames

end System

end Amity
