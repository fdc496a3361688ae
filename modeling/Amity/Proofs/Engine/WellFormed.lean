/-
  Amity/Proofs/Engine/WellFormed.lean
  ===================================
  **What every operation of the engine keeps.**  The registry and the graph stay well-formed, and
  whoever is attached under a name has an account of that name.  The last clause is what makes a
  name that is free for a renaming free in the registry too.

  No operation takes a refusal back, so a run at whose end nothing has been refused is one in which
  no step has a refusal.
-/
import Amity.Proofs.Engine.Commands

namespace Amity.Engine

/-- Registry and graph are well-formed, and only players are attached. -/
structure WellFormed (e : Engine) : Prop where
  presence : e.presence.WellFormed
  graph : e.database.graph.WellFormed
  players : ∀ c n, e.presence.nameOf? c = some n → e.hasPlayer n = true

def refusals (e : Engine) : Nat := e.presence.refusals

theorem wellFormed_start {db : Database} (h : db.graph.WellFormed) (capacity : Nat) :
    (start db capacity).WellFormed where
  presence := Presence.wellFormed_empty
  graph := h
  players _ _ hc := by cases hc

/-! ## Deliveries -/

section

variable {e : Engine} (h : e.WellFormed)
include h

theorem WellFormed.group_eq_nil {n : Name} (hn : e.hasPlayer n = false) :
    e.presence.group n = [] := by
  rw [h.presence.group_eq_nil_iff]
  intro c hc
  have hplayer := h.players c n hc
  rw [hn] at hplayer
  cases hplayer

/-- A change of the registry that attaches nobody. -/
theorem WellFormed.withPresence {p : Presence} (hp : p.WellFormed)
    (hnames : ∀ c n, p.nameOf? c = some n → e.presence.nameOf? c = some n) :
    ({ e with presence := p } : Engine).WellFormed where
  presence := hp
  graph := h.graph
  players c n hc := h.players c n (hnames c n hc)

theorem WellFormed.deliver (targets : List (Connection × Notice)) :
    ({ e with presence := (e.presence.deliver targets).2 } : Engine).WellFormed :=
  h.withPresence (h.presence.deliver targets) fun _ _ => h.presence.nameOf?_of_deliver

theorem WellFormed.notifyAll (outbox : Outbox) : (e.notifyAll outbox).WellFormed :=
  h.deliver _

theorem WellFormed.broadcast (n : Name) (s : Status) : (e.broadcast n s).WellFormed :=
  h.notifyAll _

theorem WellFormed.tellSiblings (s : Session) (x : Notice) : (e.tellSiblings s x).WellFormed :=
  h.deliver _

/-- A change of the database after which the players are still players. -/
theorem WellFormed.withDatabase {database : Database} (hgraph : database.graph.WellFormed)
    (hplayers : ∀ n, e.hasPlayer n = true → database.hasPlayer n = true) :
    ({ e with database } : Engine).WellFormed where
  presence := h.presence
  graph := hgraph
  players c n hc := hplayers n (h.players c n hc)

end

theorem precedes_notifyAll (e : Engine) (outbox : Outbox) :
    e.presence.Precedes (e.notifyAll outbox).presence :=
  Presence.precedes_deliver _ _

theorem precedes_tellSiblings (e : Engine) (s : Session) (x : Notice) :
    e.presence.Precedes (e.tellSiblings s x).presence :=
  Presence.precedes_deliver _ _

/-! ## Coming and going -/

/-- The engine after a session of a player has been attached, before anybody is told. -/
def attached (e : Engine) (n : Name) : Engine :=
  { e with presence := (e.presence.accept e.capacity).2.attach n ⟨e.presence.arrivals⟩ }

def firstProbe (e : Engine) (n : Name) : Notice :=
  .probe n ((e.attached n).presence.statusOf n) ⟨e.presence.arrivals⟩

/-- The engine after a session of a player has come and the friends have its probe. -/
def connected (e : Engine) (n : Name) : Engine :=
  (e.attached n).notifyAll ((e.attached n).toFriends n (e.firstProbe n))

theorem connect_cases (e : Engine) (n : Name) :
    (e.hasPlayer n = false ∧ e.connect n = none) ∨
      (e.hasPlayer n = true ∧
        e.connect n = some (.start ⟨e.presence.arrivals⟩ n, e.connected n)) := by
  unfold connect
  split
  · next hplayer => exact Or.inr ⟨hplayer, rfl⟩
  · next hplayer => exact Or.inl ⟨by simpa using hplayer, rfl⟩

/-- The engine after a connection has been detached, before anybody is told. -/
def detached (e : Engine) (c : Connection) : Engine :=
  { e with presence := (e.presence.detach c).2 }

theorem disconnect_cases (e : Engine) (c : Connection) :
    (e.presence.owners.find? c = none ∧ e.disconnect c = e) ∨
      ∃ n, e.presence.owners.find? c = some n ∧
        (((e.detached c).presence.isOnline n = true ∨ e.hasPlayer n = false) ∧
            e.disconnect c = e.detached c ∨
          ((e.detached c).presence.isOnline n = false ∧ e.hasPlayer n = true) ∧
            e.disconnect c = (e.detached c).broadcast n .disconnected) := by
  unfold disconnect detached Presence.detach
  cases howner : e.presence.owners.find? c with
  | none => exact Or.inl ⟨rfl, rfl⟩
  | some n =>
    refine Or.inr ⟨n, rfl, ?_⟩
    dsimp only
    split
    · next hdone =>
      refine Or.inl ⟨?_, rfl⟩
      rw [Bool.or_eq_true, Bool.not_eq_true'] at hdone
      exact hdone
    · next hdone =>
      refine Or.inr ⟨?_, rfl⟩
      rw [Bool.or_eq_true, Bool.not_eq_true', not_or] at hdone
      exact ⟨by simpa using hdone.1, eq_true_of_ne_false hdone.2⟩

section

variable {e : Engine} (h : e.WellFormed)
include h

theorem WellFormed.attached {n : Name} (hn : e.hasPlayer n = true) : (e.attached n).WellFormed where
  presence := h.presence.attach n e.capacity
  graph := h.graph
  players c m hc := by
    have hc : ((e.presence.accept e.capacity).2.attach n ⟨e.presence.arrivals⟩).nameOf? c =
      some m := hc
    rw [h.presence.nameOf?_attach] at hc
    split at hc
    · cases hc
      exact hn
    · exact h.players c m hc

theorem WellFormed.connect {n : Name} {s : Session} {e' : Engine}
    (hconnect : e.connect n = some (s, e')) : e'.WellFormed := by
  rcases e.connect_cases n with ⟨-, heq⟩ | ⟨hn, heq⟩
  · rw [heq] at hconnect
    cases hconnect
  · rw [heq] at hconnect
    cases hconnect
    exact (h.attached hn).notifyAll _

theorem WellFormed.detached (c : Connection) : (e.detached c).WellFormed := by
  refine h.withPresence (h.presence.detach c) ?_
  intro d n hd
  rw [h.presence.nameOf?_detach] at hd
  split at hd
  · cases hd
  · exact hd

theorem WellFormed.group_detached (c : Connection) (m : Name) :
    (e.detached c).presence.group m = (e.presence.group m).filter (·.connection ≠ c) := by
  refine (h.presence.group_detach c m).trans ?_
  simp [Presence.withoutConnections]

/-- It was the last session of its player. -/
theorem WellFormed.isOnline_detached_iff (c : Connection) (n : Name) :
    (e.detached c).presence.isOnline n = false ↔ ∀ k ∈ e.presence.sessionsOf n, k = c := by
  rw [(h.detached c).presence.isOnline_eq_false_iff, h.group_detached, List.filter_eq_nil_iff]
  simp [Presence.sessionsOf]

theorem WellFormed.disconnect (c : Connection) : (e.disconnect c).WellFormed := by
  rcases e.disconnect_cases c with ⟨-, heq⟩ | ⟨n, -, ⟨-, heq⟩ | ⟨-, heq⟩⟩
  · rw [heq]
    exact h
  · rw [heq]
    exact h.detached c
  · rw [heq]
    exact (h.detached c).broadcast n _

end

theorem precedes_detached (e : Engine) (c : Connection) :
    e.presence.Precedes (e.detached c).presence :=
  .of_eq (Presence.refusals_detach _ c) (Presence.arrivals_detach _ c)

theorem precedes_connect {e e' : Engine} {n : Name} {s : Session}
    (hconnect : e.connect n = some (s, e')) : e.presence.Precedes e'.presence := by
  rcases e.connect_cases n with ⟨-, heq⟩ | ⟨-, heq⟩
  · rw [heq] at hconnect
    cases hconnect
  · rw [heq] at hconnect
    cases hconnect
    have hattached : e.presence.Precedes (e.attached n).presence :=
      ⟨Nat.le_refl _, Nat.le_succ _⟩
    exact hattached.trans ((e.attached n).precedes_notifyAll _)

theorem precedes_disconnect (e : Engine) (c : Connection) :
    e.presence.Precedes (e.disconnect c).presence := by
  rcases e.disconnect_cases c with ⟨-, heq⟩ | ⟨n, -, ⟨-, heq⟩ | ⟨-, heq⟩⟩
  · rw [heq]
    exact .refl _
  · rw [heq]
    exact e.precedes_detached c
  · rw [heq]
    exact (e.precedes_detached c).trans ((e.detached c).precedes_notifyAll _)

/-! ## Commands -/

/-- A change of ties keeps the accounts and leads to a well-formed graph. -/
theorem Asks.database {e : Engine} {s : Session} {target : Name} {command : Command}
    {change : TieChange} {made : Bool} {database : Database}
    (hasks : e.Asks s target command change)
    (hgraph : e.database.graph.WellFormed) (houtcome : change.outcome = .ok (made, database)) :
    database.directory = e.database.directory ∧ database.graph.WellFormed := by
  cases hasks with
  | request =>
    rcases Database.request_eq_ok houtcome with ⟨-, -, hdirectory, hmade⟩ | ⟨-, rfl⟩
    · exact ⟨hdirectory, hgraph.createRequest hmade⟩
    · exact ⟨rfl, hgraph⟩
  | remove =>
    obtain ⟨graph, hmade, rfl⟩ := onGraph_eq_ok houtcome
    exact ⟨rfl, hgraph.removeFriendship hmade⟩
  | cancel =>
    obtain ⟨graph, hmade, rfl⟩ := onGraph_eq_ok houtcome
    exact ⟨rfl, hgraph.deleteRequest hmade⟩
  | accept =>
    obtain ⟨graph, hmade, rfl⟩ := onGraph_eq_ok houtcome
    exact ⟨rfl, hgraph.acceptRequest hmade⟩
  | refuse =>
    obtain ⟨graph, hmade, rfl⟩ := onGraph_eq_ok houtcome
    exact ⟨rfl, hgraph.deleteRequest hmade⟩

section

variable {e : Engine} (h : e.WellFormed)
include h

theorem WellFormed.withTies {s : Session} {target : Name} {command : Command}
    {change : TieChange} {made : Bool} {database : Database}
    (hasks : e.Asks s target command change) (houtcome : change.outcome = .ok (made, database)) :
    ({ e with database } : Engine).WellFormed := by
  obtain ⟨hdirectory, hgraph⟩ := hasks.database h.graph houtcome
  refine h.withDatabase hgraph fun n hn => ?_
  unfold Database.hasPlayer
  rw [hdirectory]
  exact hn

theorem WellFormed.tieChanged {s : Session} {target : Name} {command : Command}
    {change : TieChange} {made : Bool} {database : Database}
    (hasks : e.Asks s target command change) (houtcome : change.outcome = .ok (made, database)) :
    (e.tieChanged s target change database).WellFormed :=
  ((h.withTies hasks houtcome).notifyAll _).tellSiblings s _

/-- Nobody is attached under a name that a player can take. -/
theorem WellFormed.nameOf?_ne_of_rename {old new : Name} {ties : Ties} {database : Database}
    (hrename : e.database.rename old new = .ok (ties, database)) (c : Connection) :
    e.presence.nameOf? c ≠ some new := by
  intro hc
  have hnew := (Directory.rename_eq_ok (Database.rename_eq_ok_iff.1 hrename).1).2.1
  have hplayer := h.players c new hc
  unfold Engine.hasPlayer Database.hasPlayer at hplayer
  rw [hnew] at hplayer
  cases hplayer

theorem WellFormed.rebound {old new : Name} {ties : Ties} {database : Database}
    (hne : old ≠ new) (hrename : e.database.rename old new = .ok (ties, database)) :
    ({ e with database, presence := e.presence.rebound old new } : Engine).WellFormed where
  presence := h.presence.rebound hne
  graph := h.graph.renamed (Database.rename_eq_ok_iff.1 hrename).2
  players c n hc := by
    obtain ⟨-, -, hhas⟩ := Directory.rename_eq_ok (Database.rename_eq_ok_iff.1 hrename).1
    have hc : (e.presence.rebound old new).nameOf? c = some n := hc
    rw [h.presence.nameOf?_rebound hne, Option.map_eq_some_iff] at hc
    obtain ⟨m, hm, rfl⟩ := hc
    show database.directory.has _ = true
    rw [hhas]
    unfold Ties.substitute
    split
    · exact Or.inl rfl
    · next hold => exact Or.inr ⟨hold, h.players c m hm⟩

theorem WellFormed.renamed {s : Session} {new : Name} {ties : Ties} {database : Database}
    (hne : s.name ≠ new) (hrename : e.database.rename s.name new = .ok (ties, database)) :
    (e.renamed s new ties database).WellFormed := by
  rw [renamed_eq]
  exact ((h.rebound hne hrename).notifyAll _).tellSiblings _ _

/-- When the sessions of a player have been told to end, nobody is attached under that name. -/
theorem WellFormed.evicted {n : Name} {database : Database} (hgraph : database.graph.WellFormed)
    (hplayers : ∀ m, m ≠ n → e.hasPlayer m = true → database.hasPlayer m = true) :
    ({ e with database, presence := e.presence.evicted n } : Engine).WellFormed where
  presence := h.presence.evicted n
  graph := hgraph
  players c m hc := by
    have hc : (e.presence.evicted n).nameOf? c = some m := hc
    rw [h.presence.nameOf?_evicted] at hc
    split at hc
    · cases hc
    · next hother =>
      exact hplayers m (fun hm => hother (hm ▸ hc)) (h.players c m hc)

theorem WellFormed.deletePlayer {e' : Engine} {n : Name} {gone : Bool}
    (hdelete : e.deletePlayer n = .ok (gone, e')) : e'.WellFormed := by
  rcases deletePlayer_eq_ok hdelete with ⟨-, -, rfl⟩ | ⟨ties, database, -, hdatabase, rfl⟩
  · rw [withoutPlayer_eq]
    exact (h.evicted h.graph fun _ _ => id).notifyAll []
  · rw [withoutPlayer_eq]
    obtain ⟨hdirectory, hpurge⟩ := Database.delete_eq_ok_some_iff.1 hdatabase
    have hhas := Directory.delete_eq_ok hdirectory
    refine (h.evicted (h.graph.purged hpurge) ?_).notifyAll _
    intro m hne hm
    exact (hhas.2 m).2 ⟨hne, hm⟩

theorem WellFormed.setStatus (c : Connection) (status : Status) :
    ({ e with presence := e.presence.setStatus c status } : Engine).WellFormed := by
  have hset := h.presence.setStatus c status
  refine h.withPresence hset fun d n hd => ?_
  rwa [h.presence.nameOf?_congr hset fun m => Presence.sessionsOf_setStatus _ _ _ _] at hd

theorem WellFormed.shown (s : Session) (status : Status) : (e.shown s status).WellFormed :=
  (h.setStatus s.connection status).broadcast _ _

theorem WellFormed.performs {s : Session} {command : Command} {turn : Turn}
    (hturn : e.Performs s command turn) : turn.engine.WellFormed := by
  cases hturn with
  | nothing => exact h
  | ties _ hasks houtcome => exact h.tieChanged hasks houtcome
  | rename _ hne hrename => exact h.renamed hne hrename
  | delete _ hdelete => exact h.deletePlayer hdelete
  | status status => exact h.shown s status

theorem WellFormed.handleCommand (s : Session) (command : Command) :
    (e.handleCommand s command).engine.WellFormed := by
  rcases e.handleCommand_cases s command with ⟨-, heq⟩ | ⟨n, -, ⟨-, heq⟩ | ⟨-, hturn⟩⟩
  · rw [heq]
    exact h
  · rw [heq]
    exact h
  · exact h.performs hturn

end

theorem precedes_withoutPlayer (e : Engine) (n : Name) (outbox : Outbox) (database : Database) :
    e.presence.Precedes (e.withoutPlayer n outbox database).presence := by
  have hevicted : e.presence.Precedes (e.presence.evicted n) :=
    .of_eq (Presence.refusals_evicted _ n) (Presence.arrivals_evicted _ n)
  exact hevicted.trans (Presence.precedes_deliver _ _)

theorem precedes_deletePlayer {e e' : Engine} {n : Name} {gone : Bool}
    (hdelete : e.deletePlayer n = .ok (gone, e')) : e.presence.Precedes e'.presence := by
  rcases deletePlayer_eq_ok hdelete with ⟨-, -, rfl⟩ | ⟨_, _, -, -, rfl⟩
  · exact precedes_withoutPlayer _ _ _ _
  · exact precedes_withoutPlayer _ _ _ _

theorem precedes_performs {e : Engine} {s : Session} {command : Command} {turn : Turn}
    (hturn : e.Performs s command turn) : e.presence.Precedes turn.engine.presence := by
  cases hturn with
  | nothing => exact .refl _
  | @ties target change database =>
    exact (({ e with database } : Engine).precedes_notifyAll _).trans (precedes_tellSiblings _ _ _)
  | @rename _ new ties database =>
    have hrebound : e.presence.Precedes
        ({ e with database, presence := e.presence.rebound s.name new } : Engine).presence :=
      .of_eq (Presence.refusals_rebound _ _ _) (Presence.arrivals_rebound _ _ _)
    dsimp only
    rw [renamed_eq]
    exact hrebound.trans ((precedes_notifyAll _ _).trans (precedes_tellSiblings _ _ _))
  | delete _ hdelete => exact precedes_deletePlayer hdelete
  | status status =>
    have hset : e.presence.Precedes (e.presence.setStatus s.connection status) :=
      .of_eq (Presence.refusals_setStatus _ _ _) (Presence.arrivals_setStatus _ _ _)
    exact hset.trans (Presence.precedes_deliver _ _)

theorem precedes_handleCommand (e : Engine) (s : Session) (command : Command) :
    e.presence.Precedes (e.handleCommand s command).engine.presence := by
  rcases e.handleCommand_cases s command with ⟨-, heq⟩ | ⟨n, -, ⟨-, heq⟩ | ⟨-, hturn⟩⟩
  · rw [heq]
    exact .refl _
  · rw [heq]
    exact .refl _
  · exact precedes_performs hturn

/-! ## Notices -/

/-- Reading a notice changes the session, and the engine only by the answer to a friend's probe. -/
theorem handleNotice_cases (e : Engine) (s : Session) (x : Notice) :
    ((∀ asker status replyTo, x = .probe asker status replyTo →
        e.database.graph.areFriends s.name asker ≠ .ok true) ∧
        (e.handleNotice s x).engine = e) ∨
      ∃ asker status replyTo, x = .probe asker status replyTo ∧
        e.database.graph.areFriends s.name asker = .ok true ∧
        e.handleNotice s x = ⟨.snapshot, s.learn asker status,
          { e with presence := (e.presence.sendTo asker replyTo
            (.status s.name (e.presence.statusOf s.name))).2 }⟩ := by
  cases x with
  | update reset => cases reset <;> exact Or.inl ⟨nofun, rfl⟩
  | status => exact Or.inl ⟨nofun, rfl⟩
  | renamed old new =>
    refine Or.inl ⟨nofun, ?_⟩
    unfold handleNotice
    dsimp only
    split <;> rfl
  | probe asker status replyTo =>
    unfold handleNotice answerProbe
    dsimp only
    split
    · next hfriends => exact Or.inr ⟨asker, status, replyTo, rfl, hfriends, rfl⟩
    · next hnone =>
      refine Or.inl ⟨?_, rfl⟩
      intro _ _ _ heq
      cases heq
      exact hnone

theorem WellFormed.handleNotice {e : Engine} (h : e.WellFormed) (s : Session) (x : Notice) :
    (e.handleNotice s x).engine.WellFormed := by
  rcases e.handleNotice_cases s x with ⟨-, heq⟩ | ⟨asker, status, replyTo, -, -, heq⟩
  · rw [heq]
    exact h
  · rw [heq]
    exact h.withPresence (h.presence.sendTo asker replyTo _) fun _ _ => h.presence.nameOf?_of_sendTo

theorem precedes_handleNotice (e : Engine) (s : Session) (x : Notice) :
    e.presence.Precedes (e.handleNotice s x).engine.presence := by
  rcases e.handleNotice_cases s x with ⟨-, heq⟩ | ⟨asker, status, replyTo, -, -, heq⟩
  · rw [heq]
    exact .refl _
  · rw [heq]
    exact Presence.precedes_sendTo _ _ _ _

/-! ## Who is attached -/

section

variable {e : Engine} (h : e.WellFormed) {c : Connection} {n : Name}
include h

theorem WellFormed.attached_of_notifyAll {outbox : Outbox}
    (hc : (e.notifyAll outbox).presence.nameOf? c = some n) : e.presence.nameOf? c = some n :=
  h.presence.nameOf?_of_deliver hc

theorem WellFormed.attached_of_tellSiblings {s : Session} {x : Notice}
    (hc : (e.tellSiblings s x).presence.nameOf? c = some n) : e.presence.nameOf? c = some n :=
  h.presence.nameOf?_of_deliver hc

theorem WellFormed.attached_of_tieChanged {s : Session} {target : Name} {command : Command}
    {change : TieChange} {made : Bool} {database : Database}
    (hasks : e.Asks s target command change) (houtcome : change.outcome = .ok (made, database))
    (hc : (e.tieChanged s target change database).presence.nameOf? c = some n) :
    e.presence.nameOf? c = some n := by
  have hdatabase := h.withTies hasks houtcome
  exact hdatabase.attached_of_notifyAll
    ((hdatabase.notifyAll _).attached_of_tellSiblings hc)

theorem WellFormed.attached_of_renamed {s : Session} {new : Name} {ties : Ties}
    {database : Database} (hne : s.name ≠ new)
    (hrename : e.database.rename s.name new = .ok (ties, database))
    (hc : (e.renamed s new ties database).presence.nameOf? c = some n) :
    (e.presence.rebound s.name new).nameOf? c = some n := by
  have hrebound := h.rebound hne hrename
  rw [renamed_eq] at hc
  exact hrebound.attached_of_notifyAll ((hrebound.notifyAll _).attached_of_tellSiblings hc)

theorem WellFormed.attached_of_withoutPlayer {m : Name} {outbox : Outbox} {database : Database}
    (hc : (e.withoutPlayer m outbox database).presence.nameOf? c = some n) :
    e.presence.nameOf? c = some n ∧ n ≠ m := by
  have hc := (h.presence.evicted m).nameOf?_of_deliver hc
  rw [h.presence.nameOf?_evicted] at hc
  split at hc
  · cases hc
  · next hother => exact ⟨hc, fun hm => hother (hm ▸ hc)⟩

theorem WellFormed.attached_of_deletePlayer {e' : Engine} {m : Name} {gone : Bool}
    (hdelete : e.deletePlayer m = .ok (gone, e')) (hc : e'.presence.nameOf? c = some n) :
    e.presence.nameOf? c = some n ∧ n ≠ m := by
  rcases deletePlayer_eq_ok hdelete with ⟨-, -, rfl⟩ | ⟨_, _, -, -, rfl⟩
  · exact h.attached_of_withoutPlayer hc
  · exact h.attached_of_withoutPlayer hc

theorem WellFormed.attached_of_shown {s : Session} {status : Status}
    (hc : (e.shown s status).presence.nameOf? c = some n) : e.presence.nameOf? c = some n := by
  have hset := h.presence.setStatus s.connection status
  have hc := hset.nameOf?_of_deliver hc
  rwa [h.presence.nameOf?_congr hset fun m => Presence.sessionsOf_setStatus _ _ _ _] at hc

/-- Nobody comes to be attached by a command. -/
theorem WellFormed.attached_of_performs {s : Session} {command : Command} {turn : Turn}
    (hturn : e.Performs s command turn) (hc : turn.engine.presence.nameOf? c = some n) :
    ∃ m, e.presence.nameOf? c = some m := by
  cases hturn with
  | nothing => exact ⟨n, hc⟩
  | ties _ hasks houtcome => exact ⟨n, h.attached_of_tieChanged hasks houtcome hc⟩
  | rename _ hne hrename =>
    have hc := h.attached_of_renamed hne hrename hc
    rw [h.presence.nameOf?_rebound hne, Option.map_eq_some_iff] at hc
    obtain ⟨m, hm, -⟩ := hc
    exact ⟨m, hm⟩
  | delete _ hdelete => exact ⟨n, (h.attached_of_deletePlayer hdelete hc).1⟩
  | status status => exact ⟨n, h.attached_of_shown hc⟩

theorem WellFormed.attached_of_handleCommand {s : Session} {command : Command}
    (hc : (e.handleCommand s command).engine.presence.nameOf? c = some n) :
    ∃ m, e.presence.nameOf? c = some m := by
  rcases e.handleCommand_cases s command with ⟨-, heq⟩ | ⟨_, -, ⟨-, heq⟩ | ⟨-, hturn⟩⟩
  · rw [heq] at hc
    exact ⟨n, hc⟩
  · rw [heq] at hc
    exact ⟨n, hc⟩
  · exact h.attached_of_performs hturn hc

theorem WellFormed.attached_of_handleNotice {s : Session} {x : Notice}
    (hc : (e.handleNotice s x).engine.presence.nameOf? c = some n) :
    e.presence.nameOf? c = some n := by
  rcases e.handleNotice_cases s x with ⟨-, heq⟩ | ⟨asker, status, replyTo, -, -, heq⟩
  · rwa [heq] at hc
  · rw [heq] at hc
    exact h.presence.nameOf?_of_sendTo hc

/-- A connection attached after another one came was attached before. -/
theorem WellFormed.attached_of_connect {m : Name} {s : Session} {e' : Engine}
    (hconnect : e.connect m = some (s, e')) (hc : e'.presence.nameOf? c = some n)
    (hne : c ≠ s.connection) : ∃ k, e.presence.nameOf? c = some k := by
  rcases e.connect_cases m with ⟨-, heq⟩ | ⟨hm, heq⟩
  · rw [heq] at hconnect
    cases hconnect
  · rw [heq] at hconnect
    cases hconnect
    have hc : ((e.presence.accept e.capacity).2.attach m ⟨e.presence.arrivals⟩).nameOf? c =
      some n := (h.attached hm).attached_of_notifyAll hc
    rw [h.presence.nameOf?_attach] at hc
    split at hc
    · next hnew => exact absurd hnew hne
    · exact ⟨n, hc⟩

theorem WellFormed.attached_of_disconnect {d : Connection}
    (hc : (e.disconnect d).presence.nameOf? c = some n) :
    e.presence.nameOf? c = some n ∧ c ≠ d := by
  have hdetached := h.presence.detach d
  have hc' : (e.detached d).presence.nameOf? c = some n := by
    rcases e.disconnect_cases d with ⟨howner, heq⟩ | ⟨_, -, ⟨-, heq⟩ | ⟨-, heq⟩⟩
    · rw [heq] at hc
      unfold Engine.detached Presence.detach
      rw [howner]
      exact hc
    · rwa [heq] at hc
    · rw [heq] at hc
      exact hdetached.nameOf?_of_deliver hc
  have hc'' : (e.presence.detach d).2.nameOf? c = some n := hc'
  rw [h.presence.nameOf?_detach] at hc''
  split at hc''
  · cases hc''
  · next hcd => exact ⟨hc'', hcd⟩

end

/-! ## Sessions -/

theorem connection_asks {e : Engine} {s : Session} {target : Name} {command : Command}
    {change : TieChange} (hasks : e.Asks s target command change) :
    change.session.connection = s.connection := by
  cases hasks <;> rfl

theorem name_asks {e : Engine} {s : Session} {target : Name} {command : Command}
    {change : TieChange} (hasks : e.Asks s target command change) :
    change.session.name = s.name := by
  cases hasks <;> rfl

theorem connection_performs {e : Engine} {s : Session} {command : Command} {turn : Turn}
    (hturn : e.Performs s command turn) : turn.session.connection = s.connection := by
  cases hturn with
  | nothing => rfl
  | ties _ hasks => exact connection_asks hasks
  | rename => rfl
  | delete => rfl
  | status => rfl

theorem connection_handleCommand (e : Engine) (s : Session) (command : Command) :
    (e.handleCommand s command).session.connection = s.connection := by
  rcases e.handleCommand_cases s command with ⟨-, heq⟩ | ⟨m, -, ⟨-, heq⟩ | ⟨-, hturn⟩⟩
  · rw [heq]
  · rw [heq]
    rfl
  · exact connection_performs (s := s.renamed m) hturn

theorem connection_handleNotice (e : Engine) (s : Session) (x : Notice) :
    (e.handleNotice s x).session.connection = s.connection := by
  cases x with
  | update reset => cases reset <;> rfl
  | status => rfl
  | renamed =>
    unfold handleNotice
    dsimp only
    split <;> rfl
  | probe =>
    unfold handleNotice answerProbe
    dsimp only
    split <;> rfl

section

variable {e : Engine} (h : e.WellFormed)
include h

theorem WellFormed.name_performs {s : Session} {command : Command} {turn : Turn} {n : Name}
    (hs : e.presence.nameOf? s.connection = some s.name) (hturn : e.Performs s command turn)
    (hn : turn.engine.presence.nameOf? s.connection = some n) :
    turn.session.name = n ∧ turn.reply ≠ .close := by
  have hsame : e.presence.nameOf? s.connection = some n → s.name = n := fun hbefore =>
    Option.some.inj (hs.symm.trans hbefore)
  cases hturn with
  | nothing => exact ⟨hsame hn, by simp⟩
  | ties _ hasks houtcome =>
    have hbefore := h.attached_of_tieChanged hasks houtcome hn
    exact ⟨(name_asks hasks).trans (hsame hbefore), by simp⟩
  | @rename _ new _ _ _ hne hrename =>
    have hn := h.attached_of_renamed hne hrename hn
    rw [h.presence.nameOf?_rebound hne, hs] at hn
    have hnew : Ties.substitute s.name new s.name = new := by simp [Ties.substitute]
    exact ⟨hnew.symm.trans (Option.some.inj hn), by simp⟩
  | delete _ hdelete =>
    obtain ⟨hbefore, hother⟩ := h.attached_of_deletePlayer hdelete hn
    exact absurd (hsame hbefore).symm hother
  | status status => exact ⟨hsame (h.attached_of_shown hn), by simp⟩

/-- A session that gives a command and is still attached has the name it stands under, and it is
    not told to end. -/
theorem WellFormed.name_handleCommand {s : Session} {command : Command} {n : Name}
    (hn : (e.handleCommand s command).engine.presence.nameOf? s.connection = some n) :
    (e.handleCommand s command).session.name = n ∧
      (e.handleCommand s command).reply ≠ .close := by
  rcases e.handleCommand_cases s command with ⟨hnone, heq⟩ | ⟨m, hm, ⟨hplayer, -⟩ | ⟨-, hturn⟩⟩
  · rw [heq] at hn
    cases hnone.symm.trans hn
  · rw [h.players _ _ hm] at hplayer
    cases hplayer
  · exact h.name_performs (s := s.renamed m) hm hturn hn

end

end Amity.Engine
