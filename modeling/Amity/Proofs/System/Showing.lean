/-
  Amity/Proofs/System/Showing.lean
  ================================
  **A change of what a player shows is told to the friends.**  What a player shows is put together
  from all sessions, and each session changes its own part of it: it comes, goes, enters a game or
  leaves one.  Whenever what is shown changes by that, every session of every friend gets a notice
  with the new status, except in one case: when a session goes while others of the same player stay
  (`LeavesBehind`), nobody is told anything.  So a player whose only session in a game goes is still
  taken to be in the game by the friends.

  The step changes the group of one player only; so whose status has changed is known, and the
  notices are those that the step sends out about him.
-/
import Amity.Proofs.System.Announcing

namespace Amity

/-- The inputs by which a session comes or goes or shows another status. -/
def Input.isPresenceStep : Input → Bool
  | .action (.connect _) => true
  | .action (.disconnect _) => true
  | .action (.command _ .enterGame) => true
  | .action (.command _ .leaveGame) => true
  | _ => false

namespace Engine

/-- Every session of every friend gets a notice that shows the status the player now has. -/
def TellsFriends (e : Engine) (n : Name) (e' : Engine) : Prop :=
  ∀ m, e.database.graph.areFriends n m = .ok true → ∀ c, e.presence.nameOf? c = some m →
    ∃ news, e'.presence.waiting c = e.presence.waiting c ++ news ∧
      ∃ x ∈ news, x.shows? = some (n, e'.presence.statusOf n)

/-- The player is there as before, and nobody is told anything. -/
structure TellsNobody (e : Engine) (n : Name) (e' : Engine) : Prop where
  online : e'.presence.isOnline n = true
  waiting : ∀ c, e'.presence.waiting c = e.presence.waiting c

/-- The connection is a session of the player, and not the only one. -/
structure LeavesBehind (e : Engine) (n : Name) (c : Connection) : Prop where
  leaves : e.presence.nameOf? c = some n
  stays : ∃ d ∈ e.presence.sessionsOf n, d ≠ c

section

variable {e e' : Engine} (h : e.WellFormed) {n : Name}
include h

/-- The registry becomes `mid`, where only the player's own sessions may have changed, and then the
    friends are told what the player shows there. -/
theorem WellFormed.tellsFriends_of_posted {mid : Presence} {x : Notice}
    (hshows : x.shows? = some (n, mid.statusOf n))
    (hposted : mid.Posted
      (fun c => if ∃ k, mid.nameOf? c = some k ∧ k ∈ (e.database.graph.ties n).friends
        then [x] else []) e'.presence)
    (hothers : ∀ c m, m ≠ n → e.presence.nameOf? c = some m →
      mid.nameOf? c = some m ∧ mid.waiting c = e.presence.waiting c) :
    e.TellsFriends n e' := by
  intro m hfriends c hc
  have hfriend : m ∈ (e.database.graph.ties n).friends :=
    (Graph.areFriends_iff h.graph.canonical).1 hfriends
  have hne : m ≠ n := by
    rintro rfl
    exact (h.graph.irreflexive m).1 hfriend
  obtain ⟨hname, hwaiting⟩ := hothers c m hne hc
  refine ⟨[x], ?_, x, List.mem_singleton_self x, ?_⟩
  · rw [hposted.waiting, hwaiting, if_pos ⟨m, hname, hfriend⟩]
  · rw [hshows, hposted.statusOf]

/-! ## Coming -/

theorem WellFormed.tellsFriends_connected {k : Name} (hk : e.hasPlayer k = true)
    (hrefusals : (e.connected k).refusals = e.refusals)
    (hchanged : (e.connected k).presence.statusOf n ≠ e.presence.statusOf n) :
    e.TellsFriends n (e.connected k) := by
  have hnk : n = k := by
    by_contra hne
    exact hchanged (Presence.statusOf_of_group (h.group_connected hk hrefusals hne))
  subst hnk
  refine h.tellsFriends_of_posted (x := e.firstProbe n) rfl (h.connect_posted hk hrefusals) ?_
  intro c m _ hc
  have hold : c ≠ ⟨e.presence.arrivals⟩ := by
    rintro rfl
    exact Nat.lt_irrefl _ (h.presence.arrived_of_nameOf? hc)
  constructor
  · exact ((h.presence.nameOf?_attach n _ c).trans (if_neg hold)).trans hc
  · exact (Presence.waiting_attach _ n _ c).trans (if_neg hold)

/-! ## Showing another status -/

theorem WellFormed.tellsFriends_shown {s : Session} {status : Status}
    (hs : e.presence.nameOf? s.connection = some s.name)
    (hrefusals : (e.shown s status).refusals = e.refusals)
    (hchanged : (e.shown s status).presence.statusOf n ≠ e.presence.statusOf n) :
    e.TellsFriends n (e.shown s status) := by
  have hset := h.presence.setStatus s.connection status
  have hnames := h.presence.nameOf?_congr hset fun m => Presence.sessionsOf_setStatus _ _ _ m
  have hposted := h.shown_posted hrefusals
  have hns : n = s.name := by
    by_contra hne
    refine hchanged (Presence.statusOf_of_group ((hposted.group n).trans ?_))
    have howner : e.presence.owners.find? s.connection ≠ some n := by
      rw [Presence.owner_of_nameOf? hs]
      intro heq
      exact hne (Option.some.inj heq).symm
    exact (Presence.group_setStatus _ _ _ n).trans (if_neg howner)
  subst hns
  simp only [← hnames] at hposted
  refine h.tellsFriends_of_posted rfl hposted ?_
  intro c m _ hc
  exact ⟨(hnames c).trans hc, Presence.waiting_setStatus _ _ _ c⟩

theorem WellFormed.tellsFriends_handleCommand {s : Session} {command : Command}
    (hcommand : command = .enterGame ∨ command = .leaveGame)
    (hrefusals : (e.handleCommand s command).engine.refusals = e.refusals)
    (hchanged : (e.handleCommand s command).engine.presence.statusOf n ≠ e.presence.statusOf n) :
    e.TellsFriends n (e.handleCommand s command).engine := by
  rcases e.handleCommand_status_cases s hcommand with heq | ⟨k, status, hk, heq⟩
  · rw [heq] at hchanged
    exact absurd rfl hchanged
  · rw [heq] at hrefusals hchanged ⊢
    exact h.tellsFriends_shown (s := s.renamed k) hk hrefusals hchanged

/-! ## Going -/

/-- Only the status of the player whose session goes can change. -/
theorem WellFormed.nameOf?_of_detached {c : Connection}
    (hchanged : (e.detached c).presence.statusOf n ≠ e.presence.statusOf n) :
    e.presence.nameOf? c = some n := by
  by_contra hother
  exact hchanged (Presence.statusOf_of_group (h.presence.group_detach_of_ne hother))

/-- A player is still there after a session has gone if and only if others were left behind. -/
theorem WellFormed.leavesBehind_iff {c : Connection} (hc : e.presence.nameOf? c = some n) :
    e.LeavesBehind n c ↔ (e.detached c).presence.isOnline n = true := by
  rw [← Bool.not_eq_false, h.isOnline_detached_iff]
  constructor
  · rintro ⟨-, d, hd, hdc⟩ hall
    exact hdc (hall d hd)
  · intro hsome
    obtain ⟨d, hd, hdc⟩ : ∃ d ∈ e.presence.sessionsOf n, d ≠ c := by simpa using hsome
    exact ⟨hc, d, hd, hdc⟩

theorem WellFormed.tellsNobody_disconnect {c : Connection} (hleaves : e.LeavesBehind n c) :
    e.TellsNobody n (e.disconnect c) := by
  have hstays := (h.leavesBehind_iff hleaves.leaves).1 hleaves
  have howner := Presence.owner_of_nameOf? hleaves.leaves
  rcases e.disconnect_cases c with
    ⟨hnone, -⟩ | ⟨k, hk, ⟨-, heq⟩ | ⟨⟨hoffline, -⟩, -⟩⟩
  · cases hnone.symm.trans howner
  · rw [heq]
    exact ⟨hstays, Presence.waiting_detach _ c⟩
  · obtain rfl : n = k := Option.some.inj (howner.symm.trans hk)
    cases hstays.symm.trans hoffline

theorem WellFormed.tellsFriends_disconnect {c : Connection} (hn : e.hasPlayer n = true)
    (hrefusals : (e.disconnect c).refusals = e.refusals)
    (hchanged : (e.disconnect c).presence.statusOf n ≠ e.presence.statusOf n)
    (hlast : ¬ e.LeavesBehind n c) : e.TellsFriends n (e.disconnect c) := by
  have hdetached := h.detached c
  rcases e.disconnect_cases c with
    ⟨-, heq⟩ | ⟨k, hk, ⟨honline, heq⟩ | ⟨⟨hoffline, -⟩, heq⟩⟩
  · rw [heq] at hchanged
    exact absurd rfl hchanged
  · rw [heq] at hchanged
    have hname := h.nameOf?_of_detached hchanged
    obtain rfl : n = k := Option.some.inj ((Presence.owner_of_nameOf? hname).symm.trans hk)
    rcases honline with honline | hgone
    · exact absurd ((h.leavesBehind_iff hname).2 honline) hlast
    · cases hn.symm.trans hgone
  · rw [heq] at hrefusals hchanged ⊢
    have hposted := hdetached.broadcast_posted
      (hrefusals.trans (Presence.refusals_detach e.presence c).symm)
    rw [hposted.statusOf] at hchanged
    have hname := h.nameOf?_of_detached hchanged
    obtain rfl : n = k := Option.some.inj ((Presence.owner_of_nameOf? hname).symm.trans hk)
    have hshown : (e.detached c).presence.statusOf n = .disconnected :=
      Presence.statusOf_of_group_eq_nil (hdetached.presence.isOnline_eq_false_iff.1 hoffline)
    refine h.tellsFriends_of_posted (hshown ▸ rfl) hposted ?_
    intro d m hne hd
    have hdc : d ≠ c := by
      rintro rfl
      exact hne (Option.some.inj (hd.symm.trans hname))
    constructor
    · exact ((h.presence.nameOf?_detach c d).trans (if_neg hdc)).trans hd
    · exact Presence.waiting_detach _ c d

end

end Engine

namespace System

/-- The input by which a session of the player goes while others of the same player stay. -/
def LeavesBehind (sys : System) (i : Input) (n : Name) : Prop :=
  ∃ c, i = .action (.disconnect c) ∧ sys.engine.LeavesBehind n c

section

variable {sys : System} (h : sys.WellFormed) {n : Name}
include h

theorem WellFormed.tellsFriends_command {c : Connection} {command : Command}
    (hcommand : command = .enterGame ∨ command = .leaveGame)
    (hrefusals : (sys.act (.command c command)).engine.refusals = sys.engine.refusals)
    (hchanged : (sys.act (.command c command)).engine.presence.statusOf n ≠
      sys.engine.presence.statusOf n) :
    sys.engine.TellsFriends n (sys.act (.command c command)).engine := by
  rcases sys.act_command_cases c command with heq | ⟨s, -, heq⟩
  · rw [heq] at hchanged
    exact absurd rfl hchanged
  · rw [heq] at hrefusals hchanged ⊢
    exact h.engine.tellsFriends_handleCommand hcommand hrefusals hchanged

theorem WellFormed.tellsNobody {i : Input} (hleaves : sys.LeavesBehind i n) :
    sys.engine.TellsNobody n (sys.take i).engine := by
  obtain ⟨c, rfl, hleaves⟩ := hleaves
  exact h.engine.tellsNobody_disconnect hleaves

theorem WellFormed.tellsFriends {i : Input} (hstep : i.isPresenceStep = true)
    (hn : sys.engine.hasPlayer n = true)
    (hrefusals : (sys.take i).engine.refusals = sys.engine.refusals)
    (hchanged : (sys.take i).engine.presence.statusOf n ≠ sys.engine.presence.statusOf n)
    (hlast : ¬ sys.LeavesBehind i n) : sys.engine.TellsFriends n (sys.take i).engine := by
  match i, hstep with
  | .action (.connect k), _ =>
    rcases sys.engine.connect_cases k with ⟨-, heq⟩ | ⟨hk, heq⟩
    · simp only [System.take, System.act, System.connect, heq] at hchanged
      exact absurd rfl hchanged
    · simp only [System.take, System.act, System.connect, heq] at hrefusals hchanged ⊢
      exact h.engine.tellsFriends_connected hk hrefusals hchanged
  | .action (.disconnect c), _ =>
    refine h.engine.tellsFriends_disconnect hn hrefusals hchanged fun hleaves => ?_
    exact hlast ⟨c, rfl, hleaves⟩
  | .action (.command c .enterGame), _ =>
    exact h.tellsFriends_command (Or.inl rfl) hrefusals hchanged
  | .action (.command c .leaveGame), _ =>
    exact h.tellsFriends_command (Or.inr rfl) hrefusals hchanged

end

/-- **A change of what a player shows is told to the friends**, in every step by which a session
    comes, goes or shows another status, but for one kind: when a session goes and others stay,
    nobody is told anything. -/
theorem tellsFriends_unless_leavesBehind (capacity : Nat) (is : List Input) (i : Input) (n : Name)
    (hstep : i.isPresenceStep = true)
    (hn : ((start .empty capacity).run is).engine.hasPlayer n = true)
    (hrefusals : (((start .empty capacity).run is).take i).engine.refusals =
      ((start .empty capacity).run is).engine.refusals)
    (hchanged : (((start .empty capacity).run is).take i).engine.presence.statusOf n ≠
      ((start .empty capacity).run is).engine.presence.statusOf n) :
    (((start .empty capacity).run is).LeavesBehind i n →
      ((start .empty capacity).run is).engine.TellsNobody n
        (((start .empty capacity).run is).take i).engine) ∧
      (¬ ((start .empty capacity).run is).LeavesBehind i n →
        ((start .empty capacity).run is).engine.TellsFriends n
          (((start .empty capacity).run is).take i).engine) := by
  have h := ((sound_start capacity).run is).wellFormed
  exact ⟨h.tellsNobody, h.tellsFriends hstep hn hrefusals hchanged⟩

/-! ### One of two sessions in a game -/

/-- Two players become friends; the first one has two sessions. -/
def befriendTwice : List Input :=
  [.action (.create ⟨"q", Name.isValid_q⟩), .action (.create ⟨"r", Name.isValid_r⟩),
    .action (.connect ⟨"q", Name.isValid_q⟩), .action (.connect ⟨"q", Name.isValid_q⟩),
    .action (.connect ⟨"r", Name.isValid_r⟩),
    .action (.command ⟨0⟩ (.request "r")), .action (.command ⟨2⟩ (.accept "q"))]

/-- One of the sessions enters a game, which is told, and goes, which is not. -/
theorem tellsFriends_befriendTwice :
    ((start .empty 64).run befriendTwice).engine.presence.nameOf? ⟨2⟩ = some ⟨"r", by decide⟩ ∧
      (∃ news, (((start .empty 64).run befriendTwice).take
          (.action (.command ⟨0⟩ .enterGame))).engine.presence.waiting ⟨2⟩ =
          ((start .empty 64).run befriendTwice).engine.presence.waiting ⟨2⟩ ++ news ∧
        ∃ x ∈ news, x.shows? = some (⟨"q", by decide⟩,
          (((start .empty 64).run befriendTwice).take
            (.action (.command ⟨0⟩ .enterGame))).engine.presence.statusOf ⟨"q", by decide⟩)) ∧
      ∀ c, (((start .empty 64).run (befriendTwice ++
          [.action (.command ⟨0⟩ .enterGame)])).take
          (.action (.disconnect ⟨0⟩))).engine.presence.waiting c =
        ((start .empty 64).run (befriendTwice ++
          [.action (.command ⟨0⟩ .enterGame)])).engine.presence.waiting c := by
  have htells := tellsFriends_unless_leavesBehind 64 befriendTwice
    (.action (.command ⟨0⟩ .enterGame)) ⟨"q", by decide⟩ rfl (by decide +kernel)
    (by decide +kernel) (by decide +kernel)
  have hleaves := tellsFriends_unless_leavesBehind 64
    (befriendTwice ++ [.action (.command ⟨0⟩ .enterGame)]) (.action (.disconnect ⟨0⟩))
    ⟨"q", by decide⟩ rfl (by decide +kernel) (by decide +kernel) (by decide +kernel)
  have hname : ((start .empty 64).run befriendTwice).engine.presence.nameOf? ⟨2⟩ =
      some ⟨"r", by decide⟩ := by decide +kernel
  refine ⟨hname, ?_, (hleaves.1 ⟨⟨0⟩, rfl, by decide +kernel, ?_⟩).waiting⟩
  · refine htells.2 ?_ ⟨"r", by decide⟩ (by decide +kernel) ⟨2⟩ hname
    rintro ⟨c, hdisconnect, -⟩
    cases hdisconnect
  · exact ⟨⟨1⟩, by decide +kernel, by decide⟩

/-- That the session in the game goes is not told, although nobody is in a game then. -/
theorem not_tellsFriends_of_disconnect :
    ¬ ∀ (capacity : Nat) (is : List Input) (i : Input) (n : Name), i.isPresenceStep = true →
      ((start .empty capacity).run is).engine.hasPlayer n = true →
      (((start .empty capacity).run is).take i).engine.refusals =
        ((start .empty capacity).run is).engine.refusals →
      (((start .empty capacity).run is).take i).engine.presence.statusOf n ≠
        ((start .empty capacity).run is).engine.presence.statusOf n →
      ((start .empty capacity).run is).engine.TellsFriends n
        (((start .empty capacity).run is).take i).engine := by
  intro hall
  have htells := hall 64 (befriendTwice ++ [.action (.command ⟨0⟩ .enterGame)])
    (.action (.disconnect ⟨0⟩)) ⟨"q", by decide⟩ rfl (by decide +kernel) (by decide +kernel)
    (by decide +kernel)
  obtain ⟨news, hwaiting, x, hx, -⟩ := htells ⟨"r", by decide⟩ (by decide +kernel) ⟨2⟩
    (by decide +kernel)
  have hsilent : (((start .empty 64).run (befriendTwice ++
        [.action (.command ⟨0⟩ .enterGame)])).take
        (.action (.disconnect ⟨0⟩))).engine.presence.waiting ⟨2⟩ =
      ((start .empty 64).run (befriendTwice ++
        [.action (.command ⟨0⟩ .enterGame)])).engine.presence.waiting ⟨2⟩ := by decide +kernel
  have hnone : news = [] := List.self_eq_append_right.1 (hsilent.symm.trans hwaiting)
  rw [hnone] at hx
  cases hx

end System

end Amity
