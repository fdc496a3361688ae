/-
  Amity/Proofs/System/Leaving.lean
  ================================
  **Leaving is reported once, under the right name, and only when it matters.**  A session can have
  lost its place long before it leaves, and its player can have been renamed by another session
  meanwhile.  Leaving therefore looks at the owner entry of the connection alone: the entry is there
  from the time the connection comes until it leaves, and every renaming takes it along.

  The friends are told when the player has no session left and is still a player.  Each of their
  sessions gets one notice, as far as its mailbox has room, and nobody else gets anything.  A session
  without a place is no session of the player any more, yet it leaves as well: so when it goes after
  the last one in place, the friends are told by either.
-/
import Amity.Proofs.System.Connections
import Amity.Proofs.System.Ledger

namespace Amity

/-! ## Owner entries follow renamings -/

/-- The name that a change leaves to whoever has this one. -/
def AccountChange.follow : AccountChange → Name → Name
  | .renames old new, n => Ties.substitute old new n
  | _, n => n

namespace Engine

variable {e e' : Engine}

theorem owners_notifyAll (e : Engine) (outbox : Outbox) :
    (e.notifyAll outbox).presence.owners = e.presence.owners :=
  Presence.owners_deliver _ _

theorem owners_tellSiblings (e : Engine) (s : Session) (x : Notice) :
    (e.tellSiblings s x).presence.owners = e.presence.owners :=
  Presence.owners_deliver _ _

theorem owners_withoutPlayer (e : Engine) (n : Name) (outbox : Outbox) (database : Database) :
    (e.withoutPlayer n outbox database).presence.owners = e.presence.owners :=
  (Presence.owners_deliver (e.presence.evicted n) _).trans (Presence.cancelAll_eq _ _).2.1

theorem owners_deletePlayer {n : Name} {gone : Bool}
    (hdelete : e.deletePlayer n = .ok (gone, e')) :
    e'.presence.owners = e.presence.owners := by
  rcases deletePlayer_eq_ok hdelete with ⟨-, -, rfl⟩ | ⟨ties, database, -, -, rfl⟩
  · exact owners_withoutPlayer _ _ _ _
  · exact owners_withoutPlayer _ _ _ _

theorem owner_renamed (e : Engine) (s : Session) (new : Name) (ties : Ties) (database : Database)
    (c : Connection) :
    (e.renamed s new ties database).presence.owners.find? c =
      (e.presence.owners.find? c).map (Ties.substitute s.name new) := by
  rw [renamed_eq, owners_tellSiblings, owners_notifyAll]
  exact Presence.owner_rebound _ _ _ _

theorem owners_handleNotice (e : Engine) (s : Session) (x : Notice) :
    (e.handleNotice s x).engine.presence.owners = e.presence.owners := by
  rcases e.handleNotice_cases s x with ⟨-, heq⟩ | ⟨asker, status, replyTo, -, -, heq⟩
  · rw [heq]
  · rw [heq]
    exact Presence.owners_sendTo _ _ _ _

theorem owner_connected (e : Engine) (n : Name) (c : Connection) :
    (e.connected n).presence.owners.find? c =
      if c = ⟨e.presence.arrivals⟩ then some n else e.presence.owners.find? c := by
  have howners : (e.connected n).presence.owners = (e.attached n).presence.owners :=
    owners_notifyAll _ _
  rw [howners]
  exact Table.find?_insert _ _ _ _

theorem owner_disconnect (e : Engine) (c d : Connection) :
    (e.disconnect c).presence.owners.find? d =
      if d = c then none else e.presence.owners.find? d := by
  rcases e.disconnect_cases c with ⟨hnone, heq⟩ | ⟨n, -, ⟨-, heq⟩ | ⟨-, heq⟩⟩
  · rw [heq]
    split
    · next hd => rw [hd, hnone]
    · rfl
  · rw [heq]
    exact Presence.owner_detach _ c d
  · have howners : (e.disconnect c).presence.owners = (e.detached c).presence.owners := by
      rw [heq]
      exact owners_notifyAll _ _
    rw [howners]
    exact Presence.owner_detach _ c d

/-- Only a renaming makes a name go over into another. -/
theorem follow_changeOf (e : Engine) (name : Option Name) (reply : Reply)
    (hreply : ∀ old new, reply ≠ .renamed old new) (n : Name) :
    (e.changeOf name reply).follow n = n := by
  cases reply with
  | snapshot => rfl
  | renamed old new => exact absurd rfl (hreply old new)
  | close =>
    cases name with
    | none => rfl
    | some m =>
      show (e.closing m).follow n = n
      unfold closing
      split <;> rfl

theorem owner_performs {s : Session} {command : Command} {turn : Turn}
    (hturn : e.Performs s command turn) (name : Option Name) (c : Connection) :
    turn.engine.presence.owners.find? c =
      (e.presence.owners.find? c).map (e.changeOf name turn.reply).follow := by
  have hsame : (∀ old new, turn.reply ≠ .renamed old new) →
      turn.engine.presence.owners = e.presence.owners →
      turn.engine.presence.owners.find? c =
        (e.presence.owners.find? c).map (e.changeOf name turn.reply).follow := by
    intro hreply howners
    rw [howners, funext (e.follow_changeOf name turn.reply hreply)]
    exact Option.map_id'.symm
  cases hturn with
  | nothing => exact hsame nofun rfl
  | ties => exact hsame nofun ((owners_tellSiblings _ _ _).trans (owners_notifyAll _ _))
  | rename => exact e.owner_renamed s _ _ _ c
  | delete _ hdelete => exact hsame nofun (owners_deletePlayer hdelete)
  | status =>
    exact hsame nofun ((owners_notifyAll _ _).trans (Presence.owners_setStatus _ _ _))

theorem owner_handleCommand (e : Engine) (s : Session) (command : Command) (name : Option Name)
    (c : Connection) :
    (e.handleCommand s command).engine.presence.owners.find? c =
      (e.presence.owners.find? c).map
        (e.changeOf name (e.handleCommand s command).reply).follow := by
  have hclosed : (e.changeOf name .close).follow = id := funext (e.follow_changeOf name .close nofun)
  rcases e.handleCommand_cases s command with ⟨-, heq⟩ | ⟨n, -, ⟨-, heq⟩ | ⟨-, hturn⟩⟩
  · rw [heq, hclosed, Option.map_id, id]
  · rw [heq, hclosed, Option.map_id, id]
  · exact owner_performs hturn name c

end Engine

namespace System

/-- Names go over into others by commands only. -/
theorem follow_accountChange (sys : System) {i : Input}
    (hi : ∀ c command, i ≠ .action (.command c command)) (n : Name) :
    (sys.accountChange i).follow n = n := by
  cases i with
  | notice c x => rfl
  | hangUp c => rfl
  | action a =>
    cases a with
    | create m =>
      simp only [accountChange]
      cases sys.engine.database.directory.create m <;> rfl
    | delete m => exact sys.engine.follow_changeOf (some m) .close (by simp) n
    | connect m =>
      simp only [accountChange]
      cases sys.connect m <;> rfl
    | command c command => exact absurd rfl (hi c command)
    | setAlias m choice => rfl
    | disconnect c => rfl
    | read c => rfl

/-- Until it leaves, the owner entry of a connection that has come changes by commands only. -/
theorem owner_take_same (sys : System) {i : Input} {c : Connection}
    (hcome : c.number < sys.engine.presence.arrivals) (hi : i ≠ .action (.disconnect c))
    (hcommand : ∀ d command, i ≠ .action (.command d command)) :
    (sys.take i).engine.presence.owners.find? c = sys.engine.presence.owners.find? c := by
  cases i with
  | notice d x =>
    rcases sys.take_notice_cases d x with heq | ⟨s, -, heq⟩
    · rw [heq]
    · rw [heq]
      exact congrArg (·.find? c) (Engine.owners_handleNotice sys.engine s x)
  | hangUp d => rfl
  | action a =>
    cases a with
    | create n => rfl
    | setAlias n choice => rfl
    | delete n =>
      rcases sys.act_delete_cases n with heq | ⟨gone, engine, hdelete, heq⟩
      · rw [take, heq]
      · rw [take, heq]
        exact congrArg (·.find? c) (Engine.owners_deletePlayer hdelete)
    | connect n =>
      have hold : c ≠ ⟨sys.engine.presence.arrivals⟩ := by
        rintro rfl
        exact Nat.lt_irrefl _ hcome
      rcases sys.engine.connect_cases n with ⟨-, heq⟩ | ⟨hn, -⟩
      · simp only [take, act, connect, heq]
        rfl
      · rw [take, act_connect hn]
        exact (sys.engine.owner_connected n c).trans (if_neg hold)
    | disconnect d =>
      have hcd : c ≠ d := by
        rintro rfl
        exact hi rfl
      exact (sys.engine.owner_disconnect d c).trans (if_neg hcd)
    | command d command => exact absurd rfl (hcommand d command)
    | read d =>
      rcases sys.act_read_cases d with heq | ⟨s, x, xs, -, -, heq⟩
      · rw [take, heq]
      · rw [take, heq]
        exact congrArg (·.find? c) (Engine.owners_handleNotice (sys.engine.leaving d xs) s x)

/-- Until it leaves, the owner entry of a connection that has come follows the renamings. -/
theorem owner_take (sys : System) {i : Input} {c : Connection}
    (hcome : c.number < sys.engine.presence.arrivals) (hi : i ≠ .action (.disconnect c)) :
    (sys.take i).engine.presence.owners.find? c =
      (sys.engine.presence.owners.find? c).map (sys.accountChange i).follow := by
  by_cases hcommand : ∃ d command, i = .action (.command d command)
  · obtain ⟨d, command, rfl⟩ := hcommand
    cases hfind : sys.sessions.find? d with
    | none =>
      simp only [take, act_command_same hfind, accountChange, System.command, hfind]
      exact Option.map_id'.symm
    | some s =>
      simp only [take, act_command hfind, accountChange, System.command, hfind]
      exact sys.engine.owner_handleCommand s command _ c
  · simp only [not_exists] at hcommand
    rw [sys.owner_take_same hcome hi hcommand, funext (sys.follow_accountChange hcommand)]
    exact Option.map_id'.symm

/-- The name that a connection which had this one has after some inputs, unless it leaves. -/
def nameAfter (sys : System) (n : Name) : List Input → Name
  | [] => n
  | i :: is => (sys.take i).nameAfter ((sys.accountChange i).follow n) is

theorem Orderly.owner_run {sys : System} (h : sys.Orderly) {is : List Input} {c : Connection}
    {n : Name} (hc : sys.engine.presence.owners.find? c = some n)
    (his : .action (.disconnect c) ∉ is) :
    (sys.run is).engine.presence.owners.find? c = some (sys.nameAfter n is) := by
  induction is generalizing sys n with
  | nil => exact hc
  | cons i is ih =>
    rw [List.mem_cons, not_or] at his
    have hcome := h.sound.wellFormed.engine.presence.arrived c n hc
    refine ih (h.take i) ?_ his.2
    rw [owner_take sys hcome (Ne.symm his.1), hc]
    rfl

end System

/-! ## Leaving -/

namespace Engine

/-- The session of this connection hears that the player is disconnected when the other one leaves:
    that was the last session of somebody who is still a player, and it is a session of a friend. -/
def IsTold (e : Engine) (c : Connection) (n : Name) (d : Connection) : Prop :=
  e.hasPlayer n = true ∧ (∀ k ∈ e.presence.sessionsOf n, k = c) ∧
    ∃ m ∈ (e.database.graph.ties n).friends, d ∈ e.presence.sessionsOf m

instance (e : Engine) (c : Connection) (n : Name) (d : Connection) : Decidable (e.IsTold c n d) :=
  inferInstanceAs (Decidable (_ ∧ _ ∧ _))

/-- What a connection is told when the other one, of this player, leaves. -/
def farewell (e : Engine) (c : Connection) (n : Name) (d : Connection) : List Notice :=
  if e.IsTold c n d then [.status n .disconnected] else []

/-- What becomes of the engine when a connection with this owner entry leaves. -/
structure Leaves (e : Engine) (c : Connection) (n : Name) (e' : Engine) : Prop where
  gone : (∀ m, c ∉ e'.presence.sessionsOf m) ∧ e'.presence.owners.find? c = none
  owners : ∀ d, d ≠ c → e'.presence.owners.find? d = e.presence.owners.find? d
  /-- Every session of a friend is told once, if its mailbox has room; nobody else is told
      anything. -/
  waiting : ∀ d, e'.presence.waiting d =
    e.presence.waiting d ++ (e.farewell c n d).take (e.presence.room d)
  /-- The others keep their places, unless they are told and have no room. -/
  group : ∀ m, e'.presence.group m =
    (e.presence.group m).filter fun a =>
      a.connection ≠ c ∧ (e.farewell c n a.connection).length ≤ e.presence.room a.connection
  /-- When everybody who is told has room for it. -/
  complete : (∀ d, e.IsTold c n d → 0 < e.presence.room d) →
    (∀ d, e'.presence.waiting d = e.presence.waiting d ++ e.farewell c n d) ∧
      ∀ m, e'.presence.group m = (e.presence.group m).filter (·.connection ≠ c)

theorem length_farewell_le {e : Engine} {c d : Connection} {n : Name} {k : Nat}
    (hroom : e.IsTold c n d → 0 < k) : (e.farewell c n d).length ≤ k := by
  unfold farewell
  split
  · next hd => exact hroom hd
  · exact Nat.zero_le k

theorem room_detached (e : Engine) (c d : Connection) :
    (e.detached c).presence.room d = e.presence.room d := by
  have hboxes : (e.detached c).presence.boxes = e.presence.boxes := Presence.boxes_detach _ c
  rw [Presence.room_eq, Presence.room_eq, hboxes]

section

variable {e : Engine} (h : e.WellFormed)
include h

/-- Nobody is a friend of himself, so that who leaves is not told. -/
theorem WellFormed.nameOf?_detached_iff {c d : Connection} {n m : Name}
    (hc : e.presence.owners.find? c = some n) (hm : m ∈ (e.database.graph.ties n).friends) :
    (e.detached c).presence.nameOf? d = some m ↔ d ∈ e.presence.sessionsOf m := by
  have hname : (e.detached c).presence.nameOf? d = if d = c then none else e.presence.nameOf? d :=
    h.presence.nameOf?_detach c d
  rw [hname, ← h.presence.nameOf?_eq_some_iff]
  split
  · next hd =>
    subst hd
    refine iff_of_false nofun fun hd => ?_
    have hmn : m = n := Option.some.inj ((Presence.owner_of_nameOf? hd).symm.trans hc)
    exact (h.graph.irreflexive n).1 (hmn ▸ hm)
  · rfl

theorem WellFormed.disconnect_delivered {c : Connection} {n : Name}
    (hc : e.presence.owners.find? c = some n) :
    (e.detached c).presence.Delivered (e.farewell c n) (e.disconnect c).presence := by
  rcases e.disconnect_cases c with ⟨hnone, -⟩ | ⟨m, hm, ⟨hquiet, heq⟩ | ⟨⟨hlast, hplayer⟩, heq⟩⟩
  · cases hc.symm.trans hnone
  · obtain rfl := Option.some.inj (hc.symm.trans hm)
    have hnobody : e.farewell c n = fun _ => [] := by
      funext d
      refine if_neg fun hd => ?_
      rcases hquiet with honline | hplayer
      · cases ((h.isOnline_detached_iff c n).2 hd.2.1).symm.trans honline
      · cases hd.1.symm.trans hplayer
    rw [heq, hnobody]
    exact .refl _
  · obtain rfl := Option.some.inj (hc.symm.trans hm)
    have hdelivered := (h.detached c).broadcast_delivered n .disconnected
    have hnews : e.farewell c n = fun d =>
        if ∃ k, (e.detached c).presence.nameOf? d = some k ∧
          k ∈ ((e.detached c).database.graph.ties n).friends
        then [.status n .disconnected] else [] := by
      funext d
      refine if_congr ?_ rfl rfl
      constructor
      · rintro ⟨-, -, k, hk, hd⟩
        exact ⟨k, (h.nameOf?_detached_iff hc hk).2 hd, hk⟩
      · rintro ⟨k, hd, hk⟩
        exact ⟨hplayer, (h.isOnline_detached_iff c n).1 hlast, k, hk,
          (h.nameOf?_detached_iff hc hk).1 hd⟩
    rw [heq, hnews]
    exact hdelivered

theorem WellFormed.leaves {c : Connection} {n : Name}
    (hc : e.presence.owners.find? c = some n) : e.Leaves c n (e.disconnect c) := by
  have hdelivered := h.disconnect_delivered hc
  have howner := e.owner_disconnect c
  have hgone : (e.disconnect c).presence.owners.find? c = none := (howner c).trans (if_pos rfl)
  have hwaiting : ∀ d, (e.disconnect c).presence.waiting d =
      e.presence.waiting d ++ (e.farewell c n d).take (e.presence.room d) := by
    intro d
    rw [hdelivered.waiting, room_detached]
    exact congrArg (· ++ _) (Presence.waiting_detach _ c d)
  have hgroup : ∀ m, (e.disconnect c).presence.group m =
      (e.presence.group m).filter fun a =>
        a.connection ≠ c ∧ (e.farewell c n a.connection).length ≤ e.presence.room a.connection := by
    intro m
    rw [hdelivered.group, h.group_detached, List.filter_filter]
    refine List.filter_congr fun a _ => ?_
    rw [room_detached, ← Bool.decide_and]
    exact decide_eq_decide.2 and_comm
  refine ⟨⟨?_, hgone⟩, fun d hd => (howner d).trans (if_neg hd), hwaiting, hgroup, fun hroom => ?_⟩
  · exact (h.disconnect c).presence.nameOf?_eq_none_iff.1 (Presence.nameOf?_of_owner hgone)
  · have hfits := fun d => length_farewell_le (hroom d)
    refine ⟨fun d => ?_, fun m => ?_⟩
    · rw [hwaiting, List.take_of_length_le (hfits d)]
    · rw [hgroup]
      exact List.filter_congr fun a _ => by simp [hfits a.connection]

end

theorem disconnect_of_owner {e : Engine} {c : Connection}
    (hc : e.presence.owners.find? c = none) : e.disconnect c = e := by
  rcases e.disconnect_cases c with ⟨-, heq⟩ | ⟨n, hn, -⟩
  · exact heq
  · cases hc.symm.trans hn

end Engine

namespace System

/-- What it comes to that a session leaves after some inputs.  It may have lost its place before,
    and the name it remembers may be an old one. -/
structure LeavesOnce (sys : System) (is : List Input) (s : Session) : Prop where
  database : ((sys.run is).engine.disconnect s.connection).database = (sys.run is).engine.database
  /-- Without an owner entry nothing changes. -/
  unknown : (sys.run is).engine.presence.owners.find? s.connection = none →
    (sys.run is).engine.disconnect s.connection = (sys.run is).engine
  /-- With an owner entry the connection goes, and the friends of its owner are told. -/
  known : ∀ n, (sys.run is).engine.presence.owners.find? s.connection = some n →
    (sys.run is).engine.Leaves s.connection n ((sys.run is).engine.disconnect s.connection)
  /-- Until it leaves, the owner of a connection is who it came as, under the name that all the
      renamings since then have left. -/
  owner : ∀ before n later, is = before ++ .action (.connect n) :: later →
    ((sys.run before).connect n).map (·.1) = some s.connection →
    .action (.disconnect s.connection) ∉ later →
    (sys.run is).engine.presence.owners.find? s.connection =
      some (((sys.run before).take (.action (.connect n))).nameAfter n later)
  /-- A second time nothing changes, at once or later. -/
  again : ((sys.run is).engine.disconnect s.connection).disconnect s.connection =
    (sys.run is).engine.disconnect s.connection
  later : sys.HasCome is s.connection → ∀ more,
    (((sys.run is).act (.disconnect s.connection)).run more).engine.disconnect s.connection =
      (((sys.run is).act (.disconnect s.connection)).run more).engine

theorem Orderly.owner_of_connect {sys : System} (h : sys.Orderly) {n : Name} {c : Connection}
    (hc : (sys.connect n).map (·.1) = some c) {later : List Input}
    (hlater : .action (.disconnect c) ∉ later) :
    ((sys.take (.action (.connect n))).run later).engine.presence.owners.find? c =
      some ((sys.take (.action (.connect n))).nameAfter n later) := by
  refine (h.take _).owner_run ?_ hlater
  rcases sys.engine.connect_cases n with ⟨-, heq⟩ | ⟨hn, heq⟩
  · simp [System.connect, heq] at hc
  · simp only [System.connect, heq, Option.map_some, Option.some.injEq] at hc
    rw [System.take, act_connect hn, ← hc]
    exact (sys.engine.owner_connected n _).trans (if_pos rfl)

theorem Orderly.leavesOnce {sys : System} (h : sys.Orderly) (is : List Input) (s : Session) :
    sys.LeavesOnce is s where
  database := Engine.database_disconnect _ _
  unknown := Engine.disconnect_of_owner
  known _ hn := (h.run is).sound.wellFormed.engine.leaves hn
  owner before n later his hconnect hlater := by
    subst his
    rw [run_append]
    exact (h.run before).owner_of_connect hconnect hlater
  again := Engine.disconnect_of_owner ((Engine.owner_disconnect _ _ _).trans (if_pos rfl))
  later hcome more := Engine.disconnect_of_owner (((h.tendsAll is).left _ hcome).2 more)

/-- **Leaving is reported once, under the right name, and only when it matters**, after whatever has
    come from outside. -/
theorem leavesOnce_run (capacity : Nat) (is : List Input) (s : Session) :
    (start .empty capacity).LeavesOnce is s :=
  (orderly_start capacity).leavesOnce is s

/-- The second session is dropped while the first renames the player; the friend hears the new name
    from each of the two when it goes. -/
example :
    let q : Name := ⟨"q", Name.isValid_q⟩
    let r : Name := ⟨"r", Name.isValid_r⟩
    let s : Name := ⟨"s", Name.isValid_s⟩
    ((start .empty 64).run
      [.action (.create q), .action (.create r), .action (.connect q), .action (.connect q),
        .action (.connect r), .action (.command ⟨0⟩ (.request "r")),
        .action (.command ⟨2⟩ (.accept "q")), .hangUp ⟨1⟩, .action (.command ⟨0⟩ (.rename "s")),
        .action (.disconnect ⟨0⟩), .action (.disconnect ⟨1⟩)]).engine.presence.waiting ⟨2⟩ =
      [.update none, .status q .disconnected, .status s .connected, .renamed q s,
        .status s .disconnected, .status s .disconnected] := by
  decide +kernel

end System

end Amity
