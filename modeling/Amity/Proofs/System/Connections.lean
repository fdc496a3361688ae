/-
  Amity/Proofs/System/Connections.lean
  ====================================
  **No connection is left hanging.**  A connection that has come and not gone has its place in the
  group of its player, or it has been told to end; never both, and never neither.  Mailboxes may
  refuse notices in the middle of anything, a renaming or a deletion too, so the law is carried
  through every input and asks for no success of a delivery.

  Coming is the only way to a place, and connections are numbered as they come.  So a connection
  without a place is out for good (`IsOut`): nothing new waits for it, and its commands do nothing
  but end it.
-/
import Amity.Proofs.Presence.Tokens
import Amity.Proofs.System.Inputs

namespace Amity

namespace Engine

/-! ## While nobody comes or goes -/

section

variable {e : Engine} (h : e.WellFormed)
include h

theorem WellFormed.continues_notifyAll (outbox : Outbox) :
    e.presence.Continues (e.notifyAll outbox).presence :=
  h.presence.continues_notifyAll outbox

/-- Everybody in an outbox and then the siblings. -/
theorem WellFormed.continues_notifyAll_tellSiblings (outbox : Outbox) (s : Session) (x : Notice) :
    e.presence.Continues ((e.notifyAll outbox).tellSiblings s x).presence :=
  (h.continues_notifyAll outbox).trans
    ((h.notifyAll outbox).presence.continues_notifyOthers s.name s.connection x)

theorem WellFormed.continues_deletePlayer {e' : Engine} {n : Name} {gone : Bool}
    (hdelete : e.deletePlayer n = .ok (gone, e')) : e.presence.Continues e'.presence := by
  have hevicted := h.presence.continues_evicted n
  have hafter := h.presence.evicted n
  rcases deletePlayer_eq_ok hdelete with ⟨-, -, rfl⟩ | ⟨ties, database, -, -, rfl⟩
  · exact hevicted.trans (hafter.continues_notifyAll [])
  · exact hevicted.trans (hafter.continues_notifyAll (deleteOutbox ties n))

theorem WellFormed.continues_performs {s : Session} {command : Command} {turn : Turn}
    (hturn : e.Performs s command turn) : e.presence.Continues turn.engine.presence := by
  cases hturn with
  | nothing => exact .refl _
  | @ties target change database _ hasks houtcome =>
    exact (h.withTies hasks houtcome).continues_notifyAll_tellSiblings _ s change.toSiblings
  | @rename _ new ties database _ hne hrename =>
    dsimp only
    rw [renamed_eq]
    exact (h.presence.continues_rebound hne).trans
      ((h.rebound hne hrename).continues_notifyAll_tellSiblings _ _ _)
  | delete _ hdelete => exact h.continues_deletePlayer hdelete
  | status status =>
    exact (h.presence.continues_setStatus s.connection status).trans
      ((h.setStatus s.connection status).continues_notifyAll _)

/-- A command takes nobody's place but of who is told to end. -/
theorem WellFormed.continues_handleCommand (s : Session) (command : Command) :
    e.presence.Continues (e.handleCommand s command).engine.presence := by
  rcases e.handleCommand_cases s command with ⟨-, heq⟩ | ⟨n, -, ⟨-, heq⟩ | ⟨-, hturn⟩⟩
  · rw [heq]
    exact .refl _
  · rw [heq]
    exact .refl _
  · exact h.continues_performs hturn

theorem WellFormed.continues_handleNotice (s : Session) (x : Notice) :
    e.presence.Continues (e.handleNotice s x).engine.presence := by
  rcases e.handleNotice_cases s x with ⟨-, heq⟩ | ⟨asker, status, replyTo, -, -, heq⟩
  · rw [heq]
    exact .refl _
  · rw [heq]
    exact h.presence.continues_sendTo asker replyTo _

omit h in
theorem continues_leaving {c : Connection} {x : Notice} {xs : List Notice}
    (hwaiting : e.presence.waiting c = x :: xs) :
    e.presence.Continues (e.leaving c xs).presence := by
  refine .of_editBox c (fun _ => rfl) ?_
  rw [Presence.waiting_editBox hwaiting, if_pos rfl, hwaiting]
  exact List.suffix_cons x xs

theorem WellFormed.continues_disconnect (c : Connection) :
    (e.detached c).presence.Continues (e.disconnect c).presence := by
  rcases e.disconnect_cases c with ⟨howner, heq⟩ | ⟨n, -, ⟨-, heq⟩ | ⟨-, heq⟩⟩
  · have hsame : (e.detached c).presence = e.presence := by
      simp only [Engine.detached, Presence.detach, howner]
    rw [heq, hsame]
    exact .refl _
  · rw [heq]
    exact .refl _
  · rw [heq]
    exact (h.detached c).continues_notifyAll _

end

end Engine

namespace System

/-! ## Inputs -/

/-- What an input does to places and tokens: a connection comes, one leaves, or neither; whatever
    happens then, who loses a place is told to end. -/
inductive Goes (sys : System) : Input → System → Prop where
  | comes {n : Name} {sys' : System}
      (hafter : (sys.engine.attached n).presence.Continues sys'.engine.presence) :
      Goes sys (.action (.connect n)) sys'
  | leaves {c : Connection} {sys' : System}
      (hafter : (sys.engine.detached c).presence.Continues sys'.engine.presence) :
      Goes sys (.action (.disconnect c)) sys'
  | stays {i : Input} {sys' : System}
      (hafter : sys.engine.presence.Continues sys'.engine.presence) : Goes sys i sys'

theorem WellFormed.goes_act {sys : System} (h : sys.WellFormed) (a : Action) :
    sys.Goes (.action a) (sys.act a) := by
  cases a with
  | create n => exact .stays (.refl _)
  | setAlias n choice => exact .stays (.refl _)
  | delete n =>
    rcases sys.act_delete_cases n with heq | ⟨gone, engine, hdelete, heq⟩
    · rw [heq]
      exact .stays (.refl _)
    · rw [heq]
      exact .stays (h.engine.continues_deletePlayer hdelete)
  | connect n =>
    rcases sys.engine.connect_cases n with ⟨-, heq⟩ | ⟨hn, heq⟩
    · simp only [System.act, System.connect, heq]
      exact .stays (.refl _)
    · simp only [System.act, System.connect, heq]
      exact .comes ((h.engine.attached hn).continues_notifyAll _)
  | disconnect c => exact .leaves (h.engine.continues_disconnect c)
  | command c command =>
    rcases sys.act_command_cases c command with heq | ⟨s, -, heq⟩
    · rw [heq]
      exact .stays (.refl _)
    · rw [heq]
      exact .stays (h.engine.continues_handleCommand s command)
  | read c =>
    rcases sys.act_read_cases c with heq | ⟨s, x, xs, -, hwaiting, heq⟩
    · rw [heq]
      exact .stays (.refl _)
    · rw [heq]
      exact .stays ((Engine.continues_leaving hwaiting).trans
        ((h.leaving c xs).continues_handleNotice s x))

theorem WellFormed.goes {sys : System} (h : sys.WellFormed) (i : Input) :
    sys.Goes i (sys.take i) := by
  cases i with
  | action a => exact h.goes_act a
  | notice c x =>
    rcases sys.take_notice_cases c x with heq | ⟨s, -, heq⟩
    · rw [heq]
      exact .stays (.refl _)
    · rw [heq]
      exact .stays (h.engine.continues_handleNotice s x)
  | hangUp c =>
    refine .stays (.of_editBox c (fun _ => rfl) ?_)
    have hclosed := Presence.waiting_close sys.engine.presence c c
    rw [if_pos rfl] at hclosed
    exact hclosed ▸ List.nil_suffix

theorem precedes_take (sys : System) (i : Input) :
    sys.engine.presence.Precedes (sys.take i).engine.presence := by
  cases i with
  | action a => exact sys.precedes_act a
  | notice c x =>
    rcases sys.take_notice_cases c x with heq | ⟨s, -, heq⟩
    · rw [heq]
      exact .refl _
    · rw [heq]
      exact Engine.precedes_handleNotice _ s x
  | hangUp c => exact .of_eq rfl rfl

theorem precedes_run (sys : System) (is : List Input) :
    sys.engine.presence.Precedes (sys.run is).engine.presence := by
  induction is generalizing sys with
  | nil => exact .refl _
  | cons i is ih => exact (sys.precedes_take i).trans (ih (sys.take i))

theorem run_append (sys : System) (is js : List Input) :
    sys.run (is ++ js) = (sys.run is).run js :=
  List.foldl_append

theorem run_concat (sys : System) (is : List Input) (i : Input) :
    sys.run (is ++ [i]) = (sys.run is).take i := by
  rw [run_append]
  rfl

/-! ## What every run keeps -/

/-- A sound system in which places and tokens go together. -/
structure Orderly (sys : System) : Prop where
  sound : sys.Sound
  tended : sys.engine.presence.Tended

theorem orderly_start (capacity : Nat) : (start .empty capacity).Orderly where
  sound := sound_start capacity
  tended := Presence.tended_empty

section

variable {sys : System} (h : sys.Orderly)
include h

theorem Orderly.take (i : Input) : (sys.take i).Orderly := by
  refine ⟨h.sound.take i, ?_⟩
  have hpresence := h.sound.wellFormed.engine.presence
  cases h.sound.wellFormed.goes i with
  | @comes n _ hafter =>
    exact (h.tended.attach hpresence n _).continues (hpresence.attach n _) hafter
  | @leaves c _ hafter =>
    exact (h.tended.detach hpresence c).continues (hpresence.detach c) hafter
  | stays hafter => exact h.tended.continues hpresence hafter

theorem Orderly.run (is : List Input) : (sys.run is).Orderly := by
  induction is generalizing sys with
  | nil => exact h
  | cons i is ih => exact ih (h.take i)

end

/-! ### Owner entries -/

/-- The owner entry of a connection goes only when the connection does. -/
theorem Orderly.owned {sys : System} (h : sys.Orderly) {i : Input} {c : Connection}
    (hc : (sys.engine.presence.owners.find? c).isSome = true)
    (hi : i ≠ .action (.disconnect c)) :
    ((sys.take i).engine.presence.owners.find? c).isSome = true := by
  cases h.sound.wellFormed.goes i with
  | @comes n _ hafter =>
    rw [hafter.owned]
    show ((sys.engine.presence.owners.insert _ n).find? c).isSome = true
    rw [Table.find?_insert]
    split
    · rfl
    · exact hc
  | @leaves d _ hafter =>
    have hcd : c ≠ d := by
      rintro rfl
      exact hi rfl
    rw [hafter.owned]
    show ((sys.engine.presence.detach d).2.owners.find? c).isSome = true
    rw [Presence.owner_detach, if_neg hcd]
    exact hc
  | stays hafter =>
    rw [hafter.owned]
    exact hc

theorem Orderly.owned_run {sys : System} (h : sys.Orderly) {is : List Input} {c : Connection}
    (hc : (sys.engine.presence.owners.find? c).isSome = true)
    (his : .action (.disconnect c) ∉ is) :
    ((sys.run is).engine.presence.owners.find? c).isSome = true := by
  induction is generalizing sys with
  | nil => exact hc
  | cons i is ih =>
    rw [List.mem_cons, not_or] at his
    exact ih (h.take i) (h.owned hc (Ne.symm his.1)) his.2

/-! ### Without a place -/

/-- A connection that has come before and has no place. -/
structure Unplaced (sys : System) (c : Connection) : Prop where
  arrived : c.number < sys.engine.presence.arrivals
  nameless : sys.engine.presence.nameOf? c = none

theorem Unplaced.take {sys : System} {c : Connection} (hc : sys.Unplaced c) (h : sys.Orderly)
    (i : Input) :
    (sys.take i).Unplaced c ∧ sys.engine.presence.StaysOut c (sys.take i).engine.presence := by
  have hpresence := h.sound.wellFormed.engine.presence
  have hout : sys.engine.presence.StaysOut c (sys.take i).engine.presence := by
    cases h.sound.wellFormed.goes i with
    | @comes n _ hafter =>
      have hold : c ≠ ⟨sys.engine.presence.arrivals⟩ := by
        rintro rfl
        exact Nat.lt_irrefl _ hc.arrived
      have hattach := hpresence.staysOut_attach hc.nameless n sys.engine.capacity hold
      exact hattach.trans (hafter.staysOut hattach.nameless)
    | @leaves d _ hafter =>
      have hdetach := hpresence.staysOut_detach hc.nameless d
      exact hdetach.trans (hafter.staysOut hdetach.nameless)
    | stays hafter => exact hafter.staysOut hc.nameless
  have harrived := Nat.lt_of_lt_of_le hc.arrived (sys.precedes_take i).arrivals
  exact ⟨⟨harrived, hout.nameless⟩, hout⟩

theorem Unplaced.run {sys : System} {c : Connection} (hc : sys.Unplaced c) (h : sys.Orderly)
    (is : List Input) :
    (sys.run is).Unplaced c ∧ sys.engine.presence.StaysOut c (sys.run is).engine.presence := by
  induction is generalizing sys with
  | nil => exact ⟨hc, hc.nameless, rfl, List.suffix_refl _, id⟩
  | cons i is ih =>
    obtain ⟨hnext, hout⟩ := hc.take h i
    obtain ⟨hlater, hout'⟩ := ih hnext (h.take i)
    exact ⟨hlater, hout.trans hout'⟩

/-! ## No connection is left hanging -/

/-- A call of `connect` in the run returned the connection, and `later` came after that. -/
def ComesBefore (sys : System) (is : List Input) (c : Connection) (later : List Input) : Prop :=
  ∃ before n, is = before ++ .action (.connect n) :: later ∧
    ((sys.run before).connect n).map (·.1) = some c

/-- The connection was returned by a call of `connect`. -/
def HasCome (sys : System) (is : List Input) (c : Connection) : Prop :=
  ∃ later, sys.ComesBefore is c later

/-- The connection was returned by a call of `connect` and has not left since. -/
def IsThere (sys : System) (is : List Input) (c : Connection) : Prop :=
  ∃ later, sys.ComesBefore is c later ∧ .action (.disconnect c) ∉ later

/-- A connection that nothing is left for, whatever comes. -/
structure IsOut (sys : System) (c : Connection) : Prop where
  absent : ∀ is n, c ∉ (sys.run is).engine.presence.sessionsOf n
  /-- No operation adds to what waits for it. -/
  waiting : ∀ is i,
    ((sys.run is).take i).engine.presence.waiting c <:+ (sys.run is).engine.presence.waiting c
  /-- A command of it is answered by the end, and nothing else happens. -/
  commands : ∀ is s command, s.connection = c →
    (sys.run is).engine.handleCommand s command = ⟨.close, s, (sys.run is).engine⟩

/-- What becomes of the connections that have come in a run. -/
structure TendsAll (sys : System) (is : List Input) : Prop where
  /-- Each connection that is there has its place or has been told to end, not both. -/
  oneOf : ∀ c, sys.IsThere is c →
    Xor ((sys.run is).engine.presence.InPlace c) ((sys.run is).engine.presence.Ended c)
  /-- Whoever has been told to end stays so. -/
  ended : ∀ c, sys.IsThere is c → (sys.run is).engine.presence.Ended c →
    (sys.run is).IsOut c ∧ ∀ more, ((sys.run is).run more).engine.presence.Ended c
  /-- Whoever has left is out, and has no owner entry any more. -/
  left : ∀ c, sys.HasCome is c →
    ((sys.run is).act (.disconnect c)).IsOut c ∧
      ∀ more, (((sys.run is).act (.disconnect c)).run more).engine.presence.owners.find? c = none

section

variable {sys : System} (h : sys.Orderly)
include h

theorem Unplaced.isOut {c : Connection} (hc : sys.Unplaced c) : sys.IsOut c where
  absent is n := by
    have hpresence := (h.run is).sound.wellFormed.engine.presence
    exact hpresence.nameOf?_eq_none_iff.1 (hc.run h is).1.nameless n
  waiting is i := ((hc.run h is).1.take (h.run is) i).2.waiting
  commands is s command hs := by
    have hnone := (hc.run h is).1.nameless
    unfold Engine.handleCommand
    rw [hs, hnone]

theorem Unplaced.ended {c : Connection} (hc : sys.Unplaced c)
    (htoken : sys.engine.presence.isCancelled c = true) (is : List Input) :
    (sys.run is).engine.presence.Ended c := by
  have hout := (hc.run h is).2
  have hpresence := (h.run is).sound.wellFormed.engine.presence
  exact ⟨hpresence.nameOf?_eq_none_iff.1 hout.nameless, hout.cancelled.trans htoken⟩

/-- A connection that has come is numbered and has an owner entry. -/
theorem Orderly.comes {n : Name} {c : Connection} (hc : (sys.connect n).map (·.1) = some c) :
    c.number < (sys.take (.action (.connect n))).engine.presence.arrivals ∧
      ((sys.take (.action (.connect n))).engine.presence.owners.find? c).isSome = true := by
  rcases sys.engine.connect_cases n with ⟨-, heq⟩ | ⟨hn, heq⟩
  · simp only [System.connect, heq] at hc
    cases hc
  · have htake : (sys.take (.action (.connect n))).engine = sys.engine.connected n := by
      simp only [System.take, System.act, System.connect, heq]
      rfl
    simp only [System.connect, heq, Option.map_some, Option.some.injEq] at hc
    have hafter := (h.sound.wellFormed.engine.attached hn).continues_notifyAll
      ((sys.engine.attached n).toFriends n (sys.engine.firstProbe n))
    have hafter : (sys.engine.attached n).presence.Continues (sys.engine.connected n).presence :=
      hafter
    rw [htake, hafter.arrivals, hafter.owned, ← hc]
    refine ⟨Nat.lt_succ_self _, ?_⟩
    show ((sys.engine.presence.owners.insert ⟨sys.engine.presence.arrivals⟩ n).find?
      ⟨sys.engine.presence.arrivals⟩).isSome = true
    rw [Table.find?_insert, if_pos rfl]
    rfl

/-- Since it has come, a connection is numbered. -/
theorem Orderly.arrived {is : List Input} {c : Connection} (hc : sys.HasCome is c) :
    c.number < (sys.run is).engine.presence.arrivals := by
  obtain ⟨later, before, n, rfl, hconnect⟩ := hc
  have hcomes := ((h.run before).comes hconnect).1
  rw [run_append]
  exact Nat.lt_of_lt_of_le hcomes (precedes_run _ later).arrivals

/-- As long as it has not left, a connection has an owner entry. -/
theorem Orderly.owned_of_isThere {is : List Input} {c : Connection} (hc : sys.IsThere is c) :
    ((sys.run is).engine.presence.owners.find? c).isSome = true := by
  obtain ⟨later, ⟨before, n, rfl, hconnect⟩, hlater⟩ := hc
  rw [run_append]
  exact ((h.run before).take _).owned_run ((h.run before).comes hconnect).2 hlater

theorem Orderly.tendsAll (is : List Input) : sys.TendsAll is where
  oneOf c hc := by
    have hpresence := (h.run is).sound.wellFormed.engine.presence
    exact (h.run is).tended.inPlace_or_ended hpresence (h.owned_of_isThere hc)
  ended c hc hended := by
    have hpresence := (h.run is).sound.wellFormed.engine.presence
    have hcome : sys.HasCome is c := hc.imp fun _ => And.left
    have hunplaced : (sys.run is).Unplaced c :=
      ⟨h.arrived hcome, hpresence.nameOf?_eq_none_iff.2 hended.1⟩
    exact ⟨hunplaced.isOut (h.run is), hunplaced.ended (h.run is) hended.2⟩
  left c hc := by
    have hgone := (h.run is).take (.action (.disconnect c))
    have howner : ((sys.run is).act (.disconnect c)).engine.presence.owners.find? c = none := by
      have hcontinues := (h.run is).sound.wellFormed.engine.continues_disconnect c
      rw [← Option.not_isSome_iff_eq_none]
      show ¬ (((sys.run is).engine.disconnect c).presence.owners.find? c).isSome = true
      rw [hcontinues.owned]
      show ¬ (((sys.run is).engine.presence.detach c).2.owners.find? c).isSome = true
      rw [Presence.owner_detach, if_pos rfl]
      simp
    have hunplaced : ((sys.run is).act (.disconnect c)).Unplaced c := by
      refine ⟨?_, Presence.nameOf?_of_owner howner⟩
      exact Nat.lt_of_lt_of_le (h.arrived hc) (precedes_act _ _).arrivals
    exact ⟨hunplaced.isOut hgone, fun more => (hunplaced.run hgone more).2.owner howner⟩

end

/-- **No connection is left hanging**, whatever comes from outside and whatever the mailboxes
    refuse. -/
theorem tendsAll_run (capacity : Nat) (is : List Input) : (start .empty capacity).TendsAll is :=
  (orderly_start capacity).tendsAll is

/-- The second notice for a mailbox that holds one costs the connection its place. -/
example :
    ((start .empty 1).run
      [.action (.create ⟨"q", Name.isValid_q⟩), .action (.create ⟨"r", Name.isValid_r⟩),
        .action (.connect ⟨"q", Name.isValid_q⟩), .action (.connect ⟨"r", Name.isValid_r⟩),
        .action (.command ⟨0⟩ (.request "r")),
        .action (.command ⟨0⟩ (.cancel "r"))]).engine.presence.isCancelled ⟨1⟩ = true := by
  decide +kernel

end System

end Amity
