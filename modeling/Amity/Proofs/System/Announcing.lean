/-
  Amity/Proofs/System/Announcing.lean
  ===================================
  **Statuses go to friends and are true when sent.**  A status leaves in many ways: by the probe of a
  session that comes or says yes to a request, by the answer to a probe, by a renaming, by a status
  that is set, by the last session that goes.  Each time the registry changes first and the notices
  are delivered then, so there is one law for all of them (`Announces.of_delivered`): it is enough
  that every notice speaks of a friend of the addressee and gives the status that the friend has in
  the registry that is delivered from.

  A session may remember an outdated name and answer a probe under it.  Then the name is nobody's,
  and has no friends; or it is somebody else's, and the answer is true of him.
-/
import Amity.Proofs.System.Ledger

namespace Amity

/-- The player whose status a notice shows, and the status. -/
def Notice.shows? : Notice → Option (Name × Status)
  | .status n s => some (n, s)
  | .probe n s _ => some (n, s)
  | _ => none

/-- The name after a change of the player who had this name before. -/
def AccountChange.called : AccountChange → Name → Name
  | .renames old new, n => Ties.substitute old new n
  | _, n => n

namespace Engine

/-- A connection is rightly told that the player `n` shows the status `s`. -/
structure TellsRightly (e : Engine) (change : AccountChange) (e' : Engine) (c : Connection)
    (n : Name) (s : Status) : Prop where
  /-- It stands under a friend's name, and goes on to if it stays attached. -/
  friend : ∃ m, e.presence.nameOf? c = some m ∧
    (∀ k, e'.presence.nameOf? c = some k → k = m) ∧
    e'.database.graph.areFriends (change.called n) m = .ok true
  /-- When nothing is refused, the player shows this status. -/
  status : e'.refusals = e.refusals → s = e'.presence.statusOf n
  /-- Of a name that is given up it is said that nobody is there. -/
  former : change.called n ≠ n → s = .disconnected

/-- Beyond what is left in the mailboxes there are notices, and the statuses they show are rightly
    told. -/
def Announces (e : Engine) (change : AccountChange) (left : Connection → List Notice)
    (e' : Engine) : Prop :=
  ∀ c, ∃ news, e'.presence.waiting c = left c ++ news ∧
    ∀ x ∈ news, ∀ n s, x.shows? = some (n, s) → e.TellsRightly change e' c n s

section

variable {e e' : Engine} {change : AccountChange} {left : Connection → List Notice}

theorem Announces.of_waiting (h : ∀ c, e'.presence.waiting c = left c) :
    e.Announces change left e' :=
  fun c => ⟨[], by rw [h, List.append_nil], nofun⟩

/-- Taking notices out of a mailbox changes nobody's name and counts no refusal. -/
theorem Announces.of_leaving {c : Connection} {xs : List Notice}
    (h : (e.leaving c xs).Announces change left e') : e.Announces change left e' := by
  intro d
  obtain ⟨news, hwaiting, hnews⟩ := h d
  refine ⟨news, hwaiting, fun x hx n s hshows => ?_⟩
  obtain ⟨hfriend, hstatus, hformer⟩ := hnews x hx n s hshows
  exact ⟨hfriend, hstatus, hformer⟩

/-- The registry becomes `mid`, and then the news are delivered. -/
theorem Announces.of_delivered {mid : Presence} {news : Connection → List Notice}
    (hmid : mid.WellFormed) (hafter : e'.presence.WellFormed)
    (hdelivered : mid.Delivered news e'.presence) (hleft : ∀ c, mid.waiting c = left c)
    (hrefusals : mid.refusals = e.presence.refusals)
    (hnews : ∀ c, ∀ x ∈ news c, ∀ n s, x.shows? = some (n, s) →
      s = mid.statusOf n ∧ (change.called n ≠ n → s = .disconnected) ∧
        ∃ m, e.presence.nameOf? c = some m ∧ mid.nameOf? c = some m ∧
          e'.database.graph.areFriends (change.called n) m = .ok true) :
    e.Announces change left e' := by
  intro c
  obtain ⟨arrived, hwaiting, harrived⟩ := hdelivered.arriving c
  refine ⟨arrived, by rw [hwaiting, hleft], fun x hx n s hshows => ?_⟩
  obtain ⟨hstatus, hformer, m, hm, hmid', hfriends⟩ := hnews c x (harrived x hx) n s hshows
  refine ⟨⟨m, hm, fun k hk => ?_, hfriends⟩, fun hnone => ?_, hformer⟩
  · have hk := ((hdelivered.nameOf?_eq_some_iff hmid hafter).1 hk).1
    exact Option.some.inj (hk.symm.trans hmid')
  · rw [(hdelivered.posted (hnone.trans hrefusals.symm)).statusOf]
    exact hstatus

/-- The same when only the friends of one player are told, each the same. -/
theorem Announces.of_friends {mid : Presence} {n : Name} {s : Status} {x : Notice}
    (hshows : x.shows? = some (n, s)) (hcalled : change.called n = n)
    (hgraph : e'.database.graph.IsCanonical)
    (hmid : mid.WellFormed) (hafter : e'.presence.WellFormed)
    (hdelivered : mid.Delivered
      (fun c => if ∃ k, mid.nameOf? c = some k ∧ k ∈ (e'.database.graph.ties n).friends
        then [x] else []) e'.presence)
    (hleft : ∀ c, mid.waiting c = left c) (hrefusals : mid.refusals = e.presence.refusals)
    (hstatus : s = mid.statusOf n)
    (hnames : ∀ c k, mid.nameOf? c = some k → k ∈ (e'.database.graph.ties n).friends →
      e.presence.nameOf? c = some k) :
    e.Announces change left e' := by
  refine .of_delivered hmid hafter hdelivered hleft hrefusals fun c y hy m t ht => ?_
  split at hy
  · next hfriend =>
    obtain ⟨k, hk, hfriend⟩ := hfriend
    rw [List.mem_singleton.1 hy, hshows] at ht
    cases ht
    refine ⟨hstatus, absurd hcalled, k, hnames c k hk hfriend, hk, ?_⟩
    rw [hcalled]
    exact (Graph.areFriends_iff hgraph).2 hfriend
  · cases hy

end

/-! ## Commands -/

section

variable {e : Engine} (h : e.WellFormed)
include h

/-- Whoever says yes to a request is the asker's friend from then on. -/
theorem WellFormed.areFriends_of_accept {a b : Name} {made : Bool} {database : Database}
    (houtcome : e.onGraph (e.database.graph.acceptRequest a b) = .ok (made, database))
    (hmade : made = true) : database.graph.areFriends b a = .ok true := by
  subst hmade
  obtain ⟨graph, hgraph, rfl⟩ := onGraph_eq_ok houtcome
  have hafter : graph.WellFormed := h.graph.acceptRequest hgraph
  have hbecomes := ((h.graph.acceptRequest_acts a b).of_eq_ok hgraph).2
  rw [Graph.areFriends_iff hafter.canonical, ← hafter.mem_friendships, hbecomes.friendships]
  exact Set.mem_insert_iff.2 (Or.inl Sym2.eq_swap)

/-- Of all changes of ties only a yes to a request shows a status, that of the one who says it. -/
theorem WellFormed.announces_tieChanged {s : Session} {target : Name} {command : Command}
    {change : TieChange} {database : Database}
    (hasks : e.Asks s target command change) (houtcome : change.outcome = .ok (true, database)) :
    e.Announces .nothing e.presence.waiting (e.tieChanged s target change database) := by
  have hafter := h.tieChanged hasks houtcome
  refine .of_delivered h.presence hafter.presence (h.tieChanged_delivered hasks houtcome)
    (fun _ => rfl) rfl fun c x hx n t hshows => ?_
  have hshown : x ∈ change.toTarget ∧ e.presence.nameOf? c = some target := by
    rcases List.mem_append.1 hx with hx | hx
    · split at hx
      · next hc => exact ⟨hx, hc⟩
      · cases hx
    · split at hx
      · rw [List.mem_singleton.1 hx] at hshows
        cases hasks <;> cases hshows
      · cases hx
  obtain ⟨hx, hc⟩ := hshown
  cases hasks with
  | request | remove | cancel | refuse =>
    rw [List.mem_singleton.1 hx] at hshows
    cases hshows
  | accept =>
    have hfriends := h.areFriends_of_accept houtcome rfl
    rcases List.mem_cons.1 hx with rfl | hx
    · cases hshows
      exact ⟨rfl, absurd rfl, target, hc, hc, hfriends⟩
    · rw [List.mem_singleton.1 hx] at hshows
      cases hshows

omit h in
/-- Of the notices of a renaming those to the friends show a status: that the old name is gone, and
    what the new one shows. -/
theorem shows?_renameOutbox {ties : Ties} {old new m n : Name} {status t : Status} {x : Notice}
    (hx : (m, x) ∈ renameOutbox ties old new status) (hshows : x.shows? = some (n, t)) :
    m ∈ ties.friends ∧ (n = old ∧ t = .disconnected ∨ n = new ∧ t = status) := by
  unfold renameOutbox at hx
  simp only [List.mem_append, List.mem_map, Prod.mk.injEq] at hx
  rcases hx with (⟨_, hfriend, rfl, rfl⟩ | ⟨_, hfriend, rfl, rfl⟩) | ⟨_, -, rfl, rfl⟩
  · cases hshows
    exact ⟨hfriend, Or.inl ⟨rfl, rfl⟩⟩
  · cases hshows
    exact ⟨hfriend, Or.inr ⟨rfl, rfl⟩⟩
  · cases hshows

/-- The friends of a player who takes another name stay where they are. -/
theorem WellFormed.nameOf?_friend_of_rebound (hdb : e.database.WellFormed) {old new m : Name}
    (hne : old ≠ new) (hnew : e.hasPlayer new = false) {c : Connection}
    (hm : (e.presence.rebound old new).nameOf? c = some m)
    (hfriend : m ∈ (e.database.graph.ties old).friends) : e.presence.nameOf? c = some m := by
  rw [h.presence.nameOf?_rebound hne, Option.map_eq_some_iff] at hm
  obtain ⟨k, hk, rfl⟩ := hm
  unfold Ties.substitute at hfriend ⊢
  split at hfriend
  · exact absurd (Ties.mem_peers.2 (Or.inl hfriend)) (hdb.not_mem_peers hnew old)
  · next hother => rwa [if_neg hother]

/-- A friend sees the old name go and the new one come with the status of the player. -/
theorem WellFormed.announces_renamed (hdb : e.database.WellFormed) {s : Session} {new : Name}
    {ties : Ties} {database : Database} (hne : s.name ≠ new)
    (hrename : e.database.rename s.name new = .ok (ties, database)) :
    e.Announces (.renames s.name new) e.presence.waiting (e.renamed s new ties database) := by
  have hafter := h.renamed hne hrename
  have hrebound := h.presence.rebound hne
  obtain ⟨p, -, hnew, -, rfl, -, hties, hcanonical⟩ := hdb.of_rename hrename
  have hstatus := Presence.statusOf_rebound hne (h.group_eq_nil hnew)
  refine .of_delivered hrebound hafter.presence (h.renamed_delivered hne hrename)
    (Presence.waiting_rebound _ _ _) (Presence.refusals_rebound _ _ _) fun c x hx n t hshows => ?_
  have hshown : ∃ m, (e.presence.rebound s.name new).nameOf? c = some m ∧
      m ∈ (e.database.graph.ties s.name).friends ∧
      (n = s.name ∧ t = .disconnected ∨ n = new ∧ t = e.presence.statusOf s.name) := by
    rcases List.mem_append.1 hx with hx | hx
    · obtain ⟨m, hm, hx⟩ := Outbox.mem_addressed.1 hx
      exact ⟨m, hm, shows?_renameOutbox hx hshows⟩
    · split at hx
      · rw [List.mem_singleton.1 hx] at hshows
        cases hshows
      · cases hx
  obtain ⟨m, hm, hfriend, hspeaks⟩ := hshown
  have hcalled : (AccountChange.renames s.name new).called n = new := by
    rcases hspeaks with ⟨rfl, -⟩ | ⟨rfl, -⟩ <;> simp [AccountChange.called, Ties.substitute]
  refine ⟨?_, fun hformer => ?_, m, h.nameOf?_friend_of_rebound hdb hne hnew hm hfriend, hm, ?_⟩
  · rw [hstatus]
    rcases hspeaks with ⟨rfl, rfl⟩ | ⟨rfl, rfl⟩
    · simp [hne]
    · simp
  · rcases hspeaks with ⟨-, rfl⟩ | ⟨rfl, -⟩
    · rfl
    · exact absurd hcalled hformer
  · rw [hcalled]
    refine (Graph.areFriends_iff hcanonical).2 ?_
    show m ∈ (database.graph.ties new).friends
    rw [hties]
    unfold renameTies
    rw [if_pos rfl]
    exact hfriend

theorem WellFormed.announces_withoutPlayer (change : AccountChange) {n : Name} {outbox : Outbox}
    {database : Database} (hafter : (e.withoutPlayer n outbox database).WellFormed)
    (hnone : ∀ m x, (m, x) ∈ outbox → x.shows? = none) :
    e.Announces change e.presence.waiting (e.withoutPlayer n outbox database) := by
  refine .of_delivered (h.presence.evicted n) hafter.presence (h.withoutPlayer_delivered _ _ _)
    (Presence.waiting_evicted _ _) (Presence.refusals_evicted _ _) fun c x hx m t hshows => ?_
  obtain ⟨k, -, hx⟩ := Outbox.mem_addressed.1 hx
  rw [hnone k x hx] at hshows
  cases hshows

/-- A deletion shows no status. -/
theorem WellFormed.announces_deletePlayer (change : AccountChange) {e' : Engine} {n : Name}
    {gone : Bool} (hdelete : e.deletePlayer n = .ok (gone, e')) :
    e.Announces change e.presence.waiting e' := by
  have hafter := h.deletePlayer hdelete
  rcases deletePlayer_eq_ok hdelete with ⟨-, -, rfl⟩ | ⟨ties, database, -, -, rfl⟩
  · exact h.announces_withoutPlayer change hafter nofun
  · refine h.announces_withoutPlayer change hafter fun m x hx => ?_
    obtain ⟨peer, -, heq⟩ := List.mem_map.1 hx
    cases heq
    rfl

theorem WellFormed.announces_shown (s : Session) (status : Status) :
    e.Announces .nothing e.presence.waiting (e.shown s status) := by
  have hset := h.setStatus s.connection status
  have hafter := h.shown s status
  refine .of_friends rfl rfl hafter.graph.canonical hset.presence hafter.presence
    (hset.broadcast_delivered s.name _) (Presence.waiting_setStatus _ _ _)
    (Presence.refusals_setStatus _ _ _) rfl fun c k hk _ => ?_
  rwa [h.presence.nameOf?_congr hset.presence fun m => Presence.sessionsOf_setStatus _ _ _ _] at hk

theorem WellFormed.announces_performs (hdb : e.database.WellFormed) {s : Session}
    {command : Command} {turn : Turn}
    (hname : e.presence.nameOf? s.connection = some s.name)
    (hturn : e.Performs s command turn) :
    e.Announces (e.changeOf (e.presence.nameOf? s.connection) turn.reply) e.presence.waiting
      turn.engine := by
  rw [hname]
  cases hturn with
  | nothing => exact .of_waiting fun _ => rfl
  | ties _ hasks houtcome => exact h.announces_tieChanged hasks houtcome
  | rename _ hne hrename => exact h.announces_renamed hdb hne hrename
  | delete _ hdelete => exact h.announces_deletePlayer _ hdelete
  | status status => exact h.announces_shown s status

theorem WellFormed.announces_handleCommand (hdb : e.database.WellFormed) (s : Session)
    (command : Command) :
    e.Announces (e.changeOf (e.presence.nameOf? s.connection) (e.handleCommand s command).reply)
      e.presence.waiting (e.handleCommand s command).engine := by
  rcases e.handleCommand_cases s command with ⟨-, heq⟩ | ⟨n, hname, ⟨-, heq⟩ | ⟨-, hturn⟩⟩
  · rw [heq]
    exact .of_waiting fun _ => rfl
  · rw [heq]
    exact .of_waiting fun _ => rfl
  · exact h.announces_performs (s := s.renamed n) hdb hname hturn

/-! ## Coming, going and reading -/

/-- The friends get the probe of a session that comes; nothing has waited for the session. -/
theorem WellFormed.announces_connected {n : Name} (hn : e.hasPlayer n = true) :
    e.Announces (.attaches ⟨e.presence.arrivals⟩ n)
      (fun c => if c = ⟨e.presence.arrivals⟩ then [] else e.presence.waiting c)
      (e.connected n) := by
  have hattached := h.attached hn
  have hafter : (e.connected n).WellFormed := hattached.notifyAll _
  refine .of_friends (x := e.firstProbe n) rfl rfl h.graph.canonical hattached.presence
    hafter.presence (h.connect_delivered hn) (Presence.waiting_attach _ _ _) rfl rfl
    fun c k hk hfriend => ?_
  have hk : ((e.presence.accept e.capacity).2.attach n ⟨e.presence.arrivals⟩).nameOf? c = some k :=
    hk
  rw [h.presence.nameOf?_attach] at hk
  split at hk
  · cases hk
    exact absurd hfriend (h.graph.irreflexive n).1
  · exact hk

/-- The friends are told when nobody is left. -/
theorem WellFormed.announces_disconnect (c : Connection) :
    e.Announces .nothing e.presence.waiting (e.disconnect c) := by
  have hdetached := h.detached c
  have hafter := h.disconnect c
  rcases e.disconnect_cases c with ⟨-, heq⟩ | ⟨n, -, ⟨-, heq⟩ | ⟨⟨hoffline, -⟩, heq⟩⟩
  · rw [heq]
    exact .of_waiting fun _ => rfl
  · rw [heq]
    exact .of_waiting (Presence.waiting_detach _ c)
  · rw [heq] at hafter ⊢
    have hstatus : Status.disconnected = (e.detached c).presence.statusOf n :=
      (Presence.statusOf_of_group_eq_nil
        (hdetached.presence.isOnline_eq_false_iff.1 hoffline)).symm
    refine .of_friends rfl rfl hafter.graph.canonical hdetached.presence hafter.presence
      (hdetached.broadcast_delivered n _) (Presence.waiting_detach _ c)
      (Presence.refusals_detach _ c) hstatus fun d k hk _ => ?_
    have hk : (e.presence.detach c).2.nameOf? d = some k := hk
    rw [h.presence.nameOf?_detach] at hk
    split at hk
    · cases hk
    · exact hk

/-- A probe is answered to the friend who sent it, under the name that the session remembers. -/
theorem WellFormed.announces_handleNotice (s : Session) (x : Notice) :
    e.Announces .nothing e.presence.waiting (e.handleNotice s x).engine := by
  have hafter := h.handleNotice s x
  rcases e.handleNotice_cases s x with ⟨-, heq⟩ | ⟨asker, status, replyTo, -, hfriends, heq⟩
  · rw [heq]
    exact .of_waiting fun _ => rfl
  · rw [heq] at hafter ⊢
    refine .of_delivered h.presence hafter.presence (h.presence.sendTo_delivered _ _ _)
      (fun _ => rfl) rfl fun c y hy n t hshows => ?_
    split at hy
    · next hc =>
      obtain ⟨rfl, hc⟩ := hc
      rw [List.mem_singleton.1 hy] at hshows
      cases hshows
      exact ⟨rfl, absurd rfl, asker, hc, hc, hfriends⟩
    · cases hy

end

end Engine

/-! ## Runs -/

namespace System

/-- What an input leaves in a mailbox of what has waited there: a notice that is read is gone, a
    connection that comes has a new mailbox, and a mailbox that nobody reads any more is emptied. -/
def unread (sys : System) (i : Input) (c : Connection) : List Notice :=
  let waiting := sys.engine.presence.waiting c
  match i with
  | .action (.connect n) => if (sys.connect n).map (·.1) = some c then [] else waiting
  | .action (.read d) => if c = d ∧ (sys.sessions.find? d).isSome then waiting.tail else waiting
  | .hangUp d => if c = d then [] else waiting
  | _ => waiting

theorem unread_connect {sys : System} {n : Name} {s : Session} {engine : Engine}
    (hconnect : sys.engine.connect n = some (s, engine)) (c : Connection) :
    sys.unread (.action (.connect n)) c =
      if c = s.connection then [] else sys.engine.presence.waiting c := by
  simp only [unread, connect, hconnect, Option.map_some, Option.some.injEq]
  simp only [eq_comm]

theorem unread_read {sys : System} {c : Connection} {s : Session} {x : Notice} {xs : List Notice}
    (hfind : sys.sessions.find? c = some s) (hwaiting : sys.engine.presence.waiting c = x :: xs)
    (d : Connection) :
    sys.unread (.action (.read c)) d = (sys.engine.leaving c xs).presence.waiting d := by
  refine Eq.trans ?_ (Presence.waiting_editBox hwaiting xs d).symm
  simp only [unread, hfind, Option.isSome_some, and_true]
  by_cases hd : d = c
  · simp [hd, hwaiting]
  · simp [hd]

/-- Who has no notice or no state reads nothing. -/
theorem unread_read_same {sys : System} {c : Connection}
    (hnone : sys.engine.presence.waiting c = [] ∨ sys.sessions.find? c = none)
    (d : Connection) : sys.unread (.action (.read c)) d = sys.engine.presence.waiting d := by
  simp only [unread]
  split
  · next hd =>
    obtain ⟨rfl, hsession⟩ := hd
    rcases hnone with hwaiting | hfind
    · rw [hwaiting]
      rfl
    · rw [hfind] at hsession
      cases hsession
  · rfl

theorem Sound.announces_act {sys : System} (h : sys.Sound) (a : Action) :
    sys.engine.Announces (sys.accountChange (.action a)) (sys.unread (.action a))
      (sys.act a).engine := by
  have hengine := h.wellFormed.engine
  cases a with
  | create n => exact .of_waiting fun _ => rfl
  | setAlias n choice => exact .of_waiting fun _ => rfl
  | delete n =>
    rcases sys.act_delete_cases n with heq | ⟨gone, engine, hdelete, heq⟩
    · rw [heq]
      exact .of_waiting fun _ => rfl
    · rw [heq]
      exact hengine.announces_deletePlayer _ hdelete
  | connect n =>
    rcases sys.engine.connect_cases n with ⟨-, heq⟩ | ⟨hn, heq⟩
    · simp only [act, connect, heq]
      refine .of_waiting fun c => ?_
      simp [unread, connect, heq]
    · rw [funext (unread_connect heq)]
      simp only [act, accountChange, connect, heq]
      exact hengine.announces_connected hn
  | disconnect c => exact hengine.announces_disconnect c
  | command c command =>
    simp only [act, accountChange, System.command]
    cases hfind : sys.sessions.find? c with
    | none => exact .of_waiting fun _ => rfl
    | some s =>
      have hown := h.wellFormed.own c s hfind
      have hannounces := hengine.announces_handleCommand h.database s command
      rw [hown] at hannounces
      exact hannounces
  | read c =>
    have hsame (hnone : sys.engine.presence.waiting c = [] ∨ sys.sessions.find? c = none) :
        sys.engine.Announces (sys.accountChange (.action (.read c))) (sys.unread (.action (.read c)))
          (sys.act (.read c)).engine := by
      rw [act_read_same hnone, funext (unread_read_same hnone)]
      exact .of_waiting fun _ => rfl
    cases hwaiting : sys.engine.presence.waiting c with
    | nil => exact hsame (Or.inl hwaiting)
    | cons x xs =>
      cases hfind : sys.sessions.find? c with
      | none => exact hsame (Or.inr hfind)
      | some s =>
        rw [act_read hfind hwaiting, funext (unread_read hfind hwaiting)]
        exact ((h.wellFormed.leaving c xs).announces_handleNotice s x).of_leaving

theorem Sound.announces {sys : System} (h : sys.Sound) (i : Input) :
    sys.engine.Announces (sys.accountChange i) (sys.unread i) (sys.take i).engine := by
  cases i with
  | action a => exact h.announces_act a
  | notice c x =>
    rcases sys.take_notice_cases c x with heq | ⟨s, -, heq⟩
    · rw [heq]
      exact .of_waiting fun _ => rfl
    · rw [heq]
      exact h.wellFormed.engine.announces_handleNotice s x
  | hangUp c => exact .of_waiting (Presence.waiting_close _ c)

/-- **Statuses go to friends and are true when sent**, in every step after whatever came from
    outside. -/
theorem announces_run (capacity : Nat) (is : List Input) (i : Input) :
    ((start .empty capacity).run is).engine.Announces
      (((start .empty capacity).run is).accountChange i)
      (((start .empty capacity).run is).unread i)
      (((start .empty capacity).run is).take i).engine :=
  ((sound_start capacity).run is).announces i

end System

end Amity
