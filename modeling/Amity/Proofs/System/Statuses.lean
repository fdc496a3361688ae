/-
  Amity/Proofs/System/Statuses.lean
  =================================
  **A status is kept twice.**  A session remembers which status it shows, and the registry keeps one
  with the session's place in the group of its player.  The two agree whatever comes: a place that
  moves under another name takes its status along, a place that is lost takes it away, and a command
  that shows a status writes both (`Restates`).

  No session ever shows that it is disconnected.  So what a player shows, the last status of the
  group, says whether there is a session at all and whether one of them is in a game, although
  disconnected stands between the two in the order of the statuses.
-/
import Amity.Proofs.System.Bystanders

namespace Amity

/-! ## The last of some statuses -/

namespace Status

theorem foldl_later {ss : List Status} (s : Status) (hs : s ≠ .disconnected)
    (hss : ∀ t ∈ ss, t ≠ .disconnected) :
    ss.foldl later s ≠ .disconnected ∧
      (ss.foldl later s = .inGame ↔ s = .inGame ∨ .inGame ∈ ss) := by
  induction ss generalizing s with
  | nil => simpa using hs
  | cons t ss ih =>
    have ht := hss t List.mem_cons_self
    have hlater : later s t ≠ .disconnected ∧ (later s t = .inGame ↔ s = .inGame ∨ .inGame = t) := by
      cases s <;> cases t <;> simp_all [later, rank]
    obtain ⟨hlive, hgame⟩ := ih (later s t) hlater.1 fun u hu => hss u (List.mem_cons_of_mem t hu)
    refine ⟨hlive, hgame.trans ?_⟩
    rw [hlater.2, List.mem_cons, or_assoc]

section

variable {ss : List Status} (hss : ∀ t ∈ ss, t ≠ .disconnected)
include hss

theorem ofSessions_eq_disconnected_iff : ofSessions ss = .disconnected ↔ ss = [] := by
  cases ss with
  | nil => simp [ofSessions]
  | cons s ss =>
    have hlive := (foldl_later s (hss s List.mem_cons_self)
      fun t ht => hss t (List.mem_cons_of_mem s ht)).1
    simpa [ofSessions] using hlive

theorem ofSessions_eq_inGame_iff : ofSessions ss = .inGame ↔ .inGame ∈ ss := by
  cases ss with
  | nil => simp [ofSessions]
  | cons s ss =>
    rw [List.mem_cons, eq_comm (a := Status.inGame)]
    exact (foldl_later s (hss s List.mem_cons_self)
      fun t ht => hss t (List.mem_cons_of_mem s ht)).2

end

end Status

/-! ## The status at a place -/

namespace Presence

/-- Whoever has a place afterwards has shown the same before. -/
def ShowsAsBefore (p q : Presence) : Prop :=
  ∀ d t, q.shownBy? d = some t → p.shownBy? d = some t

theorem ShowsAsBefore.trans {p q r : Presence} (h : p.ShowsAsBefore q) (h' : q.ShowsAsBefore r) :
    p.ShowsAsBefore r :=
  fun d t ht => h d t (h' d t ht)

theorem ShowsAsBefore.of_eq {p q : Presence} (h : ∀ d, q.shownBy? d = p.shownBy? d) :
    p.ShowsAsBefore q :=
  fun d _ ht => (h d).symm.trans ht

theorem status_of_mem_showStatus {c : Connection} {s t : Status} {as : List Attachment}
    (has : (as.map (·.connection)).Nodup) (hmem : ⟨c, t⟩ ∈ showStatus c s as) : t = s := by
  induction as with
  | nil => cases hmem
  | cons a as ih =>
    obtain ⟨ha, has⟩ := List.nodup_cons.1 has
    unfold showStatus at hmem
    split at hmem
    · next hac =>
      -- the first place is the only one of the connection
      rcases List.mem_cons.1 hmem with heq | hmem
      · cases heq
        rfl
      · refine absurd ?_ ha
        dsimp only
        rw [hac]
        exact List.mem_map_of_mem hmem
    · next hac =>
      rcases List.mem_cons.1 hmem with heq | hmem
      · exact absurd (heq ▸ rfl) hac
      · exact ih has hmem

section

variable {p : Presence} (h : p.WellFormed)
include h

/-- A registry with fewer places, all of them from this one. -/
theorem WellFormed.showsAsBefore_of_group {q : Presence} (hq : q.WellFormed)
    (hgroup : ∀ n, ∀ a ∈ q.group n, a ∈ p.group n) : p.ShowsAsBefore q := by
  intro d t ht
  obtain ⟨n, hmem⟩ := hq.shownBy?_eq_some_iff.1 ht
  exact h.shownBy?_eq_some_iff.2 ⟨n, hgroup n _ hmem⟩

theorem WellFormed.showsAsBefore_deliver (targets : List (Connection × Notice)) :
    p.ShowsAsBefore (p.deliver targets).2 := by
  refine h.showsAsBefore_of_group (h.deliver targets) fun n a ha => ?_
  rw [group_deliver] at ha
  exact List.mem_of_mem_filter ha

theorem WellFormed.showsAsBefore_notifyAll (outbox : Outbox) :
    p.ShowsAsBefore (p.notifyAll outbox).2 :=
  h.showsAsBefore_deliver _

theorem WellFormed.showsAsBefore_sendTo (n : Name) (c : Connection) (x : Notice) :
    p.ShowsAsBefore (p.sendTo n c x).2 := by
  unfold Presence.sendTo
  split
  · exact h.showsAsBefore_deliver [(c, x)]
  · exact .of_eq fun _ => rfl

theorem WellFormed.showsAsBefore_evicted (n : Name) : p.ShowsAsBefore (p.evicted n) := by
  intro d t ht
  rw [h.shownBy?_evicted] at ht
  split at ht
  · cases ht
  · exact ht

theorem WellFormed.showsAsBefore_detach (c : Connection) : p.ShowsAsBefore (p.detach c).2 := by
  refine h.showsAsBefore_of_group (h.detach c) fun n a ha => ?_
  rw [h.group_detach, mem_withoutConnections] at ha
  exact ha.1

/-- The connection that comes shows that it is connected. -/
theorem WellFormed.shownBy?_attach (n : Name) (capacity : Nat) {d : Connection} {t : Status}
    (ht : ((p.accept capacity).2.attach n ⟨p.arrivals⟩).shownBy? d = some t) :
    (d = ⟨p.arrivals⟩ ∧ t = .connected) ∨ (d ≠ ⟨p.arrivals⟩ ∧ p.shownBy? d = some t) := by
  obtain ⟨m, hmem⟩ := (h.attach n capacity).shownBy?_eq_some_iff.1 ht
  rw [h.group_attach] at hmem
  have hold : ∀ k, ⟨d, t⟩ ∈ p.group k → d ≠ ⟨p.arrivals⟩ ∧ p.shownBy? d = some t := by
    intro k hk
    refine ⟨?_, h.shownBy?_eq_some_iff.2 ⟨k, hk⟩⟩
    rintro rfl
    have hname := h.nameOf?_eq_some_iff.2 (connection_mem_sessionsOf hk)
    exact Nat.lt_irrefl _ (h.arrived_of_nameOf? hname)
  split at hmem
  · rcases List.mem_append.1 hmem with hmem | hmem
    · exact Or.inr (hold n hmem)
    · cases List.mem_singleton.1 hmem
      exact Or.inl ⟨rfl, rfl⟩
  · exact Or.inr (hold m hmem)

/-- A connection that shows a status shows it and nothing else. -/
theorem WellFormed.shownBy?_setStatus_self {c : Connection} {s t : Status}
    (ht : (p.setStatus c s).shownBy? c = some t) : t = s := by
  obtain ⟨n, hmem⟩ := (h.setStatus c s).shownBy?_eq_some_iff.1 ht
  rw [group_setStatus] at hmem
  have hattached : c ∈ p.sessionsOf n := by
    rw [← sessionsOf_setStatus p c s n]
    exact connection_mem_sessionsOf ((group_setStatus p c s n).symm ▸ hmem)
  rw [if_pos (owner_of_nameOf? (h.nameOf?_eq_some_iff.2 hattached))] at hmem
  exact status_of_mem_showStatus (h.nodup n) hmem

end

end Presence

/-! ## Commands and notices -/

namespace Engine

/-- What a connection shows after a turn of a session it has shown before, unless it is the
    session's own and the session has just said so. -/
def Restates (e : Engine) (s : Session) (turn : Turn) : Prop :=
  ∀ d t, turn.engine.presence.shownBy? d = some t →
    (e.presence.shownBy? d = some t ∧ (d = s.connection → turn.session.ownStatus = s.ownStatus)) ∨
      d = s.connection ∧ t = turn.session.ownStatus

theorem Restates.of_showsAsBefore {e : Engine} {s : Session} {turn : Turn}
    (hengine : e.presence.ShowsAsBefore turn.engine.presence)
    (hsession : turn.session.ownStatus = s.ownStatus) : e.Restates s turn :=
  fun d t ht => Or.inl ⟨hengine d t ht, fun _ => hsession⟩

theorem ownStatus_asks {e : Engine} {s : Session} {target : Name} {command : Command}
    {change : TieChange} (hasks : e.Asks s target command change) :
    change.session.ownStatus = s.ownStatus := by
  cases hasks <;> rfl

theorem ownStatus_handleNotice (e : Engine) (s : Session) (x : Notice) :
    (e.handleNotice s x).session.ownStatus = s.ownStatus := by
  cases x with
  | update reset => cases reset <;> rfl
  | status => rfl
  | renamed =>
    unfold handleNotice
    dsimp only
    split <;> rfl
  | probe =>
    unfold handleNotice answerProbe
    dsimp only
    split <;> rfl

section

variable {e : Engine} (h : e.WellFormed)
include h

theorem WellFormed.showsAsBefore_deletePlayer {e' : Engine} {n : Name} {gone : Bool}
    (hdelete : e.deletePlayer n = .ok (gone, e')) : e.presence.ShowsAsBefore e'.presence := by
  have hevicted := h.presence.showsAsBefore_evicted n
  have hafter := h.presence.evicted n
  rcases deletePlayer_eq_ok hdelete with ⟨-, -, rfl⟩ | ⟨_, _, -, -, rfl⟩
  · exact hevicted.trans (hafter.showsAsBefore_notifyAll [])
  · exact hevicted.trans (hafter.showsAsBefore_notifyAll _)

theorem WellFormed.restates_shown (s : Session) (status : Status) :
    e.Restates s ⟨.snapshot, s.setStatus status, e.shown s status⟩ := by
  intro d t ht
  have hset := h.presence.setStatus s.connection status
  have hbefore := hset.showsAsBefore_deliver _ d t ht
  by_cases hd : d = s.connection
  · subst hd
    exact Or.inr ⟨rfl, h.presence.shownBy?_setStatus_self hbefore⟩
  · rw [h.presence.shownBy?_setStatus _ _ hd] at hbefore
    exact Or.inl ⟨hbefore, fun hds => absurd hds hd⟩

theorem WellFormed.restates_performs {s : Session} {command : Command} {turn : Turn}
    (hturn : e.Performs s command turn) : e.Restates s turn := by
  cases hturn with
  | nothing => exact .of_showsAsBefore (.of_eq fun _ => rfl) rfl
  | ties _ hasks houtcome =>
    have hties := (h.withTies hasks houtcome).presence
    have hnotified := hties.showsAsBefore_deliver
    exact .of_showsAsBefore
      ((hnotified _).trans ((hties.deliver _).showsAsBefore_deliver _)) (ownStatus_asks hasks)
  | @rename _ new ties database _ hne hrename =>
    have hrebound := h.presence.rebound hne
    have hmoved : e.presence.ShowsAsBefore (e.presence.rebound s.name new) :=
      .of_eq (h.presence.shownBy?_rebound hne)
    exact .of_showsAsBefore (hmoved.trans ((hrebound.showsAsBefore_deliver _).trans
      ((hrebound.deliver _).showsAsBefore_deliver _))) rfl
  | delete _ hdelete => exact .of_showsAsBefore (h.showsAsBefore_deletePlayer hdelete) rfl
  | status status => exact h.restates_shown s status

theorem WellFormed.restates_handleCommand (s : Session) (command : Command) :
    e.Restates s (e.handleCommand s command) := by
  rcases e.handleCommand_cases s command with ⟨-, heq⟩ | ⟨n, -, ⟨-, heq⟩ | ⟨-, hturn⟩⟩
  · rw [heq]
    exact .of_showsAsBefore (.of_eq fun _ => rfl) rfl
  · rw [heq]
    exact .of_showsAsBefore (.of_eq fun _ => rfl) rfl
  · exact h.restates_performs (s := s.renamed n) hturn

theorem WellFormed.restates_handleNotice (s : Session) (x : Notice) :
    e.Restates s (e.handleNotice s x) := by
  refine .of_showsAsBefore ?_ (e.ownStatus_handleNotice s x)
  rcases e.handleNotice_cases s x with ⟨-, heq⟩ | ⟨asker, status, replyTo, -, -, heq⟩
  · rw [heq]
    exact .of_eq fun _ => rfl
  · rw [heq]
    exact h.presence.showsAsBefore_sendTo asker replyTo _

end

/-! ### Nobody shows that it is disconnected -/

theorem ownStatus_withTarget {e : Engine} {s : Session} {text : String}
    {act : Engine → Session → Name → Turn} {change : Name → TieChange}
    (hact : ∀ target, act e s target = e.commitTies s target (change target))
    (hchange : ∀ target, (change target).session.ownStatus = s.ownStatus) :
    (e.withTarget s text act).session.ownStatus = s.ownStatus := by
  rcases e.withTarget_cases s text act with heq | ⟨target, -, heq⟩
  · rw [heq]
  · rw [heq, hact]
    rcases e.commitTies_cases s target (change target) with heq | ⟨_, -, heq⟩
    · rw [heq]
    · rw [heq]
      exact hchange target

theorem ownStatus_perform (e : Engine) (s : Session) (command : Command) :
    (e.perform s command).session.ownStatus = s.ownStatus ∨
      (e.perform s command).session.ownStatus ≠ .disconnected := by
  cases command with
  | request t => exact Or.inl (ownStatus_withTarget (fun _ => rfl) fun _ => rfl)
  | remove t => exact Or.inl (ownStatus_withTarget (fun _ => rfl) fun _ => rfl)
  | cancel t => exact Or.inl (ownStatus_withTarget (fun _ => rfl) fun _ => rfl)
  | accept t => exact Or.inl (ownStatus_withTarget (fun _ => rfl) fun _ => rfl)
  | refuse t => exact Or.inl (ownStatus_withTarget (fun _ => rfl) fun _ => rfl)
  | rename t =>
    left
    show (e.rename s t).session.ownStatus = s.ownStatus
    rcases e.rename_cases s t with heq | ⟨_, _, _, -, -, -, heq⟩
    · rw [heq]
    · rw [heq]
      rfl
  | deleteAccount =>
    left
    show (e.deleteAccount s).session.ownStatus = s.ownStatus
    unfold deleteAccount
    split <;> rfl
  | enterGame => exact Or.inr (by nofun)
  | leaveGame => exact Or.inr (by nofun)
  | other _ => exact Or.inl rfl

theorem ownStatus_handleCommand (e : Engine) (s : Session) (command : Command) :
    (e.handleCommand s command).session.ownStatus = s.ownStatus ∨
      (e.handleCommand s command).session.ownStatus ≠ .disconnected := by
  rcases e.handleCommand_cases s command with ⟨-, heq⟩ | ⟨n, hname, ⟨-, heq⟩ | ⟨hplayer, -⟩⟩
  · rw [heq]
    exact Or.inl rfl
  · rw [heq]
    exact Or.inl rfl
  · rw [handleCommand_eq command hname hplayer]
    exact e.ownStatus_perform (s.renamed n) command

end Engine

/-! ## Runs -/

namespace System

/-- What a place shows is what its session says of itself, and no session says that it is
    disconnected. -/
structure Candid (sys : System) : Prop where
  own : ∀ c t, sys.engine.presence.shownBy? c = some t →
    (sys.sessions.find? c).map (·.ownStatus) = some t
  live : ∀ c s, sys.sessions.find? c = some s → s.ownStatus ≠ .disconnected

theorem candid_start (db : Database) (capacity : Nat) : (start db capacity).Candid where
  own _ _ ht := by cases ht
  live _ _ hs := by cases hs

section

variable {sys : System} (hcandid : sys.Candid)
include hcandid

theorem Candid.withEngine {engine : Engine}
    (hengine : sys.engine.presence.ShowsAsBefore engine.presence) :
    (sys.withEngine engine).Candid where
  own c t ht := hcandid.own c t (hengine c t ht)
  live := hcandid.live

theorem Candid.keep {s : Session} {turn : Turn} (hfind : sys.sessions.find? s.connection = some s)
    (hconnection : turn.session.connection = s.connection)
    (hrestates : sys.engine.Restates s turn)
    (hlive : turn.session.ownStatus = s.ownStatus ∨ turn.session.ownStatus ≠ .disconnected) :
    (sys.keep turn).2.Candid where
  own d t ht := by
    rw [find?_keep, hconnection]
    rcases hrestates d t ht with ⟨hbefore, hsame⟩ | ⟨hd, hsays⟩
    · have hown := hcandid.own d t hbefore
      split
      · next hd =>
        rw [hd, hfind] at hown
        rw [Option.map_some, hsame hd]
        exact hown
      · exact hown
    · rw [if_pos hd, Option.map_some, hsays]
  live d s' hs' := by
    rw [find?_keep, hconnection] at hs'
    split at hs'
    · cases hs'
      rcases hlive with hsame | hlive
      · rw [hsame]
        exact hcandid.live _ s hfind
      · exact hlive
    · exact hcandid.live d s' hs'

/-- A notice may be taken out of a mailbox before it is handled; that moves nobody. -/
theorem Candid.notice {s : Session} (hfind : sys.sessions.find? s.connection = some s)
    {e : Engine} (he : e.WellFormed) (hsame : sys.engine.presence.ShowsAsBefore e.presence)
    (x : Notice) : (sys.keep (e.handleNotice s x)).2.Candid := by
  refine hcandid.keep hfind (Engine.connection_handleNotice e s x) (fun d t ht => ?_)
    (Or.inl (e.ownStatus_handleNotice s x))
  exact (he.restates_handleNotice s x d t ht).imp_left fun hbefore =>
    ⟨hsame d t hbefore.1, hbefore.2⟩

variable (h : sys.WellFormed)
include h

theorem Candid.command {s : Session} (hfind : sys.sessions.find? s.connection = some s)
    (command : Command) : (sys.keep (sys.engine.handleCommand s command)).2.Candid :=
  hcandid.keep hfind (Engine.connection_handleCommand _ s command)
    (h.engine.restates_handleCommand s command) (Engine.ownStatus_handleCommand _ s command)

theorem Candid.connect {n : Name} (hn : sys.engine.hasPlayer n = true) :
    Candid ⟨sys.engine.connected n, sys.sessions.insert ⟨sys.engine.presence.arrivals⟩
      (.start ⟨sys.engine.presence.arrivals⟩ n)⟩ where
  own d t ht := by
    have hbefore := (h.engine.attached hn).presence.showsAsBefore_notifyAll _ d t ht
    dsimp only
    rw [Table.find?_insert]
    rcases h.engine.presence.shownBy?_attach n _ hbefore with ⟨hd, rfl⟩ | ⟨hd, hbefore⟩
    · rw [if_pos hd]
      rfl
    · rw [if_neg hd]
      exact hcandid.own d t hbefore
  live d s hs := by
    dsimp only at hs
    rw [Table.find?_insert] at hs
    split at hs
    · cases hs
      nofun
    · exact hcandid.live d s hs

theorem Candid.act (a : Action) : (sys.act a).Candid := by
  cases a with
  | create => exact hcandid.withEngine (.of_eq fun _ => rfl)
  | setAlias => exact hcandid.withEngine (.of_eq fun _ => rfl)
  | delete n =>
    rcases sys.act_delete_cases n with heq | ⟨gone, engine, hdelete, heq⟩
    · rw [heq]
      exact hcandid
    · rw [heq]
      exact hcandid.withEngine (h.engine.showsAsBefore_deletePlayer hdelete)
  | connect n =>
    rcases sys.act_connect_cases n with heq | ⟨s, engine, hconnect, heq⟩
    · rw [heq]
      exact hcandid
    · rcases sys.engine.connect_cases n with ⟨-, hnone⟩ | ⟨hn, hsome⟩
      · cases hnone.symm.trans hconnect
      · rw [heq]
        cases hsome.symm.trans hconnect
        exact hcandid.connect h hn
  | disconnect c =>
    refine hcandid.withEngine ?_
    have hdetached := h.engine.presence.showsAsBefore_detach c
    rcases sys.engine.disconnect_cases c with ⟨-, heq⟩ | ⟨n, -, ⟨-, heq⟩ | ⟨-, heq⟩⟩
    · rw [heq]
      exact .of_eq fun _ => rfl
    · rw [heq]
      exact hdetached
    · rw [heq]
      exact hdetached.trans ((h.engine.detached c).presence.showsAsBefore_notifyAll _)
  | command c command =>
    rcases sys.act_command_cases c command with heq | ⟨s, hfind, heq⟩
    · rw [heq]
      exact hcandid
    · obtain rfl := h.own c s hfind
      rw [heq]
      exact hcandid.command h hfind command
  | read c =>
    rcases sys.act_read_cases c with heq | ⟨s, x, xs, hfind, -, heq⟩
    · rw [heq]
      exact hcandid
    · obtain rfl := h.own c s hfind
      rw [heq]
      exact hcandid.notice hfind (h.leaving s.connection xs) (.of_eq fun _ => rfl) x

theorem Candid.take (i : Input) : (sys.take i).Candid := by
  cases i with
  | action a => exact hcandid.act h a
  | notice c x =>
    rcases sys.take_notice_cases c x with heq | ⟨s, hfind, heq⟩
    · rw [heq]
      exact hcandid
    · obtain rfl := h.own c s hfind
      rw [heq]
      exact hcandid.notice hfind h.engine (.of_eq fun _ => rfl) x
  | hangUp c => exact hcandid.withEngine (.of_eq fun _ => rfl)

theorem Candid.run (is : List Input) : (sys.run is).Candid := by
  induction is generalizing sys with
  | nil => exact hcandid
  | cons i is ih => exact ih (hcandid.take h i) (h.take i)

end

/-! ## What a player shows -/

/-- The registry holds what each attached session says of itself, and a player shows to be in a game
    when a session of the player is, else connected while there is one, else disconnected. -/
structure AgreesOnStatuses (sys : System) : Prop where
  own : ∀ c n, sys.engine.presence.nameOf? c = some n →
    ∃ s, sys.sessions.find? c = some s ∧ sys.engine.presence.shownBy? c = some s.ownStatus
  disconnected : ∀ n, sys.engine.presence.statusOf n = .disconnected ↔
    ∀ c, sys.engine.presence.nameOf? c ≠ some n
  inGame : ∀ n, sys.engine.presence.statusOf n = .inGame ↔
    ∃ c s, sys.engine.presence.nameOf? c = some n ∧ sys.sessions.find? c = some s ∧
      s.ownStatus = .inGame
  connected : ∀ n, sys.engine.presence.statusOf n = .connected ↔
    (∃ c, sys.engine.presence.nameOf? c = some n) ∧
      ∀ c s, sys.engine.presence.nameOf? c = some n → sys.sessions.find? c = some s →
        s.ownStatus ≠ .inGame

section

variable {sys : System} (hcandid : sys.Candid) (h : sys.WellFormed)
include hcandid h

/-- The statuses in a group are those that its sessions say. -/
theorem Candid.mem_statuses_iff {n : Name} {t : Status} :
    t ∈ (sys.engine.presence.group n).map (·.status) ↔
      ∃ c s, sys.engine.presence.nameOf? c = some n ∧ sys.sessions.find? c = some s ∧
        s.ownStatus = t := by
  have hpresence := h.engine.presence
  constructor
  · intro ht
    obtain ⟨⟨c, _⟩, ha, rfl⟩ := List.mem_map.1 ht
    obtain ⟨s, hs, hown⟩ := Option.map_eq_some_iff.1
      (hcandid.own c _ (hpresence.shownBy?_eq_some_iff.2 ⟨n, ha⟩))
    exact ⟨c, s, hpresence.nameOf?_eq_some_iff.2 (Presence.connection_mem_sessionsOf ha), hs, hown⟩
  · rintro ⟨c, s, hc, hs, rfl⟩
    obtain ⟨a, ha, rfl⟩ := List.mem_map.1 (hpresence.nameOf?_eq_some_iff.1 hc)
    have hown := hcandid.own _ _ (hpresence.shownBy?_eq_some_iff.2 ⟨n, ha⟩)
    rw [hs] at hown
    have hsame : s.ownStatus = a.status := Option.some.inj hown
    rw [hsame]
    exact List.mem_map_of_mem ha

theorem Candid.ne_disconnected {n : Name} :
    ∀ t ∈ (sys.engine.presence.group n).map (·.status), t ≠ .disconnected := by
  intro t ht
  obtain ⟨c, s, -, hs, rfl⟩ := (hcandid.mem_statuses_iff h).1 ht
  exact hcandid.live c s hs

theorem Candid.statusOf_eq_disconnected_iff {n : Name} :
    sys.engine.presence.statusOf n = .disconnected ↔
      ∀ c, sys.engine.presence.nameOf? c ≠ some n := by
  rw [Presence.statusOf, Status.ofSessions_eq_disconnected_iff (hcandid.ne_disconnected h),
    List.map_eq_nil_iff, h.engine.presence.group_eq_nil_iff]

theorem Candid.statusOf_eq_inGame_iff {n : Name} :
    sys.engine.presence.statusOf n = .inGame ↔
      ∃ c s, sys.engine.presence.nameOf? c = some n ∧ sys.sessions.find? c = some s ∧
        s.ownStatus = .inGame := by
  rw [Presence.statusOf, Status.ofSessions_eq_inGame_iff (hcandid.ne_disconnected h),
    hcandid.mem_statuses_iff h]

theorem Candid.statusOf_eq_connected_iff {n : Name} :
    sys.engine.presence.statusOf n = .connected ↔
      (∃ c, sys.engine.presence.nameOf? c = some n) ∧
        ∀ c s, sys.engine.presence.nameOf? c = some n → sys.sessions.find? c = some s →
          s.ownStatus ≠ .inGame := by
  have hdisconnected := not_congr (hcandid.statusOf_eq_disconnected_iff h (n := n))
  have hgame := not_congr (hcandid.statusOf_eq_inGame_iff h (n := n))
  have hother : sys.engine.presence.statusOf n = .connected ↔
      sys.engine.presence.statusOf n ≠ .disconnected ∧
        sys.engine.presence.statusOf n ≠ .inGame := by
    cases sys.engine.presence.statusOf n <;> simp
  rw [hother, ne_eq, ne_eq, hdisconnected, hgame]
  push Not
  rfl

theorem Candid.agreesOnStatuses : sys.AgreesOnStatuses where
  own c n hc := by
    obtain ⟨a, ha, rfl⟩ := List.mem_map.1 (h.engine.presence.nameOf?_eq_some_iff.1 hc)
    have hshown := h.engine.presence.shownBy?_eq_some_iff.2 ⟨n, ha⟩
    obtain ⟨s, hs, hown⟩ := Option.map_eq_some_iff.1 (hcandid.own _ _ hshown)
    exact ⟨s, hs, hown ▸ hshown⟩
  disconnected _ := hcandid.statusOf_eq_disconnected_iff h
  inGame _ := hcandid.statusOf_eq_inGame_iff h
  connected _ := hcandid.statusOf_eq_connected_iff h

end

/-- **Statuses agree**, whatever comes from outside. -/
theorem agreesOnStatuses_run (capacity : Nat) (is : List Input) :
    ((start .empty capacity).run is).AgreesOnStatuses := by
  have hstart := (sound_start capacity).wellFormed
  exact ((candid_start .empty capacity).run hstart is).agreesOnStatuses
    ((sound_start capacity).run is).wellFormed

end System

end Amity
