/-
  Amity/Proofs/System/Bystanders.lean
  ===================================
  **A command cannot touch third parties.**  A command concerns the player of the session, and a
  renaming also the name that is taken.  Between two other players nothing changes: neither their
  ties nor the order of their lists, no account and no alias, no group and no status
  (`SparesOthers`).  Only a session whose mailbox had no room for a notice loses its place,
  whoever's it is; and a deletion takes the places of the player's own sessions.

  For the registry each command is a change of the player's own group and then a delivery.  The
  first half moves or removes whole groups and leaves the statuses; the second only takes places.
-/
import Amity.Proofs.Database.Bystanders
import Amity.Proofs.Engine.Effects
import Amity.Proofs.System.Inputs

namespace Amity

namespace Presence

/-! ## The status of a connection -/

/-- The status that a connection shows to others, while it is attached. -/
def shownBy? (p : Presence) (c : Connection) : Option Status :=
  (p.nameOf? c).bind fun n =>
    ((p.group n).find? fun a => a.connection = c).map fun a => a.status

section

variable {p q : Presence} (h : p.WellFormed)
include h

theorem WellFormed.shownBy?_eq_some_iff {c : Connection} {s : Status} :
    p.shownBy? c = some s ↔ ∃ n, ⟨c, s⟩ ∈ p.group n := by
  unfold shownBy?
  rw [Option.bind_eq_some_iff]
  constructor
  · rintro ⟨n, -, hfind⟩
    obtain ⟨a, ha, rfl⟩ := Option.map_eq_some_iff.1 hfind
    obtain rfl : a.connection = c := by simpa using List.find?_some ha
    exact ⟨n, List.mem_of_find?_eq_some ha⟩
  · rintro ⟨n, hmem⟩
    have hname : p.nameOf? c = some n :=
      h.nameOf?_eq_some_iff.2 (connection_mem_sessionsOf hmem)
    refine ⟨n, hname, ?_⟩
    cases hfind : (p.group n).find? fun a => a.connection = c with
    | none =>
      have hother := List.find?_eq_none.1 hfind ⟨c, s⟩ hmem
      simp at hother
    | some a =>
      have hc : a.connection = c := by simpa using List.find?_some hfind
      have heq := List.inj_on_of_nodup_map (h.nodup n) (List.mem_of_find?_eq_some hfind) hmem hc
      rw [heq]
      rfl

theorem WellFormed.shownBy?_eq_none_iff {c : Connection} :
    p.shownBy? c = none ↔ p.nameOf? c = none := by
  constructor
  · intro hnone
    cases hname : p.nameOf? c with
    | none => rfl
    | some n =>
      obtain ⟨a, ha, rfl⟩ := List.mem_map.1 (h.nameOf?_eq_some_iff.1 hname)
      rw [h.shownBy?_eq_some_iff.2 ⟨n, ha⟩] at hnone
      cases hnone
  · intro hname
    unfold shownBy?
    rw [hname]
    rfl

/-- Who has the same place in some group shows the same. -/
theorem WellFormed.shownBy?_congr (hq : q.WellFormed) {c : Connection}
    (hplaces : ∀ s, (∃ n, ⟨c, s⟩ ∈ q.group n) ↔ ∃ n, ⟨c, s⟩ ∈ p.group n) :
    q.shownBy? c = p.shownBy? c := by
  ext s
  rw [hq.shownBy?_eq_some_iff, h.shownBy?_eq_some_iff, hplaces]

theorem WellFormed.shownBy?_rebound {old new : Name} (hne : old ≠ new) (c : Connection) :
    (p.rebound old new).shownBy? c = p.shownBy? c := by
  refine h.shownBy?_congr (h.rebound hne) fun s => ?_
  simp only [group_rebound hne]
  constructor
  · rintro ⟨n, hmem⟩
    split at hmem
    · rcases List.mem_append.1 hmem with hmem | hmem
      · exact ⟨new, hmem⟩
      · exact ⟨old, hmem⟩
    · split at hmem
      · cases hmem
      · exact ⟨n, hmem⟩
  · rintro ⟨n, hmem⟩
    by_cases hold : n = old
    · exact ⟨new, by simp [hold ▸ hmem]⟩
    · by_cases hnew : n = new
      · exact ⟨new, by simp [hnew ▸ hmem]⟩
      · exact ⟨n, by simp [hold, hnew, hmem]⟩

omit h in
theorem mem_showStatus_of_ne {c : Connection} {s : Status} {as : List Attachment} {a : Attachment}
    (hne : a.connection ≠ c) : a ∈ showStatus c s as ↔ a ∈ as := by
  induction as with
  | nil => exact Iff.rfl
  | cons b as ih =>
    unfold showStatus
    split
    · next hb =>
      have hba : a ≠ b := fun heq => hne (heq ▸ hb)
      have hbc : a ≠ ⟨c, s⟩ := fun heq => hne (heq ▸ rfl)
      simp [hba, hbc]
    · simp [ih]

theorem WellFormed.shownBy?_setStatus (c : Connection) (s : Status) {d : Connection}
    (hne : d ≠ c) : (p.setStatus c s).shownBy? d = p.shownBy? d := by
  refine h.shownBy?_congr (h.setStatus c s) fun s' => exists_congr fun n => ?_
  rw [group_setStatus]
  split
  · exact mem_showStatus_of_ne hne
  · exact Iff.rfl

theorem WellFormed.shownBy?_evicted (n : Name) (c : Connection) :
    (p.evicted n).shownBy? c = if p.nameOf? c = some n then none else p.shownBy? c := by
  split
  · next hc =>
    rw [(h.evicted n).shownBy?_eq_none_iff, h.nameOf?_evicted, if_pos hc]
  · next hc =>
    refine h.shownBy?_congr (h.evicted n) fun s => exists_congr fun m => ?_
    rw [Presence.group_evicted]
    split
    · next hm =>
      subst hm
      simp only [List.not_mem_nil, false_iff]
      exact fun hmem => hc (h.nameOf?_eq_some_iff.2 (connection_mem_sessionsOf hmem))
    · exact Iff.rfl

end

/-! ## Places -/

/-- From one registry to the next the sessions of a player only lose places, and only those lose
    theirs whose mailboxes have no room. -/
def LosesOnlyFull (p q : Presence) (n : Name) : Prop :=
  ∃ kept : Attachment → Bool, q.group n = (p.group n).filter kept ∧
    ∀ a ∈ p.group n, kept a = false → q.room a.connection = 0

/-- The groups of the others and the statuses of all but one connection are the same, as far as
    there was room. -/
structure Spares (ns : List Name) (c : Connection) (gone : Connection → Prop) (p q : Presence) :
    Prop where
  groups : ∀ x, x ∉ ns → p.LosesOnlyFull q x
  statuses : ∀ d, d ≠ c → q.shownBy? d = p.shownBy? d ∨
    (q.nameOf? d = none ∧ (q.room d = 0 ∨ gone d))

variable {p q : Presence}

theorem LosesOnlyFull.refl (p : Presence) (n : Name) : p.LosesOnlyFull p n :=
  ⟨fun _ => true, by simp, nofun⟩

theorem Spares.refl (ns : List Name) (c : Connection) (gone : Connection → Prop) (p : Presence) :
    Spares ns c gone p p :=
  ⟨fun x _ => .refl p x, fun _ _ => Or.inl rfl⟩

/-- A delivery takes the places of those who had too little room. -/
theorem Delivered.shownBy?_or_full {b : Presence} {news : Connection → List Notice}
    (hb : b.WellFormed) (hq : q.WellFormed) (hdelivered : b.Delivered news q) (c : Connection) :
    q.shownBy? c = b.shownBy? c ∨ (q.nameOf? c = none ∧ q.room c = 0) := by
  cases hname : b.nameOf? c with
  | none =>
    have hout : q.nameOf? c = none := by
      cases hq' : q.nameOf? c with
      | none => rfl
      | some m =>
        have hbefore := ((hdelivered.nameOf?_eq_some_iff hb hq).1 hq').1
        rw [hname] at hbefore
        cases hbefore
    rw [hb.shownBy?_eq_none_iff.2 hname, hq.shownBy?_eq_none_iff.2 hout]
    exact Or.inl rfl
  | some n =>
    rcases hdelivered.attached_or_full hb hq hname with hstays | hfull
    · refine Or.inl (hb.shownBy?_congr hq fun s => exists_congr fun m => ?_)
      rw [hdelivered.group, List.mem_filter, and_iff_left]
      exact decide_eq_true ((hdelivered.nameOf?_eq_some_iff hb hq).1 hstays).2
    · exact Or.inr hfull

/-- A change of some players' groups, and then a delivery. -/
theorem Delivered.spares {b : Presence} {news : Connection → List Notice} {ns : List Name}
    {c : Connection} {gone : Connection → Prop} (hb : b.WellFormed) (hq : q.WellFormed)
    (hdelivered : b.Delivered news q) (hgroups : ∀ x, x ∉ ns → b.group x = p.group x)
    (hstatuses : ∀ d, d ≠ c → b.shownBy? d = p.shownBy? d ∨ (b.nameOf? d = none ∧ gone d)) :
    Spares ns c gone p q where
  groups x hx := by
    refine ⟨fun a => (news a.connection).length ≤ b.room a.connection, ?_, fun a _ hlost => ?_⟩
    · rw [hdelivered.group, hgroups x hx]
    · have hfew : b.room a.connection < (news a.connection).length := by simpa using hlost
      rw [hdelivered.room]
      omega
  statuses d hd := by
    rcases hdelivered.shownBy?_or_full hb hq d with hsame | ⟨hout, hfull⟩
    · rcases hstatuses d hd with hbase | ⟨hout, hgone⟩
      · exact Or.inl (hsame.trans hbase)
      · refine Or.inr ⟨?_, Or.inr hgone⟩
        rw [← hq.shownBy?_eq_none_iff, hsame, hb.shownBy?_eq_none_iff]
        exact hout
    · exact Or.inr ⟨hout, Or.inl hfull⟩

end Presence

/-! ## Commands -/

/-- The names that a turn of a player's session concerns. -/
def Turn.concerned (n : Name) (turn : Turn) : List Name :=
  match turn.reply with
  | .renamed _ new => [n, new]
  | _ => [n]

namespace Engine

/-- A turn of a session of player `n` has no effect on third parties. -/
structure SparesOthers (e : Engine) (c : Connection) (n : Name) (turn : Turn) : Prop where
  friendships : ∀ x y, x ∉ turn.concerned n → y ∉ turn.concerned n →
    (s(x, y) ∈ turn.engine.database.graph.friendships ↔ s(x, y) ∈ e.database.graph.friendships)
  requests : ∀ x y, x ∉ turn.concerned n → y ∉ turn.concerned n →
    ((x, y) ∈ turn.engine.database.graph.requests ↔ (x, y) ∈ e.database.graph.requests)
  /-- With the concerned names left out, the lists are the same in the same order. -/
  lists : ∀ x, x ∉ turn.concerned n → ∃ before after, e.database.graph.load x = .ok before ∧
    turn.engine.database.graph.load x = .ok after ∧
    after.leavingOut (turn.concerned n) = before.leavingOut (turn.concerned n)
  profiles : ∀ key, (∀ m ∈ turn.concerned n, key ≠ m.text) →
    turn.engine.database.directory.profiles.find? key = e.database.directory.profiles.find? key
  aliases : ∀ a, e.database.directory.aliases.find? a ≠ some n.text →
    turn.engine.database.directory.aliases.find? a = e.database.directory.aliases.find? a
  /-- A session loses its place only when its mailbox is full or closed. -/
  groups : ∀ x, x ∉ turn.concerned n → e.presence.LosesOnlyFull turn.engine.presence x
  /-- Every other session shows what it showed, unless it has lost its place: for want of room, or
      because its player is deleted. -/
  statuses : ∀ d, d ≠ c → turn.engine.presence.shownBy? d = e.presence.shownBy? d ∨
    (turn.engine.presence.nameOf? d = none ∧ (turn.engine.presence.room d = 0 ∨
      (turn.reply = .close ∧ e.presence.nameOf? d = some n)))

section

variable {e : Engine} (h : e.WellFormed) (hdb : e.database.WellFormed)
include h

theorem WellFormed.sparesOthers_of {c : Connection} {n : Name} {turn : Turn}
    (h' : turn.engine.WellFormed)
    (hgraph : Graph.Spares (turn.concerned n) e.database.graph turn.engine.database.graph)
    (hdirectory : Directory.Spares (turn.concerned n) n e.database.directory
      turn.engine.database.directory)
    (hpresence : Presence.Spares (turn.concerned n) c
      (fun d => turn.reply = .close ∧ e.presence.nameOf? d = some n) e.presence
      turn.engine.presence) : e.SparesOthers c n turn where
  friendships x y hx hy := by
    rw [h'.graph.mem_friendships, h.graph.mem_friendships]
    exact (Ties.mem_of_leavingOut_eq (hgraph x hx) hy).1
  requests x y hx hy := (Ties.mem_of_leavingOut_eq (hgraph x hx) hy).2
  lists x hx :=
    ⟨_, _, Graph.load_eq_ties h.graph.canonical x, Graph.load_eq_ties h'.graph.canonical x,
      hgraph x hx⟩
  profiles := hdirectory.profiles
  aliases := hdirectory.aliases
  groups := hpresence.groups
  statuses := hpresence.statuses

theorem WellFormed.sparesOthers_nothing (c : Connection) (n : Name) (s : Session) (reply : Reply) :
    e.SparesOthers c n ⟨reply, s, e⟩ :=
  h.sparesOthers_of h (.refl _ _) (.refl _ _ _) (.refl _ _ _ _)

/-- A change of ties edits the records of the player and of the target, and in that of the target
    only what it says about the player. -/
theorem WellFormed.spares_of_asks {s : Session} {target : Name} {command : Command}
    {change : TieChange} {database : Database} (hasks : e.Asks s target command change)
    (houtcome : change.outcome = .ok (true, database)) :
    Graph.Spares [s.name] e.database.graph database.graph := by
  have hself : s.name ∈ [s.name] := List.mem_singleton_self _
  have hcanonical := h.graph.canonical
  cases hasks with
  | request =>
    rcases Database.request_eq_ok houtcome with ⟨-, -, -, hmade⟩ | ⟨hfalse, -⟩
    · rw [Graph.createRequest_eq hcanonical] at hmade
      split at hmade
      · cases hmade
      · rw [Except.ok.injEq, Prod.mk.injEq] at hmade
        rw [← hmade.2]
        exact Graph.spares_savePair (Or.inl hself) (Or.inr (Ties.leavingOut_addReceived hself _))
    · cases hfalse
  | remove =>
    obtain ⟨graph, hmade, rfl⟩ := onGraph_eq_ok houtcome
    rw [Graph.removeFriendship_eq hcanonical] at hmade
    split at hmade
    · cases hmade
      exact Graph.spares_savePair (Or.inl hself) (Or.inr (Ties.leavingOut_unfriend hself _))
    · cases hmade
  | cancel =>
    obtain ⟨graph, hmade, rfl⟩ := onGraph_eq_ok houtcome
    rw [Graph.deleteRequest_eq hcanonical] at hmade
    split at hmade
    · cases hmade
      exact Graph.spares_savePair (Or.inl hself) (Or.inr (Ties.leavingOut_dropReceived hself _))
    · cases hmade
  | accept =>
    obtain ⟨graph, hmade, rfl⟩ := onGraph_eq_ok houtcome
    rw [Graph.acceptRequest_eq hcanonical] at hmade
    split at hmade
    · cases hmade
      exact Graph.spares_savePair (Or.inr (Ties.leavingOut_befriend hself _)) (Or.inl hself)
    · cases hmade
  | refuse =>
    obtain ⟨graph, hmade, rfl⟩ := onGraph_eq_ok houtcome
    rw [Graph.deleteRequest_eq hcanonical] at hmade
    split at hmade
    · cases hmade
      exact Graph.spares_savePair (Or.inr (Ties.leavingOut_dropSent hself _)) (Or.inl hself)
    · cases hmade

theorem WellFormed.sparesOthers_ties {s : Session} {target : Name} {command : Command}
    {change : TieChange} {database : Database} (hasks : e.Asks s target command change)
    (houtcome : change.outcome = .ok (true, database)) :
    e.SparesOthers s.connection s.name
      ⟨.snapshot, change.session, e.tieChanged s target change database⟩ := by
  have h' := h.tieChanged hasks houtcome
  have hdelivered := h.tieChanged_delivered hasks houtcome
  obtain ⟨hdirectory, -⟩ := hasks.database h.graph houtcome
  apply h.sparesOthers_of h'
  · exact h.spares_of_asks hasks houtcome
  · show Directory.Spares _ _ e.database.directory database.directory
    rw [hdirectory]
    exact .refl _ _ _
  · exact hdelivered.spares h.presence h'.presence (fun _ _ => rfl) fun _ _ => Or.inl rfl

theorem WellFormed.sparesOthers_status {s : Session} (status : Status)
    (hs : e.presence.nameOf? s.connection = some s.name) :
    e.SparesOthers s.connection s.name
      ⟨.snapshot, s.setStatus status, e.shown s status⟩ := by
  have h' := h.shown s status
  have hdelivered := h.shown_delivered s status
  apply h.sparesOthers_of h' (.refl _ _) (.refl _ _ _)
  refine hdelivered.spares (h.setStatus s.connection status).presence h'.presence ?_ ?_
  · intro x hx
    have hother : e.presence.owners.find? s.connection ≠ some x := by
      intro howner
      rw [Presence.owner_of_nameOf? hs] at howner
      exact hx (List.mem_singleton.2 (Option.some.inj howner).symm)
    rw [Presence.group_setStatus, if_neg hother]
  · intro d hd
    exact Or.inl (h.presence.shownBy?_setStatus s.connection status hd)

include hdb

theorem WellFormed.sparesOthers_rename {s : Session} {new : Name} {ties : Ties}
    {database : Database} (hne : s.name ≠ new)
    (hrename : e.database.rename s.name new = .ok (ties, database)) :
    e.SparesOthers s.connection s.name
      ⟨.renamed s.name new, s.renamed new, e.renamed s new ties database⟩ := by
  have h' := h.renamed hne hrename
  have hdelivered := h.renamed_delivered hne hrename
  obtain ⟨p, hp, -, -, -, hdirectory, hties, -⟩ := hdb.of_rename hrename
  have hname := hdb.directory.canonical.name_of_profile? hp
  have hold : s.name ∈ [s.name, new] := List.mem_cons_self
  have hnew : new ∈ [s.name, new] := List.mem_cons_of_mem _ (List.mem_singleton_self _)
  apply h.sparesOthers_of h'
  · exact Graph.spares_renameTies hold hnew hties
  · show Directory.Spares [s.name, new] s.name e.database.directory database.directory
    rw [hdirectory, ← hname]
    exact hdb.directory.spares_moved (hname ▸ hp) (by simp) (by simp)
  · refine hdelivered.spares (h.presence.rebound hne) h'.presence ?_ ?_
    · intro x hx
      have hx : x ∉ [s.name, new] := hx
      simp only [List.mem_cons, List.not_mem_nil, or_false, not_or] at hx
      rw [Presence.group_rebound hne, if_neg hx.2, if_neg hx.1]
    · intro d _
      exact Or.inl (h.presence.shownBy?_rebound hne d)

theorem WellFormed.sparesOthers_delete {s : Session} {e' : Engine} {gone : Bool}
    (hs : e.presence.nameOf? s.connection = some s.name)
    (hdelete : e.deletePlayer s.name = .ok (gone, e')) :
    e.SparesOthers s.connection s.name ⟨.close, s, e'⟩ := by
  have h' := h.deletePlayer hdelete
  have hself : s.name ∈ [s.name] := List.mem_singleton_self _
  have hplayer : e.database.hasPlayer s.name = true := h.players _ _ hs
  rcases deletePlayer_eq_ok hdelete with ⟨-, hnone, -⟩ | ⟨ties, database, -, hsome, rfl⟩
  · rw [Database.delete_eq_ok_none_iff] at hnone
    have hfree := Directory.delete_eq_ok hnone
    rw [Database.hasPlayer, hfree] at hplayer
    cases hplayer
  · obtain ⟨hdirectory, hpurge⟩ := Database.delete_eq_ok_some_iff.1 hsome
    obtain ⟨g', heq, -, hties⟩ := h.graph.purge_eq_ok s.name
    rw [heq] at hpurge
    cases hpurge
    obtain ⟨p, hp⟩ := hdb.directory.canonical.has_iff.1 hplayer
    have hname := hdb.directory.canonical.name_of_profile? hp
    rw [hdb.directory.delete_eq, hp, Option.map_some, Except.ok.injEq, Option.some.injEq]
      at hdirectory
    have hdelivered := h.withoutPlayer_delivered s.name
      (deleteOutbox (e.database.graph.ties s.name) s.name) database
    apply h.sparesOthers_of h'
    · exact Graph.spares_purgeTies hself hties
    · show Directory.Spares [s.name] s.name e.database.directory database.directory
      rw [← hdirectory, ← hname]
      exact hdb.directory.spares_deleted (hname ▸ hp) (by simp)
    · refine hdelivered.spares (h.presence.evicted s.name) h'.presence ?_ ?_
      · intro x hx
        have hx : x ∉ [s.name] := hx
        rw [Presence.group_evicted, if_neg (by simpa using hx)]
      · intro d _
        rw [h.presence.shownBy?_evicted, h.presence.nameOf?_evicted]
        by_cases hd : e.presence.nameOf? d = some s.name
        · exact Or.inr ⟨if_pos hd, rfl, hd⟩
        · exact Or.inl (if_neg hd)

theorem WellFormed.sparesOthers_performs {s : Session} {command : Command} {turn : Turn}
    (hs : e.presence.nameOf? s.connection = some s.name) (hturn : e.Performs s command turn) :
    e.SparesOthers s.connection s.name turn := by
  cases hturn with
  | nothing => exact h.sparesOthers_nothing _ _ _ _
  | ties _ hasks houtcome => exact h.sparesOthers_ties hasks houtcome
  | rename _ hne hrename => exact h.sparesOthers_rename hdb hne hrename
  | delete _ hdelete => exact h.sparesOthers_delete hdb hs hdelete
  | status status => exact h.sparesOthers_status status hs

theorem WellFormed.sparesOthers {s : Session} {n : Name}
    (hs : e.presence.nameOf? s.connection = some n) (command : Command) :
    e.SparesOthers s.connection n (e.handleCommand s command) := by
  rcases e.handleCommand_cases s command with ⟨hnone, -⟩ | ⟨m, hm, hcases⟩
  · rw [hs] at hnone
    cases hnone
  · rw [hs] at hm
    cases hm
    rcases hcases with ⟨-, heq⟩ | ⟨-, hturn⟩
    · rw [heq]
      exact h.sparesOthers_nothing _ _ _ _
    · exact h.sparesOthers_performs (s := s.renamed n) hdb hs hturn

end

end Engine

namespace System

/-- **A command cannot touch third parties**, after whatever came from outside, for every session
    that is attached and for every command. -/
theorem sparesOthers_run (capacity : Nat) (is : List Input) (s : Session) (n : Name)
    (command : Command)
    (hs : ((start .empty capacity).run is).engine.presence.nameOf? s.connection = some n) :
    ((start .empty capacity).run is).engine.SparesOthers s.connection n
      (((start .empty capacity).run is).engine.handleCommand s command) := by
  have hsound := (sound_start capacity).run is
  exact hsound.wellFormed.engine.sparesOthers hsound.database hs command

/-! ### A renaming next to two friends -/

/-- Two players become friends; a third one asks one of them. -/
def befriendNextTo : List Input :=
  [.action (.create ⟨"q", Name.isValid_q⟩), .action (.create ⟨"r", Name.isValid_r⟩),
    .action (.create ⟨"s", Name.isValid_s⟩), .action (.connect ⟨"q", Name.isValid_q⟩),
    .action (.connect ⟨"r", Name.isValid_r⟩), .action (.connect ⟨"s", Name.isValid_s⟩),
    .action (.command ⟨1⟩ (.request "s")), .action (.command ⟨2⟩ (.accept "r")),
    .action (.command ⟨0⟩ (.request "r"))]

/-- The third one takes another name, and the two are friends as before. -/
theorem sparesOthers_befriendNextTo :
    ((start .empty 64).run befriendNextTo).engine.presence.nameOf? ⟨0⟩ = some ⟨"q", by decide⟩ ∧
      (((start .empty 64).run befriendNextTo).engine.handleCommand
        (Session.start ⟨0⟩ ⟨"q", by decide⟩) (.rename "t")).reply =
        .renamed ⟨"q", by decide⟩ ⟨"t", by decide⟩ ∧
      s(⟨"r", by decide⟩, ⟨"s", by decide⟩) ∈
        (((start .empty 64).run befriendNextTo).engine.handleCommand
          (Session.start ⟨0⟩ ⟨"q", by decide⟩) (.rename "t")).engine.database.graph.friendships := by
  have hname : ((start .empty 64).run befriendNextTo).engine.presence.nameOf? ⟨0⟩ =
      some ⟨"q", by decide⟩ := by decide +kernel
  have hspares := sparesOthers_run 64 befriendNextTo (Session.start ⟨0⟩ ⟨"q", by decide⟩)
    ⟨"q", by decide⟩ (.rename "t") hname
  have hfriends : s(⟨"r", by decide⟩, ⟨"s", by decide⟩) ∈
      ((start .empty 64).run befriendNextTo).engine.database.graph.friendships :=
    ⟨⟨"r", by decide⟩, ⟨"s", by decide⟩, rfl, by decide +kernel⟩
  refine ⟨hname, by decide +kernel, ?_⟩
  exact (hspares.friendships ⟨"r", by decide⟩ ⟨"s", by decide⟩ (by decide +kernel)
    (by decide +kernel)).2 hfriends

end System

end Amity
