/-
  Amity/Proofs/Engine/Effects.lean
  ================================
  **Who gets which notices.**  Each operation of the engine is said in two halves: what it does to
  the registry before anybody is told, and which news there are then for each connection
  (`Delivered`).  An outbox is for names, so the second half reads the names that the first half
  leaves.  When an operation ends with as many refusals as it began with, every notice it sent has
  been taken (`Posted`).
-/
import Amity.Proofs.Engine.WellFormed
import Amity.Proofs.Presence.Room

namespace Amity

/-- Of notices for a list of players, one for each, every player of the list gets one. -/
theorem Outbox.addressed_each {ns : List Name} (h : ns.Nodup) (x : Name → Notice) (n : Name) :
    Outbox.addressed (ns.map fun m => (m, x m)) (some n) = if n ∈ ns then [x n] else [] := by
  induction ns with
  | nil => rfl
  | cons m ns ih =>
    obtain ⟨hm, hns⟩ := List.nodup_cons.1 h
    rw [List.map_cons, addressed_cons, ih hns]
    by_cases hn : n = m
    · subst hn
      simp [hm]
    · simp [hn]

theorem Outbox.addressed_map {ns : List Name} (h : ns.Nodup) (x : Notice) (n : Name) :
    Outbox.addressed (ns.map (·, x)) (some n) = if n ∈ ns then [x] else [] :=
  addressed_each h (fun _ => x) n

/-- The notices of a list for one player go to that player. -/
theorem Outbox.addressed_target (target : Name) (xs : List Notice) (n : Option Name) :
    Outbox.addressed (xs.map (target, ·)) n = if n = some target then xs else [] := by
  induction xs with
  | nil => simp [addressed]
  | cons x xs ih =>
    rw [List.map_cons, addressed_cons, ih]
    split <;> rfl

namespace Engine

theorem WellFormed.toFriends_eq {e : Engine} (h : e.WellFormed) (n : Name) (x : Notice) :
    e.toFriends n x = (e.database.graph.ties n).friends.map (·, x) := by
  unfold toFriends Graph.friendsOf
  rw [Graph.load_eq_ties h.graph.canonical]
  rfl

/-- A notice for the friends of a player goes to each of them once. -/
theorem WellFormed.addressed_toFriends {e : Engine} (h : e.WellFormed) (n : Name) (x : Notice)
    (m : Option Name) :
    (e.toFriends n x).addressed m =
      if ∃ k, m = some k ∧ k ∈ (e.database.graph.ties n).friends then [x] else [] := by
  rw [h.toFriends_eq]
  cases m with
  | none => simp [Outbox.addressed_none]
  | some m =>
    rw [Outbox.addressed_map (h.graph.nodup n).friends]
    simp

section

variable {e : Engine} (h : e.WellFormed)
include h

theorem WellFormed.notifyAll_delivered (outbox : Outbox) :
    e.presence.Delivered (fun c => outbox.addressed (e.presence.nameOf? c))
      (e.notifyAll outbox).presence :=
  h.presence.notifyAll_delivered outbox

theorem WellFormed.tellSiblings_delivered (s : Session) (x : Notice) :
    e.presence.Delivered
      (fun c => if e.presence.nameOf? c = some s.name ∧ c ≠ s.connection then [x] else [])
      (e.tellSiblings s x).presence :=
  h.presence.notifyOthers_delivered s.name s.connection x

/-- Everybody in an outbox and then the siblings. -/
theorem WellFormed.notifyAll_tellSiblings_delivered (outbox : Outbox) (s : Session) (x : Notice) :
    e.presence.Delivered
      (fun c => outbox.addressed (e.presence.nameOf? c) ++
        if e.presence.nameOf? c = some s.name ∧ c ≠ s.connection then [x] else [])
      ((e.notifyAll outbox).tellSiblings s x).presence := by
  have hnotify := h.notifyAll_delivered outbox
  have hmid := h.notifyAll outbox
  refine hnotify.trans (hmid.tellSiblings_delivered s x) fun c hroom => ?_
  have hname : (e.notifyAll outbox).presence.nameOf? c = some s.name ↔
      e.presence.nameOf? c = some s.name := by
    rw [hnotify.nameOf?_eq_some_iff h.presence hmid.presence]
    exact and_iff_left hroom
  simp only [hname]

theorem WellFormed.tieChanged_delivered {s : Session} {target : Name} {command : Command}
    {change : TieChange} {made : Bool} {database : Database}
    (hasks : e.Asks s target command change) (houtcome : change.outcome = .ok (made, database)) :
    e.presence.Delivered
      (fun c => (if e.presence.nameOf? c = some target then change.toTarget else []) ++
        if e.presence.nameOf? c = some s.name ∧ c ≠ s.connection then [change.toSiblings] else [])
      (e.tieChanged s target change database).presence := by
  have hdelivered := (h.withTies hasks houtcome).notifyAll_tellSiblings_delivered
    (change.toTarget.map (target, ·)) s change.toSiblings
  simp only [Outbox.addressed_target] at hdelivered
  exact hdelivered

theorem WellFormed.renamed_delivered {s : Session} {new : Name} {ties : Ties} {database : Database}
    (hne : s.name ≠ new) (hrename : e.database.rename s.name new = .ok (ties, database)) :
    (e.presence.rebound s.name new).Delivered
      (fun c => (renameOutbox ties s.name new (e.presence.statusOf s.name)).addressed
          ((e.presence.rebound s.name new).nameOf? c) ++
        if (e.presence.rebound s.name new).nameOf? c = some new ∧ c ≠ s.connection
          then [.renamed s.name new] else [])
      (e.renamed s new ties database).presence := by
  rw [renamed_eq]
  exact (h.rebound hne hrename).notifyAll_tellSiblings_delivered _ (s.renamed new) _

theorem WellFormed.withoutPlayer_delivered (n : Name) (outbox : Outbox) (database : Database) :
    (e.presence.evicted n).Delivered
      (fun c => outbox.addressed ((e.presence.evicted n).nameOf? c))
      (e.withoutPlayer n outbox database).presence :=
  (h.presence.evicted n).notifyAll_delivered outbox

theorem WellFormed.broadcast_delivered (n : Name) (status : Status) :
    e.presence.Delivered
      (fun c => if ∃ k, e.presence.nameOf? c = some k ∧
          k ∈ (e.database.graph.ties n).friends then [.status n status] else [])
      (e.broadcast n status).presence := by
  have hdelivered := h.notifyAll_delivered (e.toFriends n (.status n status))
  simp only [h.addressed_toFriends] at hdelivered
  exact hdelivered

theorem WellFormed.shown_delivered (s : Session) (status : Status) :
    (e.presence.setStatus s.connection status).Delivered
      (fun c => if ∃ k, e.presence.nameOf? c = some k ∧
          k ∈ (e.database.graph.ties s.name).friends
        then [.status s.name ((e.presence.setStatus s.connection status).statusOf s.name)] else [])
      (e.shown s status).presence := by
  have hset := h.setStatus s.connection status
  have hnames := h.presence.nameOf?_congr hset.presence fun m =>
    Presence.sessionsOf_setStatus _ _ _ _
  have hdelivered := hset.broadcast_delivered s.name
    ((e.presence.setStatus s.connection status).statusOf s.name)
  simp only [hnames] at hdelivered
  exact hdelivered

theorem WellFormed.connect_delivered {n : Name} (hn : e.hasPlayer n = true) :
    (e.attached n).presence.Delivered
      (fun c => if ∃ k, (e.attached n).presence.nameOf? c = some k ∧
          k ∈ (e.database.graph.ties n).friends then [e.firstProbe n] else [])
      (e.connected n).presence := by
  have hattached := h.attached hn
  have hdelivered := hattached.notifyAll_delivered ((e.attached n).toFriends n (e.firstProbe n))
  simp only [hattached.addressed_toFriends] at hdelivered
  exact hdelivered

/-! ### Without refusals -/

theorem WellFormed.tieChanged_posted {s : Session} {target : Name} {command : Command}
    {change : TieChange} {made : Bool} {database : Database}
    (hasks : e.Asks s target command change) (houtcome : change.outcome = .ok (made, database))
    (hrefusals : (e.tieChanged s target change database).refusals = e.refusals) :
    e.presence.Posted
      (fun c => (if e.presence.nameOf? c = some target then change.toTarget else []) ++
        if e.presence.nameOf? c = some s.name ∧ c ≠ s.connection then [change.toSiblings] else [])
      (e.tieChanged s target change database).presence :=
  (h.tieChanged_delivered hasks houtcome).posted hrefusals

theorem WellFormed.renamed_posted {s : Session} {new : Name} {ties : Ties} {database : Database}
    (hne : s.name ≠ new) (hrename : e.database.rename s.name new = .ok (ties, database))
    (hrefusals : (e.renamed s new ties database).refusals = e.refusals) :
    (e.presence.rebound s.name new).Posted
      (fun c => (renameOutbox ties s.name new (e.presence.statusOf s.name)).addressed
          ((e.presence.rebound s.name new).nameOf? c) ++
        if (e.presence.rebound s.name new).nameOf? c = some new ∧ c ≠ s.connection
          then [.renamed s.name new] else [])
      (e.renamed s new ties database).presence :=
  (h.renamed_delivered hne hrename).posted
    (hrefusals.trans (Presence.refusals_rebound e.presence s.name new).symm)

theorem WellFormed.withoutPlayer_posted {n : Name} {outbox : Outbox} {database : Database}
    (hrefusals : (e.withoutPlayer n outbox database).refusals = e.refusals) :
    (e.presence.evicted n).Posted
      (fun c => outbox.addressed ((e.presence.evicted n).nameOf? c))
      (e.withoutPlayer n outbox database).presence :=
  (h.withoutPlayer_delivered n outbox database).posted
    (hrefusals.trans (Presence.refusals_evicted e.presence n).symm)

theorem WellFormed.broadcast_posted {n : Name} {status : Status}
    (hrefusals : (e.broadcast n status).refusals = e.refusals) :
    e.presence.Posted
      (fun c => if ∃ k, e.presence.nameOf? c = some k ∧
          k ∈ (e.database.graph.ties n).friends then [.status n status] else [])
      (e.broadcast n status).presence :=
  (h.broadcast_delivered n status).posted hrefusals

theorem WellFormed.shown_posted {s : Session} {status : Status}
    (hrefusals : (e.shown s status).refusals = e.refusals) :
    (e.presence.setStatus s.connection status).Posted
      (fun c => if ∃ k, e.presence.nameOf? c = some k ∧
          k ∈ (e.database.graph.ties s.name).friends
        then [.status s.name ((e.presence.setStatus s.connection status).statusOf s.name)] else [])
      (e.shown s status).presence :=
  (h.shown_delivered s status).posted
    (hrefusals.trans (Presence.refusals_setStatus e.presence s.connection status).symm)

theorem WellFormed.connect_posted {n : Name} (hn : e.hasPlayer n = true)
    (hrefusals : (e.connected n).refusals = e.refusals) :
    (e.attached n).presence.Posted
      (fun c => if ∃ k, (e.attached n).presence.nameOf? c = some k ∧
          k ∈ (e.database.graph.ties n).friends then [e.firstProbe n] else [])
      (e.connected n).presence :=
  (h.connect_delivered hn).posted hrefusals

/-- Nothing has waited for the connection that comes; for the others there is what there was, and
    for those of friends the probe. -/
theorem WellFormed.waiting_connected {n m : Name} (hn : e.hasPlayer n = true)
    (hrefusals : (e.connected n).refusals = e.refusals) {c : Connection}
    (hc : (e.connected n).presence.nameOf? c = some m) :
    (e.connected n).presence.waiting c =
      (if c = ⟨e.presence.arrivals⟩ then [] else e.presence.waiting c) ++
        if m ∈ (e.database.graph.ties n).friends then [e.firstProbe n] else [] := by
  have hposted := h.connect_posted hn hrefusals
  rw [hposted.nameOf?] at hc
  rw [hposted.waiting, hc]
  simp only [Option.some.injEq, exists_eq_left']
  congr 1
  exact Presence.waiting_attach _ n _ c

theorem WellFormed.nameOf?_connected {n : Name} (hn : e.hasPlayer n = true)
    (hrefusals : (e.connected n).refusals = e.refusals) (c : Connection) :
    (e.connected n).presence.nameOf? c =
      if c = ⟨e.presence.arrivals⟩ then some n else e.presence.nameOf? c :=
  ((h.connect_posted hn hrefusals).nameOf? c).trans (h.presence.nameOf?_attach n _ c)

theorem WellFormed.group_connected {n m : Name} (hn : e.hasPlayer n = true)
    (hrefusals : (e.connected n).refusals = e.refusals) (hm : m ≠ n) :
    (e.connected n).presence.group m = e.presence.group m := by
  refine ((h.connect_posted hn hrefusals).group m).trans ?_
  refine (h.presence.group_attach n _ m).trans ?_
  exact if_neg hm

end

end Engine

end Amity
