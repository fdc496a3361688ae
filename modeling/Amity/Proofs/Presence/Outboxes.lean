/-
  Amity/Proofs/Presence/Outboxes.lean
  ===================================
  **An outbox is delivered exactly, and a fault stays where it is.**  An outbox is for names, and one
  name may come in it many times.  What comes of it is said here connection by connection: the first
  of its news are put behind what waits, as many as there is room for, and a connection that has
  less room than news loses its place and is told to end.  What happens to one connection depends on
  its own mailbox and its own news only.

  Nothing is asked of the registry.  A connection with two places in the groups has the notices for
  each of them; with one place, it has those for the name it stands under.
-/
import Amity.Proofs.Presence.Holdings
import Amity.Proofs.Presence.Tokens

namespace Amity.Presence

/-! ## The news of an outbox -/

/-- The notices of an outbox for a connection, in their order: each as often as the connection has a
    place under the name that the notice is for. -/
def newsOf (p : Presence) (outbox : Outbox) (c : Connection) : List Notice :=
  outbox.flatMap fun e => List.replicate ((p.sessionsOf e.1).count c) e.2

theorem newsOf_cons (p : Presence) (n : Name) (x : Notice) (outbox : Outbox) (c : Connection) :
    p.newsOf ((n, x) :: outbox) c =
      List.replicate ((p.sessionsOf n).count c) x ++ p.newsOf outbox c := rfl

theorem newsOf_single (p : Presence) (n : Name) (x : Notice) (c : Connection) :
    p.newsOf [(n, x)] c = List.replicate ((p.sessionsOf n).count c) x := by
  rw [newsOf_cons]
  exact List.append_nil _

/-- The notices for the name of a connection that has one place. -/
theorem newsOf_of_placed {p : Presence} {c : Connection} {n : Name}
    (hplace : ∀ m, (p.sessionsOf m).count c = if m = n then 1 else 0) (outbox : Outbox) :
    p.newsOf outbox c = outbox.addressed (some n) := by
  induction outbox with
  | nil => rfl
  | cons e outbox ih =>
    obtain ⟨m, x⟩ := e
    rw [newsOf_cons, Outbox.addressed_cons, hplace, ih]
    by_cases hm : m = n
    · simp [hm]
    · simp [hm, Ne.symm hm]

theorem newsFor_group (p : Presence) (n : Name) (x : Notice) (c : Connection) :
    newsFor ((p.group n).map fun a => (a.connection, x)) c =
      List.replicate ((p.sessionsOf n).count c) x := by
  rw [← newsFor_replicate, sessionsOf, List.map_map]
  rfl

theorem newsFor_outbox (p : Presence) (outbox : Outbox) (c : Connection) :
    newsFor (p.resolve outbox) c = p.newsOf outbox c := by
  induction outbox with
  | nil => rfl
  | cons e outbox ih =>
    obtain ⟨n, x⟩ := e
    have hfirst := p.newsFor_group n x c
    unfold resolve at ih ⊢
    rw [List.flatMap_cons, newsFor_append, ih, hfirst, newsOf_cons]

theorem newsFor_allBut (p : Presence) (n : Name) (skip : Connection) (x : Notice)
    (c : Connection) :
    newsFor ((withoutConnections [skip] (p.group n)).map fun a => (a.connection, x)) c =
      if c = skip then [] else p.newsOf [(n, x)] c := by
  have hmap : (withoutConnections [skip] (p.group n)).map (fun a => (a.connection, x)) =
      ((p.sessionsOf n).filter (· ∉ [skip])).map (·, x) := by
    rw [sessionsOf, ← map_connection_withoutConnections, List.map_map]
    rfl
  rw [hmap, newsFor_replicate, newsOf_single]
  by_cases hc : c = skip
  · simp [hc, List.count_eq_zero]
  · rw [if_neg hc, List.count_filter (by simpa using hc)]

/-! ## What a delivery does -/

/-- What a delivery does when these are the news of each connection and so many notices are taken. -/
structure DeliversExactly (p : Presence) (news : Connection → List Notice) (taken : Nat)
    (q : Presence) : Prop where
  /-- The first of the news come behind what waits, as many as there is room for, and who has less
      room than news is told to end.  Otherwise a mailbox is as it was. -/
  boxes : ∀ c, q.boxes.find? c = (p.boxes.find? c).map fun b =>
    { b with
      items := b.items ++ (news c).take b.room
      cancelled := b.cancelled || decide (b.room < (news c).length) }
  /-- Who has room for all its news stays, in the same order and with the same status, and who has
      not is in no group any more. -/
  group : ∀ n, q.group n = (p.group n).filter fun a =>
    (news a.connection).length ≤ p.room a.connection
  /-- A name whose last session is gone has no group. -/
  nonempty : ∀ n, q.groups.find? n = some [] → p.groups.find? n = some []
  owners : q.owners = p.owners
  /-- For whom there are no news nothing changes, even if nobody reads its mailbox. -/
  untouched : ∀ c, news c = [] → q.boxes.find? c = p.boxes.find? c ∧
    ∀ n s, ⟨c, s⟩ ∈ q.group n ↔ ⟨c, s⟩ ∈ p.group n
  /-- As many notices wait more than before, over all mailboxes. -/
  total : q.holdings.length = p.holdings.length + taken

theorem deliver_exactly (p : Presence) (targets : List (Connection × Notice)) :
    p.DeliversExactly (newsFor targets) (p.deliver targets).1 (p.deliver targets).2 where
  boxes := find?_boxes_deliver p targets
  group := group_deliver p targets
  nonempty n hn := by
    rw [deliver_eq] at hn
    dsimp only at hn
    split at hn
    · have hgroups : (p.afterPosts targets).groups = p.groups := (postAll_eq targets p).1
      rwa [hgroups] at hn
    · exact absurd rfl (ne_nil_of_dropSessions hn)
  owners := owners_deliver p targets
  untouched c hc := by
    constructor
    · rw [find?_boxes_deliver, hc]
      cases p.boxes.find? c with
      | none => rfl
      | some b => simp [Mailbox.delivered, Mailbox.receive_nil]
    · intro n s
      rw [group_deliver, List.mem_filter]
      simp [hc]
  total := length_holdings_deliver p targets

/-- The delivery of an outbox. -/
structure DeliversOutbox (p : Presence) (outbox : Outbox) (taken : Nat) (q : Presence) : Prop
    extends p.DeliversExactly (p.newsOf outbox) taken q where
  /-- With one place, the news are the notices for the name of that place. -/
  addressed : ∀ c n, (∀ m, (p.sessionsOf m).count c = if m = n then 1 else 0) →
    p.newsOf outbox c = outbox.addressed (some n)

theorem notifyAll_exactly (p : Presence) (outbox : Outbox) :
    p.DeliversOutbox outbox (p.notifyAll outbox).1 (p.notifyAll outbox).2 where
  toDeliversExactly := by
    have hdelivers := p.deliver_exactly (p.resolve outbox)
    rwa [funext (p.newsFor_outbox outbox)] at hdelivers
  addressed _ _ hplace := newsOf_of_placed hplace outbox

theorem notifyOthers_exactly (p : Presence) (n : Name) (skip : Connection) (x : Notice) :
    p.DeliversExactly (fun c => if c = skip then [] else p.newsOf [(n, x)] c)
      (p.notifyOthers n skip x).1 (p.notifyOthers n skip x).2 := by
  have hdelivers := p.deliver_exactly
    ((withoutConnections [skip] (p.group n)).map fun a => (a.connection, x))
  rwa [funext (p.newsFor_allBut n skip x)] at hdelivers

/-- Of a single notice one is taken or none. -/
theorem deliver_single (p : Presence) (c : Connection) (x : Notice) :
    (p.deliver [(c, x)]).1 = if (p.post c x).1 then 1 else 0 := by
  rw [deliver_eq, postAll_cons]
  split <;> rfl

theorem sendTo_exactly (p : Presence) (n : Name) (c : Connection) (x : Notice) :
    p.DeliversExactly (fun d => if d = c ∧ c ∈ p.sessionsOf n then [x] else [])
      (if (p.sendTo n c x).1 then 1 else 0) (p.sendTo n c x).2 := by
  by_cases hc : p.isAttached n c = true
  · have hdelivers := p.deliver_exactly [(c, x)]
    have hnews : newsFor [(c, x)] = fun d => if d = c ∧ c ∈ p.sessionsOf n then [x] else [] := by
      funext d
      simp only [newsFor_single, isAttached_iff.1 hc, and_true]
    have htaken : (if (p.sendTo n c x).1 then 1 else 0) = (p.deliver [(c, x)]).1 := by
      simp only [sendTo, hc, if_true, deliver_single]
      split <;> simp
    rw [hnews] at hdelivers
    rw [htaken]
    simpa only [sendTo, hc, if_true] using hdelivers
  · have hdelivers := p.deliver_exactly []
    have hnews : newsFor [] = fun d => if d = c ∧ c ∈ p.sessionsOf n then [x] else [] := by
      funext d
      rw [isAttached_iff] at hc
      simp [newsFor, hc]
    have hnobody : p.deliver [] = (0, p) := rfl
    rw [hnews, hnobody] at hdelivers
    simpa only [sendTo, hc, if_false, Bool.false_eq_true] using hdelivers

/-! ## The layout of a delivery -/

/-- A group has moved under another name, behind those already there, and the owner entries with
    it. -/
structure HasMoved (p : Presence) (old new : Name) (q : Presence) : Prop where
  group : ∀ n, q.group n =
    if n = new then (if new = old then [] else p.group new) ++ p.group old
    else if n = old then [] else p.group n
  owners : ∀ c, q.owners.find? c = (p.owners.find? c).map (Ties.substitute old new)
  boxes : q.boxes = p.boxes

theorem hasMoved_rebound (p : Presence) (old new : Name) :
    p.HasMoved old new (p.rebound old new) where
  group := p.group_rebound_eq old new
  owners := p.owner_rebound old new
  boxes := by
    unfold rebound
    split <;> rfl

/-- The sessions of a name are gone from the groups and have been told to end. -/
structure HasEvicted (p : Presence) (n : Name) (q : Presence) : Prop where
  group : ∀ m, q.group m = if m = n then [] else p.group m
  owners : q.owners = p.owners
  boxes : ∀ c, q.boxes.find? c =
    (p.boxes.find? c).map fun b => if c ∈ p.sessionsOf n then b.cancel else b

theorem hasEvicted_evicted (p : Presence) (n : Name) : p.HasEvicted n (p.evicted n) where
  group := p.group_evicted n
  owners := (cancelAll_eq _ _).2.1
  boxes c := find?_boxes_cancelAll _ _ c

/-! ## All that the registry delivers -/

/-- Each operation that delivers does it exactly. -/
structure ExactDeliveries (ε : Type) (p : Presence) : Prop where
  /-- The notices of a commit go to the groups as they are; the number of those taken is given. -/
  committed : ∀ outbox, ∃ taken q,
    p.afterCommit (.ok outbox : Except ε Outbox) notifyAll = (.ok taken, q) ∧
      p.DeliversOutbox outbox taken q
  /-- The notices of a renaming go to the groups after it. -/
  rebind : ∀ old new outbox, ∃ mid taken q,
    p.afterCommit (.ok outbox : Except ε Outbox) (fun p outbox => p.rebind old new outbox) =
        (.ok (p.group old).length, q) ∧
      p.HasMoved old new mid ∧ mid.DeliversOutbox outbox taken q
  /-- The notices of a deletion go to the groups that are left. -/
  evict : ∀ n outbox, ∃ mid taken q,
    p.afterCommit (.ok outbox : Except ε Outbox) (fun p outbox => p.evict n outbox) =
        (.ok (p.group n).length, q) ∧
      p.HasEvicted n mid ∧ mid.DeliversOutbox outbox taken q
  notify : ∀ n x, p.DeliversOutbox [(n, x)] (p.notify n x).1 (p.notify n x).2
  /-- The same for all sessions of the name but one. -/
  notifyOthers : ∀ n skip x,
    p.DeliversExactly (fun c => if c = skip then [] else p.newsOf [(n, x)] c)
      (p.notifyOthers n skip x).1 (p.notifyOthers n skip x).2
  /-- The same for one session of the name. -/
  sendTo : ∀ n c x,
    p.DeliversExactly (fun d => if d = c ∧ c ∈ p.sessionsOf n then [x] else [])
      (if (p.sendTo n c x).1 then 1 else 0) (p.sendTo n c x).2

/-- **An outbox is delivered exactly, and a fault stays where it is**, in every registry and with
    whatever the mailboxes hold. -/
theorem exactDeliveries (ε : Type) (p : Presence) : p.ExactDeliveries ε where
  committed outbox := ⟨_, _, rfl, p.notifyAll_exactly outbox⟩
  rebind old new outbox :=
    ⟨_, _, _, rfl, p.hasMoved_rebound old new, (p.rebound old new).notifyAll_exactly outbox⟩
  evict n outbox := by
    refine ⟨_, _, _, ?_, p.hasEvicted_evicted n, (p.evicted n).notifyAll_exactly outbox⟩
    have hcount : (p.sessionsOf n).length = (p.group n).length := List.length_map _
    rw [← hcount]
    rfl
  notify n x := p.notifyAll_exactly [(n, x)]
  notifyOthers := p.notifyOthers_exactly
  sendTo := p.sendTo_exactly

/-- Of two notices for one name a mailbox with room for one takes the first and its session loses the
    place; the session of another name gets its own. -/
example :
    let q : Name := ⟨"q", by decide⟩
    let r : Name := ⟨"r", by decide⟩
    let p := empty.calls [.open 1, .open 1, .register q ⟨0⟩, (.register r ⟨1⟩ : Call String)]
    let (taken, after) := p.notifyAll [(q, .update none), (r, .renamed q r), (q, .renamed q r)]
    taken = 2 ∧ after.waiting ⟨0⟩ = [.update none] ∧ after.waiting ⟨1⟩ = [.renamed q r] ∧
      after.isCancelled ⟨0⟩ = true ∧ after.sessionsOf q = [] ∧ after.sessionsOf r = [⟨1⟩] := by
  decide +kernel

end Amity.Presence
