/-
  Amity/Proofs/System/Deletion.lean
  =================================
  **Deleting a player leaves no trace and tells each peer once.**  A call for a name that is no
  player's answers so and changes nothing.  For a player it takes the name out of everything that is
  stored (`RemovedFrom`), takes the player's sessions out of the registry and tells them to end, and
  tells every peer once, however many ties there were between the two.

  The peers are read off the ties before the removal and told after it, when the sessions of the
  player are out already.  Since nobody is tied to himself, nobody who is told is among them.
-/
import Amity.Proofs.Database.Removal
import Amity.Proofs.Engine.Effects
import Amity.Proofs.System.Connections

namespace Amity

namespace Engine

/-! ## Who is told what -/

/-- What a connection is told when a player is deleted. -/
def deletionNews (e : Engine) (n : Name) (c : Connection) : List Notice :=
  match e.presence.nameOf? c with
  | none => []
  | some m =>
    if m ∈ (e.database.graph.ties n).friends then [.update (some n)]
    else if m ∈ (e.database.graph.ties n).sent ∨ m ∈ (e.database.graph.ties n).received then
      [.update none]
    else []

/-- Of the notices of a deletion each peer gets one. -/
theorem addressed_deleteOutbox (ties : Ties) (n m : Name) :
    (deleteOutbox ties n).addressed (some m) =
      if m ∈ ties.friends then [.update (some n)]
      else if m ∈ ties.sent ∨ m ∈ ties.received then [.update none]
      else [] := by
  refine (Outbox.addressed_each (Ties.nodup_firstOccurrences _) _ m).trans ?_
  have hpeer : m ∈ Ties.firstOccurrences (ties.friends ++ ties.sent ++ ties.received) ↔
      m ∈ ties.friends ∨ m ∈ ties.sent ∨ m ∈ ties.received := Ties.mem_peers
  simp only [hpeer]
  by_cases hfriend : m ∈ ties.friends
  · simp [hfriend]
  · simp [hfriend]

/-- What the deletion of a player leaves behind, as seen from the engine before. -/
structure Deletes (e : Engine) (n : Name) (e' : Engine) : Prop where
  stored : e.database.RemovedFrom n e'.database
  /-- The sessions of the player are out, have been told to end, and are told nothing else. -/
  ended : ∀ c, e.presence.nameOf? c = some n →
    e'.presence.Ended c ∧ e'.presence.waiting c = e.presence.waiting c
  owners : e'.presence.owners = e.presence.owners
  groups : e'.refusals = e.refusals → ∀ m, e'.presence.group m =
    if m = n then [] else e.presence.group m
  tokens : e'.refusals = e.refusals → ∀ c, e'.presence.isCancelled c =
    (e.presence.isCancelled c || decide (e.presence.nameOf? c = some n))
  waiting : e'.refusals = e.refusals → ∀ c, e'.presence.waiting c =
    e.presence.waiting c ++ e.deletionNews n c

/-! ## The call -/

section

variable {e : Engine} (h : e.WellFormed) {n : Name}
include h

/-- The news for those who are left in the registry, said by the names before. -/
theorem WellFormed.addressed_evicted (c : Connection) :
    (deleteOutbox (e.database.graph.ties n) n).addressed ((e.presence.evicted n).nameOf? c) =
      e.deletionNews n c := by
  rw [h.presence.nameOf?_evicted]
  unfold deletionNews
  by_cases hc : e.presence.nameOf? c = some n
  · obtain ⟨hfriends, hsent, hreceived⟩ := h.graph.irreflexive n
    simp [hc, hfriends, hsent, hreceived, Outbox.addressed_none]
  · rw [if_neg hc]
    cases hname : e.presence.nameOf? c with
    | none => exact Outbox.addressed_none _
    | some m => exact addressed_deleteOutbox _ n m

/-- For a name that is no player's nothing happens. -/
theorem WellFormed.deletePlayer_of_not_hasPlayer (hdb : e.database.WellFormed)
    (hn : e.hasPlayer n = false) : e.deletePlayer n = .ok (false, e) := by
  have hgroup := h.group_eq_nil hn
  have hoffline : e.presence.isOnline n = false := h.presence.isOnline_eq_false_iff.2 hgroup
  have hevict : (e.presence.evict n []).2 = e.presence := Presence.evict_of_offline hoffline
  unfold Engine.deletePlayer
  rw [hdb.delete_of_not_hasPlayer hn]
  simp [bind, Except.bind, pure, Except.pure, hevict]

theorem WellFormed.isCancelled_evicted (htended : e.presence.Tended) (c : Connection) :
    (e.presence.evicted n).isCancelled c =
      (e.presence.isCancelled c || decide (e.presence.nameOf? c = some n)) := by
  rw [h.presence.isCancelled_evicted]
  by_cases hc : e.presence.nameOf? c = some n
  · simp [hc, htended.boxed c (h.presence.arrived_of_nameOf? hc)]
  · simp [hc]

theorem WellFormed.continues_withoutPlayer (outbox : Outbox) (database : Database) :
    (e.presence.evicted n).Continues (e.withoutPlayer n outbox database).presence :=
  (h.presence.evicted n).continues_notifyAll outbox

theorem WellFormed.ended_withoutPlayer (htended : e.presence.Tended) {outbox : Outbox}
    {database : Database} {c : Connection} (hc : e.presence.nameOf? c = some n) :
    (e.withoutPlayer n outbox database).presence.Ended c ∧
      (e.withoutPlayer n outbox database).presence.waiting c = e.presence.waiting c := by
  have hout : (e.presence.evicted n).nameOf? c = none := by
    rw [h.presence.nameOf?_evicted, if_pos hc]
  have hafter : (e.withoutPlayer n outbox database).presence.WellFormed :=
    (h.presence.evicted n).deliver _
  have hdelivered := h.withoutPlayer_delivered n outbox database
  obtain ⟨hnone, htoken⟩ := (h.continues_withoutPlayer outbox database).nameOf?_eq_none hout
  rw [h.isCancelled_evicted htended] at htoken
  refine ⟨⟨hafter.nameOf?_eq_none_iff.1 hnone, ?_⟩, ?_⟩
  · simp [htoken, hc]
  · rw [hdelivered.waiting, hout, Outbox.addressed_none, Presence.waiting_evicted]
    simp

theorem WellFormed.withoutPlayer_deletes (htended : e.presence.Tended) {database : Database}
    (hstored : e.database.RemovedFrom n database) :
    e.Deletes n (e.withoutPlayer n (deleteOutbox (e.database.graph.ties n) n) database) where
  stored := hstored
  ended c hc := h.ended_withoutPlayer htended hc
  owners := (h.withoutPlayer_delivered n _ database).owners.trans (Presence.cancelAll_eq _ _).2.1
  groups hrefusals m := by
    rw [(h.withoutPlayer_posted hrefusals).group, Presence.group_evicted]
  tokens hrefusals c := by
    have hname := (h.withoutPlayer_posted hrefusals).nameOf? c
    rw [(h.continues_withoutPlayer _ database).isCancelled_of_isSome (congrArg Option.isSome hname),
      h.isCancelled_evicted htended]
  waiting hrefusals c := by
    rw [(h.withoutPlayer_posted hrefusals).waiting, Presence.waiting_evicted, h.addressed_evicted]

theorem WellFormed.deletePlayer_of_hasPlayer (hdb : e.database.WellFormed)
    (htended : e.presence.Tended) (hn : e.hasPlayer n = true) :
    ∃ e', e.deletePlayer n = .ok (true, e') ∧ e.Deletes n e' := by
  obtain ⟨database, hdelete, hstored⟩ := hdb.delete_of_hasPlayer hn
  refine ⟨_, ?_, h.withoutPlayer_deletes htended hstored⟩
  unfold Engine.deletePlayer
  rw [hdelete]
  rfl

end

end Engine

namespace System

/-- **Deleting a player leaves no trace and tells each peer once**, after whatever came from outside
    and for every name. -/
theorem deletes_run (capacity : Nat) (is : List Input) (n : Name) :
    ∃ gone e', ((start .empty capacity).run is).engine.deletePlayer n = .ok (gone, e') ∧
      (gone = true ↔ ((start .empty capacity).run is).engine.hasPlayer n = true) ∧
      (gone = false → e' = ((start .empty capacity).run is).engine) ∧
      (gone = true → ((start .empty capacity).run is).engine.Deletes n e') := by
  have horderly := (orderly_start capacity).run is
  have hengine := horderly.sound.wellFormed.engine
  cases hn : ((start .empty capacity).run is).engine.hasPlayer n with
  | false =>
    refine ⟨false, _, hengine.deletePlayer_of_not_hasPlayer horderly.sound.database hn, ?_⟩
    simp
  | true =>
    obtain ⟨e', hdelete, hdeletes⟩ :=
      hengine.deletePlayer_of_hasPlayer horderly.sound.database horderly.tended hn
    exact ⟨true, e', hdelete, by simp, nofun, fun _ => hdeletes⟩

end System

end Amity
