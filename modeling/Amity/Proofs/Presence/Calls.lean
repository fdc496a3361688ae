/-
  Amity/Proofs/Presence/Calls.lean
  ================================
  **The registry on its own.**  A `Call` is one use of the registry, or something that happens to a
  mailbox between two uses.  Whatever the commits give and whichever mailboxes are full or closed,
  the groups and the owner entries go on saying the same (`Coherent`), as long as no connection is
  registered under a second name while it is attached under a first.

  Every delivery can take sessions out of their groups, also in the middle of a renaming or a
  deletion, so each call is a change of the layout and then a delivery, and both keep
  `Presence.WellFormed`.
-/
import Mathlib.Data.Set.Card
import Amity.Proofs.Presence.Delivery

namespace Amity

theorem Table.mem_entries_iff {κ ν : Type} [DecidableEq κ] {t : Table κ ν} {k : κ} {v : ν} :
    (k, v) ∈ t.entries ↔ t.find? k = some v := by
  unfold find?
  constructor
  · intro hmem
    obtain ⟨before, later, heq⟩ := List.append_of_mem hmem
    refine List.lookup_eq_some_iff.2 ⟨before, later, heq, fun e he => ?_⟩
    have hdistinct := t.distinct
    rw [heq, List.map_append, List.nodup_append] at hdistinct
    simpa using Ne.symm (hdistinct.2.2 e.1 (List.mem_map_of_mem he) k (by simp))
  · intro hfind
    obtain ⟨before, later, heq, -⟩ := List.lookup_eq_some_iff.1 hfind
    rw [heq]
    exact List.mem_append_right _ List.mem_cons_self

namespace Presence

/-! ## The groups as entries -/

theorem sessionsOf_of_mem_entries {p : Presence} {e : Name × List Attachment}
    (he : e ∈ p.groups.entries) : p.sessionsOf e.1 = e.2.map (·.connection) := by
  unfold sessionsOf group
  rw [Table.mem_entries_iff.1 he]
  rfl

theorem mem_sessionsOf_iff {p : Presence} {n : Name} {c : Connection} :
    c ∈ p.sessionsOf n ↔ ∃ e ∈ p.groups.entries, e.1 = n ∧ c ∈ e.2.map (·.connection) := by
  constructor
  · intro hc
    cases hfind : p.groups.find? n with
    | none => simp [sessionsOf, group, hfind] at hc
    | some as =>
      have he := Table.mem_entries_iff.2 hfind
      rw [sessionsOf_of_mem_entries he] at hc
      exact ⟨_, he, rfl, hc⟩
  · rintro ⟨e, he, rfl, hc⟩
    rwa [sessionsOf_of_mem_entries he]

/-! ## Calls -/

/-- One use of the registry, or what happens to a mailbox meanwhile.  A commit gives the notices to
    deliver, or fails. -/
inductive Call (ε : Type) where
  /-- A connection comes, with a mailbox of this capacity. -/
  | open (capacity : Nat)
  | register (n : Name) (c : Connection)
  | unregister (c : Connection)
  | rebind (old new : Name) (commit : Except ε Outbox)
  | evict (n : Name) (commit : Except ε Outbox)
  | notifyResolved (commit : Except ε Outbox)
  | notify (n : Name) (x : Notice)
  | notifyOthers (n : Name) (skip : Connection) (x : Notice)
  | sendTo (n : Name) (c : Connection) (x : Notice)
  | setStatus (c : Connection) (s : Status)
  /-- The oldest notice that waits for a connection is taken out. -/
  | read (c : Connection)
  | drain (c : Connection)
  | close (c : Connection)

variable {ε : Type}

/-- The registry after a call; nobody can register a connection that has not come. -/
def call (p : Presence) : Call ε → Presence
  | .open capacity => (p.accept capacity).2
  | .register n c => if c.number < p.arrivals then p.attach n c else p
  | .unregister c => (p.detach c).2
  | .rebind old new commit => (p.afterCommit commit fun p outbox => p.rebind old new outbox).2
  | .evict n commit => (p.afterCommit commit fun p outbox => p.evict n outbox).2
  | .notifyResolved commit => (p.afterCommit commit notifyAll).2
  | .notify n x => (p.notify n x).2
  | .notifyOthers n skip x => (p.notifyOthers n skip x).2
  | .sendTo n c x => (p.sendTo n c x).2
  | .setStatus c s => p.setStatus c s
  | .read c => ((p.takeNotice c).map (·.2)).getD p
  | .drain c => (p.drain c).2
  | .close c => p.close c

/-- The registry after some calls, the first one first. -/
def calls (p : Presence) (cs : List (Call ε)) : Presence := cs.foldl call p

/-- A connection that is in some group is not registered under another name. -/
def Allows (p : Presence) : Call ε → Prop
  | .register n c => ∀ e ∈ p.groups.entries, c ∈ e.2.map (·.connection) → e.1 = n
  | _ => True

/-- Every one of the calls is allowed when it comes. -/
def AllowsAll (p : Presence) : List (Call ε) → Prop
  | [] => True
  | c :: cs => p.Allows c ∧ (p.call c).AllowsAll cs

instance (p : Presence) (c : Call ε) : Decidable (p.Allows c) := by
  cases c <;> dsimp only [Allows] <;> infer_instance

instance decidableAllowsAll : (p : Presence) → (cs : List (Call ε)) → Decidable (p.AllowsAll cs)
  | _, [] => instDecidableTrue
  | p, c :: cs => @instDecidableAnd _ _ _ (decidableAllowsAll (p.call c) cs)

/-! ## Registering -/

theorem group_register (p : Presence) (n : Name) (c : Connection) (m : Name) :
    (p.attach n c).group m =
      if m = n then withoutConnections [c] (p.group n) ++ [⟨c, .connected⟩] else p.group m :=
  group_setGroup p n m _

theorem eq_of_allows {p : Presence} {n m : Name} {c : Connection}
    (hallowed : p.Allows (.register (ε := ε) n c)) (hc : c ∈ p.sessionsOf m) : m = n := by
  obtain ⟨e, he, hm, hin⟩ := mem_sessionsOf_iff.1 hc
  exact hm.symm.trans (hallowed e he hin)

theorem sessionsOf_register (p : Presence) (n : Name) (c : Connection) (m : Name) :
    (p.attach n c).sessionsOf m =
      if m = n then (p.sessionsOf n).filter (· ∉ [c]) ++ [c] else p.sessionsOf m := by
  unfold sessionsOf
  rw [group_register]
  split
  · rw [List.map_append, map_connection_withoutConnections]
    rfl
  · rfl

section

variable {p : Presence} (h : p.WellFormed)
include h

theorem WellFormed.accept (capacity : Nat) : (p.accept capacity).2.WellFormed where
  nonempty := h.nonempty
  owner := h.owner
  nodup := h.nodup
  arrived c n hc := Nat.lt_succ_of_lt (h.arrived c n hc)

/-- A connection that has come is registered, for the first time or once more under its name. -/
theorem WellFormed.register {n : Name} {c : Connection} (hc : c.number < p.arrivals)
    (hallowed : p.Allows (.register (ε := ε) n c)) : (p.attach n c).WellFormed where
  nonempty := h.nonempty_setGroup n _
  owner m a ha := by
    have hmem : a.connection ∈ (p.attach n c).sessionsOf m := connection_mem_sessionsOf ha
    rw [sessionsOf_register] at hmem
    show (p.owners.insert c n).find? a.connection = some m
    rw [Table.find?_insert]
    by_cases hac : a.connection = c
    · rw [if_pos hac]
      split at hmem
      · next hm => rw [hm]
      · exact congrArg some (eq_of_allows hallowed (hac ▸ hmem)).symm
    · rw [if_neg hac]
      have hbefore : a.connection ∈ p.sessionsOf m := by
        split at hmem
        · next hm => simpa [hm, hac] using hmem
        · exact hmem
      exact owner_of_nameOf? (h.nameOf?_eq_some_iff.2 hbefore)
  nodup m := by
    rw [sessionsOf_register]
    split
    · rw [List.nodup_append]
      refine ⟨(h.nodup n).sublist List.filter_sublist, List.nodup_singleton c, ?_⟩
      rintro d hd e he rfl
      simp [List.mem_singleton.1 he] at hd
    · exact h.nodup m
  arrived d m hd := by
    have hd : (p.owners.insert c n).find? d = some m := hd
    rw [Table.find?_insert] at hd
    split at hd
    · next hdc => exact hdc ▸ hc
    · exact h.arrived d m hd

/-! ## Calls that deliver -/

/-- A group that moves under its own name stays where it is. -/
theorem WellFormed.rebound_self (n : Name) : (p.rebound n n).WellFormed := by
  have hgroup : ∀ m, (p.rebound n n).group m = p.group m := by
    intro m
    rw [group_rebound_eq, if_pos rfl, List.nil_append]
    split
    · next hm => rw [hm]
    · rfl
  have howners : ∀ c, (p.rebound n n).owners.find? c = p.owners.find? c := by
    intro c
    have hself : Ties.substitute n n = id := by
      funext k
      unfold Ties.substitute
      split
      · next hk => exact hk.symm
      · rfl
    rw [owner_rebound, hself, Option.map_id, id]
  refine h.of_removed [] (h.nonempty_rebound n n) (fun m => ?_) (fun c _ => howners c)
    (fun c m hc => ?_) (Nat.le_of_eq (arrivals_rebound p n n).symm)
  · rw [hgroup]
    simp [withoutConnections]
  · rwa [howners] at hc

theorem WellFormed.rebind (old new : Name) (outbox : Outbox) :
    (p.rebind old new outbox).2.WellFormed := by
  have hrebound : (p.rebound old new).WellFormed := by
    by_cases hne : old = new
    · subst hne
      exact h.rebound_self old
    · exact h.rebound hne
  exact hrebound.deliver _

theorem WellFormed.evict (n : Name) (outbox : Outbox) : (p.evict n outbox).2.WellFormed :=
  (h.evicted n).deliver _

theorem WellFormed.afterCommit {commit : Except ε Outbox}
    {change : Presence → Outbox → Nat × Presence}
    (hchange : ∀ outbox, (change p outbox).2.WellFormed) :
    (p.afterCommit commit change).2.WellFormed := by
  cases commit with
  | error => exact h
  | ok outbox => exact hchange outbox

theorem WellFormed.editBox (c : Connection) (f : Mailbox → Mailbox) : (p.editBox c f).WellFormed :=
  h.congr rfl rfl rfl

theorem WellFormed.call {c : Call ε} (hallowed : p.Allows c) : (p.call c).WellFormed := by
  cases c with
  | «open» capacity => exact h.accept capacity
  | register n c =>
    show (if c.number < p.arrivals then p.attach n c else p).WellFormed
    split
    · next hc => exact h.register hc hallowed
    · exact h
  | unregister c => exact h.detach c
  | rebind old new commit => exact h.afterCommit (h.rebind old new)
  | evict n commit => exact h.afterCommit (h.evict n)
  | notifyResolved commit => exact h.afterCommit fun _ => h.deliver _
  | notify n x => exact h.deliver _
  | notifyOthers n skip x => exact h.deliver _
  | sendTo n c x => exact h.sendTo n c x
  | setStatus c s => exact h.setStatus c s
  | read c =>
    show ((p.takeNotice c).map (·.2)).getD p |>.WellFormed
    unfold takeNotice
    split
    · exact h
    · exact h.editBox c _
  | drain c => exact h.editBox c _
  | close c => exact h.editBox c _

theorem WellFormed.calls {cs : List (Call ε)} (hallowed : p.AllowsAll cs) :
    (p.calls cs).WellFormed := by
  induction cs generalizing p with
  | nil => exact h
  | cons c cs ih => exact ih (h.call hallowed.1) hallowed.2

end

/-! ## What the groups and the owner entries say -/

/-- The connections of all groups, group by group. -/
def attached (p : Presence) : List Connection :=
  p.groups.entries.flatMap fun e => e.2.map (·.connection)

/-- The groups and the owner entries are two views of one thing: who is attached, under one name
    each. -/
structure Coherent (p : Presence) : Prop where
  nonempty : ∀ n as, p.groups.find? n = some as → as ≠ []
  /-- Over all groups no connection occurs twice. -/
  once : p.attached.Nodup
  owner : ∀ n, ∀ c ∈ p.sessionsOf n, p.owners.find? c = some n
  online : ∀ n, p.isOnline n = true ↔ p.sessionsOf n ≠ []
  inhabited : ∀ n, p.sessionsOf n ≠ [] ↔ ∃ c, p.nameOf? c = some n
  /-- The sessions of a name are the connections that stand under it, each of them once. -/
  sessions : ∀ n, (p.sessionsOf n).Nodup ∧ ∀ c, c ∈ p.sessionsOf n ↔ p.nameOf? c = some n
  count : {c | (p.nameOf? c).isSome = true}.encard = p.count

theorem length_attached (p : Presence) : p.attached.length = p.count := by
  simp [attached, count, List.length_flatMap]

section

variable {p : Presence} (h : p.WellFormed)
include h

theorem WellFormed.mem_attached_iff {c : Connection} :
    c ∈ p.attached ↔ (p.nameOf? c).isSome = true := by
  unfold Presence.attached
  rw [List.mem_flatMap, Option.isSome_iff_exists]
  constructor
  · rintro ⟨e, he, hc⟩
    rw [← sessionsOf_of_mem_entries he] at hc
    exact ⟨e.1, h.nameOf?_eq_some_iff.2 hc⟩
  · rintro ⟨n, hn⟩
    obtain ⟨e, he, -, hc⟩ := mem_sessionsOf_iff.1 (h.nameOf?_eq_some_iff.1 hn)
    exact ⟨e, he, hc⟩

/-- Groups of different names have nobody in common, since a connection has one owner entry. -/
theorem WellFormed.nodup_attached : p.attached.Nodup := by
  unfold Presence.attached
  rw [List.nodup_flatMap]
  constructor
  · intro e he
    rw [← sessionsOf_of_mem_entries he]
    exact h.nodup e.1
  · have hkeys : p.groups.entries.Pairwise fun e e' => e.1 ≠ e'.1 :=
      List.pairwise_map.1 p.groups.distinct
    refine hkeys.imp_of_mem fun {e e'} he he' hne c hc hc' => hne ?_
    dsimp only at hc hc'
    rw [← sessionsOf_of_mem_entries he, ← h.nameOf?_eq_some_iff] at hc
    rw [← sessionsOf_of_mem_entries he', ← h.nameOf?_eq_some_iff] at hc'
    exact Option.some.inj (hc.symm.trans hc')

theorem WellFormed.encard_attached : {c | (p.nameOf? c).isSome = true}.encard = p.count := by
  have hset : {c | (p.nameOf? c).isSome = true} = (p.attached.toFinset : Set Connection) := by
    ext c
    simp [← h.mem_attached_iff]
  rw [hset, Set.encard_coe_eq_coe_finsetCard, List.toFinset_card_of_nodup h.nodup_attached,
    length_attached]

theorem WellFormed.coherent : p.Coherent where
  nonempty := h.nonempty
  once := h.nodup_attached
  owner _ _ hc := owner_of_nameOf? (h.nameOf?_eq_some_iff.2 hc)
  online n := by
    rw [h.isOnline_iff, sessionsOf, ne_eq, ne_eq, List.map_eq_nil_iff]
  inhabited n := by
    constructor
    · intro hne
      exact (List.exists_mem_of_ne_nil _ hne).imp fun _ => h.nameOf?_eq_some_iff.2
    · rintro ⟨c, hc⟩
      exact List.ne_nil_of_mem (h.nameOf?_eq_some_iff.1 hc)
  sessions n := ⟨h.nodup n, fun _ => h.nameOf?_eq_some_iff.symm⟩
  count := h.encard_attached

end

/-- **Groups and owner entries agree**, whatever calls the registry has had. -/
theorem coherent_calls (cs : List (Call ε)) (hallowed : empty.AllowsAll cs) :
    (empty.calls cs).Coherent :=
  (wellFormed_empty.calls hallowed).coherent

/-! ### A renaming that loses sessions

Two groups become one while the only place in a mailbox is taken, so that a session of the new name
is dropped by the delivery; later a mailbox is closed, a dropped connection is registered again
under another name, a deletion fails, and a group moves under its own name. -/

def mergeAndDrop (q r : Name) : List (Call String) :=
  [.open 1, .open 1, .open 2, .register q ⟨0⟩, .register r ⟨1⟩, .register q ⟨2⟩,
    .notify r (.update none), .rebind q r (.ok [(r, .update none)]), .close ⟨2⟩,
    .register q ⟨1⟩, .setStatus ⟨0⟩ .inGame, .evict r (.error "down"), .register r ⟨0⟩,
    .notifyOthers r ⟨0⟩ (.update none), .rebind r r (.ok [])]

theorem coherent_calls_mergeAndDrop :
    (empty.calls (mergeAndDrop ⟨"q", by decide⟩ ⟨"r", by decide⟩)).Coherent :=
  coherent_calls (mergeAndDrop ⟨"q", by decide⟩ ⟨"r", by decide⟩) (by decide +kernel)

end Presence

end Amity
