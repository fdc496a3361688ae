/-
  Amity/Proofs/Presence/Delivery.lean
  ===================================
  **What a delivery keeps, and whom it is for.**  A notice that is taken goes behind what already
  waits; a notice that is refused costs its connection the place in the group.  Nobody comes to be
  attached by a delivery, and no owner entry changes.  The registry counts the refused notices, and
  the count never falls, so that a delivery after which the count is what it was took every notice.

  Notices are addressed to names and arrive at connections; `newsFor_resolve` goes from one to the
  other, which needs that a connection is in one group only.
-/
import Mathlib.Data.List.Count
import Amity.Proofs.Presence.Registry

namespace Amity

/-- The notices of an outbox for whoever has this name. -/
def Outbox.addressed (outbox : Outbox) (n : Option Name) : List Notice :=
  (outbox.filter fun e => n = some e.1).map (·.2)

theorem Outbox.addressed_none (outbox : Outbox) : outbox.addressed none = [] := by
  simp [addressed]

theorem Outbox.addressed_cons (m : Name) (x : Notice) (outbox : Outbox) (n : Option Name) :
    Outbox.addressed ((m, x) :: outbox) n =
      if n = some m then x :: outbox.addressed n else outbox.addressed n := by
  by_cases hn : n = some m <;> simp [addressed, hn]

theorem Outbox.mem_addressed {outbox : Outbox} {n : Option Name} {x : Notice} :
    x ∈ outbox.addressed n ↔ ∃ m, n = some m ∧ (m, x) ∈ outbox := by
  simp only [addressed, List.mem_map, List.mem_filter, decide_eq_true_eq]
  constructor
  · rintro ⟨⟨m, y⟩, ⟨hmem, hn⟩, rfl⟩
    exact ⟨m, hn, hmem⟩
  · rintro ⟨m, hn, hmem⟩
    exact ⟨(m, x), ⟨hmem, hn⟩, rfl⟩

namespace Presence

/-! ## Mailboxes and counts -/

theorem find?_boxes_cancelAll (cs : List Connection) (p : Presence) (d : Connection) :
    (cancelAll cs p).boxes.find? d =
      (p.boxes.find? d).map fun b => if d ∈ cs then b.cancel else b := by
  unfold cancelAll
  induction cs generalizing p with
  | nil => simp
  | cons c cs ih =>
    refine (ih (p.editBox c Mailbox.cancel)).trans ?_
    unfold editBox
    rw [Table.find?_modify]
    by_cases hd : d = c
    · subst hd
      cases p.boxes.find? d <;> simp [Mailbox.cancel]
    · simp [hd]

theorem waiting_cancelAll (cs : List Connection) (p : Presence) (c : Connection) :
    (cancelAll cs p).waiting c = p.waiting c := by
  unfold waiting
  rw [find?_boxes_cancelAll]
  cases p.boxes.find? c with
  | none => rfl
  | some b => by_cases hc : c ∈ cs <;> simp [hc, Mailbox.cancel]

/-! ### What waits while the registry changes -/

theorem waiting_editBox {p : Presence} {c : Connection} {x : Notice} {xs : List Notice}
    (h : p.waiting c = x :: xs) (ys : List Notice) (d : Connection) :
    (p.editBox c fun b => { b with items := ys }).waiting d =
      if d = c then ys else p.waiting d := by
  unfold waiting at h ⊢
  unfold editBox
  rw [Table.find?_modify]
  by_cases hd : d = c
  · subst hd
    cases hfind : p.boxes.find? d with
    | none => simp [hfind] at h
    | some b => simp
  · simp [hd]

theorem waiting_close (p : Presence) (c d : Connection) :
    (p.close c).waiting d = if d = c then [] else p.waiting d := by
  unfold waiting close editBox
  rw [Table.find?_modify]
  by_cases hd : d = c
  · subst hd
    cases hfind : p.boxes.find? d <;> simp [Mailbox.closed]
  · simp [hd]

theorem waiting_attach (p : Presence) (n : Name) (capacity : Nat) (c : Connection) :
    ((p.accept capacity).2.attach n ⟨p.arrivals⟩).waiting c =
      if c = ⟨p.arrivals⟩ then [] else p.waiting c := by
  have hboxes : ((p.accept capacity).2.attach n ⟨p.arrivals⟩).boxes =
      p.boxes.insert ⟨p.arrivals⟩ (.fresh capacity) := rfl
  unfold waiting
  rw [hboxes, Table.find?_insert]
  by_cases hc : c = ⟨p.arrivals⟩
  · simp [hc, Mailbox.fresh]
  · simp [hc]

theorem waiting_of_boxes {p q : Presence} (h : q.boxes = p.boxes) (c : Connection) :
    q.waiting c = p.waiting c := by
  unfold waiting
  rw [h]

theorem waiting_detach (p : Presence) (c d : Connection) :
    (p.detach c).2.waiting d = p.waiting d := by
  unfold detach
  split <;> rfl

theorem waiting_setStatus (p : Presence) (c : Connection) (s : Status) (d : Connection) :
    (p.setStatus c s).waiting d = p.waiting d := by
  unfold setStatus
  split <;> rfl

theorem waiting_evicted (p : Presence) (n : Name) (c : Connection) :
    (p.evicted n).waiting c = p.waiting c :=
  waiting_cancelAll _ _ c

theorem waiting_rebound (p : Presence) (old new : Name) (c : Connection) :
    (p.rebound old new).waiting c = p.waiting c := by
  refine waiting_of_boxes ?_ c
  unfold rebound
  split <;> rfl

/-! ### The counts while the registry changes -/

theorem refusals_detach (p : Presence) (c : Connection) :
    (p.detach c).2.refusals = p.refusals := by
  unfold detach
  split <;> rfl

theorem arrivals_detach (p : Presence) (c : Connection) :
    (p.detach c).2.arrivals = p.arrivals := by
  unfold detach
  split <;> rfl

theorem refusals_setStatus (p : Presence) (c : Connection) (s : Status) :
    (p.setStatus c s).refusals = p.refusals := by
  unfold setStatus
  split <;> rfl

theorem refusals_rebound (p : Presence) (old new : Name) :
    (p.rebound old new).refusals = p.refusals := by
  unfold rebound
  split <;> rfl

theorem arrivals_rebound (p : Presence) (old new : Name) :
    (p.rebound old new).arrivals = p.arrivals := by
  unfold rebound
  split <;> rfl

theorem refusals_evicted (p : Presence) (n : Name) : (p.evicted n).refusals = p.refusals :=
  (cancelAll_eq _ _).2.2.2

theorem arrivals_evicted (p : Presence) (n : Name) : (p.evicted n).arrivals = p.arrivals :=
  (cancelAll_eq _ _).2.2.1

/-! ### What a delivery keeps -/

theorem post_eq (p : Presence) (c : Connection) (x : Notice) :
    (p.post c x).2.groups = p.groups ∧ (p.post c x).2.owners = p.owners ∧
      (p.post c x).2.arrivals = p.arrivals ∧ (p.post c x).2.refusals = p.refusals := by
  unfold post
  split <;> exact ⟨rfl, rfl, rfl, rfl⟩

theorem postAll_cons (c : Connection) (x : Notice) (targets : List (Connection × Notice))
    (p : Presence) :
    postAll ((c, x) :: targets) p =
      if (p.post c x).1 then
        ((postAll targets (p.post c x).2).1 + 1, (postAll targets (p.post c x).2).2)
      else
        ((postAll targets (p.post c x).2).1, c :: (postAll targets (p.post c x).2).2.1,
          (postAll targets (p.post c x).2).2.2) := rfl

theorem postAll_eq (targets : List (Connection × Notice)) (p : Presence) :
    (postAll targets p).2.2.groups = p.groups ∧ (postAll targets p).2.2.owners = p.owners ∧
      (postAll targets p).2.2.arrivals = p.arrivals ∧
      (postAll targets p).2.2.refusals = p.refusals := by
  induction targets generalizing p with
  | nil => exact ⟨rfl, rfl, rfl, rfl⟩
  | cons t targets ih =>
    obtain ⟨c, x⟩ := t
    obtain ⟨hgroups, howners, harrivals, hrefusals⟩ := post_eq p c x
    rw [← hgroups, ← howners, ← harrivals, ← hrefusals, postAll_cons]
    split
    · exact ih _
    · exact ih _

/-- The registry after some notices have been posted, before anybody is dropped. -/
def afterPosts (p : Presence) (targets : List (Connection × Notice)) : Presence :=
  { (postAll targets p).2.2 with
    refusals := (postAll targets p).2.2.refusals + (postAll targets p).2.1.length }

theorem deliver_eq (p : Presence) (targets : List (Connection × Notice)) :
    p.deliver targets =
      ((postAll targets p).1,
        if (postAll targets p).2.1.isEmpty then p.afterPosts targets
        else (p.afterPosts targets).dropSessions (postAll targets p).2.1) := rfl

theorem refusals_deliver (p : Presence) (targets : List (Connection × Notice)) :
    (p.deliver targets).2.refusals = p.refusals + (postAll targets p).2.1.length := by
  have hposts : (p.afterPosts targets).refusals = p.refusals + (postAll targets p).2.1.length := by
    rw [← (postAll_eq targets p).2.2.2]
    rfl
  rw [deliver_eq, ← hposts]
  dsimp only
  split
  · rfl
  · exact (cancelAll_eq _ _).2.2.2

theorem arrivals_deliver (p : Presence) (targets : List (Connection × Notice)) :
    (p.deliver targets).2.arrivals = p.arrivals := by
  rw [← (postAll_eq targets p).2.2.1, deliver_eq]
  dsimp only
  split
  · rfl
  · exact (cancelAll_eq _ _).2.2.1

/-- The counts of the registry only grow. -/
structure Precedes (p q : Presence) : Prop where
  refusals : p.refusals ≤ q.refusals
  arrivals : p.arrivals ≤ q.arrivals

theorem Precedes.refl (p : Presence) : p.Precedes p := ⟨Nat.le_refl _, Nat.le_refl _⟩

theorem Precedes.trans {p q r : Presence} (h : p.Precedes q) (h' : q.Precedes r) : p.Precedes r :=
  ⟨Nat.le_trans h.refusals h'.refusals, Nat.le_trans h.arrivals h'.arrivals⟩

theorem Precedes.of_eq {p q : Presence} (hrefusals : q.refusals = p.refusals)
    (harrivals : q.arrivals = p.arrivals) : p.Precedes q :=
  ⟨Nat.le_of_eq hrefusals.symm, Nat.le_of_eq harrivals.symm⟩

theorem precedes_deliver (p : Presence) (targets : List (Connection × Notice)) :
    p.Precedes (p.deliver targets).2 where
  refusals := by
    rw [refusals_deliver]
    exact Nat.le_add_right _ _
  arrivals := Nat.le_of_eq (arrivals_deliver p targets).symm

theorem WellFormed.deliver {p : Presence} (h : p.WellFormed)
    (targets : List (Connection × Notice)) : (p.deliver targets).2.WellFormed := by
  obtain ⟨hgroups, howners, harrivals, -⟩ := postAll_eq targets p
  have hposts : (p.afterPosts targets).WellFormed := h.congr hgroups howners harrivals
  rw [deliver_eq]
  dsimp only
  split
  · exact hposts
  · exact hposts.dropSessions _

/-- A delivery attaches nobody. -/
theorem WellFormed.nameOf?_of_deliver {p : Presence} (h : p.WellFormed)
    {targets : List (Connection × Notice)} {c : Connection} {n : Name}
    (hc : (p.deliver targets).2.nameOf? c = some n) : p.nameOf? c = some n := by
  obtain ⟨hgroups, howners, harrivals, -⟩ := postAll_eq targets p
  have hposts : (p.afterPosts targets).WellFormed := h.congr hgroups howners harrivals
  have hname : (p.afterPosts targets).nameOf? c = p.nameOf? c :=
    nameOf?_of_groups_owners hgroups howners c
  rw [← hname]
  rw [deliver_eq] at hc
  dsimp only at hc
  split at hc
  · exact hc
  · rw [hposts.nameOf?_removed (hposts.dropSessions _) (group_dropSessions _)] at hc
    split at hc
    · cases hc
    · exact hc

/-! ## From names to connections -/

/-- The notices of a list for one connection. -/
def newsFor (targets : List (Connection × Notice)) (c : Connection) : List Notice :=
  (targets.filter (·.1 = c)).map (·.2)

theorem newsFor_single (c : Connection) (x : Notice) (d : Connection) :
    newsFor [(c, x)] d = if d = c then [x] else [] := by
  by_cases hd : d = c
  · simp [newsFor, hd]
  · simp [newsFor, hd, Ne.symm hd]

theorem newsFor_append (first second : List (Connection × Notice)) (c : Connection) :
    newsFor (first ++ second) c = newsFor first c ++ newsFor second c := by
  simp [newsFor]

theorem newsFor_cons (c : Connection) (x : Notice) (targets : List (Connection × Notice))
    (d : Connection) :
    newsFor ((c, x) :: targets) d = newsFor [(c, x)] d ++ newsFor targets d :=
  newsFor_append [(c, x)] targets d

/-- Of one notice for a list of places, a connection gets one copy for each of its places. -/
theorem newsFor_replicate (cs : List Connection) (x : Notice) (c : Connection) :
    newsFor (cs.map (·, x)) c = List.replicate (cs.count c) x := by
  induction cs with
  | nil => rfl
  | cons d cs ih =>
    rw [List.map_cons, newsFor_cons, ih, newsFor_single, List.count_cons]
    by_cases hd : c = d
    · subst hd
      simp [List.replicate_succ]
    · simp [hd, Ne.symm hd]

/-- Of a notice for a list of connections, each connection of the list gets one. -/
theorem newsFor_map {cs : List Connection} (h : cs.Nodup) (x : Notice) (c : Connection) :
    newsFor (cs.map (·, x)) c = if c ∈ cs then [x] else [] := by
  rw [newsFor_replicate, h.count]
  split <;> rfl

section

variable {p : Presence} (h : p.WellFormed)
include h

theorem WellFormed.newsFor_resolve (outbox : Outbox) (c : Connection) :
    newsFor (p.resolve outbox) c = outbox.addressed (p.nameOf? c) := by
  induction outbox with
  | nil => rfl
  | cons e outbox ih =>
    obtain ⟨n, x⟩ := e
    have hfirst : newsFor ((p.group n).map fun a => (a.connection, x)) c =
        if p.nameOf? c = some n then [x] else [] := by
      have hmap := newsFor_map (h.nodup n) x c
      rw [sessionsOf, List.map_map] at hmap
      refine hmap.trans ?_
      simp only [h.nameOf?_eq_some_iff]
      rfl
    unfold resolve at ih ⊢
    rw [List.flatMap_cons, newsFor_append, ih, hfirst]
    unfold Outbox.addressed
    by_cases hn : p.nameOf? c = some n <;> simp [hn]

theorem WellFormed.newsFor_others (n : Name) (skip : Connection) (x : Notice) (c : Connection) :
    newsFor ((withoutConnections [skip] (p.group n)).map fun a => (a.connection, x)) c =
      if p.nameOf? c = some n ∧ c ≠ skip then [x] else [] := by
  have hothers : (((p.group n).map (·.connection)).filter (· ∉ [skip])).Nodup :=
    (h.nodup n).sublist List.filter_sublist
  have hmap := newsFor_map hothers x c
  rw [← map_connection_withoutConnections, List.map_map] at hmap
  refine hmap.trans ?_
  simp only [connection_mem_withoutConnections, h.nameOf?_eq_some_iff, sessionsOf,
    List.mem_singleton, ne_eq]

end

theorem precedes_sendTo (p : Presence) (n : Name) (c : Connection) (x : Notice) :
    p.Precedes (p.sendTo n c x).2 := by
  unfold sendTo
  split
  · exact precedes_deliver p [(c, x)]
  · exact .refl p

theorem WellFormed.nameOf?_of_sendTo {p : Presence} (h : p.WellFormed) {m n : Name}
    {c d : Connection} {x : Notice} (hd : (p.sendTo m c x).2.nameOf? d = some n) :
    p.nameOf? d = some n := by
  unfold Presence.sendTo at hd
  split at hd
  · have hdelivered : (p.deliver [(c, x)]).2.nameOf? d = some n := hd
    exact h.nameOf?_of_deliver hdelivered
  · exact hd

theorem WellFormed.sendTo {p : Presence} (h : p.WellFormed) (n : Name) (c : Connection)
    (x : Notice) : (p.sendTo n c x).2.WellFormed := by
  unfold Presence.sendTo
  split
  · exact h.deliver [(c, x)]
  · exact h

end Presence

end Amity
