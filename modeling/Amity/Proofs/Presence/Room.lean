/-
  Amity/Proofs/Presence/Room.lean
  ===============================
  **Deliveries that meet full mailboxes.**  The room of a connection is the number of notices that
  its mailbox still takes; a mailbox that nobody reads has none.  Of the news for a connection as
  many arrive as there is room for, the first ones first, and a connection that has too little
  room loses its place in the group.  `Delivered` says so of a whole delivery.

  Deliveries compose: whoever had too little room for the first has none left for the second.  So
  the news of several deliveries can be counted together.  A delivery in which nothing is refused
  is `Posted`: all the news arrive, and groups and owner entries are as they were.
-/
import Amity.Proofs.Presence.Delivery

namespace Amity

/-- How many more notices a mailbox takes. -/
def Mailbox.room (b : Mailbox) : Nat := if b.isOpen then b.capacity - b.items.length else 0

theorem Mailbox.post?_eq (b : Mailbox) (x : Notice) :
    b.post? x = if 0 < b.room then some { b with items := b.items ++ [x] } else none := by
  unfold post? room
  by_cases hopen : b.isOpen = true
  · simp only [hopen, true_and, if_true, Nat.sub_pos_iff_lt]
  · simp [hopen]

/-- The mailbox after some notices have come, of which it takes as many as it has room for. -/
def Mailbox.receive (b : Mailbox) (xs : List Notice) : Mailbox :=
  { b with items := b.items ++ xs.take b.room }

theorem Mailbox.receive_nil (b : Mailbox) : b.receive [] = b := by simp [receive]

theorem Mailbox.room_receive (b : Mailbox) (xs : List Notice) :
    (b.receive xs).room = b.room - xs.length := by
  simp only [room, receive]
  split
  · rw [List.length_append, List.length_take]
    omega
  · rw [Nat.zero_sub]

theorem Mailbox.receive_append (b : Mailbox) (xs ys : List Notice) :
    b.receive (xs ++ ys) = (b.receive xs).receive ys := by
  have hroom := b.room_receive xs
  unfold receive at hroom ⊢
  rw [hroom, List.take_append, List.append_assoc]

/-- The mailbox after a delivery.  With less room than news its connection is told to end. -/
def Mailbox.delivered (b : Mailbox) (xs : List Notice) : Mailbox :=
  { b.receive xs with cancelled := b.cancelled || decide (b.room < xs.length) }

namespace Presence

/-- How many more notices the mailbox of a connection takes. -/
def room (p : Presence) (c : Connection) : Nat :=
  match p.boxes.find? c with
  | some b => b.room
  | none => 0

/-! ## Posting -/

theorem post_fst_iff {p : Presence} {c : Connection} {x : Notice} :
    (p.post c x).1 = true ↔ 0 < p.room c := by
  unfold post room
  cases hfind : p.boxes.find? c with
  | none => simp
  | some b =>
    rw [Option.bind_some, Mailbox.post?_eq]
    by_cases hroom : 0 < b.room <;> simp [hroom]

theorem room_eq (p : Presence) (c : Connection) :
    p.room c = ((p.boxes.find? c).map Mailbox.room).getD 0 := by
  unfold room
  cases p.boxes.find? c <;> rfl

theorem waiting_eq (p : Presence) (c : Connection) :
    p.waiting c = ((p.boxes.find? c).map (·.items)).getD [] := by
  unfold waiting
  cases p.boxes.find? c <;> rfl

/-- A post reaches one mailbox, which takes the notice if it has room. -/
theorem find?_boxes_post (p : Presence) (c : Connection) (x : Notice) (d : Connection) :
    (p.post c x).2.boxes.find? d =
      (p.boxes.find? d).map (·.receive (newsFor [(c, x)] d)) := by
  rw [newsFor_single]
  unfold post
  by_cases hd : d = c
  · subst hd
    cases hfind : p.boxes.find? d with
    | none => simp [hfind]
    | some b =>
      rw [Option.bind_some, Mailbox.post?_eq]
      by_cases hroom : 0 < b.room
      · simp [hroom, Table.find?_insert, Mailbox.receive, List.take_of_length_le,
          Nat.succ_le_of_lt]
      · simp [hfind, Mailbox.receive, Nat.eq_zero_of_not_pos hroom]
  · rw [if_neg hd]
    simp only [Mailbox.receive_nil, Option.map_id']
    split
    · exact (Table.find?_insert _ _ _ _).trans (if_neg hd)
    · rfl

theorem room_post (p : Presence) (c : Connection) (x : Notice) (d : Connection) :
    (p.post c x).2.room d = p.room d - (newsFor [(c, x)] d).length := by
  rw [room_eq, room_eq, find?_boxes_post]
  cases p.boxes.find? d with
  | none => exact (Nat.zero_sub _).symm
  | some b => exact b.room_receive _

theorem snd_postAll_cons (c : Connection) (x : Notice) (targets : List (Connection × Notice))
    (p : Presence) :
    (postAll ((c, x) :: targets) p).2.2 = (postAll targets (p.post c x).2).2.2 := by
  rw [postAll_cons]
  split <;> rfl

/-- Each mailbox has what there was for it, as far as there was room. -/
theorem find?_boxes_postAll (targets : List (Connection × Notice)) (p : Presence)
    (d : Connection) :
    (postAll targets p).2.2.boxes.find? d =
      (p.boxes.find? d).map (·.receive (newsFor targets d)) := by
  induction targets generalizing p with
  | nil =>
    have hnone : newsFor [] d = [] := rfl
    simp only [postAll, hnone, Mailbox.receive_nil, Option.map_id']
  | cons t targets ih =>
    obtain ⟨c, x⟩ := t
    rw [snd_postAll_cons, ih, find?_boxes_post, newsFor_cons c x targets, Option.map_map]
    simp only [Function.comp_def, Mailbox.receive_append]

/-- The connections that refuse a notice are those that have less room than news. -/
theorem mem_refusing_iff (targets : List (Connection × Notice)) (p : Presence) (d : Connection) :
    d ∈ (postAll targets p).2.1 ↔ p.room d < (newsFor targets d).length := by
  induction targets generalizing p with
  | nil => simp [postAll, newsFor]
  | cons t targets ih =>
    obtain ⟨c, x⟩ := t
    have hlater := ih (p.post c x).2
    rw [room_post] at hlater
    rw [newsFor_cons c x targets, List.length_append, postAll_cons]
    by_cases htaken : (p.post c x).1 = true
    · rw [if_pos htaken]
      refine hlater.trans ?_
      by_cases hd : d = c
      · subst hd
        have hroom : 0 < p.room d := post_fst_iff.1 htaken
        simp only [newsFor_single, if_true, List.length_singleton]
        omega
      · simp [newsFor_single, hd]
    · rw [if_neg htaken]
      refine List.mem_cons.trans ?_
      rw [hlater]
      by_cases hd : d = c
      · subst hd
        have hroom : p.room d = 0 := Nat.eq_zero_of_not_pos (mt post_fst_iff.2 htaken)
        simp only [newsFor_single, if_true, List.length_singleton, true_or, true_iff]
        omega
      · simp [newsFor_single, hd]

/-! ## Delivering -/

theorem group_deliver (p : Presence) (targets : List (Connection × Notice)) (n : Name) :
    (p.deliver targets).2.group n =
      (p.group n).filter fun a => (newsFor targets a.connection).length ≤ p.room a.connection := by
  have hposts : (p.afterPosts targets).group n = p.group n :=
    group_of_groups (postAll_eq targets p).1 n
  have hkept : withoutConnections (postAll targets p).2.1 (p.group n) =
      (p.group n).filter fun a =>
        (newsFor targets a.connection).length ≤ p.room a.connection := by
    refine List.filter_congr fun a _ => ?_
    simp only [mem_refusing_iff, Nat.not_lt]
  rw [← hkept, deliver_eq]
  dsimp only
  split
  · next hnone =>
    rw [List.isEmpty_iff.1 hnone, hposts]
    simp [withoutConnections]
  · rw [group_dropSessions, hposts]

/-- A delivery is said mailbox by mailbox by what it does to each. -/
theorem find?_boxes_deliver (p : Presence) (targets : List (Connection × Notice))
    (d : Connection) :
    (p.deliver targets).2.boxes.find? d =
      (p.boxes.find? d).map (·.delivered (newsFor targets d)) := by
  have hposts : (p.afterPosts targets).boxes.find? d =
      (p.boxes.find? d).map (·.receive (newsFor targets d)) :=
    find?_boxes_postAll targets p d
  have hdropped : (p.deliver targets).2.boxes.find? d =
      ((p.afterPosts targets).boxes.find? d).map fun b =>
        if d ∈ (postAll targets p).2.1 then b.cancel else b := by
    rw [deliver_eq]
    dsimp only
    split
    · next hnone => simp [List.isEmpty_iff.1 hnone]
    · exact find?_boxes_cancelAll _ _ d
  rw [hdropped, hposts, Option.map_map]
  cases hfind : p.boxes.find? d with
  | none => rfl
  | some b =>
    have hroom : p.room d = b.room := by rw [room_eq, hfind]; rfl
    simp only [mem_refusing_iff, hroom, Option.map_some, Function.comp_apply, Mailbox.delivered]
    by_cases hfull : b.room < (newsFor targets d).length
    · simp [hfull, Mailbox.cancel]
    · simp [hfull, Mailbox.receive]

theorem waiting_deliver (p : Presence) (targets : List (Connection × Notice)) (c : Connection) :
    (p.deliver targets).2.waiting c = p.waiting c ++ (newsFor targets c).take (p.room c) := by
  rw [room_eq, waiting_eq, waiting_eq, find?_boxes_deliver]
  cases p.boxes.find? c with
  | none => simp
  | some b => rfl

theorem room_deliver (p : Presence) (targets : List (Connection × Notice)) (c : Connection) :
    (p.deliver targets).2.room c = p.room c - (newsFor targets c).length := by
  rw [room_eq, room_eq, find?_boxes_deliver]
  cases p.boxes.find? c with
  | none => exact (Nat.zero_sub _).symm
  | some b => exact b.room_receive _

theorem owners_deliver (p : Presence) (targets : List (Connection × Notice)) :
    (p.deliver targets).2.owners = p.owners := by
  rw [← (postAll_eq targets p).2.1, deliver_eq]
  dsimp only
  split
  · rfl
  · exact (cancelAll_eq _ _).2.1

theorem owners_sendTo (p : Presence) (n : Name) (c : Connection) (x : Notice) :
    (p.sendTo n c x).2.owners = p.owners := by
  unfold sendTo
  split
  · exact owners_deliver p [(c, x)]
  · rfl

/-- Each connection got what there was room for, and who had too little room is gone. -/
structure Delivered (p : Presence) (news : Connection → List Notice) (q : Presence) : Prop where
  owners : q.owners = p.owners
  arrivals : q.arrivals = p.arrivals
  group : ∀ n, q.group n = (p.group n).filter fun a =>
    (news a.connection).length ≤ p.room a.connection
  waiting : ∀ c, q.waiting c = p.waiting c ++ (news c).take (p.room c)
  room : ∀ c, q.room c = p.room c - (news c).length
  refusals : p.refusals ≤ q.refusals
  /-- When no refusal is counted, there was room for everything. -/
  complete : q.refusals = p.refusals → ∀ c, (news c).length ≤ p.room c
  intact : q.refusals = p.refusals → q.groups = p.groups

theorem deliver_delivered (p : Presence) (targets : List (Connection × Notice)) :
    p.Delivered (newsFor targets) (p.deliver targets).2 where
  owners := owners_deliver p targets
  arrivals := arrivals_deliver p targets
  group := group_deliver p targets
  waiting := waiting_deliver p targets
  room := room_deliver p targets
  refusals := (precedes_deliver p targets).refusals
  complete h c := by
    rw [refusals_deliver, Nat.add_eq_left, List.length_eq_zero_iff] at h
    have hkept : c ∉ (postAll targets p).2.1 := h ▸ List.not_mem_nil
    rw [mem_refusing_iff] at hkept
    exact Nat.le_of_not_lt hkept
  intact h := by
    rw [refusals_deliver, Nat.add_eq_left, List.length_eq_zero_iff] at h
    rw [deliver_eq, h]
    exact (postAll_eq targets p).1

/-- Each connection has some more notices in its mailbox, and nothing else has changed. -/
structure Posted (p : Presence) (news : Connection → List Notice) (q : Presence) : Prop where
  groups : q.groups = p.groups
  owners : q.owners = p.owners
  arrivals : q.arrivals = p.arrivals
  waiting : ∀ c, q.waiting c = p.waiting c ++ news c

section

variable {p q : Presence} {news : Connection → List Notice}

theorem Posted.nameOf? (h : p.Posted news q) (c : Connection) : q.nameOf? c = p.nameOf? c :=
  nameOf?_of_groups_owners h.groups h.owners c

theorem Posted.group (h : p.Posted news q) (n : Name) : q.group n = p.group n :=
  group_of_groups h.groups n

theorem Posted.statusOf (h : p.Posted news q) (n : Name) : q.statusOf n = p.statusOf n :=
  statusOf_of_group (h.group n)

/-- A delivery in which nothing is refused. -/
theorem Delivered.posted (h : p.Delivered news q) (hrefusals : q.refusals = p.refusals) :
    p.Posted news q where
  groups := h.intact hrefusals
  owners := h.owners
  arrivals := h.arrivals
  waiting c := by rw [h.waiting, List.take_of_length_le (h.complete hrefusals c)]

end

namespace Delivered

variable {p q r : Presence} {news more later : Connection → List Notice}

theorem refl (p : Presence) : p.Delivered (fun _ => []) p where
  owners := rfl
  arrivals := rfl
  group n := by simp
  waiting c := by simp
  room c := rfl
  refusals := Nat.le_refl _
  complete _ _ := Nat.zero_le _
  intact _ := rfl

/-- Two deliveries, one after the other.  Who had too little room for the first gets nothing of the
    second, so that there it does not matter what the second had for them. -/
theorem trans (h : p.Delivered news q) (h' : q.Delivered later r)
    (hmore : ∀ c, (news c).length ≤ p.room c → more c = later c) :
    p.Delivered (fun c => news c ++ more c) r where
  owners := h'.owners.trans h.owners
  arrivals := h'.arrivals.trans h.arrivals
  group n := by
    rw [h'.group, h.group, List.filter_filter]
    refine List.filter_congr fun a _ => ?_
    rw [h.room, List.length_append, ← Bool.decide_and]
    refine decide_eq_decide.2 ?_
    by_cases hroom : (news a.connection).length ≤ p.room a.connection
    · rw [hmore _ hroom]
      omega
    · omega
  waiting c := by
    rw [h'.waiting, h.waiting, h.room, List.take_append, List.append_assoc]
    by_cases hroom : (news c).length ≤ p.room c
    · rw [hmore c hroom]
    · have hfull : p.room c - (news c).length = 0 := by omega
      rw [hfull, List.take_zero, List.take_zero]
  room c := by
    rw [h'.room, h.room, List.length_append]
    by_cases hroom : (news c).length ≤ p.room c
    · rw [hmore c hroom, Nat.sub_sub]
    · omega
  refusals := Nat.le_trans h.refusals h'.refusals
  complete hrefusals c := by
    have hq := Nat.le_antisymm (hrefusals ▸ h'.refusals) h.refusals
    have hfirst := h.complete hq c
    have hsecond := h'.complete (hrefusals.trans hq.symm) c
    rw [h.room] at hsecond
    rw [List.length_append, hmore c hfirst]
    omega
  intact hrefusals := by
    have hq := Nat.le_antisymm (hrefusals ▸ h'.refusals) h.refusals
    exact (h'.intact (hrefusals.trans hq.symm)).trans (h.intact hq)

/-- What arrives is part of the news. -/
theorem arriving (h : p.Delivered news q) (c : Connection) :
    ∃ arrived, q.waiting c = p.waiting c ++ arrived ∧ ∀ x ∈ arrived, x ∈ news c :=
  ⟨_, h.waiting c, fun _ => List.mem_of_mem_take⟩

variable (hp : p.WellFormed) (hq : q.WellFormed)
include hp hq

/-- Who is attached afterwards was attached before and had room. -/
theorem nameOf?_eq_some_iff (h : p.Delivered news q) {c : Connection} {n : Name} :
    q.nameOf? c = some n ↔ p.nameOf? c = some n ∧ (news c).length ≤ p.room c := by
  rw [hq.nameOf?_eq_some_iff, hp.nameOf?_eq_some_iff]
  unfold sessionsOf
  rw [h.group]
  constructor
  · intro hc
    obtain ⟨a, ha, rfl⟩ := List.mem_map.1 hc
    obtain ⟨ha, hroom⟩ := List.mem_filter.1 ha
    exact ⟨List.mem_map_of_mem ha, of_decide_eq_true hroom⟩
  · rintro ⟨hc, hroom⟩
    obtain ⟨a, ha, rfl⟩ := List.mem_map.1 hc
    exact List.mem_map_of_mem (List.mem_filter.2 ⟨ha, decide_eq_true hroom⟩)

/-- A session loses its place only when its mailbox has no room left. -/
theorem attached_or_full (h : p.Delivered news q) {c : Connection} {n : Name}
    (hc : p.nameOf? c = some n) :
    q.nameOf? c = some n ∨ q.nameOf? c = none ∧ q.room c = 0 := by
  by_cases hroom : (news c).length ≤ p.room c
  · exact Or.inl ((h.nameOf?_eq_some_iff hp hq).2 ⟨hc, hroom⟩)
  · refine Or.inr ⟨?_, ?_⟩
    · cases hname : q.nameOf? c with
      | none => rfl
      | some m => exact absurd ((h.nameOf?_eq_some_iff hp hq).1 hname).2 hroom
    · rw [h.room]
      omega

end Delivered

/-! ## Addressed deliveries -/

section

variable {p : Presence} (h : p.WellFormed)
include h

theorem WellFormed.notifyAll_delivered (outbox : Outbox) :
    p.Delivered (fun c => outbox.addressed (p.nameOf? c)) (p.notifyAll outbox).2 := by
  have hdelivered := p.deliver_delivered (p.resolve outbox)
  rwa [funext (h.newsFor_resolve outbox)] at hdelivered

theorem WellFormed.notifyOthers_delivered (n : Name) (skip : Connection) (x : Notice) :
    p.Delivered (fun c => if p.nameOf? c = some n ∧ c ≠ skip then [x] else [])
      (p.notifyOthers n skip x).2 := by
  have hdelivered := p.deliver_delivered
    ((withoutConnections [skip] (p.group n)).map fun a => (a.connection, x))
  rwa [funext (h.newsFor_others n skip x)] at hdelivered

theorem WellFormed.sendTo_delivered (n : Name) (c : Connection) (x : Notice) :
    p.Delivered (fun d => if d = c ∧ p.nameOf? c = some n then [x] else []) (p.sendTo n c x).2 := by
  have hdelivered := p.deliver_delivered [(c, x)]
  rw [funext (newsFor_single c x)] at hdelivered
  unfold Presence.sendTo
  by_cases hc : p.isAttached n c = true
  · have hname : p.nameOf? c = some n := h.nameOf?_eq_some_iff.2 (isAttached_iff.1 hc)
    simpa only [hc, if_true, hname, and_true] using hdelivered
  · have hname : p.nameOf? c ≠ some n := fun hn =>
      hc (isAttached_iff.2 (h.nameOf?_eq_some_iff.1 hn))
    simpa [hc, hname] using Delivered.refl p

theorem WellFormed.sendTo_posted {n : Name} {c : Connection} {x : Notice}
    (hrefusals : (p.sendTo n c x).2.refusals = p.refusals) :
    p.Posted (fun d => if d = c ∧ p.nameOf? c = some n then [x] else []) (p.sendTo n c x).2 :=
  (h.sendTo_delivered n c x).posted hrefusals

end

end Presence

end Amity
