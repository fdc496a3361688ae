/-
  Amity/Proofs/Presence/Tokens.lean
  =================================
  **Who loses a place is told to end.**  A connection can lose its place in a group without having
  left: a notice finds its mailbox full, or its player is deleted.  Each time it is told to end, and
  nothing else tells a connection to end.  So the tokens and the groups go together, although one is
  kept with the mailboxes and the other with the names.

  `Continues` says what a registry does while nobody comes or goes.  It is closed under composition,
  so that an operation of the engine only has to be taken apart into deliveries and changes of the
  groups.  `Tended` is what is kept: who has an owner entry has a place or has been told to end.
-/
import Amity.Proofs.Presence.Room

namespace Amity.Presence

/-- Whether there is a mailbox for the connection. -/
def hasBox (p : Presence) (c : Connection) : Bool := p.boxes.contains c

/-! ## Tokens and mailboxes -/

theorem isCancelled_eq (p : Presence) (c : Connection) :
    p.isCancelled c = (p.boxes.find? c).any (·.cancelled) := by
  unfold isCancelled
  cases p.boxes.find? c <;> rfl

theorem isCancelled_of_boxes {p q : Presence} (h : q.boxes = p.boxes) (c : Connection) :
    q.isCancelled c = p.isCancelled c := by
  rw [isCancelled_eq, isCancelled_eq, h]

theorem hasBox_of_boxes {p q : Presence} (h : q.boxes = p.boxes) (c : Connection) :
    q.hasBox c = p.hasBox c := by
  unfold hasBox
  rw [h]

section

variable (p : Presence) (c : Connection) (f : Mailbox → Mailbox) (d : Connection)

theorem hasBox_editBox : (p.editBox c f).hasBox d = p.hasBox d := by
  simp only [hasBox, editBox, Table.contains, Table.find?_modify]
  split
  · exact Option.isSome_map
  · rfl

variable {f}

theorem isCancelled_editBox (hf : ∀ b, (f b).cancelled = b.cancelled) :
    (p.editBox c f).isCancelled d = p.isCancelled d := by
  simp only [isCancelled_eq, editBox, Table.find?_modify]
  split
  · rw [Option.any_map]
    exact congrArg (Option.any · _) (funext hf)
  · rfl

end

theorem hasBox_cancelAll (cs : List Connection) (p : Presence) (d : Connection) :
    (cancelAll cs p).hasBox d = p.hasBox d := by
  unfold hasBox Table.contains
  rw [find?_boxes_cancelAll, Option.isSome_map]

/-- Of those who are told to end each one has its token cancelled, and nobody else. -/
theorem isCancelled_cancelAll (cs : List Connection) (p : Presence) (d : Connection) :
    (cancelAll cs p).isCancelled d = (p.isCancelled d || (decide (d ∈ cs) && p.hasBox d)) := by
  simp only [isCancelled_eq, hasBox, Table.contains, find?_boxes_cancelAll]
  cases p.boxes.find? d with
  | none => simp
  | some b => by_cases hd : d ∈ cs <;> simp [hd, Mailbox.cancel]

theorem hasBox_deliver (p : Presence) (targets : List (Connection × Notice)) (d : Connection) :
    (p.deliver targets).2.hasBox d = p.hasBox d := by
  unfold hasBox Table.contains
  rw [find?_boxes_deliver, Option.isSome_map]

/-- A delivery tells those to end who have less room than news. -/
theorem isCancelled_deliver (p : Presence) (targets : List (Connection × Notice))
    (d : Connection) :
    (p.deliver targets).2.isCancelled d =
      (p.isCancelled d || (decide (p.room d < (newsFor targets d).length) && p.hasBox d)) := by
  simp only [isCancelled_eq, hasBox, Table.contains, room_eq, find?_boxes_deliver]
  cases p.boxes.find? d with
  | none => simp
  | some b => simp [Mailbox.delivered]

/-! ## While nobody comes or goes -/

/-- Nobody gets or loses an owner entry or a mailbox.  Who loses a place is told to end, and nobody
    else is.  For who has no place nothing new waits. -/
structure Continues (p q : Presence) : Prop where
  arrivals : q.arrivals = p.arrivals
  owned : ∀ c, (q.owners.find? c).isSome = (p.owners.find? c).isSome
  boxed : ∀ c, q.hasBox c = p.hasBox c
  place : ∀ c,
    ((q.nameOf? c).isSome = (p.nameOf? c).isSome ∧ q.isCancelled c = p.isCancelled c) ∨
      ((p.nameOf? c).isSome = true ∧ q.nameOf? c = none ∧
        (p.hasBox c = true → q.isCancelled c = true))
  waiting : ∀ c, p.nameOf? c = none → q.waiting c <:+ p.waiting c

namespace Continues

variable {p q r : Presence}

theorem refl (p : Presence) : p.Continues p where
  arrivals := rfl
  owned _ := rfl
  boxed _ := rfl
  place _ := Or.inl ⟨rfl, rfl⟩
  waiting _ _ := List.suffix_refl _

/-- Who has no place does not get one. -/
theorem nameOf?_eq_none (h : p.Continues q) {c : Connection} (hc : p.nameOf? c = none) :
    q.nameOf? c = none ∧ q.isCancelled c = p.isCancelled c := by
  rcases h.place c with ⟨hplace, htoken⟩ | ⟨hplace, -, -⟩
  · rw [hc] at hplace
    exact ⟨Option.not_isSome_iff_eq_none.1 (by simp [hplace]), htoken⟩
  · rw [hc] at hplace
    cases hplace

/-- Who keeps the place is not told to end. -/
theorem isCancelled_of_isSome (h : p.Continues q) {c : Connection}
    (hc : (q.nameOf? c).isSome = (p.nameOf? c).isSome) : q.isCancelled c = p.isCancelled c := by
  rcases h.place c with ⟨-, htoken⟩ | ⟨hplace, hnone, -⟩
  · exact htoken
  · rw [hplace, hnone] at hc
    cases hc

theorem trans (h : p.Continues q) (h' : q.Continues r) : p.Continues r where
  arrivals := h'.arrivals.trans h.arrivals
  owned c := (h'.owned c).trans (h.owned c)
  boxed c := (h'.boxed c).trans (h.boxed c)
  place c := by
    rcases h.place c with ⟨hplace, htoken⟩ | ⟨hplace, hnone, hended⟩
    · rcases h'.place c with ⟨hplace', htoken'⟩ | ⟨hplace', hnone', hended'⟩
      · exact Or.inl ⟨hplace'.trans hplace, htoken'.trans htoken⟩
      · refine Or.inr ⟨hplace ▸ hplace', hnone', ?_⟩
        intro hbox
        exact hended' ((h.boxed c).trans hbox)
    · obtain ⟨hnone', htoken'⟩ := h'.nameOf?_eq_none hnone
      refine Or.inr ⟨hplace, hnone', ?_⟩
      intro hbox
      exact htoken'.trans (hended hbox)
  waiting c hc := (h'.waiting c (h.nameOf?_eq_none hc).1).trans (h.waiting c hc)

/-- A change that leaves the mailboxes alone and takes nobody's place. -/
theorem of_boxes (hboxes : q.boxes = p.boxes) (harrivals : q.arrivals = p.arrivals)
    (howned : ∀ c, (q.owners.find? c).isSome = (p.owners.find? c).isSome)
    (hplace : ∀ c, (q.nameOf? c).isSome = (p.nameOf? c).isSome) : p.Continues q where
  arrivals := harrivals
  owned := howned
  boxed := hasBox_of_boxes hboxes
  place c := Or.inl ⟨hplace c, isCancelled_of_boxes hboxes c⟩
  waiting c _ := waiting_of_boxes hboxes c ▸ List.suffix_refl _

/-- A mailbox is read or emptied. -/
theorem of_editBox (c : Connection) {f : Mailbox → Mailbox}
    (hf : ∀ b, (f b).cancelled = b.cancelled)
    (hwaiting : (p.editBox c f).waiting c <:+ p.waiting c) : p.Continues (p.editBox c f) where
  arrivals := rfl
  owned _ := rfl
  boxed d := hasBox_editBox p c f d
  place d := Or.inl ⟨rfl, isCancelled_editBox p c d hf⟩
  waiting d _ := by
    by_cases hd : d = c
    · exact hd ▸ hwaiting
    · have hother : (p.boxes.modify c f).find? d = p.boxes.find? d := by
        rw [Table.find?_modify, if_neg hd]
      have hsame : (p.editBox c f).waiting d = p.waiting d := by
        simp only [Presence.waiting, editBox, hother]
      exact hsame ▸ List.suffix_refl _

end Continues

section

variable {p : Presence} (h : p.WellFormed)
include h

/-- A delivery takes nobody's place but of who is told to end. -/
theorem WellFormed.continues_deliver (targets : List (Connection × Notice))
    (hplaced : ∀ c, p.nameOf? c = none → newsFor targets c = []) :
    p.Continues (p.deliver targets).2 := by
  have hafter := h.deliver targets
  have hdelivered := p.deliver_delivered targets
  refine ⟨hdelivered.arrivals, fun c => ?_, hasBox_deliver p targets, fun c => ?_, fun c hc => ?_⟩
  · rw [hdelivered.owners]
  · rw [isCancelled_deliver]
    cases hname : p.nameOf? c with
    | none =>
      have hgone : (p.deliver targets).2.nameOf? c = none := by
        cases hgot : (p.deliver targets).2.nameOf? c with
        | none => rfl
        | some n =>
          rw [h.nameOf?_of_deliver hgot] at hname
          cases hname
      rw [hgone, hplaced c hname]
      simp
    | some n =>
      by_cases hroom : (newsFor targets c).length ≤ p.room c
      · have hkept := (hdelivered.nameOf?_eq_some_iff h hafter).2 ⟨hname, hroom⟩
        rw [hkept]
        simp [Nat.not_lt.2 hroom]
      · rcases hdelivered.attached_or_full h hafter hname with hkept | ⟨hgone, -⟩
        · exact absurd ((hdelivered.nameOf?_eq_some_iff h hafter).1 hkept).2 hroom
        · refine Or.inr ⟨rfl, hgone, ?_⟩
          intro hbox
          simp [Nat.not_le.1 hroom, hbox]
  · rw [hdelivered.waiting, hplaced c hc]
    simp

theorem WellFormed.continues_notifyAll (outbox : Outbox) :
    p.Continues (p.notifyAll outbox).2 := by
  refine h.continues_deliver _ ?_
  intro c hc
  rw [h.newsFor_resolve, hc, Outbox.addressed_none]

theorem WellFormed.continues_notifyOthers (n : Name) (skip : Connection) (x : Notice) :
    p.Continues (p.notifyOthers n skip x).2 := by
  refine h.continues_deliver _ ?_
  intro c hc
  rw [h.newsFor_others, hc]
  simp

theorem WellFormed.continues_sendTo (n : Name) (c : Connection) (x : Notice) :
    p.Continues (p.sendTo n c x).2 := by
  unfold Presence.sendTo
  split
  · next hattached =>
    refine h.continues_deliver [(c, x)] ?_
    intro d hd
    rw [newsFor_single, if_neg]
    rintro rfl
    rw [h.nameOf?_eq_some_iff.2 (isAttached_iff.1 hattached)] at hd
    cases hd
  · exact .refl p

/-- The sessions of a deleted player are told to end. -/
theorem WellFormed.isCancelled_evicted (n : Name) (c : Connection) :
    (p.evicted n).isCancelled c =
      (p.isCancelled c || (decide (p.nameOf? c = some n) && p.hasBox c)) := by
  rw [decide_eq_decide.2 h.nameOf?_eq_some_iff]
  exact isCancelled_cancelAll _ _ c

theorem WellFormed.continues_evicted (n : Name) : p.Continues (p.evicted n) := by
  refine ⟨arrivals_evicted p n, fun c => ?_, hasBox_cancelAll _ _, fun c => ?_, fun c _ => ?_⟩
  · have howners : (p.evicted n).owners = p.owners := (cancelAll_eq _ _).2.1
    rw [howners]
  · rw [h.nameOf?_evicted, h.isCancelled_evicted]
    by_cases hc : p.nameOf? c = some n
    · refine Or.inr ⟨by simp [hc], by simp [hc], ?_⟩
      intro hbox
      simp [hc, hbox]
    · exact Or.inl ⟨by simp [hc], by simp [hc]⟩
  · exact waiting_evicted p n c ▸ List.suffix_refl _

theorem WellFormed.continues_rebound {old new : Name} (hne : old ≠ new) :
    p.Continues (p.rebound old new) := by
  have hboxes : (p.rebound old new).boxes = p.boxes := by
    unfold Presence.rebound
    split <;> rfl
  refine .of_boxes hboxes (arrivals_rebound p old new) (fun c => ?_) (fun c => ?_)
  · rw [owner_rebound, Option.isSome_map]
  · rw [h.nameOf?_rebound hne, Option.isSome_map]

theorem WellFormed.continues_setStatus (c : Connection) (s : Status) :
    p.Continues (p.setStatus c s) := by
  have hboxes : (p.setStatus c s).boxes = p.boxes := by
    unfold Presence.setStatus
    split <;> rfl
  refine .of_boxes hboxes (arrivals_setStatus p c s) (fun d => ?_) (fun d => ?_)
  · rw [owners_setStatus]
  · rw [h.nameOf?_congr (h.setStatus c s) (sessionsOf_setStatus p c s)]

end

/-! ## Places and tokens -/

/-- Every connection that has come has a mailbox, and who has an owner entry has the place it says
    or has been told to end. -/
structure Tended (p : Presence) : Prop where
  boxed : ∀ c : Connection, c.number < p.arrivals → p.hasBox c = true
  place : ∀ c n, p.owners.find? c = some n →
    (p.nameOf? c = some n ∧ p.isCancelled c = false) ∨
      (p.nameOf? c = none ∧ p.isCancelled c = true)

theorem tended_empty : Presence.empty.Tended where
  boxed c hc := absurd hc (Nat.not_lt_zero _)
  place c n hc := by cases hc

theorem owner_detach (p : Presence) (c d : Connection) :
    (p.detach c).2.owners.find? d = if d = c then none else p.owners.find? d := by
  unfold detach
  cases howner : p.owners.find? c with
  | none =>
    by_cases hdc : d = c
    · simp [hdc, howner]
    · simp [hdc]
  | some k => exact Table.find?_erase _ _ _

/-- Without an owner entry there is no place. -/
theorem nameOf?_of_owner {p : Presence} {c : Connection} (hc : p.owners.find? c = none) :
    p.nameOf? c = none := by
  rw [nameOf?, hc]
  rfl

theorem boxes_detach (p : Presence) (c : Connection) : (p.detach c).2.boxes = p.boxes := by
  unfold detach
  split <;> rfl

section

variable {p q : Presence} (h : p.Tended) (hp : p.WellFormed)
include h hp

theorem Tended.continues (hq : p.Continues q) : q.Tended where
  boxed c hc := (hq.boxed c).trans (h.boxed c (hq.arrivals ▸ hc))
  place c n hc := by
    have howned : (p.owners.find? c).isSome = true := by
      rw [← hq.owned, hc]
      rfl
    obtain ⟨m, hm⟩ := Option.isSome_iff_exists.1 howned
    have hbox : p.hasBox c = true := h.boxed c (hp.arrived c m hm)
    rcases h.place c m hm with ⟨hname, htoken⟩ | ⟨hname, htoken⟩
    · rcases hq.place c with ⟨hplace, htoken'⟩ | ⟨-, hnone, hended⟩
      · rw [hname] at hplace
        obtain ⟨k, hk⟩ := Option.isSome_iff_exists.1 hplace
        -- the place is the one of the owner entry
        rw [owner_of_nameOf? hk] at hc
        cases hc
        exact Or.inl ⟨hk, htoken'.trans htoken⟩
      · exact Or.inr ⟨hnone, hended hbox⟩
    · obtain ⟨hnone, htoken'⟩ := hq.nameOf?_eq_none hname
      exact Or.inr ⟨hnone, htoken'.trans htoken⟩

theorem Tended.attach (n : Name) (capacity : Nat) :
    ((p.accept capacity).2.attach n ⟨p.arrivals⟩).Tended where
  boxed c hc := by
    have hc : c.number < p.arrivals + 1 := hc
    show (p.boxes.insert ⟨p.arrivals⟩ (.fresh capacity)).contains c = true
    rw [Table.contains, Table.find?_insert]
    by_cases hnew : c = ⟨p.arrivals⟩
    · simp [hnew]
    · have hne : c.number ≠ p.arrivals := by
        intro hnumber
        exact hnew (congrArg Connection.mk hnumber)
      rw [if_neg hnew]
      exact h.boxed c (by omega)
  place c m hc := by
    have hc : (p.owners.insert ⟨p.arrivals⟩ n).find? c = some m := hc
    have htoken : ((p.accept capacity).2.attach n ⟨p.arrivals⟩).isCancelled c =
        if c = ⟨p.arrivals⟩ then false else p.isCancelled c := by
      have hboxes : ((p.accept capacity).2.attach n ⟨p.arrivals⟩).boxes =
          p.boxes.insert ⟨p.arrivals⟩ (.fresh capacity) := rfl
      rw [isCancelled_eq, hboxes, Table.find?_insert, isCancelled_eq]
      split <;> rfl
    rw [hp.nameOf?_attach, htoken]
    rw [Table.find?_insert] at hc
    by_cases hnew : c = ⟨p.arrivals⟩
    · simpa [hnew] using hc
    · simp only [hnew, if_false] at hc ⊢
      exact h.place c m hc

theorem Tended.detach (c : Connection) : (p.detach c).2.Tended where
  boxed d hd := by
    rw [arrivals_detach] at hd
    rw [hasBox_of_boxes (boxes_detach p c)]
    exact h.boxed d hd
  place d n hd := by
    rw [owner_detach] at hd
    split at hd
    · cases hd
    · next hdc =>
      rw [hp.nameOf?_detach, if_neg hdc, isCancelled_of_boxes (boxes_detach p c)]
      exact h.place d n hd

end

/-! ## Without a place -/

/-- A connection without a place does not get one, nobody tells it anything, and an owner entry that
    is gone stays so. -/
structure StaysOut (p : Presence) (c : Connection) (q : Presence) : Prop where
  nameless : q.nameOf? c = none
  cancelled : q.isCancelled c = p.isCancelled c
  waiting : q.waiting c <:+ p.waiting c
  owner : p.owners.find? c = none → q.owners.find? c = none

theorem StaysOut.trans {p q r : Presence} {c : Connection} (h : p.StaysOut c q)
    (h' : q.StaysOut c r) : p.StaysOut c r where
  nameless := h'.nameless
  cancelled := h'.cancelled.trans h.cancelled
  waiting := h'.waiting.trans h.waiting
  owner hnone := h'.owner (h.owner hnone)

theorem Continues.staysOut {p q : Presence} {c : Connection} (h : p.Continues q)
    (hc : p.nameOf? c = none) : p.StaysOut c q where
  nameless := (h.nameOf?_eq_none hc).1
  cancelled := (h.nameOf?_eq_none hc).2
  waiting := h.waiting c hc
  owner hnone := by
    have howned := h.owned c
    rw [hnone] at howned
    exact Option.not_isSome_iff_eq_none.1 (by simp [howned])

section

variable {p : Presence} (hp : p.WellFormed) {c : Connection} (hc : p.nameOf? c = none)
include hp hc

theorem WellFormed.staysOut_attach (n : Name) (capacity : Nat) (hold : c ≠ ⟨p.arrivals⟩) :
    p.StaysOut c ((p.accept capacity).2.attach n ⟨p.arrivals⟩) where
  nameless := by rw [hp.nameOf?_attach, if_neg hold, hc]
  cancelled := by
    have hbox : ((p.accept capacity).2.attach n ⟨p.arrivals⟩).boxes.find? c = p.boxes.find? c :=
      (Table.find?_insert _ _ _ _).trans (if_neg hold)
    rw [isCancelled_eq, isCancelled_eq, hbox]
  waiting := ((waiting_attach p n capacity c).trans (if_neg hold)) ▸ List.suffix_refl _
  owner hnone := ((Table.find?_insert _ _ _ _).trans (if_neg hold)).trans hnone

theorem WellFormed.staysOut_detach (d : Connection) : p.StaysOut c (p.detach d).2 where
  nameless := by rw [hp.nameOf?_detach, hc, ite_self]
  cancelled := isCancelled_of_boxes (boxes_detach p d) c
  waiting := waiting_detach p d c ▸ List.suffix_refl _
  owner hnone := by rw [owner_detach, hnone, ite_self]

end

/-! ## In place or ended -/

/-- The connection is once in one group, that of its owner entry, and goes on. -/
def InPlace (p : Presence) (c : Connection) : Prop :=
  ∃ n, p.owners.find? c = some n ∧
    (∀ m, (p.sessionsOf m).count c = if m = n then 1 else 0) ∧ p.isCancelled c = false

/-- The connection is in no group and has been told to end. -/
def Ended (p : Presence) (c : Connection) : Prop :=
  (∀ m, c ∉ p.sessionsOf m) ∧ p.isCancelled c = true

section

variable {p : Presence} (hp : p.WellFormed) {c : Connection}
include hp

theorem WellFormed.nameOf?_eq_none_iff : p.nameOf? c = none ↔ ∀ n, c ∉ p.sessionsOf n := by
  simp only [Option.eq_none_iff_forall_ne_some, ne_eq, hp.nameOf?_eq_some_iff]

theorem WellFormed.inPlace {n : Name} (hname : p.nameOf? c = some n)
    (htoken : p.isCancelled c = false) : p.InPlace c := by
  refine ⟨n, owner_of_nameOf? hname, ?_, htoken⟩
  intro m
  rw [(hp.nodup m).count]
  simp only [← hp.nameOf?_eq_some_iff, hname, Option.some.injEq, eq_comm]

/-- An owner entry leaves these two possibilities, and they exclude each other. -/
theorem Tended.inPlace_or_ended (h : p.Tended) (hc : (p.owners.find? c).isSome = true) :
    Xor (p.InPlace c) (p.Ended c) := by
  obtain ⟨n, hn⟩ := Option.isSome_iff_exists.1 hc
  rcases h.place c n hn with ⟨hname, htoken⟩ | ⟨hname, htoken⟩
  · refine Or.inl ⟨hp.inPlace hname htoken, ?_⟩
    rintro ⟨-, hended⟩
    rw [htoken] at hended
    cases hended
  · refine Or.inr ⟨⟨hp.nameOf?_eq_none_iff.1 hname, htoken⟩, ?_⟩
    rintro ⟨-, -, -, hgoes⟩
    rw [htoken] at hgoes
    cases hgoes

end

end Amity.Presence
