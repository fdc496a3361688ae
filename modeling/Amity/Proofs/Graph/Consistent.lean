/-
  Amity/Proofs/Graph/Consistent.lean
  ==================================
  **The friendship graph stays well-formed.**  The two ends of a tie are kept in two records, and
  every operation decides on one of them and edits the other without looking.  That this is enough
  rests on `Consistent`: friendships are mutual, a request is on both sides, nobody is tied to
  himself, no list repeats a name, and friends have no request between them.

  Only the conjunction is kept by every operation.  A change of one pair is `Consistent.editPair`:
  what the two records say about each other must agree, and what they say about others must stay.
  A renaming needs that nobody mentions a name without ties (`not_mem_of_isEmpty`), a removal needs
  only the mutual clauses.
-/
import Mathlib.Data.List.Nodup
import Amity.Proofs.Graph.View

namespace Amity

/-! ## Lists of names -/

namespace Ties

theorem nodup_without {ns : List Name} (h : ns.Nodup) (n : Name) : (without n ns).Nodup :=
  h.sublist List.filter_sublist

theorem nodup_append_singleton {ns : List Name} {n : Name} (h : ns.Nodup) (hn : n ∉ ns) :
    (ns ++ [n]).Nodup := by
  rw [List.nodup_append]
  refine ⟨h, by simp, ?_⟩
  intro m hm k hk hmk
  rw [List.mem_singleton] at hk
  exact hn (hk ▸ hmk ▸ hm)

theorem mem_map_substitute {old new m : Name} {ns : List Name} :
    m ∈ ns.map (substitute old new) ↔ (m = new ∧ old ∈ ns) ∨ (m ≠ old ∧ m ∈ ns) := by
  rw [List.mem_map]
  constructor
  · rintro ⟨n, hn, rfl⟩
    by_cases h : n = old
    · subst h
      exact Or.inl ⟨by simp [substitute], hn⟩
    · exact Or.inr ⟨by simp [substitute, h], by simpa [substitute, h] using hn⟩
  · rintro (⟨rfl, hold⟩ | ⟨hne, hm⟩)
    · exact ⟨old, hold, by simp [substitute]⟩
    · exact ⟨m, hm, by simp [substitute, hne]⟩

/-- Putting a name nobody has in the place of another makes no two entries equal. -/
theorem nodup_map_substitute {old new : Name} {ns : List Name} (h : ns.Nodup) (hnew : new ∉ ns) :
    (ns.map (substitute old new)).Nodup := by
  refine List.Nodup.map_on ?_ h
  intro m hm n hn hmn
  unfold substitute at hmn
  split at hmn <;> split at hmn <;> simp_all

theorem map_substitute_of_not_mem {old new : Name} {ns : List Name} (h : old ∉ ns) :
    ns.map (substitute old new) = ns := by
  induction ns with
  | nil => rfl
  | cons n ns ih => grind [substitute]

theorem without_of_not_mem {n : Name} {ns : List Name} (h : n ∉ ns) : without n ns = ns :=
  List.filter_eq_self.2 fun m hm => by simpa using fun hmn : m = n => h (hmn ▸ hm)

theorem renamePeer_of_not_mem {old new : Name} {t : Ties}
    (h : old ∉ t.friends ∧ old ∉ t.sent ∧ old ∉ t.received) : t.renamePeer old new = t := by
  simp [renamePeer, mapLists, map_substitute_of_not_mem h.1, map_substitute_of_not_mem h.2.1,
    map_substitute_of_not_mem h.2.2]

theorem forgetPeer_of_not_mem {n : Name} {t : Ties}
    (h : n ∉ t.friends ∧ n ∉ t.sent ∧ n ∉ t.received) : t.forgetPeer n = t := by
  simp [forgetPeer, mapLists, without_of_not_mem h.1, without_of_not_mem h.2.1,
    without_of_not_mem h.2.2]

/-- Both sides point at the same players, that one aside. -/
def SameBut (n : Name) (t u : Ties) : Prop :=
  ∀ m, m ≠ n → (m ∈ t.friends ↔ m ∈ u.friends) ∧ (m ∈ t.sent ↔ m ∈ u.sent) ∧
    (m ∈ t.received ↔ m ∈ u.received)

/-- No list of these ties repeats a name. -/
structure Nodup (t : Ties) : Prop where
  friends : t.friends.Nodup
  sent : t.sent.Nodup
  received : t.received.Nodup

section

variable (n : Name) (t : Ties)

theorem mem_befriend {m : Name} : m ∈ (t.befriend n).friends ↔ m = n ∨ m ∈ t.friends := by
  unfold befriend
  split <;> grind

theorem sameBut_befriend : SameBut n (t.befriend n) t := by
  intro m hm
  refine ⟨?_, ?_, ?_⟩
  · simp [mem_befriend, hm]
  · simp [befriend, hm]
  · simp [befriend, hm]

theorem sameBut_unfriend : SameBut n (t.unfriend n) t := by
  intro m hm
  simp [unfriend, hm]

theorem sameBut_addSent : SameBut n (t.addSent n) t := by
  intro m hm
  simp [addSent, hm]

theorem sameBut_addReceived : SameBut n (t.addReceived n) t := by
  intro m hm
  simp [addReceived, hm]

theorem sameBut_dropSent : SameBut n (t.dropSent n) t := by
  intro m hm
  simp [dropSent, hm]

theorem sameBut_dropReceived : SameBut n (t.dropReceived n) t := by
  intro m hm
  simp [dropReceived, hm]

variable {n t}

theorem Nodup.befriend (h : t.Nodup) : (t.befriend n).Nodup where
  friends := by
    unfold Ties.befriend
    split
    · exact h.friends
    · next hn => exact nodup_append_singleton h.friends hn
  sent := nodup_without h.sent n
  received := nodup_without h.received n

theorem Nodup.unfriend (h : t.Nodup) : (t.unfriend n).Nodup :=
  ⟨nodup_without h.friends n, h.sent, h.received⟩

theorem Nodup.addSent (h : t.Nodup) (hn : n ∉ t.sent) : (t.addSent n).Nodup :=
  ⟨h.friends, nodup_append_singleton h.sent hn, h.received⟩

theorem Nodup.addReceived (h : t.Nodup) (hn : n ∉ t.received) : (t.addReceived n).Nodup :=
  ⟨h.friends, h.sent, nodup_append_singleton h.received hn⟩

theorem Nodup.dropSent (h : t.Nodup) : (t.dropSent n).Nodup :=
  ⟨h.friends, nodup_without h.sent n, h.received⟩

theorem Nodup.dropReceived (h : t.Nodup) : (t.dropReceived n).Nodup :=
  ⟨h.friends, h.sent, nodup_without h.received n⟩

end

end Ties

/-! ## Consistent ties -/

/-- What the ties of all players say about each other agrees. -/
structure Consistent (ties : Name → Ties) : Prop where
  /-- Friendship is mutual. -/
  friends : ∀ a b, b ∈ (ties a).friends ↔ a ∈ (ties b).friends
  /-- A request is with its sender and with its receiver. -/
  requests : ∀ a b, b ∈ (ties a).sent ↔ a ∈ (ties b).received
  /-- Nobody is tied to himself. -/
  irreflexive : ∀ a, a ∉ (ties a).friends ∧ a ∉ (ties a).sent ∧ a ∉ (ties a).received
  /-- No list holds a name twice. -/
  nodup : ∀ a, (ties a).Nodup
  /-- Between friends there is no request. -/
  apart : ∀ a b, b ∈ (ties a).friends → b ∉ (ties a).sent ∧ b ∉ (ties a).received

/-- The ties of all players after those of two of them have changed. -/
def editPair (ties : Name → Ties) (a : Name) (left : Ties) (b : Name) (right : Ties) :
    Name → Ties :=
  fun n => if n = b then right else if n = a then left else ties n

/-- The ties of all players after one has taken another name. -/
def renameTies (ties : Name → Ties) (old new : Name) : Name → Ties :=
  fun n =>
    if n = new then ties old
    else if n = old then .empty
    else (ties n).renamePeer old new

/-- The ties of all players after one has left. -/
def purgeTies (ties : Name → Ties) (p : Name) : Name → Ties :=
  fun n => if n = p then .empty else (ties n).forgetPeer p

namespace Consistent

variable {ties : Name → Ties}

theorem empty : Consistent fun _ => Ties.empty where
  friends := by simp [Ties.empty]
  requests := by simp [Ties.empty]
  irreflexive := by simp [Ties.empty]
  nodup _ := ⟨List.nodup_nil, List.nodup_nil, List.nodup_nil⟩
  apart := by simp [Ties.empty]

/-- Nobody mentions a player without ties. -/
theorem not_mem_of_isEmpty (h : Consistent ties) {n : Name} (hn : (ties n).isEmpty = true)
    (m : Name) :
    n ∉ (ties m).friends ∧ n ∉ (ties m).sent ∧ n ∉ (ties m).received := by
  have hempty : ties n = .empty := Ties.isEmpty_iff.1 hn
  have hfriends := h.friends m n
  have hsent := h.requests m n
  have hreceived := h.requests n m
  simp only [hempty, Ties.empty, List.not_mem_nil, iff_false, false_iff] at hfriends hsent hreceived
  exact ⟨hfriends, hsent, hreceived⟩

/-- Nobody mentions a player without ties, in whatever list. -/
theorem not_mem_peers_of_isEmpty (h : Consistent ties) {n : Name} (hn : (ties n).isEmpty = true)
    (m : Name) : n ∉ (ties m).peers := by
  simpa [Ties.mem_peers] using h.not_mem_of_isEmpty hn m

/-- A player whom somebody does not mention does not mention that one either. -/
theorem not_mem_of_not_mem_peers (h : Consistent ties) {n m : Name} (hn : n ∉ (ties m).peers) :
    m ∉ (ties n).friends ∧ m ∉ (ties n).sent ∧ m ∉ (ties n).received := by
  rw [Ties.mem_peers] at hn
  rw [h.friends n m, h.requests n m, ← h.requests m n]
  simp only [not_or] at hn
  exact ⟨hn.1, hn.2.2, hn.2.1⟩

/-- Changing what two players say about each other, and nothing they say about others. -/
theorem editPair (h : Consistent ties) {a b : Name} (hab : a ≠ b) {left right : Ties}
    (hleft : Ties.SameBut b left (ties a)) (hright : Ties.SameBut a right (ties b))
    (hfriends : b ∈ left.friends ↔ a ∈ right.friends)
    (hsent : b ∈ left.sent ↔ a ∈ right.received)
    (hreceived : b ∈ left.received ↔ a ∈ right.sent)
    (hnodup : left.Nodup ∧ right.Nodup)
    (hapart : b ∈ left.friends → b ∉ left.sent ∧ b ∉ left.received) :
    Consistent (editPair ties a left b right) where
  friends m n := by
    have := h.friends m n
    have := h.irreflexive
    unfold Amity.editPair
    split <;> split <;> grind [Ties.SameBut]
  requests m n := by
    have := h.requests m n
    have := h.irreflexive
    unfold Amity.editPair
    split <;> split <;> grind [Ties.SameBut]
  irreflexive m := by
    have := h.irreflexive m
    unfold Amity.editPair
    split
    · next hm => subst hm; have := hright m; grind
    · split
      · next hm => subst hm; have := hleft m; grind
      · exact h.irreflexive m
  nodup m := by
    unfold Amity.editPair
    split
    · exact hnodup.2
    · split
      · exact hnodup.1
      · exact h.nodup m
  apart m n := by
    have := h.apart m n
    unfold Amity.editPair
    split
    · next hm => subst hm; by_cases hn : n = a <;> grind [Ties.SameBut]
    · split
      · next hm => subst hm; by_cases hn : n = b <;> grind [Ties.SameBut]
      · exact this

/-! ### Renaming and removal

Behind a renaming the players are related as the players were whose names they now have, and the
old name is related to nobody.  Behind a removal the others are related as they were. -/

theorem mem_renameTies (h : Consistent ties) {old new : Name} (hne : old ≠ new)
    (hnew : (ties new).isEmpty = true) (a b : Name) :
    (b ∈ (renameTies ties old new a).friends ↔ a ≠ old ∧ b ≠ old ∧
      Ties.substitute new old b ∈ (ties (Ties.substitute new old a)).friends) ∧
    (b ∈ (renameTies ties old new a).sent ↔ a ≠ old ∧ b ≠ old ∧
      Ties.substitute new old b ∈ (ties (Ties.substitute new old a)).sent) ∧
    (b ∈ (renameTies ties old new a).received ↔ a ≠ old ∧ b ≠ old ∧
      Ties.substitute new old b ∈ (ties (Ties.substitute new old a)).received) := by
  have hfresh := h.not_mem_of_isEmpty hnew
  have hself := h.irreflexive old
  unfold renameTies Ties.substitute
  by_cases ha : a = new
  · subst ha
    have := hfresh old
    by_cases hb : b = a <;> grind
  · by_cases hold : a = old
    · simp [hold, hne, Ties.empty]
    · have := hfresh a
      simp only [ha, hold, if_false, Ties.renamePeer, Ties.mapLists, Ties.mem_map_substitute]
      by_cases hb : b = new <;> grind

theorem mem_purgeTies (p a b : Name) :
    (b ∈ (purgeTies ties p a).friends ↔ a ≠ p ∧ b ≠ p ∧ b ∈ (ties a).friends) ∧
    (b ∈ (purgeTies ties p a).sent ↔ a ≠ p ∧ b ≠ p ∧ b ∈ (ties a).sent) ∧
    (b ∈ (purgeTies ties p a).received ↔ a ≠ p ∧ b ≠ p ∧ b ∈ (ties a).received) := by
  unfold purgeTies
  split
  · next ha => simp [ha, Ties.empty]
  · next ha => simp [ha, Ties.forgetPeer, Ties.mapLists, and_comm]

/-- A player takes a name that nobody mentions. -/
theorem rename (h : Consistent ties) {old new : Name} (hne : old ≠ new)
    (hnew : (ties new).isEmpty = true) : Consistent (renameTies ties old new) where
  friends a b := by
    rw [(h.mem_renameTies hne hnew a b).1, (h.mem_renameTies hne hnew b a).1, h.friends]
    grind
  requests a b := by
    rw [(h.mem_renameTies hne hnew a b).2.1, (h.mem_renameTies hne hnew b a).2.2, h.requests]
    grind
  irreflexive a := by
    obtain ⟨hfriends, hsent, hreceived⟩ := h.mem_renameTies hne hnew a a
    have hself := h.irreflexive (Ties.substitute new old a)
    rw [hfriends, hsent, hreceived]
    simp only [hself, and_false, not_false_eq_true, and_self]
  nodup a := by
    have hfresh := h.not_mem_of_isEmpty hnew a
    have hnodup := h.nodup a
    unfold renameTies
    split
    · exact h.nodup old
    split
    · exact ⟨List.nodup_nil, List.nodup_nil, List.nodup_nil⟩
    · exact ⟨Ties.nodup_map_substitute hnodup.friends hfresh.1,
        Ties.nodup_map_substitute hnodup.sent hfresh.2.1,
        Ties.nodup_map_substitute hnodup.received hfresh.2.2⟩
  apart a b hb := by
    obtain ⟨hfriends, hsent, hreceived⟩ := h.mem_renameTies hne hnew a b
    have happart := h.apart _ _ (hfriends.1 hb).2.2
    rw [hsent, hreceived]
    simp only [happart, and_false, not_false_eq_true, and_self]

/-- A player leaves. -/
theorem purge (h : Consistent ties) (p : Name) : Consistent (purgeTies ties p) where
  friends a b := by
    rw [(mem_purgeTies p a b).1, (mem_purgeTies p b a).1, h.friends]
    grind
  requests a b := by
    rw [(mem_purgeTies p a b).2.1, (mem_purgeTies p b a).2.2, h.requests]
    grind
  irreflexive a := by
    obtain ⟨hfriends, hsent, hreceived⟩ := @mem_purgeTies ties p a a
    have hself := h.irreflexive a
    rw [hfriends, hsent, hreceived]
    simp only [hself, and_false, not_false_eq_true, and_self]
  nodup a := by
    unfold purgeTies
    split
    · exact ⟨List.nodup_nil, List.nodup_nil, List.nodup_nil⟩
    · exact ⟨Ties.nodup_without (h.nodup a).friends p, Ties.nodup_without (h.nodup a).sent p,
        Ties.nodup_without (h.nodup a).received p⟩
  apart a b hb := by
    obtain ⟨hfriends, hsent, hreceived⟩ := @mem_purgeTies ties p a b
    have happart := h.apart _ _ (hfriends.1 hb).2.2
    rw [hsent, hreceived]
    simp only [happart, and_false, not_false_eq_true, and_self]

end Consistent

end Amity
