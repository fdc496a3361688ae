/-
  Amity/Proofs/Graph/Pairs.lean
  =============================
  **The pairs behind the records.**  Read off the records, the graph is a set of unordered pairs of
  friends and a set of ordered requests.  The sets say nothing about the order in which a record
  lists its entries; `ChangesOnly` says that lists grow at the end and otherwise keep their order,
  and that nobody's record but those of the players concerned changes.

  An operation looks at one end of a pair and edits both.  Well-formedness is what makes the two
  ends say the same, and `mem_friendships_savePair` turns an edit of both into one change of a pair.
-/
import Mathlib.Data.Sym.Sym2
import Amity.Proofs.Changes

namespace Amity

/-! ## Lists that keep their order -/

/-- What stays in a list stays in its order, and what is new stands behind it. -/
def KeepsOrder (before after : List Name) : Prop :=
  after = before.filter (· ∈ after) ++ after.filter (· ∉ before)

theorem KeepsOrder.refl (ns : List Name) : KeepsOrder ns ns := by
  have hkept : ns.filter (· ∈ ns) = ns := List.filter_eq_self.2 fun n hn => by simpa using hn
  have hnew : ns.filter (· ∉ ns) = [] := List.filter_eq_nil_iff.2 fun n hn => by simpa using hn
  unfold KeepsOrder
  rw [hkept, hnew, List.append_nil]

theorem keepsOrder_append_singleton {ns : List Name} {n : Name} (hn : n ∉ ns) :
    KeepsOrder ns (ns ++ [n]) := by
  have hkept : ns.filter (· ∈ ns ++ [n]) = ns :=
    List.filter_eq_self.2 fun m hm => by simp [hm]
  have hnew : (ns ++ [n]).filter (· ∉ ns) = [n] := by
    rw [List.filter_append, List.filter_eq_nil_iff.2 fun m hm => by simpa using hm]
    simp [hn]
  unfold KeepsOrder
  rw [hkept, hnew]

theorem keepsOrder_without (n : Name) (ns : List Name) : KeepsOrder ns (Ties.without n ns) := by
  have hkept : ns.filter (· ∈ Ties.without n ns) = Ties.without n ns :=
    List.filter_congr fun m hm => by simp [hm]
  have hnew : (Ties.without n ns).filter (· ∉ ns) = [] :=
    List.filter_eq_nil_iff.2 fun m hm => by simpa using (Ties.mem_without.1 hm).1
  unfold KeepsOrder
  rw [hkept, hnew, List.append_nil]

theorem keepsOrder_nil (ns : List Name) : KeepsOrder ns [] := by
  simp [KeepsOrder]

/-- Each list of the ties keeps its order. -/
structure Ties.KeepsOrder (t u : Ties) : Prop where
  friends : Amity.KeepsOrder t.friends u.friends
  sent : Amity.KeepsOrder t.sent u.sent
  received : Amity.KeepsOrder t.received u.received

namespace Ties

variable {t : Ties} {n : Name}

theorem KeepsOrder.refl (t : Ties) : KeepsOrder t t :=
  ⟨.refl _, .refl _, .refl _⟩

theorem keepsOrder_befriend (n : Name) (t : Ties) : KeepsOrder t (t.befriend n) where
  friends := by
    unfold befriend
    split
    · exact .refl _
    · next hn => exact keepsOrder_append_singleton hn
  sent := keepsOrder_without n _
  received := keepsOrder_without n _

theorem keepsOrder_unfriend (n : Name) (t : Ties) : KeepsOrder t (t.unfriend n) :=
  ⟨keepsOrder_without n _, .refl _, .refl _⟩

theorem keepsOrder_addSent (hn : n ∉ t.sent) : KeepsOrder t (t.addSent n) :=
  ⟨.refl _, keepsOrder_append_singleton hn, .refl _⟩

theorem keepsOrder_addReceived (hn : n ∉ t.received) : KeepsOrder t (t.addReceived n) :=
  ⟨.refl _, .refl _, keepsOrder_append_singleton hn⟩

theorem keepsOrder_dropSent (n : Name) (t : Ties) : KeepsOrder t (t.dropSent n) :=
  ⟨.refl _, keepsOrder_without n _, .refl _⟩

theorem keepsOrder_dropReceived (n : Name) (t : Ties) : KeepsOrder t (t.dropReceived n) :=
  ⟨.refl _, .refl _, keepsOrder_without n _⟩

theorem keepsOrder_forgetPeer (n : Name) (t : Ties) : KeepsOrder t (t.forgetPeer n) :=
  ⟨keepsOrder_without n _, keepsOrder_without n _, keepsOrder_without n _⟩

theorem keepsOrder_empty (t : Ties) : KeepsOrder t .empty :=
  ⟨keepsOrder_nil _, keepsOrder_nil _, keepsOrder_nil _⟩

end Ties

namespace Graph

/-! ## The graph of pairs -/

/-- The pairs of friends. -/
def friendships (g : Graph) : Set (Sym2 Name) :=
  {e | ∃ a b, e = s(a, b) ∧ b ∈ (g.ties a).friends}

/-- The requests, each from its sender to its receiver. -/
def requests (g : Graph) : Set (Name × Name) :=
  {r | r.2 ∈ (g.ties r.1).sent}

/-- Whether a player is in a pair of friends or in a request. -/
def Mentions (g : Graph) (n : Name) : Prop :=
  (∃ e ∈ g.friendships, n ∈ e) ∨ ∃ r ∈ g.requests, n = r.1 ∨ n = r.2

/-- From one graph to the next only some players' ties change, and lists keep their order. -/
structure ChangesOnly (players : Name → Prop) (g g' : Graph) : Prop where
  others : ∀ n, ¬ players n → g'.ties n = g.ties n
  order : ∀ n, (g.ties n).KeepsOrder (g'.ties n)

theorem changesOnly_savePair {g : Graph} {a b : Name} {left right : Ties}
    (hleft : (g.ties a).KeepsOrder left) (hright : (g.ties b).KeepsOrder right) :
    ChangesOnly (fun n => n = a ∨ n = b) g (g.savePair a left b right) where
  others n hn := by
    simp only [not_or] at hn
    simp [editPair, hn]
  order n := by
    rw [ties_savePair]
    unfold editPair
    split
    · next hn => exact hn ▸ hright
    split
    · next hn => exact hn ▸ hleft
    · exact .refl _

@[simp] theorem mem_requests {g : Graph} {a b : Name} :
    (a, b) ∈ g.requests ↔ b ∈ (g.ties a).sent := Iff.rfl

theorem WellFormed.mem_friendships {g : Graph} (h : g.WellFormed) {a b : Name} :
    s(a, b) ∈ g.friendships ↔ b ∈ (g.ties a).friends := by
  constructor
  · rintro ⟨x, y, heq, hy⟩
    rcases Sym2.eq_iff.1 heq with ⟨rfl, rfl⟩ | ⟨rfl, rfl⟩
    · exact hy
    · exact (h.friends _ _).1 hy
  · exact fun hb => ⟨a, b, rfl, hb⟩

theorem WellFormed.mentions_iff {g : Graph} (h : g.WellFormed) (n : Name) :
    g.Mentions n ↔ g.knows n = true := by
  rw [h.recorded]
  constructor
  · rintro (⟨e, he, hn⟩ | ⟨⟨x, y⟩, hr, rfl | rfl⟩)
    · obtain ⟨m, rfl⟩ := hn
      exact Or.inl (List.ne_nil_of_mem (h.mem_friendships.1 he))
    · exact Or.inr (Or.inl (List.ne_nil_of_mem hr))
    · exact Or.inr (Or.inr (List.ne_nil_of_mem ((h.requests _ _).1 hr)))
  · rintro (hne | hne | hne)
    · obtain ⟨m, hm⟩ := List.exists_mem_of_ne_nil _ hne
      exact Or.inl ⟨s(n, m), h.mem_friendships.2 hm, by simp⟩
    · obtain ⟨m, hm⟩ := List.exists_mem_of_ne_nil _ hne
      exact Or.inr ⟨(n, m), hm, by simp⟩
    · obtain ⟨m, hm⟩ := List.exists_mem_of_ne_nil _ hne
      exact Or.inr ⟨(m, n), (h.requests _ _).2 hm, by simp⟩

/-! ## Edits of one pair -/

section

variable {g : Graph} {a b : Name} (hab : a ≠ b) {left right : Ties}
  (hleft : Ties.SameBut b left (g.ties a)) (hright : Ties.SameBut a right (g.ties b))
include hab hleft hright

/-- Whether two players are friends changes for the edited pair only. -/
theorem WellFormed.mem_friendships_savePair (h : g.WellFormed)
    (h' : (g.savePair a left b right).WellFormed) (e : Sym2 Name) :
    e ∈ (g.savePair a left b right).friendships ↔
      (e = s(a, b) ∧ b ∈ left.friends) ∨ (e ≠ s(a, b) ∧ e ∈ g.friendships) := by
  induction e with | h m n =>
  have hmutual := h'.friends a b
  simp only [h'.mem_friendships, h.mem_friendships, ne_eq, Sym2.eq_iff]
  rw [ties_savePair] at hmutual ⊢
  unfold editPair at hmutual ⊢
  by_cases hb : m = b
  · subst hb
    by_cases hn : n = a <;> grind [Ties.SameBut]
  · by_cases ha : m = a
    · subst ha
      by_cases hn : n = b <;> grind [Ties.SameBut]
    · simp [hb, ha]

/-- Whether there is a request changes for the edited pair only. -/
theorem mem_requests_savePair (r : Name × Name) :
    r ∈ (g.savePair a left b right).requests ↔
      (r = (a, b) ∧ b ∈ left.sent) ∨ (r = (b, a) ∧ a ∈ right.sent) ∨
        (r ≠ (a, b) ∧ r ≠ (b, a) ∧ r ∈ g.requests) := by
  obtain ⟨m, n⟩ := r
  simp only [mem_requests, ties_savePair, editPair, ne_eq, Prod.mk.injEq]
  by_cases hb : m = b
  · subst hb
    by_cases hn : n = a <;> grind [Ties.SameBut]
  · by_cases ha : m = a
    · subst ha
      by_cases hn : n = b <;> grind [Ties.SameBut]
    · simp [hb, ha]

theorem WellFormed.friendships_savePair (h : g.WellFormed)
    (h' : (g.savePair a left b right).WellFormed)
    (hfriends : b ∈ left.friends ↔ b ∈ (g.ties a).friends) :
    (g.savePair a left b right).friendships = g.friendships := by
  ext e
  rw [h.mem_friendships_savePair hab hleft hright h']
  by_cases he : e = s(a, b)
  · subst he
    simp [h.mem_friendships, hfriends]
  · simp [he]

/-- When the second player's own requests stay, only the first one's request changes. -/
theorem mem_requests_savePair_left (hsent : a ∈ right.sent ↔ a ∈ (g.ties b).sent)
    (r : Name × Name) :
    r ∈ (g.savePair a left b right).requests ↔
      (r = (a, b) ∧ b ∈ left.sent) ∨ (r ≠ (a, b) ∧ r ∈ g.requests) := by
  rw [mem_requests_savePair hab hleft hright]
  by_cases hr : r = (b, a)
  · subst hr
    simp [hab, hsent]
  · simp [hr]

end

section

variable {g : Graph} (h : g.WellFormed) {a b : Name} (hab : a ≠ b)
include h hab

/-- Two players become friends: the pair comes in, the requests between them go. -/
theorem WellFormed.pairs_befriend {g' : Graph}
    (hg' : g' = g.savePair a ((g.ties a).befriend b) b ((g.ties b).befriend a)) :
    g'.friendships = insert s(a, b) g.friendships ∧
      g'.requests = g.requests \ {(a, b), (b, a)} ∧
      ChangesOnly (fun n => n = a ∨ n = b) g g' := by
  subst hg'
  refine ⟨?_, ?_, changesOnly_savePair (Ties.keepsOrder_befriend _ _)
    (Ties.keepsOrder_befriend _ _)⟩
  · ext e
    rw [h.mem_friendships_savePair hab (Ties.sameBut_befriend _ _) (Ties.sameBut_befriend _ _)
      (h.befriend hab)]
    simp only [Ties.mem_befriend, Set.mem_insert_iff]
    tauto
  · ext r
    rw [mem_requests_savePair hab (Ties.sameBut_befriend _ _) (Ties.sameBut_befriend _ _)]
    simp only [Ties.befriend, Ties.mem_without, Set.mem_sdiff, Set.mem_insert_iff,
      Set.mem_singleton_iff]
    tauto

theorem WellFormed.pairs_unfriend {g' : Graph}
    (hg' : g' = g.savePair a ((g.ties a).unfriend b) b ((g.ties b).unfriend a)) :
    g'.friendships = g.friendships \ {s(a, b)} ∧ g'.requests = g.requests ∧
      ChangesOnly (fun n => n = a ∨ n = b) g g' := by
  subst hg'
  refine ⟨?_, ?_, changesOnly_savePair (Ties.keepsOrder_unfriend _ _)
    (Ties.keepsOrder_unfriend _ _)⟩
  · ext e
    rw [h.mem_friendships_savePair hab (Ties.sameBut_unfriend _ _) (Ties.sameBut_unfriend _ _)
      (h.unfriend hab)]
    simp only [Ties.unfriend, Ties.mem_without, Set.mem_sdiff, Set.mem_singleton_iff]
    tauto
  · ext r
    rw [mem_requests_savePair_left hab (Ties.sameBut_unfriend _ _) (Ties.sameBut_unfriend _ _)
      Iff.rfl]
    by_cases hr : r = (a, b)
    · subst hr
      simp [Ties.unfriend]
    · simp [hr]

theorem WellFormed.pairs_addRequest (hsent : (a, b) ∉ g.requests)
    (hfriends : s(a, b) ∉ g.friendships) {g' : Graph}
    (hg' : g' = g.savePair a ((g.ties a).addSent b) b ((g.ties b).addReceived a)) :
    g'.friendships = g.friendships ∧ g'.requests = insert (a, b) g.requests ∧
      ChangesOnly (fun n => n = a ∨ n = b) g g' := by
  have hreceived : a ∉ (g.ties b).received := (h.requests a b).not.1 hsent
  have h' := h.addRequest hab hsent (h.mem_friendships.not.1 hfriends)
  subst hg'
  refine ⟨h.friendships_savePair hab (Ties.sameBut_addSent _ _) (Ties.sameBut_addReceived _ _) h'
    Iff.rfl, ?_, changesOnly_savePair (Ties.keepsOrder_addSent hsent)
      (Ties.keepsOrder_addReceived hreceived)⟩
  ext r
  rw [mem_requests_savePair_left hab (Ties.sameBut_addSent _ _) (Ties.sameBut_addReceived _ _)
    Iff.rfl]
  simp only [Ties.addSent, List.mem_append, List.mem_singleton, Set.mem_insert_iff]
  tauto

theorem WellFormed.pairs_dropRequest {g' : Graph}
    (hg' : g' = g.savePair a ((g.ties a).dropSent b) b ((g.ties b).dropReceived a)) :
    g'.friendships = g.friendships ∧ g'.requests = g.requests \ {(a, b)} ∧
      ChangesOnly (fun n => n = a ∨ n = b) g g' := by
  subst hg'
  refine ⟨h.friendships_savePair hab (Ties.sameBut_dropSent _ _) (Ties.sameBut_dropReceived _ _)
    (h.dropRequest hab) Iff.rfl, ?_, changesOnly_savePair (Ties.keepsOrder_dropSent _ _)
      (Ties.keepsOrder_dropReceived _ _)⟩
  ext r
  rw [mem_requests_savePair_left hab (Ties.sameBut_dropSent _ _) (Ties.sameBut_dropReceived _ _)
    Iff.rfl]
  simp only [Ties.dropSent, Ties.mem_without, Set.mem_sdiff, Set.mem_singleton_iff]
  tauto

end

/-! ## Whole players -/

theorem substitute_ne {old new : Name} (hne : old ≠ new) (n : Name) :
    Ties.substitute old new n ≠ old := by
  unfold Ties.substitute
  split
  · exact hne.symm
  · assumption

theorem substitute_substitute {old new n : Name} (hn : n ≠ new) :
    Ties.substitute new old (Ties.substitute old new n) = n := by
  unfold Ties.substitute
  by_cases ho : n = old <;> simp [ho, hn]

theorem substitute_self (n : Name) : Ties.substitute n n = id := by
  funext m
  unfold Ties.substitute
  split
  · next hm => exact hm.symm
  · rfl

theorem renamePeer_self (n : Name) (t : Ties) : t.renamePeer n n = t := by
  simp [Ties.renamePeer, Ties.mapLists, substitute_self]

section

variable {g g' : Graph} (h : g.WellFormed) (h' : g'.WellFormed)
include h h'

/-- One name is put in the place of another, in the pairs and in every list. -/
theorem WellFormed.pairs_rename {old new : Name} (hne : old ≠ new) (hnew : g.knows new = false)
    (hg' : g'.ties = renameTies g.ties old new) :
    g'.friendships = Sym2.map (Ties.substitute old new) '' g.friendships ∧
      g'.requests =
        Prod.map (Ties.substitute old new) (Ties.substitute old new) '' g.requests ∧
      ∀ n, n ≠ new →
        g'.ties (Ties.substitute old new n) = (g.ties n).renamePeer old new := by
  have hempty := (h.knows_eq_false_iff new).1 hnew
  have hfresh := h.not_mem_of_isEmpty hempty
  have hnone : g.ties new = .empty := Ties.isEmpty_iff.1 hempty
  have hrename := h.mem_renameTies hne hempty
  refine ⟨?_, ?_, ?_⟩
  · ext e
    induction e with | h m n =>
    rw [h'.mem_friendships, hg', (hrename m n).1, Set.mem_image]
    constructor
    · rintro ⟨hm, hn, hmem⟩
      exact ⟨_, h.mem_friendships.2 hmem, by
        simp [Sym2.map_mk, substitute_substitute hm, substitute_substitute hn]⟩
    · -- nobody mentions the new name, so going back from it loses nothing
      rintro ⟨e, he, heq⟩
      induction e with | h x y =>
      have hy := h.mem_friendships.1 he
      have hxnew : x ≠ new := fun hx => by simp [hx, hnone, Ties.empty] at hy
      have hynew : y ≠ new := fun hy' => (hfresh x).1 (hy' ▸ hy)
      have hx' := h.mem_friendships.1 (Sym2.eq_swap ▸ he)
      rw [Sym2.map_mk, Sym2.eq_iff] at heq
      rcases heq with ⟨rfl, rfl⟩ | ⟨rfl, rfl⟩
      · simp [substitute_ne hne, substitute_substitute hxnew, substitute_substitute hynew, hy]
      · simp [substitute_ne hne, substitute_substitute hxnew, substitute_substitute hynew, hx']
  · ext ⟨m, n⟩
    rw [mem_requests, hg', (hrename m n).2.1, Set.mem_image]
    constructor
    · rintro ⟨hm, hn, hmem⟩
      refine ⟨(Ties.substitute new old m, Ties.substitute new old n), hmem, ?_⟩
      rw [Prod.map_apply, substitute_substitute hm, substitute_substitute hn]
    · rintro ⟨⟨x, y⟩, hy, heq⟩
      rw [mem_requests] at hy
      have hxnew : x ≠ new := fun hx => by simp [hx, hnone, Ties.empty] at hy
      have hynew : y ≠ new := fun hy' => (hfresh x).2.1 (hy' ▸ hy)
      obtain ⟨rfl, rfl⟩ := Prod.mk.injEq .. ▸ heq
      simp [substitute_ne hne, substitute_substitute hxnew, substitute_substitute hynew, hy]
  · intro n hn
    rw [hg']
    unfold renameTies
    by_cases hold : n = old
    · subst hold
      simp [Ties.substitute, Ties.renamePeer_of_not_mem (h.irreflexive n)]
    · simp [Ties.substitute, hold, hn]

/-- A player's pairs go, and no others. -/
theorem WellFormed.pairs_purge {p : Name} (hg' : g'.ties = purgeTies g.ties p) :
    g'.friendships = {e | e ∈ g.friendships ∧ p ∉ e} ∧
      g'.requests = {r | r ∈ g.requests ∧ r.1 ≠ p ∧ r.2 ≠ p} ∧
      ChangesOnly (fun n => n = p ∨ n ∈ (g.ties p).peers) g g' := by
  refine ⟨?_, ?_, ⟨?_, ?_⟩⟩
  · ext e
    induction e with | h m n =>
    rw [Set.mem_ofPred_eq, h'.mem_friendships, hg', (Consistent.mem_purgeTies p m n).1,
      h.mem_friendships, Sym2.mem_iff]
    tauto
  · ext ⟨m, n⟩
    rw [Set.mem_ofPred_eq, mem_requests, hg', (Consistent.mem_purgeTies p m n).2.1, mem_requests]
    tauto
  · intro n hn
    simp only [not_or] at hn
    simp [hg', purgeTies, hn.1, Ties.forgetPeer_of_not_mem (h.not_mem_of_not_mem_peers hn.2)]
  · intro n
    rw [hg']
    unfold purgeTies
    split
    · exact Ties.keepsOrder_empty _
    · exact Ties.keepsOrder_forgetPeer _ _

end

end Graph

end Amity
