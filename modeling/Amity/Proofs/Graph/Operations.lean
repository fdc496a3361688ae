/-
  Amity/Proofs/Graph/Operations.lean
  ==================================
  **What the operations do to the ties.**  On a graph whose records can all be read an operation is
  one case distinction on the ties: here each is written so, once, and every graph that comes out
  of a well-formed one is shown to be well-formed.  Later modules use these equations and never
  unfold an operation.
-/
import Amity.Proofs.Graph.Consistent

namespace Amity.Graph

/-! ## Well-formed graphs -/

/-- The records are the texts of ties that agree with each other. -/
structure WellFormed (g : Graph) : Prop extends Consistent g.ties where
  /-- Every record stands under a name and is the text of ties that are not empty. -/
  canonical : g.IsCanonical
  /-- There is a record exactly for a player with a friend or a request. -/
  recorded : ∀ n, g.knows n = true ↔
    (g.ties n).friends ≠ [] ∨ (g.ties n).sent ≠ [] ∨ (g.ties n).received ≠ []

theorem WellFormed.of_consistent {g : Graph} (hg : g.IsCanonical) (h : Consistent g.ties) :
    g.WellFormed where
  toConsistent := h
  canonical := hg
  recorded n := by
    rw [knows_iff hg]
    simp only [Ties.isEmpty, Bool.and_eq_false_iff, List.isEmpty_eq_false_iff, or_assoc]

theorem wellFormed_empty : Graph.empty.WellFormed :=
  .of_consistent isCanonical_empty Consistent.empty

theorem WellFormed.knows_eq_false_iff {g : Graph} (h : g.WellFormed) (n : Name) :
    g.knows n = false ↔ (g.ties n).isEmpty = true := by
  rw [← Bool.not_eq_true, knows_iff h.canonical, Bool.not_eq_false]

/-! ## Two players -/

/-- The graph after two players' ties have been written. -/
def savePair (g : Graph) (a : Name) (left : Ties) (b : Name) (right : Ties) : Graph :=
  (g.save a left).save b right

@[simp] theorem ties_savePair (g : Graph) (a b : Name) (left right : Ties) :
    (g.savePair a left b right).ties = editPair g.ties a left b right := by
  funext n
  simp [savePair, editPair]

theorem IsCanonical.savePair {g : Graph} (h : g.IsCanonical) (a b : Name) (left right : Ties) :
    (g.savePair a left b right).IsCanonical :=
  (h.save a left).save b right

section

variable {g : Graph} (hg : g.IsCanonical) (a b : Name)
include hg

theorem addFriendship_eq :
    g.addFriendship a b =
      if a = b then .error .selfRelation
      else if b ∈ (g.ties a).friends then .error (.alreadyFriends a b)
      else .ok (g.savePair a ((g.ties a).befriend b) b ((g.ties b).befriend a)) := by
  unfold addFriendship
  rw [load_eq_ties hg, load_eq_ties hg]
  rfl

theorem removeFriendship_eq :
    g.removeFriendship a b = .ok (
      if b ∈ (g.ties a).friends then
        (true, g.savePair a ((g.ties a).unfriend b) b ((g.ties b).unfriend a))
      else (false, g)) := by
  unfold removeFriendship
  rw [load_eq_ties hg, load_eq_ties hg]
  by_cases hb : b ∈ (g.ties a).friends <;>
    simp [bind, Except.bind, pure, Except.pure, hb, savePair]

theorem createRequest_eq :
    g.createRequest a b = .ok (
      if a = b ∨ b ∈ (g.ties a).sent ∨ b ∈ (g.ties a).friends then (false, g)
      else (true, g.savePair a ((g.ties a).addSent b) b ((g.ties b).addReceived a))) := by
  unfold createRequest
  rw [load_eq_ties hg, load_eq_ties hg]
  by_cases hab : a = b
  · simp [hab]
  · by_cases hb : b ∈ (g.ties a).sent ∨ b ∈ (g.ties a).friends <;>
      simp [bind, Except.bind, pure, Except.pure, hab, hb, savePair]

theorem deleteRequest_eq :
    g.deleteRequest a b = .ok (
      if b ∈ (g.ties a).sent then
        (true, g.savePair a ((g.ties a).dropSent b) b ((g.ties b).dropReceived a))
      else (false, g)) := by
  unfold deleteRequest
  rw [load_eq_ties hg, load_eq_ties hg]
  by_cases hb : b ∈ (g.ties a).sent <;>
    simp [bind, Except.bind, pure, Except.pure, hb, savePair]

theorem acceptRequest_eq :
    g.acceptRequest a b = .ok (
      if b ∈ (g.ties a).sent then
        (true, g.savePair a ((g.ties a).befriend b) b ((g.ties b).befriend a))
      else (false, g)) := by
  unfold acceptRequest
  rw [load_eq_ties hg, load_eq_ties hg]
  by_cases hb : b ∈ (g.ties a).sent <;>
    simp [bind, Except.bind, pure, Except.pure, hb, savePair]

end

section

variable {g : Graph} (h : g.WellFormed) {a b : Name}
include h

theorem WellFormed.befriend (hab : a ≠ b) :
    (g.savePair a ((g.ties a).befriend b) b ((g.ties b).befriend a)).WellFormed := by
  refine .of_consistent (h.canonical.savePair _ _ _ _) ?_
  rw [ties_savePair]
  apply h.editPair hab (Ties.sameBut_befriend _ _) (Ties.sameBut_befriend _ _)
  · simp [Ties.mem_befriend]
  · simp [Ties.befriend]
  · simp [Ties.befriend]
  · exact ⟨(h.nodup a).befriend, (h.nodup b).befriend⟩
  · simp [Ties.befriend]

theorem WellFormed.unfriend (hab : a ≠ b) :
    (g.savePair a ((g.ties a).unfriend b) b ((g.ties b).unfriend a)).WellFormed := by
  refine .of_consistent (h.canonical.savePair _ _ _ _) ?_
  rw [ties_savePair]
  apply h.editPair hab (Ties.sameBut_unfriend _ _) (Ties.sameBut_unfriend _ _)
  · simp [Ties.unfriend]
  · exact h.requests a b
  · exact (h.requests b a).symm
  · exact ⟨(h.nodup a).unfriend, (h.nodup b).unfriend⟩
  · simp [Ties.unfriend]

theorem WellFormed.addRequest (hab : a ≠ b) (hsent : b ∉ (g.ties a).sent)
    (hfriends : b ∉ (g.ties a).friends) :
    (g.savePair a ((g.ties a).addSent b) b ((g.ties b).addReceived a)).WellFormed := by
  have hreceived : a ∉ (g.ties b).received := (h.requests a b).not.1 hsent
  refine .of_consistent (h.canonical.savePair _ _ _ _) ?_
  rw [ties_savePair]
  apply h.editPair hab (Ties.sameBut_addSent _ _) (Ties.sameBut_addReceived _ _)
  · exact h.friends a b
  · simp [Ties.addSent, Ties.addReceived]
  · exact (h.requests b a).symm
  · exact ⟨(h.nodup a).addSent hsent, (h.nodup b).addReceived hreceived⟩
  · exact fun hb => absurd hb hfriends

theorem WellFormed.dropRequest (hab : a ≠ b) :
    (g.savePair a ((g.ties a).dropSent b) b ((g.ties b).dropReceived a)).WellFormed := by
  refine .of_consistent (h.canonical.savePair _ _ _ _) ?_
  rw [ties_savePair]
  apply h.editPair hab (Ties.sameBut_dropSent _ _) (Ties.sameBut_dropReceived _ _)
  · exact h.friends a b
  · simp [Ties.dropSent, Ties.dropReceived]
  · exact (h.requests b a).symm
  · exact ⟨(h.nodup a).dropSent, (h.nodup b).dropReceived⟩
  · exact fun hb => ⟨by simp [Ties.dropSent], (h.apart a b hb).2⟩

/-! ## Whole players -/

omit h in
theorem rename_eq_self (hg : g.IsCanonical) (n : Name) : g.rename n n = .ok (g.ties n, g) := by
  unfold rename
  rw [load_eq_ties hg]
  simp [bind, Except.bind, pure, Except.pure]

omit h in
theorem rename_eq_error (hg : g.IsCanonical) {old new : Name} (hne : old ≠ new)
    (hnew : g.knows new = true) : g.rename old new = .error (.nameInUse new) := by
  unfold rename
  rw [load_eq_ties hg]
  simp [bind, Except.bind, hne, hnew]

omit h in
/-- A name that could be taken was free. -/
theorem knows_eq_false_of_rename (hg : g.IsCanonical) {old new : Name} (hne : old ≠ new)
    {r : Ties × Graph} (hrename : g.rename old new = .ok r) : g.knows new = false := by
  cases hnew : g.knows new with
  | false => rfl
  | true =>
    rw [rename_eq_error hg hne hnew] at hrename
    cases hrename

/-- Editing the peers of a player edits everybody, as far as one can see: the others do not mention
    the player. -/
theorem WellFormed.editAll_peers {f : Ties → Ties} {n : Name}
    (hf : ∀ t : Ties, n ∉ t.friends ∧ n ∉ t.sent ∧ n ∉ t.received → f t = t) :
    ∃ g', editAll f (g.ties n).peers g = .ok g' ∧ g'.IsCanonical ∧
      ∀ m, g'.ties m = f (g.ties m) := by
  obtain ⟨g', hedit, hg', hties⟩ :=
    editAll_eq_ok f (g.ties n).peers g h.canonical (Ties.nodup_firstOccurrences _)
  refine ⟨g', hedit, hg', ?_⟩
  intro m
  rw [hties]
  split
  · rfl
  · next hm => exact (hf _ (h.not_mem_of_not_mem_peers hm)).symm

theorem WellFormed.rename_eq_ok {old new : Name} (hne : old ≠ new) (hnew : g.knows new = false) :
    ∃ g', g.rename old new = .ok (g.ties old, g') ∧ g'.WellFormed ∧
      g'.ties = renameTies g.ties old new := by
  have hempty := (h.knows_eq_false_iff new).1 hnew
  obtain ⟨edited, hedit, hcanonical, hties⟩ :=
    h.editAll_peers (f := Ties.renamePeer old new) fun _ => Ties.renamePeer_of_not_mem
  refine ⟨(edited.drop old).save new (g.ties old), ?_, ?_⟩
  · unfold rename
    rw [load_eq_ties h.canonical]
    simp [bind, Except.bind, pure, Except.pure, hne, hnew, hedit]
  · have heq : ((edited.drop old).save new (g.ties old)).ties = renameTies g.ties old new := by
      funext n
      simp [renameTies, hties]
    refine ⟨.of_consistent ((hcanonical.drop old).save new _) ?_, heq⟩
    rw [heq]
    exact h.rename hne hempty

theorem WellFormed.purge_eq_ok (p : Name) :
    ∃ g', g.purge p = .ok (g.ties p, g') ∧ g'.WellFormed ∧ g'.ties = purgeTies g.ties p := by
  obtain ⟨edited, hedit, hcanonical, hties⟩ :=
    h.editAll_peers (f := Ties.forgetPeer p) fun _ => Ties.forgetPeer_of_not_mem
  refine ⟨edited.drop p, ?_, ?_⟩
  · unfold purge
    rw [load_eq_ties h.canonical]
    simp [bind, Except.bind, pure, Except.pure, hedit]
  · have heq : (edited.drop p).ties = purgeTies g.ties p := by
      funext n
      simp [purgeTies, hties]
    refine ⟨.of_consistent (hcanonical.drop p) ?_, heq⟩
    rw [heq]
    exact Consistent.purge h.toConsistent p

end

end Amity.Graph
