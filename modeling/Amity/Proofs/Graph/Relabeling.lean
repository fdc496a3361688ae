/-
  Amity/Proofs/Graph/Relabeling.lean
  ==================================
  **A renaming is another label and nothing more.**  The operations on the graph ask of two names
  only whether they are the same.  So a graph in which every name has been exchanged for another
  answers as the first one does, and becomes what the first one becomes, under the exchanged names
  (`Change.onTies_relabel`).  A renaming to a free name is such an exchange, of the old name and the
  new one (`Consistent.renameTies_eq_relabelTies`): nobody mentions the new name before, and nobody
  the old one after.

  Hence it makes no difference to a change whether a renaming comes before it or after it.  What the
  operations do is read off the ties here once more, as one function (`Change.onTies`), so that the
  exchange is followed through one case distinction and not through the records.
-/
import Mathlib.Logic.Equiv.Basic
import Amity.Proofs.Database.Transactions

namespace Amity

/-! ## Ties under other names -/

namespace Ties

/-- The ties with another name in the place of each. -/
def relabel (f : Name → Name) (t : Ties) : Ties := t.mapLists (List.map f)

theorem relabel_congr {f f' : Name → Name} {t : Ties} (h : ∀ n ∈ t.peers, f n = f' n) :
    t.relabel f = t.relabel f' := by
  simp only [mem_peers] at h
  simp only [relabel, mapLists, Ties.mk.injEq]
  refine ⟨List.map_congr_left fun n hn => ?_, List.map_congr_left fun n hn => ?_,
    List.map_congr_left fun n hn => ?_⟩
  · exact h n (Or.inl hn)
  · exact h n (Or.inr (Or.inl hn))
  · exact h n (Or.inr (Or.inr hn))

theorem relabel_id (t : Ties) : t.relabel id = t := by
  simp [relabel, mapLists]

theorem relabel_relabel (f f' : Name → Name) (t : Ties) :
    (t.relabel f).relabel f' = t.relabel (f' ∘ f) := by
  simp [relabel, mapLists]

@[simp] theorem isEmpty_relabel (f : Name → Name) (t : Ties) :
    (t.relabel f).isEmpty = t.isEmpty := by
  simp [relabel, mapLists, isEmpty]

section

variable {f : Name → Name} (hf : Function.Injective f) (n : Name) (t : Ties)
include hf

theorem mem_relabel_friends : f n ∈ (t.relabel f).friends ↔ n ∈ t.friends :=
  List.mem_map_of_injective hf

theorem mem_relabel_sent : f n ∈ (t.relabel f).sent ↔ n ∈ t.sent :=
  List.mem_map_of_injective hf

theorem map_without (ns : List Name) : (without n ns).map f = without (f n) (ns.map f) := by
  unfold without
  rw [List.filter_map]
  simp [Function.comp_def, hf.eq_iff]

theorem relabel_befriend : (t.befriend n).relabel f = (t.relabel f).befriend (f n) := by
  have hmem := mem_relabel_friends hf n t
  simp only [relabel, mapLists] at hmem
  simp only [relabel, mapLists, befriend, map_without hf, hmem]
  split <;> simp

theorem relabel_unfriend : (t.unfriend n).relabel f = (t.relabel f).unfriend (f n) := by
  simp only [relabel, mapLists, unfriend, map_without hf]

omit hf in
theorem relabel_addSent : (t.addSent n).relabel f = (t.relabel f).addSent (f n) := by
  simp [relabel, mapLists, addSent]

omit hf in
theorem relabel_addReceived : (t.addReceived n).relabel f = (t.relabel f).addReceived (f n) := by
  simp [relabel, mapLists, addReceived]

theorem relabel_dropSent : (t.dropSent n).relabel f = (t.relabel f).dropSent (f n) := by
  simp only [relabel, mapLists, dropSent, map_without hf]

theorem relabel_dropReceived : (t.dropReceived n).relabel f = (t.relabel f).dropReceived (f n) := by
  simp only [relabel, mapLists, dropReceived, map_without hf]

theorem relabel_forgetPeer : (t.forgetPeer n).relabel f = (t.relabel f).forgetPeer (f n) := by
  simp only [relabel, mapLists, forgetPeer, map_without hf]

theorem relabel_renamePeer (old new : Name) :
    (t.renamePeer old new).relabel f = (t.relabel f).renamePeer (f old) (f new) := by
  have hsubstitute : f ∘ substitute old new = substitute (f old) (f new) ∘ f := by
    funext m
    by_cases hm : m = old <;> simp [substitute, hm, hf.eq_iff]
  simp [relabel, mapLists, renamePeer, hsubstitute]

end

end Ties

/-! ## The ties of all players under other names -/

/-- The ties of all players after the names have been exchanged. -/
def relabelTies (π : Equiv.Perm Name) (ties : Name → Ties) : Name → Ties :=
  fun n => (ties (π.symm n)).relabel π

section

variable (π : Equiv.Perm Name) (ties : Name → Ties)

@[simp] theorem relabelTies_apply (n : Name) : relabelTies π ties (π n) = (ties n).relabel π := by
  simp [relabelTies]

theorem relabelTies_editPair (a b : Name) (left right : Ties) :
    relabelTies π (editPair ties a left b right) =
      editPair (relabelTies π ties) (π a) (left.relabel π) (π b) (right.relabel π) := by
  funext n
  unfold relabelTies editPair
  simp only [Equiv.symm_apply_eq]
  split
  · rfl
  · split <;> rfl

theorem relabelTies_renameTies (old new : Name) :
    relabelTies π (renameTies ties old new) = renameTies (relabelTies π ties) (π old) (π new) := by
  funext n
  unfold renameTies
  rw [relabelTies_apply]
  unfold relabelTies
  simp only [Equiv.symm_apply_eq]
  split
  · rfl
  · split
    · rfl
    · exact Ties.relabel_renamePeer π.injective _ _ _

theorem relabelTies_purgeTies (p : Name) :
    relabelTies π (purgeTies ties p) = purgeTies (relabelTies π ties) (π p) := by
  funext n
  unfold relabelTies purgeTies
  simp only [Equiv.symm_apply_eq]
  split
  · rfl
  · exact Ties.relabel_forgetPeer π.injective _ _

/-- Names exchanged and exchanged back. -/
theorem relabelTies_relabelTies_symm : relabelTies π.symm (relabelTies π ties) = ties := by
  funext n
  simp [relabelTies, Ties.relabel_relabel, Ties.relabel_id]

end

/-! ### An exchange with a name that nobody has -/

/-- To exchange a name with one that is not there is to put that one in its place. -/
theorem swap_eq_substitute {old new n : Name} (hn : n ≠ new) :
    Equiv.swap old new n = Ties.substitute old new n := by
  unfold Ties.substitute
  split
  · next hold => rw [hold, Equiv.swap_apply_left]
  · next hold => exact Equiv.swap_apply_of_ne_of_ne hold hn

theorem Ties.relabel_swap {t : Ties} {old new : Name} (hnew : new ∉ t.peers) :
    t.relabel (Equiv.swap old new) = t.renamePeer old new :=
  relabel_congr fun _ hn => swap_eq_substitute fun heq => hnew (heq ▸ hn)

/-- A renaming to a name without ties exchanges the two names. -/
theorem Consistent.renameTies_eq_relabelTies {ties : Name → Ties} (h : Consistent ties)
    {old new : Name} (hnew : (ties new).isEmpty = true) :
    renameTies ties old new = relabelTies (Equiv.swap old new) ties := by
  have hfresh := h.not_mem_peers_of_isEmpty hnew
  funext n
  unfold renameTies relabelTies
  rw [Equiv.symm_swap]
  split
  · next hn =>
    -- nobody is tied to himself, so that the player's own lists stay as they are
    rw [hn, Equiv.swap_apply_right, Ties.relabel_swap (hfresh old),
      Ties.renamePeer_of_not_mem (h.irreflexive old)]
  · split
    · next hn =>
      rw [hn, Equiv.swap_apply_left, Ties.isEmpty_iff.1 hnew]
      rfl
    · next hnew hold =>
      rw [Equiv.swap_apply_of_ne_of_ne hold hnew, Ties.relabel_swap (hfresh n)]

/-! ## Calls under other names -/

/-- The same error about other names. -/
def GraphError.relabel (f : Name → Name) : GraphError → GraphError
  | .corrupt => .corrupt
  | .selfRelation => .selfRelation
  | .alreadyFriends a b => .alreadyFriends (f a) (f b)
  | .nameInUse n => .nameInUse (f n)

/-- The same answer about other names. -/
def Answer.relabel (f : Name → Name) : Answer → Answer
  | .done => .done
  | .decided made => .decided made
  | .ties t => .ties (t.relabel f)
  | .former t => .former (t.map (·.relabel f))
  | .account p => .account { p with name := f p.name }
  | .lookup p => .lookup (p.map fun p => { p with name := f p.name })
  | .names ns => .names (ns.map f)

namespace Graph

/-- The same call with other names. -/
def Change.relabel (f : Name → Name) : Change → Change
  | .befriend a b => .befriend (f a) (f b)
  | .unfriend a b => .unfriend (f a) (f b)
  | .request a b => .request (f a) (f b)
  | .withdraw a b => .withdraw (f a) (f b)
  | .accept a b => .accept (f a) (f b)
  | .rename old new => .rename (f old) (f new)
  | .purge n => .purge (f n)

/-- The names that a call is made with. -/
def Change.names : Change → List Name
  | .befriend a b | .unfriend a b | .request a b | .withdraw a b | .accept a b
  | .rename a b => [a, b]
  | .purge n => [n]

theorem Change.relabel_congr {f f' : Name → Name} {c : Change} (h : ∀ n ∈ c.names, f n = f' n) :
    c.relabel f = c.relabel f' := by
  cases c <;> simp_all [relabel, names]

/-- What a call answers, or why it fails. -/
def answer (g : Graph) (c : Change) : Except GraphError Answer := (g.respond c).map Prod.fst

/-- What is answered, or why not, with other names. -/
def relabelAnswer (f : Name → Name) (r : Except GraphError Answer) : Except GraphError Answer :=
  (r.mapError (GraphError.relabel f)).map (Answer.relabel f)

/-! ### Calls on the ties -/

/-- A change between two players that is made under a condition; tells whether it is made. -/
def editWhen (p : Prop) [Decidable p] (ties : Name → Ties) (a : Name) (left : Ties) (b : Name)
    (right : Ties) : Answer × (Name → Ties) :=
  if p then (.decided true, editPair ties a left b right) else (.decided false, ties)

/-- What a call answers and what becomes of the ties of all players. -/
def Change.onTies (ties : Name → Ties) : Change → Except GraphError (Answer × (Name → Ties))
  | .befriend a b =>
    if a = b then .error .selfRelation
    else if b ∈ (ties a).friends then .error (.alreadyFriends a b)
    else .ok (.done, editPair ties a ((ties a).befriend b) b ((ties b).befriend a))
  | .unfriend a b =>
    .ok (editWhen (b ∈ (ties a).friends) ties a ((ties a).unfriend b) b ((ties b).unfriend a))
  | .request a b =>
    .ok (editWhen (¬ (a = b ∨ b ∈ (ties a).sent ∨ b ∈ (ties a).friends)) ties
      a ((ties a).addSent b) b ((ties b).addReceived a))
  | .withdraw a b =>
    .ok (editWhen (b ∈ (ties a).sent) ties a ((ties a).dropSent b) b ((ties b).dropReceived a))
  | .accept a b =>
    .ok (editWhen (b ∈ (ties a).sent) ties a ((ties a).befriend b) b ((ties b).befriend a))
  | .rename old new =>
    if old = new then .ok (.done, ties)
    else if (ties new).isEmpty then .ok (.done, renameTies ties old new)
    else .error (.nameInUse new)
  | .purge n => .ok (.ties (ties n), purgeTies ties n)

section

variable {g : Graph} (h : g.WellFormed)
include h

/-- On a well-formed graph a call is what it is on the ties. -/
theorem WellFormed.respond_eq (c : Change) :
    (g.respond c).map (Prod.map id Graph.ties) = c.onTies g.ties := by
  cases c with
  | befriend a b =>
    simp only [respond, addFriendship_eq h.canonical, Change.onTies]
    split
    · rfl
    · split
      · rfl
      · simp [Except.map]
  | unfriend a b =>
    simp only [respond, removeFriendship_eq h.canonical, Change.onTies, editWhen]
    split <;> simp [Except.map]
  | request a b =>
    simp only [respond, createRequest_eq h.canonical, Change.onTies, editWhen, ite_not]
    split <;> simp [Except.map]
  | withdraw a b =>
    simp only [respond, deleteRequest_eq h.canonical, Change.onTies, editWhen]
    split <;> simp [Except.map]
  | accept a b =>
    simp only [respond, acceptRequest_eq h.canonical, Change.onTies, editWhen]
    split <;> simp [Except.map]
  | rename old new =>
    simp only [respond, Change.onTies]
    by_cases hne : old = new
    · subst hne
      simp [rename_eq_self h.canonical, Except.map]
    · cases hnew : g.knows new with
      | true =>
        have hties : (g.ties new).isEmpty = false := (knows_iff h.canonical new).1 hnew
        simp [rename_eq_error h.canonical hne hnew, hne, hties, Except.map]
      | false =>
        have hempty := (h.knows_eq_false_iff new).1 hnew
        obtain ⟨g', heq, -, hties⟩ := h.rename_eq_ok hne hnew
        simp [heq, hne, hempty, hties, Except.map]
  | purge n =>
    obtain ⟨g', heq, -, hties⟩ := h.purge_eq_ok n
    simp [respond, Change.onTies, heq, hties, Except.map]

theorem WellFormed.answer_eq (c : Change) : g.answer c = (c.onTies g.ties).map Prod.fst := by
  rw [← h.respond_eq]
  unfold answer
  cases g.respond c <;> rfl

theorem WellFormed.ties_apply (c : Change) :
    (g.apply c).ties = outcomeOr g.ties ((c.onTies g.ties).map Prod.snd) := by
  rw [← h.respond_eq]
  unfold Graph.apply
  rw [← map_snd_respond]
  cases g.respond c <;> rfl

end

/-! ### Exchanged names -/

section

variable (π : Equiv.Perm Name) (ties : Name → Ties)

theorem editWhen_relabel {p p' : Prop} [Decidable p] [Decidable p'] (hp : p' ↔ p) (a b : Name)
    (left right : Ties) :
    editWhen p' (relabelTies π ties) (π a) (left.relabel π) (π b) (right.relabel π) =
      Prod.map (Answer.relabel π) (relabelTies π) (editWhen p ties a left b right) := by
  simp only [editWhen, hp, ← relabelTies_editPair]
  split <;> rfl

/-- **A call with exchanged names**, on the ties under them, answers the same under these names, and
    the ties become the same under them. -/
theorem Change.onTies_relabel (c : Change) :
    (c.relabel π).onTies (relabelTies π ties) =
      ((c.onTies ties).mapError (GraphError.relabel π)).map
        (Prod.map (Answer.relabel π) (relabelTies π)) := by
  have hπ := π.injective
  have hfriends := fun a b => Ties.mem_relabel_friends hπ b (ties a)
  have hsent := fun a b => Ties.mem_relabel_sent hπ b (ties a)
  cases c with
  | befriend a b =>
    simp only [relabel, onTies, relabelTies_apply, hπ.eq_iff, hfriends, ← Ties.relabel_befriend hπ,
      ← relabelTies_editPair]
    split
    · rfl
    · split <;> rfl
  | unfriend a b =>
    simp only [relabel, onTies, relabelTies_apply, ← Ties.relabel_unfriend hπ]
    exact congrArg Except.ok (editWhen_relabel π ties (hfriends a b) a b _ _)
  | request a b =>
    simp only [relabel, onTies, relabelTies_apply, ← Ties.relabel_addSent,
      ← Ties.relabel_addReceived]
    refine congrArg Except.ok (editWhen_relabel π ties ?_ a b _ _)
    rw [hπ.eq_iff, hsent, hfriends]
  | withdraw a b =>
    simp only [relabel, onTies, relabelTies_apply, ← Ties.relabel_dropSent hπ,
      ← Ties.relabel_dropReceived hπ]
    exact congrArg Except.ok (editWhen_relabel π ties (hsent a b) a b _ _)
  | accept a b =>
    simp only [relabel, onTies, relabelTies_apply, ← Ties.relabel_befriend hπ]
    exact congrArg Except.ok (editWhen_relabel π ties (hsent a b) a b _ _)
  | rename old new =>
    simp only [relabel, onTies, relabelTies_apply, hπ.eq_iff, Ties.isEmpty_relabel,
      ← relabelTies_renameTies]
    split
    · rfl
    · split <;> rfl
  | purge n =>
    simp only [relabel, onTies, relabelTies_apply, ← relabelTies_purgeTies]
    rfl

end

/-! ### A free name stays free -/

section

variable {ties : Name → Ties} {n : Name}

theorem editPair_eq_empty {a b : Name} (ha : n ≠ a) (hb : n ≠ b) (left right : Ties)
    (hn : ties n = .empty) : editPair ties a left b right n = .empty := by
  simp [editPair, ha, hb, hn]

theorem editWhen_eq_empty (p : Prop) [Decidable p] {a b : Name} (ha : n ≠ a) (hb : n ≠ b)
    (left right : Ties) (hn : ties n = .empty) :
    (editWhen p ties a left b right).2 n = .empty := by
  unfold editWhen
  split
  · exact editPair_eq_empty ha hb left right hn
  · exact hn

/-- A player without ties gets none by a call that does not name the player. -/
theorem Change.onTies_eq_empty {c : Change} {r : Answer × (Name → Ties)}
    (hcall : c.onTies ties = .ok r) (hc : n ∉ c.names) (hn : ties n = .empty) :
    r.2 n = .empty := by
  cases c with
  | befriend a b =>
    simp only [names, List.mem_cons, List.not_mem_nil, or_false, not_or] at hc
    simp only [onTies] at hcall
    split at hcall
    · cases hcall
    · split at hcall
      · cases hcall
      · cases hcall
        exact editPair_eq_empty hc.1 hc.2 _ _ hn
  | rename old new =>
    simp only [names, List.mem_cons, List.not_mem_nil, or_false, not_or] at hc
    simp only [onTies] at hcall
    split at hcall
    · cases hcall
      exact hn
    · split at hcall
      · cases hcall
        simp only [renameTies, hc, if_false, hn]
        rfl
      · cases hcall
  | purge p =>
    simp only [names, List.mem_cons, List.not_mem_nil, or_false] at hc
    cases hcall
    simp only [purgeTies, hc, if_false, hn]
    rfl
  | _ a b =>
    simp only [names, List.mem_cons, List.not_mem_nil, or_false, not_or] at hc
    cases hcall
    exact editWhen_eq_empty _ hc.1 hc.2 _ _ hn

/-- The answer to a call is about the names of the call and of the ties. -/
theorem Change.relabelAnswer_congr {f f' : Name → Name} {c : Change}
    (hc : ∀ n ∈ c.names, f n = f' n) (hties : ∀ n, (ties n).relabel f = (ties n).relabel f') :
    relabelAnswer f ((c.onTies ties).map Prod.fst) =
      relabelAnswer f' ((c.onTies ties).map Prod.fst) := by
  have hmade : ∀ (p : Prop) [Decidable p] (a b : Name) (left right : Ties),
      ((editWhen p ties a left b right).1).relabel f =
        ((editWhen p ties a left b right).1).relabel f' := by
    intro p _ a b left right
    unfold editWhen
    split <;> rfl
  cases c with
  | befriend a b =>
    simp only [onTies]
    split
    · rfl
    · split
      · have ha : f a = f' a := hc a (by simp [names])
        have hb : f b = f' b := hc b (by simp [names])
        simp [relabelAnswer, Except.map, Except.mapError, GraphError.relabel, ha, hb]
      · rfl
  | rename old new =>
    simp only [onTies]
    split
    · rfl
    · split
      · rfl
      · have hnew : f new = f' new := hc new (by simp [names])
        simp [relabelAnswer, Except.map, Except.mapError, GraphError.relabel, hnew]
  | purge p => simp [onTies, relabelAnswer, Except.map, Except.mapError, Answer.relabel, hties]
  | _ a b => exact congrArg Except.ok (hmade _ _ _ _ _)

end

/-! ### A renaming before and after -/

theorem IsCanonical.find?_congr {g g' : Graph} (h : g.IsCanonical) (h' : g'.IsCanonical)
    (hties : g.ties = g'.ties) (key : String) : g.records.find? key = g'.records.find? key := by
  have hview : g.ties? = g'.ties? := by
    unfold ties?
    rw [hties]
  ext text
  rw [h.represents key text, h'.represents key text, hview]

section

variable {g : Graph} (h : g.WellFormed) {old new : Name} (hnew : g.knows new = false)
include h hnew

theorem WellFormed.rename_eq_relabel (hne : old ≠ new) :
    ∃ g', g.rename old new = .ok (g.ties old, g') ∧ g'.WellFormed ∧
      g'.ties = relabelTies (Equiv.swap old new) g.ties := by
  obtain ⟨g', heq, hg', hties⟩ := h.rename_eq_ok hne hnew
  exact ⟨g', heq, hg', hties.trans
    (h.renameTies_eq_relabelTies ((h.knows_eq_false_iff new).1 hnew))⟩

/-- A name stays free when a call is made without it. -/
theorem WellFormed.knows_apply_eq_false {c : Change} (hc : new ∉ c.names) :
    (g.apply c).knows new = false := by
  have hempty := Ties.isEmpty_iff.1 ((h.knows_eq_false_iff new).1 hnew)
  rw [(h.apply c).knows_eq_false_iff, h.ties_apply, Ties.isEmpty_iff]
  cases hcall : c.onTies g.ties with
  | error e => exact hempty
  | ok r => exact Change.onTies_eq_empty hcall hc hempty

/-- Nobody mentions a free name, so that an exchange with it puts it in the place of the other. -/
theorem WellFormed.relabelAnswer_swap {c : Change} (hc : new ∉ c.names) :
    relabelAnswer (Equiv.swap old new) (g.answer c) =
      relabelAnswer (Ties.substitute old new) (g.answer c) := by
  have hfresh := h.not_mem_peers_of_isEmpty ((h.knows_eq_false_iff new).1 hnew)
  rw [h.answer_eq]
  refine Change.relabelAnswer_congr (fun n hn => swap_eq_substitute ?_) fun n => ?_
  · rintro rfl
    exact hc hn
  · exact Ties.relabel_swap (hfresh n)

end

/-- **It makes no difference to a call whether a renaming comes before it or after it.**  Both
    renamings succeed, the same records are left behind, and the call answers the same or fails for
    the same reason, with the new name in the place of the old one. -/
theorem rename_comm_apply (cs : List Change) {old new : Name} {c : Change} (hne : old ≠ new)
    (hnew : (Graph.empty.after cs).knows new = false) (hc : new ∉ c.names) :
    ∃ before after, (Graph.empty.after cs).attempt (.rename old new) = .ok before ∧
      ((Graph.empty.after cs).apply c).attempt (.rename old new) = .ok after ∧
      (∀ key, (before.apply (c.relabel (Ties.substitute old new))).records.find? key =
        after.records.find? key) ∧
      before.answer (c.relabel (Ties.substitute old new)) =
        relabelAnswer (Ties.substitute old new) ((Graph.empty.after cs).answer c) := by
  have h : (Graph.empty.after cs).WellFormed := wellFormed_empty.after cs
  generalize Graph.empty.after cs = g at h hnew ⊢
  have happly : (g.apply c).WellFormed := h.apply c
  obtain ⟨before, hbefore, hb, hbties⟩ := h.rename_eq_relabel hnew hne
  obtain ⟨after, hafter, ha, haties⟩ :=
    happly.rename_eq_relabel (h.knows_apply_eq_false hnew hc) hne
  have hcall : c.relabel (Ties.substitute old new) = c.relabel (Equiv.swap old new) := by
    refine Change.relabel_congr fun n hn => (swap_eq_substitute ?_).symm
    rintro rfl
    exact hc hn
  have hrelabel := Change.onTies_relabel (Equiv.swap old new) g.ties c
  refine ⟨before, after, by simp [attempt, hbefore, Except.map],
    by simp [attempt, hafter, Except.map], ?_, ?_⟩
  · refine (hb.apply _).canonical.find?_congr ha.canonical ?_
    rw [hcall, hb.ties_apply, hbties, hrelabel, haties, h.ties_apply]
    cases c.onTies g.ties <;> rfl
  · rw [← h.relabelAnswer_swap hnew hc, hcall, hb.answer_eq, hbties, hrelabel, h.answer_eq]
    cases c.onTies g.ties <;> rfl

/-- Two players ask each other, and one of them has a friend; then the one accepts and takes
    another name. -/
theorem rename_comm_apply_accept :
    let q : Name := ⟨"q", by decide⟩
    let r : Name := ⟨"r", by decide⟩
    let s : Name := ⟨"s", by decide⟩
    let t : Name := ⟨"t", by decide⟩
    let g := Graph.empty.after [.befriend q r, .request s q, .request q s]
    q ≠ t ∧ g.knows t = false ∧ t ∉ (Change.accept s q).names ∧
    ∃ before after, g.attempt (.rename q t) = .ok before ∧
      (g.apply (.accept s q)).attempt (.rename q t) = .ok after ∧
      (∀ key, (before.apply ((Change.accept s q).relabel (Ties.substitute q t))).records.find? key =
        after.records.find? key) ∧
      before.answer ((Change.accept s q).relabel (Ties.substitute q t)) =
        relabelAnswer (Ties.substitute q t) (g.answer (.accept s q)) := by
  intro q r s t g
  have hne : q ≠ t := by decide
  have hnew : g.knows t = false := by decide +kernel
  have hc : t ∉ (Change.accept s q).names := by decide
  exact ⟨hne, hnew, hc, rename_comm_apply _ hne hnew hc⟩

end Graph

end Amity
