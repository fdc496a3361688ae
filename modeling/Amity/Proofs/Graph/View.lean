/-
  Amity/Proofs/Graph/View.lean
  ============================
  **The stored graph as a function from players to ties.**  `Graph.ties` reads a graph off its
  records.  A graph is canonical when its records are exactly the texts of the ties that are not
  empty, each under the name of its player; then every record can be read, and there is one for a
  player exactly when the player has a tie (`load_eq_ties`, `knows_iff`).

  Writing and dropping records is said here once through this view; what follows about the
  operations on the graph never looks at texts again.
-/
import Amity.Database.Graph
import Amity.Proofs.Records

namespace Amity

@[simp] theorem Name.text_inj {m n : Name} : m.text = n.text ↔ m = n :=
  ⟨Name.ext_text, fun h => h ▸ rfl⟩

namespace Graph

/-- The ties recorded for a player; a record that cannot be read counts as none. -/
def ties (g : Graph) (n : Name) : Ties :=
  match g.load n with
  | .ok t => t
  | .error _ => .empty

/-- Every record stands under a name and is the text of ties that are not empty. -/
def IsCanonical (g : Graph) : Prop :=
  ∀ key text, g.records.find? key = some text →
    ∃ (n : Name) (t : Ties), key = n.text ∧ text = t.encode ∧ t.isEmpty = false

/-! ## Reading -/

theorem load_eq_ties {g : Graph} (h : g.IsCanonical) (n : Name) : g.load n = .ok (g.ties n) := by
  unfold ties load
  cases hfind : g.records.find? n.text with
  | none => rfl
  | some text =>
    obtain ⟨_, t, _, rfl, _⟩ := h n.text text hfind
    simp

/-- There is a record exactly for the players who have a tie. -/
theorem knows_iff {g : Graph} (h : g.IsCanonical) (n : Name) :
    g.knows n = true ↔ (g.ties n).isEmpty = false := by
  unfold knows Table.contains ties load
  cases hfind : g.records.find? n.text with
  | none => simp [Ties.isEmpty, Ties.empty]
  | some text =>
    obtain ⟨_, t, _, rfl, ht⟩ := h n.text text hfind
    simp [ht]

theorem areFriends_iff {g : Graph} (h : g.IsCanonical) {a b : Name} :
    g.areFriends a b = .ok true ↔ b ∈ (g.ties a).friends := by
  unfold areFriends
  rw [load_eq_ties h]
  simp [bind, Except.bind, pure, Except.pure]

@[simp] theorem ties_empty (n : Name) : Graph.empty.ties n = .empty := rfl

theorem isCanonical_empty : Graph.empty.IsCanonical := by
  intro key text hfind
  cases hfind

/-! ## Writing -/

theorem find?_save (g : Graph) (n : Name) (t : Ties) (key : String) :
    (g.save n t).records.find? key =
      if key = n.text then (if t.isEmpty then none else some t.encode)
      else g.records.find? key := by
  unfold save drop
  by_cases ht : t.isEmpty = true <;> simp [ht, Table.find?_erase, Table.find?_insert]

theorem find?_drop (g : Graph) (n : Name) (key : String) :
    (g.drop n).records.find? key = if key = n.text then none else g.records.find? key :=
  Table.find?_erase _ _ _

theorem load_save (g : Graph) (n m : Name) (t : Ties) :
    (g.save n t).load m = if m = n then .ok t else g.load m := by
  unfold load
  rw [find?_save]
  by_cases hm : m = n
  · by_cases ht : t.isEmpty = true
    · simp only [hm, ht, if_true]
      rw [Ties.isEmpty_iff.1 ht]
    · simp [hm, ht]
  · simp [hm]

@[simp] theorem ties_save (g : Graph) (n m : Name) (t : Ties) :
    (g.save n t).ties m = if m = n then t else g.ties m := by
  unfold ties
  rw [load_save]
  by_cases hm : m = n <;> simp [hm]

@[simp] theorem ties_drop (g : Graph) (n m : Name) :
    (g.drop n).ties m = if m = n then .empty else g.ties m := by
  unfold ties load
  rw [find?_drop]
  by_cases hm : m = n <;> simp [hm]

theorem IsCanonical.save {g : Graph} (h : g.IsCanonical) (n : Name) (t : Ties) :
    (g.save n t).IsCanonical := by
  intro key text hfind
  rw [find?_save] at hfind
  split at hfind
  · next hkey =>
    split at hfind
    · cases hfind
    · next ht => exact ⟨n, t, hkey, (Option.some.inj hfind).symm, by simpa using ht⟩
  · exact h key text hfind

theorem IsCanonical.drop {g : Graph} (h : g.IsCanonical) (n : Name) : (g.drop n).IsCanonical := by
  intro key text hfind
  rw [find?_drop] at hfind
  split at hfind
  · cases hfind
  · exact h key text hfind

/-- Editing players one after the other edits each of them, when none is edited twice. -/
theorem editAll_eq_ok (f : Ties → Ties) :
    ∀ (ps : List Name) (g : Graph), g.IsCanonical → ps.Nodup →
      ∃ g', editAll f ps g = .ok g' ∧ g'.IsCanonical ∧
        ∀ n, g'.ties n = if n ∈ ps then f (g.ties n) else g.ties n := by
  intro ps
  induction ps with
  | nil =>
    intro g hg _
    exact ⟨g, rfl, hg, by simp⟩
  | cons p ps ih =>
    intro g hg hps
    obtain ⟨hp, hps⟩ := List.nodup_cons.1 hps
    obtain ⟨g', hedit, hg', hties⟩ := ih (g.save p (f (g.ties p))) (hg.save p _) hps
    refine ⟨g', ?_, hg', ?_⟩
    · unfold editAll
      rw [load_eq_ties hg]
      exact hedit
    · intro n
      rw [hties, ties_save]
      by_cases hn : n = p
      · subst hn
        simp [hp]
      · simp [hn]

end Graph

end Amity
