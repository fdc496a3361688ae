/-
  Amity/Proofs/Changes.lean
  =========================
  **Every graph that can come about is well-formed.**  A `Graph.Change` is a call of one of the
  graph's own operations, a `Database.Change` a call of any operation that writes.  A call that
  fails leaves everything as it was.  Whatever calls are made, in whatever order and with whatever
  names, the graph that starts empty stays well-formed: one lemma for a change, and by induction
  the statement for a list of them (`Database.graph_wellFormed`).
-/
import Amity.Proofs.Database.Operations
import Amity.Proofs.Graph.Operations

namespace Amity

/-- What a call leaves behind: its outcome, or what there was before when it failed. -/
def outcomeOr {ε α : Type} (before : α) : Except ε α → α
  | .ok after => after
  | .error _ => before

theorem exists_of_map_snd_eq_ok {ε α β : Type} {r : Except ε (α × β)} {b : β}
    (h : r.map Prod.snd = .ok b) : ∃ a, r = .ok (a, b) := by
  cases r with
  | error e => cases h
  | ok x => cases h; exact ⟨x.1, rfl⟩

/-! ## Changes of the graph -/

namespace Graph

/-- A call of an operation on the graph. -/
inductive Change where
  | befriend (a b : Name)
  | unfriend (a b : Name)
  | request (sender receiver : Name)
  | withdraw (sender receiver : Name)
  | accept (sender receiver : Name)
  | rename (old new : Name)
  | purge (n : Name)
  deriving DecidableEq, Repr

/-- The graph that a call gives, or why it fails. -/
def attempt (g : Graph) : Change → Except GraphError Graph
  | .befriend a b => g.addFriendship a b
  | .unfriend a b => (g.removeFriendship a b).map Prod.snd
  | .request a b => (g.createRequest a b).map Prod.snd
  | .withdraw a b => (g.deleteRequest a b).map Prod.snd
  | .accept a b => (g.acceptRequest a b).map Prod.snd
  | .rename old new => (g.rename old new).map Prod.snd
  | .purge n => (g.purge n).map Prod.snd

def apply (g : Graph) (c : Change) : Graph := outcomeOr g (g.attempt c)

def after (g : Graph) (cs : List Change) : Graph := cs.foldl apply g

section

variable {g g' : Graph} (h : g.WellFormed)
include h

theorem WellFormed.addFriendship {a b : Name} (hop : g.addFriendship a b = .ok g') :
    g'.WellFormed := by
  rw [addFriendship_eq h.canonical] at hop
  split at hop
  · cases hop
  split at hop
  · cases hop
  · next hab _ =>
    cases hop
    exact h.befriend hab

theorem WellFormed.removeFriendship {a b : Name} {made : Bool}
    (hop : g.removeFriendship a b = .ok (made, g')) : g'.WellFormed := by
  rw [removeFriendship_eq h.canonical] at hop
  split at hop
  · next hb =>
    cases hop
    exact h.unfriend fun hab => (h.irreflexive a).1 (hab ▸ hb)
  · cases hop
    exact h

theorem WellFormed.createRequest {a b : Name} {made : Bool}
    (hop : g.createRequest a b = .ok (made, g')) : g'.WellFormed := by
  rw [createRequest_eq h.canonical] at hop
  split at hop
  · cases hop
    exact h
  · next hb =>
    cases hop
    simp only [not_or] at hb
    exact h.addRequest hb.1 hb.2.1 hb.2.2

theorem WellFormed.deleteRequest {a b : Name} {made : Bool}
    (hop : g.deleteRequest a b = .ok (made, g')) : g'.WellFormed := by
  rw [deleteRequest_eq h.canonical] at hop
  split at hop
  · next hb =>
    cases hop
    exact h.dropRequest fun hab => (h.irreflexive a).2.1 (hab ▸ hb)
  · cases hop
    exact h

theorem WellFormed.acceptRequest {a b : Name} {made : Bool}
    (hop : g.acceptRequest a b = .ok (made, g')) : g'.WellFormed := by
  rw [acceptRequest_eq h.canonical] at hop
  split at hop
  · next hb =>
    cases hop
    exact h.befriend fun hab => (h.irreflexive a).2.1 (hab ▸ hb)
  · cases hop
    exact h

theorem WellFormed.renamed {old new : Name} {t : Ties} (hop : g.rename old new = .ok (t, g')) :
    g'.WellFormed := by
  by_cases hne : old = new
  · subst hne
    rw [rename_eq_self h.canonical] at hop
    cases hop
    exact h
  · have hnew := knows_eq_false_of_rename h.canonical hne hop
    obtain ⟨_, heq, hg', -⟩ := h.rename_eq_ok hne hnew
    rw [heq] at hop
    cases hop
    exact hg'

/-- Nobody mentions a name that has just been taken. -/
theorem WellFormed.not_mem_peers_of_renamed {old new : Name} {t : Ties} (hne : old ≠ new)
    (hop : g.rename old new = .ok (t, g')) : t = g.ties old ∧ ∀ n, new ∉ (g.ties n).peers := by
  have hnew := knows_eq_false_of_rename h.canonical hne hop
  obtain ⟨_, heq, -, -⟩ := h.rename_eq_ok hne hnew
  rw [heq] at hop
  cases hop
  exact ⟨rfl, h.not_mem_peers_of_isEmpty ((h.knows_eq_false_iff new).1 hnew)⟩

theorem WellFormed.purged {n : Name} {t : Ties} (hop : g.purge n = .ok (t, g')) :
    g'.WellFormed := by
  obtain ⟨_, heq, hg', -⟩ := h.purge_eq_ok n
  rw [heq] at hop
  cases hop
  exact hg'

/-- A player who has left is nobody's friend, and the others are friends as before. -/
theorem WellFormed.friends_purged {n : Name} {t : Ties} (hop : g.purge n = .ok (t, g')) :
    t = g.ties n ∧ ∀ a b, b ∈ (g'.ties a).friends ↔ a ≠ n ∧ b ≠ n ∧ b ∈ (g.ties a).friends := by
  obtain ⟨_, heq, -, hties⟩ := h.purge_eq_ok n
  rw [heq] at hop
  cases hop
  refine ⟨rfl, fun a b => ?_⟩
  rw [hties]
  exact (Consistent.mem_purgeTies n a b).1

/-- No call, whether it succeeds or fails, leads out of the well-formed graphs. -/
theorem WellFormed.apply (c : Change) : (g.apply c).WellFormed := by
  unfold Graph.apply
  cases hop : g.attempt c with
  | error e => exact h
  | ok g' =>
    show g'.WellFormed
    cases c with
    | befriend a b => exact h.addFriendship hop
    | unfriend a b =>
      obtain ⟨_, heq⟩ := exists_of_map_snd_eq_ok hop
      exact h.removeFriendship heq
    | request a b =>
      obtain ⟨_, heq⟩ := exists_of_map_snd_eq_ok hop
      exact h.createRequest heq
    | withdraw a b =>
      obtain ⟨_, heq⟩ := exists_of_map_snd_eq_ok hop
      exact h.deleteRequest heq
    | accept a b =>
      obtain ⟨_, heq⟩ := exists_of_map_snd_eq_ok hop
      exact h.acceptRequest heq
    | rename old new =>
      obtain ⟨_, heq⟩ := exists_of_map_snd_eq_ok hop
      exact h.renamed heq
    | purge n =>
      obtain ⟨_, heq⟩ := exists_of_map_snd_eq_ok hop
      exact h.purged heq

theorem WellFormed.after (cs : List Change) : (g.after cs).WellFormed := by
  induction cs generalizing g with
  | nil => exact h
  | cons c cs ih => exact ih (h.apply c)

end

end Graph

/-! ## Changes of the database -/

namespace Database

/-- A call of an operation that writes records. -/
inductive Change where
  /-- One of the graph's own operations. -/
  | graph (c : Graph.Change)
  | create (n : Name)
  | setAlias (n : Name) (choice : Option String)
  | rename (old new : Name)
  | delete (n : Name)
  | request (sender receiver : Name)
  deriving DecidableEq, Repr

def withDirectory (db : Database) (directory : Directory) : Database := { db with directory }

def apply (db : Database) : Change → Database
  | .graph c => { db with graph := db.graph.apply c }
  | .create n => outcomeOr db ((db.directory.create n).map fun r => db.withDirectory r.2)
  | .setAlias n choice =>
    outcomeOr db ((db.directory.setAlias n choice).map fun r => db.withDirectory r.2)
  | .rename old new => outcomeOr db ((db.rename old new).map Prod.snd)
  | .delete n => outcomeOr db ((db.delete n).map fun r => (r.map Prod.snd).getD db)
  | .request sender receiver => outcomeOr db ((db.request sender receiver).map Prod.snd)

def after (db : Database) (cs : List Change) : Database := cs.foldl apply db

theorem graph_outcomeOr_withDirectory {ε : Type} (db : Database)
    (r : Except ε (Profile × Directory)) :
    (outcomeOr db (r.map fun x => db.withDirectory x.2)).graph = db.graph := by
  cases r <;> rfl

/-- No call, whether it succeeds or fails, makes the graph ill-formed. -/
theorem graph_wellFormed_apply {db : Database} (h : db.graph.WellFormed) (c : Change) :
    (db.apply c).graph.WellFormed := by
  cases c with
  | graph c => exact h.apply c
  | create n =>
    simp only [apply, graph_outcomeOr_withDirectory]
    exact h
  | setAlias n choice =>
    simp only [apply, graph_outcomeOr_withDirectory]
    exact h
  | rename old new =>
    simp only [apply]
    cases hop : db.rename old new with
    | error e => exact h
    | ok r => exact h.renamed (rename_eq_ok_iff.1 hop).2
  | delete n =>
    simp only [apply]
    cases hop : db.delete n with
    | error e => exact h
    | ok r =>
      cases r with
      | none => exact h
      | some r => exact h.purged (delete_eq_ok_some_iff.1 hop).2
  | request sender receiver =>
    simp only [apply]
    cases hop : db.request sender receiver with
    | error e => exact h
    | ok r =>
      obtain ⟨made, db'⟩ := r
      rcases request_eq_ok hop with ⟨-, -, -, hgraph⟩ | ⟨-, rfl⟩
      · exact h.createRequest hgraph
      · exact h

theorem graph_wellFormed_after {db : Database} (h : db.graph.WellFormed) (cs : List Change) :
    (db.after cs).graph.WellFormed := by
  induction cs generalizing db with
  | nil => exact h
  | cons c cs ih => exact ih (graph_wellFormed_apply h c)

/-- **The graph of every database is well-formed**, whatever calls led to it. -/
theorem graph_wellFormed (cs : List Change) : (Database.empty.after cs).graph.WellFormed :=
  graph_wellFormed_after Graph.wellFormed_empty cs

end Database

end Amity
