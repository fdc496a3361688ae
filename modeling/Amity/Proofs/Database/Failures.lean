/-
  Amity/Proofs/Database/Failures.lean
  ===================================
  **When a call fails, whatever the stored texts are.**  Nothing is assumed here about the records:
  some may be texts that cannot be read.  A call reads the records of the players it concerns, and a
  renaming or a removal those of all peers, one after the other, while earlier ones are already
  edited.  `Obstructed` says for each call which of the records stand in its way, as they are before
  the call; `fails_attempt` says that nothing else does.
-/
import Amity.Proofs.Database.Aliases

namespace Amity

/-! ## Failing -/

/-- There is an error and no result. -/
def Fails {ε α : Type} (r : Except ε α) : Prop := ∃ err, r = .error err

section

variable {ε ε' α β : Type}

@[simp] theorem not_fails_ok (a : α) : ¬ Fails (.ok a : Except ε α) := by
  rintro ⟨err, h⟩
  cases h

@[simp] theorem not_fails_pure (a : α) : ¬ Fails (pure a : Except ε α) :=
  not_fails_ok a

@[simp] theorem fails_error (err : ε) : Fails (.error err : Except ε α) := ⟨err, rfl⟩

@[simp] theorem fails_map (f : α → β) (r : Except ε α) : Fails (r.map f) ↔ Fails r := by
  cases r <;> simp [Except.map]

@[simp] theorem fails_functor_map (f : α → β) (r : Except ε α) : Fails (f <$> r) ↔ Fails r :=
  fails_map f r

@[simp] theorem fails_mapError (f : ε → ε') (r : Except ε α) :
    Fails (r.mapError f) ↔ Fails r := by
  cases r <;> simp [Except.mapError]

@[simp] theorem fails_ok_bind (a : α) (k : α → Except ε β) :
    Fails ((.ok a : Except ε α) >>= k) ↔ Fails (k a) := Iff.rfl

@[simp] theorem fails_error_bind (err : ε) (k : α → Except ε β) :
    Fails ((.error err : Except ε α) >>= k) := ⟨err, rfl⟩

@[simp] theorem fails_ite {p : Prop} [Decidable p] {r r' : Except ε α} :
    Fails (if p then r else r') ↔ (p ∧ Fails r) ∨ (¬ p ∧ Fails r') := by
  split <;> simp [*]

end

/-! ## Ties -/

namespace Graph

/-- There is a record for the player, and it is not the text of any ties. -/
def Unreadable (g : Graph) (n : Name) : Prop :=
  ∃ text, g.records.find? n.text = some text ∧ Ties.decode? text = none

/-- What stands in the way of a call. -/
def Obstructed (g : Graph) : Change → Prop
  | .befriend a b => a = b ∨ g.Unreadable a ∨ b ∈ (g.ties a).friends ∨ g.Unreadable b
  | .unfriend a b => g.Unreadable a ∨ (b ∈ (g.ties a).friends ∧ g.Unreadable b)
  | .request a b =>
    a ≠ b ∧ (g.Unreadable a ∨ (b ∉ (g.ties a).sent ∧ b ∉ (g.ties a).friends ∧ g.Unreadable b))
  | .withdraw a b => g.Unreadable a ∨ (b ∈ (g.ties a).sent ∧ g.Unreadable b)
  | .accept a b => g.Unreadable a ∨ (b ∈ (g.ties a).sent ∧ g.Unreadable b)
  | .rename old new =>
    g.Unreadable old ∨
      (old ≠ new ∧ (g.knows new = true ∨ ∃ p ∈ (g.ties old).peers, g.Unreadable p))
  | .purge n => g.Unreadable n ∨ ∃ p ∈ (g.ties n).peers, g.Unreadable p

variable {g : Graph}

theorem load_cases (g : Graph) (n : Name) :
    (g.Unreadable n ∧ g.load n = .error .corrupt) ∨
      (¬ g.Unreadable n ∧ g.load n = .ok (g.ties n)) := by
  unfold Unreadable ties load
  cases g.records.find? n.text with
  | none => simp
  | some text => cases hdecode : Ties.decode? text <;> simp [hdecode]

@[simp] theorem fails_load (n : Name) : Fails (g.load n) ↔ g.Unreadable n := by
  rcases g.load_cases n with ⟨hunreadable, heq⟩ | ⟨hreadable, heq⟩
  · simp [heq, hunreadable]
  · simp [heq, hreadable]

/-- What goes on with the ties of a player fails when they cannot be read, or with the ties. -/
@[simp] theorem fails_load_bind {α : Type} (n : Name) (k : Ties → Except GraphError α) :
    Fails (g.load n >>= k) ↔ g.Unreadable n ∨ Fails (k (g.ties n)) := by
  rcases g.load_cases n with ⟨hunreadable, heq⟩ | ⟨hreadable, heq⟩
  · simp [heq, hunreadable]
  · simp [heq, hreadable]

theorem unreadable_save (n m : Name) (t : Ties) :
    (g.save n t).Unreadable m ↔ m ≠ n ∧ g.Unreadable m := by
  rw [← fails_load, load_save]
  by_cases hm : m = n <;> simp [hm]

/-- Editing players one after the other fails when one of them could not be read to begin with. -/
@[simp] theorem fails_editAll (f : Ties → Ties) (ps : List Name) (g : Graph) :
    Fails (editAll f ps g) ↔ ∃ p ∈ ps, g.Unreadable p := by
  induction ps generalizing g with
  | nil => simp [editAll]
  | cons p ps ih =>
    unfold editAll
    rw [fails_load_bind, ih]
    simp only [unreadable_save, List.mem_cons, exists_eq_or_imp]
    constructor
    · rintro (hp | ⟨q, hq, -, hunreadable⟩)
      · exact Or.inl hp
      · exact Or.inr ⟨q, hq, hunreadable⟩
    · rintro (hp | ⟨q, hq, hunreadable⟩)
      · exact Or.inl hp
      · by_cases hqp : q = p
        · exact Or.inl (hqp ▸ hunreadable)
        · exact Or.inr ⟨q, hq, hqp, hunreadable⟩

/-- A call fails exactly when something stands in its way. -/
theorem fails_attempt (g : Graph) (c : Change) : Fails (g.attempt c) ↔ g.Obstructed c := by
  cases c with
  | befriend a b =>
    simp only [attempt, addFriendship, Obstructed]
    by_cases hab : a = b <;> by_cases hb : b ∈ (g.ties a).friends <;> simp [hab, hb]
  | unfriend a b => simp [attempt, removeFriendship, Obstructed]
  | request a b => simp [attempt, createRequest, Obstructed, and_assoc]
  | withdraw a b => simp [attempt, deleteRequest, Obstructed]
  | accept a b => simp [attempt, acceptRequest, Obstructed]
  | rename old new =>
    simp only [attempt, Graph.rename, Obstructed]
    by_cases hne : old = new <;> cases hnew : g.knows new <;> simp [hne]
  | purge n => simp [attempt, purge, Obstructed]

end Graph

/-! ## Accounts -/

namespace Directory

/-- There is a record for the player, and it is not the text of any account. -/
def Unreadable (d : Directory) (n : Name) : Prop :=
  ∃ text, d.profiles.find? n.text = some text ∧ Profile.decode? text = none

variable {d : Directory}

/-- There is no record, or one that cannot be read, or that of an account. -/
theorem find?_cases (d : Directory) (n : Name) :
    (d.find? n = .ok none ∧ d.has n = false ∧ ¬ d.Unreadable n) ∨
      (d.find? n = .error .corrupt ∧ d.has n = true ∧ d.Unreadable n) ∨
      ∃ p, d.find? n = .ok (some p) ∧ d.has n = true ∧ ¬ d.Unreadable n ∧
        d.profile? n = some p := by
  unfold Unreadable profile? find? has Table.contains
  cases d.profiles.find? n.text with
  | none => simp
  | some text => cases hdecode : Profile.decode? text <;> simp [hdecode]

theorem fails_create (d : Directory) (n : Name) : Fails (d.create n) ↔ d.has n = true := by
  simp [create]

theorem fails_rename (d : Directory) (old new : Name) :
    Fails (d.rename old new) ↔
      d.has old = false ∨ d.Unreadable old ∨ d.has new = true := by
  unfold rename load
  rcases d.find?_cases old with
    ⟨heq, hhas, -⟩ | ⟨heq, -, hunreadable⟩ | ⟨p, heq, hhas, hreadable, -⟩
  · simp [heq, hhas]
  · simp [heq, hunreadable]
  · simp [heq, hhas, hreadable]

theorem fails_delete (d : Directory) (n : Name) : Fails (d.delete n) ↔ d.Unreadable n := by
  unfold delete
  rcases d.find?_cases n with
    ⟨heq, -, hreadable⟩ | ⟨heq, -, hunreadable⟩ | ⟨p, heq, -, hreadable, -⟩
  · simp [heq, hreadable]
  · simp [heq, hunreadable]
  · simp [heq, hreadable]

theorem fails_wantedAlias (choice : Option String) :
    Fails (wantedAlias choice) ↔ ∃ a, choice = some a ∧ a ≠ "" ∧ Name.isValid a = false := by
  unfold wantedAlias
  cases choice with
  | none => simp
  | some a => cases hvalid : Name.isValid a <;> simp

theorem fails_claimFree (d : Directory) (n : Name) (wanted : Option String) :
    Fails (d.claimFree n wanted) ↔ ∃ a, wanted = some a ∧ d.aliases.contains a = true := by
  cases wanted <;> simp [claimFree]

theorem eq_some_of_wantedAlias {choice wanted : Option String}
    (hwanted : wantedAlias choice = .ok wanted) (a : String) :
    wanted = some a ↔ choice = some a ∧ a ≠ "" := by
  unfold wantedAlias at hwanted
  split at hwanted
  · cases hwanted
    simp
  · next b =>
    split at hwanted
    · next hempty =>
      cases hwanted
      simp only [String.isEmpty_iff] at hempty
      simp [hempty]
    · next hempty =>
      split at hwanted
      · cases hwanted
        simp only [String.isEmpty_iff] at hempty
        grind
      · cases hwanted

theorem fails_setAlias (d : Directory) (n : Name) (choice : Option String) :
    Fails (d.setAlias n choice) ↔
      (∃ a, choice = some a ∧ a ≠ "" ∧ Name.isValid a = false) ∨
        d.has n = false ∨ d.Unreadable n ∨
        ∃ a, choice = some a ∧ a ≠ "" ∧ d.aliases.contains a = true ∧ ¬ d.Holds n.text a := by
  rw [← fails_wantedAlias]
  unfold setAlias load
  cases hwanted : wantedAlias choice with
  | error => simp
  | ok wanted =>
    simp only [← and_assoc, ← eq_some_of_wantedAlias hwanted]
    rcases d.find?_cases n with
      ⟨heq, hhas, -⟩ | ⟨heq, -, hunreadable⟩ | ⟨p, heq, hhas, hreadable, hp⟩
    · simp [heq, hhas]
    · simp [heq, hunreadable]
    · simp only [holds_text_iff, hp]
      by_cases hsame : p.aliasName = wanted
      · simp +contextual [heq, hhas, hreadable, hsame]
      · simp only [heq, hhas, hreadable, fails_ok_bind]
        simp [hsame, fails_claimFree]
        constructor
        · rintro ⟨a, rfl, ha⟩
          exact ⟨a, ⟨rfl, ha⟩, hsame⟩
        · rintro ⟨a, ha, -⟩
          exact ⟨a, ha⟩

end Directory

/-! ## Calls -/

namespace Database

/-- The database that a call gives, or why it fails. -/
def attempt (db : Database) : Change → Except StoreError Database
  | .graph c => (onGraph (db.graph.attempt c)).map fun graph => { db with graph }
  | .create n => (onDirectory (db.directory.create n)).map fun r => db.withDirectory r.2
  | .setAlias n choice =>
    (onDirectory (db.directory.setAlias n choice)).map fun r => db.withDirectory r.2
  | .rename old new => (db.rename old new).map Prod.snd
  | .delete n => (db.delete n).map fun r => (r.map Prod.snd).getD db
  | .request sender receiver => (db.request sender receiver).map Prod.snd

/-- What a call leaves is its outcome, or what there was before. -/
theorem apply_eq (db : Database) (c : Change) : db.apply c = outcomeOr db (db.attempt c) := by
  cases c with
  | graph c =>
    simp only [apply, attempt, Graph.apply]
    cases db.graph.attempt c <;> rfl
  | create n =>
    simp only [apply, attempt]
    cases db.directory.create n <;> rfl
  | setAlias n choice =>
    simp only [apply, attempt]
    cases db.directory.setAlias n choice <;> rfl
  | rename old new => rfl
  | delete n => rfl
  | request sender receiver => rfl

/-- What stands in the way of a call.  A renaming and a removal need the account and the ties. -/
def Obstructed (db : Database) : Change → Prop
  | .graph c => db.graph.Obstructed c
  | .create n => db.hasPlayer n = true
  | .setAlias n choice =>
    (∃ a, choice = some a ∧ a ≠ "" ∧ Name.isValid a = false) ∨
      db.hasPlayer n = false ∨ db.directory.Unreadable n ∨
      ∃ a, choice = some a ∧ a ≠ "" ∧ db.directory.aliases.contains a = true ∧
        ¬ db.directory.Holds n.text a
  | .rename old new =>
    db.hasPlayer old = false ∨ db.directory.Unreadable old ∨ db.hasPlayer new = true ∨
      db.graph.Obstructed (.rename old new)
  | .delete n =>
    db.directory.Unreadable n ∨ (db.hasPlayer n = true ∧ db.graph.Obstructed (.purge n))
  | .request sender receiver =>
    db.hasPlayer sender = true ∧ db.hasPlayer receiver = true ∧
      db.graph.Obstructed (.request sender receiver)

variable {α : Type}

@[simp] theorem fails_onGraph (r : Except GraphError α) : Fails (onGraph r) ↔ Fails r :=
  fails_mapError _ r

@[simp] theorem fails_onDirectory (r : Except DirectoryError α) :
    Fails (onDirectory r) ↔ Fails r :=
  fails_mapError _ r

/-- **A call fails exactly when something stands in its way**, in whatever state the records are. -/
theorem fails_attempt (db : Database) (c : Change) : Fails (db.attempt c) ↔ db.Obstructed c := by
  cases c with
  | graph c =>
    rw [attempt, fails_map, fails_onGraph, Graph.fails_attempt]
    rfl
  | create n =>
    rw [attempt, fails_map, fails_onDirectory, Directory.fails_create]
    rfl
  | setAlias n choice =>
    rw [attempt, fails_map, fails_onDirectory, Directory.fails_setAlias]
    rfl
  | rename old new =>
    have hgraph := db.graph.fails_attempt (.rename old new)
    rw [Graph.attempt, fails_map] at hgraph
    have hdirectory := db.directory.fails_rename old new
    simp only [attempt, Database.rename, Obstructed, hasPlayer, fails_map]
    cases hrename : db.directory.rename old new with
    | error =>
      rw [hrename] at hdirectory
      simp only [onDirectory_error, fails_error_bind, true_iff]
      rcases hdirectory.1 (fails_error _) with hold | hunreadable | hnew
      · exact Or.inl hold
      · exact Or.inr (Or.inl hunreadable)
      · exact Or.inr (Or.inr (Or.inl hnew))
    | ok d =>
      rw [hrename] at hdirectory
      have hfree := mt hdirectory.2 (not_fails_ok _)
      simp only [not_or] at hfree
      simp [hfree, hgraph]
  | delete n =>
    have hgraph := db.graph.fails_attempt (.purge n)
    rw [Graph.attempt, fails_map] at hgraph
    have hdirectory := db.directory.fails_delete n
    simp only [attempt, Database.delete, Obstructed, hasPlayer, fails_map]
    cases hdelete : db.directory.delete n with
    | error =>
      rw [hdelete] at hdirectory
      simp [hdirectory.1 (fails_error _)]
    | ok r =>
      rw [hdelete] at hdirectory
      have hreadable := mt hdirectory.2 (not_fails_ok _)
      have hhas := Directory.delete_eq_ok hdelete
      cases r with
      | none => simp [hreadable, hhas]
      | some d => simp [hreadable, hhas.1, hgraph]
  | request a b =>
    have hgraph := db.graph.fails_attempt (.request a b)
    rw [Graph.attempt, fails_map] at hgraph
    simp [attempt, request, Obstructed, hgraph, and_assoc]

end Database

/-! ## Calls that find nothing to do -/

namespace Graph

section

variable {g g' : Graph}

/-- Where the ties of one player decide that there is nothing to do, the graph stays. -/
theorem eq_of_load_bind {p : Ties → Prop} [DecidablePred p] {n : Name}
    {make : Ties → Except GraphError (Bool × Graph)}
    (hmake : ∀ t g', make t ≠ .ok (false, g'))
    (h : (g.load n >>= fun t => if p t then make t else pure (false, g)) = .ok (false, g')) :
    g' = g := by
  cases hload : g.load n with
  | error => simp [hload, bind, Except.bind] at h
  | ok t =>
    simp only [hload, bind, Except.bind, pure, Except.pure] at h
    split at h
    · exact absurd h (hmake t g')
    · cases h
      rfl

theorem load_bind_ne {n : Name} {f : Ties → Graph} (g' : Graph) :
    (g.load n >>= fun t => pure (true, f t)) ≠ .ok (false, g') := by
  cases g.load n <;> simp [bind, Except.bind, pure, Except.pure]

theorem eq_of_removeFriendship {a b : Name} (h : g.removeFriendship a b = .ok (false, g')) :
    g' = g :=
  eq_of_load_bind (fun _ => load_bind_ne) h

theorem eq_of_deleteRequest {a b : Name} (h : g.deleteRequest a b = .ok (false, g')) : g' = g :=
  eq_of_load_bind (fun _ => load_bind_ne) h

theorem eq_of_acceptRequest {a b : Name} (h : g.acceptRequest a b = .ok (false, g')) : g' = g :=
  eq_of_load_bind (fun _ => load_bind_ne) h

theorem eq_of_createRequest {a b : Name} (h : g.createRequest a b = .ok (false, g')) : g' = g := by
  unfold createRequest at h
  split at h
  · cases h
    rfl
  · cases hload : g.load a with
    | error => simp [hload, bind, Except.bind] at h
    | ok t =>
      simp only [hload, bind, Except.bind, pure, Except.pure] at h
      split at h
      · cases h
        rfl
      · exact absurd h (load_bind_ne g')

end

end Graph

end Amity
