/-
  Amity/Proofs/Database/Operations.lean
  =====================================
  **What the operations do to the database.**  A change of the directory is said by who has an
  account before and after it (`Directory.has`); a change that concerns directory and graph is said
  by its two halves, of which both succeed or none is kept.
-/
import Amity.Database

namespace Amity

/-! ## Accounts -/

namespace Directory

variable {d d' : Directory}

@[simp] theorem has_save (p : Profile) (m : Name) :
    (d.save p).has m = true ↔ m = p.name ∨ d.has m = true := by
  by_cases hm : m.text = p.name.text
  · simp [has, save, Table.contains, Table.find?_insert, Name.ext_text hm]
  · have hne : m ≠ p.name := fun h => hm (h ▸ rfl)
    simp [has, save, Table.contains, Table.find?_insert, hm, hne]

@[simp] theorem has_drop (n m : Name) : (d.drop n).has m = true ↔ m ≠ n ∧ d.has m = true := by
  by_cases hm : m.text = n.text
  · simp [has, drop, Table.contains, Table.find?_erase, Name.ext_text hm]
  · have hne : m ≠ n := fun h => hm (h ▸ rfl)
    simp [has, drop, Table.contains, Table.find?_erase, hm, hne]

@[simp] theorem has_claimAlias (text : String) (n m : Name) :
    (d.claimAlias text n).has m = d.has m := rfl

@[simp] theorem has_freeAlias (a : Option String) (m : Name) :
    (d.freeAlias a).has m = d.has m := by
  cases a <;> rfl

theorem has_of_find? {n : Name} {p : Profile} (h : d.find? n = .ok (some p)) :
    d.has n = true := by
  unfold find? at h
  unfold has
  rw [Table.contains_iff]
  cases hfind : d.profiles.find? n.text with
  | none => simp [hfind] at h
  | some text => exact ⟨text, rfl⟩

theorem not_has_of_find? {n : Name} (h : d.find? n = .ok none) : d.has n = false := by
  unfold find? at h
  unfold has Table.contains
  cases hfind : d.profiles.find? n.text with
  | none => rfl
  | some text =>
    rw [hfind] at h
    cases hdecode : Profile.decode? text <;> simp [hdecode] at h

theorem has_of_load {n : Name} {p : Profile} (h : d.load n = .ok p) : d.has n = true := by
  unfold load at h
  cases hfind : d.find? n with
  | error e => simp [hfind, bind, Except.bind] at h
  | ok found =>
    cases found with
    | none => simp [hfind, bind, Except.bind] at h
    | some q => exact has_of_find? hfind

/-- Opening an account adds one name that was free. -/
theorem create_eq_ok {n : Name} {p : Profile} (h : d.create n = .ok (p, d')) :
    d.has n = false ∧ ∀ m, d'.has m = true ↔ m = n ∨ d.has m = true := by
  unfold create at h
  split at h
  · cases h
  · next hn =>
    cases h
    exact ⟨by simpa using hn, fun m => by simp [Profile.fresh]⟩

theorem has_of_claimFree {n : Name} {wanted : Option String}
    (h : d.claimFree n wanted = .ok d') (m : Name) : d'.has m = d.has m := by
  unfold claimFree at h
  split at h
  · cases h; rfl
  · split at h
    · cases h
    · cases h; rfl

/-- Setting an alias takes no account away. -/
theorem setAlias_eq_ok {n : Name} {choice : Option String} {p : Profile}
    (h : d.setAlias n choice = .ok (p, d')) {m : Name} (hm : d.has m = true) :
    d'.has m = true := by
  unfold setAlias at h
  cases hwanted : wantedAlias choice with
  | error e => simp [hwanted, bind, Except.bind] at h
  | ok wanted =>
    cases hload : d.load n with
    | error e => simp [hwanted, hload, bind, Except.bind] at h
    | ok old =>
      simp only [hwanted, hload, bind, Except.bind, pure, Except.pure] at h
      split at h
      · cases h; exact hm
      · cases hclaim : d.claimFree n wanted with
        | error e => simp [hclaim] at h
        | ok claimed =>
          simp only [hclaim] at h
          cases h
          simp [has_of_claimFree hclaim, hm]

/-- Renaming puts a name that was free in the place of another. -/
theorem rename_eq_ok {old new : Name} (h : d.rename old new = .ok d') :
    d.has old = true ∧ d.has new = false ∧
      ∀ m, d'.has m = true ↔ m = new ∨ (m ≠ old ∧ d.has m = true) := by
  unfold rename at h
  cases hload : d.load old with
  | error e => simp [hload, bind, Except.bind] at h
  | ok p =>
    simp only [hload, bind, Except.bind, pure, Except.pure] at h
    split at h
    · cases h
    · next hnew =>
      cases h
      refine ⟨has_of_load hload, by simpa using hnew, ?_⟩
      intro m
      cases halias : p.aliasName <;> simp

/-- Closing an account takes its name away; there is nothing to close when the name is free. -/
theorem delete_eq_ok {n : Name} {r : Option Directory} (h : d.delete n = .ok r) :
    match r with
    | none => d.has n = false
    | some d' => d.has n = true ∧ ∀ m, d'.has m = true ↔ m ≠ n ∧ d.has m = true := by
  unfold delete at h
  cases hfind : d.find? n with
  | error e => simp [hfind, bind, Except.bind] at h
  | ok found =>
    cases found with
    | none =>
      simp only [hfind, bind, Except.bind, pure, Except.pure] at h
      cases h
      exact not_has_of_find? hfind
    | some p =>
      simp only [hfind, bind, Except.bind, pure, Except.pure] at h
      cases h
      exact ⟨has_of_find? hfind, fun m => by simp⟩

end Directory

/-! ## Accounts and ties -/

namespace Database

variable {db db' : Database}

@[simp] theorem onGraph_ok {α : Type} (a : α) : onGraph (.ok a) = .ok a := rfl

@[simp] theorem onGraph_error {α : Type} (e : GraphError) :
    onGraph (.error e : Except GraphError α) = .error (.graph e) := rfl

@[simp] theorem onDirectory_ok {α : Type} (a : α) : onDirectory (.ok a) = .ok a := rfl

@[simp] theorem onDirectory_error {α : Type} (e : DirectoryError) :
    onDirectory (.error e : Except DirectoryError α) = .error (.directory e) := rfl

/-- A renaming is one of the directory and one of the graph. -/
theorem rename_eq_ok_iff {old new : Name} {t : Ties} :
    db.rename old new = .ok (t, db') ↔
      db.directory.rename old new = .ok db'.directory ∧
        db.graph.rename old new = .ok (t, db'.graph) := by
  obtain ⟨graph, directory⟩ := db'
  unfold rename
  cases hd : db.directory.rename old new with
  | error e => simp [bind, Except.bind]
  | ok d =>
    cases hg : db.graph.rename old new with
    | error e => simp [bind, Except.bind]
    | ok r =>
      obtain ⟨_, _⟩ := r
      simp [bind, Except.bind, pure, Except.pure]
      exact ⟨fun h => ⟨h.2.2, h.1, h.2.1⟩, fun h => ⟨h.2.1, h.2.2, h.1⟩⟩

theorem delete_eq_ok_none_iff {n : Name} :
    db.delete n = .ok none ↔ db.directory.delete n = .ok none := by
  unfold delete
  cases hd : db.directory.delete n with
  | error e => simp [bind, Except.bind]
  | ok r =>
    cases r with
    | none => simp [bind, Except.bind, pure, Except.pure]
    | some d =>
      cases hg : db.graph.purge n <;> simp [bind, Except.bind, pure, Except.pure]

/-- A removal is one from the directory and one from the graph. -/
theorem delete_eq_ok_some_iff {n : Name} {t : Ties} :
    db.delete n = .ok (some (t, db')) ↔
      db.directory.delete n = .ok (some db'.directory) ∧
        db.graph.purge n = .ok (t, db'.graph) := by
  obtain ⟨graph, directory⟩ := db'
  unfold delete
  cases hd : db.directory.delete n with
  | error e => simp [bind, Except.bind]
  | ok r =>
    cases r with
    | none => simp [bind, Except.bind, pure, Except.pure]
    | some d =>
      cases hg : db.graph.purge n with
      | error e => simp [bind, Except.bind]
      | ok r =>
        obtain ⟨_, _⟩ := r
        simp [bind, Except.bind, pure, Except.pure]
        exact ⟨fun h => ⟨h.2.2, h.1, h.2.1⟩, fun h => ⟨h.2.1, h.2.2, h.1⟩⟩

/-- A request between players is one of the graph; any other changes nothing. -/
theorem request_eq_ok {sender receiver : Name} {made : Bool}
    (h : db.request sender receiver = .ok (made, db')) :
    (db.hasPlayer sender = true ∧ db.hasPlayer receiver = true ∧
        db'.directory = db.directory ∧
        db.graph.createRequest sender receiver = .ok (made, db'.graph)) ∨
      (made = false ∧ db' = db) := by
  unfold request at h
  split at h
  · next hplayers =>
    cases hg : db.graph.createRequest sender receiver with
    | error e => simp [hg, bind, Except.bind] at h
    | ok r =>
      simp only [hg, bind, Except.bind, pure, Except.pure] at h
      cases h
      exact Or.inl ⟨hplayers.1, hplayers.2, rfl, rfl⟩
  · cases h
    exact Or.inr ⟨rfl, rfl⟩

end Database

end Amity
