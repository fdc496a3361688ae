/-
  Amity/Proofs/Database/Reversal.lean
  ===================================
  **A renaming can be taken back.**  Who has taken a name and takes the old one again finds
  everything as it was, text by text (`SameTexts`): the old name has been free since, nobody's lists
  have changed but in the places of the name, and the alias has gone along both ways.

  In the graph a renaming exchanges two names, and a second exchange undoes the first.  In the
  directory the two entries of the account and the entry of the alias are compared.  That every text
  is the one text of its value is what makes the tables agree and not only the values.
-/
import Amity.Proofs.Database.Bystanders
import Amity.Proofs.Graph.Relabeling

namespace Amity

/-! ## There and back -/

/-- A renaming and the renaming back leave the records of ties as they were. -/
theorem Graph.WellFormed.rename_back {g g' : Graph} (h : g.WellFormed) {old new : Name} {t : Ties}
    (hne : old ≠ new) (hrename : g.rename old new = .ok (t, g')) :
    ∃ g'', g'.rename new old = .ok (t, g'') ∧
      ∀ key, g''.records.find? key = g.records.find? key := by
  have hnew := knows_eq_false_of_rename h.canonical hne hrename
  obtain ⟨_, heq, hg', hties⟩ := h.rename_eq_ok hne hnew
  cases hrename.symm.trans heq
  have hold : g'.knows old = false := by
    rw [hg'.knows_eq_false_iff, hties]
    simp [renameTies, hne, Ties.isEmpty, Ties.empty]
  have hown : g'.ties new = g.ties old := by
    rw [hties]
    simp [renameTies]
  have hswap : renameTies g.ties old new = relabelTies (Equiv.swap old new) g.ties :=
    h.renameTies_eq_relabelTies ((h.knows_eq_false_iff new).1 hnew)
  obtain ⟨g'', heq', hg'', hback⟩ := hg'.rename_eq_relabel hold hne.symm
  refine ⟨g'', by rw [heq', hown], hg''.canonical.find?_congr h.canonical ?_⟩
  rw [hback, hties, hswap, Equiv.swap_comm new old]
  exact relabelTies_relabelTies_symm (Equiv.swap old new) g.ties

theorem Directory.ne_of_rename {d d' : Directory} {old new : Name}
    (hrename : d.rename old new = .ok d') : old ≠ new := by
  rintro rfl
  obtain ⟨hhas, hfree, -⟩ := rename_eq_ok hrename
  rw [hfree] at hhas
  cases hhas

/-- A renaming and the renaming back leave the accounts and the aliases as they were. -/
theorem Directory.WellFormed.rename_back {d d' : Directory} (h : d.WellFormed) {old new : Name}
    (hrename : d.rename old new = .ok d') :
    ∃ d'', d'.rename new old = .ok d'' ∧
      (∀ key, d''.profiles.find? key = d.profiles.find? key) ∧
      ∀ a, d''.aliases.find? a = d.aliases.find? a := by
  have hd' := h.renamed hrename
  obtain ⟨hhas, hfree, -⟩ := rename_eq_ok hrename
  have hne : old ≠ new := ne_of_rename hrename
  obtain ⟨p, hp⟩ := h.canonical.has_iff.1 hhas
  obtain rfl := h.canonical.name_of_profile? hp
  rw [h.rename_eq, hp] at hrename
  simp only [hfree, Bool.false_eq_true, if_false, Except.ok.injEq] at hrename
  subst hrename
  have hgone : (d.moved p new).has p.name = false := by
    rw [hd'.canonical.has_eq_false_iff, profile?_moved, if_neg hne, if_pos rfl]
  refine ⟨(d.moved p new).moved { p with name := new } p.name, ?_, fun key => ?_, fun a => ?_⟩
  · rw [hd'.rename_eq, profile?_moved, if_pos rfl]
    simp [hgone]
  · rw [find?_profiles_moved, find?_profiles_moved]
    split
    · next hkey => rw [hkey, h.canonical.find?_profiles, hp, Option.map_some]
    · split
      · next hkey =>
        rw [hkey, h.canonical.find?_profiles, h.canonical.has_eq_false_iff.1 hfree, Option.map_none]
      · rfl
  · rw [find?_aliases_moved, find?_aliases_moved]
    split
    · next ha => exact (h.find?_aliases hp ha).symm
    · rfl

namespace Database

/-- The same texts are stored in both. -/
structure SameTexts (db db' : Database) : Prop where
  records : ∀ key, db.graph.records.find? key = db'.graph.records.find? key
  profiles : ∀ key, db.directory.profiles.find? key = db'.directory.profiles.find? key
  aliases : ∀ a, db.directory.aliases.find? a = db'.directory.aliases.find? a

/-- **A renaming can be taken back**, in every database that calls have led to: the way back
    succeeds too and gives the same ties, and every stored text is what it was. -/
theorem sameTexts_rename_back (cs : List Change) {old new : Name} {t : Ties} {db' : Database}
    (hrename : (Database.empty.after cs).rename old new = .ok (t, db')) :
    ∃ db'', db'.rename new old = .ok (t, db'') ∧ db''.SameTexts (Database.empty.after cs) := by
  have hgraph : (Database.empty.after cs).graph.WellFormed := graph_wellFormed cs
  have hdirectory : (Database.empty.after cs).directory.WellFormed :=
    directory_wellFormed_after Directory.wellFormed_empty cs
  obtain ⟨hd, hg⟩ := rename_eq_ok_iff.1 hrename
  obtain ⟨d'', hdback, hprofiles, haliases⟩ := hdirectory.rename_back hd
  obtain ⟨g'', hgback, hrecords⟩ := hgraph.rename_back (Directory.ne_of_rename hd) hg
  exact ⟨⟨g'', d''⟩, rename_eq_ok_iff.2 ⟨hdback, hgback⟩, hrecords, hprofiles, haliases⟩

/-- A player with an alias, a friend and a request on either side. -/
theorem sameTexts_rename_back_tiedAllRound :
    let q : Name := ⟨"q", by decide⟩
    let r : Name := ⟨"r", by decide⟩
    let s : Name := ⟨"s", by decide⟩
    let t : Name := ⟨"t", by decide⟩
    let u : Name := ⟨"u", by decide⟩
    let db := Database.empty.after [.create q, .create r, .create s, .create u,
      .setAlias q (some "ace"), .graph (.befriend r s), .graph (.befriend r q),
      .request q s, .request u q]
    ∃ db' db'', db.rename q t = .ok (⟨[r], [s], [u]⟩, db') ∧
      db'.rename t q = .ok (⟨[r], [s], [u]⟩, db'') ∧ db''.SameTexts db := by
  intro q r s t u db
  have hown : (db.rename q t).map Prod.fst = .ok ⟨[r], [s], [u]⟩ := by decide +kernel
  cases hrename : db.rename q t with
  | error e =>
    rw [hrename] at hown
    cases hown
  | ok moved =>
    obtain ⟨ties, db'⟩ := moved
    rw [hrename] at hown
    obtain rfl : ties = ⟨[r], [s], [u]⟩ := Except.ok.inj hown
    obtain ⟨db'', hback, hsame⟩ := sameTexts_rename_back _ hrename
    exact ⟨db', db'', rfl, hback, hsame⟩

end Database

end Amity
