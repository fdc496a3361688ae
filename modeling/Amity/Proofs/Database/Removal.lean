/-
  Amity/Proofs/Database/Removal.lean
  ==================================
  **A removal leaves no trace.**  When a player is deleted, the account and the record of ties go,
  the index loses the player's alias, and the name goes out of every list of ties; a record that has
  nothing left goes too.  `RemovedFrom` says so of each stored table, key by key.

  The removal only edits the peers that the player's own lists name.  That nobody else mentions the
  player is the symmetry of the graph; that no other alias leads to the player is the agreement of
  the accounts with the index.
-/
import Amity.Proofs.Database.Images

namespace Amity

/-! ## Records without a player -/

/-- The text of the ties without a player, where anything is left of them; a text that cannot be
    read stays. -/
def Ties.forgetInText (n : Name) (text : String) : Option String :=
  match decode? text with
  | some t => if (t.forgetPeer n).isEmpty then none else some (t.forgetPeer n).encode
  | none => some text

theorem Ties.forgetInText_encode (n : Name) (t : Ties) :
    forgetInText n t.encode =
      if (t.forgetPeer n).isEmpty then none else some (t.forgetPeer n).encode := by
  rw [forgetInText, decode?_encode]

theorem Ties.isEmpty_forgetPeer {t : Ties} (h : t.isEmpty = true) (n : Name) :
    (t.forgetPeer n).isEmpty = true := by
  rw [isEmpty_iff.1 h]
  rfl

namespace Graph

/-- The record under the name of a player is the text of the ties, unless there are none. -/
theorem IsCanonical.find?_records {g : Graph} (h : g.IsCanonical) (n : Name) :
    g.records.find? n.text = if (g.ties n).isEmpty then none else some (g.ties n).encode := by
  ext text
  rw [h.represents n.text text]
  constructor
  · rintro ⟨m, t, hm, ht, rfl⟩
    obtain rfl := Name.text_inj.1 hm
    obtain ⟨rfl, hne⟩ := ties?_eq_some_iff.1 ht
    simp [hne]
  · intro htext
    split at htext
    · cases htext
    · next hne =>
      cases htext
      exact ⟨n, g.ties n, rfl, ties?_eq_some_iff.2 ⟨rfl, eq_false_of_ne_true hne⟩, rfl⟩

/-- What stands under no name is not there. -/
theorem IsCanonical.find?_eq_none {g : Graph} (h : g.IsCanonical) {key : String}
    (hkey : ∀ n : Name, n.text ≠ key) : g.records.find? key = none := by
  cases hfind : g.records.find? key with
  | none => rfl
  | some text =>
    obtain ⟨n, _, rfl, -⟩ := h key text hfind
    exact absurd rfl (hkey n)

section

variable {g g' : Graph} (h : g.IsCanonical) (hg' : g'.IsCanonical) {n : Name}
  (hties : g'.ties = purgeTies g.ties n)
include h hg' hties

theorem find?_purged (key : String) :
    g'.records.find? key =
      if key = n.text then none else (g.records.find? key).bind (Ties.forgetInText n) := by
  by_cases hkey : ∃ m : Name, m.text = key
  · obtain ⟨m, rfl⟩ := hkey
    rw [hg'.find?_records, h.find?_records, hties]
    unfold purgeTies
    by_cases hm : m = n
    · simp [hm, Ties.isEmpty, Ties.empty]
    · simp only [hm, if_false, Name.text_inj]
      by_cases hempty : (g.ties m).isEmpty = true
      · simp [hempty, Ties.isEmpty_forgetPeer hempty n]
      · simp [hempty, Ties.forgetInText_encode]
  · have hnone : ∀ m : Name, m.text ≠ key := fun m hm => hkey ⟨m, hm⟩
    rw [hg'.find?_eq_none hnone, h.find?_eq_none hnone]
    exact (if_neg (Ne.symm (hnone n))).symm ▸ rfl

omit h in
/-- Every record that is left can be read, and the player is in none of its lists. -/
theorem not_mem_purged {key text : String} (hfind : g'.records.find? key = some text) :
    ∃ t, Ties.decode? text = some t ∧ n ∉ t.friends ∧ n ∉ t.sent ∧ n ∉ t.received := by
  obtain ⟨m, t, rfl, rfl, hne⟩ := hg' key text hfind
  obtain ⟨k, u, hk, hu, hencode⟩ := (hg'.represents m.text _).1 hfind
  obtain rfl := Name.text_inj.1 hk
  obtain ⟨rfl, -⟩ := ties?_eq_some_iff.1 hu
  refine ⟨g'.ties k, hencode ▸ Ties.decode?_encode _, ?_⟩
  obtain ⟨hfriends, hsent, hreceived⟩ := @Consistent.mem_purgeTies g.ties n k n
  rw [hties, hfriends, hsent, hreceived]
  simp

end

end Graph

/-! ## What a removal stores -/

namespace Database

/-- Every stored table without a player, as seen from the database before. -/
structure RemovedFrom (db : Database) (n : Name) (db' : Database) : Prop where
  profiles : ∀ key, db'.directory.profiles.find? key =
    if key = n.text then none else db.directory.profiles.find? key
  /-- No alias leads to the player, and the others lead where they led. -/
  aliases : ∀ a, db'.directory.aliases.find? a =
    if db.directory.aliases.find? a = some n.text then none else db.directory.aliases.find? a
  records : ∀ key, db'.graph.records.find? key =
    if key = n.text then none else (db.graph.records.find? key).bind (Ties.forgetInText n)
  /-- Nobody's ties mention the player. -/
  unmentioned : ∀ key text, db'.graph.records.find? key = some text →
    ∃ t, Ties.decode? text = some t ∧ n ∉ t.friends ∧ n ∉ t.sent ∧ n ∉ t.received

section

variable {d : Directory} (h : d.WellFormed) {p : Profile} (hp : d.profile? p.name = some p)

theorem find?_profiles_deleted (d : Directory) (p : Profile) (key : String) :
    ((d.drop p.name).freeAlias p.aliasName).profiles.find? key =
      if key = p.name.text then none else d.profiles.find? key := by
  have hprofiles : ((d.drop p.name).freeAlias p.aliasName).profiles = (d.drop p.name).profiles := by
    cases p.aliasName <;> rfl
  rw [hprofiles]
  exact Table.find?_erase _ _ _

include h hp

theorem find?_aliases_deleted (a : String) :
    ((d.drop p.name).freeAlias p.aliasName).aliases.find? a =
      if d.aliases.find? a = some p.name.text then none else d.aliases.find? a := by
  have hhas : p.aliasName = some a ↔ d.aliases.find? a = some p.name.text := by
    constructor
    · intro ha
      exact h.find?_aliases hp ha
    · intro hfind
      obtain ⟨q, hq, hqa, hname⟩ := (h.indexed a _).1 hfind
      rw [Name.text_inj.1 hname, hp] at hq
      cases hq
      exact hqa
  rw [Directory.find?_aliases_freeAlias]
  simp only [hhas]
  rfl

end

variable {db : Database} (h : db.WellFormed) {n : Name}
include h

theorem WellFormed.delete_of_not_hasPlayer (hn : db.hasPlayer n = false) :
    db.delete n = .ok none := by
  have hprofile := h.directory.canonical.has_eq_false_iff.1 hn
  rw [delete_eq_ok_none_iff, h.directory.delete_eq, hprofile]
  rfl

/-- **A removal leaves no trace**, and it succeeds for every player. -/
theorem WellFormed.delete_of_hasPlayer (hn : db.hasPlayer n = true) :
    ∃ db', db.delete n = .ok (some (db.graph.ties n, db')) ∧ db.RemovedFrom n db' := by
  obtain ⟨p, hp⟩ := h.directory.canonical.has_iff.1 hn
  obtain rfl := h.directory.canonical.name_of_profile? hp
  obtain ⟨g', hpurge, hg', hties⟩ := h.graph.purge_eq_ok p.name
  have hdirectory : db.directory.delete p.name =
      .ok (some ((db.directory.drop p.name).freeAlias p.aliasName)) := by
    rw [h.directory.delete_eq, hp]
    rfl
  refine ⟨⟨g', (db.directory.drop p.name).freeAlias p.aliasName⟩,
    delete_eq_ok_some_iff.2 ⟨hdirectory, hpurge⟩, ?_, ?_, ?_, ?_⟩
  · exact find?_profiles_deleted db.directory p
  · exact find?_aliases_deleted h.directory hp
  · exact Graph.find?_purged h.graph.canonical hg'.canonical hties
  · intro key text
    exact Graph.not_mem_purged hg'.canonical hties

end Database

end Amity
