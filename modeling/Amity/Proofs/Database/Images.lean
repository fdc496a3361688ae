/-
  Amity/Proofs/Database/Images.lean
  =================================
  **A renaming puts one name in the place of another.**  `IsImage` says of a table that it is another
  one with its keys and values mapped.  After a renaming every stored table is the image of what it
  was: in the accounts and the records of ties the player's key and every mention of the name change,
  in the index of aliases the name under the player's alias.

  The stored texts are looked at through the values they are the texts of (`Represents`), so that
  the law is proved for accounts and for ties alike, from what a renaming does to the values.
-/
import Amity.Proofs.Database.Players

namespace Amity

/-- One table is the other with its keys and values mapped. -/
def Table.IsImage {κ ν : Type} [DecidableEq κ] (t' t : Table κ ν) (f : κ → κ) (g : ν → ν) : Prop :=
  ∀ k v, t'.find? k = some v ↔ ∃ j w, t.find? j = some w ∧ f j = k ∧ g w = v

/-- The text of `new` in the place of that of `old`. -/
def Name.substituteText (old new : Name) (text : String) : String :=
  if text = old.text then new.text else text

theorem Name.substituteText_text (old new n : Name) :
    substituteText old new n.text = (Ties.substitute old new n).text := by
  unfold substituteText Ties.substitute
  by_cases hn : n = old <;> simp [hn]

/-- The text of the changed value; a text that cannot be read stays. -/
def recode {α : Type} (decode? : String → Option α) (encode : α → String) (g : α → α)
    (text : String) : String :=
  match decode? text with
  | some a => encode (g a)
  | none => text

/-- The account after `old` has become `new`. -/
def Profile.renamed (old new : Name) (p : Profile) : Profile :=
  { p with name := Ties.substitute old new p.name }

/-! ## Tables of texts -/

/-- A tree holds the texts of these values, each under its name, and nothing else. -/
def Represents {α : Type} (t : Tree) (encode : α → String) (view : Name → Option α) : Prop :=
  ∀ key text, t.find? key = some text ↔
    ∃ n a, n.text = key ∧ view n = some a ∧ encode a = text

/-- When the values under the names are mapped, the texts under the keys are. -/
theorem Represents.isImage {α : Type} {t t' : Tree} {decode? : String → Option α}
    {encode : α → String} {view view' : Name → Option α} {old new : Name} {g : α → α}
    (h : Represents t encode view) (h' : Represents t' encode view')
    (hdecode : ∀ a, decode? (encode a) = some a)
    (hview : ∀ n b, view' n = some b ↔
      ∃ m a, view m = some a ∧ Ties.substitute old new m = n ∧ g a = b) :
    t'.IsImage t (Name.substituteText old new) (recode decode? encode g) := by
  have hrecode : ∀ a, recode decode? encode g (encode a) = encode (g a) := by
    intro a
    unfold recode
    rw [hdecode]
  intro key text
  rw [h' key text]
  constructor
  · rintro ⟨n, b, rfl, hb, rfl⟩
    obtain ⟨m, a, ha, rfl, rfl⟩ := (hview n b).1 hb
    refine ⟨m.text, encode a, (h _ _).2 ⟨m, a, rfl, ha, rfl⟩, ?_, hrecode a⟩
    exact Name.substituteText_text old new m
  · rintro ⟨_, _, hfind, rfl, rfl⟩
    obtain ⟨m, a, rfl, ha, rfl⟩ := (h _ _).1 hfind
    refine ⟨Ties.substitute old new m, g a, ?_, (hview _ _).2 ⟨m, a, ha, rfl, rfl⟩, ?_⟩
    · exact (Name.substituteText_text old new m).symm
    · exact (hrecode a).symm

theorem Directory.IsCanonical.represents {d : Directory} (h : d.IsCanonical) :
    Represents d.profiles Profile.encode d.profile? := by
  intro key text
  constructor
  · intro hfind
    obtain ⟨p, rfl, rfl⟩ := h key text hfind
    rw [h.find?_profiles, Option.map_eq_some_iff] at hfind
    obtain ⟨q, hq, hqp⟩ := hfind
    exact ⟨p.name, q, rfl, hq, hqp⟩
  · rintro ⟨n, p, rfl, hp, rfl⟩
    rw [h.find?_profiles, hp]
    rfl

/-- The ties recorded for a player, if there are any. -/
def Graph.ties? (g : Graph) (n : Name) : Option Ties :=
  if (g.ties n).isEmpty then none else some (g.ties n)

theorem Graph.ties?_eq_some_iff {g : Graph} {n : Name} {t : Ties} :
    g.ties? n = some t ↔ g.ties n = t ∧ t.isEmpty = false := by
  unfold ties?
  cases hempty : (g.ties n).isEmpty with
  | true =>
    simp only [if_true, reduceCtorEq, false_iff, not_and]
    rintro rfl
    simp [hempty]
  | false =>
    simp only [Bool.false_eq_true, if_false, Option.some.injEq]
    refine ⟨?_, And.left⟩
    rintro rfl
    exact ⟨rfl, hempty⟩

theorem Graph.IsCanonical.represents {g : Graph} (h : g.IsCanonical) :
    Represents g.records Ties.encode g.ties? := by
  have hties : ∀ {n : Name} {t : Ties}, g.records.find? n.text = some t.encode → g.ties n = t := by
    intro n t hfind
    unfold Graph.ties load
    rw [hfind]
    simp
  intro key text
  constructor
  · intro hfind
    obtain ⟨n, t, rfl, rfl, ht⟩ := h key text hfind
    exact ⟨n, t, rfl, Graph.ties?_eq_some_iff.2 ⟨hties hfind, ht⟩, rfl⟩
  · rintro ⟨n, t, rfl, ht, rfl⟩
    obtain ⟨rfl, hne⟩ := Graph.ties?_eq_some_iff.1 ht
    obtain ⟨text, hfind⟩ := Table.contains_iff.1 ((Graph.knows_iff h n).2 hne)
    obtain ⟨_, t, _, rfl, _⟩ := h _ _ hfind
    rw [hfind, hties hfind]

/-! ## What a renaming stores -/

namespace Database

/-- Every stored table is the image of what it was, with one name in the place of another. -/
structure RenamedTo (db : Database) (old new : Name) (db' : Database) : Prop where
  profiles : db'.directory.profiles.IsImage db.directory.profiles (Name.substituteText old new)
    (recode Profile.decode? Profile.encode (Profile.renamed old new))
  aliases : db'.directory.aliases.IsImage db.directory.aliases id (Name.substituteText old new)
  records : db'.graph.records.IsImage db.graph.records (Name.substituteText old new)
    (recode Ties.decode? Ties.encode (Ties.renamePeer old new))

theorem isImage_moved_profiles {d : Directory} {p : Profile} {new : Name} (h : d.WellFormed)
    (hp : d.profile? p.name = some p) (hnew : d.profile? new = none) :
    (d.moved p new).profiles.IsImage d.profiles (Name.substituteText p.name new)
      (recode Profile.decode? Profile.encode (Profile.renamed p.name new)) := by
  have hmoved : (d.moved p new).IsCanonical := ((h.canonical.drop p.name).claim _ _).save _
  refine h.canonical.represents.isImage hmoved.represents Profile.decode?_encode fun n q => ?_
  rw [Directory.profile?_moved]
  constructor
  · intro hq
    split at hq
    · next hn =>
      cases hq
      exact ⟨p.name, p, hp, by simp [Ties.substitute, hn], by simp [Profile.renamed, Ties.substitute]⟩
    · split at hq
      · cases hq
      · next hn =>
        obtain rfl := h.canonical.name_of_profile? hq
        refine ⟨q.name, q, hq, by simp [Ties.substitute, hn], ?_⟩
        simp [Profile.renamed, Ties.substitute, hn]
  · rintro ⟨m, r, hr, rfl, rfl⟩
    obtain rfl := h.canonical.name_of_profile? hr
    have hne : r.name ≠ new := by
      intro heq
      rw [heq, hnew] at hr
      cases hr
    by_cases hrp : r.name = p.name
    · rw [hrp, hp] at hr
      cases hr
      simp [Profile.renamed, Ties.substitute]
    · simp [Profile.renamed, Ties.substitute, hrp, hne, hr]

theorem isImage_moved_aliases {d : Directory} {p : Profile} (h : d.WellFormed)
    (hp : d.profile? p.name = some p) (new : Name) :
    (d.moved p new).aliases.IsImage d.aliases id (Name.substituteText p.name new) := by
  have hmap : ∀ a, (d.moved p new).aliases.find? a =
      (d.aliases.find? a).map (Name.substituteText p.name new) := by
    intro a
    rw [Directory.find?_aliases_moved]
    split
    · next ha =>
      rw [h.find?_aliases hp ha, Option.map_some, Name.substituteText_text]
      simp [Ties.substitute]
    · next ha =>
      cases hfind : d.aliases.find? a with
      | none => rfl
      | some target =>
        obtain ⟨q, hq, hqa, rfl⟩ := (h.indexed a target).1 hfind
        have hne : q.name ≠ p.name := by
          intro heq
          rw [heq, hp] at hq
          cases hq
          exact ha hqa
        rw [Option.map_some, Name.substituteText_text]
        simp [Ties.substitute, hne]
  intro k v
  rw [hmap, Option.map_eq_some_iff]
  constructor
  · rintro ⟨w, hw, hv⟩
    exact ⟨k, w, hw, rfl, hv⟩
  · rintro ⟨j, w, hw, rfl, hv⟩
    exact ⟨w, hw, hv⟩

theorem isImage_renameTies {g g' : Graph} {old new : Name} (h : g.WellFormed)
    (hg' : g'.IsCanonical) (hties : g'.ties = renameTies g.ties old new) (hne : old ≠ new)
    (hnew : g.ties new = .empty) :
    g'.records.IsImage g.records (Name.substituteText old new)
      (recode Ties.decode? Ties.encode (Ties.renamePeer old new)) := by
  have hempty : ∀ t : Ties, (t.renamePeer old new).isEmpty = t.isEmpty := by
    intro t
    simp [Ties.isEmpty, Ties.renamePeer, Ties.mapLists]
  -- nobody is tied to himself, so that his own lists stay as they are
  have hself : (g.ties old).renamePeer old new = g.ties old :=
    Ties.renamePeer_of_not_mem (h.irreflexive old)
  refine h.canonical.represents.isImage hg'.represents Ties.decode?_encode fun n u => ?_
  simp only [Graph.ties?_eq_some_iff, hties]
  unfold renameTies
  constructor
  · rintro ⟨hu, hne⟩
    split at hu
    · next hn =>
      refine ⟨old, u, ⟨hu, hne⟩, by simp [Ties.substitute, hn], ?_⟩
      rw [← hu]
      exact hself
    · split at hu
      · rw [← hu] at hne
        cases hne
      · next hn =>
        refine ⟨n, g.ties n, ⟨rfl, ?_⟩, by simp [Ties.substitute, hn], hu⟩
        rw [← hempty, hu]
        exact hne
  · rintro ⟨m, t, ⟨rfl, ht⟩, rfl, rfl⟩
    refine ⟨?_, by rwa [hempty]⟩
    by_cases hm : m = old
    · subst hm
      simp [Ties.substitute, hself]
    · have hmn : m ≠ new := by
        rintro rfl
        rw [hnew] at ht
        cases ht
      simp [Ties.substitute, hm, hmn]

/-- **A renaming puts one name in the place of another**, in everything that is stored. -/
theorem WellFormed.renamedTo {db db' : Database} (h : db.WellFormed) {old new : Name} {t : Ties}
    (hrename : db.rename old new = .ok (t, db')) :
    t = db.graph.ties old ∧ db.RenamedTo old new db' := by
  obtain ⟨p, hp, hnew, hne, rfl, hdirectory, hties, hg'⟩ := h.of_rename hrename
  obtain rfl := h.directory.canonical.name_of_profile? hp
  refine ⟨rfl, ?_, ?_, ?_⟩
  · rw [hdirectory]
    exact isImage_moved_profiles h.directory hp (h.directory.canonical.has_eq_false_iff.1 hnew)
  · rw [hdirectory]
    exact isImage_moved_aliases h.directory hp new
  · exact isImage_renameTies h.graph hg' hties hne (h.ties_eq_empty hnew)

end Database

end Amity
