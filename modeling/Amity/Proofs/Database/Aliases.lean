/-
  Amity/Proofs/Database/Aliases.lean
  ==================================
  **An alias belongs to one player at most, and the index says to whom.**  Whatever calls led to a
  database, the names that stand in the index under the aliases are those of the players whose
  records have them (`Agrees`).  That is why a look at the index is enough to tell whether an alias
  can be given away: it is refused exactly when another player has it.

  What a call does to the aliases is one law.  The player has the new alias and no other, and
  everybody else has the alias there was (`Gets`); a removal is the case of no alias.  So an alias
  is free as soon as its player has another or none or is gone.  A renaming frees nothing, the alias
  goes along to the new name.
-/
import Amity.Proofs.Changes
import Amity.Proofs.Database.Removal

namespace Amity

namespace Directory

/-! ## Who has an alias -/

/-- The record under the key is that of an account with the alias. -/
def Holds (d : Directory) (key a : String) : Prop :=
  ∃ text p, d.profiles.find? key = some text ∧ Profile.decode? text = some p ∧
    p.aliasName = some a

/-- The records and the index agree. -/
structure Agrees (d : Directory) : Prop where
  /-- Under a name stands the account of that name. -/
  named : ∀ key text, d.profiles.find? key = some text →
    ∃ p, Profile.decode? text = some p ∧ p.name.text = key
  /-- Under an alias stands the name of the player who has it. -/
  indexed : ∀ a key, d.aliases.find? a = some key ↔ d.Holds key a
  /-- No two players have the same alias. -/
  unshared : ∀ a key other, d.Holds key a → d.Holds other a → key = other
  /-- Every alias is a name. -/
  valid : ∀ a key, d.Holds key a → Name.isValid a = true

/-- The player has this alias, or none, and everybody else has the alias there was. -/
structure Gets (d : Directory) (n : Name) (given : Option String) (d' : Directory) : Prop where
  agrees : d'.Agrees
  holds : ∀ key a, d'.Holds key a ↔ if key = n.text then given = some a else d.Holds key a

/-- The alias of a player has gone along to another name. -/
structure Carries (d : Directory) (old new : Name) (d' : Directory) : Prop where
  agrees : d'.Agrees
  holds : ∀ key a, d'.Holds key a ↔
    if key = new.text then d.Holds old.text a else key ≠ old.text ∧ d.Holds key a

theorem holds_text_iff {d : Directory} {n : Name} {a : String} :
    d.Holds n.text a ↔ ∃ p, d.profile? n = some p ∧ p.aliasName = some a := by
  unfold Holds profile? find?
  cases d.profiles.find? n.text with
  | none => simp
  | some text => cases hdecode : Profile.decode? text <;> simp [hdecode]

section

variable {d : Directory} (h : d.IsCanonical)
include h

theorem IsCanonical.holds_iff {key a : String} :
    d.Holds key a ↔ ∃ n p, n.text = key ∧ d.profile? n = some p ∧ p.aliasName = some a := by
  constructor
  · rintro ⟨text, p, hfind, hdecode, ha⟩
    obtain ⟨n, q, hn, hq, rfl⟩ := (h.represents key text).1 hfind
    rw [Profile.decode?_encode, Option.some.injEq] at hdecode
    exact ⟨n, q, hn, hq, hdecode ▸ ha⟩
  · rintro ⟨n, p, hn, hp, ha⟩
    exact ⟨p.encode, p, (h.represents _ _).2 ⟨n, p, hn, hp, rfl⟩, Profile.decode?_encode p, ha⟩

/-- When one account changes, nobody else has another alias. -/
theorem IsCanonical.holds_changed {d' : Directory} (h' : d'.IsCanonical) {n : Name}
    {into : Option Profile} (hview : ∀ m, d'.profile? m = if m = n then into else d.profile? m)
    (key a : String) :
    d'.Holds key a ↔
      if key = n.text then into.bind Profile.aliasName = some a else d.Holds key a := by
  rw [h'.holds_iff, h.holds_iff]
  simp only [hview]
  split
  · next hkey =>
    subst hkey
    rw [Option.bind_eq_some_iff]
    constructor
    · rintro ⟨m, p, hm, hp, ha⟩
      rw [if_pos (Name.text_inj.1 hm)] at hp
      exact ⟨p, hp, ha⟩
    · rintro ⟨p, hp, ha⟩
      exact ⟨n, p, rfl, by rw [if_pos rfl, hp], ha⟩
  · next hkey =>
    have hother : ∀ m : Name, m.text = key → m ≠ n := by
      rintro m hm rfl
      exact hkey hm.symm
    constructor
    · rintro ⟨m, p, hm, hp, ha⟩
      rw [if_neg (hother m hm)] at hp
      exact ⟨m, p, hm, hp, ha⟩
    · rintro ⟨m, p, hm, hp, ha⟩
      exact ⟨m, p, hm, by rw [if_neg (hother m hm), hp], ha⟩

end

section

variable {d d' : Directory} (h : d.WellFormed)
include h

theorem WellFormed.agrees : d.Agrees := by
  have hindexed : ∀ a key, d.aliases.find? a = some key ↔ d.Holds key a := by
    intro a key
    rw [h.indexed, h.canonical.holds_iff]
    constructor
    · rintro ⟨p, hp, ha, hkey⟩
      exact ⟨p.name, p, hkey, hp, ha⟩
    · rintro ⟨n, p, hkey, hp, ha⟩
      obtain rfl := h.canonical.name_of_profile? hp
      exact ⟨p, hp, ha, hkey⟩
  refine ⟨?_, hindexed, ?_, ?_⟩
  · intro key text hfind
    obtain ⟨p, rfl, rfl⟩ := h.canonical key text hfind
    exact ⟨p, Profile.decode?_encode p, rfl⟩
  · intro a key other hkey hother
    have hfind := ((hindexed a key).2 hkey).symm.trans ((hindexed a other).2 hother)
    exact Option.some.inj hfind
  · intro a key hkey
    obtain ⟨n, p, -, hp, ha⟩ := h.canonical.holds_iff.1 hkey
    exact h.valid n p a hp ha

/-! ## What the calls do -/

omit h in
/-- A name can be wanted as an alias. -/
theorem wantedAlias_of_isValid {a : String} (ha : Name.isValid a = true) :
    wantedAlias (some a) = .ok (some a) := by
  have hne : a.isEmpty = false := by
    cases hempty : a.isEmpty with
    | false => rfl
    | true =>
      rw [String.isEmpty_iff] at hempty
      subst hempty
      cases ha
  simp [wantedAlias, hne, ha]

/-- A change of an alias that succeeds. -/
theorem WellFormed.gets_of_setAlias {n : Name} {choice : Option String} {p : Profile}
    (hset : d.setAlias n choice = .ok (p, d')) : d.Gets n p.aliasName d' := by
  have hd' := h.aliasSet hset
  have hview : ∀ m, d'.profile? m = if m = n then some p else d.profile? m := by
    intro m
    rw [h.setAlias_eq] at hset
    split at hset
    · cases hset
    · cases hset
    · next wanted q hwanted hq =>
      obtain rfl := h.canonical.name_of_profile? hq
      split at hset
      · cases hset
        split
        · next hm => rw [hm, hq]
        · rfl
      · split at hset
        · cases hset
        · cases hset
          simp [realiased]
  exact ⟨hd'.agrees, h.canonical.holds_changed hd'.canonical hview⟩

theorem WellFormed.gets_of_delete {n : Name} (hdelete : d.delete n = .ok (some d')) :
    d.Gets n none d' := by
  have hd' := h.deleted hdelete
  have hview : ∀ m, d'.profile? m = if m = n then none else d.profile? m := by
    intro m
    rw [h.delete_eq, Except.ok.injEq, Option.map_eq_some_iff] at hdelete
    obtain ⟨p, -, rfl⟩ := hdelete
    rw [profile?_freeAlias, profile?_drop]
  exact ⟨hd'.agrees, h.canonical.holds_changed hd'.canonical hview⟩

theorem WellFormed.carries_of_rename {old new : Name} (hrename : d.rename old new = .ok d') :
    d.Carries old new d' := by
  have hd' := h.renamed hrename
  rw [h.rename_eq] at hrename
  split at hrename
  · cases hrename
  · next p hp =>
    obtain rfl := h.canonical.name_of_profile? hp
    split at hrename
    · cases hrename
    · cases hrename
      -- the account is taken out, and then put in under the new name
      have hdrop := h.canonical.drop p.name
      have hdropped := h.canonical.holds_changed hdrop (profile?_drop p.name)
      have hview : ∀ m, (d.moved p new).profile? m =
          if m = new then some { p with name := new } else (d.drop p.name).profile? m := by
        intro m
        rw [profile?_moved, profile?_drop]
      refine ⟨hd'.agrees, fun key a => ?_⟩
      rw [hdrop.holds_changed hd'.canonical hview, hdropped, holds_text_iff]
      by_cases hkey : key = p.name.text <;> simp [hkey, hp]

/-- A wish that nobody else stands in the way of. -/
theorem WellFormed.setAlias_eq_ok_of_free {n : Name} {choice wanted : Option String}
    (hn : d.has n = true) (hwanted : wantedAlias choice = .ok wanted)
    (hfree : ∀ a, wanted = some a → ∀ m : Name, d.Holds m.text a → m = n) :
    ∃ d', d.setAlias n choice = .ok (⟨n, wanted⟩, d') := by
  obtain ⟨p, hp⟩ := h.canonical.has_iff.1 hn
  obtain rfl := h.canonical.name_of_profile? hp
  rw [h.setAlias_eq, hwanted, hp]
  by_cases hsame : p.aliasName = wanted
  · subst hsame
    exact ⟨d, if_pos rfl⟩
  · have hunclaimed : wanted.filter d.aliases.contains = none := by
      cases wanted with
      | none => rfl
      | some a =>
        cases hfind : d.aliases.find? a with
        | none => simp [Option.filter, Table.contains, hfind]
        | some key =>
          -- the one who has it would be the player himself, whose alias is another
          obtain ⟨q, hq, hqa, rfl⟩ := (h.indexed a key).1 hfind
          have hname := hfree a rfl q.name (holds_text_iff.2 ⟨q, hq, hqa⟩)
          rw [hname, hp] at hq
          cases hq
          exact absurd hqa hsame
    refine ⟨d.realiased p wanted, ?_⟩
    simp [hsame, hunclaimed]

/-- A name is refused as an alias exactly when another player has it. -/
theorem WellFormed.setAlias_eq_aliasTaken_iff {n : Name} {a : String} (hn : d.has n = true)
    (ha : Name.isValid a = true) :
    d.setAlias n (some a) = .error (.aliasTaken a) ↔ ∃ m : Name, m ≠ n ∧ d.Holds m.text a := by
  have hwanted := wantedAlias_of_isValid ha
  constructor
  · intro htaken
    by_contra hnobody
    have hfree : ∀ b, some a = some b → ∀ m : Name, d.Holds m.text b → m = n := by
      rintro b ⟨⟩ m hm
      by_contra hne
      exact hnobody ⟨m, hne, hm⟩
    obtain ⟨d', hset⟩ := h.setAlias_eq_ok_of_free hn hwanted hfree
    rw [htaken] at hset
    cases hset
  · rintro ⟨m, hne, hm⟩
    obtain ⟨p, hp⟩ := h.canonical.has_iff.1 hn
    have hfind := (h.agrees.indexed a _).2 hm
    have hother : p.aliasName ≠ some a := by
      intro hpa
      have hholds := holds_text_iff.2 ⟨p, hp, hpa⟩
      exact hne (Name.text_inj.1 (h.agrees.unshared a _ _ hm hholds))
    rw [h.setAlias_eq, hwanted, hp]
    simp [hother, Option.filter, Table.contains, hfind]

end

end Directory

/-! ## Every database -/

namespace Database

/-- No call, whether it succeeds or fails, sets the accounts and the index at odds. -/
theorem directory_wellFormed_apply {db : Database} (h : db.directory.WellFormed) (c : Change) :
    (db.apply c).directory.WellFormed := by
  cases c with
  | graph c => exact h
  | create n =>
    simp only [apply]
    cases hcreate : db.directory.create n with
    | error e => exact h
    | ok r => exact h.create hcreate
  | setAlias n choice =>
    simp only [apply]
    cases hset : db.directory.setAlias n choice with
    | error e => exact h
    | ok r => exact h.aliasSet hset
  | rename old new =>
    simp only [apply]
    cases hrename : db.rename old new with
    | error e => exact h
    | ok r => exact h.renamed (rename_eq_ok_iff.1 hrename).1
  | delete n =>
    simp only [apply]
    cases hdelete : db.delete n with
    | error e => exact h
    | ok r =>
      cases r with
      | none => exact h
      | some r => exact h.deleted (delete_eq_ok_some_iff.1 hdelete).1
  | request a b =>
    simp only [apply]
    cases hrequest : db.request a b with
    | error e => exact h
    | ok r =>
      obtain ⟨made, db'⟩ := r
      rcases request_eq_ok hrequest with ⟨-, -, hdirectory, -⟩ | ⟨-, rfl⟩
      · show db'.directory.WellFormed
        rw [hdirectory]
        exact h
      · exact h

theorem directory_wellFormed_after {db : Database} (h : db.directory.WellFormed)
    (cs : List Change) : (db.after cs).directory.WellFormed := by
  induction cs generalizing db with
  | nil => exact h
  | cons c cs ih => exact ih (directory_wellFormed_apply h c)

/-- Who has which alias, and what the calls do about it. -/
structure KeepsAliases (db : Database) : Prop where
  agrees : db.directory.Agrees
  /-- A player is refused an alias exactly when another player has it, -/
  taken : ∀ n a, db.hasPlayer n = true → Name.isValid a = true →
    (db.directory.setAlias n (some a) = .error (.aliasTaken a) ↔
      ∃ m : Name, m ≠ n ∧ db.directory.Holds m.text a)
  /-- and gets it otherwise, in the place of the one there was. -/
  given : ∀ n a, db.hasPlayer n = true → Name.isValid a = true →
    (∀ m : Name, db.directory.Holds m.text a → m = n) →
    ∃ d', db.directory.setAlias n (some a) = .ok (⟨n, some a⟩, d') ∧
      db.directory.Gets n (some a) d'
  cleared : ∀ n choice, db.hasPlayer n = true → choice = none ∨ choice = some "" →
    ∃ d', db.directory.setAlias n choice = .ok (⟨n, none⟩, d') ∧ db.directory.Gets n none d'
  removed : ∀ n, db.hasPlayer n = true →
    ∃ t db', db.delete n = .ok (some (t, db')) ∧ db.directory.Gets n none db'.directory
  renamed : ∀ old new t db', db.rename old new = .ok (t, db') →
    db.directory.Carries old new db'.directory

theorem keepsAliases {db : Database} (hgraph : db.graph.WellFormed)
    (h : db.directory.WellFormed) : db.KeepsAliases where
  agrees := h.agrees
  taken n a hn ha := h.setAlias_eq_aliasTaken_iff hn ha
  given n a hn ha hfree := by
    have hwish : ∀ b, some a = some b → ∀ m : Name, db.directory.Holds m.text b → m = n := by
      rintro b ⟨⟩
      exact hfree
    obtain ⟨d', hset⟩ := h.setAlias_eq_ok_of_free hn (Directory.wantedAlias_of_isValid ha) hwish
    exact ⟨d', hset, h.gets_of_setAlias hset⟩
  cleared n choice hn hchoice := by
    have hwanted : Directory.wantedAlias choice = .ok none := by
      rcases hchoice with rfl | rfl <;> rfl
    obtain ⟨d', hset⟩ := h.setAlias_eq_ok_of_free hn hwanted nofun
    exact ⟨d', hset, h.gets_of_setAlias hset⟩
  removed n hn := by
    obtain ⟨p, hp⟩ := h.canonical.has_iff.1 hn
    obtain ⟨g', hpurge, -⟩ := hgraph.purge_eq_ok n
    have hdelete := h.delete_eq n
    rw [hp, Option.map_some] at hdelete
    exact ⟨_, ⟨g', _⟩, delete_eq_ok_some_iff.2 ⟨hdelete, hpurge⟩, h.gets_of_delete hdelete⟩
  renamed old new t db' hrename := h.carries_of_rename (rename_eq_ok_iff.1 hrename).1

/-- **The records and the index agree about the aliases** in every database, whatever calls led to
    it; an alias is refused exactly when another player has it. -/
theorem keepsAliases_after (cs : List Change) : (Database.empty.after cs).KeepsAliases :=
  keepsAliases (graph_wellFormed_after Graph.wellFormed_empty cs)
    (directory_wellFormed_after Directory.wellFormed_empty cs)

end Database

end Amity
