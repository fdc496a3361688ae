/-
  Amity/Proofs/Database/Accounts.lean
  ===================================
  **The accounts and the index of aliases agree.**  An alias is kept twice: in the account of the
  player who has it, and in the index, where the player's name stands under it.  `WellFormed` says
  that the two are the same relation, and that every record is the text of an account and stands
  under the account's name.  Then `profile?` is the view of the accounts, and an operation is one
  case distinction on it.

  A change of the directory takes one account out, puts one in, or both; the index follows.  That
  this keeps the two in agreement is proved once, for all operations (`WellFormed.exchange`).
-/
import Amity.Proofs.Database.Operations
import Amity.Proofs.Graph.View

namespace Amity.Directory

/-! ## The view of the accounts -/

/-- The account under a name; a record that cannot be read counts as none. -/
def profile? (d : Directory) (n : Name) : Option Profile :=
  match d.find? n with
  | .ok p => p
  | .error _ => none

/-- Every record is the text of an account and stands under the name of that account. -/
def IsCanonical (d : Directory) : Prop :=
  ∀ key text, d.profiles.find? key = some text →
    ∃ p : Profile, key = p.name.text ∧ text = p.encode

theorem isCanonical_empty : Directory.empty.IsCanonical := by
  intro key text hfind
  cases hfind

/-- Enters an alias, if there is one. -/
def claim (d : Directory) (a : Option String) (n : Name) : Directory :=
  match a with
  | some a => d.claimAlias a n
  | none => d

section

variable {d : Directory}

@[simp] theorem profile?_save (p : Profile) (m : Name) :
    (d.save p).profile? m = if m = p.name then some p else d.profile? m := by
  unfold profile? find? save
  rw [Table.find?_insert]
  by_cases hm : m = p.name
  · simp [hm]
  · simp [hm]

@[simp] theorem profile?_drop (n m : Name) :
    (d.drop n).profile? m = if m = n then none else d.profile? m := by
  unfold profile? find? drop
  rw [Table.find?_erase]
  by_cases hm : m = n
  · simp [hm]
  · simp [hm]

@[simp] theorem profile?_claim (a : Option String) (n m : Name) :
    (d.claim a n).profile? m = d.profile? m := by
  cases a <;> rfl

@[simp] theorem profile?_freeAlias (a : Option String) (m : Name) :
    (d.freeAlias a).profile? m = d.profile? m := by
  cases a <;> rfl

theorem find?_aliases_claim (a : Option String) (n : Name) (b : String) :
    (d.claim a n).aliases.find? b = if a = some b then some n.text else d.aliases.find? b := by
  cases a with
  | none => simp [claim]
  | some a =>
    refine (Table.find?_insert _ _ _ _).trans ?_
    simp only [Option.some.injEq, eq_comm]

theorem find?_aliases_freeAlias (a : Option String) (b : String) :
    (d.freeAlias a).aliases.find? b = if a = some b then none else d.aliases.find? b := by
  cases a with
  | none => simp [freeAlias]
  | some a =>
    refine (Table.find?_erase _ _ _).trans ?_
    simp only [Option.some.injEq, eq_comm]

theorem IsCanonical.save (h : d.IsCanonical) (p : Profile) : (d.save p).IsCanonical := by
  intro key text hfind
  have hfind : (d.profiles.insert p.name.text p.encode).find? key = some text := hfind
  rw [Table.find?_insert] at hfind
  split at hfind
  · next hkey => exact ⟨p, hkey, (Option.some.inj hfind).symm⟩
  · exact h key text hfind

theorem IsCanonical.drop (h : d.IsCanonical) (n : Name) : (d.drop n).IsCanonical := by
  intro key text hfind
  have hfind : (d.profiles.erase n.text).find? key = some text := hfind
  rw [Table.find?_erase] at hfind
  split at hfind
  · cases hfind
  · exact h key text hfind

theorem IsCanonical.claim (h : d.IsCanonical) (a : Option String) (n : Name) :
    (d.claim a n).IsCanonical := by
  cases a <;> exact h

theorem IsCanonical.freeAlias (h : d.IsCanonical) (a : Option String) :
    (d.freeAlias a).IsCanonical := by
  cases a <;> exact h

/-! ### Reading -/

variable (h : d.IsCanonical)
include h

/-- The record under a name is the text of the account there. -/
theorem IsCanonical.find?_profiles (n : Name) :
    d.profiles.find? n.text = (d.profile? n).map Profile.encode := by
  unfold profile? find?
  cases hfind : d.profiles.find? n.text with
  | none => rfl
  | some text =>
    obtain ⟨p, -, rfl⟩ := h n.text text hfind
    simp

theorem IsCanonical.find?_eq (n : Name) : d.find? n = .ok (d.profile? n) := by
  unfold profile? find?
  cases hfind : d.profiles.find? n.text with
  | none => rfl
  | some text =>
    obtain ⟨p, -, rfl⟩ := h n.text text hfind
    simp

theorem IsCanonical.name_of_profile? {n : Name} {p : Profile} (hp : d.profile? n = some p) :
    p.name = n := by
  have hfind := h.find?_profiles n
  rw [hp, Option.map_some] at hfind
  obtain ⟨q, hkey, htext⟩ := h n.text _ hfind
  have hdecode := congrArg Profile.decode? htext
  rw [Profile.decode?_encode, Profile.decode?_encode] at hdecode
  rw [Option.some.inj hdecode]
  exact (Name.text_inj.1 hkey).symm

theorem IsCanonical.has_iff {n : Name} : d.has n = true ↔ ∃ p, d.profile? n = some p := by
  unfold has Table.contains
  rw [h.find?_profiles]
  simp [Option.isSome_iff_exists]

theorem IsCanonical.has_eq_false_iff {n : Name} : d.has n = false ↔ d.profile? n = none := by
  rw [← Bool.not_eq_true, h.has_iff]
  simp [Option.eq_none_iff_forall_ne_some]

theorem IsCanonical.load_eq (n : Name) :
    d.load n = match d.profile? n with
      | some p => .ok p
      | none => .error (.notFound n) := by
  unfold load
  rw [h.find?_eq]
  cases d.profile? n <;> rfl

end

/-- A wanted alias is a name. -/
theorem isValid_of_wantedAlias {choice : Option String} {a : String}
    (hwanted : wantedAlias choice = .ok (some a)) : Name.isValid a = true := by
  unfold wantedAlias at hwanted
  split at hwanted
  · cases hwanted
  · split at hwanted
    · cases hwanted
    · split at hwanted
      · next hvalid =>
        cases hwanted
        exact hvalid
      · cases hwanted

/-! ## Well-formed directories -/

/-- The accounts and the index of aliases say the same. -/
structure WellFormed (d : Directory) : Prop where
  canonical : d.IsCanonical
  /-- Under an alias stands the name of the player whose account has it. -/
  indexed : ∀ a target, d.aliases.find? a = some target ↔
    ∃ p, d.profile? p.name = some p ∧ p.aliasName = some a ∧ p.name.text = target
  /-- Every alias is a name. -/
  valid : ∀ n p a, d.profile? n = some p → p.aliasName = some a → Name.isValid a = true

theorem wellFormed_empty : Directory.empty.WellFormed where
  canonical := isCanonical_empty
  indexed a target := by
    constructor
    · intro hfind
      cases hfind
    · rintro ⟨p, hp, -⟩
      cases hp
  valid n p a hp := by cases hp

section

variable {d d' : Directory} (h : d.WellFormed)
include h

theorem WellFormed.find?_aliases {p : Profile} {a : String} (hp : d.profile? p.name = some p)
    (ha : p.aliasName = some a) : d.aliases.find? a = some p.name.text :=
  (h.indexed a _).2 ⟨p, hp, ha, rfl⟩

/-- An alias belongs to one account. -/
theorem WellFormed.eq_of_aliasName {p q : Profile} {a : String} (hp : d.profile? p.name = some p)
    (hq : d.profile? q.name = some q) (hpa : p.aliasName = some a) (hqa : q.aliasName = some a) :
    p = q := by
  have hname := (h.find?_aliases hp hpa).symm.trans (h.find?_aliases hq hqa)
  have hname : p.name = q.name := Name.text_inj.1 (Option.some.inj hname)
  rw [hname] at hp
  exact Option.some.inj (hp.symm.trans hq)

/-- One account is taken out and one put in; the index loses the alias of the one and gets that of
    the other. -/
theorem WellFormed.exchange (out into : Option Profile) (hcanonical : d'.IsCanonical)
    (hout : ∀ p, out = some p → d.profile? p.name = some p)
    (hinto : ∀ q a, into = some q → q.aliasName = some a → Name.isValid a = true)
    (hprofile : ∀ p, d'.profile? p.name = some p ↔
      into = some p ∨ (d.profile? p.name = some p ∧ out ≠ some p))
    (haliases : ∀ a target, d'.aliases.find? a = some target ↔
      (∃ q, into = some q ∧ q.aliasName = some a ∧ q.name.text = target) ∨
        (d.aliases.find? a = some target ∧ ∀ p, out = some p → p.aliasName ≠ some a)) :
    d'.WellFormed where
  canonical := hcanonical
  indexed a target := by
    rw [haliases]
    constructor
    · rintro (⟨q, hq, hqa, htarget⟩ | ⟨hfind, hkept⟩)
      · exact ⟨q, (hprofile q).2 (Or.inl hq), hqa, htarget⟩
      · obtain ⟨p, hp, hpa, htarget⟩ := (h.indexed a target).1 hfind
        exact ⟨p, (hprofile p).2 (Or.inr ⟨hp, fun hout => hkept p hout hpa⟩), hpa, htarget⟩
    · rintro ⟨p, hp, hpa, htarget⟩
      rcases (hprofile p).1 hp with hq | ⟨hp, hkept⟩
      · exact Or.inl ⟨p, hq, hpa, htarget⟩
      · -- no account has the alias of the one that stays, so not the one that goes either
        refine Or.inr ⟨htarget ▸ h.find?_aliases hp hpa, fun q hq hqa => hkept ?_⟩
        rw [h.eq_of_aliasName hp (hout q hq) hpa hqa]
        exact hq
  valid n p a hp hpa := by
    have hpn := hcanonical.name_of_profile? hp
    subst hpn
    rcases (hprofile p).1 hp with hq | ⟨hbefore, -⟩
    · exact hinto p a hq hpa
    · exact h.valid _ p a hbefore hpa

/-! ## The operations -/

theorem WellFormed.create {n : Name} {p : Profile} (hcreate : d.create n = .ok (p, d')) :
    d'.WellFormed := by
  unfold Directory.create at hcreate
  split at hcreate
  · cases hcreate
  · next hn =>
    cases hcreate
    have hfree : d.profile? n = none := h.canonical.has_eq_false_iff.1 (by simpa using hn)
    apply h.exchange none (some (.fresh n)) (h.canonical.save (.fresh n))
    · intro p hp
      cases hp
    · intro q a hq ha
      cases hq
      cases ha
    · intro p
      rw [profile?_save]
      by_cases hp : p.name = n
      · simp [Profile.fresh, hp, hfree]
      · have hne : Profile.fresh n ≠ p := fun heq => hp (heq ▸ rfl)
        have hother : p.name ≠ (Profile.fresh n).name := hp
        simp [hne, hother]
    · intro a target
      simp [Profile.fresh, save]

/-- The directory after an account has got another name. -/
def moved (d : Directory) (p : Profile) (new : Name) : Directory :=
  ((d.drop p.name).claim p.aliasName new).save { p with name := new }

theorem WellFormed.rename_eq (old new : Name) :
    d.rename old new = match d.profile? old with
      | none => .error (.notFound old)
      | some p => if d.has new then .error (.nameTaken new) else .ok (d.moved p new) := by
  unfold rename moved
  rw [h.canonical.load_eq]
  cases hp : d.profile? old with
  | none => rfl
  | some p =>
    obtain rfl := h.canonical.name_of_profile? hp
    rfl

theorem WellFormed.delete_eq (n : Name) :
    d.delete n = .ok ((d.profile? n).map fun p => (d.drop n).freeAlias p.aliasName) := by
  unfold delete
  rw [h.canonical.find?_eq]
  cases d.profile? n <;> rfl

omit h in
theorem profile?_moved (p : Profile) (new m : Name) :
    (d.moved p new).profile? m =
      if m = new then some { p with name := new } else if m = p.name then none else d.profile? m := by
  simp [moved]

omit h in
theorem find?_aliases_moved (p : Profile) (new : Name) (a : String) :
    (d.moved p new).aliases.find? a =
      if p.aliasName = some a then some new.text else d.aliases.find? a :=
  find?_aliases_claim _ _ _

theorem WellFormed.renamed {old new : Name} (hrename : d.rename old new = .ok d') :
    d'.WellFormed := by
  rw [h.rename_eq] at hrename
  split at hrename
  · cases hrename
  · next p hp =>
    obtain rfl := h.canonical.name_of_profile? hp
    split at hrename
    · cases hrename
    · next hnew =>
      cases hrename
      have hfree : d.profile? new = none := h.canonical.has_eq_false_iff.1 (by simpa using hnew)
      have hcanonical : (d.moved p new).IsCanonical :=
        ((h.canonical.drop p.name).claim _ _).save _
      apply h.exchange (some p) (some { p with name := new }) hcanonical
      · rintro q ⟨⟩
        exact hp
      · rintro q a ⟨⟩ ha
        exact h.valid _ p a hp ha
      · intro q
        rw [profile?_moved]
        by_cases hq : q.name = new
        · simp [hq, hfree]
        · by_cases hqp : q.name = p.name <;> grind
      · intro a target
        rw [find?_aliases_moved]
        by_cases ha : p.aliasName = some a <;> simp [ha]

theorem WellFormed.deleted {n : Name} (hdelete : d.delete n = .ok (some d')) : d'.WellFormed := by
  rw [h.delete_eq, Except.ok.injEq, Option.map_eq_some_iff] at hdelete
  obtain ⟨p, hp, rfl⟩ := hdelete
  obtain rfl := h.canonical.name_of_profile? hp
  apply h.exchange (some p) none ((h.canonical.drop _).freeAlias _)
  · rintro q ⟨⟩
    exact hp
  · intro q a hq
    cases hq
  · intro q
    rw [profile?_freeAlias, profile?_drop]
    by_cases hq : q.name = p.name <;> grind
  · intro a target
    rw [find?_aliases_freeAlias]
    by_cases ha : p.aliasName = some a <;> simp [ha, drop]

/-- The directory after an account has got another alias. -/
def realiased (d : Directory) (p : Profile) (wanted : Option String) : Directory :=
  ((d.claim wanted p.name).freeAlias p.aliasName).save { p with aliasName := wanted }

theorem WellFormed.setAlias_eq (n : Name) (choice : Option String) :
    d.setAlias n choice = match wantedAlias choice, d.profile? n with
      | .error e, _ => .error e
      | .ok _, none => .error (.notFound n)
      | .ok wanted, some p =>
        if p.aliasName = wanted then .ok (p, d)
        else match wanted.filter d.aliases.contains with
          | some a => .error (.aliasTaken a)
          | none => .ok ({ p with aliasName := wanted }, d.realiased p wanted) := by
  unfold setAlias
  rw [h.canonical.load_eq]
  cases wantedAlias choice with
  | error e => rfl
  | ok wanted =>
    cases hp : d.profile? n with
    | none => rfl
    | some p =>
      obtain rfl := h.canonical.name_of_profile? hp
      simp only [bind, Except.bind, pure, Except.pure]
      split
      · rfl
      · cases wanted with
        | none => rfl
        | some a => cases ha : d.aliases.contains a <;> simp [claimFree, ha, realiased, claim, Option.filter]

theorem WellFormed.aliasSet {n : Name} {choice : Option String} {p : Profile}
    (hset : d.setAlias n choice = .ok (p, d')) : d'.WellFormed := by
  rw [h.setAlias_eq] at hset
  split at hset
  · cases hset
  · cases hset
  · next wanted q hwanted hq =>
    split at hset
    · cases hset
      exact h
    · next hne =>
      split at hset
      · cases hset
      · next hfree =>
        cases hset
        obtain rfl := h.canonical.name_of_profile? hq
        have hcanonical : (d.realiased q wanted).IsCanonical :=
          ((h.canonical.claim _ _).freeAlias _).save _
        have hfree : ∀ a, wanted = some a → d.aliases.find? a = none := by
          rintro a rfl
          simpa [Option.filter, Table.contains, Option.isSome_iff_ne_none] using hfree
        apply h.exchange (some q) (some { q with aliasName := wanted }) hcanonical
        · rintro r ⟨⟩
          exact hq
        · rintro r a ⟨⟩ ha
          have ha : wanted = some a := ha
          exact isValid_of_wantedAlias (ha ▸ hwanted)
        · intro r
          unfold realiased
          rw [profile?_save, profile?_freeAlias, profile?_claim]
          by_cases hr : r.name = q.name <;> grind
        · intro a target
          show ((d.claim wanted q.name).freeAlias q.aliasName).aliases.find? a = some target ↔ _
          rw [find?_aliases_freeAlias, find?_aliases_claim]
          by_cases hout : q.aliasName = some a
          · have hinto : wanted ≠ some a := fun hinto => hne (hout.trans hinto.symm)
            simp [hout, hinto]
          · by_cases hinto : wanted = some a <;> simp [hout, hinto, hfree]

/-- Setting an alias opens and closes no account. -/
theorem WellFormed.has_aliasSet {n : Name} {choice : Option String} {p : Profile}
    (hset : d.setAlias n choice = .ok (p, d')) (m : Name) : d'.has m = d.has m := by
  rw [h.setAlias_eq] at hset
  split at hset
  · cases hset
  · cases hset
  · next wanted q hwanted hq =>
    split at hset
    · cases hset
      rfl
    · split at hset
      · cases hset
      · cases hset
        obtain rfl := h.canonical.name_of_profile? hq
        have hplayer : d.has q.name = true := h.canonical.has_iff.2 ⟨q, hq⟩
        have hhas : (d.realiased q wanted).has m = true ↔ m = q.name ∨ d.has m = true := by
          unfold realiased
          cases wanted <;> simp [claim]
        rw [Bool.eq_iff_iff, hhas]
        refine ⟨?_, Or.inr⟩
        rintro (rfl | hm)
        · exact hplayer
        · exact hm

end

end Amity.Directory
