/-
  Amity/Proofs/Database/Bystanders.lean
  =====================================
  **What is stored about the others stays.**  A change concerns a few names: the player who makes it
  and, in a renaming, the name that is taken.  The records of other players may still change, since
  an operation edits both ends of a tie; but with the concerned names left out of them
  (`leavingOut`), their lists are the same lists, in the same order.  So nothing changes between two
  players who are not concerned.

  For the lists this is one law for each edit of a list (`filter_without` and those after it).
-/
import Amity.Proofs.Database.Images
import Amity.Proofs.Database.Removal

namespace Amity

/-! ## Lists without some names -/

namespace Ties

/-- The ties without what they say about these players. -/
def leavingOut (ns : List Name) (t : Ties) : Ties :=
  t.mapLists (List.filter fun m => m ∉ ns)

section

variable {n : Name} {ns : List Name}

theorem filter_without (hn : n ∈ ns) (ms : List Name) :
    (without n ms).filter (fun m => m ∉ ns) = ms.filter fun m => m ∉ ns := by
  unfold without
  rw [List.filter_filter]
  refine List.filter_congr fun m _ => ?_
  by_cases hm : m = n <;> simp [hm, hn]

theorem filter_append_singleton (hn : n ∈ ns) (ms : List Name) :
    (ms ++ [n]).filter (fun m => m ∉ ns) = ms.filter fun m => m ∉ ns := by
  simp [List.filter_append, hn]

theorem filter_map_substitute {old new : Name} (hold : old ∈ ns) (hnew : new ∈ ns)
    (ms : List Name) :
    (ms.map (substitute old new)).filter (fun m => m ∉ ns) = ms.filter fun m => m ∉ ns := by
  induction ms with
  | nil => rfl
  | cons m ms ih =>
    by_cases hm : m = old
    · simp [substitute, hm, hold, hnew] at ih ⊢
      exact ih
    · by_cases hmem : m ∈ ns <;> simp [substitute, hm, hmem] at ih ⊢ <;> exact ih

variable (hn : n ∈ ns) (t : Ties)
include hn

theorem leavingOut_befriend : (t.befriend n).leavingOut ns = t.leavingOut ns := by
  unfold befriend leavingOut mapLists
  split
  · simp only [filter_without hn]
  · simp only [filter_without hn, filter_append_singleton hn]

theorem leavingOut_unfriend : (t.unfriend n).leavingOut ns = t.leavingOut ns := by
  simp only [unfriend, leavingOut, mapLists, filter_without hn]

theorem leavingOut_addReceived : (t.addReceived n).leavingOut ns = t.leavingOut ns := by
  simp only [addReceived, leavingOut, mapLists, filter_append_singleton hn]

theorem leavingOut_dropSent : (t.dropSent n).leavingOut ns = t.leavingOut ns := by
  simp only [dropSent, leavingOut, mapLists, filter_without hn]

theorem leavingOut_dropReceived : (t.dropReceived n).leavingOut ns = t.leavingOut ns := by
  simp only [dropReceived, leavingOut, mapLists, filter_without hn]

theorem leavingOut_forgetPeer : (t.forgetPeer n).leavingOut ns = t.leavingOut ns := by
  simp only [forgetPeer, leavingOut, mapLists, filter_without hn]

omit hn in
theorem leavingOut_renamePeer {old new : Name} (hold : old ∈ ns) (hnew : new ∈ ns) :
    (t.renamePeer old new).leavingOut ns = t.leavingOut ns := by
  simp only [renamePeer, leavingOut, mapLists, filter_map_substitute hold hnew]

omit hn in
/-- The others are in the lists when they are in those that are left. -/
theorem mem_of_leavingOut_eq {t u : Ties} (h : t.leavingOut ns = u.leavingOut ns) {m : Name}
    (hm : m ∉ ns) : (m ∈ t.friends ↔ m ∈ u.friends) ∧ (m ∈ t.sent ↔ m ∈ u.sent) := by
  have hfriends : m ∈ (t.leavingOut ns).friends ↔ m ∈ (u.leavingOut ns).friends := by rw [h]
  have hsent : m ∈ (t.leavingOut ns).sent ↔ m ∈ (u.leavingOut ns).sent := by rw [h]
  simp only [leavingOut, mapLists, List.mem_filter, decide_eq_true_eq, hm, not_false_iff,
    and_true] at hfriends hsent
  exact ⟨hfriends, hsent⟩

end

end Ties

/-! ## The graph -/

namespace Graph

/-- What the ties of the others say about each other is the same. -/
def Spares (ns : List Name) (g g' : Graph) : Prop :=
  ∀ x, x ∉ ns → (g'.ties x).leavingOut ns = (g.ties x).leavingOut ns

theorem Spares.refl (ns : List Name) (g : Graph) : Spares ns g g := fun _ _ => rfl

section

variable {g g' : Graph} {ns : List Name}

theorem spares_savePair {a b : Name} {left right : Ties}
    (hleft : a ∈ ns ∨ left.leavingOut ns = (g.ties a).leavingOut ns)
    (hright : b ∈ ns ∨ right.leavingOut ns = (g.ties b).leavingOut ns) :
    Spares ns g (g.savePair a left b right) := by
  intro x hx
  rw [ties_savePair]
  unfold editPair
  split
  · next hxb =>
    subst hxb
    exact hright.resolve_left hx
  · split
    · next hxa =>
      subst hxa
      exact hleft.resolve_left hx
    · rfl

theorem spares_renameTies {old new : Name} (hold : old ∈ ns) (hnew : new ∈ ns)
    (hties : g'.ties = renameTies g.ties old new) : Spares ns g g' := by
  intro x hx
  have hxnew : x ≠ new := fun heq => hx (heq ▸ hnew)
  have hxold : x ≠ old := fun heq => hx (heq ▸ hold)
  rw [hties, renameTies, if_neg hxnew, if_neg hxold, Ties.leavingOut_renamePeer _ hold hnew]

theorem spares_purgeTies {n : Name} (hn : n ∈ ns) (hties : g'.ties = purgeTies g.ties n) :
    Spares ns g g' := by
  intro x hx
  have hxn : x ≠ n := fun heq => hx (heq ▸ hn)
  rw [hties, purgeTies, if_neg hxn, Ties.leavingOut_forgetPeer hn]

end

end Graph

/-! ## The directory -/

namespace Directory

/-- The accounts of the others are the same, and so is every alias but that of the player. -/
structure Spares (ns : List Name) (n : Name) (d d' : Directory) : Prop where
  profiles : ∀ key, (∀ m ∈ ns, key ≠ m.text) → d'.profiles.find? key = d.profiles.find? key
  aliases : ∀ a, d.aliases.find? a ≠ some n.text → d'.aliases.find? a = d.aliases.find? a

theorem Spares.refl (ns : List Name) (n : Name) (d : Directory) : Spares ns n d d :=
  ⟨fun _ _ => rfl, fun _ _ => rfl⟩

section

variable {d : Directory} {p : Profile} {ns : List Name}

theorem find?_profiles_moved (d : Directory) (p : Profile) (new : Name) (key : String) :
    (d.moved p new).profiles.find? key =
      if key = new.text then some ({ p with name := new } : Profile).encode
      else if key = p.name.text then none else d.profiles.find? key := by
  have hclaimed : ((d.drop p.name).claim p.aliasName new).profiles = (d.drop p.name).profiles := by
    cases p.aliasName <;> rfl
  unfold moved
  refine (Table.find?_insert _ _ _ _).trans ?_
  rw [hclaimed]
  split
  · rfl
  · exact Table.find?_erase _ _ _

variable (h : d.WellFormed) (hp : d.profile? p.name = some p)
include h hp

theorem WellFormed.spares_moved {new : Name} (hold : p.name ∈ ns) (hnew : new ∈ ns) :
    Spares ns p.name d (d.moved p new) where
  profiles key hkey := by
    rw [find?_profiles_moved, if_neg (hkey new hnew), if_neg (hkey p.name hold)]
  aliases a ha := by
    have hother : p.aliasName ≠ some a := fun hpa => ha (h.find?_aliases hp hpa)
    rw [find?_aliases_moved, if_neg hother]

theorem WellFormed.spares_deleted (hn : p.name ∈ ns) :
    Spares ns p.name d ((d.drop p.name).freeAlias p.aliasName) where
  profiles key hkey := by
    rw [Database.find?_profiles_deleted, if_neg (hkey p.name hn)]
  aliases a ha := by
    rw [Database.find?_aliases_deleted h hp, if_neg ha]

end

end Directory

end Amity
