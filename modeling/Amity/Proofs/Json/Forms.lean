/-
  Amity/Proofs/Json/Forms.lean
  ============================
  **Every form of a record.**  A record is written in one way and read in many: its members may
  stand in any order, members of other names may stand among them, and it may be the array of its
  fields.  `Json.Presents` says which values present which fields, without saying how they are
  looked for, and `fields?_eq_some_iff` that the reader of records takes exactly those.
-/
import Amity.Json.Fields

namespace Amity.Json

/-- The members of the fields that are there. -/
def membersOf (fields : List (String × Option Json)) : List (Literal × Json) :=
  fields.flatMap fun f => f.2.toList.map (.text f.1, ·)

/-- The value is the record of these fields, in one of the forms there are. -/
inductive Presents (fields : List (String × Option Json)) : Json → Prop where
  /-- An object with a member for each field that is there, and members of other names. -/
  | object {members others : List (Literal × Json)}
      (hmembers : members.Perm (membersOf fields ++ others))
      (hothers : ∀ m ∈ others, ∃ key, m.1 = .text key ∧ key ∉ fields.map Prod.fst) :
      Presents fields (.object members)
  /-- An array of the fields, of which the last may be missing. -/
  | array {items : List Json} {missing : Nat}
      (hitems : fields.map Prod.snd = items.map some ++ List.replicate missing none) :
      Presents fields (.array items)

/-! ## Members of one name -/

/-- The members of the given name. -/
def named (name : String) (m : Literal × Json) : Bool := decide (m.1 = .text name)

theorem field?_eq_some_iff {members : List (Literal × Json)} {name : String} {v : Option Json} :
    field? members name = some v ↔
      members.filter (named name) = v.toList.map (.text name, ·) := by
  have hkey : ∀ m ∈ members.filter (named name), m.1 = .text name :=
    fun m hm => of_decide_eq_true (List.mem_filter.1 hm).2
  have hnamed : (members.filter fun m => decide (m.1 = .text name)) =
      members.filter (named name) := rfl
  rw [field?, hnamed]
  generalize members.filter (named name) = found at hkey
  cases v with
  | none => rcases found with _ | ⟨m, _ | ⟨m', ms⟩⟩ <;> simp
  | some v =>
    rcases found with _ | ⟨⟨key, w⟩, _ | ⟨m', ms⟩⟩
    · simp
    · have : key = .text name := hkey _ List.mem_cons_self
      simp [this]
    · simp

theorem mapM_field?_eq_some_iff {members : List (Literal × Json)}
    {fields : List (String × Option Json)} :
    (fields.map Prod.fst).mapM (field? members) = some (fields.map Prod.snd) ↔
      ∀ f ∈ fields, field? members f.1 = some f.2 := by
  induction fields with
  | nil => simp
  | cons f fs ih =>
    simp only [List.map_cons, List.mapM_cons, Option.pure_def, Option.bind_eq_bind,
      Option.bind_eq_some_iff, Option.some.injEq, List.cons.injEq, List.forall_mem_cons, ← ih]
    constructor
    · rintro ⟨v, hv, vs, hvs, rfl, rfl⟩
      exact ⟨hv, hvs⟩
    · rintro ⟨hv, hvs⟩
      exact ⟨_, hv, _, hvs, rfl, rfl⟩

/-! ## Objects -/

theorem membersOf_cons (f : String × Option Json) (fs : List (String × Option Json)) :
    membersOf (f :: fs) = f.2.toList.map (.text f.1, ·) ++ membersOf fs :=
  List.flatMap_cons

theorem exists_of_mem_membersOf {fields : List (String × Option Json)} {m : Literal × Json}
    (hm : m ∈ membersOf fields) : ∃ f ∈ fields, m.1 = .text f.1 := by
  obtain ⟨f, hf, hm⟩ := List.mem_flatMap.1 hm
  obtain ⟨v, -, rfl⟩ := List.mem_map.1 hm
  exact ⟨f, hf, rfl⟩

theorem filter_named_eq_nil {ms : List (Literal × Json)} {name : String}
    (h : ∀ m ∈ ms, m.1 ≠ .text name) : ms.filter (named name) = [] := by
  refine List.filter_eq_nil_iff.2 fun m hm => ?_
  simpa [named] using h m hm

theorem filter_named_membersOf {fields : List (String × Option Json)} {f : String × Option Json}
    (hnames : (fields.map Prod.fst).Nodup) (hf : f ∈ fields) :
    (membersOf fields).filter (named f.1) = f.2.toList.map (.text f.1, ·) := by
  induction fields with
  | nil => cases hf
  | cons g fs ih =>
    rw [List.map_cons, List.nodup_cons] at hnames
    rw [membersOf_cons, List.filter_append]
    rcases List.mem_cons.1 hf with rfl | hf
    · have hown : (f.2.toList.map ((Literal.text f.1, ·) : Json → _)).filter (named f.1) =
          f.2.toList.map (.text f.1, ·) := by
        refine List.filter_eq_self.2 fun m hm => ?_
        obtain ⟨v, -, rfl⟩ := List.mem_map.1 hm
        simp [named]
      have hrest : (membersOf fs).filter (named f.1) = [] := by
        refine filter_named_eq_nil fun m hm hname => hnames.1 ?_
        obtain ⟨g, hg, hkey⟩ := exists_of_mem_membersOf hm
        rw [Literal.text.inj (hname.symm.trans hkey)]
        exact List.mem_map_of_mem hg
      rw [hown, hrest, List.append_nil]
    · have hother :
          (g.2.toList.map ((Literal.text g.1, ·) : Json → _)).filter (named f.1) = [] := by
        refine filter_named_eq_nil fun m hm hname => hnames.1 ?_
        obtain ⟨v, -, rfl⟩ := List.mem_map.1 hm
        rw [Literal.text.inj hname]
        exact List.mem_map_of_mem hf
      rw [hother, List.nil_append, ih hnames.2 hf]

/-- Where each field is found, the members are those of the fields and others. -/
theorem exists_perm_of_field? {fields : List (String × Option Json)}
    {members : List (Literal × Json)} (hnames : (fields.map Prod.fst).Nodup)
    (hfields : ∀ f ∈ fields, field? members f.1 = some f.2) :
    ∃ others, members.Perm (membersOf fields ++ others) ∧
      ∀ m ∈ others, ∀ f ∈ fields, m.1 ≠ .text f.1 := by
  induction fields generalizing members with
  | nil => exact ⟨members, .refl _, fun _ _ _ => nofun⟩
  | cons f fs ih =>
    rw [List.map_cons, List.nodup_cons] at hnames
    rw [List.forall_mem_cons] at hfields
    -- the other fields are found among the members that do not have the name of this one
    obtain ⟨others, hperm, hothers⟩ := @ih (members.filter (! named f.1 ·)) hnames.2 (by
      intro g hg
      have hne : g.1 ≠ f.1 := fun hname => hnames.1 (hname ▸ List.mem_map_of_mem hg)
      rw [field?_eq_some_iff, ← field?_eq_some_iff.1 (hfields.2 g hg), List.filter_filter]
      refine List.filter_congr fun m _ => ?_
      by_cases hm : m.1 = .text g.1 <;> simp [named, hm, hne])
    refine ⟨others, ?_, fun m hm => List.forall_mem_cons.2 ⟨?_, hothers m hm⟩⟩
    · have hown := field?_eq_some_iff.1 hfields.1
      rw [membersOf_cons, ← hown, List.append_assoc]
      exact (List.filter_append_perm (named f.1) members).symm.trans (hperm.append_left _)
    · have hmem := hperm.symm.subset (List.mem_append_right _ hm)
      simpa [named] using (List.mem_filter.1 hmem).2

/-- **The reader of records takes exactly the values that present the fields.** -/
theorem fields?_eq_some_iff {fields : List (String × Option Json)} {v : Json}
    (hnames : (fields.map Prod.fst).Nodup) :
    v.fields? (fields.map Prod.fst) = some (fields.map Prod.snd) ↔ Presents fields v := by
  constructor
  · intro h
    cases v with
    | object members =>
      simp only [fields?] at h
      split at h
      · next htexts =>
        obtain ⟨others, hperm, hothers⟩ :=
          exists_perm_of_field? hnames (mapM_field?_eq_some_iff.1 h)
        refine .object hperm fun m hm => ?_
        have hmem := hperm.symm.subset (List.mem_append_right _ hm)
        cases hkey : m.1 with
        | unpaired =>
          have := List.all_eq_true.1 htexts m hmem
          simp [hkey, Literal.text?] at this
        | text key =>
          refine ⟨key, rfl, fun hmem => ?_⟩
          obtain ⟨f, hf, rfl⟩ := List.mem_map.1 hmem
          exact hothers m hm f hf hkey
      · cases h
    | array items =>
      simp only [fields?] at h
      split at h
      · exact .array (Option.some.inj h).symm
      · cases h
    | _ => cases h
  · rintro (⟨hperm, hothers⟩ | @⟨items, missing, hitems⟩)
    · next members others =>
      have htexts : members.all (fun m => m.1.text?.isSome) = true := by
        refine List.all_eq_true.2 fun m hm => ?_
        rcases List.mem_append.1 (hperm.subset hm) with hm | hm
        · obtain ⟨f, -, hkey⟩ := exists_of_mem_membersOf hm
          rw [hkey]
          rfl
        · obtain ⟨key, hkey, -⟩ := hothers m hm
          rw [hkey]
          rfl
      rw [fields?, if_pos htexts, mapM_field?_eq_some_iff]
      intro f hf
      rw [field?_eq_some_iff]
      have hnone : others.filter (named f.1) = [] := by
        refine filter_named_eq_nil fun m hm hname => ?_
        obtain ⟨key, hkey, hother⟩ := hothers m hm
        rw [hkey] at hname
        cases hname
        exact hother (List.mem_map_of_mem hf)
      have hfound := hperm.filter (named f.1)
      rw [List.filter_append, hnone, List.append_nil, filter_named_membersOf hnames hf] at hfound
      -- at most one member, so there is nothing to order
      cases hv : f.2 with
      | none =>
        rw [hv] at hfound
        exact List.perm_nil.1 hfound
      | some v =>
        rw [hv] at hfound
        exact List.perm_singleton.1 hfound
    · have hlength : fields.length = items.length + missing := by
        have := congrArg List.length hitems
        simpa using this
      have hle : items.length ≤ (fields.map Prod.fst).length := by
        rw [List.length_map]
        omega
      rw [fields?, if_pos hle, hitems, List.length_map, hlength, Nat.add_sub_cancel_left]

end Amity.Json
