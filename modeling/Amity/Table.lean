/-
  Amity/Table.lean
  ================
  **Finite tables.**  A table gives at most one value to a key.  It is a list of entries in which no
  key occurs twice; the order of the entries means nothing.  `find?` is the view: what every other
  operation does is said by the lemma about `find?` after it.
-/

namespace Amity

/-- A finite map: entries with distinct keys. -/
structure Table (κ ν : Type) [DecidableEq κ] where
  entries : List (κ × ν)
  distinct : (entries.map Prod.fst).Nodup

namespace Table

variable {κ ν μ : Type} [DecidableEq κ]

def empty : Table κ ν := ⟨[], List.nodup_nil⟩

instance : Inhabited (Table κ ν) := ⟨empty⟩

def find? (t : Table κ ν) (k : κ) : Option ν := t.entries.lookup k

def contains (t : Table κ ν) (k : κ) : Bool := (t.find? k).isSome

def keys (t : Table κ ν) : List κ := t.entries.map Prod.fst

def erase (t : Table κ ν) (k : κ) : Table κ ν where
  entries := t.entries.filter (·.1 ≠ k)
  distinct := t.distinct.sublist (List.filter_sublist.map _)

/-- The table in which the key has this value. -/
def insert (t : Table κ ν) (k : κ) (v : ν) : Table κ ν where
  entries := (k, v) :: (t.erase k).entries
  distinct := by
    simp only [List.map_cons, List.nodup_cons]
    refine ⟨?_, (t.erase k).distinct⟩
    simp [erase]

/-- Changes every value, or drops its key where there is no new value. -/
def filterMap (f : κ → ν → Option μ) (t : Table κ ν) : Table κ μ where
  entries := t.entries.filterMap fun e => (f e.1 e.2).map fun v => (e.1, v)
  distinct := by
    have h : ∀ l : List (κ × ν),
        ((l.filterMap fun e => (f e.1 e.2).map fun v => (e.1, v)).map Prod.fst).Sublist
          (l.map Prod.fst) := by
      intro l
      induction l with
      | nil => simp
      | cons e l ih =>
        cases hf : f e.1 e.2 with
        | none => simpa [hf] using ih.cons _
        | some v => simpa [hf] using ih
    exact t.distinct.sublist (h t.entries)

/-- Changes the value of a key that has one. -/
def modify (t : Table κ ν) (k : κ) (f : ν → ν) : Table κ ν :=
  match t.find? k with
  | some v => t.insert k (f v)
  | none => t

/-! ### What the operations do to the view -/

theorem lookup_filter_ne (l : List (κ × ν)) (k j : κ) :
    (l.filter (·.1 ≠ k)).lookup j = if j = k then none else l.lookup j := by
  induction l with
  | nil => simp
  | cons e l ih =>
    obtain ⟨i, v⟩ := e
    simp only [ne_eq, decide_not] at ih ⊢
    by_cases hik : i = k
    · subst hik
      by_cases hj : j = i
      · simpa [hj] using ih
      · simpa [hj, List.lookup_cons, beq_eq_false_iff_ne.2 hj] using ih
    · by_cases hj : j = i
      · subst hj
        simp [hik]
      · simpa [hik, List.lookup_cons, beq_eq_false_iff_ne.2 hj] using ih

@[simp] theorem find?_empty (k : κ) : (empty : Table κ ν).find? k = none := rfl

theorem find?_erase (t : Table κ ν) (k j : κ) :
    (t.erase k).find? j = if j = k then none else t.find? j :=
  lookup_filter_ne t.entries k j

/-- Taking out what is not there changes nothing. -/
theorem erase_of_find?_eq_none {t : Table κ ν} {k : κ} (h : t.find? k = none) : t.erase k = t := by
  have hentries : t.entries.filter (·.1 ≠ k) = t.entries := by
    refine List.filter_eq_self.2 fun e he => ?_
    have hne : k ≠ e.1 := by simpa using List.lookup_eq_none_iff.1 h e he
    exact decide_eq_true (Ne.symm hne)
  cases t
  simpa [erase] using hentries

theorem find?_insert (t : Table κ ν) (k j : κ) (v : ν) :
    (t.insert k v).find? j = if j = k then some v else t.find? j := by
  by_cases h : j = k
  · simp [find?, insert, h]
  · have := find?_erase t k j
    simp only [h, if_false] at this ⊢
    simpa [find?, insert, List.lookup_cons, beq_eq_false_iff_ne.2 h] using this

theorem find?_modify (t : Table κ ν) (k j : κ) (f : ν → ν) :
    (t.modify k f).find? j = if j = k then (t.find? j).map f else t.find? j := by
  unfold modify
  by_cases h : j = k
  · subst h
    cases hf : t.find? j <;> simp [hf, find?_insert]
  · cases hf : t.find? k <;> simp [h, find?_insert]

theorem lookup_filterMap (f : κ → ν → Option μ) (l : List (κ × ν)) (k : κ)
    (hl : (l.map Prod.fst).Nodup) :
    (l.filterMap fun e => (f e.1 e.2).map fun v => (e.1, v)).lookup k = (l.lookup k).bind (f k) := by
  induction l with
  | nil => rfl
  | cons e l ih =>
    obtain ⟨i, v⟩ := e
    simp only [List.map_cons, List.nodup_cons] at hl
    by_cases hk : k = i
    · subst hk
      have hnone : l.lookup k = none := List.lookup_eq_none_iff.2 fun e he => by
        simpa using fun h : k = e.1 => hl.1 (h ▸ List.mem_map_of_mem he)
      cases hf : f k v with
      | none => simp [hf, ih hl.2, hnone]
      | some w => simp [hf]
    · have hbeq := beq_eq_false_iff_ne.2 hk
      cases hf : f i v with
      | none => simp [hf, ih hl.2, List.lookup_cons, hbeq]
      | some w => simp [hf, ih hl.2, List.lookup_cons, hbeq]

theorem find?_filterMap (f : κ → ν → Option μ) (t : Table κ ν) (k : κ) :
    (t.filterMap f).find? k = (t.find? k).bind (f k) :=
  lookup_filterMap f t.entries k t.distinct

theorem contains_iff {t : Table κ ν} {k : κ} : t.contains k = true ↔ ∃ v, t.find? k = some v := by
  simp [contains, Option.isSome_iff_exists]

end Table

end Amity
