/-
  Amity/Proofs/Json/RoundTrip.lean
  ================================
  **Reading gives back what was written.**  The writer leaves no blanks and escapes exactly what a
  literal may not hold, so the reader finds each piece where the writer put it.  This holds for the
  values that records and messages are made of: null, truth values, texts, arrays and objects with
  texts as keys (`isTextual`).  The main statements are `scan?_write`, and `read?_write` for the
  reader of texts of which every part matters.

  The reader counts down a fuel.  One step of it enters a value and one goes on to the next item, so
  two for each written character are enough, which is what `readFront` hands out.
-/
import Amity.Json.Fields

namespace Amity.Json

/-! ## Literals -/

theorem hexValue?_hexDigit {n : Nat} (h : n < 16) : hexValue? (hexDigit n) = some n := by
  have all : ∀ k : Fin 16, hexValue? (hexDigit k.val) = some k.val := by decide
  exact all ⟨n, h⟩

theorem codeUnit?_hexDigit {n : Nat} (h : n < 0x20) :
    codeUnit? '0' '0' (hexDigit (n / 16)) (hexDigit (n % 16)) = some n := by
  have hzero : hexValue? '0' = some 0 := rfl
  have hhigh : hexValue? (hexDigit (n / 16)) = some (n / 16) := hexValue?_hexDigit (by omega)
  have hlow : hexValue? (hexDigit (n % 16)) = some (n % 16) := hexValue?_hexDigit (by omega)
  have hsum : 16 * (n / 16) + n % 16 = n := by omega
  simp [codeUnit?, hzero, hhigh, hlow, hsum]

theorem readUnits_shortEscape {e c : Char} (h : shortEscape? e = some c) (cs : List Char) :
    readUnits ('\\' :: e :: cs) = (readUnits cs).map fun (us, rest) => (c.toNat :: us, rest) := by
  have hu : e ≠ 'u' := by rintro rfl; cases h
  simp only [Char.isValue, hu, imp_false, false_implies, implies_true, readUnits, h,
    Option.pure_def, Option.bind_eq_bind, Option.bind_some, Option.map_eq_bind]
  rfl

theorem readUnits_writeChar (c : Char) (cs : List Char) :
    readUnits (writeChar c ++ cs) =
      (readUnits cs).map fun (us, rest) => (c.toNat :: us, rest) := by
  unfold writeChar
  split
  · subst c; exact readUnits_shortEscape rfl cs
  split
  · subst c; exact readUnits_shortEscape rfl cs
  split
  · subst c; exact readUnits_shortEscape rfl cs
  split
  · subst c; exact readUnits_shortEscape rfl cs
  split
  · subst c; exact readUnits_shortEscape rfl cs
  split
  · subst c; exact readUnits_shortEscape rfl cs
  split
  · subst c; exact readUnits_shortEscape rfl cs
  split
  · next h =>
    simp only [Char.isValue, List.cons_append, List.nil_append, readUnits, codeUnit?_hexDigit h,
      Option.pure_def, Option.bind_eq_bind, Option.bind_some, Option.map_eq_bind]
    rfl
  · next _ hslash _ _ _ _ _ h =>
    simp only [Char.isValue, List.cons_append, List.nil_append, hslash, imp_false, false_implies,
      implies_true, readUnits, h, if_false, Option.pure_def, Option.bind_eq_bind,
      Option.map_eq_bind]
    rfl

theorem readUnits_flatMap (cs rest : List Char) :
    readUnits (cs.flatMap writeChar ++ '"' :: rest) = some (cs.map Char.toNat, rest) := by
  induction cs with
  | nil => rfl
  | cons c cs ih =>
    simp only [List.flatMap_cons, List.append_assoc, readUnits_writeChar, ih, Option.map_some,
      List.map_cons]

/-- No character is half of a surrogate pair. -/
theorem not_isHalf (c : Char) : isHighHalf c.toNat = false ∧ isLowHalf c.toNat = false := by
  have hvalid : c.toNat < 0xd800 ∨ (0xdfff < c.toNat ∧ c.toNat < 0x110000) := c.valid
  simp only [isHighHalf, isLowHalf, Bool.and_eq_false_iff, decide_eq_false_iff_not]
  omega

theorem joinUnits_map (cs : List Char) : joinUnits (cs.map Char.toNat) = some cs := by
  induction cs with
  | nil => rfl
  | cons c cs ih =>
    obtain ⟨hhigh, hlow⟩ := not_isHalf c
    cases cs with
    | nil => simp [joinUnits, hhigh, hlow]
    | cons d cs => simp_all [joinUnits]

/-- A text is read back from the literal written for it. -/
theorem readLiteral_writeText (s : String) (rest : List Char) :
    readLiteral (s.toList.flatMap writeChar ++ '"' :: rest) = some (.text s, rest) := by
  simp [readLiteral, readUnits_flatMap, literalOfUnits, joinUnits_map]

/-! ## Textual values -/

mutual

/-- Whether a value holds nothing but null, truth values and texts, with texts as keys. -/
def isTextual : Json → Bool
  | .number _ => false
  | .string l => l.text?.isSome
  | .array items => areTextual items
  | .object members => areTextualMembers members
  | _ => true

def areTextual : List Json → Bool
  | [] => true
  | v :: vs => isTextual v && areTextual vs

def areTextualMembers : List (Literal × Json) → Bool
  | [] => true
  | (k, v) :: ms => k.text?.isSome && isTextual v && areTextualMembers ms

end

theorem areTextual_iff {vs : List Json} : areTextual vs = true ↔ ∀ v ∈ vs, isTextual v = true := by
  induction vs with
  | nil => simp [areTextual]
  | cons v vs ih => simp [areTextual, ih]

theorem areTextualMembers_iff {ms : List (Literal × Json)} :
    areTextualMembers ms = true ↔
      ∀ m ∈ ms, m.1.text?.isSome = true ∧ isTextual m.2 = true := by
  induction ms with
  | nil => simp [areTextualMembers]
  | cons m ms ih => simp [areTextualMembers, ih]

theorem exists_text_of_isSome {l : Literal} (h : l.text?.isSome = true) : ∃ s, l = .text s := by
  cases l with
  | text s => exact ⟨s, rfl⟩
  | unpaired => cases h

/-- The first character of a value is neither a blank nor the end of an array. -/
theorem exists_head_of_isTextual {v : Json} (h : v.isTextual = true) :
    ∃ c cs, writeChars v = c :: cs ∧ isBlank c = false ∧ c ≠ ']' := by
  cases v with
  | null => exact ⟨_, _, by rw [writeChars], by decide, by decide⟩
  | bool b => cases b <;> exact ⟨_, _, by rw [writeChars], by decide, by decide⟩
  | number x => cases h
  | string l =>
    obtain ⟨s, rfl⟩ := exists_text_of_isSome h
    exact ⟨_, _, by rw [writeChars, writeLiteral, writeText], by decide, by decide⟩
  | array items => cases items <;> exact ⟨_, _, by rw [writeChars], by decide, by decide⟩
  | object members =>
    rcases members with _ | ⟨⟨k, v⟩, ms⟩ <;> exact ⟨_, _, by rw [writeChars], by decide, by decide⟩

theorem skipBlanks_cons {c : Char} (h : isBlank c = false) (cs : List Char) :
    skipBlanks (c :: cs) = c :: cs := by
  simp [skipBlanks, h]

/-! ## Values -/

/-- What the reader does at this much fuel to values, items and members, when the fuel is twice the
    number of their characters. -/
structure ReadsBack (fuel : Nat) : Prop where
  value : ∀ (v : Json) (rest : List Char), v.isTextual = true →
    2 * (writeChars v).length ≤ fuel →
    readValue fuel (writeChars v ++ rest) = some (v, rest)
  items : ∀ (v : Json) (vs : List Json) (rest : List Char), areTextual (v :: vs) = true →
    2 * (writeChars v ++ writeItems vs).length ≤ fuel →
    readItems fuel (writeChars v ++ (writeItems vs ++ rest)) = some (v :: vs, rest)
  members : ∀ (k : Literal) (v : Json) (ms : List (Literal × Json)) (rest : List Char),
    areTextualMembers ((k, v) :: ms) = true →
    2 * (writeLiteral k ++ (':' :: (writeChars v ++ writeMembers ms))).length ≤ fuel →
    readMembers fuel (writeLiteral k ++ (':' :: (writeChars v ++ (writeMembers ms ++ rest)))) =
      some ((k, v) :: ms, rest)

theorem writeItems_ne_nil (vs : List Json) : 0 < (writeItems vs).length := by
  cases vs <;> simp [writeItems]

theorem writeMembers_ne_nil (ms : List (Literal × Json)) : 0 < (writeMembers ms).length := by
  rcases ms with _ | ⟨⟨k, v⟩, ms⟩ <;> simp [writeMembers]

theorem readKey_writeLiteral {k : Literal} (h : k.text?.isSome = true) (cs : List Char) :
    readKey (writeLiteral k ++ (':' :: cs)) = some (k, cs) := by
  obtain ⟨s, rfl⟩ := exists_text_of_isSome h
  have hquote : skipBlanks ('"' :: (s.toList.flatMap writeChar ++ '"' :: ':' :: cs)) =
      '"' :: (s.toList.flatMap writeChar ++ '"' :: ':' :: cs) := skipBlanks_cons (by decide) _
  have hcolon : skipBlanks (':' :: cs) = ':' :: cs := skipBlanks_cons (by decide) _
  simp [readKey, writeLiteral, writeText, hquote, readLiteral_writeText, hcolon]

theorem readsBack_zero : ReadsBack 0 where
  value v rest hv hfuel := by
    obtain ⟨c, cs, hhead, -⟩ := exists_head_of_isTextual hv
    simp [hhead] at hfuel
  items v vs rest _ hfuel := by
    have := writeItems_ne_nil vs
    simp only [List.length_append] at hfuel
    omega
  members k v ms rest _ hfuel := by
    simp only [List.length_append, List.length_cons] at hfuel
    omega

/-- One step of the reader: what it calls has one fuel less and at least one character less. -/
theorem ReadsBack.succ {fuel : Nat} (ih : ReadsBack fuel) : ReadsBack (fuel + 1) where
  value v rest hv hfuel := by
    cases v with
    | null => rfl
    | bool b => cases b <;> rfl
    | number x => cases hv
    | string l =>
      obtain ⟨s, rfl⟩ := exists_text_of_isSome hv
      have hquote : skipBlanks ('"' :: (s.toList.flatMap writeChar ++ '"' :: rest)) =
          '"' :: (s.toList.flatMap writeChar ++ '"' :: rest) := skipBlanks_cons (by decide) _
      simp [readValue, writeChars, writeLiteral, writeText, hquote, readLiteral_writeText]
    | array items =>
      cases items with
      | nil => rfl
      | cons v vs =>
        have hitems : areTextual (v :: vs) = true := hv
        simp only [writeChars, List.length_cons] at hfuel
        have hread := ih.items v vs rest hitems (by omega)
        -- the first item does not look like the end of an empty array
        obtain ⟨c, cs, hhead, hblank, hend⟩ :=
          exists_head_of_isTextual (areTextual_iff.1 hitems v (by simp))
        have hopen : skipBlanks ('[' :: (c :: (cs ++ (writeItems vs ++ rest)))) =
            '[' :: (c :: (cs ++ (writeItems vs ++ rest))) := skipBlanks_cons (by decide) _
        have hfirst : skipBlanks (c :: (cs ++ (writeItems vs ++ rest))) =
            c :: (cs ++ (writeItems vs ++ rest)) := skipBlanks_cons hblank _
        simp only [hhead, List.cons_append] at hread
        simp [readValue, writeChars, hhead, hopen, hfirst, hend, hread]
    | object members =>
      rcases members with _ | ⟨⟨k, v⟩, ms⟩
      · rfl
      · have hmembers : areTextualMembers ((k, v) :: ms) = true := hv
        simp only [writeChars, List.length_cons] at hfuel
        have hread := ih.members k v ms rest hmembers (by omega)
        -- a key begins with a quote, so the object is not taken for an empty one
        obtain ⟨s, rfl⟩ := exists_text_of_isSome
          (areTextualMembers_iff.1 hmembers (k, v) (by simp)).1
        have hopen : ∀ cs, skipBlanks ('\x7b' :: cs) = '\x7b' :: cs :=
          skipBlanks_cons (by decide)
        have hquote : ∀ cs, skipBlanks ('"' :: cs) = '"' :: cs := skipBlanks_cons (by decide)
        simp only [writeLiteral, writeText, List.append_assoc, List.cons_append,
          List.nil_append] at hread
        simp [readValue, writeChars, writeLiteral, writeText, hopen, hquote, hread]
  items v vs rest hitems hfuel := by
    have hlength := writeItems_ne_nil vs
    simp only [List.length_append] at hfuel
    have hv := areTextual_iff.1 hitems v (by simp)
    have hread := ih.value v (writeItems vs ++ rest) hv (by omega)
    cases vs with
    | nil =>
      have hclose : skipBlanks (']' :: rest) = ']' :: rest := skipBlanks_cons (by decide) _
      simp only [writeItems, List.cons_append, List.nil_append] at hread
      simp [readItems, writeItems, hread, hclose]
    | cons w ws =>
      have hrest : areTextual (w :: ws) = true :=
        areTextual_iff.2 fun x hx => areTextual_iff.1 hitems x (List.mem_cons_of_mem _ hx)
      simp only [writeItems, List.length_cons] at hfuel
      have htail := ih.items w ws rest hrest (by omega)
      have hcomma : ∀ cs, skipBlanks (',' :: cs) = ',' :: cs := skipBlanks_cons (by decide)
      simp only [writeItems, List.cons_append, List.append_assoc] at hread
      simp [readItems, writeItems, hread, hcomma, htail]
  members k v ms rest hmembers hfuel := by
    have hlength := writeMembers_ne_nil ms
    simp only [List.length_append, List.length_cons] at hfuel
    obtain ⟨hk, hv⟩ := areTextualMembers_iff.1 hmembers (k, v) (by simp)
    have hread := ih.value v (writeMembers ms ++ rest) hv (by omega)
    have hkey := readKey_writeLiteral hk (writeChars v ++ (writeMembers ms ++ rest))
    rcases ms with _ | ⟨⟨j, w⟩, ms⟩
    · have hclose : skipBlanks ('\x7d' :: rest) = '\x7d' :: rest := skipBlanks_cons (by decide) _
      simp only [writeMembers, List.cons_append, List.nil_append] at hread hkey
      simp [readMembers, writeMembers, hkey, hread, hclose]
    · have hrest : areTextualMembers ((j, w) :: ms) = true :=
        areTextualMembers_iff.2 fun m hm =>
          areTextualMembers_iff.1 hmembers m (List.mem_cons_of_mem _ hm)
      simp only [writeMembers, List.length_cons] at hfuel
      have htail := ih.members j w ms rest hrest (by omega)
      have hcomma : ∀ cs, skipBlanks (',' :: cs) = ',' :: cs := skipBlanks_cons (by decide)
      simp only [writeMembers, List.cons_append, List.append_assoc] at hread hkey
      simp [readMembers, writeMembers, hkey, hread, hcomma, htail]

theorem readsBack (fuel : Nat) : ReadsBack fuel := by
  induction fuel with
  | zero => exact readsBack_zero
  | succ fuel ih => exact ih.succ

/-! ## Whole texts -/

/-- **A textual value is read back from the text written for it.** -/
theorem scan?_write {v : Json} (h : v.isTextual = true) : scan? v.write = some v := by
  have hread := (readsBack (2 * (writeChars v).length + 1)).value v [] h (by omega)
  rw [List.append_nil] at hread
  simp [scan?, write, readFront, hread, skipBlanks]

/-! ## Texts of which every part matters -/

mutual

theorem isPlain_of_isTextual : (v : Json) → v.isTextual = true → v.isPlain = true
  | .null, _ => rfl
  | .bool _, _ => rfl
  | .number _, h => nomatch h
  | .string _, h => h
  | .array vs, h => arePlain_of_areTextual vs h
  | .object ms, h => arePlainMembers_of_areTextualMembers ms h

theorem arePlain_of_areTextual : (vs : List Json) → areTextual vs = true → arePlain vs = true
  | [], _ => rfl
  | v :: vs, h => by
    simp only [areTextual, Bool.and_eq_true] at h
    simp [arePlain, isPlain_of_isTextual v h.1, arePlain_of_areTextual vs h.2]

theorem arePlainMembers_of_areTextualMembers :
    (ms : List (Literal × Json)) → areTextualMembers ms = true → arePlainMembers ms = true
  | [], _ => rfl
  | (k, v) :: ms, h => by
    simp only [areTextualMembers, Bool.and_eq_true] at h
    simp [arePlainMembers, h.1.1, isPlain_of_isTextual v h.1.2,
      arePlainMembers_of_areTextualMembers ms h.2]

end

theorem depthOfItems_le {vs : List Json} {k : Nat} (h : ∀ v ∈ vs, v.depth ≤ k) :
    depthOfItems vs ≤ k := by
  induction vs with
  | nil => simp [depthOfItems]
  | cons v vs ih =>
    rw [List.forall_mem_cons] at h
    exact Nat.max_le.2 ⟨h.1, ih h.2⟩

/-- **A textual value that is not too deep is read back also where every part matters.** -/
theorem read?_write {v : Json} (h : v.isTextual = true) (hdepth : v.depth ≤ maxDepth) :
    read? v.write = some v := by
  simp [read?, scan?_write h, isPlain_of_isTextual v h, hdepth]

end Amity.Json
