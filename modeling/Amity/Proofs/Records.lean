/-
  Amity/Proofs/Records.lean
  =========================
  **Stored records are read back.**  A record is an object whose fields are texts and lists of
  texts, so it is textual, and the reader of records finds each field under its name.
-/
import Amity.Profile
import Amity.Ties
import Amity.Proofs.Json.RoundTrip

namespace Amity

open Json

theorem Name.isTextual_toJson (n : Name) : n.toJson.isTextual = true := rfl

theorem Name.isTextual_listToJson (ns : List Name) : (Name.listToJson ns).isTextual = true := by
  have hitems : areTextual (ns.map Name.toJson) = true := by
    rw [areTextual_iff]
    intro v hv
    obtain ⟨n, _, rfl⟩ := List.mem_map.1 hv
    exact n.isTextual_toJson
  exact hitems

@[simp] theorem Name.listOfJson?_listToJson (ns : List Name) :
    Name.listOfJson? (Name.listToJson ns) = some ns := by
  have hitems : (ns.map Name.toJson).mapM Name.ofJson? = some ns := by
    induction ns with
    | nil => rfl
    | cons n ns ih => simp [ih]
  exact hitems

theorem Ties.isTextual_toJson (t : Ties) : t.toJson.isTextual = true := by
  have hmembers : areTextualMembers [(.text "friends", Name.listToJson t.friends),
      (.text "sent", Name.listToJson t.sent),
      (.text "received", Name.listToJson t.received)] = true := by
    simp [areTextualMembers, Name.isTextual_listToJson, Literal.text?]
  exact hmembers

theorem Ties.ofJson?_toJson (t : Ties) : Ties.ofJson? t.toJson = some t := by
  have hfields : t.toJson.fields? ["friends", "sent", "received"] =
      some [some (Name.listToJson t.friends), some (Name.listToJson t.sent),
        some (Name.listToJson t.received)] := by
    simp [Ties.toJson, ofFields, fields?, field?, Literal.text?]
  simp [Ties.ofJson?, hfields]

/-- **Ties are read back from their record.** -/
@[simp] theorem Ties.decode?_encode (t : Ties) : Ties.decode? t.encode = some t := by
  simp [Ties.decode?, Ties.encode, scan?_write t.isTextual_toJson, Ties.ofJson?_toJson]

theorem Profile.isTextual_toJson (p : Profile) : p.toJson.isTextual = true := by
  have halias : (aliasToJson p.aliasName).isTextual = true := by
    cases p.aliasName <;> rfl
  have hmembers : areTextualMembers [(.text "username", p.name.toJson),
      (.text "tournament_alias", aliasToJson p.aliasName)] = true := by
    simp [areTextualMembers, Name.isTextual_toJson, halias, Literal.text?]
  exact hmembers

theorem Profile.ofJson?_toJson (p : Profile) : Profile.ofJson? p.toJson = some p := by
  obtain ⟨name, aliasName⟩ := p
  have hfields : (Profile.toJson ⟨name, aliasName⟩).fields? ["username", "tournament_alias"] =
      some [some name.toJson, some (aliasToJson aliasName)] := by
    simp [Profile.toJson, ofFields, fields?, field?, Literal.text?]
  have halias : aliasOfJson? (aliasToJson aliasName) = some aliasName := by
    cases aliasName <;> rfl
  simp [Profile.ofJson?, hfields, halias]

/-- **An account is read back from its record.** -/
@[simp] theorem Profile.decode?_encode (p : Profile) : Profile.decode? p.encode = some p := by
  simp [Profile.decode?, Profile.encode, scan?_write p.isTextual_toJson, Profile.ofJson?_toJson]

end Amity
