/-
  Amity/Proofs/Wire.lean
  ======================
  **What is sent is what arrives.**  Commands go to the service and messages come back, both as JSON
  texts made of nothing but texts, arrays and objects, so the reader gives back the very value that
  was written.

  What is left to see is that the value says who wrote it.  A command is known by its verb, and an
  unknown verb stands for itself; only a command that gives a known verb as an unknown one is taken
  for another (`Command.told_from_text`).  A message says nowhere whether it is a snapshot or an
  event: it is tried as the one and then as the other, and neither has the fields of the other
  (`Message.survivesWire`).
-/
import Amity.Command
import Amity.Message
import Amity.Proofs.Records

namespace Amity

open Json

/-! ## Commands -/

namespace Command

/-- The verbs that stand for a command, in every spelling. -/
def knownVerbs : List String :=
  ["request_new_friend", "remove_friend", "cancel_friend_request", "accept_friend_request",
    "refuse_friend_request", "rename", "update_username", "delete_user", "in_game", "in game",
    "game_done", "game done"]

theorem ofVerb_of_not_mem {verb : String} (h : verb ∉ knownVerbs) (items : List Json) :
    ofVerb verb items = .ok (.other verb) := by
  simp only [knownVerbs, List.mem_cons, List.not_mem_nil, or_false, not_or] at h
  unfold ofVerb
  split <;> simp_all

theorem ofVerb_ne_other {verb : String} (h : verb ∈ knownVerbs) (items : List Json) (v : String) :
    ofVerb verb items ≠ .ok (.other v) := by
  simp only [knownVerbs, List.mem_cons, List.not_mem_nil, or_false] at h
  cases hargument : items.head?.bind text? <;>
    rcases h with rfl | rfl | rfl | rfl | rfl | rfl | rfl | rfl | rfl | rfl | rfl | rfl <;>
      simp [ofVerb, hargument]

/-- Only an unknown verb stands for itself. -/
theorem not_mem_of_ofVerb {verb v : String} {items : List Json}
    (h : ofVerb verb items = .ok (.other v)) : v ∉ knownVerbs := by
  by_cases hverb : verb ∈ knownVerbs
  · exact absurd h (ofVerb_ne_other hverb items v)
  · rw [ofVerb_of_not_mem hverb] at h
    cases h
    exact hverb

theorem not_mem_of_parse {text v : String} (h : parse text = .ok (.other v)) :
    v ∉ knownVerbs := by
  unfold parse at h
  split at h
  · next value _ =>
    unfold ofJson at h
    split at h
    · split at h
      · exact not_mem_of_ofVerb h
      · cases h
    · cases h
  · cases h

theorem read?_encode (c : Command) : read? c.encode = some c.toJson := by
  have htextual : c.toJson.isTextual = true := by
    have hitems : areTextual ((c.verb :: c.argument?.toList).map ofText) = true := by
      rw [areTextual_iff]
      intro v hv
      obtain ⟨s, -, rfl⟩ := List.mem_map.1 hv
      rfl
    exact hitems
  have hdepth : c.toJson.depth ≤ 1 := by
    refine Nat.succ_le_succ (depthOfItems_le fun v hv => ?_)
    obtain ⟨s, -, rfl⟩ := List.mem_map.1 hv
    exact Nat.le_refl 0
  exact read?_write htextual (Nat.le_trans hdepth (by decide))

/-- What is made of a command's own text is decided by its verb. -/
theorem parse_encode (c : Command) :
    parse c.encode = ofVerb c.verb (c.argument?.toList.map ofText) := by
  rw [parse, read?_encode]
  rfl

theorem parse_encode_iff (c : Command) :
    parse c.encode = .ok c ↔ ∀ v ∈ knownVerbs, c ≠ .other v := by
  rw [parse_encode]
  cases c with
  | other verb =>
    constructor
    · rintro h v hv ⟨⟩
      exact ofVerb_ne_other hv _ _ h
    · intro h
      exact ofVerb_of_not_mem (fun hverb => h verb hverb rfl) _
  | _ => exact ⟨fun _ _ _ => nofun, fun _ => rfl⟩

/-- How far a command can be told from its own text. -/
structure ToldFromText (c : Command) : Prop where
  /-- It is, unless it gives a known verb as an unknown one. -/
  back : parse c.encode = .ok c ↔ ¬ ∃ v ∈ knownVerbs, c = .other v
  /-- A command that was read from any text, however it was spelt there, is one of those. -/
  again : ∀ text, parse text = .ok c → parse c.encode = .ok c

/-- **A command is understood by its own text**, and so is each that was ever understood. -/
theorem told_from_text (c : Command) : c.ToldFromText where
  back := by
    rw [parse_encode_iff]
    simp only [not_exists, not_and, ne_eq]
  again text h := by
    rw [parse_encode_iff]
    rintro v hv rfl
    exact not_mem_of_parse h hv

/-- An older spelling with an escape in it, and items that nobody asked for. -/
example : (parse " [\"in\\u0020game\", \"r\", 7] ").toOption = some .enterGame := by
  decide +kernel

end Command

/-! ## Snapshots and events -/

/-- A value with the depth of a text or of a list of texts. -/
theorem Name.depth_listToJson (ns : List Name) : (Name.listToJson ns).depth ≤ 1 := by
  refine Nat.succ_le_succ (depthOfItems_le fun v hv => ?_)
  obtain ⟨n, -, rfl⟩ := List.mem_map.1 hv
  exact Nat.le_refl 0

namespace Snapshot

theorem isTextual_friendToJson (f : Name × Status) : (friendToJson f).isTextual = true := rfl

theorem friendOfJson?_friendToJson (f : Name × Status) :
    friendOfJson? (friendToJson f) = some f := by
  simp [friendOfJson?, friendToJson]

theorem mapM_friendOfJson? (fs : List (Name × Status)) :
    (fs.map friendToJson).mapM friendOfJson? = some fs := by
  induction fs with
  | nil => rfl
  | cons f fs ih => simp [friendOfJson?_friendToJson, ih]

theorem isTextual_toJson (s : Snapshot) : s.toJson.isTextual = true := by
  have hfriends : areTextual (s.friends.map friendToJson) = true := by
    rw [areTextual_iff]
    intro v hv
    obtain ⟨f, -, rfl⟩ := List.mem_map.1 hv
    exact isTextual_friendToJson f
  have hmembers : areTextualMembers [(.text "friends_list", .array (s.friends.map friendToJson)),
      (.text "friends_request_send", Name.listToJson s.sent),
      (.text "friends_request_received", Name.listToJson s.received)] = true := by
    simp [areTextualMembers, isTextual, hfriends, Name.isTextual_listToJson, Literal.text?]
  exact hmembers

/-- An object of lists, one of them of pairs. -/
theorem depth_toJson (s : Snapshot) : s.toJson.depth ≤ 3 := by
  have hfriends : depthOfItems (s.friends.map friendToJson) ≤ 1 := by
    refine depthOfItems_le fun v hv => ?_
    obtain ⟨f, -, rfl⟩ := List.mem_map.1 hv
    exact Nat.le_refl 1
  have hsent := Name.depth_listToJson s.sent
  have hreceived := Name.depth_listToJson s.received
  simp only [toJson, ofFields, List.map_cons, List.map_nil, depth, depthOfMembers]
  omega

theorem ofJson?_toJson (s : Snapshot) : ofJson? s.toJson = some s := by
  have hfields : s.toJson.fields? ["friends_list", "friends_request_send",
      "friends_request_received"] = some [some (.array (s.friends.map friendToJson)),
        some (Name.listToJson s.sent), some (Name.listToJson s.received)] := by
    simp [toJson, ofFields, fields?, field?, Literal.text?]
  simp only [ofJson?, hfields, items?, mapM_friendOfJson?, Name.listOfJson?_listToJson,
    Option.pure_def, Option.bind_eq_bind, Option.bind_some]

/-- No member of a snapshot gives the kind of an event. -/
theorem event_ofJson?_toJson (s : Snapshot) (numbered : Bool) :
    Event.ofJson? numbered s.toJson = none := by
  simp [Event.ofJson?, toJson, ofFields, Event.kindKey]

end Snapshot

namespace Event

theorem isTextual_toJson (e : Event) : e.toJson.isTextual = true := by
  cases e
  rfl

theorem depth_toJson (e : Event) : e.toJson.depth = 1 := by
  cases e
  rfl

theorem ofJson?_toJson (e : Event) (numbered : Bool) : ofJson? numbered e.toJson = some e := by
  obtain ⟨old, new⟩ := e
  simp [ofJson?, toJson, ofFields, kindKey, isRenamedKind, ofFields?, fields?, field?, ofText,
    Literal.text?]

/-- An event lacks the lists of a snapshot. -/
theorem snapshot_ofJson?_toJson (e : Event) : Snapshot.ofJson? e.toJson = none := by
  obtain ⟨old, new⟩ := e
  simp [Snapshot.ofJson?, toJson, ofFields, kindKey, fields?, field?, Literal.text?]

end Event

/-! ## Messages -/

namespace Message

theorem isTextual_toJson (m : Message) : m.toJson.isTextual = true := by
  cases m with
  | snapshot s => exact s.isTextual_toJson
  | event e => exact e.isTextual_toJson

theorem depth_toJson (m : Message) : m.toJson.depth ≤ 3 := by
  cases m with
  | snapshot s => exact s.depth_toJson
  | event e =>
    have hevent : (Message.event e).toJson.depth = 1 := e.depth_toJson
    omega

theorem scan?_encode (m : Message) : scan? m.encode = some m.toJson :=
  scan?_write m.isTextual_toJson

theorem read?_encode (m : Message) : read? m.encode = some m.toJson :=
  read?_write m.isTextual_toJson (Nat.le_trans m.depth_toJson (by decide))

theorem decode?_encode (m : Message) : decode? m.encode = some m := by
  rw [decode?, read?_encode]
  cases m with
  | snapshot s => simp [ofJson?, toJson, s.ofJson?_toJson]
  | event e => simp [ofJson?, toJson, e.snapshot_ofJson?_toJson, e.ofJson?_toJson]

/-- What becomes of a message that is sent. -/
structure SurvivesWire (m : Message) : Prop where
  back : decode? m.encode = some m
  /-- No other message has the same text. -/
  unlike : ∀ m' : Message, m'.encode = m.encode → m' = m
  /-- The text of a snapshot is read as one and as no event, whether or not a number may give the
      kind of an event. -/
  snapshot : ∀ s, m = .snapshot s → Snapshot.decode? m.encode = some s ∧
    ∀ numbered, (read? m.encode).bind (Event.ofJson? numbered) = none
  /-- The text of an event is read as one and as no snapshot. -/
  event : ∀ e, m = .event e → Event.decode? m.encode = some e ∧ Snapshot.decode? m.encode = none

/-- **A message is read as what it is.** -/
theorem survivesWire (m : Message) : m.SurvivesWire where
  back := m.decode?_encode
  unlike m' h := by
    have hback := m'.decode?_encode
    rw [h, m.decode?_encode] at hback
    exact (Option.some.inj hback).symm
  snapshot s hs := by
    subst hs
    constructor
    · rw [Snapshot.decode?, scan?_encode]
      exact s.ofJson?_toJson
    · intro numbered
      rw [read?_encode]
      exact s.event_ofJson?_toJson numbered
  event e he := by
    subst he
    constructor
    · rw [Event.decode?, read?_encode]
      exact e.ofJson?_toJson false
    · rw [Snapshot.decode?, scan?_encode]
      exact e.snapshot_ofJson?_toJson

end Message

end Amity
