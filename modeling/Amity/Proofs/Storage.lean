/-
  Amity/Proofs/Storage.lean
  =========================
  **What is stored can be read again.**  The records of ties and the accounts are stored as texts,
  in one way, and read from many.  `IsRecord` says of either which values are records of it, and
  the reader takes those and no others; whatever the form was, the value survives being written and
  read again (`SurvivesStorage`).

  So a database that was only ever changed by the calls holds no text that cannot be read
  (`Database.KeepsRecords`).  That no call on it fails for such a text needs no more than that there
  is none (`Database.Legible.avoids_respond`).
-/
import Amity.Proofs.Database.Transactions
import Amity.Proofs.Json.Forms
import Amity.Proofs.System.Inputs

namespace Amity

open Json

/-! ## Names and aliases -/

theorem Json.text?_eq_some_iff {v : Json} {s : String} : v.text? = some s ↔ v = ofText s := by
  cases v with
  | string l => cases l <;> simp [text?, Literal.text?, ofText]
  | _ => simp [text?, ofText]

theorem Json.mapM_eq_some_iff {α : Type} {read? : Json → Option α} {write : α → Json}
    (h : ∀ v a, read? v = some a ↔ v = write a) {vs : List Json} {as : List α} :
    vs.mapM read? = some as ↔ vs = as.map write := by
  induction vs generalizing as with
  | nil => cases as <;> simp
  | cons v vs ih =>
    simp only [List.mapM_cons, Option.pure_def, Option.bind_eq_bind, Option.bind_eq_some_iff,
      Option.some.injEq, h, ih]
    cases as with
    | nil => simp
    | cons a as =>
      simp only [List.map_cons, List.cons.injEq]
      constructor
      · rintro ⟨_, hv, _, hvs, rfl, rfl⟩
        exact ⟨hv, hvs⟩
      · rintro ⟨hv, hvs⟩
        exact ⟨a, hv, as, hvs, rfl, rfl⟩

namespace Name

theorem ofJson?_eq_some_iff (v : Json) (n : Name) : ofJson? v = some n ↔ v = n.toJson := by
  constructor
  · intro h
    obtain ⟨s, hs, hn⟩ := Option.bind_eq_some_iff.1 h
    rw [Json.text?_eq_some_iff.1 hs, ← text_of_parse? hn]
    rfl
  · rintro rfl
    exact ofJson?_toJson n

theorem listOfJson?_eq_some_iff {v : Json} {ns : List Name} :
    listOfJson? v = some ns ↔ v = listToJson ns := by
  constructor
  · intro h
    obtain ⟨items, hitems, hns⟩ := Option.bind_eq_some_iff.1 h
    rw [Json.mapM_eq_some_iff ofJson?_eq_some_iff] at hns
    cases v with
    | array vs =>
      cases hitems
      rw [hns]
      rfl
    | _ => cases hitems
  · rintro rfl
    exact listOfJson?_listToJson ns

end Name

theorem Profile.aliasOfJson?_eq_some_iff {v : Json} {a : Option String} :
    aliasOfJson? v = some a ↔ v = aliasToJson a := by
  cases v with
  | null => cases a <;> simp [aliasOfJson?, aliasToJson, ofText]
  | _ => cases a <;> simp [aliasOfJson?, aliasToJson, Json.text?_eq_some_iff]

/-! ## Records -/

/-- The value is a record of the ties. -/
def Ties.IsRecord (t : Ties) (v : Json) : Prop :=
  v.Presents [("friends", some (Name.listToJson t.friends)),
    ("sent", some (Name.listToJson t.sent)), ("received", some (Name.listToJson t.received))]

/-- The value is a record of the account; where there is no alias, there need not be a field. -/
def Profile.IsRecord (p : Profile) (v : Json) : Prop :=
  v.Presents [("username", some p.name.toJson),
      ("tournament_alias", some (aliasToJson p.aliasName))] ∨
    p.aliasName = none ∧ v.Presents [("username", some p.name.toJson), ("tournament_alias", none)]

theorem Ties.ofJson?_eq_some_iff {v : Json} {t : Ties} : ofJson? v = some t ↔ t.IsRecord v := by
  unfold IsRecord
  rw [← fields?_eq_some_iff (by simp)]
  constructor
  · intro h
    unfold ofJson? at h
    split at h
    · next friends sent received hfields =>
      simp only [Option.pure_def, Option.bind_eq_bind, Option.bind_eq_some_iff,
        Option.some.injEq, Name.listOfJson?_eq_some_iff] at h
      obtain ⟨_, rfl, _, rfl, _, rfl, rfl⟩ := h
      exact hfields
    · cases h
  · intro h
    have hfields : v.fields? ["friends", "sent", "received"] =
        some [some (Name.listToJson t.friends), some (Name.listToJson t.sent),
          some (Name.listToJson t.received)] := h
    simp [ofJson?, hfields]

theorem Profile.ofJson?_eq_some_iff {v : Json} {p : Profile} :
    ofJson? v = some p ↔ p.IsRecord v := by
  unfold IsRecord
  rw [← fields?_eq_some_iff (by simp), ← fields?_eq_some_iff (by simp)]
  constructor
  · intro h
    unfold ofJson? at h
    split at h
    · next name aliasName hfields =>
      simp only [Option.pure_def, Option.bind_eq_bind, Option.bind_eq_some_iff,
        Option.some.injEq, Name.ofJson?_eq_some_iff, aliasOfJson?_eq_some_iff] at h
      obtain ⟨_, rfl, _, rfl, rfl⟩ := h
      exact Or.inl hfields
    · next name hfields =>
      simp only [Option.pure_def, Option.bind_eq_bind, Option.bind_eq_some_iff,
        Option.some.injEq, Name.ofJson?_eq_some_iff] at h
      obtain ⟨_, rfl, rfl⟩ := h
      exact Or.inr ⟨rfl, hfields⟩
    · cases h
  · intro h
    obtain ⟨name, aliasName⟩ := p
    rcases h with h | ⟨rfl, h⟩
    · have hfields : v.fields? ["username", "tournament_alias"] =
          some [some name.toJson, some (aliasToJson aliasName)] := h
      simp [ofJson?, hfields, aliasOfJson?_eq_some_iff.2 rfl]
    · have hfields : v.fields? ["username", "tournament_alias"] =
          some [some name.toJson, none] := h
      simp [ofJson?, hfields]

/-- How values keep when they are stored as texts. -/
structure SurvivesStorage {α : Type} (encode : α → String) (decode? : String → Option α)
    (IsRecord : α → Json → Prop) : Prop where
  back : ∀ a, decode? (encode a) = some a
  /-- A text is read as the value that it is a record of, in whatever form. -/
  reads : ∀ text a, decode? text = some a ↔ ∃ v, scan? text = some v ∧ IsRecord a v
  /-- What was read from any text can be written and read again. -/
  again : ∀ text a, decode? text = some a → decode? (encode a) = some a

theorem Ties.survivesStorage : SurvivesStorage Ties.encode Ties.decode? Ties.IsRecord where
  back := Ties.decode?_encode
  reads text t := by simp only [decode?, Option.bind_eq_some_iff, ofJson?_eq_some_iff]
  again _ t _ := t.decode?_encode

theorem Profile.survivesStorage :
    SurvivesStorage Profile.encode Profile.decode? Profile.IsRecord where
  back := Profile.decode?_encode
  reads text p := by simp only [decode?, Option.bind_eq_some_iff, ofJson?_eq_some_iff]
  again _ p _ := p.decode?_encode

/-- An account without an alias, of which nothing else is looked at. -/
example : Profile.decode? "\x7b \"rank\": [1e999, null], \"username\": \"\\u0071\" \x7d" =
    some (.fresh ⟨"q", Name.isValid_q⟩) := by
  decide +kernel

/-! ## Calls where every record can be read -/

/-- The outcome is not this error. -/
def Avoids {ε α : Type} (err : ε) (r : Except ε α) : Prop := r ≠ .error err

section

variable {ε δ α β : Type} {err : ε}

@[simp] theorem avoids_ok (a : α) : Avoids err (.ok a) := nofun

@[simp] theorem avoids_pure (a : α) : Avoids err (pure a) := nofun

@[simp] theorem avoids_error {err' : ε} : Avoids err (.error err' : Except ε α) ↔ err' ≠ err := by
  simp [Avoids]

@[simp] theorem avoids_map {f : α → β} {r : Except ε α} : Avoids err (r.map f) ↔ Avoids err r := by
  cases r <;> simp [Except.map]

@[simp] theorem avoids_functor_map {f : α → β} {r : Except ε α} :
    Avoids err (f <$> r) ↔ Avoids err r :=
  avoids_map

@[simp] theorem avoids_bind {r : Except ε α} {k : α → Except ε β} :
    Avoids err (r >>= k) ↔ Avoids err r ∧ ∀ a, r = .ok a → Avoids err (k a) := by
  cases r <;> simp [bind, Except.bind]

@[simp] theorem avoids_ite {p : Prop} [Decidable p] {r r' : Except ε α} :
    Avoids err (if p then r else r') ↔ (p → Avoids err r) ∧ (¬ p → Avoids err r') := by
  split <;> simp [*]

theorem avoids_mapError {f : δ → ε} {r : Except δ α} (h : ∀ e, r = .error e → f e ≠ err) :
    Avoids err (r.mapError f) := by
  cases r with
  | error e => simpa [Except.mapError] using h e rfl
  | ok a => simp [Except.mapError]

end

namespace Graph

section

variable {g : Graph} (h : ∀ n, ¬ g.Unreadable n)
include h

theorem avoids_load (n : Name) : Avoids .corrupt (g.load n) := by
  rcases g.load_cases n with ⟨hn, -⟩ | ⟨-, heq⟩
  · exact absurd hn (h n)
  · simp [heq]

theorem avoids_editAll (f : Ties → Ties) (ps : List Name) : Avoids .corrupt (editAll f ps g) := by
  intro hedit
  obtain ⟨p, -, hp⟩ := (fails_editAll f ps g).1 ⟨_, hedit⟩
  exact h p hp

theorem avoids_attempt (c : Change) : Avoids .corrupt (g.attempt c) := by
  have hload := avoids_load h
  have hedit := avoids_editAll h
  cases c <;>
    simp [attempt, addFriendship, removeFriendship, createRequest, deleteRequest, acceptRequest,
      Graph.rename, Graph.purge, hload, hedit]

end

end Graph

namespace Directory

section

variable {d : Directory} (h : ∀ n, ¬ d.Unreadable n)
include h

theorem avoids_find? (n : Name) : Avoids .corrupt (d.find? n) := by
  rcases d.find?_cases n with ⟨heq, -⟩ | ⟨-, -, hn⟩ | ⟨p, heq, -⟩
  · simp [heq]
  · exact absurd hn (h n)
  · simp [heq]

theorem avoids_load (n : Name) : Avoids .corrupt (d.load n) := by
  simp only [load, avoids_bind, avoids_find? h, true_and]
  intro p _
  cases p <;> simp

theorem avoids_setAlias (n : Name) (choice : Option String) :
    Avoids .corrupt (d.setAlias n choice) := by
  have hwanted : Avoids .corrupt (wantedAlias choice) := by
    cases choice <;> simp [wantedAlias]
  have hclaim : ∀ wanted, Avoids .corrupt (d.claimFree n wanted) := by
    intro wanted
    cases wanted <;> simp [claimFree]
  simp [setAlias, hwanted, hclaim, avoids_load h]

theorem avoids_rename (old new : Name) : Avoids .corrupt (d.rename old new) := by
  simp [Directory.rename, avoids_load h]

theorem avoids_delete (n : Name) : Avoids .corrupt (d.delete n) := by
  simp only [delete, avoids_bind, avoids_find? h, true_and]
  intro p _
  cases p <;> simp

end

end Directory

namespace Database

/-- Every stored record can be read. -/
structure Legible (db : Database) : Prop where
  ties : ∀ n, ¬ db.graph.Unreadable n
  accounts : ∀ n, ¬ db.directory.Unreadable n

/-- The errors that say that a record cannot be read. -/
def unreadableErrors : List StoreError := [.graph .corrupt, .directory .corrupt]

section

variable {α : Type} {err : StoreError} (herr : err ∈ unreadableErrors)
include herr

theorem avoids_onGraph {r : Except GraphError α} (h : Avoids .corrupt r) :
    Avoids err (onGraph r) := by
  refine avoids_mapError fun e he => ?_
  rintro rfl
  obtain rfl : e = .corrupt := by simpa [unreadableErrors] using herr
  exact h he

theorem avoids_onDirectory {r : Except DirectoryError α} (h : Avoids .corrupt r) :
    Avoids err (onDirectory r) := by
  refine avoids_mapError fun e he => ?_
  rintro rfl
  obtain rfl : e = .corrupt := by simpa [unreadableErrors] using herr
  exact h he

variable {db : Database} (h : db.Legible)
include h

theorem Legible.avoids_attempt (c : Change) : Avoids err (db.attempt c) := by
  cases c with
  | graph c => simpa [attempt] using avoids_onGraph herr (Graph.avoids_attempt h.ties c)
  | create n =>
    have hcreate : Avoids .corrupt (db.directory.create n) := by simp [Directory.create]
    simpa [attempt] using avoids_onDirectory herr hcreate
  | setAlias n choice =>
    simpa [attempt] using avoids_onDirectory herr (Directory.avoids_setAlias h.accounts n choice)
  | rename old new =>
    have hgraph : Avoids .corrupt (db.graph.rename old new) :=
      avoids_map.1 (Graph.avoids_attempt h.ties (.rename old new))
    have hdirectory := Directory.avoids_rename h.accounts old new
    simp [attempt, Database.rename, avoids_onGraph herr hgraph, avoids_onDirectory herr hdirectory]
  | delete n =>
    have hgraph : Avoids .corrupt (db.graph.purge n) :=
      avoids_map.1 (Graph.avoids_attempt h.ties (.purge n))
    have hdirectory := Directory.avoids_delete h.accounts n
    simp only [attempt, Database.delete, avoids_map, avoids_bind,
      avoids_onDirectory herr hdirectory, true_and]
    intro d _
    cases d <;> simp [avoids_onGraph herr hgraph]
  | request a b =>
    have hgraph : Avoids .corrupt (db.graph.createRequest a b) :=
      avoids_map.1 (Graph.avoids_attempt h.ties (.request a b))
    simp [attempt, Database.request, avoids_onGraph herr hgraph]

theorem Legible.avoids_consult (q : Question) : Avoids err (db.consult q) := by
  have hload := Graph.avoids_load h.ties
  have hfind := Directory.avoids_find? h.accounts
  cases q with
  | ties n => simpa [consult] using avoids_onGraph herr (hload n)
  | account n => simpa [consult] using avoids_onDirectory herr (hfind n)
  | friends a b =>
    have hfriends : Avoids .corrupt (db.graph.areFriends a b) := by simp [Graph.areFriends, hload]
    simpa [consult] using avoids_onGraph herr hfriends
  | friendsOf n =>
    have hfriends : Avoids .corrupt (db.graph.friendsOf n) := by simp [Graph.friendsOf, hload]
    simpa [consult] using avoids_onGraph herr hfriends
  | sentBy n =>
    have hsent : Avoids .corrupt (db.graph.pendingSent n) := by simp [Graph.pendingSent, hload]
    simpa [consult] using avoids_onGraph herr hsent
  | receivedBy n =>
    have hreceived : Avoids .corrupt (db.graph.pendingReceived n) := by
      simp [Graph.pendingReceived, hload]
    simpa [consult] using avoids_onGraph herr hreceived
  | requested a b =>
    have hrequested : Avoids .corrupt (db.graph.requestExists a b) := by
      simp [Graph.requestExists, hload]
    simpa [consult] using avoids_onGraph herr hrequested
  | _ => simp [consult]

/-- **No call fails for a record that cannot be read**, where there is none. -/
theorem Legible.avoids_respond (call : Call) : Avoids err (db.respond call) := by
  cases call with
  | ask q => simpa [respond] using h.avoids_consult herr q
  | change c =>
    rw [← avoids_map (f := Prod.snd), map_snd_respond]
    exact h.avoids_attempt herr c

end

/-- Whatever is stored can be read. -/
structure KeepsRecords (db : Database) : Prop where
  ties : ∀ key text, db.graph.records.find? key = some text → ∃ t, Ties.decode? text = some t
  accounts : ∀ key text, db.directory.profiles.find? key = some text →
    ∃ p, Profile.decode? text = some p
  loadsTies : ∀ n, ∃ t, db.graph.load n = .ok t
  findsAccounts : ∀ n, ∃ p, db.directory.find? n = .ok p
  loadsAccounts : ∀ n, db.directory.load n ≠ .error .corrupt
  /-- No call fails for a record that it met, at whatever step of its transaction. -/
  answers : ∀ call, ∀ err ∈ unreadableErrors,
    db.respond call ≠ .error err ∧ (call.body.commit db).1 ≠ .error err

theorem keepsRecords {db : Database} (hgraph : db.graph.WellFormed)
    (hdirectory : db.directory.WellFormed) : db.KeepsRecords := by
  have hties : ∀ key text, db.graph.records.find? key = some text →
      ∃ t, Ties.decode? text = some t := by
    intro key text hfind
    obtain ⟨_, t, -, rfl, -⟩ := hgraph.canonical key text hfind
    exact ⟨t, t.decode?_encode⟩
  have haccounts : ∀ key text, db.directory.profiles.find? key = some text →
      ∃ p, Profile.decode? text = some p := by
    intro key text hfind
    obtain ⟨p, -, rfl⟩ := hdirectory.canonical key text hfind
    exact ⟨p, p.decode?_encode⟩
  have hlegible : db.Legible := by
    constructor
    · rintro n ⟨text, hfind, hnone⟩
      obtain ⟨t, ht⟩ := hties _ _ hfind
      cases hnone.symm.trans ht
    · rintro n ⟨text, hfind, hnone⟩
      obtain ⟨p, hp⟩ := haccounts _ _ hfind
      cases hnone.symm.trans hp
  refine ⟨hties, haccounts, ?_, ?_, ?_, ?_⟩
  · exact fun n => ⟨_, Graph.load_eq_ties hgraph.canonical n⟩
  · exact fun n => ⟨_, hdirectory.canonical.find?_eq n⟩
  · exact Directory.avoids_load hlegible.accounts
  · intro call err herr
    have hrespond := hlegible.avoids_respond herr call
    refine ⟨hrespond, fun hcommit => ?_⟩
    rw [Body.commit_eq, outcome_body] at hcommit
    cases houtcome : db.respond call with
    | ok r => simp [houtcome, Body.settle] at hcommit
    | error e =>
      simp only [houtcome, Body.settle, Except.error.injEq] at hcommit
      exact hrespond (hcommit ▸ houtcome)

theorem keepsRecords_after (cs : List Change) : (Database.empty.after cs).KeepsRecords :=
  keepsRecords (graph_wellFormed_after Graph.wellFormed_empty cs)
    (directory_wellFormed_after Directory.wellFormed_empty cs)

end Database

/-- Whatever comes from outside, the database has gone on by some calls. -/
theorem System.exists_database_run (sys : System) (is : List Input) :
    ∃ cs, (sys.run is).engine.database = sys.engine.database.after cs := by
  induction is generalizing sys with
  | nil => exact ⟨[], rfl⟩
  | cons i is ih =>
    obtain ⟨cs, hcs⟩ := ih (sys.take i)
    have hnext := sys.next_take i
    have hrun : sys.run (i :: is) = (sys.take i).run is := rfl
    rw [hrun, hcs]
    generalize (sys.take i).engine.database = db at hnext
    cases hnext with
    | same => exact ⟨cs, rfl⟩
    | @change c _ => exact ⟨c :: cs, rfl⟩

/-- **Records survive storage.**  Ties and accounts are read back from every text that they are
    written as, so that nothing is ever stored that cannot be read: neither in a database that calls
    have led to, nor in that of a service that was started with it and took any inputs. -/
theorem records_survive_storage :
    SurvivesStorage Ties.encode Ties.decode? Ties.IsRecord ∧
      SurvivesStorage Profile.encode Profile.decode? Profile.IsRecord ∧
      ∀ cs : List Database.Change, (Database.empty.after cs).KeepsRecords ∧
        ∀ capacity is, Database.KeepsRecords
          ((System.start (Database.empty.after cs) capacity).run is).engine.database := by
  refine ⟨Ties.survivesStorage, Profile.survivesStorage, fun cs => ⟨?_, fun capacity is => ?_⟩⟩
  · exact Database.keepsRecords_after cs
  · obtain ⟨later, hlater⟩ :=
      (System.start (Database.empty.after cs) capacity).exists_database_run is
    have happend : (Database.empty.after cs).after later = Database.empty.after (cs ++ later) :=
      List.foldl_append.symm
    rw [hlater]
    exact happend ▸ Database.keepsRecords_after (cs ++ later)

end Amity
