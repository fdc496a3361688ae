/-
  Amity/Proofs/Database/Players.lean
  ==================================
  **Only players have ties.**  The graph and the directory are changed by different operations, and
  most changes of the graph do not ask whether there are accounts.  What keeps the two together is
  who may make which change: a request is made between players only, and the other changes of ties
  concern players who are tied already (`Change.isGuarded`).  A renaming and a removal change both
  stores at once.

  Hence a name without an account has no ties and nobody mentions it, and a renaming to such a name
  succeeds.
-/
import Amity.Proofs.Database.Accounts
import Amity.Proofs.Graph.Simulation

namespace Amity.Database

/-- Graph and directory are well-formed, and who has ties has an account. -/
structure WellFormed (db : Database) : Prop where
  graph : db.graph.WellFormed
  directory : db.directory.WellFormed
  players : ∀ n, db.graph.knows n = true → db.hasPlayer n = true

theorem wellFormed_empty : Database.empty.WellFormed where
  graph := Graph.wellFormed_empty
  directory := Directory.wellFormed_empty
  players _ hn := by cases hn

/-- The changes that make no ties but between players. -/
def Change.isGuarded : Change → Bool
  | .graph (.unfriend _ _) => true
  | .graph (.withdraw _ _) => true
  | .graph (.accept _ _) => true
  | .graph _ => false
  | _ => true

section

variable {db db' : Database} (h : db.WellFormed)
include h

/-! ## Names without an account -/

omit h in
theorem ne_of_hasPlayer {m n : Name} (hm : db.hasPlayer m = true) (hn : db.hasPlayer n = false) :
    m ≠ n := by
  rintro rfl
  rw [hm] at hn
  cases hn

theorem WellFormed.knows_eq_false {n : Name} (hn : db.hasPlayer n = false) :
    db.graph.knows n = false := by
  cases hknows : db.graph.knows n with
  | false => rfl
  | true =>
    have hplayer := h.players n hknows
    rw [hn] at hplayer
    cases hplayer

theorem WellFormed.ties_eq_empty {n : Name} (hn : db.hasPlayer n = false) :
    db.graph.ties n = .empty :=
  Ties.isEmpty_iff.1 ((h.graph.knows_eq_false_iff n).1 (h.knows_eq_false hn))

theorem WellFormed.hasPlayer_of_ties {n : Name} (hn : db.graph.ties n ≠ .empty) :
    db.hasPlayer n = true := by
  cases hplayer : db.hasPlayer n with
  | true => rfl
  | false => exact absurd (h.ties_eq_empty hplayer) hn

/-- Whoever is mentioned in ties is a player. -/
theorem WellFormed.hasPlayer_of_mem_peers {n m : Name} (hm : m ∈ (db.graph.ties n).peers) :
    db.hasPlayer m = true := by
  apply h.players
  rw [← h.graph.mentions_iff]
  rcases h.graph.mem_peers.1 hm with he | hr | hr
  · exact Or.inl ⟨_, he, Sym2.mem_mk_right n m⟩
  · exact Or.inr ⟨_, hr, Or.inr rfl⟩
  · exact Or.inr ⟨_, hr, Or.inl rfl⟩

theorem WellFormed.not_mem_peers {n : Name} (hn : db.hasPlayer n = false) (m : Name) :
    n ∉ (db.graph.ties m).peers :=
  fun hmem => ne_of_hasPlayer (h.hasPlayer_of_mem_peers hmem) hn rfl

/-- A renaming is never stopped by ties under the new name. -/
theorem WellFormed.rename_ne_nameInUse (old new k : Name) :
    db.rename old new ≠ .error (.graph (.nameInUse k)) := by
  unfold Database.rename
  cases hdirectory : db.directory.rename old new with
  | error e => simp [bind, Except.bind]
  | ok d =>
    have hnew : db.hasPlayer new = false := (Directory.rename_eq_ok hdirectory).2.1
    by_cases hne : old = new
    · subst hne
      rw [Graph.rename_eq_self h.graph.canonical]
      simp [bind, Except.bind, pure, Except.pure]
    · obtain ⟨g', hrename, -, -⟩ := h.graph.rename_eq_ok hne (h.knows_eq_false hnew)
      rw [hrename]
      simp [bind, Except.bind, pure, Except.pure]

/-- A player can take any name that no player has. -/
theorem WellFormed.rename_eq_ok {old new : Name} {p : Profile}
    (hold : db.directory.profile? old = some p) (hnew : db.hasPlayer new = false) :
    ∃ g', db.rename old new = .ok (db.graph.ties old, ⟨g', db.directory.moved p new⟩) ∧
      g'.ties = renameTies db.graph.ties old new ∧ g'.IsCanonical := by
  have hdirectory : db.directory.rename old new = .ok (db.directory.moved p new) := by
    have hnew : db.directory.has new = false := hnew
    rw [h.directory.rename_eq, hold]
    simp [hnew]
  have hne : old ≠ new := ne_of_hasPlayer (h.directory.canonical.has_iff.2 ⟨p, hold⟩) hnew
  obtain ⟨g', hrename, hg', hties⟩ := h.graph.rename_eq_ok hne (h.knows_eq_false hnew)
  exact ⟨g', rename_eq_ok_iff.2 ⟨hdirectory, hrename⟩, hties, hg'.canonical⟩

/-- What a renaming that succeeds has found and left. -/
theorem WellFormed.of_rename {old new : Name} {t : Ties}
    (hrename : db.rename old new = .ok (t, db')) :
    ∃ p, db.directory.profile? old = some p ∧ db.hasPlayer new = false ∧ old ≠ new ∧
      t = db.graph.ties old ∧ db'.directory = db.directory.moved p new ∧
      db'.graph.ties = renameTies db.graph.ties old new ∧ db'.graph.IsCanonical := by
  obtain ⟨hold, hnew, -⟩ := Directory.rename_eq_ok (rename_eq_ok_iff.1 hrename).1
  obtain ⟨p, hp⟩ := h.directory.canonical.has_iff.1 hold
  obtain ⟨g', heq, hties, hg'⟩ := h.rename_eq_ok hp hnew
  cases hrename.symm.trans heq
  exact ⟨p, hp, hnew, ne_of_hasPlayer hold hnew, rfl, rfl, hties, hg'⟩

/-! ## Guarded changes -/

/-- A change of the ties of two players. -/
theorem WellFormed.withPair {g' : Graph} {a b : Name} (hgraph : g'.WellFormed)
    (hchanges : Graph.ChangesOnly (fun n => n = a ∨ n = b) db.graph g')
    (ha : db.hasPlayer a = true) (hb : db.hasPlayer b = true) :
    ({ db with graph := g' } : Database).WellFormed where
  graph := hgraph
  directory := h.directory
  players n hn := by
    show db.hasPlayer n = true
    by_cases hpair : n = a ∨ n = b
    · rcases hpair with rfl | rfl
      · exact ha
      · exact hb
    · apply h.players
      rw [Graph.knows_iff hgraph.canonical, hchanges.others n hpair] at hn
      rwa [Graph.knows_iff h.graph.canonical]

/-- An operation that tells whether it did something, and does so only to players. -/
theorem WellFormed.withOutcome {r : Except GraphError (Bool × Graph)} {condition : Prop}
    {friendships : Set (Sym2 Name)} {requests : Set (Name × Name)} {a b : Name}
    (hmakes : db.graph.MakesWhen r condition friendships requests fun n => n = a ∨ n = b)
    (hgraph : (outcomeOr db.graph (r.map Prod.snd)).WellFormed)
    (hplayers : condition → db.hasPlayer a = true ∧ db.hasPlayer b = true) :
    ({ db with graph := outcomeOr db.graph (r.map Prod.snd) } : Database).WellFormed := by
  obtain ⟨made, g', rfl, hcondition, hnothing, hbecomes⟩ := hmakes
  cases made with
  | false =>
    obtain rfl := hnothing rfl
    exact h
  | true =>
    obtain ⟨ha, hb⟩ := hplayers (hcondition.1 rfl)
    exact h.withPair hgraph (hbecomes rfl).changes ha hb

theorem WellFormed.hasPlayer_of_mem_friendships {a b : Name}
    (he : s(a, b) ∈ db.graph.friendships) : db.hasPlayer a = true ∧ db.hasPlayer b = true :=
  ⟨h.hasPlayer_of_mem_peers (h.graph.mem_peers.2 (Or.inl (Sym2.eq_swap ▸ he))),
    h.hasPlayer_of_mem_peers (h.graph.mem_peers.2 (Or.inl he))⟩

theorem WellFormed.hasPlayer_of_mem_requests {a b : Name}
    (hr : (a, b) ∈ db.graph.requests) : db.hasPlayer a = true ∧ db.hasPlayer b = true :=
  ⟨h.hasPlayer_of_mem_peers (h.graph.mem_peers.2 (Or.inr (Or.inr hr))),
    h.hasPlayer_of_mem_peers (h.graph.mem_peers.2 (Or.inr (Or.inl hr)))⟩

theorem WellFormed.created {n : Name} {p : Profile} {d : Directory}
    (hcreate : db.directory.create n = .ok (p, d)) : (db.withDirectory d).WellFormed where
  graph := h.graph
  directory := h.directory.create hcreate
  players m hm := ((Directory.create_eq_ok hcreate).2 m).2 (Or.inr (h.players m hm))

theorem WellFormed.aliasSet {n : Name} {choice : Option String} {p : Profile} {d : Directory}
    (hset : db.directory.setAlias n choice = .ok (p, d)) : (db.withDirectory d).WellFormed where
  graph := h.graph
  directory := h.directory.aliasSet hset
  players m hm := Directory.setAlias_eq_ok hset (h.players m hm)

theorem WellFormed.renamed {old new : Name} {t : Ties}
    (hrename : db.rename old new = .ok (t, db')) : db'.WellFormed := by
  obtain ⟨p, -, hnew, hne, -, -, hties, -⟩ := h.of_rename hrename
  obtain ⟨hdirectory, hgraph⟩ := rename_eq_ok_iff.1 hrename
  obtain ⟨-, -, hhas⟩ := Directory.rename_eq_ok hdirectory
  have hg' : db'.graph.WellFormed := h.graph.renamed hgraph
  refine ⟨hg', h.directory.renamed hdirectory, fun n hn => ?_⟩
  rw [Graph.knows_iff hg'.canonical, hties] at hn
  show db'.directory.has n = true
  rw [hhas]
  unfold renameTies at hn
  split at hn
  · next hn' => exact Or.inl hn'
  split at hn
  · cases hn
  · next hother =>
    refine Or.inr ⟨hother, h.hasPlayer_of_ties fun hempty => ?_⟩
    rw [hempty] at hn
    cases hn

theorem WellFormed.deleted {n : Name} {t : Ties}
    (hdelete : db.delete n = .ok (some (t, db'))) : db'.WellFormed := by
  obtain ⟨hdirectory, hgraph⟩ := delete_eq_ok_some_iff.1 hdelete
  obtain ⟨-, hhas⟩ := Directory.delete_eq_ok hdirectory
  obtain ⟨g', hpurge, hg', hties⟩ := h.graph.purge_eq_ok n
  cases hgraph.symm.trans hpurge
  refine ⟨hg', h.directory.deleted hdirectory, fun m hm => ?_⟩
  rw [Graph.knows_iff hg'.canonical, hties] at hm
  show db'.directory.has m = true
  rw [hhas]
  unfold purgeTies at hm
  split at hm
  · cases hm
  · next hother =>
    refine ⟨hother, h.hasPlayer_of_ties fun hempty => ?_⟩
    rw [hempty] at hm
    cases hm

theorem WellFormed.requested {a b : Name} {made : Bool}
    (hrequest : db.request a b = .ok (made, db')) : db'.WellFormed := by
  rcases request_eq_ok hrequest with ⟨ha, hb, hdirectory, hmade⟩ | ⟨-, rfl⟩
  · obtain ⟨graph, directory⟩ := db'
    obtain rfl : directory = db.directory := hdirectory
    have hgraph : graph.WellFormed := h.graph.createRequest hmade
    obtain ⟨_, _, heq, -, hnothing, hbecomes⟩ := h.graph.createRequest_acts a b
    cases heq.symm.trans hmade
    cases made with
    | false =>
      obtain rfl : graph = db.graph := hnothing rfl
      exact h
    | true => exact h.withPair hgraph (hbecomes rfl).changes ha hb
  · exact h

/-- A guarded change, whether it succeeds or fails, makes no ties but between players. -/
theorem WellFormed.apply {c : Change} (hc : c.isGuarded = true) : (db.apply c).WellFormed := by
  cases c with
  | graph c =>
    have hgraph := h.graph.apply c
    cases c with
    | unfriend a b =>
      exact h.withOutcome (h.graph.removeFriendship_acts a b) hgraph h.hasPlayer_of_mem_friendships
    | withdraw a b =>
      exact h.withOutcome (h.graph.deleteRequest_acts a b) hgraph h.hasPlayer_of_mem_requests
    | accept a b =>
      exact h.withOutcome (h.graph.acceptRequest_acts a b) hgraph h.hasPlayer_of_mem_requests
    | befriend a b => cases hc
    | request a b => cases hc
    | rename old new => cases hc
    | purge n => cases hc
  | create n =>
    simp only [Database.apply]
    cases hcreate : db.directory.create n with
    | error e => exact h
    | ok r => exact h.created hcreate
  | setAlias n choice =>
    simp only [Database.apply]
    cases hset : db.directory.setAlias n choice with
    | error e => exact h
    | ok r => exact h.aliasSet hset
  | rename old new =>
    simp only [Database.apply]
    cases hrename : db.rename old new with
    | error e => exact h
    | ok r => exact h.renamed hrename
  | delete n =>
    simp only [Database.apply]
    cases hdelete : db.delete n with
    | error e => exact h
    | ok r =>
      cases r with
      | none => exact h
      | some r => exact h.deleted hdelete
  | request a b =>
    simp only [Database.apply]
    cases hrequest : db.request a b with
    | error e => exact h
    | ok r => exact h.requested hrequest

end

end Amity.Database
