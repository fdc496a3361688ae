/-
  Amity/Proofs/System/Renaming.lean
  =================================
  **A renaming is all or nothing.**  A session that asks for a name gets it, or nothing changes.  It
  gets every name that is well-formed, not its own and no player's (`Asked.refused`, `.granted`).
  Then the stored tables, the groups, the owner entries and the mailboxes change together: the
  first three are what they were with one name in the place of the other, and `renameNews` says
  what each connection is told.

  Who is told is read off the names before the renaming.  The registry posts after it, under the
  new names; that this is the same rests on nobody having the new name before.
-/
import Amity.Proofs.Database.Images
import Amity.Proofs.System.Ledger

namespace Amity

theorem Outbox.addressed_append (first second : Outbox) (n : Option Name) :
    Outbox.addressed (first ++ second) n = first.addressed n ++ second.addressed n := by
  simp [addressed]

namespace Engine

/-! ## Who is told what -/

/-- What a connection is told when the session of another one takes the name `new` for its player,
    who is `old`.  A friend sees the old name go and the new one come. -/
def renameNews (e : Engine) (asking : Connection) (old new : Name) (c : Connection) :
    List Notice :=
  match e.presence.nameOf? c with
  | none => []
  | some n =>
    if n ∈ (e.database.graph.ties old).friends then
      [.status old .disconnected, .status new (e.presence.statusOf old), .renamed old new]
    else if n ∈ (e.database.graph.ties old).sent ∨ n ∈ (e.database.graph.ties old).received ∨
        n = old ∧ c ≠ asking then
      [.renamed old new]
    else []

/-- Of the notices of a renaming a friend gets three and any other peer one. -/
theorem addressed_renameOutbox {ties : Ties} (h : ties.Nodup) (old new : Name) (status : Status)
    (n : Name) :
    (renameOutbox ties old new status).addressed (some n) =
      if n ∈ ties.friends then
        [.status old .disconnected, .status new status, .renamed old new]
      else if n ∈ ties.sent ∨ n ∈ ties.received then [.renamed old new]
      else [] := by
  have hpeers : ties.peers.Nodup := Ties.nodup_firstOccurrences _
  unfold renameOutbox
  rw [Outbox.addressed_append, Outbox.addressed_append, Outbox.addressed_map h.friends,
    Outbox.addressed_map h.friends, Outbox.addressed_map hpeers]
  simp only [Ties.mem_peers]
  by_cases hfriend : n ∈ ties.friends
  · simp [hfriend]
  · simp [hfriend]

/-- What the renaming of a player leaves behind, as seen from the engine before. -/
structure Renames (e : Engine) (asking : Connection) (old new : Name) (e' : Engine) : Prop where
  stored : e.database.RenamedTo old new e'.database
  owners : ∀ c, e'.presence.owners.find? c =
    (e.presence.owners.find? c).map (Ties.substitute old new)
  /-- The sessions keep their order and their statuses. -/
  groups : e'.refusals = e.refusals → ∀ n, e'.presence.group n =
    if n = new then e.presence.group old else if n = old then [] else e.presence.group n
  waiting : e'.refusals = e.refusals → ∀ c, e'.presence.waiting c =
    e.presence.waiting c ++ e.renameNews asking old new c

section

variable {e : Engine} (h : e.WellFormed) (hdb : e.database.WellFormed)
include h hdb

/-- The names after a renaming and the news for them, said by the names before. -/
theorem WellFormed.news_renamed {asking : Connection} {old new : Name}
    (hnew : e.hasPlayer new = false) (hne : old ≠ new) (c : Connection) :
    (renameOutbox (e.database.graph.ties old) old new (e.presence.statusOf old)).addressed
        ((e.presence.rebound old new).nameOf? c) ++
      (if (e.presence.rebound old new).nameOf? c = some new ∧ c ≠ asking
        then [.renamed old new] else []) = e.renameNews asking old new c := by
  rw [h.presence.nameOf?_rebound hne]
  unfold renameNews
  cases hc : e.presence.nameOf? c with
  | none => simp [Outbox.addressed_none]
  | some n =>
    rw [Option.map_some, addressed_renameOutbox (h.graph.nodup old)]
    have hstranger := hdb.not_mem_peers hnew old
    rw [Ties.mem_peers, not_or, not_or] at hstranger
    obtain ⟨hnf, hns, hnr⟩ := hstranger
    by_cases hn : n = old
    · obtain ⟨hof, hos, hor⟩ := h.graph.irreflexive old
      subst hn
      by_cases hasking : c = asking
      · simp [Ties.substitute, hnf, hns, hnr, hof, hos, hor, hasking]
      · simp [Ties.substitute, hnf, hns, hnr, hof, hos, hor, hasking]
    · have hother : n ≠ new := Database.ne_of_hasPlayer (h.players c n hc) hnew
      simp [Ties.substitute, hn, hother]

theorem WellFormed.renamed_renames {s : Session} {new : Name} {ties : Ties} {database : Database}
    (hne : s.name ≠ new) (hrename : e.database.rename s.name new = .ok (ties, database)) :
    e.Renames s.connection s.name new (e.renamed s new ties database) := by
  obtain ⟨rfl, hstored⟩ := hdb.renamedTo hrename
  obtain ⟨-, hnew, -⟩ := Directory.rename_eq_ok (Database.rename_eq_ok_iff.1 hrename).1
  have hdelivered := h.renamed_delivered hne hrename
  refine ⟨hstored, fun c => ?_, fun hrefusals n => ?_, fun hrefusals c => ?_⟩
  · rw [hdelivered.owners]
    refine (Table.find?_filterMap _ _ _).trans ?_
    cases e.presence.owners.find? c <;> rfl
  · have hposted := h.renamed_posted hne hrename hrefusals
    have hempty : e.presence.group new = [] := h.group_eq_nil hnew
    rw [hposted.group, Presence.group_rebound hne, hempty, List.nil_append]
  · have hposted := h.renamed_posted hne hrename hrefusals
    rw [hposted.waiting, Presence.waiting_rebound, h.news_renamed hdb hnew hne]

/-! ## Asking for a name -/

/-- What comes of a session that asks for a name. -/
structure Asked (e : Engine) (s : Session) (old : Name) (text : String) (turn : Turn) : Prop where
  /-- What is no name, the player's own name and a name of a player change nothing. -/
  refused : (∀ new, Name.parse? text = some new → new = old ∨ e.hasPlayer new = true) →
    turn = ⟨.snapshot, s.renamed old, e⟩
  /-- Any other name is granted. -/
  granted : ∀ new, Name.parse? text = some new → new ≠ old → e.hasPlayer new = false →
    turn.reply = .renamed old new ∧ turn.session = s.renamed new ∧
      e.Renames s.connection old new turn.engine

omit h hdb in
theorem rename_of_parse? {s : Session} {text : String} {new : Name}
    (hparse : Name.parse? text = some new) :
    e.rename s text =
      if new = s.name then ⟨.snapshot, s, e⟩
      else match e.database.rename s.name new with
        | .error _ => ⟨.snapshot, s, e⟩
        | .ok (ties, database) =>
          ⟨.renamed s.name new, s.renamed new, e.renamed s new ties database⟩ := by
  unfold Engine.rename
  rw [hparse]
  rfl

omit hdb in
theorem WellFormed.handleCommand_rename {s : Session} {old : Name}
    (hs : e.presence.nameOf? s.connection = some old) (text : String) :
    e.handleCommand s (.rename text) = e.rename (s.renamed old) text :=
  handleCommand_eq (.rename text) hs (h.players _ old hs)

theorem WellFormed.asked {s : Session} {old : Name}
    (hs : e.presence.nameOf? s.connection = some old) (text : String) :
    e.Asked s old text (e.handleCommand s (.rename text)) := by
  have hold : e.hasPlayer old = true := h.players _ old hs
  obtain ⟨p, hp⟩ := hdb.directory.canonical.has_iff.1 hold
  have hname : (s.renamed old).name = old := rfl
  rw [h.handleCommand_rename hs]
  refine ⟨fun htaken => ?_, fun new hparse hne hfree => ?_⟩
  · cases hparse : Name.parse? text with
    | none =>
      unfold Engine.rename
      rw [hparse]
    | some new =>
      rw [rename_of_parse? hparse, hname]
      by_cases hsame : new = old
      · rw [if_pos hsame]
      · have hplayer : e.database.directory.has new = true :=
          (htaken new hparse).resolve_left hsame
        have hfails : e.database.rename old new = .error (.directory (.nameTaken new)) := by
          unfold Database.rename
          rw [hdb.directory.rename_eq, hp]
          simp [hplayer, bind, Except.bind]
        rw [if_neg hsame, hfails]
  · obtain ⟨g', hrename, -, -⟩ := hdb.rename_eq_ok hp hfree
    rw [rename_of_parse? hparse, hname, if_neg hne, hrename]
    exact ⟨rfl, rfl, h.renamed_renames (s := s.renamed old) hdb (Ne.symm hne) hrename⟩

end

end Engine

namespace System

/-- **A renaming is all or nothing**, for every session that is attached after whatever came from
    outside, whatever name it remembers, and for every text. -/
theorem asked_run (capacity : Nat) (is : List Input) (s : Session) (old : Name) (text : String)
    (hs : ((start .empty capacity).run is).engine.presence.nameOf? s.connection = some old) :
    ((start .empty capacity).run is).engine.Asked s old text
      (((start .empty capacity).run is).engine.handleCommand s (.rename text)) := by
  have hsound := (sound_start capacity).run is
  exact hsound.wellFormed.engine.asked hsound.database hs text

/-! ### A friend is told of a renaming -/

/-- Two players become friends, and all that waits for the second one is read. -/
def becomeFriends : List Input :=
  [.action (.create ⟨"q", Name.isValid_q⟩), .action (.create ⟨"r", Name.isValid_r⟩),
    .action (.connect ⟨"q", Name.isValid_q⟩), .action (.connect ⟨"r", Name.isValid_r⟩),
    .action (.command ⟨0⟩ (.request "r")), .action (.command ⟨1⟩ (.accept "q")),
    .action (.read ⟨1⟩)]

/-- The session that asks remembers a name that nobody has. -/
theorem asked_run_becomeFriends :
    ((start .empty 64).run becomeFriends).engine.presence.nameOf? ⟨0⟩ = some ⟨"q", by decide⟩ ∧
      (((start .empty 64).run becomeFriends).engine.handleCommand
        (.start ⟨0⟩ ⟨"o", by decide⟩) (.rename "s")).reply =
        .renamed ⟨"q", by decide⟩ ⟨"s", by decide⟩ ∧
      (((start .empty 64).run becomeFriends).engine.handleCommand
        (.start ⟨0⟩ ⟨"o", by decide⟩) (.rename "s")).engine.presence.waiting ⟨1⟩ =
        [.status ⟨"q", by decide⟩ .disconnected, .status ⟨"s", by decide⟩ .connected,
          .renamed ⟨"q", by decide⟩ ⟨"s", by decide⟩] := by
  have hname : ((start .empty 64).run becomeFriends).engine.presence.nameOf? ⟨0⟩ =
      some ⟨"q", by decide⟩ := by decide +kernel
  have hasked := asked_run 64 becomeFriends (.start ⟨0⟩ ⟨"o", by decide⟩) ⟨"q", by decide⟩ "s" hname
  obtain ⟨hreply, -, hrenames⟩ := hasked.granted ⟨"s", by decide⟩ (by decide +kernel)
    (by decide) (by decide +kernel)
  refine ⟨hname, hreply, (hrenames.waiting (by decide +kernel) ⟨1⟩).trans ?_⟩
  decide +kernel

end System

end Amity
