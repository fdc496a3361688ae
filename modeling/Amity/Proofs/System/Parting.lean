/-
  Amity/Proofs/System/Parting.lean
  ================================
  **What sessions are told when friends part.**  A friendship ends by a command, by a deletion or,
  for the old name, by a renaming.  Each time the sessions of both players are told, so that they
  take the other for gone.  Beyond that, nobody is told the status of anybody but a friend.
  `Engine.TellsParting` is this law for one step of the engine, whatever mailboxes refuse.

  One session is not told: the one that ends a friendship by a command.  It forgets the status by
  itself, at once, whatever still waits for it.
-/
import Amity.Proofs.System.Deletion
import Amity.Proofs.System.Renaming
import Amity.Proofs.System.Convergence

namespace Amity

namespace Notice

/-- Whoever reads the notice takes the player for gone from then on. -/
def Clears (x : Notice) (m : Name) : Prop := x = .update (some m) ∨ x = .status m .disconnected

instance (x : Notice) (m : Name) : Decidable (x.Clears m) :=
  inferInstanceAs (Decidable (_ ∨ _))

/-- The friends of a session's player change from `before` to `after`, and this is what the session
    is told: who is no friend is spoken of only as gone, and of a friend who is one no more it is
    said. -/
structure FitsParting (before after : Name → Prop) (news : List Notice) : Prop where
  strangers : ∀ m, ¬ after m → ∀ x ∈ news, x.IsAbout m → x.Clears m
  parted : ∀ m, before m → ¬ after m → ∃ x ∈ news, x.Clears m

section

variable {before after : Name → Prop}

/-- No friendship ends, and nobody but friends is spoken of. -/
theorem FitsParting.of_lasting {news : List Notice} (hlasting : ∀ m, before m → after m)
    (hfriends : ∀ x ∈ news, ∀ m, x.IsAbout m → after m) : FitsParting before after news where
  strangers m hm x hx habout := absurd (hfriends x hx m habout) hm
  parted m hbefore hafter := absurd (hlasting m hbefore) hafter

end

end Notice

/-- Who is attached after a delivery has got all that was for it. -/
theorem Presence.Delivered.waiting_of_nameOf? {p q : Presence} {news : Connection → List Notice}
    (h : p.Delivered news q) (hp : p.WellFormed) (hq : q.WellFormed) {c : Connection} {n : Name}
    (hc : q.nameOf? c = some n) :
    p.nameOf? c = some n ∧ q.waiting c = p.waiting c ++ news c := by
  obtain ⟨hname, hroom⟩ := (h.nameOf?_eq_some_iff hp hq).1 hc
  refine ⟨hname, ?_⟩
  rw [h.waiting, List.take_of_length_le hroom]

namespace Engine

/-- Every session that stays attached is told what fits the change of its player's friends, beyond
    what is left in its mailbox.  The session that asks for the change need not be told. -/
def TellsParting (e : Engine) (left : Connection → List Notice) (asking : Option Connection)
    (e' : Engine) : Prop :=
  ∀ c k n, e.presence.nameOf? c = some k → e'.presence.nameOf? c = some n →
    ∃ news, e'.presence.waiting c = left c ++ news ∧
      Notice.FitsParting
        (fun m => asking ≠ some c ∧ s(k, m) ∈ e.database.graph.friendships)
        (fun m => s(n, m) ∈ e'.database.graph.friendships) news

section

variable {e e' : Engine} {asking : Option Connection} {left : Connection → List Notice}

/-- A change after which the friends are the same, and a delivery that speaks of friends. -/
theorem TellsParting.of_delivered {mid : Presence} {news : Connection → List Notice}
    (hmid : mid.WellFormed) (hafter : e'.presence.WellFormed)
    (hdelivered : mid.Delivered news e'.presence) (hleft : ∀ c, mid.waiting c = left c)
    (hnames : ∀ c k n, e.presence.nameOf? c = some k → mid.nameOf? c = some n → k = n)
    (hgraph : e'.database.graph = e.database.graph)
    (hnews : ∀ c n, mid.nameOf? c = some n → ∀ x ∈ news c, ∀ m, x.IsAbout m →
      s(n, m) ∈ e.database.graph.friendships) :
    e.TellsParting left asking e' := by
  intro c k n hk hn
  obtain ⟨hc, hwaiting⟩ := hdelivered.waiting_of_nameOf? hmid hafter hn
  obtain rfl := hnames c k n hk hc
  refine ⟨news c, by rw [hwaiting, hleft], .of_lasting ?_ ?_⟩
  · intro m hm
    rw [hgraph]
    exact hm.2
  · intro x hx m habout
    rw [hgraph]
    exact hnews c k hc x hx m habout

/-- A step in which nothing is told and no friendship ends. -/
theorem TellsParting.of_waiting (hgraph : e'.database.graph = e.database.graph)
    (hnames : ∀ c k n, e.presence.nameOf? c = some k → e'.presence.nameOf? c = some n → k = n)
    (hwaiting : ∀ c, e'.presence.waiting c = left c) : e.TellsParting left asking e' := by
  intro c k n hk hn
  obtain rfl := hnames c k n hk hn
  refine ⟨[], by rw [hwaiting, List.append_nil], .of_lasting ?_ nofun⟩
  intro m hm
  rw [hgraph]
  exact hm.2

theorem TellsParting.refl (e : Engine) : e.TellsParting e.presence.waiting asking e := by
  refine .of_waiting rfl ?_ fun _ => rfl
  intro c k n hk hn
  exact Option.some.inj (hk.symm.trans hn)

end

section

variable {e : Engine} (h : e.WellFormed)
include h

/-! ## Changes of ties -/

omit h in
theorem mem_ite_append_ite {α : Type} {p q : Prop} [Decidable p] [Decidable q] {x y : α}
    {xs : List α} :
    x ∈ (if p then xs else []) ++ (if q then [y] else []) ↔ p ∧ x ∈ xs ∨ q ∧ x = y := by
  by_cases hp : p <;> by_cases hq : q <;> simp [hp, hq]

/-- What a change of ties tells a session: the notices for the target, and the one for siblings. -/
theorem WellFormed.waiting_tieChanged {s : Session} {target : Name} {command : Command}
    {change : TieChange} {database : Database} (hasks : e.Asks s target command change)
    (houtcome : change.outcome = .ok (true, database)) {c : Connection} {n : Name}
    (hn : (e.tieChanged s target change database).presence.nameOf? c = some n) :
    e.presence.nameOf? c = some n ∧ ∃ news,
      (e.tieChanged s target change database).presence.waiting c = e.presence.waiting c ++ news ∧
        ∀ x, x ∈ news ↔ n = target ∧ x ∈ change.toTarget ∨
          (n = s.name ∧ c ≠ s.connection) ∧ x = change.toSiblings := by
  have hafter := h.tieChanged hasks houtcome
  obtain ⟨hc, hwaiting⟩ := (h.tieChanged_delivered hasks houtcome).waiting_of_nameOf? h.presence
    hafter.presence hn
  refine ⟨hc, _, hwaiting, fun x => ?_⟩
  rw [mem_ite_append_ite, hc]
  simp only [Option.some.injEq]

/-- While friendships last, nobody or a new friend is spoken of. -/
theorem WellFormed.tellsParting_tieChanged {s : Session} {target : Name} {command : Command}
    {change : TieChange} {database : Database} (hlasting : ∀ t, command ≠ .remove t)
    (hasks : e.Asks s target command change) (houtcome : change.outcome = .ok (true, database)) :
    e.TellsParting e.presence.waiting none (e.tieChanged s target change database) := by
  have hold := h.graph
  intro c k n hk hn
  obtain ⟨hc, news, hwaiting, hmem⟩ := h.waiting_tieChanged hasks houtcome hn
  obtain rfl : k = n := Option.some.inj (hk.symm.trans hc)
  refine ⟨news, hwaiting, ?_⟩
  show Notice.FitsParting _ (fun m => s(k, m) ∈ database.graph.friendships) news
  have hupdate (htarget : change.toTarget = [.update none])
      (hsiblings : change.toSiblings = .update none)
      (hfriends : database.graph.friendships = e.database.graph.friendships) :
      Notice.FitsParting (fun m => none ≠ some c ∧ s(k, m) ∈ e.database.graph.friendships)
        (fun m => s(k, m) ∈ database.graph.friendships) news := by
    rw [hfriends]
    refine .of_lasting (fun m hm => hm.2) fun x hx m habout => ?_
    rw [hmem, htarget, hsiblings, List.mem_singleton] at hx
    obtain rfl : x = .update none := hx.elim And.right And.right
    obtain ⟨_, hreport⟩ := habout
    cases hreport
  cases hasks with
  | request =>
    rcases Database.request_eq_ok houtcome with ⟨-, -, -, hmade⟩ | ⟨hfalse, -⟩
    · exact hupdate rfl rfl ((hold.createRequest_acts _ _).of_eq_ok hmade).2.friendships
    · cases hfalse
  | cancel =>
    exact hupdate rfl rfl
      (System.friendships_of_onGraph (hold.deleteRequest_acts _ _) houtcome).2
  | refuse =>
    exact hupdate rfl rfl
      (System.friendships_of_onGraph (hold.deleteRequest_acts _ _) houtcome).2
  | accept =>
    obtain ⟨-, hfriends⟩ := System.friendships_of_onGraph (hold.acceptRequest_acts _ _) houtcome
    rw [hfriends]
    refine .of_lasting (fun m hm => Or.inr hm.2) fun x hx m ⟨t, hreport⟩ => ?_
    rw [hmem] at hx
    simp only [List.mem_cons, List.not_mem_nil, or_false] at hx
    rcases hx with ⟨rfl, rfl | rfl⟩ | ⟨-, rfl⟩
    · cases hreport
      exact Set.mem_insert _ _
    · cases hreport
    · cases hreport
  | remove => exact absurd rfl (hlasting _)

/-- The end of a friendship is told to all sessions of the two but the one that ends it, which
    forgets the status at once. -/
theorem WellFormed.tellsParting_remove {s : Session} {target : Name} {t : String}
    {change : TieChange} {database : Database} (hasks : e.Asks s target (.remove t) change)
    (houtcome : change.outcome = .ok (true, database)) :
    e.TellsParting e.presence.waiting (some s.connection) (e.tieChanged s target change database) ∧
      change.session = s.forget target ∧
      database.graph.friendships = e.database.graph.friendships \ {s(s.name, target)} ∧
      ∀ c n, (e.tieChanged s target change database).presence.nameOf? c = some n →
        e.presence.nameOf? c = some n := by
  have hattached {c : Connection} {n : Name} := h.waiting_tieChanged (c := c) (n := n) hasks houtcome
  cases hasks with | remove =>
  obtain ⟨-, hfriends⟩ :=
    System.friendships_of_onGraph (h.graph.removeFriendship_acts _ _) houtcome
  refine ⟨?_, rfl, hfriends, fun c n hn => (hattached hn).1⟩
  intro c k n hk hn
  obtain ⟨hc, news, hwaiting, hmem⟩ := hattached hn
  obtain rfl : k = n := Option.some.inj (hk.symm.trans hc)
  refine ⟨news, hwaiting, ?_⟩
  show Notice.FitsParting _ (fun m => s(k, m) ∈ database.graph.friendships) news
  rw [hfriends]
  simp only [List.mem_singleton] at hmem
  constructor
  · intro m hm x hx ⟨t, hreport⟩
    rcases (hmem x).1 hx with ⟨-, rfl⟩ | ⟨-, rfl⟩
    · cases hreport
      exact Or.inl rfl
    · cases hreport
      exact Or.inl rfl
  · rintro m ⟨hasking, hfriend⟩ hparted
    have hpair : s(k, m) = s(s.name, target) := by
      by_contra hother
      exact hparted ⟨hfriend, hother⟩
    rcases Sym2.eq_iff.1 hpair with ⟨rfl, rfl⟩ | ⟨rfl, rfl⟩
    · have hsibling : c ≠ s.connection := fun hcs => hasking (by rw [hcs])
      exact ⟨_, (hmem _).2 (Or.inr ⟨⟨rfl, hsibling⟩, rfl⟩), Or.inl rfl⟩
    · exact ⟨_, (hmem _).2 (Or.inl ⟨rfl, rfl⟩), Or.inl rfl⟩

/-! ## Names and accounts -/

theorem WellFormed.tellsParting_renamed (hdb : e.database.WellFormed) {s : Session} {new : Name}
    {ties : Ties} {database : Database} (hne : s.name ≠ new)
    (hrename : e.database.rename s.name new = .ok (ties, database)) :
    e.TellsParting e.presence.waiting none (e.renamed s new ties database) := by
  have hafter := h.renamed hne hrename
  have hrebound := h.presence.rebound hne
  have hold := h.graph
  obtain ⟨p, -, hnew, -, rfl, -, hties, -⟩ := hdb.of_rename hrename
  intro c k n hk hn
  obtain ⟨hc, hwaiting⟩ := (h.renamed_delivered hne hrename).waiting_of_nameOf? hrebound
    hafter.presence hn
  rw [h.news_renamed hdb hnew hne, Presence.waiting_rebound] at hwaiting
  refine ⟨_, hwaiting, ?_⟩
  rw [h.presence.nameOf?_rebound hne, hk, Option.map_some, Option.some.injEq] at hc
  subst hc
  have hpairs := (hold.pairs_rename hafter.graph hne (hdb.knows_eq_false hnew) hties).1
  have himage : ∀ m, s(k, m) ∈ e.database.graph.friendships →
      s(Ties.substitute s.name new k, Ties.substitute s.name new m) ∈
        database.graph.friendships := by
    intro m hm
    have hpairs : database.graph.friendships = _ := hpairs
    rw [hpairs]
    exact ⟨_, hm, Sym2.map_mk _ _ _⟩
  have hnews : e.renameNews s.connection s.name new c =
      if k ∈ (e.database.graph.ties s.name).friends then
        [.status s.name .disconnected, .status new (e.presence.statusOf s.name),
          .renamed s.name new]
      else if k ∈ (e.database.graph.ties s.name).sent ∨
          k ∈ (e.database.graph.ties s.name).received ∨ k = s.name ∧ c ≠ s.connection then
        [.renamed s.name new]
      else [] := by
    unfold renameNews
    rw [hk]
  rw [hnews]
  constructor
  · rintro m hm x hx ⟨t, hreport⟩
    split at hx
    · next hfriend =>
      simp only [List.mem_cons, List.not_mem_nil, or_false] at hx
      rcases hx with rfl | rfl | rfl
      · cases hreport
        exact Or.inr rfl
      · cases hreport
        have hfriend := himage s.name (Sym2.eq_swap ▸ hold.mem_friendships.2 hfriend)
        rw [Ties.substitute, Ties.substitute, if_pos rfl] at hfriend
        exact absurd hfriend hm
      · cases hreport
    · split at hx
      · rw [List.mem_singleton.1 hx] at hreport
        cases hreport
      · cases hx
  · rintro m ⟨-, hfriend⟩ hparted
    have hold' : m = s.name := by
      by_contra hother
      have hstill := himage m hfriend
      have hsame : Ties.substitute s.name new m = m := if_neg hother
      rw [hsame] at hstill
      exact hparted hstill
    subst hold'
    rw [if_pos (hold.mem_friendships.1 (Sym2.eq_swap ▸ hfriend))]
    exact ⟨_, List.mem_cons_self, Or.inr rfl⟩

theorem WellFormed.tellsParting_deletePlayer {e' : Engine} {j : Name} {gone : Bool}
    (hdelete : e.deletePlayer j = .ok (gone, e')) :
    e.TellsParting e.presence.waiting none e' := by
  have hafter := h.deletePlayer hdelete
  have hevicted := h.presence.evicted j
  have hold := h.graph
  rcases deletePlayer_eq_ok hdelete with ⟨-, -, rfl⟩ | ⟨ties, database, -, hdatabase, rfl⟩
  · refine .of_delivered hevicted hafter.presence (h.withoutPlayer_delivered _ _ _)
      (Presence.waiting_evicted _ _) ?_ rfl ?_
    · intro c k n hk hn
      rw [h.presence.nameOf?_evicted] at hn
      split at hn
      · cases hn
      · exact Option.some.inj (hk.symm.trans hn)
    · intro c n _ x hx
      obtain ⟨_, -, hx⟩ := Outbox.mem_addressed.1 hx
      cases hx
  · intro c k n hk hn
    obtain ⟨hc, hwaiting⟩ := (h.withoutPlayer_delivered j _ _).waiting_of_nameOf? hevicted
      hafter.presence hn
    rw [Presence.waiting_evicted] at hwaiting
    refine ⟨_, hwaiting, ?_⟩
    have hcj : e.presence.nameOf? c ≠ some j := by
      intro hcj
      rw [h.presence.nameOf?_evicted, if_pos hcj] at hc
      cases hc
    rw [h.presence.nameOf?_evicted, if_neg hcj] at hc
    obtain rfl : k = n := Option.some.inj (hk.symm.trans hc)
    obtain ⟨-, hpurge⟩ := Database.delete_eq_ok_some_iff.1 hdatabase
    obtain ⟨rfl, hfriends⟩ := hold.friends_purged hpurge
    have hnew : database.graph.WellFormed := hafter.graph
    rw [h.presence.nameOf?_evicted, if_neg hcj, hk, addressed_deleteOutbox]
    constructor
    · rintro m - x hx ⟨t, hreport⟩
      split at hx
      · rw [List.mem_singleton.1 hx] at hreport ⊢
        cases hreport
        exact Or.inl rfl
      · split at hx
        · rw [List.mem_singleton.1 hx] at hreport
          cases hreport
        · cases hx
    · rintro m ⟨-, hfriend⟩ hparted
      have hm : m = j := by
        by_contra hother
        have hkj : k ≠ j := fun heq => hcj (by rw [hk, heq])
        refine hparted (hnew.mem_friendships.2 ((hfriends k m).2 ⟨hkj, hother, ?_⟩))
        exact hold.mem_friendships.1 hfriend
      subst hm
      rw [if_pos (hold.mem_friendships.1 (Sym2.eq_swap ▸ hfriend))]
      exact ⟨_, List.mem_cons_self, Or.inl rfl⟩

/-! ## Statuses -/

/-- A notice about a player for the player's friends. -/
theorem WellFormed.tellsParting_of_friends {e' : Engine} {mid : Presence} {j : Name} {t : Status}
    {x : Notice} {left : Connection → List Notice} (hreport : x.report? = some (j, t))
    (hmid : mid.WellFormed) (hafter : e'.presence.WellFormed)
    (hdelivered : mid.Delivered
      (fun c => if ∃ k, mid.nameOf? c = some k ∧ k ∈ (e.database.graph.ties j).friends
        then [x] else []) e'.presence)
    (hleft : ∀ c, mid.waiting c = left c)
    (hnames : ∀ c k n, e.presence.nameOf? c = some k → mid.nameOf? c = some n → k = n)
    (hgraph : e'.database.graph = e.database.graph) : e.TellsParting left none e' := by
  refine .of_delivered hmid hafter hdelivered hleft hnames hgraph ?_
  intro c n hc y hy m ⟨s, habout⟩
  split at hy
  · next hfriend =>
    obtain ⟨k, hk, hfriend⟩ := hfriend
    cases hk.symm.trans hc
    rw [List.mem_singleton.1 hy, hreport] at habout
    cases habout
    exact Sym2.eq_swap ▸ h.graph.mem_friendships.2 hfriend
  · cases hy

theorem WellFormed.tellsParting_shown (s : Session) (status : Status) :
    e.TellsParting e.presence.waiting none (e.shown s status) := by
  have hset := h.setStatus s.connection status
  have hafter := h.shown s status
  have hnames := h.presence.nameOf?_congr hset.presence fun m =>
    Presence.sessionsOf_setStatus _ _ _ _
  refine h.tellsParting_of_friends rfl hset.presence hafter.presence
    (hset.broadcast_delivered s.name _) (Presence.waiting_setStatus _ _ _) ?_ rfl
  intro c k n hk hn
  rw [hnames] at hn
  exact Option.some.inj (hk.symm.trans hn)

theorem WellFormed.tellsParting_disconnect (d : Connection) :
    e.TellsParting e.presence.waiting none (e.disconnect d) := by
  have hdetached := h.detached d
  have hafter := h.disconnect d
  have hnames : ∀ c k n, e.presence.nameOf? c = some k →
      (e.detached d).presence.nameOf? c = some n → k = n := by
    intro c k n hk hn
    have hn : (e.presence.detach d).2.nameOf? c = some n := hn
    rw [h.presence.nameOf?_detach] at hn
    split at hn
    · cases hn
    · exact Option.some.inj (hk.symm.trans hn)
  rcases e.disconnect_cases d with ⟨-, heq⟩ | ⟨j, -, ⟨-, heq⟩ | ⟨-, heq⟩⟩
  · rw [heq]
    exact .refl e
  · rw [heq]
    exact .of_waiting rfl hnames (Presence.waiting_detach _ d)
  · rw [heq] at hafter ⊢
    exact h.tellsParting_of_friends rfl hdetached.presence hafter.presence
      (hdetached.broadcast_delivered j _) (Presence.waiting_detach _ d) hnames rfl

theorem WellFormed.tellsParting_connected {j : Name} (hj : e.hasPlayer j = true) :
    e.TellsParting (fun c => if c = ⟨e.presence.arrivals⟩ then [] else e.presence.waiting c) none
      (e.connected j) := by
  have hattached := h.attached hj
  have hafter : (e.connected j).WellFormed := hattached.notifyAll _
  refine h.tellsParting_of_friends (x := e.firstProbe j) rfl hattached.presence
    hafter.presence (h.connect_delivered hj) (Presence.waiting_attach _ _ _) ?_ rfl
  intro c k n hk hn
  have hn : ((e.presence.accept e.capacity).2.attach j ⟨e.presence.arrivals⟩).nameOf? c = some n :=
    hn
  rw [h.presence.nameOf?_attach] at hn
  split at hn
  · next hnew =>
    rw [h.presence.nameOf?_next (by rw [hnew])] at hk
    cases hk
  · exact Option.some.inj (hk.symm.trans hn)

/-! ## Commands -/

/-- The turn of a session that ends a friendship. -/
structure EndsFriendship (e : Engine) (s : Session) (command : Command) (target : Name)
    (turn : Turn) : Prop where
  asks : ∃ t, command = .remove t
  forgets : turn.session = s.forget target
  friendships : turn.engine.database.graph.friendships =
    e.database.graph.friendships \ {s(s.name, target)}
  names : ∀ c n, turn.engine.presence.nameOf? c = some n → e.presence.nameOf? c = some n

theorem WellFormed.tellsParting_performs (hdb : e.database.WellFormed) {s : Session}
    {command : Command} {turn : Turn} (hturn : e.Performs s command turn) :
    e.TellsParting e.presence.waiting none turn.engine ∨
      e.TellsParting e.presence.waiting (some s.connection) turn.engine ∧
        ∃ target, e.EndsFriendship s command target turn := by
  cases hturn with
  | nothing => exact Or.inl (.refl e)
  | ties _ hasks houtcome =>
    by_cases hremove : ∃ t, command = .remove t
    · right
      obtain ⟨t, rfl⟩ := hremove
      obtain ⟨htells, hforgets, hfriends, hnames⟩ := h.tellsParting_remove hasks houtcome
      exact ⟨htells, _, ⟨t, rfl⟩, hforgets, hfriends, hnames⟩
    · left
      rw [not_exists] at hremove
      exact h.tellsParting_tieChanged hremove hasks houtcome
  | rename _ hne hrename => exact Or.inl (h.tellsParting_renamed hdb hne hrename)
  | delete _ hdelete => exact Or.inl (h.tellsParting_deletePlayer hdelete)
  | status status => exact Or.inl (h.tellsParting_shown s status)

/-- A command tells everybody else, or everybody. -/
theorem WellFormed.tellsParting_handleCommand (hdb : e.database.WellFormed) (s : Session)
    (command : Command) :
    e.TellsParting e.presence.waiting none (e.handleCommand s command).engine ∨
      e.TellsParting e.presence.waiting (some s.connection) (e.handleCommand s command).engine ∧
        ∃ n target, e.presence.nameOf? s.connection = some n ∧
          e.EndsFriendship (s.renamed n) command target (e.handleCommand s command) := by
  rcases e.handleCommand_cases s command with ⟨-, heq⟩ | ⟨n, hn, ⟨-, heq⟩ | ⟨-, hturn⟩⟩
  · rw [heq]
    exact Or.inl (.refl e)
  · rw [heq]
    exact Or.inl (.refl e)
  · exact (h.tellsParting_performs hdb hturn).imp_right fun ⟨htells, target, hends⟩ =>
      ⟨htells, n, target, hn, hends⟩

/-! ## Reading -/

/-- A probe is answered to a friend. -/
theorem WellFormed.tellsParting_handleNotice (s : Session) (x : Notice) :
    e.TellsParting e.presence.waiting none (e.handleNotice s x).engine := by
  have hafter := h.handleNotice s x
  rcases e.handleNotice_cases s x with ⟨-, heq⟩ | ⟨asker, status, replyTo, -, hfriends, heq⟩
  · rw [heq]
    exact .refl e
  · rw [heq] at hafter ⊢
    refine .of_delivered h.presence hafter.presence (h.presence.sendTo_delivered _ _ _)
      (fun _ => rfl) ?_ rfl ?_
    · intro c k n hk hn
      exact Option.some.inj (hk.symm.trans hn)
    · intro c n hc y hy m ⟨t, habout⟩
      split at hy
      · next hto =>
        obtain ⟨rfl, hasker⟩ := hto
        rw [List.mem_singleton.1 hy] at habout
        cases habout
        cases hasker.symm.trans hc
        rw [Graph.areFriends_iff h.graph.canonical] at hfriends
        exact Sym2.eq_swap ▸ h.graph.mem_friendships.2 hfriends
      · cases hy

end

end Engine

end Amity
