/-
  Amity/Proofs/System/Hearing.lean
  ================================
  **What each step lets a session hear.**  One section for each kind of step: a change of ties, a
  deletion, another status, a session that goes or comes, and the reading of a notice.  Each shows
  that an attached session `Hears` nothing that is not so; of a session that comes, that nothing is
  known yet.

  A change of ties tells a player's other sessions less than the target, and a session that goes is
  missed only when it was the last.  So both need that no player has two.
-/
import Amity.Proofs.System.Views

namespace Amity.System

section

variable {sys sys' : System} {c : Connection} {n : Name}

/-! ## Changes of ties -/

/-- The registry after a change of ties: nobody has come or gone, and the sessions of the target
    have got the notices for it. -/
structure Told (sys sys' : System) (target : Name) (news : List Notice) : Prop where
  group : ∀ m, sys'.engine.presence.group m = sys.engine.presence.group m
  names : ∀ d, sys'.engine.presence.nameOf? d = sys.engine.presence.nameOf? d
  waiting : ∀ d j, sys.engine.presence.nameOf? d = some j →
    sys'.engine.presence.waiting d =
      sys.engine.presence.waiting d ++ if j = target then news else []

theorem Told.statusOf {target : Name} {news : List Notice} (htold : Told sys sys' target news)
    (m : Name) : sys'.engine.presence.statusOf m = sys.engine.presence.statusOf m :=
  Presence.statusOf_of_group (htold.group m)

/-- What is told to the target must speak of friends and give their status; who is a new friend
    must be spoken of or known otherwise. -/
theorem Told.hears {target : Name} {news : List Notice} (htold : Told sys sys' target news)
    (hbefore : sys.engine.presence.nameOf? c = some n) (hsession : KeepsSession sys sys' c n)
    (hquiet : ∀ x ∈ news, x.isRenaming = false)
    (hreports : n = target → ∀ x ∈ news, ∀ m t, x.report? = some (m, t) →
      (sys.Friends n m ∨ sys'.Friends n m) ∧
        (sys'.Friends n m → t = sys.engine.presence.statusOf m))
    (hknown : ∀ m, sys'.Friends n m →
      sys.Friends n m ∨ (n = target ∧ ∃ x ∈ news, x.IsAbout m) ∨ sys'.Knows c n m) :
    Hears sys sys' c n := by
  have hmember : ∀ x ∈ (if n = target then news else []), n = target ∧ x ∈ news := by
    intro x hx
    split at hx
    · next hn => exact ⟨hn, hx⟩
    · cases hx
  apply Hears.of_news hbefore hsession (htold.waiting c n hbefore)
  · intro x hx
    exact hquiet x (hmember x hx).2
  · intro x hx m t hreport
    rw [htold.statusOf]
    exact hreports (hmember x hx).1 x (hmember x hx).2 m t hreport
  · intro m hm
    rcases hknown m hm with hfriends | ⟨hn, hsome⟩ | hknows
    · refine Or.inr (Or.inr ⟨hfriends, htold.statusOf m, ?_⟩)
      apply Awaits.of_subset
      intro d hd
      refine ⟨(htold.names d).trans hd, ?_⟩
      rw [htold.waiting d m hd]
      exact List.subset_append_left _ _
    · rw [if_pos hn]
      exact Or.inl hsome
    · exact Or.inr (Or.inl hknows)

section

variable (h : sys.WellFormed)
include h

/-- A change of ties that a session asks for: the target is told, and there are no siblings. -/
theorem Viewed.told {met : Name → Name → Prop} (hviewed : sys.Viewed met) {s : Session}
    {target : Name} {command : Command} {change : Engine.TieChange} {database : Database}
    {turn : Turn}
    (hname : sys.engine.presence.nameOf? s.connection = some s.name)
    (hasks : sys.engine.Asks s target command change)
    (houtcome : change.outcome = .ok (true, database))
    (hturn : turn.engine = sys.engine.tieChanged s target change database)
    (hrefusals : turn.engine.refusals = sys.engine.refusals) :
    Told sys (sys.keep turn).2 target change.toTarget := by
  rw [hturn] at hrefusals
  have hposted := h.engine.tieChanged_posted hasks houtcome hrefusals
  rw [← hturn] at hposted
  refine ⟨hposted.group, hposted.nameOf?, ?_⟩
  intro d j hd
  refine (hposted.waiting d).trans ?_
  have hnone : ¬ (some j = some s.name ∧ d ≠ s.connection) := by
    rintro ⟨hj, hne⟩
    exact hne (hviewed.single d s.connection s.name (hd.trans hj) hname)
  rw [hd, if_neg hnone, List.append_nil]
  simp only [Option.some.injEq]

/-- A request, or the end of one, is no news about anybody's status. -/
theorem WellFormed.hears_update {s : Session} {target : Name} {turn : Turn}
    (hs : sys.sessions.find? s.connection = some s) (hturn : turn.session = s)
    (htold : Told sys (sys.keep turn).2 target [.update none])
    (hfriends : turn.engine.database.graph.friendships = sys.engine.database.graph.friendships)
    (hafter : (sys.keep turn).2.WellFormed) (hc : sys.engine.presence.nameOf? c = some n) :
    Hears sys (sys.keep turn).2 c n := by
  apply htold.hears hc
  · exact h.keepsSession_same hc hs hturn
  · intro x hx
    rw [List.mem_singleton.1 hx]
    rfl
  · intro _ x hx m t hreport
    rw [List.mem_singleton.1 hx] at hreport
    cases hreport
  · intro m hm
    left
    rw [hafter.friends_iff_mem_friendships] at hm
    rw [h.friends_iff_mem_friendships, ← hfriends]
    exact hm

/-- The end of a friendship.  The two forget each other, one at once and the other by a notice. -/
theorem WellFormed.hears_remove {s : Session} {target : Name} {turn : Turn}
    (hs : sys.sessions.find? s.connection = some s) (hturn : turn.session = s.forget target)
    (hname : sys.engine.presence.nameOf? s.connection = some s.name)
    (htold : Told sys (sys.keep turn).2 target [.update (some s.name)])
    (hbefore : s(s.name, target) ∈ sys.engine.database.graph.friendships)
    (hfriends : turn.engine.database.graph.friendships =
      sys.engine.database.graph.friendships \ {s(s.name, target)})
    (hafter : (sys.keep turn).2.WellFormed) (hc : sys.engine.presence.nameOf? c = some n) :
    Hears sys (sys.keep turn).2 c n := by
  have hiff : ∀ m, (sys.keep turn).2.Friends n m ↔
      sys.Friends n m ∧ s(n, m) ≠ s(s.name, target) := by
    intro m
    rw [hafter.friends_iff_mem_friendships, h.friends_iff_mem_friendships]
    show s(n, m) ∈ turn.engine.database.graph.friendships ↔ _
    rw [hfriends, Set.mem_sdiff, Set.mem_singleton_iff]
  apply htold.hears hc
  · apply h.keepsSession_keep hc hs
    · rw [hturn]
      rfl
    · rw [hturn]
      rfl
    · intro hcs m
      obtain rfl : n = s.name := Option.some.inj (hc.symm.trans (hcs ▸ hname))
      rw [hturn, Session.statusOf_forget]
      by_cases hm : m = target
      · subst hm
        exact Or.inr ⟨if_pos rfl, fun hfriends => ((hiff m).1 hfriends).2 rfl⟩
      · exact Or.inl (if_neg hm)
  · intro x hx
    rw [List.mem_singleton.1 hx]
    rfl
  · intro hn x hx m t hreport
    subst hn
    rw [List.mem_singleton.1 hx] at hreport
    cases hreport
    constructor
    · left
      rw [h.friends_iff_mem_friendships, Sym2.eq_swap]
      exact hbefore
    · intro hfriends
      exact absurd Sym2.eq_swap ((hiff s.name).1 hfriends).2
  · intro m hm
    exact Or.inl ((hiff m).1 hm).1

/-- A friendship that begins.  The target gets the probe of the session that said yes; this session
    takes a friend who is away for disconnected. -/
theorem Viewed.hears_accept {met : Name → Name → Prop} (hviewed : sys.Viewed met) {s : Session}
    {target : Name} {turn : Turn}
    (hs : sys.sessions.find? s.connection = some s) (hturn : turn.session = s)
    (hname : sys.engine.presence.nameOf? s.connection = some s.name)
    (htold : Told sys (sys.keep turn).2 target
      [.probe s.name (sys.engine.presence.statusOf s.name) s.connection, .update none])
    (hne : target ≠ s.name)
    (hfriends : turn.engine.database.graph.friendships =
      insert s(target, s.name) sys.engine.database.graph.friendships)
    (hreunion : ∀ m, (sys.keep turn).2.Friends n m → sys.Friends n m ∨ ¬ met n m)
    (hafter : (sys.keep turn).2.WellFormed) (hc : sys.engine.presence.nameOf? c = some n) :
    Hears sys (sys.keep turn).2 c n := by
  have hiff : ∀ m, (sys.keep turn).2.Friends n m ↔
      s(n, m) = s(target, s.name) ∨ sys.Friends n m := by
    intro m
    rw [hafter.friends_iff_mem_friendships, h.friends_iff_mem_friendships]
    show s(n, m) ∈ turn.engine.database.graph.friendships ↔ _
    rw [hfriends, Set.mem_insert_iff]
  have hsession := h.keepsSession_same hc hs hturn
  apply htold.hears hc hsession
  · intro x hx
    simp only [List.mem_cons, List.not_mem_nil, or_false] at hx
    rcases hx with rfl | rfl <;> rfl
  · intro hn x hx m t hreport
    subst hn
    simp only [List.mem_cons, List.not_mem_nil, or_false] at hx
    rcases hx with rfl | rfl
    · cases hreport
      exact ⟨Or.inr ((hiff s.name).2 (Or.inl rfl)), fun _ => rfl⟩
    · cases hreport
  · intro m hm
    rcases hreunion m hm with hfriends | hnew
    · exact Or.inl hfriends
    right
    rcases (hiff m).1 hm with hpair | hfriends
    · rcases Sym2.eq_iff.1 hpair with ⟨rfl, rfl⟩ | ⟨rfl, rfl⟩
      · -- the target, who has got the probe
        exact Or.inl ⟨rfl, _, List.mem_cons_self, _, rfl⟩
      · -- the session that said yes: a stranger until now, so it is the only thing to await
        obtain rfl := hviewed.single c s.connection s.name hc hname
        right
        apply hafter.knows_of_probes
        · have hstranger := hviewed.strangers _ _ m hname hnew
          apply hsession.unfamiliar hstranger
          rw [htold.waiting _ _ hname, if_neg hne.symm, List.append_nil]
          exact hstranger.2
        · intro d hd
          rw [htold.names] at hd
          refine ⟨sys.engine.presence.statusOf s.name, ?_⟩
          rw [htold.waiting d m hd, if_pos rfl]
          exact List.mem_append_right _ List.mem_cons_self
    · exact absurd (hviewed.friends n m hfriends) hnew

/-! ## Deletions -/

omit h in
theorem mem_deleteOutbox {ties : Ties} {k m : Name} {x : Notice}
    (hx : (m, x) ∈ Engine.deleteOutbox ties k) :
    x = .update (if m ∈ ties.friends then some k else none) := by
  unfold Engine.deleteOutbox at hx
  obtain ⟨peer, -, heq⟩ := List.mem_map.1 hx
  cases heq
  rfl

/-- A player is gone, and the sessions of the others have got the notices for them. -/
structure Gone (sys sys' : System) (k : Name) : Prop where
  friends : ∀ n m, n ≠ k → (sys'.Friends n m ↔ m ≠ k ∧ sys.Friends n m)
  names : ∀ d m, m ≠ k → sys.engine.presence.nameOf? d = some m →
    sys'.engine.presence.nameOf? d = some m
  status : ∀ m, m ≠ k → sys'.engine.presence.statusOf m = sys.engine.presence.statusOf m
  waiting : ∀ d m, m ≠ k → sys.engine.presence.nameOf? d = some m →
    sys'.engine.presence.waiting d = sys.engine.presence.waiting d ++
      (Engine.deleteOutbox (sys.engine.database.graph.ties k) k).addressed (some m)

theorem WellFormed.gone_of_purge {k : Name} {graph : Graph} {ties : Ties} {database : Database}
    (hafter : sys'.WellFormed) (hpurge : sys.engine.database.graph.purge k = .ok (ties, graph))
    (hgraph : database.graph = graph)
    (heq : sys'.engine = sys.engine.withoutPlayer k (Engine.deleteOutbox ties k) database)
    (hrefusals : sys'.engine.refusals = sys.engine.refusals) : Gone sys sys' k := by
  rw [heq] at hrefusals
  have hposted := h.engine.withoutPlayer_posted hrefusals
  rw [← heq] at hposted
  obtain ⟨rfl, hfriends⟩ := h.engine.graph.friends_purged hpurge
  have hnames : ∀ d m, m ≠ k → sys.engine.presence.nameOf? d = some m →
      (sys.engine.presence.evicted k).nameOf? d = some m := by
    intro d m hm hd
    rw [h.engine.presence.nameOf?_evicted, hd, if_neg]
    exact fun hmk => hm (Option.some.inj hmk)
  constructor
  · intro n m hn
    rw [hafter.friends_iff, h.friends_iff, heq]
    show m ∈ (database.graph.ties n).friends ↔ _
    rw [hgraph]
    exact (hfriends n m).trans (and_iff_right hn)
  · intro d m hm hd
    exact (hposted.nameOf? d).trans (hnames d m hm hd)
  · intro m hm
    rw [hposted.statusOf]
    apply Presence.statusOf_of_group
    rw [Presence.group_evicted, if_neg hm]
  · intro d m hm hd
    rw [hposted.waiting, Presence.waiting_evicted, hnames d m hm hd]

/-- The friends of the player who is gone forget the status; to the others it is no news. -/
theorem Gone.hears {k : Name} (hgone : Gone sys sys' k) (hne : n ≠ k)
    (hbefore : sys.engine.presence.nameOf? c = some n) (hsession : KeepsSession sys sys' c n) :
    Hears sys sys' c n := by
  have hmember : ∀ x ∈ (Engine.deleteOutbox (sys.engine.database.graph.ties k) k).addressed
      (some n), x = .update (if n ∈ (sys.engine.database.graph.ties k).friends
        then some k else none) := by
    intro x hx
    obtain ⟨_, hn, hx⟩ := Outbox.mem_addressed.1 hx
    cases hn
    exact mem_deleteOutbox hx
  apply Hears.of_news hbefore hsession (hgone.waiting c n hne hbefore)
  · intro x hx
    rw [hmember x hx]
    rfl
  · intro x hx m t hreport
    rw [hmember x hx] at hreport
    split at hreport
    · next hn =>
      cases hreport
      refine ⟨Or.inl (h.friends_comm.1 (h.friends_iff.2 hn)), fun hm => ?_⟩
      exact absurd rfl ((hgone.friends n k hne).1 hm).1
    · cases hreport
  · intro m hm
    obtain ⟨hmk, hfriends⟩ := (hgone.friends n m hne).1 hm
    refine Or.inr (Or.inr ⟨hfriends, hgone.status m hmk, ?_⟩)
    apply Awaits.of_subset
    intro d hd
    refine ⟨hgone.names d m hmk hd, ?_⟩
    rw [hgone.waiting d m hmk hd]
    exact List.subset_append_left _ _

/-- Where no player is found nobody can be attached either, so nothing happens. -/
theorem WellFormed.hears_noPlayer {k : Name} (hafter : sys'.WellFormed)
    (hnone : sys.engine.hasPlayer k = false)
    (heq : sys'.engine = sys.engine.withoutPlayer k [] sys.engine.database)
    (hrefusals : sys'.engine.refusals = sys.engine.refusals)
    (hc : sys'.engine.presence.nameOf? c = some n) (hsession : KeepsSession sys sys' c n) :
    Hears sys sys' c n := by
  rw [heq] at hrefusals
  have hposted := h.engine.withoutPlayer_posted hrefusals
  rw [← heq] at hposted
  refine .of_silent h hafter ?_ ?_ ?_ hc hsession
  · rw [heq]
    rfl
  · intro m
    rw [hposted.group, Presence.group_evicted]
    split
    · next hm => rw [hm, h.engine.group_eq_nil hnone]
    · rfl
  · intro d
    rw [hposted.waiting, Presence.waiting_evicted]
    exact List.append_nil _

/-- A player goes, and the sessions of the others hear of it. -/
theorem WellFormed.hears_delete {k : Name} {gone : Bool} (hafter : sys'.WellFormed)
    (hdelete : sys.engine.deletePlayer k = .ok (gone, sys'.engine))
    (hrefusals : sys'.engine.refusals = sys.engine.refusals)
    (hc : sys'.engine.presence.nameOf? c = some n) (hsession : KeepsSession sys sys' c n) :
    Hears sys sys' c n := by
  obtain ⟨hbefore, hne⟩ := h.engine.attached_of_deletePlayer hdelete hc
  rcases Engine.deletePlayer_eq_ok hdelete with
    ⟨-, hdatabase, heq⟩ | ⟨ties, database, -, hdatabase, heq⟩
  · have hnone : sys.engine.hasPlayer k = false :=
      Directory.delete_eq_ok (Database.delete_eq_ok_none_iff.1 hdatabase)
    exact h.hears_noPlayer hafter hnone heq hrefusals hc hsession
  · obtain ⟨-, hpurge⟩ := Database.delete_eq_ok_some_iff.1 hdatabase
    exact (h.gone_of_purge hafter hpurge rfl heq hrefusals).hears h hne hbefore hsession

/-! ## Statuses -/

/-- A session shows a status, and the friends of its player are told. -/
theorem WellFormed.spreads_shown {s : Session} {status : Status}
    (hshown : sys'.engine = sys.engine.shown s status)
    (hrefusals : sys'.engine.refusals = sys.engine.refusals)
    (hname : sys.engine.presence.nameOf? s.connection = some s.name) :
    Spreads sys sys' s.name (.status s.name
      ((sys.engine.presence.setStatus s.connection status).statusOf s.name)) := by
  rw [hshown] at hrefusals
  have hposted := h.engine.shown_posted hrefusals
  rw [← hshown] at hposted
  have howner := Presence.owner_of_nameOf? hname
  constructor
  · rw [hshown]
    rfl
  · intro m hm
    rw [hposted.group, Presence.group_setStatus, howner, if_neg]
    exact fun heq => hm (Option.some.inj heq).symm
  · rw [hposted.statusOf]
    rfl
  · intro d j hd _
    rw [hposted.waiting, Presence.waiting_setStatus, hd]
    simp only [Option.some.injEq, exists_eq_left']

/-! ## Coming and going -/

/-- A session whose player is still there after it has gone, or has no account, had no place in a
    group any more. -/
theorem WellFormed.nameOf?_ne_of_owner (hsingle : sys.Single)
    {d : Connection} {k : Name} (howner : sys.engine.presence.owners.find? d = some k)
    (hdone : (sys.engine.detached d).presence.isOnline k = true ∨ sys.engine.hasPlayer k = false)
    (m : Name) : sys.engine.presence.nameOf? d ≠ some m := by
  intro hd
  obtain rfl : k = m := Option.some.inj (howner.symm.trans (Presence.owner_of_nameOf? hd))
  rcases hdone with honline | hgone
  · have hrest := (h.engine.presence.detach d).isOnline_iff.1 honline
    obtain ⟨a, ha⟩ := List.exists_mem_of_ne_nil _ hrest
    rw [h.engine.presence.group_detach, Presence.mem_withoutConnections] at ha
    have hname := h.engine.presence.nameOf?_eq_some_iff.2
      (Presence.connection_mem_sessionsOf ha.1)
    apply ha.2
    rw [List.mem_singleton]
    exact hsingle a.connection d k hname hd
  · exact h.engine.presence.group_eq_nil_iff.1 (h.engine.group_eq_nil hgone) d hd

/-- A session that goes is its player's only one, so the friends are told; or it had no place any
    more. -/
theorem WellFormed.disconnect_spreads (hsingle : sys.Single) (d : Connection)
    (hrefusals : (sys.engine.disconnect d).refusals = sys.engine.refusals) :
    (∃ k, sys.engine.presence.owners.find? d = some k ∧
      Spreads sys (sys.disconnect d) k (.status k .disconnected)) ∨
    (∀ k, sys.engine.presence.nameOf? d ≠ some k) ∧
      (sys.disconnect d).engine.database.graph = sys.engine.database.graph ∧
      (∀ m, (sys.disconnect d).engine.presence.group m = sys.engine.presence.group m) ∧
      ∀ e, (sys.disconnect d).engine.presence.waiting e = sys.engine.presence.waiting e := by
  have hengine : (sys.disconnect d).engine = sys.engine.disconnect d := rfl
  rcases sys.engine.disconnect_cases d with
    ⟨hnone, heq⟩ | ⟨k, howner, ⟨hdone, heq⟩ | ⟨⟨hoffline, -⟩, heq⟩⟩
  · right
    rw [hengine, heq]
    refine ⟨fun k hd => ?_, rfl, fun _ => rfl, fun _ => rfl⟩
    cases hnone.symm.trans (Presence.owner_of_nameOf? hd)
  · right
    have hplace := h.nameOf?_ne_of_owner hsingle howner hdone
    rw [hengine, heq]
    refine ⟨hplace, rfl, fun m => ?_, Presence.waiting_detach _ d⟩
    exact h.engine.presence.group_detach_of_ne (hplace m)
  · left
    refine ⟨k, howner, ?_⟩
    rw [heq] at hengine hrefusals
    have hposted := (h.engine.detached d).broadcast_posted
      (hrefusals.trans (Presence.refusals_detach _ d).symm)
    rw [← hengine] at hposted
    constructor
    · rw [hengine]
      rfl
    · intro m hm
      rw [hposted.group]
      apply h.engine.presence.group_detach_of_ne
      intro hd
      exact hm (Option.some.inj ((Presence.owner_of_nameOf? hd).symm.trans howner))
    · rw [(h.engine.detached d).presence.isOnline_eq_false_iff] at hoffline
      rw [hposted.statusOf, Presence.statusOf_of_group_eq_nil hoffline]
      rfl
    · intro e j _ he
      rw [hposted.nameOf?] at he
      rw [hposted.waiting, he]
      simp only [Option.some.injEq, exists_eq_left']
      congr 1
      exact Presence.waiting_detach _ d e

theorem WellFormed.hears_disconnect (hsingle : sys.Single)
    {d : Connection} (hafter : (sys.disconnect d).WellFormed)
    (hrefusals : (sys.engine.disconnect d).refusals = sys.engine.refusals)
    (hc : (sys.disconnect d).engine.presence.nameOf? c = some n) :
    Hears sys (sys.disconnect d) c n := by
  obtain ⟨hbefore, -⟩ := h.engine.attached_of_disconnect hc
  have hsession : KeepsSession sys (sys.disconnect d) c n := h.keepsSession hbefore rfl
  rcases h.disconnect_spreads hsingle d hrefusals with
    ⟨k, -, hspreads⟩ | ⟨-, hgraph, hgroup, hwaiting⟩
  · exact hspreads.hears h hafter hbefore hc hsession
  · exact .of_silent h hafter hgraph hgroup hwaiting hc hsession

/-- The friends of a player get the probe of the session that comes. -/
theorem WellFormed.spreads_connect {k : Name} (hk : sys.engine.hasPlayer k = true)
    (hengine : sys'.engine = sys.engine.connected k)
    (hrefusals : sys'.engine.refusals = sys.engine.refusals) :
    Spreads sys sys' k (sys.engine.firstProbe k) := by
  rw [hengine] at hrefusals
  constructor
  · rw [hengine]
    rfl
  · intro m hm
    rw [hengine]
    exact h.engine.group_connected hk hrefusals hm
  · rw [hengine, (h.engine.connect_posted hk hrefusals).statusOf]
    rfl
  · intro d j hd hd'
    rw [hengine] at hd' ⊢
    rw [h.engine.waiting_connected hk hrefusals hd', if_neg]
    intro hnext
    rw [h.engine.presence.nameOf?_next (Nat.le_of_eq (congrArg Connection.number hnext).symm)] at hd
    cases hd

/-- The sessions that were there hear of the one that comes. -/
theorem WellFormed.hears_connect {k : Name} (hafter : sys'.WellFormed)
    (hk : sys.engine.hasPlayer k = true) (hengine : sys'.engine = sys.engine.connected k)
    (hsessions : sys'.sessions = sys.sessions.insert ⟨sys.engine.presence.arrivals⟩
      (.start ⟨sys.engine.presence.arrivals⟩ k))
    (hrefusals : sys'.engine.refusals = sys.engine.refusals)
    (hc : sys'.engine.presence.nameOf? c = some n) (hold : c ≠ ⟨sys.engine.presence.arrivals⟩) :
    Hears sys sys' c n := by
  have hnames := h.engine.nameOf?_connected hk (hengine ▸ hrefusals) c
  rw [← hengine, hc, if_neg hold] at hnames
  have hsession : KeepsSession sys sys' c n := by
    apply h.keepsSession hnames.symm
    rw [hsessions, Table.find?_insert, if_neg hold]
  exact (h.spreads_connect hk hengine hrefusals).hears h hafter hnames.symm hc hsession

/-- The first session of a player.  It probes the friends, and nobody has told it anything yet. -/
theorem WellFormed.comes_connect {k : Name} (hafter : sys'.WellFormed)
    (hk : sys.engine.hasPlayer k = true) (hoffline : sys.engine.presence.isOnline k = false)
    (hengine : sys'.engine = sys.engine.connected k)
    (hsessions : sys'.sessions = sys.sessions.insert ⟨sys.engine.presence.arrivals⟩
      (.start ⟨sys.engine.presence.arrivals⟩ k))
    (hrefusals : sys'.engine.refusals = sys.engine.refusals) :
    Comes sys' ⟨sys.engine.presence.arrivals⟩ k := by
  rw [hengine] at hrefusals
  have hnames := h.engine.nameOf?_connected hk hrefusals
  rw [← hengine] at hnames
  have hwaiting : ∀ d j, sys'.engine.presence.nameOf? d = some j →
      sys'.engine.presence.waiting d =
        (if d = ⟨sys.engine.presence.arrivals⟩ then [] else sys.engine.presence.waiting d) ++
          if j ∈ (sys.engine.database.graph.ties k).friends then [sys.engine.firstProbe k]
          else [] := by
    intro d j hd
    rw [hengine] at hd ⊢
    exact h.engine.waiting_connected hk hrefusals hd
  have hmine : sys'.sessions.find? ⟨sys.engine.presence.arrivals⟩ =
      some (.start ⟨sys.engine.presence.arrivals⟩ k) := by
    rw [hsessions, Table.find?_insert, if_pos rfl]
  have hempty : sys'.engine.presence.waiting ⟨sys.engine.presence.arrivals⟩ = [] := by
    rw [hwaiting _ k ((hnames _).trans (if_pos rfl)), if_pos rfl,
      if_neg (h.engine.graph.irreflexive k).1]
    rfl
  have hstrangers : ∀ m, sys'.Unfamiliar ⟨sys.engine.presence.arrivals⟩ m := by
    intro m
    refine ⟨⟨_, hmine, rfl⟩, ?_⟩
    rw [hempty]
    intro x hx
    cases hx
  refine ⟨⟨_, hmine, rfl⟩, ?_, hempty, hstrangers, ?_⟩
  · -- the player was away, so any other connection would have to stand under another name
    intro d hd
    rw [hnames] at hd
    split at hd
    · next hnew => exact hnew
    · rw [h.engine.presence.isOnline_eq_false_iff, h.engine.presence.group_eq_nil_iff] at hoffline
      exact absurd hd (hoffline d)
  · intro m hm
    apply hafter.knows_of_probes (hstrangers m)
    intro d hd
    rw [hafter.friends_comm, hafter.friends_iff, hengine] at hm
    have hfriend : m ∈ (sys.engine.database.graph.ties k).friends :=
      (h.engine.graph.friends m k).1 hm
    refine ⟨(sys.engine.attached k).presence.statusOf k, ?_⟩
    rw [hwaiting d m hd, if_pos hfriend]
    exact List.mem_append_right _ List.mem_cons_self

/-! ## Reading -/

/-- A session reads the first of the notices that wait for it.  If that is a friend's probe, the
    connection that asked gets the answer, unless it has gone. -/
structure Reads (sys sys' : System) (d : Connection) (s : Session) (x : Notice) (xs : List Notice)
    (news : Connection → List Notice) : Prop where
  graph : sys'.engine.database.graph = sys.engine.database.graph
  names : ∀ c, sys'.engine.presence.nameOf? c = sys.engine.presence.nameOf? c
  status : ∀ m, sys'.engine.presence.statusOf m = sys.engine.presence.statusOf m
  waiting : ∀ c, sys'.engine.presence.waiting c =
    (if c = d then xs else sys.engine.presence.waiting c) ++ news c
  answers : ∀ c, ∀ y ∈ news c, y = .status s.name (sys.engine.presence.statusOf s.name) ∧
    ∃ asker status, x = .probe asker status c ∧ sys.engine.presence.nameOf? c = some asker ∧
      sys.Friends s.name asker
  answered : ∀ c asker status, x = .probe asker status c →
    sys.engine.presence.nameOf? c = some asker → sys.Friends s.name asker →
    .status s.name (sys.engine.presence.statusOf s.name) ∈ news c

omit h in
/-- A notice that waits after somebody has read has waited before, or it is the answer. -/
theorem Reads.mem_waiting {d : Connection} {s : Session} {x : Notice} {xs : List Notice}
    {news : Connection → List Notice} (hreads : Reads sys sys' d s x xs news)
    (hwaiting : sys.engine.presence.waiting d = x :: xs) {c : Connection} {y : Notice}
    (hy : y ∈ sys'.engine.presence.waiting c) :
    y ∈ sys.engine.presence.waiting c ∨ y ∈ news c := by
  rw [hreads.waiting, List.mem_append] at hy
  refine hy.imp_left fun hy => ?_
  split at hy
  · next hcd =>
    rw [hcd, hwaiting]
    exact List.mem_cons_of_mem x hy
  · exact hy

theorem WellFormed.reads {d : Connection} {s : Session} {x : Notice} {xs : List Notice}
    {turn : Turn} (hwaiting : sys.engine.presence.waiting d = x :: xs)
    (hturn : turn = (sys.engine.leaving d xs).handleNotice s x)
    (hrefusals : turn.engine.refusals = sys.engine.refusals) :
    ∃ news, Reads sys (sys.keep turn).2 d s x xs news := by
  have hleft : ∀ c, (sys.engine.leaving d xs).presence.waiting c =
      if c = d then xs else sys.engine.presence.waiting c :=
    Presence.waiting_editBox hwaiting xs
  rcases (sys.engine.leaving d xs).handleNotice_cases s x with
    ⟨hnone, heq⟩ | ⟨asker, status, replyTo, rfl, hfriends, heq⟩
  · have hengine : (sys.keep turn).2.engine = sys.engine.leaving d xs := by
      rw [← heq, ← hturn]
      rfl
    refine ⟨fun _ => [], ?_, ?_, ?_, ?_, ?_, ?_⟩
    · rw [hengine]
      rfl
    · rw [hengine]
      exact fun _ => rfl
    · rw [hengine]
      exact fun _ => rfl
    · intro c
      rw [List.append_nil, hengine, hleft]
    · intro c y hy
      cases hy
    · intro c asker status hx _ hfriends
      exact absurd hfriends (hnone asker status c hx)
  · rw [← hturn] at heq
    subst heq
    have hposted := (h.leaving d xs).presence.sendTo_posted hrefusals
    refine ⟨fun c => if c = replyTo ∧ sys.engine.presence.nameOf? replyTo = some asker then
      [.status s.name (sys.engine.presence.statusOf s.name)] else [], rfl, hposted.nameOf?,
      hposted.statusOf, ?_, ?_, ?_⟩
    · intro c
      rw [← hleft]
      exact hposted.waiting c
    · intro c y hy
      split at hy
      · next hc =>
        obtain ⟨rfl, hasker⟩ := hc
        exact ⟨List.mem_singleton.1 hy, asker, status, rfl, hasker, hfriends⟩
      · cases hy
    · intro c _ _ hx hc _
      cases hx
      rw [if_pos ⟨rfl, hc⟩]
      exact List.mem_cons_self

/-- The session, if it is attached, reads the notice under the name it stands under and keeps it; a
    friend it would forget is none. -/
def ReadsInStep (sys : System) (d : Connection) (s : Session) (x : Notice) : Prop :=
  ∀ n, sys.engine.presence.nameOf? d = some n →
    s.name = n ∧ x.follow n = n ∧ ∀ old new, x = .renamed old new → ¬ sys.Friends n old

omit h in
theorem ReadsInStep.of_quiet {d : Connection} {s : Session} {x : Notice}
    (hname : ∀ n, sys.engine.presence.nameOf? d = some n → s.name = n)
    (hquiet : ∀ n, sys.engine.presence.nameOf? d = some n → x.isRenaming = false) :
    ReadsInStep sys d s x := by
  intro n hn
  refine ⟨hname n hn, Notice.follow_of_not_isRenaming (hquiet n hn) n, ?_⟩
  rintro old new rfl
  cases hquiet n hn

/-- A session that does not read hears at most the answer to its probe. -/
theorem WellFormed.hears_reads {d : Connection} {s : Session} {x : Notice} {xs : List Notice}
    {news : Connection → List Notice} (hinStep : ReadsInStep sys d s x)
    (hwaiting : sys.engine.presence.waiting d = x :: xs)
    (hreads : Reads sys sys' d s x xs news) (hsession : KeepsSession sys sys' c n)
    (hc : sys.engine.presence.nameOf? c = some n) (hcd : c ≠ d) : Hears sys sys' c n := by
  have hfriends : ∀ m, sys'.Friends n m ↔ sys.Friends n m := by
    intro m
    unfold Friends
    rw [hreads.graph]
  have hgrows : sys'.engine.presence.waiting c = sys.engine.presence.waiting c ++ news c := by
    rw [hreads.waiting, if_neg hcd]
  apply Hears.of_news hc hsession hgrows
  · intro y hy
    rw [(hreads.answers c y hy).1]
    rfl
  · intro y hy m t hreport
    obtain ⟨rfl, asker, _, -, hasker, hfriend⟩ := hreads.answers c y hy
    cases hreport
    obtain rfl : n = asker := Option.some.inj (hc.symm.trans hasker)
    exact ⟨Or.inl (h.friends_comm.1 hfriend), fun _ => (hreads.status s.name).symm⟩
  · intro m hm
    rw [hfriends] at hm
    by_cases hprobe : sys.engine.presence.nameOf? d = some m ∧ ∃ t, x = .probe n t c
    · -- the probe that was awaited is the one just read, and here is its answer
      obtain ⟨hd, t, rfl⟩ := hprobe
      obtain rfl := (hinStep m hd).1
      have hanswer := hreads.answered c n t rfl hc (h.friends_comm.1 hm)
      exact Or.inl ⟨_, hanswer, _, rfl⟩
    · refine Or.inr (Or.inr ⟨hm, hreads.status m, ?_⟩)
      rintro ⟨e, t, he, hmem⟩
      refine ⟨e, t, (hreads.names e).trans he, ?_⟩
      rw [hreads.waiting]
      apply List.mem_append_left
      by_cases hed : e = d
      · subst hed
        rw [if_pos rfl]
        rw [hwaiting, List.mem_cons] at hmem
        rcases hmem with hmem | hmem
        · exact absurd ⟨he, t, hmem.symm⟩ hprobe
        · exact hmem
      · rw [if_neg hed]
        exact hmem

/-- A session that reads thinks afterwards what it was going to think. -/
theorem WellFormed.hears_own {s s' : Session} {x : Notice} {xs : List Notice}
    {news : Connection → List Notice} (hinStep : ReadsInStep sys c s x)
    (hfind : sys.sessions.find? c = some s) (hwaiting : sys.engine.presence.waiting c = x :: xs)
    (hreads : Reads sys sys' c s x xs news) (hfind' : sys'.sessions.find? c = some s')
    (hname : s'.name = x.follow s.name)
    (hfriend : ∀ m, sys.Friends s.name m → s'.statusOf m = x.learned m (s.statusOf m))
    (hstranger : ∀ m, ¬ x.IsAbout m → s.statusOf m = .disconnected →
      s'.statusOf m = .disconnected)
    (hc : sys.engine.presence.nameOf? c = some n) : Hears sys sys' c n := by
  obtain ⟨rfl, hkeeps, -⟩ := hinStep n hc
  -- an answer goes to a friend, and nobody is a friend of oneself
  have hnone : news c = [] := by
    refine List.eq_nil_iff_forall_not_mem.2 fun y hy => ?_
    obtain ⟨-, asker, _, -, hasker, hfriends⟩ := hreads.answers c y hy
    cases hc.symm.trans hasker
    exact h.not_friends_self _ hfriends
  have hleft : sys'.engine.presence.waiting c = xs := by
    rw [hreads.waiting, hnone, if_pos rfl, List.append_nil]
  refine ⟨hc, ⟨s, s', hfind, hfind', fun _ => hname.trans hkeeps⟩, ?_, ?_, ?_⟩
  · intro y hy
    rw [hleft] at hy
    left
    rw [hwaiting]
    exact List.mem_cons_of_mem x hy
  · intro m _ _ hunfamiliar
    obtain ⟨⟨t, ht, hdisconnected⟩, hsilent⟩ := hunfamiliar
    cases hfind.symm.trans ht
    rw [hwaiting] at hsilent
    refine ⟨⟨s', hfind', hstranger m (hsilent x List.mem_cons_self) hdisconnected⟩, ?_⟩
    rw [hleft]
    exact fun y hy => hsilent y (List.mem_cons_of_mem x hy)
  · intro m hm
    have hbefore : sys.Friends s.name m := by
      unfold Friends at hm ⊢
      rwa [hreads.graph] at hm
    left
    refine ⟨hbefore, fun hknows => ?_⟩
    rcases hknows with hright | ⟨d, t, hd, hprobe⟩
    · left
      rw [hreads.status, ← hright]
      unfold System.belief?
      rw [hfind, hfind', hleft, hwaiting, Option.map_some, Option.map_some, hfriend m hbefore]
      rfl
    · right
      have hdc : d ≠ c := by
        rintro rfl
        cases hd.symm.trans hc
        exact h.not_friends_self _ hbefore
      refine ⟨d, t, (hreads.names d).trans hd, ?_⟩
      rw [hreads.waiting, if_neg hdc]
      exact List.mem_append_left _ hprobe

theorem WellFormed.hears_read {d : Connection} {s : Session} {x : Notice} {xs : List Notice}
    {turn : Turn} (hinStep : ReadsInStep sys d s x)
    (hfind : sys.sessions.find? d = some s) (hwaiting : sys.engine.presence.waiting d = x :: xs)
    (hturn : turn = (sys.engine.leaving d xs).handleNotice s x)
    (hrefusals : turn.engine.refusals = sys.engine.refusals)
    (hc : (sys.keep turn).2.engine.presence.nameOf? c = some n) :
    Hears sys (sys.keep turn).2 c n := by
  obtain ⟨news, hreads⟩ := h.reads hwaiting hturn hrefusals
  rw [hreads.names] at hc
  have hown : turn.session.connection = d := by
    rw [hturn, Engine.connection_handleNotice]
    exact h.own d s hfind
  have hsessions := sys.find?_keep turn c
  rw [hown] at hsessions
  by_cases hcd : c = d
  · subst hcd
    rw [if_pos rfl] at hsessions
    refine h.hears_own hinStep hfind hwaiting hreads hsessions ?_ ?_ ?_ hc
    · rw [hturn]
      exact Engine.name_handleNotice _ s x
    · intro m hm
      rw [hturn]
      refine Engine.statusOf_handleNotice _ (fun _ => hm) ?_
      rintro new rfl
      obtain ⟨rfl, -, hold⟩ := hinStep n hc
      exact hold m new rfl hm
    · intro m habout hdisconnected
      rw [hturn]
      rcases (sys.engine.leaving c xs).statusOf_handleNotice_cases s x m with
        hsame | hforgot | hreport
      · exact hsame.trans hdisconnected
      · exact hforgot
      · exact absurd ⟨_, hreport⟩ habout
  · rw [if_neg hcd] at hsessions
    have hsession := h.keepsSession hc hsessions
    exact h.hears_reads hinStep hwaiting hreads hsession hc hcd

end

end

end Amity.System
