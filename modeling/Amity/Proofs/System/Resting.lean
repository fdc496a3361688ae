/-
  Amity/Proofs/System/Resting.lean
  ================================
  **A renaming at rest shows nothing but the name.**  A system is at rest when nothing waits, every
  session has its name and every session is right about its friends.  Somebody takes another name,
  and everybody reads.  Then the system is at rest again, and every client sees what it saw, with the
  new name in the place of the old one.

  In between (`Settling`) what waits leads every session to its name and its friends' statuses.  A
  friend is told in three notices that the old name has gone, that the new one is there and that one
  has become the other; the last makes a session forget the old name, which is nobody's friend by
  then.  Reading keeps all this, whoever reads, and changes nothing that is stored or shown.
-/
import Amity.Proofs.System.Convergence
import Amity.Proofs.System.Moving

namespace Amity

/-! ## Snapshots under another name -/

/-- The snapshot with one name in the place of another. -/
def Snapshot.renamed (old new : Name) (v : Snapshot) : Snapshot where
  friends := v.friends.map fun f => (Ties.substitute old new f.1, f.2)
  sent := v.sent.map (Ties.substitute old new)
  received := v.received.map (Ties.substitute old new)

/-- The order of the friends depends on their statuses only. -/
theorem Snapshot.sortFriends_map (f : Name → Name) (fs : List (Name × Status)) :
    sortFriends (fs.map fun x => (f x.1, x.2)) = (sortFriends fs).map fun x => (f x.1, x.2) := by
  simp [sortFriends, List.filter_map, Function.comp_def]

/-- A session that has the same statuses for its friends under their new names shows the same. -/
theorem Session.snapshot_renamePeer {s s' : Session} {t : Ties} {old new : Name}
    (hstatus : ∀ n ∈ t.friends, s'.statusOf (Ties.substitute old new n) = s.statusOf n) :
    s'.snapshot (t.renamePeer old new) = (s.snapshot t).renamed old new := by
  have hfriends : (t.friends.map (Ties.substitute old new)).map (fun n => (n, s'.statusOf n)) =
      (t.friends.map fun n => (n, s.statusOf n)).map
        fun x => (Ties.substitute old new x.1, x.2) := by
    rw [List.map_map, List.map_map]
    refine List.map_congr_left fun n hn => ?_
    show (_, s'.statusOf _) = (_, s.statusOf n)
    rw [hstatus n hn]
  unfold snapshot Snapshot.renamed
  rw [← Snapshot.sortFriends_map, ← hfriends]
  rfl

theorem Engine.WellFormed.snapshot_eq {e : Engine} (h : e.WellFormed) (s : Session) :
    e.snapshot s = .ok (s.snapshot (e.database.graph.ties s.name)) := by
  unfold Engine.snapshot
  rw [Graph.load_eq_ties h.graph.canonical]
  rfl

/-- Who thinks the right thing, and is told nothing else, goes on to think it. -/
theorem Notice.belief_of_reports {m : Name} {t : Status} {xs : List Notice}
    (h : ∀ x ∈ xs, ∀ u, x.report? = some (m, u) → u = t) : belief m t xs = t := by
  by_cases hsome : ∃ x ∈ xs, x.IsAbout m
  · exact belief_of_isAbout hsome h
  · exact belief_of_not_isAbout fun x hx habout => hsome ⟨x, hx, habout⟩

namespace System

/-! ## Rest -/

/-- Every session is right about the friends of its player. -/
def Accurate (sys : System) : Prop :=
  ∀ c n m s, sys.engine.presence.nameOf? c = some n → sys.sessions.find? c = some s →
    sys.Friends n m → s.statusOf m = sys.engine.presence.statusOf m

/-- Nothing waits for anybody who is attached, every session has its name and is right about its
    friends. -/
structure AtRest (sys : System) : Prop where
  idle : sys.Idle
  named : sys.Named
  accurate : sys.Accurate

/-- It is enough to look at the connections that have come so far, and at the friends of each. -/
theorem WellFormed.atRest_of_arrived {sys : System} (h : sys.WellFormed)
    (harrived : ∀ i < sys.engine.presence.arrivals, sys.engine.presence.waiting ⟨i⟩ = [] ∧
      ∀ s ∈ sys.sessions.find? ⟨i⟩, sys.engine.presence.nameOf? ⟨i⟩ = some s.name ∧
        ∀ m ∈ (sys.engine.database.graph.ties s.name).friends,
          s.statusOf m = sys.engine.presence.statusOf m) : sys.AtRest := by
  have hplace {c : Connection} {n : Name} (hc : sys.engine.presence.nameOf? c = some n) :=
    harrived c.number (h.engine.presence.arrived_of_nameOf? hc)
  constructor
  · exact fun c n hc => (hplace hc).1
  · intro c n s hc hs
    obtain ⟨hname, -⟩ := (hplace hc).2 s hs
    exact Option.some.inj (hname.symm.trans hc)
  · intro c n m s hc hs hm
    obtain ⟨hname, hright⟩ := (hplace hc).2 s hs
    obtain rfl := Option.some.inj (hname.symm.trans hc)
    exact hright m (h.friends_iff.1 hm)

/-- What waits leads every attached session to rest: to the name it stands under, and to the statuses
    of its friends.  No probe is among it, and nobody is told to forget a friend. -/
structure Settling (sys : System) : Prop where
  inStep : ∀ c, sys.InStep c
  right : ∀ c n m, sys.engine.presence.nameOf? c = some n → sys.Friends n m →
    sys.belief? c m = some (sys.engine.presence.statusOf m)
  unasked : ∀ c n asker t r, sys.engine.presence.nameOf? c = some n →
    .probe asker t r ∉ sys.engine.presence.waiting c
  kept : ∀ c n old new, sys.engine.presence.nameOf? c = some n →
    .renamed old new ∈ sys.engine.presence.waiting c → ¬ sys.Friends n old

theorem Settling.atRest {sys : System} (h : sys.Settling) (hidle : sys.Idle) : sys.AtRest where
  idle := hidle
  named c n s hc hs := by
    have hheading := h.inStep c n hc
    unfold heading? at hheading
    rw [hs, hidle c n hc] at hheading
    exact Option.some.inj hheading
  accurate c n m s hc hs hm := by
    have hright := h.right c n m hc hm
    unfold belief? at hright
    rw [hs, hidle c n hc] at hright
    exact Option.some.inj hright

/-! ## Taking another name -/

/-- A session that is told that it has another name has taken it. -/
theorem Sound.moved_of_reply {sys : System} (h : sys.Sound) {b : Connection} {old new : Name}
    {text : String}
    (hreply : (sys.command b (.rename text)).map (·.1) = some (.renamed old new))
    (hrefusals : (sys.act (.command b (.rename text))).engine.refusals = sys.engine.refusals) :
    Moved sys (sys.act (.command b (.rename text))) b old new ∧
      ∀ n, n ≠ new → (sys.act (.command b (.rename text))).engine.database.graph.ties
        (Ties.substitute old new n) = (sys.engine.database.graph.ties n).renamePeer old new := by
  have hwell := h.wellFormed
  have hafter := hwell.act (.command b (.rename text))
  unfold System.command at hreply
  rw [Option.map_map, Option.map_eq_some_iff] at hreply
  obtain ⟨s, hs, hreply⟩ := hreply
  obtain rfl := hwell.own b s hs
  have hreply : (sys.engine.handleCommand s (.rename text)).reply = .renamed old new := hreply
  rw [act_command hs] at hafter hrefusals ⊢
  generalize hturn : sys.engine.handleCommand s (.rename text) = turn
    at hafter hrefusals hreply ⊢
  cases hb : sys.engine.presence.nameOf? s.connection with
  | none =>
    rw [Engine.handleCommand, hb] at hturn
    rw [← hturn] at hreply
    cases hreply
  | some k =>
    rw [hwell.engine.handleCommand_rename hb] at hturn
    rcases sys.engine.rename_cases (s.renamed k) text with
      heq | ⟨w, ties, database, -, hne, hrename, heq⟩
    · rw [← hturn, heq] at hreply
      cases hreply
    · rw [heq] at hturn
      rw [← hturn] at hreply
      cases hreply
      refine ⟨h.moved hs hb hne hrename hturn.symm hrefusals hafter, ?_⟩
      obtain ⟨-, -, hfree, -, -, -, hties, -⟩ := h.database.of_rename hrename
      have hgraph : (sys.keep turn).2.engine.database = database := by
        rw [← hturn]
        rfl
      rw [← hgraph] at hties
      exact (hwell.engine.graph.pairs_rename hafter.engine.graph hne
        (h.database.knows_eq_false hfree) hties).2.2

/-- What waits about renamings after one, when nothing waited before, is about that one. -/
theorem Moved.mem_waiting {sys sys' : System} {d : Connection} {old new : Name}
    (hmoved : Moved sys sys' d old new) (hidle : sys.Idle) {c : Connection} {n : Name}
    (hc : sys'.engine.presence.nameOf? c = some n) {x : Notice}
    (hx : x ∈ sys'.engine.presence.waiting c) : x ∈ sys.engine.renameNews d old new c := by
  rw [hmoved.names, Option.map_eq_some_iff] at hc
  obtain ⟨k, hk, -⟩ := hc
  rwa [hmoved.waiting, hidle c k hk, List.nil_append] at hx

theorem probe_not_mem_renameNews (e : Engine) (d : Connection) (old new : Name) (c : Connection)
    {asker : Name} {t : Status} {r : Connection} : .probe asker t r ∉ e.renameNews d old new c := by
  unfold Engine.renameNews
  split
  · simp
  · split
    · simp
    · split <;> simp

section

variable {sys sys' : System} {d : Connection} {old new : Name}
  (hmoved : Moved sys sys' d old new) (h : sys.Sound) (hrest : sys.AtRest)
include hmoved h hrest

/-- Everybody is going to know the friends: of the one who has another name it is told, and of the
    others nothing has changed. -/
theorem Moved.right_of_atRest {c : Connection} {n m : Name}
    (hc : sys'.engine.presence.nameOf? c = some n) (hm : sys'.Friends n m) :
    sys'.belief? c m = some (sys'.engine.presence.statusOf m) := by
  have hprobe : ¬ sys'.Awaits c n m := by
    rintro ⟨e, t, he, hprobe⟩
    exact probe_not_mem_renameNews _ _ _ _ _ (hmoved.mem_waiting hrest.idle he hprobe)
  have hright {k : Name} (hk : sys.engine.presence.nameOf? c = some k) (hfriend : sys.Friends k m) :
      sys.belief? c m = some (sys.engine.presence.statusOf m) := by
    obtain ⟨s, hs⟩ := h.wellFormed.present c k hk
    unfold belief?
    rw [hs, hrest.idle c k hk, Option.map_some]
    exact congrArg some (hrest.accurate c k m s hk hs hfriend)
  rw [hmoved.names, Option.map_eq_some_iff] at hc
  obtain ⟨k, hk, rfl⟩ := hc
  have hknew : k ≠ new :=
    Database.ne_of_hasPlayer (h.wellFormed.engine.players c k hk) hmoved.free
  by_cases hkold : k = old
  · -- a session of the player, who is no friend of his own
    subst hkold
    rw [Ties.substitute, if_pos rfl] at hm
    rcases hmoved.friend_before h hm (Or.inl ⟨rfl, rfl⟩) with
      ⟨hself, -⟩ | ⟨hfriend, hmold, hmnew⟩
    · exact absurd hself (h.wellFormed.not_friends_self k)
    · rw [hmoved.belief?_of_ne c hmold hmnew, hmoved.status, if_neg hmnew, if_neg hmold]
      exact hright hk hfriend
  · have hcd : c ≠ d := by
      rintro rfl
      exact hkold (Option.some.inj (hk.symm.trans hmoved.place))
    rw [Ties.substitute, if_neg hkold] at hm hprobe
    have hbefore := hmoved.knows_other h hcd hk hkold hknew hm
    have hknows : sys'.Knows c k m := by
      rcases hbefore with hknows | ⟨hfriend, -, hkeeps⟩
      · exact hknows
      · exact hkeeps (Or.inl (hright hk hfriend))
    exact hknows.resolve_right hprobe

theorem Moved.settling (hrefusals : sys'.engine.refusals = sys.engine.refusals)
    {text : String} (hact : sys' = sys.act (.command d (.rename text))) : sys'.Settling where
  inStep c := by
    intro n hc
    by_cases hcd : c = d
    · obtain ⟨s, -, hs'⟩ := hmoved.own
      have hplace := hmoved.place
      rw [hmoved.names, hcd, hplace, Option.map_some, Ties.substitute, if_pos rfl] at hc
      unfold heading?
      rw [hcd, hs', hmoved.waiting, hrest.idle d old hplace, hmoved.news_own h, ← hc]
      rfl
    · subst hact
      have hown := command_ne (Ne.symm hcd) (.rename text)
      refine (h.wellFormed.inStep_act_iff hrefusals hown hc).2 (Or.inl fun k hk => ?_) n hc
      obtain ⟨s, hs⟩ := h.wellFormed.present c k hk
      unfold heading?
      rw [hs, hrest.idle c k hk, ← hrest.named c k s hk hs]
      rfl
  right c n m hc hm := hmoved.right_of_atRest h hrest hc hm
  unasked c n asker t r hc hx :=
    probe_not_mem_renameNews _ _ _ _ _ (hmoved.mem_waiting hrest.idle hc hx)
  kept c n o w hc hx hfriends := by
    obtain ⟨rfl, -⟩ := names_of_renameNews (hmoved.mem_waiting hrest.idle hc hx)
    obtain ⟨i, j, -, -, hj⟩ := (hmoved.friends n o).1 hfriends
    exact Graph.substitute_ne hmoved.ne j hj

end

/-! ## Reading -/

/-- What is stored about ties has stayed, and everybody stands where he stood and shows what he
    showed. -/
structure Steady (sys sys' : System) : Prop where
  graph : sys'.engine.database.graph = sys.engine.database.graph
  names : ∀ c, sys'.engine.presence.nameOf? c = sys.engine.presence.nameOf? c
  status : ∀ m, sys'.engine.presence.statusOf m = sys.engine.presence.statusOf m

theorem Steady.refl (sys : System) : Steady sys sys := ⟨rfl, fun _ => rfl, fun _ => rfl⟩

theorem Steady.trans {sys mid sys' : System} (h : Steady sys mid) (h' : Steady mid sys') :
    Steady sys sys' where
  graph := h'.graph.trans h.graph
  names c := (h'.names c).trans (h.names c)
  status m := (h'.status m).trans (h.status m)

section

variable {sys : System} (h : sys.WellFormed) (hsettling : sys.Settling)
include h hsettling

/-- Whoever reads, an answer that it gives is right, and so is what it makes of what it reads. -/
theorem Settling.right_read {d : Connection} {s : Session} {x : Notice} {xs : List Notice}
    {turn : Turn} {news : Connection → List Notice} (hfind : sys.sessions.find? d = some s)
    (hwaiting : sys.engine.presence.waiting d = x :: xs)
    (hturn : turn = (sys.engine.leaving d xs).handleNotice s x)
    (hreads : Reads sys (sys.keep turn).2 d s x xs news) {c : Connection} {n m : Name}
    (hc : sys.engine.presence.nameOf? c = some n) (hm : sys.Friends n m) :
    (sys.keep turn).2.belief? c m = some (sys.engine.presence.statusOf m) := by
  have hright := hsettling.right c n m hc hm
  have hanswers : ∀ y ∈ news c, ∀ u, y.report? = some (m, u) →
      u = sys.engine.presence.statusOf m := by
    intro y hy u hreport
    rw [(hreads.answers c y hy).1] at hreport
    cases hreport
    rfl
  have hsession : (sys.keep turn).2.sessions.find? c =
      if c = d then some turn.session else sys.sessions.find? c := by
    rw [find?_keep, hturn, Engine.connection_handleNotice, h.own d s hfind]
  unfold belief? at hright ⊢
  rw [hsession, hreads.waiting]
  by_cases hcd : c = d
  · subst hcd
    have hlearned : turn.session.statusOf m = x.learned m (s.statusOf m) := by
      rw [hturn]
      apply Engine.statusOf_handleNotice_of_probe
      · rintro t r rfl
        exact absurd (hwaiting ▸ List.mem_cons_self) (hsettling.unasked c n m t r hc)
      · rintro w rfl
        exact hsettling.kept c n m w hc (hwaiting ▸ List.mem_cons_self) hm
    rw [hfind, hwaiting] at hright
    have hright : Notice.belief m (x.learned m (s.statusOf m)) xs = _ := Option.some.inj hright
    rw [if_pos rfl, if_pos rfl, Option.map_some, Notice.belief_append, hlearned, hright,
      Notice.belief_of_reports hanswers]
  · obtain ⟨t, ht⟩ := h.present c n hc
    rw [ht] at hright
    have hright : Notice.belief m (t.statusOf m) (sys.engine.presence.waiting c) = _ :=
      Option.some.inj hright
    rw [if_neg hcd, if_neg hcd, ht, Option.map_some, Notice.belief_append, hright,
      Notice.belief_of_reports hanswers]

theorem Settling.read (d : Connection)
    (hrefusals : (sys.act (.read d)).engine.refusals = sys.engine.refusals) :
    (sys.act (.read d)).Settling ∧ Steady sys (sys.act (.read d)) := by
  have hinStep : ∀ c, (sys.act (.read d)).InStep c := by
    intro c n hc
    have hown : ∀ command, Action.read d ≠ .command c command := by
      rintro command ⟨⟩
    exact (h.inStep_act_iff hrefusals hown hc).2 (Or.inl (hsettling.inStep c)) n hc
  rcases sys.act_read_cases d with heq | ⟨s, x, xs, hfind, hwaiting, heq⟩
  · rw [heq]
    exact ⟨hsettling, .refl sys⟩
  rw [heq] at hrefusals hinStep ⊢
  obtain ⟨news, hreads⟩ := h.reads hwaiting rfl hrefusals
  have hmem {c : Connection} {y : Notice} (hy : y ∈ (sys.keep
      ((sys.engine.leaving d xs).handleNotice s x)).2.engine.presence.waiting c) :
      y ∈ sys.engine.presence.waiting c ∨
        y = .status s.name (sys.engine.presence.statusOf s.name) :=
    (hreads.mem_waiting hwaiting hy).imp_right fun hy => (hreads.answers c y hy).1
  refine ⟨⟨hinStep, ?_, ?_, ?_⟩, hreads.graph, hreads.names, hreads.status⟩
  · intro c n m hc hm
    rw [hreads.names] at hc
    unfold Friends at hm
    rw [hreads.graph] at hm
    rw [hreads.status]
    exact hsettling.right_read h hfind hwaiting rfl hreads hc hm
  · intro c n asker t r hc hx
    rw [hreads.names] at hc
    rcases hmem hx with hx | hx
    · exact hsettling.unasked c n asker t r hc hx
    · cases hx
  · intro c n old new hc hx hfriends
    rw [hreads.names] at hc
    unfold Friends at hfriends
    rw [hreads.graph] at hfriends
    rcases hmem hx with hx | hx
    · exact hsettling.kept c n old new hc hx hfriends
    · cases hx

/-- So they read in any order. -/
theorem Settling.reading (cs : List Connection)
    (hrefusals : (sys.after (cs.map .read)).engine.refusals = sys.engine.refusals) :
    (sys.after (cs.map .read)).Settling ∧ Steady sys (sys.after (cs.map .read)) := by
  induction cs generalizing sys with
  | nil => exact ⟨hsettling, .refl sys⟩
  | cons d cs ih =>
    obtain ⟨hnone, hlater⟩ := sys.refusals_of_cons (.read d) (cs.map .read) hrefusals
    obtain ⟨hread, hsteady⟩ := hsettling.read h d hnone
    obtain ⟨hlast, hsteadily⟩ := ih (h.act (.read d)) hread hlater
    exact ⟨hlast, hsteady.trans hsteadily⟩

end

/-! ## Both -/

/-- Of a system at rest only a name has changed: everybody stands under the new name who stood under
    the old one, the system is at rest, and every client sees what it saw but for the name. -/
structure OnlyRenamed (sys sys' : System) (old new : Name) : Prop where
  names : ∀ c, sys'.engine.presence.nameOf? c =
    (sys.engine.presence.nameOf? c).map (Ties.substitute old new)
  atRest : sys'.AtRest
  snapshots : ∀ c n, sys.engine.presence.nameOf? c = some n →
    ∃ s s' v, sys.sessions.find? c = some s ∧ sys'.sessions.find? c = some s' ∧
      sys.engine.snapshot s = .ok v ∧ sys'.engine.snapshot s' = .ok (v.renamed old new)

theorem Sound.onlyRenamed {sys : System} (h : sys.Sound) (hrest : sys.AtRest) {b : Connection}
    {old new : Name} {text : String} {cs : List Connection}
    (hreply : (sys.command b (.rename text)).map (·.1) = some (.renamed old new))
    (hrefusals : (sys.after (.command b (.rename text) :: cs.map .read)).engine.refusals =
      sys.engine.refusals)
    (hidle : (sys.after (.command b (.rename text) :: cs.map .read)).Idle) :
    OnlyRenamed sys (sys.after (.command b (.rename text) :: cs.map .read)) old new := by
  have hwell := h.wellFormed
  have hsplit : sys.after (.command b (.rename text) :: cs.map .read) =
      (sys.act (.command b (.rename text))).after (cs.map .read) := rfl
  obtain ⟨hnone, hreaders⟩ := sys.refusals_of_cons _ _ hrefusals
  rw [hsplit] at hidle ⊢
  obtain ⟨hmoved, hties⟩ := h.moved_of_reply hreply hnone
  have hafter := hwell.act (.command b (.rename text))
  obtain ⟨hlast, hsteady⟩ := (hmoved.settling h hrest hnone rfl).reading hafter cs hreaders
  have hend := hafter.after (cs.map .read)
  have hnames : ∀ c, ((sys.act (.command b (.rename text))).after
      (cs.map .read)).engine.presence.nameOf? c =
        (sys.engine.presence.nameOf? c).map (Ties.substitute old new) := by
    intro c
    rw [hsteady.names, hmoved.names]
  refine ⟨hnames, hlast.atRest hidle, fun c n hc => ?_⟩
  have hc' := hnames c
  rw [hc, Option.map_some] at hc'
  obtain ⟨s, hs⟩ := hwell.present c n hc
  obtain ⟨s', hs'⟩ := hend.present c _ hc'
  obtain rfl := hrest.named c n s hc hs
  have hs'name := (hlast.atRest hidle).named c _ s' hc' hs'
  have hnew : s.name ≠ new :=
    Database.ne_of_hasPlayer (hwell.engine.players c s.name hc) hmoved.free
  refine ⟨s, s', _, hs, hs', hwell.engine.snapshot_eq s, ?_⟩
  rw [hend.engine.snapshot_eq, hs'name, hsteady.graph, hties s.name hnew]
  refine congrArg Except.ok (Session.snapshot_renamePeer fun m hm => ?_)
  have hfriend : sys.Friends s.name m := hwell.friends_iff.2 hm
  have hmnew : m ≠ new := Database.ne_of_hasPlayer
    (h.database.hasPlayer_of_mem_peers (Ties.mem_peers.2 (Or.inl hm))) hmoved.free
  have hfriend' : ((sys.act (.command b (.rename text))).after (cs.map .read)).Friends
      (Ties.substitute old new s.name) (Ties.substitute old new m) := by
    unfold Friends
    rw [hsteady.graph]
    exact (hmoved.friends _ _).2 ⟨s.name, m, hfriend, rfl, rfl⟩
  rw [(hlast.atRest hidle).accurate c _ _ s' hc' hs' hfriend',
    hrest.accurate c s.name m s hc hs hfriend, hsteady.status, hmoved.status]
  unfold Ties.substitute
  by_cases hmold : m = old
  · rw [if_pos hmold, if_pos rfl, hmold]
  · rw [if_neg hmold, if_neg hmnew, if_neg hmold]

/-- **A renaming at rest shows nothing but the name**, after whatever came from outside and whoever
    takes another name: when everything has been read, in any order and without a refusal, the
    system is at rest again and every client sees what it saw, with the new name in the place of the
    old one. -/
theorem onlyRenamed_run (capacity : Nat) (is : List Input) (b : Connection) (old new : Name)
    (text : String) (cs : List Connection) (hrest : ((start .empty capacity).run is).AtRest)
    (hreply : (((start .empty capacity).run is).command b (.rename text)).map (·.1) =
      some (.renamed old new))
    (hrefusals : (((start .empty capacity).run is).after
        (.command b (.rename text) :: cs.map .read)).engine.refusals =
      ((start .empty capacity).run is).engine.refusals)
    (hidle : (((start .empty capacity).run is).after
      (.command b (.rename text) :: cs.map .read)).Idle) :
    OnlyRenamed ((start .empty capacity).run is)
      (((start .empty capacity).run is).after (.command b (.rename text) :: cs.map .read))
      old new :=
  ((sound_start capacity).run is).onlyRenamed hrest hreply hrefusals hidle

/-! ### A friend, a sibling and somebody who has asked

A player with two sessions has a friend who is in a game, and has been asked by a third player. -/

/-- A player has a friend, another session and a request, and everything has been read. -/
def befriendedTwice : List Input :=
  [.action (.create ⟨"q", Name.isValid_q⟩), .action (.create ⟨"r", Name.isValid_r⟩),
    .action (.create ⟨"s", Name.isValid_s⟩), .action (.connect ⟨"q", Name.isValid_q⟩),
    .action (.connect ⟨"r", Name.isValid_r⟩), .action (.connect ⟨"s", Name.isValid_s⟩),
    .action (.command ⟨0⟩ (.request "r")), .action (.read ⟨1⟩),
    .action (.command ⟨1⟩ (.accept "q")), .action (.read ⟨0⟩), .action (.read ⟨0⟩),
    .action (.read ⟨1⟩), .action (.command ⟨2⟩ (.request "q")), .action (.read ⟨0⟩),
    .action (.connect ⟨"q", Name.isValid_q⟩), .action (.read ⟨1⟩), .action (.read ⟨3⟩),
    .action (.command ⟨1⟩ .enterGame), .action (.read ⟨0⟩), .action (.read ⟨3⟩)]

/-- The friend reads three notices, the other session and the third player one each. -/
def afterRenaming : List Connection := [⟨1⟩, ⟨3⟩, ⟨1⟩, ⟨2⟩, ⟨1⟩]

theorem atRest_befriendedTwice : ((start .empty 64).run befriendedTwice).AtRest :=
  ((sound_start 64).run befriendedTwice).wellFormed.atRest_of_arrived (by decide +kernel)

theorem onlyRenamed_run_befriendedTwice : OnlyRenamed ((start .empty 64).run befriendedTwice)
    (((start .empty 64).run befriendedTwice).after
      (.command ⟨0⟩ (.rename "u") :: afterRenaming.map .read))
    ⟨"q", by decide⟩ ⟨"u", by decide⟩ :=
  onlyRenamed_run 64 befriendedTwice ⟨0⟩ ⟨"q", by decide⟩ ⟨"u", by decide⟩ "u" afterRenaming
    atRest_befriendedTwice (by decide +kernel) (by decide +kernel)
    ((((sound_start 64).run befriendedTwice).after _).wellFormed.idle_of_arrived
      (by decide +kernel))

end System

end Amity
