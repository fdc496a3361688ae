/-
  Amity/Proofs/System/Strangers.lean
  ==================================
  **Nobody but friends is remembered.**  A session that has read all that waited for it takes
  everybody who is no friend of its player for gone, with one exception (`PartedEarly`): it ended the
  friendship itself while a notice of the friend's status still waited for it.  It forgets the friend
  at once, and then reads the old notice.

  While friendships end, the sessions that are told lose what they knew with a notice that comes
  after all others, so the order of a mailbox does the work: the last notice that speaks of a
  stranger says that the stranger is gone (`Settled`).  A mailbox that a session has not read when
  it forgets has no such last notice.

  Once a session takes a player for gone, nothing but the player's coming back changes this
  (`TakesForGone`), friends or not.
-/
import Amity.Proofs.Listing
import Amity.Proofs.System.Announcing
import Amity.Proofs.System.Parting

namespace Amity

namespace Notice

/-! ## The last word on a player -/

/-- Whether a player is taken for gone after one more notice, if `b` says so before.  A probe never
    makes sure of it: its reader may not take it in. -/
def settled (m : Name) (b : Bool) (x : Notice) : Bool :=
  match x.report? with
  | some (n, _) => if n = m then decide (x.Clears m) else b
  | none => b

/-- Whether the last of the notices that speak of a player says that the player is gone; `b` stands
    for what is so before them. -/
def settles (m : Name) (b : Bool) (xs : List Notice) : Bool := xs.foldl (settled m) b

section

variable {m : Name} {b b' : Bool} {x : Notice} {xs ys : List Notice}

theorem settled_of_isAbout (h : x.IsAbout m) : settled m b x = decide (x.Clears m) := by
  obtain ⟨t, hreport⟩ := h
  unfold settled
  rw [hreport]
  exact if_pos rfl

theorem settled_of_not_isAbout (h : ¬ x.IsAbout m) : settled m b x = b := by
  unfold settled
  split
  · next n t hreport =>
    refine if_neg ?_
    rintro rfl
    exact h ⟨t, hreport⟩
  · rfl

theorem Clears.isAbout (h : x.Clears m) : x.IsAbout m := by
  rcases h with rfl | rfl
  · exact ⟨_, rfl⟩
  · exact ⟨_, rfl⟩

theorem settles_append : settles m b (xs ++ ys) = settles m (settles m b xs) ys :=
  List.foldl_append

theorem settles_mono (hb : b = true → b' = true) (h : settles m b xs = true) :
    settles m b' xs = true := by
  induction xs generalizing b b' with
  | nil => exact hb h
  | cons x xs ih =>
    refine ih ?_ h
    by_cases hx : x.IsAbout m
    · rw [settled_of_isAbout hx, settled_of_isAbout hx]
      exact id
    · rwa [settled_of_not_isAbout hx, settled_of_not_isAbout hx]

/-- Nothing but that the player is gone is said. -/
theorem settles_of_clears (hb : b = true) (h : ∀ x ∈ xs, x.IsAbout m → x.Clears m) :
    settles m b xs = true := by
  induction xs generalizing b with
  | nil => exact hb
  | cons x xs ih =>
    refine ih ?_ fun y hy => h y (List.mem_cons_of_mem x hy)
    by_cases hx : x.IsAbout m
    · rw [settled_of_isAbout hx]
      exact decide_eq_true (h x List.mem_cons_self hx)
    · rwa [settled_of_not_isAbout hx]

/-- That the player is gone is said, and nothing else. -/
theorem settles_of_mem (hmem : ∃ x ∈ xs, x.Clears m) (h : ∀ x ∈ xs, x.IsAbout m → x.Clears m) :
    settles m b xs = true := by
  obtain ⟨x, hx, hclears⟩ := hmem
  obtain ⟨earlier, later, rfl⟩ := List.append_of_mem hx
  rw [settles_append]
  refine settles_of_clears (b := settled m (settles m b earlier) x) ?_ fun y hy => ?_
  · rw [settled_of_isAbout hclears.isAbout]
    exact decide_eq_true hclears
  · exact h y (List.mem_append_right _ (List.mem_cons_of_mem x hy))

end

end Notice

theorem Engine.statusOf_of_clears (e : Engine) (s : Session) {x : Notice} {m : Name}
    (h : x.Clears m) : (e.handleNotice s x).session.statusOf m = .disconnected := by
  have hlearn : (s.learn m .disconnected).statusOf m = .disconnected := by
    rw [Session.statusOf_learn, if_pos rfl]
  rcases h with rfl | rfl
  · exact hlearn
  · exact hlearn

/-- Whoever reads the last word on a player has it. -/
theorem Engine.statusOf_of_settled (e : Engine) {s : Session} {x : Notice} {m : Name}
    (h : Notice.settled m (decide (s.statusOf m = .disconnected)) x = true) :
    (e.handleNotice s x).session.statusOf m = .disconnected := by
  by_cases hx : x.IsAbout m
  · rw [Notice.settled_of_isAbout hx, decide_eq_true_eq] at h
    exact e.statusOf_of_clears s h
  · rw [Notice.settled_of_not_isAbout hx, decide_eq_true_eq] at h
    rcases e.statusOf_handleNotice_cases s x m with hsame | hgone | hreport
    · exact hsame.trans h
    · exact hgone
    · exact absurd ⟨_, hreport⟩ hx

/-- A command changes what a session knows only by forgetting. -/
theorem Engine.Performs.statusOf {e : Engine} {s : Session} {command : Command} {turn : Turn}
    (hturn : e.Performs s command turn) (m : Name) :
    turn.session.statusOf m = s.statusOf m ∨ turn.session.statusOf m = .disconnected := by
  cases hturn with
  | ties _ hasks =>
    cases hasks with
    | remove =>
      show (s.forget _).statusOf m = _ ∨ (s.forget _).statusOf m = _
      rw [Session.statusOf_forget]
      split
      · exact Or.inr rfl
      · exact Or.inl rfl
    | request | cancel | accept | refuse => exact Or.inl rfl
  | nothing | rename | delete | status => exact Or.inl rfl

theorem Engine.statusOf_handleCommand (e : Engine) (s : Session) (command : Command) (m : Name) :
    (e.handleCommand s command).session.statusOf m = s.statusOf m ∨
      (e.handleCommand s command).session.statusOf m = .disconnected := by
  rcases e.handleCommand_cases s command with ⟨-, heq⟩ | ⟨n, -, ⟨-, heq⟩ | ⟨-, hturn⟩⟩
  · rw [heq]
    exact Or.inl rfl
  · rw [heq]
    exact Or.inl rfl
  · exact hturn.statusOf m

namespace System

/-! ## Sessions and strangers -/

/-- When the session has read all that waits for it, it takes the player for gone. -/
def Settled (sys : System) (c : Connection) (m : Name) : Prop :=
  ∃ s, sys.sessions.find? c = some s ∧
    Notice.settles m (decide (s.statusOf m = .disconnected)) (sys.engine.presence.waiting c) = true

/-- The session ends its player's friendship while the last that waits for it of the friend does not
    say that the friend is gone. -/
structure PartsUnread (sys : System) (a : Action) (c : Connection) (m : Name) : Prop where
  asks : ∃ t, a = .command c (.remove t)
  friends : ∃ k, sys.engine.presence.nameOf? c = some k ∧ sys.Friends k m
  unread : Notice.settles m true (sys.engine.presence.waiting c) = false

/-- The player of the session is no friend. -/
def Strange (sys : System) (c : Connection) (m : Name) : Prop :=
  ∀ n, sys.engine.presence.nameOf? c = some n → ¬ sys.Friends n m

section

variable {sys sys' : System} {a : Action} {c : Connection} {m : Name}

/-- A session that would take a stranger for gone still does, and so does one whose player has lost
    a friend, unless it has ended the friendship too early. -/
def KeepsSettled (sys sys' : System) (a : Action) (c : Connection) (m : Name) : Prop :=
  sys'.Settled c m ∨ sys.PartsUnread a c m ∨ sys.Strange c m ∧ ¬ sys.Settled c m

/-- What a step does to a session that stays. -/
theorem WellFormed.settled_of_tells (h : sys.WellFormed) (h' : sys'.WellFormed)
    {left : Connection → List Notice} {asking : Option Connection}
    (htells : sys.engine.TellsParting left asking sys'.engine) {k n : Name}
    (hk : sys.engine.presence.nameOf? c = some k) (hn : sys'.engine.presence.nameOf? c = some n)
    (hm : ¬ sys'.Friends n m) {s' : Session} (hs' : sys'.sessions.find? c = some s')
    (hread : sys.Settled c m →
      Notice.settles m (decide (s'.statusOf m = .disconnected)) (left c) = true)
    (hown : asking = some c → sys.Friends k m → sys.PartsUnread a c m ∨
      Notice.settles m (decide (s'.statusOf m = .disconnected)) (left c) = true) :
    KeepsSettled sys sys' a c m := by
  obtain ⟨news, hwaiting, hfits⟩ := htells c k n hk hn
  rw [h'.friends_iff_mem_friendships] at hm
  have hsays := hfits.strangers m hm
  have hsettled {b : Bool} (hb : Notice.settles m b (left c) = true) :
      Notice.settles m b (sys'.engine.presence.waiting c) = true := by
    rw [hwaiting, Notice.settles_append]
    exact Notice.settles_of_clears hb hsays
  by_cases hfriend : sys.Friends k m
  · by_cases hasking : asking = some c
    · rcases hown hasking hfriend with hunread | hleft
      · exact Or.inr (Or.inl hunread)
      · exact Or.inl ⟨s', hs', hsettled hleft⟩
    · left
      have htold := hfits.parted m ⟨hasking, h.friends_iff_mem_friendships.1 hfriend⟩ hm
      refine ⟨s', hs', ?_⟩
      rw [hwaiting, Notice.settles_append]
      exact Notice.settles_of_mem htold hsays
  · by_cases hbefore : sys.Settled c m
    · exact Or.inl ⟨s', hs', hsettled (hread hbefore)⟩
    · refine Or.inr (Or.inr ⟨?_, hbefore⟩)
      intro j hj hfriends
      cases hk.symm.trans hj
      exact hfriend hfriends

/-! ### Steps -/

/-- A step in which the session neither reads nor asks for anything. -/
theorem WellFormed.keepsSettled (h : sys.WellFormed) (h' : sys'.WellFormed)
    {left : Connection → List Notice} {asking : Option Connection}
    (htells : sys.engine.TellsParting left asking sys'.engine) (hasking : asking ≠ some c)
    (hleft : left c = sys.engine.presence.waiting c)
    (hsame : sys'.sessions.find? c = sys.sessions.find? c) {k n : Name}
    (hk : sys.engine.presence.nameOf? c = some k) (hn : sys'.engine.presence.nameOf? c = some n)
    (hm : ¬ sys'.Friends n m) : KeepsSettled sys sys' a c m := by
  obtain ⟨s, hs⟩ := h.present c k hk
  refine h.settled_of_tells h' htells hk hn hm (hsame.trans hs) ?_ fun hself => absurd hself hasking
  rintro ⟨s', hs', hbefore⟩
  cases hs.symm.trans hs'
  rwa [hleft]

/-- A step in which nobody has part. -/
theorem WellFormed.keepsSettled_same (h : sys.WellFormed) (h' : sys'.WellFormed)
    (hpresence : sys'.engine.presence = sys.engine.presence)
    (hgraph : sys'.engine.database.graph = sys.engine.database.graph)
    (hsame : sys'.sessions = sys.sessions) {k n : Name}
    (hk : sys.engine.presence.nameOf? c = some k) (hn : sys'.engine.presence.nameOf? c = some n)
    (hm : ¬ sys'.Friends n m) : KeepsSettled sys sys' a c m := by
  have htells : sys.engine.TellsParting sys.engine.presence.waiting none sys'.engine := by
    refine .of_waiting hgraph ?_ ?_
    · intro d j i hj hi
      rw [hpresence] at hi
      exact Option.some.inj (hj.symm.trans hi)
    · intro d
      rw [hpresence]
  exact h.keepsSettled h' htells nofun rfl (by rw [hsame]) hk hn hm

/-- A session that comes has no friends to lose, and nothing waits for it. -/
theorem WellFormed.settled_connected (h : sys.WellFormed) {j : Name}
    (hj : sys.engine.hasPlayer j = true) (hengine : sys'.engine = sys.engine.connected j)
    (hsessions : sys'.sessions = sys.sessions.insert ⟨sys.engine.presence.arrivals⟩
      (.start ⟨sys.engine.presence.arrivals⟩ j))
    (hn : ∃ n, sys'.engine.presence.nameOf? ⟨sys.engine.presence.arrivals⟩ = some n) :
    sys'.Settled ⟨sys.engine.presence.arrivals⟩ m := by
  obtain ⟨n, hn⟩ := hn
  rw [hengine] at hn
  have hattached := h.engine.attached hj
  have hconnected : (sys.engine.connected j).WellFormed := hattached.notifyAll _
  obtain ⟨hc, hwaiting⟩ := (h.engine.connect_delivered hj).waiting_of_nameOf? hattached.presence
    hconnected.presence hn
  have hown := h.engine.presence.nameOf?_attach j sys.engine.capacity
    ⟨sys.engine.presence.arrivals⟩
  rw [if_pos rfl] at hown
  have hnone : (sys.engine.connected j).presence.waiting ⟨sys.engine.presence.arrivals⟩ = [] := by
    rw [hwaiting, if_neg]
    · refine (List.append_nil _).trans ?_
      exact (Presence.waiting_attach _ _ _ _).trans (if_pos rfl)
    · rintro ⟨k, hk, hfriend⟩
      cases hk.symm.trans hown
      exact (h.engine.graph.irreflexive j).1 hfriend
  refine ⟨.start ⟨sys.engine.presence.arrivals⟩ j, ?_, ?_⟩
  · rw [hsessions, Table.find?_insert, if_pos rfl]
  · rw [hengine, hnone]
    rfl

theorem WellFormed.forgot_of_endsFriendship (h : sys.WellFormed) {s : Session} {command : Command}
    {target k n : Name} {turn : Turn} (hafter : (sys.keep turn).2.WellFormed)
    (hk : sys.engine.presence.nameOf? c = some k)
    (hends : sys.engine.EndsFriendship (s.renamed k) command target turn) (hm : sys.Friends k m)
    (hn : (sys.keep turn).2.engine.presence.nameOf? c = some n)
    (hparted : ¬ (sys.keep turn).2.Friends n m) : turn.session.statusOf m = .disconnected := by
  obtain rfl : k = n := Option.some.inj (hk.symm.trans (hends.names c n hn))
  rw [h.friends_iff_mem_friendships] at hm
  have hpair : s(k, m) = s(k, target) := by
    by_contra hother
    refine hparted (hafter.friends_iff_mem_friendships.2 ?_)
    show s(k, m) ∈ turn.engine.database.graph.friendships
    rw [hends.friendships]
    exact ⟨hm, hother⟩
  rw [hends.forgets, Session.statusOf_forget, if_pos (Sym2.congr_right.1 hpair)]

/-- The session that ends a friendship forgets the friend, but not what waits for it. -/
theorem Sound.keepsSettled_command (h : sys.Sound) {d : Connection} {s : Session}
    {command : Command} (hs : sys.sessions.find? d = some s) {turn : Turn}
    (hturn : turn = sys.engine.handleCommand s command) (hafter : (sys.keep turn).2.WellFormed)
    {k n : Name} (hk : sys.engine.presence.nameOf? c = some k)
    (hn : (sys.keep turn).2.engine.presence.nameOf? c = some n)
    (hm : ¬ (sys.keep turn).2.Friends n m) :
    KeepsSettled sys (sys.keep turn).2 (.command d command) c m := by
  have hwell := h.wellFormed
  obtain rfl := hwell.own d s hs
  have hconnection : turn.session.connection = s.connection := by
    rw [hturn, Engine.connection_handleCommand]
  have hfind := find?_keep sys turn c
  rw [hconnection] at hfind
  have htells := hwell.engine.tellsParting_handleCommand h.database s command
  rw [← hturn] at htells
  by_cases hcs : c = s.connection
  · subst hcs
    rw [if_pos rfl] at hfind
    have hstatus := sys.engine.statusOf_handleCommand s command m
    rw [← hturn] at hstatus
    have hread : sys.Settled s.connection m →
        Notice.settles m (decide (turn.session.statusOf m = .disconnected))
          (sys.engine.presence.waiting s.connection) = true := by
      rintro ⟨s', hs', hbefore⟩
      cases hs.symm.trans hs'
      refine Notice.settles_mono (fun hgone => ?_) hbefore
      rw [decide_eq_true_eq] at hgone ⊢
      rcases hstatus with hsame | hgone'
      · exact hsame.trans hgone
      · exact hgone'
    rcases htells with htells | ⟨htells, j, target, hj, hends⟩
    · exact hwell.settled_of_tells hafter htells hk hn hm hfind hread nofun
    · refine hwell.settled_of_tells hafter htells hk hn hm hfind hread fun _ hfriends => ?_
      cases hk.symm.trans hj
      by_cases hunread : Notice.settles m true (sys.engine.presence.waiting s.connection) = true
      · right
        rwa [decide_eq_true (hwell.forgot_of_endsFriendship hafter hk hends hfriends hn hm)]
      · left
        obtain ⟨t, rfl⟩ := hends.asks
        exact ⟨⟨t, rfl⟩, ⟨k, hk, hfriends⟩, Bool.eq_false_iff.2 hunread⟩
  · rw [if_neg hcs] at hfind
    have hother : some s.connection ≠ some c := fun hsame => hcs (Option.some.inj hsame).symm
    rcases htells with htells | ⟨htells, -⟩
    · exact hwell.keepsSettled hafter htells nofun rfl hfind hk hn hm
    · exact hwell.keepsSettled hafter htells hother rfl hfind hk hn hm

theorem WellFormed.keepsSettled_read (h : sys.WellFormed) {d : Connection} {s : Session}
    {x : Notice} {xs : List Notice} (hs : sys.sessions.find? d = some s)
    (hwaiting : sys.engine.presence.waiting d = x :: xs) {turn : Turn}
    (hturn : turn = (sys.engine.leaving d xs).handleNotice s x)
    (hafter : (sys.keep turn).2.WellFormed) {k n : Name}
    (hk : sys.engine.presence.nameOf? c = some k)
    (hn : (sys.keep turn).2.engine.presence.nameOf? c = some n)
    (hm : ¬ (sys.keep turn).2.Friends n m) :
    KeepsSettled sys (sys.keep turn).2 a c m := by
  have hconnection : turn.session.connection = d := by
    rw [hturn, Engine.connection_handleNotice]
    exact h.own d s hs
  have hfind := find?_keep sys turn c
  rw [hconnection] at hfind
  have htells : sys.engine.TellsParting (sys.engine.leaving d xs).presence.waiting none
      turn.engine := hturn ▸ (h.leaving d xs).tellsParting_handleNotice s x
  have hleft := Presence.waiting_editBox hwaiting xs c
  by_cases hcd : c = d
  · subst hcd
    rw [if_pos rfl] at hfind hleft
    refine h.settled_of_tells hafter htells hk hn hm hfind ?_ nofun
    rintro ⟨s', hs', hbefore⟩
    cases hs.symm.trans hs'
    rw [hwaiting] at hbefore
    refine (congrArg (Notice.settles m _) hleft).trans ?_
    refine Notice.settles_mono (fun hsettled => ?_) hbefore
    rw [hturn]
    exact decide_eq_true (Engine.statusOf_of_settled _ hsettled)
  · rw [if_neg hcd] at hfind hleft
    exact h.keepsSettled hafter htells nofun hleft hfind hk hn hm

/-- Whatever happens, a session that stays keeps to it, and one that comes takes everybody for
    gone. -/
theorem Sound.settled_act (h : sys.Sound) (a : Action) {n : Name}
    (hn : (sys.act a).engine.presence.nameOf? c = some n) (hm : ¬ (sys.act a).Friends n m) :
    (sys.act a).Settled c m ∨
      ∃ k, sys.engine.presence.nameOf? c = some k ∧ KeepsSettled sys (sys.act a) a c m := by
  have hwell := h.wellFormed
  have hafter := hwell.act a
  have hsame (heq : sys.act a = sys) : (sys.act a).Settled c m ∨
      ∃ k, sys.engine.presence.nameOf? c = some k ∧ KeepsSettled sys (sys.act a) a c m := by
    have hk := hn
    rw [heq] at hk
    exact Or.inr ⟨n, hk, hwell.keepsSettled_same hafter (by rw [heq]) (by rw [heq]) (by rw [heq])
      hk hn hm⟩
  cases a with
  | create j =>
    exact Or.inr ⟨n, hn, hwell.keepsSettled_same hafter rfl
      (Database.graph_outcomeOr_withDirectory _ _) rfl hn hn hm⟩
  | setAlias j choice =>
    exact Or.inr ⟨n, hn, hwell.keepsSettled_same hafter rfl
      (Database.graph_outcomeOr_withDirectory _ _) rfl hn hn hm⟩
  | delete j =>
    rcases sys.act_delete_cases j with heq | ⟨gone, engine, hdelete, heq⟩
    · exact hsame heq
    · rw [heq] at hafter hn hm ⊢
      have hk := (hwell.engine.attached_of_deletePlayer hdelete hn).1
      have htells := hwell.engine.tellsParting_deletePlayer hdelete
      exact Or.inr ⟨n, hk, hwell.keepsSettled hafter htells nofun rfl rfl hk hn hm⟩
  | connect j =>
    rcases sys.act_connect_cases j with heq | ⟨s, engine, hconnect, heq⟩
    · exact hsame heq
    · rcases sys.engine.connect_cases j with ⟨-, hcases⟩ | ⟨hj, hcases⟩
      · cases hcases.symm.trans hconnect
      · have harrived {d : Connection} (hd : d ≠ s.connection)
            (hc : engine.presence.nameOf? d = some n) :=
          hwell.engine.attached_of_connect hconnect hc hd
        cases hcases.symm.trans hconnect
        rw [heq] at hafter hn hm ⊢
        by_cases hnew : c = ⟨sys.engine.presence.arrivals⟩
        · subst hnew
          exact Or.inl (hwell.settled_connected hj rfl rfl ⟨n, hn⟩)
        · obtain ⟨k, hk⟩ := harrived hnew hn
          have htells := hwell.engine.tellsParting_connected hj
          refine Or.inr ⟨k, hk, hwell.keepsSettled hafter htells nofun (if_neg hnew) ?_ hk hn hm⟩
          exact (Table.find?_insert _ _ _ _).trans (if_neg hnew)
  | disconnect d =>
    have hk := (hwell.engine.attached_of_disconnect hn).1
    have htells := hwell.engine.tellsParting_disconnect d
    exact Or.inr ⟨n, hk, hwell.keepsSettled hafter htells nofun rfl rfl hk hn hm⟩
  | command d command =>
    rcases sys.act_command_cases d command with heq | ⟨s, hs, heq⟩
    · exact hsame heq
    · rw [heq] at hafter hn hm ⊢
      obtain ⟨k, hk⟩ := hwell.engine.attached_of_handleCommand hn
      exact Or.inr ⟨k, hk, h.keepsSettled_command hs rfl hafter hk hn hm⟩
  | read d =>
    rcases sys.act_read_cases d with heq | ⟨s, x, xs, hs, hwaiting, heq⟩
    · exact hsame heq
    · rw [heq] at hafter hn hm ⊢
      have hk := (hwell.leaving d xs).attached_of_handleNotice hn
      exact Or.inr ⟨n, hk, hwell.keepsSettled_read hs hwaiting rfl hafter hk hn hm⟩

end

/-! ### Runs -/

/-- At some step of a run the session has ended a friendship while the last that waited for it of
    the friend did not say that the friend is gone, and its player has not been a friend since. -/
def PartedEarly (sys : System) (as : List Action) (c : Connection) (m : Name) : Prop :=
  ∃ before a later, as = before ++ a :: later ∧ (sys.after before).PartsUnread a c m ∧
    ∀ as', as' <+: later → (sys.after (before ++ a :: as')).Strange c m

section

variable {sys : System} {as : List Action} {a : Action} {c : Connection} {m : Name}

theorem PartedEarly.concat (h : sys.PartedEarly as c m)
    (hstrange : (sys.after (as ++ [a])).Strange c m) : sys.PartedEarly (as ++ [a]) c m := by
  obtain ⟨before, b, later, rfl, hparts, hsince⟩ := h
  have hsplit : before ++ b :: later ++ [a] = before ++ b :: (later ++ [a]) :=
    List.append_assoc _ _ _
  refine ⟨before, b, later ++ [a], hsplit, hparts, fun as' hprefix => ?_⟩
  rcases List.prefix_concat_iff.1 hprefix with rfl | hprefix
  · rwa [← hsplit]
  · exact hsince as' hprefix

theorem PartedEarly.of_partsUnread (h : (sys.after as).PartsUnread a c m)
    (hstrange : (sys.after (as ++ [a])).Strange c m) : sys.PartedEarly (as ++ [a]) c m := by
  refine ⟨as, a, [], rfl, h, fun as' hprefix => ?_⟩
  rwa [List.prefix_nil.1 hprefix]

/-- Whoever would not take a stranger for gone has ended a friendship too early. -/
theorem Sound.settled_or_partedEarly (h : sys.Sound) (hnew : ∀ c, sys.engine.presence.nameOf? c = none)
    (as : List Action) {n : Name} (hn : (sys.after as).engine.presence.nameOf? c = some n)
    (hm : ¬ (sys.after as).Friends n m) : (sys.after as).Settled c m ∨ sys.PartedEarly as c m := by
  induction as using List.reverseRecOn generalizing n with
  | nil => cases (hnew c).symm.trans hn
  | append_singleton as a ih =>
    have hstrange : (sys.after (as ++ [a])).Strange c m := by
      intro j hj
      cases hn.symm.trans hj
      exact hm
    rw [after_concat] at hn hm ⊢
    rcases (h.after as).settled_act a hn hm with hsettled | ⟨k, hk, hsettled | hparts | ⟨hstranger, hnot⟩⟩
    · exact Or.inl hsettled
    · exact Or.inl hsettled
    · exact Or.inr (.of_partsUnread hparts hstrange)
    · rcases ih hk (hstranger k hk) with hsettled | hearly
      · exact absurd hsettled hnot
      · exact Or.inr (hearly.concat hstrange)

end

/-! ### Friends who are away -/

/-- The session takes the player for gone, and nothing that waits for it says otherwise. -/
structure TakesForGone (sys : System) (c : Connection) (m : Name) : Prop where
  known : ∃ s, sys.sessions.find? c = some s ∧ s.statusOf m = .disconnected
  waiting : ∀ x ∈ sys.engine.presence.waiting c, ∀ t, x.report? = some (m, t) → t = .disconnected

/-- All through a run nobody is attached under the name. -/
def Away (sys : System) (as : List Action) (m : Name) : Prop :=
  ∀ before, before <+: as → (sys.after before).engine.presence.isOnline m = false

/-- The client of the session is shown the player as disconnected, if at all. -/
def ShowsGone (sys : System) (c : Connection) (m : Name) : Prop :=
  ∀ s, sys.sessions.find? c = some s → ∀ shown, sys.engine.snapshot s = .ok shown →
    ∀ t, (m, t) ∈ shown.friends → t = .disconnected

theorem mem_unread {sys : System} {a : Action} {c : Connection} {x : Notice}
    (hx : x ∈ sys.unread (.action a) c) : x ∈ sys.engine.presence.waiting c := by
  cases a with
  | connect =>
    simp only [unread] at hx
    split at hx
    · cases hx
    · exact hx
  | read =>
    simp only [unread] at hx
    split at hx
    · exact List.mem_of_mem_tail hx
    · exact hx
  | create | setAlias | delete | disconnect | command => exact hx

/-- Of a player who is away nothing comes but that nobody is there. -/
theorem Sound.waiting_act {sys : System} (h : sys.Sound) {a : Action} {c : Connection} {m : Name}
    (haway : (sys.act a).engine.presence.statusOf m = .disconnected)
    (hrefusals : (sys.act a).engine.refusals = sys.engine.refusals) {x : Notice}
    (hx : x ∈ (sys.act a).engine.presence.waiting c) {t : Status}
    (hreport : x.report? = some (m, t)) :
    x ∈ sys.engine.presence.waiting c ∨ t = .disconnected := by
  obtain ⟨news, hwaiting, hnews⟩ := h.announces_act a c
  rw [hwaiting, List.mem_append] at hx
  rcases hx with hx | hx
  · exact Or.inl (mem_unread hx)
  · right
    have htold (hshows : x.shows? = some (m, t)) : t = .disconnected :=
      ((hnews x hx m t hshows).status hrefusals).trans haway
    cases x with
    | update reset =>
      cases reset with
      | none => cases hreport
      | some n =>
        cases hreport
        rfl
    | status | probe => exact htold hreport
    | renamed => cases hreport

/-- Whatever a session does or reads, it goes on to take the player for gone unless it reads
    otherwise. -/
theorem WellFormed.gone_act {sys : System} (h : sys.WellFormed) (a : Action) {c : Connection}
    {m : Name} (hgone : sys.TakesForGone c m) :
    ∃ s, (sys.act a).sessions.find? c = some s ∧ s.statusOf m = .disconnected := by
  obtain ⟨⟨s, hs, hstatus⟩, hwaits⟩ := hgone
  have hkeep (turn : Turn) (hturn : turn.session.connection = c →
      turn.session.statusOf m = .disconnected) :
      ∃ s, (sys.keep turn).2.sessions.find? c = some s ∧ s.statusOf m = .disconnected := by
    rw [find?_keep]
    split
    · next hc => exact ⟨_, rfl, hturn hc.symm⟩
    · exact ⟨s, hs, hstatus⟩
  cases a with
  | create | setAlias | disconnect => exact ⟨s, hs, hstatus⟩
  | delete j =>
    rcases sys.act_delete_cases j with heq | ⟨gone, engine, -, heq⟩
    · rw [heq]
      exact ⟨s, hs, hstatus⟩
    · rw [heq]
      exact ⟨s, hs, hstatus⟩
  | connect j =>
    rcases sys.act_connect_cases j with heq | ⟨s', engine, hconnect, heq⟩
    · rw [heq]
      exact ⟨s, hs, hstatus⟩
    · rcases sys.engine.connect_cases j with ⟨-, hcases⟩ | ⟨-, hcases⟩
      · cases hcases.symm.trans hconnect
      · cases hcases.symm.trans hconnect
        rw [heq]
        exact hkeep ⟨.snapshot, .start _ j, sys.engine.connected j⟩ fun _ => rfl
  | command d command =>
    rcases sys.act_command_cases d command with heq | ⟨s', hs', heq⟩
    · rw [heq]
      exact ⟨s, hs, hstatus⟩
    · rw [heq]
      refine hkeep _ fun hc => ?_
      rw [Engine.connection_handleCommand, h.own d s' hs'] at hc
      subst hc
      cases hs.symm.trans hs'
      rcases sys.engine.statusOf_handleCommand s command m with hsame | hforgot
      · exact hsame.trans hstatus
      · exact hforgot
  | read d =>
    rcases sys.act_read_cases d with heq | ⟨s', x, xs, hs', hwaiting, heq⟩
    · rw [heq]
      exact ⟨s, hs, hstatus⟩
    · rw [heq]
      refine hkeep _ fun hc => ?_
      rw [Engine.connection_handleNotice, h.own d s' hs'] at hc
      subst hc
      cases hs.symm.trans hs'
      rcases (sys.engine.leaving d xs).statusOf_handleNotice_cases s x m with
        hsame | hforgot | hreport
      · exact hsame.trans hstatus
      · exact hforgot
      · exact hwaits x (hwaiting ▸ List.mem_cons_self) _ hreport

theorem Sound.takesForGone_act {sys : System} (h : sys.Sound) {a : Action} {c : Connection}
    {m : Name} (haway : (sys.act a).engine.presence.statusOf m = .disconnected)
    (hrefusals : (sys.act a).engine.refusals = sys.engine.refusals) (hgone : sys.TakesForGone c m) :
    (sys.act a).TakesForGone c m where
  known := h.wellFormed.gone_act a hgone
  waiting x hx t hreport := by
    rcases h.waiting_act haway hrefusals hx hreport with hx | hnone
    · exact hgone.waiting x hx t hreport
    · exact hnone

/-- While the player is away, the session goes on to take the player for gone. -/
theorem Sound.takesForGone_after {sys : System} (h : sys.Sound) {as : List Action} {c : Connection}
    {m : Name} (haway : sys.Away as m)
    (hrefusals : (sys.after as).engine.refusals = sys.engine.refusals)
    (hgone : sys.TakesForGone c m) : (sys.after as).TakesForGone c m := by
  induction as using List.reverseRecOn with
  | nil => exact hgone
  | append_singleton as a ih =>
    have hoffline := haway (as ++ [a]) (List.prefix_refl _)
    obtain ⟨hnone, hlast⟩ := sys.refusals_of_append as [a] hrefusals
    rw [after_concat] at hoffline ⊢
    have hsofar : sys.Away as m := by
      intro before hinside
      exact haway before (hinside.trans (List.prefix_append as [a]))
    have hsound := h.after as
    refine hsound.takesForGone_act ?_ hlast (ih hsofar hnone)
    rw [(hsound.wellFormed.act a).engine.presence.isOnline_eq_false_iff] at hoffline
    exact Presence.statusOf_of_group_eq_nil hoffline

theorem TakesForGone.showsGone {sys : System} {c : Connection} {m : Name}
    (h : sys.TakesForGone c m) : sys.ShowsGone c m := by
  intro s hs shown hshown t ht
  obtain ⟨s', hs', hstatus⟩ := h.known
  cases hs.symm.trans hs'
  cases hload : sys.engine.database.graph.load s.name with
  | error =>
    simp only [Engine.snapshot, hload] at hshown
    cases hshown
  | ok ties =>
    simp only [Engine.snapshot, hload] at hshown
    cases hshown
    obtain ⟨n, -, hn⟩ := List.mem_map.1 ((Snapshot.sortFriends_perm _).mem_iff.1 ht)
    cases hn
    exact hstatus

/-- **Nobody but friends is remembered.**  After any run, a session for which nothing waits takes
    everybody who is no friend of its player for gone, unless it has ended the friendship too early;
    and as long as such a player stays away, the client of the session is not shown anything else,
    friends again or not. -/
theorem gone_of_stranger (capacity : Nat) (as : List Action) (c : Connection) (n m : Name)
    (hname : ((start .empty capacity).after as).engine.presence.nameOf? c = some n)
    (hwaiting : ((start .empty capacity).after as).engine.presence.waiting c = [])
    (hm : ¬ ((start .empty capacity).after as).Friends n m) :
    (start .empty capacity).PartedEarly as c m ∨
      (∃ s, ((start .empty capacity).after as).sessions.find? c = some s ∧
        s.statusOf m = .disconnected) ∧
      ∀ later, ((start .empty capacity).after as).Away later m →
        ((start .empty capacity).after (as ++ later)).engine.refusals =
          ((start .empty capacity).after as).engine.refusals →
        ((start .empty capacity).after (as ++ later)).ShowsGone c m := by
  have hsound := sound_start capacity
  rcases hsound.settled_or_partedEarly (fun _ => rfl) as hname hm with ⟨s, hs, hsettled⟩ | hearly
  · right
    rw [hwaiting] at hsettled
    have hgone : s.statusOf m = .disconnected := of_decide_eq_true hsettled
    refine ⟨⟨s, hs, hgone⟩, fun later haway hrefusals => ?_⟩
    rw [after_append] at hrefusals ⊢
    have htakes : ((start .empty capacity).after as).TakesForGone c m := by
      refine ⟨⟨s, hs, hgone⟩, ?_⟩
      rw [hwaiting]
      nofun
    exact ((hsound.after as).takesForGone_after haway hrefusals htakes).showsGone
  · exact Or.inl hearly

/-! ### A notice read too late

Two players are friends, and one of them enters a game.  The other one reads this first and ends the
friendship then, or the other way round. -/

/-- Two players make friends and read all of it; then one enters a game. -/
def playsUnread : List Action :=
  [.create ⟨"q", Name.isValid_q⟩, .create ⟨"r", Name.isValid_r⟩,
    .connect ⟨"q", Name.isValid_q⟩, .connect ⟨"r", Name.isValid_r⟩,
    .command ⟨0⟩ (.request "r"), .command ⟨1⟩ (.accept "q"),
    .read ⟨0⟩, .read ⟨0⟩, .read ⟨1⟩, .read ⟨1⟩, .command ⟨1⟩ .enterGame]

def readsFirst : List Action := playsUnread ++ [.read ⟨0⟩, .command ⟨0⟩ (.remove "r")]

def partsFirst : List Action := playsUnread ++ [.command ⟨0⟩ (.remove "r"), .read ⟨0⟩]

theorem gone_of_stranger_readsFirst :
    (start .empty 64).PartedEarly readsFirst ⟨0⟩ ⟨"r", by decide⟩ ∨
      (∃ s, ((start .empty 64).after readsFirst).sessions.find? ⟨0⟩ = some s ∧
        s.statusOf ⟨"r", by decide⟩ = .disconnected) ∧
      ∀ later, ((start .empty 64).after readsFirst).Away later ⟨"r", by decide⟩ →
        ((start .empty 64).after (readsFirst ++ later)).engine.refusals =
          ((start .empty 64).after readsFirst).engine.refusals →
        ((start .empty 64).after (readsFirst ++ later)).ShowsGone ⟨0⟩ ⟨"r", by decide⟩ :=
  gone_of_stranger 64 readsFirst ⟨0⟩ ⟨"q", by decide⟩ ⟨"r", by decide⟩ (by decide +kernel)
    (by decide +kernel) (by decide +kernel)

/-- A session that has read everything need not take a stranger for gone: this one read that its
    friend was in a game when the friendship had ended. -/
theorem not_gone_of_stranger :
    ¬ ∀ (capacity : Nat) (as : List Action) (c : Connection) (n m : Name),
      ((start .empty capacity).after as).engine.refusals = 0 →
      ((start .empty capacity).after as).engine.presence.nameOf? c = some n →
      ((start .empty capacity).after as).engine.presence.waiting c = [] →
      ¬ ((start .empty capacity).after as).Friends n m →
      (((start .empty capacity).after as).sessions.find? c).map (·.statusOf m) =
        some .disconnected := by
  intro hall
  have hgone := hall 64 partsFirst ⟨0⟩ ⟨"q", by decide⟩ ⟨"r", by decide⟩ (by decide +kernel)
    (by decide +kernel) (by decide +kernel) (by decide +kernel)
  have hother : (((start .empty 64).after partsFirst).sessions.find? ⟨0⟩).map
      (·.statusOf ⟨"r", by decide⟩) = some .inGame := by decide +kernel
  rw [hother] at hgone
  exact absurd hgone (by decide)

end System

end Amity
