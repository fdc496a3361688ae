/-
  Amity/Proofs/System/Meeting.lean
  ================================
  **What new friends see of each other.**  A session says yes to a request.  Its probe goes to all
  sessions of the new friend and tells them the status of its player; each of them answers to the
  session that said yes, and to no other.  So once everything has been read, the new friend's
  sessions are right about the player, and the session that said yes is right about the new friend.
  The player's other sessions were told of the friendship only: they take the new friend for
  disconnected.

  Reading sends nothing but answers, so as long as there is nothing but reading the only probe on
  its way is that of the session that said yes (`Meeting`).
-/
import Amity.Proofs.System.Befriending
import Amity.Proofs.System.Convergence

namespace Amity.System

/-- Nothing waits for anybody who is attached, every session has its name, and no session remembers
    a status of somebody who is no friend. -/
structure Calm (sys : System) : Prop where
  idle : sys.Idle
  named : sys.Named
  strangers : ∀ c n m s, sys.engine.presence.nameOf? c = some n → sys.sessions.find? c = some s →
    ¬ sys.Friends n m → s.statusOf m = .disconnected

/-- What the sessions of two new friends think of each other, when the one of connection `b` said
    yes: all sessions of `a` are right about `n`, and of the sessions of `n` that one is right about
    `a`; the others take `a` for disconnected. -/
structure Acquainted (sys : System) (b : Connection) (n a : Name) : Prop where
  asking : ∀ c, sys.engine.presence.nameOf? c = some a →
    ∃ s, sys.sessions.find? c = some s ∧ s.statusOf n = sys.engine.presence.statusOf n
  accepting : ∃ s, sys.sessions.find? b = some s ∧ s.statusOf a = sys.engine.presence.statusOf a
  siblings : ∀ c, c ≠ b → sys.engine.presence.nameOf? c = some n →
    ∃ s, sys.sessions.find? c = some s ∧ s.statusOf a = .disconnected

/-- The session of connection `b` has said yes to `a`, and not everything has been read yet. -/
structure Meeting (sys : System) (b : Connection) (n a : Name) : Prop where
  named : sys.Named
  quiet : ∀ d k, sys.engine.presence.nameOf? d = some k →
    ∀ x ∈ sys.engine.presence.waiting d, x.isRenaming = false
  /-- Every probe that waits is to be answered to `b`. -/
  probes : ∀ d k, sys.engine.presence.nameOf? d = some k →
    ∀ asker t c, .probe asker t c ∈ sys.engine.presence.waiting d → c = b
  place : sys.engine.presence.nameOf? b = some n
  friends : sys.Friends n a
  asking : ∀ c, sys.engine.presence.nameOf? c = some a → sys.Knows c a n
  accepting : sys.Knows b n a
  siblings : ∀ c, c ≠ b → sys.engine.presence.nameOf? c = some n → sys.Unfamiliar c a

section

variable {sys : System} (h : sys.WellFormed)
include h

theorem Meeting.acquainted {b : Connection} {n a : Name} (hmeeting : sys.Meeting b n a)
    (hidle : sys.Idle) : sys.Acquainted b n a where
  asking c hc := h.statusOf_of_knows hidle hc (hmeeting.asking c hc)
  accepting := h.statusOf_of_knows hidle hmeeting.place hmeeting.accepting
  siblings c hcb hc := (hmeeting.siblings c hcb hc).1

/-! ## Saying yes -/

/-- A session of `n` has said yes to `a` when nothing waited for anybody. -/
structure Accepted (sys sys' : System) (b : Connection) (n a : Name) : Prop where
  apart : ¬ sys.Friends n a
  ne : a ≠ n
  friends : sys'.Friends n a
  names : ∀ c, sys'.engine.presence.nameOf? c = sys.engine.presence.nameOf? c
  status : ∀ m, sys'.engine.presence.statusOf m = sys.engine.presence.statusOf m
  sessions : ∀ c, sys'.sessions.find? c = sys.sessions.find? c
  waiting : ∀ c k, sys.engine.presence.nameOf? c = some k →
    sys'.engine.presence.waiting c =
      if k = a then [.probe n (sys.engine.presence.statusOf n) b, .update none]
      else if k = n ∧ c ≠ b then [.update none]
      else []

theorem Calm.accepted (hcalm : sys.Calm) {b : Connection} {n a : Name} {s : Session} {turn : Turn}
    (hb : sys.engine.presence.nameOf? b = some n) (hs : sys.sessions.find? b = some s)
    (hturn : turn.session = s.renamed n) (hrequest : (a, n) ∈ sys.engine.database.graph.requests)
    (hmakes : Gesture.accept.Makes sys.engine b n a turn.engine)
    (hrefusals : turn.engine.refusals = sys.engine.refusals)
    (hafter : (sys.keep turn).2.WellFormed) : Accepted sys (sys.keep turn).2 b n a where
  apart := by
    rw [h.friends_comm, h.friends_iff]
    exact fun hfriends => (h.engine.graph.apart a n hfriends).1 hrequest
  ne := h.engine.graph.ne_of_mem_requests hrequest
  friends := by
    rw [hafter.friends_iff_mem_friendships]
    exact hmakes.graph.friendships.symm.subset (Set.mem_insert _ _)
  names := Presence.nameOf?_of_groups_owners (hmakes.groups hrefusals) hmakes.owners
  status m := Presence.statusOf_of_group (Presence.group_of_groups (hmakes.groups hrefusals) m)
  sessions c := by
    -- the session has its player's name, so taking it again changes nothing
    obtain rfl := hcalm.named b n s hb hs
    have hconnection : turn.session.connection = b := by
      rw [hturn]
      exact h.own b s hs
    rw [find?_keep, hconnection]
    split
    · next hcb =>
      rw [hcb, hs, hturn]
      rfl
    · rfl
  waiting c k hc := by
    refine (hmakes.waiting hrefusals c).trans ?_
    rw [hcalm.idle c k hc]
    unfold Gesture.news
    rw [hc]
    rfl

section

omit h

variable {sys' : System} {b : Connection} {n a : Name} (haccepted : Accepted sys sys' b n a)
include haccepted

theorem Accepted.mem_waiting {c : Connection} {k : Name}
    (hc : sys.engine.presence.nameOf? c = some k) {x : Notice}
    (hx : x ∈ sys'.engine.presence.waiting c) :
    x = .update none ∨ k = a ∧ x = .probe n (sys.engine.presence.statusOf n) b := by
  rw [haccepted.waiting c k hc] at hx
  split at hx
  · next hk =>
    rcases List.mem_cons.1 hx with hx | hx
    · exact Or.inr ⟨hk, hx⟩
    · exact Or.inl (List.mem_singleton.1 hx)
  · split at hx
    · exact Or.inl (List.mem_singleton.1 hx)
    · cases hx

/-- The sessions of the player have heard nothing of the new friend. -/
theorem Accepted.unfamiliar (h : sys.WellFormed) (hcalm : sys.Calm) {c : Connection}
    (hc : sys.engine.presence.nameOf? c = some n) : sys'.Unfamiliar c a := by
  obtain ⟨s, hs⟩ := h.present c n hc
  refine ⟨⟨s, ?_, hcalm.strangers c n a s hc hs haccepted.apart⟩, ?_⟩
  · rw [haccepted.sessions, hs]
  · rintro x hx ⟨t, hreport⟩
    rcases haccepted.mem_waiting hc hx with rfl | ⟨hna, -⟩
    · cases hreport
    · exact haccepted.ne hna.symm

theorem Accepted.meeting (h : sys.WellFormed) (h' : sys'.WellFormed) (hcalm : sys.Calm)
    (hb : sys.engine.presence.nameOf? b = some n) : sys'.Meeting b n a where
  named c k s hc hs := by
    rw [haccepted.names] at hc
    rw [haccepted.sessions] at hs
    exact hcalm.named c k s hc hs
  quiet d k hd x hx := by
    rw [haccepted.names] at hd
    rcases haccepted.mem_waiting hd hx with rfl | ⟨-, rfl⟩
    · rfl
    · rfl
  probes d k hd asker t c hx := by
    rw [haccepted.names] at hd
    rcases haccepted.mem_waiting hd hx with hx | ⟨-, hx⟩
    · cases hx
    · cases hx
      rfl
  place := (haccepted.names b).trans hb
  friends := haccepted.friends
  asking c hc := by
    rw [haccepted.names] at hc
    obtain ⟨s, hs⟩ := h.present c a hc
    have hnews := haccepted.waiting c a hc
    rw [if_pos rfl] at hnews
    refine knows_of_news ⟨s, (haccepted.sessions c).trans hs⟩
      (hnews.trans (List.nil_append _).symm) ⟨_, List.mem_cons_self, _, rfl⟩ ?_
    intro x hx t hreport
    rcases List.mem_cons.1 hx with rfl | hx
    · cases hreport
      exact (haccepted.status n).symm
    · rw [List.mem_singleton.1 hx] at hreport
      cases hreport
  accepting := by
    apply h'.knows_of_probes (haccepted.unfamiliar h hcalm hb)
    intro d hd
    rw [haccepted.names] at hd
    refine ⟨sys.engine.presence.statusOf n, ?_⟩
    rw [haccepted.waiting d a hd, if_pos rfl]
    exact List.mem_cons_self
  siblings c _ hc := by
    rw [haccepted.names] at hc
    exact haccepted.unfamiliar h hcalm hc

end

end

/-! ## Reading -/

section

variable {sys : System} (h : sys.WellFormed) {b : Connection} {n a : Name}
  (hmeeting : sys.Meeting b n a)
include h hmeeting

/-- To the other sessions of the player no answer comes, so the new friend stays a stranger. -/
theorem Meeting.unfamiliar_read {d : Connection} {k : Name} {s : Session} {x : Notice}
    {xs : List Notice} {turn : Turn} {news : Connection → List Notice}
    (hd : sys.engine.presence.nameOf? d = some k) (hfind : sys.sessions.find? d = some s)
    (hwaiting : sys.engine.presence.waiting d = x :: xs)
    (hturn : turn = (sys.engine.leaving d xs).handleNotice s x)
    (hreads : Reads sys (sys.keep turn).2 d s x xs news) {c : Connection} (hcb : c ≠ b)
    (hc : sys.engine.presence.nameOf? c = some n) : (sys.keep turn).2.Unfamiliar c a := by
  obtain ⟨⟨t, ht, hdisconnected⟩, hsilent⟩ := hmeeting.siblings c hcb hc
  have hown : turn.session.connection = d := by
    rw [hturn, Engine.connection_handleNotice]
    exact h.own d s hfind
  constructor
  · rw [find?_keep, hown]
    split
    · next hcd =>
      subst hcd
      cases ht.symm.trans hfind
      refine ⟨_, rfl, ?_⟩
      rw [hturn]
      rcases (sys.engine.leaving c xs).statusOf_handleNotice_cases s x a with
        hsame | hforgot | hreport
      · exact hsame.trans hdisconnected
      · exact hforgot
      · exact absurd ⟨_, hreport⟩ (hsilent x (hwaiting ▸ List.mem_cons_self))
    · exact ⟨t, ht, hdisconnected⟩
  · intro y hy
    rcases hreads.mem_waiting hwaiting hy with hy | hy
    · exact hsilent y hy
    · obtain ⟨-, asker, status, rfl, -⟩ := hreads.answers c y hy
      exact absurd (hmeeting.probes d k hd asker status c (hwaiting ▸ List.mem_cons_self)) hcb

/-- What an attached session reads changes nothing about it. -/
theorem Meeting.read {d : Connection} {k : Name} {s : Session} {x : Notice} {xs : List Notice}
    {turn : Turn} (hd : sys.engine.presence.nameOf? d = some k)
    (hfind : sys.sessions.find? d = some s) (hwaiting : sys.engine.presence.waiting d = x :: xs)
    (hturn : turn = (sys.engine.leaving d xs).handleNotice s x)
    (hrefusals : turn.engine.refusals = sys.engine.refusals) :
    (sys.keep turn).2.Meeting b n a ∧
      ∀ c, (sys.keep turn).2.engine.presence.nameOf? c = sys.engine.presence.nameOf? c := by
  obtain ⟨news, hreads⟩ := h.reads hwaiting hturn hrefusals
  have hinStep : ReadsInStep sys d s x := .of_quiet (fun j hj => hmeeting.named d j s hj hfind)
    fun j hj => hmeeting.quiet d j hj x (hwaiting ▸ List.mem_cons_self)
  have hhears {c : Connection} {j : Name} (hc : sys.engine.presence.nameOf? c = some j) :
      Hears sys (sys.keep turn).2 c j :=
    h.hears_read hinStep hfind hwaiting hturn hrefusals ((hreads.names c).trans hc)
  have hfriends : ∀ i j, (sys.keep turn).2.Friends i j ↔ sys.Friends i j := by
    intro i j
    unfold Friends
    rw [hreads.graph]
  have hknows {c : Connection} {j m : Name} (hc : sys.engine.presence.nameOf? c = some j)
      (hm : sys.Friends j m) (hknows : sys.Knows c j m) : (sys.keep turn).2.Knows c j m := by
    rcases (hhears hc).known m ((hfriends j m).2 hm) with ⟨-, hkeeps⟩ | hknows'
    · exact hkeeps hknows
    · exact hknows'
  refine ⟨⟨?_, ?_, ?_, ?_, ?_, ?_, ?_, ?_⟩, hreads.names⟩
  · intro c j s' hc hs'
    rw [hreads.names] at hc
    obtain ⟨t, t', ht, ht', hname⟩ := (hhears hc).name
    cases hs'.symm.trans ht'
    exact hname (hmeeting.named c j t hc ht)
  · intro c j hc y hy
    rw [hreads.names] at hc
    rcases (hhears hc).quiet y hy with hy | hy
    · exact hmeeting.quiet c j hc y hy
    · exact hy
  · intro e j he asker t c hy
    rw [hreads.names] at he
    rcases hreads.mem_waiting hwaiting hy with hy | hy
    · exact hmeeting.probes e j he asker t c hy
    · cases (hreads.answers e _ hy).1
  · exact (hreads.names b).trans hmeeting.place
  · exact (hfriends n a).2 hmeeting.friends
  · intro c hc
    rw [hreads.names] at hc
    exact hknows hc (h.friends_comm.1 hmeeting.friends) (hmeeting.asking c hc)
  · exact hknows hmeeting.place hmeeting.friends hmeeting.accepting
  · intro c hcb hc
    rw [hreads.names] at hc
    exact hmeeting.unfamiliar_read h hd hfind hwaiting hturn hreads hcb hc

/-- So they read in any order. -/
theorem Meeting.reading {cs : List Connection}
    (hcs : ∀ c ∈ cs, ∃ k, sys.engine.presence.nameOf? c = some k)
    (hrefusals : (sys.after (cs.map .read)).engine.refusals = sys.engine.refusals) :
    (sys.after (cs.map .read)).Meeting b n a := by
  induction cs generalizing sys with
  | nil => exact hmeeting
  | cons d cs ih =>
    obtain ⟨k, hd⟩ := hcs d List.mem_cons_self
    have hrest : ∀ c ∈ cs, ∃ j, sys.engine.presence.nameOf? c = some j := fun c hc =>
      hcs c (List.mem_cons_of_mem d hc)
    obtain ⟨hnone, hlater⟩ := sys.refusals_of_cons (.read d) (cs.map .read) hrefusals
    have hwell := h.act (.read d)
    have hstep : (sys.act (.read d)).Meeting b n a ∧ ∀ c,
        (sys.act (.read d)).engine.presence.nameOf? c = sys.engine.presence.nameOf? c := by
      rcases sys.act_read_cases d with heq | ⟨s, x, xs, hfind, hwaiting, heq⟩
      · rw [heq]
        exact ⟨hmeeting, fun _ => rfl⟩
      · rw [heq] at hnone ⊢
        exact hmeeting.read h hd hfind hwaiting rfl hnone
    refine ih hwell hstep.1 (fun c hc => ?_) hlater
    obtain ⟨j, hj⟩ := hrest c hc
    exact ⟨j, (hstep.2 c).trans hj⟩

end

/-! ## Both -/

theorem Sound.acquainted {sys : System} (h : sys.Sound) (hcalm : sys.Calm) {b : Connection}
    {n a : Name} {text : String} {cs : List Connection}
    (hb : sys.engine.presence.nameOf? b = some n) (htext : Name.parse? text = some a)
    (hrequest : sys.engine.database.graph.requestExists a n = .ok true)
    (hcs : ∀ c ∈ cs, (sys.engine.presence.nameOf? c).isSome)
    (hrefusals : (sys.after (.command b (.accept text) :: cs.map .read)).engine.refusals =
      sys.engine.refusals)
    (hidle : (sys.after (.command b (.accept text) :: cs.map .read)).Idle) :
    (sys.after (.command b (.accept text) :: cs.map .read)).Acquainted b n a := by
  have hwell := h.wellFormed
  have hgraph := hwell.engine.graph
  have hrequested : (a, n) ∈ sys.engine.database.graph.requests := by
    obtain ⟨r, hr, hiff⟩ := hgraph.actsOnPairs.requestExists a n
    rw [hrequest] at hr
    cases hr
    exact hiff.1 rfl
  have ha : sys.engine.hasPlayer a = true :=
    h.database.hasPlayer_of_mem_peers (hgraph.mem_peers.2 (Or.inr (Or.inr hrequested)))
  obtain ⟨s, hs⟩ := hwell.present b n hb
  obtain rfl := hwell.own b s hs
  obtain ⟨hturn, hmakes⟩ := (Gesture.accept.answered hwell.engine hb text).granted a htext ha
    hrequested
  have hact : sys.act (.command s.connection (.accept text)) =
      (sys.keep (sys.engine.handleCommand s (Gesture.accept.command text))).2 := act_command hs _
  have hsplit : sys.after (.command s.connection (.accept text) :: cs.map .read) =
      (sys.act (.command s.connection (.accept text))).after (cs.map .read) := rfl
  have hafter := hwell.act (.command s.connection (.accept text))
  obtain ⟨hnone, hreaders⟩ := sys.refusals_of_cons _ _ hrefusals
  rw [hsplit] at hidle ⊢
  rw [hact] at hnone hafter hreaders hidle ⊢
  have haccepted := hcalm.accepted hwell hb hs hturn hrequested hmakes hnone hafter
  have hmeeting := haccepted.meeting hwell hafter hcalm hb
  have hread := hmeeting.reading hafter (fun c hc => ?_) hreaders
  · exact hread.acquainted (hafter.after _) hidle
  · rw [haccepted.names]
    exact Option.isSome_iff_exists.1 (hcs c hc)

/-- **New friends and their sessions.**  After whatever came from outside, when nothing waits, every
    session has its name and nobody remembers a stranger: once a session has said yes to a request
    and all attached sessions have read everything, in any order and without a refusal, all sessions
    of the one who asked are right about the other, and so is the session that said yes; the other
    sessions of its player take the new friend for disconnected. -/
theorem acquainted_run (capacity : Nat) (is : List Input) (b : Connection) (n a : Name)
    (text : String) (cs : List Connection)
    (hcalm : ((start .empty capacity).run is).Calm)
    (hb : ((start .empty capacity).run is).engine.presence.nameOf? b = some n)
    (htext : Name.parse? text = some a)
    (hrequest : ((start .empty capacity).run is).engine.database.graph.requestExists a n = .ok true)
    (hcs : ∀ c ∈ cs, (((start .empty capacity).run is).engine.presence.nameOf? c).isSome)
    (hrefusals : (((start .empty capacity).run is).after
        (.command b (.accept text) :: cs.map .read)).engine.refusals =
      ((start .empty capacity).run is).engine.refusals)
    (hidle : (((start .empty capacity).run is).after
      (.command b (.accept text) :: cs.map .read)).Idle) :
    (((start .empty capacity).run is).after
      (.command b (.accept text) :: cs.map .read)).Acquainted b n a :=
  ((sound_start capacity).run is).acquainted hcalm hb htext hrequest hcs hrefusals hidle

/-! ### A player with two sessions

A player asks one who has two sessions, and one of them says yes. -/

/-- A player with two sessions is asked, and both have read of it. -/
def asksBoth : List Input :=
  [.action (.create ⟨"q", Name.isValid_q⟩), .action (.create ⟨"r", Name.isValid_r⟩),
    .action (.connect ⟨"q", Name.isValid_q⟩), .action (.connect ⟨"r", Name.isValid_r⟩),
    .action (.connect ⟨"r", Name.isValid_r⟩), .action (.command ⟨0⟩ (.request "r")),
    .action (.read ⟨1⟩), .action (.read ⟨2⟩)]

/-- Who reads after the yes, each as often as something waits. -/
def readers : List Connection := [⟨0⟩, ⟨0⟩, ⟨1⟩, ⟨2⟩]

theorem calm_asksBoth : ((start .empty 64).run asksBoth).Calm := by
  have hwell := ((sound_start 64).run asksBoth).wellFormed
  have hall : ∀ i < ((start .empty 64).run asksBoth).engine.presence.arrivals,
      (((start .empty 64).run asksBoth).sessions.find? ⟨i⟩).map (·.name) =
          ((start .empty 64).run asksBoth).engine.presence.nameOf? ⟨i⟩ ∧
        (((start .empty 64).run asksBoth).sessions.find? ⟨i⟩).map (·.statuses.entries) =
          some [] := by
    decide +kernel
  constructor
  · exact hwell.idle_of_arrived (by decide +kernel)
  · intro c n s hc hs
    have hname : (((start .empty 64).run asksBoth).sessions.find? c).map (·.name) = _ :=
      (hall c.number (hwell.engine.presence.arrived_of_nameOf? hc)).1
    rw [hs] at hname
    exact Option.some.inj (hname.trans hc)
  · intro c n m s hc hs _
    have hnone : (((start .empty 64).run asksBoth).sessions.find? c).map (·.statuses.entries) = _ :=
      (hall c.number (hwell.engine.presence.arrived_of_nameOf? hc)).2
    rw [hs] at hnone
    have hentries : s.statuses.entries = [] := Option.some.inj hnone
    unfold Session.statusOf Table.find?
    rw [hentries]
    rfl

theorem idle_asksBoth : (((start .empty 64).run asksBoth).after
    (.command ⟨1⟩ (.accept "q") :: readers.map .read)).Idle :=
  (((sound_start 64).run asksBoth).after _).wellFormed.idle_of_arrived (by decide +kernel)

theorem acquainted_run_asksBoth : (((start .empty 64).run asksBoth).after
    (.command ⟨1⟩ (.accept "q") :: readers.map .read)).Acquainted ⟨1⟩ ⟨"r", by decide⟩
      ⟨"q", by decide⟩ :=
  acquainted_run 64 asksBoth ⟨1⟩ ⟨"r", by decide⟩ ⟨"q", by decide⟩ "q" readers calm_asksBoth
    (by decide +kernel) (by decide +kernel) (by decide +kernel) (by decide +kernel)
    (by decide +kernel) idle_asksBoth

/-- Not all sessions of new friends need be right about the other: this one was not told that the
    new friend is there. -/
theorem not_acquainted :
    ¬ ∀ (capacity : Nat) (is : List Input) (b c : Connection) (n a : Name) (text : String)
      (cs : List Connection),
      ((start .empty capacity).run is).Calm →
      ((start .empty capacity).run is).engine.presence.nameOf? b = some n →
      Name.parse? text = some a →
      ((start .empty capacity).run is).engine.database.graph.requestExists a n = .ok true →
      (∀ c ∈ cs, (((start .empty capacity).run is).engine.presence.nameOf? c).isSome) →
      (((start .empty capacity).run is).after
          (.command b (.accept text) :: cs.map .read)).engine.refusals =
        ((start .empty capacity).run is).engine.refusals →
      (((start .empty capacity).run is).after (.command b (.accept text) :: cs.map .read)).Idle →
      (((start .empty capacity).run is).after
          (.command b (.accept text) :: cs.map .read)).engine.presence.nameOf? c = some n →
      ((((start .empty capacity).run is).after
          (.command b (.accept text) :: cs.map .read)).sessions.find? c).map (·.statusOf a) =
        some ((((start .empty capacity).run is).after
          (.command b (.accept text) :: cs.map .read)).engine.presence.statusOf a) := by
  intro hall
  have hright := hall 64 asksBoth ⟨1⟩ ⟨2⟩ ⟨"r", by decide⟩ ⟨"q", by decide⟩ "q" readers calm_asksBoth
    (by decide +kernel) (by decide +kernel) (by decide +kernel) (by decide +kernel)
    (by decide +kernel) idle_asksBoth (by decide +kernel)
  revert hright
  decide +kernel

end Amity.System
