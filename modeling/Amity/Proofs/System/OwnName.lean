/-
  Amity/Proofs/System/OwnName.lean
  ================================
  **Under which name a session ends up.**  A session follows renamings by name: when it reads that
  one name became another and has either of them, it takes the new one.  The notices that still
  wait for it thus lead it from the name it has to some name, its heading.  A session is in step
  when its heading is the name its connection stands under.

  A new session is in step, and every step that is not a command of the session itself leaves it
  so: a renaming of its player puts the very notice into its mailbox that leads on to the new name.
  A command lets the session take its present name at once, in front of what still waits.  If an old
  notice in the mailbox leads away from that name, to one that a friend has taken since, the session
  leaves its name again and nothing leads it back, unless its player happens to take that very name.
-/
import Mathlib.Data.List.Induction
import Amity.Proofs.Engine.Effects
import Amity.Proofs.System.Run

namespace Amity

/-! ## Following renamings -/

namespace Notice

/-- The name of a session that reads the notice under this name. -/
def follow (n : Name) : Notice → Name
  | .renamed old new => if old = n ∨ new = n then new else n
  | _ => n

def isRenaming : Notice → Bool
  | .renamed .. => true
  | _ => false

theorem follow_of_not_isRenaming {x : Notice} (h : x.isRenaming = false) (n : Name) :
    x.follow n = n := by
  cases x with
  | renamed => cases h
  | update => rfl
  | status => rfl
  | probe => rfl

/-- The name of a session that reads some notices under this name, the first one first. -/
def followAll (n : Name) (xs : List Notice) : Name := xs.foldl follow n

theorem followAll_append (n : Name) (xs ys : List Notice) :
    followAll n (xs ++ ys) = followAll (followAll n xs) ys :=
  List.foldl_append

theorem followAll_of_not_isRenaming {xs : List Notice} (h : ∀ x ∈ xs, x.isRenaming = false)
    (n : Name) : followAll n xs = n := by
  induction xs with
  | nil => rfl
  | cons x xs ih =>
    show followAll (x.follow n) xs = n
    rw [follow_of_not_isRenaming (h x List.mem_cons_self)]
    exact ih fun y hy => h y (List.mem_cons_of_mem x hy)

end Notice

theorem Engine.name_handleNotice (e : Engine) (s : Session) (x : Notice) :
    (e.handleNotice s x).session.name = x.follow s.name := by
  cases x with
  | update reset => cases reset <;> rfl
  | status => rfl
  | renamed old new =>
    unfold handleNotice Notice.follow
    dsimp only
    split <;> rfl
  | probe =>
    unfold handleNotice answerProbe
    dsimp only
    split <;> rfl

/-! ## Steps that say nothing of renamings -/

/-- Between two registries a connection keeps its name, unless it has been let go, and the notices
    that have come for it tell of no renaming. -/
structure Presence.Quiet (p q : Presence) (c : Connection) : Prop where
  name : ∀ n, q.nameOf? c = some n → p.nameOf? c = some n
  waiting : ∃ news, q.waiting c = p.waiting c ++ news ∧ ∀ x ∈ news, x.isRenaming = false

namespace Presence

variable {p q r : Presence} {c : Connection}

theorem Quiet.trans (h : p.Quiet q c) (h' : q.Quiet r c) : p.Quiet r c where
  name n hn := h.name n (h'.name n hn)
  waiting := by
    obtain ⟨news, hnews, hquiet⟩ := h.waiting
    obtain ⟨more, hmore, hquiet'⟩ := h'.waiting
    refine ⟨news ++ more, by rw [hmore, hnews, List.append_assoc], ?_⟩
    intro x hx
    rcases List.mem_append.1 hx with hx | hx
    · exact hquiet x hx
    · exact hquiet' x hx

theorem Quiet.of_waiting (hname : ∀ n, q.nameOf? c = some n → p.nameOf? c = some n)
    (hwaiting : q.waiting c = p.waiting c) : p.Quiet q c :=
  ⟨hname, [], by rw [hwaiting, List.append_nil], by simp⟩

theorem Posted.quiet {news : Connection → List Notice} (h : p.Posted news q)
    (hnews : ∀ x ∈ news c, x.isRenaming = false) : p.Quiet q c :=
  ⟨fun _ hn => h.nameOf? c ▸ hn, news c, h.waiting c, hnews⟩

end Presence

namespace Engine

variable {e : Engine} (h : e.WellFormed)
include h

theorem WellFormed.quiet_tieChanged {s : Session} {target : Name} {command : Command}
    {change : TieChange} {made : Bool} {database : Database}
    (hasks : e.Asks s target command change) (houtcome : change.outcome = .ok (made, database))
    (hrefusals : (e.tieChanged s target change database).refusals = e.refusals) (c : Connection) :
    e.presence.Quiet (e.tieChanged s target change database).presence c := by
  refine (h.tieChanged_posted hasks houtcome hrefusals).quiet fun x hx => ?_
  rw [List.mem_append] at hx
  rcases hx with hx | hx
  · split at hx
    · cases hasks <;> simp only [List.mem_cons, List.not_mem_nil, or_false] at hx
      · exact hx ▸ rfl
      · exact hx ▸ rfl
      · exact hx ▸ rfl
      · rcases hx with rfl | rfl <;> rfl
      · exact hx ▸ rfl
    · cases hx
  · split at hx
    · rw [List.mem_singleton] at hx
      subst hx
      cases hasks <;> rfl
    · cases hx

theorem WellFormed.quiet_deletePlayer {e' : Engine} {n : Name} {gone : Bool}
    (hdelete : e.deletePlayer n = .ok (gone, e')) (hrefusals : e'.refusals = e.refusals)
    (c : Connection) : e.presence.Quiet e'.presence c := by
  have hevicted : e.presence.Quiet (e.presence.evicted n) c := by
    refine .of_waiting (fun m hm => ?_) (Presence.waiting_evicted _ n c)
    rw [h.presence.nameOf?_evicted] at hm
    split at hm
    · cases hm
    · exact hm
  refine hevicted.trans ?_
  rcases deletePlayer_eq_ok hdelete with ⟨-, -, rfl⟩ | ⟨ties, database, -, -, rfl⟩
  · refine (h.withoutPlayer_posted hrefusals).quiet fun x hx => ?_
    obtain ⟨_, -, hx⟩ := Outbox.mem_addressed.1 hx
    cases hx
  · refine (h.withoutPlayer_posted hrefusals).quiet fun x hx => ?_
    obtain ⟨m, -, hx⟩ := Outbox.mem_addressed.1 hx
    unfold deleteOutbox at hx
    obtain ⟨peer, -, heq⟩ := List.mem_map.1 hx
    cases heq
    rfl

theorem WellFormed.quiet_shown {s : Session} {status : Status}
    (hrefusals : (e.shown s status).refusals = e.refusals) (c : Connection) :
    e.presence.Quiet (e.shown s status).presence c := by
  have hset := h.presence.setStatus s.connection status
  have hnames := h.presence.nameOf?_congr hset fun m => Presence.sessionsOf_setStatus _ _ _ _
  have hfirst : e.presence.Quiet (e.presence.setStatus s.connection status) c :=
    .of_waiting (fun n hn => by rwa [hnames] at hn) (Presence.waiting_setStatus _ _ _ c)
  refine hfirst.trans ((h.shown_posted hrefusals).quiet fun x hx => ?_)
  split at hx
  · rw [List.mem_singleton] at hx
    exact hx ▸ rfl
  · cases hx

theorem WellFormed.quiet_attached {n : Name} {c : Connection} (hc : c ≠ ⟨e.presence.arrivals⟩) :
    e.presence.Quiet (e.attached n).presence c := by
  refine .of_waiting (fun m hm => ?_) ?_
  · have hm : ((e.presence.accept e.capacity).2.attach n ⟨e.presence.arrivals⟩).nameOf? c =
      some m := hm
    rwa [h.presence.nameOf?_attach, if_neg hc] at hm
  · refine (Presence.waiting_attach e.presence n e.capacity c).trans ?_
    rw [if_neg hc]

theorem WellFormed.quiet_probes {n : Name} (hn : e.hasPlayer n = true)
    (hrefusals : (e.connected n).refusals = e.refusals) (c : Connection) :
    (e.attached n).presence.Quiet (e.connected n).presence c := by
  refine (h.connect_posted hn hrefusals).quiet fun x hx => ?_
  split at hx
  · rw [List.mem_singleton] at hx
    exact hx ▸ rfl
  · cases hx

theorem WellFormed.quiet_disconnect {d : Connection}
    (hrefusals : (e.disconnect d).refusals = e.refusals) (c : Connection) :
    e.presence.Quiet (e.disconnect d).presence c := by
  have hdetached : e.presence.Quiet (e.detached d).presence c := by
    refine .of_waiting (fun n hn => ?_) (Presence.waiting_detach _ d c)
    have hn : (e.presence.detach d).2.nameOf? c = some n := hn
    rw [h.presence.nameOf?_detach] at hn
    split at hn
    · cases hn
    · exact hn
  rcases e.disconnect_cases d with ⟨-, heq⟩ | ⟨n, -, ⟨-, heq⟩ | ⟨-, heq⟩⟩
  · rw [heq]
    exact .of_waiting (fun _ => id) rfl
  · rw [heq]
    exact hdetached
  · rw [heq] at hrefusals ⊢
    have hrefusals := hrefusals.trans (Presence.refusals_detach _ d).symm
    refine hdetached.trans (((h.detached d).broadcast_posted hrefusals).quiet fun x hx => ?_)
    split at hx
    · rw [List.mem_singleton] at hx
      exact hx ▸ rfl
    · cases hx

theorem WellFormed.quiet_handleNotice {s : Session} {x : Notice}
    (hrefusals : (e.handleNotice s x).engine.refusals = e.refusals) (c : Connection) :
    e.presence.Quiet (e.handleNotice s x).engine.presence c := by
  rcases e.handleNotice_cases s x with ⟨-, heq⟩ | ⟨asker, status, replyTo, -, -, heq⟩
  · rw [heq]
    exact .of_waiting (fun _ => id) rfl
  · rw [heq] at hrefusals ⊢
    refine (h.presence.sendTo_posted hrefusals).quiet fun y hy => ?_
    split at hy
    · rw [List.mem_singleton] at hy
      exact hy ▸ rfl
    · cases hy

end Engine

namespace System

/-! ## Headings -/

/-- The name a session has after it has read all that waits for it. -/
def heading? (sys : System) (c : Connection) : Option Name :=
  (sys.sessions.find? c).map fun s => Notice.followAll s.name (sys.engine.presence.waiting c)

/-- A session that is attached is going to have the name its connection stands under. -/
def InStep (sys : System) (c : Connection) : Prop :=
  ∀ n, sys.engine.presence.nameOf? c = some n → sys.heading? c = some n

theorem command_ne {c d : Connection} (hdc : d ≠ c) (command : Command) :
    ∀ command', Action.command d command ≠ .command c command' := by
  rintro command' heq
  cases heq
  exact hdc rfl

theorem heading?_of_waiting {sys sys' : System} {c : Connection} {news : List Notice}
    (hsession : sys'.sessions.find? c = sys.sessions.find? c)
    (hwaiting : sys'.engine.presence.waiting c = sys.engine.presence.waiting c ++ news) :
    sys'.heading? c = (sys.heading? c).map (Notice.followAll · news) := by
  unfold heading?
  rw [hsession, hwaiting]
  simp only [Notice.followAll_append, Option.map_map]
  rfl

theorem heading?_of_quiet {sys sys' : System} {c : Connection}
    (hsession : sys'.sessions.find? c = sys.sessions.find? c)
    (hquiet : sys.engine.presence.Quiet sys'.engine.presence c) :
    sys'.heading? c = sys.heading? c := by
  obtain ⟨news, hnews, hnone⟩ := hquiet.waiting
  rw [heading?_of_waiting hsession hnews]
  simp [Notice.followAll_of_not_isRenaming hnone]

/-- What a step of others does to the heading of a session: nothing that matters while the session
    keeps its name; and when the session's player takes another name, the heading becomes that name
    if it was the old one, or was that name before. -/
inductive Carries (sys sys' : System) (c : Connection) : Prop where
  | comes (hnew : sys.engine.presence.arrivals ≤ c.number)
      (hheading : ∀ n, sys'.engine.presence.nameOf? c = some n → sys'.heading? c = some n)
  | stays
      (hname : ∀ n, sys'.engine.presence.nameOf? c = some n →
        sys.engine.presence.nameOf? c = some n ∧
          (sys'.heading? c = some n ↔ sys.heading? c = some n))
  | moves {old new : Name} (hne : old ≠ new) (hold : sys.engine.presence.nameOf? c = some old)
      (hnew : sys'.engine.presence.nameOf? c = some new)
      (hheading : sys'.heading? c = some new ↔
        sys.heading? c = some old ∨ sys.heading? c = some new)

theorem Carries.of_quiet {sys sys' : System} {c : Connection}
    (hsession : sys'.sessions.find? c = sys.sessions.find? c)
    (hquiet : sys.engine.presence.Quiet sys'.engine.presence c) : Carries sys sys' c :=
  .stays fun n hn => ⟨hquiet.name n hn, by rw [heading?_of_quiet hsession hquiet]⟩

/-- Reading about one renaming does not lead to or away from a third name. -/
theorem followAll_eq_iff {old new n : Name} {xs : List Notice} (hold : n ≠ old) (hnew : n ≠ new)
    (h : ∀ x ∈ xs, x.isRenaming = false ∨ x = .renamed old new) (k : Name) :
    Notice.followAll k xs = n ↔ k = n := by
  induction xs generalizing k with
  | nil => exact Iff.rfl
  | cons x xs ih =>
    show Notice.followAll (x.follow k) xs = n ↔ k = n
    rw [ih fun y hy => h y (List.mem_cons_of_mem x hy)]
    rcases h x List.mem_cons_self with hx | rfl
    · rw [Notice.follow_of_not_isRenaming hx]
    · show (if old = k ∨ new = k then new else k) = n ↔ k = n
      split
      · next hk =>
        refine ⟨fun hn => absurd hn.symm hnew, ?_⟩
        rintro rfl
        rcases hk with hk | hk
        · exact absurd hk.symm hold
        · exact absurd hk.symm hnew
      · exact Iff.rfl

/-- Who has either name before a renaming has the new one after it. -/
theorem follow_eq_new_iff {old new : Name} (k : Name) :
    Notice.followAll k [.renamed old new] = new ↔ k = old ∨ k = new := by
  show (if old = k ∨ new = k then new else k) = new ↔ _
  split
  · next hk => simpa [eq_comm] using hk
  · next hk =>
    simp only [not_or] at hk
    simp [Ne.symm hk.1, Ne.symm hk.2]

theorem mem_renameOutbox {ties : Ties} {old new m : Name} {status : Status} {x : Notice}
    (h : (m, x) ∈ Engine.renameOutbox ties old new status) :
    m ∈ ties.peers ∧ (x.isRenaming = false ∨ x = .renamed old new) := by
  unfold Engine.renameOutbox at h
  simp only [List.mem_append, List.mem_map, Prod.mk.injEq] at h
  rcases h with (⟨_, hm, rfl, rfl⟩ | ⟨_, hm, rfl, rfl⟩) | ⟨_, hm, rfl, rfl⟩
  · exact ⟨Ties.mem_peers.2 (Or.inl hm), Or.inl rfl⟩
  · exact ⟨Ties.mem_peers.2 (Or.inl hm), Or.inl rfl⟩
  · exact ⟨hm, Or.inr rfl⟩

section

variable {sys : System} (h : sys.WellFormed) {c : Connection}
include h

theorem WellFormed.carries_renamed {s : Session} {new : Name} {ties : Ties} {database : Database}
    {reply : Reply} (hne : s.name ≠ new)
    (hrename : sys.engine.database.rename s.name new = .ok (ties, database))
    (hrefusals : (sys.engine.renamed s new ties database).refusals = sys.engine.refusals)
    (hc : c ≠ s.connection) :
    Carries sys
      (sys.keep ⟨reply, s.renamed new, sys.engine.renamed s new ties database⟩).2 c := by
  have hposted := h.engine.renamed_posted hne hrename hrefusals
  obtain ⟨rfl, hfresh⟩ := h.engine.graph.not_mem_peers_of_renamed hne
    (Database.rename_eq_ok_iff.1 hrename).2
  have hsession : (sys.sessions.insert s.connection (s.renamed new)).find? c =
      sys.sessions.find? c := by
    rw [Table.find?_insert, if_neg hc]
  have hwaiting := hposted.waiting c
  rw [Presence.waiting_rebound] at hwaiting
  have hheading := @heading?_of_waiting sys (sys.keep ⟨reply, s.renamed new,
    sys.engine.renamed s new (sys.engine.database.graph.ties s.name) database⟩).2 c _ hsession
    hwaiting
  have hafter := hposted.nameOf? c
  rw [h.engine.presence.nameOf?_rebound hne] at hafter hheading
  cases hname : sys.engine.presence.nameOf? c with
  | none =>
    refine .stays fun n hn => ?_
    rw [hname] at hafter
    cases hafter.symm.trans hn
  | some m =>
    rw [hname] at hafter hheading
    by_cases hm : m = s.name
    · -- a sibling, to whom nothing of the outbox goes
      subst hm
      have hnew : Ties.substitute s.name new s.name = new := by simp [Ties.substitute]
      have hoff : (Engine.renameOutbox (sys.engine.database.graph.ties s.name) s.name new
          (sys.engine.presence.statusOf s.name)).addressed (some new) = [] := by
        refine List.eq_nil_iff_forall_not_mem.2 fun x hx => ?_
        obtain ⟨_, heq, hx⟩ := Outbox.mem_addressed.1 hx
        cases heq
        exact hfresh _ (mem_renameOutbox hx).1
      rw [Option.map_some, hnew] at hafter hheading
      refine .moves hne hname hafter ?_
      rw [hheading, hoff, List.nil_append, if_pos ⟨rfl, hc⟩]
      cases sys.heading? c with
      | none => simp
      | some k =>
        simp only [Option.map_some, Option.some.injEq]
        exact follow_eq_new_iff k
    · -- somebody else, whose name is neither of the two: what it hears cannot lead it to or from it
      have hmnew : m ≠ new := fun hmn =>
        h.engine.nameOf?_ne_of_rename hrename c (hmn ▸ hname)
      have hsame : Ties.substitute s.name new m = m := by simp [Ties.substitute, hm]
      rw [Option.map_some, hsame] at hafter hheading
      refine .stays fun n hn => ?_
      obtain rfl : m = n := Option.some.inj (hafter.symm.trans hn)
      refine ⟨hname, ?_⟩
      rw [hheading]
      cases sys.heading? c with
      | none => simp
      | some k =>
        simp only [Option.map_some, Option.some.injEq]
        refine followAll_eq_iff hm hmnew (fun x hx => ?_) k
        rw [List.mem_append] at hx
        rcases hx with hx | hx
        · obtain ⟨_, -, hx⟩ := Outbox.mem_addressed.1 hx
          exact (mem_renameOutbox hx).2
        · simp [hmnew] at hx

/-- What another session's command does to this one. -/
theorem WellFormed.carries_performs {s : Session} {command : Command} {turn : Turn}
    (hturn : sys.engine.Performs s command turn)
    (hrefusals : turn.engine.refusals = sys.engine.refusals) (hc : c ≠ s.connection) :
    Carries sys (sys.keep turn).2 c := by
  have hsession : (sys.keep turn).2.sessions.find? c = sys.sessions.find? c := by
    show (sys.sessions.insert turn.session.connection turn.session).find? c = _
    rw [Table.find?_insert, if_neg]
    rw [Engine.connection_performs hturn]
    exact hc
  cases hturn with
  | nothing => exact .of_quiet hsession (.of_waiting (fun _ => id) rfl)
  | ties _ hasks houtcome =>
    exact .of_quiet hsession (h.engine.quiet_tieChanged hasks houtcome hrefusals c)
  | rename _ hne hrename => exact h.carries_renamed hne hrename hrefusals hc
  | delete _ hdelete => exact .of_quiet hsession (h.engine.quiet_deletePlayer hdelete hrefusals c)
  | status => exact .of_quiet hsession (h.engine.quiet_shown hrefusals c)

/-- A session that reads goes on to the same heading, and the others do not notice. -/
theorem WellFormed.carries_read {d : Connection} {s : Session} {x : Notice} {xs : List Notice}
    (hfind : sys.sessions.find? d = some s) (hwaiting : sys.engine.presence.waiting d = x :: xs)
    (hrefusals : ((sys.engine.leaving d xs).handleNotice s x).engine.refusals =
      sys.engine.refusals) :
    Carries sys (sys.keep ((sys.engine.leaving d xs).handleNotice s x)).2 c := by
  have hleaving := h.leaving d xs
  have hquiet := hleaving.quiet_handleNotice hrefusals c
  have hleft := Presence.waiting_editBox hwaiting xs c
  have hown : ((sys.engine.leaving d xs).handleNotice s x).session.connection = d :=
    (Engine.connection_handleNotice _ s x).trans (h.own d s hfind)
  have hsession : (sys.keep ((sys.engine.leaving d xs).handleNotice s x)).2.sessions.find? c =
      if c = d then some ((sys.engine.leaving d xs).handleNotice s x).session
      else sys.sessions.find? c := by
    show (sys.sessions.insert _ _).find? c = _
    rw [Table.find?_insert, hown]
  by_cases hc : c = d
  · -- reading `x` follows it, and a heading follows all that waits: the sum is the same
    subst hc
    refine .stays fun n hn => ⟨hquiet.name n hn, ?_⟩
    obtain ⟨news, hnews, hnone⟩ := hquiet.waiting
    have hnews : ((sys.engine.leaving c xs).handleNotice s x).engine.presence.waiting c =
        xs ++ news := by
      rw [hnews]
      show (sys.engine.presence.editBox c fun b => { b with items := xs }).waiting c ++ news = _
      rw [hleft, if_pos rfl]
    unfold heading?
    rw [hsession, if_pos rfl, hfind, hwaiting]
    show some (Notice.followAll ((sys.engine.leaving c xs).handleNotice s x).session.name
      (((sys.engine.leaving c xs).handleNotice s x).engine.presence.waiting c)) = some n ↔ _
    rw [hnews, Notice.followAll_append, Notice.followAll_of_not_isRenaming hnone,
      Engine.name_handleNotice]
    exact Iff.rfl
  · rw [if_neg hc] at hsession hleft
    have hleaves : sys.engine.presence.Quiet (sys.engine.leaving d xs).presence c :=
      .of_waiting (fun _ => id) hleft
    exact .of_quiet hsession (hleaves.trans hquiet)

/-- A session that comes is in step, and the others do not notice. -/
theorem WellFormed.carries_connect {n : Name} {s : Session} {engine : Engine}
    (hconnect : sys.engine.connect n = some (s, engine))
    (hrefusals : engine.refusals = sys.engine.refusals) :
    Carries sys ⟨engine, sys.sessions.insert s.connection s⟩ c := by
  rcases sys.engine.connect_cases n with ⟨-, heq⟩ | ⟨hn, heq⟩
  · rw [heq] at hconnect
    cases hconnect
  rw [heq] at hconnect
  cases hconnect
  have hquiet := h.engine.quiet_probes hn hrefusals c
  by_cases hc : c = ⟨sys.engine.presence.arrivals⟩
  · subst hc
    refine .comes (Nat.le_refl _) fun m hm => ?_
    have hm : ((sys.engine.presence.accept sys.engine.capacity).2.attach n
        ⟨sys.engine.presence.arrivals⟩).nameOf? ⟨sys.engine.presence.arrivals⟩ = some m :=
      hquiet.name m hm
    rw [h.engine.presence.nameOf?_attach, if_pos rfl] at hm
    cases hm
    obtain ⟨news, hnews, hnone⟩ := hquiet.waiting
    have hempty : (sys.engine.attached n).presence.waiting ⟨sys.engine.presence.arrivals⟩ = [] := by
      refine (Presence.waiting_attach _ n _ _).trans ?_
      rw [if_pos rfl]
    rw [hempty, List.nil_append] at hnews
    unfold heading?
    simp only [Session.start, Table.find?_insert, if_true, Option.map_some]
    rw [hnews, Notice.followAll_of_not_isRenaming hnone]
  · refine .of_quiet ?_ ((h.engine.quiet_attached hc).trans hquiet)
    exact (Table.find?_insert _ _ _ _).trans (if_neg hc)

/-- A step that is not a command of the session itself. -/
theorem WellFormed.carries_act {a : Action}
    (hrefusals : (sys.act a).engine.refusals = sys.engine.refusals)
    (hown : ∀ command, a ≠ .command c command) : Carries sys (sys.act a) c := by
  have hsame : Carries sys sys c := .of_quiet rfl (.of_waiting (fun _ => id) rfl)
  cases a with
  | create => exact .of_quiet rfl (.of_waiting (fun _ => id) rfl)
  | setAlias => exact .of_quiet rfl (.of_waiting (fun _ => id) rfl)
  | delete n =>
    rcases sys.act_delete_cases n with heq | ⟨gone, engine, hdelete, heq⟩
    · rw [heq]
      exact hsame
    · rw [heq] at hrefusals ⊢
      exact .of_quiet rfl (h.engine.quiet_deletePlayer hdelete hrefusals c)
  | connect n =>
    rcases sys.act_connect_cases n with heq | ⟨s, engine, hconnect, heq⟩
    · rw [heq]
      exact hsame
    · rw [heq] at hrefusals ⊢
      exact h.carries_connect hconnect hrefusals
  | disconnect d => exact .of_quiet rfl (h.engine.quiet_disconnect hrefusals c)
  | command d command =>
    rcases sys.act_command_cases d command with heq | ⟨s, hfind, heq⟩
    · rw [heq]
      exact hsame
    have hd := h.own d s hfind
    have hc : c ≠ s.connection := by
      rintro rfl
      exact hown command (hd ▸ rfl)
    rw [heq] at hrefusals ⊢
    have hkept : ∀ t : Session, t.connection = s.connection → ∀ reply,
        Carries sys (sys.keep ⟨reply, t, sys.engine⟩).2 c := by
      intro t ht reply
      refine .of_quiet ?_ (.of_waiting (fun _ => id) rfl)
      exact (Table.find?_insert _ _ _ _).trans (if_neg (ht ▸ hc))
    rcases sys.engine.handleCommand_cases s command with
      ⟨-, hturn⟩ | ⟨n, -, ⟨-, hturn⟩ | ⟨-, hturn⟩⟩
    · rw [hturn]
      exact hkept s rfl _
    · rw [hturn]
      exact hkept (s.renamed n) rfl _
    · exact h.carries_performs hturn hrefusals hc
  | read d =>
    rcases sys.act_read_cases d with heq | ⟨s, x, xs, hfind, hwaiting, heq⟩
    · rw [heq]
      exact hsame
    · rw [heq] at hrefusals ⊢
      exact h.carries_read hfind hwaiting hrefusals

/-! ## Steps in and out of step -/

/-- At this step the session's player takes another name, and it is the name that the session, out
    of step, was heading for. -/
def TakesHeading (sys : System) (a : Action) (c : Connection) : Prop :=
  ∃ old new, old ≠ new ∧ sys.engine.presence.nameOf? c = some old ∧
    (sys.act a).engine.presence.nameOf? c = some new ∧ sys.heading? c = some new

/-- A session that is attached after a step of others was in step or is led back, or it has just
    come; in any other case it is out of step. -/
theorem WellFormed.inStep_act_iff {a : Action} {n : Name}
    (hrefusals : (sys.act a).engine.refusals = sys.engine.refusals)
    (hown : ∀ command, a ≠ .command c command)
    (hn : (sys.act a).engine.presence.nameOf? c = some n) :
    (sys.act a).InStep c ↔ sys.InStep c ∨ sys.TakesHeading a c := by
  have hlocal : (sys.act a).InStep c ↔ (sys.act a).heading? c = some n := by
    refine ⟨fun hstep => hstep n hn, fun hheading m hm => ?_⟩
    rwa [← Option.some.inj (hn.symm.trans hm)]
  rw [hlocal]
  rcases h.carries_act hrefusals hown with ⟨hnew, hheading⟩ | ⟨hname⟩ | ⟨hne, hold, hnew, hheading⟩
  · have hnone := h.engine.presence.nameOf?_next hnew
    refine ⟨fun _ => Or.inl fun m hm => ?_, fun _ => hheading n hn⟩
    rw [hnone] at hm
    cases hm
  · obtain ⟨hbefore, hheading⟩ := hname n hn
    rw [hheading]
    constructor
    · intro hstep
      refine Or.inl fun m hm => ?_
      rwa [← Option.some.inj (hbefore.symm.trans hm)]
    · rintro (hstep | ⟨old, new, hne, hold, hnew, -⟩)
      · exact hstep n hbefore
      · exact absurd (Option.some.inj (hold.symm.trans (hbefore.trans (hn.symm.trans hnew)))) hne
  · next old new =>
    obtain rfl : new = n := Option.some.inj (hnew.symm.trans hn)
    rw [hheading]
    constructor
    · rintro (hstep | hstep)
      · refine Or.inl fun m hm => ?_
        rwa [← Option.some.inj (hold.symm.trans hm)]
      · exact Or.inr ⟨old, new, hne, hold, hnew, hstep⟩
    · rintro (hstep | ⟨old', new', hne', hold', hnew', hstep⟩)
      · exact Or.inl (hstep old hold)
      · rw [Option.some.inj (hnew.symm.trans hnew')]
        exact Or.inr hstep

/-- A session that is attached by a step of others has just come. -/
theorem WellFormed.arrivals_le_of_comes {a : Action} {n : Name}
    (hrefusals : (sys.act a).engine.refusals = sys.engine.refusals)
    (hown : ∀ command, a ≠ .command c command) (hname : sys.engine.presence.nameOf? c = none)
    (hn : (sys.act a).engine.presence.nameOf? c = some n) :
    sys.engine.presence.arrivals ≤ c.number := by
  rcases h.carries_act hrefusals hown with ⟨hnew, -⟩ | ⟨hstays⟩ | ⟨-, hold, -, -⟩
  · exact hnew
  · cases hname.symm.trans (hstays n hn).1
  · cases hname.symm.trans hold

omit h in
/-- An element of a list with one more at its end is one of the list, or the last. -/
theorem exists_concat_iff {α : Type} (p : List α → α → Prop) {as : List α} {a : α} :
    (∃ before b later, as ++ [a] = before ++ b :: later ∧ p before b) ↔
      (∃ before b later, as = before ++ b :: later ∧ p before b) ∨ p as a := by
  constructor
  · rintro ⟨before, b, later, heq, hb⟩
    rcases List.eq_nil_or_concat later with rfl | ⟨later, l, rfl⟩
    · obtain ⟨rfl, hba⟩ := List.append_inj' heq rfl
      cases hba
      exact Or.inr hb
    · rw [List.concat_eq_append, ← List.cons_append, ← List.append_assoc] at heq
      obtain ⟨rfl, -⟩ := List.append_inj' heq rfl
      exact Or.inl ⟨before, b, later, rfl, hb⟩
  · rintro (⟨before, b, later, rfl, hb⟩ | ha)
    · exact ⟨before, b, later ++ [a], by simp, hb⟩
    · exact ⟨as, a, [], rfl, ha⟩

/-- Over a run without commands of the session: it is in step at the end when it was in step at the
    beginning or was led back on the way. -/
theorem WellFormed.inStep_after_iff {n : Name} (as : List Action)
    (hrefusals : (sys.after as).engine.refusals = sys.engine.refusals)
    (hown : ∀ command, .command c command ∉ as)
    (hn : (sys.after as).engine.presence.nameOf? c = some n) :
    (sys.after as).InStep c ↔ sys.InStep c ∨
      ∃ before a later, as = before ++ a :: later ∧ (sys.after before).TakesHeading a c := by
  induction as using List.reverseRecOn generalizing n with
  | nil =>
    show sys.InStep c ↔ _
    simp
  | append_singleton as a ih =>
    rw [after_concat] at hrefusals hn ⊢
    have hbefore := (sys.precedes_after as).refusals
    have hstep := ((sys.after as).precedes_act a).refusals
    have hnone : (sys.after as).engine.refusals = sys.engine.refusals :=
      Nat.le_antisymm (Nat.le_trans hstep (Nat.le_of_eq hrefusals)) hbefore
    have hafter := h.after as
    have hcommands : ∀ command, .command c command ∉ as := fun command hmem =>
      hown command (List.mem_append_left _ hmem)
    have ha : ∀ command, a ≠ .command c command := fun command heq =>
      hown command (heq ▸ List.mem_append_right _ List.mem_cons_self)
    have hlast := hafter.inStep_act_iff (hrefusals.trans hnone.symm) ha hn
    rw [exists_concat_iff (fun before b => (sys.after before).TakesHeading b c), ← or_assoc]
    cases hname : (sys.after as).engine.presence.nameOf? c with
    | some m => rw [hlast, ih hnone hcommands hname]
    | none =>
      -- it comes with this step, so until now it stood under no name and was in step
      have hstart : sys.InStep c := by
        have hnew := hafter.arrivals_le_of_comes (hrefusals.trans hnone.symm) ha hname hn
        have hnone := h.engine.presence.nameOf?_next
          (Nat.le_trans (sys.precedes_after as).arrivals hnew)
        intro k hk
        rw [hnone] at hk
        cases hk
      have hend : (sys.after as).InStep c := by
        intro k hk
        rw [hname] at hk
        cases hk
      simp [hlast, hstart, hend]

end

/-- **When an idle session has its own name.**  In a run in which no notice is refused, a session
    with an empty mailbox has the name its connection stands under exactly when it was in step after
    its last command, or its player has since taken the very name that the session was heading
    for. -/
theorem name_eq_iff (capacity : Nat) (earlier later : List Action) (c : Connection) (n : Name)
    (hrefusals : ((start .empty capacity).after (earlier ++ later)).engine.refusals = 0)
    (hown : ∀ command, .command c command ∉ later)
    (hname : ((start .empty capacity).after (earlier ++ later)).engine.presence.nameOf? c = some n)
    (hidle : ((start .empty capacity).after (earlier ++ later)).engine.presence.waiting c = []) :
    ∃ s, ((start .empty capacity).after (earlier ++ later)).sessions.find? c = some s ∧
      (s.name = n ↔ ((start .empty capacity).after earlier).InStep c ∨
        ∃ before a rest, later = before ++ a :: rest ∧
          ((start .empty capacity).after (earlier ++ before)).TakesHeading a c) := by
  have hstart : (start .empty capacity).WellFormed :=
    wellFormed_start Graph.wellFormed_empty capacity
  have hmiddle := hstart.after earlier
  have hgrow := (((start .empty capacity).after earlier).precedes_after later).refusals
  simp only [after_append] at hrefusals hname hidle ⊢
  obtain ⟨s, hs⟩ := (hmiddle.after later).present c n hname
  refine ⟨s, hs, ?_⟩
  have hsame : (((start .empty capacity).after earlier).after later).engine.refusals =
      ((start .empty capacity).after earlier).engine.refusals := by
    have hzero : ((start .empty capacity).after earlier).engine.refusals = 0 :=
      Nat.le_zero.1 (hrefusals ▸ hgrow)
    rw [hrefusals, hzero]
  rw [← hmiddle.inStep_after_iff later hsame hown hname]
  have hheading : (((start .empty capacity).after earlier).after later).heading? c =
      some s.name := by
    unfold heading?
    rw [hs, hidle]
    rfl
  constructor
  · rintro rfl m hm
    rwa [← Option.some.inj (hname.symm.trans hm)]
  · intro hstep
    exact Option.some.inj (hheading.symm.trans (hstep n hname))

/-! ### A name given up and taken

Of two friends one takes another name, and the other, who has not read about it yet, the name that
has become free.  The notice then tells the second friend that his new name has become another. -/

/-- The run up to the command after which the first friend's session is out of step. -/
def namesCross : List Action :=
  [.create ⟨"p", by decide⟩, .create ⟨"x", by decide⟩,
    .connect ⟨"p", by decide⟩, .connect ⟨"x", by decide⟩,
    .command ⟨0⟩ (.request "x"), .command ⟨1⟩ (.accept "p"), .command ⟨1⟩ (.rename "y"),
    .command ⟨0⟩ (.rename "x")]

/-- The first friend reads what waits. -/
def readFive : List Action := List.replicate 5 (.read ⟨0⟩)

/-- The first friend's session is idle and stands under the name `x`. -/
theorem idle_namesCross :
    ((start .empty 64).after (namesCross ++ readFive)).engine.refusals = 0 ∧
      (∀ command, .command ⟨0⟩ command ∉ readFive) ∧
      ((start .empty 64).after (namesCross ++ readFive)).engine.presence.nameOf? ⟨0⟩ =
        some ⟨"x", by decide⟩ ∧
      ((start .empty 64).after (namesCross ++ readFive)).engine.presence.waiting ⟨0⟩ = [] := by
  refine ⟨by decide +kernel, ?_, by decide +kernel, by decide +kernel⟩
  intro command hmem
  cases List.eq_of_mem_replicate hmem

theorem name_eq_iff_namesCross :
    ∃ s, ((start .empty 64).after (namesCross ++ readFive)).sessions.find? ⟨0⟩ = some s ∧
      (s.name = ⟨"x", by decide⟩ ↔ ((start .empty 64).after namesCross).InStep ⟨0⟩ ∨
        ∃ before a rest, readFive = before ++ a :: rest ∧
          ((start .empty 64).after (namesCross ++ before)).TakesHeading a ⟨0⟩) :=
  name_eq_iff 64 namesCross readFive ⟨0⟩ ⟨"x", by decide⟩ idle_namesCross.1 idle_namesCross.2.1
    idle_namesCross.2.2.1 idle_namesCross.2.2.2

/-- An idle session need not have the name its connection stands under. -/
theorem not_name_eq :
    ¬ ∀ (capacity : Nat) (as : List Action) (c : Connection) (n : Name),
      ((start .empty capacity).after as).engine.refusals = 0 →
      ((start .empty capacity).after as).engine.presence.nameOf? c = some n →
      ((start .empty capacity).after as).engine.presence.waiting c = [] →
      (((start .empty capacity).after as).sessions.find? c).map (·.name) = some n := by
  intro hall
  have hname := hall 64 (namesCross ++ readFive) ⟨0⟩ ⟨"x", by decide⟩ idle_namesCross.1
    idle_namesCross.2.2.1 idle_namesCross.2.2.2
  have hother :
      (((start .empty 64).after (namesCross ++ readFive)).sessions.find? ⟨0⟩).map (·.name) =
        some ⟨"y", by decide⟩ := by decide +kernel
  rw [hother] at hname
  exact absurd hname (by decide)

end System

end Amity
