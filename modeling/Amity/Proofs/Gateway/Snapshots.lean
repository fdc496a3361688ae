/-
  Amity/Proofs/Gateway/Snapshots.lean
  ===================================
  **Whose ties a client is shown.**  A snapshot is assembled from the ties of the name that the
  session remembers.  A session that comes, or gives a command, takes the name its connection stands
  under, so a greeting and the answer to a command show the player's own ties.  Neither a notice nor
  a text that is no command lets the session look up its name.  What is shown then are the ties of
  the name to which the notices read since have led the session (`LastTook`), whoever has that name
  now: after a sibling's renaming whose news still waits it is the name given up, and another player
  may have taken it.
-/
import Amity.Gateway.Sockets
import Amity.Proofs.System.Connections
import Amity.Proofs.System.OwnName

namespace Amity

namespace Engine

theorem reply_handleNotice_ne_close (e : Engine) (s : Session) (x : Notice) :
    (e.handleNotice s x).reply ≠ .close := by
  cases x with
  | update reset => cases reset <;> nofun
  | status => nofun
  | renamed =>
    unfold handleNotice
    dsimp only
    split <;> nofun
  | probe =>
    unfold handleNotice answerProbe
    dsimp only
    split <;> nofun

end Engine

namespace System

/-! ## The name that a session remembers -/

def remembered? (sys : System) (c : Connection) : Option Name :=
  (sys.sessions.find? c).map (·.name)

/-- What a session reads at an input. -/
def readsAt (sys : System) (c : Connection) : Input → List Notice
  | .action (.read d) => if c = d then (sys.engine.presence.waiting d).take 1 else []
  | .notice d x => if c = d then [x] else []
  | _ => []

/-- With this input the session takes the name its connection stands under: it comes, or it gives a
    command. -/
def Takes (sys : System) (c : Connection) (i : Input) : Prop :=
  (∃ n, i = .action (.connect n) ∧ (sys.connect n).map (·.1) = some c) ∨
    ∃ command, i = .action (.command c command)

/-- In a run the session last took the name it stood under when that was `k`, and it has read these
    notices since. -/
inductive LastTook (sys : System) (c : Connection) (k : Name) :
    List Input → List Notice → Prop where
  | takes {is : List Input} {i : Input} (htakes : (sys.run is).Takes c i)
      (hname : (sys.run (is ++ [i])).engine.presence.nameOf? c = some k) :
      LastTook sys c k (is ++ [i]) []
  | reads {is : List Input} {xs : List Notice} {i : Input} (hlast : LastTook sys c k is xs)
      (hi : ¬ (sys.run is).Takes c i) :
      LastTook sys c k (is ++ [i]) (xs ++ (sys.run is).readsAt c i)

theorem remembered?_keep (sys : System) (turn : Turn) (c : Connection) :
    (sys.keep turn).2.remembered? c =
      if c = turn.session.connection then some turn.session.name else sys.remembered? c := by
  show ((sys.sessions.insert turn.session.connection turn.session).find? c).map (·.name) = _
  rw [Table.find?_insert]
  split <;> rfl

section

variable {sys : System} (h : sys.WellFormed) {c : Connection}
include h

/-- A session that is handed a notice follows it, and the others do not notice. -/
theorem WellFormed.remembered?_handleNotice {d : Connection} {s : Session}
    (hfind : sys.sessions.find? d = some s) (e : Engine) (x : Notice) :
    (sys.keep (e.handleNotice s x)).2.remembered? c =
      (sys.remembered? c).map (Notice.followAll · (if c = d then [x] else [])) := by
  rw [remembered?_keep, Engine.connection_handleNotice, Engine.name_handleNotice, h.own d s hfind]
  split
  · next hc =>
    subst hc
    simp [remembered?, hfind, Notice.followAll]
  · simp [Notice.followAll]

omit h in
/-- A notice for a connection without a session is followed by nobody. -/
theorem remembered?_of_absent {d : Connection} (hfind : sys.sessions.find? d = none)
    (xs : List Notice) :
    sys.remembered? c =
      (sys.remembered? c).map (Notice.followAll · (if c = d then xs else [])) := by
  split
  · next hc =>
    subst hc
    simp [remembered?, hfind]
  · simp [Notice.followAll]

/-- Unless it takes the name it stands under, a session goes from name to name with what it
    reads. -/
theorem WellFormed.remembered?_take {i : Input} (hi : ¬ sys.Takes c i) :
    (sys.take i).remembered? c =
      (sys.remembered? c).map (Notice.followAll · (sys.readsAt c i)) := by
  have hnothing : sys.remembered? c = (sys.remembered? c).map (Notice.followAll · []) := by
    simp [Notice.followAll]
  cases i with
  | hangUp => exact hnothing
  | notice d x =>
    cases hfind : sys.sessions.find? d with
    | none =>
      have hsame : sys.take (.notice d x) = sys := by simp [System.take, handle, hfind]
      rw [hsame]
      exact remembered?_of_absent hfind [x]
    | some s =>
      have hkeep : sys.take (.notice d x) = (sys.keep (sys.engine.handleNotice s x)).2 := by
        simp [System.take, handle, hfind]
      rw [hkeep]
      exact h.remembered?_handleNotice hfind sys.engine x
  | action a =>
    show (sys.act a).remembered? c = _
    cases a with
    | create => exact hnothing
    | setAlias => exact hnothing
    | disconnect => exact hnothing
    | delete n =>
      rcases sys.act_delete_cases n with heq | ⟨_, _, -, heq⟩
      · rw [heq]
        exact hnothing
      · rw [heq]
        exact hnothing
    | connect n =>
      rcases sys.act_connect_cases n with heq | ⟨s, engine, hconnect, heq⟩
      · rw [heq]
        exact hnothing
      · have hc : c ≠ s.connection := by
          rintro rfl
          exact hi (Or.inl ⟨n, rfl, by simp [connect, hconnect]⟩)
        rw [heq]
        refine Eq.trans ?_ hnothing
        show ((sys.sessions.insert s.connection s).find? c).map (·.name) = _
        rw [Table.find?_insert, if_neg hc]
        rfl
    | command d command =>
      have hc : c ≠ d := by
        rintro rfl
        exact hi (Or.inr ⟨command, rfl⟩)
      cases hfind : sys.sessions.find? d with
      | none =>
        rw [act_command_same hfind]
        exact hnothing
      | some s =>
        rw [act_command hfind, remembered?_keep, Engine.connection_handleCommand, h.own d s hfind,
          if_neg hc]
        exact hnothing
    | read d =>
      show _ = (sys.remembered? c).map
        (Notice.followAll · (if c = d then (sys.engine.presence.waiting d).take 1 else []))
      cases hwaiting : sys.engine.presence.waiting d with
      | nil =>
        rw [act_read_same (Or.inl hwaiting), List.take_nil, ite_self]
        exact hnothing
      | cons x xs =>
        cases hfind : sys.sessions.find? d with
        | none =>
          rw [act_read_same (Or.inr hfind)]
          exact remembered?_of_absent hfind _
        | some s =>
          rw [act_read hfind hwaiting]
          exact h.remembered?_handleNotice hfind (sys.engine.leaving d xs) x

/-- Whoever gets a name by an input takes it with this input. -/
theorem WellFormed.takes_of_nameOf? {i : Input} {n : Name}
    (hbefore : sys.engine.presence.nameOf? c = none)
    (hafter : (sys.take i).engine.presence.nameOf? c = some n) : sys.Takes c i := by
  cases h.goes i with
  | @comes m _ hcomes =>
    cases hattached : (sys.engine.attached m).presence.nameOf? c with
    | none => cases (hcomes.nameOf?_eq_none hattached).1.symm.trans hafter
    | some k =>
      have hattached : ((sys.engine.presence.accept sys.engine.capacity).2.attach m
          ⟨sys.engine.presence.arrivals⟩).nameOf? c = some k := hattached
      rw [h.engine.presence.nameOf?_attach, hbefore] at hattached
      have hc : c = ⟨sys.engine.presence.arrivals⟩ := by
        by_contra hc
        rw [if_neg hc] at hattached
        cases hattached
      refine Or.inl ⟨m, rfl, ?_⟩
      rcases sys.engine.connect_cases m with ⟨-, heq⟩ | ⟨-, heq⟩
      · have hsame : sys.take (.action (.connect m)) = sys := by
          simp [System.take, System.act, System.connect, heq]
        rw [hsame, hbefore] at hafter
        cases hafter
      · simp [System.connect, heq, hc, Session.start]
  | @leaves d _ hleaves =>
    have hdetached : (sys.engine.detached d).presence.nameOf? c = none := by
      show (sys.engine.presence.detach d).2.nameOf? c = none
      rw [h.engine.presence.nameOf?_detach, hbefore, ite_self]
    cases (hleaves.nameOf?_eq_none hdetached).1.symm.trans hafter
  | stays hstays => cases (hstays.nameOf?_eq_none hbefore).1.symm.trans hafter

/-- A session that takes the name it stands under remembers this name. -/
theorem WellFormed.remembered?_of_takes {i : Input} {n : Name} (hi : sys.Takes c i)
    (hn : (sys.take i).engine.presence.nameOf? c = some n) :
    (sys.take i).remembered? c = some n := by
  rcases hi with ⟨m, rfl, hcomes⟩ | ⟨command, rfl⟩
  · rcases sys.engine.connect_cases m with ⟨-, heq⟩ | ⟨hm, heq⟩
    · simp [System.connect, heq] at hcomes
    · have hc : c = ⟨sys.engine.presence.arrivals⟩ := by
        simpa [System.connect, heq, Session.start, eq_comm] using hcomes
      have htake : sys.take (.action (.connect m)) =
          ⟨sys.engine.connected m, sys.sessions.insert c (.start c m)⟩ := by
        simp [System.take, System.act, System.connect, heq, Session.start, hc]
      rw [htake] at hn ⊢
      have hn : ((sys.engine.presence.accept sys.engine.capacity).2.attach m
          ⟨sys.engine.presence.arrivals⟩).nameOf? c = some n :=
        (h.engine.attached hm).attached_of_notifyAll hn
      rw [h.engine.presence.nameOf?_attach, if_pos hc] at hn
      show ((sys.sessions.insert c (.start c m)).find? c).map (·.name) = some n
      rw [Table.find?_insert, if_pos rfl]
      exact hn
  · have hn : (sys.act (.command c command)).engine.presence.nameOf? c = some n := hn
    show (sys.act (.command c command)).remembered? c = some n
    cases hfind : sys.sessions.find? c with
    | none =>
      rw [act_command_same hfind] at hn
      obtain ⟨s, hs⟩ := h.present c n hn
      cases hfind.symm.trans hs
    | some s =>
      obtain rfl := h.own c s hfind
      rw [act_command hfind] at hn ⊢
      rw [remembered?_keep, Engine.connection_handleCommand, if_pos rfl]
      exact congrArg some (h.engine.name_handleCommand hn).1

end

section

variable {sys : System} (h : sys.Sound) {c : Connection}
include h

/-- A session that is attached after a run took its name on the way. -/
theorem Sound.exists_lastTook {is : List Input} {n : Name}
    (hstart : sys.engine.presence.nameOf? c = none)
    (hn : (sys.run is).engine.presence.nameOf? c = some n) : ∃ k xs, sys.LastTook c k is xs := by
  induction is using List.reverseRecOn generalizing n with
  | nil => cases hstart.symm.trans hn
  | append_singleton is i ih =>
    by_cases hi : (sys.run is).Takes c i
    · exact ⟨n, [], .takes hi hn⟩
    · rw [run_concat] at hn
      cases hbefore : (sys.run is).engine.presence.nameOf? c with
      | none => exact absurd ((h.run is).wellFormed.takes_of_nameOf? hbefore hn) hi
      | some m =>
        obtain ⟨k, xs, hlast⟩ := ih hbefore
        exact ⟨k, _, hlast.reads hi⟩

/-- What a session has read since it took a name leads from that name to the one it remembers. -/
theorem Sound.remembered?_run {is : List Input} {k : Name} {xs : List Notice}
    (hlast : sys.LastTook c k is xs) :
    (sys.run is).remembered? c = some (Notice.followAll k xs) := by
  induction hlast with
  | @takes is _ htakes hname =>
    rw [run_concat] at hname ⊢
    exact (h.run is).wellFormed.remembered?_of_takes htakes hname
  | @reads is xs i _ hi ih =>
    rw [run_concat, (h.run is).wellFormed.remembered?_take hi, ih, Option.map_some,
      Notice.followAll_append]

end

end System

namespace Gateway

/-! ## Occasions -/

/-- The moments at which a client is sent a snapshot: it is greeted, a text of its own is answered,
    or its session has read a notice. -/
inductive Occasion where
  | greeting (n : Name)
  | text (c : Connection) (text : String)
  | notice (c : Connection)
  deriving DecidableEq, Repr

namespace Occasion

/-- What an occasion is for the system: a text that is no command is nothing to it. -/
def inputs : Occasion → List Input
  | .greeting n => [.action (.connect n)]
  | .text c t =>
    match Command.parse t with
    | .error _ => []
    | .ok command => [.action (.command c command)]
  | .notice c => [.action (.read c)]

/-- The connection whose client is answered, and the answer. -/
def answer? (sys : System) : Occasion → Option (Connection × Reply)
  | .greeting n => (sys.connect n).map fun r => (r.1, .snapshot)
  | .text c t =>
    match Command.parse t with
    | .error _ => some (c, .snapshot)
    | .ok command => (sys.command c command).map fun r => (c, r.1)
  | .notice c => (sys.readOne c).map fun r => (c, r.2.1)

/-- A greeting or a command, with which the session takes the name it stands under. -/
def isTaking : Occasion → Bool
  | .greeting _ => true
  | .text _ t => (Command.parse t).toOption.isSome
  | .notice _ => false

end Occasion

namespace Hub

/-! What the gateway sends on an occasion is the answer, put into frames with the system that the
occasion leaves. -/

theorem accept_eq (hub : Hub) (n : Name) :
    hub.accept n = ((Occasion.greeting n).answer? hub.system).map fun r =>
      let sys := hub.system.run (Occasion.greeting n).inputs
      (r.1, replyFrames sys r.1 r.2, ⟨sys, hub.sockets ++ [r.1]⟩) := by
  simp only [accept, Occasion.answer?, Occasion.inputs, System.run, List.foldl_cons,
    List.foldl_nil, System.take, System.act]
  cases hub.system.connect n <;> rfl

theorem receive_eq (hub : Hub) (c : Connection) (text : String) :
    hub.receive c text =
      match (Occasion.text c text).answer? hub.system with
      | none => ([], hub)
      | some r =>
        let hub := { hub with system := hub.system.run (Occasion.text c text).inputs }
        (replyFrames hub.system r.1 r.2, if r.2 = .close then hub.finish c else hub) := by
  simp only [receive, Occasion.answer?, Occasion.inputs]
  cases Command.parse text with
  | error => rfl
  | ok command =>
    simp only [System.run, List.foldl_cons, List.foldl_nil, System.take, System.act]
    cases hub.system.command c command <;> rfl

/-- The first connection with something to read reads it, and the rest is read after that. -/
theorem readWaiting_succ (hub : Hub) (limit : Nat) :
    hub.readWaiting (limit + 1) =
      match hub.sockets.findSome? fun c => (Occasion.notice c).answer? hub.system with
      | none => ([], hub)
      | some r =>
        let sys := hub.system.run (Occasion.notice r.1).inputs
        let later := readWaiting limit { hub with system := sys }
        (replyFrames sys r.1 r.2 ++ later.1, later.2) := by
  have hanswers : (fun c => (Occasion.notice c).answer? hub.system) =
      Option.map (fun r => (r.1, r.2.2.1)) ∘
        fun c => (hub.system.readOne c).map fun r => (c, r) := by
    funext c
    rw [Function.comp_apply, Option.map_map]
    rfl
  rw [hanswers, ← List.map_findSome?]
  conv_lhs => unfold readWaiting
  cases hfirst : hub.sockets.findSome? fun c => (hub.system.readOne c).map fun r => (c, r) with
  | none => rfl
  | some r =>
    obtain ⟨c, -, hc⟩ := List.exists_of_findSome?_eq_some hfirst
    obtain ⟨⟨x, reply, sys⟩, hread, rfl⟩ := Option.map_eq_some_iff.1 hc
    have hrun : hub.system.run (Occasion.notice c).inputs = sys := by
      show ((hub.system.readOne c).map (·.2.2)).getD hub.system = sys
      rw [hread]
      rfl
    simp only [Option.map_some, hrun]

end Hub

/-! ## What is shown -/

/-- What a client is sent in front of the snapshot. -/
def newsFrames (c : Connection) : Reply → Sent
  | .renamed old new => [(c, .event (.renamed old new))]
  | _ => []

/-- The client of a connection is sent a snapshot that is assembled from the ties of this name. -/
def Shows (sys : System) (c : Connection) (reply : Reply) (m : Name) : Prop :=
  ∃ s t, sys.sessions.find? c = some s ∧ sys.engine.database.graph.load m = .ok t ∧
    Hub.replyFrames sys c reply = newsFrames c reply ++ [(c, .snapshot (s.snapshot t))]

theorem shows_of_remembered? {sys : System} (h : sys.WellFormed) {c : Connection} {reply : Reply}
    {m : Name} (hm : sys.remembered? c = some m) (hreply : reply ≠ .close) :
    Shows sys c reply m := by
  obtain ⟨s, hs, rfl⟩ := Option.map_eq_some_iff.1 hm
  have hload := Graph.load_eq_ties h.engine.graph.canonical s.name
  refine ⟨s, _, hs, hload, ?_⟩
  have hsnapshot : Hub.snapshotFrames sys c =
      [(c, .snapshot (s.snapshot (sys.engine.database.graph.ties s.name)))] := by
    simp [Hub.snapshotFrames, hs, Engine.snapshot, hload]
  cases reply with
  | snapshot => exact hsnapshot
  | renamed old new => exact congrArg ((c, .event (.renamed old new)) :: ·) hsnapshot
  | close => exact absurd rfl hreply

section

variable {sys : System} {o : Occasion} {c : Connection} {reply : Reply}
  (hanswer : o.answer? sys = some (c, reply))
include hanswer

theorem takes_of_isTaking (htaking : o.isTaking = true) :
    ∃ i, o.inputs = [i] ∧ sys.Takes c i := by
  cases o with
  | greeting n =>
    obtain ⟨r, hconnect, heq⟩ := Option.map_eq_some_iff.1 hanswer
    cases heq
    exact ⟨.action (.connect n), rfl, Or.inl ⟨n, rfl, by rw [hconnect]; rfl⟩⟩
  | notice d => cases htaking
  | text d t =>
    simp only [Occasion.answer?, Occasion.inputs, Occasion.isTaking] at hanswer htaking ⊢
    cases hparse : Command.parse t with
    | error =>
      rw [hparse] at htaking
      cases htaking
    | ok command =>
      rw [hparse] at hanswer
      obtain ⟨_, -, heq⟩ := Option.map_eq_some_iff.1 hanswer
      cases heq
      exact ⟨_, rfl, Or.inr ⟨command, rfl⟩⟩

/-- A session that stays attached is not told to end. -/
theorem reply_ne_close (h : sys.WellFormed) {n : Name}
    (hn : (sys.run o.inputs).engine.presence.nameOf? c = some n) : reply ≠ .close := by
  cases o with
  | greeting m =>
    obtain ⟨_, -, heq⟩ := Option.map_eq_some_iff.1 hanswer
    cases heq
    nofun
  | notice d =>
    obtain ⟨⟨x, reply, sys'⟩, hread, heq⟩ := Option.map_eq_some_iff.1 hanswer
    cases heq
    simp only [System.readOne, Option.bind_eq_bind, Option.bind_eq_some_iff, System.handle,
      Option.map_eq_some_iff] at hread
    obtain ⟨⟨y, p⟩, -, _, ⟨s, -, rfl⟩, hread⟩ := hread
    cases hread
    exact Engine.reply_handleNotice_ne_close _ s y
  | text d t =>
    simp only [Occasion.answer?, Occasion.inputs] at hanswer hn
    cases hparse : Command.parse t with
    | error =>
      rw [hparse] at hanswer
      cases hanswer
      nofun
    | ok command =>
      rw [hparse] at hanswer hn
      obtain ⟨_, hcommand, heq⟩ := Option.map_eq_some_iff.1 hanswer
      cases heq
      obtain ⟨s, hs, rfl⟩ := Option.map_eq_some_iff.1 hcommand
      obtain rfl := h.own _ s hs
      have hn : (sys.act (.command s.connection command)).engine.presence.nameOf? s.connection =
        some n := hn
      rw [System.act_command hs] at hn
      exact (h.engine.name_handleCommand hn).2

end

/-- **Whose ties a client is shown**, on every occasion and after whatever came from outside, as
    long as the session is attached.  They are the ties of the name that the notices have led the
    session to since it last took the name it stood under; on a greeting and in the answer to a
    command this is the player's own name. -/
theorem shows_ties_of (capacity : Nat) (is : List Input) (o : Occasion) (c : Connection)
    (reply : Reply) (n : Name)
    (hanswer : o.answer? ((System.start .empty capacity).run is) = some (c, reply))
    (hn : ((System.start .empty capacity).run (is ++ o.inputs)).engine.presence.nameOf? c =
      some n) :
    ∃ k xs, (System.start .empty capacity).LastTook c k (is ++ o.inputs) xs ∧
      Shows ((System.start .empty capacity).run (is ++ o.inputs)) c reply
        (Notice.followAll k xs) ∧
      (o.isTaking = true → Notice.followAll k xs = n) := by
  have hsound := System.sound_start capacity
  obtain ⟨k, xs, hlast⟩ := hsound.exists_lastTook rfl hn
  have hremembered := hsound.remembered?_run hlast
  have hbefore := (hsound.run is).wellFormed
  have hafter := (hsound.run (is ++ o.inputs)).wellFormed
  have hlocal := hn
  rw [System.run_append] at hlocal
  refine ⟨k, xs, hlast, shows_of_remembered? hafter hremembered
    (reply_ne_close hanswer hbefore hlocal), fun htaking => ?_⟩
  obtain ⟨i, hinputs, htakes⟩ := takes_of_isTaking hanswer htaking
  rw [hinputs] at hlocal
  have hown := hbefore.remembered?_of_takes htakes hlocal
  rw [hinputs, System.run_append] at hremembered
  exact Option.some.inj (hremembered.symm.trans hown)

/-! ### The old name taken

A player has two sessions.  One asks a player for friendship and takes another name for theirs; then
somebody else opens an account under the old name and asks a third player.  The second session,
which has not read about the renaming yet, reads an older notice. -/

/-- The run up to the notice. -/
def oldNameTaken : List Input :=
  [.action (.create ⟨"q", Name.isValid_q⟩), .action (.create ⟨"r", Name.isValid_r⟩),
    .action (.create ⟨"s", Name.isValid_s⟩), .action (.connect ⟨"q", Name.isValid_q⟩),
    .action (.connect ⟨"q", Name.isValid_q⟩), .action (.command ⟨0⟩ (.request "r")),
    .action (.command ⟨0⟩ (.rename "t")), .action (.create ⟨"q", Name.isValid_q⟩),
    .action (.connect ⟨"q", Name.isValid_q⟩), .action (.command ⟨2⟩ (.request "s"))]

/-- The second session reads a notice, and it stands under the name `t`. -/
theorem reads_oldNameTaken :
    (Occasion.notice ⟨1⟩).answer? ((System.start .empty 64).run oldNameTaken) =
        some (⟨1⟩, .snapshot) ∧
      ((System.start .empty 64).run
        (oldNameTaken ++ (Occasion.notice ⟨1⟩).inputs)).engine.presence.nameOf? ⟨1⟩ =
        some ⟨"t", by decide⟩ :=
  ⟨by decide +kernel, by decide +kernel⟩

theorem shows_ties_of_oldNameTaken :
    ∃ k xs, (System.start .empty 64).LastTook ⟨1⟩ k
        (oldNameTaken ++ (Occasion.notice ⟨1⟩).inputs) xs ∧
      Shows ((System.start .empty 64).run (oldNameTaken ++ (Occasion.notice ⟨1⟩).inputs)) ⟨1⟩
        .snapshot (Notice.followAll k xs) ∧
      ((Occasion.notice ⟨1⟩).isTaking = true → Notice.followAll k xs = ⟨"t", by decide⟩) :=
  shows_ties_of 64 oldNameTaken (.notice ⟨1⟩) ⟨1⟩ .snapshot ⟨"t", by decide⟩
    reads_oldNameTaken.1 reads_oldNameTaken.2

/-- A client is not always shown the ties of its own player: this one is shown whom the newcomer has
    asked. -/
theorem not_shows_own :
    ¬ ∀ (capacity : Nat) (is : List Input) (o : Occasion) (c : Connection) (reply : Reply)
      (n : Name),
      o.answer? ((System.start .empty capacity).run is) = some (c, reply) →
      ((System.start .empty capacity).run (is ++ o.inputs)).engine.presence.nameOf? c = some n →
      Shows ((System.start .empty capacity).run (is ++ o.inputs)) c reply n := by
  intro hall
  obtain ⟨s, t, -, hload, hframes⟩ := hall 64 oldNameTaken (.notice ⟨1⟩) ⟨1⟩ .snapshot
    ⟨"t", by decide⟩ reads_oldNameTaken.1 reads_oldNameTaken.2
  have hown : (((System.start .empty 64).run
      (oldNameTaken ++ (Occasion.notice ⟨1⟩).inputs)).engine.database.graph.load
        ⟨"t", by decide⟩).toOption.map (·.sent) = some [⟨"r", by decide⟩] := by decide +kernel
  have hshown : Hub.replyFrames ((System.start .empty 64).run
      (oldNameTaken ++ (Occasion.notice ⟨1⟩).inputs)) ⟨1⟩ .snapshot =
        [(⟨1⟩, .snapshot ⟨[], [⟨"s", by decide⟩], []⟩)] := by decide +kernel
  rw [hload] at hown
  have hsent : t.sent = [⟨"r", by decide⟩] := Option.some.inj hown
  rw [hshown] at hframes
  have hsnapshot : (⟨[], [⟨"s", by decide⟩], []⟩ : Snapshot) = s.snapshot t := by
    simpa [newsFrames] using hframes
  have hother : [⟨"s", by decide⟩] = t.sent := congrArg Snapshot.sent hsnapshot
  rw [hsent] at hother
  exact absurd hother (by decide)

end Gateway

end Amity
