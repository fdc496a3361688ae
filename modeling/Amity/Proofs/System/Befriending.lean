/-
  Amity/Proofs/System/Befriending.lean
  ====================================
  **The five things a player can do about another.**  To ask, to end a friendship, to take a request
  back, to say yes and to say no are one pattern: the text has to name a player, and what the
  gesture needs has to be so; then the pairs change (`friendships`, `requests`), and everybody
  concerned is told.  Where one of these is missing nothing at all happens.  Either way the session
  gets a snapshot, and goes on under the name it is attached under.

  The gestures differ in what they need, what they change and what they tell, and in nothing else.
  That each of them changes the pairs as it says is `Gesture.acts`; who is told is then proved for
  all of them at once.
-/
import Amity.Proofs.Engine.Effects
import Amity.Proofs.System.Inputs

namespace Amity

/-- What a player can do about another one. -/
inductive Gesture where
  | request
  | remove
  | cancel
  | accept
  | refuse
  deriving DecidableEq, Repr

namespace Engine

section

variable {e : Engine} {s : Session} {text : String} {act : Engine → Session → Name → Turn}

theorem withTarget_of_parse? {t : Name} (hparse : Name.parse? text = some t)
    (ht : e.hasPlayer t = true) : e.withTarget s text act = act e s t := by
  simp only [withTarget, hparse, ht, if_true]

theorem withTarget_of_none
    (hnone : ∀ t, Name.parse? text = some t → e.hasPlayer t ≠ true) :
    e.withTarget s text act = ⟨.snapshot, s, e⟩ := by
  unfold withTarget
  split
  · next t hparse => exact if_neg (hnone t hparse)
  · rfl

end

end Engine

namespace Gesture

def command (text : String) : Gesture → Command
  | .request => .request text
  | .remove => .remove text
  | .cancel => .cancel text
  | .accept => .accept text
  | .refuse => .refuse text

/-! ## Pairs -/

/-- What has to be so for `p` to do it about `t`. -/
def Applies (g : Graph) (p t : Name) : Gesture → Prop
  | .request => p ≠ t ∧ (p, t) ∉ g.requests ∧ s(p, t) ∉ g.friendships
  | .remove => s(p, t) ∈ g.friendships
  | .cancel => (p, t) ∈ g.requests
  | .accept => (t, p) ∈ g.requests
  | .refuse => (t, p) ∈ g.requests

/-- The friendships afterwards. -/
def friendships (g : Graph) (p t : Name) : Gesture → Set (Sym2 Name)
  | .remove => g.friendships \ {s(p, t)}
  | .accept => insert s(p, t) g.friendships
  | _ => g.friendships

/-- The requests afterwards; a yes answers those of both directions. -/
def requests (g : Graph) (p t : Name) : Gesture → Set (Name × Name)
  | .request => insert (p, t) g.requests
  | .remove => g.requests
  | .cancel => g.requests \ {(p, t)}
  | .accept => g.requests \ {(t, p), (p, t)}
  | .refuse => g.requests \ {(t, p)}

def attempt (g : Graph) (p t : Name) : Gesture → Except GraphError (Bool × Graph)
  | .request => g.createRequest p t
  | .remove => g.removeFriendship p t
  | .cancel => g.deleteRequest p t
  | .accept => g.acceptRequest t p
  | .refuse => g.deleteRequest t p

section

variable {g : Graph} (h : g.WellFormed) (v : Gesture) (p t : Name)
include h

theorem acts :
    g.MakesWhen (v.attempt g p t) (v.Applies g p t) (v.friendships g p t) (v.requests g p t)
      fun n => n = p ∨ n = t := by
  have hswap : (fun n => n = p ∨ n = t) = fun n => n = t ∨ n = p := funext fun n => propext or_comm
  cases v with
  | request => exact h.createRequest_acts p t
  | remove => exact h.removeFriendship_acts p t
  | cancel => exact h.deleteRequest_acts p t
  | accept =>
    have hacts := h.acceptRequest_acts t p
    rw [Sym2.eq_swap] at hacts
    exact hswap ▸ hacts
  | refuse => exact hswap ▸ h.deleteRequest_acts t p

/-- Nobody can do any of them about himself. -/
theorem ne_of_applies (happlies : v.Applies g p t) : p ≠ t := by
  cases v with
  | request => exact happlies.1
  | remove => exact h.ne_of_mem_friendships happlies
  | cancel => exact h.ne_of_mem_requests happlies
  | accept => exact (h.ne_of_mem_requests happlies).symm
  | refuse => exact (h.ne_of_mem_requests happlies).symm

end

/-! ## Whom it is told -/

/-- What each session of `t` is told.  With a yes comes a probe of the session that says it. -/
def toTarget (e : Engine) (asking : Connection) (p : Name) : Gesture → List Notice
  | .remove => [.update (some p)]
  | .accept => [.probe p (e.presence.statusOf p) asking, .update none]
  | _ => [.update none]

/-- What the other sessions of `p` are told. -/
def toSiblings (t : Name) : Gesture → Notice
  | .remove => .update (some t)
  | _ => .update none

/-- What a connection is told when the session `asking` of `p` does it about `t`. -/
def news (v : Gesture) (e : Engine) (asking : Connection) (p t : Name) (c : Connection) :
    List Notice :=
  match e.presence.nameOf? c with
  | none => []
  | some n =>
    if n = t then v.toTarget e asking p
    else if n = p ∧ c ≠ asking then [v.toSiblings t]
    else []

/-- The session afterwards: of somebody who is no friend any more no status is remembered. -/
def session (s : Session) (t : Name) : Gesture → Session
  | .remove => s.forget t
  | _ => s

/-! ## The engine -/

def change (v : Gesture) (e : Engine) (s : Session) (t : Name) : Engine.TieChange where
  outcome := match v with
    | .request => e.database.request s.name t
    | _ => e.onGraph (v.attempt e.database.graph s.name t)
  toTarget := v.toTarget e s.connection s.name
  toSiblings := v.toSiblings t
  session := v.session s t

theorem asks (v : Gesture) (e : Engine) (s : Session) (t : Name) (text : String) :
    e.Asks s t (v.command text) (v.change e s t) := by
  cases v with
  | request => exact .request
  | remove => exact .remove
  | cancel => exact .cancel
  | accept => exact .accept
  | refuse => exact .refuse

theorem handleCommand_eq (v : Gesture) {e : Engine} {s : Session} {p : Name} {text : String}
    (hs : e.presence.nameOf? s.connection = some p) (hp : e.hasPlayer p = true) :
    e.handleCommand s (v.command text) =
      e.withTarget (s.renamed p) text fun e s t => e.commitTies s t (v.change e s t) := by
  rw [Engine.handleCommand_eq _ hs hp]
  cases v <;> rfl

/-- A request between players is like the other changes of the graph. -/
theorem outcome_change (v : Gesture) {e : Engine} {s : Session} {t : Name}
    (hp : e.hasPlayer s.name = true) (ht : e.hasPlayer t = true) :
    (v.change e s t).outcome = e.onGraph (v.attempt e.database.graph s.name t) := by
  cases v with
  | request =>
    show e.database.request s.name t = _
    unfold Database.request
    rw [if_pos ⟨hp, ht⟩]
    cases hmade : e.database.graph.createRequest s.name t <;>
      simp [attempt, hmade, Engine.onGraph, Database.onGraph, bind, Except.bind, Except.map,
        Except.mapError, pure, Except.pure]
  | _ => rfl

/-- What a gesture leaves behind, as seen from the engine before. -/
structure Makes (v : Gesture) (e : Engine) (asking : Connection) (p t : Name) (e' : Engine) :
    Prop where
  directory : e'.database.directory = e.database.directory
  graph : e.database.graph.Becomes e'.database.graph (v.friendships e.database.graph p t)
    (v.requests e.database.graph p t) fun n => n = p ∨ n = t
  owners : e'.presence.owners = e.presence.owners
  groups : e'.refusals = e.refusals → e'.presence.groups = e.presence.groups
  waiting : e'.refusals = e.refusals → ∀ c, e'.presence.waiting c =
    e.presence.waiting c ++ v.news e asking p t c

/-- What comes of a session of `p` that does it about the player that a text names. -/
structure Answered (v : Gesture) (e : Engine) (s : Session) (p : Name) (text : String)
    (turn : Turn) : Prop where
  reply : turn.reply = .snapshot
  /-- Where there is no such player or what it needs is not so, nothing happens. -/
  refused : (∀ t, Name.parse? text = some t → e.hasPlayer t = true →
      ¬ v.Applies e.database.graph p t) →
    turn.session = s.renamed p ∧ turn.engine = e
  granted : ∀ t, Name.parse? text = some t → e.hasPlayer t = true →
    v.Applies e.database.graph p t →
    turn.session = v.session (s.renamed p) t ∧ v.Makes e s.connection p t turn.engine

section

variable {e : Engine} (h : e.WellFormed) (v : Gesture)
include h

omit h in
/-- Whom the two deliveries of a change of ties are for, said at once. -/
theorem news_eq {asking : Connection} {p t : Name} (hne : p ≠ t) (c : Connection) :
    (if e.presence.nameOf? c = some t then v.toTarget e asking p else []) ++
      (if e.presence.nameOf? c = some p ∧ c ≠ asking then [v.toSiblings t] else []) =
      v.news e asking p t c := by
  unfold news
  cases e.presence.nameOf? c with
  | none => simp
  | some n =>
    by_cases hn : n = t
    · simp [hn, hne.symm]
    · simp [hn]

theorem makes {s : Session} {t : Name} {database : Database} (text : String)
    (hne : s.name ≠ t) (houtcome : (v.change e s t).outcome = .ok (true, database))
    (hdirectory : database.directory = e.database.directory)
    (hgraph : e.database.graph.Becomes database.graph (v.friendships e.database.graph s.name t)
      (v.requests e.database.graph s.name t) fun n => n = s.name ∨ n = t) :
    v.Makes e s.connection s.name t (e.tieChanged s t (v.change e s t) database) := by
  have hasks := v.asks e s t text
  have hdelivered := h.tieChanged_delivered hasks houtcome
  refine ⟨hdirectory, hgraph, hdelivered.owners, hdelivered.intact, fun hrefusals c => ?_⟩
  rw [(hdelivered.posted hrefusals).waiting, ← news_eq v hne c]
  rfl

/-- One outcome for all gestures: the answer is whether it applies. -/
theorem outcome_cases {s : Session} {t : Name} (hp : e.hasPlayer s.name = true)
    (ht : e.hasPlayer t = true) :
    (¬ v.Applies e.database.graph s.name t ∧
        ∃ database, (v.change e s t).outcome = .ok (false, database)) ∨
      v.Applies e.database.graph s.name t ∧
        ∃ graph, (v.change e s t).outcome = .ok (true, { e.database with graph }) ∧
          e.database.graph.Becomes graph (v.friendships e.database.graph s.name t)
            (v.requests e.database.graph s.name t) fun n => n = s.name ∨ n = t := by
  obtain ⟨made, graph, hattempt, hmade, -, hbecomes⟩ := acts h.graph v s.name t
  have houtcome : (v.change e s t).outcome = .ok (made, { e.database with graph }) := by
    rw [v.outcome_change hp ht, hattempt]
    rfl
  cases made with
  | false =>
    have hnot : ¬ v.Applies e.database.graph s.name t := fun happlies => by cases hmade.2 happlies
    exact Or.inl ⟨hnot, _, houtcome⟩
  | true => exact Or.inr ⟨hmade.1 rfl, graph, houtcome, hbecomes rfl⟩

theorem answered {s : Session} {p : Name} (hs : e.presence.nameOf? s.connection = some p)
    (text : String) : v.Answered e s p text (e.handleCommand s (v.command text)) := by
  have hp : e.hasPlayer p = true := h.players _ p hs
  rw [v.handleCommand_eq hs hp]
  by_cases htarget : ∃ t, Name.parse? text = some t ∧ e.hasPlayer t = true
  · obtain ⟨t, hparse, ht⟩ := htarget
    have honly : ∀ t', Name.parse? text = some t' → t' = t := by
      intro t' ht'
      exact Option.some.inj (ht'.symm.trans hparse)
    rw [Engine.withTarget_of_parse? hparse ht]
    rcases outcome_cases h v (s := s.renamed p) hp ht with
      ⟨hnot, database, houtcome⟩ | ⟨happlies, graph, houtcome, hbecomes⟩
    · unfold Engine.commitTies
      rw [houtcome]
      refine ⟨rfl, fun _ => ⟨rfl, rfl⟩, ?_⟩
      intro t' ht' _ happlies
      exact absurd (honly t' ht' ▸ happlies) hnot
    · unfold Engine.commitTies
      rw [houtcome]
      refine ⟨rfl, fun hnone => absurd happlies (hnone t hparse ht), ?_⟩
      intro t' ht' _ _
      obtain rfl := honly t' ht'
      have hne := ne_of_applies h.graph v p t' happlies
      exact ⟨rfl, makes h v text hne houtcome rfl hbecomes⟩
  · have hnone : ∀ t, Name.parse? text = some t → e.hasPlayer t ≠ true := by
      intro t hparse ht
      exact htarget ⟨t, hparse, ht⟩
    rw [Engine.withTarget_of_none hnone]
    refine ⟨rfl, fun _ => ⟨rfl, rfl⟩, ?_⟩
    intro t hparse ht _
    exact absurd ht (hnone t hparse)

end

end Gesture

namespace System

/-- **The five gestures**, for every session that is attached after whatever came from outside,
    whatever name it remembers, and for every text. -/
theorem answered_run (capacity : Nat) (is : List Input) (v : Gesture) (s : Session) (p : Name)
    (text : String)
    (hs : ((start .empty capacity).run is).engine.presence.nameOf? s.connection = some p) :
    v.Answered ((start .empty capacity).run is).engine s p text
      (((start .empty capacity).run is).engine.handleCommand s (v.command text)) :=
  v.answered ((sound_start capacity).run is).wellFormed.engine hs text

/-! ### Requests that cross -/

/-- Two players ask each other; the first one has two sessions. -/
def crossingRequests : List Input :=
  [.action (.create ⟨"q", Name.isValid_q⟩), .action (.create ⟨"r", Name.isValid_r⟩),
    .action (.connect ⟨"q", Name.isValid_q⟩), .action (.connect ⟨"q", Name.isValid_q⟩),
    .action (.connect ⟨"r", Name.isValid_r⟩),
    .action (.command ⟨0⟩ (.request "r")), .action (.command ⟨2⟩ (.request "q"))]

/-- The session that says yes remembers a name that nobody has. -/
theorem answered_run_crossingRequests :
    ((start .empty 64).run crossingRequests).engine.presence.nameOf? ⟨0⟩ =
        some ⟨"q", by decide⟩ ∧
      (((start .empty 64).run crossingRequests).engine.handleCommand
        (.start ⟨0⟩ ⟨"o", by decide⟩) (Gesture.accept.command "r")).engine.presence.waiting ⟨2⟩ =
        [.update none, .probe ⟨"q", by decide⟩ .connected ⟨0⟩, .update none] ∧
      (((start .empty 64).run crossingRequests).engine.handleCommand
        (.start ⟨0⟩ ⟨"o", by decide⟩) (Gesture.accept.command "r")).engine.presence.waiting ⟨1⟩ =
        [.update none, .update none, .update none] := by
  have hname : ((start .empty 64).run crossingRequests).engine.presence.nameOf? ⟨0⟩ =
      some ⟨"q", by decide⟩ := by decide +kernel
  have hanswered := answered_run 64 crossingRequests .accept (.start ⟨0⟩ ⟨"o", by decide⟩)
    ⟨"q", by decide⟩ "r" hname
  obtain ⟨-, hmakes⟩ := hanswered.granted ⟨"r", by decide⟩ (by decide +kernel)
    (by decide +kernel) (Graph.mem_requests.2 (by decide +kernel))
  have hwaiting := hmakes.waiting (by decide +kernel)
  refine ⟨hname, (hwaiting ⟨2⟩).trans ?_, (hwaiting ⟨1⟩).trans ?_⟩
  · decide +kernel
  · decide +kernel

end System

end Amity
