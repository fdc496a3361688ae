/-
  Amity/Proofs/System/Views.lean
  ==============================
  **What sessions think of each other.**  A session remembers the last status it was told for each
  player.  More may wait in its mailbox; its belief about a player is what it will think once it has
  read all that waits.  About a friend the belief is right, or the friend has still to read a probe
  of the session and will answer it (`Knows`).

  Every step keeps this, since a notice that speaks of a player gives the status the player shows at
  that moment, and a mailbox loses only what is read.  What a step does to one session is said by
  `Places`: the session has just come, or it `Hears` what the step has to say.

  Players who have never been friends are strangers: a session has heard nothing of a stranger, nor
  will it.  So a session that says yes to a request takes the new friend for disconnected, which is
  right when the friend is away; a friend who is there gets a probe.
-/
import Amity.Proofs.Graph.Simulation
import Amity.Proofs.System.OwnName

namespace Amity

/-! ## What notices say -/

namespace Notice

/-- The player a notice speaks of, and the status it gives. -/
def report? : Notice → Option (Name × Status)
  | .update (some n) => some (n, .disconnected)
  | .status n s => some (n, s)
  | .probe n s _ => some (n, s)
  | _ => none

def IsAbout (x : Notice) (m : Name) : Prop := ∃ s, x.report? = some (m, s)

/-- What one thinks of a player after one more notice. -/
def learned (m : Name) (s : Status) (x : Notice) : Status :=
  match x.report? with
  | some (n, t) => if n = m then t else s
  | none => s

/-- What one thinks of a player after some notices, the first one first. -/
def belief (m : Name) (s : Status) (xs : List Notice) : Status := xs.foldl (learned m) s

variable {m : Name} {s t : Status} {x : Notice} {xs : List Notice}

theorem isRenaming_of_isAbout (h : x.IsAbout m) : x.isRenaming = false := by
  obtain ⟨_, h⟩ := h
  cases x with
  | update => rfl
  | status => rfl
  | probe => rfl
  | renamed => cases h

theorem learned_of_not_isAbout (h : ¬ x.IsAbout m) : learned m s x = s := by
  unfold learned
  split
  · next n t hreport =>
    by_cases hn : n = m
    · subst hn
      exact absurd ⟨t, hreport⟩ h
    · rw [if_neg hn]
  · rfl

theorem learned_of_report? (h : x.report? = some (m, t)) : learned m s x = t := by
  unfold learned
  rw [h]
  exact if_pos rfl

theorem belief_append (xs ys : List Notice) : belief m s (xs ++ ys) = belief m (belief m s xs) ys :=
  List.foldl_append

theorem belief_of_not_isAbout (h : ∀ x ∈ xs, ¬ x.IsAbout m) : belief m s xs = s := by
  induction xs with
  | nil => rfl
  | cons x xs ih =>
    show belief m (learned m s x) xs = s
    rw [learned_of_not_isAbout (h x List.mem_cons_self)]
    exact ih fun y hy => h y (List.mem_cons_of_mem x hy)

/-- When all that is said of a player is the same, that is what one thinks afterwards. -/
theorem belief_of_isAbout (hsome : ∃ x ∈ xs, x.IsAbout m)
    (hall : ∀ x ∈ xs, ∀ u, x.report? = some (m, u) → u = t) : belief m s xs = t := by
  induction xs using List.reverseRecOn with
  | nil =>
    obtain ⟨x, hx, -⟩ := hsome
    cases hx
  | append_singleton xs x ih =>
    rw [belief_append]
    show learned m (belief m s xs) x = t
    by_cases hx : x.IsAbout m
    · obtain ⟨u, hu⟩ := hx
      rw [learned_of_report? hu]
      exact hall x (List.mem_append_right xs List.mem_cons_self) u hu
    · rw [learned_of_not_isAbout hx]
      apply ih
      · obtain ⟨y, hy, habout⟩ := hsome
        rcases List.mem_append.1 hy with hy | hy
        · exact ⟨y, hy, habout⟩
        · rw [List.mem_singleton.1 hy] at habout
          exact absurd habout hx
      · intro y hy
        exact hall y (List.mem_append_left [x] hy)

end Notice

theorem Session.statusOf_learn (s : Session) (n m : Name) (t : Status) :
    (s.learn n t).statusOf m = if m = n then t else s.statusOf m := by
  unfold learn statusOf
  rw [Table.find?_insert]
  split <;> rfl

theorem Session.statusOf_forget (s : Session) (n m : Name) :
    (s.forget n).statusOf m = if m = n then .disconnected else s.statusOf m := by
  unfold forget statusOf
  rw [Table.find?_erase]
  split <;> rfl

/-- A session that reads a notice goes on to think what it thought, or what the notice gives, or that
    nobody is there. -/
theorem Engine.statusOf_handleNotice_cases (e : Engine) (s : Session) (x : Notice) (m : Name) :
    (e.handleNotice s x).session.statusOf m = s.statusOf m ∨
      (e.handleNotice s x).session.statusOf m = .disconnected ∨
        x.report? = some (m, (e.handleNotice s x).session.statusOf m) := by
  have hlearn (n : Name) (t : Status) : (s.learn n t).statusOf m = s.statusOf m ∨
      some (n, t) = some (m, (s.learn n t).statusOf m) := by
    rw [Session.statusOf_learn]
    split
    · next hm => exact Or.inr (by rw [hm])
    · exact Or.inl rfl
  cases x with
  | update reset =>
    cases reset with
    | none => exact Or.inl rfl
    | some n => exact (hlearn n .disconnected).imp_right Or.inr
  | status n t => exact (hlearn n t).imp_right Or.inr
  | probe n t replyTo =>
    unfold handleNotice answerProbe
    dsimp only
    split
    · exact (hlearn n t).imp_right Or.inr
    · exact Or.inl rfl
  | renamed old new =>
    unfold handleNotice
    dsimp only
    split
    · exact Or.inl rfl
    · rw [Session.statusOf_forget]
      split
      · exact Or.inr (Or.inl rfl)
      · exact Or.inl rfl

/-- A session that reads a notice takes over the status that it gives, but that of a probe only from
    a friend; and it forgets who has another name now. -/
theorem Engine.statusOf_handleNotice_of_probe (e : Engine) {s : Session} {x : Notice} {m : Name}
    (hprobe : ∀ t c, x = .probe m t c → e.database.graph.areFriends s.name m = .ok true)
    (hnamed : ∀ new, x ≠ .renamed m new) :
    (e.handleNotice s x).session.statusOf m = x.learned m (s.statusOf m) := by
  have hlearn : ∀ n t, (s.learn n t).statusOf m = if n = m then t else s.statusOf m := by
    intro n t
    rw [Session.statusOf_learn]
    simp only [eq_comm]
  cases x with
  | update reset =>
    cases reset with
    | none => rfl
    | some n => exact hlearn n .disconnected
  | status n t => exact hlearn n t
  | probe n t replyTo =>
    unfold handleNotice answerProbe
    dsimp only
    split
    · exact hlearn n t
    · next hnone =>
      refine (Notice.learned_of_not_isAbout fun habout => ?_).symm
      obtain ⟨_, hreport⟩ := habout
      cases hreport
      exact hnone (hprobe t replyTo rfl)
  | renamed old new =>
    have hother : m ≠ old := by
      rintro rfl
      exact hnamed new rfl
    unfold handleNotice
    dsimp only
    split
    · rfl
    · exact (Session.statusOf_forget s old m).trans (if_neg hother)

theorem Engine.statusOf_handleNotice (e : Engine) {s : Session} {x : Notice} {m : Name}
    (hfriend : x.IsAbout m → e.database.graph.areFriends s.name m = .ok true)
    (hnamed : ∀ new, x ≠ .renamed m new) :
    (e.handleNotice s x).session.statusOf m = x.learned m (s.statusOf m) := by
  refine e.statusOf_handleNotice_of_probe ?_ hnamed
  rintro t c rfl
  exact hfriend ⟨t, rfl⟩

namespace System

/-! ## Beliefs -/

def Friends (sys : System) (n m : Name) : Prop :=
  sys.engine.database.graph.areFriends n m = .ok true

instance (sys : System) (n m : Name) : Decidable (sys.Friends n m) :=
  match h : sys.engine.database.graph.areFriends n m with
  | .ok true => .isTrue h
  | .ok false => .isFalse fun hfriends => by cases h.symm.trans hfriends
  | .error _ => .isFalse fun hfriends => by cases h.symm.trans hfriends

/-- What the session of a connection thinks of a player when it has read all that waits for it. -/
def belief? (sys : System) (c : Connection) (m : Name) : Option Status :=
  (sys.sessions.find? c).map fun s =>
    Notice.belief m (s.statusOf m) (sys.engine.presence.waiting c)

/-- A session of `m` has still to read a probe of `n`, to be answered to the connection. -/
def Awaits (sys : System) (c : Connection) (n m : Name) : Prop :=
  ∃ d s, sys.engine.presence.nameOf? d = some m ∧
    .probe n s c ∈ sys.engine.presence.waiting d

/-- The session, one of the player `n`, is right about `m` when it has read all that waits for it,
    or `m` has still to answer. -/
def Knows (sys : System) (c : Connection) (n m : Name) : Prop :=
  sys.belief? c m = some (sys.engine.presence.statusOf m) ∨ sys.Awaits c n m

/-- Every attached session has the name that its connection stands under. -/
def Named (sys : System) : Prop :=
  ∀ c n s, sys.engine.presence.nameOf? c = some n → sys.sessions.find? c = some s → s.name = n

/-- No player has two sessions. -/
def Single (sys : System) : Prop :=
  ∀ c d n, sys.engine.presence.nameOf? c = some n → sys.engine.presence.nameOf? d = some n → c = d

/-- The session has heard nothing of a player, and nothing waits for it. -/
def Unfamiliar (sys : System) (c : Connection) (m : Name) : Prop :=
  (∃ s, sys.sessions.find? c = some s ∧ s.statusOf m = .disconnected) ∧
    ∀ x ∈ sys.engine.presence.waiting c, ¬ x.IsAbout m

/-- The attached sessions are right about the friends of their players, as far as they have been
    told.  `met n m` says that the two players have been friends before. -/
structure Viewed (sys : System) (met : Name → Name → Prop) : Prop where
  named : ∀ c n s, sys.engine.presence.nameOf? c = some n → sys.sessions.find? c = some s →
    s.name = n
  single : ∀ c d n, sys.engine.presence.nameOf? c = some n →
    sys.engine.presence.nameOf? d = some n → c = d
  quiet : ∀ c n, sys.engine.presence.nameOf? c = some n →
    ∀ x ∈ sys.engine.presence.waiting c, x.isRenaming = false
  friends : ∀ n m, sys.Friends n m → met n m
  strangers : ∀ c n m, sys.engine.presence.nameOf? c = some n → ¬ met n m → sys.Unfamiliar c m
  known : ∀ c n m, sys.engine.presence.nameOf? c = some n → sys.Friends n m → sys.Knows c n m

theorem WellFormed.friends_iff {sys : System} (h : sys.WellFormed) {n m : Name} :
    sys.Friends n m ↔ m ∈ (sys.engine.database.graph.ties n).friends :=
  Graph.areFriends_iff h.engine.graph.canonical

theorem WellFormed.friends_iff_mem_friendships {sys : System} (h : sys.WellFormed) {n m : Name} :
    sys.Friends n m ↔ s(n, m) ∈ sys.engine.database.graph.friendships := by
  rw [h.friends_iff, h.engine.graph.mem_friendships]

theorem WellFormed.friends_comm {sys : System} (h : sys.WellFormed) {n m : Name} :
    sys.Friends n m ↔ sys.Friends m n := by
  rw [h.friends_iff, h.friends_iff]
  exact h.engine.graph.friends n m

theorem WellFormed.not_friends_self {sys : System} (h : sys.WellFormed) (n : Name) :
    ¬ sys.Friends n n := by
  rw [h.friends_iff]
  exact (h.engine.graph.irreflexive n).1

theorem Unfamiliar.belief? {sys : System} {c : Connection} {m : Name} (h : sys.Unfamiliar c m) :
    sys.belief? c m = some .disconnected := by
  obtain ⟨⟨s, hs, hstatus⟩, hnone⟩ := h
  unfold System.belief?
  rw [hs, Option.map_some, Notice.belief_of_not_isAbout hnone, hstatus]

/-- When the last that waits for a session speaks of a player, and all of it gives the present
    status, the session is right about the player. -/
theorem knows_of_news {sys : System} {c : Connection} {n m : Name} {waited news : List Notice}
    (hs : ∃ s, sys.sessions.find? c = some s)
    (hwaiting : sys.engine.presence.waiting c = waited ++ news)
    (hsome : ∃ x ∈ news, x.IsAbout m)
    (hreports : ∀ x ∈ news, ∀ t, x.report? = some (m, t) → t = sys.engine.presence.statusOf m) :
    sys.Knows c n m := by
  obtain ⟨s, hs⟩ := hs
  left
  unfold System.belief?
  rw [hs, Option.map_some, hwaiting, Notice.belief_append, Notice.belief_of_isAbout hsome hreports]

/-- Somebody unknown is known well enough when all sessions there are have been probed: without any,
    the player shows as disconnected. -/
theorem WellFormed.knows_of_probes {sys : System} (h : sys.WellFormed) {c : Connection} {n m : Name}
    (hstranger : sys.Unfamiliar c m)
    (hprobes : ∀ d, sys.engine.presence.nameOf? d = some m →
      ∃ s, .probe n s c ∈ sys.engine.presence.waiting d) : sys.Knows c n m := by
  cases hgroup : sys.engine.presence.group m with
  | nil =>
    left
    rw [hstranger.belief?, Presence.statusOf, hgroup]
    rfl
  | cons a as =>
    right
    have ha : a ∈ sys.engine.presence.group m := hgroup ▸ List.mem_cons_self
    have hd := h.engine.presence.nameOf?_eq_some_iff.2 (Presence.connection_mem_sessionsOf ha)
    obtain ⟨s, hprobe⟩ := hprobes a.connection hd
    exact ⟨a.connection, s, hd, hprobe⟩

/-! ## What a step does to a session -/

/-- A step leaves a session attached and says nothing that is not so: the session keeps its name, a
    stranger stays one, and what was known about a friend still is. -/
structure Hears (sys sys' : System) (c : Connection) (n : Name) : Prop where
  before : sys.engine.presence.nameOf? c = some n
  name : ∃ s s', sys.sessions.find? c = some s ∧ sys'.sessions.find? c = some s' ∧
    (s.name = n → s'.name = n)
  quiet : ∀ x ∈ sys'.engine.presence.waiting c,
    x ∈ sys.engine.presence.waiting c ∨ x.isRenaming = false
  strangers : ∀ m, ¬ sys.Friends n m → ¬ sys'.Friends n m → sys.Unfamiliar c m →
    sys'.Unfamiliar c m
  known : ∀ m, sys'.Friends n m →
    (sys.Friends n m ∧ (sys.Knows c n m → sys'.Knows c n m)) ∨ sys'.Knows c n m

/-- A step brings a session, the only one of its player. -/
structure Comes (sys' : System) (c : Connection) (n : Name) : Prop where
  name : ∃ s, sys'.sessions.find? c = some s ∧ s.name = n
  single : ∀ d, sys'.engine.presence.nameOf? d = some n → d = c
  waiting : sys'.engine.presence.waiting c = []
  strangers : ∀ m, sys'.Unfamiliar c m
  known : ∀ m, sys'.Friends n m → sys'.Knows c n m

/-- What a step does to a session that is attached after it. -/
inductive Places (sys sys' : System) (c : Connection) (n : Name) : Prop where
  | hears (hhears : Hears sys sys' c n)
  | comes (hcomes : Comes sys' c n)

/-- A step keeps what sessions know when it does so for each of them. -/
theorem Viewed.step {sys sys' : System} {met : Name → Name → Prop} (h : sys.Viewed met)
    (hplaces : ∀ c n, sys'.engine.presence.nameOf? c = some n → Places sys sys' c n) :
    sys'.Viewed fun n m => met n m ∨ sys'.Friends n m where
  named c n s' hc hs' := by
    rcases hplaces c n hc with hhears | hcomes
    · obtain ⟨s, t, hs, ht, hname⟩ := hhears.name
      cases hs'.symm.trans ht
      exact hname (h.named c n s hhears.before hs)
    · obtain ⟨t, ht, hname⟩ := hcomes.name
      cases hs'.symm.trans ht
      exact hname
  single c d n hc hd := by
    rcases hplaces c n hc with hhears | hcomes
    · rcases hplaces d n hd with hhears' | hcomes
      · exact h.single c d n hhears.before hhears'.before
      · exact hcomes.single c hc
    · exact (hcomes.single d hd).symm
  quiet c n hc x hx := by
    rcases hplaces c n hc with hhears | hcomes
    · rcases hhears.quiet x hx with hx | hx
      · exact h.quiet c n hhears.before x hx
      · exact hx
    · rw [hcomes.waiting] at hx
      cases hx
  friends n m hm := Or.inr hm
  strangers c n m hc hm := by
    rw [not_or] at hm
    rcases hplaces c n hc with hhears | hcomes
    · have hbefore : ¬ sys.Friends n m := fun hfriends => hm.1 (h.friends n m hfriends)
      exact hhears.strangers m hbefore hm.2 (h.strangers c n m hhears.before hm.1)
    · exact hcomes.strangers m
  known c n m hc hm := by
    rcases hplaces c n hc with hhears | hcomes
    · rcases hhears.known m hm with ⟨hbefore, hkeeps⟩ | hknows
      · exact hkeeps (h.known c n m hhears.before hbefore)
      · exact hknows
    · exact hcomes.known m hm

/-! ### Steps in which nobody reads -/

/-- The session of a connection keeps its name, and who is forgotten is no friend of `n`. -/
def KeepsSession (sys sys' : System) (c : Connection) (n : Name) : Prop :=
  ∃ s s', sys.sessions.find? c = some s ∧ sys'.sessions.find? c = some s' ∧ s'.name = s.name ∧
    ∀ m, s'.statusOf m = s.statusOf m ∨ (s'.statusOf m = .disconnected ∧ ¬ sys'.Friends n m)

theorem WellFormed.keepsSession {sys sys' : System} (h : sys.WellFormed) {c : Connection} {n : Name}
    (hc : sys.engine.presence.nameOf? c = some n)
    (heq : sys'.sessions.find? c = sys.sessions.find? c) : KeepsSession sys sys' c n := by
  obtain ⟨s, hs⟩ := h.present c n hc
  exact ⟨s, s, hs, heq.trans hs, rfl, fun _ => Or.inl rfl⟩

/-- A turn of a session may make it forget who is no friend afterwards. -/
theorem WellFormed.keepsSession_keep {sys : System} (h : sys.WellFormed) {c : Connection} {n : Name}
    (hc : sys.engine.presence.nameOf? c = some n) {s : Session} {turn : Turn}
    (hs : sys.sessions.find? s.connection = some s)
    (hconnection : turn.session.connection = s.connection) (hname : turn.session.name = s.name)
    (hstatus : c = s.connection → ∀ m, turn.session.statusOf m = s.statusOf m ∨
      (turn.session.statusOf m = .disconnected ∧ ¬ (sys.keep turn).2.Friends n m)) :
    KeepsSession sys (sys.keep turn).2 c n := by
  have hinsert : (sys.keep turn).2.sessions.find? c =
      if c = s.connection then some turn.session else sys.sessions.find? c := by
    rw [← hconnection]
    exact Table.find?_insert _ _ _ _
  by_cases hcs : c = s.connection
  · rw [if_pos hcs] at hinsert
    exact ⟨s, turn.session, hcs ▸ hs, hinsert, hname, hstatus hcs⟩
  · rw [if_neg hcs] at hinsert
    exact h.keepsSession hc hinsert

theorem WellFormed.keepsSession_same {sys : System} (h : sys.WellFormed) {c : Connection} {n : Name}
    (hc : sys.engine.presence.nameOf? c = some n) {s : Session} {turn : Turn}
    (hs : sys.sessions.find? s.connection = some s) (hsame : turn.session = s) :
    KeepsSession sys (sys.keep turn).2 c n := by
  apply h.keepsSession_keep hc hs
  · rw [hsame]
  · rw [hsame]
  · intro _ m
    rw [hsame]
    exact Or.inl rfl

section

variable {sys sys' : System} {c : Connection} {n : Name}

/-- A stranger of whom nothing has come stays one. -/
theorem KeepsSession.unfamiliar (hsession : KeepsSession sys sys' c n) {m : Name}
    (hstranger : sys.Unfamiliar c m)
    (hnone : ∀ x ∈ sys'.engine.presence.waiting c, ¬ x.IsAbout m) : sys'.Unfamiliar c m := by
  obtain ⟨⟨t, ht, hdisconnected⟩, -⟩ := hstranger
  obtain ⟨s, s', hs, hs', -, hstatus⟩ := hsession
  cases hs.symm.trans ht
  refine ⟨⟨s', hs', ?_⟩, hnone⟩
  rcases hstatus m with hsame | ⟨hforgot, -⟩
  · exact hsame.trans hdisconnected
  · exact hforgot

/-- What a player has to answer is still there while the player's sessions are and lose nothing. -/
theorem Awaits.of_subset {m : Name}
    (hkeeps : ∀ d, sys.engine.presence.nameOf? d = some m →
      sys'.engine.presence.nameOf? d = some m ∧
        sys.engine.presence.waiting d ⊆ sys'.engine.presence.waiting d)
    (h : sys.Awaits c n m) : sys'.Awaits c n m := by
  obtain ⟨d, s, hd, hprobe⟩ := h
  obtain ⟨hd', hsubset⟩ := hkeeps d hd
  exact ⟨d, s, hd', hsubset hprobe⟩

/-- A step that puts some notices into the mailbox of a session.  They speak of friends only and
    give their present status, and a friend they do not speak of has not changed. -/
theorem Hears.of_news {news : List Notice}
    (hbefore : sys.engine.presence.nameOf? c = some n)
    (hsession : KeepsSession sys sys' c n)
    (hwaiting : sys'.engine.presence.waiting c = sys.engine.presence.waiting c ++ news)
    (hquiet : ∀ x ∈ news, x.isRenaming = false)
    (hreports : ∀ x ∈ news, ∀ m t, x.report? = some (m, t) →
      (sys.Friends n m ∨ sys'.Friends n m) ∧
        (sys'.Friends n m → t = sys'.engine.presence.statusOf m))
    (hknown : ∀ m, sys'.Friends n m → (∃ x ∈ news, x.IsAbout m) ∨ sys'.Knows c n m ∨
      (sys.Friends n m ∧ sys'.engine.presence.statusOf m = sys.engine.presence.statusOf m ∧
        (sys.Awaits c n m → sys'.Awaits c n m))) :
    Hears sys sys' c n := by
  have hkeeps := hsession
  obtain ⟨s, s', hs, hs', hname, hstatus⟩ := hsession
  have hsaid : ∀ m, sys'.Friends n m → (∃ x ∈ news, x.IsAbout m) → sys'.Knows c n m := by
    intro m hm hsome
    refine knows_of_news ⟨s', hs'⟩ hwaiting hsome fun x hx t hreport => ?_
    exact (hreports x hx m t hreport).2 hm
  refine ⟨hbefore, ⟨s, s', hs, hs', fun hn => hname.trans hn⟩, ?_, ?_, ?_⟩
  · intro x hx
    rw [hwaiting, List.mem_append] at hx
    exact hx.imp_right (hquiet x)
  · intro m hm hm' hstranger
    refine hkeeps.unfamiliar hstranger fun x hx => ?_
    rw [hwaiting, List.mem_append] at hx
    rcases hx with hx | hx
    · exact hstranger.2 x hx
    · rintro ⟨t, hreport⟩
      rcases (hreports x hx m t hreport).1 with hfriends | hfriends
      · exact hm hfriends
      · exact hm' hfriends
  · intro m hm
    rcases hknown m hm with hsome | hknows | ⟨hfriends, hshown, hawaits⟩
    · exact Or.inr (hsaid m hm hsome)
    · exact Or.inr hknows
    · by_cases hsome : ∃ x ∈ news, x.IsAbout m
      · exact Or.inr (hsaid m hm hsome)
      · -- nothing new of `m`: what was believed or awaited before still is
        left
        refine ⟨hfriends, fun hknows => ?_⟩
        rcases hknows with hright | hwaits
        · left
          have hnone : ∀ x ∈ news, ¬ x.IsAbout m := fun x hx habout => hsome ⟨x, hx, habout⟩
          have hsame : s'.statusOf m = s.statusOf m := (hstatus m).resolve_right fun hforgot =>
            hforgot.2 hm
          rw [hshown, ← hright]
          unfold System.belief?
          rw [hs, hs', Option.map_some, Option.map_some, hwaiting, Notice.belief_append, hsame,
            Notice.belief_of_not_isAbout hnone]
        · exact Or.inr (hawaits hwaits)

/-- A step that only `k` has part in, who may come to show another status; the friends are told with
    the notice `x`. -/
structure Spreads (sys sys' : System) (k : Name) (x : Notice) : Prop where
  graph : sys'.engine.database.graph = sys.engine.database.graph
  group : ∀ m, m ≠ k → sys'.engine.presence.group m = sys.engine.presence.group m
  report : x.report? = some (k, sys'.engine.presence.statusOf k)
  waiting : ∀ d j, sys.engine.presence.nameOf? d = some j →
    sys'.engine.presence.nameOf? d = some j → sys'.engine.presence.waiting d =
      sys.engine.presence.waiting d ++
        if j ∈ (sys.engine.database.graph.ties k).friends then [x] else []

section

variable (h : sys.WellFormed) {k : Name} {x : Notice} (hspreads : Spreads sys sys' k x)
include h hspreads

/-- A friend knows the new status. -/
theorem Spreads.knows (hbefore : sys.engine.presence.nameOf? c = some n)
    (hc : sys'.engine.presence.nameOf? c = some n)
    (hsession : ∃ s, sys'.sessions.find? c = some s) (hk : sys.Friends n k) : sys'.Knows c n k := by
  have hwaiting := hspreads.waiting c n hbefore hc
  rw [if_pos (h.friends_iff.1 (h.friends_comm.1 hk))] at hwaiting
  refine knows_of_news hsession hwaiting ⟨x, List.mem_cons_self, _, hspreads.report⟩ ?_
  intro y hy t hreport
  rw [List.mem_singleton.1 hy, hspreads.report] at hreport
  cases hreport
  rfl

theorem Spreads.hears (h' : sys'.WellFormed) (hbefore : sys.engine.presence.nameOf? c = some n)
    (hc : sys'.engine.presence.nameOf? c = some n) (hsession : KeepsSession sys sys' c n) :
    Hears sys sys' c n := by
  have hfriends : ∀ m, sys'.Friends n m ↔ sys.Friends n m := by
    intro m
    unfold Friends
    rw [hspreads.graph]
  have hmember : ∀ y ∈ (if n ∈ (sys.engine.database.graph.ties k).friends then [x] else []),
      y = x ∧ sys.Friends n k := by
    intro y hy
    split at hy
    · next hn => exact ⟨List.mem_singleton.1 hy, h.friends_comm.1 (h.friends_iff.2 hn)⟩
    · cases hy
  have hfound : ∃ s, sys'.sessions.find? c = some s := by
    obtain ⟨_, s', _, hs', _⟩ := hsession
    exact ⟨s', hs'⟩
  apply Hears.of_news hbefore hsession (hspreads.waiting c n hbefore hc)
  · intro y hy
    obtain ⟨rfl, -⟩ := hmember y hy
    exact Notice.isRenaming_of_isAbout ⟨_, hspreads.report⟩
  · intro y hy m t ht
    obtain ⟨rfl, hk⟩ := hmember y hy
    cases hspreads.report.symm.trans ht
    exact ⟨Or.inl hk, fun _ => rfl⟩
  · intro m hm
    rw [hfriends] at hm
    right
    by_cases hmk : m = k
    · subst hmk
      exact Or.inl (hspreads.knows h hbefore hc hfound hm)
    · have hgroup := hspreads.group m hmk
      refine Or.inr ⟨hm, Presence.statusOf_of_group hgroup, ?_⟩
      apply Awaits.of_subset
      intro d hd
      have hd' := (h.engine.presence.nameOf?_of_group h'.engine.presence hgroup d).2 hd
      refine ⟨hd', ?_⟩
      rw [hspreads.waiting d m hd hd']
      exact List.subset_append_left _ _

end

section

variable (h : sys.WellFormed) (h' : sys'.WellFormed)
  (hgraph : sys'.engine.database.graph = sys.engine.database.graph)
include h h' hgraph

/-- A step after which the same sessions are attached with the same statuses, and nothing more waits
    for them. -/
theorem Hears.of_silent
    (hgroup : ∀ m, sys'.engine.presence.group m = sys.engine.presence.group m)
    (hwaiting : ∀ d, sys'.engine.presence.waiting d = sys.engine.presence.waiting d)
    (hc : sys'.engine.presence.nameOf? c = some n) (hsession : KeepsSession sys sys' c n) :
    Hears sys sys' c n := by
  have hnames := h.engine.presence.nameOf?_of_group h'.engine.presence (hgroup n) c
  apply Hears.of_news (hnames.1 hc) hsession ((hwaiting c).trans (List.append_nil _).symm)
  · intro x hx
    cases hx
  · intro x hx
    cases hx
  · intro m hm
    unfold Friends at hm ⊢
    rw [hgraph] at hm
    refine Or.inr (Or.inr ⟨hm, Presence.statusOf_of_group (hgroup m), ?_⟩)
    apply Awaits.of_subset
    intro d hd
    refine ⟨(h.engine.presence.nameOf?_of_group h'.engine.presence (hgroup m) d).2 hd, ?_⟩
    rw [hwaiting]
    exact List.Subset.refl _

end

theorem Same.hears (hsame : Same sys sys') (h : sys.WellFormed) (h' : sys'.WellFormed)
    (hc : sys'.engine.presence.nameOf? c = some n) : Hears sys sys' c n := by
  have hbefore : sys.engine.presence.nameOf? c = some n := hsame.engine ▸ hc
  refine .of_silent h h' ?_ ?_ ?_ hc (h.keepsSession hbefore (hsame.sessions c))
  · rw [hsame.engine]
  · rw [hsame.engine]
    exact fun _ => rfl
  · rw [hsame.engine]
    exact fun _ => rfl

theorem Hears.refl (h : sys.WellFormed) (hc : sys.engine.presence.nameOf? c = some n) :
    Hears sys sys c n :=
  (Same.refl sys).hears h h hc

end

end System

end Amity
