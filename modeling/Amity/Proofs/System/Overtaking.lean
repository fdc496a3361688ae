/-
  Amity/Proofs/System/Overtaking.lean
  ===================================
  **Renamings that overtake probes.**  Take a run in which friendships last, no player has two
  sessions, nobody takes a name that was somebody's before, and no notice is refused.  When all
  attached sessions have read everything, each of them has the right status for each friend of its
  player, with one exception (`Overtaken`): its player took another name while a probe of the
  session, under the old name, was unread by the friend's session.  The friend's session looks the
  old name up among its friends, does not find it, and never answers.

  A session that was not right after a step has been overtaken in it, or was not right before and
  the friend has not said anything (`Minds`).  So one can go back from the end of a run to the step
  at which a renaming has overtaken the probe.
-/
import Amity.Proofs.System.Convergence
import Amity.Proofs.System.Moving

namespace Amity.System

/-! ## Steps -/

/-- The player of connection `c` takes another name while the session is not right about the friend
    `m` and that friend's session, of connection `d`, has a probe under the old name to read. -/
structure OvertakenAt (sys sys' : System) (a : Action) (c d : Connection) (m : Name) : Prop where
  asks : ∃ t, a = .command c (.rename t)
  unsure : sys.belief? c m ≠ some (sys.engine.presence.statusOf m)
  unread : ∃ k t, sys.engine.presence.nameOf? c = some k ∧
    sys'.engine.presence.nameOf? c ≠ some k ∧ .probe k t c ∈ sys.engine.presence.waiting d
  friend : sys'.engine.presence.nameOf? d = some m

/-- The sessions of a player stay, and none of them shows a status. -/
structure Lasts (sys sys' : System) (a : Action) (m : Name) : Prop where
  stays : ∀ d, sys.engine.presence.nameOf? d = some m → sys'.engine.presence.nameOf? d = some m
  silent : ∀ d, sys.engine.presence.nameOf? d = some m →
    a ≠ .command d .enterGame ∧ a ≠ .command d .leaveGame

/-- What a step does to what a session knows of a friend. -/
inductive Minds (sys sys' : System) (a : Action) (c : Connection) (n m : Name) : Prop where
  | knows (hknows : sys'.Knows c n m)
  | overtaken {d : Connection} (hovertaken : OvertakenAt sys sys' a c d m)
  /-- It has not known before either, and the friend goes on without a word. -/
  | lasts {k : Name} (hbefore : sys.engine.presence.nameOf? c = some k) (hfriend : sys.Friends k m)
      (hunknown : ¬ sys.Knows c k m) (hlasts : Lasts sys sys' a m)

/-- What is kept by a step, and what it does to what sessions know. -/
structure Proceeds (sys sys' : System) (a : Action) (used : Name → Prop) : Prop where
  followed : sys'.Followed used
  minds : ∀ c n m, sys'.engine.presence.nameOf? c = some n → sys'.Friends n m →
    Minds sys sys' a c n m

/-- What a step other than a renaming does to a session that is attached after it. -/
structure Fares (sys sys' : System) (a : Action) (c : Connection) (n : Name) : Prop where
  places : Places sys sys' c n
  minds : ∀ m, sys'.Friends n m → Minds sys sys' a c n m

section

variable {sys sys' : System} {used : Name → Prop} {a : Action} {c : Connection} {n : Name}

theorem Moved.minds {d : Connection} {old new m : Name} (hmoved : Moved sys sys' d old new)
    (h : sys.Sound) (hfollowed : sys.Followed used) (hasks : ∃ t, a = .command d (.rename t))
    (hc : sys'.engine.presence.nameOf? c = some n) (hm : sys'.Friends n m) :
    Minds sys sys' a c n m := by
  have hlasts (hmold : m ≠ old) : Lasts sys sys' a m := by
    obtain ⟨t, rfl⟩ := hasks
    exact ⟨fun _ => hmoved.stays hmold, fun _ _ => ⟨nofun, nofun⟩⟩
  rcases hmoved.origin h hfollowed hc with ⟨rfl, rfl⟩ | ⟨hcd, hbefore, hold, hnew⟩
  · obtain ⟨hfriend, hmold, hkeeps⟩ := hmoved.knows_own h hm
    by_cases hright : sys.belief? c m = some (sys.engine.presence.statusOf m)
    · exact .knows (hkeeps hright)
    · by_cases hawaits : sys.Awaits c old m
      · obtain ⟨e, t, he, hprobe⟩ := hawaits
        refine .overtaken (d := e) ⟨hasks, hright, ?_, hmoved.stays hmold he⟩
        refine ⟨old, t, hmoved.place, ?_, hprobe⟩
        rw [hc]
        exact fun heq => hmoved.ne (Option.some.inj heq).symm
      · have hunknown : ¬ sys.Knows c old m := not_or.2 ⟨hright, hawaits⟩
        exact .lasts hmoved.place hfriend hunknown (hlasts hmold)
  · rcases hmoved.knows_other h hcd hbefore hold hnew hm with hknows | ⟨hfriend, hmold, hkeeps⟩
    · exact .knows hknows
    · by_cases hknows : sys.Knows c n m
      · exact .knows (hkeeps hknows)
      · exact .lasts hbefore hfriend hknows (hlasts hmold)

theorem Moved.proceeds {d : Connection} {old new : Name} (hmoved : Moved sys sys' d old new)
    (h : sys.Sound) (hfollowed : sys.Followed used) (hnew : ¬ used new)
    (hasks : ∃ t, a = .command d (.rename t)) :
    Proceeds sys sys' a fun n => used n ∨ sys'.engine.hasPlayer n = true :=
  ⟨hmoved.followed h hfollowed hnew, fun _ _ _ => hmoved.minds h hfollowed hasks⟩

theorem Followed.proceeds (hfollowed : sys.Followed used)
    (hplayers : ∀ m, sys'.engine.hasPlayer m = sys.engine.hasPlayer m)
    (hfares : ∀ c n, sys'.engine.presence.nameOf? c = some n → Fares sys sys' a c n) :
    Proceeds sys sys' a used where
  followed := hfollowed.step hplayers fun c n hc => (hfares c n hc).places
  minds c n m hc := (hfares c n hc).minds m

theorem Proceeds.mono {used' : Name → Prop} (hproceeds : Proceeds sys sys' a used)
    (hle : ∀ n, used n → used' n) : Proceeds sys sys' a used' :=
  ⟨hproceeds.followed.mono hle, hproceeds.minds⟩

theorem Fares.of_comes (hcomes : Comes sys' c n) : Fares sys sys' a c n :=
  ⟨.comes hcomes, fun m hm => .knows (hcomes.known m hm)⟩

/-- A session that hears of a step keeps what it knows of a friend who goes on without a word. -/
theorem Fares.of_hears (hhears : Hears sys sys' c n)
    (hlasts : ∀ m, sys'.Friends n m → sys'.Knows c n m ∨ Lasts sys sys' a m) :
    Fares sys sys' a c n := by
  refine ⟨.hears hhears, fun m hm => ?_⟩
  rcases hlasts m hm with hknows | hlasts
  · exact .knows hknows
  · rcases hhears.known m hm with ⟨hfriend, hkeeps⟩ | hknows
    · by_cases hknows : sys.Knows c n m
      · exact .knows (hkeeps hknows)
      · exact .lasts hhears.before hfriend hknows hlasts
    · exact .knows hknows

/-- A player comes to show another status, and every friend is told; of the others only that player's
    sessions may have done something. -/
theorem Spreads.fares {k : Name} {x : Notice} (hspreads : Spreads sys sys' k x)
    (h : sys.WellFormed) (h' : sys'.WellFormed) (hc : sys'.engine.presence.nameOf? c = some n)
    (hbefore : sys.engine.presence.nameOf? c = some n) (hsession : KeepsSession sys sys' c n)
    (hsilent : ∀ m, m ≠ k → ∀ d, sys.engine.presence.nameOf? d = some m →
      a ≠ .command d .enterGame ∧ a ≠ .command d .leaveGame) : Fares sys sys' a c n := by
  refine .of_hears (hspreads.hears h h' hbefore hc hsession) fun m hm => ?_
  by_cases hmk : m = k
  · left
    subst hmk
    have hfriend : sys.Friends n m := by
      unfold Friends at hm ⊢
      rwa [← hspreads.graph]
    obtain ⟨_, s', _, hs', _⟩ := hsession
    exact hspreads.knows h hbefore hc ⟨s', hs'⟩ hfriend
  · right
    refine ⟨fun d hd => ?_, hsilent m hmk⟩
    exact (h.engine.presence.nameOf?_of_group h'.engine.presence (hspreads.group m hmk) d).2 hd

section

variable (h : sys.WellFormed)
include h

theorem Same.fares (hsame : Same sys sys') (h' : sys'.WellFormed)
    (hc : sys'.engine.presence.nameOf? c = some n)
    (hsilent : ∀ m d, sys.engine.presence.nameOf? d = some m →
      a ≠ .command d .enterGame ∧ a ≠ .command d .leaveGame) : Fares sys sys' a c n := by
  refine .of_hears (hsame.hears h h' hc) fun m _ => Or.inr ⟨?_, hsilent m⟩
  rw [hsame.engine]
  exact fun _ => id

theorem WellFormed.fares_connect {k : Name}
    (hoffline : sys.engine.presence.isOnline k = false)
    (hrefusals : (sys.act (.connect k)).engine.refusals = sys.engine.refusals)
    (hc : (sys.act (.connect k)).engine.presence.nameOf? c = some n) :
    Fares sys (sys.act (.connect k)) (.connect k) c n := by
  have hafter := h.act (.connect k)
  rcases sys.act_connect_cases k with heq | ⟨s, engine, hconnect, heq⟩
  · rw [heq] at hc ⊢
    exact (Same.refl sys).fares h h hc fun _ _ _ => ⟨nofun, nofun⟩
  · rw [heq] at hafter hrefusals hc ⊢
    rcases sys.engine.connect_cases k with ⟨-, hcases⟩ | ⟨hk, hcases⟩
    · cases hcases.symm.trans hconnect
    · cases hcases.symm.trans hconnect
      have hnames := h.engine.nameOf?_connected hk hrefusals
      by_cases hnew : c = ⟨sys.engine.presence.arrivals⟩
      · have hname := (hnames c).symm.trans hc
        rw [if_pos hnew] at hname
        cases hname
        rw [hnew]
        exact .of_comes (h.comes_connect hafter hk hoffline rfl rfl hrefusals)
      · refine .of_hears (h.hears_connect hafter hk rfl rfl hrefusals hc hnew) fun m _ => ?_
        refine Or.inr ⟨fun d hd => ?_, fun _ _ => ⟨nofun, nofun⟩⟩
        refine ((hnames d).trans (if_neg ?_)).trans hd
        rintro rfl
        rw [h.engine.presence.nameOf?_next (Nat.le_refl _)] at hd
        cases hd

theorem WellFormed.fares_disconnect (hsingle : sys.Single) {d : Connection}
    (hrefusals : (sys.act (.disconnect d)).engine.refusals = sys.engine.refusals)
    (hc : (sys.act (.disconnect d)).engine.presence.nameOf? c = some n) :
    Fares sys (sys.act (.disconnect d)) (.disconnect d) c n := by
  have hafter := h.act (.disconnect d)
  obtain ⟨hbefore, -⟩ := h.engine.attached_of_disconnect hc
  have hsession : KeepsSession sys (sys.disconnect d) c n := h.keepsSession hbefore rfl
  rcases h.disconnect_spreads hsingle d hrefusals with
    ⟨k, -, hspreads⟩ | ⟨-, hgraph, hgroup, hwaiting⟩
  · exact hspreads.fares h hafter hc hbefore hsession fun _ _ _ _ => ⟨nofun, nofun⟩
  · refine .of_hears (.of_silent h hafter hgraph hgroup hwaiting hc hsession) fun m _ => ?_
    refine Or.inr ⟨fun e he => ?_, fun _ _ => ⟨nofun, nofun⟩⟩
    exact (h.engine.presence.nameOf?_of_group hafter.engine.presence (hgroup m) e).2 he

/-- A session enters a game or leaves it. -/
theorem WellFormed.fares_shown (hnamed : sys.Named) {d : Connection} {command : Command}
    {status : Status}
    (hperform : ∀ s, sys.engine.perform s command =
      ⟨.snapshot, s.setStatus status, sys.engine.shown s status⟩)
    (hrefusals : (sys.act (.command d command)).engine.refusals = sys.engine.refusals)
    (hc : (sys.act (.command d command)).engine.presence.nameOf? c = some n) :
    Fares sys (sys.act (.command d command)) (.command d command) c n := by
  have hafter := h.act (.command d command)
  have hsilent {e : Connection} (hed : d ≠ e) : Action.command d command ≠ .command e .enterGame ∧
      Action.command d command ≠ .command e .leaveGame := by
    constructor
    · rintro ⟨⟩
      exact hed rfl
    · rintro ⟨⟩
      exact hed rfl
  cases hd : sys.engine.presence.nameOf? d with
  | none =>
    refine (h.same_of_unattached hd).fares h hafter hc fun m e he => hsilent ?_
    rintro rfl
    cases hd.symm.trans he
  | some k =>
    obtain ⟨s, hs⟩ := h.present d k hd
    obtain rfl := h.own d s hs
    obtain rfl := hnamed s.connection k s hd hs
    rw [act_command hs, Engine.handleCommand_eq command hd (h.engine.players _ _ hd),
      hperform] at hafter hrefusals hc ⊢
    have hbefore := h.engine.attached_of_shown hc
    refine (h.spreads_shown rfl hrefusals hd).fares h hafter hc hbefore ?_ fun m hm e he => ?_
    · exact h.keepsSession_keep hbefore hs rfl rfl fun _ _ => Or.inl rfl
    · apply hsilent
      rintro rfl
      exact hm (Option.some.inj (he.symm.trans hd))

end

theorem Followed.fares_read (hfollowed : sys.Followed used) (h : sys.Sound) {d : Connection}
    (hrefusals : (sys.act (.read d)).engine.refusals = sys.engine.refusals)
    (hc : (sys.act (.read d)).engine.presence.nameOf? c = some n) :
    Fares sys (sys.act (.read d)) (.read d) c n := by
  rcases sys.act_read_cases d with heq | ⟨s, x, xs, hfind, hwaiting, heq⟩
  · rw [heq] at hc ⊢
    exact (Same.refl sys).fares h.wellFormed h.wellFormed hc fun _ _ _ => ⟨nofun, nofun⟩
  · rw [heq] at hrefusals hc ⊢
    obtain ⟨news, hreads⟩ := h.wellFormed.reads hwaiting rfl hrefusals
    have hinStep := hfollowed.readsInStep h hfind hwaiting
    refine .of_hears (h.wellFormed.hears_read hinStep hfind hwaiting rfl hrefusals hc) fun m _ => ?_
    exact Or.inr ⟨fun e he => (hreads.names e).trans he, fun _ _ => ⟨nofun, nofun⟩⟩

theorem Followed.fares (hfollowed : sys.Followed used) (h : sys.Sound) (ha : isPresence a = true)
    (hoffline : ∀ k, a = .connect k → sys.engine.presence.isOnline k = false)
    (hrefusals : (sys.act a).engine.refusals = sys.engine.refusals)
    (hc : (sys.act a).engine.presence.nameOf? c = some n) : Fares sys (sys.act a) a c n := by
  have hwell := h.wellFormed
  match a, ha with
  | .connect k, _ => exact hwell.fares_connect (hoffline k rfl) hrefusals hc
  | .disconnect d, _ => exact hwell.fares_disconnect hfollowed.single hrefusals hc
  | .read d, _ => exact hfollowed.fares_read h hrefusals hc
  | .command d .enterGame, _ =>
    exact hwell.fares_shown hfollowed.named (fun _ => rfl) hrefusals hc
  | .command d .leaveGame, _ =>
    exact hwell.fares_shown hfollowed.named (fun _ => rfl) hrefusals hc

end

/-! ## Runs -/

/-- Somebody has had the name at some time of a run. -/
def hasBeen (sys : System) (as : List Action) (n : Name) : Bool :=
  as.inits.any fun before => (sys.after before).engine.hasPlayer n

/-- After the actions `before`, the action leaves all ties alone, is no second session of a player,
    and gives nobody a name that has been somebody's. -/
def admitsNext (sys : System) (before : List Action) : Action → Bool
  | .connect n => !(sys.after before).engine.presence.isOnline n
  | .command _ (.rename t) =>
    match Name.parse? t with
    | some new => !sys.hasBeen before new
    | none => true
  | .disconnect _ | .read _ | .command _ .enterGame | .command _ .leaveGame => true
  | _ => false

/-- Every action of a run is admitted where it is taken. -/
def admitsFrom (sys : System) (before : List Action) : List Action → Bool
  | [] => true
  | a :: as => sys.admitsNext before a && sys.admitsFrom (before ++ [a]) as

theorem admitsFrom_concat (sys : System) (before as : List Action) (a : Action) :
    sys.admitsFrom before (as ++ [a]) =
      (sys.admitsFrom before as && sys.admitsNext (before ++ as) a) := by
  induction as generalizing before with
  | nil =>
    show (sys.admitsNext before a && true) = (true && sys.admitsNext (before ++ []) a)
    rw [Bool.and_true, Bool.true_and, List.append_nil]
  | cons b as ih =>
    show (sys.admitsNext before b && sys.admitsFrom (before ++ [b]) (as ++ [a])) = _
    rw [ih, ← Bool.and_assoc, List.append_assoc]
    rfl

theorem hasBeen_iff {sys : System} {as : List Action} {n : Name} :
    sys.hasBeen as n = true ↔
      ∃ before, before <+: as ∧ (sys.after before).engine.hasPlayer n = true := by
  unfold hasBeen
  simp only [List.any_eq_true, List.mem_inits]

theorem hasBeen_concat {sys : System} {as : List Action} {a : Action} {n : Name} :
    sys.hasBeen (as ++ [a]) n = true ↔
      sys.hasBeen as n = true ∨ ((sys.after as).act a).engine.hasPlayer n = true := by
  rw [hasBeen_iff, hasBeen_iff, ← after_concat]
  simp only [List.prefix_concat_iff, or_and_right, exists_or, exists_eq_left]
  exact or_comm

/-- An admitted action is no second session of a player, or it asks for a name that has been
    nobody's. -/
theorem admitsNext_cases {sys : System} {before : List Action} {a : Action}
    (h : sys.admitsNext before a = true) :
    (isPresence a = true ∧
      ∀ k, a = .connect k → (sys.after before).engine.presence.isOnline k = false) ∨
    ∃ d text, a = .command d (.rename text) ∧
      ∀ new, Name.parse? text = some new → ¬ sys.hasBeen before new = true := by
  match a, h with
  | .connect k, h =>
    have hoffline : (sys.after before).engine.presence.isOnline k = false := by
      simpa [admitsNext] using h
    refine Or.inl ⟨rfl, fun j hj => ?_⟩
    cases hj
    exact hoffline
  | .disconnect d, _ | .read d, _ | .command d .enterGame, _ | .command d .leaveGame, _ =>
    exact Or.inl ⟨rfl, nofun⟩
  | .command d (.rename text), h =>
    refine Or.inr ⟨d, text, rfl, fun new hparse => ?_⟩
    simpa [admitsNext, hparse] using h

/-- What an action of such a run does. -/
theorem Followed.act {sys : System} {before : List Action} (h : (sys.after before).Sound)
    (hfollowed : (sys.after before).Followed fun n => sys.hasBeen before n = true) {a : Action}
    (hadmits : sys.admitsNext before a = true)
    (hrefusals : ((sys.after before).act a).engine.refusals = (sys.after before).engine.refusals) :
    Proceeds (sys.after before) ((sys.after before).act a) a
      fun n => sys.hasBeen (before ++ [a]) n = true := by
  have hbefore : ∀ n, sys.hasBeen before n = true → sys.hasBeen (before ++ [a]) n = true :=
    fun _ hn => hasBeen_concat.2 (Or.inl hn)
  rcases admitsNext_cases hadmits with ⟨ha, hoffline⟩ | ⟨d, text, rfl, hfresh⟩
  · have hplayers := Engine.hasPlayer_of_database ((sys.after before).database_act ha)
    refine (hfollowed.proceeds hplayers fun c n hc => ?_).mono hbefore
    exact hfollowed.fares h ha hoffline hrefusals hc
  · rcases h.renames hfollowed.named hrefusals with hsame | ⟨old, new, hparse, hmoved⟩
    · refine (hfollowed.proceeds (fun m => by rw [hsame.engine]) fun c n hc => ?_).mono hbefore
      exact hsame.fares h.wellFormed (h.wellFormed.act _) hc fun _ _ _ => ⟨nofun, nofun⟩
    · refine (hmoved.proceeds h hfollowed (hfresh new hparse) ⟨text, rfl⟩).mono fun n hn => ?_
      exact hasBeen_concat.2 hn

/-- At some step of a run the player of the session has taken another name while a friend's session
    had a probe to read, and that session has kept its place and its name and shown no status since. -/
def Overtaken (sys : System) (as : List Action) (c : Connection) (m : Name) : Prop :=
  ∃ before a later d, as = before ++ a :: later ∧
    OvertakenAt (sys.after before) (sys.after (before ++ [a])) a c d m ∧
    (∀ since, since <+: later →
      (sys.after (before ++ a :: since)).engine.presence.nameOf? d = some m) ∧
    ∀ b ∈ later, b ≠ .command d .enterGame ∧ b ≠ .command d .leaveGame

section

variable {sys : System} {as : List Action} {a : Action} {c : Connection} {m : Name}

theorem Overtaken.concat (h : sys.Overtaken as c m)
    (hlasts : Lasts (sys.after as) ((sys.after as).act a) a m) : sys.Overtaken (as ++ [a]) c m := by
  obtain ⟨before, b, later, d, rfl, hovertaken, hstays, hsilent⟩ := h
  have hd := hstays later (List.prefix_refl later)
  have hsplit : before ++ b :: later ++ [a] = before ++ b :: (later ++ [a]) :=
    List.append_assoc _ _ _
  refine ⟨before, b, later ++ [a], d, hsplit, hovertaken, fun since hprefix => ?_, fun e he => ?_⟩
  · rcases List.prefix_concat_iff.1 hprefix with rfl | hprefix
    · rw [← hsplit, after_concat]
      exact hlasts.stays d hd
    · exact hstays since hprefix
  · rcases List.mem_append.1 he with he | he
    · exact hsilent e he
    · rw [List.mem_singleton.1 he]
      exact hlasts.silent d hd

theorem Overtaken.of_overtakenAt {d : Connection}
    (h : OvertakenAt (sys.after as) ((sys.after as).act a) a c d m) :
    sys.Overtaken (as ++ [a]) c m := by
  rw [← after_concat] at h
  refine ⟨as, a, [], d, rfl, h, fun since hprefix => ?_, nofun⟩
  rw [List.prefix_nil.1 hprefix]
  exact h.friend

/-- Where nobody is attached there is nothing to follow. -/
theorem followed_of_nobody (hnew : ∀ c, sys.engine.presence.nameOf? c = none) :
    sys.Followed fun n => sys.hasBeen [] n = true where
  named c n s hc := by cases (hnew c).symm.trans hc
  single c d n hc := by cases (hnew c).symm.trans hc
  players n hn := hasBeen_iff.2 ⟨[], List.prefix_refl [], hn⟩
  renamings c n old new hc := by cases (hnew c).symm.trans hc

/-- Whoever is not right about a friend, nor will be told, has been overtaken by a renaming. -/
theorem Sound.knows_or_overtaken (h : sys.Sound)
    (hnew : ∀ c, sys.engine.presence.nameOf? c = none) (hadmits : sys.admitsFrom [] as = true)
    (hrefusals : (sys.after as).engine.refusals = sys.engine.refusals) :
    (sys.after as).Followed (fun n => sys.hasBeen as n = true) ∧
      ∀ c n m, (sys.after as).engine.presence.nameOf? c = some n → (sys.after as).Friends n m →
        (sys.after as).Knows c n m ∨ sys.Overtaken as c m := by
  induction as using List.reverseRecOn with
  | nil =>
    refine ⟨followed_of_nobody hnew, fun c n m hc => ?_⟩
    cases (hnew c).symm.trans hc
  | append_singleton as a ih =>
    rw [admitsFrom_concat, Bool.and_eq_true] at hadmits
    obtain ⟨hnone, hlast⟩ := sys.refusals_of_append as [a] hrefusals
    obtain ⟨hfollowed, hknown⟩ := ih hadmits.1 hnone
    have hproceeds := hfollowed.act (h.after as) hadmits.2 hlast
    rw [after_concat]
    refine ⟨hproceeds.followed, fun c n m hc hm => ?_⟩
    rcases hproceeds.minds c n m hc hm with hknows | hovertaken | ⟨hbefore, hfriend, hunknown, hlasts⟩
    · exact Or.inl hknows
    · exact Or.inr (.of_overtakenAt hovertaken)
    · rcases hknown c _ m hbefore hfriend with hknows | hovertaken
      · exact absurd hknows hunknown
      · exact Or.inr (hovertaken.concat hlasts)

end

/-- **Renamings and what is known of friends.**  After a run on any well-formed database in which
    nobody's ties change, no player has two sessions, nobody takes a name that was somebody's
    before, and no notice is refused: when nothing waits for any attached session, each of them has
    for each friend of its player the status that the friend shows, unless a renaming has overtaken
    its probe to that friend. -/
theorem statusOf_eq_or_overtaken (db : Database) (hdb : db.WellFormed) (capacity : Nat)
    (as : List Action) (hadmits : (start db capacity).admitsFrom [] as = true)
    (hrefusals : ((start db capacity).after as).engine.refusals = 0)
    (hidle : ((start db capacity).after as).Idle) (c : Connection) (n m : Name)
    (hname : ((start db capacity).after as).engine.presence.nameOf? c = some n)
    (hfriends : ((start db capacity).after as).Friends n m) :
    ∃ s, ((start db capacity).after as).sessions.find? c = some s ∧ s.name = n ∧
      (s.statusOf m = ((start db capacity).after as).engine.presence.statusOf m ∨
        (start db capacity).Overtaken as c m) := by
  have hsound : (start db capacity).Sound := ⟨wellFormed_start hdb.graph capacity, hdb⟩
  obtain ⟨hfollowed, hknown⟩ := hsound.knows_or_overtaken (fun _ => rfl) hadmits hrefusals
  have hwell := (hsound.after as).wellFormed
  rcases hknown c n m hname hfriends with hknows | hovertaken
  · obtain ⟨s, hs, hright⟩ := hwell.statusOf_of_knows hidle hname hknows
    exact ⟨s, hs, hfollowed.named c n s hname hs, Or.inl hright⟩
  · obtain ⟨s, hs⟩ := hwell.present c n hname
    exact ⟨s, hs, hfollowed.named c n s hname hs, Or.inr hovertaken⟩

/-! ### A friend who reads too late

Two players are friends.  One of them comes when the other is there, and takes another name.  The
friend reads the probe before that, or after. -/

def friendsStored : Database :=
  (((Database.empty.apply (.create ⟨"q", Name.isValid_q⟩)).apply
    (.create ⟨"r", Name.isValid_r⟩)).apply
    (.request ⟨"q", Name.isValid_q⟩ ⟨"r", Name.isValid_r⟩)).apply
    (.graph (.accept ⟨"q", Name.isValid_q⟩ ⟨"r", Name.isValid_r⟩))

theorem wellFormed_friendsStored : friendsStored.WellFormed :=
  (((Database.wellFormed_empty.apply rfl).apply rfl).apply rfl).apply rfl

/-- The probe is read before the renaming. -/
def answersFirst : List Action :=
  [.connect ⟨"r", Name.isValid_r⟩, .connect ⟨"q", Name.isValid_q⟩, .read ⟨0⟩,
    .command ⟨1⟩ (.rename "s"), .read ⟨0⟩, .read ⟨0⟩, .read ⟨0⟩, .read ⟨1⟩]

/-- The probe is read after the renaming. -/
def renamesFirst : List Action :=
  [.connect ⟨"r", Name.isValid_r⟩, .connect ⟨"q", Name.isValid_q⟩, .command ⟨1⟩ (.rename "s"),
    .read ⟨0⟩, .read ⟨0⟩, .read ⟨0⟩, .read ⟨0⟩]

theorem idle_answersFirst : ((start friendsStored 64).after answersFirst).Idle :=
  ((wellFormed_start wellFormed_friendsStored.graph 64).after answersFirst).idle_of_arrived
    (by decide +kernel)

theorem idle_renamesFirst : ((start friendsStored 64).after renamesFirst).Idle :=
  ((wellFormed_start wellFormed_friendsStored.graph 64).after renamesFirst).idle_of_arrived
    (by decide +kernel)

theorem statusOf_eq_or_overtaken_answersFirst :
    ∃ s, ((start friendsStored 64).after answersFirst).sessions.find? ⟨1⟩ = some s ∧
      s.name = ⟨"s", by decide⟩ ∧
      (s.statusOf ⟨"r", by decide⟩ =
          ((start friendsStored 64).after answersFirst).engine.presence.statusOf
            ⟨"r", by decide⟩ ∨
        (start friendsStored 64).Overtaken answersFirst ⟨1⟩ ⟨"r", by decide⟩) :=
  statusOf_eq_or_overtaken friendsStored wellFormed_friendsStored 64 answersFirst
    (by decide +kernel) (by decide +kernel) idle_answersFirst ⟨1⟩ ⟨"s", by decide⟩
    ⟨"r", by decide⟩ (by decide +kernel) (by decide +kernel)

/-- Not every session need be right about the friends of its player: this one takes a friend who is
    there for gone, since it has taken another name before the friend read its probe. -/
theorem not_statusOf_eq_of_renaming :
    ¬ ∀ (db : Database) (capacity : Nat) (as : List Action) (c : Connection) (n m : Name),
      db.WellFormed → (start db capacity).admitsFrom [] as = true →
      ((start db capacity).after as).engine.refusals = 0 → ((start db capacity).after as).Idle →
      ((start db capacity).after as).engine.presence.nameOf? c = some n →
      ((start db capacity).after as).Friends n m →
      (((start db capacity).after as).sessions.find? c).map (·.statusOf m) =
        some (((start db capacity).after as).engine.presence.statusOf m) := by
  intro hall
  have hright := hall friendsStored 64 renamesFirst ⟨1⟩ ⟨"s", by decide⟩ ⟨"r", by decide⟩
    wellFormed_friendsStored (by decide +kernel) (by decide +kernel) idle_renamesFirst
    (by decide +kernel) (by decide +kernel)
  revert hright
  decide +kernel

end Amity.System
