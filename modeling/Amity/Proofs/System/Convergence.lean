/-
  Amity/Proofs/System/Convergence.lean
  ====================================
  **Sessions end up knowing their friends.**  Take a run in which nobody takes another name, no
  player opens a second session, no notice is refused, and nobody makes friends again with a friend
  given up.  When all attached sessions have read everything, each of them has the right status for
  each friend of its player, in whatever order players came, went, played, made friends and read.
-/
import Amity.Proofs.System.Hearing

namespace Amity.System

section

variable {sys : System} (h : sys.WellFormed) {met : Name → Name → Prop} (hviewed : sys.Viewed met)
  {c : Connection} {n : Name}
include h hviewed

/-! ## Commands -/

omit h hviewed in
theorem friendships_of_onGraph {e : Engine} {r : Except GraphError (Bool × Graph)}
    {condition : Prop} {friendships : Set (Sym2 Name)} {requests : Set (Name × Name)}
    {players : Name → Prop} {database : Database}
    (hacts : e.database.graph.MakesWhen r condition friendships requests players)
    (houtcome : e.onGraph r = .ok (true, database)) :
    condition ∧ database.graph.friendships = friendships := by
  obtain ⟨graph, hmade, rfl⟩ := Engine.onGraph_eq_ok houtcome
  obtain ⟨hcondition, hbecomes⟩ := hacts.of_eq_ok hmade
  exact ⟨hcondition, hbecomes.friendships⟩

theorem Viewed.hears_ties {s : Session} {target : Name} {command : Command}
    {change : Engine.TieChange} {database : Database} {turn : Turn}
    (hs : sys.sessions.find? s.connection = some s)
    (hname : sys.engine.presence.nameOf? s.connection = some s.name)
    (hasks : sys.engine.Asks s target command change)
    (houtcome : change.outcome = .ok (true, database))
    (hturn : turn = ⟨.snapshot, change.session, sys.engine.tieChanged s target change database⟩)
    (hrefusals : turn.engine.refusals = sys.engine.refusals)
    (hreunion : ∀ m, (sys.keep turn).2.Friends n m → sys.Friends n m ∨ ¬ met n m)
    (hafter : (sys.keep turn).2.WellFormed)
    (hc : (sys.keep turn).2.engine.presence.nameOf? c = some n) :
    Hears sys (sys.keep turn).2 c n := by
  have hengine : turn.engine = sys.engine.tieChanged s target change database := by rw [hturn]
  have htold := hviewed.told h hname hasks houtcome hengine hrefusals
  rw [htold.names] at hc
  have hgraph : turn.engine.database = database := by
    rw [hengine]
    rfl
  have hsession : turn.session = change.session := by rw [hturn]
  have hold := h.engine.graph
  cases hasks with
  | request =>
    rcases Database.request_eq_ok houtcome with ⟨-, -, -, hmade⟩ | ⟨hfalse, -⟩
    · have hbecomes := ((hold.createRequest_acts s.name target).of_eq_ok hmade).2
      rw [← hgraph] at hbecomes
      exact h.hears_update hs hsession htold hbecomes.friendships hafter hc
    · cases hfalse
  | remove =>
    obtain ⟨hold, hfriends⟩ := friendships_of_onGraph (hold.removeFriendship_acts _ _) houtcome
    rw [← hgraph] at hfriends
    exact h.hears_remove hs hsession hname htold hold hfriends hafter hc
  | cancel =>
    obtain ⟨-, hfriends⟩ := friendships_of_onGraph (hold.deleteRequest_acts _ _) houtcome
    rw [← hgraph] at hfriends
    exact h.hears_update hs hsession htold hfriends hafter hc
  | accept =>
    obtain ⟨hrequest, hfriends⟩ := friendships_of_onGraph (hold.acceptRequest_acts _ _) houtcome
    rw [← hgraph] at hfriends
    have hne := hold.ne_of_mem_requests hrequest
    exact hviewed.hears_accept h hs hsession hname htold hne hfriends hreunion hafter hc
  | refuse =>
    obtain ⟨-, hfriends⟩ := friendships_of_onGraph (hold.deleteRequest_acts _ _) houtcome
    rw [← hgraph] at hfriends
    exact h.hears_update hs hsession htold hfriends hafter hc

theorem Viewed.hears_performs {s : Session} {command : Command} {turn : Turn}
    (hs : sys.sessions.find? s.connection = some s)
    (hname : sys.engine.presence.nameOf? s.connection = some s.name)
    (hturn : sys.engine.Performs s command turn) (hrename : ∀ text, command ≠ .rename text)
    (hrefusals : turn.engine.refusals = sys.engine.refusals)
    (hreunion : ∀ m, (sys.keep turn).2.Friends n m → sys.Friends n m ∨ ¬ met n m)
    (hafter : (sys.keep turn).2.WellFormed)
    (hc : (sys.keep turn).2.engine.presence.nameOf? c = some n) :
    Hears sys (sys.keep turn).2 c n := by
  cases hturn with
  | nothing => exact (Same.of_keep hs rfl rfl).hears h hafter hc
  | ties _ hasks houtcome =>
    exact hviewed.hears_ties h hs hname hasks houtcome rfl hrefusals hreunion hafter hc
  | rename hcommand => exact absurd hcommand (hrename _)
  | delete _ hdelete =>
    have hbefore := (h.engine.attached_of_deletePlayer hdelete hc).1
    refine h.hears_delete hafter hdelete hrefusals hc ?_
    apply h.keepsSession_same hbefore hs
    rfl
  | status status =>
    have hbefore := h.engine.attached_of_shown hc
    refine (h.spreads_shown rfl hrefusals hname).hears h hafter hbefore hc ?_
    exact h.keepsSession_keep hbefore hs rfl rfl fun _ _ => Or.inl rfl

/-- A command other than a renaming. -/
theorem Viewed.hears_command {d : Connection} {s : Session} {command : Command} {turn : Turn}
    (hs : sys.sessions.find? d = some s) (hturn : turn = sys.engine.handleCommand s command)
    (hrename : ∀ text, command ≠ .rename text)
    (hrefusals : turn.engine.refusals = sys.engine.refusals)
    (hreunion : ∀ m, (sys.keep turn).2.Friends n m → sys.Friends n m ∨ ¬ met n m)
    (hafter : (sys.keep turn).2.WellFormed)
    (hc : (sys.keep turn).2.engine.presence.nameOf? c = some n) :
    Hears sys (sys.keep turn).2 c n := by
  obtain rfl := h.own d s hs
  rcases sys.engine.handleCommand_cases s command with
    ⟨-, heq⟩ | ⟨k, hname, hcases⟩
  · rw [← hturn] at heq
    subst heq
    exact (Same.of_keep hs rfl rfl).hears h hafter hc
  · -- the session has its player's name, so taking it again changes nothing
    obtain rfl := hviewed.named s.connection k s hname hs
    rcases hcases with ⟨-, heq⟩ | ⟨-, hperforms⟩
    · rw [← hturn] at heq
      subst heq
      exact (Same.of_keep hs rfl rfl).hears h hafter hc
    · rw [← hturn] at hperforms
      exact hviewed.hears_performs h hs hname hperforms hrename hrefusals hreunion hafter hc

end

/-! ## Runs -/

/-- The action gives nobody another name and is no second session of a player. -/
def admits (sys : System) : Action → Bool
  | .connect n => !sys.engine.presence.isOnline n
  | .command _ (.rename _) => false
  | _ => true

/-- Every action of a run is admitted where it is taken. -/
def admitsAll : System → List Action → Bool
  | _, [] => true
  | sys, a :: as => sys.admits a && (sys.act a).admitsAll as

theorem admitsAll_concat (sys : System) (as : List Action) (a : Action) :
    sys.admitsAll (as ++ [a]) = (sys.admitsAll as && (sys.after as).admits a) := by
  induction as generalizing sys with
  | nil =>
    show (sys.admits a && true) = (true && sys.admits a)
    rw [Bool.and_true, Bool.true_and]
  | cons b as ih =>
    show (sys.admits b && (sys.act b).admitsAll (as ++ [a])) = _
    rw [ih, ← Bool.and_assoc]
    rfl

/-- Nobody makes friends again with a friend given up: two players who were friends and are not any
    more stay so. -/
def NoReunion (sys : System) (as : List Action) : Prop :=
  ∀ before between later n m, before ++ between ++ later <+: as →
    (sys.after before).Friends n m → ¬ (sys.after (before ++ between)).Friends n m →
      ¬ (sys.after (before ++ between ++ later)).Friends n m

/-- Two players have been friends at some time of a run. -/
def Met (sys : System) (as : List Action) (n m : Name) : Prop :=
  ∃ before, before <+: as ∧ (sys.after before).Friends n m

/-- What is kept when nobody makes friends again. -/
theorem Viewed.act {sys : System} (h : sys.WellFormed) {met : Name → Name → Prop}
    (hviewed : sys.Viewed met) {a : Action} (hadmits : sys.admits a = true)
    (hrefusals : (sys.act a).engine.refusals = sys.engine.refusals)
    (hreunion : ∀ n m, (sys.act a).Friends n m → sys.Friends n m ∨ ¬ met n m) :
    (sys.act a).Viewed fun n m => met n m ∨ (sys.act a).Friends n m := by
  have hafter := h.act a
  refine hviewed.step fun c n hc => ?_
  cases a with
  | create k =>
    refine .hears (.of_silent h hafter ?_ (fun _ => rfl) (fun _ => rfl) hc (h.keepsSession hc rfl))
    exact Database.graph_outcomeOr_withDirectory _ _
  | setAlias k choice =>
    refine .hears (.of_silent h hafter ?_ (fun _ => rfl) (fun _ => rfl) hc (h.keepsSession hc rfl))
    exact Database.graph_outcomeOr_withDirectory _ _
  | delete k =>
    rcases sys.act_delete_cases k with heq | ⟨gone, engine, hdelete, heq⟩
    · rw [heq] at hc ⊢
      exact .hears (.refl h hc)
    · rw [heq] at hafter hrefusals hc ⊢
      have hbefore := (h.engine.attached_of_deletePlayer hdelete hc).1
      exact .hears (h.hears_delete hafter hdelete hrefusals hc (h.keepsSession hbefore rfl))
  | connect k =>
    rcases sys.act_connect_cases k with heq | ⟨s, engine, hconnect, heq⟩
    · rw [heq] at hc ⊢
      exact .hears (.refl h hc)
    · rw [heq] at hafter hrefusals hc ⊢
      have hoffline : sys.engine.presence.isOnline k = false := by simpa [admits] using hadmits
      rcases sys.engine.connect_cases k with ⟨-, hcases⟩ | ⟨hk, hcases⟩
      · cases hcases.symm.trans hconnect
      · cases hcases.symm.trans hconnect
        by_cases hnew : c = ⟨sys.engine.presence.arrivals⟩
        · have hcomes := h.comes_connect hafter hk hoffline rfl rfl hrefusals
          have hname := h.engine.nameOf?_connected hk hrefusals c
          rw [if_pos hnew] at hname
          obtain rfl : n = k := Option.some.inj (hc.symm.trans hname)
          rw [hnew]
          exact .comes hcomes
        · exact .hears (h.hears_connect hafter hk rfl rfl hrefusals hc hnew)
  | disconnect d => exact .hears (h.hears_disconnect hviewed.single hafter hrefusals hc)
  | command d command =>
    rcases sys.act_command_cases d command with heq | ⟨s, hs, heq⟩
    · rw [heq] at hc ⊢
      exact .hears (.refl h hc)
    · have hreunion := hreunion n
      rw [heq] at hafter hrefusals hc hreunion ⊢
      have hrename : ∀ text, command ≠ .rename text := by
        rintro text rfl
        cases hadmits
      exact .hears (hviewed.hears_command h hs rfl hrename hrefusals hreunion hafter hc)
  | read d =>
    rcases sys.act_read_cases d with heq | ⟨s, x, xs, hfind, hwaiting, heq⟩
    · rw [heq] at hc ⊢
      exact .hears (.refl h hc)
    · rw [heq] at hrefusals hc ⊢
      have hinStep : ReadsInStep sys d s x := .of_quiet (fun k hk => hviewed.named d k s hk hfind)
        fun k hk => hviewed.quiet d k hk x (hwaiting ▸ List.mem_cons_self)
      exact .hears (h.hears_read hinStep hfind hwaiting rfl hrefusals hc)

theorem Viewed.mono {sys : System} {met met' : Name → Name → Prop} (h : sys.Viewed met)
    (hle : ∀ n m, met n m → met' n m) : sys.Viewed met' where
  named := h.named
  single := h.single
  quiet := h.quiet
  friends n m hm := hle n m (h.friends n m hm)
  strangers c n m hc hm := h.strangers c n m hc fun hmet => hm (hle n m hmet)
  known := h.known

theorem Viewed.after {sys : System} (h : sys.WellFormed) (hviewed : sys.Viewed (sys.Met []))
    {as : List Action} (hadmits : sys.admitsAll as = true) (hreunion : sys.NoReunion as)
    (hrefusals : (sys.after as).engine.refusals = sys.engine.refusals) :
    (sys.after as).Viewed (sys.Met as) := by
  induction as using List.reverseRecOn with
  | nil => exact hviewed
  | append_singleton as a ih =>
    rw [admitsAll_concat, Bool.and_eq_true] at hadmits
    obtain ⟨hnone, hlastly⟩ := sys.refusals_of_append as [a] hrefusals
    rw [after_concat]
    have hsofar : sys.NoReunion as := by
      intro before between later n m hinside
      exact hreunion before between later n m (hinside.trans (List.prefix_append as [a]))
    have hlast : ∀ n m, ((sys.after as).act a).Friends n m →
        (sys.after as).Friends n m ∨ ¬ sys.Met as n m := by
      intro n m hm
      by_cases hfriends : (sys.after as).Friends n m
      · exact Or.inl hfriends
      · right
        rintro ⟨before, ⟨between, rfl⟩, hmet⟩
        rw [← after_concat] at hm
        exact hreunion before between [a] n m (List.prefix_refl _) hmet hfriends hm
    have hviewed := (ih hadmits.1 hsofar hnone).act (h.after as) hadmits.2
      hlastly hlast
    refine hviewed.mono ?_
    rintro n m (⟨before, hinside, hmet⟩ | hfriends)
    · exact ⟨before, hinside.trans (List.prefix_append as [a]), hmet⟩
    · refine ⟨as ++ [a], List.prefix_refl _, ?_⟩
      rw [after_concat]
      exact hfriends

/-- Where nobody is tied to anybody and nobody is there, there is nothing to know. -/
theorem viewed_start {db : Database} (hgraph : db.graph = .empty) (capacity : Nat)
    (met : Name → Name → Prop) : (start db capacity).Viewed met where
  named _ _ _ hc := by cases hc
  single _ _ _ hc := by cases hc
  quiet _ _ hc := by cases hc
  friends n m hm := by
    have hwell : db.graph.WellFormed := hgraph ▸ Graph.wellFormed_empty
    rw [(wellFormed_start hwell capacity).friends_iff] at hm
    have hm : m ∈ (db.graph.ties n).friends := hm
    rw [hgraph] at hm
    cases hm
  strangers _ _ _ hc := by cases hc
  known _ _ _ hc := by cases hc

/-! ### How friendships end -/

/-- The action takes nobody's friend away. -/
def lasting : Action → Bool
  | .delete _ => false
  | .command _ (.remove _) => false
  | .command _ (.rename _) => false
  | .command _ .deleteAccount => false
  | _ => true

theorem WellFormed.friends_of_performs {sys : System} (h : sys.WellFormed) {s : Session}
    {command : Command} {turn : Turn} (hturn : sys.engine.Performs s command turn)
    {d : Connection} (hlasting : lasting (.command d command) = true)
    (hafter : (sys.keep turn).2.WellFormed) {n m : Name} (hm : sys.Friends n m) :
    (sys.keep turn).2.Friends n m := by
  have hold := h.engine.graph
  cases hturn with
  | nothing => exact hm
  | ties _ hasks houtcome =>
    rw [h.friends_iff_mem_friendships] at hm
    rw [hafter.friends_iff_mem_friendships]
    cases hasks with
    | request =>
      rcases Database.request_eq_ok houtcome with ⟨-, -, -, hmade⟩ | ⟨hfalse, -⟩
      · exact ((hold.createRequest_acts _ _).of_eq_ok hmade).2.friendships.symm.subset hm
      · cases hfalse
    | remove => cases hlasting
    | cancel =>
      have hfriends := (friendships_of_onGraph (hold.deleteRequest_acts _ _) houtcome).2
      exact hfriends.symm.subset hm
    | accept =>
      have hfriends := (friendships_of_onGraph (hold.acceptRequest_acts _ _) houtcome).2
      exact hfriends.symm.subset (Set.mem_insert_of_mem _ hm)
    | refuse =>
      have hfriends := (friendships_of_onGraph (hold.deleteRequest_acts _ _) houtcome).2
      exact hfriends.symm.subset hm
  | rename hcommand =>
    subst hcommand
    cases hlasting
  | delete hcommand =>
    subst hcommand
    cases hlasting
  | status => exact hm

/-- A friendship ends only when one of the two ends it or goes, or takes another name. -/
theorem WellFormed.friends_act {sys : System} (h : sys.WellFormed) {a : Action}
    (hlasting : lasting a = true) {n m : Name} (hm : sys.Friends n m) :
    (sys.act a).Friends n m := by
  have hafter := h.act a
  cases a with
  | create k =>
    unfold Friends at hm ⊢
    rw [← hm]
    exact congrArg (fun g : Graph => g.areFriends n m) (Database.graph_outcomeOr_withDirectory _ _)
  | setAlias k choice =>
    unfold Friends at hm ⊢
    rw [← hm]
    exact congrArg (fun g : Graph => g.areFriends n m) (Database.graph_outcomeOr_withDirectory _ _)
  | delete => cases hlasting
  | connect k =>
    rcases sys.act_connect_cases k with heq | ⟨s, engine, hconnect, heq⟩
    · rwa [heq]
    · rw [heq]
      rcases sys.engine.connect_cases k with ⟨-, hcases⟩ | ⟨-, hcases⟩
      · cases hcases.symm.trans hconnect
      · cases hcases.symm.trans hconnect
        exact hm
  | disconnect d =>
    have hengine : (sys.act (.disconnect d)).engine = sys.engine.disconnect d := rfl
    unfold Friends
    rw [hengine]
    rcases sys.engine.disconnect_cases d with ⟨-, heq⟩ | ⟨k, -, ⟨-, heq⟩ | ⟨-, heq⟩⟩
    · rw [heq]
      exact hm
    · rw [heq]
      exact hm
    · rw [heq]
      exact hm
  | command d command =>
    rcases sys.act_command_cases d command with heq | ⟨s, hs, heq⟩
    · rwa [heq]
    · rw [heq] at hafter ⊢
      rcases sys.engine.handleCommand_cases s command with
        ⟨-, hturn⟩ | ⟨k, -, ⟨-, hturn⟩ | ⟨-, hturn⟩⟩
      · rw [hturn]
        exact hm
      · rw [hturn]
        exact hm
      · exact h.friends_of_performs hturn hlasting hafter hm
  | read d =>
    rcases sys.act_read_cases d with heq | ⟨s, x, xs, -, -, heq⟩
    · rwa [heq]
    · rw [heq]
      unfold Friends
      rcases (sys.engine.leaving d xs).handleNotice_cases s x with
        ⟨-, hturn⟩ | ⟨_, _, _, -, -, hturn⟩
      · show (sys.engine.leaving d xs |>.handleNotice s x).engine.database.graph.areFriends n m = _
        rw [hturn]
        exact hm
      · rw [hturn]
        exact hm

theorem WellFormed.friends_after {sys : System} (h : sys.WellFormed) {as : List Action}
    (hlasting : ∀ a ∈ as, lasting a = true) {n m : Name} (hm : sys.Friends n m) :
    (sys.after as).Friends n m := by
  induction as generalizing sys with
  | nil => exact hm
  | cons a as ih =>
    have hm' := h.friends_act (hlasting a List.mem_cons_self) hm
    exact ih (h.act a) (fun b hb => hlasting b (List.mem_cons_of_mem a hb)) hm'

/-- Where no friendship ends, none begins again. -/
theorem WellFormed.noReunion {sys : System} (h : sys.WellFormed) {as : List Action}
    (hlasting : ∀ a ∈ as, lasting a = true) : sys.NoReunion as := by
  intro before between later n m hinside hbefore hapart
  rw [after_append] at hapart
  refine absurd ((h.after before).friends_after ?_ hbefore) hapart
  intro a ha
  apply hlasting a
  apply hinside.subset
  exact List.mem_append_left _ (List.mem_append_right _ ha)

/-! ### Idle sessions -/

/-- Nothing waits for any attached session. -/
def Idle (sys : System) : Prop :=
  ∀ c n, sys.engine.presence.nameOf? c = some n → sys.engine.presence.waiting c = []

/-- It is enough to look at the connections that have come so far. -/
theorem WellFormed.idle_of_arrived {sys : System} (h : sys.WellFormed)
    (harrived : ∀ i < sys.engine.presence.arrivals, sys.engine.presence.waiting ⟨i⟩ = [] ∨
      sys.engine.presence.nameOf? ⟨i⟩ = none) : sys.Idle := by
  intro c n hc
  rcases harrived c.number (h.engine.presence.arrived_of_nameOf? hc) with hempty | hnone
  · exact hempty
  · cases hnone.symm.trans hc

/-- Who is right about a player, or will be answered, is right when nothing waits. -/
theorem WellFormed.statusOf_of_knows {sys : System} (h : sys.WellFormed) (hidle : sys.Idle)
    {c : Connection} {n m : Name} (hc : sys.engine.presence.nameOf? c = some n)
    (hknows : sys.Knows c n m) :
    ∃ s, sys.sessions.find? c = some s ∧ s.statusOf m = sys.engine.presence.statusOf m := by
  obtain ⟨s, hs⟩ := h.present c n hc
  refine ⟨s, hs, ?_⟩
  rcases hknows with hright | ⟨d, t, hd, hprobe⟩
  · unfold System.belief? at hright
    rw [hs, hidle c n hc] at hright
    exact Option.some.inj hright
  · rw [hidle d m hd] at hprobe
    cases hprobe

theorem Viewed.statusOf_eq {sys : System} (h : sys.WellFormed) {met : Name → Name → Prop}
    (hviewed : sys.Viewed met) (hidle : sys.Idle) {c : Connection} {n m : Name}
    (hc : sys.engine.presence.nameOf? c = some n) (hm : sys.Friends n m) :
    ∃ s, sys.sessions.find? c = some s ∧ s.name = n ∧
      s.statusOf m = sys.engine.presence.statusOf m := by
  obtain ⟨s, hs, hright⟩ := h.statusOf_of_knows hidle hc (hviewed.known c n m hc hm)
  exact ⟨s, hs, hviewed.named c n s hc hs, hright⟩

/-- **Status views converge.**  After a run that begins without ties, in which nobody is renamed, no
    player has two sessions, no notice is refused and nobody makes friends again with a friend given
    up: when nothing waits for any attached session, each of them has for each friend of its player
    the status that the friend shows. -/
theorem statusOf_eq_of_idle (db : Database) (hgraph : db.graph = .empty) (capacity : Nat)
    (as : List Action) (hadmits : (start db capacity).admitsAll as = true)
    (hreunion : (start db capacity).NoReunion as)
    (hrefusals : ((start db capacity).after as).engine.refusals = 0)
    (hidle : ((start db capacity).after as).Idle) (c : Connection) (n m : Name)
    (hname : ((start db capacity).after as).engine.presence.nameOf? c = some n)
    (hfriends : ((start db capacity).after as).Friends n m) :
    ∃ s, ((start db capacity).after as).sessions.find? c = some s ∧ s.name = n ∧
      s.statusOf m = ((start db capacity).after as).engine.presence.statusOf m := by
  have hstart : (start db capacity).WellFormed :=
    wellFormed_start (hgraph ▸ Graph.wellFormed_empty) capacity
  have hviewed := (viewed_start hgraph capacity ((start db capacity).Met [])).after hstart hadmits
    hreunion hrefusals
  exact hviewed.statusOf_eq (hstart.after as) hidle hname hfriends

/-! ### A friend who comes back

The first player waits for a friend who leaves with a probe unread and comes back. -/

/-- Two players become friends; one starts a game, the other leaves and comes again; all is read. -/
def comesBack : List Action :=
  [.create ⟨"q", Name.isValid_q⟩, .create ⟨"r", Name.isValid_r⟩,
    .connect ⟨"q", Name.isValid_q⟩, .connect ⟨"r", Name.isValid_r⟩,
    .command ⟨0⟩ (.request "r"), .command ⟨1⟩ (.accept "q"), .command ⟨0⟩ .enterGame,
    .disconnect ⟨1⟩, .connect ⟨"r", Name.isValid_r⟩,
    .read ⟨0⟩, .read ⟨0⟩, .read ⟨0⟩, .read ⟨0⟩, .read ⟨2⟩]

theorem idle_comesBack : ((start .empty 64).after comesBack).Idle :=
  ((wellFormed_start Graph.wellFormed_empty 64).after comesBack).idle_of_arrived (by decide +kernel)

theorem statusOf_eq_of_idle_comesBack :
    ∃ s, ((start .empty 64).after comesBack).sessions.find? ⟨2⟩ = some s ∧
      s.name = ⟨"r", by decide⟩ ∧
      s.statusOf ⟨"q", by decide⟩ =
        ((start .empty 64).after comesBack).engine.presence.statusOf ⟨"q", by decide⟩ :=
  statusOf_eq_of_idle .empty rfl 64 comesBack (by decide +kernel)
    ((wellFormed_start Graph.wellFormed_empty 64 : (start .empty 64).WellFormed).noReunion
      (by decide)) (by decide +kernel) idle_comesBack ⟨2⟩ ⟨"r", by decide⟩ ⟨"q", by decide⟩
    (by decide +kernel) (by decide +kernel)

end Amity.System
