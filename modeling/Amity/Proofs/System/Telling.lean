/-
  Amity/Proofs/System/Telling.lean
  ================================
  **What a client is told of renamings.**  A client hears of the renamings of its player from the
  answers to what its session asks and reads (`told`), and of those only: a renaming that the session
  asks for itself is answered with it at once, and one that a notice brings is passed on if the
  session takes it over (`Renaming.taken`).  The rest of what waits is not going to be told
  (`untold`).

  What one step has to do with the name of a session is said once (`Concerns`): the session comes, or
  others act, or it reads, or it asks, or somebody takes another name.
-/
import Amity.Proofs.System.OwnName
import Amity.Proofs.System.Resting

namespace Amity

/-! ## Renamings one after the other -/

/-- The old name and the new one. -/
abbrev Renaming := Name × Name

namespace Renaming

/-- Each renaming starts where the one before it ends, and the first one at `n`. -/
def Chained (n : Name) : List Renaming → Prop
  | [] => True
  | r :: rs => r.1 = n ∧ Chained r.2 rs

instance decidableChained (n : Name) : (rs : List Renaming) → Decidable (Chained n rs)
  | [] => .isTrue trivial
  | r :: rs =>
    have := decidableChained r.2 rs
    inferInstanceAs (Decidable (r.1 = n ∧ Chained r.2 rs))

/-- Where the last renaming leads; `n` when there is none. -/
def last (n : Name) (rs : List Renaming) : Name := (rs.getLast?.map Prod.snd).getD n

/-- The name of a client that starts with `n` and follows the renamings whose old name it has. -/
def held (n : Name) (rs : List Renaming) : Name :=
  rs.foldl (fun k r => if r.1 = k then r.2 else k) n

/-- The renamings that a session of this name takes over: it takes one that concerns its name, and
    has the new name from then on. -/
def taken (n : Name) : List Renaming → List Renaming
  | [] => []
  | r :: rs => if r.1 = n ∨ r.2 = n then r :: taken r.2 rs else taken n rs

variable {n m : Name} {r : Renaming} {rs ss : List Renaming}

theorem last_cons : last n (r :: rs) = last r.2 rs := by
  unfold last
  rw [List.getLast?_cons]
  cases rs.getLast? <;> rfl

theorem last_append : last n (rs ++ ss) = last (last n rs) ss := by
  induction rs generalizing n with
  | nil => rfl
  | cons r rs ih => rw [List.cons_append, last_cons, last_cons, ih]

theorem exists_last_eq (n : Name) (h : rs ≠ []) : ∃ r ∈ rs, last n rs = r.2 := by
  refine ⟨rs.getLast h, List.getLast_mem h, ?_⟩
  unfold last
  rw [List.getLast?_eq_some_getLast h]
  rfl

theorem last_of_forall (h : ∀ r ∈ rs, r.2 = n) : last n rs = n := by
  by_cases hnil : rs = []
  · rw [hnil]
    rfl
  · obtain ⟨r, hr, hlast⟩ := exists_last_eq n hnil
    exact hlast.trans (h r hr)

theorem chained_append : Chained n (rs ++ ss) ↔ Chained n rs ∧ Chained (last n rs) ss := by
  induction rs generalizing n with
  | nil => exact (iff_of_eq (true_and _)).symm
  | cons r rs ih =>
    rw [last_cons]
    show r.1 = n ∧ Chained r.2 (rs ++ ss) ↔ (r.1 = n ∧ Chained r.2 rs) ∧ _
    rw [ih, and_assoc]

theorem held_append : held n (rs ++ ss) = held (held n rs) ss := List.foldl_append

theorem held_of_chained (h : Chained n rs) : held n rs = last n rs := by
  induction rs generalizing n with
  | nil => rfl
  | cons r rs ih =>
    obtain ⟨rfl, h⟩ := h
    rw [last_cons, ← ih h]
    show held (if r.1 = r.1 then r.2 else r.1) rs = _
    rw [if_pos rfl]

theorem held_of_ne (h : ∀ r ∈ rs, r.1 ≠ n) : held n rs = n := by
  induction rs with
  | nil => rfl
  | cons r rs ih =>
    show held (if r.1 = n then r.2 else n) rs = n
    rw [if_neg (h r List.mem_cons_self)]
    exact ih fun s hs => h s (List.mem_cons_of_mem r hs)

theorem taken_cons : taken n (r :: rs) =
    if r.1 = n ∨ r.2 = n then r :: taken r.2 rs else taken n rs := rfl

theorem taken_append : taken n (rs ++ ss) = taken n rs ++ taken (last n (taken n rs)) ss := by
  induction rs generalizing n with
  | nil => rfl
  | cons r rs ih =>
    rw [List.cons_append, taken_cons, taken_cons]
    split
    · rw [ih, last_cons, List.cons_append]
    · exact ih

theorem taken_sublist (n : Name) (rs : List Renaming) : (taken n rs).Sublist rs := by
  induction rs generalizing n with
  | nil => exact .slnil
  | cons r rs ih =>
    rw [taken_cons]
    split
    · exact (ih r.2).cons_cons r
    · exact (ih n).cons r

/-- Renamings of others are not taken over. -/
theorem taken_eq_nil (h : ∀ r ∈ rs, r.1 ≠ n ∧ r.2 ≠ n) : taken n rs = [] := by
  induction rs with
  | nil => rfl
  | cons r rs ih =>
    obtain ⟨hold, hnew⟩ := h r List.mem_cons_self
    rw [taken_cons, if_neg (not_or.2 ⟨hold, hnew⟩)]
    exact ih fun s hs => h s (List.mem_cons_of_mem r hs)

/-- Among renamings to different names there is one to each. -/
theorem filter_eq_singleton (h : (rs.map Prod.snd).Nodup) (hr : r ∈ rs) :
    rs.filter (·.2 = r.2) = [r] := by
  induction rs with
  | nil => cases hr
  | cons s rs ih =>
    rw [List.map_cons, List.nodup_cons] at h
    obtain ⟨hs, h⟩ := h
    rcases List.mem_cons.1 hr with rfl | hr
    · rw [List.filter_cons_of_pos (by simp), List.filter_eq_nil_iff.2]
      intro t ht
      have hne : t.2 ≠ r.2 := fun heq => hs (heq ▸ List.mem_map_of_mem ht)
      simpa using hne
    · have hne : s.2 ≠ r.2 := fun heq => hs (heq ▸ List.mem_map_of_mem hr)
      rw [List.filter_cons_of_neg (by simpa using hne), ih h hr]

/-- Whose name nothing leads away from takes over just what leads to it. -/
theorem taken_eq_filter (h : ∀ r ∈ rs, r.1 ≠ n) : taken n rs = rs.filter (·.2 = n) := by
  induction rs with
  | nil => rfl
  | cons r rs ih =>
    have hr := h r List.mem_cons_self
    have ih := ih fun s hs => h s (List.mem_cons_of_mem r hs)
    rw [taken_cons]
    by_cases hn : r.2 = n
    · subst hn
      rw [if_pos (Or.inr rfl), ih, List.filter_cons_of_pos (by simp)]
    · rw [if_neg (not_or.2 ⟨hr, hn⟩), ih, List.filter_cons_of_neg (by simpa using hn)]

end Renaming

namespace Notice

def renaming? : Notice → Option Renaming
  | .renamed old new => some (old, new)
  | _ => none

/-- The renamings that notices tell of. -/
def renamings (xs : List Notice) : List Renaming := xs.filterMap renaming?

theorem renamings_append (xs ys : List Notice) :
    renamings (xs ++ ys) = renamings xs ++ renamings ys :=
  List.filterMap_append

theorem renamings_eq_nil {xs : List Notice} (h : ∀ x ∈ xs, x.isRenaming = false) :
    renamings xs = [] := by
  refine List.filterMap_eq_nil_iff.2 fun x hx => ?_
  cases x with
  | renamed => cases h _ hx
  | update | status | probe => rfl

/-- The name of a session that reads notices is where the renamings that it takes over lead. -/
theorem followAll_eq_last (n : Name) (xs : List Notice) :
    followAll n xs = Renaming.last n (Renaming.taken n (renamings xs)) := by
  induction xs generalizing n with
  | nil => rfl
  | cons x xs ih =>
    show followAll (x.follow n) xs = _
    rw [ih]
    cases x with
    | renamed old new =>
      show _ = Renaming.last n (Renaming.taken n ((old, new) :: renamings xs))
      rw [Renaming.taken_cons]
      unfold follow
      dsimp only
      split
      · rw [Renaming.last_cons]
      · rfl
    | update | status | probe => rfl

/-- Reading one notice, a session tells its client the renaming that it takes over. -/
theorem taken_cons (n : Name) (x : Notice) (xs : List Notice) :
    Renaming.taken n (renamings (x :: xs)) =
      Renaming.taken n (renamings [x]) ++ Renaming.taken (x.follow n) (renamings xs) := by
  rw [← List.singleton_append, renamings_append, Renaming.taken_append,
    ← followAll_eq_last n [x]]
  rfl

end Notice

/-- The renaming that a client is told. -/
def Reply.renaming? : Reply → Option Renaming
  | .renamed old new => some (old, new)
  | _ => none

theorem Engine.renaming?_handleNotice (e : Engine) (s : Session) (x : Notice) :
    (e.handleNotice s x).reply.renaming?.toList =
      Renaming.taken s.name (Notice.renamings [x]) := by
  cases x with
  | update reset => cases reset <;> rfl
  | status => rfl
  | probe =>
    unfold handleNotice answerProbe
    dsimp only
    split <;> rfl
  | renamed old new =>
    unfold handleNotice
    show _ = if old = s.name ∨ new = s.name then [(old, new)] else []
    dsimp only
    split <;> rfl

namespace Engine

/-- A command that the client is not told a renaming for tells nobody of one. -/
theorem WellFormed.quiet_handleCommand {e : Engine} (h : e.WellFormed) {s : Session}
    {command : Command} (hreply : (e.handleCommand s command).reply.renaming? = none)
    (hrefusals : (e.handleCommand s command).engine.refusals = e.refusals) (c : Connection) :
    e.presence.Quiet (e.handleCommand s command).engine.presence c := by
  have hsame : e.presence.Quiet e.presence c := .of_waiting (fun _ => id) rfl
  rcases e.handleCommand_cases s command with ⟨-, heq⟩ | ⟨n, -, ⟨-, heq⟩ | ⟨-, hturn⟩⟩
  · rw [heq]
    exact hsame
  · rw [heq]
    exact hsame
  · generalize e.handleCommand s command = turn at hreply hrefusals hturn ⊢
    cases hturn with
    | nothing => exact hsame
    | ties _ hasks houtcome => exact h.quiet_tieChanged hasks houtcome hrefusals c
    | rename => cases hreply
    | delete _ hdelete => exact h.quiet_deletePlayer hdelete hrefusals c
    | status => exact h.quiet_shown hrefusals c

theorem command_of_renamed {e : Engine} {s : Session} {command : Command} {old new : Name}
    (hreply : (e.handleCommand s command).reply = .renamed old new) :
    ∃ text, command = .rename text := by
  rcases e.handleCommand_cases s command with ⟨-, heq⟩ | ⟨n, -, ⟨-, heq⟩ | ⟨-, hturn⟩⟩
  · rw [heq] at hreply
    cases hreply
  · rw [heq] at hreply
    cases hreply
  · generalize e.handleCommand s command = turn at hreply hturn
    cases hturn with
    | rename hcommand => exact ⟨_, hcommand⟩
    | nothing | ties | delete | status => cases hreply

end Engine

namespace System

/-! ## What a client is told -/

/-- The renamings that a connection has still to read of. -/
def renamingsFor (sys : System) (c : Connection) : List Renaming :=
  Notice.renamings (sys.engine.presence.waiting c)

/-- The renamings that a session is going to tell its client when it reads what waits. -/
def untold (sys : System) (c : Connection) : List Renaming :=
  match sys.sessions.find? c with
  | some s => Renaming.taken s.name (sys.renamingsFor c)
  | none => []

/-- The renamings that wait for a connection and lead to this name. -/
def leading (sys : System) (c : Connection) (n : Name) : List Renaming :=
  (sys.renamingsFor c).filter (·.2 = n)

/-- The renaming that the client of a connection is told at an action, if any. -/
def told (sys : System) (c : Connection) : Action → List Renaming
  | .command d command =>
    if d = c then ((sys.command d command).bind (·.1.renaming?)).toList else []
  | .read d => if d = c then ((sys.readOne d).bind (·.2.1.renaming?)).toList else []
  | _ => []

/-- The renamings that the client is told over a run, in order. -/
def toldOver (sys : System) (c : Connection) : List Action → List Renaming
  | [] => []
  | a :: as => sys.told c a ++ (sys.act a).toldOver c as

theorem toldOver_concat (sys : System) (c : Connection) (as : List Action) (a : Action) :
    sys.toldOver c (as ++ [a]) = sys.toldOver c as ++ (sys.after as).told c a := by
  induction as generalizing sys with
  | nil => exact List.append_nil _
  | cons b as ih =>
    show sys.told c b ++ (sys.act b).toldOver c (as ++ [a]) = _
    rw [ih, ← List.append_assoc]
    rfl

theorem mem_leading {sys : System} {c : Connection} {n : Name} {r : Renaming} :
    r ∈ sys.leading c n ↔ r ∈ sys.renamingsFor c ∧ r.2 = n := by
  unfold leading
  rw [List.mem_filter, decide_eq_true_iff]

theorem untold_eq {sys : System} {c : Connection} {s : Session}
    (hs : sys.sessions.find? c = some s) :
    sys.untold c = Renaming.taken s.name (sys.renamingsFor c) := by
  unfold untold
  rw [hs]

/-- A session is in step if the last renaming that it is going to tell leads to its name. -/
theorem inStep_iff_last_untold {sys : System} {c : Connection} {s : Session} {n : Name}
    (hc : sys.engine.presence.nameOf? c = some n) (hs : sys.sessions.find? c = some s) :
    sys.InStep c ↔ Renaming.last s.name (sys.untold c) = n := by
  have hheading : sys.heading? c = some (Renaming.last s.name (sys.untold c)) := by
    unfold heading?
    rw [hs, Option.map_some, Notice.followAll_eq_last, untold_eq hs]
    rfl
  unfold InStep
  rw [hc, hheading]
  simp

theorem told_command {sys : System} {c : Connection} {s : Session}
    (hs : sys.sessions.find? c = some s) (command : Command) :
    sys.told c (.command c command) =
      (sys.engine.handleCommand s command).reply.renaming?.toList := by
  simp [told, System.command, hs, keep]

theorem told_read {sys : System} {c : Connection} {s : Session} {x : Notice} {xs : List Notice}
    (hs : sys.sessions.find? c = some s) (hwaiting : sys.engine.presence.waiting c = x :: xs) :
    sys.told c (.read c) = Renaming.taken s.name (Notice.renamings [x]) := by
  rw [← (sys.engine.leaving c xs).renaming?_handleNotice]
  simp [told, readOne, Presence.takeNotice, hwaiting, handle, hs, keep]
  rfl

theorem told_read_same {sys : System} {c : Connection}
    (hnone : sys.engine.presence.waiting c = [] ∨ sys.sessions.find? c = none) :
    sys.told c (.read c) = [] := by
  rcases hnone with hwaiting | hfind
  · simp [told, readOne, Presence.takeNotice, hwaiting]
  · cases hwaiting : sys.engine.presence.waiting c with
    | nil => simp [told, readOne, Presence.takeNotice, hwaiting]
    | cons x xs => simp [told, readOne, Presence.takeNotice, hwaiting, handle, hfind]

/-! ## What steps have to do with names -/

/-- What a step has to do with the name of a session that is attached after it. -/
inductive Concerns (sys : System) (a : Action) (c : Connection) : Prop where
  /-- The session has just come. -/
  | comes (hnew : sys.engine.presence.arrivals ≤ c.number)
  /-- The session has done nothing and is told of no renaming. -/
  | others (hother : ∀ command, a ≠ .command c command) (htold : sys.told c a = [])
      (hsession : (sys.act a).sessions.find? c = sys.sessions.find? c)
      (hquiet : sys.engine.presence.Quiet (sys.act a).engine.presence c)
  | reads {s s' : Session} {x : Notice} {xs news : List Notice} (ha : a = .read c)
      (hs : sys.sessions.find? c = some s) (hwaiting : sys.engine.presence.waiting c = x :: xs)
      (hs' : (sys.act a).sessions.find? c = some s') (hname : s'.name = x.follow s.name)
      (hplace : ∀ n, (sys.act a).engine.presence.nameOf? c = some n →
        sys.engine.presence.nameOf? c = some n)
      (hleft : (sys.act a).engine.presence.waiting c = xs ++ news)
      (hnews : ∀ y ∈ news, y.isRenaming = false)
  /-- The session takes its present name, which stays. -/
  | asks {command : Command} {s' : Session} (ha : a = .command c command)
      (htold : sys.told c a = []) (hs' : (sys.act a).sessions.find? c = some s')
      (hname : ∀ n, (sys.act a).engine.presence.nameOf? c = some n → s'.name = n)
      (hquiet : sys.engine.presence.Quiet (sys.act a).engine.presence c)
  /-- A player takes another name. -/
  | moves {d : Connection} {text : String} {old new : Name} (ha : a = .command d (.rename text))
      (hreply : (sys.command d (.rename text)).map (·.1) = some (.renamed old new))
      (hmoved : Moved sys (sys.act a) d old new)

theorem Concerns.of_same {sys : System} {a : Action} {c : Connection}
    (hother : ∀ command, a ≠ .command c command) (htold : sys.told c a = [])
    (hsame : sys.act a = sys) : Concerns sys a c := by
  refine .others hother htold (by rw [hsame]) ?_
  rw [hsame]
  exact .of_waiting (fun _ => id) rfl

section

variable {sys : System} (h : sys.Sound) {c : Connection} {n : Name}
include h

/-- A command that is no renaming: the others hear of none, and the session has its name. -/
theorem Sound.concerns_quiet {d : Connection} {s : Session} {command : Command}
    (hs : sys.sessions.find? d = some s)
    (hreply : (sys.engine.handleCommand s command).reply.renaming? = none)
    (hquiet : sys.engine.presence.Quiet (sys.engine.handleCommand s command).engine.presence c) :
    Concerns sys (.command d command) c := by
  have hd := h.wellFormed.own d s hs
  have hfind := sys.find?_keep (sys.engine.handleCommand s command)
  rw [Engine.connection_handleCommand, hd, ← act_command hs] at hfind
  by_cases hdc : d = c
  · subst hdc
    refine .asks rfl ?_ ((hfind d).trans (if_pos rfl)) (fun m hm => ?_) ?_
    · rw [told_command hs, hreply]
      rfl
    · rw [act_command hs] at hm
      rw [← hd] at hm
      exact (h.wellFormed.engine.name_handleCommand hm).1
    · rw [act_command hs]
      exact hquiet
  · refine .others (command_ne hdc command) (if_neg hdc)
      ((hfind c).trans (if_neg (Ne.symm hdc))) ?_
    rw [act_command hs]
    exact hquiet

theorem Sound.concerns_command {d : Connection} {command : Command}
    (hrefusals : (sys.act (.command d command)).engine.refusals = sys.engine.refusals)
    (hc : (sys.act (.command d command)).engine.presence.nameOf? c = some n) :
    Concerns sys (.command d command) c := by
  cases hs : sys.sessions.find? d with
  | none =>
    have hsame := act_command_same hs command
    have hdc : d ≠ c := by
      rintro rfl
      rw [hsame] at hc
      obtain ⟨s, hs'⟩ := h.wellFormed.present d n hc
      cases hs.symm.trans hs'
    exact .of_same (command_ne hdc command) (if_neg hdc) hsame
  | some s =>
    cases hreply : (sys.engine.handleCommand s command).reply with
    | renamed old new =>
      obtain ⟨text, rfl⟩ := Engine.command_of_renamed hreply
      have hreply : (sys.command d (.rename text)).map (·.1) = some (.renamed old new) := by
        rw [← hreply]
        unfold System.command
        rw [hs]
        rfl
      exact .moves rfl hreply (h.moved_of_reply hreply hrefusals).1
    | snapshot | close =>
      rw [act_command hs] at hrefusals
      have hnone : (sys.engine.handleCommand s command).reply.renaming? = none := by
        rw [hreply]
        rfl
      exact h.concerns_quiet hs hnone
        (h.wellFormed.engine.quiet_handleCommand hnone hrefusals c)

theorem Sound.concerns_read {d : Connection}
    (hrefusals : (sys.act (.read d)).engine.refusals = sys.engine.refusals) :
    Concerns sys (.read d) c := by
  have hother : ∀ command, Action.read d ≠ .command c command := nofun
  have hsilent (hdc : d ≠ c) : sys.told c (.read d) = [] := if_neg hdc
  have hnothing (hnone : sys.engine.presence.waiting d = [] ∨ sys.sessions.find? d = none) :
      Concerns sys (.read d) c := by
    refine .of_same hother ?_ (act_read_same hnone)
    by_cases hdc : d = c
    · subst hdc
      exact told_read_same hnone
    · exact hsilent hdc
  cases hwaiting : sys.engine.presence.waiting d with
  | nil => exact hnothing (Or.inl hwaiting)
  | cons x xs =>
  cases hs : sys.sessions.find? d with
  | none => exact hnothing (Or.inr hs)
  | some s =>
    have heq := act_read hs hwaiting
    have hread := h.wellFormed.leaving d xs
    have hquiet :
        (sys.engine.leaving d xs).presence.Quiet (sys.act (.read d)).engine.presence c := by
      rw [heq] at hrefusals ⊢
      exact hread.quiet_handleNotice hrefusals c
    have hleft := Presence.waiting_editBox hwaiting xs c
    have hfind := sys.find?_keep ((sys.engine.leaving d xs).handleNotice s x)
    rw [Engine.connection_handleNotice, h.wellFormed.own d s hs, ← heq] at hfind
    by_cases hdc : d = c
    · subst hdc
      obtain ⟨news, hnews, hnone⟩ := hquiet.waiting
      rw [if_pos rfl] at hleft
      exact .reads rfl hs hwaiting ((hfind d).trans (if_pos rfl)) (Engine.name_handleNotice _ s x)
        hquiet.name (hnews.trans (congrArg (· ++ news) hleft)) hnone
    · rw [if_neg (Ne.symm hdc)] at hleft
      have hleaves : sys.engine.presence.Quiet (sys.engine.leaving d xs).presence c :=
        .of_waiting (fun _ => id) hleft
      exact .others hother (hsilent hdc) ((hfind c).trans (if_neg (Ne.symm hdc)))
        (hleaves.trans hquiet)

theorem Sound.concerns {a : Action}
    (hrefusals : (sys.act a).engine.refusals = sys.engine.refusals)
    (hc : (sys.act a).engine.presence.nameOf? c = some n) : Concerns sys a c := by
  have hengine := h.wellFormed.engine
  cases a with
  | create => exact .others (by simp) rfl rfl (.of_waiting (fun _ => id) rfl)
  | setAlias => exact .others (by simp) rfl rfl (.of_waiting (fun _ => id) rfl)
  | delete k =>
    rcases sys.act_delete_cases k with hsame | ⟨gone, engine, hdelete, heq⟩
    · exact .of_same (by simp) rfl hsame
    · refine .others (by simp) rfl (by rw [heq]; rfl) ?_
      rw [heq] at hrefusals ⊢
      exact hengine.quiet_deletePlayer hdelete hrefusals c
  | connect k =>
    rcases sys.engine.connect_cases k with ⟨-, hnone⟩ | ⟨hk, -⟩
    · refine .of_same (by simp) rfl ?_
      simp [act, connect, hnone]
    · have heq := act_connect hk
      by_cases hnew : c = ⟨sys.engine.presence.arrivals⟩
      · subst hnew
        exact .comes (Nat.le_refl _)
      · refine .others (by simp) rfl ?_ ?_
        · rw [heq]
          exact (Table.find?_insert _ _ _ _).trans (if_neg hnew)
        · rw [heq] at hrefusals ⊢
          exact (hengine.quiet_attached hnew).trans (hengine.quiet_probes hk hrefusals c)
  | disconnect d => exact .others (by simp) rfl rfl (hengine.quiet_disconnect hrefusals c)
  | command d command => exact h.concerns_command hrefusals hc
  | read d => exact h.concerns_read hrefusals

end

end System

end Amity
