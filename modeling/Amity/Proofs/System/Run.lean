/-
  Amity/Proofs/System/Run.lean
  ============================
  **Runs of the system.**  An `Action` is one call from outside: an account is opened, an alias set,
  a player deleted, or a connection comes, goes, sends a command or reads the notice that has
  waited longest.  A call that fails or does not apply changes nothing, so every list of actions
  is a run.

  Every system that a run leads to is well-formed: its engine is, and the sessions of all attached
  connections are there, each under its own connection.
-/
import Amity.Proofs.Engine.WellFormed

namespace Amity

inductive Action where
  | create (n : Name)
  | setAlias (n : Name) (choice : Option String)
  | delete (n : Name)
  | connect (n : Name)
  | disconnect (c : Connection)
  | command (c : Connection) (command : Command)
  /-- A connection reads the notice that has waited longest. -/
  | read (c : Connection)
  deriving DecidableEq, Repr

/-- The engine after these notices are left in a mailbox. -/
def Engine.leaving (e : Engine) (c : Connection) (xs : List Notice) : Engine :=
  { e with presence := e.presence.editBox c fun b => { b with items := xs } }

namespace System

def withDatabase (sys : System) (database : Database) : System :=
  { sys with engine := { sys.engine with database } }

def withEngine (sys : System) (engine : Engine) : System := { sys with engine }

def act (sys : System) : Action → System
  | .create n => sys.withDatabase (sys.engine.database.apply (.create n))
  | .setAlias n choice => sys.withDatabase (sys.engine.database.apply (.setAlias n choice))
  | .delete n => outcomeOr sys ((sys.engine.deletePlayer n).map fun r => sys.withEngine r.2)
  | .connect n => ((sys.connect n).map (·.2)).getD sys
  | .disconnect c => sys.disconnect c
  | .command c command => ((sys.command c command).map (·.2)).getD sys
  | .read c => ((sys.readOne c).map (·.2.2)).getD sys

/-- The system after a run, whose first action is the first of the list. -/
def after (sys : System) (as : List Action) : System := as.foldl act sys

theorem after_append (sys : System) (as bs : List Action) :
    sys.after (as ++ bs) = (sys.after as).after bs :=
  List.foldl_append

theorem after_concat (sys : System) (as : List Action) (a : Action) :
    sys.after (as ++ [a]) = (sys.after as).act a := by
  rw [after_append]
  rfl

/-! ## What an action does -/

theorem act_delete_cases (sys : System) (n : Name) :
    sys.act (.delete n) = sys ∨
      ∃ gone engine, sys.engine.deletePlayer n = .ok (gone, engine) ∧
        sys.act (.delete n) = sys.withEngine engine := by
  simp only [act]
  cases hdelete : sys.engine.deletePlayer n with
  | error => exact Or.inl rfl
  | ok r => exact Or.inr ⟨r.1, r.2, rfl, rfl⟩

theorem act_connect_cases (sys : System) (n : Name) :
    sys.act (.connect n) = sys ∨
      ∃ s engine, sys.engine.connect n = some (s, engine) ∧
        sys.act (.connect n) = ⟨engine, sys.sessions.insert s.connection s⟩ := by
  simp only [act, connect]
  cases hconnect : sys.engine.connect n with
  | none => exact Or.inl rfl
  | some r => exact Or.inr ⟨r.1, r.2, rfl, rfl⟩

theorem act_connect {sys : System} {n : Name} (hn : sys.engine.hasPlayer n = true) :
    sys.act (.connect n) = ⟨sys.engine.connected n, sys.sessions.insert
      ⟨sys.engine.presence.arrivals⟩ (.start ⟨sys.engine.presence.arrivals⟩ n)⟩ := by
  rcases sys.engine.connect_cases n with ⟨hnone, -⟩ | ⟨-, heq⟩
  · cases hn.symm.trans hnone
  · simp only [act, connect, heq]
    rfl

theorem act_command {sys : System} {c : Connection} {s : Session}
    (hfind : sys.sessions.find? c = some s) (command : Command) :
    sys.act (.command c command) = (sys.keep (sys.engine.handleCommand s command)).2 := by
  simp [act, System.command, hfind]

theorem act_command_same {sys : System} {c : Connection} (hfind : sys.sessions.find? c = none)
    (command : Command) : sys.act (.command c command) = sys := by
  simp [act, System.command, hfind]

theorem act_command_cases (sys : System) (c : Connection) (command : Command) :
    sys.act (.command c command) = sys ∨
      ∃ s, sys.sessions.find? c = some s ∧
        sys.act (.command c command) = (sys.keep (sys.engine.handleCommand s command)).2 := by
  cases hfind : sys.sessions.find? c with
  | none => exact Or.inl (act_command_same hfind command)
  | some s => exact Or.inr ⟨s, rfl, act_command hfind command⟩

theorem act_read {sys : System} {c : Connection} {s : Session} {x : Notice} {xs : List Notice}
    (hfind : sys.sessions.find? c = some s) (hwaiting : sys.engine.presence.waiting c = x :: xs) :
    sys.act (.read c) = (sys.keep ((sys.engine.leaving c xs).handleNotice s x)).2 := by
  simp [act, readOne, Presence.takeNotice, hwaiting, handle, hfind]
  rfl

theorem find?_keep (sys : System) (turn : Turn) (c : Connection) :
    (sys.keep turn).2.sessions.find? c =
      if c = turn.session.connection then some turn.session else sys.sessions.find? c :=
  Table.find?_insert _ _ _ _

theorem act_read_same {sys : System} {c : Connection}
    (hnone : sys.engine.presence.waiting c = [] ∨ sys.sessions.find? c = none) :
    sys.act (.read c) = sys := by
  simp only [act, readOne, Presence.takeNotice]
  rcases hnone with hwaiting | hfind
  · rw [hwaiting]
    rfl
  · cases sys.engine.presence.waiting c with
    | nil => rfl
    | cons x xs => simp [handle, hfind]

theorem act_read_cases (sys : System) (c : Connection) :
    sys.act (.read c) = sys ∨
      ∃ s x xs, sys.sessions.find? c = some s ∧ sys.engine.presence.waiting c = x :: xs ∧
        sys.act (.read c) = (sys.keep ((sys.engine.leaving c xs).handleNotice s x)).2 := by
  cases hwaiting : sys.engine.presence.waiting c with
  | nil => exact Or.inl (act_read_same (Or.inl hwaiting))
  | cons x xs =>
    cases hfind : sys.sessions.find? c with
    | none => exact Or.inl (act_read_same (Or.inr hfind))
    | some s => exact Or.inr ⟨s, x, xs, rfl, rfl, act_read hfind hwaiting⟩

/-- Nothing has happened. -/
structure Same (sys sys' : System) : Prop where
  engine : sys'.engine = sys.engine
  sessions : ∀ c, sys'.sessions.find? c = sys.sessions.find? c

theorem Same.refl (sys : System) : Same sys sys := ⟨rfl, fun _ => rfl⟩

theorem Same.of_keep {sys : System} {s : Session} {turn : Turn}
    (hs : sys.sessions.find? s.connection = some s) (hsession : turn.session = s)
    (hengine : turn.engine = sys.engine) : Same sys (sys.keep turn).2 := by
  refine ⟨hengine, fun c => ?_⟩
  rw [find?_keep, hsession]
  split
  · next hc => rw [hc, hs]
  · rfl

theorem hasPlayer_apply_create {db : Database} {n m : Name} (h : db.hasPlayer m = true) :
    (db.apply (.create n)).hasPlayer m = true := by
  simp only [Database.apply]
  cases hcreate : db.directory.create n with
  | error => exact h
  | ok r => exact ((Directory.create_eq_ok hcreate).2 m).2 (Or.inr h)

theorem hasPlayer_apply_setAlias {db : Database} {n m : Name} {choice : Option String}
    (h : db.hasPlayer m = true) : (db.apply (.setAlias n choice)).hasPlayer m = true := by
  simp only [Database.apply]
  cases halias : db.directory.setAlias n choice with
  | error => exact h
  | ok r => exact Directory.setAlias_eq_ok halias h

/-! ## Well-formed systems -/

/-- The engine is well-formed, and every attached connection has its session. -/
structure WellFormed (sys : System) : Prop where
  engine : sys.engine.WellFormed
  present : ∀ c n, sys.engine.presence.nameOf? c = some n → ∃ s, sys.sessions.find? c = some s
  own : ∀ c s, sys.sessions.find? c = some s → s.connection = c

theorem wellFormed_start {db : Database} (h : db.graph.WellFormed) (capacity : Nat) :
    (start db capacity).WellFormed where
  engine := Engine.wellFormed_start h capacity
  present _ _ hc := by cases hc
  own _ _ hs := by cases hs

section

variable {sys : System} (h : sys.WellFormed)
include h

theorem WellFormed.withDatabase {database : Database} (hgraph : database.graph.WellFormed)
    (hplayers : ∀ n, sys.engine.hasPlayer n = true → database.hasPlayer n = true) :
    (sys.withDatabase database).WellFormed where
  engine := h.engine.withDatabase hgraph hplayers
  present := h.present
  own := h.own

theorem WellFormed.withEngine {engine : Engine} (hengine : engine.WellFormed)
    (hnames : ∀ c n, engine.presence.nameOf? c = some n →
      ∃ m, sys.engine.presence.nameOf? c = some m) : (sys.withEngine engine).WellFormed where
  engine := hengine
  present c n hc := by
    obtain ⟨m, hm⟩ := hnames c n hc
    exact h.present c m hm
  own := h.own

/-- What a turn of a session leaves is well-formed, when the engine is and nobody was attached. -/
theorem WellFormed.keep {turn : Turn} (hengine : turn.engine.WellFormed)
    (hnames : ∀ c n, turn.engine.presence.nameOf? c = some n →
      ∃ m, sys.engine.presence.nameOf? c = some m) : (sys.keep turn).2.WellFormed where
  engine := hengine
  present c n hc := by
    show ∃ s, (sys.sessions.insert turn.session.connection turn.session).find? c = some s
    rw [Table.find?_insert]
    split
    · exact ⟨_, rfl⟩
    · obtain ⟨m, hm⟩ := hnames c n hc
      exact h.present c m hm
  own c s hs := by
    have hs : (sys.sessions.insert turn.session.connection turn.session).find? c = some s := hs
    rw [Table.find?_insert] at hs
    split at hs
    · next hc =>
      cases hs
      exact hc.symm
    · exact h.own c s hs

theorem WellFormed.leaving (c : Connection) (xs : List Notice) :
    (sys.engine.leaving c xs).WellFormed :=
  h.engine.withPresence (h.engine.presence.congr rfl rfl rfl) fun _ _ => id

theorem WellFormed.act (a : Action) : (sys.act a).WellFormed := by
  cases a with
  | create n =>
    exact h.withDatabase (Database.graph_wellFormed_apply h.engine.graph _)
      fun _ => hasPlayer_apply_create
  | setAlias n choice =>
    exact h.withDatabase (Database.graph_wellFormed_apply h.engine.graph _)
      fun _ => hasPlayer_apply_setAlias
  | delete n =>
    rcases sys.act_delete_cases n with heq | ⟨gone, engine, hdelete, heq⟩
    · rw [heq]
      exact h
    · rw [heq]
      exact h.withEngine (h.engine.deletePlayer hdelete)
        fun c m hc => ⟨m, (h.engine.attached_of_deletePlayer hdelete hc).1⟩
  | connect n =>
    rcases sys.act_connect_cases n with heq | ⟨s, engine, hconnect, heq⟩
    · rw [heq]
      exact h
    · rw [heq]
      refine ⟨h.engine.connect hconnect, ?_, ?_⟩
      · intro c m hc
        show ∃ t, (sys.sessions.insert s.connection s).find? c = some t
        rw [Table.find?_insert]
        split
        · exact ⟨s, rfl⟩
        · next hne =>
          obtain ⟨k, hk⟩ := h.engine.attached_of_connect hconnect hc hne
          exact h.present c k hk
      · intro c t ht
        have ht : (sys.sessions.insert s.connection s).find? c = some t := ht
        rw [Table.find?_insert] at ht
        split at ht
        · next hc =>
          cases ht
          exact hc.symm
        · exact h.own c t ht
  | disconnect c =>
    exact h.withEngine (h.engine.disconnect c)
      fun d n hd => ⟨n, (h.engine.attached_of_disconnect hd).1⟩
  | command c command =>
    rcases sys.act_command_cases c command with heq | ⟨s, -, heq⟩
    · rw [heq]
      exact h
    · rw [heq]
      exact h.keep (h.engine.handleCommand s command) fun _ _ => h.engine.attached_of_handleCommand
  | read c =>
    rcases sys.act_read_cases c with heq | ⟨s, x, xs, -, -, heq⟩
    · rw [heq]
      exact h
    · rw [heq]
      have hleaving := h.leaving c xs
      exact h.keep (hleaving.handleNotice s x)
        fun d n hd => ⟨n, hleaving.attached_of_handleNotice hd⟩

/-- A command of a connection that is not attached. -/
theorem WellFormed.same_of_unattached {d : Connection} {command : Command}
    (hd : sys.engine.presence.nameOf? d = none) : Same sys (sys.act (.command d command)) := by
  rcases sys.act_command_cases d command with heq | ⟨s, hs, heq⟩
  · rw [heq]
    exact .refl sys
  · obtain rfl := h.own d s hs
    rw [heq]
    rcases sys.engine.handleCommand_cases s command with ⟨-, hturn⟩ | ⟨k, hk, -⟩
    · rw [hturn]
      exact .of_keep hs rfl rfl
    · cases hd.symm.trans hk

theorem WellFormed.after (as : List Action) : (sys.after as).WellFormed := by
  induction as generalizing sys with
  | nil => exact h
  | cons a as ih => exact ih (h.act a)

end

/-! ## Counts -/

/-- Whatever an action does, the counts of the registry only grow. -/
theorem precedes_act (sys : System) (a : Action) :
    sys.engine.presence.Precedes (sys.act a).engine.presence := by
  cases a with
  | create => exact .refl _
  | setAlias => exact .refl _
  | delete n =>
    rcases sys.act_delete_cases n with heq | ⟨gone, engine, hdelete, heq⟩
    · rw [heq]
      exact .refl _
    · rw [heq]
      exact Engine.precedes_deletePlayer hdelete
  | connect n =>
    rcases sys.act_connect_cases n with heq | ⟨s, engine, hconnect, heq⟩
    · rw [heq]
      exact .refl _
    · rw [heq]
      exact Engine.precedes_connect hconnect
  | disconnect c => exact Engine.precedes_disconnect _ c
  | command c command =>
    rcases sys.act_command_cases c command with heq | ⟨s, -, heq⟩
    · rw [heq]
      exact .refl _
    · rw [heq]
      exact Engine.precedes_handleCommand _ s command
  | read c =>
    rcases sys.act_read_cases c with heq | ⟨s, x, xs, -, -, heq⟩
    · rw [heq]
      exact .refl _
    · rw [heq]
      have hleaving : sys.engine.presence.Precedes (sys.engine.leaving c xs).presence :=
        .of_eq rfl rfl
      exact hleaving.trans (Engine.precedes_handleNotice _ s x)

theorem precedes_after (sys : System) (as : List Action) :
    sys.engine.presence.Precedes (sys.after as).engine.presence := by
  induction as generalizing sys with
  | nil => exact .refl _
  | cons a as ih => exact (sys.precedes_act a).trans (ih (sys.act a))

/-- Refusals only grow, so a run without any has none up to any moment, and none from then on. -/
theorem refusals_of_append (sys : System) (as bs : List Action)
    (h : (sys.after (as ++ bs)).engine.refusals = sys.engine.refusals) :
    (sys.after as).engine.refusals = sys.engine.refusals ∧
      ((sys.after as).after bs).engine.refusals = (sys.after as).engine.refusals := by
  have hbefore := (sys.precedes_after as).refusals
  have hlater := ((sys.after as).precedes_after bs).refusals
  rw [after_append] at h
  have hnone : (sys.after as).engine.refusals = sys.engine.refusals :=
    Nat.le_antisymm (Nat.le_trans hlater (Nat.le_of_eq h)) hbefore
  exact ⟨hnone, h.trans hnone.symm⟩

theorem refusals_of_cons (sys : System) (a : Action) (as : List Action)
    (h : (sys.after (a :: as)).engine.refusals = sys.engine.refusals) :
    (sys.act a).engine.refusals = sys.engine.refusals ∧
      ((sys.act a).after as).engine.refusals = (sys.act a).engine.refusals :=
  sys.refusals_of_append [a] as h

end System

/-! ## Names for small runs -/

theorem Name.isValid_q : Name.isValid "q" = true := by decide

theorem Name.isValid_r : Name.isValid "r" = true := by decide

theorem Name.isValid_s : Name.isValid "s" = true := by decide

end Amity
