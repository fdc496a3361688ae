/-
  Amity/Proofs/System/Ledger.lean
  ===============================
  **Sessions never change accounts.**  A name can be given up and taken by somebody else, so a name
  does not say which account is meant.  The `Ledger` does: it stands beside the system, gives each
  account that is opened the next number, and writes down as which account each connection came.
  What it enters is read off the outcomes of the inputs (`accountChange`).

  What an input may do to the players and to the names of connections is said once for each kind
  of change (`Engine.Follows`); a renaming `Moves` the sessions.  From this alone it follows that
  whoever is attached under a name came as the account that has the name now (`Ledger.Fits`).
-/
import Amity.Proofs.Engine.Effects
import Amity.Proofs.System.Inputs

namespace Amity

/-- What becomes of accounts and connections by an input. -/
inductive AccountChange where
  | nothing
  | opens (n : Name)
  | renames (old new : Name)
  | closes (n : Name)
  /-- A connection comes under the name of an account. -/
  | attaches (c : Connection) (n : Name)
  deriving DecidableEq, Repr

namespace Engine

/-- The change of a deletion, by its outcome. -/
def closing (e : Engine) (n : Name) : AccountChange :=
  match e.deletePlayer n with
  | .ok (true, _) => .closes n
  | _ => .nothing

/-- The change of a turn of a connection that stood under this name. -/
def changeOf (e : Engine) (name : Option Name) (reply : Reply) : AccountChange :=
  match reply, name with
  | .renamed old new, _ => .renames old new
  | .close, some n => e.closing n
  | _, _ => .nothing

/-! ## What changes of accounts do to players and sessions -/

/-- A renaming moves the sessions under the old name to the new one, and no others. -/
structure Moves (e e' : Engine) (old new : Name) : Prop where
  origin : ∀ n, ∀ c ∈ e'.presence.sessionsOf n, ∃ m,
    c ∈ e.presence.sessionsOf m ∧ n = Ties.substitute old new m
  /-- Only who has no room for the news of it loses the place. -/
  moved : ∀ m, ∀ c ∈ e.presence.sessionsOf m,
    c ∈ e'.presence.sessionsOf (Ties.substitute old new m) ∨
      e'.presence.room c = 0 ∧ ∀ n, c ∉ e'.presence.sessionsOf n
  /-- When nothing is refused, all of them move, in their order. -/
  complete : e'.refusals = e.refusals →
    e'.presence.sessionsOf new = e.presence.sessionsOf old

/-- What a change may do to the players and to the names of connections. -/
inductive Follows (e e' : Engine) : AccountChange → Prop where
  | nothing (hplayers : ∀ m, e'.hasPlayer m = e.hasPlayer m)
      (hnames : ∀ c m, e'.presence.nameOf? c = some m → e.presence.nameOf? c = some m) :
      Follows e e' .nothing
  | opens {n : Name} (hfree : e.hasPlayer n = false)
      (hplayers : ∀ m, e'.hasPlayer m = true ↔ m = n ∨ e.hasPlayer m = true)
      (hnames : ∀ c m, e'.presence.nameOf? c = some m → e.presence.nameOf? c = some m) :
      Follows e e' (.opens n)
  | renames {old new : Name} (hold : e.hasPlayer old = true) (hfree : e.hasPlayer new = false)
      (hplayers : ∀ m, e'.hasPlayer m = true ↔ m = new ∨ m ≠ old ∧ e.hasPlayer m = true)
      (hnames : ∀ c n, e'.presence.nameOf? c = some n →
        ∃ m, e.presence.nameOf? c = some m ∧ n = Ties.substitute old new m)
      (hmoves : e.Moves e' old new) :
      Follows e e' (.renames old new)
  | closes {n : Name} (hplayers : ∀ m, e'.hasPlayer m = true ↔ m ≠ n ∧ e.hasPlayer m = true)
      (hnames : ∀ c m, e'.presence.nameOf? c = some m → e.presence.nameOf? c = some m ∧ m ≠ n) :
      Follows e e' (.closes n)
  | attaches {c : Connection} {n : Name} (hplayer : e.hasPlayer n = true)
      (hplayers : ∀ m, e'.hasPlayer m = e.hasPlayer m)
      (hnames : ∀ d m, e'.presence.nameOf? d = some m →
        d = c ∧ m = n ∨ d ≠ c ∧ e.presence.nameOf? d = some m) :
      Follows e e' (.attaches c n)

theorem Follows.refl (e : Engine) : e.Follows e .nothing :=
  .nothing (fun _ => rfl) fun _ _ => id

theorem hasPlayer_of_database {e e' : Engine} (h : e'.database = e.database) (n : Name) :
    e'.hasPlayer n = e.hasPlayer n :=
  congrArg (fun db : Database => db.hasPlayer n) h

section

variable {e : Engine} (h : e.WellFormed)
include h

theorem WellFormed.renamed_moves {s : Session} {new : Name} {ties : Ties} {database : Database}
    (hne : s.name ≠ new) (hrename : e.database.rename s.name new = .ok (ties, database)) :
    e.Moves (e.renamed s new ties database) s.name new := by
  have hdelivered := h.renamed_delivered hne hrename
  have hrebound := h.presence.rebound hne
  have hafter := (h.renamed hne hrename).presence
  have hnames := h.presence.nameOf?_rebound hne
  refine ⟨fun n c hc => ?_, fun m c hc => ?_, fun hrefusals => ?_⟩
  · rw [← hafter.nameOf?_eq_some_iff] at hc
    have hc := ((hdelivered.nameOf?_eq_some_iff hrebound hafter).1 hc).1
    rw [hnames, Option.map_eq_some_iff] at hc
    obtain ⟨m, hm, rfl⟩ := hc
    exact ⟨m, h.presence.nameOf?_eq_some_iff.1 hm, rfl⟩
  · rw [← h.presence.nameOf?_eq_some_iff] at hc
    have hmid : (e.presence.rebound s.name new).nameOf? c =
        some (Ties.substitute s.name new m) := by
      rw [hnames, hc]
      rfl
    simp only [← hafter.nameOf?_eq_some_iff]
    rcases hdelivered.attached_or_full hrebound hafter hmid with hkept | ⟨hnone, hfull⟩
    · exact Or.inl hkept
    · exact Or.inr ⟨hfull, fun n => hnone ▸ nofun⟩
  · have hposted := h.renamed_posted hne hrename hrefusals
    have hempty : e.presence.group new = [] :=
      h.presence.group_eq_nil_iff.2 fun c => h.nameOf?_ne_of_rename hrename c
    show List.map _ _ = List.map _ _
    rw [hposted.group, Presence.group_rebound hne, if_pos rfl, hempty, List.nil_append]

/-- A deletion closes the account, if there is one. -/
theorem WellFormed.follows_deletePlayer {e' : Engine} {n : Name} {gone : Bool}
    (hdelete : e.deletePlayer n = .ok (gone, e')) : e.Follows e' (e.closing n) := by
  unfold closing
  rw [hdelete]
  rcases deletePlayer_eq_ok hdelete with ⟨rfl, -, rfl⟩ | ⟨ties, database, rfl, hdatabase, rfl⟩
  · exact .nothing (fun _ => rfl) fun c m hc => (h.attached_of_withoutPlayer hc).1
  · have hhas := Directory.delete_eq_ok (Database.delete_eq_ok_some_iff.1 hdatabase).1
    exact .closes hhas.2 fun c m => h.attached_of_withoutPlayer

theorem WellFormed.follows_performs {s : Session} {command : Command} {turn : Turn}
    (hname : e.presence.nameOf? s.connection = some s.name)
    (hturn : e.Performs s command turn) :
    e.Follows turn.engine (e.changeOf (e.presence.nameOf? s.connection) turn.reply) := by
  rw [hname]
  cases hturn with
  | nothing => exact .refl e
  | ties _ hasks houtcome =>
    have hdirectory := (hasks.database h.graph houtcome).1
    refine .nothing (fun m => ?_) fun c m => h.attached_of_tieChanged hasks houtcome
    exact congrArg (fun d : Directory => d.has m) hdirectory
  | rename _ hne hrename =>
    obtain ⟨hold, hfree, hhas⟩ := Directory.rename_eq_ok (Database.rename_eq_ok_iff.1 hrename).1
    have hmoves := h.renamed_moves hne hrename
    refine .renames hold hfree hhas (fun c n hc => ?_) hmoves
    obtain ⟨m, hm, heq⟩ := hmoves.origin n c
      ((h.renamed hne hrename).presence.nameOf?_eq_some_iff.1 hc)
    exact ⟨m, h.presence.nameOf?_eq_some_iff.2 hm, heq⟩
  | delete _ hdelete => exact h.follows_deletePlayer hdelete
  | status status => exact .nothing (fun _ => rfl) fun c m => h.attached_of_shown

theorem WellFormed.follows_handleCommand (s : Session) (command : Command) :
    e.Follows (e.handleCommand s command).engine
      (e.changeOf (e.presence.nameOf? s.connection) (e.handleCommand s command).reply) := by
  rcases e.handleCommand_cases s command with ⟨hname, heq⟩ | ⟨n, hname, ⟨hplayer, heq⟩ | ⟨-, hturn⟩⟩
  · rw [heq, hname]
    exact .refl e
  · rw [h.players _ n hname] at hplayer
    cases hplayer
  · exact h.follows_performs (s := s.renamed n) hname hturn

theorem WellFormed.follows_handleNotice (s : Session) (x : Notice) :
    e.Follows (e.handleNotice s x).engine .nothing :=
  .nothing (hasPlayer_of_database (database_handleNotice e s x))
    fun _ _ => h.attached_of_handleNotice

theorem WellFormed.follows_disconnect (c : Connection) :
    e.Follows (e.disconnect c) .nothing :=
  .nothing (hasPlayer_of_database (database_disconnect e c))
    fun _ _ hd => (h.attached_of_disconnect hd).1

theorem WellFormed.follows_connected {n : Name} (hn : e.hasPlayer n = true) :
    e.Follows (e.connected n) (.attaches ⟨e.presence.arrivals⟩ n) := by
  refine .attaches hn (fun _ => rfl) fun d m hd => ?_
  have hd : ((e.presence.accept e.capacity).2.attach n ⟨e.presence.arrivals⟩).nameOf? d = some m :=
    (h.attached hn).attached_of_notifyAll hd
  rw [h.presence.nameOf?_attach] at hd
  split at hd
  · next hdc => exact Or.inl ⟨hdc, (Option.some.inj hd).symm⟩
  · next hdc => exact Or.inr ⟨hdc, hd⟩

end

end Engine

/-! ## The change of an input -/

namespace System

/-- What becomes of accounts and connections by an input, as its outcome tells. -/
def accountChange (sys : System) : Input → AccountChange
  | .action (.create n) =>
    match sys.engine.database.directory.create n with
    | .ok _ => .opens n
    | .error _ => .nothing
  | .action (.delete n) => sys.engine.closing n
  | .action (.connect n) =>
    match sys.connect n with
    | some (c, _) => .attaches c n
    | none => .nothing
  | .action (.command c command) =>
    match sys.command c command with
    | some (reply, _) => sys.engine.changeOf (sys.engine.presence.nameOf? c) reply
    | none => .nothing
  | _ => .nothing

theorem Sound.follows_act {sys : System} (h : sys.Sound) (a : Action) :
    sys.engine.Follows (sys.act a).engine (sys.accountChange (.action a)) := by
  have hengine := h.wellFormed.engine
  cases a with
  | create n =>
    simp only [act, accountChange, Database.apply]
    cases hcreate : sys.engine.database.directory.create n with
    | error => exact .refl _
    | ok r =>
      obtain ⟨hfree, hhas⟩ := Directory.create_eq_ok hcreate
      exact .opens hfree hhas fun _ _ => id
  | setAlias n choice =>
    simp only [act, accountChange, Database.apply]
    cases hset : sys.engine.database.directory.setAlias n choice with
    | error => exact .refl _
    | ok r => exact .nothing (h.database.directory.has_aliasSet hset) fun _ _ => id
  | delete n =>
    simp only [act, accountChange]
    cases hdelete : sys.engine.deletePlayer n with
    | error =>
      unfold Engine.closing
      rw [hdelete]
      exact .refl _
    | ok r => exact hengine.follows_deletePlayer hdelete
  | connect n =>
    simp only [act, accountChange, connect]
    rcases sys.engine.connect_cases n with ⟨-, heq⟩ | ⟨hn, heq⟩
    · rw [heq]
      exact .refl _
    · rw [heq]
      exact hengine.follows_connected hn
  | disconnect c => exact hengine.follows_disconnect c
  | command c command =>
    simp only [act, accountChange, System.command]
    cases hfind : sys.sessions.find? c with
    | none => exact .refl _
    | some s =>
      have hown := h.wellFormed.own c s hfind
      have hfollows := hengine.follows_handleCommand s command
      rw [hown] at hfollows
      exact hfollows
  | read c =>
    rcases sys.act_read_cases c with heq | ⟨s, x, xs, -, -, heq⟩
    · rw [heq]
      exact .refl _
    · rw [heq]
      have hleaving := h.wellFormed.leaving c xs
      refine .nothing (fun m => ?_) fun d m => hleaving.attached_of_handleNotice
      exact Engine.hasPlayer_of_database (Engine.database_handleNotice _ s x) m

theorem Sound.follows {sys : System} (h : sys.Sound) (i : Input) :
    sys.engine.Follows (sys.take i).engine (sys.accountChange i) := by
  cases i with
  | action a => exact h.follows_act a
  | notice c x =>
    rcases sys.take_notice_cases c x with heq | ⟨s, -, heq⟩
    · rw [heq]
      exact .refl _
    · rw [heq]
      exact h.wellFormed.engine.follows_handleNotice s x
  | hangUp c => exact .nothing (fun _ => rfl) fun _ _ => id

end System

/-! ## The ledger -/

/-- The numbers of the accounts, and as which account each connection came. -/
structure Ledger where
  /-- How many accounts have been opened; the number of the next one. -/
  opened : Nat
  account : Name → Option Nat
  cameAs : Connection → Option Nat

namespace Ledger

/-- The ledger before anything has happened. -/
def blank : Ledger := ⟨0, fun _ => none, fun _ => none⟩

/-- An account gets the next number when it is opened, and keeps it until it is closed. -/
def enter (l : Ledger) : AccountChange → Ledger
  | .nothing => l
  | .opens n =>
    { l with opened := l.opened + 1, account := fun m => if m = n then some l.opened else l.account m }
  | .renames old new =>
    { l with account := fun m =>
        if m = new then l.account old else if m = old then none else l.account m }
  | .closes n => { l with account := fun m => if m = n then none else l.account m }
  | .attaches c n => { l with cameAs := fun d => if d = c then l.account n else l.cameAs d }

/-- The ledger says the same as the engine. -/
structure Fits (l : Ledger) (e : Engine) : Prop where
  players : ∀ n, e.hasPlayer n = true ↔ ∃ k, l.account n = some k
  injective : ∀ m n k, l.account m = some k → l.account n = some k → m = n
  issued : ∀ n k, l.account n = some k → k < l.opened
  attached : ∀ c n, e.presence.nameOf? c = some n →
    ∃ k, l.account n = some k ∧ l.cameAs c = some k

theorem fits_start (capacity : Nat) : blank.Fits (Engine.start .empty capacity) where
  players n := by
    constructor
    · intro hn
      cases hn
    · rintro ⟨k, hk⟩
      cases hk
  injective m n k hm := by cases hm
  issued n k hk := by cases hk
  attached c n hc := by cases hc

section

variable {l : Ledger} {e e' : Engine}

theorem Fits.account_eq_none (h : l.Fits e) {n : Name} (hn : e.hasPlayer n = false) :
    l.account n = none := by
  cases hk : l.account n with
  | none => rfl
  | some k =>
    rw [(h.players n).2 ⟨k, hk⟩] at hn
    cases hn

theorem Fits.opened (h : l.Fits e) {n : Name} (hfree : e.hasPlayer n = false)
    (hplayers : ∀ m, e'.hasPlayer m = true ↔ m = n ∨ e.hasPlayer m = true)
    (hnames : ∀ c m, e'.presence.nameOf? c = some m → e.presence.nameOf? c = some m) :
    (l.enter (.opens n)).Fits e' where
  players m := by
    rw [hplayers, h.players]
    by_cases hm : m = n <;> simp [Ledger.enter, hm]
  injective m m' k hm hm' := by
    simp only [Ledger.enter] at hm hm'
    -- the new number is above all the others
    have hfresh : ∀ j, l.account j ≠ some l.opened := fun j hj => Nat.lt_irrefl _ (h.issued j _ hj)
    split at hm <;> split at hm'
    · next hmn hmn' => exact hmn.trans hmn'.symm
    · cases hm
      exact absurd hm' (hfresh m')
    · cases hm'
      exact absurd hm (hfresh m)
    · exact h.injective m m' k hm hm'
  issued m k hk := by
    simp only [Ledger.enter] at hk ⊢
    split at hk
    · cases hk
      exact Nat.lt_succ_self _
    · exact Nat.lt_succ_of_lt (h.issued m k hk)
  attached c m hc := by
    obtain ⟨k, hk, hcame⟩ := h.attached c m (hnames c m hc)
    have hm : m ≠ n := by
      rintro rfl
      rw [h.account_eq_none hfree] at hk
      cases hk
    exact ⟨k, by simpa [Ledger.enter, hm] using hk, hcame⟩

theorem Fits.renamed (h : l.Fits e) {old new : Name} (hold : e.hasPlayer old = true)
    (hfree : e.hasPlayer new = false)
    (hplayers : ∀ m, e'.hasPlayer m = true ↔ m = new ∨ m ≠ old ∧ e.hasPlayer m = true)
    (hnames : ∀ c n, e'.presence.nameOf? c = some n →
      ∃ m, e.presence.nameOf? c = some m ∧ n = Ties.substitute old new m) :
    (l.enter (.renames old new)).Fits e' := by
  have hne : old ≠ new := Database.ne_of_hasPlayer hold hfree
  -- the account under a new name is the one that was under the name before
  have hbefore : ∀ n k, (l.enter (.renames old new)).account n = some k →
      ∃ m, n = Ties.substitute old new m ∧ m ≠ new ∧ l.account m = some k := by
    intro n k hk
    simp only [Ledger.enter] at hk
    split at hk
    · next hn => exact ⟨old, by simp [Ties.substitute, hn], hne, hk⟩
    · next hn =>
      split at hk
      · cases hk
      · next hn' => exact ⟨n, by simp [Ties.substitute, hn'], hn, hk⟩
  have hafter : ∀ m k, m ≠ new → l.account m = some k →
      (l.enter (.renames old new)).account (Ties.substitute old new m) = some k := by
    intro m k hm hk
    unfold Ties.substitute Ledger.enter
    by_cases hmo : m = old
    · subst hmo
      simpa using hk
    · simpa [hmo, hm] using hk
  have hnew : ∀ m k, l.account m = some k → m ≠ new := by
    rintro m k hk rfl
    rw [h.account_eq_none hfree] at hk
    cases hk
  refine ⟨fun n => ?_, fun m n k hm hn => ?_, fun n k hk => ?_, fun c n hc => ?_⟩
  · rw [hplayers]
    constructor
    · rintro (rfl | ⟨hn, hplayer⟩)
      · obtain ⟨k, hk⟩ := (h.players old).1 hold
        exact ⟨k, by simpa [Ties.substitute] using hafter old k hne hk⟩
      · obtain ⟨k, hk⟩ := (h.players n).1 hplayer
        exact ⟨k, by simpa [Ties.substitute, hn] using hafter n k (hnew n k hk) hk⟩
    · rintro ⟨k, hk⟩
      obtain ⟨m, rfl, hm, hk⟩ := hbefore n k hk
      unfold Ties.substitute
      split
      · exact Or.inl rfl
      · next hmo => exact Or.inr ⟨hmo, (h.players m).2 ⟨k, hk⟩⟩
  · obtain ⟨i, rfl, -, hi⟩ := hbefore m k hm
    obtain ⟨j, rfl, -, hj⟩ := hbefore n k hn
    rw [h.injective i j k hi hj]
  · obtain ⟨m, -, -, hm⟩ := hbefore n k hk
    exact h.issued m k hm
  · obtain ⟨m, hm, rfl⟩ := hnames c n hc
    obtain ⟨k, hk, hcame⟩ := h.attached c m hm
    exact ⟨k, hafter m k (hnew m k hk) hk, hcame⟩

theorem Fits.closed (h : l.Fits e) {n : Name}
    (hplayers : ∀ m, e'.hasPlayer m = true ↔ m ≠ n ∧ e.hasPlayer m = true)
    (hnames : ∀ c m, e'.presence.nameOf? c = some m → e.presence.nameOf? c = some m ∧ m ≠ n) :
    (l.enter (.closes n)).Fits e' := by
  have haccount : ∀ m k, (l.enter (.closes n)).account m = some k ↔
      m ≠ n ∧ l.account m = some k := by
    intro m k
    by_cases hm : m = n <;> simp [Ledger.enter, hm]
  refine ⟨fun m => ?_, fun m m' k hm hm' => ?_, fun m k hk => ?_, fun c m hc => ?_⟩
  · simp only [hplayers, haccount, h.players, exists_and_left]
  · exact h.injective m m' k ((haccount m k).1 hm).2 ((haccount m' k).1 hm').2
  · exact h.issued m k ((haccount m k).1 hk).2
  · obtain ⟨hc, hm⟩ := hnames c m hc
    obtain ⟨k, hk, hcame⟩ := h.attached c m hc
    exact ⟨k, (haccount m k).2 ⟨hm, hk⟩, hcame⟩

theorem Fits.come (h : l.Fits e) {c : Connection} {n : Name} (hplayer : e.hasPlayer n = true)
    (hplayers : ∀ m, e'.hasPlayer m = e.hasPlayer m)
    (hnames : ∀ d m, e'.presence.nameOf? d = some m →
      d = c ∧ m = n ∨ d ≠ c ∧ e.presence.nameOf? d = some m) :
    (l.enter (.attaches c n)).Fits e' where
  players m := by
    rw [hplayers]
    exact h.players m
  injective := h.injective
  issued := h.issued
  attached d m hd := by
    rcases hnames d m hd with ⟨rfl, rfl⟩ | ⟨hdc, hd⟩
    · obtain ⟨k, hk⟩ := (h.players m).1 hplayer
      exact ⟨k, hk, by simpa [Ledger.enter] using hk⟩
    · obtain ⟨k, hk, hcame⟩ := h.attached d m hd
      exact ⟨k, hk, by simpa [Ledger.enter, hdc] using hcame⟩

/-- Whatever becomes of accounts and connections, the ledger keeps up. -/
theorem Fits.enter (h : l.Fits e) {change : AccountChange} (hfollows : e.Follows e' change) :
    (l.enter change).Fits e' := by
  cases hfollows with
  | nothing hplayers hnames =>
    refine ⟨fun n => ?_, h.injective, h.issued, fun c n hc => h.attached c n (hnames c n hc)⟩
    rw [hplayers]
    exact h.players n
  | opens hfree hplayers hnames => exact h.opened hfree hplayers hnames
  | renames hold hfree hplayers hnames => exact h.renamed hold hfree hplayers hnames
  | closes hplayers hnames => exact h.closed hplayers hnames
  | attaches hplayer hplayers hnames => exact h.come hplayer hplayers hnames

end

end Ledger

/-! ## Runs -/

namespace System

/-- The ledger after some inputs, the first one first. -/
def keepLedger (sys : System) (l : Ledger) : List Input → Ledger
  | [] => l
  | i :: is => (sys.take i).keepLedger (l.enter (sys.accountChange i)) is

theorem Sound.fits_run {sys : System} (h : sys.Sound) {l : Ledger} (hfits : l.Fits sys.engine)
    (is : List Input) : (sys.keepLedger l is).Fits (sys.run is).engine := by
  induction is generalizing sys l with
  | nil => exact hfits
  | cons i is ih => exact ih (h.take i) (hfits.enter (h.follows i))

/-- What the ledger says of the sessions that are attached, and of the next renaming. -/
structure KeepsAccounts (sys : System) (l : Ledger) : Prop where
  /-- The accounts are the players'. -/
  players : ∀ n, sys.engine.hasPlayer n = true ↔ ∃ k, l.account n = some k
  /-- Different players have different accounts. -/
  injective : ∀ m n k, l.account m = some k → l.account n = some k → m = n
  /-- A session came as the account that has its name now. -/
  sessions : ∀ n, ∀ c ∈ sys.engine.presence.sessionsOf n,
    ∃ k, l.account n = some k ∧ l.cameAs c = some k
  /-- Sessions are in one group exactly when they came as one account. -/
  groups : ∀ m n, ∀ c ∈ sys.engine.presence.sessionsOf m, ∀ d ∈ sys.engine.presence.sessionsOf n,
    (m = n ↔ l.cameAs c = l.cameAs d)
  /-- A renaming moves the sessions of its account and no others. -/
  renamings : ∀ i old new, sys.accountChange i = .renames old new →
    sys.engine.Moves (sys.take i).engine old new

/-- **Sessions never change accounts**, whatever comes from outside. -/
theorem keepsAccounts_run (capacity : Nat) (is : List Input) :
    ((start .empty capacity).run is).KeepsAccounts
      ((start .empty capacity).keepLedger .blank is) := by
  have hsound := (sound_start capacity).run is
  have hfits := (sound_start capacity).fits_run (Ledger.fits_start capacity) is
  have hsessions := fun n c hc =>
    hfits.attached c n (hsound.wellFormed.engine.presence.nameOf?_eq_some_iff.2 hc)
  refine ⟨hfits.players, hfits.injective, hsessions, ?_, ?_⟩
  · intro m n c hc d hd
    obtain ⟨i, hi, hcame⟩ := hsessions m c hc
    obtain ⟨j, hj, hdame⟩ := hsessions n d hd
    rw [hcame, hdame, Option.some.injEq]
    constructor
    · rintro rfl
      exact Option.some.inj (hi.symm.trans hj)
    · rintro rfl
      exact hfits.injective m n i hi hj
  · intro i old new hchange
    have hfollows := hsound.follows i
    rw [hchange] at hfollows
    cases hfollows with
    | renames _ _ _ _ hmoves => exact hmoves

/-- A player takes another name, and somebody else opens an account under the old one. -/
def nameTakenOver : List Input :=
  [.action (.create ⟨"q", Name.isValid_q⟩), .action (.connect ⟨"q", Name.isValid_q⟩),
    .action (.command ⟨0⟩ (.rename "r")), .action (.create ⟨"q", Name.isValid_q⟩),
    .action (.connect ⟨"q", Name.isValid_q⟩)]

/-- The two sessions came under one name and as two accounts. -/
example :
    (((start .empty 64).keepLedger .blank nameTakenOver).cameAs ⟨0⟩ = some 0 ∧
      ((start .empty 64).keepLedger .blank nameTakenOver).cameAs ⟨1⟩ = some 1) ∧
    ((start .empty 64).run nameTakenOver).engine.presence.nameOf? ⟨0⟩ =
      some ⟨"r", by decide⟩ := by
  decide +kernel

end System

end Amity
