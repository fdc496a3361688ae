/-
  Amity/Proofs/Database/Transactions.lean
  =======================================
  **Every call is one transaction.**  The operations on the records are written as functions: from
  the records, either a new state of the records or an error.  Here each of them is written once
  more the way it is carried out, as a program that reads and writes a working copy step by step
  (`Body`).  An account has moved when the ties turn out to be in the way, and peers are edited one
  after the other until one of them has a record that cannot be read: the copy then holds the half
  of the change.

  A transaction keeps the copy when its body has an answer and throws it away when the body aborts
  (`Body.commit`).  `outcome_body` says that the programs and the functions agree.  From that comes
  `Database.atomic`, in which nothing is assumed about the records: a call that fails, and one that
  finds nothing to do, leaves every stored text as it was.
-/
import Amity.Proofs.Database.Failures

namespace Amity

/-! ## Bodies of transactions -/

/-- The body of a transaction.  It reads and writes a working copy of the records, and what it has
    written stands in the copy also when it aborts later. -/
abbrev Body (σ ε : Type) := ExceptT ε (StateM σ)

section

variable {ε α β σ : Type}

theorem ok_bind (a : α) (k : α → Except ε β) : (.ok a : Except ε α) >>= k = k a := rfl

theorem map_snd_map (r : Except ε α) {f : α → β × σ} {f' : α → σ} (h : ∀ a, (f a).2 = f' a) :
    (r.map f).map Prod.snd = r.map f' := by
  cases r with
  | error => rfl
  | ok a => exact congrArg Except.ok (h a)

end

namespace Body

variable {σ τ ε δ α β : Type}

/-- What a body answers, and its working copy at the end. -/
def run (b : Body σ ε α) (s : σ) : Except ε α × σ := StateT.run (ExceptT.run b) s

def ask (q : σ → Except ε α) : Body σ ε α := ExceptT.mk fun s => (q s, s)

def write (f : σ → σ) : Body σ ε Unit := modify f

/-- A body on a part of the records. -/
def within (part : σ → τ) (put : σ → τ → σ) (wrap : δ → ε) (b : Body τ δ α) : Body σ ε α :=
  ExceptT.mk fun s => ((b.run (part s)).1.mapError wrap, put s (b.run (part s)).2)

/-- When the body has an answer its working copy becomes the records; when it aborts the copy is
    thrown away. -/
def commit (b : Body σ ε α) (s : σ) : Except ε α × σ :=
  match b.run s with
  | (.ok a, copy) => (.ok a, copy)
  | (.error err, _) => (.error err, s)

/-- The answer together with the copy, or why there is none. -/
def outcome (b : Body σ ε α) (s : σ) : Except ε (α × σ) :=
  match b.run s with
  | (.ok a, copy) => .ok (a, copy)
  | (.error err, _) => .error err

/-- What is answered and what is left, for the records there were before. -/
def settle (s : σ) : Except ε (α × σ) → Except ε α × σ
  | .ok (a, s') => (.ok a, s')
  | .error err => (.error err, s)

theorem commit_eq (b : Body σ ε α) (s : σ) : b.commit s = settle s (b.outcome s) := by
  unfold commit outcome
  rcases b.run s with ⟨_ | _, _⟩ <;> rfl

theorem snd_settle (s : σ) (r : Except ε (α × σ)) :
    (settle s r).2 = outcomeOr s (r.map Prod.snd) := by
  cases r <;> rfl

theorem fst_settle_eq_ok {s : σ} {r : Except ε (α × σ)} {a : α} (h : (settle s r).1 = .ok a) :
    r = .ok (a, (settle s r).2) := by
  cases r with
  | error => cases h
  | ok r =>
    cases h
    rfl

theorem fst_settle_eq_error {s : σ} {r : Except ε (α × σ)} {err : ε}
    (h : (settle s r).1 = .error err) : (settle s r).2 = s := by
  cases r with
  | error => rfl
  | ok r => cases h

/-! ### What comes out of a body -/

theorem run_ask (q : σ → Except ε α) (s : σ) : (ask q).run s = (q s, s) := rfl

theorem run_within (part : σ → τ) (put : σ → τ → σ) (wrap : δ → ε) (b : Body τ δ α) (s : σ) :
    (within part put wrap b).run s =
      ((b.run (part s)).1.mapError wrap, put s (b.run (part s)).2) := rfl

theorem run_bind (b : Body σ ε α) (k : α → Body σ ε β) (s : σ) :
    (b >>= k).run s =
      match b.run s with
      | (.ok a, copy) => (k a).run copy
      | (.error err, copy) => (.error err, copy) := by
  show (ExceptT.bindCont k (b.run s).1) (b.run s).2 = _
  rcases b.run s with ⟨_ | _, _⟩ <;> rfl

@[simp] theorem outcome_pure (a : α) (s : σ) : (pure a : Body σ ε α).outcome s = .ok (a, s) := rfl

@[simp] theorem outcome_throw (err : ε) (s : σ) :
    (throw err : Body σ ε α).outcome s = .error err := rfl

@[simp] theorem outcome_write (f : σ → σ) (s : σ) :
    (write f : Body σ ε Unit).outcome s = .ok ((), f s) := rfl

@[simp] theorem outcome_ask (q : σ → Except ε α) (s : σ) :
    (ask q).outcome s = (q s).map (·, s) := by
  unfold outcome
  rw [run_ask]
  cases q s <;> rfl

@[simp] theorem outcome_bind (b : Body σ ε α) (k : α → Body σ ε β) (s : σ) :
    (b >>= k).outcome s = b.outcome s >>= fun r => (k r.1).outcome r.2 := by
  unfold outcome
  rw [run_bind]
  rcases b.run s with ⟨_ | _, _⟩ <;> rfl

@[simp] theorem outcome_map (f : α → β) (b : Body σ ε α) (s : σ) :
    (f <$> b).outcome s = (b.outcome s).map (Prod.map f id) := by
  rw [map_eq_pure_bind, outcome_bind]
  cases b.outcome s <;> rfl

@[simp] theorem outcome_ite (p : Prop) [Decidable p] (b b' : Body σ ε α) (s : σ) :
    (if p then b else b').outcome s = if p then b.outcome s else b'.outcome s := by
  split <;> rfl

@[simp] theorem outcome_within (part : σ → τ) (put : σ → τ → σ) (wrap : δ → ε) (b : Body τ δ α)
    (s : σ) :
    (within part put wrap b).outcome s =
      ((b.outcome (part s)).mapError wrap).map (Prod.map id (put s)) := by
  unfold outcome
  rw [run_within]
  rcases b.run (part s) with ⟨_ | _, _⟩ <;> rfl

end Body

/-- What a call answers. -/
inductive Answer where
  | done
  | decided (made : Bool)
  | ties (t : Ties)
  /-- The ties of a player who was deleted, if there was one. -/
  | former (t : Option Ties)
  | account (p : Profile)
  | lookup (p : Option Profile)
  | names (ns : List Name)
  deriving DecidableEq, Repr

/-! ## Ties -/

namespace Graph

open Body

abbrev Transaction := Body Graph GraphError

namespace Transaction

/-- Writes both ends of a change between two players; the ties of the first have been read. -/
def editBoth (a b : Name) (own : Ties) (f f' : Ties → Ties) : Transaction Unit := do
  let other ← ask (·.load b)
  write (·.save a (f own))
  write (·.save b (f' other))

def befriend (a b : Name) : Transaction Unit :=
  if a = b then throw .selfRelation
  else do
    let own ← ask (·.load a)
    if b ∈ own.friends then throw (.alreadyFriends a b)
    else editBoth a b own (Ties.befriend b) (Ties.befriend a)

/-- A change between two players that is made when the ties of the first ask for it. -/
def editIf (p : Ties → Prop) [DecidablePred p] (a b : Name) (f f' : Ties → Ties) :
    Transaction Bool := do
  let own ← ask (·.load a)
  if p own then
    editBoth a b own f f'
    return true
  else return false

def unfriend (a b : Name) : Transaction Bool :=
  editIf (b ∈ ·.friends) a b (Ties.unfriend b) (Ties.unfriend a)

def withdraw (sender receiver : Name) : Transaction Bool :=
  editIf (receiver ∈ ·.sent) sender receiver (Ties.dropSent receiver) (Ties.dropReceived sender)

def accept (sender receiver : Name) : Transaction Bool :=
  editIf (receiver ∈ ·.sent) sender receiver (Ties.befriend receiver) (Ties.befriend sender)

def request (sender receiver : Name) : Transaction Bool :=
  if sender = receiver then return false
  else do
    let own ← ask (·.load sender)
    if receiver ∈ own.sent ∨ receiver ∈ own.friends then return false
    else
      editBoth sender receiver own (Ties.addSent receiver) (Ties.addReceived sender)
      return true

/-- Edits the ties of each player in turn. -/
def editEach (f : Ties → Ties) : List Name → Transaction Unit
  | [] => pure ()
  | p :: ps => do
    let ties ← ask (·.load p)
    write (·.save p (f ties))
    editEach f ps

def rename (old new : Name) : Transaction Ties := do
  let own ← ask (·.load old)
  if old = new then return own
  else
    let inUse ← ask fun g => .ok (g.knows new)
    if inUse then throw (.nameInUse new)
    else
      editEach (Ties.renamePeer old new) own.peers
      write (·.drop old)
      write (·.save new own)
      return own

def purge (n : Name) : Transaction Ties := do
  let own ← ask (·.load n)
  editEach (Ties.forgetPeer n) own.peers
  write (·.drop n)
  return own

end Transaction

def Change.body : Change → Transaction Answer
  | .befriend a b => (fun _ => .done) <$> Transaction.befriend a b
  | .unfriend a b => .decided <$> Transaction.unfriend a b
  | .request a b => .decided <$> Transaction.request a b
  | .withdraw a b => .decided <$> Transaction.withdraw a b
  | .accept a b => .decided <$> Transaction.accept a b
  | .rename old new => (fun _ => .done) <$> Transaction.rename old new
  | .purge n => .ties <$> Transaction.purge n

/-- What a change of the graph answers, with the graph after it. -/
def respond (g : Graph) : Change → Except GraphError (Answer × Graph)
  | .befriend a b => (g.addFriendship a b).map (.done, ·)
  | .unfriend a b => (g.removeFriendship a b).map (Prod.map .decided id)
  | .request a b => (g.createRequest a b).map (Prod.map .decided id)
  | .withdraw a b => (g.deleteRequest a b).map (Prod.map .decided id)
  | .accept a b => (g.acceptRequest a b).map (Prod.map .decided id)
  | .rename old new => (g.rename old new).map (Prod.map (fun _ => .done) id)
  | .purge n => (g.purge n).map (Prod.map .ties id)

open Transaction

section

variable (g : Graph)

theorem outcome_editBoth (a b : Name) (own : Ties) (f f' : Ties → Ties) :
    (editBoth a b own f f').outcome g =
      (g.load b).map fun other => ((), (g.save a (f own)).save b (f' other)) := by
  simp only [editBoth, outcome_bind, outcome_ask, outcome_write]
  cases g.load b <;> rfl

theorem outcome_befriend (a b : Name) :
    (Transaction.befriend a b).outcome g = (g.addFriendship a b).map ((), ·) := by
  unfold Transaction.befriend addFriendship
  split
  · rfl
  · simp only [outcome_bind, outcome_ask]
    cases g.load a with
    | error => rfl
    | ok own =>
      simp only [outcome_ite, outcome_throw, outcome_editBoth, Except.map, ok_bind]
      split
      · rfl
      · cases g.load b <;> rfl

/-- The records are untouched when the ties of the first player do not ask for the change: the
    body has not written anything by then. -/
theorem outcome_editIf (p : Ties → Prop) [DecidablePred p] (a b : Name) (f f' : Ties → Ties) :
    (editIf p a b f f').outcome g = (do
      let own ← g.load a
      if p own then
        let other ← g.load b
        return (true, (g.save a (f own)).save b (f' other))
      else return (false, g)) := by
  simp only [editIf, outcome_bind, outcome_ask]
  cases g.load a with
  | error => rfl
  | ok own =>
    simp only [outcome_ite, outcome_bind, outcome_pure, outcome_editBoth, Except.map, ok_bind]
    split
    · cases g.load b <;> rfl
    · rfl

theorem outcome_unfriend (a b : Name) :
    (Transaction.unfriend a b).outcome g = g.removeFriendship a b :=
  outcome_editIf g _ a b _ _

theorem outcome_withdraw (a b : Name) :
    (Transaction.withdraw a b).outcome g = g.deleteRequest a b :=
  outcome_editIf g _ a b _ _

theorem outcome_accept (a b : Name) :
    (Transaction.accept a b).outcome g = g.acceptRequest a b :=
  outcome_editIf g _ a b _ _

theorem outcome_request (a b : Name) :
    (Transaction.request a b).outcome g = g.createRequest a b := by
  unfold Transaction.request createRequest
  split
  · rfl
  · simp only [outcome_bind, outcome_ask]
    cases g.load a with
    | error => rfl
    | ok own =>
      simp only [outcome_ite, outcome_bind, outcome_pure, outcome_editBoth, Except.map, ok_bind]
      split
      · rfl
      · cases g.load b <;> rfl

theorem outcome_editEach (f : Ties → Ties) (ps : List Name) :
    (editEach f ps).outcome g = (editAll f ps g).map ((), ·) := by
  induction ps generalizing g with
  | nil => rfl
  | cons p ps ih =>
    simp only [editEach, outcome_bind, outcome_ask, outcome_write, editAll]
    cases g.load p with
    | error => rfl
    | ok ties => exact ih (g.save p (f ties))

theorem outcome_rename (old new : Name) :
    (Transaction.rename old new).outcome g = g.rename old new := by
  simp only [Transaction.rename, Graph.rename, outcome_bind, outcome_ask, outcome_ite,
    outcome_pure, outcome_throw, outcome_write, outcome_editEach]
  cases g.load old with
  | error => rfl
  | ok own =>
    simp only [Except.map, ok_bind]
    split
    · rfl
    · split
      · rfl
      · cases editAll (Ties.renamePeer old new) own.peers g <;> rfl

theorem outcome_purge (n : Name) : (Transaction.purge n).outcome g = g.purge n := by
  simp only [Transaction.purge, Graph.purge, outcome_bind, outcome_ask, outcome_pure,
    outcome_write, outcome_editEach]
  cases g.load n with
  | error => rfl
  | ok own =>
    simp only [Except.map, ok_bind]
    cases editAll (Ties.forgetPeer n) own.peers g <;> rfl

theorem outcome_body (c : Change) : c.body.outcome g = g.respond c := by
  cases c with
  | befriend a b =>
    simp only [Change.body, outcome_map, outcome_befriend, respond]
    cases g.addFriendship a b <;> rfl
  | unfriend a b => exact (outcome_map _ _ g).trans (by rw [outcome_unfriend]; rfl)
  | request a b => exact (outcome_map _ _ g).trans (by rw [outcome_request]; rfl)
  | withdraw a b => exact (outcome_map _ _ g).trans (by rw [outcome_withdraw]; rfl)
  | accept a b => exact (outcome_map _ _ g).trans (by rw [outcome_accept]; rfl)
  | rename old new => exact (outcome_map _ _ g).trans (by rw [outcome_rename]; rfl)
  | purge n => exact (outcome_map _ _ g).trans (by rw [outcome_purge]; rfl)

theorem map_snd_respond (c : Change) : (g.respond c).map Prod.snd = g.attempt c := by
  cases c with
  | befriend a b =>
    show ((g.addFriendship a b).map _).map _ = g.addFriendship a b
    cases g.addFriendship a b <;> rfl
  | unfriend a b => exact map_snd_map _ fun _ => rfl
  | request a b => exact map_snd_map _ fun _ => rfl
  | withdraw a b => exact map_snd_map _ fun _ => rfl
  | accept a b => exact map_snd_map _ fun _ => rfl
  | rename old new => exact map_snd_map _ fun _ => rfl
  | purge n => exact map_snd_map _ fun _ => rfl

end

end Graph

/-! ## Accounts -/

namespace Directory

open Body

abbrev Transaction := Body Directory DirectoryError

namespace Transaction

def create (n : Name) : Transaction Profile := do
  let taken ← ask fun d => .ok (d.has n)
  if taken then throw (.nameTaken n)
  else
    write (·.save (.fresh n))
    return .fresh n

/-- Enters an alias, if there is one to enter. -/
def claim (n : Name) : Option String → Transaction Unit
  | none => pure ()
  | some a => do
    let taken ← ask fun d => .ok (d.aliases.contains a)
    if taken then throw (.aliasTaken a) else write (·.claimAlias a n)

def setAlias (n : Name) (choice : Option String) : Transaction Profile := do
  let wanted ← ask fun _ => wantedAlias choice
  let p ← ask (·.load n)
  if p.aliasName = wanted then return p
  else
    claim n wanted
    write (·.freeAlias p.aliasName)
    write (·.save { p with aliasName := wanted })
    return { p with aliasName := wanted }

def rename (old new : Name) : Transaction Unit := do
  let p ← ask (·.load old)
  let taken ← ask fun d => .ok (d.has new)
  if taken then throw (.nameTaken new)
  else
    write (·.drop old)
    match p.aliasName with
    | some a => write (·.claimAlias a new)
    | none => pure ()
    write (·.save { p with name := new })

/-- The record goes first; only then is it read, for the alias. -/
def delete (n : Name) : Transaction Bool := do
  let stored ← ask fun d => .ok (d.profiles.find? n.text)
  write (·.drop n)
  match stored with
  | none => return false
  | some text =>
    match Profile.decode? text with
    | none => throw .corrupt
    | some p =>
      write (·.freeAlias p.aliasName)
      return true

end Transaction

section

variable (d : Directory)

theorem outcome_create (n : Name) : (Transaction.create n).outcome d = d.create n := by
  simp only [Transaction.create, create, outcome_bind, outcome_ask, outcome_ite, outcome_throw,
    outcome_write, outcome_pure, Except.map, ok_bind]

theorem outcome_claim (n : Name) (wanted : Option String) :
    (Transaction.claim n wanted).outcome d = (d.claimFree n wanted).map ((), ·) := by
  cases wanted with
  | none => rfl
  | some a =>
    simp only [Transaction.claim, claimFree, outcome_bind, outcome_ask, outcome_ite, outcome_throw,
      outcome_write, Except.map, ok_bind]
    split <;> rfl

theorem outcome_setAlias (n : Name) (choice : Option String) :
    (Transaction.setAlias n choice).outcome d = d.setAlias n choice := by
  simp only [Transaction.setAlias, setAlias, outcome_bind, outcome_ask, outcome_ite, outcome_pure,
    outcome_write, outcome_claim]
  cases wantedAlias choice with
  | error => rfl
  | ok wanted =>
    simp only [Except.map, ok_bind]
    cases d.load n with
    | error => rfl
    | ok p =>
      simp only [ok_bind]
      split
      · rfl
      · cases d.claimFree n wanted <;> rfl

theorem outcome_rename (old new : Name) :
    (Transaction.rename old new).outcome d = (d.rename old new).map ((), ·) := by
  simp only [Transaction.rename, rename, outcome_bind, outcome_ask, outcome_ite, outcome_throw,
    outcome_write]
  cases d.load old with
  | error => rfl
  | ok p =>
    simp only [Except.map, ok_bind]
    split
    · rfl
    · cases p.aliasName <;> rfl

/-- Taking out a record that is not there, as the body does, writes nothing. -/
theorem outcome_delete (n : Name) :
    (Transaction.delete n).outcome d = (d.delete n).map fun r => (r.isSome, r.getD d) := by
  simp only [Transaction.delete, delete, find?, outcome_bind, outcome_ask, outcome_write,
    Except.map, ok_bind]
  cases hstored : d.profiles.find? n.text with
  | none =>
    have hdrop : d.drop n = d := by
      unfold drop
      rw [Table.erase_of_find?_eq_none hstored]
    simp only [outcome_pure, ok_bind, hdrop]
    rfl
  | some text => cases hdecode : Profile.decode? text <;> simp only [hdecode] <;> rfl

end

/-- The empty text stands for no alias. -/
theorem eq_filter_of_wantedAlias {choice wanted : Option String}
    (hwanted : wantedAlias choice = .ok wanted) : wanted = choice.filter (· ≠ "") := by
  ext a
  rw [eq_some_of_wantedAlias hwanted, Option.filter_eq_some_iff]
  simp

theorem load_eq_ok {d : Directory} {n : Name} {p : Profile} (hp : d.find? n = .ok (some p)) :
    d.load n = .ok p := by
  simp only [load, hp, ok_bind]
  rfl

variable {d d' : Directory}

/-- Choosing the alias that the player has writes nothing. -/
theorem eq_of_setAlias_same {n : Name} {choice : Option String} {p q : Profile}
    (hp : d.find? n = .ok (some p)) (hsame : choice.filter (· ≠ "") = p.aliasName)
    (h : d.setAlias n choice = .ok (q, d')) : d' = d := by
  unfold setAlias at h
  cases hwanted : wantedAlias choice with
  | error => simp [hwanted, bind, Except.bind] at h
  | ok wanted =>
    have hwanted' : p.aliasName = wanted := by rw [← hsame, eq_filter_of_wantedAlias hwanted]
    simp only [hwanted, load_eq_ok hp, ok_bind, hwanted', if_true] at h
    cases h
    rfl

/-- An alias that is set shows in the answer. -/
theorem eq_of_setAlias_answer {n : Name} {choice : Option String} {p : Profile}
    (hp : d.find? n = .ok (some p)) (h : d.setAlias n choice = .ok (p, d')) : d' = d := by
  refine eq_of_setAlias_same hp ?_ h
  unfold setAlias at h
  cases hwanted : wantedAlias choice with
  | error => simp [hwanted, bind, Except.bind] at h
  | ok wanted =>
    rw [← eq_filter_of_wantedAlias hwanted]
    simp only [hwanted, load_eq_ok hp, ok_bind] at h
    split at h
    · next hsame => exact hsame.symm
    · cases hclaim : d.claimFree n wanted with
      | error => simp [hclaim, bind, Except.bind] at h
      | ok claimed =>
        simp only [hclaim, ok_bind, pure, Except.pure, Except.ok.injEq, Prod.mk.injEq] at h
        exact congrArg Profile.aliasName h.1

end Directory

/-! ## Both -/

namespace Database

open Body

abbrev Transaction := Body Database StoreError

namespace Transaction

variable {α : Type}

def onTies (b : Graph.Transaction α) : Transaction α :=
  b.within graph (fun db graph => { db with graph }) .graph

def onAccounts (b : Directory.Transaction α) : Transaction α :=
  b.within directory withDirectory .directory

/-- The account moves first, then the ties. -/
def rename (old new : Name) : Transaction Ties := do
  onAccounts (Directory.Transaction.rename old new)
  onTies (Graph.Transaction.rename old new)

def delete (n : Name) : Transaction (Option Ties) := do
  let found ← onAccounts (Directory.Transaction.delete n)
  if found then some <$> onTies (Graph.Transaction.purge n)
  else return none

def request (sender receiver : Name) : Transaction Bool := do
  let both ← ask fun db => .ok (decide (db.hasPlayer sender ∧ db.hasPlayer receiver))
  if both then onTies (Graph.Transaction.request sender receiver)
  else return false

end Transaction

/-- A call that only reads. -/
inductive Question where
  | ties (n : Name)
  | knows (n : Name)
  | friends (a b : Name)
  | friendsOf (n : Name)
  | sentBy (n : Name)
  | receivedBy (n : Name)
  | requested (sender receiver : Name)
  | account (n : Name)
  | hasAccount (n : Name)
  deriving DecidableEq, Repr

/-- A call of any operation. -/
inductive Call where
  | ask (q : Question)
  | change (c : Change)
  deriving DecidableEq, Repr

def consult (db : Database) : Question → Except StoreError Answer
  | .ties n => (onGraph (db.graph.load n)).map .ties
  | .knows n => .ok (.decided (db.graph.knows n))
  | .friends a b => (onGraph (db.graph.areFriends a b)).map .decided
  | .friendsOf n => (onGraph (db.graph.friendsOf n)).map .names
  | .sentBy n => (onGraph (db.graph.pendingSent n)).map .names
  | .receivedBy n => (onGraph (db.graph.pendingReceived n)).map .names
  | .requested a b => (onGraph (db.graph.requestExists a b)).map .decided
  | .account n => (onDirectory (db.directory.find? n)).map .lookup
  | .hasAccount n => .ok (.decided (db.hasPlayer n))

def Change.body : Change → Transaction Answer
  | .graph c => Transaction.onTies c.body
  | .create n => .account <$> Transaction.onAccounts (Directory.Transaction.create n)
  | .setAlias n choice =>
    .account <$> Transaction.onAccounts (Directory.Transaction.setAlias n choice)
  | .rename old new => .ties <$> Transaction.rename old new
  | .delete n => .former <$> Transaction.delete n
  | .request a b => .decided <$> Transaction.request a b

def Call.body : Call → Transaction Answer
  | .ask q => Body.ask (·.consult q)
  | .change c => c.body

/-- What a call answers, with the database after it. -/
def respond (db : Database) : Call → Except StoreError (Answer × Database)
  | .ask q => (db.consult q).map (·, db)
  | .change (.graph c) =>
    (onGraph (db.graph.respond c)).map fun r => (r.1, { db with graph := r.2 })
  | .change (.create n) =>
    (onDirectory (db.directory.create n)).map fun r => (.account r.1, db.withDirectory r.2)
  | .change (.setAlias n choice) =>
    (onDirectory (db.directory.setAlias n choice)).map fun r =>
      (.account r.1, db.withDirectory r.2)
  | .change (.rename old new) => (db.rename old new).map (Prod.map .ties id)
  | .change (.delete n) =>
    (db.delete n).map fun r => (.former (r.map Prod.fst), (r.map Prod.snd).getD db)
  | .change (.request a b) => (db.request a b).map (Prod.map .decided id)

section

variable (db : Database)

theorem outcome_rename (old new : Name) :
    (Transaction.rename old new).outcome db = db.rename old new := by
  simp only [Transaction.rename, Transaction.onAccounts, Transaction.onTies, rename, outcome_bind,
    outcome_within, Directory.outcome_rename, Graph.outcome_rename]
  cases db.directory.rename old new with
  | error => rfl
  | ok d =>
    show (((db.graph.rename old new).mapError StoreError.graph).map _) = _
    cases db.graph.rename old new <;> rfl

theorem outcome_delete (n : Name) :
    (Transaction.delete n).outcome db =
      (db.delete n).map fun r => (r.map Prod.fst, (r.map Prod.snd).getD db) := by
  simp only [Transaction.delete, Transaction.onAccounts, Transaction.onTies, delete, outcome_bind,
    outcome_within, outcome_ite, outcome_map, outcome_pure, Directory.outcome_delete,
    Graph.outcome_purge]
  cases db.directory.delete n with
  | error => rfl
  | ok r =>
    cases r with
    | none => rfl
    | some d =>
      show ((((db.graph.purge n).mapError StoreError.graph).map _).map _) = _
      cases db.graph.purge n <;> rfl

theorem outcome_request (sender receiver : Name) :
    (Transaction.request sender receiver).outcome db = db.request sender receiver := by
  simp only [Transaction.request, Transaction.onTies, request, outcome_bind, outcome_ask,
    outcome_ite, outcome_within, outcome_pure, Graph.outcome_request, Except.map, ok_bind,
    decide_eq_true_eq]
  split
  · cases db.graph.createRequest sender receiver <;> rfl
  · rfl

/-- **The programs do what the functions say**: each answers the same, and its copy at the end is
    the same database. -/
theorem outcome_body (call : Call) : call.body.outcome db = db.respond call := by
  cases call with
  | ask q => exact outcome_ask _ db
  | change c =>
    cases c with
    | graph c =>
      simp only [Call.body, Change.body, Transaction.onTies, outcome_within, Graph.outcome_body]
      rfl
    | create n =>
      simp only [Call.body, Change.body, Transaction.onAccounts, outcome_map, outcome_within,
        Directory.outcome_create, respond]
      cases db.directory.create n <;> rfl
    | setAlias n choice =>
      simp only [Call.body, Change.body, Transaction.onAccounts, outcome_map, outcome_within,
        Directory.outcome_setAlias, respond]
      cases db.directory.setAlias n choice <;> rfl
    | rename old new => exact (outcome_map _ _ db).trans (by rw [outcome_rename]; rfl)
    | delete n =>
      simp only [Call.body, Change.body, outcome_map, outcome_delete, respond]
      cases db.delete n <;> rfl
    | request a b => exact (outcome_map _ _ db).trans (by rw [outcome_request]; rfl)

theorem map_snd_respond (c : Change) : (db.respond (.change c)).map Prod.snd = db.attempt c := by
  cases c with
  | graph c =>
    rw [attempt, ← Graph.map_snd_respond, respond]
    cases db.graph.respond c <;> rfl
  | create n => exact map_snd_map _ fun _ => rfl
  | setAlias n choice => exact map_snd_map _ fun _ => rfl
  | rename old new => exact map_snd_map _ fun _ => rfl
  | delete n => exact map_snd_map _ fun _ => rfl
  | request a b => exact map_snd_map _ fun _ => rfl

end

/-! ### Calls without effect -/

/-- The answer says that there was nothing to do; a question has nothing to do. -/
def Call.FindsNothing (db : Database) (answer : Answer) : Call → Prop
  | .ask _ => True
  | .change (.setAlias n _) => ∃ p, db.directory.find? n = .ok (some p) ∧ answer = .account p
  | .change (.delete _) => answer = .former none
  | .change _ => answer = .decided false

/-- What a call that fails or finds nothing to do leaves.  Databases are equal when every stored
    text is the same; nothing is assumed about what the texts are. -/
structure Atomic (db : Database) (call : Call) : Prop where
  /-- The transaction has the answer of the call and leaves the records that the call gives. -/
  commits : call.body.commit db = settle db (db.respond call)
  leaves : ∀ c, call = .change c → (call.body.commit db).2 = db.apply c
  fails : ∀ err, (call.body.commit db).1 = .error err → (call.body.commit db).2 = db
  idle : ∀ answer, (call.body.commit db).1 = .ok answer → call.FindsNothing db answer →
    (call.body.commit db).2 = db
  /-- A player who chooses the alias that the player already has; the empty text is none. -/
  sameAlias : ∀ n choice p, call = .change (.setAlias n choice) →
    db.directory.find? n = .ok (some p) → choice.filter (· ≠ "") = p.aliasName →
    (call.body.commit db).2 = db

section

variable {db db' : Database}

theorem eq_of_map_decided {ε σ : Type} {r : Except ε (Bool × σ)} {made : Bool} {s : σ}
    (h : r.map (Prod.map Answer.decided id) = .ok (.decided made, s)) : r = .ok (made, s) := by
  cases r with
  | error => cases h
  | ok x =>
    cases h
    rfl

/-- An answer of another kind is not that of a decision. -/
theorem map_ne_decided {ε α σ : Type} {r : Except ε (α × σ)} {f : α → Answer}
    (hf : ∀ a, f a ≠ .decided false) (s : σ) :
    r.map (Prod.map f id) ≠ .ok (.decided false, s) := by
  intro h
  cases r with
  | error => cases h
  | ok x =>
    simp only [Except.map, Except.ok.injEq, Prod.map, Prod.mk.injEq] at h
    exact hf _ h.1

theorem eq_of_respond_graph {g g' : Graph} {c : Graph.Change}
    (h : g.respond c = .ok (.decided false, g')) : g' = g := by
  cases c with
  | befriend a b =>
    rw [Graph.respond] at h
    cases hadd : g.addFriendship a b <;> simp [hadd, Except.map] at h
  | unfriend a b => exact Graph.eq_of_removeFriendship (eq_of_map_decided h)
  | request a b => exact Graph.eq_of_createRequest (eq_of_map_decided h)
  | withdraw a b => exact Graph.eq_of_deleteRequest (eq_of_map_decided h)
  | accept a b => exact Graph.eq_of_acceptRequest (eq_of_map_decided h)
  | rename old new => exact absurd h (map_ne_decided (fun _ => by simp) g')
  | purge n => exact absurd h (map_ne_decided (fun _ => by simp) g')

theorem eq_of_request {a b : Name} (h : db.request a b = .ok (false, db')) : db' = db := by
  rcases request_eq_ok h with ⟨-, -, hdirectory, hgraph⟩ | ⟨-, rfl⟩
  · have hgraph := Graph.eq_of_createRequest hgraph
    cases db'
    cases hgraph
    cases hdirectory
    rfl
  · rfl

theorem eq_of_respond {call : Call} {answer : Answer} (h : db.respond call = .ok (answer, db'))
    (hidle : call.FindsNothing db answer) : db' = db := by
  cases call with
  | ask q =>
    rw [respond] at h
    cases hq : db.consult q with
    | error => simp [hq, Except.map] at h
    | ok _ =>
      simp only [hq, Except.map, Except.ok.injEq, Prod.mk.injEq] at h
      exact h.2.symm
  | change c =>
    cases c with
    | graph c =>
      cases hidle
      rw [respond] at h
      cases hc : db.graph.respond c with
      | error => simp [hc, onGraph, Except.map, Except.mapError] at h
      | ok r =>
        simp only [hc, onGraph, Except.map, Except.mapError, Except.ok.injEq, Prod.mk.injEq] at h
        obtain ⟨hanswer, rfl⟩ := h
        have hg : r.2 = db.graph := eq_of_respond_graph (hc.trans (by rw [← hanswer]))
        rw [hg]
    | create n =>
      cases hidle
      rw [respond] at h
      cases hc : db.directory.create n <;>
        simp [hc, onDirectory, Except.map, Except.mapError] at h
    | setAlias n choice =>
      obtain ⟨p, hp, rfl⟩ := hidle
      rw [respond] at h
      cases hc : db.directory.setAlias n choice with
      | error => simp [hc, onDirectory, Except.map, Except.mapError] at h
      | ok r =>
        simp only [hc, onDirectory, Except.map, Except.mapError, Except.ok.injEq,
          Prod.mk.injEq, Answer.account.injEq] at h
        obtain ⟨hanswer, rfl⟩ := h
        have hd : r.2 = db.directory := Directory.eq_of_setAlias_answer hp (hc.trans (by rw [← hanswer]))
        rw [hd]
        rfl
    | rename old new =>
      cases hidle
      exact absurd h (map_ne_decided (fun _ => by simp) db')
    | delete n =>
      cases hidle
      rw [respond] at h
      cases hc : db.delete n with
      | error => simp [hc, Except.map] at h
      | ok r =>
        simp only [hc, Except.map, Except.ok.injEq, Prod.mk.injEq, Answer.former.injEq,
          Option.map_eq_none_iff] at h
        obtain ⟨rfl, rfl⟩ := h
        rfl
    | request a b =>
      cases hidle
      exact eq_of_request (eq_of_map_decided h)

end

/-- **A call is done as a whole or not at all**, whatever the records are. -/
theorem atomic (db : Database) (call : Call) : db.Atomic call where
  commits := by rw [commit_eq, outcome_body]
  leaves c hc := by
    subst hc
    rw [commit_eq, outcome_body, snd_settle, map_snd_respond, apply_eq]
  fails err h := by
    rw [commit_eq] at h ⊢
    exact fst_settle_eq_error h
  idle answer h hidle := by
    rw [commit_eq, outcome_body] at h ⊢
    exact eq_of_respond (fst_settle_eq_ok h) hidle
  sameAlias n choice p hcall hp hsame := by
    subst hcall
    rw [commit_eq, outcome_body, respond]
    cases hset : db.directory.setAlias n choice with
    | error => rfl
    | ok r =>
      show db.withDirectory r.2 = db
      rw [Directory.eq_of_setAlias_same hp hsame hset]
      rfl

/-! ### Half of a change -/

/-- A player with an account whose only friend has a record that is no text of ties. -/
def unreadableFriend : Database :=
  let ties : Ties := ⟨[⟨"r", by decide⟩], [], []⟩
  ⟨⟨(Table.empty.insert "q" ties.encode).insert "r" "?"⟩,
    Directory.empty.save (.fresh ⟨"q", by decide⟩)⟩

/-- Two calls that write before they fail: a renaming meets ties under the new name when the
    account has already moved, and a removal the record of the friend when the account is already
    gone.  Both leave everything as it was. -/
theorem atomic_unreadableFriend :
    let rename := Call.change (.rename ⟨"q", by decide⟩ ⟨"r", by decide⟩)
    let delete := Call.change (.delete ⟨"q", by decide⟩)
    ((rename.body.run unreadableFriend).2.hasPlayer ⟨"q", by decide⟩ = false ∧
      rename.body.commit unreadableFriend =
        (.error (.graph (.nameInUse ⟨"r", by decide⟩)), unreadableFriend)) ∧
    (delete.body.run unreadableFriend).2.hasPlayer ⟨"q", by decide⟩ = false ∧
      delete.body.commit unreadableFriend = (.error (.graph .corrupt), unreadableFriend) := by
  intro rename delete
  have hrename : (rename.body.commit unreadableFriend).1 =
      .error (.graph (.nameInUse ⟨"r", by decide⟩)) := by decide +kernel
  have hdelete : (delete.body.commit unreadableFriend).1 = .error (.graph .corrupt) := by
    decide +kernel
  refine ⟨⟨by decide +kernel, ?_⟩, by decide +kernel, ?_⟩
  · exact Prod.ext hrename ((atomic unreadableFriend rename).fails _ hrename)
  · exact Prod.ext hdelete ((atomic unreadableFriend delete).fails _ hdelete)

end Database

end Amity
