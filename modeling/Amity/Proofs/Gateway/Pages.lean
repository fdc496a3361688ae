/-
  Amity/Proofs/Gateway/Pages.lean
  ===============================
  **What a page answers, and what it changes.**  A page is asked about a text.  `Refusal` lists the
  causes for which pages refuse, in the order in which they count, and `Page.applies` says of the
  stored texts and nothing else whether a cause is there.  The status of the answer is that of the
  first cause that applies, and 200 when none does; a page that refuses changes nothing
  (`answers_page`), and neither does any other request that fails (`unchanged_of_failure`).

  Nothing is assumed about the records, the registry or the mailboxes, but that every name with a
  session is a player's: when there is no player to delete, the sessions under the name are ended
  all the same.
-/
import Amity.Gateway.Pages
import Amity.Proofs.Database.Transactions
import Amity.Proofs.Engine.Failures
import Amity.Proofs.Wire

namespace Amity.Gateway

/-! ## Pages -/

/-- A list of a player that can be looked at. -/
inductive Listing where
  | friends
  | sent
  | received
  deriving DecidableEq, Repr

def Listing.of : Listing → Ties → List Name
  | .friends, t => t.friends
  | .sent, t => t.sent
  | .received, t => t.received

def Listing.read : Listing → Graph → Name → Except GraphError (List Name)
  | .friends => Graph.friendsOf
  | .sent => Graph.pendingSent
  | .received => Graph.pendingReceived

theorem Listing.read_eq (l : Listing) (g : Graph) (n : Name) :
    l.read g n = (g.load n).map l.of := by
  cases l <;>
    simp only [read, Graph.friendsOf, Graph.pendingSent, Graph.pendingReceived] <;>
      cases g.load n <;> rfl

/-- A page that names a player, with the alias that is asked for. -/
inductive Page where
  | addPlayer
  | listing (l : Listing)
  | setAlias (choice : Option String)
  | deletePlayer
  deriving DecidableEq, Repr

namespace Page

def route (piece : String) : Page → Route
  | .addPlayer => .addPlayer piece
  | .listing .friends => .friends piece
  | .listing .sent => .sentRequests piece
  | .listing .received => .receivedRequests piece
  | .setAlias _ => .setAlias piece
  | .deletePlayer => .deletePlayer piece

def result (e : Engine) (text : String) : Page → PageResult
  | .addPlayer => Gateway.addPlayer e text
  | .listing l => showList e text l.read
  | .setAlias choice => Gateway.setAlias e text choice
  | .deletePlayer => Gateway.deletePlayer e text

end Page

/-- The request is for the page, and names the player by the text. -/
def Request.Asks (req : Request) (page : Page) (text : String) : Prop :=
  ∃ piece, Route.ofTarget? req.target = some (page.route piece) ∧
    (page.route piece).allows req.method = true ∧ Route.decodePiece? piece = some text ∧
    ∀ choice, page = .setAlias choice → aliasOfRequest req.contentType req.body = .ok choice

/-- What is sent back: everything but the body, when only that was asked for. -/
def Request.trimmed (req : Request) (outcome : Outcome) : Outcome :=
  if req.method = "HEAD" then withoutBody outcome else outcome

/-- Only a body is ever left out. -/
theorem Request.trimmed_answer (req : Request) (r : Response) :
    ∃ r', req.trimmed (.answer r) = .answer r' ∧ r'.status = r.status ∧
      (req.method = "GET" → r' = r) := by
  unfold trimmed
  split
  · next hhead =>
    refine ⟨{ r with body := if r.status = 200 then some "" else none }, rfl, rfl, fun hget => ?_⟩
    rw [hhead] at hget
    exact absurd hget (by decide)
  · exact ⟨r, rfl, rfl, fun _ => rfl⟩

theorem respond_of_asks {e : Engine} {req : Request} {page : Page} {text : String}
    (hasks : req.Asks page text) :
    respond e req = (req.trimmed (answerResult (page.result e text)).1,
      (answerResult (page.result e text)).2) := by
  obtain ⟨piece, htarget, hallows, hpiece, halias⟩ := hasks
  have hnamed : answerRoute e req (page.route piece) =
      answerNamed e req text (page.route piece) := by
    cases page with
    | listing l => cases l <;> simp [answerRoute, Page.route, refusedUpgrade?, Route.piece?, hpiece]
    | _ => simp [answerRoute, Page.route, refusedUpgrade?, Route.piece?, hpiece]
  have hroute : answerRoute e req (page.route piece) = answerResult (page.result e text) := by
    rw [hnamed]
    cases page with
    | addPlayer => rfl
    | listing l => cases l <;> rfl
    | setAlias choice =>
      simp only [Page.route, answerNamed, halias choice rfl]
      rfl
    | deletePlayer => rfl
  simp only [respond, htarget, hallows, if_true, hroute]
  rfl

theorem page_or_unchanged (e : Engine) (req : Request) (text : String) {r : Route}
    {piece : String} (hpiece : r.piece? = some piece) :
    (∃ page : Page, r = page.route piece ∧
      ∀ choice, page = .setAlias choice → aliasOfRequest req.contentType req.body = .ok choice) ∨
    (answerNamed e req text r).2 = e := by
  cases r with
  | root => cases hpiece
  | socket => exact Or.inr rfl
  | addPlayer => cases hpiece; exact Or.inl ⟨.addPlayer, rfl, nofun⟩
  | friends => cases hpiece; exact Or.inl ⟨.listing .friends, rfl, nofun⟩
  | sentRequests => cases hpiece; exact Or.inl ⟨.listing .sent, rfl, nofun⟩
  | receivedRequests => cases hpiece; exact Or.inl ⟨.listing .received, rfl, nofun⟩
  | deletePlayer => cases hpiece; exact Or.inl ⟨.deletePlayer, rfl, nofun⟩
  | setAlias =>
    cases hpiece
    cases halias : aliasOfRequest req.contentType req.body with
    | error b => exact Or.inr (by simp [answerNamed, halias])
    | ok choice =>
      refine Or.inl ⟨.setAlias choice, rfl, ?_⟩
      rintro _ ⟨⟩
      rfl

/-- A request that does not get as far as such a page is turned away. -/
theorem asks_or_unchanged (e : Engine) (req : Request) :
    (∃ page text, req.Asks page text) ∨ (respond e req).2 = e := by
  cases htarget : Route.ofTarget? req.target with
  | none => exact Or.inr (by rw [respond, htarget])
  | some r =>
    cases hallows : r.allows req.method with
    | false => exact Or.inr (by simp [respond, htarget, hallows])
    | true =>
      have hrespond : (respond e req).2 = (answerRoute e req r).2 := by
        simp [respond, htarget, hallows]
      rw [hrespond, answerRoute]
      cases refusedUpgrade? req r with
      | some status => exact Or.inr rfl
      | none =>
        cases hpiece : r.piece? with
        | none => exact Or.inr rfl
        | some piece =>
          cases hdecode : Route.decodePiece? piece with
          | none => exact Or.inr (by simp [hdecode])
          | some text =>
            simp only [hdecode]
            rcases page_or_unchanged e req text hpiece with ⟨page, rfl, halias⟩ | hsame
            · exact Or.inl ⟨page, text, piece, htarget, hallows, hdecode, halias⟩
            · exact Or.inr hsame

/-! ## Causes -/

/-- Why a page refuses. -/
inductive Refusal where
  | invalidName
  | nameTaken
  | noSuchPlayer
  | invalidAlias
  /-- A record that the page needs is a text that cannot be read. -/
  | unreadable
  | aliasTaken
  deriving DecidableEq, Repr

namespace Refusal

/-- The causes, the one that counts first at the front. -/
def inOrder : List Refusal :=
  [.invalidName, .nameTaken, .noSuchPlayer, .invalidAlias, .unreadable, .aliasTaken]

def status : Refusal → Nat
  | .invalidName => 400
  | .nameTaken => 409
  | .noSuchPlayer => 404
  | .invalidAlias => 400
  | .unreadable => 500
  | .aliasTaken => 409

theorem le_status (cause : Refusal) : 400 ≤ cause.status := by
  cases cause <;> decide

theorem elim_status_eq_iff {r : Option Refusal} : r.elim 200 status = 200 ↔ r = none := by
  cases r with
  | none => simp
  | some cause =>
    have hcause := cause.le_status
    simp only [Option.elim_some, reduceCtorEq, iff_false]
    omega

end Refusal

/-- Whether there is a text under the key that cannot be read. -/
def isUnreadable {α : Type} (t : Tree) (decode? : String → Option α) (key : String) : Bool :=
  (t.find? key).any fun text => (decode? text).isNone

/-- Whether the record under the key is that of an account with the alias. -/
def hasAlias (d : Directory) (key a : String) : Bool :=
  ((d.profiles.find? key).bind Profile.decode?).any fun p => p.aliasName = some a

/-- The players at the other end of the ties under the key. -/
def peersAt (g : Graph) (key : String) : List Name :=
  (((g.records.find? key).bind Ties.decode?).map Ties.peers).getD []

namespace Page

/-- The alias that is asked for; the empty text asks for none. -/
def alias? : Page → Option String
  | .setAlias choice => choice.filter (· ≠ "")
  | _ => none

/-- Whether a record that the page needs cannot be read.  To delete a player takes the records of
    all peers. -/
def cannotRead (db : Database) (text : String) : Page → Bool
  | .addPlayer => false
  | .listing _ => isUnreadable db.graph.records Ties.decode? text
  | .setAlias _ => isUnreadable db.directory.profiles Profile.decode? text
  | .deletePlayer =>
    isUnreadable db.directory.profiles Profile.decode? text ||
      isUnreadable db.graph.records Ties.decode? text ||
      (peersAt db.graph text).any fun p => isUnreadable db.graph.records Ties.decode? p.text

/-- Whether there is this cause to refuse. -/
def applies (db : Database) (text : String) (page : Page) : Refusal → Bool
  | .invalidName => !Name.isValid text
  | .nameTaken => page = .addPlayer && db.directory.profiles.contains text
  | .noSuchPlayer => page ≠ .addPlayer && !db.directory.profiles.contains text
  | .invalidAlias => page.alias?.any fun a => !Name.isValid a
  | .unreadable => page.cannotRead db text
  | .aliasTaken => page.alias?.any fun a =>
      db.directory.aliases.contains a && !hasAlias db.directory text a

/-- The first cause that applies. -/
def refusal? (db : Database) (text : String) (page : Page) : Option Refusal :=
  Refusal.inOrder.find? (page.applies db text)

end Page

theorem isUnreadable_iff {α : Type} {t : Tree} {decode? : String → Option α} {key : String} :
    isUnreadable t decode? key = true ↔ ∃ text, t.find? key = some text ∧ decode? text = none := by
  simp [isUnreadable, Option.any_eq_true]

theorem hasAlias_iff {d : Directory} {key a : String} :
    hasAlias d key a = true ↔ d.Holds key a := by
  simp only [hasAlias, Directory.Holds, Option.any_eq_true, Option.bind_eq_some_iff,
    decide_eq_true_eq]
  constructor
  · rintro ⟨p, ⟨text, hfind, hdecode⟩, ha⟩
    exact ⟨text, p, hfind, hdecode, ha⟩
  · rintro ⟨text, p, hfind, hdecode, ha⟩
    exact ⟨p, ⟨text, hfind, hdecode⟩, ha⟩

theorem peersAt_text (g : Graph) (n : Name) : peersAt g n.text = (g.ties n).peers := by
  unfold peersAt Graph.ties Graph.load
  cases g.records.find? n.text with
  | none => rfl
  | some text =>
    cases hdecode : Ties.decode? text with
    | none => simp [hdecode, Ties.peers, Ties.empty, Ties.firstOccurrences]
    | some t => simp [hdecode]

/-! ## What a page ends with -/

/-- The engine with another player, who has no alias. -/
def withPlayer (e : Engine) (n : Name) : Engine :=
  let directory := { e.database.directory with
    profiles := e.database.directory.profiles.insert n.text (Profile.fresh n).encode }
  { e with database := { e.database with directory } }

/-- What a page ends with when it is asked about a text. -/
inductive Page.Ends (e : Engine) (text : String) : Page → PageResult → Prop where
  /-- A page that refuses leaves everything as it was. -/
  | refused {page : Page} {cause : Refusal} {f : Failure}
      (hfirst : page.refusal? e.database text = some cause) (hstatus : f.status = cause.status) :
      Ends e text page (.error f, e)
  | added {n : Name} (hn : n.text = text)
      (hnone : Page.addPlayer.refusal? e.database text = none) :
      Ends e text .addPlayer (.ok (Profile.fresh n).encode, withPlayer e n)
  | shown {l : Listing} {n : Name} {t : Ties} (hn : n.text = text)
      (hnone : (Page.listing l).refusal? e.database text = none)
      (hload : e.database.graph.load n = .ok t) :
      Ends e text (.listing l) (.ok (Name.listToJson (l.of t)).write, e)
  | aliasSet {choice : Option String} {n : Name} {p : Profile} {d : Directory} (hn : n.text = text)
      (hnone : (Page.setAlias choice).refusal? e.database text = none)
      (hset : e.database.directory.setAlias n choice = .ok (p, d)) :
      Ends e text (.setAlias choice)
        (.ok p.encode, { e with database := e.database.withDirectory d })
  | deleted {n : Name} {e' : Engine} (hn : n.text = text)
      (hnone : Page.deletePlayer.refusal? e.database text = none)
      (hdelete : e.deletePlayer n = .ok (true, e')) :
      Ends e text .deletePlayer (.ok "", e')

section

variable {e : Engine}

theorem nameOf_text (n : Name) : nameOf n.text = .ok n := by
  simp [nameOf, Name.parse, Except.mapError]

theorem knownPlayer_text (n : Name) :
    knownPlayer e n.text =
      if e.database.directory.has n then .ok n else .error (.unknownPlayer n.text) := by
  rw [knownPlayer, nameOf_text]
  rfl

/-! ### What each page does for a name -/

theorem Page.result_addPlayer (n : Name) :
    Page.addPlayer.result e n.text =
      match e.database.directory.create n with
      | .ok (p, d) => (.ok p.encode, { e with database := e.database.withDirectory d })
      | .error err => (.error (.store (.directory err)), e) := by
  rw [result, Gateway.addPlayer, nameOf_text, ok_bind]
  cases e.database.directory.create n <;> rfl

theorem Page.result_listing (l : Listing) {n : Name} (hhas : e.database.directory.has n = true) :
    (Page.listing l).result e n.text =
      match e.database.graph.load n with
      | .ok t => (.ok (Name.listToJson (l.of t)).write, e)
      | .error err => (.error (.store (.graph err)), e) := by
  rw [result, showList, knownPlayer_text, hhas, if_pos rfl, ok_bind, l.read_eq]
  cases e.database.graph.load n <;> rfl

theorem Page.result_setAlias (choice : Option String) {n : Name}
    (hhas : e.database.directory.has n = true) :
    (Page.setAlias choice).result e n.text =
      match e.database.directory.setAlias n choice with
      | .ok (p, d) => (.ok p.encode, { e with database := e.database.withDirectory d })
      | .error err => (.error (.store (.directory err)), e) := by
  rw [result, Gateway.setAlias, knownPlayer_text, hhas, if_pos rfl, ok_bind]
  cases e.database.directory.setAlias n choice <;> rfl

theorem Page.result_deletePlayer (n : Name) :
    Page.deletePlayer.result e n.text =
      match e.deletePlayer n with
      | .ok (existed, e') => (if existed then .ok "" else .error (.unknownPlayer n.text), e')
      | .error err => (.error (.store err), e) := by
  simp only [result, Gateway.deletePlayer, nameOf_text]
  cases e.deletePlayer n <;> rfl

/-! ### What each page ends with -/

theorem Page.ends_of_invalid {text : String} (h : Name.isValid text = false) (page : Page) :
    page.Ends e text (page.result e text) := by
  have hname : nameOf text = .error (.request (.invalidName text)) := by
    simp [nameOf, Name.parse, Name.parse?_eq_none_iff.2 h, Except.mapError]
  have hfirst : page.refusal? e.database text = some .invalidName := by
    simp [refusal?, Refusal.inOrder, applies, h]
  have hresult : page.result e text = (.error (.request (.invalidName text)), e) := by
    cases page <;>
      simp [result, Gateway.addPlayer, showList, Gateway.setAlias, Gateway.deletePlayer,
        knownPlayer, hname, transaction, bind, Except.bind]
  rw [hresult]
  exact .refused hfirst rfl

theorem Page.ends_addPlayer (n : Name) :
    Page.addPlayer.Ends e n.text (Page.addPlayer.result e n.text) := by
  rw [result_addPlayer, Directory.create]
  cases hhas : e.database.directory.has n with
  | true =>
    have hused : e.database.directory.profiles.contains n.text = true := hhas
    have hfirst : Page.addPlayer.refusal? e.database n.text = some .nameTaken := by
      simp [refusal?, Refusal.inOrder, applies, n.valid, hused]
    exact .refused hfirst rfl
  | false =>
    have hunused : e.database.directory.profiles.contains n.text = false := hhas
    have hnone : Page.addPlayer.refusal? e.database n.text = none := by
      simp [refusal?, Refusal.inOrder, applies, n.valid, hunused, alias?, cannotRead]
    exact .added rfl hnone

theorem Page.ends_of_absent {page : Page} (hpage : page ≠ .addPlayer) {n : Name}
    (hhas : e.database.directory.has n = false) (hoffline : e.presence.isOnline n = false) :
    page.Ends e n.text (page.result e n.text) := by
  have hunused : e.database.directory.profiles.contains n.text = false := hhas
  have hfirst : page.refusal? e.database n.text = some .noSuchPlayer := by
    simp [refusal?, Refusal.inOrder, applies, n.valid, hunused, hpage]
  -- the sessions under the name are ended without regard to the answer; there are none
  have hdelete : e.deletePlayer n = .ok (false, e) := by
    have hnobody : e.database.delete n = .ok none := by
      rw [Database.delete_eq_ok_none_iff, Directory.delete]
      rcases e.database.directory.find?_cases n with ⟨heq, -⟩ | ⟨-, htrue, -⟩ | ⟨p, -, htrue, -⟩
      · rw [heq]
        rfl
      · cases hhas.symm.trans htrue
      · cases hhas.symm.trans htrue
    simp [Engine.deletePlayer, hnobody, Presence.evict_of_offline hoffline, bind, Except.bind,
      pure, Except.pure]
  have hresult : page.result e n.text = (.error (.unknownPlayer n.text), e) := by
    cases page with
    | addPlayer => exact absurd rfl hpage
    | deletePlayer => simp [result_deletePlayer, hdelete]
    | listing l =>
      rw [result, showList, knownPlayer_text, hhas]
      rfl
    | setAlias choice =>
      rw [result, Gateway.setAlias, knownPlayer_text, hhas]
      rfl
  rw [hresult]
  exact .refused hfirst rfl

/-- The name is a player's, so what is left is the alias, the records and the index. -/
theorem Page.refusal?_of_player (page : Page) (hpage : page ≠ .addPlayer) {n : Name}
    (hhas : e.database.directory.has n = true) :
    page.refusal? e.database n.text =
      [.invalidAlias, .unreadable, .aliasTaken].find? (page.applies e.database n.text) := by
  have hused : e.database.directory.profiles.contains n.text = true := hhas
  simp [refusal?, Refusal.inOrder, applies, n.valid, hused, hpage]

theorem Page.ends_listing (l : Listing) {n : Name} (hhas : e.database.directory.has n = true) :
    (Page.listing l).Ends e n.text ((Page.listing l).result e n.text) := by
  have hrefusal := refusal?_of_player (.listing l) nofun hhas
  rw [result_listing l hhas]
  rcases e.database.graph.load_cases n with ⟨hunreadable, hload⟩ | ⟨hreadable, hload⟩
  · have hrecord := isUnreadable_iff.2 hunreadable
    have hfirst : (Page.listing l).refusal? e.database n.text = some .unreadable := by
      simp [hrefusal, applies, alias?, cannotRead, hrecord]
    rw [hload]
    exact .refused hfirst rfl
  · have hrecord := mt isUnreadable_iff.1 hreadable
    have hnone : (Page.listing l).refusal? e.database n.text = none := by
      simp [hrefusal, applies, alias?, cannotRead, hrecord]
    rw [hload]
    exact .shown rfl hnone hload

/-- The alias that is asked for is no name, or it is the one that is wanted. -/
theorem wantedAlias_cases (choice : Option String) :
    (∃ a, (Page.setAlias choice).alias? = some a ∧ Name.isValid a = false ∧
      Directory.wantedAlias choice = .error (.invalidAlias a)) ∨
    (((Page.setAlias choice).alias?.any fun a => !Name.isValid a) = false ∧
      Directory.wantedAlias choice = .ok (Page.setAlias choice).alias?) := by
  cases choice with
  | none => exact Or.inr ⟨rfl, rfl⟩
  | some a =>
    by_cases hempty : a = ""
    · subst hempty
      exact Or.inr ⟨rfl, rfl⟩
    · have halias : (Page.setAlias (some a)).alias? = some a := by
        simp [Page.alias?, Option.filter, hempty]
      cases hvalid : Name.isValid a <;> simp [Directory.wantedAlias, halias, hempty, hvalid]

section

variable {n : Name} {choice : Option String} (hhas : e.database.directory.has n = true)
include hhas

theorem Page.ends_of_setAlias_error {err : DirectoryError} {cause : Refusal}
    (hset : e.database.directory.setAlias n choice = .error err)
    (hfirst : (Page.setAlias choice).refusal? e.database n.text = some cause)
    (hstatus : (Failure.store (.directory err)).status = cause.status) :
    (Page.setAlias choice).Ends e n.text ((Page.setAlias choice).result e n.text) := by
  rw [result_setAlias choice hhas, hset]
  exact .refused hfirst hstatus

theorem Page.ends_of_setAlias_ok {r : Profile × Directory}
    (hset : e.database.directory.setAlias n choice = .ok r)
    (hnone : (Page.setAlias choice).refusal? e.database n.text = none) :
    (Page.setAlias choice).Ends e n.text ((Page.setAlias choice).result e n.text) := by
  rw [result_setAlias choice hhas, hset]
  exact .aliasSet rfl hnone hset

/-- The account can be read and the alias is acceptable, so only the index can be against it. -/
theorem Page.ends_setAlias_of_account {p : Profile} {wanted : Option String}
    (hfind : e.database.directory.find? n = .ok (some p))
    (hwanted : Directory.wantedAlias choice = .ok wanted)
    (hfirst : (Page.setAlias choice).refusal? e.database n.text =
      if wanted.any fun a =>
        e.database.directory.aliases.contains a && !hasAlias e.database.directory n.text a
      then some .aliasTaken
      else none) :
    (Page.setAlias choice).Ends e n.text ((Page.setAlias choice).result e n.text) := by
  have hown : ∀ a, hasAlias e.database.directory n.text a = true ↔ p.aliasName = some a := by
    intro a
    simp [hasAlias_iff, Directory.holds_text_iff, Directory.profile?, hfind]
  have hset : e.database.directory.setAlias n choice =
      if p.aliasName = wanted then .ok (p, e.database.directory) else do
        let claimed ← e.database.directory.claimFree n wanted
        let changed := { p with aliasName := wanted }
        return (changed, (claimed.freeAlias p.aliasName).save changed) := by
    rw [Directory.setAlias, hwanted, ok_bind, Directory.load_eq_ok hfind]
    rfl
  by_cases hsame : p.aliasName = wanted
  · refine ends_of_setAlias_ok hhas (hset.trans (if_pos hsame)) ?_
    cases wanted <;> simp [hfirst, hown, hsame]
  rw [if_neg hsame] at hset
  cases wanted with
  | none => exact ends_of_setAlias_ok hhas hset hfirst
  | some a =>
    cases htaken : e.database.directory.aliases.contains a with
    | true =>
      have hrefused : e.database.directory.setAlias n choice = .error (.aliasTaken a) := by
        simp [hset, Directory.claimFree, htaken, bind, Except.bind]
      have hcause : (Page.setAlias choice).refusal? e.database n.text = some .aliasTaken := by
        simp [hfirst, htaken, hown, hsame]
      exact ends_of_setAlias_error hhas hrefused hcause rfl
    | false =>
      have hclaim : e.database.directory.claimFree n (some a) =
          .ok (e.database.directory.claimAlias a n) := by
        simp [Directory.claimFree, htaken]
      rw [hclaim, ok_bind] at hset
      exact ends_of_setAlias_ok hhas hset (by simp [hfirst, htaken])

theorem Page.ends_setAlias (choice : Option String) :
    (Page.setAlias choice).Ends e n.text ((Page.setAlias choice).result e n.text) := by
  have hrefusal := refusal?_of_player (.setAlias choice) nofun hhas
  -- the alias is checked before any record is read, and the index is looked at last
  rcases wantedAlias_cases choice with ⟨a, halias, hinvalid, hwanted⟩ | ⟨hvalid, hwanted⟩
  · have hset : e.database.directory.setAlias n choice = .error (.invalidAlias a) := by
      rw [Directory.setAlias, hwanted]
      rfl
    have hfirst : (Page.setAlias choice).refusal? e.database n.text = some .invalidAlias := by
      simp [hrefusal, applies, halias, hinvalid]
    exact ends_of_setAlias_error hhas hset hfirst rfl
  rcases e.database.directory.find?_cases n with
    ⟨-, hfalse, -⟩ | ⟨hfind, -, hunreadable⟩ | ⟨p, hfind, -, hreadable, -⟩
  · cases hhas.symm.trans hfalse
  · have hrecord := isUnreadable_iff.2 hunreadable
    have hset : e.database.directory.setAlias n choice = .error .corrupt := by
      rw [Directory.setAlias, hwanted, Directory.load, hfind]
      rfl
    have hfirst : (Page.setAlias choice).refusal? e.database n.text = some .unreadable := by
      simp [hrefusal, applies, hvalid, cannotRead, hrecord]
    exact ends_of_setAlias_error hhas hset hfirst rfl
  · have hrecord := mt isUnreadable_iff.1 hreadable
    refine ends_setAlias_of_account hhas hfind hwanted ?_
    simp [hrefusal, applies, hvalid, cannotRead, hrecord]
    rfl

end

/-! ### Deleting a player -/

theorem status_of_deletePlayer {n : Name} {err : StoreError}
    (hdelete : e.deletePlayer n = .error err) : (Failure.store err).status = 500 := by
  have hstore : e.database.delete n = .error err := by
    unfold Engine.deletePlayer at hdelete
    cases hr : e.database.delete n with
    | error err' => simpa [hr, bind, Except.bind] using hdelete
    | ok r => cases r <;> simp [hr, bind, Except.bind, pure, Except.pure] at hdelete
  unfold Database.delete Directory.delete at hstore
  rcases e.database.directory.find?_cases n with ⟨heq, -⟩ | ⟨heq, -⟩ | ⟨p, heq, -⟩
  · simp [heq, bind, Except.bind, pure, Except.pure] at hstore
  · simp [heq, bind, Except.bind] at hstore
    subst hstore
    rfl
  · cases hpurge : e.database.graph.purge n with
    | error err' =>
      simp [heq, hpurge, bind, Except.bind, pure, Except.pure] at hstore
      subst hstore
      rfl
    | ok r => simp [heq, hpurge, bind, Except.bind, pure, Except.pure] at hstore

theorem existed_of_deletePlayer {n : Name} {existed : Bool} {e' : Engine}
    (hhas : e.database.directory.has n = true) (hdelete : e.deletePlayer n = .ok (existed, e')) :
    existed = true := by
  unfold Engine.deletePlayer at hdelete
  cases hstore : e.database.delete n with
  | error err => simp [hstore, bind, Except.bind] at hdelete
  | ok r =>
    cases r with
    | none =>
      have hfree := Directory.delete_eq_ok (Database.delete_eq_ok_none_iff.1 hstore)
      cases hhas.symm.trans hfree
    | some r =>
      simp [hstore, bind, Except.bind, pure, Except.pure] at hdelete
      exact hdelete.1

theorem Page.cannotRead_deletePlayer_iff {n : Name} (hhas : e.database.directory.has n = true) :
    Page.deletePlayer.cannotRead e.database n.text = true ↔ Fails (e.deletePlayer n) := by
  have hplayer : e.database.hasPlayer n = true := hhas
  rw [Engine.fails_deletePlayer, Database.fails_attempt]
  simp only [cannotRead, peersAt_text, Bool.or_eq_true, List.any_eq_true, isUnreadable_iff,
    Database.Obstructed, hplayer, true_and, Graph.Obstructed, or_assoc]
  rfl

theorem Page.ends_deletePlayer {n : Name} (hhas : e.database.directory.has n = true) :
    Page.deletePlayer.Ends e n.text (Page.deletePlayer.result e n.text) := by
  have hrefusal := refusal?_of_player .deletePlayer nofun hhas
  have hcannot := cannotRead_deletePlayer_iff hhas
  rw [result_deletePlayer]
  cases hdelete : e.deletePlayer n with
  | error err =>
    rw [hdelete] at hcannot
    have hfirst : Page.deletePlayer.refusal? e.database n.text = some .unreadable := by
      simp [hrefusal, applies, alias?, hcannot]
    exact .refused hfirst (status_of_deletePlayer hdelete)
  | ok r =>
    obtain ⟨existed, e'⟩ := r
    obtain rfl := existed_of_deletePlayer hhas hdelete
    rw [hdelete] at hcannot
    have hnone : Page.deletePlayer.refusal? e.database n.text = none := by
      simp [hrefusal, applies, alias?, hcannot]
    exact .deleted rfl hnone hdelete

/-! ### Every page -/

theorem Page.ends {page : Page} {text : String}
    (hattached : ∀ n, e.presence.isOnline n = true → e.hasPlayer n = true) :
    page.Ends e text (page.result e text) := by
  cases hvalid : Name.isValid text with
  | false => exact ends_of_invalid hvalid page
  | true =>
    obtain ⟨n, rfl⟩ : ∃ n : Name, n.text = text := ⟨⟨text, hvalid⟩, rfl⟩
    by_cases hpage : page = .addPlayer
    · subst hpage
      exact ends_addPlayer n
    cases hhas : e.database.directory.has n with
    | false =>
      have hoffline : e.presence.isOnline n = false := by
        by_contra honline
        rw [Bool.not_eq_false] at honline
        cases hhas.symm.trans (hattached n honline)
      exact ends_of_absent hpage hhas hoffline
    | true =>
      cases page with
      | addPlayer => exact absurd rfl hpage
      | listing l => exact ends_listing l hhas
      | setAlias choice => exact ends_setAlias hhas choice
      | deletePlayer => exact ends_deletePlayer hhas

end

section

variable {e : Engine} {page : Page} {text : String} {r : PageResult}

theorem Page.Ends.answerResult_eq (h : page.Ends e text r) :
    ∃ resp, answerResult r = (.answer resp, r.2) ∧
      resp.status = (page.refusal? e.database text).elim 200 Refusal.status := by
  cases h with
  | refused hfirst hstatus =>
    rw [hfirst]
    exact ⟨_, rfl, hstatus⟩
  | added _ hnone | shown _ hnone | aliasSet _ hnone | deleted _ hnone =>
    rw [hnone]
    exact ⟨_, rfl, rfl⟩

theorem Page.Ends.unchanged (h : page.Ends e text r)
    (hrefused : page.refusal? e.database text ≠ none) : r.2 = e := by
  cases h with
  | refused => rfl
  | _ => exact absurd ‹_› hrefused

theorem Page.Ends.shows {l : Listing} (h : (Page.listing l).Ends e text r)
    (hnone : (Page.listing l).refusal? e.database text = none) :
    ∃ n t, n.text = text ∧ e.database.graph.load n = .ok t ∧
      r = (.ok (Name.listToJson (l.of t)).write, e) := by
  cases h with
  | refused hfirst => cases hnone.symm.trans hfirst
  | shown hn _ hload => exact ⟨_, _, hn, hload, rfl⟩

theorem Page.Ends.setsAlias {choice : Option String} (h : (Page.setAlias choice).Ends e text r)
    (hnone : (Page.setAlias choice).refusal? e.database text = none) :
    ∃ n p d, n.text = text ∧ e.database.directory.setAlias n choice = .ok (p, d) ∧
      r = (.ok p.encode, { e with database := e.database.withDirectory d }) := by
  cases h with
  | refused hfirst => cases hnone.symm.trans hfirst
  | aliasSet hn _ hset => exact ⟨_, _, _, hn, hset, rfl⟩

theorem Page.Ends.deletes (h : Page.deletePlayer.Ends e text r)
    (hnone : Page.deletePlayer.refusal? e.database text = none) :
    ∃ n, n.text = text ∧ e.deletePlayer n = .ok (true, r.2) := by
  cases h with
  | refused hfirst => cases hnone.symm.trans hfirst
  | deleted hn _ hdelete => exact ⟨_, hn, hdelete⟩

theorem Page.Ends.adds (h : Page.addPlayer.Ends e text r)
    (hnone : Page.addPlayer.refusal? e.database text = none) :
    ∃ n, n.text = text ∧ r = (.ok (Profile.fresh n).encode, withPlayer e n) := by
  cases h with
  | refused hfirst => cases hnone.symm.trans hfirst
  | added hn => exact ⟨_, hn, rfl⟩

end

/-! ## What is answered -/

/-- What a request for a page is answered, and what it leaves. -/
structure Page.Answers (page : Page) (e : Engine) (req : Request) (text : String)
    (resp : Response) (e' : Engine) : Prop where
  /-- The status is that of the first cause to refuse. -/
  status : resp.status = (page.refusal? e.database text).elim 200 Refusal.status
  /-- An answer that reports a failure leaves everything as it was, -/
  untouched : 400 ≤ resp.status → e' = e
  /-- and so does a look at a list.  The body is the list that is stored. -/
  views : ∀ l, page = .listing l → e' = e ∧
    (resp.status = 200 → ∃ n t, n.text = text ∧ e.database.graph.load n = .ok t ∧
      (req.method = "GET" →
        (resp.body.bind Json.read?).bind Name.listOfJson? = some (l.of t)))
  /-- A name that is valid and unused can be added, and that is all that happens. -/
  adds : page = .addPlayer →
    (resp.status = 200 ↔
      Name.isValid text = true ∧ e.database.directory.profiles.contains text = false) ∧
    (resp.status = 200 → ∃ n, n.text = text ∧ e' = withPlayer e n)
  /-- What the other pages change is what the change of the records is. -/
  setsAlias : ∀ choice, page = .setAlias choice → resp.status = 200 →
    ∃ n p d, n.text = text ∧ e.database.directory.setAlias n choice = .ok (p, d) ∧
      e' = { e with database := e.database.withDirectory d }
  deletes : page = .deletePlayer → resp.status = 200 →
    ∃ n, n.text = text ∧ e.deletePlayer n = .ok (true, e')

theorem Page.refusal?_addPlayer_eq_none_iff {db : Database} {text : String} :
    Page.addPlayer.refusal? db text = none ↔
      Name.isValid text = true ∧ db.directory.profiles.contains text = false := by
  simp [refusal?, Refusal.inOrder, applies, alias?, cannotRead]

/-- A list of names is read from its text. -/
theorem read?_listToJson (ns : List Name) :
    (Json.read? (Name.listToJson ns).write).bind Name.listOfJson? = some ns := by
  have hdepth := Nat.le_trans (Name.depth_listToJson ns) (by decide : 1 ≤ Json.maxDepth)
  rw [Json.read?_write (Name.isTextual_listToJson ns) hdepth]
  exact Name.listOfJson?_listToJson ns

/-- **A page that refuses changes nothing**, and why it refuses can be told from the records. -/
theorem answers_page {e : Engine} {req : Request} {page : Page} {text : String}
    (hasks : req.Asks page text)
    (hattached : ∀ n, e.presence.isOnline n = true → e.hasPlayer n = true) :
    ∃ resp e', respond e req = (.answer resp, e') ∧ page.Answers e req text resp e' := by
  have hends : page.Ends e text (page.result e text) := Page.ends hattached
  obtain ⟨r, hresult, hstatus⟩ := hends.answerResult_eq
  obtain ⟨resp, htrimmed, hsame, hbody⟩ := req.trimmed_answer r
  rw [respond_of_asks hasks, hresult, htrimmed]
  refine ⟨resp, _, rfl, ?_⟩
  rw [← hsame] at hstatus
  have hok : resp.status = 200 ↔ page.refusal? e.database text = none := by
    rw [hstatus, Refusal.elim_status_eq_iff]
  refine ⟨hstatus, fun herror => hends.unchanged fun hnone => ?_, ?_, ?_, ?_, ?_⟩
  · have := hok.2 hnone
    omega
  · rintro l rfl
    by_cases hnone : (Page.listing l).refusal? e.database text = none
    · obtain ⟨n, t, hn, hload, hshown⟩ := hends.shows hnone
      rw [hshown] at hresult
      cases hresult
      refine ⟨congrArg Prod.snd hshown, fun _ => ⟨n, t, hn, hload, fun hget => ?_⟩⟩
      rw [hbody hget]
      exact read?_listToJson (l.of t)
    · exact ⟨hends.unchanged hnone, fun h => absurd (hok.1 h) hnone⟩
  · rintro rfl
    refine ⟨hok.trans Page.refusal?_addPlayer_eq_none_iff, fun h => ?_⟩
    obtain ⟨n, hn, hadded⟩ := hends.adds (hok.1 h)
    exact ⟨n, hn, congrArg Prod.snd hadded⟩
  · rintro choice rfl h
    obtain ⟨n, p, d, hn, hset, hchanged⟩ := hends.setsAlias (hok.1 h)
    exact ⟨n, p, d, hn, hset, congrArg Prod.snd hchanged⟩
  · rintro rfl h
    exact hends.deletes (hok.1 h)

/-- A player whose friend has a record that cannot be read is not deleted, and keeps the session. -/
theorem answers_page_unreadableFriend :
    let req : Request := ⟨"POST", "/q/private/post/delete", "", none, false⟩
    req.Asks .deletePlayer "q" ∧
      (∀ n, Engine.unreadableFriend.presence.isOnline n = true →
        Engine.unreadableFriend.hasPlayer n = true) ∧
      ∃ resp, respond Engine.unreadableFriend req = (.answer resp, Engine.unreadableFriend) ∧
        resp.status = 500 := by
  intro req
  have hasks : req.Asks .deletePlayer "q" :=
    ⟨"q", by decide +kernel, by decide +kernel, by decide +kernel, nofun⟩
  have hattached : ∀ n, Engine.unreadableFriend.presence.isOnline n = true →
      Engine.unreadableFriend.hasPlayer n = true := by
    intro n hn
    have hgroups : Engine.unreadableFriend.presence.groups =
        Table.empty.insert ⟨"q", Name.isValid_q⟩ [⟨⟨0⟩, .connected⟩] := rfl
    by_cases hq : n = ⟨"q", Name.isValid_q⟩
    · subst hq
      decide +kernel
    · simp [Presence.isOnline, hgroups, Table.contains, Table.find?_insert, hq] at hn
  obtain ⟨resp, e', hrespond, hanswers⟩ := answers_page hasks hattached
  have hstatus : resp.status = 500 := hanswers.status.trans (by decide +kernel)
  obtain rfl := hanswers.untouched (by rw [hstatus]; decide)
  exact ⟨hasks, hattached, resp, hrespond, hstatus⟩

/-- **A failure changes nothing**, whatever the request was for. -/
theorem unchanged_of_failure {e e' : Engine} {req : Request} {resp : Response}
    (hattached : ∀ n, e.presence.isOnline n = true → e.hasPlayer n = true)
    (hrespond : respond e req = (.answer resp, e')) (hfailure : 400 ≤ resp.status) : e' = e := by
  rcases asks_or_unchanged e req with ⟨page, text, hasks⟩ | hsame
  · have hends : page.Ends e text (page.result e text) := Page.ends hattached
    obtain ⟨r, hresult, hstatus⟩ := hends.answerResult_eq
    obtain ⟨resp', htrimmed, hsame, -⟩ := req.trimmed_answer r
    rw [respond_of_asks hasks, hresult, htrimmed] at hrespond
    cases hrespond
    refine hends.unchanged fun hnone => ?_
    rw [← hsame, hnone] at hstatus
    have : resp.status = 200 := hstatus
    omega
  · rw [hrespond] at hsame
    exact hsame

end Amity.Gateway
