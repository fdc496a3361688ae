/-
  Amity/Proofs/System/Following.lean
  ==================================
  **Whether a client can follow its own name.**  A client follows a renaming whose old name it has.
  In a run in which no name comes back and no notice is refused, the last renaming it has been told
  when nothing waits leads to the name of its player.  But it has been told of all of them, one after
  the other, only if its session was never ahead of it.

  A command takes the session to its present name at once.  If the client has still to be told of one
  renaming, the session tells it when it reads the notice, since that one leads to the name it has.
  If it is two or more, only the last one does, and the others are passed over; and if the command is
  itself a renaming, all of them are (`Skips`).  From then on the client is left with a name that is
  nobody's (`Lost`).
-/
import Amity.Proofs.System.Ledger
import Amity.Proofs.System.Overtaking
import Amity.Proofs.System.Telling

namespace Amity

/-- Who gets a name by a change of accounts. -/
def AccountChange.named? : AccountChange → Option Name
  | .opens n => some n
  | .renames _ new => some new
  | _ => none

namespace System

/-! ## What a client can follow -/

/-- A command of the session takes it past renamings that its client has still to be told: it leaves
    at most one of them, and none when the client is told a newer one at once. -/
structure Skips (sys : System) (a : Action) (c : Connection) : Prop where
  asks : ∃ command, a = .command c command
  passes : 2 ≤ (sys.untold c).length ∨ sys.untold c ≠ [] ∧ sys.told c a ≠ []

theorem Skips.untold_ne_nil {sys : System} {a : Action} {c : Connection} (h : sys.Skips a c) :
    sys.untold c ≠ [] := by
  rcases h.passes with htwo | ⟨hsome, -⟩
  · exact List.ne_nil_of_length_pos (Nat.lt_of_lt_of_le Nat.zero_lt_two htwo)
  · exact hsome

/-- The renamings that wait for a session lead from names given up to others that were somebody's, no
    two of them from one name or to one. -/
structure Dated (sys : System) (used : Name → Prop) (c : Connection) : Prop where
  known : ∀ r ∈ sys.renamingsFor c, used r.1 ∧ sys.engine.hasPlayer r.1 = false ∧ used r.2
  olds : ((sys.renamingsFor c).map Prod.fst).Nodup
  news : ((sys.renamingsFor c).map Prod.snd).Nodup

/-- A client that has the name `m` has lost the session, which stands under `n`: it has another name,
    and is not going to be told what became of the one it has. -/
structure Lost (sys : System) (used : Name → Prop) (c : Connection) (n m : Name) : Prop where
  known : used m
  ne : m ≠ n
  unread : (m, n) ∉ sys.renamingsFor c
  untold : ∀ r ∈ sys.untold c, r.1 ≠ m

/-- The session, whose client had the name `n₀` and has been told of the renamings `rs` since: with
    those it is going to be told they lead to its name, in a chain if nothing has been skipped. -/
structure Tracks (sys : System) (used : Name → Prop) (c : Connection) (n₀ n : Name)
    (rs : List Renaming) (skipped : Prop) : Prop where
  place : sys.engine.presence.nameOf? c = some n
  inStep : sys.InStep c
  dated : sys.Dated used c
  last : Renaming.last n₀ (rs ++ sys.untold c) = n
  chained : ¬ skipped → Renaming.Chained n₀ (rs ++ sys.untold c)
  lost : skipped → sys.Lost used c n (Renaming.held n₀ rs)

section

variable {sys : System} {used : Name → Prop} {c : Connection} {n₀ n : Name} {rs : List Renaming}
  {skipped : Prop} (h : sys.Sound) (htracks : sys.Tracks used c n₀ n rs skipped)
include h htracks

/-- Nothing that waits leads away from the name of the session. -/
theorem Tracks.fst_ne {r : Renaming} (hr : r ∈ sys.renamingsFor c) : r.1 ≠ n := by
  obtain ⟨-, hgone, -⟩ := htracks.dated.known r hr
  exact (Database.ne_of_hasPlayer (h.wellFormed.engine.players c n htracks.place) hgone).symm

/-- The client is told what the session takes over of what waits. -/
theorem Tracks.mem_unread {r : Renaming} (hr : r ∈ sys.untold c) : r ∈ sys.renamingsFor c := by
  obtain ⟨s, hs⟩ := h.wellFormed.present c n htracks.place
  rw [untold_eq hs] at hr
  exact (Renaming.taken_sublist _ _).subset hr

/-- Of renamings that come in, the session is going to tell what concerns its name. -/
theorem Tracks.untold_of_news {sys' : System} {news : List Renaming}
    (hsession : sys'.sessions.find? c = sys.sessions.find? c)
    (hunread : sys'.renamingsFor c = sys.renamingsFor c ++ news) :
    sys'.untold c = sys.untold c ++ Renaming.taken n news := by
  obtain ⟨s, hs⟩ := h.wellFormed.present c n htracks.place
  rw [untold_eq (hsession.trans hs), hunread, Renaming.taken_append, ← untold_eq hs,
    (inStep_iff_last_untold htracks.place hs).1 htracks.inStep]

/-- When the session takes its present name, one renaming that it was going to tell stays. -/
theorem Tracks.leading_of_short (hle : (sys.untold c).length ≤ 1) :
    sys.leading c n = sys.untold c := by
  obtain ⟨s, hs⟩ := h.wellFormed.present c n htracks.place
  have hlast := (inStep_iff_last_untold htracks.place hs).1 htracks.inStep
  cases hlist : sys.untold c with
  | nil =>
    rw [hlist] at hlast
    obtain rfl : s.name = n := hlast
    unfold leading
    rw [← Renaming.taken_eq_filter fun r hr => htracks.fst_ne h hr, ← untold_eq hs, hlist]
  | cons r rest =>
    rw [hlist] at hlast hle
    obtain rfl : rest = [] := List.eq_nil_of_length_eq_zero (by simpa using hle)
    have hr : r ∈ sys.renamingsFor c := htracks.mem_unread h (hlist ▸ List.mem_cons_self)
    obtain rfl : r.2 = n := hlast
    exact Renaming.filter_eq_singleton htracks.dated.news hr

/-- Then the last renaming the client hears of leads to the name all the same. -/
theorem Tracks.last_leading : Renaming.last n₀ (rs ++ sys.leading c n) = n := by
  obtain ⟨s, hs⟩ := h.wellFormed.present c n htracks.place
  rw [Renaming.last_append]
  by_cases hempty : sys.leading c n = []
  · have huntold : sys.untold c = [] := by
      by_contra hsome
      obtain ⟨r, hr, hto⟩ := Renaming.exists_last_eq s.name hsome
      have hmem : r ∈ sys.leading c n := mem_leading.2 ⟨htracks.mem_unread h hr,
        hto.symm.trans ((inStep_iff_last_untold htracks.place hs).1 htracks.inStep)⟩
      rw [hempty] at hmem
      cases hmem
    have hlast := htracks.last
    rw [huntold, List.append_nil] at hlast
    rw [hempty, hlast]
    rfl
  · obtain ⟨r, hr, hto⟩ := Renaming.exists_last_eq (Renaming.last n₀ rs) hempty
    exact hto.trans (mem_leading.1 hr).2

/-- Where nothing has been skipped, what the client is going to be told starts at its name. -/
theorem Tracks.untold_eq_cons (hskipped : ¬ skipped) (huntold : sys.untold c ≠ []) :
    ∃ w rest, sys.untold c = (Renaming.held n₀ rs, w) :: rest ∧ Renaming.Chained w rest ∧
      (Renaming.held n₀ rs, w) ∈ sys.renamingsFor c := by
  obtain ⟨hbefore, hrest⟩ := Renaming.chained_append.1 (htracks.chained hskipped)
  rw [← Renaming.held_of_chained hbefore] at hrest
  cases hlist : sys.untold c with
  | nil => exact absurd hlist huntold
  | cons r rest =>
    have hr : r ∈ sys.renamingsFor c := htracks.mem_unread h (hlist ▸ List.mem_cons_self)
    rw [hlist] at hrest
    obtain ⟨o, w⟩ := r
    obtain ⟨rfl, hrest⟩ := hrest
    exact ⟨w, rest, rfl, hrest, hr⟩

/-- A client that has lost the session, or has still to be told something, has a name that its
    session has given up. -/
theorem Tracks.held_ne (hstale : skipped ∨ sys.untold c ≠ []) :
    used (Renaming.held n₀ rs) ∧ Renaming.held n₀ rs ≠ n := by
  by_cases hskipped : skipped
  · exact ⟨(htracks.lost hskipped).known, (htracks.lost hskipped).ne⟩
  · obtain ⟨w, rest, -, -, hfirst⟩ :=
      htracks.untold_eq_cons h hskipped (hstale.resolve_left hskipped)
    exact ⟨(htracks.dated.known _ hfirst).1, htracks.fst_ne h hfirst⟩

/-- When the client has lost the session or has still to be told of two renamings, none of what waits
    leads from its name to the name of the session: from its name there is only the first of the two,
    and the second leads away from where that one leads. -/
theorem Tracks.not_mem_unread (hpasses : skipped ∨ 2 ≤ (sys.untold c).length) :
    (Renaming.held n₀ rs, n) ∉ sys.renamingsFor c := by
  by_cases hskipped : skipped
  · exact (htracks.lost hskipped).unread
  intro hmem
  have htwo := hpasses.resolve_left hskipped
  have hsome : sys.untold c ≠ [] :=
    List.ne_nil_of_length_pos (Nat.lt_of_lt_of_le Nat.zero_lt_two htwo)
  obtain ⟨w, rest, hlist, hrest, hfirst⟩ := htracks.untold_eq_cons h hskipped hsome
  have hw : w = n :=
    congrArg Prod.snd (List.inj_on_of_nodup_map htracks.dated.olds hfirst hmem rfl)
  rw [hlist] at htwo
  cases rest with
  | nil => exact absurd htwo (by simp)
  | cons r rest =>
    have hr : r ∈ sys.renamingsFor c := htracks.mem_unread h (by rw [hlist]; simp)
    exact htracks.fst_ne h hr (hrest.1.trans hw)

end

section

variable {sys : System} {used used' : Name → Prop} {c : Connection} {n₀ n n' : Name}
  {rs : List Renaming} {skipped : Prop} {a : Action}

/-- A name given up that nobody takes again is nobody's. -/
theorem Sound.gone_act (h : sys.Sound)
    (hfresh : ∀ m, (sys.accountChange (.action a)).named? = some m → ¬ used m) {o : Name}
    (ho : used o) (hgone : sys.engine.hasPlayer o = false) :
    (sys.act a).engine.hasPlayer o = false := by
  have hfollows := h.follows_act a
  generalize sys.accountChange (.action a) = change at hfresh hfollows
  rw [← Bool.not_eq_true] at hgone ⊢
  cases hfollows with
  | nothing hplayers => rwa [hplayers]
  | opens hfree hplayers =>
    rw [hplayers]
    rintro (rfl | hthere)
    · exact hfresh o rfl ho
    · exact hgone hthere
  | renames hold hfree hplayers =>
    rw [hplayers]
    rintro (rfl | ⟨-, hthere⟩)
    · exact hfresh o rfl ho
    · exact hgone hthere
  | closes hplayers =>
    rw [hplayers]
    exact fun hthere => hgone hthere.2
  | attaches hplayer hplayers => rwa [hplayers]

theorem renamingsFor_of_quiet {sys sys' : System}
    (hquiet : sys.engine.presence.Quiet sys'.engine.presence c) :
    sys'.renamingsFor c = sys.renamingsFor c := by
  obtain ⟨news, hnews, hnone⟩ := hquiet.waiting
  unfold renamingsFor
  rw [hnews, Notice.renamings_append, Notice.renamings_eq_nil hnone, List.append_nil]

theorem not_skips (hother : ∀ command, a ≠ .command c command) : ¬ sys.Skips a c := by
  rintro ⟨⟨command, ha⟩, -⟩
  exact hother command ha

/-- Who stands under a name hears of a renaming once or not at all; of one of its own player once,
    unless it has asked for it. -/
theorem renamings_renameNews (e : Engine) (d : Connection) (old new : Name)
    (hc : e.presence.nameOf? c = some n) :
    Notice.renamings (e.renameNews d old new c) = [(old, new)] ∨
      Notice.renamings (e.renameNews d old new c) = [] ∧ (n = old → c = d) := by
  unfold Engine.renameNews
  rw [hc]
  dsimp only
  split
  · exact Or.inl rfl
  · split
    · exact Or.inl rfl
    · next hnone =>
      refine Or.inr ⟨rfl, fun hn => ?_⟩
      by_contra hcd
      exact hnone (Or.inr (Or.inr ⟨hn, hcd⟩))

theorem Moved.renamingsFor_eq {sys sys' : System} {d : Connection} {old new : Name}
    (hmoved : Moved sys sys' d old new) (c : Connection) : sys'.renamingsFor c =
      sys.renamingsFor c ++ Notice.renamings (sys.engine.renameNews d old new c) := by
  unfold renamingsFor
  rw [hmoved.waiting, Notice.renamings_append]

theorem named?_accountChange {d : Connection} {command : Command} {old new : Name}
    (hreply : (sys.command d command).map (·.1) = some (.renamed old new)) :
    (sys.accountChange (.action (.command d command))).named? = some new := by
  obtain ⟨turn, hturn, hrenamed⟩ := Option.map_eq_some_iff.1 hreply
  obtain ⟨reply, sys'⟩ := turn
  obtain rfl : reply = .renamed old new := hrenamed
  simp only [accountChange, hturn]
  rfl

theorem told_of_renamed {command : Command} {old new : Name}
    (hreply : (sys.command c command).map (·.1) = some (.renamed old new)) :
    sys.told c (.command c command) = [(old, new)] := by
  obtain ⟨turn, hturn, hrenamed⟩ := Option.map_eq_some_iff.1 hreply
  simp only [told, if_pos, hturn, Option.bind_some, hrenamed]
  rfl

variable (h : sys.Sound) (htracks : sys.Tracks used c n₀ n rs skipped)
  (hused : ∀ m, used m → used' m)
  (hfresh : ∀ m, (sys.accountChange (.action a)).named? = some m → ¬ used m)
  (hrefusals : (sys.act a).engine.refusals = sys.engine.refusals)
include h htracks hused hfresh

/-- What waits goes on to lead from names given up. -/
theorem Tracks.dated_sublist
    (hunread : ((sys.act a).renamingsFor c).Sublist (sys.renamingsFor c)) :
    (sys.act a).Dated used' c where
  known r hr := by
    obtain ⟨hold, hgone, hnew⟩ := htracks.dated.known r (hunread.subset hr)
    exact ⟨hused _ hold, h.gone_act hfresh hold hgone, hused _ hnew⟩
  olds := htracks.dated.olds.sublist (hunread.map _)
  news := htracks.dated.news.sublist (hunread.map _)

include hrefusals

omit hfresh in
/-- The session gives no command, what it reads it tells, and nothing more leads to its name. -/
theorem Tracks.goesOn (hother : ∀ command, a ≠ .command c command)
    (hplace : (sys.act a).engine.presence.nameOf? c = some n) (hdated : (sys.act a).Dated used' c)
    (hleads : ∀ m, (m, n) ∈ (sys.act a).renamingsFor c → (m, n) ∈ sys.renamingsFor c)
    (huntold : sys.untold c = sys.told c a ++ (sys.act a).untold c) :
    (sys.act a).Tracks used' c n₀ n (rs ++ sys.told c a) (skipped ∨ sys.Skips a c) := by
  have hsum : rs ++ sys.told c a ++ (sys.act a).untold c = rs ++ sys.untold c := by
    rw [List.append_assoc, huntold]
  refine ⟨hplace, ?_, hdated, ?_, ?_, ?_⟩
  · exact (h.wellFormed.inStep_act_iff hrefusals hother hplace).2 (Or.inl htracks.inStep)
  · rw [hsum]
    exact htracks.last
  · rw [hsum]
    exact fun hskipped => htracks.chained fun hbefore => hskipped (Or.inl hbefore)
  · intro hskipped
    obtain ⟨hknown, hne, hread, htold⟩ := htracks.lost (hskipped.resolve_right (not_skips hother))
    rw [huntold] at htold
    have hheld : Renaming.held n₀ (rs ++ sys.told c a) = Renaming.held n₀ rs := by
      rw [Renaming.held_append]
      exact Renaming.held_of_ne fun r hr => htold r (List.mem_append_left _ hr)
    rw [hheld]
    exact ⟨hused _ hknown, hne, fun hmem => hread (hleads _ hmem),
      fun r hr => htold r (List.mem_append_right _ hr)⟩

/-- The session reads a notice, and tells what it takes over of it. -/
theorem Tracks.reads {s s' : Session} {x : Notice} {xs news : List Notice} (ha : a = .read c)
    (hs : sys.sessions.find? c = some s) (hwaiting : sys.engine.presence.waiting c = x :: xs)
    (hs' : (sys.act a).sessions.find? c = some s') (hname : s'.name = x.follow s.name)
    (hplace : (sys.act a).engine.presence.nameOf? c = some n)
    (hleft : (sys.act a).engine.presence.waiting c = xs ++ news)
    (hnews : ∀ y ∈ news, y.isRenaming = false) :
    (sys.act a).Tracks used' c n₀ n (rs ++ sys.told c a) (skipped ∨ sys.Skips a c) := by
  have hunread : (sys.act a).renamingsFor c = Notice.renamings xs := by
    unfold renamingsFor
    rw [hleft, Notice.renamings_append, Notice.renamings_eq_nil hnews, List.append_nil]
  have hbefore : sys.renamingsFor c = Notice.renamings [x] ++ (sys.act a).renamingsFor c := by
    rw [hunread, ← Notice.renamings_append]
    unfold renamingsFor
    rw [hwaiting]
    rfl
  apply htracks.goesOn h hused hrefusals (by simp [ha]) hplace
  · apply htracks.dated_sublist h hused hfresh
    rw [hbefore]
    exact List.sublist_append_right _ _
  · rw [hbefore]
    exact fun m hmem => List.mem_append_right _ hmem
  · rw [untold_eq hs, untold_eq hs', hunread, hname]
    unfold renamingsFor
    rw [hwaiting, Notice.taken_cons, ha, told_read hs hwaiting]

omit hrefusals in
/-- A command that is no renaming.  The session takes its present name, and of what waits only what
    leads to that name is left to tell. -/
theorem Tracks.asks {command : Command} {s' : Session} (ha : a = .command c command)
    (htold : sys.told c a = []) (hplace : (sys.act a).engine.presence.nameOf? c = some n)
    (hs' : (sys.act a).sessions.find? c = some s') (hname : s'.name = n)
    (hunread : (sys.act a).renamingsFor c = sys.renamingsFor c) :
    (sys.act a).Tracks used' c n₀ n (rs ++ sys.told c a) (skipped ∨ sys.Skips a c) := by
  have hleft : (sys.act a).untold c = sys.leading c n := by
    rw [untold_eq hs', hname, hunread]
    exact Renaming.taken_eq_filter fun r hr => htracks.fst_ne h hr
  rw [htold, List.append_nil]
  refine ⟨hplace, ?_, ?_, ?_, fun hskipped => ?_, fun hskipped => ?_⟩
  · rw [inStep_iff_last_untold hplace hs', hname, hleft]
    exact Renaming.last_of_forall fun r hr => (mem_leading.1 hr).2
  · exact htracks.dated_sublist h hused hfresh (hunread ▸ List.Sublist.refl _)
  · rw [hleft]
    exact htracks.last_leading h
  · obtain ⟨hbefore, hnone⟩ := not_or.1 hskipped
    have hle : (sys.untold c).length ≤ 1 := by
      by_contra hgt
      exact hnone ⟨⟨command, ha⟩, Or.inl (Nat.lt_of_not_le hgt)⟩
    rw [hleft, htracks.leading_of_short h hle]
    exact htracks.chained hbefore
  · obtain ⟨hknown, hne⟩ := htracks.held_ne h (hskipped.imp_right Skips.untold_ne_nil)
    have hread : (Renaming.held n₀ rs, n) ∉ sys.renamingsFor c :=
      htracks.not_mem_unread h
        (hskipped.imp_right fun hskips => hskips.passes.resolve_right fun hboth => hboth.2 htold)
    refine ⟨hused _ hknown, hne, hunread ▸ hread, fun r hr hm => ?_⟩
    rw [hleft] at hr
    obtain ⟨hmem, rfl⟩ := mem_leading.1 hr
    exact hread (hm ▸ hmem)

/-! ### Renamings -/

section

variable {d : Connection} {text : String} {old new : Name} (ha : a = .command d (.rename text))
  (hreply : (sys.command d (.rename text)).map (·.1) = some (.renamed old new))
  (hmoved : Moved sys (sys.act a) d old new)
include ha hreply

omit h htracks hused hrefusals in
theorem not_used_of_reply : ¬ used new := by
  subst ha
  exact hfresh new (named?_accountChange hreply)

include hmoved

omit hrefusals in
/-- The session takes another name, and its client is told at once. -/
theorem Tracks.moves_own (hdc : d = c) :
    (sys.act a).Tracks used' c n₀ new (rs ++ sys.told c a) (skipped ∨ sys.Skips a c) := by
  have hnew := not_used_of_reply hfresh ha hreply
  subst hdc
  obtain rfl : n = old := Option.some.inj (htracks.place.symm.trans hmoved.place)
  have htold : sys.told d a = [(n, new)] := ha ▸ told_of_renamed hreply
  have hunread : (sys.act a).renamingsFor d = sys.renamingsFor d := by
    rw [hmoved.renamingsFor_eq, hmoved.news_own h]
    exact List.append_nil _
  have hothers : ∀ r ∈ sys.renamingsFor d, r.1 ≠ new ∧ r.2 ≠ new := by
    intro r hr
    obtain ⟨hold, -, hto⟩ := htracks.dated.known r hr
    exact ⟨fun heq => hnew (heq ▸ hold), fun heq => hnew (heq ▸ hto)⟩
  obtain ⟨s, -, hs'⟩ := hmoved.own
  have huntold : (sys.act a).untold d = [] := by
    rw [untold_eq hs', hunread]
    exact Renaming.taken_eq_nil hothers
  have hplace : (sys.act a).engine.presence.nameOf? d = some new := by
    rw [hmoved.names, hmoved.place, Option.map_some, Ties.substitute, if_pos rfl]
  refine ⟨hplace, ?_, ?_, ?_, fun hskipped => ?_, fun hskipped => ?_⟩
  · rw [inStep_iff_last_untold hplace hs', huntold]
    rfl
  · exact htracks.dated_sublist h hused hfresh (hunread ▸ List.Sublist.refl _)
  · rw [huntold, List.append_nil, htold, Renaming.last_append]
    rfl
  · obtain ⟨hbefore, hnone⟩ := not_or.1 hskipped
    have hnil : sys.untold d = [] := by
      by_contra hsome
      refine hnone ⟨⟨_, ha⟩, Or.inr ⟨hsome, ?_⟩⟩
      rw [htold]
      exact List.cons_ne_nil _ _
    have hchained := htracks.chained hbefore
    have hlast := htracks.last
    rw [hnil, List.append_nil] at hchained hlast
    rw [huntold, List.append_nil, htold, Renaming.chained_append, hlast]
    exact ⟨hchained, rfl, trivial⟩
  · obtain ⟨hknown, hne⟩ := htracks.held_ne h (hskipped.imp_right Skips.untold_ne_nil)
    have hstays : Renaming.held n₀ (rs ++ sys.told d a) = Renaming.held n₀ rs := by
      rw [Renaming.held_append, htold]
      exact if_neg hne.symm
    rw [hstays]
    refine ⟨hused _ hknown, fun heq => hnew (heq ▸ hknown), ?_, ?_⟩
    · rw [hunread]
      exact fun hmem => (hothers _ hmem).2 rfl
    · rw [huntold]
      exact List.forall_mem_nil _

variable (hplayers : ∀ m, sys.engine.hasPlayer m = true → used m)
  (hplayers' : ∀ m, (sys.act a).engine.hasPlayer m = true → used' m)
include hplayers hplayers'

omit hrefusals in
/-- The renaming is the latest of what waits: its old name has just been given up, and its new one
    has been nobody's. -/
theorem Tracks.dated_append
    (hunread : (sys.act a).renamingsFor c = sys.renamingsFor c ++ [(old, new)]) :
    (sys.act a).Dated used' c := by
  have hnew := not_used_of_reply hfresh ha hreply
  have hold : sys.engine.hasPlayer old = true := h.wellFormed.engine.players d old hmoved.place
  refine ⟨fun r hr => ?_, ?_, ?_⟩
  · rw [hunread, List.mem_append, List.mem_singleton] at hr
    rcases hr with hr | rfl
    · obtain ⟨hfrom, hgone, hto⟩ := htracks.dated.known r hr
      exact ⟨hused _ hfrom, h.gone_act hfresh hfrom hgone, hused _ hto⟩
    · refine ⟨hused _ (hplayers _ hold), ?_, hplayers' _ ((hmoved.players _).2 (Or.inl rfl))⟩
      rw [← Bool.not_eq_true, hmoved.players]
      rintro (heq | ⟨hne, -⟩)
      · exact hmoved.ne heq
      · exact hne rfl
  · rw [hunread, List.map_append, List.nodup_append_comm]
    refine List.nodup_cons.2 ⟨fun hmem => ?_, htracks.dated.olds⟩
    obtain ⟨r, hr, hfrom⟩ := List.mem_map.1 hmem
    obtain ⟨-, hgone, -⟩ := htracks.dated.known r hr
    exact Database.ne_of_hasPlayer hold hgone hfrom.symm
  · rw [hunread, List.map_append, List.nodup_append_comm]
    refine List.nodup_cons.2 ⟨fun hmem => ?_, htracks.dated.news⟩
    obtain ⟨r, hr, hto⟩ := List.mem_map.1 hmem
    obtain rfl : r.2 = new := hto
    exact hnew (htracks.dated.known r hr).2.2

/-- Another session of the player has taken another name, which is the last that waits. -/
theorem Tracks.moves_sibling (hdc : d ≠ c) (hn : n = old) :
    (sys.act a).Tracks used' c n₀ new (rs ++ sys.told c a) (skipped ∨ sys.Skips a c) := by
  have hnew := not_used_of_reply hfresh ha hreply
  subst hn
  have htold : sys.told c a = [] := ha ▸ if_neg hdc
  have hother : ∀ command, a ≠ .command c command := ha ▸ command_ne hdc _
  have hplace : (sys.act a).engine.presence.nameOf? c = some new := by
    rw [hmoved.names, htracks.place, Option.map_some, Ties.substitute, if_pos rfl]
  have hunread : (sys.act a).renamingsFor c = sys.renamingsFor c ++ [(n, new)] := by
    rw [hmoved.renamingsFor_eq]
    rcases renamings_renameNews sys.engine d n new htracks.place with hone | ⟨-, hself⟩
    · rw [hone]
    · exact absurd (hself rfl).symm hdc
  have huntold : (sys.act a).untold c = sys.untold c ++ [(n, new)] := by
    rw [htracks.untold_of_news h (hmoved.others c (Ne.symm hdc)) hunread]
    exact congrArg (sys.untold c ++ ·) (if_pos (Or.inl rfl))
  rw [htold, List.append_nil]
  refine ⟨hplace, ?_, ?_, ?_, fun hskipped => ?_, fun hskipped => ?_⟩
  · exact (h.wellFormed.inStep_act_iff hrefusals hother hplace).2 (Or.inl htracks.inStep)
  · exact htracks.dated_append h hused hfresh ha hreply hmoved hplayers hplayers' hunread
  · rw [huntold, ← List.append_assoc, Renaming.last_append]
    rfl
  · rw [huntold, ← List.append_assoc, Renaming.chained_append, htracks.last]
    exact ⟨htracks.chained fun hbefore => hskipped (Or.inl hbefore), rfl, trivial⟩
  · obtain ⟨hknown, hne, hread, hlater⟩ := htracks.lost (hskipped.resolve_right (not_skips hother))
    refine ⟨hused _ hknown, fun heq => hnew (heq ▸ hknown), fun hmem => ?_, fun r hr => ?_⟩
    · rw [hunread, List.mem_append, List.mem_singleton] at hmem
      rcases hmem with hmem | heq
      · exact hnew (htracks.dated.known _ hmem).2.2
      · exact hne (congrArg Prod.fst heq)
    · rw [huntold, List.mem_append, List.mem_singleton] at hr
      rcases hr with hr | rfl
      · exact hlater r hr
      · exact hne.symm

/-- Somebody else has taken another name, which is neither the one of this session nor was. -/
theorem Tracks.moves_bystander (hn : n ≠ old) :
    (sys.act a).Tracks used' c n₀ n (rs ++ sys.told c a) (skipped ∨ sys.Skips a c) := by
  have hnnew : n ≠ new :=
    Database.ne_of_hasPlayer (h.wellFormed.engine.players c n htracks.place) hmoved.free
  have hdc : d ≠ c := by
    rintro rfl
    exact hn (Option.some.inj (htracks.place.symm.trans hmoved.place))
  have hother : ∀ command, a ≠ .command c command := ha ▸ command_ne hdc _
  have hplace : (sys.act a).engine.presence.nameOf? c = some n := by
    rw [hmoved.names, htracks.place, Option.map_some, Ties.substitute, if_neg hn]
  have hunread := hmoved.renamingsFor_eq c
  have hnews := renamings_renameNews sys.engine d old new htracks.place
  have hforeign : ∀ r ∈ Notice.renamings (sys.engine.renameNews d old new c),
      r.1 ≠ n ∧ r.2 ≠ n := by
    intro r hr
    rcases hnews with hone | ⟨hnone, -⟩
    · rw [hone, List.mem_singleton] at hr
      rw [hr]
      exact ⟨hn.symm, hnnew.symm⟩
    · rw [hnone] at hr
      cases hr
  apply htracks.goesOn h hused hrefusals hother hplace
  · rcases hnews with hone | ⟨hnone, -⟩
    · rw [hone] at hunread
      exact htracks.dated_append h hused hfresh ha hreply hmoved hplayers hplayers' hunread
    · rw [hnone, List.append_nil] at hunread
      exact htracks.dated_sublist h hused hfresh (hunread ▸ List.Sublist.refl _)
  · intro m hmem
    rw [hunread, List.mem_append] at hmem
    exact hmem.resolve_right fun hmem => (hforeign _ hmem).2 rfl
  · have htold : sys.told c a = [] := ha ▸ if_neg hdc
    rw [htold, List.nil_append, htracks.untold_of_news h (hmoved.others c (Ne.symm hdc)) hunread,
      Renaming.taken_eq_nil hforeign, List.append_nil]

end

/-! ### Any step -/

variable (hplayers : ∀ m, sys.engine.hasPlayer m = true → used m)
  (hplayers' : ∀ m, (sys.act a).engine.hasPlayer m = true → used' m)
  (harrived : c.number < sys.engine.presence.arrivals)
  (hc : (sys.act a).engine.presence.nameOf? c = some n')
include harrived hc

omit htracks hused hfresh in
/-- Who is attached and has not just come was attached. -/
theorem Sound.attached_before : ∃ k, sys.engine.presence.nameOf? c = some k := by
  rcases h.concerns hrefusals hc with hnew | ⟨-, -, -, hquiet⟩ | ⟨-, -, -, -, -, hplace⟩ |
    ⟨-, -, -, -, hquiet⟩ | ⟨-, -, hmoved⟩
  · exact absurd harrived (Nat.not_lt.2 hnew)
  · exact ⟨n', hquiet.name n' hc⟩
  · exact ⟨n', hplace n' hc⟩
  · exact ⟨n', hquiet.name n' hc⟩
  · rw [hmoved.names, Option.map_eq_some_iff] at hc
    obtain ⟨k, hk, -⟩ := hc
    exact ⟨k, hk⟩

include hplayers hplayers'

theorem Tracks.act : (sys.act a).Tracks used' c n₀ n' (rs ++ sys.told c a)
    (skipped ∨ sys.Skips a c) := by
  have hsame (hbefore : sys.engine.presence.nameOf? c = some n') : n = n' :=
    Option.some.inj (htracks.place.symm.trans hbefore)
  rcases h.concerns hrefusals hc with hnew | ⟨hother, htold, hsession, hquiet⟩ |
    ⟨ha, hs, hwaiting, hs', hname, hplace, hleft, hnews⟩ | ⟨ha, htold, hs', hname, hquiet⟩ |
    ⟨ha, hreply, hmoved⟩
  · exact absurd harrived (Nat.not_lt.2 hnew)
  · obtain rfl := hsame (hquiet.name n' hc)
    have hunread := renamingsFor_of_quiet hquiet
    apply htracks.goesOn h hused hrefusals hother hc
    · exact htracks.dated_sublist h hused hfresh (hunread ▸ List.Sublist.refl _)
    · exact fun m hmem => hunread ▸ hmem
    · rw [htold, List.nil_append]
      unfold untold
      rw [hsession, hunread]
  · obtain rfl := hsame (hplace n' hc)
    exact htracks.reads h hused hfresh hrefusals ha hs hwaiting hs' hname hc hleft hnews
  · obtain rfl := hsame (hquiet.name n' hc)
    exact htracks.asks h hused hfresh ha htold hc hs' (hname _ hc) (renamingsFor_of_quiet hquiet)
  · next d text old new =>
    have hplace := hmoved.names c
    rw [hc, htracks.place, Option.map_some, Option.some.injEq] at hplace
    unfold Ties.substitute at hplace
    by_cases hn : n = old
    · rw [if_pos hn] at hplace
      rw [hplace]
      by_cases hdc : d = c
      · exact htracks.moves_own h hused hfresh ha hreply hmoved hdc
      · exact htracks.moves_sibling h hused hfresh hrefusals ha hreply hmoved hplayers hplayers'
          hdc hn
    · rw [if_neg hn] at hplace
      rw [hplace]
      exact htracks.moves_bystander h hused hfresh hrefusals ha hreply hmoved hplayers hplayers' hn

end

/-! ## Runs -/

/-- After the actions `before`, the action gives nobody a name that has been somebody's. -/
def namesAnew (sys : System) (before : List Action) (a : Action) : Bool :=
  match ((sys.after before).accountChange (.action a)).named? with
  | some n => !sys.hasBeen before n
  | none => true

/-- No action of a run gives anybody a name that has been somebody's. -/
def namesAnewFrom (sys : System) (before : List Action) : List Action → Bool
  | [] => true
  | a :: as => sys.namesAnew before a && sys.namesAnewFrom (before ++ [a]) as

theorem namesAnewFrom_append (sys : System) (before as bs : List Action) :
    sys.namesAnewFrom before (as ++ bs) =
      (sys.namesAnewFrom before as && sys.namesAnewFrom (before ++ as) bs) := by
  induction as generalizing before with
  | nil => rw [List.nil_append, List.append_nil, namesAnewFrom, Bool.true_and]
  | cons a as ih =>
    rw [List.cons_append, namesAnewFrom, ih, namesAnewFrom, Bool.and_assoc, List.append_assoc]
    rfl

theorem namesAnewFrom_concat {sys : System} {as : List Action} {a : Action}
    (h : sys.namesAnewFrom [] (as ++ [a]) = true) :
    sys.namesAnewFrom [] as = true ∧
      ∀ m, ((sys.after as).accountChange (.action a)).named? = some m →
        ¬ sys.hasBeen as m = true := by
  rw [namesAnewFrom_append, Bool.and_eq_true, List.nil_append, namesAnewFrom, namesAnewFrom,
    Bool.and_true] at h
  refine ⟨h.1, fun m hm hbeen => ?_⟩
  simp [namesAnew, hm, hbeen] at h

/-- At some command of a run the session has passed over renamings. -/
def Skipped (sys : System) (as : List Action) (c : Connection) : Prop :=
  ∃ before a later, as = before ++ a :: later ∧ (sys.after before).Skips a c

/-- What the client of a session hears of the renamings of its player, from the name `n₀` under which
    the session has come to its present name `n`. -/
structure HearsOfRenamings (sys : System) (as : List Action) (c : Connection) (n₀ n : Name) :
    Prop where
  chained : ¬ sys.Skipped as c → Renaming.Chained n₀ (sys.toldOver c as)
  last : (sys.after as).engine.presence.waiting c = [] →
    Renaming.last n₀ (sys.toldOver c as) = n
  chained_iff : (sys.after as).engine.presence.waiting c = [] →
    (Renaming.Chained n₀ (sys.toldOver c as) ↔ ¬ sys.Skipped as c)
  held_iff : (sys.after as).engine.presence.waiting c = [] →
    (Renaming.held n₀ (sys.toldOver c as) = n ↔ ¬ sys.Skipped as c)

theorem Tracks.hearsOfRenamings {sys : System} {as : List Action} {used : Name → Prop}
    {c : Connection} {n₀ n : Name}
    (h : (sys.after as).Sound)
    (htracks : (sys.after as).Tracks used c n₀ n (sys.toldOver c as) (sys.Skipped as c)) :
    sys.HearsOfRenamings as c n₀ n := by
  have hnone (hidle : (sys.after as).engine.presence.waiting c = []) :
      (sys.after as).untold c = [] := by
    refine List.eq_nil_iff_forall_not_mem.2 fun r hr => ?_
    have hr := htracks.mem_unread h hr
    unfold renamingsFor at hr
    rw [hidle] at hr
    cases hr
  have hlast (hidle : (sys.after as).engine.presence.waiting c = []) :
      Renaming.last n₀ (sys.toldOver c as) = n := by
    have hlast := htracks.last
    rwa [hnone hidle, List.append_nil] at hlast
  have hchained (hskipped : ¬ sys.Skipped as c) : Renaming.Chained n₀ (sys.toldOver c as) :=
    (Renaming.chained_append.1 (htracks.chained hskipped)).1
  refine ⟨hchained, hlast, fun hidle => ⟨fun hchain hskipped => ?_, hchained⟩,
    fun hidle => ⟨fun hheld hskipped => ?_, fun hskipped => ?_⟩⟩
  · exact (htracks.lost hskipped).ne ((Renaming.held_of_chained hchain).trans (hlast hidle))
  · exact (htracks.lost hskipped).ne hheld
  · exact (Renaming.held_of_chained (hchained hskipped)).trans (hlast hidle)

/-- A session that comes has nothing to read, and its client has its name. -/
theorem Sound.tracks_connect {sys : System} (h : sys.Sound) (used : Name → Prop) {n₀ : Name}
    (hn₀ : sys.engine.hasPlayer n₀ = true)
    (hrefusals : (sys.act (.connect n₀)).engine.refusals = sys.engine.refusals) :
    (sys.act (.connect n₀)).Tracks used ⟨sys.engine.presence.arrivals⟩ n₀ n₀ [] False := by
  have hengine := h.wellFormed.engine
  have heq := act_connect hn₀
  have hconnected : (sys.engine.connected n₀).refusals = sys.engine.refusals := by
    rwa [heq] at hrefusals
  have hplace : (sys.act (.connect n₀)).engine.presence.nameOf? ⟨sys.engine.presence.arrivals⟩ =
      some n₀ := by
    rw [heq]
    exact (hengine.nameOf?_connected hn₀ hconnected _).trans (if_pos rfl)
  have hs : (sys.act (.connect n₀)).sessions.find? ⟨sys.engine.presence.arrivals⟩ =
      some (.start ⟨sys.engine.presence.arrivals⟩ n₀) := by
    rw [heq]
    exact (Table.find?_insert _ _ _ _).trans (if_pos rfl)
  have hunread : (sys.act (.connect n₀)).renamingsFor ⟨sys.engine.presence.arrivals⟩ = [] := by
    obtain ⟨news, hnews, hnone⟩ :=
      (hengine.quiet_probes hn₀ hconnected ⟨sys.engine.presence.arrivals⟩).waiting
    have hempty : (sys.engine.attached n₀).presence.waiting ⟨sys.engine.presence.arrivals⟩ = [] :=
      (Presence.waiting_attach _ n₀ _ _).trans (if_pos rfl)
    unfold renamingsFor
    rw [heq]
    show Notice.renamings ((sys.engine.connected n₀).presence.waiting _) = []
    rw [hnews, hempty, List.nil_append, Notice.renamings_eq_nil hnone]
  have huntold : (sys.act (.connect n₀)).untold ⟨sys.engine.presence.arrivals⟩ = [] := by
    rw [untold_eq hs, hunread]
    rfl
  refine ⟨hplace, ?_, ⟨by simp [hunread], by simp [hunread], by simp [hunread]⟩, ?_, ?_, False.elim⟩
  · rw [inStep_iff_last_untold hplace hs, huntold]
    rfl
  · rw [huntold]
    rfl
  · rw [huntold]
    exact fun _ => trivial

/-- Over a run the client of a session keeps track of it, or loses it when renamings are skipped. -/
theorem Sound.tracks_after {sys : System} (h : sys.Sound) {earlier later : List Action}
    {c : Connection} {n₀ n : Name}
    (harrived : c.number < (sys.after earlier).engine.presence.arrivals)
    (hbegin : (sys.after earlier).Tracks (fun m => sys.hasBeen earlier m = true) c n₀ n₀ [] False)
    (hanew : sys.namesAnewFrom [] (earlier ++ later) = true)
    (hrefusals : (sys.after (earlier ++ later)).engine.refusals = sys.engine.refusals)
    (hc : (sys.after (earlier ++ later)).engine.presence.nameOf? c = some n) :
    (sys.after (earlier ++ later)).Tracks (fun m => sys.hasBeen (earlier ++ later) m = true) c n₀ n
      ((sys.after earlier).toldOver c later) ((sys.after earlier).Skipped later c) := by
  induction later using List.reverseRecOn generalizing n with
  | nil =>
    rw [List.append_nil] at hc ⊢
    obtain rfl : n₀ = n := Option.some.inj (hbegin.place.symm.trans hc)
    have hnone : (sys.after earlier).Skipped [] c = False := by simp [Skipped]
    rw [hnone]
    exact hbegin
  | append_singleton later a ih =>
    rw [← List.append_assoc] at hanew hrefusals hc ⊢
    obtain ⟨hanew, hfresh⟩ := namesAnewFrom_concat hanew
    obtain ⟨hsofar, hlast⟩ := sys.refusals_of_append (earlier ++ later) [a] hrefusals
    rw [after_concat] at hc ⊢
    have hsound := h.after (earlier ++ later)
    have hthere : c.number < (sys.after (earlier ++ later)).engine.presence.arrivals := by
      rw [after_append]
      exact Nat.lt_of_lt_of_le harrived ((sys.after earlier).precedes_after later).arrivals
    obtain ⟨k, hk⟩ := hsound.attached_before hlast hthere hc
    have htracks := ih hanew hsofar hk
    have hskipped : (sys.after earlier).Skipped (later ++ [a]) c =
        ((sys.after earlier).Skipped later c ∨ (sys.after (earlier ++ later)).Skips a c) := by
      rw [after_append]
      exact propext (exists_concat_iff fun before b => ((sys.after earlier).after before).Skips b c)
    rw [hskipped, toldOver_concat, ← after_append]
    exact htracks.act hsound (fun m hm => hasBeen_concat.2 (Or.inl hm)) hfresh hlast
      (fun m hm => hasBeen_iff.2 ⟨_, List.prefix_refl _, hm⟩)
      (fun m hm => hasBeen_concat.2 (Or.inr hm)) hthere hc

theorem Sound.hearsOfRenamings {sys : System} (h : sys.Sound) {before later : List Action}
    {n₀ n : Name} (hn₀ : (sys.after before).engine.hasPlayer n₀ = true)
    (hanew : sys.namesAnewFrom [] (before ++ .connect n₀ :: later) = true)
    (hrefusals : (sys.after (before ++ .connect n₀ :: later)).engine.refusals =
      sys.engine.refusals)
    (hc : (sys.after (before ++ .connect n₀ :: later)).engine.presence.nameOf?
      ⟨(sys.after before).engine.presence.arrivals⟩ = some n) :
    (sys.after (before ++ [.connect n₀])).HearsOfRenamings later
      ⟨(sys.after before).engine.presence.arrivals⟩ n₀ n := by
  have hsplit : before ++ .connect n₀ :: later = before ++ [.connect n₀] ++ later := by simp
  rw [hsplit] at hanew hrefusals hc
  obtain ⟨hcomes, -⟩ := sys.refusals_of_append _ _ hrefusals
  obtain ⟨-, hconnect⟩ := sys.refusals_of_append before [.connect n₀] hcomes
  have hbegin := (h.after before).tracks_connect
    (fun m => sys.hasBeen (before ++ [.connect n₀]) m = true) hn₀ hconnect
  rw [← after_concat] at hbegin
  have hcome := h.after (before ++ [.connect n₀])
  have harrived := hcome.wellFormed.engine.presence.arrived_of_nameOf? hbegin.place
  have htracks := h.tracks_after harrived hbegin hanew hrefusals hc
  have hsound := hcome.after later
  rw [after_append] at htracks
  exact htracks.hearsOfRenamings hsound

/-- **Whether a client can follow its own name.**  In a run on any well-formed database in which no
    name comes back and no notice is refused, a session has come under the name `n₀` and is attached
    under `n` at the end.  When nothing waits for it, the last renaming that its client has been told
    leads to `n`.  The renamings it has been told form a chain from `n₀`, so that it ends up with the
    name `n`, exactly if the session has not skipped any. -/
theorem hearsOfRenamings_unless_skipped (db : Database) (hdb : db.WellFormed) (capacity : Nat)
    (before later : List Action) (n₀ n : Name)
    (hn₀ : ((start db capacity).after before).engine.hasPlayer n₀ = true)
    (hanew : (start db capacity).namesAnewFrom [] (before ++ .connect n₀ :: later) = true)
    (hrefusals : ((start db capacity).after (before ++ .connect n₀ :: later)).engine.refusals = 0)
    (hc : ((start db capacity).after (before ++ .connect n₀ :: later)).engine.presence.nameOf?
      ⟨((start db capacity).after before).engine.presence.arrivals⟩ = some n) :
    ((start db capacity).after (before ++ [.connect n₀])).HearsOfRenamings later
      ⟨((start db capacity).after before).engine.presence.arrivals⟩ n₀ n := by
  have hsound : (start db capacity).Sound := ⟨wellFormed_start hdb.graph capacity, hdb⟩
  exact hsound.hearsOfRenamings hn₀ hanew hrefusals hc

/-! ### Two sessions of one player

A player has two sessions.  The first one takes another name, and the second one asks for something
before it has read about that, and for another name after it.  Or the first one takes a name twice,
and the second one asks for something before it has read about either. -/

/-- A player has a session. -/
def comesAlone : List Action :=
  [.create ⟨"q", Name.isValid_q⟩, .connect ⟨"q", Name.isValid_q⟩]

theorem arrivals_comesAlone : ((start .empty 64).after comesAlone).engine.presence.arrivals = 1 := by
  decide +kernel

/-- The second session is ahead of its client by one name. -/
def aheadByOne : List Action :=
  [.command ⟨0⟩ (.rename "r"), .command ⟨1⟩ (.other "hello"), .read ⟨1⟩,
    .command ⟨1⟩ (.rename "s"), .read ⟨0⟩]

/-- The second session is ahead of its client by two names. -/
def aheadByTwo : List Action :=
  [.command ⟨0⟩ (.rename "r"), .command ⟨0⟩ (.rename "s"), .command ⟨1⟩ (.other "hello"),
    .read ⟨1⟩, .read ⟨1⟩]

theorem hearsOfRenamings_unless_skipped_aheadByOne :
    ((start .empty 64).after (comesAlone ++ [.connect ⟨"q", Name.isValid_q⟩])).HearsOfRenamings
      aheadByOne ⟨1⟩ ⟨"q", Name.isValid_q⟩ ⟨"s", Name.isValid_s⟩ := by
  have hears := hearsOfRenamings_unless_skipped .empty Database.wellFormed_empty 64 comesAlone
    aheadByOne ⟨"q", Name.isValid_q⟩ ⟨"s", Name.isValid_s⟩ (by decide +kernel) (by decide +kernel)
    (by decide +kernel) (by decide +kernel)
  rwa [arrivals_comesAlone] at hears

/-- The client is told how its second name has become the third. -/
theorem toldOver_aheadByTwo :
    ((start .empty 64).after (comesAlone ++ [.connect ⟨"q", Name.isValid_q⟩])).toldOver ⟨1⟩
      aheadByTwo = [(⟨"r", Name.isValid_r⟩, ⟨"s", Name.isValid_s⟩)] := by
  decide +kernel

/-- What a client is told need not be a chain: this one is not told how its first name has become
    the second. -/
theorem not_chained_toldOver :
    ¬ ∀ (db : Database) (capacity : Nat) (before later : List Action) (n₀ n : Name),
      db.WellFormed → ((start db capacity).after before).engine.hasPlayer n₀ = true →
      (start db capacity).namesAnewFrom [] (before ++ .connect n₀ :: later) = true →
      ((start db capacity).after (before ++ .connect n₀ :: later)).engine.refusals = 0 →
      ((start db capacity).after (before ++ .connect n₀ :: later)).engine.presence.nameOf?
        ⟨((start db capacity).after before).engine.presence.arrivals⟩ = some n →
      Renaming.Chained n₀ (((start db capacity).after (before ++ [.connect n₀])).toldOver
          ⟨((start db capacity).after before).engine.presence.arrivals⟩ later) ∧
        (((start db capacity).after (before ++ .connect n₀ :: later)).engine.presence.waiting
            ⟨((start db capacity).after before).engine.presence.arrivals⟩ = [] →
          Renaming.last n₀ (((start db capacity).after (before ++ [.connect n₀])).toldOver
            ⟨((start db capacity).after before).engine.presence.arrivals⟩ later) = n) := by
  intro hall
  have hears := hall .empty 64 comesAlone aheadByTwo ⟨"q", Name.isValid_q⟩
    ⟨"s", Name.isValid_s⟩ Database.wellFormed_empty (by decide +kernel) (by decide +kernel)
    (by decide +kernel) (by decide +kernel)
  rw [arrivals_comesAlone, toldOver_aheadByTwo] at hears
  exact absurd hears.1 (by decide)

end System

end Amity
