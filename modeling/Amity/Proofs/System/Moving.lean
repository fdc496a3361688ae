/-
  Amity/Proofs/System/Moving.lean
  ===============================
  **What a renaming does to what sessions know.**  A session takes another name for its player
  (`Moved`).  The friends are told, behind all that waits for them already: the old name is gone,
  the new one is there, and one has become the other.  What waited before still says the old name.

  As long as no name comes back, an outdated name is nobody's: what is said under it concerns no
  friend, and no session takes it for its own (`Followed`).  So whoever knew the others goes on to
  know them.  Only the session that asks loses something: the answers to its probes.
-/
import Amity.Proofs.System.Hearing
import Amity.Proofs.System.Renaming

namespace Amity.System

/-! ## Renamings -/

/-- The session of connection `d` has taken the name `new`, which nobody had, for its player, who was
    `old`. -/
structure Moved (sys sys' : System) (d : Connection) (old new : Name) : Prop where
  ne : old ≠ new
  place : sys.engine.presence.nameOf? d = some old
  free : sys.engine.hasPlayer new = false
  players : ∀ m, sys'.engine.hasPlayer m = true ↔
    m = new ∨ m ≠ old ∧ sys.engine.hasPlayer m = true
  names : ∀ c, sys'.engine.presence.nameOf? c =
    (sys.engine.presence.nameOf? c).map (Ties.substitute old new)
  friends : ∀ n m, sys'.Friends n m ↔ ∃ k l, sys.Friends k l ∧
    Ties.substitute old new k = n ∧ Ties.substitute old new l = m
  status : ∀ m, sys'.engine.presence.statusOf m =
    if m = new then sys.engine.presence.statusOf old
    else if m = old then .disconnected
    else sys.engine.presence.statusOf m
  waiting : ∀ c, sys'.engine.presence.waiting c =
    sys.engine.presence.waiting c ++ sys.engine.renameNews d old new c
  own : ∃ s, sys.sessions.find? d = some s ∧ sys'.sessions.find? d = some (s.renamed new)
  others : ∀ c, c ≠ d → sys'.sessions.find? c = sys.sessions.find? c

theorem Sound.moved {sys : System} (h : sys.Sound) {d : Connection} {s : Session} {old new : Name}
    {ties : Ties} {database : Database} {turn : Turn}
    (hs : sys.sessions.find? d = some s) (hd : sys.engine.presence.nameOf? d = some old)
    (hne : old ≠ new) (hrename : sys.engine.database.rename old new = .ok (ties, database))
    (hturn : turn = ⟨.renamed old new, s.renamed new,
      sys.engine.renamed (s.renamed old) new ties database⟩)
    (hrefusals : turn.engine.refusals = sys.engine.refusals)
    (hafter : (sys.keep turn).2.WellFormed) : Moved sys (sys.keep turn).2 d old new := by
  obtain rfl := h.wellFormed.own d s hs
  have hengine := h.wellFormed.engine
  obtain ⟨p, -, hfree, -, rfl, -, hties, -⟩ := h.database.of_rename hrename
  have hfound := sys.find?_keep turn
  subst hturn
  have hrenames := hengine.renamed_renames (s := s.renamed old) h.database hne hrename
  have hposted := hengine.renamed_posted (s := s.renamed old) hne hrename hrefusals
  refine ⟨hne, hd, hfree, ?_, ?_, ?_, ?_, hrenames.waiting hrefusals, ?_, ?_⟩
  · exact (Directory.rename_eq_ok (Database.rename_eq_ok_iff.1 hrename).1).2.2
  · intro c
    exact (hposted.nameOf? c).trans (hengine.presence.nameOf?_rebound hne c)
  · intro n m
    have hpairs : database.graph.friendships = _ := (hengine.graph.pairs_rename
      hafter.engine.graph hne (h.database.knows_eq_false hfree) hties).1
    rw [hafter.friends_iff_mem_friendships]
    show s(n, m) ∈ database.graph.friendships ↔ _
    rw [hpairs, Set.mem_image]
    constructor
    · rintro ⟨e, he, heq⟩
      induction e with | h k l =>
      have hkl := h.wellFormed.friends_iff_mem_friendships.2 he
      rw [Sym2.map_mk] at heq
      rcases Sym2.eq_iff.1 heq with ⟨hk, hl⟩ | ⟨hk, hl⟩
      · exact ⟨k, l, hkl, hk, hl⟩
      · exact ⟨l, k, h.wellFormed.friends_comm.1 hkl, hl, hk⟩
    · rintro ⟨k, l, hkl, rfl, rfl⟩
      exact ⟨s(k, l), h.wellFormed.friends_iff_mem_friendships.1 hkl, Sym2.map_mk _ _ _⟩
  · intro m
    exact (hposted.statusOf m).trans (Presence.statusOf_rebound hne (hengine.group_eq_nil hfree) m)
  · exact ⟨s, hs, (hfound _).trans (if_pos rfl)⟩
  · intro c hc
    exact (hfound c).trans (if_neg hc)

/-- A session that asks for a name gets it, or nothing happens. -/
theorem Sound.renames {sys : System} (h : sys.Sound) (hnamed : sys.Named) {d : Connection}
    {text : String}
    (hrefusals : (sys.act (.command d (.rename text))).engine.refusals = sys.engine.refusals) :
    Same sys (sys.act (.command d (.rename text))) ∨
      ∃ old new, Name.parse? text = some new ∧
        Moved sys (sys.act (.command d (.rename text))) d old new := by
  have hwell := h.wellFormed
  have hafter := hwell.act (.command d (.rename text))
  cases hd : sys.engine.presence.nameOf? d with
  | none => exact Or.inl (hwell.same_of_unattached hd)
  | some old =>
    obtain ⟨s, hs⟩ := hwell.present d old hd
    obtain rfl := hwell.own d s hs
    obtain rfl := hnamed s.connection old s hd hs
    rw [act_command hs] at hafter hrefusals ⊢
    generalize hturn : sys.engine.handleCommand s (.rename text) = turn at hafter hrefusals ⊢
    rw [hwell.engine.handleCommand_rename hd] at hturn
    rcases sys.engine.rename_cases (s.renamed s.name) text with
      heq | ⟨new, ties, database, hparse, hne, hrename, heq⟩
    · left
      rw [← hturn, heq]
      exact .of_keep hs rfl rfl
    · right
      rw [heq] at hturn
      exact ⟨s.name, new, hparse, h.moved hs hd hne hrename hturn.symm hrefusals hafter⟩

/-! ## What is kept -/

/-- Every session has its name, no player has two sessions, and what waits about renamings is about
    names that are nobody's any more; nobody reads there of a name of his own. -/
structure Followed (sys : System) (used : Name → Prop) : Prop where
  named : sys.Named
  single : sys.Single
  players : ∀ n, sys.engine.hasPlayer n = true → used n
  renamings : ∀ c n old new, sys.engine.presence.nameOf? c = some n →
    .renamed old new ∈ sys.engine.presence.waiting c →
      used old ∧ sys.engine.hasPlayer old = false ∧ used new ∧ n ≠ new

section

variable {sys sys' : System} {used : Name → Prop}

/-- A session that reads keeps its name and forgets no friend. -/
theorem Followed.readsInStep (hfollowed : sys.Followed used) (h : sys.Sound) {d : Connection}
    {s : Session} {x : Notice} {xs : List Notice} (hfind : sys.sessions.find? d = some s)
    (hwaiting : sys.engine.presence.waiting d = x :: xs) : ReadsInStep sys d s x := by
  intro n hn
  have hplayer := h.wellFormed.engine.players d n hn
  have hrenamed {old new : Name} (hx : x = .renamed old new) :=
    hfollowed.renamings d n old new hn (by rw [hwaiting, hx]; exact List.mem_cons_self)
  refine ⟨hfollowed.named d n s hn hfind, ?_, ?_⟩
  · cases x with
    | renamed old new =>
      obtain ⟨-, hgone, -, hnew⟩ := hrenamed rfl
      have hold : n ≠ old := Database.ne_of_hasPlayer hplayer hgone
      exact if_neg (by rintro (rfl | rfl) <;> contradiction)
    | update | status | probe => rfl
  · rintro old new hx hfriends
    obtain ⟨-, hgone, -⟩ := hrenamed hx
    have hpeer : old ∈ (sys.engine.database.graph.ties n).peers :=
      Ties.mem_peers.2 (Or.inl (h.wellFormed.friends_iff.1 hfriends))
    exact Database.ne_of_hasPlayer (h.database.hasPlayer_of_mem_peers hpeer) hgone rfl

/-- A step in which nobody takes another name. -/
theorem Followed.step (hfollowed : sys.Followed used)
    (hplayers : ∀ n, sys'.engine.hasPlayer n = sys.engine.hasPlayer n)
    (hplaces : ∀ c n, sys'.engine.presence.nameOf? c = some n → Places sys sys' c n) :
    sys'.Followed used where
  named c n s' hc hs' := by
    rcases hplaces c n hc with hhears | hcomes
    · obtain ⟨s, t, hs, ht, hname⟩ := hhears.name
      cases hs'.symm.trans ht
      exact hname (hfollowed.named c n s hhears.before hs)
    · obtain ⟨t, ht, hname⟩ := hcomes.name
      cases hs'.symm.trans ht
      exact hname
  single c d n hc hd := by
    rcases hplaces c n hc with hhears | hcomes
    · rcases hplaces d n hd with hhears' | hcomes
      · exact hfollowed.single c d n hhears.before hhears'.before
      · exact hcomes.single c hc
    · exact (hcomes.single d hd).symm
  players n hn := hfollowed.players n (hplayers n ▸ hn)
  renamings c n old new hc hx := by
    rw [hplayers]
    rcases hplaces c n hc with hhears | hcomes
    · rcases hhears.quiet _ hx with hx | hx
      · exact hfollowed.renamings c n old new hhears.before hx
      · cases hx
    · rw [hcomes.waiting] at hx
      cases hx

theorem Followed.mono {used' : Name → Prop} (hfollowed : sys.Followed used)
    (hle : ∀ n, used n → used' n) : sys.Followed used' where
  named := hfollowed.named
  single := hfollowed.single
  players n hn := hle n (hfollowed.players n hn)
  renamings c n old new hc hx := by
    obtain ⟨hold, hgone, hnew, hne⟩ := hfollowed.renamings c n old new hc hx
    exact ⟨hle old hold, hgone, hle new hnew, hne⟩

/-! ### After a renaming -/

theorem names_of_renameNews {e : Engine} {c d : Connection} {old new o w : Name}
    (hx : .renamed o w ∈ e.renameNews d old new c) : o = old ∧ w = new := by
  unfold Engine.renameNews at hx
  split at hx
  · cases hx
  · split at hx
    · simp only [List.mem_cons, List.not_mem_nil, or_false, reduceCtorEq, false_or] at hx
      cases hx
      exact ⟨rfl, rfl⟩
    · split at hx
      · cases List.mem_singleton.1 hx
        exact ⟨rfl, rfl⟩
      · cases hx

section

variable {d : Connection} {old new : Name} (hmoved : Moved sys sys' d old new) (h : sys.Sound)
  (hfollowed : sys.Followed used)
include hmoved h

/-- Who asks is told nothing. -/
theorem Moved.news_own : sys.engine.renameNews d old new d = [] := by
  obtain ⟨hfriend, hsent, hreceived⟩ := h.wellFormed.engine.graph.irreflexive old
  unfold Engine.renameNews
  rw [hmoved.place]
  simp [hfriend, hsent, hreceived]

omit h in
/-- What is told of the two names. -/
theorem Moved.report_of_news {c : Connection} {x : Notice} {m : Name} {t : Status}
    (hx : x ∈ sys.engine.renameNews d old new c) (hreport : x.report? = some (m, t)) :
    m = old ∨ m = new ∧ t = sys'.engine.presence.statusOf new := by
  rw [hmoved.status, if_pos rfl]
  unfold Engine.renameNews at hx
  split at hx
  · cases hx
  · split at hx
    · simp only [List.mem_cons, List.not_mem_nil, or_false] at hx
      rcases hx with rfl | rfl | rfl
      · cases hreport
        exact Or.inl rfl
      · cases hreport
        exact Or.inr ⟨rfl, rfl⟩
      · cases hreport
    · split at hx
      · rw [List.mem_singleton.1 hx] at hreport
        cases hreport
      · cases hx

include hfollowed in
/-- Under the new name only the session that asked is attached; the others are where they were. -/
theorem Moved.origin {c : Connection} {n : Name}
    (hc : sys'.engine.presence.nameOf? c = some n) :
    c = d ∧ n = new ∨
      c ≠ d ∧ sys.engine.presence.nameOf? c = some n ∧ n ≠ old ∧ n ≠ new := by
  rw [hmoved.names, Option.map_eq_some_iff] at hc
  obtain ⟨k, hk, hsub⟩ := hc
  unfold Ties.substitute at hsub
  by_cases hcd : c = d
  · subst hcd
    cases hk.symm.trans hmoved.place
    rw [if_pos rfl] at hsub
    exact Or.inl ⟨rfl, hsub.symm⟩
  · right
    have hother : k ≠ old := by
      rintro rfl
      exact hcd (hfollowed.single c d k hk hmoved.place)
    rw [if_neg hother] at hsub
    subst hsub
    exact ⟨hcd, hk, hother,
      Database.ne_of_hasPlayer (h.wellFormed.engine.players c k hk) hmoved.free⟩

include hfollowed in
theorem Moved.followed (hnew : ¬ used new) :
    sys'.Followed fun n => used n ∨ sys'.engine.hasPlayer n = true where
  named c n s' hc hs' := by
    rcases hmoved.origin h hfollowed hc with ⟨rfl, rfl⟩ | ⟨hcd, hbefore, -⟩
    · obtain ⟨s, -, hs⟩ := hmoved.own
      cases hs'.symm.trans hs
      rfl
    · rw [hmoved.others c hcd] at hs'
      exact hfollowed.named c n s' hbefore hs'
  single c e n hc he := by
    rcases hmoved.origin h hfollowed hc with ⟨rfl, rfl⟩ | ⟨-, hbefore, -, hne⟩
    · rcases hmoved.origin h hfollowed he with ⟨rfl, -⟩ | ⟨-, -, -, hne⟩
      · rfl
      · exact absurd rfl hne
    · rcases hmoved.origin h hfollowed he with ⟨-, hn⟩ | ⟨-, hbefore', -⟩
      · exact absurd hn hne
      · exact hfollowed.single c e n hbefore hbefore'
  players n hn := Or.inr hn
  renamings c n o w hc hx := by
    have hgone {o : Name} (hnone : o ≠ new) (hplayer : o = old ∨ sys.engine.hasPlayer o = false) :
        sys'.engine.hasPlayer o = false := by
      rw [← Bool.not_eq_true, hmoved.players]
      rintro (heq | ⟨hother, hthere⟩)
      · exact hnone heq
      · rcases hplayer with heq | hplayer
        · exact hother heq
        · exact Database.ne_of_hasPlayer hthere hplayer rfl
    have hplayer' : sys'.engine.hasPlayer new = true := (hmoved.players new).2 (Or.inl rfl)
    have horigin := hmoved.origin h hfollowed hc
    rw [hmoved.waiting, List.mem_append] at hx
    rcases hx with hx | hx
    · -- an older notice: both its names were used before, so neither of them is the new one
      obtain ⟨k, hk, hfrom⟩ : ∃ k, sys.engine.presence.nameOf? c = some k ∧ (n = k ∨ n = new) := by
        rcases horigin with ⟨rfl, hn⟩ | ⟨-, hbefore, -⟩
        · exact ⟨old, hmoved.place, Or.inr hn⟩
        · exact ⟨n, hbefore, Or.inl rfl⟩
      obtain ⟨hold, hnone, hw, hne⟩ := hfollowed.renamings c k o w hk hx
      refine ⟨Or.inl hold, hgone (fun heq => hnew (heq ▸ hold)) (Or.inr hnone), Or.inl hw, ?_⟩
      rcases hfrom with rfl | rfl
      · exact hne
      · exact fun heq => hnew (heq ▸ hw)
    · obtain ⟨rfl, rfl⟩ := names_of_renameNews hx
      rcases horigin with ⟨rfl, -⟩ | ⟨-, -, -, hother⟩
      · rw [hmoved.news_own h] at hx
        cases hx
      · have hthere := h.wellFormed.engine.players d o hmoved.place
        exact ⟨Or.inl (hfollowed.players o hthere), hgone hmoved.ne (Or.inl rfl), Or.inr hplayer',
          hother⟩

/-- Who has a friend after the renaming had the friend before, or has the one who was renamed. -/
theorem Moved.friend_before {n m k : Name} (hm : sys'.Friends n m)
    (hk : k = old ∧ n = new ∨ k ≠ old ∧ n = k ∧ n ≠ new) :
    sys.Friends k old ∧ m = new ∨ sys.Friends k m ∧ m ≠ old ∧ m ≠ new := by
  have hplayer {i j : Name} (hij : sys.Friends i j) : j ≠ new :=
    Database.ne_of_hasPlayer (h.database.hasPlayer_of_mem_peers
      (Ties.mem_peers.2 (Or.inl (h.wellFormed.friends_iff.1 hij)))) hmoved.free
  obtain ⟨i, j, hij, hi, hj⟩ := (hmoved.friends n m).1 hm
  have hinew := hplayer (h.wellFormed.friends_comm.1 hij)
  unfold Ties.substitute at hi hj
  have hik : i = k := by
    rcases hk with ⟨rfl, rfl⟩ | ⟨hne, rfl, hnew⟩
    · by_contra hother
      rw [if_neg hother] at hi
      exact hinew hi
    · by_cases hold : i = old
      · rw [if_pos hold] at hi
        exact absurd hi.symm hnew
      · rwa [if_neg hold] at hi
  subst hik
  by_cases hold : j = old
  · rw [if_pos hold] at hj
    exact Or.inl ⟨hold ▸ hij, hj.symm⟩
  · rw [if_neg hold] at hj
    exact Or.inr ⟨hj ▸ hij, hj ▸ hold, hj ▸ hplayer hij⟩

omit h in
theorem Moved.stays {m : Name} (hm : m ≠ old) {e : Connection}
    (he : sys.engine.presence.nameOf? e = some m) : sys'.engine.presence.nameOf? e = some m := by
  rw [hmoved.names, he, Option.map_some, Ties.substitute, if_neg hm]

omit h in
/-- Of a third player nobody thinks anything else. -/
theorem Moved.belief?_of_ne (c : Connection) {m : Name} (hold : m ≠ old) (hnew : m ≠ new) :
    sys'.belief? c m = sys.belief? c m := by
  have hnone : ∀ x ∈ sys.engine.renameNews d old new c, ¬ x.IsAbout m := by
    rintro x hx ⟨t, hreport⟩
    rcases hmoved.report_of_news hx hreport with hm | ⟨hm, -⟩
    · exact hold hm
    · exact hnew hm
  have hsession : (sys'.sessions.find? c).map (·.statusOf m) =
      (sys.sessions.find? c).map (·.statusOf m) := by
    by_cases hcd : c = d
    · obtain ⟨s, hs, hs'⟩ := hmoved.own
      rw [hcd, hs, hs']
      rfl
    · rw [hmoved.others c hcd]
  have hbelief (t : System) : t.belief? c m =
      ((t.sessions.find? c).map (·.statusOf m)).map
        (Notice.belief m · (t.engine.presence.waiting c)) := by
    rw [Option.map_map]
    rfl
  rw [hbelief, hbelief, hsession, hmoved.waiting]
  simp only [Notice.belief_append, Notice.belief_of_not_isAbout hnone]

/-- Somebody else knows the new name of a friend, and of the other friends what was known before. -/
theorem Moved.knows_other {c : Connection} {n m : Name} (hcd : c ≠ d)
    (hc : sys.engine.presence.nameOf? c = some n) (hold : n ≠ old) (hnew : n ≠ new)
    (hm : sys'.Friends n m) :
    sys'.Knows c n m ∨ sys.Friends n m ∧ m ≠ old ∧ (sys.Knows c n m → sys'.Knows c n m) := by
  obtain ⟨s, hs⟩ := h.wellFormed.present c n hc
  have hs' : sys'.sessions.find? c = some s := (hmoved.others c hcd).trans hs
  rcases hmoved.friend_before h hm (Or.inr ⟨hold, rfl, hnew⟩) with
    ⟨hfriend, rfl⟩ | ⟨hfriend, hmold, hmnew⟩
  · left
    refine knows_of_news ⟨s, hs'⟩ (hmoved.waiting c)
      ⟨.status m (sys.engine.presence.statusOf old), ?_, _, rfl⟩ ?_
    · unfold Engine.renameNews
      rw [hc]
      dsimp only
      rw [if_pos (h.wellFormed.friends_iff.1 (h.wellFormed.friends_comm.1 hfriend))]
      exact List.mem_cons_of_mem _ List.mem_cons_self
    · intro x hx t hreport
      rcases hmoved.report_of_news hx hreport with hm | ⟨-, ht⟩
      · exact absurd hm.symm hmoved.ne
      · exact ht
  · right
    refine ⟨hfriend, hmold, fun hknows => ?_⟩
    rcases hknows with hright | hawaits
    · left
      rw [hmoved.status, if_neg hmnew, if_neg hmold, ← hright]
      exact hmoved.belief?_of_ne c hmold hmnew
    · right
      refine hawaits.of_subset fun e he => ⟨hmoved.stays hmold he, ?_⟩
      rw [hmoved.waiting]
      exact List.subset_append_left _ _

/-- The session that asks goes on to think of its friends what it has heard; but the answers that it
    still awaits will not come. -/
theorem Moved.knows_own {m : Name} (hm : sys'.Friends new m) :
    sys.Friends old m ∧ m ≠ old ∧
      (sys.belief? d m = some (sys.engine.presence.statusOf m) → sys'.Knows d new m) := by
  rcases hmoved.friend_before h hm (Or.inl ⟨rfl, rfl⟩) with
    ⟨hself, -⟩ | ⟨hfriend, hmold, hmnew⟩
  · exact absurd hself (h.wellFormed.not_friends_self old)
  · refine ⟨hfriend, hmold, fun hright => ?_⟩
    left
    rw [hmoved.status, if_neg hmnew, if_neg hmold, ← hright]
    exact hmoved.belief?_of_ne d hmold hmnew

end

end

end Amity.System
