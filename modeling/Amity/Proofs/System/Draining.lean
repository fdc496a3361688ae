/-
  Amity/Proofs/System/Draining.lean
  =================================
  **Draining ends.**  The sessions read what waits for them, one notice at a time and in whatever
  order.  Handling a probe may post an answer to another session, or to the one that reads, so that
  the number of waiting notices need not fall.  Their weight does: a probe counts two and an answer
  is no probe.

  Nothing is asked of the system.  The names that sessions remember may be old ones, the probes may
  name anybody, mailboxes may be full, and sessions may have lost their places.
-/
import Mathlib.Algebra.BigOperators.Group.List.Basic
import Amity.Proofs.Presence.Holdings
import Amity.Proofs.System.Inputs

namespace Amity

def Notice.isProbe : Notice → Bool
  | .probe .. => true
  | _ => false

namespace Presence

/-- An answer is taken or it is not. -/
theorem perm_holdings_sendTo (p : Presence) (n : Name) (c : Connection) (x : Notice) :
    (p.sendTo n c x).2.holdings.Perm p.holdings ∨
      (p.sendTo n c x).2.holdings.Perm (x :: p.holdings) := by
  unfold sendTo
  split
  · obtain ⟨arrived, hsublist, -, hperm⟩ := p.perm_holdings_deliver [(c, x)]
    rcases List.sublist_singleton.1 hsublist with rfl | rfl
    · exact Or.inl hperm
    · exact Or.inr hperm
  · exact Or.inl (.refl _)

theorem group_sendTo_sublist (p : Presence) (n : Name) (c : Connection) (x : Notice) (m : Name) :
    ((p.sendTo n c x).2.group m).Sublist (p.group m) := by
  unfold sendTo
  split
  · have hgroup := group_deliver p [(c, x)] m
    exact hgroup ▸ List.filter_sublist
  · exact List.Sublist.refl _

end Presence

namespace System

/-! ## Weights -/

theorem weightOf_eq_sum (xs : List Notice) : weightOf xs = (xs.map noticeWeight).sum := by
  induction xs with
  | nil => rfl
  | cons x xs ih => rw [weightOf, List.map_cons, List.sum_cons, ih]

theorem weightOf_of_perm {xs ys : List Notice} (h : xs.Perm ys) : weightOf xs = weightOf ys := by
  rw [weightOf_eq_sum, weightOf_eq_sum]
  exact (h.map noticeWeight).sum_eq

theorem weightOf_eq_count (xs : List Notice) :
    weightOf xs = xs.countP (!·.isProbe) + 2 * xs.countP (·.isProbe) := by
  induction xs with
  | nil => rfl
  | cons x xs ih =>
    rw [weightOf, ih, List.countP_cons, List.countP_cons]
    cases x <;> simp [noticeWeight, Notice.isProbe] <;> omega

theorem noticeWeight_pos (x : Notice) : 0 < noticeWeight x := by
  cases x <;> exact Nat.succ_pos _

/-- Handling a notice posts nothing, or an answer when it is a probe. -/
theorem weightOf_handleNotice (e : Engine) (s : Session) (x : Notice) :
    weightOf (e.handleNotice s x).engine.presence.holdings + 1 ≤
      noticeWeight x + weightOf e.presence.holdings := by
  have hpos := noticeWeight_pos x
  rcases e.handleNotice_cases s x with ⟨-, heq⟩ | ⟨asker, status, replyTo, rfl, -, heq⟩
  · rw [heq]
    omega
  · rw [heq]
    dsimp only
    rcases e.presence.perm_holdings_sendTo asker replyTo
      (.status s.name (e.presence.statusOf s.name)) with hperm | hperm
    · rw [weightOf_of_perm hperm]
      omega
    · rw [weightOf_of_perm hperm]
      simp only [weightOf, noticeWeight]
      omega

/-! ## One notice -/

variable {sys sys' last : System} {c : Connection} {x : Notice} {reply : Reply}
  {cs : List Connection}

theorem readOne_eq_some (h : sys.readOne c = some (x, reply, sys')) :
    ∃ s presence, sys.sessions.find? c = some s ∧
      sys.engine.presence.takeNotice c = some (x, presence) ∧
      sys' = (sys.keep (({ sys.engine with presence } : Engine).handleNotice s x)).2 := by
  simp only [readOne, handle, Option.bind_eq_bind, Option.bind_eq_some_iff] at h
  obtain ⟨⟨y, presence⟩, htake, ⟨answer, after⟩, hhandle, hresult⟩ := h
  obtain ⟨s, hfind, hkeep⟩ := Option.map_eq_some_iff.1 hhandle
  cases hresult
  exact ⟨s, presence, hfind, htake, (congrArg Prod.snd hkeep).symm⟩

theorem readOne_eq_none_iff :
    sys.readOne c = none ↔
      ((sys.sessions.find? c).isSome = true → sys.engine.presence.waiting c = []) := by
  unfold readOne Presence.takeNotice handle
  cases sys.engine.presence.waiting c with
  | nil => simp
  | cons x xs => cases hfind : sys.sessions.find? c <;> simp [hfind]

/-- What waits gets lighter with every notice that is read. -/
theorem weight_readOne (h : sys.readOne c = some (x, reply, sys')) :
    sys'.weight + 1 ≤ sys.weight := by
  obtain ⟨s, presence, -, htake, rfl⟩ := readOne_eq_some h
  have htaken : sys.weight = noticeWeight x + weightOf presence.holdings :=
    weightOf_of_perm (Presence.perm_holdings_takeNotice htake)
  rw [htaken]
  exact weightOf_handleNotice { sys.engine with presence } s x

theorem readOne_of_weight (h : sys.weight = 0) (c : Connection) : sys.readOne c = none := by
  refine Option.eq_none_iff_forall_ne_some.2 fun r hread => ?_
  have hlighter := weight_readOne hread
  omega

/-- What reading keeps: nothing is stored, nobody comes, and the sessions are there. -/
structure Drains (sys sys' : System) : Prop where
  database : sys'.engine.database = sys.engine.database
  group : ∀ n, (sys'.engine.presence.group n).Sublist (sys.engine.presence.group n)
  owners : sys'.engine.presence.owners = sys.engine.presence.owners
  sessions : ∀ c, (sys.sessions.find? c).isSome = true → (sys'.sessions.find? c).isSome = true

theorem Drains.refl (sys : System) : sys.Drains sys where
  database := rfl
  group _ := List.Sublist.refl _
  owners := rfl
  sessions _ := id

theorem Drains.trans (h : sys.Drains sys') (h' : sys'.Drains last) : sys.Drains last where
  database := h'.database.trans h.database
  group n := (h'.group n).trans (h.group n)
  owners := h'.owners.trans h.owners
  sessions c hc := h'.sessions c (h.sessions c hc)

theorem drains_keep {e : Engine} {s : Session} (hdatabase : e.database = sys.engine.database)
    (hgroups : e.presence.groups = sys.engine.presence.groups)
    (howners : e.presence.owners = sys.engine.presence.owners) :
    sys.Drains (sys.keep (e.handleNotice s x)).2 := by
  have hgroup := fun n => Presence.group_of_groups hgroups n
  have hsessions : ∀ c, (sys.sessions.find? c).isSome = true →
      ((sys.keep (e.handleNotice s x)).2.sessions.find? c).isSome = true := by
    intro c hc
    rw [find?_keep]
    split
    · rfl
    · exact hc
  rcases e.handleNotice_cases s x with ⟨-, heq⟩ | ⟨asker, status, replyTo, -, -, heq⟩
  · refine ⟨?_, fun n => ?_, ?_, hsessions⟩
    · exact (congrArg (·.database) heq).trans hdatabase
    · have hsame := (congrArg (·.presence.group n) heq).trans (hgroup n)
      exact hsame ▸ List.Sublist.refl _
    · exact (congrArg (·.presence.owners) heq).trans howners
  · rw [heq] at hsessions ⊢
    refine ⟨hdatabase, fun n => ?_, ?_, hsessions⟩
    · exact hgroup n ▸ e.presence.group_sendTo_sublist _ _ _ n
    · exact (e.presence.owners_sendTo _ _ _).trans howners

theorem drains_readOne (h : sys.readOne c = some (x, reply, sys')) : sys.Drains sys' := by
  obtain ⟨s, presence, -, htake, rfl⟩ := readOne_eq_some h
  unfold Presence.takeNotice at htake
  split at htake
  · cases htake
  · cases htake
    exact drains_keep rfl rfl rfl

/-! ## Schedules -/

/-- The connections read one notice each, in this order, and lead from the one system to the
    other. -/
inductive Schedule : System → List Connection → System → Prop where
  | done (sys : System) : Schedule sys [] sys
  | next {sys sys' last : System} {c : Connection} {x : Notice} {reply : Reply}
      {cs : List Connection} (hread : sys.readOne c = some (x, reply, sys'))
      (hlater : Schedule sys' cs last) : Schedule sys (c :: cs) last

theorem Schedule.append {ds : List Connection} (h : sys.Schedule cs sys')
    (h' : sys'.Schedule ds last) : sys.Schedule (cs ++ ds) last := by
  induction h with
  | done => exact h'
  | next hread _ ih => exact .next hread (ih h')

theorem Schedule.weight (h : sys.Schedule cs last) : cs.length + last.weight ≤ sys.weight := by
  induction h with
  | done => exact Nat.le_of_eq (Nat.zero_add _)
  | next hread _ ih =>
    have hstep := weight_readOne hread
    rw [List.length_cons]
    omega

theorem Schedule.drains (h : sys.Schedule cs last) : sys.Drains last := by
  induction h with
  | done => exact .refl _
  | next hread _ ih => exact (drains_readOne hread).trans ih

/-- Nothing waits for any session. -/
def IsDrained (sys : System) : Prop :=
  ∀ c, (sys.sessions.find? c).isSome = true → sys.engine.presence.waiting c = []

theorem isDrained_iff : sys.IsDrained ↔ ∀ c, sys.readOne c = none := by
  unfold IsDrained
  simp only [readOne_eq_none_iff]

/-- As long as something waits for a session, one more notice can be read. -/
theorem exists_schedule_isDrained (sys : System) :
    ∃ cs last, sys.Schedule cs last ∧ last.IsDrained := by
  induction hweight : sys.weight using Nat.strong_induction_on generalizing sys with
  | h k ih =>
    by_cases hdrained : sys.IsDrained
    · exact ⟨[], sys, .done sys, hdrained⟩
    · rw [isDrained_iff, not_forall] at hdrained
      obtain ⟨c, hc⟩ := hdrained
      obtain ⟨⟨x, reply, sys'⟩, hread⟩ := Option.ne_none_iff_exists'.1 hc
      have hlighter := weight_readOne hread
      obtain ⟨cs, last, hschedule, hlast⟩ := ih sys'.weight (by omega) sys' rfl
      exact ⟨c :: cs, last, .next hread hschedule, hlast⟩

/-- What can be said of all schedules of a system. -/
structure DrainingEnds (sys : System) : Prop where
  /-- A schedule is no longer than what waits allows. -/
  bound : ∀ cs last, sys.Schedule cs last →
    cs.length ≤ sys.engine.presence.holdings.countP (!·.isProbe) +
      2 * sys.engine.presence.holdings.countP (·.isProbe)
  /-- It can be continued until nothing waits for any session, and it cannot be continued exactly
      then. -/
  ends : ∀ cs last, sys.Schedule cs last → ∃ more final, last.Schedule more final ∧ final.IsDrained
  stops : ∀ cs last, sys.Schedule cs last → (last.IsDrained ↔ ∀ c, last.readOne c = none)
  /-- The database is as it was, and whoever has a place had it before. -/
  keeps : ∀ cs last, sys.Schedule cs last → sys.Drains last

/-- **Draining ends**, from every system and by every schedule. -/
theorem drainingEnds (sys : System) : sys.DrainingEnds where
  bound cs last h := by
    have hweight := h.weight
    have hcount : sys.weight = _ := weightOf_eq_count sys.engine.presence.holdings
    omega
  ends _ last _ := last.exists_schedule_isDrained
  stops _ _ _ := isDrained_iff
  keeps _ _ h := h.drains

/-! ## Reading until nothing waits -/

/-- A session that reads may stop early only because nothing waits for it. -/
theorem schedule_readUpTo (c : Connection) (limit : Nat) (sys : System) :
    sys.Schedule (.replicate (readUpTo c limit sys).1.length c) (readUpTo c limit sys).2 ∧
      ((readUpTo c limit sys).1.length = limit ∨ (readUpTo c limit sys).2.readOne c = none) := by
  induction limit generalizing sys with
  | zero => exact ⟨.done sys, Or.inl rfl⟩
  | succ limit ih =>
    unfold readUpTo
    cases hread : sys.readOne c with
    | none => exact ⟨.done sys, Or.inr hread⟩
    | some r =>
      obtain ⟨hschedule, hstops⟩ := ih r.2.2
      exact ⟨.next hread hschedule, hstops.imp_left (congrArg (· + 1))⟩

/-- The weight is limit enough. -/
theorem readOne_readAll (c : Connection) (sys : System) : (readAll c sys).2.readOne c = none := by
  obtain ⟨hschedule, hlimit | hnone⟩ := schedule_readUpTo c sys.weight sys
  · -- all the weight is used up, so there is nothing to read
    have hweight : _ + (readAll c sys).2.weight ≤ sys.weight := hschedule.weight
    rw [List.length_replicate, hlimit] at hweight
    exact readOne_of_weight (by omega) c
  · exact hnone

theorem schedule_readAll (c : Connection) (sys : System) :
    sys.Schedule (.replicate (readAll c sys).1.length c) (readAll c sys).2 :=
  (schedule_readUpTo c sys.weight sys).1

theorem readAll_of_length (h : (readAll c sys).1.length = 0) : (readAll c sys).2 = sys := by
  have hschedule := schedule_readAll c sys
  rw [h] at hschedule
  generalize (readAll c sys).2 = last at hschedule
  cases hschedule
  rfl

/-- A turn through the list is a schedule.  When nobody has read, there was nothing to read. -/
theorem schedule_readEach (cs : List Connection) (sys : System) :
    (∃ ds, ds.length = (readEach cs sys).1.sum ∧ sys.Schedule ds (readEach cs sys).2) ∧
      ((readEach cs sys).1.all (· = 0) = true →
        (readEach cs sys).2 = sys ∧ ∀ c ∈ cs, sys.readOne c = none) := by
  induction cs generalizing sys with
  | nil => exact ⟨⟨[], rfl, .done sys⟩, fun _ => ⟨rfl, nofun⟩⟩
  | cons c cs ih =>
    obtain ⟨⟨ds, hlength, hschedule⟩, hquiet⟩ := ih (readAll c sys).2
    refine ⟨⟨.replicate (readAll c sys).1.length c ++ ds, ?_, ?_⟩, fun hall => ?_⟩
    · rw [List.length_append, List.length_replicate, hlength]
      rfl
    · exact (schedule_readAll c sys).append hschedule
    · have hall : (decide ((readAll c sys).1.length = 0) &&
          (readEach cs (readAll c sys).2).1.all (· = 0)) = true := hall
      rw [Bool.and_eq_true, decide_eq_true_eq] at hall
      have hsame := readAll_of_length hall.1
      have hnone := readOne_readAll c sys
      rw [hsame] at hquiet hnone
      obtain ⟨hlast, hothers⟩ := hquiet (hsame ▸ hall.2)
      refine ⟨?_, ?_⟩
      · show (readEach cs (readAll c sys).2).2 = sys
        rw [hsame]
        exact hlast
      · rintro d (_ | ⟨_, hd⟩)
        · exact hnone
        · exact hothers d hd

theorem snd_readRounds_succ (cs : List Connection) (rounds : Nat) (sys : System) :
    (readRounds cs (rounds + 1) sys).2 =
      if (readEach cs sys).1.all (· = 0) then (readEach cs sys).2
      else (readRounds cs rounds (readEach cs sys).2).2 := by
  show (if (readEach cs sys).1.all (· = 0) then _ else _ : List Nat × System).2 = _
  split <;> rfl

theorem schedule_readRounds (cs : List Connection) (rounds : Nat) (sys : System)
    (hrounds : sys.weight ≤ rounds) :
    ∃ ds, sys.Schedule ds (readRounds cs rounds sys).2 ∧
      ∀ c ∈ cs, (readRounds cs rounds sys).2.readOne c = none := by
  induction rounds generalizing sys with
  | zero =>
    exact ⟨[], .done sys, fun c _ => readOne_of_weight (Nat.le_zero.1 hrounds) c⟩
  | succ rounds ih =>
    obtain ⟨⟨ds, hlength, hschedule⟩, hquiet⟩ := schedule_readEach cs sys
    rw [snd_readRounds_succ]
    split
    · next hall =>
      obtain ⟨hlast, hnone⟩ := hquiet hall
      refine ⟨ds, hschedule, ?_⟩
      rw [hlast]
      exact hnone
    · next hall =>
      have hpos : 0 < ds.length := by
        rw [hlength, Nat.pos_iff_ne_zero, ne_eq, List.sum_eq_zero_iff_forall_eq_nat]
        simpa using hall
      have hweight := hschedule.weight
      obtain ⟨more, hmore, hnone⟩ := ih (readEach cs sys).2 (by omega)
      exact ⟨ds ++ more, hschedule.append hmore, hnone⟩

/-- Reading in turn ends when nothing waits for any of the sessions. -/
theorem schedule_settle (cs : List Connection) (sys : System) :
    ∃ ds, sys.Schedule ds (settle cs sys).2 ∧ ∀ c ∈ cs, (settle cs sys).2.readOne c = none :=
  schedule_readRounds cs sys.weight sys (Nat.le_refl _)

/-- The bound is reached: with a probe and an update waiting, three notices are read. -/
example :
    let sys := (start .empty 64).run
      [.action (.create ⟨"q", Name.isValid_q⟩), .action (.create ⟨"r", Name.isValid_r⟩),
        .action (.connect ⟨"q", Name.isValid_q⟩), .action (.connect ⟨"r", Name.isValid_r⟩),
        .action (.command ⟨0⟩ (.request "r")), .action (.read ⟨1⟩),
        .action (.command ⟨1⟩ (.accept "q"))]
    sys.engine.presence.waiting ⟨0⟩ =
        [.probe ⟨"r", Name.isValid_r⟩ .connected ⟨1⟩, .update none] ∧
      (settle [⟨0⟩, ⟨1⟩] sys).1 = [2, 1] := by
  decide +kernel

end System

end Amity
