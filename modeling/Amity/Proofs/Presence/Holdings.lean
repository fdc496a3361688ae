/-
  Amity/Proofs/Presence/Holdings.lean
  ===================================
  **What waits altogether.**  The holdings of the registry are the notices in all mailboxes; in which
  order does not matter.  To read a notice takes it out of them, and a delivery adds the notices
  that were taken, as many as it counts.  So what can be said of the holdings is that they are a
  permutation, and numbers and weights of notices follow from that.
-/
import Mathlib.Data.List.Perm.Basic
import Amity.Proofs.Presence.Calls
import Amity.Proofs.Presence.Room

namespace Amity

/-- The entry of a key can be put in front. -/
theorem Table.perm_of_find? {κ ν : Type} [DecidableEq κ] {t : Table κ ν} {k : κ} {v : ν}
    (h : t.find? k = some v) : t.entries.Perm ((k, v) :: (t.erase k).entries) := by
  obtain ⟨before, later, heq⟩ := List.append_of_mem (Table.mem_entries_iff.2 h)
  have hdistinct := t.distinct
  rw [heq, List.map_append, List.map_cons, List.nodup_middle, List.nodup_cons,
    ← List.map_append] at hdistinct
  have hothers : ∀ e ∈ before ++ later, e.1 ≠ k := by
    intro e he hk
    have hkey : e.1 ∈ (before ++ later).map Prod.fst := List.mem_map_of_mem he
    exact hdistinct.1 (hk ▸ hkey)
  have herase : (t.erase k).entries = before ++ later := by
    show t.entries.filter (·.1 ≠ k) = before ++ later
    rw [heq, List.filter_append, List.filter_cons_of_neg (by simp), ← List.filter_append]
    refine List.filter_eq_self.2 fun e he => ?_
    exact decide_eq_true (hothers e he)
  rw [heq, herase]
  exact List.perm_middle

namespace Presence

/-- Everything that waits, in whatever mailbox. -/
def holdings (p : Presence) : List Notice := p.boxes.entries.flatMap fun e => e.2.items

/-- The holdings in all mailboxes but one. -/
def holdingsBeside (p : Presence) (c : Connection) : List Notice :=
  (p.boxes.erase c).entries.flatMap fun e => e.2.items

theorem perm_holdings {p : Presence} {c : Connection} {b : Mailbox}
    (h : p.boxes.find? c = some b) : p.holdings.Perm (b.items ++ p.holdingsBeside c) :=
  (Table.perm_of_find? h).flatMap_right _

/-- A mailbox that is put in the place of another brings its notices. -/
theorem holdings_of_insert {p q : Presence} {c : Connection} {b : Mailbox}
    (h : q.boxes = p.boxes.insert c b) : q.holdings = b.items ++ p.holdingsBeside c := by
  unfold holdings
  rw [h]
  rfl

/-- To read a notice takes it out. -/
theorem perm_holdings_takeNotice {p q : Presence} {c : Connection} {x : Notice}
    (h : p.takeNotice c = some (x, q)) : p.holdings.Perm (x :: q.holdings) := by
  unfold takeNotice at h
  cases hfind : p.boxes.find? c with
  | none => simp [waiting, hfind] at h
  | some b =>
    have hwaiting : p.waiting c = b.items := by rw [waiting_eq, hfind]; rfl
    rw [hwaiting] at h
    cases hitems : b.items with
    | nil => simp [hitems] at h
    | cons y ys =>
      simp only [hitems, Option.some.injEq, Prod.mk.injEq] at h
      obtain ⟨rfl, rfl⟩ := h
      have hafter : (p.editBox c fun b => { b with items := ys }).boxes =
          p.boxes.insert c { b with items := ys } := by
        simp only [editBox, Table.modify, hfind]
      have hbefore := perm_holdings hfind
      rw [hitems] at hbefore
      rw [holdings_of_insert hafter]
      exact hbefore

theorem perm_holdings_editBox (p : Presence) (c : Connection) {f : Mailbox → Mailbox}
    (hf : ∀ b, (f b).items = b.items) : (p.editBox c f).holdings.Perm p.holdings := by
  cases hfind : p.boxes.find? c with
  | none =>
    have hsame : (p.editBox c f).boxes = p.boxes := by simp only [editBox, Table.modify, hfind]
    unfold holdings
    rw [hsame]
  | some b =>
    have hafter : (p.editBox c f).boxes = p.boxes.insert c (f b) := by
      simp only [editBox, Table.modify, hfind]
    rw [holdings_of_insert hafter, hf]
    exact (perm_holdings hfind).symm

theorem perm_holdings_cancelAll (cs : List Connection) (p : Presence) :
    (cancelAll cs p).holdings.Perm p.holdings := by
  unfold cancelAll
  induction cs generalizing p with
  | nil => exact .refl _
  | cons c cs ih => exact (ih _).trans (p.perm_holdings_editBox c fun _ => rfl)

theorem perm_holdings_post (p : Presence) (c : Connection) (x : Notice) :
    (p.post c x).2.holdings.Perm ((if (p.post c x).1 then [x] else []) ++ p.holdings) := by
  unfold post
  cases hpost : (p.boxes.find? c).bind (·.post? x) with
  | none => exact .refl _
  | some b =>
    obtain ⟨old, hfind, hb⟩ := Option.bind_eq_some_iff.1 hpost
    obtain ⟨-, rfl⟩ := Mailbox.post?_eq_some_iff.1 hb
    have hbefore := perm_holdings hfind
    refine .trans (.of_eq (holdings_of_insert (p := p) (c := c) rfl)) ?_
    show (old.items ++ [x] ++ p.holdingsBeside c).Perm ([x] ++ p.holdings)
    rw [List.append_assoc]
    exact List.perm_middle.trans (hbefore.symm.cons x)

/-- Posting adds as many of the notices as are taken. -/
theorem perm_holdings_postAll (targets : List (Connection × Notice)) (p : Presence) :
    ∃ arrived, arrived.Sublist (targets.map (·.2)) ∧ arrived.length = (postAll targets p).1 ∧
      (postAll targets p).2.2.holdings.Perm (arrived ++ p.holdings) := by
  induction targets generalizing p with
  | nil => exact ⟨[], List.nil_sublist _, rfl, .refl _⟩
  | cons t targets ih =>
    obtain ⟨c, x⟩ := t
    obtain ⟨arrived, hsublist, hlength, hperm⟩ := ih (p.post c x).2
    have hfirst := p.perm_holdings_post c x
    rw [snd_postAll_cons, postAll_cons]
    by_cases htaken : (p.post c x).1 = true
    · rw [if_pos htaken] at hfirst ⊢
      refine ⟨x :: arrived, hsublist.cons_cons x, congrArg (· + 1) hlength, ?_⟩
      exact hperm.trans ((hfirst.append_left arrived).trans List.perm_middle)
    · rw [if_neg htaken] at hfirst ⊢
      exact ⟨arrived, hsublist.cons x, hlength, hperm.trans (hfirst.append_left arrived)⟩

theorem perm_holdings_deliver (p : Presence) (targets : List (Connection × Notice)) :
    ∃ arrived, arrived.Sublist (targets.map (·.2)) ∧ arrived.length = (p.deliver targets).1 ∧
      (p.deliver targets).2.holdings.Perm (arrived ++ p.holdings) := by
  obtain ⟨arrived, hsublist, hlength, hperm⟩ := perm_holdings_postAll targets p
  refine ⟨arrived, hsublist, hlength, ?_⟩
  rw [deliver_eq]
  dsimp only
  split
  · exact hperm
  · exact (perm_holdings_cancelAll _ _).trans hperm

/-- The number that a delivery gives is by how much the holdings grow. -/
theorem length_holdings_deliver (p : Presence) (targets : List (Connection × Notice)) :
    (p.deliver targets).2.holdings.length = p.holdings.length + (p.deliver targets).1 := by
  obtain ⟨arrived, -, hlength, hperm⟩ := p.perm_holdings_deliver targets
  rw [hperm.length_eq, List.length_append, hlength, Nat.add_comm]

end Presence

end Amity
