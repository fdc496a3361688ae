/-
  Amity/Proofs/Listing.lean
  =========================
  **A snapshot lists the friends by their statuses.**  `Snapshot.Lists` says what a client is to be
  shown: the player's friends, each with the status that the session has for it, first those who are
  connected, then those who are not, then those in a game, and within a status in the order of the
  ties.  `lists_iff_eq_snapshot` says that what is assembled is such a list and that there is no
  other, whatever the ties are and whatever else the session has been told.

  That there is no other rests on the sort: it looks at no more than the friends of each status, and
  a list that is in order already is what it makes of it.  For the same reason it is the stable sort
  by the ranks of the statuses (`sortFriends_eq_mergeSort`).
-/
import Amity.Session

namespace Amity

/-! ## The order of the friends -/

namespace Snapshot

/-- The friends stand in the order of their statuses. -/
def IsSorted (fs : List (Name × Status)) : Prop :=
  fs.Pairwise fun f g => f.2.rank ≤ g.2.rank

theorem sortFriends_eq (fs : List (Name × Status)) :
    sortFriends fs = fs.filter (·.2 = .connected) ++ (fs.filter (·.2 = .disconnected) ++
      fs.filter (·.2 = .inGame)) := by
  simp [sortFriends]

theorem status_of_mem_filter {fs : List (Name × Status)} {s : Status} {f : Name × Status}
    (hf : f ∈ fs.filter (·.2 = s)) : f.2 = s := by
  simpa using (List.mem_filter.1 hf).2

theorem isSorted_filter (s : Status) (fs : List (Name × Status)) :
    IsSorted (fs.filter (·.2 = s)) := by
  refine List.pairwise_of_forall_mem_list fun f hf g hg => Nat.le_of_eq ?_
  rw [status_of_mem_filter hf, status_of_mem_filter hg]

theorem isSorted_sortFriends (fs : List (Name × Status)) : IsSorted (sortFriends fs) := by
  unfold IsSorted
  rw [sortFriends_eq, List.pairwise_append, List.pairwise_append]
  refine ⟨isSorted_filter _ fs, ⟨isSorted_filter _ fs, isSorted_filter _ fs, ?_⟩, ?_⟩
  · intro f hf g hg
    rw [status_of_mem_filter hf, status_of_mem_filter hg]
    decide
  · intro f hf g _
    rw [status_of_mem_filter hf]
    exact Nat.zero_le _

/-- The friends of one status keep their order. -/
theorem filter_sortFriends (s : Status) (fs : List (Name × Status)) :
    (sortFriends fs).filter (·.2 = s) = fs.filter (·.2 = s) := by
  have hother : ∀ t : Status, t ≠ s → (fs.filter (·.2 = t)).filter (·.2 = s) = [] := by
    intro t ht
    refine List.filter_eq_nil_iff.2 fun f hf => ?_
    simpa [status_of_mem_filter hf] using ht
  rw [sortFriends_eq]
  cases s <;> simp [List.filter_append, hother]

/-- A list that is in order is what the sort makes of it. -/
theorem sortFriends_of_isSorted {fs : List (Name × Status)} (h : IsSorted fs) :
    sortFriends fs = fs := by
  induction fs with
  | nil => rfl
  | cons f fs ih =>
    obtain ⟨hfirst, hrest⟩ := List.pairwise_cons.1 h
    have hbefore : ∀ s : Status, s.rank < f.2.rank → fs.filter (·.2 = s) = [] := by
      intro s hs
      refine List.filter_eq_nil_iff.2 fun g hg hgs => ?_
      have hle := hfirst g hg
      rw [of_decide_eq_true hgs] at hle
      omega
    have ih := ih hrest
    rw [sortFriends_eq] at ih ⊢
    obtain ⟨n, s⟩ := f
    cases s with
    | connected => simpa using ih
    | disconnected =>
      have hconnected := hbefore .connected Nat.zero_lt_one
      rw [hconnected] at ih
      simpa [hconnected] using ih
    | inGame =>
      have hconnected := hbefore .connected Nat.zero_lt_two
      have hdisconnected := hbefore .disconnected Nat.one_lt_two
      rw [hconnected, hdisconnected] at ih
      simpa [hconnected, hdisconnected] using ih

/-- What is in order is determined by the friends of each status. -/
theorem eq_of_isSorted {fs gs : List (Name × Status)} (hfs : IsSorted fs) (hgs : IsSorted gs)
    (h : ∀ s : Status, fs.filter (·.2 = s) = gs.filter (·.2 = s)) : fs = gs :=
  calc fs = sortFriends fs := (sortFriends_of_isSorted hfs).symm
    _ = sortFriends gs := by rw [sortFriends_eq, sortFriends_eq, h, h, h]
    _ = gs := sortFriends_of_isSorted hgs

/-! ### The stable sort by the ranks -/

/-- Whether a friend may stand before another one. -/
def precedes (f g : Name × Status) : Bool := f.2.rank ≤ g.2.rank

theorem precedes_trans (f g k : Name × Status) (hfg : precedes f g) (hgk : precedes g k) :
    precedes f k := by
  simp only [precedes, decide_eq_true_eq] at *
  exact Nat.le_trans hfg hgk

theorem precedes_total (f g : Name × Status) : precedes f g || precedes g f := by
  simp only [precedes, Bool.or_eq_true, decide_eq_true_eq]
  exact Nat.le_total _ _

theorem isSorted_iff {fs : List (Name × Status)} :
    IsSorted fs ↔ fs.Pairwise fun f g => precedes f g := by
  simp [IsSorted, precedes]

theorem isSorted_mergeSort (fs : List (Name × Status)) : IsSorted (fs.mergeSort precedes) :=
  isSorted_iff.2 (List.pairwise_mergeSort precedes_trans precedes_total fs)

/-- The friends of one status are in order already, so that a stable sort keeps theirs. -/
theorem filter_mergeSort (s : Status) (fs : List (Name × Status)) :
    (fs.mergeSort precedes).filter (·.2 = s) = fs.filter (·.2 = s) := by
  have hkept : (fs.filter (·.2 = s)).Sublist (fs.mergeSort precedes) :=
    List.sublist_mergeSort precedes_trans precedes_total (isSorted_iff.1 (isSorted_filter s fs))
      List.filter_sublist
  have hsublist := hkept.filter (·.2 = s)
  simp only [List.filter_filter, Bool.and_self] at hsublist
  have hperm := (List.mergeSort_perm fs precedes).filter (·.2 = s)
  exact (hsublist.eq_of_length hperm.length_eq.symm).symm

/-- Sorting is the stable sort by the ranks of the statuses. -/
theorem sortFriends_eq_mergeSort (fs : List (Name × Status)) :
    sortFriends fs = fs.mergeSort precedes :=
  eq_of_isSorted (isSorted_sortFriends fs) (isSorted_mergeSort fs) fun s =>
    (filter_sortFriends s fs).trans (filter_mergeSort s fs).symm

/-- Sorting loses nothing and makes nothing up. -/
theorem sortFriends_perm (fs : List (Name × Status)) : (sortFriends fs).Perm fs := by
  rw [sortFriends_eq_mergeSort]
  exact List.mergeSort_perm fs precedes

/-! ## What a session shows -/

/-- The snapshot shows these ties with these statuses. -/
structure Lists (v : Snapshot) (statusOf : Name → Status) (t : Ties) : Prop where
  /-- The friends are all there, as often as the ties have them, each with the status. -/
  complete : v.friends.Perm (t.friends.map fun n => (n, statusOf n))
  /-- Connected comes before disconnected, and that before in-game. -/
  sorted : IsSorted v.friends
  /-- The friends of one status stand in the order of the ties. -/
  stable : ∀ s : Status,
    v.friends.filter (·.2 = s) = (t.friends.filter (statusOf · = s)).map fun n => (n, s)
  sent : v.sent = t.sent
  received : v.received = t.received
  /-- A status is found for the friends and for nobody else. -/
  found : ∀ n, v.statusOf? n = if n ∈ t.friends then some (statusOf n) else none

variable (statusOf : Name → Status)

theorem filter_map_pair (s : Status) (ns : List Name) :
    (ns.map fun n => (n, statusOf n)).filter (·.2 = s) =
      (ns.filter (statusOf · = s)).map fun n => (n, s) := by
  rw [List.filter_map]
  refine List.map_congr_left fun n hn => ?_
  have hs : statusOf n = s := by simpa using (List.mem_filter.1 hn).2
  rw [hs]

/-- Where every entry has the status of its player, it does not matter which one is found. -/
theorem lookup_of_forall {fs : List (Name × Status)} (h : ∀ f ∈ fs, f.2 = statusOf f.1)
    (n : Name) : fs.lookup n = if n ∈ fs.map Prod.fst then some (statusOf n) else none := by
  induction fs with
  | nil => rfl
  | cons f fs ih =>
    obtain ⟨m, s⟩ := f
    obtain ⟨hfirst, hrest⟩ := List.forall_mem_cons.1 h
    obtain rfl : s = statusOf m := hfirst
    rw [List.lookup_cons, ih hrest]
    by_cases hn : n = m
    · simp [hn]
    · simp only [beq_eq_false_iff_ne.2 hn, List.map_cons, List.mem_cons, hn, false_or]

variable {statusOf} in
theorem found_of_perm {fs : List (Name × Status)} {ns : List Name}
    (h : fs.Perm (ns.map fun n => (n, statusOf n))) (n : Name) :
    fs.lookup n = if n ∈ ns then some (statusOf n) else none := by
  have hstatus : ∀ f ∈ fs, f.2 = statusOf f.1 := by
    intro f hf
    obtain ⟨m, -, rfl⟩ := List.mem_map.1 (h.mem_iff.1 hf)
    rfl
  have hnames : n ∈ fs.map Prod.fst ↔ n ∈ ns := by
    rw [(h.map Prod.fst).mem_iff]
    simp
  rw [lookup_of_forall statusOf hstatus]
  simp only [hnames]

end Snapshot

theorem Session.lists_snapshot (s : Session) (t : Ties) : (s.snapshot t).Lists s.statusOf t where
  complete := Snapshot.sortFriends_perm _
  sorted := Snapshot.isSorted_sortFriends _
  stable u := (Snapshot.filter_sortFriends u _).trans (Snapshot.filter_map_pair s.statusOf u _)
  sent := rfl
  received := rfl
  found := Snapshot.found_of_perm (Snapshot.sortFriends_perm _)

/-- **A session shows its player's ties in the one right order**, whatever it has been told, and
    about whomever: the snapshot lists them, and no other snapshot does. -/
theorem Session.lists_iff_eq_snapshot (s : Session) (t : Ties) (v : Snapshot) :
    v.Lists s.statusOf t ↔ v = s.snapshot t := by
  constructor
  · intro h
    have hs := s.lists_snapshot t
    have hfriends : v.friends = (s.snapshot t).friends :=
      Snapshot.eq_of_isSorted h.sorted hs.sorted fun u => (h.stable u).trans (hs.stable u).symm
    obtain ⟨friends, sent, received⟩ := v
    obtain rfl : friends = (s.snapshot t).friends := hfriends
    obtain rfl : sent = t.sent := h.sent
    obtain rfl : received = t.received := h.received
    rfl
  · rintro rfl
    exact s.lists_snapshot t

/-- A friend who is there twice, a status of somebody who is no friend, and a friend whose status
    was forgotten. -/
example :
    let q : Name := ⟨"q", by decide⟩
    let r : Name := ⟨"r", by decide⟩
    let u : Name := ⟨"u", by decide⟩
    let s := (((Session.start ⟨0⟩ u).learn q .inGame).learn u .connected).learn r .connected
    (s.forget q).snapshot ⟨[q, r, q], [u], []⟩ =
      ⟨[(r, .connected), (q, .disconnected), (q, .disconnected)], [u], []⟩ := by
  decide +kernel

end Amity
