/-
  Amity/Proofs/Graph/Simulation.lean
  ==================================
  **The records act as one graph of pairs.**  On every graph that can come about the operations are
  the plain ones on the set of friendships and the set of requests: put a pair in, take a pair out,
  put a name in the place of another, ask whether a pair is in.  `ActsOnPairs` says so, one field
  for each operation, and for each also which records may change and that lists keep their order.

  The four operations that tell whether they did something share one shape (`MakesWhen`), and so
  do the questions that list players (`Lists`).
-/
import Amity.Proofs.Graph.Pairs

namespace Amity.Graph

/-! ## The shapes of the operations -/

/-- A graph after which these pairs are left, and only some players' records have changed. -/
structure Becomes (g g' : Graph) (friendships : Set (Sym2 Name)) (requests : Set (Name × Name))
    (players : Name → Prop) : Prop where
  friendships : g'.friendships = friendships
  requests : g'.requests = requests
  changes : ChangesOnly players g g'

/-- An operation that never fails and tells whether it did something, which it does exactly under a
    condition; otherwise the graph is as it was. -/
def MakesWhen (g : Graph) (r : Except GraphError (Bool × Graph)) (condition : Prop)
    (friendships : Set (Sym2 Name)) (requests : Set (Name × Name)) (players : Name → Prop) : Prop :=
  ∃ made g', r = .ok (made, g') ∧ (made = true ↔ condition) ∧ (made = false → g' = g) ∧
    (made = true → g.Becomes g' friendships requests players)

theorem MakesWhen.of_eq_ok {g g' : Graph} {r : Except GraphError (Bool × Graph)} {condition : Prop}
    {friendships : Set (Sym2 Name)} {requests : Set (Name × Name)} {players : Name → Prop}
    (h : g.MakesWhen r condition friendships requests players) (hr : r = .ok (true, g')) :
    condition ∧ g.Becomes g' friendships requests players := by
  obtain ⟨_, _, heq, hcondition, -, hbecomes⟩ := h
  cases heq.symm.trans hr
  exact ⟨hcondition.1 rfl, hbecomes rfl⟩

/-- A question that never fails and is answered by a list of exactly some players, each once. -/
def Lists (r : Except GraphError (List Name)) (ns : List Name) (players : Name → Prop) : Prop :=
  r = .ok ns ∧ ns.Nodup ∧ ∀ m, m ∈ ns ↔ players m

/-- The operations on the graph are those on its friendships and requests. -/
structure ActsOnPairs (g : Graph) : Prop where
  addFriendship : ∀ a b,
    (g.addFriendship a b = .error .selfRelation ↔ a = b) ∧
    (g.addFriendship a b = .error (.alreadyFriends a b) ↔ a ≠ b ∧ s(a, b) ∈ g.friendships) ∧
    (a ≠ b → s(a, b) ∉ g.friendships → ∃ g', g.addFriendship a b = .ok g' ∧
      g.Becomes g' (insert s(a, b) g.friendships) (g.requests \ {(a, b), (b, a)})
        fun n => n = a ∨ n = b)
  removeFriendship : ∀ a b,
    g.MakesWhen (g.removeFriendship a b) (s(a, b) ∈ g.friendships)
      (g.friendships \ {s(a, b)}) g.requests fun n => n = a ∨ n = b
  createRequest : ∀ a b,
    g.MakesWhen (g.createRequest a b)
      (a ≠ b ∧ (a, b) ∉ g.requests ∧ s(a, b) ∉ g.friendships)
      g.friendships (insert (a, b) g.requests) fun n => n = a ∨ n = b
  deleteRequest : ∀ a b,
    g.MakesWhen (g.deleteRequest a b) ((a, b) ∈ g.requests)
      g.friendships (g.requests \ {(a, b)}) fun n => n = a ∨ n = b
  acceptRequest : ∀ a b,
    g.MakesWhen (g.acceptRequest a b) ((a, b) ∈ g.requests)
      (insert s(a, b) g.friendships) (g.requests \ {(a, b), (b, a)}) fun n => n = a ∨ n = b
  /-- Everybody's lists, the renamed player's too, have the new name where they had the old. -/
  rename : ∀ old new,
    (g.rename old new = .error (.nameInUse new) ↔ old ≠ new ∧ g.Mentions new) ∧
    (old = new ∨ ¬ g.Mentions new → ∃ g', g.rename old new = .ok (g.ties old, g') ∧
      g'.friendships = Sym2.map (Ties.substitute old new) '' g.friendships ∧
      g'.requests = Prod.map (Ties.substitute old new) (Ties.substitute old new) '' g.requests ∧
      ∀ n, n = old ∨ n ≠ new →
        g'.ties (Ties.substitute old new n) = (g.ties n).renamePeer old new)
  /-- The ties that come back are the pairs that went. -/
  purge : ∀ p, ∃ gone g', g.purge p = .ok (gone, g') ∧
    (gone.Nodup ∧ ∀ n, (n ∈ gone.friends ↔ s(p, n) ∈ g.friendships) ∧
      (n ∈ gone.sent ↔ (p, n) ∈ g.requests) ∧ (n ∈ gone.received ↔ (n, p) ∈ g.requests)) ∧
    g.Becomes g' {e | e ∈ g.friendships ∧ p ∉ e} {r | r ∈ g.requests ∧ r.1 ≠ p ∧ r.2 ≠ p}
      fun n => n = p ∨ s(p, n) ∈ g.friendships ∨ (p, n) ∈ g.requests ∨ (n, p) ∈ g.requests
  areFriends : ∀ a b, ∃ r, g.areFriends a b = .ok r ∧ (r = true ↔ s(a, b) ∈ g.friendships)
  requestExists : ∀ a b, ∃ r, g.requestExists a b = .ok r ∧ (r = true ↔ (a, b) ∈ g.requests)
  friendsOf : ∀ n, Lists (g.friendsOf n) (g.ties n).friends fun m => s(n, m) ∈ g.friendships
  pendingSent : ∀ n, Lists (g.pendingSent n) (g.ties n).sent fun m => (n, m) ∈ g.requests
  pendingReceived : ∀ n,
    Lists (g.pendingReceived n) (g.ties n).received fun m => (m, n) ∈ g.requests
  knows : ∀ n, g.knows n = true ↔ g.Mentions n

/-! ## Well-formed graphs act so -/

namespace WellFormed

variable {g : Graph} (h : g.WellFormed)
include h

theorem mem_received {a b : Name} : a ∈ (g.ties b).received ↔ (a, b) ∈ g.requests :=
  (h.requests a b).symm

theorem mem_peers {p n : Name} :
    n ∈ (g.ties p).peers ↔
      s(p, n) ∈ g.friendships ∨ (p, n) ∈ g.requests ∨ (n, p) ∈ g.requests := by
  rw [Ties.mem_peers, h.mem_friendships, h.mem_received]
  exact Iff.rfl

theorem ne_of_mem_requests {a b : Name} (hr : (a, b) ∈ g.requests) : a ≠ b := by
  rintro rfl
  exact (h.irreflexive a).2.1 hr

theorem ne_of_mem_friendships {a b : Name} (he : s(a, b) ∈ g.friendships) : a ≠ b := by
  rintro rfl
  exact (h.irreflexive a).1 (h.mem_friendships.1 he)

theorem addFriendship_acts (a b : Name) :
    (g.addFriendship a b = .error .selfRelation ↔ a = b) ∧
    (g.addFriendship a b = .error (.alreadyFriends a b) ↔ a ≠ b ∧ s(a, b) ∈ g.friendships) ∧
    (a ≠ b → s(a, b) ∉ g.friendships → ∃ g', g.addFriendship a b = .ok g' ∧
      g.Becomes g' (insert s(a, b) g.friendships) (g.requests \ {(a, b), (b, a)})
        fun n => n = a ∨ n = b) := by
  rw [addFriendship_eq h.canonical, h.mem_friendships]
  by_cases hab : a = b
  · simp [hab]
  by_cases hb : b ∈ (g.ties a).friends
  · simp [hab, hb]
  · simp only [hab, hb, if_false]
    refine ⟨by simp, by simp, ?_⟩
    intro _ _
    obtain ⟨hfriendships, hrequests, hchanges⟩ := h.pairs_befriend hab rfl
    exact ⟨_, rfl, hfriendships, hrequests, hchanges⟩

theorem removeFriendship_acts (a b : Name) :
    g.MakesWhen (g.removeFriendship a b) (s(a, b) ∈ g.friendships)
      (g.friendships \ {s(a, b)}) g.requests fun n => n = a ∨ n = b := by
  rw [removeFriendship_eq h.canonical]
  split
  · next hb =>
    have he := h.mem_friendships.2 hb
    obtain ⟨hfriendships, hrequests, hchanges⟩ :=
      h.pairs_unfriend (h.ne_of_mem_friendships he) rfl
    exact ⟨true, _, rfl, by simpa using he, by simp, fun _ => ⟨hfriendships, hrequests, hchanges⟩⟩
  · next hb => exact ⟨false, g, rfl, by simpa [h.mem_friendships] using hb, by simp, by simp⟩

theorem createRequest_acts (a b : Name) :
    g.MakesWhen (g.createRequest a b) (a ≠ b ∧ (a, b) ∉ g.requests ∧ s(a, b) ∉ g.friendships)
      g.friendships (insert (a, b) g.requests) fun n => n = a ∨ n = b := by
  rw [createRequest_eq h.canonical]
  split
  · next hb =>
    refine ⟨false, g, rfl, ?_, by simp, by simp⟩
    rw [h.mem_friendships, mem_requests]
    tauto
  · next hb =>
    simp only [not_or] at hb
    obtain ⟨hab, hsent, hfriends⟩ := hb
    have he := h.mem_friendships.not.2 hfriends
    obtain ⟨hfriendships, hrequests, hchanges⟩ := h.pairs_addRequest hab hsent he rfl
    exact ⟨true, _, rfl, by simp [hab, hsent, he], by simp,
      fun _ => ⟨hfriendships, hrequests, hchanges⟩⟩

theorem deleteRequest_acts (a b : Name) :
    g.MakesWhen (g.deleteRequest a b) ((a, b) ∈ g.requests)
      g.friendships (g.requests \ {(a, b)}) fun n => n = a ∨ n = b := by
  rw [deleteRequest_eq h.canonical]
  split
  · next hb =>
    obtain ⟨hfriendships, hrequests, hchanges⟩ :=
      h.pairs_dropRequest (h.ne_of_mem_requests hb) rfl
    exact ⟨true, _, rfl, by simpa using hb, by simp, fun _ => ⟨hfriendships, hrequests, hchanges⟩⟩
  · next hb => exact ⟨false, g, rfl, by simpa using hb, by simp, by simp⟩

theorem acceptRequest_acts (a b : Name) :
    g.MakesWhen (g.acceptRequest a b) ((a, b) ∈ g.requests)
      (insert s(a, b) g.friendships) (g.requests \ {(a, b), (b, a)}) fun n => n = a ∨ n = b := by
  rw [acceptRequest_eq h.canonical]
  split
  · next hb =>
    obtain ⟨hfriendships, hrequests, hchanges⟩ := h.pairs_befriend (h.ne_of_mem_requests hb) rfl
    exact ⟨true, _, rfl, by simpa using hb, by simp, fun _ => ⟨hfriendships, hrequests, hchanges⟩⟩
  · next hb => exact ⟨false, g, rfl, by simpa using hb, by simp, by simp⟩

theorem rename_acts (old new : Name) :
    (g.rename old new = .error (.nameInUse new) ↔ old ≠ new ∧ g.Mentions new) ∧
    (old = new ∨ ¬ g.Mentions new → ∃ g', g.rename old new = .ok (g.ties old, g') ∧
      g'.friendships = Sym2.map (Ties.substitute old new) '' g.friendships ∧
      g'.requests = Prod.map (Ties.substitute old new) (Ties.substitute old new) '' g.requests ∧
      ∀ n, n = old ∨ n ≠ new →
        g'.ties (Ties.substitute old new n) = (g.ties n).renamePeer old new) := by
  rw [h.mentions_iff]
  by_cases hne : old = new
  · subst hne
    rw [rename_eq_self h.canonical]
    refine ⟨by simp, fun _ => ⟨g, rfl, ?_, ?_, ?_⟩⟩
    · simp [substitute_self]
    · simp [substitute_self]
    · simp [substitute_self, renamePeer_self]
  cases hnew : g.knows new with
  | true =>
    rw [rename_eq_error h.canonical hne hnew]
    simp [hne]
  | false =>
    obtain ⟨g', heq, hg', hties⟩ := h.rename_eq_ok hne hnew
    obtain ⟨hfriendships, hrequests, hlists⟩ := h.pairs_rename hg' hne hnew hties
    refine ⟨by simp [heq], fun _ => ⟨g', heq, hfriendships, hrequests, ?_⟩⟩
    rintro n (rfl | hn)
    · exact hlists n hne
    · exact hlists n hn

theorem purge_acts (p : Name) : ∃ gone g', g.purge p = .ok (gone, g') ∧
    (gone.Nodup ∧ ∀ n, (n ∈ gone.friends ↔ s(p, n) ∈ g.friendships) ∧
      (n ∈ gone.sent ↔ (p, n) ∈ g.requests) ∧ (n ∈ gone.received ↔ (n, p) ∈ g.requests)) ∧
    g.Becomes g' {e | e ∈ g.friendships ∧ p ∉ e} {r | r ∈ g.requests ∧ r.1 ≠ p ∧ r.2 ≠ p}
      fun n => n = p ∨ s(p, n) ∈ g.friendships ∨ (p, n) ∈ g.requests ∨ (n, p) ∈ g.requests := by
  obtain ⟨g', heq, hg', hties⟩ := h.purge_eq_ok p
  obtain ⟨hfriendships, hrequests, hchanges⟩ := h.pairs_purge hg' hties
  refine ⟨g.ties p, g', heq, ⟨h.nodup p, ?_⟩, hfriendships, hrequests, ?_⟩
  · intro n
    exact ⟨h.mem_friendships.symm, Iff.rfl, h.mem_received⟩
  · simpa only [h.mem_peers] using hchanges

theorem actsOnPairs : g.ActsOnPairs where
  addFriendship := h.addFriendship_acts
  removeFriendship := h.removeFriendship_acts
  createRequest := h.createRequest_acts
  deleteRequest := h.deleteRequest_acts
  acceptRequest := h.acceptRequest_acts
  rename := h.rename_acts
  purge := h.purge_acts
  areFriends a b := by
    refine ⟨decide (b ∈ (g.ties a).friends), ?_, by simp [h.mem_friendships]⟩
    unfold Graph.areFriends
    rw [load_eq_ties h.canonical]
    rfl
  requestExists a b := by
    refine ⟨decide (b ∈ (g.ties a).sent), ?_, by simp⟩
    unfold Graph.requestExists
    rw [load_eq_ties h.canonical]
    rfl
  friendsOf n := by
    refine ⟨?_, (h.nodup n).friends, fun m => h.mem_friendships.symm⟩
    unfold Graph.friendsOf
    rw [load_eq_ties h.canonical]
    rfl
  pendingSent n := by
    refine ⟨?_, (h.nodup n).sent, fun m => Iff.rfl⟩
    unfold Graph.pendingSent
    rw [load_eq_ties h.canonical]
    rfl
  pendingReceived n := by
    refine ⟨?_, (h.nodup n).received, fun m => h.mem_received⟩
    unfold Graph.pendingReceived
    rw [load_eq_ties h.canonical]
    rfl
  knows n := (h.mentions_iff n).symm

end WellFormed

/-- **Every graph acts as its pairs**, whatever calls of the operations led to it. -/
theorem actsOnPairs_after (cs : List Change) : (Graph.empty.after cs).ActsOnPairs :=
  (wellFormed_empty.after cs).actsOnPairs

end Amity.Graph
