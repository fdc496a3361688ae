/-
  Amity/Proofs/Presence/Unregistering.lean
  ========================================
  **A connection is unregistered once, under the name it has by then.**  The owner entry of a
  connection is all that unregistering looks at.  It is there from the moment the connection is
  registered until it is unregistered, whether or not the connection keeps its place in a group, and
  it follows every renaming that is made.  So the calls alone say what unregistering gives: one goes
  back to the last time the connection was registered, and from there follows the renamings
  (`owner_eq_some_iff`).

  That nothing else is left of the connection, and nothing else is touched, needs that it had no
  second place, which is what `AllowsAll` asks of the calls.
-/
import Amity.Proofs.Presence.Calls
import Amity.Proofs.Presence.Tokens

namespace Amity.Presence

variable {ε : Type}

/-! ## What the calls say of a connection -/

/-- The name that a call leaves to whoever has this one: a renaming that is made moves who has the
    old name, and nothing else moves anybody. -/
def Call.follow (n : Name) : Call ε → Name
  | .rebind old new (.ok _) => Ties.substitute old new n
  | _ => n

/-- How many connections have come in some calls. -/
def opened (cs : List (Call ε)) : Nat :=
  cs.countP fun | .open _ => true | _ => false

/-- The connection, which had come, was registered under the name; `later` are the calls after that,
    and in them it is neither registered again nor unregistered. -/
def RegisteredLast (cs : List (Call ε)) (c : Connection) (n : Name) (later : List (Call ε)) :
    Prop :=
  ∃ before, cs = before ++ .register n c :: later ∧ c.number < opened before ∧
    (∀ m, .register m c ∉ later) ∧ .unregister c ∉ later

theorem not_registeredLast_nil {c : Connection} {n : Name} {later : List (Call ε)} :
    ¬ RegisteredLast [] c n later := by
  rintro ⟨before, heq, -⟩
  simp at heq

/-- Who was registered has come. -/
theorem RegisteredLast.lt_opened {cs : List (Call ε)} {c : Connection} {n : Name}
    {later : List (Call ε)} (h : RegisteredLast cs c n later) : c.number < opened cs := by
  obtain ⟨before, rfl, hcome, -⟩ := h
  unfold opened at hcome ⊢
  rw [List.countP_append]
  omega

/-- The last registration is the last call, or it was before the last call and that is none of the
    two that end it. -/
theorem registeredLast_concat_iff {cs : List (Call ε)} {a : Call ε} {c : Connection} {n : Name}
    {later : List (Call ε)} :
    RegisteredLast (cs ++ [a]) c n later ↔
      (later = [] ∧ a = .register n c ∧ c.number < opened cs) ∨
        ∃ since, later = since ++ [a] ∧ RegisteredLast cs c n since ∧
          (∀ m, a ≠ .register m c) ∧ a ≠ .unregister c := by
  constructor
  · rintro ⟨before, heq, hcome, hregister, hunregister⟩
    rcases List.eq_nil_or_concat later with rfl | ⟨since, b, rfl⟩
    · obtain ⟨rfl, hlast⟩ := List.append_inj' heq rfl
      exact Or.inl ⟨rfl, List.singleton_inj.1 hlast, hcome⟩
    · right
      rw [List.concat_eq_append] at *
      have heq : cs ++ [a] = (before ++ .register n c :: since) ++ [b] := by
        rw [heq, List.append_assoc, List.cons_append]
      obtain ⟨rfl, hlast⟩ := List.append_inj' heq rfl
      obtain rfl := List.singleton_inj.1 hlast
      simp only [List.mem_append, List.mem_singleton, not_or] at hregister hunregister
      exact ⟨since, rfl, ⟨before, rfl, hcome, fun m => (hregister m).1, hunregister.1⟩,
        fun m => Ne.symm (hregister m).2, Ne.symm hunregister.2⟩
  · rintro (⟨rfl, rfl, hcome⟩ | ⟨since, rfl, ⟨before, rfl, hcome, hregister, hunregister⟩, ha, ha'⟩)
    · exact ⟨cs, rfl, hcome, nofun, nofun⟩
    · refine ⟨before, by simp, hcome, fun m => ?_, ?_⟩
      · simpa [hregister m] using Ne.symm (ha m)
      · simpa [hunregister] using Ne.symm ha'

/-! ## What a call does to the owner entries -/

theorem calls_concat (p : Presence) (cs : List (Call ε)) (a : Call ε) :
    p.calls (cs ++ [a]) = (p.calls cs).call a := by
  unfold calls
  rw [List.foldl_append]
  rfl

/-- A notice is taken out of a mailbox, or there is none. -/
theorem call_read_cases (p : Presence) (c : Connection) :
    p.call (.read c : Call ε) = p ∨ ∃ f, p.call (.read c : Call ε) = p.editBox c f := by
  show ((p.takeNotice c).map (·.2)).getD p = p ∨ ∃ f, ((p.takeNotice c).map (·.2)).getD p = _
  unfold takeNotice
  split
  · exact Or.inl rfl
  · exact Or.inr ⟨_, rfl⟩

theorem arrivals_sendTo (p : Presence) (n : Name) (c : Connection) (x : Notice) :
    (p.sendTo n c x).2.arrivals = p.arrivals := by
  unfold sendTo
  split
  · exact arrivals_deliver p [(c, x)]
  · rfl

theorem arrivals_call (p : Presence) (a : Call ε) :
    (p.call a).arrivals = p.arrivals + opened [a] := by
  cases a with
  | «open» capacity => rfl
  | register n c =>
    show (if c.number < p.arrivals then p.attach n c else p).arrivals = _
    split <;> rfl
  | unregister c => exact arrivals_detach p c
  | rebind old new commit =>
    cases commit with
    | error => rfl
    | ok outbox =>
      exact (arrivals_deliver (p.rebound old new) _).trans (arrivals_rebound p old new)
  | evict n commit =>
    cases commit with
    | error => rfl
    | ok outbox => exact (arrivals_deliver (p.evicted n) _).trans (arrivals_evicted p n)
  | notifyResolved commit =>
    cases commit with
    | error => rfl
    | ok outbox => exact arrivals_deliver p _
  | notify n x => exact arrivals_deliver p _
  | notifyOthers n skip x => exact arrivals_deliver p _
  | sendTo n c x => exact arrivals_sendTo p n c x
  | setStatus c s => exact arrivals_setStatus p c s
  | read c =>
    rcases p.call_read_cases (ε := ε) c with heq | ⟨f, heq⟩
    · rw [heq]
      rfl
    · rw [heq]
      rfl
  | drain c => rfl
  | close c => rfl

theorem arrivals_calls (cs : List (Call ε)) : (empty.calls cs).arrivals = opened cs := by
  induction cs using List.reverseRecOn with
  | nil => rfl
  | append_singleton cs a ih =>
    rw [calls_concat, arrivals_call, ih]
    unfold opened
    rw [List.countP_append]

/-- A connection is registered under a name, if it has come. -/
theorem owner_call_register (p : Presence) (n : Name) (c d : Connection) :
    (p.call (.register n c : Call ε)).owners.find? d =
      if d = c ∧ c.number < p.arrivals then some n else p.owners.find? d := by
  show (if c.number < p.arrivals then p.attach n c else p).owners.find? d = _
  by_cases hcome : c.number < p.arrivals
  · have hattach : (p.attach n c).owners.find? d =
        if d = c then some n else p.owners.find? d := Table.find?_insert _ _ _ _
    simp only [hcome, if_true, and_true, hattach]
  · simp only [hcome, if_false, and_false]

/-- Only by these two calls a connection gets or loses its owner entry; every other call lets it
    follow. -/
theorem owner_call (p : Presence) {a : Call ε} {c : Connection}
    (hregister : ∀ n, a ≠ .register n c) (hunregister : a ≠ .unregister c) :
    (p.call a).owners.find? c = (p.owners.find? c).map a.follow := by
  have hsame : ∀ q : Presence, q.owners = p.owners → a.follow = id →
      q.owners.find? c = (p.owners.find? c).map a.follow := by
    intro q howners hfollow
    rw [howners, hfollow, Option.map_id, id]
  cases a with
  | «open» capacity => exact hsame _ rfl rfl
  | register n d =>
    rw [owner_call_register, if_neg]
    · exact hsame p rfl rfl
    · rintro ⟨rfl, -⟩
      exact hregister n rfl
  | unregister d =>
    have hcd : c ≠ d := by
      rintro rfl
      exact hunregister rfl
    show (p.detach d).2.owners.find? c = _
    rw [owner_detach, if_neg hcd]
    exact hsame p rfl rfl
  | rebind old new commit =>
    cases commit with
    | error => exact hsame p rfl rfl
    | ok outbox =>
      have howners : (p.call (.rebind old new (.ok outbox) : Call ε)).owners =
          (p.rebound old new).owners := owners_deliver _ _
      rw [howners]
      exact p.owner_rebound old new c
  | evict n commit =>
    cases commit with
    | error => exact hsame p rfl rfl
    | ok outbox =>
      exact hsame _ ((owners_deliver (p.evicted n) _).trans (cancelAll_eq _ _).2.1) rfl
  | notifyResolved commit =>
    cases commit with
    | error => exact hsame p rfl rfl
    | ok outbox => exact hsame _ (owners_deliver p _) rfl
  | notify n x => exact hsame _ (owners_deliver p _) rfl
  | notifyOthers n skip x => exact hsame _ (owners_deliver p _) rfl
  | sendTo n d x => exact hsame _ (owners_sendTo p n d x) rfl
  | setStatus d s => exact hsame _ (owners_setStatus p d s) rfl
  | read d =>
    rcases p.call_read_cases (ε := ε) d with heq | ⟨f, heq⟩
    · rw [heq]
      exact hsame p rfl rfl
    · rw [heq]
      exact hsame _ rfl rfl
  | drain d => exact hsame _ rfl rfl
  | close d => exact hsame _ rfl rfl

/-! ## The owner entry of a connection -/

/-- The owner entry is the name of the last registration, followed through the renamings since. -/
theorem owner_eq_some_iff (cs : List (Call ε)) (c : Connection) (m : Name) :
    (empty.calls cs).owners.find? c = some m ↔
      ∃ n later, RegisteredLast cs c n later ∧ later.foldl Call.follow n = m := by
  induction cs using List.reverseRecOn generalizing m with
  | nil =>
    constructor
    · intro hm
      cases hm
    · rintro ⟨n, later, hlast, -⟩
      exact absurd hlast not_registeredLast_nil
  | append_singleton cs a ih =>
    rw [calls_concat]
    by_cases hregister : ∃ k, a = .register k c
    · obtain ⟨k, rfl⟩ := hregister
      rw [owner_call_register, arrivals_calls]
      by_cases hcome : c.number < opened cs
      · rw [if_pos ⟨rfl, hcome⟩]
        constructor
        · intro hk
          cases hk
          exact ⟨m, [], registeredLast_concat_iff.2 (Or.inl ⟨rfl, rfl, hcome⟩), rfl⟩
        · rintro ⟨n, later, hlast, rfl⟩
          rcases registeredLast_concat_iff.1 hlast with ⟨rfl, heq, -⟩ | ⟨-, -, -, hnot, -⟩
          · cases heq
            rfl
          · exact absurd rfl (hnot k)
      · -- who has not come cannot have been registered before either
        rw [if_neg fun h => hcome h.2, ih]
        constructor
        · rintro ⟨n, later, hlast, -⟩
          exact absurd hlast.lt_opened hcome
        · rintro ⟨n, later, hlast, -⟩
          rcases registeredLast_concat_iff.1 hlast with ⟨-, -, hcome'⟩ | ⟨-, -, -, hnot, -⟩
          · exact absurd hcome' hcome
          · exact absurd rfl (hnot k)
    · rw [not_exists] at hregister
      by_cases hunregister : a = .unregister c
      · subst hunregister
        have hgone : ((empty.calls cs).call (.unregister c : Call ε)).owners.find? c = none :=
          (owner_detach _ c c).trans (if_pos rfl)
        rw [hgone]
        constructor
        · intro hm
          cases hm
        · rintro ⟨n, later, hlast, -⟩
          rcases registeredLast_concat_iff.1 hlast with ⟨-, heq, -⟩ | ⟨-, -, -, -, hnot⟩
          · cases heq
          · exact absurd rfl hnot
      · rw [owner_call _ hregister hunregister, Option.map_eq_some_iff]
        constructor
        · rintro ⟨k, hk, rfl⟩
          obtain ⟨n, since, hlast, rfl⟩ := (ih k).1 hk
          refine ⟨n, since ++ [a], ?_, List.foldl_concat _ _ _ _⟩
          exact registeredLast_concat_iff.2 (Or.inr ⟨since, rfl, hlast, hregister, hunregister⟩)
        · rintro ⟨n, later, hlast, rfl⟩
          rcases registeredLast_concat_iff.1 hlast with ⟨-, heq, -⟩ | ⟨since, rfl, hlast, -, -⟩
          · exact absurd heq (hregister n)
          · exact ⟨_, (ih _).2 ⟨n, since, hlast, rfl⟩, (List.foldl_concat _ _ _ _).symm⟩

/-! ## Unregistering -/

theorem detach_fst (p : Presence) (c : Connection) : (p.detach c).1 = p.owners.find? c := by
  unfold detach
  cases p.owners.find? c <;> rfl

theorem detach_of_owner {p : Presence} {c : Connection} (hc : p.owners.find? c = none) :
    p.detach c = (none, p) := by
  unfold detach
  rw [hc]

/-- What it comes to when a connection is unregistered after some calls. -/
structure Unregisters (cs : List (Call ε)) (c : Connection) : Prop where
  /-- A name is given exactly when the connection was registered and has not been unregistered since,
      and it is the name of the last registration, followed through the renamings made after it. -/
  given : ∀ m, ((empty.calls cs).detach c).1 = some m ↔
    ∃ n later, RegisteredLast cs c n later ∧ later.foldl Call.follow n = m
  /-- Before, the connection stands under that name, or it has lost its place. -/
  before : (empty.calls cs).nameOf? c = ((empty.calls cs).detach c).1 ∨
    (empty.calls cs).nameOf? c = none
  gone : (∀ n, c ∉ ((empty.calls cs).detach c).2.sessionsOf n) ∧
    ((empty.calls cs).detach c).2.owners.find? c = none
  /-- The others stay where they are, in the same order and with the same statuses. -/
  group : ∀ n, ((empty.calls cs).detach c).2.group n =
    ((empty.calls cs).group n).filter (·.connection ≠ c)
  nonempty : ∀ n, ((empty.calls cs).detach c).2.groups.find? n ≠ some []
  owners : ∀ d, d ≠ c →
    ((empty.calls cs).detach c).2.owners.find? d = (empty.calls cs).owners.find? d
  boxes : ((empty.calls cs).detach c).2.boxes = (empty.calls cs).boxes
  /-- A second time nothing is given and nothing changes. -/
  again : ((empty.calls cs).detach c).2.detach c = (none, ((empty.calls cs).detach c).2)

/-- **A connection is unregistered once, under the name it has by then**, also when it was dropped or
    its player was evicted meanwhile. -/
theorem unregisters_calls (cs : List (Call ε)) (hallowed : empty.AllowsAll cs) (c : Connection) :
    Unregisters cs c := by
  have hbefore : (empty.calls cs).WellFormed := wellFormed_empty.calls hallowed
  have hafter := hbefore.detach c
  have howner : ((empty.calls cs).detach c).2.owners.find? c = none :=
    (owner_detach _ c c).trans (if_pos rfl)
  refine ⟨fun m => ?_, ?_, ⟨?_, howner⟩, fun n => ?_, fun n hn => ?_, fun d hd => ?_,
    boxes_detach _ c, detach_of_owner howner⟩
  · rw [detach_fst]
    exact owner_eq_some_iff cs c m
  · rw [detach_fst]
    cases hname : (empty.calls cs).nameOf? c with
    | none => exact Or.inr rfl
    | some n => exact Or.inl (owner_of_nameOf? hname).symm
  · exact hafter.nameOf?_eq_none_iff.1 (nameOf?_of_owner howner)
  · rw [hbefore.group_detach]
    simp [withoutConnections]
  · exact hafter.nonempty n [] hn rfl
  · exact (owner_detach _ c d).trans (if_neg hd)

/-- The first connection is dropped, since its mailbox has room for one notice only; then its player
    takes another name, under which there is a session already, and that session is evicted. -/
def droppedThenRenamed (q r s : Name) : List (Call String) :=
  [.open 1, .open 1, .register q ⟨0⟩, .register r ⟨1⟩, .notify q (.update none),
    .notify q (.update none), .rebind q r (.ok []), .evict r (.ok []), .rebind r s (.ok []),
    .rebind q r (.ok []), .rebind s q (.error "down")]

theorem unregisters_calls_droppedThenRenamed :
    Unregisters (droppedThenRenamed ⟨"q", by decide⟩ ⟨"r", by decide⟩ ⟨"s", by decide⟩) ⟨0⟩ ∧
      ((empty.calls (droppedThenRenamed ⟨"q", by decide⟩ ⟨"r", by decide⟩
        ⟨"s", by decide⟩)).detach ⟨0⟩).1 = some ⟨"s", by decide⟩ :=
  ⟨unregisters_calls _ (by decide +kernel) ⟨0⟩, by decide +kernel⟩

end Amity.Presence
