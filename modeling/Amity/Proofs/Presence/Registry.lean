/-
  Amity/Proofs/Presence/Registry.lean
  ===================================
  **The groups and the owner entries agree.**  Who is attached under which name is kept twice: in
  the groups, and in the owner entries, which outlive a place in a group.  `WellFormed` says what
  every operation keeps: an attached connection is in one group, once, and its owner entry is the
  name of that group.  Then `nameOf?` is the view of the groups from the side of a connection
  (`nameOf?_eq_some_iff`), and every operation is said by what it does to this view.
-/
import Mathlib.Data.List.Nodup
import Amity.Presence
import Amity.Ties

namespace Amity.Presence

/-- Groups and owner entries say the same of every attached connection. -/
structure WellFormed (p : Presence) : Prop where
  nonempty : ∀ n as, p.groups.find? n = some as → as ≠ []
  owner : ∀ n, ∀ a ∈ p.group n, p.owners.find? a.connection = some n
  nodup : ∀ n, (p.sessionsOf n).Nodup
  /-- Connections to come belong to nobody. -/
  arrived : ∀ c n, p.owners.find? c = some n → c.number < p.arrivals

theorem wellFormed_empty : Presence.empty.WellFormed where
  nonempty _ _ h := by cases h
  owner _ _ h := by cases h
  nodup _ := List.nodup_nil
  arrived _ _ h := by cases h

/-! ## The name of a connection -/

theorem connection_mem_sessionsOf {p : Presence} {n : Name} {a : Attachment} (h : a ∈ p.group n) :
    a.connection ∈ p.sessionsOf n :=
  List.mem_map_of_mem h

theorem isAttached_iff {p : Presence} {n : Name} {c : Connection} :
    p.isAttached n c = true ↔ c ∈ p.sessionsOf n := by
  simp [isAttached, sessionsOf]

section

variable {p : Presence} (h : p.WellFormed)
include h

theorem WellFormed.nameOf?_eq_some_iff {c : Connection} {n : Name} :
    p.nameOf? c = some n ↔ c ∈ p.sessionsOf n := by
  unfold nameOf?
  rw [Option.filter_eq_some_iff, isAttached_iff]
  constructor
  · exact And.right
  · intro hc
    obtain ⟨a, ha, rfl⟩ := List.mem_map.1 hc
    exact ⟨h.owner n a ha, hc⟩

theorem WellFormed.isOnline_iff {n : Name} : p.isOnline n = true ↔ p.group n ≠ [] := by
  unfold isOnline group
  rw [Table.contains_iff]
  cases hfind : p.groups.find? n with
  | none => simp
  | some as => simpa using h.nonempty n as hfind

theorem WellFormed.isOnline_eq_false_iff {n : Name} : p.isOnline n = false ↔ p.group n = [] := by
  rw [← Bool.not_eq_true, h.isOnline_iff, not_not]

theorem WellFormed.arrived_of_nameOf? {c : Connection} {n : Name} (hc : p.nameOf? c = some n) :
    c.number < p.arrivals := by
  obtain ⟨a, ha, rfl⟩ := List.mem_map.1 (h.nameOf?_eq_some_iff.1 hc)
  exact h.arrived _ n (h.owner n a ha)

omit h in
theorem owner_of_nameOf? {c : Connection} {n : Name} (hc : p.nameOf? c = some n) :
    p.owners.find? c = some n := by
  unfold nameOf? at hc
  exact (Option.filter_eq_some_iff.1 hc).1

/-- The connection that comes next is attached under no name. -/
theorem WellFormed.nameOf?_next {c : Connection} (hc : p.arrivals ≤ c.number) :
    p.nameOf? c = none := by
  cases hname : p.nameOf? c with
  | none => rfl
  | some n =>
    have := h.arrived_of_nameOf? hname
    omega

/-- A player without sessions is one under whose name nobody is attached. -/
theorem WellFormed.group_eq_nil_iff {n : Name} : p.group n = [] ↔ ∀ c, p.nameOf? c ≠ some n := by
  constructor
  · intro hgroup c hc
    rw [h.nameOf?_eq_some_iff, sessionsOf, hgroup] at hc
    cases hc
  · intro hnone
    refine List.eq_nil_iff_forall_not_mem.2 fun a ha => ?_
    exact hnone a.connection (h.nameOf?_eq_some_iff.2 (connection_mem_sessionsOf ha))

end

/-- Two registries with the same group of a name attach the same connections under it. -/
theorem WellFormed.nameOf?_of_group {p q : Presence} (hp : p.WellFormed) (hq : q.WellFormed)
    {n : Name} (hgroup : q.group n = p.group n) (c : Connection) :
    q.nameOf? c = some n ↔ p.nameOf? c = some n := by
  rw [hp.nameOf?_eq_some_iff, hq.nameOf?_eq_some_iff, sessionsOf, sessionsOf, hgroup]

theorem statusOf_of_group {p q : Presence} {n : Name} (hgroup : q.group n = p.group n) :
    q.statusOf n = p.statusOf n := by
  rw [statusOf, statusOf, hgroup]

/-- A player without sessions shows that nobody is there. -/
theorem statusOf_of_group_eq_nil {p : Presence} {n : Name} (hgroup : p.group n = []) :
    p.statusOf n = .disconnected := by
  rw [statusOf, hgroup]
  rfl

/-- Two registries in which the sessions of every name are the same attach everybody alike. -/
theorem WellFormed.nameOf?_congr {p q : Presence} (hp : p.WellFormed) (hq : q.WellFormed)
    (hsessions : ∀ n, q.sessionsOf n = p.sessionsOf n) (c : Connection) :
    q.nameOf? c = p.nameOf? c := by
  ext n
  rw [hp.nameOf?_eq_some_iff, hq.nameOf?_eq_some_iff, hsessions]

theorem nameOf?_of_groups_owners {p q : Presence} (hgroups : q.groups = p.groups)
    (howners : q.owners = p.owners) (c : Connection) : q.nameOf? c = p.nameOf? c := by
  unfold nameOf? isAttached group
  rw [hgroups, howners]

/-! ## Groups after a change -/

theorem group_setGroup (p : Presence) (n m : Name) (as : List Attachment) :
    (p.setGroup n as).group m = if m = n then as else p.group m := by
  unfold group setGroup
  by_cases has : as.isEmpty = true
  · simp only [has, if_true, Table.find?_erase]
    by_cases hm : m = n
    · simp [hm, List.isEmpty_iff.1 has]
    · simp [hm]
  · by_cases hm : m = n <;> simp [has, Table.find?_insert, hm]

@[simp] theorem owners_setGroup (p : Presence) (n : Name) (as : List Attachment) :
    (p.setGroup n as).owners = p.owners := rfl

@[simp] theorem arrivals_setGroup (p : Presence) (n : Name) (as : List Attachment) :
    (p.setGroup n as).arrivals = p.arrivals := rfl

theorem WellFormed.nonempty_setGroup {p : Presence} (h : p.WellFormed) (n : Name)
    (as : List Attachment) (m : Name) (bs : List Attachment)
    (hm : (p.setGroup n as).groups.find? m = some bs) : bs ≠ [] := by
  unfold setGroup at hm
  by_cases has : as.isEmpty = true
  · simp only [has, if_true, Table.find?_erase] at hm
    split at hm
    · cases hm
    · exact h.nonempty m bs hm
  · simp only [has, Bool.false_eq_true, if_false, Table.find?_insert] at hm
    split at hm
    · cases hm
      simpa using has
    · exact h.nonempty m bs hm

theorem map_connection_withoutConnections (cs : List Connection) (as : List Attachment) :
    (withoutConnections cs as).map (·.connection) =
      (as.map (·.connection)).filter (· ∉ cs) := by
  unfold withoutConnections
  rw [List.filter_map]
  rfl

theorem mem_withoutConnections {cs : List Connection} {as : List Attachment} {a : Attachment} :
    a ∈ withoutConnections cs as ↔ a ∈ as ∧ a.connection ∉ cs := by
  simp [withoutConnections]

theorem connection_mem_withoutConnections {cs : List Connection} {as : List Attachment}
    {c : Connection} :
    c ∈ (withoutConnections cs as).map (·.connection) ↔
      c ∈ as.map (·.connection) ∧ c ∉ cs := by
  rw [map_connection_withoutConnections, List.mem_filter]
  simp

theorem withoutConnections_of_not_mem {c : Connection} {as : List Attachment}
    (h : c ∉ as.map (·.connection)) : withoutConnections [c] as = as := by
  refine List.filter_eq_self.2 fun a ha => ?_
  simpa using fun hac : a.connection = c => h (hac ▸ List.mem_map_of_mem ha)

/-- Where nobody is attached there is nobody to remove and nothing to deliver. -/
theorem evict_of_offline {p : Presence} {n : Name} (hn : p.isOnline n = false) :
    (p.evict n []).2 = p := by
  have hfind : p.groups.find? n = none := by
    simpa [isOnline, Table.contains] using hn
  have hnobody : p.sessionsOf n = [] := by simp [sessionsOf, group, hfind]
  unfold evict
  rw [hnobody, Table.erase_of_find?_eq_none hfind]
  rfl

/-! ### Coming -/

section

variable {p : Presence} (h : p.WellFormed) (n : Name) (capacity : Nat)
include h

theorem WellFormed.group_attach (m : Name) :
    ((p.accept capacity).2.attach n ⟨p.arrivals⟩).group m =
      if m = n then p.group n ++ [⟨⟨p.arrivals⟩, .connected⟩] else p.group m := by
  have hnew : (⟨p.arrivals⟩ : Connection) ∉ p.sessionsOf n := by
    rw [← h.nameOf?_eq_some_iff, h.nameOf?_next (Nat.le_refl _)]
    simp
  have hkept : withoutConnections [⟨p.arrivals⟩] (p.group n) = p.group n :=
    withoutConnections_of_not_mem hnew
  show ((p.accept capacity).2.setGroup n
    (withoutConnections [⟨p.arrivals⟩] (p.group n) ++ [⟨⟨p.arrivals⟩, .connected⟩])).group m = _
  rw [group_setGroup, hkept]
  rfl

theorem WellFormed.attach : ((p.accept capacity).2.attach n ⟨p.arrivals⟩).WellFormed where
  nonempty := by
    refine WellFormed.nonempty_setGroup (p := (p.accept capacity).2) ?_ n _
    exact ⟨h.nonempty, h.owner, h.nodup, fun c m hc => Nat.lt_succ_of_lt (h.arrived c m hc)⟩
  owner m a ha := by
    rw [h.group_attach] at ha
    show (p.owners.insert ⟨p.arrivals⟩ n).find? a.connection = some m
    rw [Table.find?_insert]
    split at ha
    · next hm =>
      subst hm
      rw [List.mem_append, List.mem_singleton] at ha
      rcases ha with ha | rfl
      · simp [h.owner m a ha]
      · simp
    · have hne : a.connection ≠ ⟨p.arrivals⟩ := by
        intro hac
        have := h.arrived _ m (h.owner m a ha)
        simp [hac] at this
      simp [hne, h.owner m a ha]
  nodup m := by
    unfold sessionsOf
    rw [h.group_attach]
    split
    · rw [List.map_append, List.map_singleton, List.nodup_append]
      refine ⟨h.nodup n, by simp, ?_⟩
      intro c hc d hd hcd
      rw [List.mem_singleton] at hd
      subst hcd hd
      obtain ⟨a, ha, hac⟩ := List.mem_map.1 hc
      have := h.arrived _ n (h.owner n a ha)
      simp [hac] at this
    · exact h.nodup m
  arrived c m hc := by
    have hc : (p.owners.insert ⟨p.arrivals⟩ n).find? c = some m := hc
    show c.number < p.arrivals + 1
    rw [Table.find?_insert] at hc
    split at hc
    · next hcn => simp [hcn]
    · exact Nat.lt_succ_of_lt (h.arrived c m hc)

theorem WellFormed.nameOf?_attach (c : Connection) :
    ((p.accept capacity).2.attach n ⟨p.arrivals⟩).nameOf? c =
      if c = ⟨p.arrivals⟩ then some n else p.nameOf? c := by
  ext m
  rw [(h.attach n capacity).nameOf?_eq_some_iff]
  unfold sessionsOf
  rw [h.group_attach]
  by_cases hc : c = ⟨p.arrivals⟩
  · subst hc
    have hnone := h.nameOf?_next (c := ⟨p.arrivals⟩) (Nat.le_refl _)
    have hm : (⟨p.arrivals⟩ : Connection) ∉ p.sessionsOf m := by
      rw [← h.nameOf?_eq_some_iff, hnone]
      simp
    by_cases hmn : m = n
    · simp [hmn]
    · simp only [if_neg hmn, if_true, Option.some.injEq, Ne.symm hmn, iff_false]
      exact hm
  · rw [if_neg hc, h.nameOf?_eq_some_iff]
    by_cases hmn : m = n
    · subst hmn
      simp [hc, sessionsOf]
    · simp [hmn, sessionsOf]

end

/-! ### Going -/

section

variable {p : Presence} (h : p.WellFormed)
include h

/-- Taking some connections out of some groups, and owner entries of connections in no group. -/
theorem WellFormed.of_removed {q : Presence} (cs : List Connection)
    (hnonempty : ∀ n as, q.groups.find? n = some as → as ≠ [])
    (hgroup : ∀ n, q.group n = withoutConnections cs (p.group n))
    (howners : ∀ c, c ∉ cs → q.owners.find? c = p.owners.find? c)
    (hgone : ∀ c n, q.owners.find? c = some n → p.owners.find? c = some n)
    (harrivals : p.arrivals ≤ q.arrivals) : q.WellFormed where
  nonempty := hnonempty
  owner n a ha := by
    rw [hgroup, mem_withoutConnections] at ha
    rw [howners _ ha.2]
    exact h.owner n a ha.1
  nodup n := by
    unfold sessionsOf
    rw [hgroup, map_connection_withoutConnections]
    exact (h.nodup n).sublist List.filter_sublist
  arrived c n hc := Nat.lt_of_lt_of_le (h.arrived c n (hgone c n hc)) harrivals

/-- Who is taken out is attached under no name, and nothing changes for the others. -/
theorem WellFormed.nameOf?_removed {q : Presence} (hq : q.WellFormed) {cs : List Connection}
    (hgroup : ∀ n, q.group n = withoutConnections cs (p.group n)) (c : Connection) :
    q.nameOf? c = if c ∈ cs then none else p.nameOf? c := by
  ext n
  rw [hq.nameOf?_eq_some_iff]
  unfold sessionsOf
  rw [hgroup, map_connection_withoutConnections, List.mem_filter]
  by_cases hc : c ∈ cs
  · simp [hc]
  · rw [if_neg hc, h.nameOf?_eq_some_iff]
    simp [hc, sessionsOf]

end

/-- Telling connections to end changes nothing but that. -/
theorem cancelAll_eq (cs : List Connection) (p : Presence) :
    (cancelAll cs p).groups = p.groups ∧ (cancelAll cs p).owners = p.owners ∧
      (cancelAll cs p).arrivals = p.arrivals ∧ (cancelAll cs p).refusals = p.refusals := by
  unfold cancelAll
  induction cs generalizing p with
  | nil => exact ⟨rfl, rfl, rfl, rfl⟩
  | cons c cs ih => exact ih (p.editBox c Mailbox.cancel)

theorem group_of_groups {p q : Presence} (hgroups : q.groups = p.groups) (n : Name) :
    q.group n = p.group n := by
  unfold group
  rw [hgroups]

/-- What is said of groups, owner entries and arrivals is all there is to well-formedness. -/
theorem WellFormed.congr {p q : Presence} (h : p.WellFormed) (hgroups : q.groups = p.groups)
    (howners : q.owners = p.owners) (harrivals : q.arrivals = p.arrivals) : q.WellFormed where
  nonempty := hgroups ▸ h.nonempty
  owner n a ha := by
    rw [group_of_groups hgroups] at ha
    exact howners ▸ h.owner n a ha
  nodup n := by
    unfold sessionsOf
    rw [group_of_groups hgroups]
    exact h.nodup n
  arrived c n hc := harrivals ▸ h.arrived c n (howners ▸ hc)

section

variable {p : Presence} (h : p.WellFormed)

theorem group_dropSessions (cs : List Connection) (n : Name) :
    (p.dropSessions cs).group n = withoutConnections cs (p.group n) := by
  unfold dropSessions group
  rw [(cancelAll_eq _ _).1, Table.find?_filterMap]
  cases hfind : p.groups.find? n with
  | none => rfl
  | some as =>
    show (if (withoutConnections cs as).isEmpty then none
      else some (withoutConnections cs as)).getD [] = withoutConnections cs as
    split
    · next has => exact (List.isEmpty_iff.1 has).symm
    · rfl

/-- A group out of which everybody is dropped is no group. -/
theorem ne_nil_of_dropSessions {cs : List Connection} {n : Name} {as : List Attachment}
    (has : (p.dropSessions cs).groups.find? n = some as) : as ≠ [] := by
  unfold dropSessions at has
  rw [(cancelAll_eq _ _).1, Table.find?_filterMap] at has
  obtain ⟨bs, -, hbs⟩ := Option.bind_eq_some_iff.1 has
  by_cases hkept : (withoutConnections cs bs).isEmpty = true
  · simp [hkept] at hbs
  · simp only [hkept, Bool.false_eq_true, if_false, Option.some.injEq] at hbs
    subst hbs
    simpa using hkept

include h

theorem WellFormed.dropSessions (cs : List Connection) : (p.dropSessions cs).WellFormed := by
  refine h.of_removed cs ?_ (group_dropSessions cs) ?_ ?_ ?_
  · intro n as has
    exact ne_nil_of_dropSessions has
  · intro c _
    unfold Presence.dropSessions
    rw [(cancelAll_eq _ _).2.1]
  · intro c n
    unfold Presence.dropSessions
    rw [(cancelAll_eq _ _).2.1]
    exact id
  · have harrivals : (p.dropSessions cs).arrivals = p.arrivals := (cancelAll_eq _ _).2.2.1
    exact Nat.le_of_eq harrivals.symm

/-- A connection that leaves is in no group afterwards. -/
theorem WellFormed.group_detach (c : Connection) (m : Name) :
    (p.detach c).2.group m = withoutConnections [c] (p.group m) := by
  have hother : ∀ m, p.owners.find? c ≠ some m →
      withoutConnections [c] (p.group m) = p.group m := by
    intro m hm
    apply withoutConnections_of_not_mem
    intro hc
    obtain ⟨a, ha, rfl⟩ := List.mem_map.1 hc
    exact hm (h.owner m a ha)
  unfold detach
  cases howner : p.owners.find? c with
  | none => exact (hother m (by simp [howner])).symm
  | some n =>
    show (p.setGroup n (withoutConnections [c] (p.group n))).group m = _
    rw [group_setGroup]
    split
    · next hm => rw [hm]
    · next hm => exact (hother m (by simpa [howner] using Ne.symm hm)).symm

theorem WellFormed.group_detach_of_ne {c : Connection} {m : Name} (hc : p.nameOf? c ≠ some m) :
    (p.detach c).2.group m = p.group m := by
  rw [h.group_detach]
  apply withoutConnections_of_not_mem
  intro hmem
  exact hc (h.nameOf?_eq_some_iff.2 hmem)

theorem WellFormed.detach (c : Connection) : (p.detach c).2.WellFormed := by
  refine h.of_removed [c] ?_ (h.group_detach c) ?_ ?_ ?_
  · unfold Presence.detach
    split
    · exact h.nonempty
    · exact h.nonempty_setGroup _ _
  · intro d hd
    unfold Presence.detach
    split
    · rfl
    · simpa [Table.find?_erase] using fun hdc : d = c => absurd hdc (by simpa using hd)
  · intro d n
    unfold Presence.detach
    split
    · exact id
    · simp only [Table.find?_erase]
      split
      · exact fun hd => by cases hd
      · exact id
  · unfold Presence.detach
    split <;> exact Nat.le_refl _

theorem WellFormed.nameOf?_detach (c d : Connection) :
    (p.detach c).2.nameOf? d = if d = c then none else p.nameOf? d := by
  rw [h.nameOf?_removed (h.detach c) (h.group_detach c)]
  simp

end

def withoutGroup (p : Presence) (n : Name) : Presence := { p with groups := p.groups.erase n }

theorem group_withoutGroup (p : Presence) (n m : Name) :
    (p.withoutGroup n).group m = if m = n then [] else p.group m := by
  unfold withoutGroup group
  rw [Table.find?_erase]
  split <;> rfl

theorem WellFormed.nonempty_withoutGroup {p : Presence} (h : p.WellFormed) (n m : Name)
    (as : List Attachment) (hm : (p.withoutGroup n).groups.find? m = some as) : as ≠ [] := by
  unfold withoutGroup at hm
  rw [Table.find?_erase] at hm
  split at hm
  · cases hm
  · exact h.nonempty m as hm

/-- The registry without the group of a name, after its sessions have been told to end. -/
def evicted (p : Presence) (n : Name) : Presence := cancelAll (p.sessionsOf n) (p.withoutGroup n)

theorem group_evicted (p : Presence) (n m : Name) :
    (p.evicted n).group m = if m = n then [] else p.group m := by
  unfold evicted
  rw [group_of_groups (cancelAll_eq _ _).1, group_withoutGroup]

section

variable {p : Presence} (h : p.WellFormed)
include h

theorem WellFormed.group_evicted (n m : Name) :
    (p.evicted n).group m = withoutConnections (p.sessionsOf n) (p.group m) := by
  rw [Presence.group_evicted]
  split
  · next hm =>
    subst hm
    symm
    refine List.filter_eq_nil_iff.2 fun a ha => ?_
    simpa using connection_mem_sessionsOf ha
  · next hm =>
    symm
    refine List.filter_eq_self.2 fun a ha => ?_
    have hne : a.connection ∉ p.sessionsOf n := by
      intro hc
      have hn := h.nameOf?_eq_some_iff.2 hc
      have hm' := h.nameOf?_eq_some_iff.2 (connection_mem_sessionsOf ha)
      exact hm (Option.some.inj (hm'.symm.trans hn))
    simpa using hne

theorem WellFormed.evicted (n : Name) : (p.evicted n).WellFormed := by
  refine h.of_removed (p.sessionsOf n) ?_ (h.group_evicted n) ?_ ?_ ?_
  · intro m as has
    unfold Presence.evicted at has
    rw [(cancelAll_eq _ _).1] at has
    exact h.nonempty_withoutGroup n m as has
  · intro c _
    unfold Presence.evicted
    rw [(cancelAll_eq _ _).2.1]
    rfl
  · intro c m
    unfold Presence.evicted
    rw [(cancelAll_eq _ _).2.1]
    exact id
  · have harrivals : (p.evicted n).arrivals = p.arrivals := (cancelAll_eq _ _).2.2.1
    exact Nat.le_of_eq harrivals.symm

theorem WellFormed.nameOf?_evicted (n : Name) (c : Connection) :
    (p.evicted n).nameOf? c = if p.nameOf? c = some n then none else p.nameOf? c := by
  rw [h.nameOf?_removed (h.evicted n) (h.group_evicted n)]
  by_cases hc : c ∈ p.sessionsOf n
  · simp [hc, h.nameOf?_eq_some_iff.2 hc]
  · simp [hc, mt h.nameOf?_eq_some_iff.1 hc]

end

/-! ### Staying -/

theorem map_connection_showStatus (c : Connection) (s : Status) (as : List Attachment) :
    (showStatus c s as).map (·.connection) = as.map (·.connection) := by
  induction as with
  | nil => rfl
  | cons a as ih =>
    unfold showStatus
    split
    · next ha => simp [ha]
    · simp [ih]

theorem group_setStatus (p : Presence) (c : Connection) (s : Status) (m : Name) :
    (p.setStatus c s).group m =
      if p.owners.find? c = some m then showStatus c s (p.group m) else p.group m := by
  unfold setStatus
  cases howner : p.owners.find? c with
  | none => simp
  | some n =>
    unfold group
    rw [Table.find?_modify]
    by_cases hm : m = n
    · subst hm
      cases hfind : p.groups.find? m <;> simp [showStatus]
    · simp [hm, Ne.symm hm]

theorem sessionsOf_setStatus (p : Presence) (c : Connection) (s : Status) (m : Name) :
    (p.setStatus c s).sessionsOf m = p.sessionsOf m := by
  unfold sessionsOf
  rw [group_setStatus]
  split
  · exact map_connection_showStatus c s _
  · rfl

theorem owners_setStatus (p : Presence) (c : Connection) (s : Status) :
    (p.setStatus c s).owners = p.owners := by
  unfold setStatus
  split <;> rfl

theorem arrivals_setStatus (p : Presence) (c : Connection) (s : Status) :
    (p.setStatus c s).arrivals = p.arrivals := by
  unfold setStatus
  split <;> rfl

theorem WellFormed.setStatus {p : Presence} (h : p.WellFormed) (c : Connection) (s : Status) :
    (p.setStatus c s).WellFormed where
  nonempty n as has := by
    have hgroup : (p.setStatus c s).group n = as := by simp [group, has]
    have hsessions := sessionsOf_setStatus p c s n
    unfold sessionsOf at hsessions
    rintro rfl
    rw [hgroup, List.map_nil, eq_comm, List.map_eq_nil_iff] at hsessions
    unfold Presence.setStatus at has
    cases howner : p.owners.find? c with
    | none =>
      rw [howner] at has
      exact h.nonempty n [] has rfl
    | some m =>
      simp only [howner, Table.find?_modify] at has
      split at has
      · next hnm =>
        obtain ⟨bs, hbs, -⟩ := Option.map_eq_some_iff.1 has
        exact h.nonempty n bs hbs (by simpa [group, hbs] using hsessions)
      · exact h.nonempty n [] has rfl
  owner n a ha := by
    have hc : a.connection ∈ p.sessionsOf n :=
      sessionsOf_setStatus p c s n ▸ connection_mem_sessionsOf ha
    obtain ⟨b, hb, hba⟩ := List.mem_map.1 hc
    rw [owners_setStatus, ← hba]
    exact h.owner n b hb
  nodup n := by
    rw [sessionsOf_setStatus]
    exact h.nodup n
  arrived d n := by
    rw [owners_setStatus, arrivals_setStatus]
    exact h.arrived d n

/-- The registry after the sessions of one name have moved under another. -/
def rebound (p : Presence) (old new : Name) : Presence :=
  let left := p.withoutGroup old
  let joined :=
    if (p.group old).isEmpty then left else left.setGroup new (left.group new ++ p.group old)
  { joined with owners := p.owners.filterMap fun _ n => some (Ties.substitute old new n) }

/-- Owner entries follow the renaming, of whoever is in no group too. -/
theorem owner_rebound (p : Presence) (old new : Name) (c : Connection) :
    (p.rebound old new).owners.find? c = (p.owners.find? c).map (Ties.substitute old new) := by
  show (p.owners.filterMap fun _ n => some (Ties.substitute old new n)).find? c = _
  rw [Table.find?_filterMap]
  cases p.owners.find? c <;> rfl

theorem WellFormed.nonempty_rebound {p : Presence} (h : p.WellFormed) (old new m : Name)
    (as : List Attachment) (has : (p.rebound old new).groups.find? m = some as) : as ≠ [] := by
  have has : (if (p.group old).isEmpty then p.withoutGroup old
      else (p.withoutGroup old).setGroup new
        ((p.withoutGroup old).group new ++ p.group old)).groups.find? m = some as := has
  split at has
  · exact h.nonempty_withoutGroup old m as has
  · next hold =>
    have hjoined : ((p.withoutGroup old).group new ++ p.group old).isEmpty = false := by
      simpa using fun _ => hold
    unfold setGroup at has
    simp only [hjoined, Bool.false_eq_true, if_false, Table.find?_insert] at has
    split at has
    · cases has
      simpa using hjoined
    · exact h.nonempty_withoutGroup old m as has

/-- The group that moves comes behind what is left under the new name, also when it is the old one. -/
theorem group_rebound_eq (p : Presence) (old new m : Name) :
    (p.rebound old new).group m =
      if m = new then (if new = old then [] else p.group new) ++ p.group old
      else if m = old then [] else p.group m := by
  rw [← group_withoutGroup p old new, ← group_withoutGroup p old m]
  show (if (p.group old).isEmpty then p.withoutGroup old
    else (p.withoutGroup old).setGroup new
      ((p.withoutGroup old).group new ++ p.group old)).group m = _
  split
  · next hold =>
    rw [List.isEmpty_iff.1 hold, List.append_nil]
    split
    · next hm => rw [hm]
    · rfl
  · exact group_setGroup _ _ _ _

section

variable {p : Presence} {old new : Name} (hne : old ≠ new)
include hne

theorem group_rebound (m : Name) :
    (p.rebound old new).group m =
      if m = new then p.group new ++ p.group old else if m = old then [] else p.group m := by
  rw [group_rebound_eq, if_neg hne.symm]

/-- When nobody had the new name, its players show what those of the old one showed. -/
theorem statusOf_rebound (hnew : p.group new = []) (m : Name) :
    (p.rebound old new).statusOf m =
      if m = new then p.statusOf old else if m = old then .disconnected else p.statusOf m := by
  unfold statusOf
  rw [group_rebound hne, hnew, List.nil_append]
  split
  · rfl
  · split <;> rfl

theorem WellFormed.rebound (h : p.WellFormed) : (p.rebound old new).WellFormed where
  nonempty := h.nonempty_rebound old new
  owner m a ha := by
    rw [group_rebound hne] at ha
    rw [owner_rebound]
    split at ha
    · next hm =>
      subst hm
      rw [List.mem_append] at ha
      rcases ha with ha | ha
      · simp [h.owner _ a ha, Ties.substitute, hne.symm]
      · simp [h.owner _ a ha, Ties.substitute]
    · split at ha
      · cases ha
      · next hold => simp [h.owner m a ha, Ties.substitute, hold]
  nodup m := by
    unfold sessionsOf
    rw [group_rebound hne]
    split
    · rw [List.map_append, List.nodup_append]
      refine ⟨h.nodup new, h.nodup old, ?_⟩
      intro c hc d hd hcd
      subst hcd
      have hc' := h.nameOf?_eq_some_iff.2 hc
      have hd' := h.nameOf?_eq_some_iff.2 hd
      exact hne (Option.some.inj (hd'.symm.trans hc'))
    · split
      · exact List.nodup_nil
      · exact h.nodup m
  arrived c m hc := by
    rw [owner_rebound] at hc
    obtain ⟨n, hn, -⟩ := Option.map_eq_some_iff.1 hc
    have harrivals : (p.rebound old new).arrivals = p.arrivals := by
      unfold Presence.rebound
      split <;> rfl
    rw [harrivals]
    exact h.arrived c n hn

/-- Whoever stood under the old name stands under the new one, and nothing changes for others. -/
theorem WellFormed.nameOf?_rebound (h : p.WellFormed) (c : Connection) :
    (p.rebound old new).nameOf? c = (p.nameOf? c).map (Ties.substitute old new) := by
  ext m
  rw [(h.rebound hne).nameOf?_eq_some_iff, Option.map_eq_some_iff]
  simp only [h.nameOf?_eq_some_iff]
  unfold sessionsOf
  rw [group_rebound hne]
  constructor
  · intro hc
    split at hc
    · next hm =>
      subst hm
      rw [List.map_append, List.mem_append] at hc
      rcases hc with hc | hc
      · exact ⟨_, hc, by simp [Ties.substitute, hne.symm]⟩
      · exact ⟨old, hc, by simp [Ties.substitute]⟩
    · split at hc
      · cases hc
      · next hold => exact ⟨m, hc, by simp [Ties.substitute, hold]⟩
  · rintro ⟨n, hn, rfl⟩
    unfold Ties.substitute
    by_cases hold : n = old
    · subst hold
      simp [hn]
    · by_cases hnew : n = new
      · subst hnew
        simp [hold, hn]
      · simp [hold, hnew, hn]

end

end Amity.Presence
