import SessionAffinity.ConsistentHash

/-!
# What a lookup depends on

`Nearest` says, without a map, which server a key belongs to: the one that owns a virtual
node at the least clockwise distance `(position - hash) mod 2 ^ 64` among all virtual nodes
of the active servers. On a full sound ring the lookup decides exactly that
(`Full.getServer_eq_iff_nearest`), so `getServer_afterOps` can say that the ring forgets its
history: only the set of active servers matters.

Minimal disruption needs no separation for an addition (`getServer_addServer`): the new
positions can only draw a key to the new server. A removal leaves the keys of the other
servers alone as long as it erases no position of theirs (`getServer_removeServer`). What a
removal cannot promise under collisions is a server for its own keys: an earlier removal may
have erased the positions of a server that is still active (`removeServer_strands`).
-/

namespace SessionAffinity

namespace ConsistentHashRing

variable {hashKey : ByteString → UInt64} {r : ConsistentHashRing hashKey} {s : ℤ}

/-! ### Clockwise-nearest ownership -/

/-- Server `s` of `A` owns a virtual node at the least clockwise distance from the key. -/
def Nearest (hashKey : ByteString → UInt64) (vnodes : ℤ) (A : List ℤ) (key : ByteString)
    (s : ℤ) : Prop :=
  s ∈ A ∧ ∃ i : ℕ, i < vnodes ∧ ∀ t ∈ A, ∀ j : ℕ, j < vnodes →
    (hashKey (vnodeKey s i) - hashKey key).toNat ≤ (hashKey (vnodeKey t j) - hashKey key).toNat

/-- On a full sound ring the positions are the virtual nodes of the active servers. -/
theorem Full.mem_ring_iff (hf : r.Full) (h : r.Sound) {p : UInt64} :
    p ∈ r.ring ↔ ∃ t ∈ r.activeServers, p ∈ r.positions t := by
  rw [Std.ExtTreeMap.mem_iff_isSome_getElem?, Option.isSome_iff_exists]
  constructor
  · rintro ⟨t, ht⟩
    exact ⟨t, h.owned ht⟩
  · rintro ⟨t, ht, hp⟩
    exact ⟨t, hf t ht p hp⟩

/-- **Lookup is clockwise-nearest.** On a full sound ring the lookup answers exactly the
server that owns the nearest virtual node. -/
theorem Full.getServer_eq_iff_nearest (hf : r.Full) (h : r.Sound) (hne : r.activeServers ≠ [])
    (hV : 0 < r.vnodesPerServer) (key : ByteString) :
    r.getServer key = s ↔ Nearest hashKey r.vnodesPerServer r.activeServers key s := by
  obtain ⟨a, ha⟩ := List.exists_mem_of_ne_nil _ hne
  constructor
  · rintro rfl
    obtain ⟨p, hp, hle⟩ := exists_nearest (hf.ring_ne_empty hV ha) key
    obtain ⟨hs, hps⟩ := h.owned hp
    obtain ⟨i, hi, rfl⟩ := mem_positions.mp hps
    refine ⟨hs, i, hi, fun t ht j hj => hle _ ?_⟩
    exact (hf.mem_ring_iff h).mpr ⟨t, ht, mem_positions.mpr ⟨j, hj, rfl⟩⟩
  · rintro ⟨hs, i, hi, hle⟩
    refine getServer_of_nearest (hf s hs _ (mem_positions.mpr ⟨i, hi, rfl⟩)) fun q hq => ?_
    obtain ⟨t, ht, hqt⟩ := (hf.mem_ring_iff h).mp hq
    obtain ⟨j, hj, rfl⟩ := mem_positions.mp hqt
    exact hle t ht j hj

/-- Without virtual nodes, or without servers, a sound ring has no position. -/
theorem Sound.ring_eq_empty (h : r.Sound) (hr : r.activeServers = [] ∨ r.vnodesPerServer ≤ 0) :
    r.ring = ∅ := by
  by_contra hne
  obtain ⟨p, hp, -⟩ := exists_nearest hne []
  obtain ⟨hs, hps⟩ := h.owned hp
  rcases hr with hr | hr
  · rw [hr] at hs
    exact List.not_mem_nil hs
  · obtain ⟨i, hi, -⟩ := mem_positions.mp hps
    omega

/-- **The ring is a function of the active set.** Over separated servers, whatever the
history of additions and removals: a lookup answers `-1` when no server is active or there
are no virtual nodes, and the clockwise-nearest active server otherwise; histories that end
in the same active set answer every key alike. -/
theorem getServer_afterOps (hashKey : ByteString → UInt64) (vnodes : ℤ) (ops : List Op)
    (hsep : Separated hashKey vnodes (servers ops)) (key : ByteString) :
    ((afterOps hashKey vnodes ops).activeServers = [] ∨ vnodes ≤ 0 →
      (afterOps hashKey vnodes ops).getServer key = -1) ∧
    ((afterOps hashKey vnodes ops).activeServers ≠ [] → 0 < vnodes →
      ∀ s, (afterOps hashKey vnodes ops).getServer key = s ↔
        Nearest hashKey vnodes (afterOps hashKey vnodes ops).activeServers key s) ∧
    ∀ ops', Separated hashKey vnodes (servers ops') →
      (∀ s, s ∈ (afterOps hashKey vnodes ops').activeServers ↔
        s ∈ (afterOps hashKey vnodes ops).activeServers) →
      (afterOps hashKey vnodes ops').getServer key =
        (afterOps hashKey vnodes ops).getServer key := by
  have hempty : ∀ ops, (afterOps hashKey vnodes ops).activeServers = [] ∨ vnodes ≤ 0 →
      (afterOps hashKey vnodes ops).getServer key = -1 := fun ops h =>
    getServer_of_ring_eq_empty ((sound_afterOps vnodes ops).ring_eq_empty
      (h.imp_right fun hV => (afterOps_vnodesPerServer vnodes ops).le.trans hV)) key
  have hnearest : ∀ ops, Separated hashKey vnodes (servers ops) →
      (afterOps hashKey vnodes ops).activeServers ≠ [] → 0 < vnodes →
      ∀ s, (afterOps hashKey vnodes ops).getServer key = s ↔
        Nearest hashKey vnodes (afterOps hashKey vnodes ops).activeServers key s := by
    intro ops hsep hne hV s
    have hiff := (full_afterOps hsep).getServer_eq_iff_nearest (s := s)
      (sound_afterOps vnodes ops) hne (by rwa [afterOps_vnodesPerServer]) key
    rwa [afterOps_vnodesPerServer] at hiff
  refine ⟨hempty ops, hnearest ops hsep, fun ops' hsep' hact => ?_⟩
  have hnil : (afterOps hashKey vnodes ops').activeServers = [] ↔
      (afterOps hashKey vnodes ops).activeServers = [] := by
    simp only [List.eq_nil_iff_forall_not_mem, hact]
  by_cases h : (afterOps hashKey vnodes ops).activeServers = [] ∨ vnodes ≤ 0
  · rw [hempty ops h, hempty ops' (h.imp_left hnil.mpr)]
  · obtain ⟨hne, hV⟩ := not_or.mp h
    have hown := (hnearest ops hsep hne (not_le.mp hV) _).mp rfl
    refine (hnearest ops' hsep' (mt hnil.mp hne) (not_le.mp hV) _).mpr ?_
    obtain ⟨hs, i, hi, hle⟩ := hown
    exact ⟨(hact _).mpr hs, i, hi, fun t ht => hle t ((hact t).mp ht)⟩

/-- Calls about servers `0` and `1` are about separated servers. -/
private theorem separated_servers {ops : List Op}
    (hops : ∀ op ∈ ops, op.server = 0 ∨ op.server = 1) : Separated fnvHashKey 1 (servers ops) := by
  refine separated_fnv.mono ?_
  rintro s ⟨op, hop, rfl⟩
  exact hops op hop

/-- Taking server `0` out of a ring of two and back in leaves a lookup where it was. -/
theorem getServer_restore :
    (afterOps fnvHashKey 1 [.addServer 0, .addServer 1, .removeServer 0, .addServer 0]).getServer
        (bytes "key") =
      (afterOps fnvHashKey 1 [.addServer 0, .addServer 1]).getServer (bytes "key") :=
  (getServer_afterOps fnvHashKey 1 [.addServer 0, .addServer 1]
    (separated_servers (by simp [Op.server])) (bytes "key")).2.2
      [.addServer 0, .addServer 1, .removeServer 0, .addServer 0]
      (separated_servers (by simp [Op.server])) fun s => by
        have h : (afterOps fnvHashKey 1 [.addServer 0, .addServer 1]).activeServers = [0, 1] := by
          decide
        have h' : (afterOps fnvHashKey 1 [.addServer 0, .addServer 1, .removeServer 0,
            .addServer 0]).activeServers = [1, 0] := by
          decide
        rw [h, h']
        simp [or_comm]

/-! ### Minimal disruption -/

/-- **An addition only draws keys to the new server**, under every hash function. -/
theorem getServer_addServer (r : ConsistentHashRing hashKey) (s : ℤ) (key : ByteString) :
    (r.addServer s).getServer key = r.getServer key ∨ (r.addServer s).getServer key = s := by
  by_cases hs : s ∈ r.activeServers
  · exact .inl (by rw [addServer_of_mem hs])
  by_cases hempty : (r.addServer s).ring = ∅
  · have hr : r.ring = ∅ := by
      refine Std.ExtTreeMap.ext_getElem? fun p => ?_
      have hp := getElem?_addServer hs p
      rw [hempty] at hp
      split_ifs at hp with hps
      · simp at hp
      · exact hp.symm
    exact .inl (by rw [getServer_of_ring_eq_empty hempty, getServer_of_ring_eq_empty hr])
  obtain ⟨p, hp, hle⟩ := exists_nearest hempty key
  rw [getElem?_addServer hs] at hp
  split_ifs at hp with hps
  · exact .inr (Option.some.inj hp).symm
  · -- the nearest position is an old one, and the old positions are among the new ones
    refine .inl (getServer_of_nearest hp fun q hq => hle q ?_).symm
    rw [Std.ExtTreeMap.mem_iff_isSome_getElem?] at hq ⊢
    rw [getElem?_addServer hs]
    split_ifs
    · rfl
    · exact hq

/-- **A removal only moves the keys of the removed server**, as long as no position it erases
belongs to another. -/
theorem getServer_removeServer {key : ByteString}
    (hown : ∀ p ∈ r.positions s, ∀ t, r.ring[p]? = some t → t = s) (hne : r.getServer key ≠ s) :
    (r.removeServer s).getServer key = r.getServer key := by
  by_cases hempty : r.ring = ∅
  · have hr : (r.removeServer s).ring = ∅ := by
      refine Std.ExtTreeMap.ext_getElem? fun p => ?_
      rw [getElem?_removeServer, hempty]
      split_ifs <;> simp
    rw [getServer_of_ring_eq_empty hempty, getServer_of_ring_eq_empty hr]
  obtain ⟨p, hp, hle⟩ := exists_nearest hempty key
  have hps : p ∉ r.positions s := fun hps => hne (hown p hps _ hp)
  refine getServer_of_nearest (by rw [getElem?_removeServer, if_neg hps, hp]) fun q hq => hle q ?_
  rw [Std.ExtTreeMap.mem_iff_isSome_getElem?] at hq ⊢
  rw [getElem?_removeServer] at hq
  split_ifs at hq
  · simp at hq
  · exact hq

/-- After a removal a lookup answers another active server, or `-1` when the map has become
empty. -/
theorem Sound.getServer_removeServer (h : r.Sound) (s : ℤ) (key : ByteString) :
    ((r.removeServer s).getServer key ∈ (r.removeServer s).activeServers ∧
        (r.removeServer s).getServer key ≠ s) ∨
      ((r.removeServer s).getServer key = -1 ∧ (r.removeServer s).ring = ∅) := by
  by_cases hempty : (r.removeServer s).ring = ∅
  · exact .inr ⟨getServer_of_ring_eq_empty hempty key, hempty⟩
  · obtain ⟨p, hp, -⟩ := exists_nearest hempty key
    have hmem := ((h.removeServer s).owned hp).1
    exact .inl ⟨hmem, ((mem_activeServers_removeServer r s).mp hmem).1⟩

/-- Positions that collide with no active server's are nobody else's in a sound map. -/
theorem Sound.eq_of_mem_positions (h : r.Sound)
    (hfree : ∀ t ∈ r.activeServers, t ≠ s → ∀ i j : ℕ, i < r.vnodesPerServer →
      j < r.vnodesPerServer → hashKey (vnodeKey s i) ≠ hashKey (vnodeKey t j))
    {p : UInt64} (hp : p ∈ r.positions s) {t : ℤ} (ht : r.ring[p]? = some t) : t = s := by
  by_contra hts
  obtain ⟨hmem, hpt⟩ := h.owned ht
  obtain ⟨i, hi, rfl⟩ := mem_positions.mp hp
  obtain ⟨j, hj, hij⟩ := mem_positions.mp hpt
  exact hfree t hmem hts i j hi hj hij.symm

/-- **Minimal disruption.** On every ring that is ever built, adding `s` moves a key to `s` or
nowhere; removing an `s` that collides with no active server moves no key of another server
and sends a key of `s` to another active server, or to `-1` when no position is left on the
map; and over servers that are separated no position is left only if no server is. -/
theorem minimal_disruption (hashKey : ByteString → UInt64) (vnodes : ℤ) (ops : List Op) (s : ℤ)
    (key : ByteString) :
    (((afterOps hashKey vnodes ops).addServer s).getServer key =
        (afterOps hashKey vnodes ops).getServer key ∨
      ((afterOps hashKey vnodes ops).addServer s).getServer key = s) ∧
    ((∀ t ∈ (afterOps hashKey vnodes ops).activeServers, t ≠ s → ∀ i j : ℕ, i < vnodes →
        j < vnodes → hashKey (vnodeKey s i) ≠ hashKey (vnodeKey t j)) →
      ((afterOps hashKey vnodes ops).getServer key ≠ s →
        ((afterOps hashKey vnodes ops).removeServer s).getServer key =
          (afterOps hashKey vnodes ops).getServer key) ∧
      ((afterOps hashKey vnodes ops).getServer key = s →
        (((afterOps hashKey vnodes ops).removeServer s).getServer key ∈
            ((afterOps hashKey vnodes ops).removeServer s).activeServers ∧
          ((afterOps hashKey vnodes ops).removeServer s).getServer key ≠ s) ∨
        (((afterOps hashKey vnodes ops).removeServer s).getServer key = -1 ∧
          ((afterOps hashKey vnodes ops).removeServer s).ring = ∅)) ∧
      (Separated hashKey vnodes (servers ops) → 0 < vnodes →
        ((afterOps hashKey vnodes ops).removeServer s).ring = ∅ →
        ((afterOps hashKey vnodes ops).removeServer s).activeServers = [])) := by
  have hsound : (afterOps hashKey vnodes ops).Sound := sound_afterOps vnodes ops
  refine ⟨getServer_addServer _ s key, fun hfree => ?_⟩
  have hown : ∀ p ∈ (afterOps hashKey vnodes ops).positions s, ∀ t,
      (afterOps hashKey vnodes ops).ring[p]? = some t → t = s := fun p hp t ht =>
    hsound.eq_of_mem_positions (by rwa [afterOps_vnodesPerServer]) hp ht
  refine ⟨getServer_removeServer hown, fun _ => hsound.getServer_removeServer s key,
    fun hsep hV hempty => List.eq_nil_iff_forall_not_mem.mpr fun t ht => ?_⟩
  obtain ⟨hts, ht⟩ := (mem_activeServers_removeServer _ s).mp ht
  -- the first virtual node of a remaining server would still be in the map
  have hp : hashKey (vnodeKey t 0) ∈ (afterOps hashKey vnodes ops).positions t :=
    mem_positions.mpr ⟨0, by rwa [afterOps_vnodesPerServer], rfl⟩
  have hring := full_afterOps hsep t ht _ hp
  have hps : hashKey (vnodeKey t 0) ∉ (afterOps hashKey vnodes ops).positions s := fun hps =>
    hts (hown _ hps t hring)
  have hkept := getElem?_removeServer (afterOps hashKey vnodes ops) s (hashKey (vnodeKey t 0))
  rw [if_neg hps, hring, hempty] at hkept
  simp at hkept

/-- Removing server `0`, the owner of this key, from a ring of two hands the key to a server
that is still active. -/
theorem minimal_disruption_fnv :
    (afterOps fnvHashKey 1 [.addServer 0, .addServer 1]).getServer (bytes "key") = 0 ∧
      ((((afterOps fnvHashKey 1 [.addServer 0, .addServer 1]).removeServer 0).getServer
            (bytes "key") ∈
          ((afterOps fnvHashKey 1 [.addServer 0, .addServer 1]).removeServer 0).activeServers ∧
        ((afterOps fnvHashKey 1 [.addServer 0, .addServer 1]).removeServer 0).getServer
            (bytes "key") ≠ 0) ∨
      (((afterOps fnvHashKey 1 [.addServer 0, .addServer 1]).removeServer 0).getServer
            (bytes "key") = -1 ∧
        ((afterOps fnvHashKey 1 [.addServer 0, .addServer 1]).removeServer 0).ring = ∅)) := by
  have hkey : (afterOps fnvHashKey 1 [.addServer 0, .addServer 1]).getServer (bytes "key") = 0 := by
    decide
  have hsep : Separated fnvHashKey 1 (servers [.addServer 0, .addServer 1]) :=
    separated_servers (by simp [Op.server])
  have hfree : ∀ t ∈ (afterOps fnvHashKey 1 [.addServer 0, .addServer 1]).activeServers, t ≠ 0 →
      ∀ i j : ℕ, i < (1 : ℤ) → j < (1 : ℤ) →
        fnvHashKey (vnodeKey 0 i) ≠ fnvHashKey (vnodeKey t j) := fun t ht hne i j hi hj =>
    hsep 0 ⟨_, List.mem_cons_self, rfl⟩ t (mem_servers_of_mem_activeServers t ht) hne.symm i j hi hj
  exact ⟨hkey, ((minimal_disruption fnvHashKey 1 [.addServer 0, .addServer 1] 0
    (bytes "key")).2 hfree).2.1 hkey⟩

/-- A hash function under which the virtual nodes of servers `0` and `1` collide and that of
server `2` stands apart. -/
def collidingHashKey (key : ByteString) : UInt64 := if key = vnodeKey 2 0 then 1 else 0

/-- Removing server `1` erases the position it took from server `0`. Server `2`, which
collides with nobody, then owns every key, and its removal leaves its keys with `-1` although
server `0` is still active. -/
theorem removeServer_strands :
    (∀ t ∈ ([0, 1] : List ℤ), ∀ i j : ℕ, i < (1 : ℤ) → j < (1 : ℤ) →
        collidingHashKey (vnodeKey 2 i) ≠ collidingHashKey (vnodeKey t j)) ∧
      (afterOps collidingHashKey 1
        [.addServer 0, .addServer 1, .removeServer 1, .addServer 2]).getServer (bytes "key") = 2 ∧
      ((afterOps collidingHashKey 1 [.addServer 0, .addServer 1, .removeServer 1,
        .addServer 2]).removeServer 2).activeServers = [0] ∧
      ((afterOps collidingHashKey 1 [.addServer 0, .addServer 1, .removeServer 1,
        .addServer 2]).removeServer 2).getServer (bytes "key") = -1 := by
  refine ⟨fun t ht i j hi hj => ?_, by decide, by decide, by decide⟩
  obtain ⟨rfl, rfl⟩ : i = 0 ∧ j = 0 := by omega
  rcases List.mem_pair.mp ht with rfl | rfl <;> decide

end ConsistentHashRing

end SessionAffinity
