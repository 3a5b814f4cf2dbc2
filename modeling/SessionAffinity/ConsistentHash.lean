import SessionAffinity.Common
import SessionAffinity.Foundations.Clockwise
import SessionAffinity.Foundations.Machine

/-!
# The consistent-hash ring

`ConsistentHashRing hashKey` is the ring of `consistent_hash.cpp` over an arbitrary hash
function: the ordered map from positions to servers and the list of active servers, each
mutated in place by `addServer` and `removeServer`. The hash function is a parameter of the
type, so that a result about a ring is a result for every hash function; `fnvHashKey` is the
one the source uses.

Two invariants are kept by both mutations. `Sound` holds under every hash function: the
active list has no duplicates and a position in the map belongs to an active server of which
it is a virtual node. It is all that survives collisions, since an add overwrites and a
remove erases a position that two servers share. `Full` says that every virtual node of an
active server is in the map under that server, and needs the servers to be `Separated`.
-/

namespace SessionAffinity

open Std (ExtTreeMap)
open ByteString (decimal signedDecimal)
open OrderedMap (lowerBound? begin? clockwise?)

/-- `ConsistentHashRing::hashKey`: FNV-style mixing of the (signed) characters of the key. -/
def fnvHashKey (key : ByteString) : UInt64 :=
  key.foldl (fun hash c => (hash ^^^ c.toInt8.toInt64.toUInt64) * 1099511628211)
    14695981039346656037

/-- The key of virtual node `i` of a server. -/
def vnodeKey (serverId : ℤ) (i : ℕ) : ByteString :=
  bytes "server_" ++ signedDecimal serverId ++ bytes "_vnode_" ++ decimal i

/-- The positions of a server's virtual nodes, in the order the loops visit them. -/
def vnodePositions (hashKey : ByteString → UInt64) (vnodes : ℤ) (serverId : ℤ) : List UInt64 :=
  (List.range vnodes.toNat).map fun i => hashKey (vnodeKey serverId i)

/-- No virtual node of one server of `A` lies at the position of one of another. -/
def Separated (hashKey : ByteString → UInt64) (vnodes : ℤ) (A : Set ℤ) : Prop :=
  ∀ s ∈ A, ∀ t ∈ A, s ≠ t → ∀ i j : ℕ, i < vnodes → j < vnodes →
    hashKey (vnodeKey s i) ≠ hashKey (vnodeKey t j)

theorem Separated.mono {hashKey : ByteString → UInt64} {vnodes : ℤ} {A B : Set ℤ}
    (h : Separated hashKey vnodes B) (hAB : A ⊆ B) : Separated hashKey vnodes A :=
  fun s hs t ht => h s (hAB hs) t (hAB ht)

/-- Servers `0` and `1` with one virtual node each are separated by the source's hash
function. -/
theorem separated_fnv : Separated fnvHashKey 1 {0, 1} := by
  have hne : fnvHashKey (vnodeKey 0 0) ≠ fnvHashKey (vnodeKey 1 0) := by decide
  intro s hs t ht hst i j hi hj
  obtain ⟨rfl, rfl⟩ : i = 0 ∧ j = 0 := by omega
  rcases hs with rfl | rfl <;> rcases ht with rfl | rfl
  · exact absurd rfl hst
  · exact hne
  · exact hne.symm
  · exact absurd rfl hst

/-- The hash ring: positions on the circle of 64-bit words with the server each belongs to,
and the active servers in the order they were added. -/
structure ConsistentHashRing (hashKey : ByteString → UInt64) where
  vnodesPerServer : ℤ
  ring : ExtTreeMap UInt64 ℤ
  activeServers : List ℤ

namespace ConsistentHashRing

variable {hashKey : ByteString → UInt64}

/-- A ring without servers. -/
def init (hashKey : ByteString → UInt64) (vnodesPerServer : ℤ) : ConsistentHashRing hashKey :=
  ⟨vnodesPerServer, ∅, []⟩

/-- The positions of a server's virtual nodes on this ring. -/
def positions (r : ConsistentHashRing hashKey) (serverId : ℤ) : List UInt64 :=
  vnodePositions hashKey r.vnodesPerServer serverId

/-- `addServer`: a no-op on an active server, else its virtual nodes are written. -/
def addServer (r : ConsistentHashRing hashKey) (serverId : ℤ) : ConsistentHashRing hashKey :=
  if serverId ∈ r.activeServers then r
  else
    { r with
      ring := (r.positions serverId).foldl (fun m hash => m.insert hash serverId) r.ring
      activeServers := r.activeServers ++ [serverId] }

/-- `removeServer`: its positions are erased whoever owns them, and it leaves the list. -/
def removeServer (r : ConsistentHashRing hashKey) (serverId : ℤ) :
    ConsistentHashRing hashKey :=
  { r with
    ring := (r.positions serverId).foldl (fun m hash => m.erase hash) r.ring
    activeServers := r.activeServers.filter (· ≠ serverId) }

/-- `getServer`: the server of the first position at or after the key's hash, wrapping round
to the first position of all; `-1` on an empty map. -/
def getServer (r : ConsistentHashRing hashKey) (key : ByteString) : ℤ :=
  if r.ring.isEmpty then -1
  else
    match (lowerBound? r.ring (hashKey key)).or (begin? r.ring) with
    | some it => it.2
    | none => -1

/-- `getActiveServers`. -/
def getActiveServers (r : ConsistentHashRing hashKey) : List ℤ := r.activeServers

/-! ### Entries after a mutation -/

variable (r : ConsistentHashRing hashKey) (s : ℤ)

@[simp]
theorem addServer_vnodesPerServer : (r.addServer s).vnodesPerServer = r.vnodesPerServer := by
  rw [addServer]
  split_ifs <;> rfl

@[simp]
theorem removeServer_vnodesPerServer :
    (r.removeServer s).vnodesPerServer = r.vnodesPerServer := rfl

@[simp]
theorem addServer_positions (t : ℤ) : (r.addServer s).positions t = r.positions t := by
  rw [positions, positions, addServer_vnodesPerServer]

@[simp]
theorem removeServer_positions (t : ℤ) : (r.removeServer s).positions t = r.positions t := rfl

theorem addServer_of_mem {r : ConsistentHashRing hashKey} {s : ℤ} (h : s ∈ r.activeServers) :
    r.addServer s = r := if_pos h

private theorem getElem?_foldl_insert (v : ℤ) (ps : List UInt64) (p : UInt64) :
    ∀ m : ExtTreeMap UInt64 ℤ, (ps.foldl (fun m hash => m.insert hash v) m)[p]? =
      if p ∈ ps then some v else m[p]? := by
  induction ps with
  | nil => intro m; simp
  | cons q ps ih =>
    intro m
    rw [List.foldl_cons, ih, ExtTreeMap.getElem?_insert]
    by_cases hp : p ∈ ps
    · simp [hp]
    · rcases eq_or_ne q p with rfl | hq
      · simp
      · simp [hp, hq, hq.symm]

private theorem getElem?_foldl_erase (ps : List UInt64) (p : UInt64) :
    ∀ m : ExtTreeMap UInt64 ℤ, (ps.foldl (fun m hash => m.erase hash) m)[p]? =
      if p ∈ ps then none else m[p]? := by
  induction ps with
  | nil => intro m; simp
  | cons q ps ih =>
    intro m
    rw [List.foldl_cons, ih, ExtTreeMap.getElem?_erase]
    by_cases hp : p ∈ ps
    · simp [hp]
    · rcases eq_or_ne q p with rfl | hq
      · simp
      · simp [hp, hq, hq.symm]

/-- The map after adding a new server: its positions are its own, the others as before. -/
theorem getElem?_addServer {r : ConsistentHashRing hashKey} {s : ℤ} (h : s ∉ r.activeServers)
    (p : UInt64) :
    (r.addServer s).ring[p]? = if p ∈ r.positions s then some s else r.ring[p]? := by
  rw [addServer, if_neg h]
  exact getElem?_foldl_insert s _ p r.ring

/-- The map after a removal: the server's positions are gone, the others as before. -/
theorem getElem?_removeServer (p : UInt64) :
    (r.removeServer s).ring[p]? = if p ∈ r.positions s then none else r.ring[p]? :=
  getElem?_foldl_erase _ p r.ring

theorem mem_activeServers_addServer {t : ℤ} :
    t ∈ (r.addServer s).activeServers ↔ t = s ∨ t ∈ r.activeServers := by
  rw [addServer]
  split_ifs with h
  · exact ⟨.inr, fun ht => ht.elim (fun hts => hts ▸ h) id⟩
  · rw [List.mem_append, List.mem_singleton, or_comm]

theorem mem_activeServers_removeServer {t : ℤ} :
    t ∈ (r.removeServer s).activeServers ↔ t ≠ s ∧ t ∈ r.activeServers := by
  simp [removeServer, and_comm]

/-! ### Lookup -/

/-- The lookup as a clockwise walk. -/
theorem getServer_eq (key : ByteString) :
    r.getServer key = ((clockwise? r.ring (hashKey key)).map Prod.snd).getD (-1) := by
  rw [getServer]
  split_ifs with h
  · rw [OrderedMap.clockwise?_eq_none_iff.mpr (ExtTreeMap.isEmpty_iff.mp h)]
    rfl
  · rw [clockwise?]
    cases (lowerBound? r.ring (hashKey key)).or (begin? r.ring) <;> rfl

/-- On a map without positions the lookup answers `-1`. -/
theorem getServer_of_ring_eq_empty {r : ConsistentHashRing hashKey} (h : r.ring = ∅)
    (key : ByteString) : r.getServer key = -1 := by
  rw [getServer_eq, OrderedMap.clockwise?_eq_none_iff.mpr h]
  rfl

/-- The lookup answers the owner of a position that is nearest ahead of the key. -/
theorem getServer_of_nearest {r : ConsistentHashRing hashKey} {key : ByteString} {p : UInt64}
    {s : ℤ} (hp : r.ring[p]? = some s)
    (hle : ∀ q ∈ r.ring, (hashKey key).ahead p ≤ (hashKey key).ahead q) :
    r.getServer key = s := by
  rw [getServer_eq,
    (OrderedMap.clockwise?_eq_some_iff UInt64.roundDistance_ahead).mpr ⟨hp, hle⟩]
  rfl

/-- On a map with a position the lookup has a nearest position, whose owner it answers. -/
theorem exists_nearest {r : ConsistentHashRing hashKey} (h : r.ring ≠ ∅) (key : ByteString) :
    ∃ p, r.ring[p]? = some (r.getServer key) ∧
      ∀ q ∈ r.ring, (hashKey key).ahead p ≤ (hashKey key).ahead q := by
  cases hc : clockwise? r.ring (hashKey key) with
  | none => exact absurd (OrderedMap.clockwise?_eq_none_iff.mp hc) h
  | some e =>
    obtain ⟨p, s⟩ := e
    have hps := (OrderedMap.clockwise?_eq_some_iff UInt64.roundDistance_ahead).mp hc
    exact ⟨p, by rw [getServer_of_nearest hps.1 hps.2]; exact hps.1, hps.2⟩

theorem mem_positions {r : ConsistentHashRing hashKey} {s : ℤ} {p : UInt64} :
    p ∈ r.positions s ↔
      ∃ i : ℕ, (i : ℤ) < r.vnodesPerServer ∧ hashKey (vnodeKey s i) = p := by
  simp [positions, vnodePositions, Int.lt_toNat]

/-! ### The invariants -/

/-- What both mutations keep under every hash function. -/
structure Sound (r : ConsistentHashRing hashKey) : Prop where
  nodup : r.activeServers.Nodup
  owned {p : UInt64} {s : ℤ} : r.ring[p]? = some s → s ∈ r.activeServers ∧ p ∈ r.positions s

/-- Every virtual node of an active server is in the map, under that server. -/
def Full (r : ConsistentHashRing hashKey) : Prop :=
  ∀ s ∈ r.activeServers, ∀ p ∈ r.positions s, r.ring[p]? = some s

theorem sound_init (vnodes : ℤ) : (init hashKey vnodes).Sound where
  nodup := List.nodup_nil
  owned h := by simp [init] at h

theorem full_init (vnodes : ℤ) : (init hashKey vnodes).Full := by
  intro s hs
  exact absurd hs List.not_mem_nil

variable {r s}

protected theorem Sound.addServer (h : r.Sound) (s : ℤ) : (r.addServer s).Sound := by
  by_cases hs : s ∈ r.activeServers
  · rwa [addServer_of_mem hs]
  refine ⟨?_, fun {p t} hp => ?_⟩
  · rw [addServer, if_neg hs]
    exact ((List.perm_append_singleton s r.activeServers).nodup_iff).mpr
      (List.nodup_cons.mpr ⟨hs, h.nodup⟩)
  · rw [getElem?_addServer hs] at hp
    rw [mem_activeServers_addServer, addServer_positions]
    split_ifs at hp with hps
    · obtain rfl : s = t := Option.some.inj hp
      exact ⟨.inl rfl, hps⟩
    · exact (h.owned hp).imp_left .inr

protected theorem Sound.removeServer (h : r.Sound) (s : ℤ) : (r.removeServer s).Sound := by
  refine ⟨h.nodup.filter _, fun {p t} hp => ?_⟩
  rw [getElem?_removeServer] at hp
  split_ifs at hp with hps
  obtain ⟨ht, hpt⟩ := h.owned hp
  refine ⟨(mem_activeServers_removeServer r s).mpr ⟨?_, ht⟩, hpt⟩
  -- a surviving position is not one of the removed server's, so its owner is another
  rintro rfl
  exact hps hpt

/-- Separated servers have no position in common. -/
theorem not_mem_positions_of_separated {A : Set ℤ} (hA : Separated hashKey r.vnodesPerServer A)
    {s t : ℤ} (hs : s ∈ A) (ht : t ∈ A) (hne : s ≠ t) {p : UInt64} (hp : p ∈ r.positions s) :
    p ∉ r.positions t := by
  intro hpt
  obtain ⟨i, hi, rfl⟩ := mem_positions.mp hp
  obtain ⟨j, hj, hij⟩ := mem_positions.mp hpt
  exact hA s hs t ht hne i j hi hj hij.symm

protected theorem Full.addServer (h : r.Full) {A : Set ℤ}
    (hA : Separated hashKey r.vnodesPerServer A) (hr : ∀ t ∈ r.activeServers, t ∈ A)
    (hs : s ∈ A) : (r.addServer s).Full := by
  by_cases hmem : s ∈ r.activeServers
  · rwa [addServer_of_mem hmem]
  intro t ht p hp
  rw [addServer_positions] at hp
  rw [getElem?_addServer hmem]
  rcases (mem_activeServers_addServer r s).mp ht with rfl | ht
  · rw [if_pos hp]
  · have hne : t ≠ s := fun hts => hmem (hts ▸ ht)
    rw [if_neg (not_mem_positions_of_separated hA (hr t ht) hs hne hp)]
    exact h t ht p hp

protected theorem Full.removeServer (h : r.Full) {A : Set ℤ}
    (hA : Separated hashKey r.vnodesPerServer A) (hr : ∀ t ∈ r.activeServers, t ∈ A)
    (hs : s ∈ A) : (r.removeServer s).Full := by
  intro t ht p hp
  obtain ⟨hne, ht⟩ := (mem_activeServers_removeServer r s).mp ht
  rw [getElem?_removeServer, if_neg (not_mem_positions_of_separated hA (hr t ht) hs hne hp)]
  exact h t ht p hp

/-- The lookup answers `-1` or an active server, under every hash function. -/
theorem Sound.getServer_eq_or_mem (h : r.Sound) (key : ByteString) :
    r.getServer key = -1 ∨ r.getServer key ∈ r.activeServers := by
  by_cases hr : r.ring = ∅
  · exact .inl (getServer_of_ring_eq_empty hr key)
  · obtain ⟨p, hp, -⟩ := exists_nearest hr key
    exact .inr (h.owned hp).1

/-- A lookup that finds a server finds an active one. -/
theorem Sound.getServer_mem (h : r.Sound) {key : ByteString} (hs : 0 ≤ r.getServer key) :
    r.getServer key ∈ r.activeServers :=
  (h.getServer_eq_or_mem key).resolve_left fun hneg => by omega

/-- On a full ring with a virtual node per server, an active server means a position. -/
theorem Full.ring_ne_empty (h : r.Full) (hV : 0 < r.vnodesPerServer)
    (hs : s ∈ r.activeServers) : r.ring ≠ ∅ := by
  intro hr
  have hp := h s hs _ (mem_positions.mpr ⟨0, by simpa using hV, rfl⟩)
  rw [hr] at hp
  simp at hp

/-- The lookup finds a server whenever one is active. -/
structure Serving (r : ConsistentHashRing hashKey) : Prop where
  sound : r.Sound
  full : r.Full
  vnodes : 0 < r.vnodesPerServer
  nonneg : ∀ s ∈ r.activeServers, 0 ≤ s

theorem Serving.getServer_mem {r : ConsistentHashRing hashKey} (h : r.Serving) {s : ℤ}
    (hs : s ∈ r.activeServers) (key : ByteString) : r.getServer key ∈ r.activeServers := by
  obtain ⟨p, hp, -⟩ := exists_nearest (h.full.ring_ne_empty h.vnodes hs) key
  exact (h.sound.owned hp).1

theorem Serving.getServer_nonneg {r : ConsistentHashRing hashKey} (h : r.Serving) {s : ℤ}
    (hs : s ∈ r.activeServers) (key : ByteString) : 0 ≤ r.getServer key :=
  h.nonneg _ (h.getServer_mem hs key)

/-- A ring of separated servers of `A`, with all their virtual nodes in place. -/
structure Placed (A : Set ℤ) (r : ConsistentHashRing hashKey) : Prop where
  sound : r.Sound
  full : r.Full
  separated : Separated hashKey r.vnodesPerServer A
  subset : ∀ s ∈ r.activeServers, s ∈ A

section Placed

variable {A : Set ℤ}

theorem placed_init {vnodes : ℤ} (hA : Separated hashKey vnodes A) :
    (init hashKey vnodes).Placed A :=
  ⟨sound_init vnodes, full_init vnodes, hA, fun _ hs => absurd hs List.not_mem_nil⟩

protected theorem Placed.addServer (h : r.Placed A) (hs : s ∈ A) : (r.addServer s).Placed A where
  sound := h.sound.addServer s
  full := h.full.addServer h.separated h.subset hs
  separated := (addServer_vnodesPerServer r s).symm ▸ h.separated
  subset t ht := by
    rcases (mem_activeServers_addServer r s).mp ht with rfl | ht
    · exact hs
    · exact h.subset t ht

protected theorem Placed.removeServer (h : r.Placed A) (hs : s ∈ A) :
    (r.removeServer s).Placed A where
  sound := h.sound.removeServer s
  full := h.full.removeServer h.separated h.subset hs
  separated := h.separated
  subset t ht := h.subset t ((mem_activeServers_removeServer r s).mp ht).2

theorem Placed.serving (h : r.Placed A) (hV : 0 < r.vnodesPerServer) (hA : ∀ s ∈ A, 0 ≤ s) :
    r.Serving :=
  ⟨h.sound, h.full, hV, fun s hs => hA s (h.subset s hs)⟩

end Placed

/-! ### Runs -/

/-- The two mutations of a ring. -/
inductive Op
  | addServer (serverId : ℤ)
  | removeServer (serverId : ℤ)
  deriving DecidableEq

/-- The server a mutation is about. -/
def Op.server : Op → ℤ
  | addServer s => s
  | removeServer s => s

/-- The ring as a machine. -/
def machine (hashKey : ByteString → UInt64) : Machine (ConsistentHashRing hashKey) Op Unit where
  step r
    | .addServer s => (r.addServer s, ())
    | .removeServer s => (r.removeServer s, ())

/-- The ring a sequence of mutations makes of a ring without servers. -/
def afterOps (hashKey : ByteString → UInt64) (vnodes : ℤ) (ops : List Op) :
    ConsistentHashRing hashKey :=
  (machine hashKey).run (init hashKey vnodes) ops

/-- The servers a sequence of mutations is about. -/
def servers (ops : List Op) : Set ℤ := {s | ∃ op ∈ ops, op.server = s}

theorem afterOps_concat (vnodes : ℤ) (ops : List Op) (op : Op) :
    afterOps hashKey vnodes (ops ++ [op]) =
      (machine hashKey).next (afterOps hashKey vnodes ops) op :=
  (machine hashKey).run_concat _ ops op

@[simp]
theorem afterOps_vnodesPerServer (vnodes : ℤ) (ops : List Op) :
    (afterOps hashKey vnodes ops).vnodesPerServer = vnodes := by
  refine (machine hashKey).run_invariant_of_forall
    (I := fun r => r.vnodesPerServer = vnodes) (P := fun _ => True) ?_ rfl fun _ _ => trivial
  rintro r (s | s) hr -
  · exact (addServer_vnodesPerServer r s).trans hr
  · exact hr

/-- Every ring that is ever built is sound. -/
theorem sound_afterOps (vnodes : ℤ) (ops : List Op) : (afterOps hashKey vnodes ops).Sound := by
  refine (machine hashKey).run_invariant_of_forall (P := fun _ => True) ?_ (sound_init vnodes)
    fun _ _ => trivial
  rintro r (s | s) hr -
  · exact hr.addServer s
  · exact hr.removeServer s

/-- Only servers that were mentioned are active. -/
theorem mem_servers_of_mem_activeServers {vnodes : ℤ} {ops : List Op} :
    ∀ s ∈ (afterOps hashKey vnodes ops).activeServers, s ∈ servers ops := by
  refine (machine hashKey).run_invariant_of_forall
    (I := fun r => ∀ s ∈ r.activeServers, s ∈ servers ops) (P := (· ∈ ops)) ?_ ?_ fun _ h => h
  · rintro r (t | t) hr hop s hs
    · rcases (mem_activeServers_addServer r t).mp hs with rfl | hs
      · exact ⟨_, hop, rfl⟩
      · exact hr s hs
    · exact hr s ((mem_activeServers_removeServer r t).mp hs).2
  · intro s hs
    exact absurd hs List.not_mem_nil

/-- Rings built from separated servers are full. -/
theorem full_afterOps {vnodes : ℤ} {ops : List Op}
    (hsep : Separated hashKey vnodes (servers ops)) : (afterOps hashKey vnodes ops).Full := by
  refine (machine hashKey).run_history (C := fun is r => is ⊆ ops → r.Full)
    (fun _ => full_init vnodes) (fun is op ih his => ?_) ops (List.Subset.refl ops)
  have hsub : is ⊆ ops := fun o ho => his (List.mem_append_left _ ho)
  have hop : op ∈ ops := his (List.mem_append_right _ (List.mem_singleton_self op))
  have hact : ∀ t ∈ (afterOps hashKey vnodes is).activeServers, t ∈ servers ops := by
    intro t ht
    obtain ⟨o, ho, hot⟩ := mem_servers_of_mem_activeServers t ht
    exact ⟨o, hsub ho, hot⟩
  have hsep' : Separated hashKey (afterOps hashKey vnodes is).vnodesPerServer (servers ops) := by
    rwa [afterOps_vnodesPerServer]
  cases op with
  | addServer s => exact (ih hsub).addServer hsep' hact ⟨_, hop, rfl⟩
  | removeServer s => exact (ih hsub).removeServer hsep' hact ⟨_, hop, rfl⟩

end ConsistentHashRing

end SessionAffinity
