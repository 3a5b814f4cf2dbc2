import SessionAffinity.ConsistentHash

/-!
# What is on the ring

Under every hash function, with whatever collisions, the active list is the history of the
calls: a server is active exactly if the last call about it was an addition, and no matter
whether the calls without effect are counted (`lastCall`, `lastEffective`). Of the map only
`Sound` is left, that a position belongs to an active server which has it among its own. That is
enough for the lookup never to answer a server that has been removed
(`membership_and_ownership`).
-/

namespace SessionAffinity

namespace ConsistentHashRing

variable {hashKey : ByteString → UInt64}

/-- The last call about a server. -/
def lastCall (s : ℤ) (ops : List Op) : Option Op := (ops.filter fun op => op.server = s).getLast?

/-- A call has an effect if it changes whether its server is active. -/
def Effective (r : ConsistentHashRing hashKey) (op : Op) : Prop :=
  ¬ (op.server ∈ r.activeServers ↔
    op.server ∈ ((machine hashKey).next r op).activeServers)

instance (r : ConsistentHashRing hashKey) (op : Op) : Decidable (Effective r op) :=
  inferInstanceAs (Decidable (¬ _))

/-- The account of an observer of the calls about a server that have an effect. -/
def lastEffective (s : ℤ) (r : ConsistentHashRing hashKey) (op : Op) (last : Option Op) :
    Option Op :=
  if op.server = s ∧ Effective r op then some op else last

/-- A call decides about its own server, and about no other. -/
theorem mem_activeServers_next (r : ConsistentHashRing hashKey) (op : Op) (s : ℤ) :
    s ∈ ((machine hashKey).next r op).activeServers ↔
      if op.server = s then op = .addServer s else s ∈ r.activeServers := by
  rcases op with t | t
  · have hmem := mem_activeServers_addServer r t (t := s)
    split_ifs with hs
    · have hts : t = s := hs
      rw [hts] at hmem
      exact iff_of_true (hts ▸ hmem.mpr (.inl rfl)) (congrArg Op.addServer hts)
    · have hst : s ≠ t := fun h => hs h.symm
      exact hmem.trans (or_iff_right hst)
  · have hmem := mem_activeServers_removeServer r t (t := s)
    split_ifs with hs
    · have hts : t = s := hs
      exact iff_of_false (fun h => (hmem.mp h).1 hts.symm) (by simp)
    · have hst : s ≠ t := fun h => hs h.symm
      exact hmem.trans (and_iff_right hst)

theorem lastCall_concat (s : ℤ) (ops : List Op) (op : Op) :
    lastCall s (ops ++ [op]) = if op.server = s then some op else lastCall s ops := by
  rw [lastCall, List.filter_append]
  split_ifs with hs
  · rw [List.filter_cons_of_pos (by simpa using hs), List.filter_nil, List.getLast?_concat]
  · rw [List.filter_cons_of_neg (by simpa using hs), List.filter_nil, List.append_nil, lastCall]

/-- A server is active if the last call about it was an addition. -/
theorem mem_activeServers_iff_lastCall (vnodes : ℤ) (ops : List Op) (s : ℤ) :
    s ∈ (afterOps hashKey vnodes ops).activeServers ↔
      lastCall s ops = some (.addServer s) := by
  refine (machine hashKey).run_history
    (C := fun ops r => s ∈ r.activeServers ↔ lastCall s ops = some (.addServer s)) ?_ ?_ ops
  · exact iff_of_false List.not_mem_nil (by simp [lastCall])
  · intro ops op ih
    rw [mem_activeServers_next, lastCall_concat]
    split_ifs
    · exact (Option.some_inj).symm
    · exact ih

/-- A server is active if the last call about it that had an effect was an addition. -/
theorem mem_activeServers_iff_lastEffective (vnodes : ℤ) (ops : List Op) (s : ℤ) :
    s ∈ (afterOps hashKey vnodes ops).activeServers ↔
      (machine hashKey).watch (lastEffective s) (init hashKey vnodes) none ops =
        some (.addServer s) := by
  refine (machine hashKey).watch_invariant_of_forall (P := fun _ => True)
    (I := fun r last => s ∈ r.activeServers ↔ last = some (Op.addServer s)) ?_ ?_ fun _ _ => trivial
  · intro r last op ih _
    have hnext := mem_activeServers_next r op s
    by_cases hs : op.server = s
    · rw [if_pos hs] at hnext
      rw [lastEffective]
      split_ifs with heff
      · rw [hnext]
        exact (Option.some_inj).symm
      · -- without an effect the server is as active as before
        have hsame : s ∈ r.activeServers ↔
            s ∈ ((machine hashKey).next r op).activeServers := by
          have hnone : ¬ Effective r op := fun h => heff ⟨hs, h⟩
          rw [← hs]
          exact not_not.mp hnone
        exact hsame.symm.trans ih
    · rw [if_neg hs] at hnext
      rw [lastEffective, if_neg fun h => hs h.1]
      exact hnext.trans ih
  · exact iff_of_false List.not_mem_nil (by simp)

/-- **What is on the ring**, under every hash function. The active list has no duplicates and
consists of the servers whose last call, or last call with an effect, was an addition. Every
position belongs to an active server and is one of its own. So the lookup answers an active
server as long as there is a position, and the answer `-1` on an empty map is the only one
that may not be an active server. -/
theorem membership_and_ownership (hashKey : ByteString → UInt64) (vnodes : ℤ) (ops : List Op) :
    (afterOps hashKey vnodes ops).getActiveServers.Nodup ∧
    (∀ s, (s ∈ (afterOps hashKey vnodes ops).getActiveServers ↔
        lastCall s ops = some (.addServer s)) ∧
      (s ∈ (afterOps hashKey vnodes ops).getActiveServers ↔
        (machine hashKey).watch (lastEffective s) (init hashKey vnodes) none ops =
          some (.addServer s))) ∧
    (∀ p s, (afterOps hashKey vnodes ops).ring[p]? = some s →
      s ∈ (afterOps hashKey vnodes ops).getActiveServers ∧
        ∃ i : ℕ, i < vnodes ∧ hashKey (vnodeKey s i) = p) ∧
    ∀ key, (afterOps hashKey vnodes ops).getServer key ∈
        (afterOps hashKey vnodes ops).getActiveServers ∨
      (afterOps hashKey vnodes ops).ring = ∅ ∧
        (afterOps hashKey vnodes ops).getServer key = -1 := by
  have hsound : (afterOps hashKey vnodes ops).Sound := sound_afterOps vnodes ops
  refine ⟨hsound.nodup, fun s => ⟨mem_activeServers_iff_lastCall vnodes ops s,
    mem_activeServers_iff_lastEffective vnodes ops s⟩, fun p s hp => ?_, fun key => ?_⟩
  · obtain ⟨hs, hps⟩ := hsound.owned hp
    have hown := mem_positions.mp hps
    rw [afterOps_vnodesPerServer] at hown
    exact ⟨hs, hown⟩
  · by_cases hr : (afterOps hashKey vnodes ops).ring = ∅
    · exact .inr ⟨hr, getServer_of_ring_eq_empty hr key⟩
    · obtain ⟨p, hp, -⟩ := exists_nearest hr key
      exact .inl (hsound.owned hp).1

end ConsistentHashRing

end SessionAffinity
