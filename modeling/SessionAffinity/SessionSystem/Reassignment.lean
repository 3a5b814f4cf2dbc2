import SessionAffinity.SessionSystem.Slot

/-!
# Forced reassignment

`forceReassign` asks the ring first, and scans the active list only when the ring would keep
the old backend. On a ring that finds a server whenever one is active (`Serving`) the early
exits come to one condition: the call succeeds exactly when some active server is not the old
backend (`forcedBackend_isSome_iff`). `Forcing` collects what the call then does and
promises; it holds of every table over separated servers with non-negative ids
(`forceReassign_forcing`).
-/

namespace SessionAffinity

namespace SessionManager

variable {hashKey : ByteString → UInt64} {sm : SessionManager}
  {ring : ConsistentHashRing hashKey} {clk : Clock} {key : ByteString}

/-- On a serving ring the choice fails for want of another server only. -/
theorem forcedBackend_isSome_iff (hring : ring.Serving) (key : ByteString) (oldBackend : ℤ) :
    (forcedBackend ring key oldBackend).isSome = true ↔
      ∃ t ∈ ring.getActiveServers, t ≠ oldBackend := by
  constructor
  · intro hsome
    obtain ⟨backend, hb⟩ := Option.isSome_iff_exists.mp hsome
    exact ⟨backend, forcedBackend_spec hring.sound hb⟩
  · rintro ⟨t, ht, hne⟩
    have hchoice := hring.getServer_nonneg ht key
    have hmem := hring.getServer_mem ht key
    rw [forcedBackend]
    split_ifs with hneg hold hfew
    · omega
    · -- the ring's choice and the other server are two members of the list
      obtain ⟨u, hu⟩ := List.length_eq_one_iff.mp
        (le_antisymm hfew (List.length_pos_of_mem ht))
      rw [ConsistentHashRing.getActiveServers] at hu ht
      rw [hu, List.mem_singleton] at hmem ht
      exact absurd (ht.trans (hmem.symm.trans hold)) hne
    · rfl
    · rfl

/-- The call succeeds when there is an entry and a choice for it. -/
theorem forceReassign_eq_true_iff : (sm.forceReassign ring clk key).2 = true ↔
    ∃ entry, sm.sessions[key]? = some entry ∧
      (forcedBackend ring key entry.backendId).isSome = true := by
  rw [forceReassign]
  cases he : sm.sessions[key]? with
  | none => simp
  | some entry => cases hb : forcedBackend ring key entry.backendId <;> simp [hb]

end SessionManager

namespace SessionSystem

open SessionManager (forcedBackend_isSome_iff forceReassign_eq_true_iff)

variable {hashKey : ByteString → UInt64}

/-- **What a forced reassignment of `k` does.** -/
structure Forcing (s : SessionSystem hashKey) (clk : Clock) (k : ByteString) : Prop where
  /-- It succeeds exactly when it can. -/
  succeeds_iff : (s.manager.forceReassign s.ring clk k).2 = true ↔
    ∃ entry, s.slot k = some entry ∧ ∃ t ∈ s.ring.getActiveServers, t ≠ entry.backendId
  /-- Success moves the session to another active server, with one more entry of history. A
  request made within the timeout, at the same moment if that is not negative, finds it there. -/
  moves : (s.manager.forceReassign s.ring clk k).2 = true → ∀ entry, s.slot k = some entry →
    ∃ backend reason, backend ∈ s.ring.getActiveServers ∧ backend ≠ entry.backendId ∧
      (s.manager.forceReassign s.ring clk k).1.sessions[k]? = some
        { entry with
          backendId := backend
          lastAccess := clk.steady
          pathHistory := entry.pathHistory ++ [⟨backend, clk.wall, reason⟩] } ∧
      ∀ clk' ft assigned, ft.toKey = k → entry.blocked = false →
        clk'.steady ≤ clk.steady + seconds (s.manager.effectiveTimeout entry) →
        ((s.manager.forceReassign s.ring clk k).1.routeRequest s.ring clk' ft assigned).2 =
          (.success, backend)
  /-- Failure leaves the table as it is. -/
  refused : (s.manager.forceReassign s.ring clk k).2 = false →
    (s.manager.forceReassign s.ring clk k).1 = s.manager

/-- On a serving ring every forced reassignment is of this kind. -/
theorem forcing_of_serving {s : SessionSystem hashKey} (hring : s.ring.Serving) (clk : Clock)
    (k : ByteString) : s.Forcing clk k where
  succeeds_iff := by
    rw [forceReassign_eq_true_iff]
    constructor
    · rintro ⟨entry, he, hsome⟩
      exact ⟨entry, he, (forcedBackend_isSome_iff hring k entry.backendId).mp hsome⟩
    · rintro ⟨entry, he, hother⟩
      exact ⟨entry, he, (forcedBackend_isSome_iff hring k entry.backendId).mpr hother⟩
  moves htrue entry he := by
    rcases s.manager.forceReassign_cases s.ring clk k with
      hr | ⟨entry', backend, reason, he', hf, hr⟩
    · rw [hr] at htrue
      exact absurd htrue Bool.false_ne_true
    · obtain rfl : entry = entry' := Option.some.inj (he.symm.trans he')
      obtain ⟨hactive, hne⟩ := SessionManager.forcedBackend_spec hring.sound hf
      rw [hr]
      refine ⟨backend, reason, hactive, hne, SessionManager.sessions_put_self _ _ _, ?_⟩
      intro clk' ft assigned hft hb hclk
      subst hft
      -- the move counts as an access, so the timeout starts anew
      have hlive : (s.manager.put ft.toKey (entry.reassign clk backend reason)).isExpired
          clk'.steady (entry.reassign clk backend reason) = false :=
        SessionManager.isExpired_eq_false_iff.mpr hclk
      have hsticky := SessionManager.routeRequest_of_sticky s.ring clk' assigned
        (SessionManager.sessions_put_self s.manager ft.toKey (entry.reassign clk backend reason))
        hb hlive hactive
      rw [hsticky]
      rfl
  refused hfalse := by
    rcases s.manager.forceReassign_cases s.ring clk k with hr | ⟨_, _, _, -, -, hr⟩
    · rw [hr]
    · rw [hr] at hfalse
      exact absurd hfalse.symm Bool.false_ne_true

/-! ### Whole runs -/

/-- The servers that a run puts on the ring or takes off it. -/
def servers (ops : List Op) : Set ℤ := {t | ∃ op ∈ ops, op.server? = some t}

/-- Runs over separated servers with non-negative ids build serving rings. -/
theorem serving_afterOps {vnodesPerServer defaultTimeoutSec : ℤ} {ops : List Op}
    (hV : 0 < vnodesPerServer) (hnonneg : ∀ t ∈ servers ops, 0 ≤ t)
    (hsep : Separated hashKey vnodesPerServer (servers ops)) :
    (afterOps hashKey vnodesPerServer defaultTimeoutSec ops).ring.Serving := by
  have hring : (afterOps hashKey vnodesPerServer defaultTimeoutSec ops).ring.Placed (servers ops) ∧
      (afterOps hashKey vnodesPerServer defaultTimeoutSec ops).ring.vnodesPerServer =
        vnodesPerServer := by
    refine ring_invariant (A := servers ops)
      (I := fun r => r.Placed (servers ops) ∧ r.vnodesPerServer = vnodesPerServer)
      (fun r t ht h => ?_) (fun r t ht h => ?_) (fun op hop t ht => ⟨op, hop, ht⟩) ?_
    · exact ⟨h.1.addServer ht, (r.addServer_vnodesPerServer t).trans h.2⟩
    · exact ⟨h.1.removeServer ht, h.2⟩
    · exact ⟨ConsistentHashRing.placed_init hsep, rfl⟩
  exact hring.1.serving (hV.trans_eq hring.2.symm) hnonneg

/-- **A forced reassignment moves a session exactly when it can.** After every run from an empty
table over servers with non-negative ids, a virtual node each at least and no collisions between
them: `forceReassign` succeeds if and only if the key has an entry and some active server is not
the entry's backend; success moves the session to such a server, where the next request finds it,
and failure changes nothing. -/
theorem forceReassign_forcing (hashKey : ByteString → UInt64)
    (vnodesPerServer defaultTimeoutSec : ℤ) (ops : List Op) (hV : 0 < vnodesPerServer)
    (hnonneg : ∀ t ∈ servers ops, 0 ≤ t)
    (hsep : Separated hashKey vnodesPerServer (servers ops)) (clk : Clock) (k : ByteString) :
    (afterOps hashKey vnodesPerServer defaultTimeoutSec ops).Forcing clk k :=
  forcing_of_serving (serving_afterOps hV hnonneg hsep) clk k

/-- A session on one of two servers. -/
def oneOfTwo : List Op :=
  [.addServer 0, .addServer 1, .routeRequest ⟨0, []⟩ clientTuple (-1)]

/-- A session on one of two servers is moved to the other. -/
theorem forceReassign_forcing_pair :
    ((afterOps fnvHashKey 1 300 oneOfTwo).manager.forceReassign
      (afterOps fnvHashKey 1 300 oneOfTwo).ring ⟨1, []⟩ clientTuple.toKey).2 = true := by
  have hservers : servers oneOfTwo ⊆ {0, 1} := by
    rintro t ⟨op, hop, ht⟩
    fin_cases hop <;> simp_all [Op.server?]
  have hforcing := forceReassign_forcing fnvHashKey 1 300 oneOfTwo (by decide)
    (fun t ht => by rcases hservers ht with rfl | rfl <;> decide) (separated_fnv.mono hservers)
    ⟨1, []⟩ clientTuple.toKey
  rw [hforcing.succeeds_iff]
  have hentry : ((afterOps fnvHashKey 1 300 oneOfTwo).slot clientTuple.toKey).any (fun entry =>
      (afterOps fnvHashKey 1 300 oneOfTwo).ring.getActiveServers.any fun t =>
        t ≠ entry.backendId) = true := by
    decide +kernel
  obtain ⟨entry, he, hany⟩ := (Option.any_eq_true _ _).mp hentry
  obtain ⟨t, ht, hne⟩ := List.any_eq_true.mp hany
  exact ⟨entry, he, t, ht, of_decide_eq_true hne⟩

end SessionSystem

end SessionAffinity
