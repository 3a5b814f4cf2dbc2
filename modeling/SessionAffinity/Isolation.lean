import SessionAffinity.RateLimiter
import SessionAffinity.SessionSystem.Isolation

/-!
# Isolation of tenants

A client is known by its session key, under which it has a session and a queue of the rate
limiter. `Tenancy.machine` is the session system and the limiter side by side: the calls that
name a key belong to the client with that key, and the sweeps, the changes of the ring and the
reset of the limiter belong to nobody. `tenant_isolation` says that no client can tell whether
the calls of the others were made.
-/

namespace SessionAffinity

namespace RateLimiter

/-- The two limiters differ at most in the queues of other clients. -/
structure AlikeFor (k : ByteString) (rl rl' : RateLimiter) : Prop where
  window : rl.windowSeconds = rl'.windowSeconds
  quota : rl.maxRequests = rl'.maxRequests
  queue : rl.clientQueues[k]? = rl'.clientQueues[k]?

theorem equivalence_alikeFor (k : ByteString) : Equivalence (AlikeFor k) where
  refl _ := ⟨rfl, rfl, rfl⟩
  symm h := ⟨h.window.symm, h.quota.symm, h.queue.symm⟩
  trans h h' := ⟨h.window.trans h'.window, h.quota.trans h'.quota, h.queue.trans h'.queue⟩

/-- Limiters that are alike for every client are equal. -/
theorem eq_of_alikeFor {rl rl' : RateLimiter} (h : ∀ k, AlikeFor k rl rl') : rl = rl' := by
  obtain ⟨window, quota, queues⟩ := rl
  obtain ⟨window', quota', queues'⟩ := rl'
  obtain rfl : window = window' := (h []).window
  obtain rfl : quota = quota' := (h []).quota
  have hqueues : queues = queues' := Std.ExtTreeMap.ext_getElem? fun k => (h k).queue
  rw [hqueues]

/-- A decision depends on the caller's queue, and so does the queue it leaves. -/
theorem allowRequest_congr {k : ByteString} {rl rl' : RateLimiter} (h : AlikeFor k rl rl')
    (clk : Clock) : (rl.allowRequest clk k).2 = (rl'.allowRequest clk k).2 ∧
      AlikeFor k (rl.allowRequest clk k).1 (rl'.allowRequest clk k).1 := by
  obtain ⟨hwindow, hquota, hqueue⟩ := h
  have hevict : rl.evictExpired (rl.queue k) clk.steady =
      rl'.evictExpired (rl'.queue k) clk.steady := by
    rw [evictExpired, evictExpired, queue, queue, hwindow, hqueue]
  have hrecord : rl.rejectedRecord clk = rl'.rejectedRecord clk := by
    rw [rejectedRecord, rejectedRecord, hwindow, hquota]
  simp only [allowRequest, hevict, hquota, hrecord]
  split_ifs
  · exact ⟨rfl, hwindow, rfl, by simp⟩
  · exact ⟨rfl, hwindow, rfl, by simp⟩

/-- **Clients do not interfere** in the limiter. -/
theorem unwinding_machine (k : ByteString) : machine.Unwinding Op.key? k (AlikeFor k) where
  equiv := equivalence_alikeFor k
  other {rl op} hnone hk := by
    rcases op with ⟨clk, key⟩ | _
    · have hne : key ≠ k := fun h => hk (congrArg some h)
      exact ⟨rl.allowRequest_windowSeconds clk key, rl.allowRequest_maxRequests clk key,
        rl.clientQueues_allowRequest_of_ne clk key hne⟩
    · exact absurd rfl hnone
  next {rl rl' op} hop h := by
    rcases op with ⟨clk, key⟩ | _
    · obtain rfl : key = k := by simpa [Op.key?] using hop
      exact (allowRequest_congr h clk).2
    · exact ⟨h.window, h.quota, rfl⟩
  answer {rl rl' op} hop h := by
    rcases op with ⟨clk, key⟩ | _
    · obtain rfl : key = k := Option.some.inj hop
      exact congrArg some (allowRequest_congr h clk).1
    · exact absurd hop (by simp [Op.key?])

end RateLimiter

namespace Tenancy

/-- The calls on the session system and on the limiter. -/
abbrev Op := SessionSystem.Op ⊕ RateLimiter.Op

/-- The client whose key a call names. -/
def owner : Op → Option ByteString := Sum.elim SessionSystem.Op.key? RateLimiter.Op.key?

/-- The session system with the limiter. -/
def machine (hashKey : ByteString → UInt64) :
    Machine (SessionSystem hashKey × RateLimiter) Op
      (SessionSystem.Answer ⊕ Option Bool) :=
  (SessionSystem.machine hashKey).beside RateLimiter.machine

variable {hashKey : ByteString → UInt64}

/-- The two states differ at most in what belongs to other clients. -/
def AlikeFor (k : ByteString) (s u : SessionSystem hashKey × RateLimiter) : Prop :=
  SessionSystem.AlikeFor k s.1 u.1 ∧ RateLimiter.AlikeFor k s.2 u.2

theorem unwinding_machine (k : ByteString) :
    (machine hashKey).Unwinding owner k (AlikeFor k) :=
  (SessionSystem.unwinding_machine k).beside (RateLimiter.unwinding_machine k)

theorem eq_of_alikeFor {s u : SessionSystem hashKey × RateLimiter} (h : ∀ k, AlikeFor k s u) :
    s = u :=
  Prod.ext (SessionSystem.eq_of_alikeFor fun k => (h k).1)
    (RateLimiter.eq_of_alikeFor fun k => (h k).2)

/-- **Tenants are isolated.** Delete the calls that name other keys from a run, from any state
on: the calls that name `k` are answered the same, and leave the same session and the same
queue of the limiter under `k`. And calls that name different keys commute. -/
theorem tenant_isolation (hashKey : ByteString → UInt64)
    (s : SessionSystem hashKey × RateLimiter) (ops : List Op) (k : ByteString) :
    Machine.view owner k ((machine hashKey).trace s ops) =
      Machine.view owner k ((machine hashKey).trace s (Machine.purge owner k ops)) ∧
    ((machine hashKey).run s ops).1.manager.sessions[k]? =
      ((machine hashKey).run s (Machine.purge owner k ops)).1.manager.sessions[k]? ∧
    ((machine hashKey).run s ops).2.clientQueues[k]? =
      ((machine hashKey).run s (Machine.purge owner k ops)).2.clientQueues[k]? ∧
    ∀ (op op' : Op) (k' : ByteString), owner op = some k → owner op' = some k' → k ≠ k' →
      (machine hashKey).next ((machine hashKey).next s op) op' =
        (machine hashKey).next ((machine hashKey).next s op') op ∧
      (machine hashKey).answer ((machine hashKey).next s op') op =
        (machine hashKey).answer s op ∧
      (machine hashKey).answer ((machine hashKey).next s op) op' =
        (machine hashKey).answer s op' := by
  have h : (machine hashKey).Unwinding owner k (AlikeFor k) := unwinding_machine k
  have hself : AlikeFor k s s := h.equiv.refl s
  have hrun := h.run hself ops
  refine ⟨h.view_trace hself ops, hrun.1.slot, hrun.2.queue, ?_⟩
  intro op op' k' hop hop' hne
  have hother : owner op ≠ some k' := fun h' => hne (Option.some.inj (hop.symm.trans h'))
  have hother' : owner op' ≠ some k := fun h' => hne (Option.some.inj (hop'.symm.trans h')).symm
  refine ⟨Machine.Unwinding.commute unwinding_machine (fun _ _ => eq_of_alikeFor) hop hop' hne s,
    h.answer_after hop (by simp [hop']) hother' s, ?_⟩
  exact (unwinding_machine k').answer_after hop' (by simp [hop]) hother s

end Tenancy

end SessionAffinity
