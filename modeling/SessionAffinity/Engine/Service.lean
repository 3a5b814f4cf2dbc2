import SessionAffinity.Engine.Availability
import SessionAffinity.Foundations.Refinement
import SessionAffinity.RateLimiter.Compliance
import SessionAffinity.Security.Spoofing

/-!
# Service to well-behaved clients

What a client has to keep to in order to be served, in terms of what has been sent to the engine.

* **The front end.** Limiter and security module move by the calls that requests make on them
  (`drives_limiter`, `drives_security`), so what they hold comes from the log of the run.
* **What a client can see of it.** A request that is refused early leaves no trace in the logs,
  so they are part of all that was sent (`Op.asked`, `Op.shown`). Whoever keeps within the
  bounds counting everything that was sent keeps within them.
* **Service.** Such a request is admitted, and processed as long as one backend is online
  (`compliant_served`).
-/

namespace SessionAffinity

open SlidingWindow (recent)

namespace RateLimiter

/-- Without a reset, the arrivals of a client are picked from the calls. -/
theorem arrivals_eq_flatMap {k : ByteString} {ops : List Op} (h : .reset ∉ ops) :
    arrivals k ops = ops.flatMap fun op => if op.key? = some k then op.times else [] := by
  induction ops using List.reverseRecOn with
  | nil => rfl
  | append_singleton ops op ih =>
    rw [List.mem_append, not_or] at h
    rw [arrivals_concat, List.flatMap_append, ← ih h.1]
    cases op with
    | allowRequest clk k' => by_cases hk : k' = k <;> simp [hk, Op.key?, Op.times]
    | reset => exact absurd (List.mem_singleton_self _) h.2

/-- With fewer calls, fewer arrive. -/
theorem arrivals_sublist {k : ByteString} {ops ops' : List Op} (h : ops.Sublist ops')
    (hreset : .reset ∉ ops') : (arrivals k ops).Sublist (arrivals k ops') := by
  rw [arrivals_eq_flatMap hreset, arrivals_eq_flatMap fun hmem => hreset (h.subset hmem)]
  exact h.flatMap _

end RateLimiter

namespace Security

/-- With fewer calls, fewer sources are seen. -/
theorem sources_subset (cfg : Config) {calls calls' : List (Clock × ByteString)}
    (h : calls.Sublist calls') (clk : Clock) (srcIp : ByteString) :
    sources cfg calls clk srcIp ⊆ sources cfg calls' clk srcIp := by
  have hseen : (recent Prod.fst (seconds cfg.spoofDetectionWindowSec) clk.steady
      (sightings (getSubnet srcIp) calls)).Sublist
      (recent Prod.fst (seconds cfg.spoofDetectionWindowSec) clk.steady
        (sightings (getSubnet srcIp) calls')) :=
    ((h.filter _).map _).filter _
  refine Finset.insert_subset_insert _ fun ip hip => ?_
  rw [List.mem_toFinset] at hip ⊢
  exact (hseen.map Prod.snd).subset hip

end Security

namespace Engine

variable {hashKey : ByteString → UInt64} {cfg : Config}

/-- The question to the limiter that is in a call. -/
def Op.asked : Op → List RateLimiter.Op
  | request _ rd ft _ => [.allowRequest rd.limit ft.toKey]
  | _ => []

/-- The source address that is in a call. -/
def Op.shown : Op → List (Clock × ByteString)
  | request _ rd ft _ => [(rd.validate, ft.srcIp)]
  | _ => []

/-- The calls on the limiter that a call on the engine makes. -/
def limiterCalls (cfg : Config) (e : Engine hashKey) : Op → List RateLimiter.Op
  | .request role rd ft payload =>
    if e.isActive role = true ∧
        (Security.fullValidation cfg e.security rd.validate ft payload).2 = .ok () then
      [.allowRequest rd.limit ft.toKey]
    else []
  | _ => []

/-- The spoof checks that a call on the engine makes. -/
def spoofCalls (cfg : Config) (e : Engine hashKey) : Op → List (Clock × ByteString)
  | .request role rd ft payload =>
    if e.isActive role = true ∧ Security.validatePayloadSize payload cfg.maxPayloadSize = .ok () ∧
        Security.validateTuple ft = .ok () then
      [(rd.validate, ft.srcIp)]
    else []
  | _ => []

/-! ### The front end follows the log -/

/-- Calls other than requests leave the front end alone. -/
theorem front_next (e : Engine hashKey) {op : Op}
    (hop : ∀ role rd ft payload, op ≠ .request role rd ft payload) :
    ((machine hashKey cfg).next e op).limiter = e.limiter ∧
      ((machine hashKey cfg).next e op).security = e.security := by
  cases op with
  | request role rd ft payload => exact absurd rfl (hop role rd ft payload)
  | setActive role active => cases role <;> exact ⟨rfl, rfl⟩
  | takeBackendOffline clk serverId =>
    simp only [Machine.next, machine, takeBackendOffline]
    split_ifs <;> exact ⟨rfl, rfl⟩
  | bringBackendOnline serverId =>
    simp only [Machine.next, machine, bringBackendOnline]
    split_ifs <;> exact ⟨rfl, rfl⟩
  | crash serverId =>
    simp only [Machine.next, machine]
    split_ifs <;> exact ⟨rfl, rfl⟩
  | cleanupExpired | forceReassign | blockSession | setSessionExpiry => exact ⟨rfl, rfl⟩

theorem drives_limiter (hashKey : ByteString → UInt64) (cfg : Config) :
    Machine.Drives (machine hashKey cfg) RateLimiter.machine limiter (limiterCalls cfg) := by
  intro e op
  cases op with
  | request role rd ft payload =>
    show (e.handleRequest cfg role rd ft payload).1.limiter = _
    rw [limiter_handleRequest_eq_precheck, limiterCalls, precheck]
    by_cases hactive : e.isActive role = true
    · rw [if_neg (by simp [hactive])]
      dsimp only
      rcases (Security.fullValidation cfg e.security rd.validate ft payload).2 with msg | _
      · have hinvalid : ¬(e.isActive role = true ∧ Except.error msg = .ok ()) := by simp
        rw [if_neg hinvalid]
        rfl
      · have hvalid : e.isActive role = true ∧ Except.ok () = (.ok () : Except ByteString Unit) :=
          ⟨hactive, rfl⟩
        rw [if_pos hvalid]
        rfl
    · rw [if_pos (by simpa using hactive), if_neg fun h => hactive h.1]
      rfl
  | _ => exact (front_next e (by simp)).1

theorem drives_security (hashKey : ByteString → UInt64) (cfg : Config) :
    Machine.Drives (machine hashKey cfg) (Security.spoofing cfg) security (spoofCalls cfg) := by
  intro e op
  cases op with
  | request role rd ft payload =>
    have hpast : (e.handleRequest cfg role rd ft payload).1.security =
        (e.precheck cfg role rd ft payload).1.security := by
      rw [handleRequest_eq]
      cases (e.precheck cfg role rd ft payload).2 with
      | some response => rfl
      | none => exact (dispatch_frame _ rd ft).2.1
    show (e.handleRequest cfg role rd ft payload).1.security = _
    rw [hpast, spoofCalls]
    have h := prechecked_precheck cfg e role rd ft payload
    generalize e.precheck cfg role rd ft payload = r at h ⊢
    cases h with
    | notActive hactive =>
      rw [if_neg (by simp [hactive])]
      rfl
    | malformed _ hbad =>
      rw [if_neg fun h => hbad.elim (· h.2.1) (· h.2.2)]
      rfl
    | spoofed hactive hpayload htuple hs | rateLimited hactive hpayload htuple hs
    | admitted hactive hpayload htuple hs =>
      rw [if_pos ⟨hactive, hpayload, htuple⟩]
      exact (congrArg Prod.fst hs).symm
  | _ => exact (front_next e (by simp)).2

/-! ### The log is part of what was sent -/

section Logs

variable (hashKey cfg)

/-- The questions that the limiter is asked in a run. -/
def limiterLog (ops : List Op) : List RateLimiter.Op :=
  (machine hashKey cfg).log (limiterCalls cfg) (init hashKey cfg) ops

/-- The spoof checks of a run. -/
def spoofLog (ops : List Op) : List (Clock × ByteString) :=
  (machine hashKey cfg).log (spoofCalls cfg) (init hashKey cfg) ops

theorem limiterLog_sublist (ops : List Op) :
    (limiterLog hashKey cfg ops).Sublist (ops.flatMap Op.asked) := by
  rw [← List.flatMap_singleton' (limiterLog hashKey cfg ops)]
  refine (machine hashKey cfg).sublist_log (limiterCalls cfg) (fun e op => ?_) _ ops
  rw [List.flatMap_singleton']
  cases op with
  | request role rd ft payload =>
    rw [limiterCalls, Op.asked]
    split_ifs
    · exact List.Sublist.refl _
    · exact List.nil_sublist _
  | _ => exact List.Sublist.refl _

theorem spoofLog_sublist (ops : List Op) :
    (spoofLog hashKey cfg ops).Sublist (ops.flatMap Op.shown) := by
  rw [← List.flatMap_singleton' (spoofLog hashKey cfg ops)]
  refine (machine hashKey cfg).sublist_log (spoofCalls cfg) (fun e op => ?_) _ ops
  rw [List.flatMap_singleton']
  cases op with
  | request role rd ft payload =>
    rw [spoofCalls, Op.shown]
    split_ifs
    · exact List.Sublist.refl _
    · exact List.nil_sublist _
  | _ => exact List.Sublist.refl _

end Logs

theorem asked_times (ops : List Op) :
    ((ops.flatMap Op.asked).flatMap RateLimiter.Op.times).Sublist (ops.flatMap Op.times) := by
  induction ops with
  | nil => exact List.Sublist.slnil
  | cons op ops ih =>
    rw [List.flatMap_cons, List.flatMap_append, List.flatMap_cons]
    refine List.Sublist.append ?_ ih
    cases op <;> simp [Op.asked, Op.times, RateLimiter.Op.times, Readings.times]

theorem shown_times (ops : List Op) :
    ((ops.flatMap Op.shown).map fun call => call.1.steady).Sublist (ops.flatMap Op.times) := by
  induction ops with
  | nil => exact List.Sublist.slnil
  | cons op ops ih =>
    rw [List.flatMap_cons, List.map_append, List.flatMap_cons]
    refine List.Sublist.append ?_ ih
    cases op <;> simp [Op.shown, Op.times, Readings.times]

/-! ### Admission -/

section Admission

variable {ops : List Op} {role : LBRole} {rd : Readings} {ft : FiveTuple} {payload : ByteString}
  (h : Nondecreasing (ops ++ [.request role rd ft payload]))
include h

/-- A client within its quota, counting all its requests, is not throttled. -/
theorem allowed_of_asked (hint : cfg.rateLimitMaxRequests < 2 ^ 31)
    (hquota : ((recent id (seconds cfg.rateLimitWindowSec) rd.limit.steady
      (RateLimiter.arrivals ft.toKey (ops.flatMap Op.asked))).length : ℤ) <
        cfg.rateLimitMaxRequests) :
    ((afterOps hashKey cfg ops).limiter.allowRequest rd.limit ft.toKey).2 = true := by
  have hlog : (limiterLog hashKey cfg ops ++
        [RateLimiter.Op.allowRequest rd.limit ft.toKey]).Sublist
      ((ops ++ [Op.request role rd ft payload]).flatMap Op.asked) := by
    rw [List.flatMap_append]
    exact (limiterLog_sublist hashKey cfg ops).append (List.Sublist.refl _)
  have hnd : RateLimiter.Nondecreasing
      (limiterLog hashKey cfg ops ++ [.allowRequest rd.limit ft.toKey]) :=
    List.Pairwise.sublist ((hlog.flatMap _).trans (asked_times _)) h
  have hreset : .reset ∉ ops.flatMap Op.asked := by
    intro hmem
    obtain ⟨op, -, hop⟩ := List.mem_flatMap.mp hmem
    cases op <;> simp [Op.asked] at hop
  have hfewer : (recent id (seconds cfg.rateLimitWindowSec) rd.limit.steady
      (RateLimiter.arrivals ft.toKey (limiterLog hashKey cfg ops))).length ≤
      (recent id (seconds cfg.rateLimitWindowSec) rd.limit.steady
        (RateLimiter.arrivals ft.toKey (ops.flatMap Op.asked))).length :=
    ((RateLimiter.arrivals_sublist (limiterLog_sublist hashKey cfg ops) hreset).filter _).length_le
  rw [afterOps, (drives_limiter hashKey cfg).run, ← limiterLog]
  show ((RateLimiter.afterOps cfg.rateLimitWindowSec cfg.rateLimitMaxRequests
    (limiterLog hashKey cfg ops)).allowRequest rd.limit ft.toKey).2 = true
  rw [RateLimiter.allowRequest_afterOps hnd, RateLimiter.length_recent_history,
    decide_eq_true_eq, toInt_of_lt (by omega)]
  omega

/-- A source in a subnet that shows few sources, counting all requests, is not suspect. -/
theorem unsuspected_of_shown
    (hsubnet : (Security.sources cfg (ops.flatMap Op.shown) rd.validate ft.srcIp).card ≤
      cfg.spoofDetectionThreshold) :
    (Security.checkSpoofing cfg (afterOps hashKey cfg ops).security rd.validate ft.srcIp).2 =
      .ok () := by
  have hlog : (spoofLog hashKey cfg ops ++ [(rd.validate, ft.srcIp)]).Sublist
      ((ops ++ [Op.request role rd ft payload]).flatMap Op.shown) := by
    rw [List.flatMap_append]
    exact (spoofLog_sublist hashKey cfg ops).append (List.Sublist.refl _)
  have hnd : Security.Nondecreasing (spoofLog hashKey cfg ops ++ [(rd.validate, ft.srcIp)]) :=
    List.pairwise_map.mp (List.Pairwise.sublist ((hlog.map _).trans (shown_times _)) h)
  have hfewer := Finset.card_le_card (Security.sources_subset cfg
    (spoofLog_sublist hashKey cfg ops) rd.validate ft.srcIp)
  have hnarrow := toInt_le
    (Security.sources cfg (spoofLog hashKey cfg ops) rd.validate ft.srcIp).card
  rw [afterOps, (drives_security hashKey cfg).run, ← spoofLog]
  by_contra hspoofed
  have hmany := (Security.checkSpoofing_afterChecks hnd).mp hspoofed
  omega

end Admission

/-- **Well-behaved clients are served.** With a virtual node per server and no collisions between
backends, at any point of a managed run whose clock readings do not go back: a request through an
active balancer, with a valid tuple and payload, is processed by a backend that is online, if there
is one, as long as its session is not blocked, fewer than `max` requests of its client were sent in
the window, and no more sources than the threshold have sent requests from its subnet in theirs.
Nothing else that has been sent can make the engine refuse it. -/
theorem compliant_served (hashKey : ByteString → UInt64) (cfg : Config)
    (hV : 0 < cfg.consistentHashVnodes)
    (hsep : Separated hashKey cfg.consistentHashVnodes {s | 0 ≤ s ∧ s < cfg.numBackendServers})
    (hint : cfg.rateLimitMaxRequests < 2 ^ 31) (ops : List Op)
    (hops : ∀ op ∈ ops, op.isManaged = true) (role : LBRole) (rd : Readings) (ft : FiveTuple)
    (payload : ByteString) (htimes : Nondecreasing (ops ++ [.request role rd ft payload]))
    (hactive : (afterOps hashKey cfg ops).isActive role = true)
    (hpayload : Security.validatePayloadSize payload cfg.maxPayloadSize = .ok ())
    (htuple : Security.validateTuple ft = .ok ())
    (hquota : ((recent id (seconds cfg.rateLimitWindowSec) rd.limit.steady
      (RateLimiter.arrivals ft.toKey (ops.flatMap Op.asked))).length : ℤ) <
        cfg.rateLimitMaxRequests)
    (hsubnet : (Security.sources cfg (ops.flatMap Op.shown) rd.validate ft.srcIp).card ≤
      cfg.spoofDetectionThreshold)
    (hunblocked : ∀ entry ∈ (afterOps hashKey cfg ops).sessions.sessions[ft.toKey]?,
      entry.blocked = false)
    (honline : ∃ s, (afterOps hashKey cfg ops).isOnline s = true) :
    ∃ status s n, (afterOps hashKey cfg ops).isOnline s = true ∧
      ((afterOps hashKey cfg ops).handleRequest cfg role rd ft payload).2 =
        .served status s (.processed s n) := by
  have hl : (afterOps hashKey cfg ops).Live := live_afterOps hops
  have hs : (afterOps hashKey cfg ops).ring.Sound := sound_afterOps ops
  obtain ⟨security, limiter, hreq⟩ := handleRequest_of_admitted (precheck_eq_none_iff.mpr
    ⟨hactive, hpayload, htuple, unsuspected_of_shown htimes hsubnet,
      allowed_of_asked htimes hint hquota⟩)
  rw [hreq]
  -- a backend online is on the ring, so the ring has a choice, which is a backend
  obtain ⟨s, hon⟩ := honline
  have hne := (full_afterOps hsep ops).ring_ne_empty (by rwa [vnodesPerServer_afterOps])
    ((hl s).mpr hon)
  obtain ⟨p, hp, -⟩ := ConsistentHashRing.exists_nearest hne ft.toKey
  exact dispatch_of_choice (e := { afterOps hashKey cfg ops with security, limiter }) hl hs
    (fun _ => inRange_of_active) hunblocked (fun _ _ => id_of_backend?)
    (inRange_of_mem_activeServers _ (hs.owned hp).1).1

/-- A neighbour has asked twice and one backend has been taken offline. -/
def busy : List Op :=
  [.request .primary (.at ⟨0, []⟩) { clientTuple with srcIp := bytes "10.0.0.9" } (bytes "hello"),
    .request .primary (.at ⟨1, []⟩) { clientTuple with srcIp := bytes "10.0.0.9" } (bytes "hello"),
    .takeBackendOffline ⟨2, []⟩ 0]

/-- With a quota of one the neighbour is throttled, and the client is served all the same. -/
theorem compliant_served_busy :
    ∃ status s n, (afterOps fnvHashKey { Config.pair with rateLimitMaxRequests := 1 }
        busy).isOnline s = true ∧
      ((afterOps fnvHashKey { Config.pair with rateLimitMaxRequests := 1 } busy).handleRequest
        { Config.pair with rateLimitMaxRequests := 1 } .primary (.at ⟨3, []⟩) clientTuple
          (bytes "hello")).2 = .served status s (.processed s n) :=
  compliant_served fnvHashKey { Config.pair with rateLimitMaxRequests := 1 } (by decide)
    separated_pair (by decide) busy (by decide) .primary (.at ⟨3, []⟩) clientTuple (bytes "hello")
    (by decide) (by decide +kernel) (by decide) (by decide) (by decide +kernel) (by decide +kernel)
    (by decide +kernel) ⟨1, by decide +kernel⟩

end Engine

end SessionAffinity
