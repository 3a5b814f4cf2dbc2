import SessionAffinity.Engine.Runs

/-!
# Refused requests

The pipeline stops at the first stage that refuses a request, and the stages write their state
as they go. `fail_fast` says what a refusal may leave behind: nothing of the stages that come
after it, and of the stages up to it no more than what belongs to the request itself, which is
the spoof tracker of its own subnet, the limiter's queue of its own key, and at the last stage
the session under its own key if that has expired.
-/

namespace SessionAffinity

namespace Engine

variable {hashKey : ByteString → UInt64}

/-- The trackers of all subnets but the request's own are as before. -/
def SameTrackers (e e' : Engine hashKey) (ft : FiveTuple) : Prop :=
  ∀ subnet, subnet ≠ Security.getSubnet ft.srcIp →
    e'.security.subnetTrackers[subnet]? = e.security.subnetTrackers[subnet]?

/-- The limiter has the settings it had, and so has its queue of every key but the request's. -/
structure SameQueues (e e' : Engine hashKey) (ft : FiveTuple) : Prop where
  window : e'.limiter.windowSeconds = e.limiter.windowSeconds
  quota : e'.limiter.maxRequests = e.limiter.maxRequests
  queues : ∀ key, key ≠ ft.toKey → e'.limiter.clientQueues[key]? = e.limiter.clientQueues[key]?

/-- The table is as before, less the request's session if that was expired and not blocked. -/
def SameSessions (e e' : Engine hashKey) (now : TimePoint) (ft : FiveTuple) : Prop :=
  e'.sessions = e.sessions ∨
    (∃ entry, e.sessions.sessions[ft.toKey]? = some entry ∧ entry.blocked = false ∧
      e.sessions.isExpired now entry = true) ∧ e'.sessions = e.sessions.drop ft.toKey

section Stages

variable {e : Engine hashKey} {rd : Readings} {ft : FiveTuple}

/-- The spoof check leaves the other subnets alone. -/
theorem sameTrackers_of_checkSpoofing {cfg : Config} {clk : Clock} {security : Security}
    {result : ValidationResult}
    (h : Security.checkSpoofing cfg e.security clk ft.srcIp = (security, result))
    {e' : Engine hashKey} (he' : e'.security = security) : SameTrackers e e' ft := by
  intro subnet hne
  have hframe := Security.subnetTrackers_checkSpoofing_of_ne cfg e.security clk hne.symm
  rw [h] at hframe
  rw [he']
  exact hframe

/-- The limiter leaves the other clients alone. -/
theorem sameQueues_of_allowRequest {clk : Clock} {limiter : RateLimiter} {allowed : Bool}
    (h : e.limiter.allowRequest clk ft.toKey = (limiter, allowed)) {e' : Engine hashKey}
    (he' : e'.limiter = limiter) : SameQueues e e' ft := by
  have hlimiter : e'.limiter = (e.limiter.allowRequest clk ft.toKey).1 := by rw [h, he']
  refine ⟨?_, ?_, fun key hne => ?_⟩
  · rw [hlimiter, RateLimiter.allowRequest_windowSeconds]
  · rw [hlimiter, RateLimiter.allowRequest_maxRequests]
  · rw [hlimiter, RateLimiter.clientQueues_allowRequest_of_ne _ _ _ hne.symm]

/-- A request refused as blocked leaves the table as it is. -/
theorem sessions_of_blocked
    (h : (e.sessions.routeRequest e.ring rd.route ft (-1)).2.1 = .sessionBlocked) :
    (e.sessions.routeRequest e.ring rd.route ft (-1)).1 = e.sessions := by
  have hrouted := e.sessions.routed_routeRequest e.ring rd.route ft (-1)
  generalize e.sessions.routeRequest e.ring rd.route ft (-1) = routed at h hrouted ⊢
  cases hrouted with
  | blocked => rfl
  | _ => exact absurd h (by simp)

/-- A request that finds no server at most removes its own expired session. -/
theorem sessions_of_serverDown
    (h : (e.sessions.routeRequest e.ring rd.route ft (-1)).2.1 = .serverDown)
    {e' : Engine hashKey}
    (he' : e'.sessions = (e.sessions.routeRequest e.ring rd.route ft (-1)).1) :
    SameSessions e e' rd.route.steady ft := by
  have hrouted := e.sessions.routed_routeRequest e.ring rd.route ft (-1)
  generalize e.sessions.routeRequest e.ring rd.route ft (-1) = routed at h hrouted he'
  cases hrouted with
  | stranded => exact .inl he'
  | unplaced hx =>
    cases hentry : e.sessions.sessions[ft.toKey]? with
    | none => exact .inl (he'.trans (SessionManager.drop_eq_self hentry))
    | some entry => exact .inr ⟨⟨entry, hentry, hx entry hentry⟩, he'⟩
  | _ => exact absurd h (by simp)

end Stages

/-- **A refused request touches no later stage.** For every state, tuple and payload: a passive
balancer, and the checks of payload and tuple, leave the whole engine as it is; the spoof check
leaves all but the tracker of the source's own subnet; the rate limit leaves all but that and
the queue of the request's own key, and so does a block; and when the first routing finds no
server, the request's own expired session may be gone from the table besides. -/
theorem fail_fast (hashKey : ByteString → UInt64) (cfg : Config) (e : Engine hashKey)
    (role : LBRole) (rd : Readings) (ft : FiveTuple) (payload : ByteString) :
    (∀ role', (e.handleRequest cfg role rd ft payload).2 = .notActive role' →
      (e.handleRequest cfg role rd ft payload).1 = e) ∧
    (∀ msg, (e.handleRequest cfg role rd ft payload).2 = .securityFailed msg →
      Security.validatePayloadSize payload cfg.maxPayloadSize ≠ .ok () ∨
        Security.validateTuple ft ≠ .ok () →
      (e.handleRequest cfg role rd ft payload).1 = e) ∧
    (∀ msg, (e.handleRequest cfg role rd ft payload).2 = .securityFailed msg →
      Security.validatePayloadSize payload cfg.maxPayloadSize = .ok () →
      Security.validateTuple ft = .ok () →
      (∃ security, (e.handleRequest cfg role rd ft payload).1 = { e with security }) ∧
        SameTrackers e (e.handleRequest cfg role rd ft payload).1 ft) ∧
    (∀ key, (e.handleRequest cfg role rd ft payload).2 = .rateLimited key ∨
        (e.handleRequest cfg role rd ft payload).2 = .blocked key →
      (∃ security limiter,
        (e.handleRequest cfg role rd ft payload).1 = { e with security, limiter }) ∧
        SameTrackers e (e.handleRequest cfg role rd ft payload).1 ft ∧
        SameQueues e (e.handleRequest cfg role rd ft payload).1 ft) ∧
    ((e.handleRequest cfg role rd ft payload).2 = .noBackends →
      (∃ security limiter sessions,
        (e.handleRequest cfg role rd ft payload).1 = { e with security, limiter, sessions }) ∧
        SameTrackers e (e.handleRequest cfg role rd ft payload).1 ft ∧
        SameQueues e (e.handleRequest cfg role rd ft payload).1 ft ∧
        SameSessions e (e.handleRequest cfg role rd ft payload).1 rd.route.steady ft) := by
  have hpre := prechecked_precheck cfg e role rd ft payload
  rw [handleRequest_eq]
  generalize e.precheck cfg role rd ft payload = r at hpre
  cases hpre with
  | notActive => simp
  | malformed _ hbad =>
    refine ⟨by simp, fun _ _ _ => rfl, fun _ _ hpayload htuple => ?_, by simp, by simp⟩
    rcases hbad with hbad | hbad
    · exact absurd hpayload hbad
    · exact absurd htuple hbad
  | spoofed _ hpayload htuple hs =>
    refine ⟨by simp, fun _ _ hbad => ?_, fun _ _ _ _ => ⟨⟨_, rfl⟩, ?_⟩, by simp, by simp⟩
    · exact absurd hbad (by simp [hpayload, htuple])
    · exact sameTrackers_of_checkSpoofing hs rfl
  | rateLimited _ _ _ hs hl =>
    refine ⟨by simp, by simp, by simp, fun _ _ => ⟨⟨_, _, rfl⟩, ?_, ?_⟩, by simp⟩
    · exact sameTrackers_of_checkSpoofing hs rfl
    · exact sameQueues_of_allowRequest hl rfl
  | @admitted _ _ _ security limiter hs hl =>
    have hdispatched := dispatched_dispatch { e with security, limiter } rd ft
    dsimp only at hdispatched ⊢
    generalize dispatch { e with security, limiter } rd ft = r at hdispatched ⊢
    cases hdispatched with
    | blocked hb =>
      have hsame := sessions_of_blocked (e := { e with security, limiter }) hb
      refine ⟨by simp, by simp, by simp, fun _ _ => ⟨⟨security, limiter, ?_⟩, ?_, ?_⟩, by simp⟩
      · dsimp only at hsame ⊢
        rw [hsame]
      · exact sameTrackers_of_checkSpoofing hs rfl
      · exact sameQueues_of_allowRequest hl rfl
    | serverDown hd =>
      refine ⟨by simp, by simp, by simp, by simp, fun _ => ⟨⟨_, _, _, rfl⟩, ?_, ?_, ?_⟩⟩
      · exact sameTrackers_of_checkSpoofing hs rfl
      · exact sameQueues_of_allowRequest hl rfl
      · exact sessions_of_serverDown (e := { e with security, limiter }) hd rfl
    | forwarded _ _ hf =>
      -- from here on no answer is a refusal
      cases hf <;> simp [process]

end Engine

end SessionAffinity
