import SessionAffinity.Concurrent
import SessionAffinity.Foundations.Refinement
import SessionAffinity.RateLimiter.Quota
import SessionAffinity.Security.Spoofing

/-!
# Quotas and spoof checks under concurrent calls

The limiter and the security module are called by one step each, under a lock of their own, and
the clock is read inside. So in every interleaving they see a run of calls at nondecreasing times,
in the order of the steps: `limiterCalls` and `spoofCalls` say which events make a call, and
`limiter_run` and `security_run` that the logs of these calls leave the two objects as they are.
What holds of the runs of the objects therefore holds under concurrent calls.

* The quota: `admitted_within_le` bounds the requests of a client that any number of threads get
  past the limiter in a window.
* The spoof check: `spoofed_iff` counts the sources that any number of threads have shown.
-/

namespace SessionAffinity

open SlidingWindow (within)

instance (rl : RateLimiter) : DecidablePred rl.FitsInt
  | .allowRequest _ _ => inferInstanceAs (Decidable (_ < _))
  | .reset => isTrue trivial

namespace Concurrent

variable {hashKey : ByteString → UInt64} {ι : Type*} {cfg : Config}

/-- The call of the limiter that an event makes. -/
def limiterCalls (t : World hashKey ι) : Event ι → List RateLimiter.Op
  | .resume i x =>
    match t.pc i with
    | .limit r => [.allowRequest ⟨t.shared.now, x.wall⟩ r.ft.toKey]
    | _ => []
  | _ => []

/-- The spoof check that an event makes: payload and tuple are checked first. -/
def spoofCalls (cfg : Config) (t : World hashKey ι) : Event ι → List (Clock × ByteString)
  | .resume i x =>
    match t.pc i with
    | .validate r =>
      if Security.validatePayloadSize r.payload cfg.maxPayloadSize = .ok () ∧
          Security.validateTuple r.ft = .ok () then
        [(⟨t.shared.now, x.wall⟩, r.ft.srcIp)]
      else []
    | _ => []
  | _ => []

/-! ### The steps that make the calls -/

namespace Pc

variable (cfg : Config) (e : Engine hashKey) (clk : Clock) (order : List ByteString) {p : Pc}

theorem limiter_step (hp : ∀ r, p ≠ limit r) : (p.step cfg e clk order).1.limiter = e.limiter := by
  cases p with
  | limit r => exact absurd rfl (hp r)
  | process r status assigned =>
    rw [step]
    cases e.backend? assigned <;> rfl
  | _ => rfl

theorem security_step (hp : ∀ r, p ≠ validate r) :
    (p.step cfg e clk order).1.security = e.security := by
  cases p with
  | validate r => exact absurd rfl (hp r)
  | process r status assigned =>
    rw [step]
    cases e.backend? assigned <;> rfl
  | _ => rfl

/-- A validation checks for spoofing when payload and tuple pass. -/
theorem security_step_validate (r : Request) :
    ((validate r).step cfg e clk order).1.security =
      if Security.validatePayloadSize r.payload cfg.maxPayloadSize = .ok () ∧
          Security.validateTuple r.ft = .ok () then
        (Security.checkSpoofing cfg e.security clk r.ft.srcIp).1
      else e.security := by
  simp only [step, Security.fullValidation]
  cases Security.validatePayloadSize r.payload cfg.maxPayloadSize with
  | error => simp
  | ok => cases Security.validateTuple r.ft <;> simp

end Pc

section Runs

variable [DecidableEq ι]

omit [DecidableEq ι] in
/-- A thread outside the calls of the session manager is not blocked where it goes on outside. -/
theorem not_blocked_of_outside {t : World hashKey ι} {i : ι} {x : Surroundings}
    (h : ((t.pc i).step cfg t.shared.engine ⟨t.shared.now, x.wall⟩ x.order).2.1.inside = false) :
    ¬ (script hashKey cfg).blocked t i x = true := by
  have hinside : (script hashKey cfg).inside
      ((script hashKey cfg).step t.shared x (t.pc i)).2.1 = false := h
  rw [Script.blocked, hinside]
  simp

theorem drives_limiter (cfg : Config) : Machine.Drives (machine hashKey cfg ι) RateLimiter.machine
    (fun t => t.shared.engine.limiter) limiterCalls := by
  intro t ev
  cases ev with
  | tick d => rfl
  | invoke i call =>
    rw [Script.next_invoke]
    split_ifs <;> rfl
  | resume i x =>
    rw [limiterCalls, Script.next_resume]
    cases hp : t.pc i with
    | limit r =>
      have hfree : ¬ (script hashKey cfg).blocked t i x = true := not_blocked_of_outside (by
        rw [hp]
        simp only [Pc.step]
        split_ifs <;> rfl)
      rw [if_neg hfree]
      rfl
    | _ =>
      have hstep := Pc.limiter_step cfg t.shared.engine ⟨t.shared.now, x.wall⟩ x.order
        (p := t.pc i) (by simp [hp])
      rw [hp] at hstep
      split_ifs
      · rfl
      · exact hstep

theorem drives_security (cfg : Config) : Machine.Drives (machine hashKey cfg ι)
    (Security.spoofing cfg) (fun t => t.shared.engine.security) (spoofCalls cfg) := by
  intro t ev
  cases ev with
  | tick d => rfl
  | invoke i call =>
    rw [Script.next_invoke]
    split_ifs <;> rfl
  | resume i x =>
    rw [spoofCalls, Script.next_resume]
    cases hp : t.pc i with
    | validate r =>
      have hfree : ¬ (script hashKey cfg).blocked t i x = true := not_blocked_of_outside (by
        rw [hp]
        simp only [Pc.step]
        split <;> rfl)
      have hstep := Pc.security_step_validate cfg t.shared.engine ⟨t.shared.now, x.wall⟩ x.order r
      rw [if_neg hfree]
      show ((Pc.validate r).step cfg t.shared.engine _ x.order).1.security = _
      rw [hstep]
      dsimp only
      split_ifs <;> rfl
    | _ =>
      have hstep := Pc.security_step cfg t.shared.engine ⟨t.shared.now, x.wall⟩ x.order
        (p := t.pc i) (by simp [hp])
      rw [hp] at hstep
      split_ifs
      · rfl
      · exact hstep

/-! ### The objects see a run in the order of time -/

theorem now_next (cfg : Config) (t : World hashKey ι) (ev : Event ι) :
    t.shared.now ≤ ((machine hashKey cfg ι).next t ev).shared.now := by
  cases ev with
  | tick d => exact Int.le_add_of_nonneg_right (Int.natCast_nonneg d)
  | invoke i call =>
    rw [Script.next_invoke]
    split_ifs <;> rfl
  | resume i x =>
    rw [Script.next_resume]
    split_ifs <;> rfl

/-- The run of the limiter that the threads make. -/
def limiterLog (hashKey : ByteString → UInt64) (cfg : Config) (now : TimePoint)
    (evs : List (Event ι)) : List RateLimiter.Op :=
  (machine hashKey cfg ι).log limiterCalls (.quiet ι (.init hashKey cfg) now) evs

/-- The run of spoof checks that the threads make. -/
def spoofLog (hashKey : ByteString → UInt64) (cfg : Config) (now : TimePoint)
    (evs : List (Event ι)) : List (Clock × ByteString) :=
  (machine hashKey cfg ι).log (spoofCalls cfg) (.quiet ι (.init hashKey cfg) now) evs

variable (hashKey cfg) in
/-- **The limiter under concurrent calls** is the one that a run of calls at nondecreasing times
leaves. -/
theorem limiter_run (now : TimePoint) (evs : List (Event ι)) :
    ((machine hashKey cfg ι).run (.quiet ι (.init hashKey cfg) now) evs).shared.engine.limiter =
        RateLimiter.afterOps cfg.rateLimitWindowSec cfg.rateLimitMaxRequests
          (limiterLog hashKey cfg now evs) ∧
      RateLimiter.Nondecreasing (limiterLog hashKey cfg now evs) ∧
      ∀ t ∈ (limiterLog hashKey cfg now evs).flatMap RateLimiter.Op.times,
        t ≤ ((machine hashKey cfg ι).run (.quiet ι (.init hashKey cfg) now) evs).shared.now := by
  refine ⟨(drives_limiter cfg).run _ evs, ?_⟩
  refine (machine hashKey cfg ι).pairwise_log _ _ (fun t => t.shared.now) (now_next cfg)
    (fun t ev => ?_) _ evs
  cases ev with
  | tick | invoke => simp [limiterCalls]
  | resume i x =>
    have hnow := now_next cfg t (.resume i x)
    rw [limiterCalls]
    split
    · simpa [RateLimiter.Op.times] using hnow
    · simp

variable (hashKey cfg) in
/-- **The security module under concurrent calls** is the one that a run of spoof checks at
nondecreasing times leaves. -/
theorem security_run (now : TimePoint) (evs : List (Event ι)) :
    ((machine hashKey cfg ι).run (.quiet ι (.init hashKey cfg) now) evs).shared.engine.security =
        Security.afterChecks cfg (spoofLog hashKey cfg now evs) ∧
      Security.Nondecreasing (spoofLog hashKey cfg now evs) ∧
      ∀ call ∈ spoofLog hashKey cfg now evs, call.1.steady ≤
        ((machine hashKey cfg ι).run (.quiet ι (.init hashKey cfg) now) evs).shared.now := by
  refine ⟨(drives_security cfg).run _ evs, ?_⟩
  have hlog := (machine hashKey cfg ι).pairwise_log (spoofCalls cfg)
    (fun call : Clock × ByteString => [call.1.steady]) (fun t => t.shared.now) (now_next cfg)
    (fun t ev => ?_) (.quiet ι (.init hashKey cfg) now) evs
  · rw [← List.map_eq_flatMap, List.pairwise_map] at hlog
    exact ⟨hlog.1, fun call hcall => hlog.2 _ (List.mem_map_of_mem hcall)⟩
  cases ev with
  | tick | invoke => simp [spoofCalls]
  | resume i x =>
    have hnow := now_next cfg t (.resume i x)
    rw [spoofCalls]
    split
    · split_ifs
      · simpa using hnow
      · simp
    · simp

/-! ### The quota -/

/-- The time at which an event gets a request of a client past the limiter. -/
def admissions (cfg : Config) (k : ByteString) (t : World hashKey ι) : Event ι → List TimePoint
  | .resume i x =>
    match t.pc i with
    | .limit r =>
      if r.ft.toKey = k ∧ ((Pc.limit r).step cfg t.shared.engine ⟨t.shared.now, x.wall⟩
          x.order).2.1 = .routeRequest r false (-1) .enter then [t.shared.now]
      else []
    | _ => []
  | _ => []

variable (hashKey cfg) in
/-- The requests that get past the limiter are the calls that it allows. -/
theorem log_admissions (k : ByteString) (now : TimePoint) (evs : List (Event ι)) :
    (machine hashKey cfg ι).log (admissions cfg k) (.quiet ι (.init hashKey cfg) now) evs =
      ((RateLimiter.history cfg.rateLimitWindowSec cfg.rateLimitMaxRequests
        (limiterLog hashKey cfg now evs) k).filter Prod.snd).map Prod.fst := by
  induction evs using List.reverseRecOn with
  | nil => rfl
  | append_singleton evs ev ih =>
    have hlimiter := (limiter_run hashKey cfg now evs).1
    have hlog : limiterLog hashKey cfg now (evs ++ [ev]) = limiterLog hashKey cfg now evs ++
        limiterCalls ((machine hashKey cfg ι).run (.quiet ι (.init hashKey cfg) now) evs) ev :=
      Machine.log_concat _ _ _ _ _
    rw [Machine.log_concat, ih, hlog]
    generalize (machine hashKey cfg ι).run (.quiet ι (.init hashKey cfg) now) evs = t at hlimiter
    cases ev with
    | tick | invoke => simp [admissions, limiterCalls]
    | resume i x =>
      rw [admissions, limiterCalls]
      split
      · rename_i r _
        have hpass : ((Pc.limit r).step cfg t.shared.engine ⟨t.shared.now, x.wall⟩ x.order).2.1 =
            .routeRequest r false (-1) .enter ↔
            (t.shared.engine.limiter.allowRequest ⟨t.shared.now, x.wall⟩ r.ft.toKey).2 = true := by
          simp only [Pc.step]
          split_ifs with hallowed <;> simp [hallowed, Pc.reply]
        rw [RateLimiter.history_allowRequest, ← hlimiter]
        simp only [hpass]
        by_cases hk : r.ft.toKey = k
        · subst hk
          cases (t.shared.engine.limiter.allowRequest ⟨t.shared.now, x.wall⟩ r.ft.toKey).2 <;>
            simp
        · simp [hk]
      · simp

/-- If the event asks the limiter, it counts fewer than `2 ^ 31` records. -/
def LimiterFits (t : World hashKey ι) (ev : Event ι) : Prop :=
  RateLimiter.machine.Along RateLimiter.FitsInt t.shared.engine.limiter (limiterCalls t ev)

instance (t : World hashKey ι) (ev : Event ι) : Decidable (LimiterFits t ev) :=
  inferInstanceAs (Decidable (RateLimiter.machine.Along _ _ _))

/-- **The quota under concurrent calls.** However many threads make requests, and in whatever
order their steps are taken: at most `max` requests of a client get past the limiter in any closed
interval of the window's length, as long as the limiter counts fewer than `2 ^ 31` records and `max`
is not negative. -/
theorem admitted_within_le (hashKey : ByteString → UInt64) {cfg : Config}
    (hM : 0 ≤ cfg.rateLimitMaxRequests) {now : TimePoint} {evs : List (Event ι)}
    (hfit : (machine hashKey cfg ι).Along LimiterFits (.quiet ι (.init hashKey cfg) now) evs)
    (k : ByteString) (a : TimePoint) :
    ((within id (seconds cfg.rateLimitWindowSec) a ((machine hashKey cfg ι).log (admissions cfg k)
      (.quiet ι (.init hashKey cfg) now) evs)).length : ℤ) ≤ cfg.rateLimitMaxRequests := by
  have hdrives : Machine.Drives (machine hashKey cfg ι) RateLimiter.machine
      (fun t => t.shared.engine.limiter) limiterCalls := drives_limiter cfg
  have hlog : RateLimiter.machine.Along RateLimiter.FitsInt
      (.init cfg.rateLimitWindowSec cfg.rateLimitMaxRequests) (limiterLog hashKey cfg now evs) :=
    hdrives.along hfit
  have hwithin := (RateLimiter.admitted_history (limiter_run hashKey cfg now evs).2.1 hlog
    k).length_within_le a
  rw [log_admissions, within, List.filter_map, List.length_map]
  show ((within Prod.fst (seconds cfg.rateLimitWindowSec) a _).length : ℤ) ≤ _
  omega

/-! ### The spoof check -/

/-- **The spoof check under concurrent calls.** A thread that validates a request with good
payload and tuple is refused exactly when the sources of the subnet that the threads have shown in
the window, its own included, exceed the threshold (as an `int`). -/
theorem spoofed_iff (hashKey : ByteString → UInt64) (cfg : Config) {now : TimePoint}
    {evs : List (Event ι)} {t : World hashKey ι}
    (ht : (machine hashKey cfg ι).run (.quiet ι (.init hashKey cfg) now) evs = t) (i : ι)
    (x : Surroundings) {r : Request} (hi : t.pc i = .validate r)
    (hpayload : Security.validatePayloadSize r.payload cfg.maxPayloadSize = .ok ())
    (htuple : Security.validateTuple r.ft = .ok ()) :
    (∃ errorMessage, (machine hashKey cfg ι).answer t (.resume i x) =
        some (.response (.securityFailed errorMessage))) ↔
      cfg.spoofDetectionThreshold < toInt (Security.sources cfg (spoofLog hashKey cfg now evs)
        ⟨t.shared.now, x.wall⟩ r.ft.srcIp).card := by
  obtain ⟨hsecurity, hlog, hpast⟩ := security_run hashKey cfg now evs
  rw [ht] at hsecurity hpast
  rw [← Security.checkSpoofing_afterChecks (List.pairwise_append.mpr ⟨hlog,
    List.pairwise_singleton _ _, fun call hcall call' hcall' => ?_⟩), ← hsecurity]
  · have hfree : ¬ (script hashKey cfg).blocked t i x = true := not_blocked_of_outside (by
      rw [hi]
      simp only [Pc.step]
      split <;> rfl)
    rw [Script.answer_resume, if_neg hfree]
    show (∃ errorMessage, ((t.pc i).step cfg t.shared.engine ⟨t.shared.now, x.wall⟩ x.order).2.2 =
      some (.response (.securityFailed errorMessage))) ↔ _
    rw [hi]
    simp only [Pc.step, Security.fullValidation, hpayload, htuple]
    rcases Security.checkSpoofing cfg t.shared.engine.security ⟨t.shared.now, x.wall⟩ r.ft.srcIp
      with ⟨security, errorMessage | _⟩ <;> simp [Pc.reply]
  · rw [List.mem_singleton.mp hcall']
    exact hpast call hcall

end Runs

/-- Two threads make a request each, from two addresses of one subnet, their steps in turn. -/
def twoSources (n : ℕ) : List (Event Bool) :=
  [.invoke true (.handleRequest ⟨.primary, clientTuple, bytes "hello"⟩),
    .invoke false (.handleRequest ⟨.primary, { clientTuple with srcIp := bytes "10.0.0.2" },
      bytes "hello"⟩)] ++ (List.range n).map fun j => go (j % 2 == 0)

theorem admitted_within_le_twoSources :
    ((within id (seconds Config.pair.rateLimitWindowSec) 0 ((machine fnvHashKey .pair Bool).log
      (admissions .pair clientTuple.toKey) (.quiet Bool (.init fnvHashKey .pair) 0)
      (twoSources 6))).length : ℤ) ≤ Config.pair.rateLimitMaxRequests := by
  have hfit : (machine fnvHashKey .pair Bool).Along LimiterFits
      (.quiet Bool (.init fnvHashKey .pair) 0) (twoSources 6) := by decide +kernel
  exact admitted_within_le fnvHashKey (by decide) hfit clientTuple.toKey 0

/-- With threshold one, the second address that the threads show is refused. -/
theorem spoofed_iff_twoSources : ∃ errorMessage,
    (machine fnvHashKey { Config.pair with spoofDetectionThreshold := 1 } Bool).answer
      ((machine fnvHashKey { Config.pair with spoofDetectionThreshold := 1 } Bool).run
        (.quiet Bool (.init fnvHashKey { Config.pair with spoofDetectionThreshold := 1 }) 0)
        (twoSources 3)) (go false) = some (.response (.securityFailed errorMessage)) :=
  (spoofed_iff fnvHashKey { Config.pair with spoofDetectionThreshold := 1 } rfl false ⟨[], []⟩
    (r := ⟨.primary, { clientTuple with srcIp := bytes "10.0.0.2" }, bytes "hello"⟩)
    (by decide +kernel) (by decide) (by decide)).mpr (by decide +kernel)

end Concurrent

end SessionAffinity
