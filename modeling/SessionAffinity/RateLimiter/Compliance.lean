import SessionAffinity.RateLimiter.Memory
import SessionAffinity.RateLimiter.Quota

/-!
# Clients that keep to the quota

A rejection is recorded and counted like an allowed call, so what the limiter answers to a
client depends on when that client calls, and on nothing else.

* **No queue.** The calls of a client that are all allowed are those the window rule admits
  (`allowed_iff_admitted`). The narrowing to `int` does not matter here: as long as every call
  was allowed the count has grown by one call at a time, so the first call over the quota is
  seen as such.
* **No surprise.** So a client is never rejected exactly when it never makes more than `max`
  calls in any interval of the window's length, whatever the other clients do
  (`never_throttled_iff`).
-/

namespace SessionAffinity

namespace RateLimiter

open SlidingWindow (recent within Admitted)

variable {W M : ℤ} {ops : List Op} {k : ByteString}

/-- All calls of a client are allowed if and only if the window rule admits their times. -/
theorem allowed_iff_admitted (hM : 0 ≤ M) (hint : M < 2 ^ 31) (hops : Nondecreasing ops) :
    (∀ c ∈ history W M ops k, c.2 = true) ↔
      Admitted id (seconds W) M.toNat (arrivals k ops) := by
  induction ops using List.reverseRecOn with
  | nil => exact iff_of_true (fun c hc => absurd hc List.not_mem_nil) .nil
  | append_singleton ops op ih =>
    obtain ⟨hprev, hlast⟩ := hops.of_concat
    have ih := ih hprev
    rw [arrivals_concat]
    cases op with
    | allowRequest clk k' =>
      rw [history_allowRequest]
      dsimp only
      split_ifs with hk
      · subst hk
        rw [SlidingWindow.admitted_concat, ← ih, List.forall_mem_append, List.forall_mem_singleton,
          allowRequest_afterOps hops, length_recent_history, decide_eq_true_eq]
        refine and_congr_right fun hall => ?_
        -- nothing was rejected so far, so the count fits an `int`
        have hcount : (recent id (seconds W) clk.steady (arrivals k' ops)).length ≤ M.toNat :=
          (SlidingWindow.length_recent_le_within fun t ht =>
            hlast t (mem_times_of_mem_arrivals ht) _ (List.mem_singleton_self _)).trans
              ((ih.mp hall).length_within_le _)
        rw [toInt_of_lt (by omega), id_eq]
        omega
      · exact ih
    | reset =>
      rw [history_reset]
      exact iff_of_true (fun c hc => absurd hc List.not_mem_nil) .nil

/-- **Clients that are never throttled.** Along a nondecreasing run, a client is never rejected
(since the last reset) exactly when no closed interval of the window's length holds more than
`max` of its calls; the calls of other clients do not matter. -/
theorem never_throttled_iff (W M : ℤ) (ops : List Op) (k : ByteString) (hW : 0 ≤ W) (hM : 0 ≤ M)
    (hint : M < 2 ^ 31) (hops : Nondecreasing ops) :
    (∀ c ∈ history W M ops k, c.2 = true) ↔
      ∀ t, ((within id (seconds W) t (arrivals k ops)).length : ℤ) ≤ M := by
  have hwindow : 0 ≤ seconds W := by
    rw [seconds]
    omega
  rw [allowed_iff_admitted hM hint hops,
    SlidingWindow.admitted_iff hwindow (chronological_arrivals hops)]
  refine forall_congr' fun t => ?_
  omega

/-- Two calls more than a window apart, at a quota of one. -/
theorem never_throttled_apart :
    (history 10 1 [.allowRequest ⟨0, []⟩ [], .allowRequest ⟨seconds 11, []⟩ []] []).all
      Prod.snd = true := by
  refine List.all_eq_true.mpr
    ((never_throttled_iff 10 1 _ [] (by decide) (by decide) (by decide) (by decide)).mpr ?_)
  intro t
  show ((within id (seconds 10) t [0, seconds 11]).length : ℤ) ≤ 1
  by_cases hfirst : t ≤ 0 ∧ 0 ≤ t + seconds 10
  · have hsecond : ¬(t ≤ seconds 11 ∧ seconds 11 ≤ t + seconds 10) := by
      rw [seconds, seconds]
      omega
    simp [within, hfirst, hsecond]
  · simpa [within, hfirst] using List.length_filter_le _ [seconds 11]

end RateLimiter

end SessionAffinity
