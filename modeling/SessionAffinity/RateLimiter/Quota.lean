import SessionAffinity.RateLimiter

/-!
# What the limiter promises about quotas

Both directions of the quota rest on `length_evictExpired_queue`: a call counts exactly the
calls of its client that lie in the window, allowed and rejected alike.

* **No burst.** As long as that count fits an `int`, an allowed call had fewer than `max`
  allowed ones in the window ending at it, so the window bound of `SlidingWindow` applies to
  every interval (`allowed_within_le`). The narrowing to `int` is what the proviso is about:
  past `2 ^ 31` records the count turns negative and lets everything through
  (`flood_breaks_quota`).
* **No undue rejection.** Rejections are recorded and counted, so retries can keep a client
  out whose quota is free (`retries_lock_out`); `rejection_justified_iff` says, in terms of the
  times of the calls alone, exactly when a rejection is covered by allowed calls.
-/

namespace SessionAffinity

namespace RateLimiter

open SlidingWindow (recent within Admitted)

variable {W M : ℤ} {ops : List Op} {clk : Clock} {k : ByteString}

/-- The decision of a call, in terms of the client's history. -/
theorem allowRequest_afterOps (h : Nondecreasing (ops ++ [.allowRequest clk k])) :
    ((afterOps W M ops).allowRequest clk k).2 =
      decide (toInt (recent Prod.fst (seconds W) clk.steady (history W M ops k)).length < M) := by
  obtain ⟨hops, hlast⟩ := h.of_concat
  rw [allowRequest_snd, afterOps_maxRequests, length_evictExpired_queue hops fun t ht =>
    hlast t ht _ (List.mem_singleton_self _)]

/-! ### No burst gets through -/

/-- A call of `allowRequest` counts fewer than `2 ^ 31` records. -/
def FitsInt (rl : RateLimiter) : Op → Prop
  | .allowRequest clk k => (rl.evictExpired (rl.queue k) clk.steady).length < 2 ^ 31
  | .reset => True

/-- The allowed calls of a client are admitted by the window rule. -/
theorem admitted_history (hops : Nondecreasing ops)
    (hfit : machine.Along FitsInt (init W M) ops) (k : ByteString) :
    Admitted Prod.fst (seconds W) M.toNat ((history W M ops k).filter Prod.snd) := by
  induction ops using List.reverseRecOn with
  | nil => exact .nil
  | append_singleton ops op ih =>
    obtain ⟨hprev, hlast⟩ := hops.of_concat
    obtain ⟨hearlier, hop⟩ := machine.along_concat.mp hfit
    cases op with
    | allowRequest clk k' =>
      rw [history_allowRequest]
      split_ifs with hk
      · subst hk
        rw [List.filter_append]
        cases hdec : ((afterOps W M ops).allowRequest clk k').2 with
        | false => simpa using ih hprev hearlier
        | true =>
          refine .snoc (ih hprev hearlier) ?_
          have hcount := length_evictExpired_queue (W := W) (M := M) (k := k') hprev fun t ht =>
            hlast t ht clk.steady (List.mem_singleton_self _)
          have hlt : toInt (recent Prod.fst (seconds W) clk.steady
              (history W M ops k')).length < M := by
            rw [allowRequest_afterOps hops] at hdec
            exact of_decide_eq_true hdec
          rw [toInt_of_lt (hcount ▸ hop)] at hlt
          -- the allowed calls in the window are among all calls in the window
          have hsub : (recent Prod.fst (seconds W) clk.steady
                ((history W M ops k').filter Prod.snd)).length ≤
              (recent Prod.fst (seconds W) clk.steady (history W M ops k')).length :=
            (List.filter_sublist.filter _).length_le
          show (recent Prod.fst (seconds W) clk.steady _).length < M.toNat
          omega
      · exact ih hprev hearlier
    | reset =>
      rw [history_reset]
      exact .nil

/-- **Sliding-window bound.** In a run whose calls count fewer than `2 ^ 31` records each, at
most `max` calls of a client (since the last reset) inside any closed interval of the
window's length were allowed. -/
theorem allowed_within_le (W M : ℤ) (ops : List Op) (hM : 0 ≤ M) (hops : Nondecreasing ops)
    (hfit : machine.Along FitsInt (init W M) ops) (k : ByteString) (t : TimePoint) :
    ((within Prod.fst (seconds W) t ((history W M ops k).filter Prod.snd)).length : ℤ) ≤ M := by
  have := (admitted_history hops hfit k).length_within_le t
  omega

/-- Three calls, two of them at the exact age of the window: the bound at quota one. -/
theorem allowed_within_le_boundary :
    ((within Prod.fst (seconds 10) 0 ((history 10 1 [.allowRequest ⟨0, []⟩ [],
      .allowRequest ⟨seconds 10, []⟩ [], .allowRequest ⟨seconds 11, []⟩ []] []).filter
        Prod.snd)).length : ℤ) ≤ 1 :=
  allowed_within_le 10 1 _ (by decide) (by simp [Nondecreasing, Op.times, seconds])
    (by simp only [Machine.along_cons, Machine.along_nil, FitsInt, and_true]; decide) [] 0

/-- `n` calls of one client at one moment. -/
def flood (n : ℕ) : List Op := List.replicate n (.allowRequest ⟨0, []⟩ [])

theorem flood_succ (n : ℕ) : flood (n + 1) = flood n ++ [.allowRequest ⟨0, []⟩ []] :=
  List.replicate_succ'

theorem nondecreasing_flood (n : ℕ) : Nondecreasing (flood n) := by
  refine List.pairwise_of_forall_mem_list fun a ha b hb => ?_
  obtain ⟨_, hop, hta⟩ := List.mem_flatMap.mp ha
  obtain ⟨_, hop', htb⟩ := List.mem_flatMap.mp hb
  rw [List.eq_of_mem_replicate hop] at hta
  rw [List.eq_of_mem_replicate hop'] at htb
  rw [List.mem_singleton.mp hta, List.mem_singleton.mp htb]

/-- All calls of a flood lie in the window, whatever was answered. -/
theorem length_recent_flood (hW : 0 ≤ W) (n : ℕ) :
    (recent Prod.fst (seconds W) 0 (history W M (flood n) [])).length = n := by
  induction n with
  | zero => rfl
  | succ n ih =>
    have hin : 0 ≤ seconds W := by
      rw [seconds]
      omega
    rw [flood_succ, history_allowRequest, if_pos rfl, SlidingWindow.recent_append,
      List.length_append, ih]
    simp [recent, hin]

/-- **The count is an `int`.** With quota zero nothing may be allowed, yet the call that
finds `2 ^ 31` rejections on record reads their number as negative and is allowed. -/
theorem flood_breaks_quota :
    Nondecreasing (flood (2 ^ 31 + 1)) ∧
      ¬((within Prod.fst (seconds 60) 0
        ((history 60 0 (flood (2 ^ 31 + 1)) []).filter Prod.snd)).length : ℤ) ≤ 0 := by
  refine ⟨nondecreasing_flood _, ?_⟩
  have hdec : ((afterOps 60 0 (flood (2 ^ 31))).allowRequest ⟨0, []⟩ []).2 = true := by
    rw [allowRequest_afterOps (by rw [← flood_succ]; exact nondecreasing_flood _),
      length_recent_flood (by omega)]
    decide
  have hmem : ((0 : TimePoint), true) ∈ within Prod.fst (seconds 60) 0
      ((history 60 0 (flood (2 ^ 31 + 1)) []).filter Prod.snd) := by
    rw [flood_succ, history_allowRequest, if_pos rfl, hdec]
    exact List.mem_filter.mpr
      ⟨List.mem_filter.mpr ⟨List.mem_append_right _ (List.mem_singleton_self _), rfl⟩, by decide⟩
  have := List.length_pos_of_mem hmem
  omega

/-! ### Rejections and retries -/

/-- A call at time `t`, after calls at the times `before`, finds fewer than `max` of them in
the window. -/
def Open (W M : ℤ) (before : List TimePoint) (t : TimePoint) : Prop :=
  toInt (recent id (seconds W) t before).length < M

instance (W M : ℤ) (before : List TimePoint) (t : TimePoint) : Decidable (Open W M before t) :=
  inferInstanceAs (Decidable (_ < _))

/-- The times among `ts`, of calls made after those at the times `before`, that are open. -/
def openTimes (W M : ℤ) : List TimePoint → List TimePoint → List TimePoint
  | _, [] => []
  | before, t :: ts =>
    if Open W M before t then t :: openTimes W M (before ++ [t]) ts
    else openTimes W M (before ++ [t]) ts

theorem openTimes_concat (before ts : List TimePoint) (t : TimePoint) :
    openTimes W M before (ts ++ [t]) =
      openTimes W M before ts ++ if Open W M (before ++ ts) t then [t] else [] := by
  induction ts generalizing before with
  | nil => simp [openTimes]
  | cons t' ts ih =>
    have hbefore : before ++ [t'] ++ ts = before ++ t' :: ts := List.append_assoc ..
    rw [List.cons_append, openTimes, openTimes, ih, hbefore]
    split_ifs <;> simp

/-- The decision of a call, in terms of the times of the client's calls. -/
theorem allowRequest_eq_open (h : Nondecreasing (ops ++ [.allowRequest clk k])) :
    ((afterOps W M ops).allowRequest clk k).2 = decide (Open W M (arrivals k ops) clk.steady) := by
  rw [allowRequest_afterOps h, length_recent_history]
  rfl

/-- The allowed calls are the open ones. -/
theorem map_fst_allowed (hops : Nondecreasing ops) :
    ((history W M ops k).filter Prod.snd).map Prod.fst = openTimes W M [] (arrivals k ops) := by
  induction ops using List.reverseRecOn with
  | nil => rfl
  | append_singleton ops op ih =>
    obtain ⟨hprev, -⟩ := hops.of_concat
    rw [arrivals_concat]
    cases op with
    | allowRequest clk k' =>
      rw [history_allowRequest]
      dsimp only
      split_ifs with hk
      · subst hk
        rw [openTimes_concat, List.nil_append, List.filter_append, List.map_append, ih hprev,
          allowRequest_eq_open hops]
        by_cases hopen : Open W M (arrivals k' ops) clk.steady <;> simp [hopen]
      · exact ih hprev
    | reset =>
      rw [history_reset]
      rfl

/-- The allowed calls in a window, counted on the times alone. -/
theorem length_recent_allowed (hops : Nondecreasing ops) (now : TimePoint) :
    ((recent Prod.fst (seconds W) now (history W M ops k)).filter Prod.snd).length =
      (recent id (seconds W) now (openTimes W M [] (arrivals k ops))).length := by
  have hcomm : (recent Prod.fst (seconds W) now (history W M ops k)).filter Prod.snd =
      recent (id ∘ Prod.fst) (seconds W) now ((history W M ops k).filter Prod.snd) :=
    List.filter_comm _ _ _
  rw [hcomm, ← map_fst_allowed hops, ← SlidingWindow.map_recent, List.length_map]

/-- **When a rejection is covered by allowed calls.** A call is rejected only if `max` allowed
calls of its client lie in the window, exactly when it is open or `max` open calls of its client
lie in the window: a condition on the times of the calls, retries included. -/
theorem rejection_justified_iff (W M : ℤ) (ops : List Op) (clk : Clock) (k : ByteString)
    (h : Nondecreasing (ops ++ [.allowRequest clk k])) :
    (((afterOps W M ops).allowRequest clk k).2 = false →
        M ≤ ((recent Prod.fst (seconds W) clk.steady (history W M ops k)).filter Prod.snd).length) ↔
      (Open W M (arrivals k ops) clk.steady ∨
        M ≤ (recent id (seconds W) clk.steady (openTimes W M [] (arrivals k ops))).length) := by
  rw [allowRequest_eq_open h, length_recent_allowed h.of_concat.1, decide_eq_false_iff_not,
    or_iff_not_imp_left]

/-- A client that has used up its quota of one: the rejection is covered. -/
theorem rejection_justified_used_up :
    ((afterOps 60 1 [.allowRequest ⟨0, []⟩ []]).allowRequest ⟨seconds 5, []⟩ []).2 = false ∧
      (1 : ℤ) ≤ ((recent Prod.fst (seconds 60) (seconds 5)
        (history 60 1 [.allowRequest ⟨0, []⟩ []] [])).filter Prod.snd).length :=
  ⟨by decide, (rejection_justified_iff 60 1 [.allowRequest ⟨0, []⟩ []] ⟨seconds 5, []⟩ []
    (by decide)).mpr (by decide) (by decide)⟩

/-- **Retries lock out.** One call allowed at time `0`, one retry rejected at age exactly the
window: the next call, when nothing allowed is left in the window, is rejected for the
retry. -/
theorem retries_lock_out :
    Nondecreasing [.allowRequest ⟨0, []⟩ [], .allowRequest ⟨seconds 10, []⟩ [],
        .allowRequest ⟨seconds 20, []⟩ []] ∧
      ((afterOps 10 1 [.allowRequest ⟨0, []⟩ [],
        .allowRequest ⟨seconds 10, []⟩ []]).allowRequest ⟨seconds 20, []⟩ []).2 = false ∧
      (recent Prod.fst (seconds 10) (seconds 20) (history 10 1 [.allowRequest ⟨0, []⟩ [],
        .allowRequest ⟨seconds 10, []⟩ []] [])).filter Prod.snd = [] := by
  decide

end RateLimiter

end SessionAffinity
