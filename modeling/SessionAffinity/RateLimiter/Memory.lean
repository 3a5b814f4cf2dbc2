import SessionAffinity.RateLimiter

/-!
# What the limiter remembers

A queue is evicted by its client's own calls only, and every call appends to it.

* **The queue is the window.** Right after a call, the queue is the list of its client's calls in
  the window ending at it, and it stays that list until the next call of that client
  (`getHistory_eq_window`).

Both facts about its size follow from `length_queue`, which reads the queue off the times of the
calls.

* **The count grows stale.** `currentCount` reports the queue as the last call left it, so it is
  right as long as none of what that call kept has left the window since
  (`currentCount_eq_iff`).
* **The queue is bounded by the calls, not by the quota.** Rejected calls are recorded too: a
  queue stays within `max` exactly as long as every call finds fewer than `max` others in the
  window (`length_queue_le_iff`).
-/

namespace SessionAffinity

namespace RateLimiter

open SlidingWindow (recent kept departed Chronological)

variable {W M : ℤ} {ops : List Op} {k : ByteString}

/-! ### The queue -/

/-- The history that is shown is the queue. -/
theorem getHistory_eq (rl : RateLimiter) (k : ByteString) : rl.getHistory k = rl.queue k := by
  rw [getHistory, queue]
  cases rl.clientQueues[k]? <;> rfl

/-- The calls of other clients leave a queue alone. -/
theorem queue_run_of_ne (rl : RateLimiter) {others : List Op}
    (hothers : ∀ op ∈ others, ∃ k', k' ≠ k ∧ op.key? = some k') :
    (machine.run rl others).queue k = rl.queue k := by
  refine machine.run_invariant_of_forall (I := fun rl' => rl'.queue k = rl.queue k)
    (P := fun op => ∃ k', k' ≠ k ∧ op.key? = some k') ?_ rfl hothers
  rintro rl' (⟨clk, key⟩ | _) h ⟨k', hne, hk'⟩
  · obtain rfl : key = k' := Option.some.inj hk'
    exact (queue_allowRequest_of_ne rl' clk key hne).trans h
  · exact absurd hk' (by simp [Op.key?])

/-- The window that ends at the last call is a closed interval of times. -/
theorem recent_history_eq {clk : Clock} (h : Nondecreasing (ops ++ [Op.allowRequest clk k])) :
    recent Prod.fst (seconds W) clk.steady (history W M (ops ++ [Op.allowRequest clk k]) k) =
      (history W M (ops ++ [Op.allowRequest clk k]) k).filter fun c =>
        clk.steady - seconds W ≤ c.1 ∧ c.1 ≤ clk.steady := by
  obtain ⟨-, hlast⟩ := h.of_concat
  refine List.filter_congr fun c hc => ?_
  have hle : c.1 ≤ clk.steady := by
    rw [history_allowRequest, if_pos rfl] at hc
    rcases List.mem_append.mp hc with hc | hc
    · exact hlast c.1 (fst_mem_times_of_mem_history hc) clk.steady (List.mem_singleton_self _)
    · rw [List.mem_singleton.mp hc]
  rw [decide_eq_decide, and_iff_left hle]
  exact sub_le_comm

/-- **The queue is the window.** Right after a call, at any point of a nondecreasing run, its
client's queue is, in order and with the decisions taken, the client's calls since the last reset
in the window ending at the call, and the call itself; with a window that is not negative, all of
its calls at times from `t - window` to `t`. The calls of other clients do not change it. -/
theorem getHistory_eq_window (W M : ℤ) (ops : List Op) (clk : Clock) (k : ByteString)
    (h : Nondecreasing (ops ++ [Op.allowRequest clk k])) :
    ((afterOps W M (ops ++ [Op.allowRequest clk k])).getHistory k).map mark =
        recent Prod.fst (seconds W) clk.steady (history W M ops k) ++
          [(clk.steady, ((afterOps W M ops).allowRequest clk k).2)] ∧
      (0 ≤ W → ((afterOps W M (ops ++ [Op.allowRequest clk k])).getHistory k).map mark =
        (history W M (ops ++ [Op.allowRequest clk k]) k).filter fun c =>
          clk.steady - seconds W ≤ c.1 ∧ c.1 ≤ clk.steady) ∧
      ∀ others : List Op, (∀ op ∈ others, ∃ k', k' ≠ k ∧ op.key? = some k') →
        (afterOps W M (ops ++ [Op.allowRequest clk k] ++ others)).getHistory k =
          (afterOps W M (ops ++ [Op.allowRequest clk k])).getHistory k := by
  have hwindow : ((afterOps W M (ops ++ [Op.allowRequest clk k])).getHistory k).map mark =
      recent Prod.fst (seconds W) clk.steady (history W M ops k) ++
        [(clk.steady, ((afterOps W M ops).allowRequest clk k).2)] := by
    rw [getHistory_eq, map_mark_queue h, history_allowRequest, if_pos rfl,
      SlidingWindow.kept_concat]
  refine ⟨hwindow, fun hW => ?_, fun others hothers => ?_⟩
  · -- the call is in the window that ends at it
    have hin : 0 ≤ seconds W := by
      rw [seconds]
      omega
    rw [hwindow, ← recent_history_eq h, history_allowRequest, if_pos rfl,
      SlidingWindow.recent_append]
    simp [recent, hin]
  · rw [getHistory_eq, getHistory_eq, afterOps, machine.run_append]
    exact queue_run_of_ne _ hothers

/-- A call at exactly the age of the window is still in the queue, and the call of another client
is not. -/
theorem getHistory_eq_window_boundary :
    ((afterOps 60 1 [.allowRequest ⟨0, []⟩ [], .allowRequest ⟨seconds 5, []⟩ (bytes "other"),
      .allowRequest ⟨seconds 60, []⟩ []]).getHistory []).map mark =
        [(0, true), (seconds 60, false)] :=
  (getHistory_eq_window 60 1 [.allowRequest ⟨0, []⟩ [],
    .allowRequest ⟨seconds 5, []⟩ (bytes "other")] ⟨seconds 60, []⟩ [] (by decide)).1.trans
    (by decide)

/-! ### Its size -/

/-- The size of a queue, on the times of the client's calls. -/
theorem length_queue (h : Nondecreasing ops) :
    ((afterOps W M ops).queue k).length = (kept id (seconds W) (arrivals k ops)).length := by
  have hmark := congrArg List.length (map_mark_queue (W := W) (M := M) (k := k) h)
  rw [List.length_map] at hmark
  rw [hmark, ← map_fst_history (W := W) (M := M), ← SlidingWindow.map_kept, List.length_map]
  rfl

theorem chronological_arrivals (h : Nondecreasing ops) : Chronological id (arrivals k ops) := by
  rw [← map_fst_history (W := 0) (M := 0)]
  exact List.pairwise_map.mpr (chronological_history h)

/-- Arrivals are readings of the run. -/
theorem mem_times_of_mem_arrivals {t : TimePoint} (ht : t ∈ arrivals k ops) :
    t ∈ ops.flatMap Op.times := by
  rw [← map_fst_history (W := 0) (M := 0)] at ht
  obtain ⟨c, hc, rfl⟩ := List.mem_map.mp ht
  exact fst_mem_times_of_mem_history hc

/-! ### The count -/

/-- The count is the size of the queue, narrowed to an `int`. -/
theorem currentCount_eq (rl : RateLimiter) (k : ByteString) :
    rl.currentCount k = toInt (rl.queue k).length := by
  rw [currentCount, queue]
  cases rl.clientQueues[k]? with
  | none => rfl
  | some q => rfl

/-- **When the count tells the truth.** After a nondecreasing run, asked at a time `t` not
before it, the count is the number of the client's calls in the window ending at `t`, and so the
number `allowRequest` would count then, exactly when that number fits an `int` and what has left
the window since the client's last call does not show: a multiple of `2 ^ 32` of calls, so none
for any smaller queue. -/
theorem currentCount_eq_iff (W M : ℤ) (ops : List Op) (k : ByteString) (t : TimePoint)
    (h : Nondecreasing ops) (ht : ∀ t' ∈ ops.flatMap Op.times, t' ≤ t) :
    ((afterOps W M ops).currentCount k =
          (recent Prod.fst (seconds W) t (history W M ops k)).length ∧
        (afterOps W M ops).currentCount k =
          toInt ((afterOps W M ops).evictExpired ((afterOps W M ops).queue k) t).length) ↔
      (recent id (seconds W) t (arrivals k ops)).length < 2 ^ 31 ∧
        2 ^ 32 ∣ (departed id (seconds W) t (arrivals k ops)).length := by
  have hpast : ∀ t' ∈ arrivals k ops, t' ≤ t := fun t' ht' => ht t' (mem_times_of_mem_arrivals ht')
  have hcount : (afterOps W M ops).currentCount k =
      toInt ((recent id (seconds W) t (arrivals k ops)).length +
        (departed id (seconds W) t (arrivals k ops)).length) := by
    rw [currentCount_eq, length_queue h,
      SlidingWindow.length_kept (chronological_arrivals h) hpast]
  rw [length_evictExpired_queue h ht, length_recent_history, hcount, ← toInt_add_eq_iff]
  constructor
  · exact fun h => h.1
  · intro heq
    -- the count is an `int`, so narrowing it again changes nothing
    have hsmall := (toInt_add_eq_iff.mp heq).1
    exact ⟨heq, heq.trans (toInt_of_lt hsmall).symm⟩

/-- A call that the next one finds outside the window, and the next one. -/
def spaced : List Op := [.allowRequest ⟨0, []⟩ [], .allowRequest ⟨seconds 90, []⟩ []]

/-- The first call has been evicted when the count is asked for, and the second is counted. -/
theorem currentCount_eq_fresh :
    (arrivals [] spaced).length = 2 ∧ (afterOps 60 100 spaced).currentCount [] = 1 ∧
      (recent Prod.fst (seconds 60) (seconds 100) (history 60 100 spaced [])).length = 1 := by
  have h := (currentCount_eq_iff 60 100 spaced [] (seconds 100) (by decide) (by decide)).mpr
    (by decide)
  exact ⟨by decide, h.2.trans (by decide), by decide⟩

/-- **The count grows stale.** One call, asked about when it has left the window: it is still
counted, although no call is in the window and `allowRequest` would count none. -/
theorem currentCount_stale :
    Nondecreasing [.allowRequest ⟨0, []⟩ []] ∧
      (afterOps 10 1 [.allowRequest ⟨0, []⟩ []]).currentCount [] = 1 ∧
      recent Prod.fst (seconds 10) (seconds 11)
        (history 10 1 [.allowRequest ⟨0, []⟩ []] []) = [] ∧
      ((afterOps 10 1 [.allowRequest ⟨0, []⟩ []]).evictExpired
        ((afterOps 10 1 [.allowRequest ⟨0, []⟩ []]).queue []) (seconds 11)).length = 0 := by
  decide

/-! ### The bound -/

/-- After one more call, its client's queue holds it and the calls in the window before it. -/
theorem length_queue_allowRequest {clk : Clock} (h : Nondecreasing (ops ++ [.allowRequest clk k])) :
    ((afterOps W M (ops ++ [.allowRequest clk k])).queue k).length =
      (recent id (seconds W) clk.steady (arrivals k ops)).length + 1 := by
  rw [length_queue h, arrivals_concat]
  dsimp only
  rw [if_pos rfl, SlidingWindow.kept_concat, List.length_append]
  rfl

theorem Nondecreasing.of_prefix {js : List Op} (h : Nondecreasing ops) (hjs : js <+: ops) :
    Nondecreasing js :=
  List.Pairwise.sublist (hjs.sublist.flatMap _) h

/-- **When queues stay within the quota.** Along a nondecreasing run no client's queue ever
holds more than `max` records exactly when every call is made while fewer than `max` calls of
its client, allowed or rejected, lie in the window. -/
theorem length_queue_le_iff (W M : ℤ) (ops : List Op) (hM : 0 ≤ M) (h : Nondecreasing ops) :
    (∀ js, js <+: ops → ∀ k, (((afterOps W M js).queue k).length : ℤ) ≤ M) ↔
      ∀ js clk k, js ++ [.allowRequest clk k] <+: ops →
        ((recent id (seconds W) clk.steady (arrivals k js)).length : ℤ) < M := by
  constructor
  · intro hall js clk k hjs
    have hlen := hall _ hjs k
    rw [length_queue_allowRequest (h.of_prefix hjs)] at hlen
    omega
  · intro hcalls js hjs k
    induction js using List.reverseRecOn with
    | nil => simpa [afterOps, init, queue] using hM
    | append_singleton js op ih =>
      have hprev := ih ((List.prefix_append js [op]).trans hjs)
      -- only a call of the client itself changes its queue, and that call finds fewer than `max`
      cases op with
      | allowRequest clk k' =>
        by_cases hk : k' = k
        · subst hk
          have hlt := hcalls js clk k' hjs
          rw [length_queue_allowRequest (h.of_prefix hjs)]
          omega
        · rw [afterOps_allowRequest, queue_allowRequest_of_ne _ _ _ hk]
          exact hprev
      | reset =>
        rw [queue_reset]
        simpa using hM

/-- Two calls more than a window apart keep within a quota of one. -/
theorem length_queue_le_apart :
    (((afterOps 10 1 [.allowRequest ⟨0, []⟩ [], .allowRequest ⟨seconds 11, []⟩ []]).queue []
      ).length : ℤ) ≤ 1 := by
  refine (length_queue_le_iff 10 1 _ (by decide) (by decide)).mpr ?_ _ (List.prefix_refl _) []
  intro js clk k hjs
  rcases js with _ | ⟨op, _ | ⟨op', js⟩⟩
  · simp [arrivals, recent]
  · simp only [List.cons_append, List.nil_append, List.cons_prefix_cons, Op.allowRequest.injEq]
      at hjs
    obtain ⟨rfl, ⟨rfl, rfl⟩, -⟩ := hjs
    decide
  · simp at hjs

/-- **Rejections fill the queue.** With a quota of one, a retry at the same moment is rejected
and makes the queue two records long. -/
theorem rejections_fill_queue :
    Nondecreasing [.allowRequest ⟨0, []⟩ [], .allowRequest ⟨0, []⟩ []] ∧
      ¬(((afterOps 60 1 [.allowRequest ⟨0, []⟩ [], .allowRequest ⟨0, []⟩ []]).queue []).length :
        ℤ) ≤ 1 := by
  decide

end RateLimiter

end SessionAffinity
