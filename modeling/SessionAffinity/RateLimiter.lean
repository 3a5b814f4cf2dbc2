import SessionAffinity.Common
import SessionAffinity.Foundations.Machine
import SessionAffinity.Foundations.SlidingWindow

/-!
# The sliding-window rate limiter

The limiter of `rate_limiter.cpp`: one queue of request records per client, evicted from the
front when the client calls. Both outcomes of `allowRequest` append a record, and the
decision counts all records of the evicted queue, narrowed to an `int`.

`callsOf k` reads a client's history off a trace: the times and answers of its calls since
the last reset. All results about the limiter rest on what a queue is of that history: at
nondecreasing times it holds what was recent at the client's last call (`map_mark_queue`), and
evicted at a later time it is the part that lies in the window then (`evictExpired_queue`).
-/

namespace SessionAffinity

open Std (ExtTreeMap)
open ByteString (signedDecimal)
open SlidingWindow (evict recent kept Chronological)

/-- The mark of a record: `"ALLOWED"` or `"REJECTED"`. -/
inductive RecordStatus
  | allowed
  | rejected
  deriving DecidableEq

/-- A request record, used for limiting and as history. -/
structure RequestRecord where
  timestamp : TimePoint
  status : RecordStatus
  reason : ByteString
  wallTime : ByteString

/-- The limiter: window and quota, and a queue per client. -/
structure RateLimiter where
  windowSeconds : ℤ
  maxRequests : ℤ
  clientQueues : ExtTreeMap ByteString (List RequestRecord)

namespace RateLimiter

/-- A limiter that has seen no request. -/
def init (windowSeconds maxRequests : ℤ) : RateLimiter := ⟨windowSeconds, maxRequests, ∅⟩

/-- The queue of a client; `operator[]` makes an empty one for a new client. -/
def queue (rl : RateLimiter) (clientKey : ByteString) : List RequestRecord :=
  rl.clientQueues[clientKey]?.getD []

/-- `evictExpired`: pop records older than the window from the front. -/
def evictExpired (rl : RateLimiter) (q : List RequestRecord) (now : TimePoint) :
    List RequestRecord :=
  evict RequestRecord.timestamp (seconds rl.windowSeconds) now q

/-- The record an allowed call leaves. -/
def allowedRecord (clk : Clock) : RequestRecord := ⟨clk.steady, .allowed, [], clk.wall⟩

/-- The record a rejected call leaves. -/
def rejectedRecord (rl : RateLimiter) (clk : Clock) : RequestRecord :=
  ⟨clk.steady, .rejected, bytes "Rate limit exceeded (" ++ signedDecimal rl.maxRequests ++
    bytes " req/" ++ signedDecimal rl.windowSeconds ++ bytes "s)", clk.wall⟩

/-- `allowRequest`: evict, compare the size with the quota, record the outcome. -/
def allowRequest (rl : RateLimiter) (clk : Clock) (clientKey : ByteString) : RateLimiter × Bool :=
  let q := rl.evictExpired (rl.queue clientKey) clk.steady
  if toInt q.length ≥ rl.maxRequests then
    ({ rl with clientQueues := rl.clientQueues.insert clientKey (q ++ [rl.rejectedRecord clk]) },
      false)
  else
    ({ rl with clientQueues := rl.clientQueues.insert clientKey (q ++ [allowedRecord clk]) }, true)

/-- `getHistory`: the records of a client. -/
def getHistory (rl : RateLimiter) (clientKey : ByteString) : List RequestRecord :=
  match rl.clientQueues[clientKey]? with
  | none => []
  | some q => q

/-- `currentCount`: the size of the client's queue, which is not evicted for it. -/
def currentCount (rl : RateLimiter) (clientKey : ByteString) : ℤ :=
  match rl.clientQueues[clientKey]? with
  | none => 0
  | some q => toInt q.length

/-- `reset`: forget every client. -/
def reset (rl : RateLimiter) : RateLimiter := { rl with clientQueues := ∅ }

/-! ### Runs -/

/-- The calls that change a limiter. -/
inductive Op
  | allowRequest (clk : Clock) (clientKey : ByteString)
  | reset

/-- The clock readings of a call. -/
def Op.times : Op → List TimePoint
  | allowRequest clk _ => [clk.steady]
  | reset => []

/-- The client of a call. -/
def Op.key? : Op → Option ByteString
  | allowRequest _ clientKey => some clientKey
  | reset => none

/-- The limiter as a machine; `allowRequest` answers its decision. -/
def machine : Machine RateLimiter Op (Option Bool) where
  step rl
    | .allowRequest clk clientKey =>
      ((rl.allowRequest clk clientKey).1, some (rl.allowRequest clk clientKey).2)
    | .reset => (rl.reset, none)

/-- One more call in the history of client `k`. -/
def extend (k : ByteString) (calls : List (TimePoint × Bool)) :
    Op × Option Bool → List (TimePoint × Bool)
  | (.allowRequest clk clientKey, some allowed) =>
    if clientKey = k then calls ++ [(clk.steady, allowed)] else calls
  | (.allowRequest _ _, none) => calls
  | (.reset, _) => []

/-- The `allowRequest` calls of client `k` since the last reset, with times and answers. -/
def callsOf (k : ByteString) (trace : List (Op × Option Bool)) : List (TimePoint × Bool) :=
  trace.foldl (extend k) []

/-- The times of client `k`'s calls since the last reset, as far as the calls `ops` tell. -/
def arrivals (k : ByteString) (ops : List Op) : List TimePoint :=
  ops.foldl (fun ts op => match op with
    | .allowRequest clk clientKey => if clientKey = k then ts ++ [clk.steady] else ts
    | .reset => []) []

/-- The time and the mark of a record. -/
def mark (r : RequestRecord) : TimePoint × Bool := (r.timestamp, decide (r.status = .allowed))

/-- The calls are made at nondecreasing times. -/
def Nondecreasing (ops : List Op) : Prop := (ops.flatMap Op.times).Pairwise (· ≤ ·)

instance (ops : List Op) : Decidable (Nondecreasing ops) :=
  inferInstanceAs (Decidable ((ops.flatMap Op.times).Pairwise (· ≤ ·)))

/-! ### One call -/

variable (rl : RateLimiter) (clk : Clock) (k : ByteString)

/-- The decision, as the comparison the code makes. -/
theorem allowRequest_snd : (rl.allowRequest clk k).2 =
    decide (toInt (rl.evictExpired (rl.queue k) clk.steady).length < rl.maxRequests) := by
  rw [allowRequest]
  split_ifs with h
  · exact (decide_eq_false (not_lt.mpr h)).symm
  · exact (decide_eq_true (not_le.mp h)).symm

@[simp]
theorem allowRequest_windowSeconds :
    (rl.allowRequest clk k).1.windowSeconds = rl.windowSeconds := by
  rw [allowRequest]
  split_ifs <;> rfl

@[simp]
theorem allowRequest_maxRequests : (rl.allowRequest clk k).1.maxRequests = rl.maxRequests := by
  rw [allowRequest]
  split_ifs <;> rfl

/-- The caller's queue after a call: the evicted queue and one record with the answer. -/
theorem map_mark_queue_allowRequest :
    ((rl.allowRequest clk k).1.queue k).map mark =
      (rl.evictExpired (rl.queue k) clk.steady).map mark ++
        [(clk.steady, (rl.allowRequest clk k).2)] := by
  rw [allowRequest]
  split_ifs <;> simp [queue, mark, rejectedRecord, allowedRecord]

/-- A call leaves a record, whatever it decides. -/
theorem queue_allowRequest_ne_nil : (rl.allowRequest clk k).1.queue k ≠ [] := by
  rw [allowRequest]
  split_ifs <;> simp [queue]

/-- No other client's queue is touched. -/
theorem clientQueues_allowRequest_of_ne {k' : ByteString} (h : k ≠ k') :
    (rl.allowRequest clk k).1.clientQueues[k']? = rl.clientQueues[k']? := by
  rw [allowRequest]
  split_ifs <;> simp [Std.ExtTreeMap.getElem?_insert, h]

theorem queue_allowRequest_of_ne {k' : ByteString} (h : k ≠ k') :
    (rl.allowRequest clk k).1.queue k' = rl.queue k' := by
  rw [queue, queue, clientQueues_allowRequest_of_ne rl clk k h]

/-- Eviction seen through the marks. -/
theorem map_mark_evictExpired (q : List RequestRecord) (now : TimePoint) :
    (rl.evictExpired q now).map mark =
      evict Prod.fst (seconds rl.windowSeconds) now (q.map mark) :=
  SlidingWindow.map_evict Prod.fst (seconds rl.windowSeconds) mark now q

/-! ### The queue is the recent history -/

/-- The limiter after a run of calls on a fresh one. -/
def afterOps (windowSeconds maxRequests : ℤ) (ops : List Op) : RateLimiter :=
  machine.run (init windowSeconds maxRequests) ops

/-- The history of client `k` in a run of calls on a fresh limiter. -/
def history (windowSeconds maxRequests : ℤ) (ops : List Op) (k : ByteString) :
    List (TimePoint × Bool) :=
  callsOf k (machine.trace (init windowSeconds maxRequests) ops)

variable {W M : ℤ} {ops : List Op} {k}

theorem afterOps_concat (op : Op) :
    afterOps W M (ops ++ [op]) = machine.next (afterOps W M ops) op :=
  machine.run_concat _ ops op

theorem history_concat (op : Op) : history W M (ops ++ [op]) k =
    extend k (history W M ops k) (op, machine.answer (afterOps W M ops) op) := by
  rw [history, machine.trace_concat, callsOf, List.foldl_append]
  rfl

/-- A call adds itself to its own client's history, with the decision taken. -/
theorem history_allowRequest (clk : Clock) (k' : ByteString) :
    history W M (ops ++ [.allowRequest clk k']) k =
      if k' = k then
        history W M ops k ++ [(clk.steady, ((afterOps W M ops).allowRequest clk k').2)]
      else history W M ops k :=
  history_concat _

theorem history_reset : history W M (ops ++ [.reset]) k = [] := history_concat _

theorem arrivals_concat (op : Op) : arrivals k (ops ++ [op]) = match op with
    | .allowRequest clk k' => if k' = k then arrivals k ops ++ [clk.steady] else arrivals k ops
    | .reset => [] := by
  rw [arrivals, List.foldl_append]
  rfl

/-- A history tells the answers apart; its times are the arrivals. -/
theorem map_fst_history : (history W M ops k).map Prod.fst = arrivals k ops := by
  induction ops using List.reverseRecOn with
  | nil => rfl
  | append_singleton ops op ih =>
    rw [arrivals_concat]
    cases op with
    | allowRequest clk k' =>
      rw [history_allowRequest]
      dsimp only
      split_ifs
      · rw [List.map_append, ih]
        rfl
      · exact ih
    | reset =>
      rw [history_reset]
      rfl

/-- The window of a history, counted on the times alone. -/
theorem length_recent_history (now : TimePoint) :
    (recent Prod.fst (seconds W) now (history W M ops k)).length =
      (recent id (seconds W) now (arrivals k ops)).length := by
  rw [← map_fst_history (W := W) (M := M), ← SlidingWindow.map_recent, List.length_map]
  rfl

theorem afterOps_allowRequest (clk : Clock) (k' : ByteString) :
    afterOps W M (ops ++ [.allowRequest clk k']) = ((afterOps W M ops).allowRequest clk k').1 :=
  afterOps_concat _

theorem queue_reset : (afterOps W M (ops ++ [.reset])).queue k = [] := by
  rw [afterOps_concat]
  simp [Machine.next, machine, reset, queue]

@[simp]
theorem afterOps_windowSeconds : (afterOps W M ops).windowSeconds = W := by
  refine machine.run_invariant_of_forall (I := fun rl => rl.windowSeconds = W)
    (P := fun _ => True) ?_ rfl fun _ _ => trivial
  rintro rl (⟨clk, k⟩ | _) h -
  · exact (allowRequest_windowSeconds rl clk k).trans h
  · exact h

@[simp]
theorem afterOps_maxRequests : (afterOps W M ops).maxRequests = M := by
  refine machine.run_invariant_of_forall (I := fun rl => rl.maxRequests = M)
    (P := fun _ => True) ?_ rfl fun _ _ => trivial
  rintro rl (⟨clk, k⟩ | _) h -
  · exact (allowRequest_maxRequests rl clk k).trans h
  · exact h

/-- The calls of a history were made at readings of the run. -/
theorem fst_mem_times_of_mem_history {c : TimePoint × Bool} (hc : c ∈ history W M ops k) :
    c.1 ∈ ops.flatMap Op.times := by
  induction ops using List.reverseRecOn with
  | nil => exact absurd hc List.not_mem_nil
  | append_singleton ops op ih =>
    rw [List.flatMap_append, List.mem_append]
    cases op with
    | allowRequest clk k' =>
      rw [history_allowRequest] at hc
      split_ifs at hc
      · rcases List.mem_append.mp hc with hc | hc
        · exact .inl (ih hc)
        · exact .inr (by rw [List.mem_singleton.mp hc]; simp [Op.times])
      · exact .inl (ih hc)
    | reset =>
      rw [history_reset] at hc
      exact absurd hc List.not_mem_nil

/-- A run of nondecreasing calls, its last call taken off: the rest is nondecreasing, and the
readings of the last call come after all earlier ones. -/
theorem Nondecreasing.of_concat {op : Op} (h : Nondecreasing (ops ++ [op])) :
    Nondecreasing ops ∧ ∀ t ∈ ops.flatMap Op.times, ∀ t' ∈ op.times, t ≤ t' := by
  rw [Nondecreasing, List.flatMap_append, List.pairwise_append] at h
  exact ⟨h.1, fun t ht t' ht' => h.2.2 t ht t' (by simpa using ht')⟩

/-- Histories of nondecreasing runs are in time order. -/
theorem chronological_history (h : Nondecreasing ops) :
    Chronological Prod.fst (history W M ops k) := by
  induction ops using List.reverseRecOn with
  | nil => exact List.Pairwise.nil
  | append_singleton ops op ih =>
    obtain ⟨hops, hlast⟩ := h.of_concat
    cases op with
    | allowRequest clk k' =>
      rw [history_allowRequest]
      split_ifs
      · refine List.pairwise_append.mpr ⟨ih hops, List.pairwise_singleton _ _, ?_⟩
        intro c hc d hd
        rw [List.mem_singleton.mp hd]
        exact hlast _ (fst_mem_times_of_mem_history hc) _ (List.mem_singleton_self _)
      · exact ih hops
    | reset =>
      rw [history_reset]
      exact List.Pairwise.nil

/-- **The queue is what was recent at the last call.** After a nondecreasing run, a client's
queue holds its last call, and of the calls before it those that lay in the window then. -/
theorem map_mark_queue (h : Nondecreasing ops) :
    ((afterOps W M ops).queue k).map mark = kept Prod.fst (seconds W) (history W M ops k) := by
  induction ops using List.reverseRecOn with
  | nil => simp [afterOps, init, queue, history, callsOf]
  | append_singleton ops op ih =>
    obtain ⟨hops, hlast⟩ := h.of_concat
    cases op with
    | allowRequest clk k' =>
      rw [history_allowRequest, afterOps_allowRequest]
      split_ifs with hk
      · subst hk
        have hsorted := chronological_history (W := W) (M := M) (k := k') hops
        have hbefore : ∀ c ∈ history W M ops k', c.1 ≤ clk.steady := fun c hc =>
          hlast c.1 (fst_mem_times_of_mem_history hc) clk.steady (List.mem_singleton_self _)
        rw [map_mark_queue_allowRequest, map_mark_evictExpired, afterOps_windowSeconds, ih hops,
          SlidingWindow.evict_kept hsorted hbefore, SlidingWindow.kept_concat]
      · rw [queue_allowRequest_of_ne _ _ _ hk]
        exact ih hops
    | reset =>
      rw [history_reset, queue_reset]
      rfl

/-- **The queue answers for the whole history.** At any time after a nondecreasing run, what
eviction leaves of a client's queue is the part of the client's history that lies in the
window. -/
theorem evictExpired_queue (h : Nondecreasing ops) {now : TimePoint}
    (hnow : ∀ t ∈ ops.flatMap Op.times, t ≤ now) :
    ((afterOps W M ops).evictExpired ((afterOps W M ops).queue k) now).map mark =
      recent Prod.fst (seconds W) now (history W M ops k) := by
  have hpast : ∀ c ∈ history W M ops k, c.1 ≤ now := fun c hc =>
    hnow c.1 (fst_mem_times_of_mem_history hc)
  rw [map_mark_evictExpired, afterOps_windowSeconds, map_mark_queue h,
    SlidingWindow.evict_kept (chronological_history h) hpast]

/-- The records a call counts are the calls of the client's history in the window. -/
theorem length_evictExpired_queue (h : Nondecreasing ops) {now : TimePoint}
    (hnow : ∀ t ∈ ops.flatMap Op.times, t ≤ now) :
    ((afterOps W M ops).evictExpired ((afterOps W M ops).queue k) now).length =
      (recent Prod.fst (seconds W) now (history W M ops k)).length := by
  rw [← evictExpired_queue h hnow, List.length_map]

end RateLimiter

end SessionAffinity
