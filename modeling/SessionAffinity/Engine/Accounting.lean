import SessionAffinity.Engine.Invariants
import SessionAffinity.Foundations.MapSum

/-!
# Accounting of requests

Every backend counts the requests it processes, in total and by session key. `exactly_once`
says that the books agree with the answers given, in every reachable engine, crashes included:
a request that is answered `SUCCESS` was counted once, under its key, by one backend, which is
online, on the ring and on record for the session; a request that is answered otherwise was not
counted; and over a run the totals are the sums of the counts by key, and add up to the number
of successes. Counts by key stay behind on the old backends when a session moves.

All of it follows from `request_outcome`, which sums up what the exits of the pipeline leave.
-/

namespace SessionAffinity

open OrderedMap (sumOver sumOver_insert)

/-- The response reports that a backend has processed the request. -/
def Response.isSuccess : Response → Bool
  | served _ _ (.processed _ _) => true
  | _ => false

/-- Successes are told from errors by how the response begins. -/
theorem Response.isSuccess_eq_isPrefixOf (cfg : Config) (r : Response) :
    r.isSuccess = (bytes "SUCCESS").isPrefixOf (r.text cfg) := by
  rcases r with _ | _ | _ | _ | _ | _ | _ | _ | ⟨status, assigned, _ | _⟩ <;> rfl

namespace RequestHandler

/-- The total of a backend is the sum of its counts by key. -/
def Balanced (b : RequestHandler) : Prop :=
  b.totalRequests = sumOver SessionData.requestCount b.localData

protected theorem Balanced.processRequest {b : RequestHandler} (h : b.Balanced)
    (timestamp : ByteString) (ft : FiveTuple) : (b.processRequest timestamp ft).1.Balanced := by
  rw [RequestHandler.processRequest]
  split_ifs
  · exact h
  · have hsum := sumOver_insert (m := b.localData) (k := ft.toKey) SessionData.requestCount
      ⟨ft.toKey, b.requestCount ft.toKey + 1, timestamp,
        bytes "Processed by backend " ++ ByteString.signedDecimal b.id⟩
    rw [← requestCount] at hsum
    rw [Balanced] at h ⊢
    dsimp only at hsum ⊢
    omega

end RequestHandler

namespace Engine

variable {hashKey : ByteString → UInt64} {cfg : Config}

/-- The total of the backend `s`. -/
def totalRequests (e : Engine hashKey) (s : ℤ) : ℕ :=
  ((e.backend? s).map RequestHandler.totalRequests).getD 0

/-- The count of the backend `s` for a session key. -/
def requestCount (e : Engine hashKey) (s : ℤ) (key : ByteString) : ℕ :=
  ((e.backend? s).map fun b => b.requestCount key).getD 0

/-- From `e` to `e'`, the backend `s` counts one request for `key`, and nothing else is
counted. -/
structure CountedOnce (e e' : Engine hashKey) (s : ℤ) (key : ByteString) : Prop where
  total : ∀ t, e'.totalRequests t = e.totalRequests t + if t = s then 1 else 0
  count : ∀ t k, e'.requestCount t k = e.requestCount t k + if t = s ∧ k = key then 1 else 0

/-- The request went to the backend `s`, which is `b` in `e`, and left `e'`. -/
structure ProcessedBy (e e' : Engine hashKey) (rd : Readings) (ft : FiveTuple) (s : ℤ)
    (b : RequestHandler) : Prop where
  found : e.backend? s = some b
  online : b.online = true
  backends : e'.backends =
    (e.modifyBackend s fun b => (b.processRequest rd.timestamp ft).1).backends
  active : s ∈ e'.ring.activeServers
  recorded : ∃ entry, e'.sessions.sessions[ft.toKey]? = some entry ∧ entry.backendId = s

/-! ### One request -/

/-- No success is reported before a request is routed. -/
theorem isSuccess_of_precheck {e : Engine hashKey} {role : LBRole} {rd : Readings}
    {ft : FiveTuple} {payload : ByteString} {response : Response}
    (h : (e.precheck cfg role rd ft payload).2 = some response) : response.isSuccess = false := by
  rcases refusal_of_precheck h with ⟨_, rfl⟩ | ⟨_, rfl⟩ | ⟨_, rfl⟩ <;> rfl

section Request

variable {e : Engine hashKey} (hs : e.ring.Sound) (rd : Readings) (ft : FiveTuple)
include hs

/-- **What forwarding leaves**: the backends as they were, or the request processed by one. -/
theorem Forwarded.outcome {status : RequestStatus} {assigned : ℤ} {r : Engine hashKey × Response}
    (h : Forwarded e rd ft status assigned r) (hactive : assigned ∈ e.ring.activeServers)
    (hrecorded : ∃ entry, e.sessions.sessions[ft.toKey]? = some entry ∧
      entry.backendId = assigned) :
    (r.2.isSuccess = false ∧ r.1.backends = e.backends) ∨
    r.2.isSuccess = true ∧ ∃ s b, ProcessedBy e r.1 rd ft s b := by
  cases h with
  | invalid => exact .inl ⟨rfl, rfl⟩
  | direct hr hb hon =>
    refine .inr ⟨?_, assigned, _, hb, hon, rfl, hactive, hrecorded⟩
    rw [process_snd _ _ hon]
    rfl
  | lost hr hoff hf => exact .inl ⟨rfl, (routed_failover hf).1⟩
  | unavailable hr hoff hf => exact .inl ⟨rfl, (routed_failover hf).1⟩
  | @moved hr hoff e' status' assigned' b hf hne hb hon =>
    obtain ⟨hback, hring, hrouted⟩ := routed_failover hf
    have hb' : e.backend? assigned' = some b := by rwa [backend?, ← hback]
    have hon' : e.isOnline assigned' = true := isOnline_eq_true_iff.mpr ⟨b, hb', hon⟩
    have hdown : status' ≠ .serverDown := fun h => hne (.inl h)
    -- a refusal would leave the request with the backend that is offline
    have hblocked : status' ≠ .sessionBlocked := fun hb => by
      have hsame : assigned' = assigned := hrouted.assigned_eq hb
      exact absurd (hoff.symm.trans (hsame ▸ hon')) (by simp)
    obtain ⟨entry, hentry, -, hid⟩ := hrouted.exists_entry hblocked hdown
    have hmem := hrouted.mem_activeServers (hs.removeServer assigned) hblocked hdown
    refine .inr ⟨?_, assigned', b, hb', hon, ?_, ?_, entry, hentry, hid⟩
    · rw [process_snd _ _ hon]
      rfl
    · exact congrArg (List.modify · _ _) hback
    · show assigned' ∈ e'.ring.activeServers
      rw [hring]
      exact hmem

variable (cfg : Config) (role : LBRole) (payload : ByteString)

/-- **What a request leaves**: the backends as they were and no success, or the request
processed by one backend and a success. -/
theorem request_outcome :
    ((e.handleRequest cfg role rd ft payload).2.isSuccess = false ∧
      (e.handleRequest cfg role rd ft payload).1.backends = e.backends) ∨
    (e.handleRequest cfg role rd ft payload).2.isSuccess = true ∧
      ∃ s b, ProcessedBy e (e.handleRequest cfg role rd ft payload).1 rd ft s b := by
  obtain ⟨security, limiter, ⟨response, hpass, hreq⟩ | ⟨-, hreq⟩⟩ :=
    e.handleRequest_cases cfg role rd ft payload
  · rw [hreq]
    exact .inl ⟨isSuccess_of_precheck hpass, rfl⟩
  · rw [hreq]
    have h := dispatched_dispatch { e with security, limiter } rd ft
    have hrouted := e.sessions.routed_routeRequest e.ring rd.route ft (-1)
    dsimp only at h ⊢
    generalize e.sessions.routeRequest e.ring rd.route ft (-1) = routed at h hrouted
    generalize dispatch { e with security, limiter } rd ft = r at h ⊢
    cases h with
    | blocked | serverDown => exact .inl ⟨rfl, rfl⟩
    | forwarded hb hd hf =>
      obtain ⟨entry, hentry, -, hid⟩ := hrouted.exists_entry hb hd
      have hactive := hrouted.mem_activeServers hs hb hd
      rcases Forwarded.outcome (e := { e with security, limiter, sessions := routed.1 }) hs rd ft
        hf hactive ⟨entry, hentry, hid⟩ with
        h | ⟨hsucc, s, b, hfound, hon, hback, hmem, hrecorded⟩
      · exact .inl h
      · exact .inr ⟨hsucc, s, b, hfound, hon, hback, hmem, hrecorded⟩

end Request

/-! ### Counters -/

theorem nonneg_of_backend? {e : Engine hashKey} {s : ℤ} {b : RequestHandler}
    (h : e.backend? s = some b) : 0 ≤ s := by
  rw [backend?] at h
  split_ifs at h with hs
  exact hs

/-- A processed request is counted once. -/
theorem ProcessedBy.countedOnce {e e' : Engine hashKey} {rd : Readings} {ft : FiveTuple} {s : ℤ}
    {b : RequestHandler} (h : ProcessedBy e e' rd ft s b) : CountedOnce e e' s ft.toKey := by
  have hback (t : ℤ) : e'.backend? t =
      if t = s then some (b.processRequest rd.timestamp ft).1 else e.backend? t := by
    have hmodify := backend?_modifyBackend (e := e) (nonneg_of_backend? h.found)
      (fun b => (b.processRequest rd.timestamp ft).1) t
    rw [backend?, h.backends]
    rw [backend?] at hmodify
    rw [hmodify]
    by_cases ht : t = s
    · rw [if_pos ht, if_pos ht, ht, h.found]
      rfl
    · rw [if_neg ht, if_neg ht]
  constructor
  · intro t
    by_cases ht : t = s
    · rw [totalRequests, totalRequests, hback, if_pos ht, if_pos ht, ht, h.found]
      exact RequestHandler.totalRequests_processRequest _ _ h.online
    · rw [totalRequests, totalRequests, hback, if_neg ht, if_neg ht, Nat.add_zero]
  · intro t k
    by_cases ht : t = s
    · rw [requestCount, requestCount, hback, if_pos ht, ht, h.found]
      simpa using RequestHandler.requestCount_processRequest rd.timestamp ft h.online k
    · rw [requestCount, requestCount, hback, if_neg ht, if_neg (fun h => ht h.1), Nat.add_zero]

theorem ProcessedBy.isOnline {e e' : Engine hashKey} {rd : Readings} {ft : FiveTuple} {s : ℤ}
    {b : RequestHandler} (h : ProcessedBy e e' rd ft s b) : e'.isOnline s = true := by
  have hflags : e'.flags = e.flags := by
    rw [flags, h.backends]
    exact map_modifyBackend fun b => by simp
  rw [isOnline_congr hflags]
  exact isOnline_eq_true_iff.mpr ⟨b, h.found, h.online⟩

/-- Changing one element changes the sum by what the element gains. -/
private theorem sum_map_modify {α : Type*} {g : α → ℕ} {f : α → α} {l : List α} {i : ℕ} {a : α}
    (ha : l[i]? = some a) {n : ℕ} (hf : g (f a) = g a + n) :
    ((l.modify i f).map g).sum = (l.map g).sum + n := by
  induction l generalizing i with
  | nil => simp at ha
  | cons b l ih =>
    cases i with
    | zero =>
      obtain rfl : b = a := by simpa using ha
      simp only [List.modify_zero_cons, List.map_cons, List.sum_cons, hf]
      omega
    | succ i =>
      have htail := ih (i := i) (by simpa using ha)
      simp only [List.modify_succ_cons, List.map_cons, List.sum_cons, htail]
      omega

/-! ### Whole runs -/

/-- The call was a request, and it was answered `SUCCESS`. -/
def Answer.isSuccess : Answer → Bool
  | response r => r.isSuccess
  | _ => false

/-- The totals grow by one with every success. -/
theorem sum_totalRequests_next {e : Engine hashKey} (hs : e.ring.Sound) (op : Op) :
    (((machine hashKey cfg).next e op).backends.map RequestHandler.totalRequests).sum =
      (e.backends.map RequestHandler.totalRequests).sum +
        if ((machine hashKey cfg).answer e op).isSuccess then 1 else 0 := by
  cases op with
  | request role rd ft payload =>
    show ((e.handleRequest cfg role rd ft payload).1.backends.map _).sum = _ +
      if (e.handleRequest cfg role rd ft payload).2.isSuccess then 1 else 0
    rcases request_outcome hs rd ft cfg role payload with ⟨hfail, hback⟩ | ⟨hsucc, s, b, h⟩
    · rw [hfail, hback]
      rfl
    · rw [hsucc, h.backends, modifyBackend]
      have hfound := h.found
      rw [backend?, if_pos (nonneg_of_backend? h.found)] at hfound
      exact sum_map_modify hfound (RequestHandler.totalRequests_processRequest _ _ h.online)
  | setActive role active => cases role <;> rfl
  | takeBackendOffline clk serverId =>
    show ((e.takeBackendOffline clk serverId).backends.map _).sum = _ + 0
    rw [takeBackendOffline]
    split_ifs
    · exact congrArg List.sum (map_modifyBackend fun _ => rfl)
    · rfl
  | bringBackendOnline serverId =>
    show ((e.bringBackendOnline serverId).backends.map _).sum = _ + 0
    rw [bringBackendOnline]
    split_ifs
    · exact congrArg List.sum (map_modifyBackend fun _ => rfl)
    · rfl
  | crash serverId =>
    show ((if e.InRange serverId then e.modifyBackend serverId .stop else e).backends.map _).sum =
      _ + 0
    split_ifs
    · exact congrArg List.sum (map_modifyBackend fun _ => rfl)
    · rfl
  | cleanupExpired | forceReassign | blockSession | setSessionExpiry => rfl

/-- **The totals add up to the successes.** -/
theorem sum_totalRequests_afterOps (ops : List Op) :
    ((afterOps hashKey cfg ops).backends.map RequestHandler.totalRequests).sum =
      ((machine hashKey cfg).trace (init hashKey cfg) ops).countP fun c => c.2.isSuccess := by
  induction ops using List.reverseRecOn with
  | nil =>
    simp [afterOps, init, RequestHandler.init, Function.comp_def]
  | append_singleton ops op ih =>
    rw [afterOps_concat, sum_totalRequests_next (sound_afterOps ops), ih, Machine.trace_concat,
      List.countP_append, List.countP_singleton]
    rfl

/-- **Every backend is balanced.** -/
theorem balanced_afterOps (ops : List Op) :
    ∀ b ∈ (afterOps hashKey cfg ops).backends, b.Balanced := by
  refine (machine hashKey cfg).run_invariant_of_forall
    (I := fun e => ∀ b ∈ e.backends, b.Balanced) (P := fun _ => True) (fun e op h _ => ?_) ?_
    fun _ _ => trivial
  · refine forall_backends_next h (fun f hf b hb => ?_) op
    cases hf with
    | process timestamp ft => exact hb.processRequest timestamp ft
    | start | stop => exact hb
  · intro b hb
    obtain ⟨i, -, rfl⟩ := List.mem_map.mp hb
    exact (OrderedMap.sumOver_empty SessionData.requestCount).symm

/-- **Exactly-once processing.** In every reachable engine, crashes included, and for every
request: if the response is a success, then one backend has counted the request, in total and
under its key, nothing else has been counted, and that backend is online, on the ring and on
record for the session; if it is an error, nothing has been counted. So the total of each
backend is the sum of its counts by key, and all totals add up to the successes of the run. -/
theorem exactly_once (hashKey : ByteString → UInt64) (cfg : Config) (ops : List Op) :
    (∀ (role : LBRole) (rd : Readings) (ft : FiveTuple) (payload : ByteString)
      (e' : Engine hashKey) (response : Response),
      (afterOps hashKey cfg ops).handleRequest cfg role rd ft payload = (e', response) →
      (response.isSuccess = true → ∃ s,
        CountedOnce (afterOps hashKey cfg ops) e' s ft.toKey ∧
        e'.isOnline s = true ∧ s ∈ e'.ring.getActiveServers ∧
        ∃ entry, e'.sessions.sessions[ft.toKey]? = some entry ∧ entry.backendId = s) ∧
      (response.isSuccess = false → ∀ s,
        e'.totalRequests s = (afterOps hashKey cfg ops).totalRequests s ∧
        ∀ k, e'.requestCount s k = (afterOps hashKey cfg ops).requestCount s k)) ∧
    (∀ b ∈ (afterOps hashKey cfg ops).backends,
      b.totalRequests = sumOver SessionData.requestCount b.localData) ∧
    ((afterOps hashKey cfg ops).backends.map RequestHandler.totalRequests).sum =
      ((machine hashKey cfg).trace (init hashKey cfg) ops).countP fun c => c.2.isSuccess := by
  refine ⟨fun role rd ft payload e' response hreq => ?_, balanced_afterOps ops,
    sum_totalRequests_afterOps ops⟩
  have houtcome := request_outcome (e := afterOps hashKey cfg ops) (sound_afterOps ops) rd ft cfg
    role payload
  rw [hreq] at houtcome
  rcases houtcome with ⟨hfail, hback⟩ | ⟨hsucc, s, b, h⟩
  · refine ⟨fun h => absurd (hfail.symm.trans h) (by simp), fun _ s => ?_⟩
    have hsame (t : ℤ) : e'.backend? t = (afterOps hashKey cfg ops).backend? t := by
      rw [backend?, backend?, ← hback]
    simp only [totalRequests, requestCount, hsame, implies_true, and_self]
  · refine ⟨fun _ => ⟨s, h.countedOnce, h.isOnline, h.active, h.recorded⟩, fun h => ?_⟩
    exact absurd (hsucc.symm.trans h) (by simp)

end Engine

end SessionAffinity
