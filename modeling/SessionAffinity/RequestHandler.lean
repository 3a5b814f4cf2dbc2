import SessionAffinity.Common

/-!
# Backend servers

The request handler of `request_handler.cpp`: an online flag, a count of the requests it
processed and, per session key, the data it keeps for the tuple. Counters are natural
numbers, where the source has `int`. A reply is kept as data, and `Reply.text` is the string
the source builds from it.
-/

namespace SessionAffinity

open Std (ExtTreeMap)
open ByteString (decimal signedDecimal)

/-- Per-tuple data stored on a backend. -/
structure SessionData where
  tupleKey : ByteString
  requestCount : ℕ
  lastRequestTime : ByteString
  metadata : ByteString

/-- The reply of a backend to a request. -/
inductive Reply
  | offline (serverId : ℤ)
  | processed (serverId : ℤ) (requestCount : ℕ)
  deriving DecidableEq

/-- The response string of a backend. -/
def Reply.text : Reply → ByteString
  | offline serverId => bytes "ERROR: Server " ++ signedDecimal serverId ++ bytes " is offline"
  | processed serverId requestCount =>
    bytes "SUCCESS: Processed by backend " ++ signedDecimal serverId ++ bytes " (request #" ++
      decimal requestCount ++ bytes " for this session)"

/-- A backend server. -/
structure RequestHandler where
  id : ℤ
  online : Bool
  totalRequests : ℕ
  localData : ExtTreeMap ByteString SessionData

namespace RequestHandler

/-- A backend starts online, with no data. -/
def init (id : ℤ) : RequestHandler := ⟨id, true, 0, ∅⟩

/-- `start`. -/
def start (b : RequestHandler) : RequestHandler := { b with online := true }

/-- `stop`. -/
def stop (b : RequestHandler) : RequestHandler := { b with online := false }

/-- The requests counted for a key; `operator[]` starts a new key at zero. -/
def requestCount (b : RequestHandler) (key : ByteString) : ℕ :=
  (b.localData[key]?.map SessionData.requestCount).getD 0

/-- `processRequest`, at the wall-clock time `timestamp`. -/
def processRequest (b : RequestHandler) (timestamp : ByteString) (ft : FiveTuple) :
    RequestHandler × Reply :=
  if !b.online then (b, .offline b.id)
  else
    let key := ft.toKey
    let count := b.requestCount key + 1
    ({ b with
        totalRequests := b.totalRequests + 1
        localData := b.localData.insert key
          ⟨key, count, timestamp, bytes "Processed by backend " ++ signedDecimal b.id⟩ },
      .processed b.id count)

variable (b : RequestHandler) (timestamp : ByteString) (ft : FiveTuple)

@[simp]
theorem processRequest_id : (b.processRequest timestamp ft).1.id = b.id := by
  rw [processRequest]
  split_ifs <;> rfl

@[simp]
theorem processRequest_online : (b.processRequest timestamp ft).1.online = b.online := by
  rw [processRequest]
  split_ifs <;> rfl

variable {b} in
/-- An online backend processes the request. -/
theorem processRequest_of_online (h : b.online = true) :
    (b.processRequest timestamp ft).2 = .processed b.id (b.requestCount ft.toKey + 1) := by
  simp [processRequest, h]

variable {b} in
theorem totalRequests_processRequest (h : b.online = true) :
    (b.processRequest timestamp ft).1.totalRequests = b.totalRequests + 1 := by
  simp [processRequest, h]

variable {b} in
/-- Processing counts the request under its key. -/
theorem requestCount_processRequest (h : b.online = true) (k : ByteString) :
    (b.processRequest timestamp ft).1.requestCount k =
      b.requestCount k + if k = ft.toKey then 1 else 0 := by
  have hdata : (b.processRequest timestamp ft).1.localData = b.localData.insert ft.toKey
      ⟨ft.toKey, b.requestCount ft.toKey + 1, timestamp,
        bytes "Processed by backend " ++ signedDecimal b.id⟩ := by
    simp [processRequest, h]
  by_cases hk : k = ft.toKey
  · rw [requestCount, hdata, hk, ExtTreeMap.getElem?_insert_self, if_pos rfl]
    rfl
  · have hne : ft.toKey ≠ k := fun h => hk h.symm
    rw [requestCount, hdata, ExtTreeMap.getElem?_insert, if_neg (by simpa using hne), if_neg hk,
      requestCount, Nat.add_zero]

/-- Processing leaves the data of other tuples alone. -/
theorem localData_processRequest_of_ne {k : ByteString} (hk : ft.toKey ≠ k) :
    (b.processRequest timestamp ft).1.localData[k]? = b.localData[k]? := by
  rw [processRequest]
  split_ifs
  · rfl
  · simp [ExtTreeMap.getElem?_insert, hk]

/-- The data stored under a key says so. -/
def Keyed : Prop :=
  ∀ (key : ByteString) (data : SessionData), b.localData[key]? = some data → data.tupleKey = key

theorem keyed_init (id : ℤ) : (init id).Keyed := by
  intro key data h
  simp [init] at h

variable {b} in
protected theorem Keyed.processRequest (h : b.Keyed) :
    (b.processRequest timestamp ft).1.Keyed := by
  intro key data hdata
  rw [RequestHandler.processRequest] at hdata
  split_ifs at hdata with hon
  · exact h key data hdata
  · rw [ExtTreeMap.getElem?_insert] at hdata
    split_ifs at hdata with hk
    · rw [← Option.some.inj hdata]
      exact Std.LawfulEqCmp.eq_of_compare hk
    · exact h key data hdata

end RequestHandler

end SessionAffinity
