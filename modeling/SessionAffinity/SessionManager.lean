import SessionAffinity.ConsistentHash

/-!
# The session manager

The session table of `session_manager.cpp`: sticky routing with lazy expiry, failover to the
ring's choice when the assigned backend has left the active list, the admin operations, and
the sweep `handleServerDown` that follows a removal from the ring. The ring is passed to the
calls that consult it, as the source holds a reference to a ring it does not own.

`routeRequest` takes its out-parameter `assigned_backend` and returns its new value; its
outcomes are the constructors of `Routed`. The other operations come with what they do to one
entry of the table (`sessions_…`, `…_cases`), which is all that later proofs use of them.
-/

namespace SessionAffinity

open Std (ExtTreeMap)
open ByteString (signedDecimal)

/-- A session of the table. -/
structure SessionEntry where
  tuple : FiveTuple
  backendId : ℤ
  blocked : Bool
  /-- Timeout override in seconds; negative for the default. -/
  customTimeout : ℤ
  createdAt : TimePoint
  lastAccess : TimePoint
  pathHistory : List PathHistoryEntry
  deriving DecidableEq

/-- Assign a new backend to an entry and log the path change. -/
def SessionEntry.reassign (entry : SessionEntry) (clk : Clock) (backend : ℤ)
    (reason : ByteString) : SessionEntry :=
  { entry with
    backendId := backend
    lastAccess := clk.steady
    pathHistory := entry.pathHistory ++ [⟨backend, clk.wall, reason⟩] }

/-- The session table with its default timeout. -/
structure SessionManager where
  defaultTimeoutSec : ℤ
  sessions : ExtTreeMap ByteString SessionEntry

namespace SessionManager

variable {hashKey : ByteString → UInt64}

/-- An empty table. -/
def init (defaultTimeoutSec : ℤ) : SessionManager := ⟨defaultTimeoutSec, ∅⟩

/-- Write an entry of the table. -/
def put (sm : SessionManager) (key : ByteString) (entry : SessionEntry) : SessionManager :=
  { sm with sessions := sm.sessions.insert key entry }

/-- Erase an entry of the table. -/
def drop (sm : SessionManager) (key : ByteString) : SessionManager :=
  { sm with sessions := sm.sessions.erase key }

/-- The timeout that applies to an entry, in seconds. -/
def effectiveTimeout (sm : SessionManager) (entry : SessionEntry) : ℤ :=
  if entry.customTimeout ≥ 0 then entry.customTimeout else sm.defaultTimeoutSec

/-- `isExpired`: idle for longer than the timeout. -/
def isExpired (sm : SessionManager) (now : TimePoint) (entry : SessionEntry) : Bool :=
  decide (now - entry.lastAccess > seconds (sm.effectiveTimeout entry))

/-- The entry `routeRequest` makes for a new session. -/
def newEntry (ft : FiveTuple) (clk : Clock) (backend : ℤ) : SessionEntry where
  tuple := ft
  backendId := backend
  blocked := false
  customTimeout := -1
  createdAt := clk.steady
  lastAccess := clk.steady
  pathHistory := [⟨backend, clk.wall, bytes "Initial assignment"⟩]

/-- Case 2 of `routeRequest`: create the session with the ring's choice. -/
def createSession (sm : SessionManager) (ring : ConsistentHashRing hashKey) (clk : Clock)
    (ft : FiveTuple) (assigned : ℤ) : SessionManager × RequestStatus × ℤ :=
  let backend := ring.getServer ft.toKey
  if backend < 0 then (sm, .serverDown, assigned)
  else (sm.put ft.toKey (newEntry ft clk backend), .success, backend)

/-- `routeRequest`: the new table, the status and the value of `assigned_backend`. -/
def routeRequest (sm : SessionManager) (ring : ConsistentHashRing hashKey) (clk : Clock)
    (ft : FiveTuple) (assigned : ℤ) : SessionManager × RequestStatus × ℤ :=
  let key := ft.toKey
  match sm.sessions[key]? with
  | some entry =>
    if entry.blocked then (sm, .sessionBlocked, assigned)
    else if sm.isExpired clk.steady entry then
      -- fall through to a new session
      createSession (sm.drop key) ring clk ft assigned
    else if entry.backendId ∈ ring.getActiveServers then
      -- sticky
      (sm.put key { entry with lastAccess := clk.steady }, .success, entry.backendId)
    else
      -- failover: the backend is down
      let newBackend := ring.getServer key
      if newBackend < 0 then (sm, .serverDown, assigned)
      else
        (sm.put key (entry.reassign clk newBackend (bytes "Failover from backend " ++
            signedDecimal entry.backendId ++ bytes " (server down)")),
          .reassigned, newBackend)
  | none => createSession sm ring clk ft assigned

/-- The backend `forceReassign` picks: the ring's choice, or the first active server that is
not the old one when the ring would keep it. -/
def forcedBackend (ring : ConsistentHashRing hashKey) (key : ByteString) (oldBackend : ℤ) :
    Option ℤ :=
  let newBackend := ring.getServer key
  if newBackend < 0 then none
  else if newBackend = oldBackend then
    if ring.getActiveServers.length ≤ 1 then none
    else some ((ring.getActiveServers.find? (· ≠ oldBackend)).getD newBackend)
  else some newBackend

/-- `forceReassign`. -/
def forceReassign (sm : SessionManager) (ring : ConsistentHashRing hashKey) (clk : Clock)
    (key : ByteString) : SessionManager × Bool :=
  match sm.sessions[key]? with
  | none => (sm, false)
  | some entry =>
    match forcedBackend ring key entry.backendId with
    | none => (sm, false)
    | some newBackend =>
      (sm.put key (entry.reassign clk newBackend
        (bytes "Forced reassignment from backend " ++ signedDecimal entry.backendId)), true)

/-- `blockSession`. -/
def blockSession (sm : SessionManager) (key : ByteString) (block : Bool) : SessionManager × Bool :=
  match sm.sessions[key]? with
  | none => (sm, false)
  | some entry => (sm.put key { entry with blocked := block }, true)

/-- `setSessionExpiry`. -/
def setSessionExpiry (sm : SessionManager) (key : ByteString) (timeoutSec : ℤ) :
    SessionManager × Bool :=
  match sm.sessions[key]? with
  | none => (sm, false)
  | some entry => (sm.put key { entry with customTimeout := timeoutSec }, true)

/-- What `handleServerDown` does to one entry of the table. -/
def redistribute (sm : SessionManager) (ring : ConsistentHashRing hashKey) (clk : Clock)
    (serverId : ℤ) (key : ByteString) (entry : SessionEntry) : SessionEntry :=
  if entry.backendId = serverId ∧ sm.isExpired clk.steady entry = false then
    let newBackend := ring.getServer key
    if newBackend ≥ 0 ∧ newBackend ≠ serverId then
      entry.reassign clk newBackend
        (bytes "Server " ++ signedDecimal entry.backendId ++ bytes " went down — redistributed")
    else entry
  else entry

/-- `handleServerDown`: every unexpired session of the server moves to the ring's choice. The
entries are independent of each other, so the order of the loop does not matter. -/
def handleServerDown (sm : SessionManager) (ring : ConsistentHashRing hashKey) (clk : Clock)
    (serverId : ℤ) : SessionManager :=
  { sm with sessions := sm.sessions.map (sm.redistribute ring clk serverId) }

/-- `cleanupExpired`: drop the expired sessions and count them. -/
def cleanupExpired (sm : SessionManager) (clk : Clock) : SessionManager × ℕ :=
  ({ sm with sessions := sm.sessions.filter fun _ entry => !sm.isExpired clk.steady entry },
    (sm.sessions.filter fun _ entry => sm.isExpired clk.steady entry).size)

/-- `getPathHistory`. -/
def getPathHistory (sm : SessionManager) (key : ByteString) : List PathHistoryEntry :=
  match sm.sessions[key]? with
  | none => []
  | some entry => entry.pathHistory

/-- `getAllSessions`: the keys of the unexpired sessions with their backends. -/
def getAllSessions (sm : SessionManager) (clk : Clock) : List (ByteString × ℤ) :=
  (sm.sessions.toList.filter fun p => !sm.isExpired clk.steady p.2).map fun p =>
    (p.1, p.2.backendId)

/-- `activeSessionCount`. -/
def activeSessionCount (sm : SessionManager) (clk : Clock) : ℕ :=
  (sm.sessions.toList.filter fun p => !sm.isExpired clk.steady p.2).length

/-! ### Expiry -/

theorem effectiveTimeout_congr {sm sm' : SessionManager}
    (h : sm.defaultTimeoutSec = sm'.defaultTimeoutSec) (entry : SessionEntry) :
    sm.effectiveTimeout entry = sm'.effectiveTimeout entry := by
  rw [effectiveTimeout, effectiveTimeout, h]

theorem isExpired_congr {sm sm' : SessionManager}
    (h : sm.defaultTimeoutSec = sm'.defaultTimeoutSec) (now : TimePoint) (entry : SessionEntry) :
    sm.isExpired now entry = sm'.isExpired now entry := by
  rw [isExpired, isExpired, effectiveTimeout_congr h]

/-- What is expired stays expired. -/
theorem isExpired_mono {sm : SessionManager} {now now' : TimePoint} (h : now ≤ now')
    {entry : SessionEntry} (hx : sm.isExpired now entry = true) :
    sm.isExpired now' entry = true := by
  rw [isExpired, decide_eq_true_eq] at hx ⊢
  exact hx.trans_le (sub_le_sub_right h _)

theorem isExpired_eq_false_iff {sm : SessionManager} {now : TimePoint} {entry : SessionEntry} :
    sm.isExpired now entry = false ↔
      now ≤ entry.lastAccess + seconds (sm.effectiveTimeout entry) := by
  rw [isExpired, decide_eq_false_iff_not, not_lt, sub_le_iff_le_add']

/-! ### Entries after an operation -/

section Entries

variable (sm : SessionManager) (ring : ConsistentHashRing hashKey) (clk : Clock)
  (key : ByteString)

@[simp]
theorem put_defaultTimeoutSec (entry : SessionEntry) :
    (sm.put key entry).defaultTimeoutSec = sm.defaultTimeoutSec := rfl

@[simp]
theorem drop_defaultTimeoutSec : (sm.drop key).defaultTimeoutSec = sm.defaultTimeoutSec := rfl

@[simp]
theorem handleServerDown_defaultTimeoutSec (serverId : ℤ) :
    (sm.handleServerDown ring clk serverId).defaultTimeoutSec = sm.defaultTimeoutSec := rfl

@[simp]
theorem cleanupExpired_defaultTimeoutSec :
    (sm.cleanupExpired clk).1.defaultTimeoutSec = sm.defaultTimeoutSec := rfl

@[simp]
theorem sessions_put_self (entry : SessionEntry) :
    (sm.put key entry).sessions[key]? = some entry := by
  simp [put]

theorem sessions_put_of_ne {k : ByteString} (h : key ≠ k) (entry : SessionEntry) :
    (sm.put key entry).sessions[k]? = sm.sessions[k]? := by
  simp [put, ExtTreeMap.getElem?_insert, h]

@[simp]
theorem sessions_drop_self : (sm.drop key).sessions[key]? = none := by
  simp [drop]

theorem sessions_drop_of_ne {k : ByteString} (h : key ≠ k) :
    (sm.drop key).sessions[k]? = sm.sessions[k]? := by
  simp [drop, ExtTreeMap.getElem?_erase, h]

/-- The sweep moves a live entry of the server to another choice of the ring, and leaves
every other entry as it is. -/
theorem redistribute_cases (serverId : ℤ) (entry : SessionEntry) :
    sm.redistribute ring clk serverId key entry = entry ∨
    (entry.backendId = serverId ∧ sm.isExpired clk.steady entry = false ∧
      0 ≤ ring.getServer key ∧ ring.getServer key ≠ serverId ∧ ∃ reason,
        sm.redistribute ring clk serverId key entry =
          entry.reassign clk (ring.getServer key) reason) := by
  simp only [redistribute]
  split_ifs with hon hs
  · exact .inr ⟨hon.1, hon.2, hs.1, hs.2, _, rfl⟩
  · exact .inl rfl
  · exact .inl rfl

@[simp]
theorem redistribute_blocked (serverId : ℤ) (entry : SessionEntry) :
    (sm.redistribute ring clk serverId key entry).blocked = entry.blocked := by
  rcases sm.redistribute_cases ring clk key serverId entry with h | ⟨-, -, -, -, reason, h⟩ <;>
    rw [h]
  rfl

theorem redistribute_of_ne {serverId : ℤ} {entry : SessionEntry}
    (h : entry.backendId ≠ serverId) : sm.redistribute ring clk serverId key entry = entry :=
  if_neg fun hon => h hon.1

theorem redistribute_congr {sm sm' : SessionManager}
    (h : sm.defaultTimeoutSec = sm'.defaultTimeoutSec) (ring : ConsistentHashRing hashKey)
    (clk : Clock) (serverId : ℤ) (key : ByteString) :
    sm.redistribute ring clk serverId key = sm'.redistribute ring clk serverId key := by
  funext entry
  simp only [redistribute, isExpired_congr h]

theorem redistribute_of_neg {serverId : ℤ} {entry : SessionEntry} (h : ring.getServer key < 0) :
    sm.redistribute ring clk serverId key entry = entry := by
  simp [redistribute, h]

/-- The sweep moves a live entry of the server to another choice of the ring. -/
theorem redistribute_of_live {entry : SessionEntry}
    (hx : sm.isExpired clk.steady entry = false) (hs : 0 ≤ ring.getServer key)
    (hne : ring.getServer key ≠ entry.backendId) :
    sm.redistribute ring clk entry.backendId key entry =
      entry.reassign clk (ring.getServer key) (bytes "Server " ++
        signedDecimal entry.backendId ++ bytes " went down — redistributed") := by
  simp [redistribute, hx, hs, hne]

/-- The sweep rewrites every entry by itself. -/
theorem sessions_handleServerDown (serverId : ℤ) :
    (sm.handleServerDown ring clk serverId).sessions[key]? =
      sm.sessions[key]?.map (sm.redistribute ring clk serverId key) := by
  rw [handleServerDown, ExtTreeMap.getElem?_map]

/-- The cleanup keeps exactly the unexpired entries. -/
theorem sessions_cleanupExpired :
    (sm.cleanupExpired clk).1.sessions[key]? =
      sm.sessions[key]?.filter fun entry => !sm.isExpired clk.steady entry := by
  rw [cleanupExpired, ExtTreeMap.getElem?_filter']

/-- Dropping an absent entry changes nothing. -/
theorem drop_eq_self {sm : SessionManager} {key : ByteString} (h : sm.sessions[key]? = none) :
    sm.drop key = sm := by
  have hs : sm.sessions.erase key = sm.sessions := by
    refine ExtTreeMap.ext_getElem? fun k => ?_
    rw [ExtTreeMap.getElem?_erase]
    split_ifs with hk
    · rw [← Std.LawfulEqCmp.eq_of_compare hk, h]
    · rfl
  rw [drop, hs]

/-- Writing an entry after dropping it is writing it. -/
theorem drop_put (entry : SessionEntry) : (sm.drop key).put key entry = sm.put key entry := by
  have hs : (sm.sessions.erase key).insert key entry = sm.sessions.insert key entry := by
    refine ExtTreeMap.ext_getElem? fun k => ?_
    rw [ExtTreeMap.getElem?_insert, ExtTreeMap.getElem?_insert, ExtTreeMap.getElem?_erase]
    split_ifs <;> rfl
  rw [put, drop, put, hs]

end Entries

/-! ### Properties of all entries -/

/-- Every entry of the table has a property, which may speak of the key. -/
def Forall (P : ByteString → SessionEntry → Prop) (sm : SessionManager) : Prop :=
  ∀ (key : ByteString) (entry : SessionEntry), sm.sessions[key]? = some entry → P key entry

section Forall

variable {P : ByteString → SessionEntry → Prop} {sm : SessionManager}

theorem forall_init (defaultTimeoutSec : ℤ) : (init defaultTimeoutSec).Forall P := by
  intro key entry h
  simp [init] at h

theorem Forall.put (h : sm.Forall P) {key : ByteString} {entry : SessionEntry}
    (he : P key entry) : (sm.put key entry).Forall P := by
  intro k entry' h'
  rcases eq_or_ne key k with rfl | hk
  · rw [sessions_put_self] at h'
    exact Option.some.inj h' ▸ he
  · rw [sessions_put_of_ne sm key hk] at h'
    exact h k entry' h'

theorem Forall.drop (h : sm.Forall P) (key : ByteString) : (sm.drop key).Forall P := by
  intro k entry' h'
  rcases eq_or_ne key k with rfl | hk
  · rw [sessions_drop_self] at h'
    exact absurd h' (by simp)
  · rw [sessions_drop_of_ne sm key hk] at h'
    exact h k entry' h'

theorem Forall.handleServerDown (h : sm.Forall P) {ring : ConsistentHashRing hashKey} {clk : Clock}
    {serverId : ℤ} (hP : ∀ key entry, P key entry → ∀ backend reason,
      P key (entry.reassign clk backend reason)) :
    (sm.handleServerDown ring clk serverId).Forall P := by
  intro k entry' h'
  rw [sessions_handleServerDown, Option.map_eq_some_iff] at h'
  obtain ⟨entry, he, rfl⟩ := h'
  rcases sm.redistribute_cases ring clk k serverId entry with hr | ⟨-, -, -, -, reason, hr⟩ <;>
    rw [hr]
  · exact h k entry he
  · exact hP k entry (h k entry he) _ reason

theorem Forall.cleanupExpired (h : sm.Forall P) (clk : Clock) :
    (sm.cleanupExpired clk).1.Forall P := by
  intro k entry' h'
  rw [sessions_cleanupExpired, Option.filter_eq_some_iff] at h'
  exact h k entry' h'.1

end Forall

/-! ### What routing does -/

/-- **The outcomes of a routing call**, by what it finds under the key. -/
inductive Routed (sm : SessionManager) (ring : ConsistentHashRing hashKey) (clk : Clock)
    (ft : FiveTuple) (assigned : ℤ) : SessionManager × RequestStatus × ℤ → Prop
  /-- A blocked session is refused, before its expiry is looked at. -/
  | blocked {entry : SessionEntry} (he : sm.sessions[ft.toKey]? = some entry)
      (hb : entry.blocked = true) : Routed sm ring clk ft assigned (sm, .sessionBlocked, assigned)
  /-- A live session stays on its active backend. -/
  | sticky {entry : SessionEntry} (he : sm.sessions[ft.toKey]? = some entry)
      (hb : entry.blocked = false) (hx : sm.isExpired clk.steady entry = false)
      (ha : entry.backendId ∈ ring.activeServers) :
      Routed sm ring clk ft assigned
        (sm.put ft.toKey { entry with lastAccess := clk.steady }, .success, entry.backendId)
  /-- A live session on an inactive backend moves to the ring's choice. -/
  | failover {entry : SessionEntry} (he : sm.sessions[ft.toKey]? = some entry)
      (hb : entry.blocked = false) (hx : sm.isExpired clk.steady entry = false)
      (ha : entry.backendId ∉ ring.activeServers) (hs : 0 ≤ ring.getServer ft.toKey) :
      Routed sm ring clk ft assigned
        (sm.put ft.toKey (entry.reassign clk (ring.getServer ft.toKey)
          (bytes "Failover from backend " ++ signedDecimal entry.backendId ++
            bytes " (server down)")), .reassigned, ring.getServer ft.toKey)
  /-- A live session on an inactive backend waits while the ring has no choice. -/
  | stranded {entry : SessionEntry} (he : sm.sessions[ft.toKey]? = some entry)
      (hb : entry.blocked = false) (hx : sm.isExpired clk.steady entry = false)
      (ha : entry.backendId ∉ ring.activeServers) (hs : ring.getServer ft.toKey < 0) :
      Routed sm ring clk ft assigned (sm, .serverDown, assigned)
  /-- Without a live session, a new one is made with the ring's choice. -/
  | created (hx : ∀ entry, sm.sessions[ft.toKey]? = some entry →
        entry.blocked = false ∧ sm.isExpired clk.steady entry = true)
      (hs : 0 ≤ ring.getServer ft.toKey) :
      Routed sm ring clk ft assigned
        (sm.put ft.toKey (newEntry ft clk (ring.getServer ft.toKey)), .success,
          ring.getServer ft.toKey)
  /-- Without a live session, nothing is left under the key while the ring has no choice. -/
  | unplaced (hx : ∀ entry, sm.sessions[ft.toKey]? = some entry →
        entry.blocked = false ∧ sm.isExpired clk.steady entry = true)
      (hs : ring.getServer ft.toKey < 0) :
      Routed sm ring clk ft assigned (sm.drop ft.toKey, .serverDown, assigned)

section Routing

variable (sm : SessionManager) (ring : ConsistentHashRing hashKey) (clk : Clock) (ft : FiveTuple)
  (assigned : ℤ)

private theorem routed_createSession (hx : ∀ entry, sm.sessions[ft.toKey]? = some entry →
    entry.blocked = false ∧ sm.isExpired clk.steady entry = true) :
    Routed sm ring clk ft assigned ((sm.drop ft.toKey).createSession ring clk ft assigned) := by
  rw [createSession]
  by_cases hs : ring.getServer ft.toKey < 0
  · rw [if_pos hs]
    exact .unplaced hx hs
  · rw [if_neg hs, drop_put]
    exact .created hx (not_lt.mp hs)

/-- Every routing call has one of the outcomes. -/
theorem routed_routeRequest :
    Routed sm ring clk ft assigned (sm.routeRequest ring clk ft assigned) := by
  simp only [routeRequest]
  split
  case h_1 entry he =>
    split_ifs with hb hx ha hs
    · exact .blocked he hb
    · refine routed_createSession sm ring clk ft assigned fun entry' he' => ?_
      obtain rfl := Option.some.inj (he.symm.trans he')
      exact ⟨Bool.not_eq_true _ ▸ hb, hx⟩
    · exact .sticky he (Bool.not_eq_true _ ▸ hb) (Bool.not_eq_true _ ▸ hx) ha
    · exact .stranded he (Bool.not_eq_true _ ▸ hb) (Bool.not_eq_true _ ▸ hx) ha hs
    · exact .failover he (Bool.not_eq_true _ ▸ hb) (Bool.not_eq_true _ ▸ hx) ha (not_lt.mp hs)
  case h_2 he =>
    have h := routed_createSession sm ring clk ft assigned fun entry he' => by simp [he] at he'
    rwa [drop_eq_self he] at h

variable {sm ring clk ft}

variable (ring clk) in
theorem routeRequest_of_blocked {entry : SessionEntry} (he : sm.sessions[ft.toKey]? = some entry)
    (hb : entry.blocked = true) :
    sm.routeRequest ring clk ft assigned = (sm, .sessionBlocked, assigned) := by
  simp [routeRequest, he, hb]

variable (ring clk) in
theorem routeRequest_of_sticky {entry : SessionEntry} (he : sm.sessions[ft.toKey]? = some entry)
    (hb : entry.blocked = false) (hx : sm.isExpired clk.steady entry = false)
    (ha : entry.backendId ∈ ring.activeServers) :
    sm.routeRequest ring clk ft assigned =
      (sm.put ft.toKey { entry with lastAccess := clk.steady }, .success, entry.backendId) := by
  simp [routeRequest, he, hb, hx, ConsistentHashRing.getActiveServers, ha]

variable (ring clk) in
/-- A request of a live session on an inactive backend moves it to the ring's choice, or finds
no server. -/
theorem routeRequest_of_inactive {entry : SessionEntry}
    (he : sm.sessions[ft.toKey]? = some entry) (hb : entry.blocked = false)
    (hx : sm.isExpired clk.steady entry = false) (ha : entry.backendId ∉ ring.activeServers) :
    sm.routeRequest ring clk ft assigned =
      if ring.getServer ft.toKey < 0 then (sm, .serverDown, assigned)
      else (sm.put ft.toKey (entry.reassign clk (ring.getServer ft.toKey)
        (bytes "Failover from backend " ++ signedDecimal entry.backendId ++
          bytes " (server down)")), .reassigned, ring.getServer ft.toKey) := by
  simp [routeRequest, he, hb, hx, ConsistentHashRing.getActiveServers, ha]

/-- A request that finds an expired session, not blocked, finds none. -/
theorem routeRequest_of_expired {entry : SessionEntry} (he : sm.sessions[ft.toKey]? = some entry)
    (hb : entry.blocked = false) (hx : sm.isExpired clk.steady entry = true) :
    sm.routeRequest ring clk ft assigned =
      (sm.drop ft.toKey).routeRequest ring clk ft assigned := by
  simp [routeRequest, he, hb, hx]

variable (ring clk) in
/-- Routing depends on the session of its own key, and leaves the same session under it. -/
theorem routeRequest_congr {sm' : SessionManager}
    (hs : sm.sessions[ft.toKey]? = sm'.sessions[ft.toKey]?)
    (hd : sm.defaultTimeoutSec = sm'.defaultTimeoutSec) :
    (sm.routeRequest ring clk ft assigned).2 = (sm'.routeRequest ring clk ft assigned).2 ∧
      (sm.routeRequest ring clk ft assigned).1.sessions[ft.toKey]? =
        (sm'.routeRequest ring clk ft assigned).1.sessions[ft.toKey]? := by
  have hexp := isExpired_congr hd clk.steady
  simp only [routeRequest, createSession, hs, hexp]
  cases sm'.sessions[ft.toKey]? with
  | none =>
    dsimp only
    split_ifs
    · exact ⟨rfl, hs⟩
    · simp
  | some entry =>
    dsimp only
    split_ifs <;> simp [hs]

variable (sm ring clk ft)

@[simp]
theorem routeRequest_defaultTimeoutSec :
    (sm.routeRequest ring clk ft assigned).1.defaultTimeoutSec = sm.defaultTimeoutSec := by
  have h := routed_routeRequest sm ring clk ft assigned
  generalize sm.routeRequest ring clk ft assigned = r at h
  cases h <;> rfl

/-- Routing touches the entry of its own key only. -/
theorem sessions_routeRequest_of_ne {k : ByteString} (hk : ft.toKey ≠ k) :
    (sm.routeRequest ring clk ft assigned).1.sessions[k]? = sm.sessions[k]? := by
  have h := routed_routeRequest sm ring clk ft assigned
  generalize sm.routeRequest ring clk ft assigned = r at h
  cases h with
  | blocked | stranded => rfl
  | sticky | failover | created => exact sessions_put_of_ne sm _ hk _
  | unplaced => exact sessions_drop_of_ne sm _ hk

variable {sm ring clk ft assigned} in
theorem Routed.exists_blocked {r : SessionManager × RequestStatus × ℤ}
    (h : Routed sm ring clk ft assigned r) (hb : r.2.1 = .sessionBlocked) :
    ∃ entry, sm.sessions[ft.toKey]? = some entry ∧ entry.blocked = true := by
  cases h with
  | blocked he hbl => exact ⟨_, he, hbl⟩
  | _ => exact absurd hb (by simp)

variable {sm ring clk ft assigned} in
/-- A refusal leaves the out-parameter alone. -/
theorem Routed.assigned_eq {r : SessionManager × RequestStatus × ℤ}
    (h : Routed sm ring clk ft assigned r) (hb : r.2.1 = .sessionBlocked) : r.2.2 = assigned := by
  cases h with
  | blocked => rfl
  | _ => exact absurd hb (by simp)

variable {sm ring clk ft assigned} in
theorem Routed.getServer_neg {r : SessionManager × RequestStatus × ℤ}
    (h : Routed sm ring clk ft assigned r) (hd : r.2.1 = .serverDown) :
    ring.getServer ft.toKey < 0 := by
  cases h with
  | stranded _ _ _ _ hs | unplaced _ hs => exact hs
  | _ => exact absurd hd (by simp)

variable {sm ring clk ft assigned} in
/-- A session is routed to an active server, or nowhere. -/
theorem Routed.mem_activeServers (hring : ring.Sound)
    {r : SessionManager × RequestStatus × ℤ} (h : Routed sm ring clk ft assigned r)
    (hb : r.2.1 ≠ .sessionBlocked) (hd : r.2.1 ≠ .serverDown) :
    r.2.2 ∈ ring.activeServers := by
  cases h with
  | blocked => exact absurd rfl hb
  | stranded | unplaced => exact absurd rfl hd
  | sticky _ _ _ ha => exact ha
  | failover _ _ _ _ hs | created _ hs => exact hring.getServer_mem hs

variable {sm ring clk ft assigned} in
/-- A session that is routed is recorded with the backend it is routed to. -/
theorem Routed.exists_entry {r : SessionManager × RequestStatus × ℤ}
    (h : Routed sm ring clk ft assigned r) (hb : r.2.1 ≠ .sessionBlocked)
    (hd : r.2.1 ≠ .serverDown) : ∃ entry, r.1.sessions[ft.toKey]? = some entry ∧
      entry.blocked = false ∧ entry.backendId = r.2.2 := by
  cases h with
  | blocked => exact absurd rfl hb
  | stranded | unplaced => exact absurd rfl hd
  | sticky _ hbl | failover _ hbl => exact ⟨_, sessions_put_self _ _ _, hbl, rfl⟩
  | created => exact ⟨_, sessions_put_self _ _ _, rfl, rfl⟩

end Routing

/-! ### What the admin operations do -/

section Admin

variable (sm : SessionManager) (ring : ConsistentHashRing hashKey) (clk : Clock)
  (key : ByteString)

variable {ring key} in
/-- A forced reassignment picks an active server other than the old one. -/
theorem forcedBackend_spec (hring : ring.Sound) {oldBackend backend : ℤ}
    (hf : forcedBackend ring key oldBackend = some backend) :
    backend ∈ ring.activeServers ∧ backend ≠ oldBackend := by
  rw [forcedBackend] at hf
  split_ifs at hf with hneg hold hfew
  · -- the list has two members, of which the old backend is at most one
    obtain ⟨t, ht, hne⟩ : ∃ t ∈ ring.activeServers, t ≠ oldBackend := by
      by_contra hall
      push Not at hall
      have hsub : ring.activeServers ⊆ [oldBackend] := fun t ht => by simp [hall t ht]
      exact hfew (hring.nodup.subperm hsub).length_le
    cases hfind : ring.getActiveServers.find? (· ≠ oldBackend) with
    | none => exact absurd (List.find?_eq_none.mp hfind t ht) (by simpa using hne)
    | some b =>
      rw [hfind, Option.getD_some] at hf
      obtain rfl := Option.some.inj hf
      exact ⟨List.mem_of_find?_eq_some hfind, by simpa using List.find?_some hfind⟩
  · obtain rfl := Option.some.inj hf
    exact ⟨hring.getServer_mem (not_lt.mp hneg), hold⟩

theorem forceReassign_cases : sm.forceReassign ring clk key = (sm, false) ∨
    ∃ entry backend reason, sm.sessions[key]? = some entry ∧
      forcedBackend ring key entry.backendId = some backend ∧
      sm.forceReassign ring clk key = (sm.put key (entry.reassign clk backend reason), true) := by
  cases he : sm.sessions[key]? with
  | none => exact .inl (by simp [forceReassign, he])
  | some entry =>
    cases hb : forcedBackend ring key entry.backendId with
    | none => exact .inl (by simp [forceReassign, he, hb])
    | some backend => exact .inr ⟨entry, backend, _, rfl, hb, by simp [forceReassign, he, hb]; rfl⟩

theorem blockSession_cases (block : Bool) :
    (sm.sessions[key]? = none ∧ sm.blockSession key block = (sm, false)) ∨
    ∃ entry, sm.sessions[key]? = some entry ∧
      sm.blockSession key block = (sm.put key { entry with blocked := block }, true) := by
  cases he : sm.sessions[key]? with
  | none => exact .inl ⟨rfl, by simp [blockSession, he]⟩
  | some entry => exact .inr ⟨entry, rfl, by simp [blockSession, he]⟩

theorem setSessionExpiry_cases (timeoutSec : ℤ) :
    (sm.sessions[key]? = none ∧ sm.setSessionExpiry key timeoutSec = (sm, false)) ∨
    ∃ entry, sm.sessions[key]? = some entry ∧
      sm.setSessionExpiry key timeoutSec =
        (sm.put key { entry with customTimeout := timeoutSec }, true) := by
  cases he : sm.sessions[key]? with
  | none => exact .inl ⟨rfl, by simp [setSessionExpiry, he]⟩
  | some entry => exact .inr ⟨entry, rfl, by simp [setSessionExpiry, he]⟩

@[simp]
theorem forceReassign_defaultTimeoutSec :
    (sm.forceReassign ring clk key).1.defaultTimeoutSec = sm.defaultTimeoutSec := by
  rcases sm.forceReassign_cases ring clk key with h | ⟨entry, backend, reason, -, -, h⟩ <;> rw [h]
  rfl

@[simp]
theorem blockSession_defaultTimeoutSec (block : Bool) :
    (sm.blockSession key block).1.defaultTimeoutSec = sm.defaultTimeoutSec := by
  rcases sm.blockSession_cases key block with ⟨-, h⟩ | ⟨entry, -, h⟩ <;> rw [h]
  rfl

@[simp]
theorem setSessionExpiry_defaultTimeoutSec (timeoutSec : ℤ) :
    (sm.setSessionExpiry key timeoutSec).1.defaultTimeoutSec = sm.defaultTimeoutSec := by
  rcases sm.setSessionExpiry_cases key timeoutSec with ⟨-, h⟩ | ⟨entry, -, h⟩ <;> rw [h]
  rfl

variable {key} {k : ByteString} (hk : key ≠ k)
include hk

theorem sessions_forceReassign_of_ne :
    (sm.forceReassign ring clk key).1.sessions[k]? = sm.sessions[k]? := by
  rcases sm.forceReassign_cases ring clk key with h | ⟨entry, backend, reason, -, -, h⟩ <;> rw [h]
  exact sessions_put_of_ne sm _ hk _

theorem sessions_blockSession_of_ne (block : Bool) :
    (sm.blockSession key block).1.sessions[k]? = sm.sessions[k]? := by
  rcases sm.blockSession_cases key block with ⟨-, h⟩ | ⟨entry, -, h⟩ <;> rw [h]
  exact sessions_put_of_ne sm _ hk _

theorem sessions_setSessionExpiry_of_ne (timeoutSec : ℤ) :
    (sm.setSessionExpiry key timeoutSec).1.sessions[k]? = sm.sessions[k]? := by
  rcases sm.setSessionExpiry_cases key timeoutSec with ⟨-, h⟩ | ⟨entry, -, h⟩ <;> rw [h]
  exact sessions_put_of_ne sm _ hk _

end Admin

end SessionManager

end SessionAffinity
