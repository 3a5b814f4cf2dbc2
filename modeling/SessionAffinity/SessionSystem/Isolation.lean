import SessionAffinity.Foundations.Noninterference
import SessionAffinity.SessionSystem.Slot

/-!
# Sessions do not interfere

A call on the session manager that names a key belongs to the session of that key; the sweeps
and the changes of the ring belong to nobody. `unwinding_machine` says that the sessions do not
interfere with each other: a call that names one key neither touches the ring nor the session
of another key, and what a sweep does to a session depends on that session and the ring only.
-/

namespace SessionAffinity

namespace SessionSystem

variable {hashKey : ByteString → UInt64}

/-- The two systems differ at most in the sessions of other keys. -/
structure AlikeFor (k : ByteString) (s u : SessionSystem hashKey) : Prop where
  ring : s.ring = u.ring
  timeout : s.manager.defaultTimeoutSec = u.manager.defaultTimeoutSec
  slot : s.slot k = u.slot k

theorem equivalence_alikeFor (k : ByteString) :
    Equivalence (@AlikeFor hashKey k) where
  refl _ := ⟨rfl, rfl, rfl⟩
  symm h := ⟨h.ring.symm, h.timeout.symm, h.slot.symm⟩
  trans h h' := ⟨h.ring.trans h'.ring, h.timeout.trans h'.timeout, h.slot.trans h'.slot⟩

/-- Systems that are alike for every key are equal. -/
theorem eq_of_alikeFor {s u : SessionSystem hashKey} (h : ∀ k, AlikeFor k s u) : s = u := by
  obtain ⟨ring, timeout, sessions⟩ := s
  obtain ⟨ring', timeout', sessions'⟩ := u
  obtain rfl : ring = ring' := (h []).ring
  obtain rfl : timeout = timeout' := (h []).timeout
  have hsessions : sessions = sessions' := Std.ExtTreeMap.ext_getElem? fun k => (h k).slot
  rw [hsessions]

/-- Only adding and removing servers changes the ring. -/
theorem ring_next_of_key {op : Op} (hop : op.key? ≠ none) (s : SessionSystem hashKey) :
    ((machine hashKey).next s op).ring = s.ring := by
  cases op with
  | addServer | removeServer => exact absurd rfl hop
  | _ => rfl

/-- The ring after a call does not depend on the sessions. -/
theorem ring_next_congr {s u : SessionSystem hashKey} (h : s.ring = u.ring) (op : Op) :
    ((machine hashKey).next s op).ring = ((machine hashKey).next u op).ring := by
  cases op with
  | addServer serverId => exact congrArg (fun r => r.addServer serverId) h
  | removeServer serverId => exact congrArg (fun r => r.removeServer serverId) h
  | _ => exact h

section Congr

variable {k : ByteString} {s u : SessionSystem hashKey} (h : AlikeFor k s u)
include h

/-- What a call does to a session and what it answers about it depend on that session. -/
theorem next_congr_of_key {op : Op} (hop : op.key? = some k) :
    (machine hashKey).answer s op = (machine hashKey).answer u op ∧
      ((machine hashKey).next s op).slot k = ((machine hashKey).next u op).slot k := by
  obtain ⟨hring, htimeout, hslot⟩ := h
  have hs : s.manager.sessions[k]? = u.manager.sessions[k]? := hslot
  cases op with
  | routeRequest clk ft assigned =>
    obtain rfl : ft.toKey = k := Option.some.inj hop
    have hrouted := SessionManager.routeRequest_congr s.ring clk assigned hs htimeout
    simp only [Machine.answer, Machine.next, machine, slot, ← hring]
    exact ⟨by rw [hrouted.1], hrouted.2⟩
  | forceReassign clk key =>
    obtain rfl : key = k := Option.some.inj hop
    simp only [Machine.answer, Machine.next, machine, slot, SessionManager.forceReassign, hs,
      hring]
    split
    · exact ⟨rfl, hs⟩
    · split
      · exact ⟨rfl, hs⟩
      · simp
  | blockSession key block =>
    obtain rfl : key = k := Option.some.inj hop
    simp only [Machine.answer, Machine.next, machine, slot, SessionManager.blockSession, hs]
    split
    · exact ⟨rfl, hs⟩
    · simp
  | setSessionExpiry key timeoutSec =>
    obtain rfl : key = k := Option.some.inj hop
    simp only [Machine.answer, Machine.next, machine, slot, SessionManager.setSessionExpiry, hs]
    split
    · exact ⟨rfl, hs⟩
    · simp
  | getPathHistory key =>
    obtain rfl : key = k := Option.some.inj hop
    refine ⟨?_, hslot⟩
    show Answer.history (s.manager.getPathHistory key) = .history (u.manager.getPathHistory key)
    rw [SessionManager.getPathHistory, SessionManager.getPathHistory, hs]
  | _ => exact absurd hop (by simp [Op.key?])

/-- What a call that names no key does to a session depends on that session and the ring. -/
theorem slot_next_congr_of_none {op : Op} (hop : op.key? = none) :
    ((machine hashKey).next s op).slot k = ((machine hashKey).next u op).slot k := by
  obtain ⟨hring, htimeout, hslot⟩ := h
  have hs : s.manager.sessions[k]? = u.manager.sessions[k]? := hslot
  cases op with
  | handleServerDown clk serverId =>
    show (s.manager.handleServerDown s.ring clk serverId).sessions[k]? =
      (u.manager.handleServerDown u.ring clk serverId).sessions[k]?
    rw [SessionManager.sessions_handleServerDown, SessionManager.sessions_handleServerDown, hs,
      hring, SessionManager.redistribute_congr htimeout]
  | cleanupExpired clk =>
    have hexp := SessionManager.isExpired_congr htimeout clk.steady
    show (s.manager.cleanupExpired clk).1.sessions[k]? =
      (u.manager.cleanupExpired clk).1.sessions[k]?
    simp only [SessionManager.sessions_cleanupExpired, hs, hexp]
  | activeSessionCount | getAllSessions | addServer | removeServer => exact hslot
  | _ => exact absurd hop (by simp [Op.key?])

end Congr

/-- **Sessions do not interfere.** -/
theorem unwinding_machine (k : ByteString) :
    (machine hashKey).Unwinding Op.key? k (AlikeFor k) where
  equiv := equivalence_alikeFor k
  other {s op} hnone hk := by
    obtain ⟨key, hkey⟩ := Option.ne_none_iff_exists'.mp hnone
    have hne : key ≠ k := fun h => hk (h ▸ hkey)
    exact ⟨ring_next_of_key hnone s, next_defaultTimeoutSec s op, sessions_next_of_ne s hkey hne⟩
  next {s u op} hop h := by
    have htimeout : ((machine hashKey).next s op).manager.defaultTimeoutSec =
        ((machine hashKey).next u op).manager.defaultTimeoutSec := by
      rw [next_defaultTimeoutSec, next_defaultTimeoutSec, h.timeout]
    refine ⟨ring_next_congr h.ring op, htimeout, ?_⟩
    rcases hop with hop | hop
    · exact slot_next_congr_of_none h hop
    · exact (next_congr_of_key h hop).2
  answer hop h := (next_congr_of_key h hop).1

end SessionSystem

end SessionAffinity
