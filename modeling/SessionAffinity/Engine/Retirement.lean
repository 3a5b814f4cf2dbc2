import SessionAffinity.Engine.Invariants

/-!
# Taking a backend off the ring

A removal from the ring is followed by a sweep over the session table, in `takeBackendOffline`
as in the failover of a request. `Redistributed` says what the two do together: the live
sessions of the backend, blocked or not, move to the choice of the ring without it, and nothing
else changes. The ring without a server never answers that server, and each entry is rewritten
by itself, so neither the guard of the sweep nor the order of its loop shows.
-/

namespace SessionAffinity

namespace Engine

open ByteString (signedDecimal)

variable {hashKey : ByteString → UInt64} {cfg : Config}

/-- The table of `e'` is that of `e` with the live sessions of backend `x` moved to the choice
of the ring of `e'`. -/
structure Redistributed (e e' : Engine hashKey) (clk : Clock) (x : ℤ) : Prop where
  ring : e'.ring = e.ring.removeServer x
  /-- While the ring has a position, the live sessions of `x` move to another active server. -/
  moved : e'.ring.ring ≠ ∅ → ∀ (key : ByteString) (entry : SessionEntry),
    e.sessions.sessions[key]? = some entry →
    entry.backendId = x → e.sessions.isExpired clk.steady entry = false →
    e'.ring.getServer key ∈ e'.ring.activeServers ∧ e'.ring.getServer key ≠ x ∧
      e'.sessions.sessions[key]? = some
        { entry with
          backendId := e'.ring.getServer key
          lastAccess := clk.steady
          pathHistory := entry.pathHistory ++ [⟨e'.ring.getServer key, clk.wall,
            bytes "Server " ++ signedDecimal x ++ bytes " went down — redistributed"⟩] }
  /-- The other sessions stay as they are. -/
  others : ∀ (key : ByteString) (entry : SessionEntry), e.sessions.sessions[key]? = some entry →
    entry.backendId ≠ x ∨ e.sessions.isExpired clk.steady entry = true →
    e'.sessions.sessions[key]? = some entry
  /-- No session is lost and none is made. -/
  keys : ∀ key, key ∈ e'.sessions.sessions ↔ key ∈ e.sessions.sessions
  /-- Without a position left, the table stays as it is. -/
  stranded : e'.ring.ring = ∅ → e'.sessions = e.sessions

/-- **The sweep after a removal** moves the live sessions of the backend and touches no other. -/
theorem redistributed_evacuate {e : Engine hashKey} (hs : e.ring.Sound)
    (hnonneg : ∀ s ∈ e.ring.activeServers, 0 ≤ s) (clk : Clock) (x : ℤ) :
    Redistributed e (e.evacuate clk x) clk x where
  ring := rfl
  moved hne key entry hentry hx hlive := by
    have hreduced : (e.ring.removeServer x).Sound := hs.removeServer x
    have hchoice : (e.ring.removeServer x).getServer key ∈
        (e.ring.removeServer x).activeServers := by
      obtain ⟨p, hp, -⟩ := ConsistentHashRing.exists_nearest hne key
      exact (hreduced.owned hp).1
    obtain ⟨hother, hactive⟩ :=
      (ConsistentHashRing.mem_activeServers_removeServer e.ring x).mp hchoice
    subst hx
    refine ⟨hchoice, hother, ?_⟩
    show (e.sessions.handleServerDown _ clk entry.backendId).sessions[key]? = _
    rw [SessionManager.sessions_handleServerDown, hentry, Option.map_some,
      SessionManager.redistribute_of_live _ _ _ _ hlive (hnonneg _ hactive) hother]
    rfl
  others key entry hentry hstay := by
    show (e.sessions.handleServerDown _ clk x).sessions[key]? = _
    rw [SessionManager.sessions_handleServerDown, hentry, Option.map_some]
    rcases e.sessions.redistribute_cases (e.ring.removeServer x) clk key x entry with
      h | ⟨hx, hlive, -⟩
    · rw [h]
    · rcases hstay with hne | hexpired
      · exact absurd hx hne
      · exact absurd (hexpired.symm.trans hlive) (by simp)
  keys key := by
    show key ∈ (e.sessions.handleServerDown _ clk x).sessions ↔ _
    rw [SessionManager.handleServerDown, Std.ExtTreeMap.mem_map]
  stranded hempty := by
    have hnone (key : ByteString) : (e.ring.removeServer x).getServer key < 0 := by
      have hnegative : (e.ring.removeServer x).getServer key = -1 :=
        ConsistentHashRing.getServer_of_ring_eq_empty hempty key
      omega
    have hsame : (e.sessions.handleServerDown (e.ring.removeServer x) clk x).sessions =
        e.sessions.sessions := by
      refine Std.ExtTreeMap.ext_getElem? fun key => ?_
      rw [SessionManager.sessions_handleServerDown]
      cases e.sessions.sessions[key]? with
      | none => rfl
      | some entry =>
        rw [Option.map_some, SessionManager.redistribute_of_neg _ _ _ _ (hnone key)]
    exact congrArg (SessionManager.mk e.sessions.defaultTimeoutSec) hsame

/-- **Retirement redistributes exactly the affected sessions.** After every run, under every hash
function: taking a backend offline moves its unexpired sessions, blocked or not, to the choice of
the reduced ring, with one entry of path history each, and leaves every other session and the
set of keys as they are; on an id that is no backend's it does nothing. -/
theorem takeBackendOffline_redistributes (hashKey : ByteString → UInt64) (cfg : Config)
    (ops : List Op) (clk : Clock) (x : ℤ) :
    ((afterOps hashKey cfg ops).InRange x →
      Redistributed (afterOps hashKey cfg ops) ((afterOps hashKey cfg ops).takeBackendOffline clk x)
        clk x) ∧
    (¬(afterOps hashKey cfg ops).InRange x →
      (afterOps hashKey cfg ops).takeBackendOffline clk x = afterOps hashKey cfg ops) := by
  refine ⟨fun hin => ?_, fun hout => ?_⟩
  · rw [takeBackendOffline, if_pos hin]
    -- stopping the backend touches neither ring nor table
    have h := redistributed_evacuate
      (e := (afterOps hashKey cfg ops).modifyBackend x RequestHandler.stop) (sound_afterOps ops)
      (fun s hs => (inRange_of_mem_activeServers s hs).1) clk x
    exact ⟨h.ring, h.moved, h.others, h.keys, h.stranded⟩
  · rw [takeBackendOffline, if_neg hout]

end Engine

end SessionAffinity
