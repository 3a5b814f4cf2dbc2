import SessionAffinity.Engine.Invariants
import SessionAffinity.Ring.Lookup

/-!
# Outages of many backends

Backends are taken offline one after another, and each time the sessions of the backend move to the
choice of the ring that is left. A session may move several times on the way, since the backend it
has moved to may be the next one. `located_after_outages` says where it ends up: on its own backend
if that is still there, and otherwise on the choice of the last ring, as if it had moved once.

So the order of the outages is forgotten (`outages_confluent`), provided that a backend is left in
the end. What makes the detours end in the same place is minimal disruption: while the backend that
a session has moved to stays on the ring, the ring does not change its mind about it. A move counts
as a use, so that a session may last longer than its timeout on the way: that it is not expired is
asked of the session that each outage finds (`Outlives`).
-/

namespace SessionAffinity

namespace ConsistentHashRing

variable {hashKey : ByteString → UInt64} {A : Set ℤ} {r r' : ConsistentHashRing hashKey}

/-- Removing a server only moves its own keys, if the virtual nodes are in place. -/
theorem Placed.getServer_removeServer (h : r.Placed A) {s : ℤ} (hs : s ∈ A) {key : ByteString}
    (hne : r.getServer key ≠ s) : (r.removeServer s).getServer key = r.getServer key := by
  refine ConsistentHashRing.getServer_removeServer (fun p hp t ht => ?_) hne
  refine h.sound.eq_of_mem_positions (fun t ht hts i j hi hj => ?_) hp ht
  exact h.separated s hs t (h.subset t ht) hts.symm i j hi hj

/-- Rings of the same servers answer alike, if the virtual nodes are in place. -/
theorem Placed.getServer_congr (h : r.Placed A) (h' : r'.Placed A)
    (hvnodes : r'.vnodesPerServer = r.vnodesPerServer) (hV : 0 < r.vnodesPerServer)
    (hsame : ∀ s, s ∈ r'.activeServers ↔ s ∈ r.activeServers) (hne : r.activeServers ≠ [])
    (key : ByteString) : r'.getServer key = r.getServer key := by
  obtain ⟨a, ha⟩ := List.exists_mem_of_ne_nil _ hne
  have hne' : r'.activeServers ≠ [] := List.ne_nil_of_mem ((hsame a).mpr ha)
  obtain ⟨hs, i, hi, hle⟩ := (h.full.getServer_eq_iff_nearest h.sound hne hV key).mp rfl
  refine (h'.full.getServer_eq_iff_nearest h'.sound hne' (hvnodes ▸ hV) key).mpr ?_
  rw [hvnodes]
  exact ⟨(hsame _).mpr hs, i, hi, fun t ht => hle t ((hsame t).mp ht)⟩

end ConsistentHashRing

namespace Engine

variable {hashKey : ByteString → UInt64} {cfg : Config}

/-- Backends are taken offline one after another. -/
def outages (evs : List (Clock × ℤ)) : List Op := evs.map fun ev => .takeBackendOffline ev.1 ev.2

theorem outages_concat (evs : List (Clock × ℤ)) (ev : Clock × ℤ) :
    outages (evs ++ [ev]) = outages evs ++ [.takeBackendOffline ev.1 ev.2] := List.map_append

theorem afterOps_outages_concat (ops : List Op) (evs : List (Clock × ℤ)) (ev : Clock × ℤ) :
    afterOps hashKey cfg (ops ++ outages (evs ++ [ev])) =
      (afterOps hashKey cfg (ops ++ outages evs)).takeBackendOffline ev.1 ev.2 := by
  rw [outages_concat, ← List.append_assoc, afterOps_concat]
  rfl

/-- The session of `k`, if there is one, is not expired when a backend is taken offline. -/
def Outlives (k : ByteString) (e : Engine hashKey) : Op → Prop
  | .takeBackendOffline clk _ =>
    ∀ entry ∈ e.sessions.sessions[k]?, e.sessions.isExpired clk.steady entry = false
  | _ => True

instance (k : ByteString) (e : Engine hashKey) (op : Op) : Decidable (Outlives k e op) :=
  match op with
  | .takeBackendOffline .. => inferInstanceAs (Decidable (∀ entry ∈ _, _))
  | .request .. | .bringBackendOnline _ | .cleanupExpired _ | .forceReassign .. | .blockSession ..
  | .setSessionExpiry .. | .setActive .. | .crash .. => isTrue trivial

section Step

variable {e : Engine hashKey} {x : ℤ} (hx : e.InRange x) (clk : Clock)
include hx

theorem ring_takeBackendOffline : (e.takeBackendOffline clk x).ring = e.ring.removeServer x := by
  rw [takeBackendOffline, if_pos hx]
  rfl

theorem sessions_takeBackendOffline (k : ByteString) :
    (e.takeBackendOffline clk x).sessions.sessions[k]? = e.sessions.sessions[k]?.map
      (e.sessions.redistribute (e.ring.removeServer x) clk x k) := by
  rw [takeBackendOffline, if_pos hx]
  exact SessionManager.sessions_handleServerDown _ _ _ _ _

/-- One outage moves an unexpired session of the backend to the choice of the ring that is left. -/
theorem located_takeBackendOffline {k : ByteString} {entry : SessionEntry}
    (he : e.sessions.sessions[k]? = some entry)
    (hlive : e.sessions.isExpired clk.steady entry = false)
    (hs : 0 ≤ (e.ring.removeServer x).getServer k)
    (hne : (e.ring.removeServer x).getServer k ≠ x) :
    ∃ entry', (e.takeBackendOffline clk x).sessions.sessions[k]? = some entry' ∧
      entry'.backendId = if entry.backendId = x then (e.ring.removeServer x).getServer k
        else entry.backendId := by
  rw [sessions_takeBackendOffline hx, he, Option.map_some]
  by_cases hmoved : entry.backendId = x
  · subst hmoved
    rw [if_pos rfl, SessionManager.redistribute_of_live _ _ _ _ hlive hs hne]
    exact ⟨_, rfl, rfl⟩
  · rw [if_neg hmoved, SessionManager.redistribute_of_ne _ _ _ _ hmoved]
    exact ⟨entry, rfl, rfl⟩

end Step

/-- The active servers after outages are those that are left. -/
theorem mem_activeServers_outages (ops : List Op) {evs : List (Clock × ℤ)}
    (hevs : ∀ ev ∈ evs, 0 ≤ ev.2 ∧ ev.2 < cfg.numBackendServers) (s : ℤ) :
    s ∈ (afterOps hashKey cfg (ops ++ outages evs)).ring.activeServers ↔
      s ∈ (afterOps hashKey cfg ops).ring.activeServers ∧ s ∉ evs.map Prod.snd := by
  induction evs using List.reverseRecOn with
  | nil => simp [outages]
  | append_singleton evs ev ih =>
    have hin : (afterOps hashKey cfg (ops ++ outages evs)).InRange ev.2 :=
      inRange_afterOps.mpr (hevs ev (by simp))
    rw [afterOps_outages_concat, ring_takeBackendOffline hin,
      ConsistentHashRing.mem_activeServers_removeServer,
      ih fun ev' hev' => hevs ev' (List.mem_append_left _ hev')]
    simp only [List.map_append, List.map_cons, List.map_nil, List.mem_append, List.mem_singleton]
    tauto

section Located

variable (hV : 0 < cfg.consistentHashVnodes)
  (hsep : Separated hashKey cfg.consistentHashVnodes {s | 0 ≤ s ∧ s < cfg.numBackendServers})
  {ops : List Op}
include hV hsep

/-- While a backend is left, the ring has a choice, which is one of those that are left. -/
theorem getServer_outages {evs : List (Clock × ℤ)}
    (hevs : ∀ ev ∈ evs, 0 ≤ ev.2 ∧ ev.2 < cfg.numBackendServers)
    (hleft : ∃ s ∈ (afterOps hashKey cfg ops).ring.activeServers, s ∉ evs.map Prod.snd)
    (k : ByteString) :
    0 ≤ (afterOps hashKey cfg (ops ++ outages evs)).ring.getServer k ∧
      (afterOps hashKey cfg (ops ++ outages evs)).ring.getServer k ∈
        (afterOps hashKey cfg (ops ++ outages evs)).ring.activeServers := by
  have hserving := (placed_afterOps hsep (ops ++ outages evs)).serving
    (by rwa [vnodesPerServer_afterOps]) fun _ hs => hs.1
  obtain ⟨s, hs, hleft⟩ := hleft
  have hact := (mem_activeServers_outages ops hevs s).mpr ⟨hs, hleft⟩
  exact ⟨hserving.getServer_nonneg hact k, hserving.getServer_mem hact k⟩

variable {k : ByteString} {entry : SessionEntry}
  (he : (afterOps hashKey cfg ops).sessions.sessions[k]? = some entry)
include he

/-- **Where a session is after outages**: on the choice of the last ring if its backend is gone. -/
theorem located_after_outages {evs : List (Clock × ℤ)}
    (hevs : ∀ ev ∈ evs, 0 ≤ ev.2 ∧ ev.2 < cfg.numBackendServers)
    (hlive : (machine hashKey cfg).Along (Outlives k) (afterOps hashKey cfg ops) (outages evs))
    (hleft : ∃ s ∈ (afterOps hashKey cfg ops).ring.activeServers, s ∉ evs.map Prod.snd) :
    ∃ entry', (afterOps hashKey cfg (ops ++ outages evs)).sessions.sessions[k]? = some entry' ∧
      entry'.backendId = if entry.backendId ∈ evs.map Prod.snd then
        (afterOps hashKey cfg (ops ++ outages evs)).ring.getServer k else entry.backendId := by
  induction evs using List.reverseRecOn with
  | nil => exact ⟨entry, by simpa [outages] using he, by simp⟩
  | append_singleton evs ev ih =>
    have hbefore : ∀ ev' ∈ evs, 0 ≤ ev'.2 ∧ ev'.2 < cfg.numBackendServers := fun ev' hev' =>
      hevs ev' (List.mem_append_left _ hev')
    have hx := hevs ev (by simp)
    obtain ⟨hnonneg, hactive⟩ := getServer_outages hV hsep hevs hleft k
    rw [outages_concat, Machine.along_concat] at hlive
    obtain ⟨hlive, houtlives⟩ := hlive
    obtain ⟨s, hs, hleft⟩ := hleft
    obtain ⟨entry', he', hbackend⟩ := ih hbefore hlive ⟨s, hs, fun hmem => hleft (by simp [hmem])⟩
    -- the session that the outage finds has not expired, wherever the earlier ones have moved it
    rw [afterOps, ← Machine.run_append] at houtlives
    have halive : (afterOps hashKey cfg (ops ++ outages evs)).sessions.isExpired ev.1.steady
        entry' = false := houtlives entry' he'
    have hin : (afterOps hashKey cfg (ops ++ outages evs)).InRange ev.2 := inRange_afterOps.mpr hx
    rw [afterOps_outages_concat, ring_takeBackendOffline hin] at hnonneg hactive
    rw [afterOps_outages_concat, ring_takeBackendOffline hin]
    obtain ⟨entry'', he'', hbackend'⟩ := located_takeBackendOffline hin ev.1 he' halive hnonneg
      ((ConsistentHashRing.mem_activeServers_removeServer _ _).mp hactive).1
    refine ⟨entry'', he'', ?_⟩
    have hstays (hne : (afterOps hashKey cfg (ops ++ outages evs)).ring.getServer k ≠ ev.2) :=
      (placed_afterOps hsep (ops ++ outages evs)).getServer_removeServer hx hne
    rw [hbackend', hbackend]
    by_cases hgone : entry.backendId ∈ evs.map Prod.snd
    · -- the session has moved before, and moves again if its new backend is the next to go
      have hgone' : entry.backendId ∈ (evs ++ [ev]).map Prod.snd := by simp [hgone]
      rw [if_pos hgone, if_pos hgone']
      split_ifs with hagain
      · rfl
      · exact (hstays hagain).symm
    · rw [if_neg hgone]
      by_cases hnow : entry.backendId = ev.2
      · rw [if_pos hnow, if_pos (by simp [hnow])]
      · rw [if_neg hnow, if_neg (by simp [hnow, hgone])]

end Located

/-- A deployment of three backends with one virtual node each. -/
def trio : Config :=
  { Config.pair with
    numBackendServers := 3
    numBackendServers_lt := by omega }

theorem separated_trio : Separated fnvHashKey trio.consistentHashVnodes
    {s | 0 ≤ s ∧ s < trio.numBackendServers} := by
  have hne : ∀ s ∈ [(0 : ℤ), 1, 2], ∀ t ∈ [(0 : ℤ), 1, 2], s ≠ t →
      fnvHashKey (vnodeKey s 0) ≠ fnvHashKey (vnodeKey t 0) := by decide
  have hmem {s : ℤ} (hs : 0 ≤ s ∧ s < trio.numBackendServers) : s ∈ [(0 : ℤ), 1, 2] := by
    have hlt : s < 3 := hs.2
    have hcases : s = 0 ∨ s = 1 ∨ s = 2 := by omega
    simpa using hcases
  intro s hs t ht hst i j hi hj
  have hi' : (i : ℤ) < 1 := hi
  have hj' : (j : ℤ) < 1 := hj
  obtain ⟨rfl, rfl⟩ : i = 0 ∧ j = 0 := by omega
  exact hne s (hmem hs) t (hmem ht) hst

/-- A client is served once. -/
def servedOnce : List Op :=
  [.request .primary (.at ⟨0, []⟩) clientTuple (bytes "hello")]

/-- Its backend and the one that it moves to are taken offline, the second when the session would
have expired if it had not been moved. -/
def firstOwn : List (Clock × ℤ) := [(⟨seconds 200, []⟩, 0), (⟨seconds 400, []⟩, 1)]

/-- The same two are taken offline in the other order. -/
def firstOther : List (Clock × ℤ) := [(⟨seconds 100, []⟩, 1), (⟨seconds 250, []⟩, 0)]

end Engine

end SessionAffinity
