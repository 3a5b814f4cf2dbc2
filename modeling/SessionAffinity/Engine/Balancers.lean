import SessionAffinity.Engine.Runs
import SessionAffinity.Foundations.Refinement

/-!
# Two balancers are one

Primary and standby share everything but their active flags. To the clients the pair is one
balancer that never fails: leave out the requests that reach a passive balancer, and the calls
that set the flags, and what remains of a run is a run of the primary alone, with the same answers
and the same state behind it (`pair_refines_solo`). In particular a failover from one to the other
loses no session, no quota, no block and no count.
-/

namespace SessionAffinity

namespace Engine

variable {hashKey : ByteString → UInt64}

/-- The engine with the primary in charge. -/
def solo (e : Engine hashKey) : Engine hashKey :=
  { e with primaryActive := true, standbyActive := false }

/-- What a call means to an engine with the primary in charge. -/
def soloCalls (e : Engine hashKey) : Op → List Op
  | .request role rd ft payload =>
    if e.isActive role then [.request .primary rd ft payload] else []
  | .setActive _ _ => []
  | op => [op]

/-- What the clients and the administrator see of an answer. -/
def seen : Op → Answer → List Answer
  | .setActive _ _, _ => []
  | _, .response (.notActive _) => []
  | _, answer => [answer]

/-! ### The flags matter to the active check alone -/

section Pipeline

variable (cfg : Config) (e : Engine hashKey) (rd : Readings) (ft : FiveTuple)

theorem forward_solo (status : RequestStatus) (assigned : ℤ) :
    e.solo.forward rd ft status assigned =
      ((e.forward rd ft status assigned).1.solo, (e.forward rd ft status assigned).2) := by
  have hrange : e.solo.InRange assigned ↔ e.InRange assigned := Iff.rfl
  have hbackend (s : ℤ) : e.solo.backend? s = e.backend? s := rfl
  have hfailover : e.solo.failover rd ft assigned =
      ((e.failover rd ft assigned).1.solo, (e.failover rd ft assigned).2) := rfl
  simp only [forward, hrange, hbackend, hfailover]
  by_cases hr : e.InRange assigned
  · rw [if_neg (not_not.mpr hr), if_neg (not_not.mpr hr)]
    cases e.backend? assigned with
    | none => rfl
    | some b =>
      dsimp only
      by_cases hon : b.online = true
      · rw [if_pos hon, if_pos hon]
        rfl
      · rw [if_neg hon, if_neg hon]
        rcases e.failover rd ft assigned with ⟨e', status', assigned'⟩
        have hbackend' : e'.solo.backend? assigned' = e'.backend? assigned' := rfl
        dsimp only
        by_cases hdown : status' = .serverDown ∨ assigned' < 0
        · rw [if_pos hdown, if_pos hdown]
        · rw [if_neg hdown, if_neg hdown, hbackend']
          cases e'.backend? assigned' with
          | none => rfl
          | some b' =>
            dsimp only
            split_ifs <;> rfl
  · rw [if_pos hr, if_pos hr]

theorem dispatch_solo : e.solo.dispatch rd ft =
    ((e.dispatch rd ft).1.solo, (e.dispatch rd ft).2) := by
  have hsessions : e.solo.sessions = e.sessions := rfl
  have hring : e.solo.ring = e.ring := rfl
  simp only [dispatch, hsessions, hring]
  split_ifs
  · rfl
  · rfl
  · exact forward_solo { e with sessions := (e.sessions.routeRequest e.ring rd.route ft (-1)).1 }
      rd ft _ _

/-- A request through an active balancer is one through the primary in charge. -/
theorem handleRequest_solo {role : LBRole} (hactive : e.isActive role = true)
    (payload : ByteString) : e.solo.handleRequest cfg .primary rd ft payload =
      ((e.handleRequest cfg role rd ft payload).1.solo,
        (e.handleRequest cfg role rd ft payload).2) := by
  have hpre : e.solo.precheck cfg .primary rd ft payload =
      ((e.precheck cfg role rd ft payload).1.solo, (e.precheck cfg role rd ft payload).2) := by
    have hsecurity : e.solo.security = e.security := rfl
    rw [precheck, precheck, if_neg (by simp [isActive, solo]), if_neg (by simp [hactive]),
      hsecurity]
    rcases Security.fullValidation cfg e.security rd.validate ft payload with
      ⟨security, errorMessage | _⟩ <;> rfl
  rw [handleRequest, handleRequest, hpre]
  rcases e.precheck cfg role rd ft payload with ⟨e', _ | response⟩
  · exact dispatch_solo e' rd ft
  · rfl

end Pipeline

/-! ### Runs -/

/-- **The pair as an implementation of the primary alone.** -/
def pairRefinement (hashKey : ByteString → UInt64) (cfg : Config) :
    Machine.Refinement (machine hashKey cfg) (machine hashKey cfg) where
  Rel e u := u = e.solo
  calls := soloCalls
  seen := seen
  next {e u} op h := by
    subst h
    cases op with
    | request role rd ft payload =>
      rw [soloCalls]
      split_ifs with hactive
      · show (e.solo.handleRequest cfg .primary rd ft payload).1 = _
        rw [handleRequest_solo cfg e rd ft hactive]
        rfl
      · show e.solo = (e.handleRequest cfg role rd ft payload).1.solo
        rw [handleRequest, precheck, if_pos (by simp [hactive])]
    | setActive role active => cases role <;> rfl
    | takeBackendOffline clk serverId =>
      show e.solo.takeBackendOffline clk serverId = (e.takeBackendOffline clk serverId).solo
      have hrange : e.solo.InRange serverId ↔ e.InRange serverId := Iff.rfl
      simp only [takeBackendOffline, hrange]
      split_ifs <;> rfl
    | bringBackendOnline serverId =>
      show e.solo.bringBackendOnline serverId = (e.bringBackendOnline serverId).solo
      have hrange : e.solo.InRange serverId ↔ e.InRange serverId := Iff.rfl
      simp only [bringBackendOnline, hrange]
      split_ifs <;> rfl
    | crash serverId =>
      have hrange : e.solo.InRange serverId ↔ e.InRange serverId := Iff.rfl
      simp only [soloCalls, Machine.run_cons, Machine.run_nil, Machine.next, machine, hrange]
      split_ifs <;> rfl
    | cleanupExpired | forceReassign | blockSession | setSessionExpiry => rfl
  answers {e u} op h := by
    subst h
    cases op with
    | request role rd ft payload =>
      rw [soloCalls]
      show _ = seen _ (.response (e.handleRequest cfg role rd ft payload).2)
      split_ifs with hactive
      · show [Answer.response (e.solo.handleRequest cfg .primary rd ft payload).2] = _
        rw [handleRequest_solo cfg e rd ft hactive]
        have hne (role' : LBRole) : (e.handleRequest cfg role rd ft payload).2 ≠ .notActive role' :=
          response_ne_notActive hactive role'
        generalize (e.handleRequest cfg role rd ft payload).2 = response at hne ⊢
        cases response with
        | notActive role' => exact absurd rfl (hne role')
        | _ => rfl
      · rw [handleRequest, precheck, if_pos (by simp [hactive])]
        rfl
    | setActive role active => cases role <;> rfl
    | _ => rfl

/-- **The pair is one balancer.** In every run of the engine, the answers that are not refusals of
a passive balancer are those that the primary alone would have given, if it had been active all
the time and had received the requests that reached an active balancer; and it would have left the
same engine, flags apart. -/
theorem pair_refines_solo (hashKey : ByteString → UInt64) (cfg : Config) (ops : List Op) :
    (afterOps hashKey cfg ops).solo =
        afterOps hashKey cfg ((machine hashKey cfg).log soloCalls (init hashKey cfg) ops) ∧
      ((machine hashKey cfg).trace (init hashKey cfg)
          ((machine hashKey cfg).log soloCalls (init hashKey cfg) ops)).map Prod.snd =
        ((machine hashKey cfg).trace (init hashKey cfg) ops).flatMap fun c => seen c.1 c.2 := by
  have hinit : (pairRefinement hashKey cfg).Rel (init hashKey cfg) (init hashKey cfg) := rfl
  obtain ⟨hstate, htrace⟩ := (pairRefinement hashKey cfg).run hinit ops
  exact ⟨hstate.symm, htrace⟩

end Engine

end SessionAffinity
