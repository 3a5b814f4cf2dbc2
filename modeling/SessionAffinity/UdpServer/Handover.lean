import SessionAffinity.UdpServer

/-!
# Handover between primary and standby

Which balancer is active, and which one serves a packet, as a function of what the server has
received and answered. Three things can be read off the past: the last command, the balancer
that served last, and when the primary last served. They are what the two flags and the
heartbeat hold (`tracks_run`).

`both_active_iff` is about the overlap of the two balancers. The standby yields when the
primary serves its next packet, not when the primary is revived, so both are active in between,
and at no other time. `who_serves` is about service: the primary serves whenever it is active;
during an outage the standby serves from the first packet that comes late enough, or from the
start if it has not yielded since it last took over, and then for all of the outage.
-/

namespace SessionAffinity

namespace UdpServer

variable {hashKey : ByteString → UInt64}

/-! ### What the past tells -/

/-- The last command received. -/
def lastCommand (packets : List Packet) : Option Command :=
  (packets.filterMap Packet.command?).getLast?

/-- The balancer that served last. -/
def lastServer (trace : List (Packet × Answer)) : Option LBRole :=
  (trace.filterMap fun c => c.2.server?).getLast?

/-- The time of the last packet that the primary served, or of the start. -/
def lastServed (start : TimePoint) (trace : List (Packet × Answer)) : TimePoint :=
  ((trace.filter fun c => c.2.server? = some .primary).getLast?.map fun c => c.1.now).getD start

/-- Of the packets received so far, a normal one of the present outage came more than
`LB_FAILOVER_THRESHOLD_MS` whole milliseconds after `served`: the primary was inactive, and it
has not been revived since. -/
def Overdue (cfg : ServerConfig) (s : UdpServer hashKey) (packets : List Packet)
    (served : TimePoint) : Prop :=
  ∃ before q after, packets = before ++ q :: after ∧ q.command? = none ∧
    ((machine hashKey cfg).run s before).primaryActive = false ∧
    (∀ r ∈ after, r.command? ≠ some .revivePrimary) ∧
    cfg.lbFailoverThresholdMs < (q.now - served) / 1000000

theorem lastCommand_concat (packets : List Packet) (p : Packet) :
    lastCommand (packets ++ [p]) = p.command?.or (lastCommand packets) := by
  rw [lastCommand, lastCommand, List.filterMap_append, List.getLast?_append, List.filterMap_cons]
  cases p.command? <;> rfl

theorem lastServer_concat (trace : List (Packet × Answer)) (c : Packet × Answer) :
    lastServer (trace ++ [c]) = c.2.server?.or (lastServer trace) := by
  rw [lastServer, lastServer, List.filterMap_append, List.getLast?_append, List.filterMap_cons]
  cases c.2.server? <;> rfl

theorem lastServed_concat (start : TimePoint) (trace : List (Packet × Answer))
    (c : Packet × Answer) : lastServed start (trace ++ [c]) =
      if c.2.server? = some .primary then c.1.now else lastServed start trace := by
  rw [lastServed, List.filter_append, List.getLast?_append]
  by_cases hc : c.2.server? = some .primary
  · simp [hc]
  · simp [hc, lastServed]

/-- The flags and the heartbeat hold what the past tells. -/
structure Tracks (start : TimePoint) (packets : List Packet) (trace : List (Packet × Answer))
    (s : UdpServer hashKey) : Prop where
  primary : s.primaryActive = true ↔ lastCommand packets ≠ some .killPrimary
  standby : s.standbyActive = true ↔ lastServer trace = some .standby
  heartbeat : s.lastPrimaryHeartbeat = lastServed start trace
  /-- The standby has never been needed before the first command. -/
  unneeded : lastCommand packets = none → lastServer trace ≠ some .standby

/-- **Every packet keeps the state in step with the past.** -/
theorem Tracks.next {cfg : ServerConfig} {start : TimePoint} {packets : List Packet}
    {trace : List (Packet × Answer)} {s : UdpServer hashKey} (h : Tracks start packets trace s)
    (p : Packet) : Tracks start (packets ++ [p]) (trace ++ [(p, (machine hashKey cfg).answer s p)])
      ((machine hashKey cfg).next s p) := by
  have hturn := turn_receive cfg s p
  simp only [Machine.answer, Machine.next, machine]
  generalize receive cfg s p = r at hturn
  obtain ⟨hprimary, hstandby, hheartbeat, hunneeded⟩ := h
  cases hturn with
  | kill hc hp hs hb =>
    constructor
    · simp [lastCommand_concat, hc, hp]
    · simpa [lastServer_concat, Answer.server?, hs] using hstandby
    · simpa [lastServed_concat, Answer.server?, hb] using hheartbeat
    · simp [lastCommand_concat, hc]
  | revive hc hp hs hb =>
    constructor
    · simp [lastCommand_concat, hc, hp]
    · simpa [lastServer_concat, Answer.server?, hs] using hstandby
    · simpa [lastServed_concat, Answer.server?, hb] using hheartbeat
    · simp [lastCommand_concat, hc]
  | primary hc hup hp hs hb =>
    constructor
    · simpa [lastCommand_concat, hc, hp, hup] using hprimary
    · simp [lastServer_concat, Answer.server?, hs]
    · simp [lastServed_concat, Answer.server?, hb]
    · simp [lastServer_concat, Answer.server?]
  | standby hc hup htake hp hs hb =>
    constructor
    · simpa [lastCommand_concat, hc, hp, hup] using hprimary
    · simp [lastServer_concat, Answer.server?, hs]
    · simpa [lastServed_concat, Answer.server?, hb] using hheartbeat
    · -- the primary is down, so there has been a command
      intro hnone
      rw [lastCommand_concat, hc, Option.none_or] at hnone
      exact absurd (hprimary.mpr (by simp [hnone])) (by simp [hup])
  | refused hc hup hs =>
    constructor
    · simpa [lastCommand_concat, hc] using hprimary
    · simpa [lastServer_concat, Answer.server?] using hstandby
    · simpa [lastServed_concat, Answer.server?] using hheartbeat
    · simpa [lastCommand_concat, lastServer_concat, Answer.server?, hc] using hunneeded

/-- **The state is what the past tells**, after every sequence of packets. -/
theorem tracks_run (hashKey : ByteString → UInt64) (cfg : ServerConfig) (start : TimePoint)
    (packets : List Packet) :
    Tracks start packets ((machine hashKey cfg).trace (init hashKey cfg start) packets)
      ((machine hashKey cfg).run (init hashKey cfg start) packets) := by
  refine (machine hashKey cfg).run_history (s := init hashKey cfg start)
    (C := fun is s => Tracks start is ((machine hashKey cfg).trace (init hashKey cfg start) is) s)
    ?_ (fun is p h => ?_) packets
  · exact ⟨by simp [lastCommand]; rfl, by simp [lastServer]; rfl, rfl, by simp [lastServer]⟩
  · rw [Machine.trace_concat]
    exact h.next p

/-! ### Split brain -/

/-- **When both balancers are active.** After any packets, at any times, both are active if and
only if the standby served last and the last command was to revive the primary. So they never
are after a normal packet: the next one after the revival ends it. -/
theorem both_active_iff (hashKey : ByteString → UInt64) (cfg : ServerConfig) (start : TimePoint)
    (packets : List Packet) :
    (((machine hashKey cfg).run (init hashKey cfg start) packets).primaryActive = true ∧
        ((machine hashKey cfg).run (init hashKey cfg start) packets).standbyActive = true ↔
      lastServer ((machine hashKey cfg).trace (init hashKey cfg start) packets) =
          some .standby ∧
        lastCommand packets = some .revivePrimary) ∧
    ∀ p, p.command? = none →
      ¬ (((machine hashKey cfg).run (init hashKey cfg start) (packets ++ [p])).primaryActive =
          true ∧
        ((machine hashKey cfg).run (init hashKey cfg start) (packets ++ [p])).standbyActive =
          true) := by
  obtain ⟨hprimary, hstandby, -, hunneeded⟩ := tracks_run hashKey cfg start packets
  constructor
  · rw [hprimary, hstandby, and_comm]
    refine and_congr_right fun hserver => ?_
    cases hc : lastCommand packets with
    | none => exact absurd hserver (hunneeded hc)
    | some command => cases command <;> simp
  · rintro p hc ⟨hp, hs⟩
    rw [Machine.run_concat] at hp hs
    have hturn := turn_receive cfg ((machine hashKey cfg).run (init hashKey cfg start) packets) p
    simp only [Machine.next, machine] at hp hs hturn
    generalize receive cfg _ p = r at hturn hp hs
    cases hturn with
    | kill hc' | revive hc' => exact absurd (hc.symm.trans hc') (by simp)
    | primary _ _ _ hs' => exact absurd (hs.symm.trans hs') (by simp)
    | standby _ _ _ hp' => exact absurd (hp.symm.trans hp') (by simp)
    | refused _ hp' => exact absurd (hp.symm.trans hp') (by simp)

/-- The primary is killed, the standby takes over four seconds later, and the primary is
revived: now both are active. -/
theorem both_active_revived : ¬ ∀ packets : List Packet,
    (0 :: packets.map Packet.now).Pairwise (· ≤ ·) →
      ¬ (((machine fnvHashKey .pair).run (init fnvHashKey .pair 0) packets).primaryActive = true ∧
        ((machine fnvHashKey .pair).run (init fnvHashKey .pair 0) packets).standbyActive =
          true) := by
  intro h
  exact h [.at 0 (bytes "CMD:KILL_PRIMARY"), .at (seconds 4) (bytes "hello"),
    .at (seconds 5) (bytes "CMD:REVIVE_PRIMARY")] (by decide) (by decide +kernel)

/-! ### Service -/

/-- While the primary is down, it serves nothing, and the standby does not yield. -/
theorem run_of_outage (cfg : ServerConfig) {s : UdpServer hashKey}
    (hdown : s.primaryActive = false) {packets : List Packet}
    (hpackets : ∀ p ∈ packets, p.command? ≠ some .revivePrimary) :
    ((machine hashKey cfg).run s packets).primaryActive = false ∧
      ((machine hashKey cfg).run s packets).lastPrimaryHeartbeat = s.lastPrimaryHeartbeat ∧
      (s.standbyActive = true → ((machine hashKey cfg).run s packets).standbyActive = true) := by
  refine (machine hashKey cfg).run_invariant_of_forall (I := fun s' => s'.primaryActive = false ∧
    s'.lastPrimaryHeartbeat = s.lastPrimaryHeartbeat ∧
    (s.standbyActive = true → s'.standbyActive = true))
    (P := fun p => p.command? ≠ some .revivePrimary) ?_ ⟨hdown, rfl, id⟩ hpackets
  rintro s' p ⟨hdown', hbeat, hkeep⟩ hp
  have hturn := turn_receive cfg s' p
  simp only [Machine.next, machine]
  generalize receive cfg s' p = r at hturn
  cases hturn with
  | kill _ hp' hs hb => exact ⟨hp', hb.trans hbeat, fun h => hs.trans (hkeep h)⟩
  | revive hc => exact absurd hc hp
  | primary _ hup => exact absurd (hup.symm.trans hdown') (by simp)
  | standby _ _ _ hp' hs hb => exact ⟨hp', hb.trans hbeat, fun _ => hs⟩
  | refused => exact ⟨hdown', hbeat, hkeep⟩

/-- The time the primary last served is that of a packet or of the start. -/
theorem lastServed_mem (start : TimePoint) (trace : List (Packet × Answer)) :
    lastServed start trace ∈ start :: (trace.map Prod.fst).map Packet.now := by
  rw [lastServed]
  cases hl : (trace.filter fun c => c.2.server? = some .primary).getLast? with
  | none => exact List.mem_cons_self
  | some c =>
    have hc := List.mem_of_mem_filter (List.mem_of_getLast? hl)
    exact List.mem_cons_of_mem _ (List.mem_map_of_mem (List.mem_map_of_mem hc))

/-- For a heartbeat in the past, the truncated milliseconds are whole ones. -/
theorem shouldTakeover_iff {cfg : ServerConfig} {now beat : TimePoint} (h : beat ≤ now) :
    shouldTakeover cfg now beat = true ↔ cfg.lbFailoverThresholdMs < (now - beat) / 1000000 := by
  rw [shouldTakeover, decide_eq_true_iff, Int.tdiv_eq_ediv_of_nonneg (sub_nonneg.mpr h)]

section Service

variable {cfg : ServerConfig} {start : TimePoint} {packets : List Packet} {p : Packet}
  (htimes : (start :: (packets ++ [p]).map Packet.now).Pairwise (· ≤ ·))
include htimes

variable (hashKey cfg) in
/-- The heartbeat lies in the past. -/
theorem lastPrimaryHeartbeat_le {before after : List Packet} {q : Packet}
    (hq : packets ++ [p] = before ++ q :: after) :
    ((machine hashKey cfg).run (init hashKey cfg start) before).lastPrimaryHeartbeat ≤ q.now := by
  rw [(tracks_run hashKey cfg start before).heartbeat]
  have hmem := lastServed_mem start ((machine hashKey cfg).trace (init hashKey cfg start) before)
  rw [Machine.map_fst_trace] at hmem
  rw [hq, List.map_append, ← List.cons_append, List.pairwise_append] at htimes
  exact htimes.2.2 _ hmem _ (by simp)

/-- **A late packet of an outage is served by the standby, and so is every later one of it.** -/
theorem standby_of_overdue
    (h : Overdue cfg (init hashKey cfg start) (packets ++ [p])
      ((machine hashKey cfg).run (init hashKey cfg start) packets).lastPrimaryHeartbeat) :
    ((machine hashKey cfg).run (init hashKey cfg start) packets).standbyActive = true ∨
      shouldTakeover cfg p.now
        ((machine hashKey cfg).run (init hashKey cfg start) packets).lastPrimaryHeartbeat =
          true := by
  obtain ⟨before, q, after, hq, hc, hdownq, hafter, hlate⟩ := h
  rcases List.eq_nil_or_concat' after with rfl | ⟨after, p', rfl⟩
  · -- the late packet is the present one
    obtain ⟨rfl, hp⟩ := List.append_inj' hq rfl
    obtain rfl : p = q := by simpa using hp
    exact .inr ((shouldTakeover_iff (lastPrimaryHeartbeat_le hashKey cfg htimes hq)).mpr hlate)
  · -- the late packet was an earlier one, and nothing has changed since
    obtain ⟨rfl, -⟩ : packets = before ++ q :: after ∧ [p] = [p'] :=
      List.append_inj' (hq.trans (by simp)) rfl
    have hle := lastPrimaryHeartbeat_le hashKey cfg htimes hq
    have hquiet : ∀ r ∈ after, r.command? ≠ some .revivePrimary := fun r hr =>
      hafter r (List.mem_append_left _ hr)
    rw [Machine.run_append] at hlate ⊢
    generalize (machine hashKey cfg).run (init hashKey cfg start) before = s at hdownq hlate hle ⊢
    have hquiet' : ∀ r ∈ q :: after, r.command? ≠ some .revivePrimary := fun r hr =>
      (List.mem_cons.mp hr).elim (fun h => by simp [h, hc]) (hquiet r)
    have hbeat := (run_of_outage cfg hdownq hquiet').2.1
    rw [hbeat] at hlate
    left
    rw [Machine.run_cons]
    have hturn := turn_receive cfg s q
    simp only [Machine.next, machine]
    generalize receive cfg s q = r at hturn
    cases hturn with
    | kill hc' | revive hc' => exact absurd (hc.symm.trans hc') (by simp)
    | primary _ hup => exact absurd (hup.symm.trans hdownq) (by simp)
    | standby _ _ _ hp hs => exact (run_of_outage cfg hp hquiet).2.2 hs
    | refused _ _ _ hearly =>
      exact absurd (hearly.symm.trans ((shouldTakeover_iff hle).mpr hlate)) (by simp)

variable (hashKey cfg) in
/-- During an outage the standby is ready to serve if it served last, or a packet of the outage
has come late. -/
theorem ready_iff (hc : p.command? = none)
    (hdown : ((machine hashKey cfg).run (init hashKey cfg start) packets).primaryActive = false) :
    (((machine hashKey cfg).run (init hashKey cfg start) packets).standbyActive = true ∨
      shouldTakeover cfg p.now
        ((machine hashKey cfg).run (init hashKey cfg start) packets).lastPrimaryHeartbeat = true) ↔
      lastServer ((machine hashKey cfg).trace (init hashKey cfg start) packets) = some .standby ∨
        Overdue cfg (init hashKey cfg start) (packets ++ [p])
          (lastServed start ((machine hashKey cfg).trace (init hashKey cfg start) packets)) := by
  have htracks := tracks_run hashKey cfg start packets
  rw [← htracks.standby, ← htracks.heartbeat]
  constructor
  · rintro (hs | htake)
    · exact .inl hs
    · have hle := lastPrimaryHeartbeat_le hashKey cfg htimes
        (show packets ++ [p] = packets ++ p :: [] from rfl)
      exact .inr ⟨packets, p, [], rfl, hc, hdown, by simp, (shouldTakeover_iff hle).mp htake⟩
  · rintro (hs | hlate)
    · exact .inl hs
    · exact standby_of_overdue htimes hlate

end Service

/-- A standby that has served is active as long as the primary is not revived. -/
theorem standby_of_served {cfg : ServerConfig} {s : UdpServer hashKey} {q : Packet}
    (hq : ((machine hashKey cfg).answer s q).server? = some .standby) {packets : List Packet}
    (hpackets : ∀ r ∈ packets, r.command? ≠ some .revivePrimary) :
    ((machine hashKey cfg).run s (q :: packets)).primaryActive = false ∧
      ((machine hashKey cfg).run s (q :: packets)).standbyActive = true := by
  rw [Machine.run_cons]
  have hturn := turn_receive cfg s q
  simp only [Machine.answer, Machine.next, machine] at hq ⊢
  generalize receive cfg s q = r at hturn hq
  cases hturn with
  | standby _ _ _ hp hs =>
    have hrun := run_of_outage cfg hp hpackets
    exact ⟨hrun.1, hrun.2.2 hs⟩
  | _ => exact absurd hq (by simp [Answer.server?])

/-- **Who serves a packet.** Let packets arrive at nondecreasing times from the start, of which
the last is a normal one. The primary serves it if and only if it is active, and then the
standby is passive afterwards. If the primary is inactive, the standby serves it if and only if
the standby served last, and so has not yielded since it took over, or some normal packet of
this outage came too long after the primary served last; else the packet is refused. Whoever
serves it is active, so that it is never told otherwise. And once the standby has served in an
outage, it serves every normal packet of it. -/
theorem who_serves (hashKey : ByteString → UInt64) (cfg : ServerConfig) (start : TimePoint)
    (packets : List Packet) (p : Packet) (hc : p.command? = none)
    (htimes : (start :: (packets ++ [p]).map Packet.now).Pairwise (· ≤ ·))
    (s : UdpServer hashKey) (hs : s = (machine hashKey cfg).run (init hashKey cfg start) packets)
    (trace : List (Packet × Answer))
    (htrace : trace = (machine hashKey cfg).trace (init hashKey cfg start) packets) :
    (s.primaryActive = true ↔
      ∃ response, (machine hashKey cfg).answer s p = .handled .primary response) ∧
    (s.primaryActive = true → ((machine hashKey cfg).next s p).standbyActive = false) ∧
    (s.primaryActive = false →
      ((∃ response, (machine hashKey cfg).answer s p = .handled .standby response) ↔
        lastServer trace = some .standby ∨
          Overdue cfg (init hashKey cfg start) (packets ++ [p]) (lastServed start trace)) ∧
      ((∀ response, (machine hashKey cfg).answer s p ≠ .handled .standby response) →
        (machine hashKey cfg).answer s p = .noActive)) ∧
    (∀ role response, (machine hashKey cfg).answer s p = .handled role response →
      ((machine hashKey cfg).next s p).engine.isActive role = true ∧
      ∀ role', response ≠ .notActive role') ∧
    (∀ before q after, packets = before ++ q :: after →
      ((machine hashKey cfg).answer
        ((machine hashKey cfg).run (init hashKey cfg start) before) q).server? = some .standby →
      (∀ r ∈ after, r.command? ≠ some .revivePrimary) →
      ∃ response, (machine hashKey cfg).answer s p = .handled .standby response) := by
  have hready := ready_iff hashKey cfg htimes hc
  rw [← hs, ← htrace] at hready
  have hkeeps : ∀ before q after, packets = before ++ q :: after →
      ((machine hashKey cfg).answer
        ((machine hashKey cfg).run (init hashKey cfg start) before) q).server? = some .standby →
      (∀ r ∈ after, r.command? ≠ some .revivePrimary) →
      s.primaryActive = false ∧ s.standbyActive = true := by
    rintro before q after rfl hq hafter
    rw [hs, Machine.run_append]
    exact standby_of_served hq hafter
  have hturn := turn_receive cfg s p
  simp only [Machine.answer, Machine.next, machine] at hkeeps ⊢
  generalize receive cfg s p = r at hturn
  cases hturn with
  | kill hc' | revive hc' => exact absurd (hc.symm.trans hc') (by simp)
  | primary _ hup hp hsb _ hr =>
    refine ⟨⟨fun _ => ⟨_, rfl⟩, fun _ => hup⟩, fun _ => hsb, fun hdown => ?_, ?_, ?_⟩
    · exact absurd (hup.symm.trans hdown) (by simp)
    · rintro role response h
      obtain ⟨rfl, rfl⟩ := Answer.handled.inj h
      exact ⟨hp, hr⟩
    · intro before q after hpackets hq hafter
      exact absurd (hup.symm.trans (hkeeps before q after hpackets hq hafter).1) (by simp)
  | standby _ hup htake hp hsb _ hr =>
    refine ⟨⟨fun h => ?_, ?_⟩, fun h => ?_, fun hdown => ⟨?_, fun h => ?_⟩, ?_, ?_⟩
    · exact absurd (h.symm.trans hup) (by simp)
    · rintro ⟨_, h⟩
      exact absurd (Answer.handled.inj h).1 (by simp)
    · exact absurd (h.symm.trans hup) (by simp)
    · exact iff_of_true ⟨_, rfl⟩ ((hready hdown).mp htake)
    · exact absurd rfl (h _)
    · rintro role response h
      obtain ⟨rfl, rfl⟩ := Answer.handled.inj h
      exact ⟨hsb, hr⟩
    · exact fun _ _ _ _ _ _ => ⟨_, rfl⟩
  | refused _ hup hsb htake =>
    refine ⟨⟨fun h => ?_, ?_⟩, fun h => ?_, fun hdown => ⟨?_, fun _ => rfl⟩, ?_, ?_⟩
    · exact absurd (h.symm.trans hup) (by simp)
    · rintro ⟨_, h⟩
      exact absurd h (by simp)
    · exact absurd (h.symm.trans hup) (by simp)
    · refine iff_of_false ?_ fun h => ?_
      · rintro ⟨_, h⟩
        simp at h
      rcases (hready hdown).mpr h with h | h
      · exact absurd (h.symm.trans hsb) (by simp)
      · exact absurd (h.symm.trans htake) (by simp)
    · exact fun _ _ h => absurd h (by simp)
    · intro before q after hpackets hq hafter
      exact absurd ((hkeeps before q after hpackets hq hafter).2.symm.trans hsb) (by simp)

/-- Four seconds into an outage the standby serves, though it refused after one. -/
theorem who_serves_late : ∃ response,
    (machine fnvHashKey .pair).answer ((machine fnvHashKey .pair).run (init fnvHashKey .pair 0)
      [.at 0 (bytes "CMD:KILL_PRIMARY"), .at (seconds 1) (bytes "hello")])
        (.at (seconds 4) (bytes "hello")) = .handled .standby response := by
  have hdown : ((machine fnvHashKey .pair).run (init fnvHashKey .pair 0)
      [.at 0 (bytes "CMD:KILL_PRIMARY"), .at (seconds 1) (bytes "hello")]).primaryActive =
        false := by decide +kernel
  exact ((who_serves fnvHashKey .pair 0 _ (.at (seconds 4) (bytes "hello")) (by decide) (by decide)
    _ rfl _ rfl).2.2.1 hdown).1.mpr (.inr ⟨_, _, [], rfl, by decide, hdown, by simp,
      by decide +kernel⟩)

end UdpServer

end SessionAffinity
