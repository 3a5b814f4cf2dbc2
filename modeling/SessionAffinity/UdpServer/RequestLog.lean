import SessionAffinity.Engine.RequestLog
import SessionAffinity.UdpServer.Service

/-!
# The log file of the server

The UDP server writes its request log to a file, and the file says what the server has answered
(`answers_eq_of_requestFile_eq`): two servers that have appended the same text to the same file
have given the same answers to the same clients, whatever their configurations are and whatever
the commands and the pauses between the packets.

* **The log of the server** is that of the engine behind it, so that the reader names the
  server's answers too (`readLog_requestLog`).
* **Its lines are clean.** A tuple with line feeds in its texts would forge lines, since the
  engine logs a tuple that it rejects. The server makes its tuples from the address of the
  sender, of digits and dots (`clean_requestLog`).
-/

namespace SessionAffinity

open ByteString (decimal signedDecimal)
open RequestLine (bracket lineFeed)

/-! ### Clean lines -/

/-- A text that neither ends a field of a line nor the line. -/
def Plain (t : ByteString) : Prop := bracket ∉ t ∧ lineFeed ∉ t

/-- The texts of a tuple are plain. -/
structure FiveTuple.Plain (ft : FiveTuple) : Prop where
  srcIp : SessionAffinity.Plain ft.srcIp
  dstIp : SessionAffinity.Plain ft.dstIp
  protocol : SessionAffinity.Plain ft.protocol

theorem Plain.append {t u : ByteString} (ht : Plain t) (hu : Plain u) : Plain (t ++ u) := by
  rw [Plain, List.mem_append, List.mem_append, not_or, not_or]
  exact ⟨⟨ht.1, hu.1⟩, ht.2, hu.2⟩

theorem plain_decimal (n : ℕ) : Plain (decimal n) :=
  ⟨ByteString.not_mem_decimal (by decide) n, ByteString.not_mem_decimal (by decide) n⟩

theorem plain_signedDecimal (z : ℤ) : Plain (signedDecimal z) :=
  ⟨ByteString.not_mem_signedDecimal (by decide) (by decide) z,
    ByteString.not_mem_signedDecimal (by decide) (by decide) z⟩

instance (t : ByteString) : Decidable (Plain t) := inferInstanceAs (Decidable (_ ∧ _))

/-- The key of a plain tuple is plain. -/
theorem FiveTuple.Plain.toKey {ft : FiveTuple} (h : ft.Plain) : SessionAffinity.Plain ft.toKey := by
  have hcolon : SessionAffinity.Plain (bytes ":") := by decide
  have harrow : SessionAffinity.Plain (bytes "->") := by decide
  have hslash : SessionAffinity.Plain (bytes "/") := by decide
  exact ((((((h.srcIp.append hcolon).append (plain_decimal _)).append harrow).append
    h.dstIp).append hcolon).append (plain_decimal _)).append hslash |>.append h.protocol

/-- The subnet of an address is part of it. -/
theorem plain_getSubnet {ip : ByteString} (h : Plain ip) : Plain (Security.getSubnet ip) := by
  have hsub (b : UInt8) (hb : b ∈ Security.getSubnet ip) : b ∈ ip := by
    rw [Security.getSubnet] at hb
    split_ifs at hb
    · have htail := List.mem_of_mem_tail (List.mem_reverse.mp hb)
      exact List.mem_reverse.mp ((List.dropWhile_sublist _).subset htail)
    · exact hb
  exact ⟨fun hb => h.1 (hsub _ hb), fun hb => h.2 (hsub _ hb)⟩

/-- What the payload check says is plain. -/
theorem plain_of_validatePayloadSize {payload errorMessage : ByteString} {maxSize : ℤ}
    (h : Security.validatePayloadSize payload maxSize = .error errorMessage) :
    Plain errorMessage := by
  rw [Security.validatePayloadSize] at h
  split_ifs at h <;> obtain rfl := Except.error.inj h
  · have hlarge : Plain (bytes "Payload too large: ") := by decide
    have hmax : Plain (bytes " bytes (max ") := by decide
    have hend : Plain (bytes ")") := by decide
    exact (((hlarge.append (plain_decimal _)).append hmax).append (plain_signedDecimal _)).append
      hend
  · decide

/-- What the tuple check says of a plain tuple is plain. -/
theorem plain_of_validateTuple {ft : FiveTuple} (hft : ft.Plain) {errorMessage : ByteString}
    (h : Security.validateTuple ft = .error errorMessage) : Plain errorMessage := by
  rw [Security.validateTuple] at h
  split_ifs at h <;> obtain rfl := Except.error.inj h
  · have hsrc : Plain (bytes "Invalid source IP: ") := by decide
    exact hsrc.append hft.srcIp
  · have hdst : Plain (bytes "Invalid destination IP: ") := by decide
    exact hdst.append hft.dstIp
  · decide
  · decide
  · have hprotocol : Plain (bytes "Invalid protocol: ") := by decide
    have hend : Plain (bytes " (must be TCP or UDP)") := by decide
    exact (hprotocol.append hft.protocol).append hend

/-- What the spoof check says of a plain address is plain. -/
theorem plain_of_checkSpoofing {cfg : Config} {sec : Security} {clk : Clock}
    {srcIp errorMessage : ByteString} (hip : Plain srcIp)
    (h : (Security.checkSpoofing cfg sec clk srcIp).2 = .error errorMessage) :
    Plain errorMessage := by
  simp only [Security.checkSpoofing] at h
  split_ifs at h
  obtain rfl := Except.error.inj h
  have hstart : Plain (bytes "Potential IP spoofing detected from subnet ") := by decide
  have hmask : Plain (bytes ".0/24 (") := by decide
  have hend : Plain (bytes " unique source IPs)") := by decide
  exact (((hstart.append (plain_getSubnet hip)).append hmask).append (plain_decimal _)).append hend

/-- What validation says of a plain tuple is plain. -/
theorem plain_of_fullValidation {cfg : Config} {sec : Security} {clk : Clock} {ft : FiveTuple}
    (hft : ft.Plain) {payload errorMessage : ByteString}
    (h : (Security.fullValidation cfg sec clk ft payload).2 = .error errorMessage) :
    Plain errorMessage := by
  rw [Security.fullValidation] at h
  cases hpayload : Security.validatePayloadSize payload cfg.maxPayloadSize with
  | error msg =>
    rw [hpayload] at h
    exact plain_of_validatePayloadSize (Except.error.inj h ▸ hpayload)
  | ok =>
    cases htuple : Security.validateTuple ft with
    | error msg =>
      rw [hpayload, htuple] at h
      exact plain_of_validateTuple hft (Except.error.inj h ▸ htuple)
    | ok =>
      rw [hpayload, htuple] at h
      exact plain_of_checkSpoofing hft.srcIp h

/-- What the limiter says is plain. -/
theorem plain_reason (rl : RateLimiter) (clk : Clock) : Plain (rl.rejectedRecord clk).reason := by
  have hstart : Plain (bytes "Rate limit exceeded (") := by decide
  have hper : Plain (bytes " req/") := by decide
  have hend : Plain (bytes "s)") := by decide
  exact (((hstart.append (plain_signedDecimal _)).append hper).append
    (plain_signedDecimal _)).append hend

/-- The text that an event takes from elsewhere. -/
def LogEvent.message? : LogEvent → Option ByteString
  | securityCheck errorMessage | security errorMessage => some errorMessage
  | rateLimited reason => some reason
  | _ => none

/-- The details of an event are plain if the text it takes is. -/
theorem LogEvent.plain_details {event : LogEvent} (h : ∀ m ∈ event.message?, Plain m) :
    Plain event.details := by
  have hback : Plain (bytes "Backend ") := by decide
  cases event with
  | lbPassive role => cases role <;> decide
  | securityCheck m | security m | rateLimited m => exact h m rfl
  | routeBlocked | noFailover | noBackend => decide
  | sticky backend =>
    have hstart : Plain (bytes "Sticky session -> backend ") := by decide
    exact hstart.append (plain_signedDecimal backend)
  | failover oldBackend newBackend =>
    have harrow : Plain (bytes " -> ") := by decide
    exact ((hback.append (plain_signedDecimal _)).append harrow).append (plain_signedDecimal _)
  | newSession backend =>
    have hstart : Plain (bytes "Assigned to backend ") := by decide
    exact hstart.append (plain_signedDecimal backend)
  | invalidBackend backend =>
    have hstart : Plain (bytes "Invalid backend ID: ") := by decide
    exact hstart.append (plain_signedDecimal backend)
  | processed backend n =>
    have hbar : Plain (bytes " | request #") := by decide
    have hend : Plain (bytes " for this tuple") := by decide
    exact (((hback.append (plain_signedDecimal _)).append hbar).append
      (plain_decimal _)).append hend
  | complete status backend role =>
    have hstart : Plain (bytes "Routed to backend ") := by decide
    have hvia : Plain (bytes " via ") := by decide
    have hend : Plain (bytes " LB") := by decide
    have hrole : Plain role.name := by cases role <;> decide
    exact (((hstart.append (plain_signedDecimal _)).append hvia).append hrole).append hend

namespace Engine

variable {hashKey : ByteString → UInt64} {e : Engine hashKey} {role : LBRole} {rd : Readings}
  {ft : FiveTuple}

/-- A line about the client `key` that takes no text from elsewhere. -/
def Bare (key : ByteString) (line : RequestLine) : Prop :=
  line.tupleKey = key ∧ line.event.message? = none

theorem bare_processLines {status : RequestStatus} {assigned : ℤ} {b : RequestHandler} :
    ∀ line ∈ processLines role ft status assigned b, Bare ft.toKey line := by
  intro line hline
  rw [processLines, RequestHandler.processLines] at hline
  split_ifs at hline <;> simp only [List.nil_append, List.singleton_append, List.mem_cons,
    List.not_mem_nil, or_false] at hline
  · rw [hline]
    exact ⟨rfl, rfl⟩
  · rcases hline with rfl | rfl <;> exact ⟨rfl, rfl⟩

theorem bare_of_noted {status : RequestStatus} {event : LogEvent}
    (h : SessionManager.Noted status event) (key : ByteString) : Bare key ⟨key, event⟩ := by
  cases h <;> exact ⟨rfl, rfl⟩

theorem bare_forwardLines {status : RequestStatus} {assigned : ℤ} :
    ∀ line ∈ e.forwardLines role rd ft status assigned, Bare ft.toKey line := by
  have hinvalid : ∀ line ∈ [(⟨ft.toKey, .invalidBackend assigned⟩ : RequestLine)],
      Bare ft.toKey line := List.forall_mem_singleton.mpr ⟨rfl, rfl⟩
  rw [forwardLines]
  split_ifs
  swap
  · exact hinvalid
  cases e.backend? assigned with
  | none => exact hinvalid
  | some b =>
    have hsecond := bare_of_noted ((e.evacuate rd.redistribute assigned).sessions.noted_routeRequest
      (e.evacuate rd.redistribute assigned).ring rd.reroute ft assigned) ft.toKey
    dsimp only
    split_ifs
    · exact bare_processLines
    · exact List.forall_mem_singleton.mpr hsecond
    · rw [List.forall_mem_cons]
      refine ⟨hsecond, ?_⟩
      cases (e.failover rd ft assigned).1.backend? (e.failover rd ft assigned).2.2 with
      | none => exact List.forall_mem_nil _
      | some b =>
        dsimp only
        split_ifs
        · exact bare_processLines
        · exact List.forall_mem_nil _

theorem bare_dispatchLines : ∀ line ∈ e.dispatchLines role rd ft, Bare ft.toKey line := by
  rw [dispatchLines, List.forall_mem_cons]
  refine ⟨bare_of_noted (SessionManager.noted_routeRequest _ _ _ ft (-1)) _, ?_⟩
  split_ifs
  · exact List.forall_mem_nil _
  · exact bare_forwardLines

/-- **A request with a plain tuple leaves clean lines.** -/
theorem clean_requestLines (cfg : Config) (e : Engine hashKey) (role : LBRole) (rd : Readings)
    (hft : ft.Plain) (payload : ByteString) :
    ∀ line ∈ e.requestLines cfg role rd ft payload, line.Clean := by
  have hclean {event : LogEvent} (h : ∀ m ∈ event.message?, Plain m) :
      RequestLine.Clean ⟨ft.toKey, event⟩ := ⟨hft.toKey.1, (LogEvent.plain_details h).2⟩
  have hbare {line : RequestLine} (h : Bare ft.toKey line) : line.Clean := by
    obtain ⟨key, event⟩ := line
    obtain ⟨rfl, hnone⟩ := h
    exact hclean fun m hm => by rw [hnone] at hm; exact absurd hm (Option.not_mem_none m)
  rw [requestLines, precheckLines, precheck]
  cases e.isActive role with
  | false => exact List.forall_mem_singleton.mpr (hbare ⟨rfl, rfl⟩)
  | true =>
    simp only [Bool.not_true, Bool.false_eq_true, if_false]
    rw [Security.validationLines]
    cases hvalid : (Security.fullValidation cfg e.security rd.validate ft payload).2 with
    | error errorMessage =>
      have hm : Plain errorMessage := plain_of_fullValidation hft hvalid
      refine List.forall_mem_append.mpr ⟨?_, List.forall_mem_nil _⟩
      have hmessage : ∀ m ∈ some errorMessage, Plain m := fun m h => Option.some.inj h ▸ hm
      exact List.forall_mem_append.mpr ⟨List.forall_mem_singleton.mpr (hclean hmessage),
        List.forall_mem_singleton.mpr (hclean hmessage)⟩
    | ok =>
      dsimp only
      rw [RateLimiter.limitLines]
      cases (e.limiter.allowRequest rd.limit ft.toKey).2 with
      | false =>
        refine List.forall_mem_singleton.mpr (hclean ?_)
        exact fun m h => Option.some.inj h ▸ plain_reason _ _
      | true =>
        simp only [if_true, List.nil_append]
        exact fun line hline => hbare (bare_dispatchLines line hline)

end Engine

namespace UdpServer

variable {hashKey : ByteString → UInt64}

/-! ### The log of the server -/

/-- The lines that a packet leaves: those of the request, if a balancer handles it. -/
def lines (cfg : ServerConfig) (s : UdpServer hashKey) (p : Packet) : List RequestLine :=
  match p.command? with
  | some _ => []
  | none =>
    if s.engine.isActive .primary then
      (s.engine.setActive .standby false).requestLines cfg.toConfig .primary p.readings
        (p.tuple cfg) p.payload
    else if s.engine.isActive .standby || shouldTakeover cfg p.now s.lastPrimaryHeartbeat then
      (s.engine.setActive .standby true).requestLines cfg.toConfig .standby p.readings
        (p.tuple cfg) p.payload
    else []

/-- The request log of a run of the server. -/
def requestLog (hashKey : ByteString → UInt64) (cfg : ServerConfig) (start : TimePoint)
    (ps : List Packet) : List RequestLine :=
  (machine hashKey cfg).log (lines cfg) (init hashKey cfg start) ps

/-- The client and the answer of a packet that a balancer handles. -/
def answered (cfg : ServerConfig) : Packet × Answer → Option (ByteString × Response)
  | (p, .handled _ response) => some ((p.tuple cfg).toKey, response)
  | _ => none

/-- What the balancers answer in a run, with the clients. -/
def answers (hashKey : ByteString → UInt64) (cfg : ServerConfig) (start : TimePoint)
    (ps : List Packet) : List (ByteString × Response) :=
  ((machine hashKey cfg).trace (init hashKey cfg start) ps).filterMap (answered cfg)

/-- The lines of a packet are those of the calls that it makes on the engine. -/
theorem lines_eq (cfg : ServerConfig) (s : UdpServer hashKey) (p : Packet) : lines cfg s p =
    (Engine.machine hashKey cfg.toConfig).log (Engine.lines cfg.toConfig) s.engine
      (calls cfg s p) := by
  rw [lines, calls]
  cases p.command? with
  | some command => cases command <;> rfl
  | none =>
    dsimp only
    rw [primaryActive, standbyActive]
    split_ifs
    · exact (List.append_nil _).symm
    · exact (List.append_nil _).symm
    · rfl

/-- The answer to a packet is that of the engine to the calls that it makes. -/
theorem answered_eq (cfg : ServerConfig) (s : UdpServer hashKey) (p : Packet) :
    (answered cfg (p, (machine hashKey cfg).answer s p)).toList =
      (Engine.machine hashKey cfg.toConfig).log (fun e op => (Engine.answered
        (op, (Engine.machine hashKey cfg.toConfig).answer e op)).toList) s.engine
        (calls cfg s p) := by
  show (answered cfg (p, (receive cfg s p).2)).toList = _
  rw [calls]
  cases hc : p.command? with
  | some command => cases command <;> rw [receive, hc] <;> rfl
  | none =>
    dsimp only
    cases hup : s.primaryActive with
    | true =>
      rw [receive_of_primary hc hup, if_pos rfl]
      rfl
    | false =>
      by_cases htake : (s.standbyActive || shouldTakeover cfg p.now s.lastPrimaryHeartbeat) = true
      · rw [receive_of_standby hc hup (Bool.or_eq_true _ _ ▸ htake), if_neg (by simp),
          if_pos htake]
        rfl
      · rw [Bool.or_eq_true, not_or, Bool.not_eq_true, Bool.not_eq_true] at htake
        rw [receive_of_none hc hup htake.1 htake.2, htake.1, htake.2]
        rfl

/-- **Log and answers of the server** are those of the engine behind it. -/
theorem exists_engine_run (cfg : ServerConfig) (start : TimePoint) (ps : List Packet) :
    ∃ ops, requestLog hashKey cfg start ps = Engine.requestLog hashKey cfg.toConfig ops ∧
      answers hashKey cfg start ps = Engine.answers hashKey cfg.toConfig ops := by
  refine ⟨_, (drives_engine cfg).log_log (lines_eq cfg) _ ps, ?_⟩
  rw [answers, Machine.filterMap_trace, Engine.answers, Machine.filterMap_trace]
  exact (drives_engine cfg).log_log (answered_eq cfg) _ ps

/-- The reader of the log names the answers. -/
theorem readLog_requestLog (cfg : ServerConfig) (start : TimePoint) (ps : List Packet) :
    Engine.readLog (requestLog hashKey cfg start ps) = answers hashKey cfg start ps := by
  obtain ⟨ops, hlog, hanswers⟩ := exists_engine_run cfg start ps
  rw [hlog, hanswers]
  exact (Engine.tells_requestLog _ ops).answers

/-- The tuple of a packet is plain. -/
theorem plain_tuple (cfg : ServerConfig) (p : Packet) : (p.tuple cfg).Plain := by
  have hdot : Plain (bytes ".") := by decide
  have hip : Plain p.srcIp :=
    (((((plain_decimal _).append hdot).append (plain_decimal _)).append hdot).append
      (plain_decimal _)).append hdot |>.append (plain_decimal _)
  have hany : Plain (bytes "0.0.0.0") := by decide
  have hudp : Plain (bytes "UDP") := by decide
  exact ⟨hip, hany, hudp⟩

/-- The log of the server is clean. -/
theorem clean_requestLog (cfg : ServerConfig) (start : TimePoint) (ps : List Packet) :
    ∀ line ∈ requestLog hashKey cfg start ps, line.Clean := by
  refine Machine.forall_mem_log _ _ (Machine.along_iff_forall_prefix _ |>.mpr fun _ p _ => ?_)
  rw [lines]
  cases p.command? with
  | some command => exact List.forall_mem_nil _
  | none =>
    dsimp only
    split_ifs
    · exact Engine.clean_requestLines _ _ _ _ (plain_tuple cfg p) _
    · exact Engine.clean_requestLines _ _ _ _ (plain_tuple cfg p) _
    · exact List.forall_mem_nil _

/-- **The log file says what the server has answered.** Two servers append the lines of their
runs to files of the same content, at whatever times. If the files agree afterwards, then the
same clients have been answered the same, in the same order: although hash functions and
configurations, commands and pauses may have been different. An answer is a `Response`: what is
refused and why, or status, backend and number. The limits that the text of a refusal quotes from
the configuration are not part of it. -/
theorem answers_eq_of_requestFile_eq {hashKey hashKey' : ByteString → UInt64}
    {cfg cfg' : ServerConfig} {start start' : TimePoint} {ps ps' : List Packet}
    {logger logger' : Logger} (hon : logger.enabled = true) (hon' : logger'.enabled = true)
    (hfile : logger.requestFile = logger'.requestFile)
    {written written' : List (WallTime × RequestLine)}
    (hwritten : written.map Prod.snd = requestLog hashKey cfg start ps)
    (hwritten' : written'.map Prod.snd = requestLog hashKey' cfg' start' ps')
    (h : (logger.logRequests written).requestFile = (logger'.logRequests written').requestFile) :
    answers hashKey cfg start ps = answers hashKey' cfg' start' ps' := by
  have hclean : ∀ w ∈ written, w.2.Clean := fun w hw =>
    clean_requestLog cfg start ps _ (hwritten ▸ List.mem_map_of_mem hw)
  have hclean' : ∀ w ∈ written', w.2.Clean := fun w hw =>
    clean_requestLog cfg' start' ps' _ (hwritten' ▸ List.mem_map_of_mem hw)
  have hlines := lines_of_requestFile hon hon' hfile hclean hclean' h
  rw [hwritten, hwritten'] at hlines
  rw [← readLog_requestLog, ← readLog_requestLog, hlines]

/-- A log that is written at one moment, for concrete runs. -/
def writtenAt (wall : WallTime) (log : List RequestLine) : List (WallTime × RequestLine) :=
  log.map fun line => (wall, line)

/-- A client that is served, and the same with a balancer that dies and comes back before. -/
theorem answers_eq_of_requestFile_eq_revived :
    requestLog fnvHashKey .pair 0 [.at 1 (bytes "hello")] ≠ [] ∧
    answers fnvHashKey .pair 0 [.at 1 (bytes "hello")] =
      answers fnvHashKey .pair 0 [.at 0 (bytes "CMD:KILL_PRIMARY"),
        .at 0 (bytes "CMD:REVIVE_PRIMARY"), .at 1 (bytes "hello")] := by
  have hlog : requestLog fnvHashKey .pair 0 [.at 1 (bytes "hello")] =
      requestLog fnvHashKey .pair 0 [.at 0 (bytes "CMD:KILL_PRIMARY"),
        .at 0 (bytes "CMD:REVIVE_PRIMARY"), .at 1 (bytes "hello")] := by decide +kernel
  have hwritten : (writtenAt ⟨2024, 1, 2, 3, 4, 5, 6⟩ (requestLog fnvHashKey .pair 0
      [.at 1 (bytes "hello")])).map Prod.snd =
        requestLog fnvHashKey .pair 0 [.at 1 (bytes "hello")] := by
    rw [writtenAt, List.map_map]
    exact List.map_id _
  have hon : (⟨true, []⟩ : Logger).enabled = true := rfl
  refine ⟨by decide +kernel, ?_⟩
  exact answers_eq_of_requestFile_eq hon hon rfl hwritten (hwritten.trans hlog) rfl

end UdpServer

end SessionAffinity
