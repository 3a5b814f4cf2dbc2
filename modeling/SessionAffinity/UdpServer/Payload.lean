import SessionAffinity.Engine.Affinity
import SessionAffinity.UdpServer

/-!
# Payload sizes from end to end

Only requests with a payload of `1` to `MAX_PAYLOAD_SIZE` bytes are meant to get as far as the
session table or a backend. Admission checks a size to that end, but it need not be the size of
what came in, and there are two gaps.

* `validatePayloadSize` narrows the size to an `int`, so a size from `2 ^ 31` on may look small.
* The server makes a C string of what it has received, so a datagram with a zero byte in it counts
  up to that byte only.

`enforced_iff` says that these are the only ones: a payload or a datagram of the wrong size is kept
out unless it passes through its gap and nothing else refuses it.
-/

namespace SessionAffinity

namespace Engine

variable {hashKey : ByteString → UInt64}

/-- A call has got as far as the session table or a backend: it has routed a request, or one of
them is not what it was. -/
def Reached (e e' : Engine hashKey) (routed : Bool) : Prop :=
  routed = true ∨ e'.sessions ≠ e.sessions ∨ e'.backends ≠ e.backends

section Request

variable {cfg : Config} {e : Engine hashKey} {role : LBRole} {rd : Readings} {ft : FiveTuple}
  {payload : ByteString}

/-- **How far a request gets.** What admission refuses leaves the session table and the backends
as they are; everything else is routed. -/
theorem reached_handleRequest_iff :
    Reached e (e.handleRequest cfg role rd ft payload).1
        (e.handleRequest cfg role rd ft payload).2.isRouted ↔
      e.isActive role = true ∧
        Security.validatePayloadSize payload cfg.maxPayloadSize = .ok () ∧
          e.Admits cfg rd ft := by
  rw [← precheck_eq_none_iff, ← isRouted_handleRequest]
  refine ⟨fun h => ?_, .inl⟩
  by_contra hrefused
  obtain ⟨security, limiter, ⟨response, -, hr⟩ | ⟨hpass, -⟩⟩ :=
    e.handleRequest_cases cfg role rd ft payload
  · rw [hr] at h hrefused
    exact h.elim hrefused fun hchanged => hchanged.elim (· rfl) (· rfl)
  · exact hrefused (isRouted_handleRequest.mpr hpass)

end Request

end Engine

namespace Packet

/-- `n`, the number of bytes that have been received. -/
def size (p : Packet) : ℕ := (p.data.take 4095).length

/-- What the loop makes a string of is no longer than what it has received. -/
theorem length_payload_le (p : Packet) : p.payload.length ≤ p.size :=
  (List.takeWhile_sublist _).length_le

/-- The receive buffer is small, so the size of a string made of it is an `int`. -/
theorem toInt_length_payload (p : Packet) : toInt p.payload.length = p.payload.length := by
  have hle := p.length_payload_le
  have hbuffer : p.size ≤ 4095 := List.length_take_le _ _
  exact toInt_of_lt (by omega)

end Packet

namespace UdpServer

open Engine (Reached reached_handleRequest_iff)

variable {hashKey : ByteString → UInt64}

/-- The packet has been handed to a balancer, and its request has been routed. -/
def Answer.isRouted : Answer → Bool
  | handled _ response => response.isRouted
  | _ => false

/-- Some balancer takes the packet: one that is active, or the standby that takes over. -/
def Serves (cfg : ServerConfig) (s : UdpServer hashKey) (p : Packet) : Prop :=
  s.primaryActive = true ∨ s.standbyActive = true ∨
    shouldTakeover cfg p.now s.lastPrimaryHeartbeat = true

instance (cfg : ServerConfig) (s : UdpServer hashKey) (p : Packet) : Decidable (s.Serves cfg p) :=
  inferInstanceAs (Decidable (_ ∨ _ ∨ _))

section Receive

variable {cfg : ServerConfig} {s : UdpServer hashKey} {p : Packet}

variable (cfg s p) in
/-- How far a packet gets that is handed to an active balancer, with whatever flags and
heartbeat. -/
theorem reached_handle_iff {role : LBRole} {active : Bool} (now : TimePoint)
    (h : (s.engine.setActive .standby active).isActive role = true) :
    Reached s.engine (handle cfg ⟨s.engine.setActive .standby active, now⟩ role p).1.engine
        (handle cfg ⟨s.engine.setActive .standby active, now⟩ role p).2.isRouted ↔
      Security.validatePayloadSize p.payload cfg.maxPayloadSize = .ok () ∧
        s.engine.Admits cfg.toConfig p.readings (p.tuple cfg) := by
  -- reaching and admitting do not look at the flags
  refine Iff.trans (reached_handleRequest_iff (e := s.engine.setActive .standby active)) ?_
  rw [and_iff_right h]
  exact Iff.rfl

/-- **How far a packet gets** that is not a command. -/
theorem reached_receive_iff (hc : p.command? = none) :
    Reached s.engine (receive cfg s p).1.engine (receive cfg s p).2.isRouted ↔
      s.Serves cfg p ∧
        Security.validatePayloadSize p.payload cfg.maxPayloadSize = .ok () ∧
          s.engine.Admits cfg.toConfig p.readings (p.tuple cfg) := by
  cases hup : s.primaryActive with
  | true =>
    have hserves : s.Serves cfg p := .inl hup
    rw [receive_of_primary hc hup, and_iff_right hserves]
    exact reached_handle_iff cfg s p p.now hup
  | false =>
    by_cases htake : s.standbyActive = true ∨
        shouldTakeover cfg p.now s.lastPrimaryHeartbeat = true
    · have hserves : s.Serves cfg p := .inr htake
      rw [receive_of_standby hc hup htake, and_iff_right hserves]
      exact reached_handle_iff cfg s p s.lastPrimaryHeartbeat rfl
    · have hnone : ¬ s.Serves cfg p := by simpa [Serves, hup] using htake
      rw [not_or, Bool.not_eq_true, Bool.not_eq_true] at htake
      rw [receive_of_none hc hup htake.1 htake.2]
      exact iff_of_false (by simp [Reached, Answer.isRouted]) fun h => hnone h.1

end Receive

/-- A gate lets in what passes a test and is not empty, if other conditions hold. What it lets in is
of a size within the limit exactly when the test says as much, or another condition fails. -/
private theorem gate_iff {serves passes nonempty admits : Prop} {size : ℕ} {limit : ℤ}
    (hpos : nonempty → 1 ≤ size) :
    (serves ∧ (passes ∧ nonempty) ∧ admits → 1 ≤ size ∧ size ≤ limit) ↔
      (nonempty → passes → size ≤ limit) ∨ ¬ serves ∨ ¬ admits := by
  constructor
  · intro h
    by_cases hserves : serves
    · by_cases hadmits : admits
      · exact .inl fun hne hpasses => (h ⟨hserves, ⟨hpasses, hne⟩, hadmits⟩).2
      · exact .inr (.inr hadmits)
    · exact .inr (.inl hserves)
  · rintro (hfits | hserves | hadmits) ⟨hserves', ⟨hpasses, hne⟩, hadmits'⟩
    · exact ⟨hpos hne, hfits hne hpasses⟩
    · exact absurd hserves' hserves
    · exact absurd hadmits' hadmits

/-- **When payload sizes are enforced**, from any state and for payloads of any length. A request
gets as far as the session table or a backend only with `1` to `MAX_PAYLOAD_SIZE` bytes of payload
exactly when its payload is not a larger one that passes for its size as an `int`, or the request
is refused for something else. A datagram that is not a command gets that far only with so many
bytes exactly when it is not a larger one that a zero byte cuts down to the limit or below, but not
to nothing, or no balancer takes it, or it is refused for something else. -/
theorem enforced_iff (hashKey : ByteString → UInt64) (cfg : ServerConfig) :
    (∀ (e : Engine hashKey) (role : LBRole) (rd : Readings) (ft : FiveTuple) (payload : ByteString),
      (Reached e (e.handleRequest cfg.toConfig role rd ft payload).1
          (e.handleRequest cfg.toConfig role rd ft payload).2.isRouted →
        1 ≤ payload.length ∧ payload.length ≤ cfg.maxPayloadSize) ↔
      (payload ≠ [] → toInt payload.length ≤ cfg.maxPayloadSize →
          payload.length ≤ cfg.maxPayloadSize) ∨
        ¬ e.isActive role = true ∨ ¬ e.Admits cfg.toConfig rd ft) ∧
    (∀ (s : UdpServer hashKey) (p : Packet), p.command? = none →
      ((Reached s.engine (receive cfg s p).1.engine (receive cfg s p).2.isRouted →
        1 ≤ p.size ∧ p.size ≤ cfg.maxPayloadSize) ↔
      (p.payload ≠ [] → p.payload.length ≤ cfg.maxPayloadSize → p.size ≤ cfg.maxPayloadSize) ∨
        ¬ s.Serves cfg p ∨ ¬ s.engine.Admits cfg.toConfig p.readings (p.tuple cfg))) := by
  refine ⟨fun e role rd ft payload => ?_, fun s p hc => ?_⟩
  · rw [reached_handleRequest_iff, Security.validatePayloadSize_eq_ok_iff]
    exact gate_iff List.length_pos_iff.mpr
  · rw [reached_receive_iff hc, Security.validatePayloadSize_eq_ok_iff, p.toInt_length_payload]
    exact gate_iff fun hne => (List.length_pos_iff.mpr hne).trans_le p.length_payload_le

/-- Five letters, a zero byte and `1100` more. -/
def oversized : Packet := Packet.at 0 (bytes "hello" ++ List.replicate 1101 0)

/-- **Both gaps are open.** A datagram of `1106` bytes, with a zero byte after the fifth, gets to
the session table, and so does a payload of `2 ^ 31` bytes, although the limit is `1024`. -/
theorem oversized_reached :
    (oversized.command? = none ∧ ¬ ((oversized.size : ℤ) ≤ ServerConfig.pair.maxPayloadSize) ∧
      Reached (init fnvHashKey .pair 0).engine
        (receive .pair (init fnvHashKey .pair 0) oversized).1.engine
        (receive .pair (init fnvHashKey .pair 0) oversized).2.isRouted) ∧
    ¬ (((List.replicate (2 ^ 31) 0 : ByteString).length : ℤ) ≤ Config.pair.maxPayloadSize) ∧
      Reached (Engine.init fnvHashKey .pair)
        ((Engine.init fnvHashKey .pair).handleRequest .pair .primary (.at ⟨0, []⟩) clientTuple
          (List.replicate (2 ^ 31) 0)).1
        ((Engine.init fnvHashKey .pair).handleRequest .pair .primary (.at ⟨0, []⟩) clientTuple
          (List.replicate (2 ^ 31) 0)).2.isRouted := by
  refine ⟨⟨by decide, by decide +kernel, ?_⟩, ?_, ?_⟩
  · rw [reached_receive_iff (by decide)]
    decide +kernel
  · rw [List.length_replicate]
    decide
  · rw [reached_handleRequest_iff, Security.validatePayloadSize_eq_ok_iff, List.length_replicate]
    refine ⟨rfl, ⟨by decide, ?_⟩, by decide +kernel⟩
    exact List.ne_nil_of_length_pos (by rw [List.length_replicate]; decide)

end UdpServer

end SessionAffinity
