import SessionAffinity.Common
import SessionAffinity.Foundations.SlidingWindow

/-!
# Request validation and spoof detection

The checks of `security.cpp`. A `ValidationResult` is an error text or nothing. The tuple and
payload checks are pure; `checkSpoofing` keeps, per `/24` subnet, the source addresses of the
last calls and counts the distinct ones. `fullValidation` stops at the first failure.

`validateTuple` upper-cases a copy of the protocol and accepts every spelling of it, while
`FiveTuple.toKey` uses the spelling given: `toKey_injective` and `toKey_eq_iff_protocol_eq`
are the two sides of that, the former being what the address check is worth to the key.
-/

namespace SessionAffinity

open Std (ExtTreeMap)
open ByteString (isDigit decimal signedDecimal digitsValue getlines)
open SlidingWindow (evict)

/-- The outcome of a check: an error message, or valid. -/
abbrev ValidationResult := Except ByteString Unit

/-- The spoof trackers: per subnet, the times and source addresses of recent calls. -/
structure Security where
  subnetTrackers : ExtTreeMap ByteString (List (TimePoint × ByteString))

namespace Security

/-- No subnet is tracked yet. -/
def init : Security := ⟨∅⟩

/-- The loop body of `isValidIPv4`: one to three digits, no leading zero, at most 255. -/
def isValidOctet (octet : ByteString) : Bool :=
  !(octet.isEmpty || decide (octet.length > 3)) && octet.all isDigit &&
    !(decide (octet.length > 1) && octet.head? == some 48) && decide (digitsValue octet ≤ 255)

/-- `isValidIPv4`: four octets between dots, as `getline` reads them. -/
def isValidIPv4 (ip : ByteString) : Bool :=
  !ip.isEmpty && (getlines 46 ip).all isValidOctet && (getlines 46 ip).length == 4

/-- `getSubnet`: the text before the last dot, or all of it without one. -/
def getSubnet (ip : ByteString) : ByteString :=
  if 46 ∈ ip then (ip.reverse.dropWhile (· ≠ 46)).tail.reverse else ip

/-- `::toupper` in the C locale. -/
def toUpper (b : UInt8) : UInt8 := if 97 ≤ b.toNat ∧ b.toNat ≤ 122 then b - 32 else b

/-- The upper-cased copy of a protocol that the whitelist looks at. -/
def upperProtocol (protocol : ByteString) : ByteString := protocol.map toUpper

/-- `validateTuple`. -/
def validateTuple (ft : FiveTuple) : ValidationResult :=
  if !isValidIPv4 ft.srcIp then .error (bytes "Invalid source IP: " ++ ft.srcIp)
  else if !isValidIPv4 ft.dstIp then .error (bytes "Invalid destination IP: " ++ ft.dstIp)
  else if ft.srcPort = 0 then .error (bytes "Invalid source port: 0 (must be 1-65535)")
  else if ft.dstPort = 0 then .error (bytes "Invalid destination port: 0 (must be 1-65535)")
  else if upperProtocol ft.protocol ≠ bytes "TCP" ∧ upperProtocol ft.protocol ≠ bytes "UDP" then
    .error (bytes "Invalid protocol: " ++ ft.protocol ++ bytes " (must be TCP or UDP)")
  else .ok ()

/-- `validatePayloadSize`; the size is narrowed to an `int` before it is compared. -/
def validatePayloadSize (payload : ByteString) (maxSize : ℤ) : ValidationResult :=
  if toInt payload.length > maxSize then
    .error (bytes "Payload too large: " ++ decimal payload.length ++ bytes " bytes (max " ++
      signedDecimal maxSize ++ bytes ")")
  else if payload.isEmpty then .error (bytes "Empty payload")
  else .ok ()

/-- The entries tracked for a subnet; `operator[]` makes an empty tracker for a new one. -/
def tracker (sec : Security) (subnet : ByteString) : List (TimePoint × ByteString) :=
  sec.subnetTrackers[subnet]?.getD []

/-- `checkSpoofing`: evict the subnet's old entries, add this one, count distinct sources. -/
def checkSpoofing (cfg : Config) (sec : Security) (clk : Clock) (srcIp : ByteString) :
    Security × ValidationResult :=
  let subnet := getSubnet srcIp
  let entries := evict Prod.fst (seconds cfg.spoofDetectionWindowSec) clk.steady
    (sec.tracker subnet) ++ [(clk.steady, srcIp)]
  let uniqueIps := (entries.map Prod.snd).dedup
  (⟨sec.subnetTrackers.insert subnet entries⟩,
    if toInt uniqueIps.length > cfg.spoofDetectionThreshold then
      .error (bytes "Potential IP spoofing detected from subnet " ++ subnet ++ bytes ".0/24 (" ++
        decimal uniqueIps.length ++ bytes " unique source IPs)")
    else .ok ())

/-- `fullValidation`: payload, tuple, spoofing; the first failure stops the chain. -/
def fullValidation (cfg : Config) (sec : Security) (clk : Clock) (ft : FiveTuple)
    (payload : ByteString) : Security × ValidationResult :=
  match validatePayloadSize payload cfg.maxPayloadSize with
  | .error msg => (sec, .error msg)
  | .ok () =>
    match validateTuple ft with
    | .error msg => (sec, .error msg)
    | .ok () => checkSpoofing cfg sec clk ft.srcIp

/-- A spoof check touches the tracker of the address's own subnet only. -/
theorem subnetTrackers_checkSpoofing_of_ne (cfg : Config) (sec : Security) (clk : Clock)
    {srcIp subnet : ByteString} (h : getSubnet srcIp ≠ subnet) :
    (checkSpoofing cfg sec clk srcIp).1.subnetTrackers[subnet]? = sec.subnetTrackers[subnet]? := by
  simp [checkSpoofing, ExtTreeMap.getElem?_insert, h]

/-! ### What validation admits -/

/-- A valid tuple, as the conjunction of its checks. -/
theorem validateTuple_eq_ok_iff {ft : FiveTuple} : validateTuple ft = .ok () ↔
    isValidIPv4 ft.srcIp = true ∧ isValidIPv4 ft.dstIp = true ∧ ft.srcPort ≠ 0 ∧
      ft.dstPort ≠ 0 ∧
      (upperProtocol ft.protocol = bytes "TCP" ∨ upperProtocol ft.protocol = bytes "UDP") := by
  rw [validateTuple]
  split_ifs with h₁ h₂ h₃ h₄ h₅
  · simp_all
  · simp_all
  · simp_all
  · simp_all
  · simp_all
  · rw [not_and_or, not_not, not_not] at h₅
    simp_all

/-- A payload that passes, as the conjunction of its checks. -/
theorem validatePayloadSize_eq_ok_iff {payload : ByteString} {maxSize : ℤ} :
    validatePayloadSize payload maxSize = .ok () ↔
      toInt payload.length ≤ maxSize ∧ payload ≠ [] := by
  rw [validatePayloadSize]
  split_ifs with hlarge hempty
  · exact iff_of_false (by simp) fun h => absurd h.1 (not_le.mpr hlarge)
  · exact iff_of_false (by simp) fun h => h.2 (List.isEmpty_iff.mp hempty)
  · exact iff_of_true rfl ⟨not_lt.mp hlarge, fun h => hempty (List.isEmpty_iff.mpr h)⟩

/-- A valid address consists of digits and dots. -/
theorem isDigit_or_dot_of_isValidIPv4 {ip : ByteString} (h : isValidIPv4 ip = true) {b : UInt8}
    (hb : b ∈ ip) : isDigit b = true ∨ b = 46 := by
  simp only [isValidIPv4, Bool.and_eq_true, List.all_eq_true] at h
  rcases ByteString.mem_getlines (d := 46) hb with rfl | ⟨octet, hoctet, hbo⟩
  · exact .inr rfl
  · have hvalid := h.1.2 octet hoctet
    simp only [isValidOctet, Bool.and_eq_true, List.all_eq_true] at hvalid
    exact .inl (hvalid.1.1.2 b hbo)

/-- So it contains no other byte. -/
theorem not_mem_of_isValidIPv4 {ip : ByteString} (h : isValidIPv4 ip = true) {b : UInt8}
    (hdigit : isDigit b = false) (hdot : b ≠ 46) : b ∉ ip := by
  intro hmem
  rcases isDigit_or_dot_of_isValidIPv4 h hmem with hb | hb
  · rw [hb] at hdigit
    exact Bool.noConfusion hdigit
  · exact hdot hb

end Security

/-! ### Session keys of valid tuples -/

open Security (validateTuple validateTuple_eq_ok_iff upperProtocol)

/-- The key with its delimiters `:`, `-`, `>`, `:` and `/` standing out. -/
private theorem toKey_eq (ft : FiveTuple) : ft.toKey =
    ft.srcIp ++ 58 :: (decimal ft.srcPort.toNat ++ 45 :: 62 ::
      (ft.dstIp ++ 58 :: (decimal ft.dstPort.toNat ++ 47 :: ft.protocol))) := by
  have h₁ : bytes ":" = [58] := by decide
  have h₂ : bytes "->" = [45, 62] := by decide
  have h₃ : bytes "/" = [47] := by decide
  simp [FiveTuple.toKey, h₁, h₂, h₃]

private theorem colon_not_mem {ip : ByteString} (h : Security.isValidIPv4 ip = true) :
    (58 : UInt8) ∉ ip :=
  Security.not_mem_of_isValidIPv4 h (by decide) (by decide)

/-- **The key determines a valid tuple.** Addresses that pass validation contain none of the
delimiters, so the concatenation can be taken apart again. -/
theorem toKey_injective {t₁ t₂ : FiveTuple} (h₁ : validateTuple t₁ = .ok ())
    (h₂ : validateTuple t₂ = .ok ()) (h : t₁.toKey = t₂.toKey) : t₁ = t₂ := by
  obtain ⟨hs₁, hd₁, -⟩ := validateTuple_eq_ok_iff.mp h₁
  obtain ⟨hs₂, hd₂, -⟩ := validateTuple_eq_ok_iff.mp h₂
  rw [toKey_eq, toKey_eq] at h
  obtain ⟨hsrc, h⟩ := ByteString.append_cons_inj (colon_not_mem hs₁) (colon_not_mem hs₂) h
  obtain ⟨hsp, h⟩ := ByteString.append_cons_inj (ByteString.not_mem_decimal (by decide) _)
    (ByteString.not_mem_decimal (by decide) _) h
  obtain ⟨hdst, h⟩ := ByteString.append_cons_inj (colon_not_mem hd₁) (colon_not_mem hd₂)
    (List.cons.inj h).2
  obtain ⟨hdp, hproto⟩ := ByteString.append_cons_inj (ByteString.not_mem_decimal (by decide) _)
    (ByteString.not_mem_decimal (by decide) _) h
  have hsp' := UInt16.toNat_inj.mp (ByteString.decimal_injective hsp)
  have hdp' := UInt16.toNat_inj.mp (ByteString.decimal_injective hdp)
  cases t₁
  cases t₂
  simp_all

/-- Tuples with the same endpoints share a key exactly when they spell the protocol alike. -/
theorem toKey_eq_iff_protocol_eq {t₁ t₂ : FiveTuple} (hs : t₁.srcIp = t₂.srcIp)
    (hsp : t₁.srcPort = t₂.srcPort) (hd : t₁.dstIp = t₂.dstIp) (hdp : t₁.dstPort = t₂.dstPort) :
    t₁.toKey = t₂.toKey ↔ t₁.protocol = t₂.protocol := by
  rw [FiveTuple.toKey, FiveTuple.toKey, hs, hsp, hd, hdp]
  exact List.append_right_inj _

end SessionAffinity
