import SessionAffinity.Security

/-!
# The tuple codec

`serialize` puts bars between the five fields of a tuple, and `deserialize` reads the first five
pieces between bars back. A tuple survives the round trip exactly if none of its texts has a bar
in it and the protocol, which comes last, is not empty (`round_trip_iff`); that is so of every
valid tuple.

In the other direction `deserialize` is lenient. It accepts what is `Readable`: at least five
fields, with ports that `std::stoi` makes a number of, whatever stands around the digits. So it
is strict on all strings but those that are `Malformed` and readable nevertheless
(`strictOn_iff`).
-/

namespace SessionAffinity

namespace FiveTuple

open ByteString (isDigit decimal digitsValue getlines stoi ReadsAs stoi_eq_some_iff)

/-- The fields of a string, between the bars. -/
def fields (data : ByteString) : List ByteString := data.splitOn 124

/-- A port in plain digits: the numeral of `n`, with or without zeros in front. -/
def IsPort (t : ByteString) (n : ℕ) : Prop :=
  n ≤ 65535 ∧ ∃ zeros, t = List.replicate zeros 48 ++ decimal n

/-- A field that reads as a port: a number up to 65535, perhaps with blanks and a sign in front
and with anything behind. -/
def ReadsPort (t : ByteString) : Prop := ∃ v : ℤ, ReadsAs t v ∧ 0 ≤ v ∧ v ≤ 65535

/-- At least five fields, not counting an empty one at the end, with ports that can be read. -/
def Readable (data : ByteString) : Prop :=
  ∃ srcIp srcPort dstIp dstPort protocol rest,
    fields data = srcIp :: srcPort :: dstIp :: dstPort :: protocol :: rest ∧
      (rest = [] → protocol ≠ []) ∧ ReadsPort srcPort ∧ ReadsPort dstPort

/-- More than five fields, or a port field with something else than digits. -/
def Malformed (data : ByteString) : Prop :=
  5 < (fields data).length ∨
    ∃ port, ((fields data)[1]? = some port ∨ (fields data)[3]? = some port) ∧
      ∃ b ∈ port, isDigit b = false

/-- **Strict reading** of a string. It is accepted only if it is five fields with plain ports,
and then serializing recovers it, up to zeros in front of the ports; and it is rejected if it is
malformed. -/
structure StrictOn (data : ByteString) (out : FiveTuple) : Prop where
  wire : (deserialize data out).2 = true → ∃ srcIp srcPort dstIp dstPort protocol m n,
    fields data = [srcIp, srcPort, dstIp, dstPort, protocol] ∧ IsPort srcPort m ∧
      IsPort dstPort n ∧ (deserialize data out).1.serialize =
        [124].intercalate [srcIp, decimal m, dstIp, decimal n, protocol]
  rejects : Malformed data → (deserialize data out).2 = false

/-! ### Ports -/

/-- What reads as a port is read by `std::stoi`. -/
theorem readsPort_iff {t : ByteString} :
    ReadsPort t ↔ ∃ v, stoi t = some v ∧ 0 ≤ v ∧ v ≤ 65535 := by
  constructor
  · rintro ⟨v, hv, hlow, hhigh⟩
    exact ⟨v, stoi_eq_some_iff.mpr ⟨hv, by omega, by omega⟩, hlow, hhigh⟩
  · rintro ⟨v, hv, hlow, hhigh⟩
    exact ⟨v, (stoi_eq_some_iff.mp hv).1, hlow, hhigh⟩

theorem toNat_ofInt {n : ℕ} (h : n ≤ 65535) : (UInt16.ofInt n).toNat = n := by
  rw [UInt16.ofInt, UInt16.toNat_ofNat']
  omega

theorem ofInt_toNat (port : UInt16) : UInt16.ofInt port.toNat = port := by
  have hlt := port.toNat_lt
  exact UInt16.toNat_inj.mp (toNat_ofInt (by omega))

/-- A port that reads as one and has digits only is plain, and is read as what it says. -/
theorem ReadsPort.plain {t : ByteString} (h : ReadsPort t) (ht : ∀ b ∈ t, isDigit b = true) :
    IsPort t (digitsValue t) ∧ stoi t = some (digitsValue t : ℤ) := by
  obtain ⟨v, hv, hlow, hhigh⟩ := h
  obtain ⟨hne, rfl⟩ := (ByteString.readsAs_iff_of_isDigit ht).mp hv
  have hle : digitsValue t ≤ 65535 := by omega
  exact ⟨⟨hle, ByteString.exists_zeros_decimal hne ht⟩,
    stoi_eq_some_iff.mpr ⟨hv, by omega, by omega⟩⟩

/-- The numeral of a port is read as that port. -/
theorem stoi_decimal (port : UInt16) : stoi (decimal port.toNat) = some (port.toNat : ℤ) := by
  have hread : ReadsAs (decimal port.toNat) (port.toNat : ℤ) :=
    (ByteString.readsAs_iff_of_isDigit fun b hb => ByteString.isDigit_of_mem_decimal hb).mpr
      ⟨ByteString.decimal_ne_nil _, by rw [ByteString.digitsValue_decimal]⟩
  have hlt := port.toNat_lt
  exact stoi_eq_some_iff.mpr ⟨hread, by omega, by omega⟩

/-! ### Reading -/

section Deserialize

variable {data : ByteString} {out : FiveTuple}
  {srcIp srcPort dstIp dstPort protocol : ByteString} {rest : List ByteString}

/-- The first five pieces are the first five fields, unless the fifth is empty and the last. -/
theorem exists_getlines_iff :
    (∃ more, getlines 124 data = srcIp :: srcPort :: dstIp :: dstPort :: protocol :: more) ↔
      ∃ rest, fields data = srcIp :: srcPort :: dstIp :: dstPort :: protocol :: rest ∧
        (rest = [] → protocol ≠ []) := by
  have h : [srcIp, srcPort, dstIp, dstPort, protocol] <+: getlines 124 data ↔ _ :=
    ByteString.prefix_getlines_iff
  simpa [List.IsPrefix, eq_comm, fields] using h

/-- Readable fields are stored. -/
theorem deserialize_of_fields {sp dp : ℕ} (out : FiveTuple)
    (hfields : fields data = srcIp :: srcPort :: dstIp :: dstPort :: protocol :: rest)
    (hlast : rest = [] → protocol ≠ []) (hsp : stoi srcPort = some (sp : ℤ)) (hsp' : sp ≤ 65535)
    (hdp : stoi dstPort = some (dp : ℤ)) (hdp' : dp ≤ 65535) : deserialize data out =
      (⟨srcIp, UInt16.ofInt sp, dstIp, UInt16.ofInt dp, protocol⟩, true) := by
  obtain ⟨more, hmore⟩ := exists_getlines_iff.mpr ⟨rest, hfields, hlast⟩
  rw [deserialize, hmore]
  dsimp only
  rw [hsp, hdp]
  dsimp only
  rw [if_neg (by omega)]

/-- A readable string is accepted, and its fields are stored. -/
theorem Readable.exists_deserialize (h : Readable data) (out : FiveTuple) :
    ∃ srcIp srcPort dstIp dstPort protocol rest sp dp,
      fields data = srcIp :: srcPort :: dstIp :: dstPort :: protocol :: rest ∧
        (rest = [] → protocol ≠ []) ∧
        deserialize data out = (⟨srcIp, sp, dstIp, dp, protocol⟩, true) := by
  obtain ⟨srcIp, srcPort, dstIp, dstPort, protocol, rest, hfields, hlast, hsp, hdp⟩ := h
  obtain ⟨sp, hsp, hsp0, hsp1⟩ := readsPort_iff.mp hsp
  obtain ⟨dp, hdp, hdp0, hdp1⟩ := readsPort_iff.mp hdp
  lift sp to ℕ using hsp0
  lift dp to ℕ using hdp0
  exact ⟨srcIp, srcPort, dstIp, dstPort, protocol, rest, _, _, hfields, hlast,
    deserialize_of_fields out hfields hlast hsp (by omega) hdp (by omega)⟩

/-- **What is accepted**: the readable strings. -/
theorem deserialize_eq_true_iff : (deserialize data out).2 = true ↔ Readable data := by
  constructor
  · intro h
    rw [deserialize] at h
    split at h
    · rename_i srcIp srcPort dstIp dstPort protocol more hmore
      obtain ⟨rest, hfields, hlast⟩ := exists_getlines_iff.mp ⟨more, hmore⟩
      dsimp only at h
      split at h
      · rename_i sp dp hsp hdp
        split_ifs at h with hrange
        have hports : (0 ≤ sp ∧ sp ≤ 65535) ∧ 0 ≤ dp ∧ dp ≤ 65535 := by omega
        exact ⟨srcIp, srcPort, dstIp, dstPort, protocol, rest, hfields, hlast,
          readsPort_iff.mpr ⟨sp, hsp, hports.1⟩, readsPort_iff.mpr ⟨dp, hdp, hports.2⟩⟩
      · exact absurd h Bool.false_ne_true
    · exact absurd h Bool.false_ne_true
  · intro h
    obtain ⟨srcIp, srcPort, dstIp, dstPort, protocol, rest, sp, dp, -, -, hstored⟩ :=
      h.exists_deserialize out
    rw [hstored]

/-- A negative port is rejected, after the texts have been written. -/
example : deserialize (bytes "ip|-1|ip|80|TCP") clientTuple =
    ({ clientTuple with srcIp := bytes "ip", dstIp := bytes "ip" }, false) := by decide

end Deserialize

/-! ### Writing and reading back -/

/-- The wire format, with the bars between the fields. -/
theorem serialize_eq (ft : FiveTuple) : ft.serialize = [124].intercalate
    [ft.srcIp, decimal ft.srcPort.toNat, ft.dstIp, decimal ft.dstPort.toNat, ft.protocol] := by
  have hbar : bytes "|" = [124] := by decide
  simp [serialize, hbar]

/-- The fields of a tuple without bars are found again. -/
theorem fields_serialize {ft : FiveTuple} (hsrc : 124 ∉ ft.srcIp) (hdst : 124 ∉ ft.dstIp)
    (hproto : 124 ∉ ft.protocol) : fields ft.serialize =
      [ft.srcIp, decimal ft.srcPort.toNat, ft.dstIp, decimal ft.dstPort.toNat, ft.protocol] := by
  rw [serialize_eq, fields, List.splitOn_intercalate]
  · simp only [List.forall_mem_cons]
    have hport (n : ℕ) : (124 : UInt8) ∉ decimal n := ByteString.not_mem_decimal (by decide) n
    exact ⟨hsrc, hport _, hdst, hport _, hproto, by simp⟩
  · exact List.cons_ne_nil _ _

/-- A valid tuple has no bars, and a protocol. -/
theorem bar_not_mem_of_validateTuple {ft : FiveTuple} (h : Security.validateTuple ft = .ok ()) :
    (124 ∉ ft.srcIp ∧ 124 ∉ ft.dstIp ∧ 124 ∉ ft.protocol) ∧ ft.protocol ≠ [] := by
  obtain ⟨hsrc, hdst, -, -, hproto⟩ := Security.validateTuple_eq_ok_iff.mp h
  refine ⟨⟨Security.not_mem_of_isValidIPv4 hsrc (by decide) (by decide),
    Security.not_mem_of_isValidIPv4 hdst (by decide) (by decide), fun hbar => ?_⟩, ?_⟩
  · -- a bar is its own upper case
    have hupper : Security.toUpper 124 ∈ Security.upperProtocol ft.protocol :=
      List.mem_map_of_mem hbar
    rcases hproto with hproto | hproto
    · rw [hproto] at hupper
      exact absurd hupper (by decide)
    · rw [hproto] at hupper
      exact absurd hupper (by decide)
  · intro hnil
    rw [hnil] at hproto
    exact absurd hproto (by decide)

/-- **What survives the round trip.** Whatever tuple is written to, a serialized tuple is read
back as it was exactly if none of its texts has a bar in it and the protocol is not empty; so
every valid tuple is. -/
theorem round_trip_iff (ft out : FiveTuple) :
    (deserialize ft.serialize out = (ft, true) ↔
      (124 ∉ ft.srcIp ∧ 124 ∉ ft.dstIp ∧ 124 ∉ ft.protocol) ∧ ft.protocol ≠ []) ∧
    (Security.validateTuple ft = .ok () → deserialize ft.serialize out = (ft, true)) := by
  have hiff : deserialize ft.serialize out = (ft, true) ↔
      (124 ∉ ft.srcIp ∧ 124 ∉ ft.dstIp ∧ 124 ∉ ft.protocol) ∧ ft.protocol ≠ [] := by
    constructor
    · intro h
      have hread : Readable ft.serialize := deserialize_eq_true_iff.mp (congrArg Prod.snd h)
      obtain ⟨srcIp, srcPort, dstIp, dstPort, protocol, rest, sp, dp, hfields, hlast, hstored⟩ :=
        hread.exists_deserialize out
      -- the texts are fields of the string, so no bar is left in them
      rw [hstored] at h
      obtain rfl := congrArg Prod.fst h
      have hbar : ∀ t ∈ srcIp :: srcPort :: dstIp :: dstPort :: protocol :: rest,
          (124 : UInt8) ∉ t := fun t ht => ByteString.not_mem_of_mem_splitOn (hfields ▸ ht)
      have hsrc := hbar srcIp (by simp)
      have hdst := hbar dstIp (by simp)
      have hproto := hbar protocol (by simp)
      rw [fields_serialize hsrc hdst hproto] at hfields
      simp only [List.cons.injEq, true_and] at hfields
      exact ⟨⟨hsrc, hdst, hproto⟩, hlast hfields.2.2.symm⟩
    · rintro ⟨⟨hsrc, hdst, hproto⟩, hne⟩
      have hsp := ft.srcPort.toNat_lt
      have hdp := ft.dstPort.toNat_lt
      rw [deserialize_of_fields out (fields_serialize hsrc hdst hproto) (fun _ => hne)
        (stoi_decimal _) (by omega) (stoi_decimal _) (by omega), ofInt_toNat, ofInt_toNat]
  exact ⟨hiff, fun h => hiff.mpr (bar_not_mem_of_validateTuple h)⟩

/-! ### Strictness -/

/-- **When reading is strict.** A string is read strictly, whatever tuple is written to, unless
it is malformed and readable at once. -/
theorem strictOn_iff (data : ByteString) (out : FiveTuple) :
    StrictOn data out ↔ ¬ (Readable data ∧ Malformed data) := by
  constructor
  · rintro h ⟨hread, hbad⟩
    have haccepted : (deserialize data out).2 = true := deserialize_eq_true_iff.mpr hread
    rw [h.rejects hbad] at haccepted
    exact Bool.false_ne_true haccepted
  · intro h
    refine ⟨fun haccepted => ?_, fun hbad => ?_⟩
    · have hread : Readable data := deserialize_eq_true_iff.mp haccepted
      have hwell : ¬ Malformed data := fun hbad => h ⟨hread, hbad⟩
      obtain ⟨srcIp, srcPort, dstIp, dstPort, protocol, rest, hfields, hlast, hsp, hdp⟩ := hread
      simp only [Malformed, hfields, List.length_cons, not_or, not_lt, not_exists, not_and,
        Bool.not_eq_false] at hwell
      obtain ⟨hfew, hdigits⟩ := hwell
      have hrest : rest = [] := List.eq_nil_of_length_eq_zero (by omega)
      obtain ⟨hsp', hsp⟩ := hsp.plain (hdigits srcPort (.inl rfl))
      obtain ⟨hdp', hdp⟩ := hdp.plain (hdigits dstPort (.inr rfl))
      refine ⟨srcIp, srcPort, dstIp, dstPort, protocol, _, _, hrest ▸ hfields, hsp', hdp', ?_⟩
      rw [deserialize_of_fields out hfields hlast hsp hsp'.1 hdp hdp'.1, serialize_eq]
      dsimp only
      rw [toNat_ofInt hsp'.1, toNat_ofInt hdp'.1]
    · by_contra haccepted
      rw [Bool.not_eq_false] at haccepted
      exact h ⟨deserialize_eq_true_iff.mp haccepted, hbad⟩

/-- **Reading is lenient.** A sixth field is accepted, and so is a port with letters behind its
digits. -/
theorem accepts_malformed :
    ¬ StrictOn (bytes "10.0.0.1|4000|10.0.0.2|80|TCP|10.0.0.3") clientTuple ∧
      ¬ StrictOn (bytes "10.0.0.1|4000x|10.0.0.2|80|TCP") clientTuple := by
  constructor
  · intro h
    have hsix : Malformed (bytes "10.0.0.1|4000|10.0.0.2|80|TCP|10.0.0.3") := .inl (by decide)
    exact absurd (h.rejects hsix) (by decide)
  · intro h
    have hletter : Malformed (bytes "10.0.0.1|4000x|10.0.0.2|80|TCP") :=
      .inr ⟨bytes "4000x", .inl (by decide), 120, by decide, by decide⟩
    exact absurd (h.rejects hletter) (by decide)

end FiveTuple

end SessionAffinity
