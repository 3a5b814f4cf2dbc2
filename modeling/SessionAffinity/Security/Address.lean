import SessionAffinity.Security

/-!
# Which addresses are valid

`isValidIPv4` means to accept the dotted quads: four numerals up to 255, without leading zeros,
with dots between them. An octet is accepted exactly if it is such a numeral
(`isValidOctet_iff`). But `getline` does not hand out the empty piece after a last dot, so that
a dotted quad with one dot at its end passes for the quad (`isValidIPv4_iff`), and that is the
only difference (`isValidIPv4_iff_isDottedQuad_iff`).
-/

namespace SessionAffinity

namespace Security

open ByteString (isDigit decimal digitsValue getlines)

/-- Four numerals up to 255, without leading zeros, with dots between them. -/
def IsDottedQuad (s : ByteString) : Prop :=
  ∃ a b c d : ℕ, a ≤ 255 ∧ b ≤ 255 ∧ c ≤ 255 ∧ d ≤ 255 ∧
    s = [46].intercalate [decimal a, decimal b, decimal c, decimal d]

/-! ### Octets -/

/-- An octet, as the conjunction of the checks. -/
theorem isValidOctet_eq_true_iff {octet : ByteString} : isValidOctet octet = true ↔
    (octet ≠ [] ∧ octet.length ≤ 3) ∧ (∀ b ∈ octet, isDigit b = true) ∧
      (octet.head? = some 48 → octet.length ≤ 1) ∧ digitsValue octet ≤ 255 := by
  simp only [isValidOctet, Bool.and_eq_true, Bool.not_eq_true', Bool.or_eq_false_iff,
    Bool.and_eq_false_iff, decide_eq_false_iff_not, decide_eq_true_eq, List.all_eq_true,
    List.isEmpty_eq_false_iff, beq_eq_false_iff_ne, not_lt, and_assoc]
  refine and_congr_right fun _ => and_congr_right fun _ => and_congr_right fun _ =>
    and_congr_left fun _ => ?_
  rw [or_comm, ne_eq, ← imp_iff_not_or]

/-- **An octet is a numeral up to 255** without leading zeros. -/
theorem isValidOctet_iff {octet : ByteString} :
    isValidOctet octet = true ↔ ∃ n ≤ 255, octet = decimal n := by
  rw [isValidOctet_eq_true_iff]
  constructor
  · rintro ⟨⟨hne, -⟩, hdigits, hzero, hle⟩
    have hone : octet.head? = some 48 → octet.length = 1 := fun h => by
      have hpos := List.length_pos_iff.mpr hne
      have := hzero h
      omega
    exact ⟨digitsValue octet, hle, (ByteString.decimal_digitsValue hne hdigits hone).symm⟩
  · rintro ⟨n, hn, rfl⟩
    have hlength : (decimal n).length ≤ 3 :=
      (ByteString.length_decimal_le_iff (by omega)).mpr (by omega)
    refine ⟨⟨ByteString.decimal_ne_nil n, hlength⟩,
      fun b hb => ByteString.isDigit_of_mem_decimal hb, fun hzero => ?_, ?_⟩
    · rw [ByteString.head?_decimal hzero]
      decide
    · rwa [ByteString.digitsValue_decimal]

/-! ### Addresses -/

/-- Dotted quads, as four valid octets with dots between them. -/
theorem isDottedQuad_iff {s : ByteString} : IsDottedQuad s ↔ ∃ ts : List ByteString,
    ts.length = 4 ∧ (∀ t ∈ ts, isValidOctet t = true) ∧ s = [46].intercalate ts := by
  constructor
  · rintro ⟨a, b, c, d, ha, hb, hc, hd, rfl⟩
    refine ⟨_, rfl, ?_, rfl⟩
    simp only [List.forall_mem_cons, isValidOctet_iff]
    exact ⟨⟨a, ha, rfl⟩, ⟨b, hb, rfl⟩, ⟨c, hc, rfl⟩, ⟨d, hd, rfl⟩, by simp⟩
  · rintro ⟨ts, hlen, hts, rfl⟩
    obtain ⟨t₁, t₂, t₃, t₄, rfl⟩ := List.length_eq_four.mp hlen
    simp only [List.forall_mem_cons, isValidOctet_iff] at hts
    obtain ⟨⟨a, ha, rfl⟩, ⟨b, hb, rfl⟩, ⟨c, hc, rfl⟩, ⟨d, hd, rfl⟩, -⟩ := hts
    exact ⟨a, b, c, d, ha, hb, hc, hd, rfl⟩

/-- **Which addresses are valid**: the dotted quads, each with or without a dot at its end. -/
theorem isValidIPv4_iff {s : ByteString} : isValidIPv4 s = true ↔
    IsDottedQuad s ∨ ∃ q, IsDottedQuad q ∧ s = q ++ [46] := by
  -- no octet has a dot in it or is empty, so the pieces leave open only the last dot
  have hlines {ts : List ByteString} (hlen : ts.length = 4)
      (hts : ∀ t ∈ ts, isValidOctet t = true) :
      getlines 46 s = ts ↔ s = [46].intercalate ts ∨ s = [46].intercalate ts ++ [46] := by
    have hne : ts ≠ [] := by
      rintro rfl
      exact absurd hlen (by simp)
    refine ByteString.getlines_eq_iff hne (fun t ht => ?_) fun hlast => ?_
    · obtain ⟨n, -, rfl⟩ := isValidOctet_iff.mp (hts t ht)
      exact ByteString.not_mem_decimal (by decide) n
    · have hempty := hts [] (List.mem_of_getLast? hlast)
      exact absurd hempty (by decide)
  simp only [isDottedQuad_iff]
  constructor
  · intro h
    rw [isValidIPv4, Bool.and_eq_true, Bool.and_eq_true, List.all_eq_true, beq_iff_eq] at h
    obtain ⟨⟨-, hts⟩, hlen⟩ := h
    rcases (hlines hlen hts).mp rfl with hs | hs
    · exact .inl ⟨_, hlen, hts, hs⟩
    · exact .inr ⟨_, ⟨_, hlen, hts, rfl⟩, hs⟩
  · intro h
    obtain ⟨ts, hlen, hts, hs⟩ : ∃ ts : List ByteString, ts.length = 4 ∧
        (∀ t ∈ ts, isValidOctet t = true) ∧ getlines 46 s = ts := by
      rcases h with ⟨ts, hlen, hts, hs⟩ | ⟨q, ⟨ts, hlen, hts, rfl⟩, hs⟩
      · exact ⟨ts, hlen, hts, (hlines hlen hts).mpr (.inl hs)⟩
      · exact ⟨ts, hlen, hts, (hlines hlen hts).mpr (.inr hs)⟩
    have hne : s ≠ [] := by
      rintro rfl
      rw [← hs] at hlen
      exact absurd hlen (by decide)
    rw [isValidIPv4, hs, Bool.and_eq_true, Bool.and_eq_true, List.all_eq_true, beq_iff_eq]
    exact ⟨⟨by simpa using hne, hts⟩, hlen⟩

/-- A dotted quad does not end with a dot. -/
theorem not_isDottedQuad_concat (q : ByteString) : ¬ IsDottedQuad (q ++ [46]) := by
  rintro ⟨a, b, c, d, -, -, -, -, h⟩
  have hlast := congrArg List.getLast? h
  simp only [List.intercalate_cons_cons, List.intercalate_singleton, List.getLast?_append,
    List.getLast?_singleton] at hlast
  rcases List.eq_nil_or_concat (decimal d) with hnil | ⟨l, x, hx⟩
  · exact ByteString.decimal_ne_nil d hnil
  · rw [List.concat_eq_append] at hx
    have hdot : x = 46 := by simpa [hx] using hlast.symm
    have hmem : (46 : UInt8) ∈ decimal d := by simp [hx, hdot]
    exact ByteString.not_mem_decimal (by decide) d hmem

/-- **When validity means what it says.** A string is accepted exactly if it is a dotted quad,
unless it is a dotted quad with a dot at its end. -/
theorem isValidIPv4_iff_isDottedQuad_iff (s : ByteString) :
    (isValidIPv4 s = true ↔ IsDottedQuad s) ↔ ¬ ∃ q, IsDottedQuad q ∧ s = q ++ [46] := by
  constructor
  · rintro h ⟨q, hq, rfl⟩
    have hvalid : isValidIPv4 (q ++ [46]) = true := isValidIPv4_iff.mpr (.inr ⟨q, hq, rfl⟩)
    exact not_isDottedQuad_concat q (h.mp hvalid)
  · intro h
    rw [isValidIPv4_iff, or_iff_left h]

/-- The dot at the end goes unnoticed. -/
theorem accepts_trailing_dot :
    ¬ (isValidIPv4 (bytes "10.0.0.1.") = true ↔ IsDottedQuad (bytes "10.0.0.1.")) := by
  intro h
  have hvalid : isValidIPv4 (bytes "10.0.0.1.") = true := by decide
  exact not_isDottedQuad_concat (bytes "10.0.0.1") (h.mp hvalid)

end Security

end SessionAffinity
