import Mathlib

/-!
# Byte strings

Strings of bytes, as a C++ `std::string` holds them: decimal numerals, splitting at a
delimiter, and unambiguous concatenation. `decimal` writes a number the way `std::to_string`
does and `digitsValue` reads it back. `getlines d s` lists the pieces that successive
`std::getline` calls with delimiter `d` take from `s`; a last piece that is empty is never
taken, since the stream is already at its end.
-/

/-- A string of bytes. -/
abbrev ByteString := List UInt8

/-- The UTF-8 bytes of a string literal. -/
def bytes (s : String) : ByteString := s.toUTF8.data.toList

namespace ByteString

/-! ### Decimal numerals -/

/-- An ASCII digit. -/
def isDigit (b : UInt8) : Bool := decide (48 ≤ b.toNat ∧ b.toNat ≤ 57)

/-- The ASCII digit `d`. -/
def digit (d : ℕ) : UInt8 := UInt8.ofNat (48 + d)

/-- The decimal numeral of a natural number, without leading zeros. -/
def decimal (n : ℕ) : ByteString := (Nat.toDigits 10 n).map fun c => UInt8.ofNat c.toNat

/-- The decimal numeral of an integer, with a leading minus sign when it is negative. -/
def signedDecimal : ℤ → ByteString
  | .ofNat n => decimal n
  | .negSucc n => 45 :: decimal (n + 1)

/-- The number a string of digits denotes. -/
def digitsValue (s : ByteString) : ℕ := s.foldl (fun v b => 10 * v + (b.toNat - 48)) 0

private theorem ofNat_digitChar {d : ℕ} (h : d < 10) :
    UInt8.ofNat d.digitChar.toNat = digit d := by
  interval_cases d <;> rfl

@[simp]
theorem toNat_digit {d : ℕ} (h : d < 10) : (digit d).toNat = 48 + d := by
  rw [digit, UInt8.toNat_ofNat']
  omega

@[simp]
theorem isDigit_digit {d : ℕ} (h : d < 10) : isDigit (digit d) = true := by
  rw [isDigit, toNat_digit h, decide_eq_true_eq]
  omega

/-- A numeral is its last digit behind the numeral of the rest. -/
theorem decimal_eq (n : ℕ) :
    decimal n = (if n < 10 then [] else decimal (n / 10)) ++ [digit (n % 10)] := by
  have hmod : n % 10 < 10 := Nat.mod_lt _ (by omega)
  split_ifs with h
  · rw [decimal, Nat.toDigits_of_lt_base h, List.map_singleton, ofNat_digitChar h,
      Nat.mod_eq_of_lt h, List.nil_append]
  · rw [decimal, Nat.toDigits_of_base_le (by omega) (by omega), List.map_append,
      List.map_singleton, ofNat_digitChar hmod, decimal]

theorem isDigit_of_mem_decimal {n : ℕ} {b : UInt8} (hb : b ∈ decimal n) : isDigit b = true := by
  induction n using Nat.strong_induction_on with
  | _ n ih =>
    rw [decimal_eq] at hb
    rcases List.mem_append.mp hb with hb | hb
    · split_ifs at hb with h
      · exact absurd hb List.not_mem_nil
      · exact ih (n / 10) (by omega) hb
    · rw [List.mem_singleton.mp hb]
      exact isDigit_digit (Nat.mod_lt _ (by omega))

/-- A numeral has digits only. -/
theorem not_mem_decimal {b : UInt8} (hb : isDigit b = false) (n : ℕ) : b ∉ decimal n := by
  intro hmem
  rw [isDigit_of_mem_decimal hmem] at hb
  exact Bool.noConfusion hb

/-- Reading a numeral back gives the number it was written from. -/
@[simp]
theorem digitsValue_decimal (n : ℕ) : digitsValue (decimal n) = n := by
  induction n using Nat.strong_induction_on with
  | _ n ih =>
    have hd : (digit (n % 10)).toNat = 48 + n % 10 := toNat_digit (Nat.mod_lt _ (by omega))
    rw [decimal_eq, digitsValue, List.foldl_append, List.foldl_cons, List.foldl_nil, hd]
    split_ifs with h
    · simp only [List.foldl_nil]
      omega
    · have := ih (n / 10) (by omega)
      rw [digitsValue] at this
      rw [this]
      omega

theorem decimal_injective : Function.Injective decimal :=
  Function.LeftInverse.injective digitsValue_decimal

theorem not_mem_signedDecimal {b : UInt8} (hb : isDigit b = false) (hminus : b ≠ 45) (z : ℤ) :
    b ∉ signedDecimal z := by
  cases z with
  | ofNat n => exact not_mem_decimal hb n
  | negSucc n =>
    rw [signedDecimal, List.mem_cons, not_or]
    exact ⟨hminus, not_mem_decimal hb (n + 1)⟩

theorem signedDecimal_injective : Function.Injective signedDecimal := by
  have hminus (n : ℕ) : 45 ∉ decimal n := not_mem_decimal (by decide) n
  intro x y h
  cases x with
  | ofNat m =>
    cases y with
    | ofNat n => exact congrArg Int.ofNat (decimal_injective h)
    | negSucc n =>
      have h : decimal m = 45 :: decimal (n + 1) := h
      exact absurd (h ▸ List.mem_cons_self) (hminus m)
  | negSucc m =>
    cases y with
    | ofNat n =>
      have h : 45 :: decimal (m + 1) = decimal n := h
      exact absurd (h ▸ List.mem_cons_self) (hminus n)
    | negSucc n =>
      have hsucc := decimal_injective (List.cons.inj h).2
      rw [Nat.succ.inj hsucc]

theorem decimal_ne_nil (n : ℕ) : decimal n ≠ [] := by
  rw [decimal_eq]
  simp

/-- How long a numeral is. -/
theorem length_decimal_le_iff {n k : ℕ} (hk : 0 < k) : (decimal n).length ≤ k ↔ n < 10 ^ k := by
  rw [decimal, List.length_map]
  exact Nat.length_toDigits_le_iff (by omega) hk

/-- Only the numeral of zero begins with a zero. -/
theorem head?_decimal {n : ℕ} (h : (decimal n).head? = some 48) : n = 0 := by
  induction n using Nat.strong_induction_on with
  | _ n ih =>
    rw [decimal_eq] at h
    split_ifs at h with hn
    · have hdigit : digit (n % 10) = 48 := by simpa using h
      have hval : 48 + n % 10 = 48 := by
        rw [← toNat_digit (Nat.mod_lt n (by omega)), hdigit]
        rfl
      omega
    · have hrest : (decimal (n / 10)).head? = some 48 := by
        rwa [List.head?_append_of_ne_nil _ (decimal_ne_nil _)] at h
      have hzero : n / 10 = 0 := ih (n / 10) (by omega) hrest
      omega

/-- A digit is the digit of its value. -/
theorem digit_of_isDigit {b : UInt8} (h : isDigit b = true) :
    b.toNat - 48 < 10 ∧ digit (b.toNat - 48) = b := by
  rw [isDigit, decide_eq_true_eq] at h
  have hlt : b.toNat - 48 < 10 := by omega
  refine ⟨hlt, UInt8.toNat_inj.mp ?_⟩
  rw [toNat_digit hlt]
  omega

/-- A string of digits is the numeral of its value, unless it has a zero too many in front. -/
theorem decimal_digitsValue {s : ByteString} (hne : s ≠ []) (hs : ∀ b ∈ s, isDigit b = true)
    (hzero : s.head? = some 48 → s.length = 1) : decimal (digitsValue s) = s := by
  induction s using List.reverseRecOn with
  | nil => exact absurd rfl hne
  | append_singleton s b ih =>
    obtain ⟨hlt, hb⟩ := digit_of_isDigit (hs b (by simp))
    have hvalue : digitsValue (s ++ [b]) = 10 * digitsValue s + (b.toNat - 48) := by
      rw [digitsValue, List.foldl_append]
      rfl
    have hmod : digitsValue (s ++ [b]) % 10 = b.toNat - 48 := by omega
    have hdiv : digitsValue (s ++ [b]) / 10 = digitsValue s := by omega
    by_cases hnil : s = []
    · subst hnil
      rw [decimal_eq, if_pos (by rw [hvalue]; simpa [digitsValue] using hlt), hmod, hb]
    · have hhead : s.head? ≠ some 48 := by
        intro h
        have hone := hzero (by rw [List.head?_append_of_ne_nil _ hnil, h])
        have hpos := List.length_pos_iff.mpr hnil
        rw [List.length_append, List.length_singleton] at hone
        omega
      have hrest : decimal (digitsValue s) = s :=
        ih hnil (fun c hc => hs c (List.mem_append_left _ hc)) fun h => absurd h hhead
      have hpos : digitsValue s ≠ 0 := by
        intro h
        rw [h] at hrest
        exact hhead (by rw [← hrest]; decide)
      rw [decimal_eq, if_neg (by omega), hdiv, hmod, hrest, hb]

/-- A string of digits is the numeral of its value, with zeros in front. -/
theorem exists_zeros_decimal {s : ByteString} (hne : s ≠ []) (hs : ∀ b ∈ s, isDigit b = true) :
    ∃ zeros, s = List.replicate zeros 48 ++ decimal (digitsValue s) := by
  induction s with
  | nil => exact absurd rfl hne
  | cons b s ih =>
    by_cases hzero : b = 48 ∧ s ≠ []
    · obtain ⟨rfl, hnil⟩ := hzero
      have hvalue : digitsValue (48 :: s) = digitsValue s := rfl
      obtain ⟨zeros, hzeros⟩ := ih hnil fun c hc => hs c (List.mem_cons_of_mem _ hc)
      refine ⟨zeros + 1, ?_⟩
      rw [hvalue, List.replicate_succ, List.cons_append, ← hzeros]
    · refine ⟨0, (decimal_digitsValue hne hs fun h => ?_).symm⟩
      have hb : b = 48 := by simpa using h
      have hnil : s = [] := not_not.mp fun h => hzero ⟨hb, h⟩
      rw [hnil]
      rfl

/-! ### Delimiters -/

/-- A delimiter that occurs in neither head splits a concatenation in one way only. -/
theorem append_cons_inj {d : UInt8} {a a' r r' : ByteString} (ha : d ∉ a) (ha' : d ∉ a')
    (h : a ++ d :: r = a' ++ d :: r') : a = a' ∧ r = r' := by
  induction a generalizing a' with
  | nil =>
    cases a' with
    | nil => exact ⟨rfl, (List.cons.inj h).2⟩
    | cons b a' =>
      rw [List.nil_append, List.cons_append] at h
      exact absurd ((List.cons.inj h).1 ▸ List.mem_cons_self) ha'
  | cons c a ih =>
    cases a' with
    | nil =>
      rw [List.nil_append, List.cons_append] at h
      exact absurd ((List.cons.inj h).1 ▸ List.mem_cons_self) ha
    | cons b a' =>
      obtain ⟨hc, ht⟩ := List.cons.inj h
      obtain ⟨rfl, rfl⟩ := ih (fun hm => ha (List.mem_cons_of_mem c hm))
        (fun hm => ha' (List.mem_cons_of_mem b hm)) ht
      exact ⟨by rw [hc], rfl⟩

/-- **Reading records back.** If a text that starts with a record tells what the record says and
where it ends, then the text of a list of records tells what all of them say. -/
theorem map_eq_of_flatMap_eq {α β : Type*} {text : α → ByteString} {view : α → β} {P : α → Prop}
    (hne : ∀ a, text a ≠ [])
    (hcut : ∀ a b r r', P a → P b → text a ++ r = text b ++ r' → view a = view b ∧ r = r')
    {as bs : List α} (has : ∀ a ∈ as, P a) (hbs : ∀ b ∈ bs, P b)
    (h : as.flatMap text = bs.flatMap text) : as.map view = bs.map view := by
  induction as generalizing bs with
  | nil =>
    cases bs with
    | nil => rfl
    | cons b bs =>
      rw [List.flatMap_nil, List.flatMap_cons] at h
      exact absurd (List.append_eq_nil_iff.mp h.symm).1 (hne b)
  | cons a as ih =>
    cases bs with
    | nil =>
      rw [List.flatMap_nil, List.flatMap_cons] at h
      exact absurd (List.append_eq_nil_iff.mp h).1 (hne a)
    | cons b bs =>
      rw [List.forall_mem_cons] at has hbs
      rw [List.flatMap_cons, List.flatMap_cons] at h
      obtain ⟨hview, hrest⟩ := hcut a b _ _ has.1 hbs.1 h
      rw [List.map_cons, List.map_cons, hview, ih has.2 hbs.2 hrest]

/-- The pieces that successive `std::getline` calls with delimiter `d` take from `s`: the
text between the delimiters, less a last piece that is empty. -/
def getlines (d : UInt8) (s : ByteString) : List ByteString :=
  if (s.splitOn d).getLast? = some [] then (s.splitOn d).dropLast else s.splitOn d

theorem intercalate_concat_nil (d : UInt8) {ts : List ByteString} (h : ts ≠ []) :
    [d].intercalate (ts ++ [[]]) = [d].intercalate ts ++ [d] := by
  induction ts with
  | nil => exact absurd rfl h
  | cons t ts ih =>
    by_cases hts : ts = []
    · simp [hts]
    · rw [List.cons_append, List.intercalate_cons_of_ne_nil (by simp), ih hts,
        List.intercalate_cons_of_ne_nil hts, List.append_assoc, List.append_assoc,
        List.append_assoc]

/-- Pieces without delimiters, the last of them not empty, are read from the string in which they
stand with delimiters between them, and from that with one delimiter more at the end. -/
theorem getlines_eq_iff {d : UInt8} {s : ByteString} {ts : List ByteString} (hne : ts ≠ [])
    (hts : ∀ t ∈ ts, d ∉ t) (hlast : ts.getLast? ≠ some []) :
    getlines d s = ts ↔ s = [d].intercalate ts ∨ s = [d].intercalate ts ++ [d] := by
  constructor
  · intro h
    have hjoin : [d].intercalate (s.splitOn d) = s := List.intercalate_splitOn d
    rw [getlines] at h
    split_ifs at h with hempty
    · have hsplit : s.splitOn d = ts ++ [[]] := by
        rw [← h]
        exact (List.dropLast_append_getLast? [] hempty).symm
      rw [hsplit, intercalate_concat_nil d hne] at hjoin
      exact .inr hjoin.symm
    · rw [h] at hjoin
      exact .inl hjoin.symm
  · rintro (rfl | rfl)
    · rw [getlines, List.splitOn_intercalate d hts hne, if_neg hlast]
    · have hts' : ∀ t ∈ ts ++ [[]], d ∉ t := by
        intro t ht
        rcases List.mem_append.mp ht with ht | ht
        · exact hts t ht
        · rw [List.mem_singleton.mp ht]
          exact List.not_mem_nil
      rw [← intercalate_concat_nil d hne, getlines,
        List.splitOn_intercalate d hts' (by simp), if_pos (by simp), List.dropLast_concat]

/-- Every byte of a string is a delimiter or lies in one of its pieces. -/
theorem mem_getlines {d b : UInt8} {s : ByteString} (hb : b ∈ s) :
    b = d ∨ ∃ t ∈ getlines d s, b ∈ t := by
  have hsplit : ∀ ts : List ByteString, b ∈ [d].intercalate ts → b = d ∨ ∃ t ∈ ts, b ∈ t := by
    intro ts
    induction ts with
    | nil => intro h; simp at h
    | cons t ts ih =>
      intro h
      cases ts with
      | nil => exact .inr ⟨t, List.mem_singleton_self t, by simpa using h⟩
      | cons t' ts =>
        rw [List.intercalate_cons_cons, List.append_assoc, List.mem_append, List.mem_append,
          List.mem_singleton] at h
        rcases h with h | h | h
        · exact .inr ⟨t, List.mem_cons_self, h⟩
        · exact .inl h
        · exact (ih h).imp_right fun ⟨u, hu, hbu⟩ => ⟨u, List.mem_cons_of_mem t hu, hbu⟩
  have hjoin : [d].intercalate (s.splitOn d) = s := List.intercalate_splitOn d
  rw [← hjoin] at hb
  refine (hsplit _ hb).imp_right fun ⟨t, ht, hbt⟩ => ⟨t, ?_, hbt⟩
  rw [getlines]
  split_ifs with h
  · -- the piece that is not taken is empty, so it is not `t`
    rw [← List.dropLast_append_getLast? [] h, List.mem_append, List.mem_singleton] at ht
    exact ht.resolve_right fun h' => List.not_mem_nil (h' ▸ hbt)
  · exact ht

/-- No piece between delimiters contains the delimiter. -/
theorem not_mem_of_mem_splitOn {d : UInt8} {s t : ByteString} (ht : t ∈ s.splitOn d) : d ∉ t := by
  induction s generalizing t with
  | nil =>
    rw [List.splitOn_nil, List.mem_singleton] at ht
    rw [ht]
    exact List.not_mem_nil
  | cons b s ih =>
    rw [List.splitOn_cons_eq_if_modifyHead] at ht
    split_ifs at ht with hb
    · rcases List.mem_cons.mp ht with rfl | ht
      · exact List.not_mem_nil
      · exact ih ht
    · obtain ⟨u, us, hsplit⟩ := List.exists_cons_of_ne_nil (List.splitOn_ne_nil d s)
      rw [hsplit, List.modifyHead_cons] at ht
      rcases List.mem_cons.mp ht with rfl | ht
      · rw [List.mem_cons, not_or]
        have hne : d ≠ b := fun h => hb (beq_iff_eq.mpr h.symm)
        exact ⟨hne, ih (hsplit ▸ List.mem_cons_self)⟩
      · exact ih (hsplit ▸ List.mem_cons_of_mem u ht)

/-- What the first pieces read are: those between the delimiters, unless an empty one is at the
end. -/
theorem prefix_getlines_iff {d : UInt8} {s : ByteString} {ts : List ByteString} :
    ts <+: getlines d s ↔
      ∃ rest, s.splitOn d = ts ++ rest ∧ (rest = [] → ts.getLast? ≠ some []) := by
  rw [getlines]
  split_ifs with hlast
  · have hsplit := List.dropLast_append_getLast? [] hlast
    constructor
    · rintro ⟨rest, hrest⟩
      rw [← hrest, List.append_assoc] at hsplit
      exact ⟨rest ++ [[]], hsplit.symm, fun h => by simp at h⟩
    · rintro ⟨rest, hrest, hne⟩
      rcases List.eq_nil_or_concat rest with rfl | ⟨rest, u, rfl⟩
      · rw [hrest, List.append_nil] at hlast
        exact absurd hlast (hne rfl)
      · refine ⟨rest, ?_⟩
        rw [hrest, List.concat_eq_append, ← List.append_assoc, List.dropLast_concat]
  · constructor
    · rintro ⟨rest, hrest⟩
      refine ⟨rest, hrest.symm, ?_⟩
      rintro rfl
      rwa [← hrest, List.append_nil] at hlast
    · rintro ⟨rest, hrest, -⟩
      exact ⟨rest, hrest.symm⟩

end ByteString
