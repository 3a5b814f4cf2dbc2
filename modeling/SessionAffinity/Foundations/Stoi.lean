import SessionAffinity.Foundations.ByteString

/-!
# Reading integers

`stoi` reads a number as `std::stoi` does in the C locale. It is lenient on both sides: blanks
and a sign may stand in front of the digits, and what stands behind them is ignored. `ReadsAs`
is its grammar, and `stoi_eq_some_iff` says that it reads exactly what the grammar describes, as
long as the number fits an `int`.
-/

namespace ByteString

/-- `std::isspace` in the C locale. -/
def isSpace (b : UInt8) : Bool := decide (b.toNat = 32 ∨ 9 ≤ b.toNat ∧ b.toNat ≤ 13)

/-- A plus or a minus sign. -/
def isSign (b : UInt8) : Bool := b == 43 || b == 45

/-- `std::stoi`: skip blanks, take a sign and the digits behind it. Nothing is returned where
the source throws. -/
def stoi (s : ByteString) : Option ℤ :=
  let s := s.dropWhile isSpace
  let negative := s.head? == some 45
  let s := if s.head?.any isSign then s.tail else s
  let digits := s.takeWhile isDigit
  let value : ℤ := if negative then -digitsValue digits else digitsValue digits
  -- `std::invalid_argument`
  if digits.isEmpty then none
  -- `std::out_of_range`
  else if value < -2 ^ 31 ∨ 2 ^ 31 ≤ value then none
  else some value

/-- The string reads as `v`: blanks, at most one sign, the digits of `v`, and behind them nothing
or what does not begin with a digit. -/
def ReadsAs (s : ByteString) (v : ℤ) : Prop :=
  ∃ blanks sign digits rest : ByteString, s = blanks ++ (sign ++ (digits ++ rest)) ∧
    (∀ b ∈ blanks, isSpace b = true) ∧ (sign = [] ∨ sign = [43] ∨ sign = [45]) ∧
    digits ≠ [] ∧ (∀ b ∈ digits, isDigit b = true) ∧ (∀ b ∈ rest.head?, isDigit b = false) ∧
    v = if sign = [45] then -(digitsValue digits : ℤ) else digitsValue digits

/-! ### Scanning -/

private theorem dropWhile_blanks {p : UInt8 → Bool} {blanks s : ByteString}
    (hblanks : ∀ b ∈ blanks, p b = true) (hs : ∀ b ∈ s.head?, p b = false) :
    (blanks ++ s).dropWhile p = s := by
  rw [List.dropWhile_append_of_pos hblanks]
  cases s with
  | nil => rfl
  | cons b s => exact List.dropWhile_cons_of_neg (by simpa using hs b rfl)

private theorem takeWhile_digits {p : UInt8 → Bool} {digits rest : ByteString}
    (hdigits : ∀ b ∈ digits, p b = true) (hrest : ∀ b ∈ rest.head?, p b = false) :
    (digits ++ rest).takeWhile p = digits := by
  rw [List.takeWhile_append_of_pos hdigits]
  cases rest with
  | nil => simp
  | cons b rest => rw [List.takeWhile_cons_of_neg (by simpa using hrest b rfl), List.append_nil]

private theorem isDigit_head?_dropWhile (s : ByteString) :
    ∀ b ∈ (s.dropWhile isDigit).head?, isDigit b = false := by
  intro b hb
  have h := List.head?_dropWhile_not isDigit s
  rw [Option.mem_def.mp hb] at h
  simpa using h

/-- A digit is neither a sign nor a blank. -/
theorem not_isSign_of_isDigit {b : UInt8} (h : isDigit b = true) :
    isSign b = false ∧ isSpace b = false := by
  rw [isDigit, decide_eq_true_eq] at h
  constructor
  · rw [isSign, Bool.or_eq_false_iff, beq_eq_false_iff_ne, beq_eq_false_iff_ne]
    constructor
    · rintro rfl
      exact absurd h (by decide)
    · rintro rfl
      exact absurd h (by decide)
  · rw [isSpace, decide_eq_false_iff_not]
    omega

/-- What follows the blanks: a sign or none, and digits. -/
private theorem head?_signed {sign digits : ByteString} (rest : ByteString)
    (hsign : sign = [] ∨ sign = [43] ∨ sign = [45]) (hne : digits ≠ [])
    (hdigits : ∀ b ∈ digits, isDigit b = true) :
    (∀ b ∈ (sign ++ (digits ++ rest)).head?, isSpace b = false) ∧
    ((sign ++ (digits ++ rest)).head? = some 45 ↔ sign = [45]) ∧
    (if (sign ++ (digits ++ rest)).head?.any isSign then (sign ++ (digits ++ rest)).tail
      else sign ++ (digits ++ rest)) = digits ++ rest := by
  obtain ⟨d, ds, rfl⟩ := List.exists_cons_of_ne_nil hne
  have hd := hdigits d List.mem_cons_self
  obtain ⟨hnosign, hnospace⟩ := not_isSign_of_isDigit hd
  have hminus : d ≠ 45 := by
    rintro rfl
    exact absurd hd (by decide)
  rcases hsign with rfl | rfl | rfl
  · simp [hnosign, hnospace, hminus]
  · simp [isSign, isSpace]
  · simp [isSign, isSpace]

/-- What follows the blanks begins with a sign or not. -/
private theorem exists_sign (s : ByteString) :
    ∃ sign : ByteString, (sign = [] ∨ sign = [43] ∨ sign = [45]) ∧
      s = sign ++ (if s.head?.any isSign then s.tail else s) ∧
      (s.head? = some 45 ↔ sign = [45]) := by
  cases s with
  | nil => exact ⟨[], by simp⟩
  | cons b s =>
    by_cases hb : isSign b = true
    · refine ⟨[b], .inr ?_, by simp [hb], by simp⟩
      simpa [isSign] using hb
    · refine ⟨[], .inl rfl, by simp [hb], ?_⟩
      have hminus : b ≠ 45 := by
        rintro rfl
        exact absurd rfl hb
      simp [hminus]

/-! ### What is read -/

/-- **`stoi` reads its grammar**, up to the bounds of an `int`. -/
theorem stoi_eq_some_iff {s : ByteString} {v : ℤ} :
    stoi s = some v ↔ ReadsAs s v ∧ -2 ^ 31 ≤ v ∧ v < 2 ^ 31 := by
  constructor
  · intro h
    obtain ⟨sign, hsign, hsplit, hminus⟩ := exists_sign (s.dropWhile isSpace)
    simp only [stoi, beq_iff_eq, hminus, List.isEmpty_iff] at h
    generalize hu : (if (s.dropWhile isSpace).head?.any isSign then (s.dropWhile isSpace).tail
      else s.dropWhile isSpace) = u at h hsplit
    generalize hw : (if sign = [45] then -(digitsValue (u.takeWhile isDigit) : ℤ)
      else digitsValue (u.takeWhile isDigit)) = w at h
    split_ifs at h with hne hrange
    · obtain rfl := Option.some.inj h
      refine ⟨⟨s.takeWhile isSpace, sign, u.takeWhile isDigit, u.dropWhile isDigit, ?_,
        fun b hb => List.mem_takeWhile_imp hb, hsign, hne, fun b hb => List.mem_takeWhile_imp hb,
        isDigit_head?_dropWhile u, hw.symm⟩, by omega, by omega⟩
      rw [List.takeWhile_append_dropWhile, ← hsplit, List.takeWhile_append_dropWhile]
  · rintro ⟨⟨blanks, sign, digits, rest, rfl, hblanks, hsign, hne, hdigits, hrest, rfl⟩, hlow,
      hhigh⟩
    obtain ⟨hspace, hminus, htail⟩ := head?_signed rest hsign hne hdigits
    simp only [stoi, dropWhile_blanks hblanks hspace, htail, takeWhile_digits hdigits hrest,
      beq_iff_eq, hminus, List.isEmpty_iff]
    rw [if_neg hne, if_neg (by omega)]

/-- A string of digits, not empty, reads as its value and as nothing else. -/
theorem readsAs_iff_of_isDigit {s : ByteString} (hs : ∀ b ∈ s, isDigit b = true) {v : ℤ} :
    ReadsAs s v ↔ s ≠ [] ∧ v = digitsValue s := by
  constructor
  · rintro ⟨blanks, sign, digits, rest, rfl, hblanks, hsign, hne, hdigits, hrest, rfl⟩
    simp only [List.mem_append, or_imp, forall_and] at hs
    obtain ⟨hblanks', hsign', -, hrest'⟩ := hs
    have hnoblanks : blanks = [] := List.eq_nil_iff_forall_not_mem.mpr fun b hb => by
      have hspace := hblanks b hb
      rw [(not_isSign_of_isDigit (hblanks' b hb)).2] at hspace
      exact Bool.noConfusion hspace
    have hnorest : rest = [] := by
      cases rest with
      | nil => rfl
      | cons b rest =>
        have hdigit := hrest' b List.mem_cons_self
        rw [hrest b rfl] at hdigit
        exact Bool.noConfusion hdigit
    have hnosign : sign = [] := by
      rcases hsign with rfl | rfl | rfl
      · rfl
      · exact absurd (hsign' 43 (List.mem_singleton_self _)) (by decide)
      · exact absurd (hsign' 45 (List.mem_singleton_self _)) (by decide)
    subst hnoblanks hnorest hnosign
    simpa using hne
  · rintro ⟨hne, rfl⟩
    exact ⟨[], [], s, [], by simp, by simp, .inl rfl, hne, hs, by simp, by simp⟩

end ByteString
