import TrafficCheck.Proofs.Numerals
import TrafficCheck.Proofs.Rounding

/-!
# Decimals and numbers

Reading a decimal rounds it once, whether it is short enough for the table of powers of ten or not.
So zeros behind a coefficient may be written as an exponent, and the decimal that writes a number
without rounding is read as that number. Since the shortest decimal is one that was tried out, the
text of a finite number is read as that number.

## Main results

* `read_natural`, `read_mul_pow_five`: the number of a decimal.
* `read?_positional`: the positional notation of a decimal writes the number nearest to it.
* `read?_text_read`, `text_read`: how a number that was read is written.
-/

namespace TrafficCheck.Decimal

open Float.Model Float.Model.UnpackedFloat

/-! ## Small operands -/

section Operands

variable {c k : Nat}

/-- The normal form of a positive integer of at most 53 bits. -/
def normal (c : Nat) : Binary := ⟨c * 2 ^ (52 - c.log2), -(52 - c.log2 : Nat)⟩

theorem normal_mantissa_pos (hc : c ≠ 0) : 0 < (normal c).mantissa :=
  Nat.mul_pos (Nat.pos_of_ne_zero hc) (Nat.two_pow_pos _)

theorem isCanonical_normal (hc : c ≠ 0) (hlt : c < 2 ^ 53) :
    2 ^ 52 ≤ (normal c).mantissa ∧ (normal c).IsCanonical := by
  have hlog : c.log2 < 53 := (Nat.log2_lt hc).2 hlt
  have hmantissa : (normal c).mantissa.log2 = 52 := by
    rw [normal, log2_mul_pow hc]
    omega
  obtain ⟨hle, hgt⟩ := (Nat.log2_eq_iff (normal_mantissa_pos hc).ne').1 hmantissa
  exact ⟨hle, hgt, by simp only [normal]; omega, by simp only [normal]; omega, .inl hle⟩

theorem toModel_toFloat (hc : c ≠ 0) (hlt : c < 2 ^ 53) : c.toUInt64.toFloat.toModel =
    .pack (.finite .positive (normal c).mantissa (normal c).exponent (normal_mantissa_pos hc)) := by
  have hlog : c.log2 < 53 := (Nat.log2_lt hc).2 hlt
  have hword : c.toUInt64.toNat = c := by
    rw [Nat.toUInt64, UInt64.toNat_ofNat']
    omega
  have hcompare : compare (c : Int) 0 = .gt := Int.compare_eq_gt.2 (by omega)
  have htarget : Format.binary64.targetExponent (totalExponent c 0) = (normal c).exponent := by
    simp only [Format.targetExponent, totalExponent, Format.mantissaBits,
      Format.minExponent, normal]
    norm_num
    omega
  have hdecrease : decreaseExponent c 0 (normal c).exponent =
      ((normal c).mantissa, (normal c).exponent) := by
    simp only [decreaseExponent, normal, Nat.shiftLeft_eq]
    congr 1 <;> simp
  have hcanonical := (isCanonical_normal hc hlt).2.targetExponent_eq (normal_mantissa_pos hc)
  have hround : UnpackedFloat.ofUInt64 .binary64 c.toUInt64 =
      .finite .positive (normal c).mantissa (normal c).exponent (normal_mantissa_pos hc) := by
    simp only [UnpackedFloat.ofUInt64, UnpackedFloat.ofNat, UnpackedFloat.ofInt,
      UnpackedFloat.normalize, hword, hcompare, Int.toNat_natCast, UnpackedFloat.round, htarget,
      hdecrease]
    exact roundWithAccuracy_of_le _ hcanonical.le
  rw [← hround]
  rfl

/-- A positive integer of at most 53 bits is converted without rounding. -/
theorem unpack_toFloat (hc : c ≠ 0) (hlt : c < 2 ^ 53) : c.toUInt64.toFloat.toModel.unpack =
    .finite .positive (normal c).mantissa (normal c).exponent (normal_mantissa_pos hc) := by
  obtain ⟨hfull, hcanonical⟩ := isCanonical_normal hc hlt
  rw [toModel_toFloat hc hlt, hcanonical.unpack_pack hfull]

theorem unpack_toFloat_zero : (0).toUInt64.toFloat.toModel.unpack = .zero .positive := rfl

/-- The normal form of a power of ten that is small enough. -/
def power (k : Nat) : Binary := ⟨(normal (5 ^ k)).mantissa, (normal (5 ^ k)).exponent + k⟩

theorem power_mantissa_pos (k : Nat) : 0 < (power k).mantissa :=
  normal_mantissa_pos (Nat.pow_pos (by decide)).ne'

theorem isCanonical_power (hk : k ≤ 22) :
    2 ^ 52 ≤ (power k).mantissa ∧ (power k).IsCanonical := by
  have hpos : 5 ^ k ≠ 0 := (Nat.pow_pos (by decide)).ne'
  have hlt : 5 ^ k < 2 ^ 53 :=
    Nat.lt_of_le_of_lt (Nat.pow_le_pow_right (by decide) hk) (by decide)
  obtain ⟨hfull, hcanonical⟩ := isCanonical_normal hpos hlt
  refine ⟨hfull, hcanonical.mantissa_lt, ?_, ?_, .inl hfull⟩
  · have := hcanonical.le_exponent
    simp only [power]
    omega
  · simp only [power, normal]
    omega

theorem powersOfTen_eq : ∀ k : Fin 23, Float.exactlyRepresentablePowersOfTen[k] =
    .ofModel (.pack (.finite .positive (power k).mantissa (power k).exponent
      (power_mantissa_pos k))) := by
  decide +kernel

/-- The table of the powers of ten holds these. -/
theorem unpack_powersOfTen (hk : k ≤ 22) (h : k < Float.exactlyRepresentablePowersOfTen.size) :
    (Float.exactlyRepresentablePowersOfTen[k]).toModel.unpack =
      .finite .positive (power k).mantissa (power k).exponent (power_mantissa_pos k) := by
  obtain ⟨hfull, hcanonical⟩ := isCanonical_power hk
  have hpower := powersOfTen_eq ⟨k, h⟩
  rw [Fin.getElem_fin] at hpower
  rw [hpower]
  exact hcanonical.unpack_pack hfull _

end Operands

/-! ## Reading -/

section Reading

variable {c k : Nat}

theorem mul_eq (x y : Float) :
    x * y = .ofModel (.pack (UnpackedFloat.mul .binary64 x.toModel.unpack y.toModel.unpack)) := rfl

theorem div_eq (x y : Float) :
    x / y = .ofModel (.pack (UnpackedFloat.div .binary64 x.toModel.unpack y.toModel.unpack)) := rfl

/-- A decimal without fraction is rounded once. -/
theorem read_natural (hc : c ≠ 0) (hk : k ≤ 2048) : (⟨c, k⟩ : Scaled).read =
    .ofModel
      (.pack (roundWithAccuracy .binary64 .positive (c * 10 ^ k * 2 ^ 53) (-53) .exact)) := by
  have hsign : ¬ ((k : Int) < 0) := by omega
  rw [Scaled.read, Float.ofScientific]
  simp only [hsign, decide_false, Int.natAbs_natCast, Bool.false_eq_true, if_false,
    Int.ofNat_eq_natCast]
  split
  · rename_i hsmall
    obtain ⟨hlt, hle⟩ := hsmall
    -- The two factors and the whole number are long enough to be compared before they are rounded.
    have hfull := (isCanonical_normal hc hlt).1
    have hlong : 2 ^ 52 ≤ (normal c).mantissa * (power k).mantissa :=
      hfull.trans (Nat.le_mul_of_pos_right _ (power_mantissa_pos k))
    have hpos : c * 10 ^ k ≠ 0 := Nat.mul_ne_zero hc (Nat.pow_pos (by decide)).ne'
    have hlong' : 2 ^ 52 ≤ c * 10 ^ k * 2 ^ 53 :=
      (show 2 ^ 52 ≤ 2 ^ 53 by decide).trans (Nat.le_mul_of_pos_left _ (Nat.pos_of_ne_zero hpos))
    have hmantissa : (normal c).mantissa * (power k).mantissa * 2 ^ (k + 53) =
        c * 10 ^ k * 2 ^ 53 * 2 ^ (52 - c.log2 + (52 - (5 ^ k).log2)) := by
      simp only [normal, power, Nat.pow_add, show 10 = 5 * 2 by rfl, Nat.mul_pow]
      ring
    have hexponent : (normal c).exponent + (power k).exponent - (k + 53 : Nat) =
        -53 - (52 - c.log2 + (52 - (5 ^ k).log2) : Nat) := by
      simp only [normal, power]
      omega
    have hround := roundWithAccuracy_congr (s := .positive) (by omega) (le_targetExponent hlong _)
      (by omega) (le_targetExponent hlong' (-53)) hmantissa hexponent
    rw [mul_eq, unpack_toFloat hc hlt, unpack_powersOfTen hle, ← hround]
    rfl
  · have hinfinite : ¬ ((k : Int) > 2 ^ Format.binary64.exponentBits) := by
      change ¬ ((k : Int) > 2 ^ 11)
      omega
    have hzero : ¬ ((k : Int) < -((2 ^ Format.binary64.exponentBits : Int) + c.log2)) := by
      change ¬ ((k : Int) < -(2 ^ 11 + c.log2))
      omega
    rw [Float.Model.ofScientific, UnpackedFloat.ofScientific, dif_neg hc, if_neg hinfinite,
      if_neg hzero, if_pos (Int.natCast_nonneg k)]
    have hmantissa : (c <<< Format.binary64.mantissaBits) * 10 ^ k = c * 10 ^ k * 2 ^ 53 := by
      rw [Nat.shiftLeft_eq, Nat.mul_right_comm]
      rfl
    simp only [UnpackedFloat.mul, Int.toNat_natCast, hmantissa]
    rfl

/-- The number of a decimal that is nought. -/
theorem read_zero (e : Int) : (⟨0, e⟩ : Scaled).read = .ofModel (.pack (.zero .positive)) := by
  rw [Scaled.read, Float.ofScientific]
  split
  · rename_i hsmall
    split
    · rw [div_eq, unpack_toFloat_zero, unpack_powersOfTen hsmall.2]
      rfl
    · rw [mul_eq, unpack_toFloat_zero, unpack_powersOfTen hsmall.2]
      rfl
  · simp only [Float.Model.ofScientific, UnpackedFloat.ofScientific, dite_true]

/-- Zeros behind the coefficient may be written as an exponent. -/
theorem read_mul_pow (c : Nat) {k : Nat} (hk : k ≤ 2048) :
    (⟨c * 10 ^ k, 0⟩ : Scaled).read = (⟨c, k⟩ : Scaled).read := by
  by_cases hc : c = 0
  · rw [hc, Nat.zero_mul, read_zero, read_zero]
  · have hpos : c * 10 ^ k ≠ 0 := Nat.mul_ne_zero hc (Nat.pow_pos (by decide)).ne'
    have hnatural := read_natural hpos (Nat.zero_le 2048)
    rw [Nat.pow_zero, Nat.mul_one] at hnatural
    rw [read_natural hc hk, ← hnatural]
    rfl

/-- A decimal that is a fraction of a power of two is not rounded. -/
theorem read_mul_pow_five {b : Binary} (h : b.IsCanonical) (hpos : 0 < b.mantissa) {k : Nat}
    (hk : 0 < k) (hexponent : b.exponent = -k) : (⟨b.mantissa * 5 ^ k, -k⟩ : Scaled).read =
      .ofModel (.pack (.finite .positive b.mantissa b.exponent hpos)) := by
  have htarget := h.targetExponent_eq hpos
  have hmin := h.le_exponent
  have hc : b.mantissa * 5 ^ k ≠ 0 := Nat.mul_ne_zero hpos.ne' (Nat.pow_pos (by decide)).ne'
  have hsign : -(k : Int) < 0 := by omega
  rw [Scaled.read, Float.ofScientific]
  simp only [hsign, Int.natAbs_neg, Int.natAbs_natCast, decide_true, if_true, Int.negOfNat_eq,
    Int.ofNat_eq_natCast]
  split
  · rename_i hsmall
    obtain ⟨hlt, hle⟩ := hsmall
    have hquotient : (normal (b.mantissa * 5 ^ k)).exponent - (power k).exponent =
        b.exponent + (52 - (5 ^ k).log2 : Nat) - (52 - (b.mantissa * 5 ^ k).log2 : Nat) := by
      simp only [normal, power]
      omega
    have hmantissa : (normal (b.mantissa * 5 ^ k)).mantissa =
        b.mantissa * 5 ^ k * 2 ^ (52 - (b.mantissa * 5 ^ k).log2) := rfl
    have hten : (power k).mantissa = 5 ^ k * 2 ^ (52 - (5 ^ k).log2) := rfl
    rw [div_eq, unpack_toFloat hc hlt, unpack_powersOfTen hle,
      div_eq_finite hpos _ _ htarget hmantissa hten hquotient]
    rfl
  · have hinfinite : ¬ (-(k : Int) > 2 ^ Format.binary64.exponentBits) := by
      change ¬ (-(k : Int) > 2 ^ 11)
      omega
    have hzero : ¬ (-(k : Int) < -((2 ^ Format.binary64.exponentBits : Int) +
        (b.mantissa * 5 ^ k).log2)) := by
      change ¬ (-(k : Int) < -(2 ^ 11 + (b.mantissa * 5 ^ k).log2))
      omega
    have hmantissa : b.mantissa * 5 ^ k = b.mantissa * 5 ^ k * 2 ^ 0 := by simp
    have hten : 10 ^ (- -(k : Int)).toNat = 5 ^ k * 2 ^ k := by
      rw [Int.neg_neg, Int.toNat_natCast, ← Nat.mul_pow]
    rw [Float.Model.ofScientific, UnpackedFloat.ofScientific, dif_neg hc, if_neg hinfinite,
      if_neg hzero, if_neg (Int.not_le.2 hsign),
      div_eq_finite hpos _ _ htarget hmantissa hten (by omega)]
    rfl

/-- The decimal that writes a number without rounding is read as that number. -/
theorem read_exact {b : Binary} (h : b.IsCanonical) (hpos : 0 < b.mantissa) :
    b.exact.read = .ofModel (.pack (.finite .positive b.mantissa b.exponent hpos)) := by
  have htarget := h.targetExponent_eq hpos
  by_cases hsign : 0 ≤ b.exponent
  · obtain ⟨k, hk⟩ := Int.eq_ofNat_of_zero_le hsign
    have hround := roundWithAccuracy_mul_pow (s := .positive) hpos.ne' htarget.ge (k + 53)
    rw [roundWithAccuracy_of_le hpos htarget.le, Nat.pow_add, ← Nat.mul_assoc, hk,
      show ((k : Int) - (k + 53 : Nat)) = -53 by omega] at hround
    have hpow : b.mantissa * 2 ^ k ≠ 0 := Nat.mul_ne_zero hpos.ne' (Nat.two_pow_pos k).ne'
    have hnatural := read_natural hpow (Nat.zero_le 2048)
    rw [Nat.pow_zero, Nat.mul_one, hround] at hnatural
    rw [Binary.exact, if_pos hsign, hk]
    exact hnatural
  · obtain ⟨k, hk⟩ : ∃ k : Nat, b.exponent = -k := ⟨b.exponent.natAbs, by omega⟩
    have habs : b.exponent.natAbs = k := by omega
    have hfraction := read_mul_pow_five h hpos (show 0 < k by omega) hk
    rw [← hk] at hfraction
    rw [Binary.exact, if_neg hsign, habs]
    exact hfraction

theorem ofScientific_cases (c : Nat) (e : Int) :
    IsMagnitude (UnpackedFloat.ofScientific .binary64 c e) ∨
      UnpackedFloat.ofScientific .binary64 c e = .infinity .positive := by
  rw [UnpackedFloat.ofScientific]
  split
  · exact .inl trivial
  split
  · exact .inr rfl
  split
  · exact .inl trivial
  split
  · exact .inl (IsMagnitude.mul (u := .finite .positive _ _ _) trivial _)
  · exact .inl (IsMagnitude.div (u := .finite .positive _ _ _) trivial _)

/-- What a decimal writes is a magnitude or too large. -/
theorem exists_read_eq (d : Scaled) : ∃ u, (IsMagnitude u ∨ u = .infinity .positive) ∧
    d.read = .ofModel (.pack u) := by
  have hoperand : ∀ c < 2 ^ 53, IsMagnitude (Nat.toUInt64 c).toFloat.toModel.unpack := by
    intro c hlt
    by_cases hc : c = 0
    · rw [hc, unpack_toFloat_zero]
      trivial
    · rw [unpack_toFloat hc hlt]
      trivial
  rw [Scaled.read, Float.ofScientific]
  split
  · rename_i hsmall
    have hmagnitude := hoperand _ hsmall.1
    split
    · rw [div_eq, unpack_powersOfTen hsmall.2]
      exact ⟨_, .inl (hmagnitude.div _), rfl⟩
    · rw [mul_eq, unpack_powersOfTen hsmall.2]
      exact ⟨_, .inl (hmagnitude.mul _), rfl⟩
  · exact ⟨_, ofScientific_cases _ _, rfl⟩

/-- What a decimal writes has no sign and is defined. -/
theorem isNegative_read (d : Scaled) : isNegative d.read = false := by
  obtain ⟨u, hu, hread⟩ := exists_read_eq d
  rw [hread, isNegative_ofModel_pack hu]

theorem isNaN_read (d : Scaled) : d.read.isNaN = false := by
  obtain ⟨u, hu, hread⟩ := exists_read_eq d
  rw [hread, isNaN_ofModel_pack hu]

end Reading

/-! ## Writing -/

section Writing

variable {d : Scaled} {x : Float} {b : Binary}

theorem value_append_zeros (cs : List Char) (n : Nat) :
    value (cs ++ List.replicate n '0') = value cs * 10 ^ n := by
  rw [value, Nat.ofDigitChars_append, Nat.ofDigitChars_replicate_zero, Nat.mul_comm]
  rfl

theorem read?_of_isDigit {cs : List Char} (hcs : ∀ c ∈ cs, c.isDigit = true) (hne : cs ≠ []) :
    read? cs = some (Scaled.read ⟨value cs, 0⟩) := by
  have hnone : ∀ c ∈ ([] : List Char).head?, c.isDigit = false := by simp
  have hsplit := takeWhile_isDigit hcs hnone
  rw [List.append_nil] at hsplit
  simp [read?, hsplit, hne]

theorem read?_point {whole fraction : List Char} (hwhole : ∀ c ∈ whole, c.isDigit = true)
    (hfraction : ∀ c ∈ fraction, c.isDigit = true) (hne : whole ≠ []) (hne' : fraction ≠ []) :
    read? (whole ++ '.' :: fraction) =
      some (Scaled.read ⟨value (whole ++ fraction), -fraction.length⟩) := by
  have hsplit := takeWhile_isDigit hwhole
    (show ∀ c ∈ ('.' :: fraction).head?, c.isDigit = false by simp)
  simp [read?, hsplit, hne, hne']
  exact hfraction

/-- The positional notation of a decimal writes the number nearest to it. -/
theorem read?_positional (h : d.exponent ≤ 2048) : read? d.positional = some d.read := by
  obtain ⟨c, e⟩ := d
  have hdigits : ∀ x ∈ digits c, x.isDigit = true := fun x => isDigit_of_mem_digits
  simp only [Scaled.positional]
  split
  · rename_i he
    obtain ⟨k, rfl⟩ := Int.eq_ofNat_of_zero_le he
    have hall : ∀ x ∈ digits c ++ List.replicate k '0', x.isDigit = true := fun x hx =>
      (List.mem_append.1 hx).elim (hdigits x) isDigit_of_mem_zeros
    rw [Int.toNat_natCast, read?_of_isDigit hall (by simp [digits_ne_nil]), value_append_zeros,
      value_digits, read_mul_pow c (by simpa using h)]
  · rename_i he
    obtain ⟨k, rfl⟩ : ∃ k : Nat, e = -k := ⟨e.natAbs, by omega⟩
    have hk : 0 < k := by omega
    rw [Int.natAbs_neg, Int.natAbs_natCast]
    split
    · rename_i hlt
      rw [read?_point (fun x hx => hdigits x (List.mem_of_mem_take hx))
        (fun x hx => hdigits x (List.mem_of_mem_drop hx)), List.take_append_drop, value_digits,
        List.length_drop, show (digits c).length - ((digits c).length - k) = k by omega]
      · simp [digits_ne_nil]
        omega
      · simp
        omega
    · rename_i hle
      have hfraction : ∀ x ∈ List.replicate (k - (digits c).length) '0' ++ digits c,
          x.isDigit = true :=
        fun x hx => (List.mem_append.1 hx).elim isDigit_of_mem_zeros (hdigits x)
      have hlength : (List.replicate (k - (digits c).length) '0' ++ digits c).length = k := by
        simp
        omega
      have hvalue :
          value (['0'] ++ (List.replicate (k - (digits c).length) '0' ++ digits c)) = c := by
        rw [← List.append_assoc, ← List.replicate_one, List.replicate_append_replicate,
          value_zeros_append, value_digits]
      have hwhole : ∀ x ∈ ['0'], x.isDigit = true := by simp
      have hread := read?_point hwhole hfraction (by simp) (by simp [digits_ne_nil])
      rwa [hvalue, hlength] at hread

theorem Binary.exponent_of_mem_neighbours {k : Int} (h : d ∈ b.neighbours k) : d.exponent = k := by
  simp only [Binary.neighbours] at h
  split at h <;> simp at h <;> rcases h with rfl | rfl <;> rfl

theorem eq_of_toBits_eq {y : Float} (h : x.toBits = y.toBits) : x = y := by
  obtain ⟨bits, hx⟩ := x
  obtain ⟨bits', hy⟩ := y
  obtain rfl : bits = bits' := h
  rfl

/-- The shortest decimal reads back as the number, or it is the exact one. -/
theorem Binary.shortest_cases (b : Binary) (x : Float) :
    (b.shortest x).read = x ∧ (b.shortest x).exponent ≤ b.coarsest ∨ b.shortest x = b.exact := by
  simp only [Binary.shortest]
  generalize hfind : (List.range ((b.coarsest - b.finest).toNat + 1)).findSome? (fun (i : Nat) =>
    (b.neighbours (b.coarsest - i)).find? fun d => d.read.toBits == x.toBits) = found
  cases found with
  | none => exact .inr rfl
  | some d =>
    -- The candidate was tried, and lies on a grid no coarser than the first.
    obtain ⟨i, -, hd⟩ := List.exists_of_findSome?_eq_some hfind
    have hbits := List.find?_some hd
    have hexponent := Binary.exponent_of_mem_neighbours (List.mem_of_find?_eq_some hd)
    refine .inl ⟨eq_of_toBits_eq (by simpa using hbits), ?_⟩
    rw [Option.getD_some, hexponent]
    omega

theorem Binary.IsCanonical.read?_shortest (h : b.IsCanonical) (hpos : 0 < b.mantissa)
    (hx : x = .ofModel (.pack (.finite .positive b.mantissa b.exponent hpos))) :
    read? (b.shortest x).positional = some x := by
  have hexponent := h.exponent_le
  rcases b.shortest_cases x with ⟨hread, hle⟩ | hexact
  · have hlog : b.mantissa.log2 < 53 := (Nat.log2_lt hpos.ne').2 h.mantissa_lt
    have hcoarsest : b.coarsest ≤ 2048 := by
      simp only [Binary.coarsest]
      omega
    rw [read?_positional (hle.trans hcoarsest), hread]
  · have hle : b.exact.exponent ≤ 2048 := by
      simp only [Binary.exact]
      split
      · exact Int.natCast_nonneg 2048
      · simp only
        omega
    rw [hexact, read?_positional hle, read_exact h hpos, hx]

/-- A number that a decimal writes is written without a sign. -/
theorem toList_text_read (d : Scaled) : (text d.read).toList = magnitudeText d.read := by
  simp [text, isNegative_read]

/-- What a number is written as is read as that number, if it is finite. -/
theorem read?_text_read (h : d.read.isFinite = true) :
    read? (text d.read).toList = some d.read := by
  have hsign := isNegative_read d
  rw [toList_text_read, magnitudeText]
  cases hmagnitude : magnitude? d.read with
  | none => exact absurd (magnitude?_eq_none_iff.1 hmagnitude) (by simp [h])
  | some b =>
    split
    · rename_i heq
      exact absurd heq (by simp)
    · rename_i e heq
      obtain rfl := Option.some.inj heq
      have hzero := eq_zero_of_magnitude? hsign hmagnitude rfl
      rw [hzero, ← read_zero 0]
      exact read?_of_isDigit (by simp) (by simp)
    · rename_i b' hne heq
      obtain rfl := Option.some.inj heq
      have hpos : 0 < b.mantissa := Nat.pos_of_ne_zero fun hzero => by
        obtain ⟨m, e⟩ := b
        obtain rfl : m = 0 := hzero
        exact hne e rfl
      exact (isCanonical_of_magnitude? hmagnitude).read?_shortest hpos
        (eq_of_magnitude? hsign hmagnitude hpos)

/-- A number that is too large is written as a word. -/
theorem text_read (h : d.read.isFinite = false) : text d.read = "inf" := by
  rw [← String.toList_inj, toList_text_read, magnitudeText, magnitude?_eq_none_iff.2 h, isNaN_read]
  rfl

end Writing

end TrafficCheck.Decimal
