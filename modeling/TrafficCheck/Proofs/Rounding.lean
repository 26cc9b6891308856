import Mathlib
import TrafficCheck.Decimal.Shortest

/-!
# Binary numbers

What rounding to a format leaves alone, and how a number lies in its word. A mantissa may be made
longer by zeros before it is rounded, a mantissa that is short enough stays as it is, and a quotient
that is representable is the result of the division. The magnitude of a number is the mantissa and
the exponent that it is packed from.

## Main results

* `roundWithAccuracy_mul_pow`, `roundWithAccuracy_of_le`, `div_eq_finite`: numbers that are not
  rounded.
* `Binary.IsCanonical.unpack_pack`: a normal number is unpacked as it was packed.
* `isNegative_ofModel_pack`, `isNaN_ofModel_pack`: what is rounded is not negative
  and is defined.
* `magnitude?_eq_none_iff`, `isCanonical_of_magnitude?`, `eq_of_magnitude?`: the magnitude of a
  number.
-/

namespace TrafficCheck.Decimal

open Float.Model Float.Model.UnpackedFloat

/-! ## Rounding -/

section Rounding

variable {spec : Format} {s s₁ s₂ : Sign} {m n : Nat} {e f : Int}

theorem log2_mul_pow (hm : m ≠ 0) (k : Nat) : (m * 2 ^ k).log2 = m.log2 + k := by
  have hpow : 0 < 2 ^ k := Nat.two_pow_pos k
  refine (Nat.log2_eq_iff (Nat.mul_ne_zero hm hpow.ne')).2 ⟨?_, ?_⟩
  · rw [Nat.pow_add]
    exact Nat.mul_le_mul_right _ (Nat.log2_self_le hm)
  · rw [show m.log2 + k + 1 = m.log2 + 1 + k by omega, Nat.pow_add 2 (m.log2 + 1)]
    exact Nat.mul_lt_mul_of_pos_right Nat.lt_log2_self hpow

theorem totalExponent_mul_pow (hm : m ≠ 0) (e : Int) (k : Nat) :
    totalExponent (m * 2 ^ k) (e - k) = totalExponent m e := by
  simp only [totalExponent, log2_mul_pow hm]
  omega

theorem repeat_add {α : Type} (f : α → α) (n k : Nat) (a : α) :
    (n + k).repeat f a = n.repeat f (k.repeat f a) := by
  induction n with
  | zero => simp [Nat.repeat]
  | succ n ih => rw [Nat.succ_add, Nat.repeat, ih, Nat.repeat]

/-- Shifting out zeros loses nothing. -/
theorem shiftRight_mul_pow (m n k : Nat) :
    (ExtendedMantissa.mk (m * 2 ^ k) false false) >>> (n + k) =
      (ExtendedMantissa.mk m false false) >>> n := by
  have hzeros : ∀ m, k.repeat ExtendedMantissa.shiftRightOne ⟨m * 2 ^ k, false, false⟩ =
      ⟨m, false, false⟩ := by
    induction k with
    | zero => simp [Nat.repeat]
    | succ k ih =>
      intro m
      rw [Nat.repeat, show m * 2 ^ (k + 1) = m * 2 * 2 ^ k by ring, ih]
      simp [ExtendedMantissa.shiftRightOne]
  exact (repeat_add _ _ _ _).trans (congrArg (n.repeat ExtendedMantissa.shiftRightOne) (hzeros m))

theorem shiftToTargetExponent_mul_pow (hm : m ≠ 0)
    (he : e ≤ spec.targetExponent (totalExponent m e)) (k : Nat) :
    shiftToTargetExponent spec (m * 2 ^ k) (e - k) .exact =
      shiftToTargetExponent spec m e .exact := by
  have hamount : (spec.targetExponent (totalExponent m e) - (e - k)).toNat =
      (spec.targetExponent (totalExponent m e) - e).toNat + k := by omega
  simp only [shiftToTargetExponent, totalExponent_mul_pow hm, shiftToExponent, hamount,
    ExtendedMantissa.ofMantissaAndAccuracy, shiftRight_mul_pow, Prod.mk.injEq, true_and]
  omega

/-- Zeros behind a mantissa that is long enough do not change what it is rounded to. -/
theorem roundWithAccuracy_mul_pow (hm : m ≠ 0) (he : e ≤ spec.targetExponent (totalExponent m e))
    (k : Nat) : roundWithAccuracy spec s (m * 2 ^ k) (e - k) .exact =
      roundWithAccuracy spec s m e .exact := by
  simp only [roundWithAccuracy, shiftToTargetExponent_mul_pow hm he]

/-- Two ways to write one number, both with a long enough mantissa, are rounded to the same. -/
theorem roundWithAccuracy_congr (hm : m ≠ 0) (he : e ≤ spec.targetExponent (totalExponent m e))
    (hn : n ≠ 0) (hf : f ≤ spec.targetExponent (totalExponent n f)) {i j : Nat}
    (hmn : m * 2 ^ i = n * 2 ^ j) (hef : e - i = f - j) :
    roundWithAccuracy spec s m e .exact = roundWithAccuracy spec s n f .exact := by
  rw [← roundWithAccuracy_mul_pow hm he i, hmn, hef, roundWithAccuracy_mul_pow hn hf j]

theorem le_targetExponent (hm : 2 ^ 52 ≤ m) (e : Int) :
    e ≤ Format.binary64.targetExponent (totalExponent m e) := by
  have hlog : 52 ≤ m.log2 := (Nat.le_log2 (by omega)).2 hm
  simp only [Format.targetExponent, totalExponent, Format.mantissaBits, Format.minExponent]
  norm_num
  omega

theorem shiftToTargetExponent_of_le (he : spec.targetExponent (totalExponent m e) ≤ e) :
    shiftToTargetExponent spec m e .exact = (⟨m, false, false⟩, e) := by
  have hamount : (spec.targetExponent (totalExponent m e) - e).toNat = 0 := by omega
  simp only [shiftToTargetExponent, shiftToExponent, hamount]
  simp [ExtendedMantissa.ofMantissaAndAccuracy, HShiftRight.hShiftRight, Nat.repeat]

/-- A mantissa that is short enough is not rounded. -/
theorem roundWithAccuracy_of_le (hm : 0 < m) (he : spec.targetExponent (totalExponent m e) ≤ e) :
    roundWithAccuracy spec s m e .exact = .finite s m e hm := by
  simp only [roundWithAccuracy, shiftToTargetExponent_of_le he, ExtendedMantissa.roundedMantissa,
    ExtendedMantissa.accuracy, Accuracy.roundToNearestEven]
  rw [dif_neg hm.ne']

/-- A number whose quotient is representable has that quotient. -/
theorem div_eq_finite {q p i j m₁ m₂ : Nat} {e₁ e₂ : Int} (hq : 0 < q) (h₁ : 0 < m₁) (h₂ : 0 < m₂)
    (hf : spec.targetExponent (totalExponent q f) = f) (hm₁ : m₁ = q * p * 2 ^ i)
    (hm₂ : m₂ = p * 2 ^ j) (he : e₁ - e₂ = f + j - i) :
    UnpackedFloat.div spec (.finite s₁ m₁ e₁ h₁) (.finite s₂ m₂ e₂ h₂) =
      .finite (s₁ / s₂) q f hq := by
  subst hm₁ hm₂
  have hp : 0 < p := Nat.pos_of_mul_pos_right h₂
  have hlog : (q * p).log2 ≤ q.log2 + p.log2 + 1 := by
    have hlt : q * p < 2 ^ (q.log2 + 1) * 2 ^ (p.log2 + 1) :=
      Nat.mul_lt_mul'' Nat.lt_log2_self Nat.lt_log2_self
    rw [← Nat.pow_add] at hlt
    have := (Nat.log2_lt (Nat.mul_pos hq hp).ne').2 hlt
    omega
  have hmono : spec.targetExponent
      (totalExponent (q * p * 2 ^ i) e₁ - totalExponent (p * 2 ^ j) e₂) ≤ f := by
    rw [← hf]
    simp only [Format.targetExponent, totalExponent, log2_mul_pow (Nat.mul_pos hq hp).ne',
      log2_mul_pow hp.ne'] at hf ⊢
    omega
  -- The division is carried out at the exponent `t`, where the quotient only gets zeros behind `q`.
  obtain ⟨t, ht⟩ : ∃ t, t = min (e₁ - e₂)
      (spec.targetExponent (totalExponent (q * p * 2 ^ i) e₁ - totalExponent (p * 2 ^ j) e₂)) :=
    ⟨_, rfl⟩
  obtain ⟨k, hk⟩ : ∃ k : Nat, f - t = k := ⟨(f - t).toNat, by omega⟩
  have hshift : (q * p * 2 ^ i) <<< (e₁ - e₂ - t).toNat = q * 2 ^ k * (p * 2 ^ j) := by
    have hexp : i + (e₁ - e₂ - t).toNat = k + j := by omega
    rw [Nat.shiftLeft_eq, Nat.mul_assoc, ← Nat.pow_add, hexp, Nat.pow_add]
    ring
  have hround := roundWithAccuracy_mul_pow (s := s₁ / s₂) hq.ne' hf.ge k
  rw [roundWithAccuracy_of_le hq hf.le] at hround
  rw [UnpackedFloat.div, divCore, ← ht]
  simp only [hshift, Nat.mul_div_cancel _ h₂, Nat.mul_mod_left, accuracyOfFraction, if_true]
  rw [← hround, show t = f - k by omega]

end Rounding

/-! ## Packing -/

section Packing

@[simp] theorem unpackSign_packComponents {spec : Format} {s : Sign} {e m} :
    unpackSign (packComponents spec s e m) = s.toBitVec := by
  apply BitVec.eq_of_getLsbD_eq
  intro i hi
  obtain rfl : i = 0 := by omega
  simp [unpackSign, packComponents, BitVec.getLsbD_append, BitVec.getElem_append]

@[simp] theorem ofBitVec_toBitVec (s : Sign) : Sign.ofBitVec s.toBitVec = s := by
  cases s <;> rfl

/-- The number that a positive sign and two fields of a word make up. -/
theorem toNat_packComponents (e : BitVec 11) (m : BitVec 52) :
    (packComponents .binary64 .positive e m).toNat = e.toNat * 2 ^ 52 + m.toNat := by
  have happend : (packComponents .binary64 .positive e m).toNat =
      (((0#1).toNat <<< 11 ||| e.toNat) <<< 52) ||| m.toNat := by
    simp only [packComponents, BitVec.toNat_append, Sign.toBitVec]
  rw [happend, ← Nat.shiftLeft_add_eq_or_of_lt m.isLt]
  simp [Nat.shiftLeft_eq]

/-- Two numbers with the same bits are the same. -/
theorem eq_ofModel_pack {x : Float} {u : UnpackedFloat}
    (h : x.toBits.toBitVec = UnpackedFloat.pack .binary64 u) : x = .ofModel (.pack u) := by
  obtain ⟨bits, valid⟩ := x
  simp only [Float.toBits] at h
  simp [Float.Model.pack, ← h]

/-- A mantissa that fills its 53 bits unless the exponent is the least, with an exponent that fits
into a word. -/
structure Binary.IsCanonical (b : Binary) : Prop where
  mantissa_lt : b.mantissa < 2 ^ 53
  le_exponent : -1074 ≤ b.exponent
  exponent_le : b.exponent ≤ 971
  full : 2 ^ 52 ≤ b.mantissa ∨ b.exponent = -1074

namespace Binary.IsCanonical

variable {b : Binary} {s : Sign}

theorem log2_eq (h : b.IsCanonical) (hm : 2 ^ 52 ≤ b.mantissa) : b.mantissa.log2 = 52 :=
  (Nat.log2_eq_iff (by omega)).2 ⟨hm, h.mantissa_lt⟩

theorem targetExponent_eq (h : b.IsCanonical) (hpos : 0 < b.mantissa) :
    Format.binary64.targetExponent (totalExponent b.mantissa b.exponent) = b.exponent := by
  have hle := h.le_exponent
  simp only [Format.targetExponent, totalExponent, Format.mantissaBits, Format.minExponent]
  norm_num
  by_cases hm : 2 ^ 52 ≤ b.mantissa
  · rw [h.log2_eq hm]
    omega
  · have hfull := h.full.resolve_left hm
    have hlog := (Nat.log2_lt hpos.ne').2 (Nat.lt_of_not_le hm)
    omega

theorem pack_normal (h : b.IsCanonical) (hm : 2 ^ 52 ≤ b.mantissa) (hpos : 0 < b.mantissa) :
    UnpackedFloat.pack .binary64 (.finite s b.mantissa b.exponent hpos) =
      packComponents .binary64 s (BitVec.ofNat 11 (b.exponent + 1075).toNat)
        (BitVec.ofNat 52 b.mantissa) := by
  have hle := h.le_exponent
  have hge := h.exponent_le
  have hbias : (b.exponent + Format.binary64.exponentBias + (52 : Nat)).toNat =
      (b.exponent + 1075).toNat := by
    simp only [Format.exponentBias]
    norm_num
    omega
  have hfits : ¬ 2 ^ 11 ≤ (b.exponent + 1075).toNat + 1 := by omega
  simp only [UnpackedFloat.pack, h.log2_eq hm, hbias, if_neg hfits]
  rfl

theorem pack_subnormal (h : b.IsCanonical) (hm : b.mantissa < 2 ^ 52) (hpos : 0 < b.mantissa) :
    UnpackedFloat.pack .binary64 (.finite s b.mantissa b.exponent hpos) =
      packComponents .binary64 s 0#11 (BitVec.ofNat 52 b.mantissa) := by
  have hexponent := h.full.resolve_left (Nat.not_le_of_lt hm)
  have hbits : ¬ b.mantissa.log2 + 1 = Format.binary64.mantissaBits := by
    have := (Nat.log2_lt hpos.ne').2 hm
    simp only [Format.mantissaBits]
    omega
  simp only [UnpackedFloat.pack, hexponent, if_neg hbits]
  rfl

end Binary.IsCanonical

theorem toNat_append_one (m : BitVec 52) : (1#1 ++ m).toNat = 2 ^ 52 + m.toNat := by
  rw [BitVec.toNat_append, ← Nat.shiftLeft_add_eq_or_of_lt m.isLt]
  simp [Nat.shiftLeft_eq]

/-- What is packed with a full mantissa is unpacked again. -/
theorem Binary.IsCanonical.unpack_pack {b : Binary} (h : b.IsCanonical) (hm : 2 ^ 52 ≤ b.mantissa)
    (hpos : 0 < b.mantissa) {s : Sign} :
    (Float.Model.pack (.finite s b.mantissa b.exponent hpos)).unpack =
      .finite s b.mantissa b.exponent hpos := by
  obtain ⟨hlt, hle, hge, -⟩ := id h
  have hscale : (BitVec.ofNat 11 (b.exponent + 1075).toNat).toNat = (b.exponent + 1075).toNat := by
    rw [BitVec.toNat_ofNat]
    omega
  have hne : ∀ y : BitVec 11, (b.exponent + 1075).toNat ≠ y.toNat →
      BitVec.ofNat 11 (b.exponent + 1075).toNat ≠ y := by
    rintro _ hy rfl
    exact hy hscale.symm
  have hinfinite := hne (-1#11) (show _ ≠ 2047 by omega)
  have hsubnormal := hne 0#11 (show _ ≠ 0 by omega)
  have hmantissa : (1#1 ++ BitVec.ofNat 52 b.mantissa).toNat = b.mantissa := by
    rw [toNat_append_one, BitVec.toNat_ofNat]
    omega
  rw [Float.Model.unpack, Float.Model.pack, UInt64.toBitVec_ofBitVec, pack_normal h hm]
  simp only [UnpackedFloat.unpack, unpackExponent_packComponents, unpackMantissa_packComponents,
    unpackSign_packComponents, ofBitVec_toBitVec, if_neg hinfinite, if_neg hsubnormal, hmantissa,
    hscale]
  congr 1
  simp [Format.exponentBias]
  omega

end Packing

/-! ## The sign -/

section Sign

variable {spec : Format} {u : UnpackedFloat}

/-- A number that is neither negative nor infinite nor undefined. -/
def IsMagnitude : UnpackedFloat → Prop
  | .zero .positive => True
  | .finite .positive .. => True
  | _ => False

theorem isMagnitude_roundWithAccuracy (m : Nat) (e : Int) (a : Accuracy) :
    IsMagnitude (roundWithAccuracy spec .positive m e a) := by
  simp only [roundWithAccuracy]
  split <;> trivial

theorem IsMagnitude.mul (hu : IsMagnitude u) {m : Nat} {e : Int} (hm : 0 < m) :
    IsMagnitude (UnpackedFloat.mul spec u (.finite .positive m e hm)) := by
  unfold IsMagnitude at hu
  split at hu
  · trivial
  · exact isMagnitude_roundWithAccuracy _ _ _
  · exact hu.elim

theorem IsMagnitude.div (hu : IsMagnitude u) {m : Nat} {e : Int} (hm : 0 < m) :
    IsMagnitude (UnpackedFloat.div spec u (.finite .positive m e hm)) := by
  unfold IsMagnitude at hu
  split at hu
  · trivial
  · exact isMagnitude_roundWithAccuracy _ _ _
  · exact hu.elim

/-- The word of a magnitude or of an infinity has no sign and is not undefined. -/
theorem pack_eq_packComponents (hu : IsMagnitude u ∨ u = .infinity .positive) : ∃ e m,
    UnpackedFloat.pack .binary64 u = packComponents .binary64 .positive e m ∧
      (e = -1#11 → m = 0#52) := by
  rcases hu with hu | rfl
  · unfold IsMagnitude at hu
    split at hu
    · exact ⟨0, 0, rfl, fun _ => rfl⟩
    · rw [UnpackedFloat.pack]
      split
      · exact ⟨-1#_, 0, rfl, fun _ => rfl⟩
      split
      · rename_i hfits hbits
        refine ⟨_, _, rfl, fun heq => absurd (congrArg BitVec.toNat heq) ?_⟩
        rw [BitVec.toNat_ofNat]
        change _ % 2 ^ 11 ≠ 2 ^ 11 - 1
        change ¬ 2 ^ 11 ≤ _ at hfits
        omega
      · exact ⟨0, _, rfl, fun heq => absurd heq (by decide)⟩
    · exact hu.elim
  · exact ⟨-1#_, 0, rfl, fun _ => rfl⟩

theorem isNegative_ofModel_pack (hu : IsMagnitude u ∨ u = .infinity .positive) :
    isNegative (.ofModel (.pack u)) = false := by
  obtain ⟨e, m, hpack, -⟩ := pack_eq_packComponents hu
  have hbits : (Float.ofModel (.pack u)).toBits.toNat = e.toNat * 2 ^ 52 + m.toNat := by
    rw [← toNat_packComponents, ← hpack]
    rfl
  have he : e.toNat < 2 ^ 11 := e.isLt
  have hm : m.toNat < 2 ^ 52 := m.isLt
  simp only [isNegative, hbits, Nat.pow_eq]
  rw [decide_eq_false_iff_not]
  omega

theorem isNaN_ofModel_pack (hu : IsMagnitude u ∨ u = .infinity .positive) :
    (Float.ofModel (.pack u)).isNaN = false := by
  obtain ⟨e, m, hpack, hinfinite⟩ := pack_eq_packComponents hu
  have hnan : (Float.ofModel (.pack u)).isNaN =
      (UnpackedFloat.unpack .binary64 (UnpackedFloat.pack .binary64 u)).isNaN := rfl
  rw [hnan, hpack, UnpackedFloat.unpack]
  simp only [unpackExponent_packComponents, unpackMantissa_packComponents]
  split
  · rename_i he
    rw [if_pos (hinfinite he)]
    rfl
  · split
    · split <;> rfl
    · rfl

end Sign

/-! ## The magnitude of a number -/

section Magnitude

variable {x : Float} {b : Binary}

theorem toBitVec_toBits (h : isNegative x = false) :
    x.toBits.toBitVec = packComponents .binary64 .positive
      (BitVec.ofNat 11 (x.toBits.toNat / 2 ^ 52)) (BitVec.ofNat 52 x.toBits.toNat) := by
  have hlt : x.toBits.toNat < 2 ^ 64 := x.toBits.toNat_lt
  have hsign : x.toBits.toNat / 2 ^ 63 ≠ 1 := by simpa [isNegative] using h
  apply BitVec.eq_of_toNat_eq
  rw [toNat_packComponents, BitVec.toNat_ofNat, BitVec.toNat_ofNat, UInt64.toNat_toBitVec]
  omega

/-- The fields of a word that has a magnitude. -/
theorem magnitude?_eq_some (h : magnitude? x = some b) : ∃ scale fraction,
    scale = x.toBits.toNat / 2 ^ 52 % 2048 ∧ fraction = x.toBits.toNat % 2 ^ 52 ∧ scale ≠ 2047 ∧
      (scale = 0 ∧ b = ⟨fraction, -1074⟩ ∨
        scale ≠ 0 ∧ b = ⟨2 ^ 52 + fraction, (scale : Int) - 1075⟩) := by
  refine ⟨_, _, rfl, rfl, ?_⟩
  unfold magnitude? at h
  simp only at h
  split at h
  · exact absurd h (by simp)
  · rename_i hscale
    refine ⟨hscale, ?_⟩
    split at h
    · rename_i hzero
      exact .inl ⟨hzero, (Option.some.inj h).symm⟩
    · rename_i hzero
      exact .inr ⟨hzero, (Option.some.inj h).symm⟩

theorem toNat_unpackExponent (bits : BitVec 64) :
    (@unpackExponent .binary64 bits).toNat = bits.toNat / 2 ^ 52 % 2048 := by
  simp [unpackExponent, Nat.shiftRight_eq_div_pow]

theorem magnitude?_eq_none_iff : magnitude? x = none ↔ x.isFinite = false := by
  have hscale : @unpackExponent .binary64 x.toBits.toBitVec = -1#11 ↔
      x.toBits.toNat / 2 ^ 52 % 2048 = 2047 := by
    rw [← BitVec.toNat_inj, toNat_unpackExponent]
    rfl
  have hfinite : x.isFinite = (UnpackedFloat.unpack .binary64 x.toBits.toBitVec).isFinite := rfl
  have hunpack : (UnpackedFloat.unpack .binary64 x.toBits.toBitVec).isFinite = false ↔
      @unpackExponent .binary64 x.toBits.toBitVec = -1#11 := by
    rw [UnpackedFloat.unpack]
    split_ifs <;> simp_all [UnpackedFloat.isFinite]
  rw [hfinite, hunpack, hscale]
  unfold magnitude?
  simp only
  split
  · rename_i h
    exact ⟨fun _ => h, fun _ => rfl⟩
  · rename_i h
    refine ⟨fun heq => ?_, fun heq => absurd heq h⟩
    split at heq <;> exact absurd heq (by simp)

/-- The magnitude of a finite number is canonical. -/
theorem isCanonical_of_magnitude? (h : magnitude? x = some b) : b.IsCanonical := by
  obtain ⟨scale, fraction, hs, hf, hscale, ⟨hzero, rfl⟩ | ⟨hzero, rfl⟩⟩ := magnitude?_eq_some h
  · exact ⟨by simp only; omega, by simp only; omega, by simp only; omega, .inr rfl⟩
  · exact ⟨by simp only; omega, by simp only; omega, by simp only; omega, .inl (by simp)⟩

/-- A number that is not negative is made up of its magnitude. -/
theorem eq_of_magnitude? (hsign : isNegative x = false) (h : magnitude? x = some b)
    (hpos : 0 < b.mantissa) :
    x = .ofModel (.pack (.finite .positive b.mantissa b.exponent hpos)) := by
  have hcanonical := isCanonical_of_magnitude? h
  apply eq_ofModel_pack
  rw [toBitVec_toBits hsign]
  obtain ⟨scale, fraction, hs, hf, hscale, ⟨hzero, rfl⟩ | ⟨hzero, rfl⟩⟩ := magnitude?_eq_some h
  · rw [hcanonical.pack_subnormal (show fraction < 2 ^ 52 by omega)]
    congr 1
    · apply BitVec.eq_of_toNat_eq
      rw [BitVec.toNat_ofNat]
      exact hs.symm.trans hzero
    · apply BitVec.eq_of_toNat_eq
      simp [hf]
  · rw [hcanonical.pack_normal (Nat.le_add_right _ _)]
    congr 1
    · apply BitVec.eq_of_toNat_eq
      rw [BitVec.toNat_ofNat, BitVec.toNat_ofNat]
      simp only
      omega
    · apply BitVec.eq_of_toNat_eq
      simp [hf]

/-- A number without sign whose magnitude is nought is zero. -/
theorem eq_zero_of_magnitude? (hsign : isNegative x = false) (h : magnitude? x = some b)
    (hzero : b.mantissa = 0) : x = .ofModel (.pack (.zero .positive)) := by
  apply eq_ofModel_pack
  rw [toBitVec_toBits hsign, UnpackedFloat.pack, packedZero]
  obtain ⟨scale, fraction, hs, hf, -, ⟨hscale, rfl⟩ | ⟨-, rfl⟩⟩ := magnitude?_eq_some h
  · obtain rfl : fraction = 0 := hzero
    congr 1
    · apply BitVec.eq_of_toNat_eq
      rw [BitVec.toNat_ofNat]
      exact hs.symm.trans hscale
    · apply BitVec.eq_of_toNat_eq
      rw [BitVec.toNat_ofNat]
      exact hf.symm
  · exact absurd hzero (by simp)

end Magnitude

end TrafficCheck.Decimal
