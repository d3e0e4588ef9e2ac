import Mathlib
import FeedClient.Decimal.Nearest

/-!
# When the product of two nearest doubles stays finite

The reader turns a decimal `d * 10 ^ k` with `k ≥ 0` into the product of the doubles nearest
to `d` and to `10 ^ k`, and refuses the number when that product is infinite. Each of the
three roundings (two conversions and the product) moves a value by at most half a unit of its
binade, so the product stays finite whenever the decimal lies a few units below the largest
double, `(2 ^ 53 - 1) * 2 ^ 971`.

The proofs read the floating point model of the standard library (`Float.Model`) as exact
arithmetic: rounding to 53 bits at the target exponent, the carry into the next binade, and
packing into and unpacking from the 64-bit pattern.

Main results:

- Theorem `isInf_round`: a value below `(2 ^ 54 - 1) * 2 ^ 970`, half a unit above the
  largest double, rounds to a finite double.
- Theorem `nearest_normal`: the double `nearest n` of a positive `n` in range is normal and
  lies at most `n / 2 ^ 53` above `n`.
- Theorem `nearest_mul_powerOfTen_finite`: the product of the nearest doubles of `d` and
  `10 ^ k` is finite when `d * 10 ^ k ≤ (2 ^ 54 - 7) * 2 ^ 970`.
-/

namespace FeedClient.Decimal

open Float.Model Float.Model.UnpackedFloat

/-! ## Rounding a mantissa -/

/-- Shifting an extended mantissa right divides it by a power of two. -/
theorem shift_mantissa (em : ExtendedMantissa) (k : Nat) :
    (em >>> k).mantissa = em.mantissa / 2 ^ k := by
  induction k generalizing em with
  | zero => simp [HShiftRight.hShiftRight, Nat.repeat]
  | succ k ih =>
    change ((em >>> k).mantissa / 2) = _
    rw [ih, Nat.div_div_eq_div_mul, Nat.pow_succ]

/-- The round bit after a shift is the last bit shifted out. -/
theorem shift_roundBit (m k : Nat) :
    (ExtendedMantissa.mk m false false >>> (k + 1)).roundBit = (m / 2 ^ k % 2 != 0) := by
  change ((ExtendedMantissa.mk m false false >>> k).mantissa % 2 != 0) = _
  rw [shift_mantissa]

/-- Rounding a shifted mantissa keeps it or adds one, the latter only with the round bit set. -/
theorem roundedMantissa_cases (em : ExtendedMantissa) :
    em.roundedMantissa = em.mantissa ∨
      (em.roundedMantissa = em.mantissa + 1 ∧ em.roundBit = true) := by
  rcases em with ⟨m, r, s⟩
  cases r <;> cases s <;>
    simp [ExtendedMantissa.roundedMantissa, ExtendedMantissa.accuracy, Accuracy.roundToNearestEven]
  omega

/-- The exponent a rounding of `m * 2 ^ e` aims at: 53 bits below the top one, but never
below the subnormal exponent. -/
theorem targetExponent_eq (m : Nat) (e : Int) :
    Format.binary64.targetExponent (totalExponent m e) = max ((m.log2 : Int) + e - 52) (-1074) := by
  simp only [Format.targetExponent, totalExponent, Format.mantissaBits, Format.minExponent]
  norm_num
  omega

/-- A mantissa of at most 53 bits at an exponent in range is already where rounding aims. -/
theorem shiftToTarget_of_small (m : Nat) (e : Int) (hm : m < 2 ^ 53) (he : -1074 ≤ e) :
    shiftToTargetExponent Format.binary64 m e .exact = (⟨m, false, false⟩, e) := by
  have hlog : m.log2 ≤ 52 := by
    by_cases h : m = 0
    · simp [h]
    · have := (Nat.log2_lt h).mpr hm
      omega
  have hk : (Format.binary64.targetExponent (totalExponent m e) - e).toNat = 0 := by
    rw [targetExponent_eq]
    omega
  simp [shiftToTargetExponent, shiftToExponent, hk, HShiftRight.hShiftRight, Nat.repeat,
    ExtendedMantissa.ofMantissaAndAccuracy]

/-- A carry out of the mantissa moves the exponent up by one. -/
theorem shiftToTarget_of_carry (e : Int) (he : -1074 ≤ e) :
    shiftToTargetExponent Format.binary64 (2 ^ 53) e .exact = (⟨2 ^ 52, false, false⟩, e + 1) := by
  have ht : Format.binary64.targetExponent (totalExponent (2 ^ 53) e) = e + 1 := by
    rw [targetExponent_eq, Nat.log2_two_pow]
    omega
  unfold shiftToTargetExponent
  rw [ht]
  simp [shiftToExponent, HShiftRight.hShiftRight, Nat.repeat,
    ExtendedMantissa.ofMantissaAndAccuracy, ExtendedMantissa.shiftRightOne]

/-- Rounding `m * 2 ^ e`: the rounded mantissa at the target exponent, or the carry into
the next exponent, or zero. -/
theorem roundWithAccuracy_exact (s : Sign) (m : Nat) (e : Int) :
    let first := shiftToTargetExponent Format.binary64 m e .exact
    let r := first.1.roundedMantissa
    roundWithAccuracy Format.binary64 s m e .exact =
      if h : r = 0 then .zero s
      else if r < 2 ^ 53 then .finite s r first.2 (Nat.pos_of_ne_zero h)
      else .finite s (2 ^ 52) (first.2 + 1) (by decide) := by
  dsimp only
  have ht := targetExponent_eq m e
  have hlow : -1074 ≤ (shiftToTargetExponent Format.binary64 m e .exact).2 := by
    change -1074 ≤ e + ((Format.binary64.targetExponent (totalExponent m e) - e).toNat : Int)
    omega
  have hmant : (shiftToTargetExponent Format.binary64 m e .exact).1.mantissa < 2 ^ 53 := by
    change (ExtendedMantissa.mk m false false >>>
      (Format.binary64.targetExponent (totalExponent m e) - e).toNat).mantissa < _
    rw [shift_mantissa]
    apply (Nat.div_lt_iff_lt_mul (by positivity)).mpr
    calc m < 2 ^ (m.log2 + 1) := Nat.lt_log2_self
      _ ≤ 2 ^ (53 + (Format.binary64.targetExponent (totalExponent m e) - e).toNat) :=
          Nat.pow_le_pow_right (by decide) (by omega)
      _ = _ := by rw [Nat.pow_add]
  have hr : (shiftToTargetExponent Format.binary64 m e .exact).1.roundedMantissa ≤ 2 ^ 53 := by
    rcases roundedMantissa_cases (shiftToTargetExponent Format.binary64 m e .exact).1 with
      h | ⟨h, -⟩ <;> omega
  generalize hfirst : shiftToTargetExponent Format.binary64 m e .exact = f at *
  rcases f with ⟨em, e₁⟩
  rw [roundWithAccuracy, hfirst]
  dsimp only at *
  by_cases hz : em.roundedMantissa = 0
  · rw [hz, shiftToTarget_of_small 0 e₁ (by decide) hlow]
    rfl
  by_cases hsmall : em.roundedMantissa < 2 ^ 53
  · rw [shiftToTarget_of_small _ _ hsmall hlow]
    simp only [hz, hsmall, ↓reduceDIte, ↓reduceIte]
  · have hcarry : em.roundedMantissa = 2 ^ 53 := by omega
    rw [hcarry, shiftToTarget_of_carry _ hlow]
    rfl

/-! ## Packing and unpacking -/

/-- A pattern whose exponent field is not all ones is no infinity. -/
theorem isInf_unpack_of_exponent (b : BitVec 64) (h : @unpackExponent Format.binary64 b ≠ -1#11) :
    (UnpackedFloat.unpack Format.binary64 b).isInf = false := by
  simp only [UnpackedFloat.unpack, h, ↓reduceIte]
  split
  · split <;> rfl
  · rfl

/-- Zero packs to no infinity. -/
theorem isInf_pack_zero (s : Sign) : (Float.Model.pack (.zero s)).isInf = false := by
  apply isInf_unpack_of_exponent
  simp only [Float.Model.pack, UInt64.toBitVec_ofBitVec, UnpackedFloat.pack, packedZero,
    unpackExponent_packComponents]
  decide

/-- A finite unpacked value whose exponent is in range packs to no infinity. -/
theorem isInf_pack_finite (s : Sign) (m : Nat) (e : Int) (hm : 0 < m) (he : e ≤ 971) :
    (Float.Model.pack (.finite s m e hm)).isInf = false := by
  apply isInf_unpack_of_exponent
  simp only [Float.Model.pack, UInt64.toBitVec_ofBitVec, UnpackedFloat.pack]
  have hb : ¬ 2 ^ Format.binary64.exponentBits ≤
      (e + Format.binary64.exponentBias + Format.binary64.mantissaBitsWithoutImplicit).toNat + 1 := by
    simp [Format.exponentBias]
    omega
  simp only [hb, ↓reduceIte]
  split
  · simp only [unpackExponent_packComponents]
    intro h
    have := congrArg BitVec.toNat h
    simp [Format.exponentBias] at this
    omega
  · simp only [unpackExponent_packComponents]
    decide

/-! ## Overflow of a rounding -/

/-- Rounding to nearest overflows exactly from half a unit above the largest double,
`(2 ^ 54 - 1) * 2 ^ 970`: below it, a mantissa of more than 53 bits rounds to a finite
double. -/
theorem isInf_round (s : Sign) (m : Nat) (e : Int) (hm : 2 ^ 53 ≤ m)
    (hv : (m : ℚ) * 2 ^ e < (2 ^ 54 - 1) * 2 ^ 970) :
    (Float.Model.pack (roundWithAccuracy Format.binary64 s m e .exact)).isInf = false := by
  have ht := targetExponent_eq m e
  have hm0 : m ≠ 0 := by positivity
  have hlog : 53 ≤ m.log2 := (Nat.le_log2 hm0).mpr hm
  -- the top bit of the value lies below `2 ^ 1024`
  have htop : (m.log2 : Int) + e ≤ 1023 := by
    have hlow : (2 : ℚ) ^ ((m.log2 : Int) + e) ≤ m * 2 ^ e := by
      rw [zpow_add₀ two_ne_zero, zpow_natCast]
      gcongr
      exact_mod_cast Nat.log2_self_le hm0
    have hlt : (2 : ℚ) ^ ((m.log2 : Int) + e) < 2 ^ (1024 : Int) := by
      have : (2 ^ 54 - 1 : ℚ) * 2 ^ (970 : Int) < 2 ^ (1024 : Int) := by
        rw [show (1024 : Int) = 54 + 970 by norm_num, zpow_add₀ two_ne_zero]
        have hp : (0 : ℚ) < 2 ^ (970 : Int) := by positivity
        norm_num
      exact lt_of_le_of_lt hlow (lt_of_lt_of_le hv (by exact_mod_cast this.le))
    have := (zpow_lt_zpow_iff_right₀ (by norm_num : (1 : ℚ) < 2)).mp hlt
    omega
  rw [roundWithAccuracy_exact]
  have hfirst : (shiftToTargetExponent Format.binary64 m e .exact).2 =
      Format.binary64.targetExponent (totalExponent m e) := by
    change e + ((Format.binary64.targetExponent (totalExponent m e) - e).toNat : Int) = _
    omega
  split_ifs with hz hsmall
  · exact isInf_pack_zero s
  · apply isInf_pack_finite
    omega
  · apply isInf_pack_finite
    -- a carry out of 53 bits: the mantissa kept was all ones and its round bit set
    obtain ⟨j, hj⟩ : ∃ j, (Format.binary64.targetExponent (totalExponent m e) - e).toNat = j + 1 :=
      ⟨(Format.binary64.targetExponent (totalExponent m e) - e).toNat - 1, by omega⟩
    have hshift : shiftToTargetExponent Format.binary64 m e .exact =
        (ExtendedMantissa.mk m false false >>> (j + 1), e + ((j + 1 : Nat) : Int)) := by
      rw [← hj]
      rfl
    rw [hshift] at hsmall hz ⊢
    dsimp only at hsmall hz ⊢
    have hmant := shift_mantissa (ExtendedMantissa.mk m false false) (j + 1)
    have hbound : m / 2 ^ (j + 1) < 2 ^ 53 := by
      apply (Nat.div_lt_iff_lt_mul (by positivity)).mpr
      calc m < 2 ^ (m.log2 + 1) := Nat.lt_log2_self
        _ ≤ 2 ^ (53 + (j + 1)) := Nat.pow_le_pow_right (by decide) (by omega)
        _ = _ := by rw [Nat.pow_add]
    rcases roundedMantissa_cases (ExtendedMantissa.mk m false false >>> (j + 1)) with h | ⟨h, hbit⟩
    · simp only [h, hmant] at hsmall
      omega
    · rw [shift_roundBit] at hbit
      simp only [h, hmant] at hsmall
      have hhalf : m / 2 ^ j = 2 ^ 54 - 1 := by
        have : m / 2 ^ (j + 1) = m / 2 ^ j / 2 := by rw [Nat.pow_succ, Nat.div_div_eq_div_mul]
        simp at hbit
        omega
      -- so the value is at least `(2 ^ 54 - 1) * 2 ^ (target - 1)`
      have hge : ((2 ^ 54 - 1 : Nat) : ℚ) * 2 ^ ((j : Int) + e) ≤ m * 2 ^ e := by
        rw [zpow_add₀ two_ne_zero, zpow_natCast, ← mul_assoc]
        gcongr
        rw [← hhalf]
        exact_mod_cast Nat.div_mul_le_self m (2 ^ j)
      have hlt : (2 : ℚ) ^ ((j : Int) + e) < 2 ^ (970 : Int) := by
        have h54 : ((2 ^ 54 - 1 : Nat) : ℚ) = 2 ^ 54 - 1 := by norm_num
        rw [h54] at hge
        have hpos : (0 : ℚ) < 2 ^ 54 - 1 := by norm_num
        exact lt_of_mul_lt_mul_left (lt_of_le_of_lt hge (by exact_mod_cast hv)) hpos.le
      have := (zpow_lt_zpow_iff_right₀ (by norm_num : (1 : ℚ) < 2)).mp hlt
      omega

/-! ## Reading a normal pattern back -/

/-- A 64-bit pattern whose low 63 bits hold the biased exponent `e + 1075` and the fraction
`m - 2 ^ 52` of a normal double `m * 2 ^ e` unpacks to it, with the sign of its top bit. -/
theorem unpack_of_low (b : BitVec 64) (m : Nat) (e : Int) (hm1 : 2 ^ 52 ≤ m) (hm2 : m < 2 ^ 53)
    (he1 : -1074 ≤ e) (he2 : e ≤ 971)
    (hb : b.toNat % 2 ^ 63 = (e + 1075).toNat * 2 ^ 52 + (m - 2 ^ 52)) :
    ∃ sg h, UnpackedFloat.unpack Format.binary64 b = .finite sg m e h := by
  have hexp : (@unpackExponent Format.binary64 b).toNat = (e + 1075).toNat := by
    simp only [unpackExponent, BitVec.toNat_cast, BitVec.extractLsb_toNat]
    have : b.toNat >>> 52 % 2 ^ 11 = b.toNat % 2 ^ 63 / 2 ^ 52 % 2 ^ 11 := by
      rw [Nat.shiftRight_eq_div_pow, show (2 : Nat) ^ 63 = 2 ^ 52 * 2 ^ 11 by norm_num,
        Nat.mod_mul_right_div_self, Nat.mod_mod]
    simp only [Format.binary64] at this ⊢
    rw [this, hb]
    omega
  have hmant : (@unpackMantissa Format.binary64 b).toNat = m - 2 ^ 52 := by
    simp only [unpackMantissa, BitVec.toNat_cast, BitVec.extractLsb_toNat, Nat.shiftRight_zero]
    have : b.toNat % 2 ^ 52 = b.toNat % 2 ^ 63 % 2 ^ 52 :=
      (Nat.mod_mod_of_dvd _ (by norm_num)).symm
    simp only [Format.binary64] at this ⊢
    rw [this, hb]
    omega
  have h1 : @unpackExponent Format.binary64 b ≠ -1#11 := by
    intro h
    have := congrArg BitVec.toNat h
    simp [hexp] at this
    omega
  have h0 : @unpackExponent Format.binary64 b ≠ 0#11 := by
    intro h
    have := congrArg BitVec.toNat h
    simp [hexp] at this
    omega
  refine ⟨Sign.ofBitVec (@unpackSign Format.binary64 b), by omega, ?_⟩
  simp only [UnpackedFloat.unpack, h1, h0, ↓reduceIte]
  congr 1
  · rw [BitVec.toNat_append, hmant]
    simp only [BitVec.toNat_ofNat]
    rw [← Nat.shiftLeft_add_eq_or_of_lt (by simp; omega)]
    simp only [Nat.shiftLeft_eq]
    omega
  · rw [hexp]
    simp [Format.exponentBias]
    omega

/-- The low 63 bits of a packed pattern: exponent field and fraction. -/
theorem toNat_packComponents (sg : Sign) (f fr : Nat) (hf : f < 2 ^ 11) (hfr : fr < 2 ^ 52) :
    (packComponents Format.binary64 sg (BitVec.ofNat 11 f) (BitVec.ofNat 52 fr)).toNat % 2 ^ 63 =
      f * 2 ^ 52 + fr := by
  simp only [packComponents, BitVec.toNat_append, BitVec.toNat_ofNat, Nat.mod_eq_of_lt hf,
    Nat.mod_eq_of_lt hfr]
  have hlow : f <<< 52 ||| fr = f * 2 ^ 52 + fr := by
    rw [← Nat.shiftLeft_add_eq_or_of_lt hfr, Nat.shiftLeft_eq]
  have hsign : sg.toBitVec.toNat < 2 := sg.toBitVec.isLt
  have hor : (sg.toBitVec.toNat <<< 11 ||| f) <<< 52 ||| fr =
      sg.toBitVec.toNat * 2 ^ 63 + (f * 2 ^ 52 + fr) := by
    rw [← Nat.shiftLeft_add_eq_or_of_lt hf, ← Nat.shiftLeft_add_eq_or_of_lt (by omega : fr < 2 ^ 52)]
    simp only [Nat.shiftLeft_eq]
    ring
  rw [hor]
  omega

/-- Packing a normal double and reading it back gives it again, up to its sign. -/
theorem unpack_pack_normal (sg : Sign) (m : Nat) (e : Int) (hm : 0 < m) (hm1 : 2 ^ 52 ≤ m)
    (hm2 : m < 2 ^ 53) (he1 : -1074 ≤ e) (he2 : e ≤ 971) :
    ∃ sg' h, (Float.Model.pack (.finite sg m e hm)).unpack = .finite sg' m e h := by
  have hlog : m.log2 = 52 := (Nat.log2_eq_iff (by omega)).mpr ⟨hm1, hm2⟩
  have hbits : (Float.Model.pack (.finite sg m e hm)).toBits.toBitVec =
      packComponents Format.binary64 sg (BitVec.ofNat 11 (e + 1075).toNat) (BitVec.ofNat 52 m) := by
    simp only [Float.Model.pack, UInt64.toBitVec_ofBitVec, UnpackedFloat.pack, Format.exponentBias,
      hlog, Format.mantissaBits]
    split_ifs with hinf
    · norm_num at hinf
      omega
    · congr 2
      norm_num
      omega
  have hfrac : BitVec.ofNat 52 m = BitVec.ofNat 52 (m - 2 ^ 52) := by
    apply BitVec.eq_of_toNat_eq
    simp only [BitVec.toNat_ofNat]
    omega
  rw [hfrac] at hbits
  have hlow := toNat_packComponents sg (e + 1075).toNat (m - 2 ^ 52) (by omega) (by omega)
  rw [← hbits] at hlow
  exact unpack_of_low _ m e hm1 hm2 he1 he2 hlow

/-! ## The nearest double of a natural number -/

/-- The bit pattern of a normal double, as a number. -/
theorem normalBits_toNat (q : Nat) (e : Int) (hq1 : 2 ^ 52 ≤ q) (hq2 : q < 2 ^ 53)
    (he1 : -1074 ≤ e) (he2 : e ≤ 971) :
    (normalBits q e).toNat = (e + 1075).toNat * 2 ^ 52 + (q - 2 ^ 52) := by
  have hf : ¬ (e + 52 + 1023 ≥ 2047) := by omega
  simp only [normalBits, hf, ↓reduceIte, UInt64.toNat_or, UInt64.toNat_shiftLeft]
  have hfield : (e + 52 + 1023).toNat = (e + 1075).toNat := by omega
  have hsmall : (e + 1075).toNat < 2 ^ 11 := by omega
  have hfrac : q - 2 ^ 52 < 2 ^ 52 := by omega
  have hexp : (e + 52 + 1023).toNat.toUInt64.toNat = (e + 1075).toNat := by
    rw [hfield]
    simp only [Nat.toUInt64_eq, UInt64.toNat_ofNat']
    omega
  have hfr : (q - Nat.pow 2 52).toUInt64.toNat = q - 2 ^ 52 := by
    simp only [Nat.toUInt64_eq, UInt64.toNat_ofNat', Nat.pow_eq]
    omega
  rw [hexp, hfr, show (UInt64.toNat 52 % 64) = 52 from rfl, Nat.shiftLeft_eq,
    Nat.mod_eq_of_lt (by omega : (e + 1075).toNat * 2 ^ 52 < 2 ^ 64),
    ← Nat.shiftLeft_eq, ← Nat.shiftLeft_add_eq_or_of_lt hfrac, Nat.shiftLeft_eq]

/-- A natural mantissa times a natural power of two, as a rational. -/
theorem cast_mul_two_zpow (q s : Nat) : (q : ℚ) * 2 ^ (s : Int) = ((q * 2 ^ s : Nat) : ℚ) := by
  push_cast
  rw [zpow_natCast]

/-- Half a unit above the largest double lies below `2 ^ 1024`. -/
theorem overflow_lt_two_pow : (2 ^ 54 - 1) * 2 ^ 970 < 2 ^ 1024 :=
  calc (2 ^ 54 - 1) * 2 ^ 970 < 2 ^ 54 * 2 ^ 970 :=
        Nat.mul_lt_mul_of_pos_right (by norm_num) (by positivity)
    _ = 2 ^ 1024 := by rw [← Nat.pow_add]

/-- Rounding `q * 2 ^ s + r` to a multiple of `2 ^ s` keeps `q`, or moves up to `q + 1`
only from half way on. -/
theorem roundHalfEven_cases (q r s : Nat) :
    roundHalfEven q r s = q ∨ (roundHalfEven q r s = q + 1 ∧ 0 < s ∧ 2 ^ s / 2 ≤ r) := by
  unfold roundHalfEven
  simp only [Nat.pow_eq]
  split_ifs with hs hup
  · exact .inl rfl
  · exact .inr ⟨rfl, by omega, by omega⟩
  · exact .inl rfl

/-- Shifted left until its top bit is bit 52, a positive `n` of at most 53 bits fills exactly
53 bits. -/
theorem shiftLeft_log2_bounds {n : Nat} (hn : n ≠ 0) (hsmall : n.log2 ≤ 52) :
    2 ^ 52 ≤ n <<< (52 - n.log2) ∧ n <<< (52 - n.log2) < 2 ^ 53 := by
  have hlow : 2 ^ n.log2 ≤ n := Nat.log2_self_le hn
  have hhigh : n < 2 ^ (n.log2 + 1) := Nat.lt_log2_self
  rw [Nat.shiftLeft_eq]
  constructor
  · calc 2 ^ 52 = 2 ^ n.log2 * 2 ^ (52 - n.log2) := by rw [← Nat.pow_add]; congr 1; omega
      _ ≤ n * 2 ^ (52 - n.log2) := Nat.mul_le_mul_right _ hlow
  · calc n * 2 ^ (52 - n.log2) < 2 ^ (n.log2 + 1) * 2 ^ (52 - n.log2) :=
          Nat.mul_lt_mul_of_pos_right hhigh (by positivity)
      _ = 2 ^ 53 := by rw [← Nat.pow_add]; congr 1; omega

/-- Shifted right past all but its top 53 bits, an `n` of more bits keeps exactly 53. -/
theorem div_log2_bounds {n : Nat} (hn : n ≠ 0) (hbig : 52 < n.log2) :
    2 ^ 52 ≤ n / 2 ^ (n.log2 - 52) ∧ n / 2 ^ (n.log2 - 52) < 2 ^ 53 := by
  have hlow : 2 ^ n.log2 ≤ n := Nat.log2_self_le hn
  have hhigh : n < 2 ^ (n.log2 + 1) := Nat.lt_log2_self
  constructor
  · apply (Nat.le_div_iff_mul_le (by positivity)).mpr
    calc 2 ^ 52 * 2 ^ (n.log2 - 52) = 2 ^ n.log2 := by rw [← Nat.pow_add]; congr 1; omega
      _ ≤ n := hlow
  · apply (Nat.div_lt_iff_lt_mul (by positivity)).mpr
    calc n < 2 ^ (n.log2 + 1) := hhigh
      _ = 2 ^ 53 * 2 ^ (n.log2 - 52) := by rw [← Nat.pow_add]; congr 1; omega

/-- Rounding `n` to a multiple of `2 ^ s` moves it up by at most half of `2 ^ s`. -/
theorem roundHalfEven_mul_le (n s : Nat) :
    2 * (roundHalfEven (n / 2 ^ s) (n % 2 ^ s) s * 2 ^ s) ≤ 2 * n + 2 ^ s := by
  have hdiv := Nat.div_add_mod n (2 ^ s)
  rcases roundHalfEven_cases (n / 2 ^ s) (n % 2 ^ s) s with h | ⟨h, hs, hhalf⟩
  · rw [h]
    have : n / 2 ^ s * 2 ^ s ≤ n := Nat.div_mul_le_self n (2 ^ s)
    omega
  · rw [h]
    have : 2 ^ s = 2 * (2 ^ s / 2) := by
      rw [Nat.mul_div_cancel' (dvd_pow_self 2 (by omega))]
    rw [Nat.add_mul, one_mul, Nat.mul_comm (n / 2 ^ s)]
    omega

/-- Below the overflow threshold, leading bits round up into the next binade only when at
most 970 bits were dropped: with more, the threshold's own binade is passed. -/
theorem carry_shift_le {n s : Nat} (hlt : n < (2 ^ 54 - 1) * 2 ^ 970) (hq : n / 2 ^ s < 2 ^ 53)
    (hc : roundHalfEven (n / 2 ^ s) (n % 2 ^ s) s = 2 ^ 53) : s ≤ 970 := by
  have hcases := roundHalfEven_cases (n / 2 ^ s) (n % 2 ^ s) s
  by_contra hbig
  -- a carry needs all 53 bits set and a remainder of at least half of `2 ^ s`
  have hq0 : n / 2 ^ s = 2 ^ 53 - 1 := by
    rcases hcases with h | ⟨h, -⟩ <;> omega
  have hhalf : 2 ^ s / 2 ≤ n % 2 ^ s := by
    rcases hcases with h | ⟨-, -, h⟩
    · omega
    · exact h
  have hdiv := Nat.div_add_mod n (2 ^ s)
  obtain ⟨P, hP⟩ : ∃ P, 2 ^ s = 2 * P := ⟨2 ^ (s - 1), by rw [← Nat.pow_succ']; congr 1; omega⟩
  have h970 : 2 ^ 970 ≤ P := by
    have : 2 ^ 971 ≤ 2 ^ s := Nat.pow_le_pow_right (by decide) (by omega)
    rw [hP, Nat.pow_succ] at this
    omega
  generalize n % 2 ^ s = r at hhalf hdiv
  rw [hq0, hP] at hdiv
  rw [hP, Nat.mul_div_cancel_left P (by norm_num)] at hhalf
  have : (2 ^ 54 - 1) * 2 ^ 970 ≤ (2 ^ 54 - 1) * P := Nat.mul_le_mul_left _ h970
  omega

/-- The double nearest to a positive `n` below the overflow threshold is normal and lies at
most half a unit above `n`. -/
theorem nearest_normal (n : Nat) (hn : 0 < n) (hlt : n < (2 ^ 54 - 1) * 2 ^ 970) :
    ∃ q e, nearest n = Float.ofBits (normalBits q e) ∧ 2 ^ 52 ≤ q ∧ q < 2 ^ 53 ∧
      -1074 ≤ e ∧ e ≤ 971 ∧ 2 ^ 53 * ((q : ℚ) * 2 ^ e) ≤ (2 ^ 53 + 1) * n := by
  have hn0 : n ≠ 0 := by omega
  have hlow : 2 ^ n.log2 ≤ n := Nat.log2_self_le hn0
  have htop : n.log2 < 1024 := (Nat.log2_lt hn0).mpr (lt_trans hlt overflow_lt_two_pow)
  unfold nearest
  simp only [hn0, ↓reduceIte]
  by_cases hsmall : n.log2 ≤ 52
  · -- at most 53 bits: the double is `n` itself
    simp only [hsmall, ↓reduceIte]
    obtain ⟨hq1, hq2⟩ := shiftLeft_log2_bounds hn0 hsmall
    refine ⟨n <<< (52 - n.log2), (n.log2 : Int) - 52, rfl, hq1, hq2, by omega, by omega, ?_⟩
    have hval : ((n <<< (52 - n.log2) : Nat) : ℚ) * 2 ^ ((n.log2 : Int) - 52) = n := by
      rw [Nat.shiftLeft_eq]
      push_cast
      rw [mul_assoc, ← zpow_natCast, ← zpow_add₀ two_ne_zero]
      have : ((52 - n.log2 : Nat) : Int) + ((n.log2 : Int) - 52) = 0 := by omega
      rw [this, zpow_zero, mul_one]
    rw [hval]
    have : (0 : ℚ) ≤ n := by positivity
    linarith
  · -- more bits: keep the top 53 and round the rest
    simp only [hsmall, ↓reduceIte]
    obtain ⟨hq1, hq2⟩ := div_log2_bounds hn0 (by omega)
    set s := n.log2 - 52 with hs
    have hs1 : 1 ≤ s := by omega
    have hq : n >>> s = n / 2 ^ s := Nat.shiftRight_eq_div_pow n s
    have hr : n - (n >>> s) <<< s = n % 2 ^ s := by
      rw [hq, Nat.shiftLeft_eq, Nat.mod_eq_sub_div_mul]
    rw [hr, hq]
    -- half a unit is at most `n / 2 ^ 53`
    have hunit : 2 ^ 53 * 2 ^ s ≤ 2 * n := by
      calc 2 ^ 53 * 2 ^ s = 2 * 2 ^ n.log2 := by rw [← Nat.pow_add, ← Nat.pow_succ']; congr 1; omega
        _ ≤ 2 * n := Nat.mul_le_mul_left 2 hlow
    have hcases := roundHalfEven_cases (n / 2 ^ s) (n % 2 ^ s) s
    have hbound := roundHalfEven_mul_le n s
    set q' := roundHalfEven (n / 2 ^ s) (n % 2 ^ s) s with hq'
    have hq'1 : n / 2 ^ s ≤ q' := by rcases hcases with h | ⟨h, -⟩ <;> omega
    have hq'2 : q' ≤ n / 2 ^ s + 1 := by rcases hcases with h | ⟨h, -⟩ <;> omega
    have hrel : 2 ^ 53 * (q' * 2 ^ s) ≤ (2 ^ 53 + 1) * n := by
      have := Nat.mul_le_mul_left (2 ^ 53) hbound
      omega
    by_cases hc : q' = 2 ^ 53
    · -- a carry into the next binade: `n` lies below the top binade's last half unit
      have hs2 : s ≤ 970 := carry_shift_le hlt hq2 hc
      refine ⟨2 ^ 52, (s : Int) + 1, by rw [if_pos (by rw [Nat.pow_eq]; exact hc), Nat.pow_eq],
        le_refl _, by norm_num, by omega, by omega, ?_⟩
      have hnat : 2 ^ 53 * (2 ^ 52 * 2 ^ (s + 1)) ≤ (2 ^ 53 + 1) * n := by
        rw [hc] at hrel
        calc 2 ^ 53 * (2 ^ 52 * 2 ^ (s + 1)) = 2 ^ 53 * (2 ^ 53 * 2 ^ s) := by ring
          _ ≤ _ := hrel
      have hexp : (s : Int) + 1 = ((s + 1 : Nat) : Int) := by push_cast; ring
      rw [hexp, cast_mul_two_zpow]
      exact_mod_cast hnat
    · refine ⟨q', s, by rw [if_neg (by rw [Nat.pow_eq]; exact hc)], by omega, by omega, by omega,
        by omega, ?_⟩
      rw [cast_mul_two_zpow]
      exact_mod_cast hrel

/-- The bit pattern `normalBits q e` is the normal double `q * 2 ^ e`. -/
theorem unpack_ofBits_normalBits (q : Nat) (e : Int) (hq1 : 2 ^ 52 ≤ q) (hq2 : q < 2 ^ 53)
    (he1 : -1074 ≤ e) (he2 : e ≤ 971) :
    ∃ sg h, (Float.ofBits (normalBits q e)).toModel.unpack = .finite sg q e h := by
  have hb := normalBits_toNat q e hq1 hq2 he1 he2
  obtain ⟨sg, h, hu⟩ := unpack_of_low (normalBits q e).toBitVec q e hq1 hq2 he1 he2
    (by rw [UInt64.toNat_toBitVec, hb]; omega)
  obtain ⟨sg', h', hu'⟩ := unpack_pack_normal sg q e h hq1 hq2 he1 he2
  refine ⟨sg', h', ?_⟩
  change (Float.Model.pack (UnpackedFloat.unpack Format.binary64 (normalBits q e).toBitVec)).unpack = _
  rw [hu, hu']

/-- The double nearest to a positive `n` below the overflow threshold, unpacked. -/
theorem nearest_unpack (n : Nat) (hn : 0 < n) (hlt : n < (2 ^ 54 - 1) * 2 ^ 970) :
    ∃ sg q e h, (nearest n).toModel.unpack = .finite sg q e h ∧ 2 ^ 52 ≤ q ∧
      2 ^ 53 * ((q : ℚ) * 2 ^ e) ≤ (2 ^ 53 + 1) * n := by
  obtain ⟨q, e, heq, hq1, hq2, he1, he2, hval⟩ := nearest_normal n hn hlt
  obtain ⟨sg, h, hu⟩ := unpack_ofBits_normalBits q e hq1 hq2 he1 he2
  exact ⟨sg, q, e, h, by rw [heq, hu], hq1, hval⟩

/-! ## The product of two nearest doubles -/

/-- The reader builds the double for `d * 10 ^ k` as the product of the doubles nearest to
`d` and to `10 ^ k`. That product stays finite whenever `d * 10 ^ k` lies at least three units
below the largest double: the two roundings put it at most about two units higher. -/
theorem nearest_mul_powerOfTen_finite (d k : Nat) (hd : 0 < d)
    (hv : d * 10 ^ k ≤ (2 ^ 54 - 7) * 2 ^ 970) : (nearest d * powerOfTen k).isInf = false := by
  have hlim : (2 ^ 54 - 7) * 2 ^ 970 < (2 ^ 54 - 1) * 2 ^ 970 :=
    Nat.mul_lt_mul_of_pos_right (by norm_num) (by positivity)
  have hpow : 0 < 10 ^ k := by positivity
  have hd' : d < (2 ^ 54 - 1) * 2 ^ 970 :=
    lt_of_le_of_lt (le_trans (Nat.le_mul_of_pos_right d hpow) hv) hlim
  have hp' : 10 ^ k < (2 ^ 54 - 1) * 2 ^ 970 :=
    lt_of_le_of_lt (le_trans (Nat.le_mul_of_pos_left (10 ^ k) hd) hv) hlim
  obtain ⟨sg₁, q₁, e₁, h₁, hu₁, hq₁, hv₁⟩ := nearest_unpack d hd hd'
  obtain ⟨sg₂, q₂, e₂, h₂, hu₂, hq₂, hv₂⟩ := nearest_unpack (10 ^ k) hpow hp'
  change (Float.Model.pack (UnpackedFloat.mul Format.binary64 (nearest d).toModel.unpack
    (nearest (Nat.pow 10 k)).toModel.unpack)).isInf = false
  rw [Nat.pow_eq, hu₁, hu₂]
  apply isInf_round
  · calc 2 ^ 53 ≤ 2 ^ 52 * 2 ^ 52 := by norm_num
      _ ≤ q₁ * q₂ := Nat.mul_le_mul hq₁ hq₂
  · -- the exact product of the two doubles, against the decimal's bound
    have hdec : (d : ℚ) * 10 ^ k ≤ 18014398509481977 * 2 ^ 970 := by
      have h := (Nat.cast_le (α := ℚ)).mpr hv
      push_cast [Nat.cast_sub (show 7 ≤ 2 ^ 54 by norm_num)] at h
      exact h
    clear hv hlim hd' hp' hu₁ hu₂
    set a : ℚ := q₁ * 2 ^ e₁
    set b : ℚ := q₂ * 2 ^ e₂
    have hprod : ((q₁ * q₂ : Nat) : ℚ) * 2 ^ (e₁ + e₂) = a * b := by
      rw [zpow_add₀ two_ne_zero]
      push_cast
      ring
    have ha : 0 ≤ a := by positivity
    have hb : 0 ≤ b := by positivity
    have hx : (0 : ℚ) < 2 ^ 970 := by positivity
    have hab : 2 ^ 53 * a * (2 ^ 53 * b) ≤ (2 ^ 53 + 1) * d * ((2 ^ 53 + 1) * 10 ^ k) := by
      push_cast at hv₂
      exact mul_le_mul hv₁ hv₂ (by positivity) (by positivity)
    have hconst : ((2 : ℚ) ^ 53 + 1) ^ 2 * 18014398509481977 < 2 ^ 106 * (2 ^ 54 - 1) := by norm_num
    rw [hprod]
    generalize (2 : ℚ) ^ 970 = X at hx hdec ⊢
    have hdk : (0 : ℚ) ≤ d * 10 ^ k := by positivity
    have hscaled : (2 : ℚ) ^ 106 * (a * b) < 2 ^ 106 * ((2 ^ 54 - 1) * X) :=
      calc (2 : ℚ) ^ 106 * (a * b) = 2 ^ 53 * a * (2 ^ 53 * b) := by ring
        _ ≤ (2 ^ 53 + 1) * (d : ℚ) * ((2 ^ 53 + 1) * 10 ^ k) := hab
        _ = (2 ^ 53 + 1) ^ 2 * ((d : ℚ) * 10 ^ k) := by ring
        _ ≤ (2 ^ 53 + 1) ^ 2 * (18014398509481977 * X) :=
            mul_le_mul_of_nonneg_left hdec (by positivity)
        _ = ((2 ^ 53 + 1) ^ 2 * 18014398509481977) * X := by ring
        _ < (2 ^ 106 * (2 ^ 54 - 1)) * X := mul_lt_mul_of_pos_right hconst hx
        _ = 2 ^ 106 * ((2 ^ 54 - 1) * X) := by ring
    exact lt_of_mul_lt_mul_left hscaled (by positivity)
end FeedClient.Decimal
