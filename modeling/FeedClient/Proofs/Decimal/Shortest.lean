import Mathlib
import FeedClient.Decimal.Text
import FeedClient.Proofs.Decimal.Overflow

/-!
# Bounds on the shortest digits of a double

`Binary.shortest` searches, from the most digits dropped down to none, for digits that round
back to the double, and trims their trailing zeros. Whatever it returns lies within the
double's rounding interval, so at most half a unit above it; and since a unit of
`10 ^ (L - 18)` is at most a quarter of the double's unit (where the exact value has `L`
digits), the search always stops with at most eighteen digits.

These are the facts the reader needs to accept the text of any finite double: its digits fit
the 64-bit significand, and for a nonnegative exponent the product of the nearest doubles of
the digits and of the power of ten stays finite. The three largest doubles, for which the
general bound is too coarse, are checked by evaluation.

Main results:

- Theorem `Binary.shortest_value_le`: the shortest digits lie at most half a unit above.
- Theorem `Binary.shortest_digits_le`: they number at most eighteen.
- Theorem `Binary.shortest_product_finite`: the reader's product for them is finite, with an
  exponent of at most 308.
-/

namespace FeedClient.Decimal

/-! ## Trimming -/

/-- Trimming keeps the value and only drops digits. -/
theorem Digits.trim_spec (d : Digits) :
    ∃ t : Nat, d.trim.exponent = d.exponent + t ∧ d.trim.digits * 10 ^ t = d.digits := by
  induction d using Digits.trim.induct with
  | case1 d h ih =>
    obtain ⟨t, he, hd⟩ := ih
    rw [Digits.trim, dif_pos h]
    refine ⟨t + 1, by rw [he]; push_cast; ring, ?_⟩
    rw [pow_succ, ← Nat.mul_assoc, hd]
    exact Nat.div_mul_cancel (Nat.dvd_of_mod_eq_zero h.2)
  | case2 d h =>
    rw [Digits.trim, dif_neg h]
    exact ⟨0, by simp, by simp⟩

namespace Binary

/-! ## The scaled grid -/

/-- The scaled grid is linear: `scale x` is `x` times the grid's unit. -/
theorem scale_eq (b : Binary) (x : Nat) : b.scale x = x * b.scale 1 := by
  unfold scale
  split <;> simp

/-- One unit of the binary number is a positive amount on the decimal grid. -/
theorem scale_one_pos (b : Binary) : 0 < b.scale 1 := by
  unfold scale
  split <;> simp only [Nat.pow_eq, Nat.one_mul] <;> positivity

/-- A point of the scaled grid and its power of ten are the binary value `x * 2 ^ exponent`. -/
theorem scale_value (b : Binary) (x : Nat) :
    (b.scale x : ℚ) * 10 ^ b.decimalExponent = x * 2 ^ b.exponent := by
  unfold scale decimalExponent
  split
  · rename_i he
    have : b.exponent = (b.exponent.toNat : Int) := by omega
    rw [zpow_zero, mul_one, this, zpow_natCast]
    push_cast [Nat.pow_eq]
    rfl
  · rename_i he
    obtain ⟨n, hn⟩ : ∃ n : Nat, b.exponent = -(n : Int) := ⟨(-b.exponent).toNat, by omega⟩
    have : (-b.exponent).toNat = n := by omega
    rw [this, hn]
    push_cast [Nat.pow_eq]
    rw [zpow_neg, zpow_neg, zpow_natCast, zpow_natCast, show (10 : ℚ) = 2 * 5 by norm_num,
      mul_pow]
    field_simp

/-! ## Candidates -/

/-- A candidate that rounds to the double lies at most at the upper end of its interval. -/
theorem roundsHere_le {b : Binary} {x4 : Nat} (h : b.roundsHere x4 = true) : x4 ≤ b.upperEnd := by
  unfold roundsHere at h
  split at h <;> simp at h <;> omega

/-- A candidate strictly inside the rounding interval rounds to the double. -/
theorem roundsHere_of_lt {b : Binary} {x4 : Nat} (h1 : b.lowerEnd < x4) (h2 : x4 < b.upperEnd) :
    b.roundsHere x4 = true := by
  unfold roundsHere
  split <;> simp <;> omega

/-- A candidate rounds back to the double and is the exact value cut to its digits, or one
more. -/
theorem candidateAt_spec {b : Binary} {j c : Nat} (h : b.candidateAt j = some c) :
    b.roundsHere (4 * (c * 10 ^ j)) = true ∧
      (c = b.scale b.mantissa / 10 ^ j ∨ c = b.scale b.mantissa / 10 ^ j + 1) := by
  unfold candidateAt at h
  simp only [Nat.pow_eq] at h
  split at h
  · rename_i hl hh
    split_ifs at h <;> (cases h; simp [hl, hh])
  · rename_i hl hh
    cases h; simp [hl]
  · rename_i hl hh
    cases h; simp [hh]
  · cases h

/-- Once a unit of the cut is at most a quarter of the grid's unit, cutting the exact value
down rounds back, so a candidate exists. -/
theorem candidateAt_isSome {b : Binary} {j : Nat} (hm : 0 < b.mantissa)
    (hj : 4 * 10 ^ j ≤ b.scale 1) : (b.candidateAt j).isSome := by
  have hK := b.scale_one_pos
  -- both ends of the rounding interval, in units of the grid
  have hlowEnd : b.lowerEnd ≤ 4 * b.scale b.mantissa - b.scale 1 := by
    unfold lowerEnd
    rw [b.scale_eq, b.scale_eq b.mantissa]
    have : 4 * b.mantissa - 1 ≤ 4 * b.mantissa - (if b.narrowBelow = true then 1 else 2) + 1 := by
      split <;> omega
    calc (4 * b.mantissa - (if b.narrowBelow = true then 1 else 2)) * b.scale 1
        ≤ (4 * b.mantissa - 1) * b.scale 1 := Nat.mul_le_mul_right _ (by split <;> omega)
      _ = 4 * (b.mantissa * b.scale 1) - b.scale 1 := by
          rw [Nat.sub_mul, Nat.one_mul, Nat.mul_assoc]
  have hupEnd : b.upperEnd = 4 * b.scale b.mantissa + 2 * b.scale 1 := by
    unfold upperEnd
    rw [b.scale_eq, b.scale_eq b.mantissa]
    ring
  have hE : b.scale 1 ≤ b.scale b.mantissa := by
    rw [b.scale_eq b.mantissa]
    exact Nat.le_mul_of_pos_left _ hm
  -- the exact value cut down to a multiple of `10 ^ j` lies strictly inside
  have hcut := Nat.div_add_mod (b.scale b.mantissa) (10 ^ j)
  have hmod := Nat.mod_lt (b.scale b.mantissa) (show 0 < 10 ^ j by positivity)
  rw [Nat.mul_comm] at hcut
  have hhits : b.roundsHere (4 * (b.scale b.mantissa / 10 ^ j * 10 ^ j)) = true :=
    roundsHere_of_lt (by omega) (by omega)
  unfold candidateAt
  simp only [Nat.pow_eq]
  rw [hhits]
  split
  · split_ifs <;> rfl
  · rfl
  · simp_all
  · simp_all

/-! ## The search -/

/-- The exact value has `digitCount` digits: it lies between the powers of ten around it. -/
theorem exact_bounds (b : Binary) (hm : 0 < b.mantissa) :
    10 ^ (digitCount (b.scale b.mantissa) - 1) ≤ b.scale b.mantissa ∧
      b.scale b.mantissa < 10 ^ digitCount (b.scale b.mantissa) := by
  have hpos : 0 < digitCount (b.scale b.mantissa) := Nat.length_toDigits_pos
  refine ⟨?_, (Nat.length_toDigits_le_iff (by decide) hpos).mp le_rfl⟩
  by_cases h1 : digitCount (b.scale b.mantissa) = 1
  · rw [h1, Nat.sub_self, pow_zero]
    rw [b.scale_eq]
    exact Nat.one_le_iff_ne_zero.mpr (Nat.mul_ne_zero (by omega) (by have := b.scale_one_pos; omega))
  · have hlt : ¬ digitCount (b.scale b.mantissa) ≤ digitCount (b.scale b.mantissa) - 1 := by omega
    rw [digitCount, Nat.length_toDigits_le_iff (by decide) (by unfold digitCount at h1 hpos; omega)] at hlt
    unfold digitCount
    omega

/-- Whatever level the search stops at, its digits round back: they lie at most at the upper
end of the rounding interval. -/
theorem search_le_upperEnd (b : Binary) (n : Nat) :
    ∃ j : Nat, (b.search n).exponent = b.decimalExponent + j ∧
      4 * ((b.search n).digits * 10 ^ j) ≤ b.upperEnd := by
  induction n with
  | zero =>
    refine ⟨0, by simp [search], ?_⟩
    have : b.upperEnd = 4 * b.scale b.mantissa + 2 * b.scale 1 := by
      unfold upperEnd
      rw [b.scale_eq, b.scale_eq b.mantissa]
      ring
    simp only [search, pow_zero, Nat.mul_one]
    omega
  | succ n ih =>
    unfold search
    split
    · rename_i d hd
      exact ⟨n + 1, rfl, roundsHere_le (candidateAt_spec hd).1⟩
    · exact ih

/-- The digits the search stops at have at most `L - j₀` digits, where the exact value has
`L` digits and a candidate exists `j₀` digits down. -/
theorem search_digits_le (b : Binary) {L : Nat} (hE : b.scale b.mantissa < 10 ^ L) :
    ∀ n, n < L → ∀ j₀, j₀ ≤ n → (j₀ = 0 ∨ (b.candidateAt j₀).isSome) →
      (b.search n).digits ≤ 10 ^ (L - j₀) := by
  intro n
  induction n with
  | zero =>
    intro _ j₀ hj₀ _
    have : j₀ = 0 := by omega
    subst this
    simpa [search] using hE.le
  | succ n ih =>
    intro hn j₀ hj₀ hsome
    unfold search
    split
    · rename_i c hc
      -- a candidate is the exact value cut to `L - (n + 1)` digits, or one more
      have hcut : b.scale b.mantissa / 10 ^ (n + 1) < 10 ^ (L - (n + 1)) := by
        apply (Nat.div_lt_iff_lt_mul (by positivity)).mpr
        rw [← Nat.pow_add, Nat.sub_add_cancel (by omega)]
        exact hE
      have hc' : c ≤ 10 ^ (L - (n + 1)) := by
        rcases (candidateAt_spec hc).2 with rfl | rfl <;> omega
      exact hc'.trans (Nat.pow_le_pow_right (by decide) (by omega))
    · rename_i hnone
      have hj : j₀ ≠ n + 1 := by
        rintro rfl
        rcases hsome with h | h
        · omega
        · simp [hnone] at h
      exact ih (by omega) j₀ (by omega) hsome

/-- The search stops at digits that are not zero. -/
theorem search_digits_pos (b : Binary) (hm : 0 < b.mantissa) :
    ∀ n, n < digitCount (b.scale b.mantissa) → 0 < (b.search n).digits := by
  have hE := (exact_bounds b hm).1
  intro n
  induction n with
  | zero =>
    intro _
    simp only [search]
    rw [b.scale_eq]
    exact Nat.mul_pos hm b.scale_one_pos
  | succ n ih =>
    intro hn
    unfold search
    split
    · rename_i c hc
      show 0 < c
      -- cutting at most `L - 1` digits leaves at least one
      have hcut : 1 ≤ b.scale b.mantissa / 10 ^ (n + 1) := by
        apply (Nat.le_div_iff_mul_le (by positivity)).mpr
        rw [Nat.one_mul]
        exact (Nat.pow_le_pow_right (by decide) (by omega)).trans hE
      rcases (candidateAt_spec hc).2 with rfl | rfl <;> omega
    · exact ih (by omega)

/-! ## The shortest digits -/

/-- The shortest digits of a double that is not zero are not zero. -/
theorem shortest_digits_pos (b : Binary) (hm : 0 < b.mantissa) : 0 < b.shortest.digits := by
  unfold shortest
  rw [if_neg (by omega)]
  obtain ⟨t, -, ht⟩ := (b.search (digitCount (b.scale b.mantissa) - 1)).trim_spec
  have hpos := b.search_digits_pos hm (digitCount (b.scale b.mantissa) - 1)
    (by have := Nat.length_toDigits_pos (b := 10) (n := b.scale b.mantissa); unfold digitCount; omega)
  rw [← ht] at hpos
  exact Nat.pos_of_mul_pos_right hpos

/-- The shortest digits of a double that is not zero lie at most half a unit above it. -/
theorem shortest_value_le (b : Binary) (hm : 0 < b.mantissa) :
    2 * ((b.shortest.digits : ℚ) * 10 ^ b.shortest.exponent) ≤
      (2 * b.mantissa + 1) * 2 ^ b.exponent := by
  unfold shortest
  rw [if_neg (by omega)]
  obtain ⟨j, hj, hup⟩ := b.search_le_upperEnd (digitCount (b.scale b.mantissa) - 1)
  generalize b.search (digitCount (b.scale b.mantissa) - 1) = d at hj hup
  obtain ⟨t, ht, hdt⟩ := d.trim_spec
  -- on the grid: four times the digits, put back to their place, are at most the upper end
  have hgrid : (4 : ℚ) * ((d.trim.digits * 10 ^ (t + j) : Nat) : ℚ) ≤ (b.scale (4 * b.mantissa + 2) : ℚ) := by
    have : d.trim.digits * 10 ^ (t + j) = d.digits * 10 ^ j := by
      rw [pow_add, ← Nat.mul_assoc, hdt]
    rw [this]
    exact_mod_cast hup
  have hval := b.scale_value (4 * b.mantissa + 2)
  have hexp : d.trim.exponent = b.decimalExponent + ((t + j : Nat) : Int) := by
    rw [ht, hj]; push_cast; ring
  rw [hexp, zpow_add₀ (by norm_num), zpow_natCast]
  have h10 : (0 : ℚ) < 10 ^ b.decimalExponent := by positivity
  calc 2 * ((d.trim.digits : ℚ) * (10 ^ b.decimalExponent * 10 ^ (t + j)))
      = (4 * ((d.trim.digits * 10 ^ (t + j) : Nat) : ℚ)) * 10 ^ b.decimalExponent / 2 := by
        push_cast; ring
    _ ≤ (b.scale (4 * b.mantissa + 2) : ℚ) * 10 ^ b.decimalExponent / 2 := by gcongr
    _ = (2 * b.mantissa + 1) * 2 ^ b.exponent := by rw [hval]; push_cast; ring

/-- The shortest digits of a double have at most eighteen digits: eighteen always suffice,
since `4 * 2 ^ 53 < 10 ^ 17`. -/
theorem shortest_digits_le (b : Binary) (hm : 0 < b.mantissa) (hm' : b.mantissa < 2 ^ 53) :
    b.shortest.digits ≤ 10 ^ 18 := by
  obtain ⟨hlow, hhigh⟩ := b.exact_bounds hm
  set L := digitCount (b.scale b.mantissa) with hL
  have hL0 : 0 < L := Nat.length_toDigits_pos
  have hsearch : (b.search (L - 1)).digits ≤ 10 ^ 18 := by
    by_cases hsmall : L ≤ 18
    · exact (b.search_digits_le hhigh (L - 1) (by omega) 0 (by omega) (.inl rfl)).trans
        (Nat.pow_le_pow_right (by decide) (by omega))
    · -- a unit of `10 ^ (L - 18)` is at most a quarter of the grid's unit
      have hunit : 4 * 10 ^ (L - 18) ≤ b.scale 1 := by
        by_contra hcon
        have hE : b.scale b.mantissa = b.mantissa * b.scale 1 := b.scale_eq _
        have h1 : 10 ^ (L - 1) = 10 ^ 17 * 10 ^ (L - 18) := by
          rw [← Nat.pow_add]; congr 1; omega
        have h2 : b.mantissa * b.scale 1 < 2 ^ 53 * (4 * 10 ^ (L - 18)) :=
          Nat.mul_lt_mul'' hm' (by omega)
        have h3 : 2 ^ 53 * (4 * 10 ^ (L - 18)) ≤ 10 ^ 17 * 10 ^ (L - 18) := by
          rw [← Nat.mul_assoc]
          exact Nat.mul_le_mul_right _ (by norm_num)
        omega
      have h := b.search_digits_le hhigh (L - 1) (by omega) (L - 18) (by omega)
        (.inr (candidateAt_isSome hm hunit))
      rwa [show L - (L - 18) = 18 by omega] at h
  unfold shortest
  rw [if_neg (by omega)]
  obtain ⟨t, -, ht⟩ := (b.search (L - 1)).trim_spec
  calc (b.search (L - 1)).trim.digits ≤ (b.search (L - 1)).trim.digits * 10 ^ t :=
        Nat.le_mul_of_pos_right _ (by positivity)
    _ = _ := ht
    _ ≤ 10 ^ 18 := hsearch

/-! ## Finite patterns -/

/-- What a finite 64-bit pattern splits into: a mantissa of at most 53 bits, an exponent
from the subnormal one to that of the largest binade, and a narrow gap below only at the
smallest mantissa of a binade. -/
theorem ofBits_finite {bits : UInt64} {b : Binary} (h : ofBits bits = .finite b) :
    b.mantissa < 2 ^ 53 ∧ -1074 ≤ b.exponent ∧ b.exponent ≤ 971 ∧
      (b.narrowBelow = true → b.mantissa = 2 ^ 52) := by
  have hfield : ((bits >>> 52) &&& 0x7FF).toNat ≤ 0x7FF := by
    rw [UInt64.toNat_and]; exact Nat.and_le_right
  have hfrac : (bits &&& 0xFFFFFFFFFFFFF).toNat ≤ 0xFFFFFFFFFFFFF := by
    rw [UInt64.toNat_and]; exact Nat.and_le_right
  unfold ofBits at h
  simp only [Nat.pow_eq] at h
  split at h
  · split at h <;> cases h
  · split at h
    · cases h
      refine ⟨by simp only; omega, by simp, by simp, by simp⟩
    · rename_i hmax hzero
      cases h
      simp only [beq_iff_eq] at hmax hzero
      refine ⟨by simp only; omega, by simp only; omega, by simp only; omega, ?_⟩
      simp only [Bool.and_eq_true, beq_iff_eq, decide_eq_true_eq]
      intro hnb
      omega

/-- The shortest digits of a finite double that is not zero, with an exponent of at least
zero, make a product of nearest doubles that the reader accepts: the exponent is within one
step of the power table and the product stays finite. -/
theorem shortest_product_finite {bits : UInt64} {b : Binary} (h : ofBits bits = .finite b)
    (hm : 0 < b.mantissa) (hk : 0 ≤ b.shortest.exponent) :
    b.shortest.exponent ≤ 308 ∧
      (nearest b.shortest.digits * powerOfTen b.shortest.exponent.toNat).isInf = false := by
  obtain ⟨hm', he1, he2, hnb⟩ := ofBits_finite h
  by_cases htop : b.exponent = 971 ∧ 2 ^ 53 - 3 ≤ b.mantissa
  · -- the three largest doubles, whose shortest digits are checked one by one
    obtain ⟨neg, m, e, nb⟩ := b
    simp only at htop hm' hnb ⊢
    obtain ⟨rfl, hm3⟩ := htop
    have hnb' : nb = false := by
      cases nb
      · rfl
      · have := hnb rfl; omega
    subst hnb'
    have hm3' : m = 2 ^ 53 - 3 ∨ m = 2 ^ 53 - 2 ∨ m = 2 ^ 53 - 1 := by omega
    rcases hm3' with rfl | rfl | rfl <;> cases neg <;> decide +kernel
  · -- elsewhere the digits lie a few units below the largest double
    have hdigits := b.shortest_digits_pos hm
    have hval := b.shortest_value_le hm
    obtain ⟨k, hk'⟩ : ∃ k : Nat, b.shortest.exponent = k := ⟨b.shortest.exponent.toNat, by omega⟩
    rw [hk'] at hval ⊢
    simp only [Int.toNat_natCast, zpow_natCast] at hval ⊢
    -- the upper end of the rounding interval, against `(2 ^ 54 - 7) * 2 ^ 970`
    have hbound : (2 * b.mantissa + 1 : ℚ) * 2 ^ b.exponent ≤
        2 * (18014398509481977 * 2 ^ (970 : Int)) := by
      have hX : (0 : ℚ) < 2 ^ (970 : Int) := by positivity
      by_cases he : b.exponent = 971
      · have hmq : (b.mantissa : ℚ) ≤ 9007199254740988 := by
          have : b.mantissa ≤ 9007199254740988 := by omega
          exact_mod_cast this
        rw [he, show (971 : Int) = 1 + 970 by norm_num, zpow_add₀ (by norm_num), zpow_one]
        generalize (2 : ℚ) ^ (970 : Int) = X at hX ⊢
        nlinarith
      · have hle : (2 : ℚ) ^ b.exponent ≤ 2 ^ (970 : Int) :=
          zpow_le_zpow_right₀ (by norm_num) (by omega)
        have hmq : (b.mantissa : ℚ) ≤ 9007199254740991 := by
          have : b.mantissa ≤ 9007199254740991 := by omega
          exact_mod_cast this
        have hpos : (0 : ℚ) < 2 ^ b.exponent := by positivity
        generalize (2 : ℚ) ^ (970 : Int) = X at hX hle ⊢
        generalize (2 : ℚ) ^ b.exponent = Y at hpos hle ⊢
        nlinarith
    have hnat : b.shortest.digits * 10 ^ k ≤ (2 ^ 54 - 7) * 2 ^ 970 := by
      have hq : ((b.shortest.digits * 10 ^ k : Nat) : ℚ) ≤ ((18014398509481977 * 2 ^ 970 : Nat) : ℚ) := by
        push_cast
        have h970 : (2 : ℚ) ^ (970 : Int) = 2 ^ (970 : Nat) := zpow_natCast 2 970
        rw [h970] at hbound
        linarith
      rw [show (2 ^ 54 - 7) * 2 ^ 970 = 18014398509481977 * 2 ^ 970 by norm_num]
      exact Nat.cast_le.mp hq
    refine ⟨?_, nearest_mul_powerOfTen_finite _ _ hdigits hnat⟩
    -- `10 ^ k` is at most the value, below `10 ^ 309`
    have hlt : 10 ^ k < 10 ^ 309 :=
      calc 10 ^ k ≤ b.shortest.digits * 10 ^ k := Nat.le_mul_of_pos_left _ hdigits
        _ ≤ (2 ^ 54 - 7) * 2 ^ 970 := hnat
        _ < 10 ^ 309 := by decide +kernel
    have := (Nat.pow_lt_pow_iff_right (by norm_num)).mp hlt
    omega

/-- The shortest digits never go below the grid's power of ten. -/
theorem shortest_exponent_ge (b : Binary) (hm : 0 < b.mantissa) :
    b.decimalExponent ≤ b.shortest.exponent := by
  unfold shortest
  rw [if_neg (by omega)]
  obtain ⟨j, hj, -⟩ := b.search_le_upperEnd (digitCount (b.scale b.mantissa) - 1)
  obtain ⟨t, ht, -⟩ := (b.search (digitCount (b.scale b.mantissa) - 1)).trim_spec
  omega

/-- The shortest digits of a finite double meet what reading their text needs. -/
theorem shortest_readable {bits : UInt64} {b : Binary} (h : ofBits bits = .finite b) :
    b.shortest.digits ≤ 10 ^ 18 ∧ (b.shortest.digits = 0 → b.shortest.exponent = 0) ∧
      -1074 ≤ b.shortest.exponent ∧
      (0 ≤ b.shortest.exponent → 0 < b.shortest.digits → b.shortest.exponent ≤ 308 ∧
        (nearest b.shortest.digits * powerOfTen b.shortest.exponent.toNat).isInf = false) := by
  obtain ⟨hm', he1, -, -⟩ := ofBits_finite h
  by_cases hm : b.mantissa = 0
  · -- zero: digits `0` at exponent `0`
    have hz : b.shortest = { digits := 0, exponent := 0 } := by simp [shortest, hm]
    rw [hz]
    exact ⟨by norm_num, fun _ => rfl, by norm_num, fun _ h0 => absurd h0 (by norm_num)⟩
  · have hpos : 0 < b.mantissa := Nat.pos_of_ne_zero hm
    have hdec : -1074 ≤ b.decimalExponent := by unfold decimalExponent; split <;> omega
    refine ⟨b.shortest_digits_le hpos hm', fun h0 => absurd h0 (b.shortest_digits_pos hpos).ne',
      le_trans hdec (b.shortest_exponent_ge hpos), fun hk _ => shortest_product_finite h hpos hk⟩

end Binary
end FeedClient.Decimal
