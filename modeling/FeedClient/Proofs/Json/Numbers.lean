import FeedClient.Proofs.Json.Strings
import FeedClient.Proofs.Decimal.Shortest

/-!
# Reading back written numbers

The writer puts an integer as its decimal digits, after a minus when it is negative, and a
double as its shortest digits under the JSON layout: positional (with `.0` after an integral
value) or scientific with a signed exponent, after a minus for a negative sign, and `null`
when the double is not finite. The reader's `Scan.number` reads the integer digits, then a
fraction and an exponent when they follow, and makes a 64-bit integer of an integer that
fits and a double of anything else.

Each piece of the numeral reader gets a lemma of the reading calculus (`Scan.Leads`); they
compose into the reading of each layout. What the shortest digits of a double satisfy (at
most eighteen of them, and a finite product for a nonnegative exponent) is
`Binary.shortest_readable`.

Main results:

- Theorem `Scan.yields_number_toDigits`: the digits of an integer that fits 64 bits read as a
  number.
- Theorem `Scan.yields_number_renderDigits`: shortest digits in any layout read as a double.
- Theorem `Scan.yields_value_text`: the text of every number reads back as a value, a number
  or `null`.
-/
namespace FeedClient.Json
namespace Scan

/-! ## Digit characters -/

/-- The code of a decimal digit character. -/
theorem digit_range (ch : Char) (h : ch.isDigit) : 48 ≤ ch.toNat ∧ ch.toNat ≤ 57 := by
  have hv : ch.val.toNat = ch.toNat := Char.toNat_val
  simp only [Char.isDigit, Bool.and_eq_true, decide_eq_true_eq, UInt32.le_iff_toNat_le] at h
  exact ⟨by simpa [hv] using h.1, by simpa [hv] using h.2⟩

/-- A decimal digit character is one byte, a digit byte of the reader. -/
theorem digit_bytes (ch : Char) (h : ch.isDigit) :
    String.utf8EncodeChar ch = [UInt8.ofNat ch.toNat] ∧ isDigit (UInt8.ofNat ch.toNat) = true ∧
      digitValue (UInt8.ofNat ch.toNat) = ch.toNat - 48 := by
  have hv : ch.val.toNat = ch.toNat := Char.toNat_val
  obtain ⟨h1, h2⟩ := digit_range ch h
  have h48 : (48 : UInt8).toNat = 48 := rfl
  refine ⟨?_, ?_, ?_⟩
  · unfold String.utf8EncodeChar
    simp only [hv]
    rw [if_pos (by omega)]
  · simp [isDigit, UInt8.le_iff_toNat_le, UInt8.toNat_ofNat']
    omega
  · have hle : (48 : UInt8) ≤ UInt8.ofNat ch.toNat := by
      simp only [UInt8.le_iff_toNat_le, UInt8.toNat_ofNat', h48]
      omega
    simp only [digitValue, UInt8.toNat_sub_of_le _ _ hle, UInt8.toNat_ofNat', h48]
    omega

/-- Digit characters are one byte each. -/
theorem digits_bytes (cs : List Char) (hcs : ∀ ch ∈ cs, ch.isDigit) :
    cs.flatMap String.utf8EncodeChar = cs.map (fun ch => UInt8.ofNat ch.toNat) := by
  induction cs with
  | nil => rfl
  | cons ch cs ih =>
    rw [List.flatMap_cons, (digit_bytes ch (hcs ch (by simp))).1, List.map_cons,
      ih (fun d hd => hcs d (by simp [hd]))]
    rfl

/-! ## Loops over digits -/

/-- Reading more digits never makes a number smaller than what was read before. -/
theorem le_ofDigitChars (cs : List Char) (s : Nat) : s ≤ Nat.ofDigitChars 10 cs s := by
  rw [Nat.ofDigitChars_eq_ofDigitChars_zero]
  have : 1 ≤ 10 ^ cs.length := Nat.one_le_pow _ _ (by decide)
  have : s ≤ 10 ^ cs.length * s := Nat.le_mul_of_pos_left s this
  omega

/-- After the last digit comes a byte that is no digit, or the end. -/
def EndsDigits (r : List UInt8) : Prop := ∀ b, r.head? = some b → isDigit b = false

/-- Integer digits that fit 64 bits read as their value, up to the first byte that is no
digit. -/
theorem leads_integerDigits (positive : Bool) (cs : List Char) (hcs : ∀ ch ∈ cs, ch.isDigit)
    {s : Nat} (hb : Nat.ofDigitChars 10 cs s ≤ u64Max) {c : Cursor} {r : List UInt8}
    (h : c.rest = cs.flatMap String.utf8EncodeChar ++ r) (hr : EndsDigits r) {fuel : Nat}
    (hf : cs.length < fuel) :
    Leads (integerDigits positive fuel s) (afterInteger positive (Nat.ofDigitChars 10 cs s)) c r := by
  induction cs generalizing c s fuel with
  | nil =>
    obtain ⟨f, rfl⟩ : ∃ f, fuel = f + 1 := ⟨fuel - 1, by simp at hf; omega⟩
    simp only [List.flatMap_nil, List.nil_append] at h
    rw [integerDigits]
    refine (yields_peek.bind _).trans fun c₁ h₁ _ => ?_
    rw [h]
    cases hrh : r.head? with
    | none => exact Leads.refl _ (h₁.trans h)
    | some b =>
      simp only [hr b hrh, Bool.false_eq_true, ↓reduceIte]
      exact Leads.refl _ (h₁.trans h)
  | cons ch cs ih =>
    obtain ⟨f, rfl⟩ : ∃ f, fuel = f + 1 := ⟨fuel - 1, by simp at hf; omega⟩
    obtain ⟨hbyte, hdig, hval⟩ := digit_bytes ch (hcs ch (by simp))
    rw [List.flatMap_cons, hbyte, List.singleton_append, List.cons_append] at h
    rw [Nat.ofDigitChars_cons] at hb ⊢
    have hnext : s * 10 + digitValue (UInt8.ofNat ch.toNat) ≤ u64Max := by
      have := le_ofDigitChars cs (10 * s + (ch.toNat - '0'.toNat))
      rw [hval]
      simp only [Char.reduceToNat] at this hb
      omega
    have hh : c.rest.head? = some (UInt8.ofNat ch.toNat) := by rw [h]; rfl
    rw [integerDigits]
    refine (yields_peek.bind _).trans fun c₁ h₁ _ => ?_
    rw [hh]
    simp only [hdig, ↓reduceIte, gt_iff_lt, Nat.not_lt.mpr hnext]
    refine ((yields_bump (h₁.trans h)).bind _).trans fun c₂ h₂ _ => ?_
    have hs : s * 10 + digitValue (UInt8.ofNat ch.toNat) = 10 * s + (ch.toNat - '0'.toNat) := by
      rw [hval]; simp only [Char.reduceToNat]; omega
    rw [hs]
    exact ih (fun ch' hch' => hcs ch' (by simp [hch'])) hb h₂ (by simp at hf; omega)

/-- Fraction digits that fit 64 bits with the digits before them read as their value, each
lowering the exponent by one. -/
theorem leads_fractionDigits (positive : Bool) (before : Int) (cs : List Char)
    (hcs : ∀ ch ∈ cs, ch.isDigit) {s : Nat} (hb : Nat.ofDigitChars 10 cs s ≤ u64Max) {after : Int}
    {c : Cursor} {r : List UInt8} (h : c.rest = cs.flatMap String.utf8EncodeChar ++ r)
    (hr : EndsDigits r) {fuel : Nat} (hf : cs.length < fuel) :
    Leads (fractionDigits positive before fuel s after)
      (fractionDigits.endFraction positive before (Nat.ofDigitChars 10 cs s) (after - cs.length))
      c r := by
  induction cs generalizing c s fuel after with
  | nil =>
    obtain ⟨f, rfl⟩ : ∃ f, fuel = f + 1 := ⟨fuel - 1, by simp at hf; omega⟩
    simp only [List.flatMap_nil, List.nil_append] at h
    rw [fractionDigits]
    refine (yields_peek.bind _).trans fun c₁ h₁ _ => ?_
    rw [h]
    rw [List.length_nil, show after - ((0 : Nat) : Int) = after by omega, Nat.ofDigitChars_nil]
    cases hrh : r.head? with
    | none => exact Leads.refl _ (h₁.trans h)
    | some b =>
      simp only [hr b hrh, Bool.false_eq_true, ↓reduceIte]
      exact Leads.refl _ (h₁.trans h)
  | cons ch cs ih =>
    obtain ⟨f, rfl⟩ : ∃ f, fuel = f + 1 := ⟨fuel - 1, by simp at hf; omega⟩
    obtain ⟨hbyte, hdig, hval⟩ := digit_bytes ch (hcs ch (by simp))
    rw [List.flatMap_cons, hbyte, List.singleton_append, List.cons_append] at h
    rw [Nat.ofDigitChars_cons] at hb ⊢
    have hnext : s * 10 + digitValue (UInt8.ofNat ch.toNat) ≤ u64Max := by
      have := le_ofDigitChars cs (10 * s + (ch.toNat - '0'.toNat))
      rw [hval]
      simp only [Char.reduceToNat] at this hb
      omega
    have hh : c.rest.head? = some (UInt8.ofNat ch.toNat) := by rw [h]; rfl
    rw [fractionDigits]
    refine (yields_peek.bind _).trans fun c₁ h₁ _ => ?_
    rw [hh]
    simp only [hdig, ↓reduceIte, gt_iff_lt, Nat.not_lt.mpr hnext]
    refine ((yields_bump (h₁.trans h)).bind _).trans fun c₂ h₂ _ => ?_
    have hs : s * 10 + digitValue (UInt8.ofNat ch.toNat) = 10 * s + (ch.toNat - '0'.toNat) := by
      rw [hval]; simp only [Char.reduceToNat]; omega
    rw [hs]
    have hafter : after - ((ch :: cs).length : Int) = after - 1 - (cs.length : Int) := by
      simp only [List.length_cons]; omega
    rw [hafter]
    exact ih (fun ch' hch' => hcs ch' (by simp [hch'])) hb h₂ (by simp at hf; omega)

/-- Exponent digits read as their value while it stays within 32 bits. -/
theorem leads_exponentDigits (positive : Bool) (significand : Nat) (start : Int)
    (positiveExponent : Bool) (cs : List Char) (hcs : ∀ ch ∈ cs, ch.isDigit) {e : Nat}
    (hb : (Nat.ofDigitChars 10 cs e : Int) ≤ i32Max) {c : Cursor} {r : List UInt8}
    (h : c.rest = cs.flatMap String.utf8EncodeChar ++ r) (hr : EndsDigits r) {fuel : Nat}
    (hf : cs.length < fuel) :
    Leads (exponentDigits positive significand start positiveExponent fuel e)
      (finish positive significand (clampExponent (if positiveExponent
        then start + Nat.ofDigitChars 10 cs e else start - Nat.ofDigitChars 10 cs e))) c r := by
  induction cs generalizing c e fuel with
  | nil =>
    obtain ⟨f, rfl⟩ : ∃ f, fuel = f + 1 := ⟨fuel - 1, by simp at hf; omega⟩
    simp only [List.flatMap_nil, List.nil_append] at h
    rw [exponentDigits]
    refine (yields_peek.bind _).trans fun c₁ h₁ _ => ?_
    rw [h]
    simp only [Nat.ofDigitChars_nil]
    cases hrh : r.head? with
    | none => exact Leads.refl _ (h₁.trans h)
    | some b =>
      simp only [hr b hrh, Bool.false_eq_true, ↓reduceIte]
      exact Leads.refl _ (h₁.trans h)
  | cons ch cs ih =>
    obtain ⟨f, rfl⟩ : ∃ f, fuel = f + 1 := ⟨fuel - 1, by simp at hf; omega⟩
    obtain ⟨hbyte, hdig, hval⟩ := digit_bytes ch (hcs ch (by simp))
    rw [List.flatMap_cons, hbyte, List.singleton_append, List.cons_append] at h
    rw [Nat.ofDigitChars_cons] at hb ⊢
    have hnext : (e : Int) * 10 + (digitValue (UInt8.ofNat ch.toNat) : Int) ≤ i32Max := by
      have := le_ofDigitChars cs (10 * e + (ch.toNat - '0'.toNat))
      rw [hval]
      simp only [Char.reduceToNat] at this hb
      omega
    have hh : c.rest.head? = some (UInt8.ofNat ch.toNat) := by rw [h]; rfl
    rw [exponentDigits]
    refine (yields_peek.bind _).trans fun c₁ h₁ _ => ?_
    rw [hh]
    simp only [hdig, ↓reduceIte]
    refine ((yields_bump (h₁.trans h)).bind _).trans fun c₂ h₂ _ => ?_
    simp only [gt_iff_lt, Int.not_lt.mpr hnext, ↓reduceIte]
    have hs : (e : Int) * 10 + (digitValue (UInt8.ofNat ch.toNat) : Int) =
        ((10 * e + (ch.toNat - '0'.toNat) : Nat) : Int) := by
      rw [hval]; simp only [Char.reduceToNat]; omega
    rw [hs]
    exact ih (fun ch' hch' => hcs ch' (by simp [hch'])) hb h₂ (by simp at hf; omega)

/-! ## The integer part -/

/-- A positive number's decimal digits start with a digit other than zero. -/
theorem toDigits_head (n : Nat) (hn : 0 < n) : ∃ ch cs, Nat.toDigits 10 n = ch :: cs ∧ ch ≠ '0' := by
  induction n using Nat.strongRecOn with
  | ind n ih =>
    by_cases h : n < 10
    · refine ⟨Nat.digitChar n, [], Nat.toDigits_of_lt_base h, ?_⟩
      have : ∀ m < 10, 0 < m → Nat.digitChar m ≠ '0' := by decide
      exact this n h hn
    · obtain ⟨ch, cs, hcs, hch⟩ := ih (n / 10) (by omega) (by omega)
      refine ⟨ch, cs ++ [Nat.digitChar (n % 10)], ?_, hch⟩
      rw [Nat.toDigits_of_base_le (by decide) (by omega), hcs, List.cons_append]

/-- The digits of a number that is not zero, with no leading zero, read as its value. -/
theorem leads_number_digits (positive : Bool) {ch : Char} {cs : List Char} (hch : ch ≠ '0')
    (hcs : ∀ d ∈ ch :: cs, d.isDigit) (hb : Nat.ofDigitChars 10 (ch :: cs) 0 ≤ u64Max)
    {c : Cursor} {r : List UInt8} (h : c.rest = (ch :: cs).flatMap String.utf8EncodeChar ++ r)
    (hr : EndsDigits r) :
    Leads (number positive) (afterInteger positive (Nat.ofDigitChars 10 (ch :: cs) 0)) c r := by
  obtain ⟨hbyte, hdig, hval⟩ := digit_bytes ch (hcs ch (by simp))
  rw [List.flatMap_cons, hbyte, List.singleton_append, List.cons_append] at h
  have h48 : (UInt8.ofNat ch.toNat == 48) = false := by
    have hv : ch.toNat ≠ 48 := fun e => hch (Char.toNat_inj.mp e)
    have := (digit_range ch (hcs ch (by simp))).2
    have h48' : (48 : UInt8).toNat = 48 := rfl
    simp only [beq_eq_false_iff_ne, ne_eq, ← UInt8.toNat_inj, UInt8.toNat_ofNat', h48']
    omega
  unfold number
  refine ((yields_next h).bind _).trans fun c₁ h₁ _ => ?_
  simp only [h48, Bool.false_eq_true, ↓reduceIte, hdig]
  refine (yields_fuel.bind _).trans fun c₂ h₂ _ => ?_
  rw [Nat.ofDigitChars_cons] at hb ⊢
  have hs : digitValue (UInt8.ofNat ch.toNat) = 10 * 0 + (ch.toNat - '0'.toNat) := by
    rw [hval]; simp only [Char.reduceToNat]; omega
  rw [hs]
  refine leads_integerDigits positive cs (fun d hd => hcs d (by simp [hd])) hb (h₂.trans h₁) hr ?_
  rw [h₁, List.length_append, digits_bytes cs (fun d hd => hcs d (by simp [hd])),
    List.length_map]
  omega

/-- A lone zero reads as zero. -/
theorem leads_number_zero (positive : Bool) {c : Cursor} {r : List UInt8} (h : c.rest = 48 :: r)
    (hr : EndsDigits r) : Leads (number positive) (afterInteger positive 0) c r := by
  unfold number
  refine ((yields_next h).bind _).trans fun c₁ h₁ _ => ?_
  simp only [beq_self_eq_true, ↓reduceIte]
  refine (yields_peek.bind _).trans fun c₂ h₂ _ => ?_
  rw [h₁]
  cases hrh : r.head? with
  | none => exact Leads.refl _ (h₂.trans h₁)
  | some b =>
    simp only [hr b hrh, Bool.false_eq_true, ↓reduceIte]
    exact Leads.refl _ (h₂.trans h₁)

/-- The decimal digits of a number that fits 64 bits read as the number. -/
theorem leads_number_toDigits (positive : Bool) {n : Nat} (hn : n ≤ u64Max) {c : Cursor}
    {r : List UInt8} (h : c.rest = (Nat.toDigits 10 n).flatMap String.utf8EncodeChar ++ r)
    (hr : EndsDigits r) : Leads (number positive) (afterInteger positive n) c r := by
  by_cases h0 : n = 0
  · subst h0
    exact leads_number_zero positive (by rw [h]; rfl) hr
  · obtain ⟨ch, cs, hds, hch⟩ := toDigits_head n (by omega)
    have hcs : ∀ d ∈ ch :: cs, d.isDigit := fun d hd =>
      Nat.isDigit_of_mem_toDigits (by decide) (by decide) (hds ▸ hd)
    have hval : Nat.ofDigitChars 10 (ch :: cs) 0 = n := by rw [← hds, Nat.ofDigitChars_ten_toDigits]
    rw [hds] at h
    have := leads_number_digits positive hch hcs (by rw [hval]; exact hn) h hr
    rwa [hval] at this

/-! ## The end of a number -/

/-- After a number comes a byte that neither continues its digits nor starts a fraction or an
exponent, or the end. -/
def EndsNumber (r : List UInt8) : Prop :=
  ∀ b, r.head? = some b → isDigit b = false ∧ b ≠ 46 ∧ b ≠ 101 ∧ b ≠ 69

/-- What ends a number ends its digits. -/
theorem EndsNumber.endsDigits {r : List UInt8} (h : EndsNumber r) : EndsDigits r :=
  fun b hb => (h b hb).1

/-- The number an integer read in full stands for: a 64-bit integer, or a double for a
negative zero or a negative number below `-2 ^ 63`. -/
theorem afterInteger_pure (positive : Bool) (s : Nat) :
    ∃ n, (if positive = true then pure (Number.nat s.toUInt64)
      else if (s == 0 || decide (s > Nat.pow 2 63)) = true then pure (Number.float (-Decimal.nearest s))
      else pure (Number.neg (Int64.ofInt (-(s : Int)))) : Scan Number) = pure n := by
  split
  · exact ⟨_, rfl⟩
  · split
    · exact ⟨_, rfl⟩
    · exact ⟨_, rfl⟩

/-- An integer read in full: nothing after its digits continues it, so its sign and digits
alone give the number. -/
theorem leads_afterInteger_end (positive : Bool) (s : Nat) {c : Cursor} (hr : EndsNumber c.rest) :
    Leads (afterInteger positive s)
      (if positive = true then pure (Number.nat s.toUInt64)
        else if (s == 0 || decide (s > Nat.pow 2 63)) = true then
          pure (Number.float (-Decimal.nearest s))
        else pure (Number.neg (Int64.ofInt (-(s : Int))))) c c.rest := by
  unfold afterInteger
  refine (yields_peek.bind _).trans fun c₁ h₁ _ => ?_
  cases hh : c.rest.head? with
  | none => exact Leads.refl _ h₁
  | some b =>
    obtain ⟨-, h46, h101, h69⟩ := hr b hh
    split
    next heq => exact absurd (Option.some.inj heq) h46
    next heq => exact absurd (Option.some.inj heq) h101
    next heq => exact absurd (Option.some.inj heq) h69
    next => exact Leads.refl _ h₁

/-- An integer read in full is a number. -/
theorem yields_afterInteger_end (positive : Bool) (s : Nat) :
    ∃ n, ∀ {c : Cursor}, EndsNumber c.rest → Yields (afterInteger positive s) c n c.rest := by
  obtain ⟨n, hn⟩ := afterInteger_pure positive s
  refine ⟨n, fun hr => ?_⟩
  have hend := leads_afterInteger_end positive s hr
  rwa [hn] at hend

/-! ## Fraction and exponent -/

/-- A point after the integer digits starts a fraction. -/
theorem leads_afterInteger_point (positive : Bool) (s : Nat) {c : Cursor}
    (h : c.rest.head? = some 46) :
    Leads (afterInteger positive s) (do let f ← fraction positive s 0; pure (Number.float f))
      c c.rest := by
  unfold afterInteger
  refine (yields_peek.bind _).trans fun c₁ h₁ _ => ?_
  rw [h]
  exact Leads.refl _ h₁

/-- An `e` after the integer digits starts an exponent. -/
theorem leads_afterInteger_exponent (positive : Bool) (s : Nat) {c : Cursor}
    (h : c.rest.head? = some 101) :
    Leads (afterInteger positive s) (do let f ← exponent positive s 0; pure (Number.float f))
      c c.rest := by
  unfold afterInteger
  refine (yields_peek.bind _).trans fun c₁ h₁ _ => ?_
  rw [h]
  exact Leads.refl _ h₁

/-- A point and fraction digits that fit the significand lower the exponent by their count. -/
theorem leads_fraction (positive : Bool) (s : Nat) (before : Int) {cs : List Char}
    (hne : cs ≠ []) (hcs : ∀ ch ∈ cs, ch.isDigit) (hb : Nat.ofDigitChars 10 cs s ≤ u64Max)
    {c : Cursor} {r : List UInt8} (h : c.rest = 46 :: (cs.flatMap String.utf8EncodeChar ++ r))
    (hr : EndsDigits r) :
    Leads (fraction positive s before)
      (finishOrExponent positive (Nat.ofDigitChars 10 cs s) (before - cs.length)) c r := by
  unfold fraction
  refine ((yields_bump h).bind _).trans fun c₁ h₁ _ => ?_
  refine (yields_fuel.bind _).trans fun c₂ h₂ _ => ?_
  have hlen : cs.length < c₁.rest.length + 1 := by
    rw [h₁, List.length_append, digits_bytes cs hcs, List.length_map]
    omega
  refine (leads_fractionDigits positive before cs hcs hb (h₂.trans h₁) hr hlen).trans
    fun c₃ h₃ _ => ?_
  have hpos : cs.length ≠ 0 := by simpa [List.length_eq_zero_iff] using hne
  have hafter : ((0 : Int) - cs.length == 0) = false := by simp; omega
  unfold fractionDigits.endFraction
  simp only [hafter, Bool.false_eq_true, ↓reduceIte]
  rw [show before + (0 - (cs.length : Int)) = before - cs.length by omega]
  exact Leads.refl _ h₃

/-- Without an exponent, the parts read are assembled. -/
theorem leads_finishOrExponent_end (positive : Bool) (s : Nat) (e : Int) {c : Cursor}
    (hr : ∀ b, c.rest.head? = some b → b ≠ 101 ∧ b ≠ 69) :
    Leads (finishOrExponent positive s e) (finish positive s e) c c.rest := by
  unfold finishOrExponent
  refine (yields_peek.bind _).trans fun c₁ h₁ _ => ?_
  cases hh : c.rest.head? with
  | none => exact Leads.refl _ h₁
  | some b =>
    obtain ⟨h101, h69⟩ := hr b hh
    split
    next heq => exact absurd (Option.some.inj heq) h101
    next heq => exact absurd (Option.some.inj heq) h69
    next => exact Leads.refl _ h₁

/-- An `e` after the digits starts an exponent. -/
theorem leads_finishOrExponent_exponent (positive : Bool) (s : Nat) (e : Int) {c : Cursor}
    (h : c.rest.head? = some 101) :
    Leads (finishOrExponent positive s e) (exponent positive s e) c c.rest := by
  unfold finishOrExponent
  refine (yields_peek.bind _).trans fun c₁ h₁ _ => ?_
  rw [h]
  exact Leads.refl _ h₁

/-- An exponent with its sign and digits moves the exponent read so far by its value. -/
theorem leads_exponent (positive : Bool) (significand : Nat) (start : Int) {sb : UInt8}
    {sign : Bool} (hs : (sb, sign) ∈ [((43 : UInt8), true), (45, false)]) {ds : List Char}
    (hne : ds ≠ []) (hds : ∀ ch ∈ ds, ch.isDigit) (hb : (Nat.ofDigitChars 10 ds 0 : Int) ≤ i32Max)
    {c : Cursor} {r : List UInt8}
    (h : c.rest = 101 :: sb :: (ds.flatMap String.utf8EncodeChar ++ r)) (hr : EndsDigits r) :
    Leads (exponent positive significand start)
      (finish positive significand (clampExponent (if sign then start + Nat.ofDigitChars 10 ds 0
        else start - Nat.ofDigitChars 10 ds 0))) c r := by
  obtain ⟨d, ds', rfl⟩ : ∃ d ds', ds = d :: ds' := by
    cases ds with
    | nil => exact absurd rfl hne
    | cons d ds' => exact ⟨d, ds', rfl⟩
  obtain ⟨hbyte, hdig, hval⟩ := digit_bytes d (hds d (by simp))
  unfold exponent
  refine ((yields_bump h).bind _).trans fun c₁ h₁ _ => ?_
  -- the sign, a plus or a minus, is read and decides the direction
  refine (yields_peek.bind _).trans fun c₂ h₂ _ => ?_
  rw [h₁]
  rw [Nat.ofDigitChars_cons] at hb ⊢
  have hs' : digitValue (UInt8.ofNat d.toNat) = 10 * 0 + (d.toNat - '0'.toNat) := by
    rw [hval]; simp only [Char.reduceToNat]; omega
  have hlen : ∀ c₄ : Cursor, c₄.rest = ds'.flatMap String.utf8EncodeChar ++ r →
      ds'.length < c₄.rest.length + 1 := by
    intro c₄ h₄
    rw [h₄, List.length_append, digits_bytes ds' (fun d' hd' => hds d' (by simp [hd'])),
      List.length_map]
    omega
  rw [List.flatMap_cons, hbyte, List.singleton_append, List.cons_append] at h₁
  simp only [List.mem_cons, Prod.mk.injEq, List.not_mem_nil, or_false] at hs
  rcases hs with ⟨rfl, rfl⟩ | ⟨rfl, rfl⟩
  all_goals
    refine ((yields_bump (h₂.trans h₁)).bind _).trans fun c₃ h₃ _ => ?_
    simp only [pure_bind]
    refine ((yields_next h₃).bind _).trans fun c₄ h₄ _ => ?_
    simp only [hdig, ↓reduceIte]
    refine (yields_fuel.bind _).trans fun c₅ h₅ _ => ?_
    rw [hs']
    exact leads_exponentDigits positive significand start _ ds'
      (fun d' hd' => hds d' (by simp [hd'])) hb (h₅.trans h₄) hr (h₅ ▸ hlen c₄ h₄)

/-- The parts read assemble to a double unless it overflows. -/
theorem yields_finish (positive : Bool) (s : Nat) (e : Int) {f : Float}
    (hf : assemble positive s.toUInt64 e = some f) {c : Cursor} :
    Yields (finish positive s e) c f c.rest := by
  unfold finish
  rw [hf]
  exact Leads.refl _ rfl

end Scan

/-! ## Scaling by powers of ten -/

/-- Dividing never overflows: a negative exponent always scales. -/
theorem scaleByTen_isSome_of_neg (f : Float) (e : Int) (he : e < 0) : (scaleByTen f e).isSome := by
  induction hn : e.natAbs using Nat.strongRecOn generalizing f e with
  | ind n ih =>
    rw [scaleByTen]
    split
    · simp [show ¬ (e ≥ 0) by omega]
    · split
      · rfl
      · -- below `10 ^ -308`: one division by `1e308`, and the rest of the exponent
        simp only [show ¬ (e ≥ 0) by omega, ↓reduceIte]
        rename_i h _
        simp only [maxTenPower] at h ⊢
        exact ih _ (by omega) _ _ (by omega) rfl

/-- A nonnegative exponent in the table's reach scales by one product, when it is finite. -/
theorem scaleByTen_of_le (f : Float) (k : Nat) (hk : k ≤ 308)
    (hf : (f * Decimal.powerOfTen k).isInf = false) :
    scaleByTen f k = some (f * Decimal.powerOfTen k) := by
  rw [scaleByTen, dif_pos (by simp [maxTenPower]; omega)]
  simp [hf]

namespace Scan

/-! ## Numbers with a fraction or an exponent -/

/-- Integer digits as the writer puts them: a lone zero, or no leading zero. -/
def IntegerPart (ip : List Char) : Prop :=
  (∀ ch ∈ ip, ch.isDigit) ∧ (ip = ['0'] ∨ ∃ ch rest, ip = ch :: rest ∧ ch ≠ '0')

/-- The decimal digits of a natural number are an integer part as the writer puts it. -/
theorem integerPart_toDigits (n : Nat) : IntegerPart (Nat.toDigits 10 n) := by
  refine ⟨fun ch hch => Nat.isDigit_of_mem_toDigits (by decide) (by decide) hch, ?_⟩
  by_cases h0 : n = 0
  · subst h0; exact .inl rfl
  · exact .inr (toDigits_head n (by omega))

/-- An integer part reads as its value. -/
theorem leads_number_integerPart (positive : Bool) {ip : List Char} (hip : IntegerPart ip)
    (hb : Nat.ofDigitChars 10 ip 0 ≤ u64Max) {c : Cursor} {r : List UInt8}
    (h : c.rest = ip.flatMap String.utf8EncodeChar ++ r) (hr : EndsDigits r) :
    Leads (number positive) (afterInteger positive (Nat.ofDigitChars 10 ip 0)) c r := by
  obtain ⟨hdig, rfl | ⟨ch, rest, rfl, hch⟩⟩ := hip
  · exact leads_number_zero positive (by rw [h]; rfl) hr
  · exact leads_number_digits positive hch hdig hb h hr

/-- An integer part, a point and fraction digits read as one significand, with the exponent
lowered by the fraction's length. -/
theorem leads_number_fraction (positive : Bool) {ip fp : List Char} (hip : IntegerPart ip)
    (hne : fp ≠ []) (hfp : ∀ ch ∈ fp, ch.isDigit)
    (hb : Nat.ofDigitChars 10 (ip ++ fp) 0 ≤ u64Max) {c : Cursor} {r : List UInt8}
    (h : c.rest = (ip ++ '.' :: fp).flatMap String.utf8EncodeChar ++ r) (hr : EndsDigits r) :
    Leads (number positive)
      (do let f ← finishOrExponent positive (Nat.ofDigitChars 10 (ip ++ fp) 0) (0 - fp.length)
          pure (Number.float f)) c r := by
  have hrest : (ip ++ '.' :: fp).flatMap String.utf8EncodeChar ++ r =
      ip.flatMap String.utf8EncodeChar ++ (46 :: (fp.flatMap String.utf8EncodeChar ++ r)) := by
    simp only [List.flatMap_append, List.flatMap_cons, List.append_assoc]
    rfl
  rw [hrest] at h
  have hip_le : Nat.ofDigitChars 10 ip 0 ≤ u64Max := by
    rw [Nat.ofDigitChars_append] at hb
    exact Nat.le_trans (le_ofDigitChars fp _) hb
  refine (leads_number_integerPart positive hip hip_le h (fun b hb' => ?_)).trans
    fun c₁ h₁ _ => ?_
  · cases hb'; decide
  · refine (leads_afterInteger_point positive _ (by rw [h₁]; rfl)).trans fun c₂ h₂ _ => ?_
    rw [Nat.ofDigitChars_append]
    exact (leads_fraction positive _ 0 hne hfp (by rwa [Nat.ofDigitChars_append] at hb)
      (h₂.trans h₁) hr).bind _

/-- A significand with a negative exponent always makes a double. -/
theorem assemble_isSome_of_neg (positive : Bool) (s : UInt64) {e : Int} (he : e < 0) :
    (assemble positive s e).isSome := by
  unfold assemble
  rw [Option.isSome_map]
  exact scaleByTen_isSome_of_neg _ _ he

/-- A number written positionally, with a point and at least one fraction digit, reads as a
double. -/
theorem yields_float_positional (positive : Bool) {ip fp : List Char} (hip : IntegerPart ip)
    (hne : fp ≠ []) (hfp : ∀ ch ∈ fp, ch.isDigit) (hb : Nat.ofDigitChars 10 (ip ++ fp) 0 ≤ u64Max)
    {r : List UInt8} (hr : EndsNumber r) :
    ∃ f, ∀ {c : Cursor}, c.rest = (ip ++ '.' :: fp).flatMap String.utf8EncodeChar ++ r →
      Yields (number positive) c (.float f) r := by
  have hlen : (0 : Int) - fp.length < 0 := by
    have : fp.length ≠ 0 := by simpa [List.length_eq_zero_iff] using hne
    omega
  obtain ⟨f, hf⟩ := Option.isSome_iff_exists.mp
    (assemble_isSome_of_neg positive (Nat.ofDigitChars 10 (ip ++ fp) 0).toUInt64 hlen)
  refine ⟨f, fun {c} h => (leads_number_fraction positive hip hne hfp hb h hr.endsDigits).trans
    fun c₁ h₁ _ => ?_⟩
  refine ((leads_finishOrExponent_end positive _ _ fun b hb' => ?_).bind _).trans
    fun c₂ h₂ _ => ?_
  · rw [h₁] at hb'
    exact ⟨(hr b hb').2.2.1, (hr b hb').2.2.2⟩
  · exact ((yields_finish positive _ _ hf).bind _).trans fun c₃ h₃ _ =>
      Leads.refl _ (h₃.trans (h₂.trans h₁))

/-- A number written in scientific notation, with a signed exponent, reads as a double when
the parts assemble. -/
theorem yields_float_scientific (positive : Bool) {ch : Char} {tl ds : List Char}
    (hch : ch ≠ '0') (hdig : ∀ d ∈ ch :: tl, d.isDigit)
    (hb : Nat.ofDigitChars 10 (ch :: tl) 0 ≤ u64Max) {sb : UInt8} {sign : Bool}
    (hs : (sb, sign) ∈ [((43 : UInt8), true), (45, false)]) (hne : ds ≠ [])
    (hds : ∀ d ∈ ds, d.isDigit) (hE : (Nat.ofDigitChars 10 ds 0 : Int) ≤ i32Max)
    (hsome : (assemble positive (Nat.ofDigitChars 10 (ch :: tl) 0).toUInt64
      (clampExponent (if sign then ((0 : Int) - tl.length) + Nat.ofDigitChars 10 ds 0
        else ((0 : Int) - tl.length) - Nat.ofDigitChars 10 ds 0))).isSome)
    {r : List UInt8} (hr : EndsDigits r) :
    ∃ f, ∀ {c : Cursor}, c.rest = ((if tl = [] then [ch] else ch :: '.' :: tl) ++ ['e']).flatMap
      String.utf8EncodeChar ++ sb :: (ds.flatMap String.utf8EncodeChar ++ r) →
      Yields (number positive) c (.float f) r := by
  obtain ⟨f, hf⟩ := Option.isSome_iff_exists.mp hsome
  refine ⟨f, fun {c} h => ?_⟩
  have he : (['e'] : List Char).flatMap String.utf8EncodeChar = [101] := rfl
  by_cases htl : tl = []
  · -- a single digit: the exponent follows it at once
    subst htl
    have h' : c.rest = [ch].flatMap String.utf8EncodeChar ++
        (101 :: sb :: (ds.flatMap String.utf8EncodeChar ++ r)) := by
      rw [h, if_pos rfl, List.flatMap_append, he]
      simp
    have hip : IntegerPart [ch] := ⟨hdig, .inr ⟨ch, [], rfl, hch⟩⟩
    refine (leads_number_integerPart positive hip hb h' (fun b hb' => ?_)).trans fun c₁ h₁ _ => ?_
    · cases hb'; decide
    · refine (leads_afterInteger_exponent positive _ (by rw [h₁]; rfl)).trans fun c₂ h₂ _ => ?_
      refine ((leads_exponent positive _ 0 hs hne hds hE (h₂.trans h₁) hr).bind _).trans
        fun c₃ h₃ _ => ?_
      simp only [List.length_nil] at hf
      exact ((yields_finish positive _ _ hf).bind _).trans fun c₄ h₄ _ =>
        Leads.refl _ (h₄.trans h₃)
  · -- a point and more digits, then the exponent
    have hip : IntegerPart [ch] := ⟨fun d hd => hdig d (by simp at hd; simp [hd]), .inr ⟨ch, [], rfl, hch⟩⟩
    have h' : c.rest = ([ch] ++ '.' :: tl).flatMap String.utf8EncodeChar ++
        (101 :: sb :: (ds.flatMap String.utf8EncodeChar ++ r)) := by
      rw [h, if_neg htl, List.flatMap_append, he]
      simp
    refine (leads_number_fraction positive hip htl (fun d hd => hdig d (by simp [hd])) hb h'
      (fun b hb' => ?_)).trans fun c₁ h₁ _ => ?_
    · cases hb'; decide
    · refine ((leads_finishOrExponent_exponent positive _ _ (by rw [h₁]; rfl)).bind _).trans
        fun c₂ h₂ _ => ?_
      refine ((leads_exponent positive _ _ hs hne hds hE (h₂.trans h₁) hr).bind _).trans
        fun c₃ h₃ _ => ?_
      exact ((yields_finish positive _ _ hf).bind _).trans fun c₄ h₄ _ =>
        Leads.refl _ (h₄.trans h₃)

/-! ## The text of a double -/

/-- The digits of a number times a power of ten are its digits and that many zeros. -/
theorem toDigits_mul_pow (D j : Nat) (hD : 0 < D) :
    Nat.toDigits 10 (D * 10 ^ j) = Nat.toDigits 10 D ++ List.replicate j '0' := by
  induction j with
  | zero => simp
  | succ j ih =>
    rw [List.replicate_succ', ← List.append_assoc, ← ih, Nat.pow_succ, ← Nat.mul_assoc]
    have := Nat.toDigits_append_toDigits (b := 10) (n := D * 10 ^ j) (d := 0) (by decide)
      (Nat.mul_pos hD (by positivity)) (by decide)
    rw [Nat.toDigits_zero] at this
    rw [this]
    congr 1
    ring

/-- The zeros the writer pads with are zero characters. -/
theorem zeros_toList (n : Nat) : (Decimal.zeros n).toList = List.replicate n '0' := by
  simp [Decimal.zeros]

/-- Zero characters are digits. -/
theorem replicate_zero_isDigit (n : Nat) : ∀ ch ∈ List.replicate n '0', ch.isDigit := by
  intro ch hch
  rw [List.eq_of_mem_replicate hch]
  rfl

/-- Digits that fit 64 bits and an exponent at most 308 assemble into a double, when a
nonnegative exponent keeps the product finite; a negative one always divides. -/
theorem assemble_digits_isSome (positive : Bool) {D : Nat} (hD : D ≤ u64Max) {k : Int}
    (hlow : -1074 ≤ k) (hk : k ≤ 308)
    (hprod : 0 ≤ k → (Decimal.nearest D * Decimal.powerOfTen k.toNat).isInf = false) :
    (assemble positive D.toUInt64 (clampExponent k)).isSome := by
  have hclamp : clampExponent k = k := by
    simp only [clampExponent, i32Max]
    omega
  rw [hclamp]
  by_cases hk0 : 0 ≤ k
  · obtain ⟨j, rfl⟩ : ∃ j : Nat, k = j := ⟨k.toNat, by omega⟩
    have hfin := hprod hk0
    have hmax : u64Max < 2 ^ 64 := by decide
    have hfit : D.toUInt64.toNat = D := by
      simp only [Nat.toUInt64_eq, UInt64.toNat_ofNat']
      exact Nat.mod_eq_of_lt (by omega)
    unfold assemble
    rw [hfit, scaleByTen_of_le _ _ (by omega) (by simpa using hfin)]
    rfl
  · exact assemble_isSome_of_neg _ _ (by omega)

/-! Each layout of `Decimal.Layout.renderDigits`, under the JSON float layout, reads as a
double: one lemma per branch of the layout. -/

/-- An integral value of at most sixteen digits, written as its digits, the zeros of its
exponent and `.0`. -/
theorem yields_float_whole (positive : Bool) {D j : Nat} (hz : D = 0 → j = 0)
    (hfit : (Nat.toDigits 10 D).length + j ≤ 16) {r : List UInt8} (hr : EndsNumber r) :
    ∃ f, ∀ {c : Cursor},
      c.rest = ((Nat.toDigits 10 D ++ List.replicate j '0') ++ '.' :: ['0']).flatMap
        String.utf8EncodeChar ++ r →
      Yields (number positive) c (.float f) r := by
  -- the integer digits are those of `D * 10 ^ j`
  have hip : IntegerPart (Nat.toDigits 10 D ++ List.replicate j '0') := by
    by_cases h0 : D = 0
    · obtain rfl := hz h0
      simpa using integerPart_toDigits D
    · rw [← toDigits_mul_pow _ _ (by omega)]
      exact integerPart_toDigits _
  have hlen : D < 10 ^ (Nat.toDigits 10 D).length :=
    (Nat.length_toDigits_le_iff (by decide) Nat.length_toDigits_pos).mp le_rfl
  have hval : Nat.ofDigitChars 10 ((Nat.toDigits 10 D ++ List.replicate j '0') ++ ['0']) 0 =
      D * 10 ^ j * 10 := by
    rw [Nat.ofDigitChars_append, Nat.ofDigitChars_append, Nat.ofDigitChars_ten_toDigits,
      Nat.ofDigitChars_replicate_zero]
    simp [Nat.ofDigitChars_cons]
    ring
  have hsmall : D * 10 ^ j < 10 ^ 16 :=
    calc D * 10 ^ j < 10 ^ (Nat.toDigits 10 D).length * 10 ^ j :=
          Nat.mul_lt_mul_of_pos_right hlen (by positivity)
      _ = 10 ^ ((Nat.toDigits 10 D).length + j) := by rw [Nat.pow_add]
      _ ≤ 10 ^ 16 := Nat.pow_le_pow_right (by decide) hfit
  have hb : Nat.ofDigitChars 10 ((Nat.toDigits 10 D ++ List.replicate j '0') ++ ['0']) 0 ≤
      u64Max := by
    rw [hval]
    have : D * 10 ^ j * 10 < 10 ^ 17 := by
      rw [show (10 : Nat) ^ 17 = 10 ^ 16 * 10 by norm_num]
      exact Nat.mul_lt_mul_of_pos_right hsmall (by norm_num)
    have h17 : (10 : Nat) ^ 17 ≤ u64Max := by decide
    omega
  exact yields_float_positional positive hip (by simp) (by simp) hb hr

/-- Digits with the point after the first `j` of them, `j` neither zero nor all of them. -/
theorem yields_float_pointInside (positive : Bool) {D j : Nat} (hD : 0 < D) (hb : D ≤ u64Max)
    (hj : 0 < j) (hjlt : j < (Nat.toDigits 10 D).length) {r : List UInt8} (hr : EndsNumber r) :
    ∃ f, ∀ {c : Cursor},
      c.rest = ((Nat.toDigits 10 D).take j ++ '.' :: (Nat.toDigits 10 D).drop j).flatMap
        String.utf8EncodeChar ++ r →
      Yields (number positive) c (.float f) r := by
  have hcs := integerPart_toDigits D
  obtain ⟨ch, rest, hcr, hch⟩ := toDigits_head D hD
  -- the digits before the point start with the first digit, which is no zero
  have hip : IntegerPart ((Nat.toDigits 10 D).take j) := by
    refine ⟨fun d hd => hcs.1 d (List.mem_of_mem_take hd),
      .inr ⟨ch, List.take (j - 1) rest, ?_, hch⟩⟩
    rw [hcr]
    obtain ⟨j', rfl⟩ : ∃ j', j = j' + 1 := ⟨j - 1, by omega⟩
    simp
  have hne : (Nat.toDigits 10 D).drop j ≠ [] := by
    intro he
    have := congrArg List.length he
    simp at this
    omega
  have hval : Nat.ofDigitChars 10 ((Nat.toDigits 10 D).take j ++ (Nat.toDigits 10 D).drop j) 0 ≤
      u64Max := by
    rw [List.take_append_drop, Nat.ofDigitChars_ten_toDigits]
    exact hb
  exact yields_float_positional positive hip hne
    (fun d hd => hcs.1 d (List.mem_of_mem_drop hd)) hval hr

/-- Digits after `0.` and `z` zeros. -/
theorem yields_float_leadingZeros (positive : Bool) {D : Nat} (z : Nat) (hb : D ≤ u64Max)
    {r : List UInt8} (hr : EndsNumber r) :
    ∃ f, ∀ {c : Cursor},
      c.rest = (['0'] ++ '.' :: (List.replicate z '0' ++ Nat.toDigits 10 D)).flatMap
        String.utf8EncodeChar ++ r →
      Yields (number positive) c (.float f) r := by
  have hcs := integerPart_toDigits D
  have hip : IntegerPart ['0'] := ⟨by simp, .inl rfl⟩
  have hne : List.replicate z '0' ++ Nat.toDigits 10 D ≠ [] := by
    simp [Nat.toDigits_ne_nil]
  have hfp : ∀ ch ∈ List.replicate z '0' ++ Nat.toDigits 10 D, ch.isDigit := by
    intro ch hch
    rcases List.mem_append.mp hch with h | h
    · exact replicate_zero_isDigit z ch h
    · exact hcs.1 ch h
  -- the leading zeros add nothing to the value
  have hval : Nat.ofDigitChars 10 (['0'] ++ (List.replicate z '0' ++ Nat.toDigits 10 D)) 0 = D := by
    rw [Nat.ofDigitChars_append, Nat.ofDigitChars_append, Nat.ofDigitChars_replicate_zero]
    simp only [Nat.ofDigitChars_cons, Nat.ofDigitChars_nil, Char.reduceToNat]
    simp only [Nat.mul_zero, Nat.zero_add, Nat.sub_self, Nat.ofDigitChars_ten_toDigits]
  exact yields_float_positional positive hip hne hfp (by rw [hval]; exact hb) hr

/-- Digits in scientific notation: the first, then a point and the others when there are
any, then `e` and the exponent `e` with its sign. They read as a double when the digits fit
and, for a nonnegative exponent of the digits' value, the product stays finite. -/
theorem yields_float_exponent (positive : Bool) {D : Nat} {ch : Char} {tl : List Char}
    (hcr : Nat.toDigits 10 D = ch :: tl) (hch : ch ≠ '0') (hD : D ≤ 10 ^ 18) {k e : Int}
    (hlow : -1074 ≤ k) (he : e = ((ch :: tl).length : Int) + k - 1)
    (hprod : 0 ≤ k → k ≤ 308 ∧ (Decimal.nearest D * Decimal.powerOfTen k.toNat).isInf = false)
    {r : List UInt8} (hr : EndsNumber r) :
    ∃ f, ∀ {c : Cursor},
      c.rest = (((if tl = [] then [ch] else ch :: '.' :: tl) ++ ['e']) ++
        (if e < 0 then '-' else '+') :: Nat.toDigits 10 e.natAbs).flatMap
          String.utf8EncodeChar ++ r →
      Yields (number positive) c (.float f) r := by
  have hcs := integerPart_toDigits D
  rw [hcr] at hcs
  have hdigits : Nat.ofDigitChars 10 (ch :: tl) 0 = D := by
    rw [← hcr]
    exact Nat.ofDigitChars_ten_toDigits
  have hu : (10 : Nat) ^ 18 ≤ u64Max := by decide
  have hlen : (ch :: tl).length ≤ 19 := by
    rw [← hcr]
    exact (Nat.length_toDigits_le_iff (b := 10) (by decide) (by decide)).mpr
      (by have : (10 : Nat) ^ 18 < 10 ^ 19 := by norm_num
          omega)
  have hk : k ≤ 308 := by
    by_cases hk0 : 0 ≤ k
    · exact (hprod hk0).1
    · omega
  -- the exponent is at most `1074` either way, so it fits 32 bits
  have hE : (Nat.ofDigitChars 10 (Nat.toDigits 10 e.natAbs) 0 : Int) ≤ i32Max := by
    rw [Nat.ofDigitChars_ten_toDigits]
    simp only [i32Max]
    omega
  -- the reader lowers the exponent by the digits after the point, which gives `k` back
  have hexp : (if !decide (e < 0) then ((0 : Int) - tl.length) +
      Nat.ofDigitChars 10 (Nat.toDigits 10 e.natAbs) 0
      else ((0 : Int) - tl.length) - Nat.ofDigitChars 10 (Nat.toDigits 10 e.natAbs) 0) = k := by
    rw [Nat.ofDigitChars_ten_toDigits]
    simp only [List.length_cons] at he
    by_cases hneg : e < 0
    · rw [if_neg (by simp [hneg])]; omega
    · rw [if_pos (by simp [hneg])]; omega
  have hsome := assemble_digits_isSome positive (D := D) (by omega) hlow hk
    (fun hk0 => (hprod hk0).2)
  rw [← hexp, ← hdigits] at hsome
  have hsign : (if e < 0 then (45 : UInt8) else 43, !decide (e < 0)) ∈
      [((43 : UInt8), true), (45, false)] := by
    by_cases hneg : e < 0 <;> simp [hneg]
  have hsb : String.utf8EncodeChar (if e < 0 then '-' else '+') = [if e < 0 then 45 else 43] := by
    by_cases hneg : e < 0 <;> simp [hneg] <;> rfl
  obtain ⟨f, hf⟩ := yields_float_scientific positive hch hcs.1 (by rw [hdigits]; omega) hsign
    Nat.toDigits_ne_nil (fun d hd => Nat.isDigit_of_mem_toDigits (by decide) (by decide) hd)
    hE hsome hr.endsDigits
  refine ⟨f, fun {c} h => hf ?_⟩
  rw [h, List.flatMap_append, List.flatMap_cons, hsb, List.singleton_append, List.append_assoc,
    List.cons_append, List.flatMap_append]

/-- The text of decimal digits under the JSON float layout reads as a double, given what the
shortest digits of a finite double satisfy: at most eighteen digits, zero only with exponent
zero, and for a nonnegative exponent a product the reader accepts. -/
theorem yields_number_renderDigits (positive : Bool) (d : Decimal.Digits)
    (hD : d.digits ≤ 10 ^ 18) (hz : d.digits = 0 → d.exponent = 0) (hlow : -1074 ≤ d.exponent)
    (hprod : 0 ≤ d.exponent → 0 < d.digits → d.exponent ≤ 308 ∧
      (Decimal.nearest d.digits * Decimal.powerOfTen d.exponent.toNat).isInf = false)
    {r : List UInt8} (hr : EndsNumber r) :
    ∃ f, ∀ {c : Cursor}, c.rest = (floatLayout.renderDigits d).toList.flatMap String.utf8EncodeChar ++ r →
      Yields (number positive) c (.float f) r := by
  obtain ⟨chars, h⟩ : ∃ chars, (floatLayout.renderDigits d).toList = chars := ⟨_, rfl⟩
  rw [h]
  have hu : (10 : Nat) ^ 18 ≤ u64Max := by decide
  unfold Decimal.Layout.renderDigits at h
  simp only [floatLayout, String.length_ofList, Nat.cast_ofNat] at h
  -- the layout's branches, in order: whole, point inside, leading zeros, scientific
  by_cases h1 : 0 ≤ d.exponent ∧ ((Nat.toDigits 10 d.digits).length : Int) + d.exponent ≤ 16
  · rw [if_pos h1] at h
    obtain ⟨j, hj⟩ : ∃ j : Nat, d.exponent = j := ⟨d.exponent.toNat, by omega⟩
    rw [hj, Int.toNat_natCast] at h
    have hchars : (String.ofList (Nat.toDigits 10 d.digits) ++ Decimal.zeros j ++ ".0").toList =
        (Nat.toDigits 10 d.digits ++ List.replicate j '0') ++ '.' :: ['0'] := by
      simp [String.toList_append, zeros_toList]
    rw [hchars] at h
    subst h
    exact yields_float_whole positive (fun h0 => by have := hz h0; omega) (by omega) hr
  rw [if_neg h1] at h
  by_cases h2 : 0 < ((Nat.toDigits 10 d.digits).length : Int) + d.exponent ∧
      ((Nat.toDigits 10 d.digits).length : Int) + d.exponent ≤ 16
  · rw [if_pos h2] at h
    have hpos : 0 < d.digits := Nat.pos_of_ne_zero fun h0 => by have := hz h0; omega
    obtain ⟨j, hj⟩ : ∃ j : Nat, ((Nat.toDigits 10 d.digits).length : Int) + d.exponent = j :=
      ⟨(((Nat.toDigits 10 d.digits).length : Int) + d.exponent).toNat, by omega⟩
    rw [hj, Int.toNat_natCast] at h
    have hchars : (String.ofList (List.take j (String.ofList (Nat.toDigits 10 d.digits)).toList) ++
        "." ++ String.ofList (List.drop j (String.ofList (Nat.toDigits 10 d.digits)).toList)).toList =
        (Nat.toDigits 10 d.digits).take j ++ '.' :: (Nat.toDigits 10 d.digits).drop j := by
      simp [String.toList_append]
    rw [hchars] at h
    subst h
    exact yields_float_pointInside positive hpos (by omega) (by omega) (by omega) hr
  rw [if_neg h2] at h
  by_cases h3 : -(4 : Int) ≤ ((Nat.toDigits 10 d.digits).length : Int) + d.exponent ∧
      ((Nat.toDigits 10 d.digits).length : Int) + d.exponent ≤ 0
  · rw [if_pos h3] at h
    have hchars : ("0." ++ Decimal.zeros (-(((Nat.toDigits 10 d.digits).length : Int) +
        d.exponent)).toNat ++ String.ofList (Nat.toDigits 10 d.digits)).toList =
        ['0'] ++ '.' :: (List.replicate (-(((Nat.toDigits 10 d.digits).length : Int) +
          d.exponent)).toNat '0' ++ Nat.toDigits 10 d.digits) := by
      simp [String.toList_append, zeros_toList]
    rw [hchars] at h
    subst h
    exact yields_float_leadingZeros positive _ (by omega) hr
  rw [if_neg h3] at h
  -- scientific: the digits are not zero, since zero is written whole
  have hpos : 0 < d.digits := Nat.pos_of_ne_zero fun h0 => by
    have hk := hz h0
    rw [h0, Nat.toDigits_zero] at h1
    simp [hk] at h1
  obtain ⟨ch, tl, hcr, hch⟩ := toDigits_head d.digits hpos
  rw [hcr] at h
  set e : Int := ((ch :: tl).length : Int) + d.exponent - 1 with he
  have hchars : ((if (String.ofList (List.drop 1 (String.ofList (ch :: tl)).toList)).isEmpty = true then
      String.ofList (List.take 1 (String.ofList (ch :: tl)).toList)
      else String.ofList (List.take 1 (String.ofList (ch :: tl)).toList) ++ "." ++
        String.ofList (List.drop 1 (String.ofList (ch :: tl)).toList)) ++ "e" ++
      (if e < 0 then "-" else "+") ++ toString e.natAbs).toList =
      ((if tl = [] then [ch] else ch :: '.' :: tl) ++ ['e']) ++
        (if e < 0 then '-' else '+') :: Nat.toDigits 10 e.natAbs := by
    by_cases htl : tl = [] <;> by_cases hneg : e < 0 <;>
      simp [htl, hneg, String.toList_append, String.isEmpty_iff]
  rw [hchars] at h
  subst h
  exact yields_float_exponent positive hcr hch hD hlow he (fun hk0 => hprod hk0 hpos) hr

/-! ## Numbers as values -/

/-- A number that reads starts with a digit. -/
theorem number_head {positive : Bool} {c : Cursor} {x : Number} {r : List UInt8}
    (h : Yields (number positive) c x r) : ∃ b, c.rest.head? = some b ∧ isDigit b = true := by
  obtain ⟨c', -, -, he⟩ := h
  unfold number at he
  rw [exec_bind, exec_next] at he
  cases hh : c.rest.head? with
  | none =>
    rw [hh] at he
    simp at he
  | some b =>
    rw [hh] at he
    refine ⟨b, rfl, ?_⟩
    by_cases h48 : (b == 48) = true
    · simp only [beq_iff_eq] at h48
      subst h48
      rfl
    · by_cases hd : isDigit b = true
      · exact hd
      · simp only [h48, hd, Bool.false_eq_true, ↓reduceIte, exec_failHere] at he
        simp at he

/-- A digit byte is none of the bytes that start other values, and no blank. -/
theorem digit_not_other {b : UInt8} (h : isDigit b = true) :
    isBlank b = false ∧ (b == 110) = false ∧ (b == 116) = false ∧ (b == 102) = false ∧
      (b == 45) = false := by
  simp only [isDigit, Bool.and_eq_true, decide_eq_true_eq, UInt8.le_iff_toNat_le] at h
  have h48 : (48 : UInt8).toNat = 48 := rfl
  have h57 : (57 : UInt8).toNat = 57 := rfl
  rw [h48, h57] at h
  simp only [isBlank, Bool.or_eq_false_iff, beq_eq_false_iff_ne, ne_eq, ← UInt8.toNat_inj]
  refine ⟨⟨⟨⟨?_, ?_⟩, ?_⟩, ?_⟩, ?_, ?_, ?_, ?_⟩ <;> (intro he; simp at he; omega)

/-- A value that starts with a digit is the number read from there. -/
theorem yields_value_digits (ordered : Bool) (fuel : Nat) {c : Cursor} {x : Number}
    {r : List UInt8}
    (hnum : ∀ c', c'.rest = c.rest → c'.depth = c.depth → Yields (number true) c' x r) :
    Yields (value ordered (fuel + 1)) c (.number x) r := by
  obtain ⟨b, hh, hd⟩ := number_head (hnum c rfl rfl)
  obtain ⟨hbl, h110, h116, h102, h45⟩ := digit_not_other hd
  rw [value]
  have hblank := @yields_blank c [] c.rest rfl (by simp)
    (fun b' hb' => by rw [hh] at hb'; cases hb'; exact hbl)
  refine (hblank.bind _).trans fun c₁ h₁ d₁ => ?_
  rw [hh]
  simp only [h110, h116, h102, h45, hd, Bool.false_eq_true, ↓reduceIte]
  exact ((hnum c₁ h₁ d₁).bind _).trans fun c₃ h₃ _ => Leads.refl _ h₃

/-- A value that starts with a minus is the negated number read after it. -/
theorem yields_value_minus (ordered : Bool) (fuel : Nat) {c : Cursor} {x : Number}
    {r₀ r : List UInt8} (h : c.rest = 45 :: r₀)
    (hnum : ∀ c', c'.rest = r₀ → c'.depth = c.depth → Yields (number false) c' x r) :
    Yields (value ordered (fuel + 1)) c (.number x) r := by
  rw [value]
  have hblank := @yields_blank c [] c.rest rfl (by simp)
    (fun b' hb' => by rw [h] at hb'; cases hb'; rfl)
  refine (hblank.bind _).trans fun c₁ h₁ d₁ => ?_
  rw [h, List.head?_cons]
  dsimp only
  rw [if_neg (by decide), if_neg (by decide), if_neg (by decide), if_pos (by decide)]
  refine ((yields_bump (h₁.trans h)).bind _).trans fun c₂ h₂ d₂ => ?_
  exact ((hnum c₂ h₂ (d₂.trans d₁)).bind _).trans fun c₃ h₃ _ => Leads.refl _ h₃

/-- The word `null` is the null value. -/
theorem yields_value_null (ordered : Bool) (fuel : Nat) {c : Cursor} {r : List UInt8}
    (h : c.rest = 110 :: 117 :: 108 :: 108 :: r) : Yields (value ordered (fuel + 1)) c .null r := by
  rw [value]
  have hblank := @yields_blank c [] c.rest rfl (by simp)
    (fun b' hb' => by rw [h] at hb'; cases hb'; rfl)
  refine (hblank.bind _).trans fun c₁ h₁ _ => ?_
  rw [h, List.head?_cons]
  dsimp only
  rw [if_pos (by decide)]
  refine ((yields_bump (h₁.trans h)).bind _).trans fun c₂ h₂ _ => ?_
  exact ((yields_word [117, 108, 108] h₂).bind _).trans fun c₃ h₃ _ => Leads.refl _ h₃

/-- The decimal digits of an integer in range read as a number, the same wherever they
stand. -/
theorem yields_number_toDigits (positive : Bool) {n : Nat} (hn : n ≤ u64Max) {r : List UInt8}
    (hr : EndsNumber r) :
    ∃ x, ∀ {c : Cursor}, c.rest = (Nat.toDigits 10 n).flatMap String.utf8EncodeChar ++ r →
      Yields (number positive) c x r := by
  obtain ⟨x, hx⟩ := yields_afterInteger_end positive n
  exact ⟨x, fun h => (leads_number_toDigits positive hn h hr.endsDigits).trans
    fun _ h' _ => h' ▸ hx (h' ▸ hr)⟩

/-- The text of every number reads back as a value: a number, or `null` for a double that
is not finite. -/
theorem yields_value_text (ordered : Bool) (x : Number) {r : List UInt8} (hr : EndsNumber r) :
    ∃ v, (v = .null ∨ ∃ m, v = .number m) ∧
      ∀ {fuel : Nat} {c : Cursor}, c.rest = x.text.toList.flatMap String.utf8EncodeChar ++ r →
        Yields (value ordered (fuel + 1)) c v r := by
  cases x with
  | nat u =>
    have hu : u.toNat ≤ u64Max := by have := u.toNat_lt; simp only [u64Max, Nat.pow_eq]; omega
    obtain ⟨m, hm⟩ := yields_number_toDigits true hu hr
    refine ⟨.number m, .inr ⟨m, rfl⟩, fun h => yields_value_digits ordered _ fun c' h' _ =>
      hm (by rw [h', h]; simp [Number.text])⟩
  | neg i =>
    have hlt := i.toInt_lt
    have hle := i.le_toInt
    cases hi : i.toInt with
    | ofNat m =>
      have hm : m ≤ u64Max := by
        rw [hi, Int.ofNat_eq_natCast] at hlt
        simp only [u64Max, Nat.pow_eq]
        omega
      obtain ⟨y, hy⟩ := yields_number_toDigits true hm hr
      refine ⟨.number y, .inr ⟨y, rfl⟩, fun h => yields_value_digits ordered _ fun c' h' _ =>
        hy (by rw [h', h]; simp [Number.text, hi, Int.repr])⟩
    | negSucc m =>
      have hm : m + 1 ≤ u64Max := by
        rw [hi] at hle
        simp only [u64Max, Nat.pow_eq]
        omega
      obtain ⟨y, hy⟩ := yields_number_toDigits false hm hr
      refine ⟨.number y, .inr ⟨y, rfl⟩, fun h => yields_value_minus ordered _ ?_
        fun c' h' _ => hy h'⟩
      rw [h]
      simp [Number.text, hi, Int.repr]
      rfl
  | float f =>
    have htext : (Number.float f).text = floatLayout.render f := rfl
    rw [htext]
    cases hb : Decimal.Binary.ofBits f.toBits with
    | finite b =>
      obtain ⟨hD, hz, hlow, hprod⟩ := Decimal.Binary.shortest_readable hb
      have hrender : floatLayout.render f = if b.negative then "-" ++ floatLayout.renderDigits
          b.shortest else floatLayout.renderDigits b.shortest := by
        rw [Decimal.Layout.render, hb]
      rw [hrender]
      cases hneg : b.negative with
      | true =>
        obtain ⟨y, hy⟩ := yields_number_renderDigits false _ hD hz hlow hprod hr
        refine ⟨.number (.float y), .inr ⟨_, rfl⟩, fun h => yields_value_minus ordered _ ?_
          fun c' h' _ => hy h'⟩
        rw [h, if_pos rfl, String.toList_append]
        rfl
      | false =>
        obtain ⟨y, hy⟩ := yields_number_renderDigits true _ hD hz hlow hprod hr
        exact ⟨.number (.float y), .inr ⟨_, rfl⟩, fun h => yields_value_digits ordered _
          fun c' h' _ => hy (h'.trans (by rw [h, if_neg (by decide)]))⟩
    | infinite _ =>
      have hrender : floatLayout.render f = "null" := by rw [Decimal.Layout.render, hb]; rfl
      exact ⟨.null, .inl rfl, fun h => yields_value_null ordered _ (by rw [h, hrender]; rfl)⟩
    | nan =>
      have hrender : floatLayout.render f = "null" := by rw [Decimal.Layout.render, hb]; rfl
      exact ⟨.null, .inl rfl, fun h => yields_value_null ordered _ (by rw [h, hrender]; rfl)⟩

end Scan
end FeedClient.Json
