import FeedClient.Json.Writer
import FeedClient.Proofs.Json.Run

/-!
# Reading back written strings

The writer puts a string between quotes, each character spelled by `escapeChar`: the quote,
the backslash and the usual control characters as two-letter escapes, the other control
characters as `\u00xx`, everything else as its UTF-8 bytes. The reader's `Scan.string`
collects the bytes up to the closing quote, undoing each escape, and decodes them as UTF-8.

A string's content is read in rounds, one per plain byte and one per escape, each taking one
unit of the loop's fuel; the fuel the reader starts with, one more than the bytes left, is
always enough. Reading the escaped text of any string gives that string back and stops just
past its closing quote.

Main results:

- Theorem `ByteArray.toList_eq`: the bytes of a byte array, in order.
- Theorem `String.toUTF8_toList`: the UTF-8 bytes of a string are those of its characters.
- Theorem `quoteString_bytes`: a written string is its escaped characters between quotes.
- Theorem `Scan.yields_string`: the escaped characters of `s` and a closing quote read as `s`.
-/

namespace FeedClient

/-! ## Bytes of a string -/

/-- The loop that lists a byte array from an index puts the rest of the array after what it
gathered. -/
theorem ByteArray.toList_loop (b : ByteArray) (i : Nat) (r : List UInt8) :
    ByteArray.toList.loop b i r = r.reverse ++ b.data.toList.drop i := by
  induction i, r using ByteArray.toList.loop.induct b with
  | case1 i r h ih =>
    rw [ByteArray.toList.loop, if_pos h, ih]
    have hi : i < b.data.toList.length := by rw [Array.length_toList]; exact h
    have hget : b.get! i = b.data.toList[i] := by
      rcases b with ⟨bs⟩
      rw [Array.getElem_toList]
      exact getElem!_pos bs i (by rw [← Array.length_toList]; exact hi)
    rw [hget, List.reverse_cons, List.append_assoc, List.singleton_append,
      List.getElem_cons_drop]
  | case2 i r h =>
    rw [ByteArray.toList.loop, if_neg h]
    have : b.data.toList.length ≤ i := by rw [Array.length_toList]; exact Nat.le_of_not_lt h
    rw [List.drop_eq_nil_of_le this, List.append_nil]

/-- The bytes of a byte array, in order. -/
theorem ByteArray.toList_eq (b : ByteArray) : b.toList = b.data.toList := by
  rw [ByteArray.toList, ByteArray.toList_loop]
  rfl

/-- The UTF-8 bytes of a string are those of its characters, one after the other. -/
theorem String.toUTF8_toList (s : String) :
    s.toUTF8.toList = s.toList.flatMap String.utf8EncodeChar := by
  rw [String.toUTF8_eq_toByteArray, ← String.utf8Encode_toList, ByteArray.toList_eq]
  induction s.toList with
  | nil => simp
  | cons c l ih =>
    rw [List.utf8Encode_cons, ByteArray.toList_data_append, ih, List.utf8Encode_singleton]
    simp

/-- The UTF-8 bytes of a string decode to it. -/
theorem String.fromUTF8?_encode (s : String) :
    String.fromUTF8? (ByteArray.mk (s.toList.flatMap String.utf8EncodeChar).toArray) = some s := by
  have hb : ByteArray.mk (s.toList.flatMap String.utf8EncodeChar).toArray = s.toByteArray := by
    rw [← String.toUTF8_toList, String.toUTF8_eq_toByteArray, ByteArray.toList_eq]
  rw [hb]
  unfold String.fromUTF8?
  rw [dif_pos s.isValidUTF8]
  rfl

namespace Json

/-! ## What the writer puts between the quotes -/

/-- The UTF-8 bytes of the escaped spelling of a character. -/
def escapedBytes (c : Char) : List UInt8 := (escapeChar c).toList.flatMap String.utf8EncodeChar

/-- A written string is its escaped characters between two quotes. -/
theorem quoteString_bytes (s : String) :
    (quoteString s).toList.flatMap String.utf8EncodeChar =
      34 :: (s.toList.flatMap escapedBytes ++ [34]) := by
  simp only [quoteString, String.toList_append, String.toList_join, List.flatMap_append,
    List.flatMap_map, List.flatMap_assoc]
  have hquote : List.flatMap String.utf8EncodeChar "\"".toList = [34] := by decide
  rw [hquote]
  rfl

/-- A character from the space up, other than the quote and the backslash, is written as
UTF-8 bytes that the reader takes as they are: none is a control byte, a quote or a
backslash. -/
theorem utf8EncodeChar_plain (ch : Char) (h20 : 0x20 ≤ ch.toNat) (h34 : ch ≠ '"')
    (h92 : ch ≠ '\\') : ∀ b ∈ String.utf8EncodeChar ch, 0x20 ≤ b ∧ b ≠ 34 ∧ b ≠ 92 := by
  have h34' : ch.toNat ≠ 34 := fun h => h34 (Char.toNat_inj.mp h)
  have h92' : ch.toNat ≠ 92 := fun h => h92 (Char.toNat_inj.mp h)
  have hv : ch.val.toNat = ch.toNat := Char.toNat_val
  intro b hb
  unfold String.utf8EncodeChar at hb
  simp only [hv] at hb
  simp only [UInt8.le_iff_toNat_le, ne_eq, ← UInt8.toNat_inj, UInt8.toNat_ofNat]
  -- one byte below 0x80, else lead and continuation bytes all from 0x80 up
  repeat' split at hb
  all_goals
    simp only [List.mem_cons, List.not_mem_nil, or_false] at hb
    rcases hb with rfl | rfl | rfl | rfl <;> simp only [UInt8.toNat_ofNat'] <;> omega

/-- Each hex digit the writer uses is one byte, which the reader reads back as its value. -/
theorem hexDigit_bytes : ∀ k < 16,
    String.utf8EncodeChar (hexDigit k) = [UInt8.ofNat (hexDigit k).toNat] ∧
      Scan.hexValue (UInt8.ofNat (hexDigit k).toNat) = some k := by
  decide

namespace Scan

/-! ## Escapes -/

/-- Looking at the cursor yields it and moves nothing. -/
theorem yields_get {c : Cursor} : Yields get c c c.rest := ⟨c, rfl, rfl, rfl⟩

/-- Measuring the fuel yields one more than the bytes left. -/
theorem yields_fuel {c : Cursor} : Yields fuel c (c.rest.length + 1) c.rest := ⟨c, rfl, rfl, rfl⟩

/-- Four hex digits read as their value. -/
theorem yields_hexQuad {c : Cursor} {a b d e : UInt8} {r : List UInt8} {w x y z : Nat}
    (h : c.rest = a :: b :: d :: e :: r) (ha : hexValue a = some w) (hb : hexValue b = some x)
    (hd : hexValue d = some y) (he : hexValue e = some z) :
    Yields hexQuad c (((w * 16 + x) * 16 + y) * 16 + z) r := by
  unfold hexQuad
  refine (yields_get.bind _).trans fun c₁ h₁ _ => ?_
  simp only [h]
  refine ((yields_bump (h₁.trans h)).bind _).trans fun c₂ h₂ _ => ?_
  refine ((yields_bump h₂).bind _).trans fun c₃ h₃ _ => ?_
  refine ((yields_bump h₃).bind _).trans fun c₄ h₄ _ => ?_
  refine ((yields_bump h₄).bind _).trans fun c₅ h₅ _ => ?_
  simp only [ha, hb, hd, he]
  exact Leads.refl _ h₅

/-- A `\u` escape of a code point below the surrogates stands for its UTF-8 bytes. -/
theorem yields_unicodeEscape_of_lt {c : Cursor} {n : Nat} {r : List UInt8}
    (hq : Yields hexQuad c n r) (hn : n < 0xD800) : Yields unicodeEscape c (utf8 n) r := by
  unfold unicodeEscape
  refine (hq.bind _).trans fun c' h' _ => ?_
  have hlow : isLowSurrogate n = false := by simp [isLowSurrogate]; omega
  have hhigh : isHighSurrogate n = false := by simp [isHighSurrogate]; omega
  simp only [hlow, hhigh, Bool.not_false, Bool.false_eq_true, ↓reduceIte]
  exact Leads.refl _ h'

/-- The escapes of one letter after the backslash, and the byte each stands for. -/
theorem yields_escape_short {c : Cursor} {e d : UInt8} {r : List UInt8} (h : c.rest = e :: r)
    (hd : (e, d) ∈ [(34, 34), (92, 92), (98, 8), (116, 9), (110, 10), (102, 12), (114, 13)]) :
    Yields escape c [d] r := by
  unfold escape
  refine ((yields_next h).bind _).trans fun c' h' _ => ?_
  simp only [List.mem_cons, Prod.mk.injEq, List.not_mem_nil, or_false] at hd
  rcases hd with ⟨rfl, rfl⟩ | ⟨rfl, rfl⟩ | ⟨rfl, rfl⟩ | ⟨rfl, rfl⟩ | ⟨rfl, rfl⟩ | ⟨rfl, rfl⟩ |
    ⟨rfl, rfl⟩ <;> exact Leads.refl _ h'

/-- After a backslash, a `u` starts a `\u` escape, read as the rest of that escape reads. -/
theorem yields_escape_unicode {c : Cursor} {r r' : List UInt8} {bs : List UInt8}
    (h : c.rest = 117 :: r)
    (hu : ∀ c', c'.rest = r → c'.depth = c.depth → Yields unicodeEscape c' bs r') :
    Yields escape c bs r' := by
  unfold escape
  exact ((yields_next h).bind _).trans hu

/-! ## The rounds of the string loop -/

/-- A plain byte is taken as it is, in one round. -/
theorem leads_stringLoop_plain {c : Cursor} {b : UInt8} {r : List UInt8} {fuel : Nat}
    {acc : List UInt8} (h : c.rest = b :: r) (hb : 0x20 ≤ b) (h34 : b ≠ 34) (h92 : b ≠ 92) :
    Leads (stringLoop (fuel + 1) acc) (stringLoop fuel (b :: acc)) c r := by
  have hh : c.rest.head? = some b := by rw [h]; rfl
  rw [stringLoop]
  refine (yields_peek.bind _).trans fun c₁ h₁ _ => ?_
  rw [hh]
  split
  next heq => cases heq
  next heq => exact absurd (Option.some.inj heq) h34
  next heq => exact absurd (Option.some.inj heq) h92
  next heq =>
    cases heq
    refine ((yields_bump (h₁.trans h)).bind _).trans fun c₂ h₂ _ => ?_
    have hlt : ¬ b < 0x20 := by simpa using hb
    simpa [hlt] using Leads.refl _ h₂

/-- An escape is one round, which takes the bytes it stands for. -/
theorem leads_stringLoop_escape {c : Cursor} {r₀ r bs : List UInt8} {fuel : Nat}
    {acc : List UInt8} (h : c.rest = 92 :: r₀)
    (hesc : ∀ c', c'.rest = r₀ → c'.depth = c.depth → Yields escape c' bs r) :
    Leads (stringLoop (fuel + 1) acc) (stringLoop fuel (bs.reverse ++ acc)) c r := by
  have hh : c.rest.head? = some 92 := by rw [h]; rfl
  rw [stringLoop]
  refine (yields_peek.bind _).trans fun c₁ h₁ d₁ => ?_
  rw [hh]
  refine ((yields_bump (h₁.trans h)).bind _).trans fun c₂ h₂ d₂ => ?_
  exact ((hesc c₂ h₂ (d₂.trans d₁)).bind _).trans fun c₃ h₃ _ => Leads.refl _ h₃

/-- The closing quote ends the loop with the bytes taken, in order. -/
theorem yields_stringLoop_close {c : Cursor} {r : List UInt8} {fuel : Nat} {acc : List UInt8}
    (h : c.rest = 34 :: r) : Yields (stringLoop (fuel + 1) acc) c acc.reverse r := by
  have hh : c.rest.head? = some 34 := by rw [h]; rfl
  rw [stringLoop]
  refine (yields_peek.bind _).trans fun c₁ h₁ _ => ?_
  rw [hh]
  exact ((yields_bump (h₁.trans h)).bind _).trans fun c₂ h₂ _ => Leads.refl _ h₂

/-- Plain bytes take one round each. -/
theorem leads_stringLoop_plains (bs : List UInt8) (hbs : ∀ b ∈ bs, 0x20 ≤ b ∧ b ≠ 34 ∧ b ≠ 92)
    {c : Cursor} {r : List UInt8} {fuel : Nat} {acc : List UInt8} (h : c.rest = bs ++ r)
    (hf : bs.length ≤ fuel) :
    Leads (stringLoop fuel acc) (stringLoop (fuel - bs.length) (bs.reverse ++ acc)) c r := by
  induction bs generalizing c fuel acc with
  | nil => exact Leads.refl _ h
  | cons b bs ih =>
    obtain ⟨f, rfl⟩ : ∃ f, fuel = f + 1 := ⟨fuel - 1, by simp at hf; omega⟩
    obtain ⟨hb, h34, h92⟩ := hbs b (by simp)
    have hstep : Leads (stringLoop (f + 1) acc) (stringLoop f (b :: acc)) c (bs ++ r) :=
      leads_stringLoop_plain h hb h34 h92
    refine hstep.trans fun c' h' _ => ?_
    have hrest : Leads (stringLoop f (b :: acc)) (stringLoop (f - bs.length) (bs.reverse ++ b :: acc))
        c' r := ih (fun b' hb' => hbs b' (by simp [hb'])) h' (by simp at hf; omega)
    simpa using hrest

/-- The two-letter escapes of one character, as `leads_stringLoop_char` states them. -/
theorem leads_short_escape {e d : UInt8} {bs : List UInt8} (hbs : bs = [92, e])
    (hd : (e, d) ∈ [(34, 34), (92, 92), (98, 8), (116, 9), (110, 10), (102, 12), (114, 13)]) :
    ∃ k, k ≤ bs.length ∧ ∀ {c : Cursor} {r : List UInt8} {fuel : Nat} {acc : List UInt8},
      c.rest = bs ++ r → k ≤ fuel →
      Leads (stringLoop fuel acc) (stringLoop (fuel - k) ([d].reverse ++ acc)) c r := by
  subst hbs
  refine ⟨1, by simp, fun {c r fuel acc} h hf => ?_⟩
  obtain ⟨f, rfl⟩ : ∃ f, fuel = f + 1 := ⟨fuel - 1, by omega⟩
  exact leads_stringLoop_escape h fun c' h' _ => yields_escape_short h' hd

/-- The escaped spelling of a character takes its UTF-8 bytes, in some number of rounds no
larger than the bytes of the spelling. -/
theorem leads_stringLoop_char (ch : Char) :
    ∃ k, k ≤ (escapedBytes ch).length ∧
      ∀ {c : Cursor} {r : List UInt8} {fuel : Nat} {acc : List UInt8},
      c.rest = escapedBytes ch ++ r → k ≤ fuel →
      Leads (stringLoop fuel acc)
        (stringLoop (fuel - k) ((String.utf8EncodeChar ch).reverse ++ acc)) c r := by
  unfold escapedBytes escapeChar
  split
  · exact leads_short_escape (e := 34) (by decide) (by decide)
  · exact leads_short_escape (e := 92) (by decide) (by decide)
  · exact leads_short_escape (e := 98) (by decide) (by decide)
  · exact leads_short_escape (e := 116) (by decide) (by decide)
  · exact leads_short_escape (e := 110) (by decide) (by decide)
  · exact leads_short_escape (e := 102) (by decide) (by decide)
  · exact leads_short_escape (e := 114) (by decide) (by decide)
  · rename_i h34 h92 _ _ _ _ _
    split
    · -- another control character: `\u00` and two hex digits, one round
      rename_i hlt
      obtain ⟨hhi, hvhi⟩ := hexDigit_bytes (ch.toNat / 16) (by omega)
      obtain ⟨hlo, hvlo⟩ := hexDigit_bytes (ch.toNat % 16) (by omega)
      have hbytes : (String.ofList ['\\', 'u', '0', '0', hexDigit (ch.toNat / 16),
          hexDigit (ch.toNat % 16)]).toList.flatMap String.utf8EncodeChar =
          [92, 117, 48, 48, UInt8.ofNat (hexDigit (ch.toNat / 16)).toNat,
            UInt8.ofNat (hexDigit (ch.toNat % 16)).toNat] := by
        simp only [String.toList_ofList, List.flatMap_cons, List.flatMap_nil, hhi, hlo]
        rfl
      rw [hbytes]
      refine ⟨1, by simp, fun {c r fuel acc} h hf => ?_⟩
      obtain ⟨f, rfl⟩ : ∃ f, fuel = f + 1 := ⟨fuel - 1, by omega⟩
      refine leads_stringLoop_escape h fun c' h' _ =>
        yields_escape_unicode h' fun c'' h'' _ => ?_
      have hq := yields_hexQuad (w := 0) (x := 0) h'' (by decide) (by decide) hvhi hvlo
      have hn : ((0 * 16 + 0) * 16 + ch.toNat / 16) * 16 + ch.toNat % 16 = ch.toNat := by omega
      rw [hn] at hq
      have hu := yields_unicodeEscape_of_lt hq (by omega)
      simpa [utf8] using hu
    · -- any other character: its own bytes, one round each
      rename_i hlt
      have hplain := utf8EncodeChar_plain ch (by omega) h34 h92
      have hbytes : ch.toString.toList.flatMap String.utf8EncodeChar =
          String.utf8EncodeChar ch := by
        simp [Char.toString]
      rw [hbytes]
      exact ⟨_, Nat.le_refl _, fun h hf => leads_stringLoop_plains _ hplain h hf⟩

/-- The escaped spellings of characters take their UTF-8 bytes, in at most as many rounds as
they have bytes. -/
theorem leads_stringLoop_chars (cs : List Char) :
    ∃ k, k ≤ (cs.flatMap escapedBytes).length ∧
      ∀ {c : Cursor} {r : List UInt8} {fuel : Nat} {acc : List UInt8},
      c.rest = cs.flatMap escapedBytes ++ r → k ≤ fuel →
      Leads (stringLoop fuel acc)
        (stringLoop (fuel - k) ((cs.flatMap String.utf8EncodeChar).reverse ++ acc)) c r := by
  induction cs with
  | nil => exact ⟨0, by simp, fun h _ => by simpa using Leads.refl _ h⟩
  | cons ch cs ih =>
    obtain ⟨k₁, hk₁, h₁⟩ := leads_stringLoop_char ch
    obtain ⟨k₂, hk₂, h₂⟩ := ih
    refine ⟨k₁ + k₂, by rw [List.flatMap_cons, List.length_append]; omega,
      fun {c r fuel acc} h hf => ?_⟩
    rw [List.flatMap_cons, List.append_assoc] at h
    refine (h₁ h (by omega)).trans fun c' h' _ => ?_
    have hrest := @h₂ c' r (fuel - k₁) ((String.utf8EncodeChar ch).reverse ++ acc) h' (by omega)
    rw [show fuel - k₁ - k₂ = fuel - (k₁ + k₂) by omega] at hrest
    simpa using hrest

/-! ## A whole string -/

/-- After the opening quote, the escaped characters of `s` and the closing quote read as
`s`, and the reading stops just past the quote. -/
theorem yields_string (s : String) {c : Cursor} {r : List UInt8}
    (h : c.rest = s.toList.flatMap escapedBytes ++ 34 :: r) : Yields string c s r := by
  unfold string
  obtain ⟨k, hk, hloop⟩ := leads_stringLoop_chars s.toList
  have hlen : c.rest.length = (s.toList.flatMap escapedBytes).length + 1 + r.length := by
    rw [h, List.length_append, List.length_cons]; omega
  refine (yields_fuel.bind _).trans fun c₁ h₁ _ => ?_
  refine ((@hloop c₁ (34 :: r) (c.rest.length + 1) [] (h₁.trans h) (by omega)).bind _).trans
    fun c₂ h₂ _ => ?_
  obtain ⟨f, hf⟩ : ∃ f, c.rest.length + 1 - k = f + 1 := ⟨c.rest.length - k, by omega⟩
  rw [hf]
  refine ((yields_stringLoop_close h₂).bind _).trans fun c₃ h₃ _ => ?_
  simp only [List.append_nil, List.reverse_reverse, String.fromUTF8?_encode]
  exact Leads.refl _ h₃

end Scan
end Json
end FeedClient
