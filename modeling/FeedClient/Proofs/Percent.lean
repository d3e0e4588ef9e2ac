import Mathlib
import FeedClient.Http.Body
import FeedClient.Proofs.Json.Strings

/-!
# Reading percent-encoded text back

`Percent.encode` writes each byte of a text's UTF-8 form either as the unreserved character it
is or as `%` and two hex digits. `Percent.decodeText` undoes this: it reads the bytes back and
decodes them as UTF-8. Encoded text is made of `%` and unreserved characters only, so none of
the characters that delimit a form body or a path (`&`, `=`, `/`, `?`, `,`) can stand in it.

A form body is its fields `key=value` joined by `&`. `Http.readForm` reads such a body the
plain way: the empty body is no field; any other is split on `&`, each piece at its one `=`,
and both sides are decoded. Since the separators never occur inside an encoded key or value,
the splits fall exactly between the fields, and the body gives back its fields.

Main results:

- Theorem `Percent.decodeText_encode`: decoding encoded text gives the text back.
- Theorem `Percent.not_mem_encode`: a character that encoding never writes is absent from
  every encoded text.
- Theorem `Http.readForm_formText`: a form body reads back as its fields.
- Theorem `Http.form_body_determines_fields`: a form body is sent as form content, reads back
  as its fields, and so belongs to one list of fields only.
-/

namespace FeedClient
namespace Percent

/-- Reads percent-encoded text back into the text whose UTF-8 bytes it spells. -/
def decodeText (cs : List Char) : Option String :=
  (decodeChars cs).bind fun bs => String.fromUTF8? ⟨bs.toArray⟩

/-- The characters encoded text is made of: `%` and the unreserved ASCII characters, which
include the hex digits. -/
def isEncodedChar (c : Char) : Bool :=
  c == '%' || (decide (c.toNat < 128) && isUnreserved c.toNat.toUInt8)

/-- An ASCII code is the code of the character it makes. -/
theorem toNat_ofNat_of_lt {n : Nat} (h : n < 128) : (Char.ofNat n).toNat = n := by
  have hv : n.isValidChar := Or.inl (by omega)
  simp [Char.ofNat, hv, Char.ofNatAux, Char.toNat]

/-- Every hex digit written reads back as its value. -/
theorem hexValue?_hexUpper : ∀ n < 16, hexValue? (hexUpper n) = some n := by decide

/-- Every hex digit written is a character of encoded text. -/
theorem isEncodedChar_hexUpper : ∀ n < 16, isEncodedChar (hexUpper n) = true := by decide

/-- Unreserved bytes are ASCII. -/
theorem isUnreserved_toNat_lt {b : UInt8} (h : isUnreserved b = true) : b.toNat < 128 := by
  simp only [isUnreserved, Bool.or_eq_true, Bool.and_eq_true, decide_eq_true_eq, beq_iff_eq,
    UInt8.le_iff_toNat_le] at h
  have : b.toNat < 256 := b.toNat_lt
  rcases h with (((((⟨-, h⟩ | ⟨-, h⟩) | ⟨-, h⟩) | h) | h) | h) | h <;> simp_all <;> omega

/-! ## Decoding undoes encoding -/

/-- The encoded form of one byte reads back as that byte, whatever follows it. -/
theorem decodeChars_encodeByte (b : UInt8) (rest : List Char) :
    decodeChars (encodeByte b ++ rest) = (decodeChars rest).map (b :: ·) := by
  unfold encodeByte
  split
  · -- an unreserved byte is its own ASCII character, and that character is not `%`
    rename_i hu
    have hlt := isUnreserved_toNat_lt hu
    have hc := toNat_ofNat_of_lt hlt
    have hpct : Char.ofNat b.toNat ≠ '%' := by
      intro h
      have h37 : b = 37 := by
        apply UInt8.toNat_inj.mp
        rw [← hc, h]
        rfl
      subst h37
      revert hu
      decide
    rw [List.singleton_append, decodeChars.eq_3 _ _ (fun _ _ _ h _ => hpct h),
      if_neg (not_or.mpr ⟨hpct, by rw [hc]; omega⟩), hc]
    simp
  · -- any other byte is `%` and its two hex digits
    have hb := b.toNat_lt
    rw [List.cons_append, List.cons_append, List.cons_append, List.nil_append, decodeChars.eq_2,
      hexValue?_hexUpper _ (by omega), hexValue?_hexUpper _ (by omega)]
    have hbyte : (b.toNat / 16 * 16 + b.toNat % 16).toUInt8 = b := by
      rw [show b.toNat / 16 * 16 + b.toNat % 16 = b.toNat by omega]
      simp
    cases decodeChars rest <;> simp [hbyte]

/-- Encoded bytes decode back to themselves. -/
theorem decodeChars_encodeBytes (bs : List UInt8) :
    decodeChars (bs.flatMap encodeByte) = some bs := by
  induction bs with
  | nil => rfl
  | cons b bs ih => rw [List.flatMap_cons, decodeChars_encodeByte, ih]; rfl

/-- Decoding encoded text gives the text back. -/
theorem decodeText_encode (s : String) : decodeText (encode s).toList = some s := by
  rw [decodeText, encode, encodeBytes, String.toList_ofList, decodeChars_encodeBytes,
    Option.bind_some, String.toUTF8_toList, String.fromUTF8?_encode]

/-! ## What encoded text is made of -/

/-- The encoding of a byte is made of characters of encoded text. -/
theorem isEncodedChar_of_mem_encodeByte {b : UInt8} {c : Char} (h : c ∈ encodeByte b) :
    isEncodedChar c = true := by
  unfold encodeByte at h
  split at h
  · rename_i hu
    rw [List.mem_singleton] at h
    subst h
    have hlt := isUnreserved_toNat_lt hu
    simp [isEncodedChar, toNat_ofNat_of_lt hlt, hlt, hu]
  · have hb := b.toNat_lt
    simp only [List.mem_cons, List.not_mem_nil, or_false] at h
    rcases h with rfl | rfl | rfl
    · rfl
    · exact isEncodedChar_hexUpper _ (by omega)
    · exact isEncodedChar_hexUpper _ (by omega)

/-- Encoded text holds only `%` and unreserved characters. -/
theorem isEncodedChar_of_mem_encode {s : String} {c : Char} (h : c ∈ (encode s).toList) :
    isEncodedChar c = true := by
  rw [encode, encodeBytes, String.toList_ofList, List.mem_flatMap] at h
  obtain ⟨b, -, hb⟩ := h
  exact isEncodedChar_of_mem_encodeByte hb

/-- A character that encoding never writes is absent from every encoded text. -/
theorem not_mem_encode {s : String} {d : Char} (hd : isEncodedChar d = false) :
    d ∉ (encode s).toList := fun h => by
  rw [isEncodedChar_of_mem_encode h] at hd
  cases hd

end Percent

namespace Http

/-! ## Form bodies -/

/-- Reads one `key=value` field back: it must hold exactly one `=`, and both sides are
percent-decoded. -/
def readField (piece : List Char) : Option (String × String) :=
  match piece.splitOn '=' with
  | [k, v] => do pure (← Percent.decodeText k, ← Percent.decodeText v)
  | _ => none

/-- Reads form fields back from a body: the empty body holds no field, any other is split on
`&` into fields. -/
def readForm (body : List UInt8) : Option (List (String × String)) := do
  let text ← String.fromUTF8? ⟨body.toArray⟩
  if text.isEmpty then pure [] else (text.toList.splitOn '&').mapM readField

/-- The characters of one written field. -/
def fieldChars (f : String × String) : List Char :=
  (Percent.encode f.1).toList ++ '=' :: (Percent.encode f.2).toList

/-- Form text is its fields joined by ampersands. -/
theorem formText_toList (fields : List (String × String)) :
    (formText fields).toList = ['&'].intercalate (fields.map fieldChars) := by
  rw [formText, String.toList_intercalate, List.map_map]
  congr 1
  exact List.map_congr_left fun f _ => by simp [fieldChars]

/-- A written field holds no ampersand. -/
theorem amp_not_mem_fieldChars (f : String × String) : '&' ∉ fieldChars f := by
  simp only [fieldChars, List.mem_append, List.mem_cons, not_or]
  exact ⟨Percent.not_mem_encode (by decide), by decide, Percent.not_mem_encode (by decide)⟩

/-- A written field reads back as itself. -/
theorem readField_fieldChars (f : String × String) : readField (fieldChars f) = some f := by
  -- the one `=` is the one written between key and value
  have hsplit : (fieldChars f).splitOn '=' =
      [(Percent.encode f.1).toList, (Percent.encode f.2).toList] := by
    have : (['='].intercalate [(Percent.encode f.1).toList, (Percent.encode f.2).toList]).splitOn
        '=' = [(Percent.encode f.1).toList, (Percent.encode f.2).toList] :=
      List.splitOn_intercalate '='
        (by
          intro l hl
          simp only [List.mem_cons, List.not_mem_nil, or_false] at hl
          rcases hl with rfl | rfl <;> exact Percent.not_mem_encode (by decide))
        (by simp)
    simpa [fieldChars] using this
  rw [readField, hsplit]
  simp [Percent.decodeText_encode]

/-- Written fields read back, all of them, as themselves. -/
theorem mapM_readField (fields : List (String × String)) :
    (fields.map fieldChars).mapM readField = some fields := by
  induction fields with
  | nil => rfl
  | cons f fs ih => simp [readField_fieldChars, ih]

/-- A form body reads back as its fields. -/
theorem readForm_formText (fields : List (String × String)) :
    readForm (formText fields).toUTF8.toList = some fields := by
  have htext : String.fromUTF8? ⟨(formText fields).toUTF8.toList.toArray⟩ =
      some (formText fields) := by
    rw [String.toUTF8_toList, String.fromUTF8?_encode]
  rw [readForm, htext, Option.bind_eq_bind, Option.bind_some]
  cases fields with
  | nil => rfl
  | cons f fs =>
    -- a field always writes its `=`, so the body of a field is never empty
    have hne : (formText (f :: fs)).isEmpty = false := by
      rw [Bool.eq_false_iff]
      intro h
      rw [String.isEmpty_iff] at h
      have := congrArg String.toList h
      rw [formText_toList] at this
      cases fs <;> simp [fieldChars] at this
    rw [hne, if_neg (by simp), formText_toList,
      List.splitOn_intercalate '&' (fun l hl => by
        obtain ⟨g, -, rfl⟩ := List.mem_map.mp hl
        exact amp_not_mem_fieldChars g) (by simp),
      mapM_readField]

/-- Form fields are sent as form content, in a body that splitting on `&` and at each `=`, and
decoding both sides, reads back as the same fields (the empty body as no field); so two lists
of fields never share a body, whatever their keys and values hold. -/
theorem form_body_determines_fields (fields : List (String × String)) :
    (∃ body, (Body.form fields).encode = some (formContentType, body) ∧
      readForm body = some fields) ∧
    ∀ other, (Body.form other).encode = (Body.form fields).encode → other = fields := by
  refine ⟨⟨_, rfl, readForm_formText fields⟩, fun other h => ?_⟩
  have hbody : (formText other).toUTF8.toList = (formText fields).toUTF8.toList := by
    simpa [Body.encode] using h
  have hread := readForm_formText other
  rw [hbody, readForm_formText] at hread
  exact (Option.some.inj hread).symm

end Http
end FeedClient
