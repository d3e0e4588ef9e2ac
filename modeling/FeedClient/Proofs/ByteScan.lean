import Mathlib
import FeedClient.Proofs.Redaction
import FeedClient.Proofs.Json.Strings

/-!
# The marker passes over bytes

`maskAfter` states a marker pass over characters. The pass as a program runs over the UTF-8
bytes of its text: it searches the bytes for the marker's, ASCII case ignored, and slices the
text at byte offsets, which fails when an offset falls inside a character's encoding. This
module gives that loop over bytes (`findIgnoringCase`, `sliceAt`, `round`, `runRounds`) and shows
that for an ASCII marker it never slices inside a character and writes what `maskAfter`
writes.

The bridge is that an ASCII byte in a text's encoding is a whole character: a byte match of an
ASCII marker covers ASCII bytes only, so it starts and ends on character boundaries and is a
character match (`occurs_of_matchesAt`, `matchesAt_of_occurs`). The least byte match is then the
least character match, and each cut of a round falls after a whole prefix of characters.

Main results:

- Theorem `Redact.findIgnoringCase_eq_some_iff`: the search returns the least offset of a match.
- Theorem `Redact.round_of_some`: at a match a round writes what the masking pass writes there.
- Theorem `Redact.runRounds_eq_maskAfter`: the loop ends within a round per byte and one more,
  with what `maskAfter` writes.
- Theorem `Redact.marker_loop_cuts_on_boundaries`: the same for the two markers of `secrets`,
  with the search, the match and each round's consumption spelled out.
-/

namespace FeedClient
namespace Redact

/-! ## The text as bytes -/

/-- The UTF-8 bytes of a text. -/
def utf8 (cs : List Char) : List UInt8 := cs.flatMap String.utf8EncodeChar

/-- The empty text has no bytes. -/
@[simp] theorem utf8_nil : utf8 [] = [] := rfl

/-- A text's bytes are its first character's, then the rest's. -/
@[simp] theorem utf8_cons (c : Char) (cs : List Char) :
    utf8 (c :: cs) = String.utf8EncodeChar c ++ utf8 cs := List.flatMap_cons

/-- Two texts one after the other have their bytes one after the other. -/
@[simp] theorem utf8_append (a b : List Char) : utf8 (a ++ b) = utf8 a ++ utf8 b :=
  List.flatMap_append

/-- A byte below 128 in a character's encoding is the whole encoding: the character is that
ASCII character. -/
theorem utf8EncodeChar_of_mem_ascii {c : Char} {b : UInt8} (hb : b ∈ String.utf8EncodeChar c)
    (h : b.toNat < 128) : String.utf8EncodeChar c = [b] ∧ c.toNat = b.toNat := by
  have hv : c.val.toNat = c.toNat := Char.toNat_val
  unfold String.utf8EncodeChar at hb ⊢
  dsimp only at hb ⊢
  rw [hv] at hb ⊢
  split_ifs at hb ⊢ with h1
  · simp only [List.mem_singleton] at hb
    subst hb
    refine ⟨rfl, ?_⟩
    simp
    omega
  -- every byte of a longer encoding is a lead or continuation byte, from 0x80 up
  all_goals
    exfalso
    simp only [List.mem_cons, List.not_mem_nil, or_false] at hb
    rcases hb with rfl | rfl | rfl | rfl <;> simp only [UInt8.toNat_ofNat'] at h <;> omega

/-! ## Searching bytes, ASCII case ignored -/

/-- The ASCII lowercase of a byte: `A` to `Z` become `a` to `z`, every other byte stays. -/
def asciiLower (b : UInt8) : UInt8 := if 65 ≤ b ∧ b ≤ 90 then b + 32 else b

/-- Two byte strings equal but for ASCII case: the same length, and the bytes pairwise equal
once lowercased. -/
def eqIgnoreAsciiCase (xs ys : List UInt8) : Bool :=
  xs.length == ys.length && (xs.zip ys).all fun p => asciiLower p.1 == asciiLower p.2

/-- The least byte offset at which `needle` occurs in `haystack`, ASCII case ignored: an
empty needle occurs at 0, a needle longer than the haystack nowhere. -/
def findIgnoringCase (haystack needle : List UInt8) : Option Nat :=
  if needle.isEmpty then some 0
  else if haystack.length < needle.length then none
  else (List.range (haystack.length - needle.length + 1)).find? fun i =>
    eqIgnoreAsciiCase ((haystack.drop i).take needle.length) needle

/-- `needle` occurs in `haystack` at byte offset `i`, ASCII case ignored. -/
def MatchesAt (haystack needle : List UInt8) (i : Nat) : Prop :=
  i + needle.length ≤ haystack.length ∧
    eqIgnoreAsciiCase ((haystack.drop i).take needle.length) needle = true

/-- Two byte strings equal but for ASCII case are the same once lowercased. -/
theorem eqIgnoreAsciiCase_iff {xs ys : List UInt8} :
    eqIgnoreAsciiCase xs ys = true ↔ xs.map asciiLower = ys.map asciiLower := by
  induction xs generalizing ys with
  | nil => cases ys <;> simp [eqIgnoreAsciiCase]
  | cons x xs ih =>
    cases ys with
    | nil => simp [eqIgnoreAsciiCase]
    | cons y ys =>
      have := @ih ys
      simp only [eqIgnoreAsciiCase, List.length_cons, Nat.add_right_cancel_iff, List.zip_cons_cons,
        List.all_cons, Bool.and_eq_true, beq_iff_eq, List.map_cons, List.cons.injEq] at this ⊢
      tauto

/-- The search finds the least offset of a match. -/
theorem findIgnoringCase_eq_some_iff {haystack needle : List UInt8} (hn : needle ≠ []) {i : Nat} :
    findIgnoringCase haystack needle = some i ↔
      MatchesAt haystack needle i ∧ ∀ j < i, ¬ MatchesAt haystack needle j := by
  have hne : needle.isEmpty = false := by simpa using hn
  unfold findIgnoringCase
  rw [hne, if_neg (by simp)]
  split_ifs with hlen
  · -- a needle longer than the haystack matches nowhere
    simp only [false_iff, not_and, not_forall, not_not]
    intro h
    exact absurd h.1 (by omega)
  · rw [List.find?_eq_some_iff_getElem]
    constructor
    · rintro ⟨hi, k, hk, rfl, hfirst⟩
      simp only [List.length_range] at hk
      refine ⟨⟨by simp; omega, by simpa using hi⟩, fun j hj hm => ?_⟩
      have := hfirst j (by simpa using hj)
      simp only [List.getElem_range, Bool.not_eq_eq_eq_not, Bool.not_true] at this
      rw [hm.2] at this
      cases this
    · rintro ⟨hm, hfirst⟩
      refine ⟨hm.2, i, by simp; have := hm.1; omega, by simp, fun j hj => ?_⟩
      simp only [List.getElem_range, Bool.not_eq_eq_eq_not, Bool.not_true, Bool.eq_false_iff]
      intro h
      exact hfirst j hj ⟨by have := hm.1; omega, h⟩

/-- The search finds nothing exactly when nothing matches. -/
theorem findIgnoringCase_eq_none_iff {haystack needle : List UInt8} (hn : needle ≠ []) :
    findIgnoringCase haystack needle = none ↔ ∀ i, ¬ MatchesAt haystack needle i := by
  have hne : needle.isEmpty = false := by simpa using hn
  unfold findIgnoringCase
  rw [hne, if_neg (by simp)]
  split_ifs with hlen
  · simp only [true_iff]
    intro i h
    exact absurd h.1 (by omega)
  · rw [List.find?_eq_none]
    constructor
    · intro h i hm
      exact h i (by simp; have := hm.1; omega) hm.2
    · intro h i hi hm
      exact h i ⟨by simp at hi; omega, hm⟩

/-! ## ASCII text as bytes -/

/-- All characters of a text are ASCII. -/
def IsAscii (cs : List Char) : Prop := ∀ c ∈ cs, c.toNat < 128

/-- Lowercasing a byte adds 32 to a capital letter and keeps every other byte. -/
theorem toNat_asciiLower (b : UInt8) :
    (asciiLower b).toNat = if 65 ≤ b.toNat ∧ b.toNat ≤ 90 then b.toNat + 32 else b.toNat := by
  unfold asciiLower
  split_ifs with h1 h2 h2
  · simp [UInt8.toNat_add]; simp [UInt8.le_iff_toNat_le] at h1; omega
  · simp [UInt8.le_iff_toNat_le] at h1; omega
  · simp [UInt8.le_iff_toNat_le] at h1; omega
  · rfl

/-- A byte that lowercases like an ASCII byte is ASCII. -/
theorem lt_of_asciiLower_eq {a b : UInt8} (h : asciiLower a = asciiLower b) (hb : b.toNat < 128) :
    a.toNat < 128 := by
  have h' := congrArg UInt8.toNat h
  rw [toNat_asciiLower, toNat_asciiLower] at h'
  split_ifs at h' <;> omega

/-- Lowercasing keeps an ASCII character ASCII. -/
theorem toNat_toLower_lt {d : Char} (hd : d.toNat < 128) : d.toLower.toNat < 128 := by
  have hall : ∀ n < 128, (Char.ofNat n).toLower.toNat < 128 := by decide
  simpa using hall d.toNat hd

/-- Lowercasing changes ASCII characters only. -/
theorem lt_or_toLower_eq_self (c : Char) : c.toNat < 128 ∨ c.toLower = c := by
  unfold Char.toLower
  split
  · rename_i hu
    simp [UInt32.le_iff_toNat_le] at hu
    left
    omega
  · exact Or.inr rfl

/-- A character that lowercases like an ASCII character is ASCII. -/
theorem lt_of_toLower_eq {c d : Char} (h : c.toLower = d.toLower) (hd : d.toNat < 128) :
    c.toNat < 128 := by
  rcases lt_or_toLower_eq_self c with hc | hc
  · exact hc
  · rw [← hc, h]
    exact toNat_toLower_lt hd

/-- An ASCII character is one byte, its code. -/
theorem utf8EncodeChar_of_lt {c : Char} (h : c.toNat < 128) :
    String.utf8EncodeChar c = [c.toNat.toUInt8] := by
  have hv : c.val.toNat = c.toNat := Char.toNat_val
  unfold String.utf8EncodeChar
  dsimp only
  rw [hv, if_pos (by omega)]

/-- The byte of a lowercased ASCII character is the lowercased byte. -/
theorem utf8EncodeChar_toLower {c : Char} (h : c.toNat < 128) :
    String.utf8EncodeChar c.toLower = [asciiLower c.toNat.toUInt8] := by
  have hall : ∀ n < 128, String.utf8EncodeChar (Char.ofNat n).toLower = [asciiLower n.toUInt8] := by
    decide
  have := hall c.toNat h
  rwa [Char.ofNat_toNat] at this

/-- An ASCII text has one byte per character. -/
theorem length_utf8_of_isAscii {a : List Char} (ha : IsAscii a) : (utf8 a).length = a.length := by
  induction a with
  | nil => rfl
  | cons c a ih =>
    rw [utf8_cons, List.length_append, utf8EncodeChar_of_lt (ha c (by simp)),
      ih fun d hd => ha d (by simp [hd])]
    simp [Nat.add_comm]

/-- Lowercasing an ASCII text lowercases its bytes. -/
theorem utf8_lower_of_isAscii {a : List Char} (ha : IsAscii a) :
    utf8 (lower a) = (utf8 a).map asciiLower := by
  induction a with
  | nil => rfl
  | cons c a ih =>
    rw [lower_cons, utf8_cons, utf8_cons, utf8EncodeChar_toLower (ha c (by simp)),
      utf8EncodeChar_of_lt (ha c (by simp)), ih fun d hd => ha d (by simp [hd])]
    simp

/-- Texts with the same bytes are the same. -/
theorem utf8_injective {a b : List Char} (h : utf8 a = utf8 b) : a = b := by
  have ha := String.fromUTF8?_encode (String.ofList a)
  have hb := String.fromUTF8?_encode (String.ofList b)
  simp only [String.toList_ofList] at ha hb
  change String.fromUTF8? ⟨(utf8 a).toArray⟩ = _ at ha
  change String.fromUTF8? ⟨(utf8 b).toArray⟩ = _ at hb
  rw [h, hb] at ha
  simpa using (congrArg String.toList (Option.some.inj ha)).symm

/-- ASCII bytes that start a text's encoding are ASCII characters that start the text. -/
theorem exists_ascii_of_utf8_eq {cs : List Char} {w rest : List UInt8} (h : utf8 cs = w ++ rest)
    (hw : ∀ b ∈ w, b.toNat < 128) :
    ∃ a cs', cs = a ++ cs' ∧ utf8 a = w ∧ utf8 cs' = rest ∧ IsAscii a := by
  induction w generalizing cs with
  | nil => exact ⟨[], cs, rfl, rfl, h, fun _ hc => absurd hc List.not_mem_nil⟩
  | cons b w ih =>
    cases cs with
    | nil => simp at h
    | cons c cs =>
      rw [utf8_cons] at h
      -- the first byte of the text is the first byte of `c`'s encoding
      obtain ⟨x, xs, hx⟩ := List.exists_cons_of_ne_nil (String.utf8EncodeChar_ne_nil (c := c))
      have hxb : x = b := by
        rw [hx, List.cons_append, List.cons_append] at h
        exact (List.cons.inj h).1
      obtain ⟨hc, hcb⟩ := utf8EncodeChar_of_mem_ascii (by rw [hx, hxb]; simp) (hw b (by simp))
      rw [hc, List.singleton_append, List.cons_append, List.cons.injEq] at h
      obtain ⟨a, cs', rfl, ha, hrest, hasc⟩ := ih h.2 (fun y hy => hw y (by simp [hy]))
      refine ⟨c :: a, cs', rfl, by rw [utf8_cons, hc, ha]; rfl, hrest, fun d hd => ?_⟩
      rcases List.mem_cons.mp hd with rfl | hd
      · rw [hcb]
        exact hw b (by simp)
      · exact hasc d hd

/-- A byte offset at which the encoding holds an ASCII byte is a character boundary. -/
theorem exists_boundary_of_ascii {cs : List Char} {i : Nat} {b : UInt8} {r : List UInt8}
    (h : (utf8 cs).drop i = b :: r) (hb : b.toNat < 128) :
    ∃ k, (utf8 (cs.take k)).length = i := by
  induction cs generalizing i with
  | nil => simp at h
  | cons c cs ih =>
    rcases Nat.eq_zero_or_pos i with rfl | hi
    · exact ⟨0, rfl⟩
    · rw [utf8_cons, List.drop_append] at h
      by_cases hin : i < (String.utf8EncodeChar c).length
      · -- inside `c`'s encoding past its first byte, every byte is from 0x80 up
        exfalso
        have hpos : 0 < ((String.utf8EncodeChar c).drop i).length := by
          rw [List.length_drop]
          omega
        obtain ⟨y, ys, hy⟩ := List.exists_cons_of_ne_nil (List.ne_nil_of_length_pos hpos)
        rw [hy, List.cons_append, List.cons.injEq] at h
        have hmem : b ∈ String.utf8EncodeChar c := by
          rw [← h.1]
          exact List.mem_of_mem_drop (hy ▸ List.mem_cons_self)
        obtain ⟨hc, -⟩ := utf8EncodeChar_of_mem_ascii hmem hb
        rw [hc] at hin
        simp at hin
        omega
      · rw [List.drop_eq_nil_of_le (by omega), List.nil_append] at h
        obtain ⟨k, hk⟩ := ih h
        refine ⟨k + 1, ?_⟩
        rw [List.take_succ_cons, utf8_cons, List.length_append, hk]
        omega

/-- A text that lowercases to an ASCII marker's lowercase form is ASCII. -/
theorem isAscii_of_lower_eq {a m : List Char} (h : lower a = lower m) (hm : IsAscii m) :
    IsAscii a := by
  induction a generalizing m with
  | nil => exact fun _ hc => absurd hc List.not_mem_nil
  | cons c a ih =>
    cases m with
    | nil => simp at h
    | cons d m =>
      simp only [lower_cons, List.cons.injEq] at h
      intro x hx
      rcases List.mem_cons.mp hx with rfl | hx
      · exact lt_of_toLower_eq h.1 (hm d (by simp))
      · exact ih h.2 (fun y hy => hm y (by simp [hy])) x hx

/-- Bytes equal to ASCII bytes but for case are ASCII. -/
theorem ascii_of_map_asciiLower_eq {w v : List UInt8} (h : w.map asciiLower = v.map asciiLower)
    (hv : ∀ b ∈ v, b.toNat < 128) : ∀ b ∈ w, b.toNat < 128 := by
  induction w generalizing v with
  | nil => exact fun _ hb => absurd hb List.not_mem_nil
  | cons x w ih =>
    cases v with
    | nil => simp at h
    | cons y v =>
      simp only [List.map_cons, List.cons.injEq] at h
      intro b hb
      rcases List.mem_cons.mp hb with rfl | hb
      · exact lt_of_asciiLower_eq h.1 (hv y (by simp))
      · exact ih h.2 (fun z hz => hv z (by simp [hz])) b hb

/-- The bytes of an ASCII text are ASCII. -/
theorem ascii_utf8 {m : List Char} (hm : IsAscii m) : ∀ b ∈ utf8 m, b.toNat < 128 := by
  intro b hb
  obtain ⟨c, hc, hb⟩ := List.mem_flatMap.mp hb
  rw [utf8EncodeChar_of_lt (hm c hc), List.mem_singleton] at hb
  subst hb
  have := hm c hc
  simp only [Nat.toUInt8, UInt8.toNat_ofNat']
  omega

/-- A text's bytes are those of a prefix, then those of the rest. -/
theorem utf8_take_append_drop (cs : List Char) (k : Nat) :
    utf8 cs = utf8 (cs.take k) ++ utf8 (cs.drop k) := by
  rw [← utf8_append, List.take_append_drop]

/-- A longer prefix of a text has at least as many bytes. -/
theorem length_utf8_take_le (cs : List Char) {k f : Nat} (h : k ≤ f) :
    (utf8 (cs.take k)).length ≤ (utf8 (cs.take f)).length := by
  have hsplit := utf8_take_append_drop (cs.take f) k
  rw [List.take_take, Nat.min_eq_left h] at hsplit
  rw [hsplit, List.length_append]
  omega

/-- A match of an ASCII marker, ASCII case ignored, at a character position is a match of its
bytes at the byte offset of that position. -/
theorem matchesAt_of_occurs {m cs : List Char} (hm : IsAscii m) {k : Nat} (h : Occurs m cs k) :
    MatchesAt (utf8 cs) (utf8 m) (utf8 (cs.take k)).length := by
  have hlow : lower ((cs.drop k).take m.length) = lower m := h.lower_window
  have ha := isAscii_of_lower_eq hlow hm
  have hlen : ((cs.drop k).take m.length).length = m.length := by
    simpa using congrArg List.length hlow
  have hdrop : (utf8 cs).drop (utf8 (cs.take k)).length =
      utf8 ((cs.drop k).take m.length) ++ utf8 ((cs.drop k).drop m.length) := by
    rw [utf8_take_append_drop cs k, List.drop_left, ← utf8_append, List.take_append_drop]
  have hwin : (utf8 m).length = (utf8 ((cs.drop k).take m.length)).length := by
    rw [length_utf8_of_isAscii hm, length_utf8_of_isAscii ha, hlen]
  refine ⟨?_, ?_⟩
  · have htotal := congrArg List.length (utf8_take_append_drop cs k)
    have hdl := congrArg List.length hdrop
    simp only [List.length_append, List.length_drop] at htotal hdl
    omega
  · rw [hdrop, hwin, List.take_left, eqIgnoreAsciiCase_iff, ← utf8_lower_of_isAscii ha,
      ← utf8_lower_of_isAscii hm, hlow]

/-- A match of an ASCII marker's bytes starts at a character boundary, where the characters
match the marker. -/
theorem occurs_of_matchesAt {m cs : List Char} (hm : IsAscii m) (hne : m ≠ []) {i : Nat}
    (h : MatchesAt (utf8 cs) (utf8 m) i) :
    ∃ k, (utf8 (cs.take k)).length = i ∧ Occurs m cs k := by
  obtain ⟨hend, heq⟩ := h
  rw [eqIgnoreAsciiCase_iff] at heq
  set n := (utf8 m).length
  set w := ((utf8 cs).drop i).take n with hw
  have hwa : ∀ b ∈ w, b.toNat < 128 := ascii_of_map_asciiLower_eq heq (ascii_utf8 hm)
  have hwlen : w.length = n := by simp [hw, n]; omega
  have hnpos : 0 < n := by
    simp only [n, length_utf8_of_isAscii hm]
    exact List.length_pos_iff.mpr hne
  -- the window opens with an ASCII byte, so it starts a character
  obtain ⟨b, w', hbw⟩ := List.exists_cons_of_ne_nil (List.ne_nil_of_length_pos (hwlen ▸ hnpos))
  obtain ⟨tail, hdrop⟩ : ∃ t, (utf8 cs).drop i = w ++ t := ⟨_, (List.take_append_drop _ _).symm⟩
  obtain ⟨k, hk⟩ := exists_boundary_of_ascii (b := b) (r := w' ++ tail)
    (by rw [hdrop, hbw]; rfl) (hwa b (by rw [hbw]; simp))
  have hdk : utf8 (cs.drop k) = w ++ tail := by
    rw [← hdrop, ← hk, utf8_take_append_drop cs k, List.drop_left]
  obtain ⟨a, cs', hcs, ha, -, hasc⟩ := exists_ascii_of_utf8_eq hdk hwa
  have hlow : lower a = lower m := by
    apply utf8_injective
    rw [utf8_lower_of_isAscii hasc, utf8_lower_of_isAscii hm, ha]
    exact heq
  refine ⟨k, hk, ?_⟩
  unfold Occurs
  rw [← lower_drop, hcs, lower_append, hlow]
  exact List.prefix_append _ _

/-- A match of an ASCII marker is ASCII, one byte per character. -/
theorem length_utf8_take_add_of_occurs {m cs : List Char} (hm : IsAscii m) {f : Nat}
    (hf : Occurs m cs f) :
    (utf8 (cs.take (f + m.length))).length = (utf8 (cs.take f)).length + (utf8 m).length := by
  have hlow : lower ((cs.drop f).take m.length) = lower m := hf.lower_window
  have ha := isAscii_of_lower_eq hlow hm
  have hlen : ((cs.drop f).take m.length).length = m.length := by
    simpa using congrArg List.length hlow
  rw [List.take_add, utf8_append, List.length_append, length_utf8_of_isAscii ha, hlen,
    length_utf8_of_isAscii hm]

/-- Where the character search finds nothing, neither does the byte search. -/
theorem findIgnoringCase_utf8_of_none {m cs : List Char} (hm : IsAscii m) (hne : m ≠ [])
    (h : splitAfter m cs = none) : findIgnoringCase (utf8 cs) (utf8 m) = none := by
  have hbytes : utf8 m ≠ [] := by
    rw [← List.length_pos_iff, length_utf8_of_isAscii hm]
    exact List.length_pos_iff.mpr hne
  rw [findIgnoringCase_eq_none_iff hbytes]
  intro i hi
  obtain ⟨k, -, hk⟩ := occurs_of_matchesAt hm hne hi
  exact (splitAfter_eq_none_iff hne).mp h k hk

/-- Where the character search splits after the first match, the byte search finds that match
at its byte offset, and the bytes through the match are those of the text before the split. -/
theorem findIgnoringCase_utf8_of_some {m cs before after : List Char} (hm : IsAscii m)
    (hne : m ≠ []) (h : splitAfter m cs = some (before, after)) :
    ∃ i, findIgnoringCase (utf8 cs) (utf8 m) = some i ∧ i + (utf8 m).length = (utf8 before).length := by
  have hbytes : utf8 m ≠ [] := by
    rw [← List.length_pos_iff, length_utf8_of_isAscii hm]
    exact List.length_pos_iff.mpr hne
  obtain ⟨f, hf, hfirst, rfl, -⟩ := (splitAfter_eq_some_iff hne).mp h
  refine ⟨(utf8 (cs.take f)).length, (findIgnoringCase_eq_some_iff hbytes).mpr
    ⟨matchesAt_of_occurs hm hf, fun j hj hmj => ?_⟩, ?_⟩
  · -- an earlier byte match would be an earlier character match
    obtain ⟨k, hk, hocc⟩ := occurs_of_matchesAt hm hne hmj
    have hkf : k < f := by
      by_contra hkf
      have := length_utf8_take_le cs (Nat.le_of_not_lt hkf)
      omega
    exact hfirst k hkf hocc
  · exact (length_utf8_take_add_of_occurs hm hf).symm

/-- Bytes that equal an ASCII marker's but for ASCII case are ASCII bytes themselves. -/
theorem ascii_of_matchesAt {hay : List UInt8} {m : List Char} (hm : IsAscii m) {i : Nat}
    (h : MatchesAt hay (utf8 m) i) : ∀ b ∈ (hay.drop i).take (utf8 m).length, b.toNat < 128 :=
  ascii_of_map_asciiLower_eq (eqIgnoreAsciiCase_iff.mp h.2) (ascii_utf8 hm)

/-- A match of an ASCII marker's bytes in a text starts and ends on character boundaries. -/
theorem boundaries_of_matchesAt {m cs : List Char} (hm : IsAscii m) (hne : m ≠ []) {i : Nat}
    (h : MatchesAt (utf8 cs) (utf8 m) i) :
    ∃ k, (utf8 (cs.take k)).length = i ∧
      (utf8 (cs.take (k + m.length))).length = i + (utf8 m).length := by
  obtain ⟨k, hk, hocc⟩ := occurs_of_matchesAt hm hne h
  exact ⟨k, hk, by rw [length_utf8_take_add_of_occurs hm hocc, hk]⟩

/-! ## Cutting a text at a byte offset -/

/-- Cuts a text at byte offset `i` of its encoding, as slicing a string does: `none` when the
offset is past the end or falls inside a character's encoding, where slicing panics. -/
def sliceAt : List Char → Nat → Option (List Char × List Char)
  | cs, 0 => some ([], cs)
  | [], _ + 1 => none
  | c :: cs, i + 1 =>
    if i + 1 < c.utf8Size then none
    else (sliceAt cs (i + 1 - c.utf8Size)).map fun p => (c :: p.1, p.2)

/-- Cutting at the end of a prefix's encoding gives that prefix and the rest. -/
theorem sliceAt_append (a b : List Char) : sliceAt (a ++ b) (utf8 a).length = some (a, b) := by
  induction a with
  | nil => simp [sliceAt]
  | cons c a ih =>
    obtain ⟨n, hn⟩ : ∃ n, (utf8 (c :: a)).length = n + 1 := by
      refine ⟨(utf8 (c :: a)).length - 1, ?_⟩
      have := c.utf8Size_pos
      simp only [utf8_cons, List.length_append, String.length_utf8EncodeChar]
      omega
    simp only [utf8_cons, List.length_append, String.length_utf8EncodeChar] at hn
    have hsize : n + 1 - c.utf8Size = (utf8 a).length := by omega
    have hlt : ¬ n + 1 < c.utf8Size := by omega
    rw [utf8_cons, List.length_append, String.length_utf8EncodeChar, hn, List.cons_append,
      sliceAt, if_neg hlt, hsize, ih]
    rfl

/-- A cut splits the text into two parts, the first of the given byte length. -/
theorem sliceAt_eq_some {cs a b : List Char} {i : Nat} (h : sliceAt cs i = some (a, b)) :
    a ++ b = cs ∧ (utf8 a).length = i := by
  induction cs generalizing i a b with
  | nil =>
    cases i with
    | zero =>
      simp only [sliceAt, Option.some.injEq, Prod.mk.injEq] at h
      obtain ⟨rfl, rfl⟩ := h
      simp
    | succ i => simp [sliceAt] at h
  | cons c cs ih =>
    cases i with
    | zero =>
      simp only [sliceAt, Option.some.injEq, Prod.mk.injEq] at h
      obtain ⟨rfl, rfl⟩ := h
      simp
    | succ i =>
      simp only [sliceAt] at h
      split at h
      · cases h
      · rename_i hlt
        obtain ⟨⟨a', b'⟩, h', heq⟩ := Option.map_eq_some_iff.mp h
        simp only [Prod.mk.injEq] at heq
        obtain ⟨rfl, rfl⟩ := heq
        obtain ⟨hab, hlen⟩ := ih h'
        refine ⟨by rw [List.cons_append, hab], ?_⟩
        rw [utf8_cons, List.length_append, hlen, String.length_utf8EncodeChar]
        omega

/-! ## The masking loop over bytes -/

/-- What one round of the masking loop does with the text left to scan. -/
inductive Round where
  /-- No match is left: the rest is written as it is and the loop ends. -/
  | last (out : List Char)
  /-- A match: the text through it, a kept space and the mask are written, and the loop goes
  on with the text after the value. -/
  | next (out rest : List Char)
  /-- A cut fell inside a character's encoding, where slicing panics. -/
  | offBoundary

/-- One round of the loop: find the marker's bytes, cut after them, keep one space, and cut
again after the value's bytes. -/
def round (marker : List Char) (stop : Char → Bool) (rest : List Char) : Round :=
  match findIgnoringCase (utf8 rest) (utf8 marker) with
  | none => .last rest
  | some idx =>
    match sliceAt rest (idx + (utf8 marker).length) with
    | none => .offBoundary
    | some (upTo, after) =>
      match sliceAt after (utf8 (leadingSpace after)).length with
      | none => .offBoundary
      | some (space, value) =>
        match sliceAt value (utf8 (value.takeWhile fun c => !stop c)).length with
        | none => .offBoundary
        | some (_, rest') => .next (upTo ++ space ++ mask) rest'

/-- The masking loop, run for at most `fuel` rounds: the text it writes, or `none` when a round
cuts inside a character or the rounds run out first. -/
def runRounds (marker : List Char) (stop : Char → Bool) : Nat → List Char → Option (List Char)
  | 0, _ => none
  | fuel + 1, rest =>
    match round marker stop rest with
    | .last out => some out
    | .next out rest' => (runRounds marker stop fuel rest').map (out ++ ·)
    | .offBoundary => none

/-- Where the marker does not occur, a round is the last one and writes the rest as it is. -/
theorem round_of_none {m : List Char} (hm : IsAscii m) (hne : m ≠ []) (stop : Char → Bool)
    {rest : List Char} (h : splitAfter m rest = none) : round m stop rest = .last rest := by
  rw [round, findIgnoringCase_utf8_of_none hm hne h]

/-- At a match, a round writes what the masking pass writes there and goes on where it
goes on: every cut falls on a character boundary. -/
theorem round_of_some {m : List Char} (hm : IsAscii m) (hne : m ≠ []) (stop : Char → Bool)
    {rest before after : List Char} (h : splitAfter m rest = some (before, after)) :
    round m stop rest = .next (before ++ leadingSpace after ++ mask) (afterValue stop after) := by
  obtain ⟨i, hfind, hi⟩ := findIgnoringCase_utf8_of_some hm hne h
  have hrest : rest = before ++ after := by
    obtain ⟨f, -, -, rfl, rfl⟩ := (splitAfter_eq_some_iff hne).mp h
    exact (List.take_append_drop _ _).symm
  have hspace : sliceAt after (utf8 (leadingSpace after)).length =
      some (leadingSpace after, after.drop (leadingSpace after).length) := by
    have := sliceAt_append (leadingSpace after) (after.drop (leadingSpace after).length)
    rwa [leadingSpace_append_drop] at this
  have hvalue : sliceAt (after.drop (leadingSpace after).length)
      (utf8 ((after.drop (leadingSpace after).length).takeWhile fun c => !stop c)).length =
      some ((after.drop (leadingSpace after).length).takeWhile (fun c => !stop c),
        afterValue stop after) := by
    have := sliceAt_append ((after.drop (leadingSpace after).length).takeWhile fun c => !stop c)
      (afterValue stop after)
    rwa [afterValue, List.takeWhile_append_dropWhile] at this
  rw [round, hfind]
  dsimp only
  rw [hi, hrest, sliceAt_append]
  dsimp only
  rw [hspace]
  dsimp only
  rw [hvalue]

/-- Every round that goes on consumes at least the marker's bytes. -/
theorem round_next_consumes {marker : List Char} {stop : Char → Bool} {rest out rest' : List Char}
    (h : round marker stop rest = .next out rest') :
    (utf8 rest').length + (utf8 marker).length ≤ (utf8 rest).length := by
  unfold round at h
  split at h
  · cases h
  · rename_i idx _
    split at h
    · cases h
    · rename_i upTo after hcut
      split at h
      · cases h
      · rename_i space value hspace
        split at h
        · cases h
        · rename_i x r hvalue
          obtain ⟨-, rfl⟩ := Round.next.inj h
          obtain ⟨hcut, hcutlen⟩ := sliceAt_eq_some hcut
          obtain ⟨hspace, -⟩ := sliceAt_eq_some hspace
          obtain ⟨hvalue, -⟩ := sliceAt_eq_some hvalue
          subst hcut hspace hvalue
          simp only [utf8_append, List.length_append] at hcutlen ⊢
          omega

/-- No round cuts inside a character, whatever text is left to scan. -/
theorem round_ne_offBoundary {m : List Char} (hm : IsAscii m) (hne : m ≠ []) (stop : Char → Bool)
    (rest : List Char) : round m stop rest ≠ .offBoundary := by
  cases hs : splitAfter m rest with
  | none => rw [round_of_none hm hne stop hs]; exact fun h => by cases h
  | some p => rw [round_of_some hm hne stop hs]; exact fun h => by cases h

/-- Given a round for every byte of the text and one more, the loop ends, never cutting
inside a character, with what the masking pass writes. -/
theorem runRounds_eq_maskAfter {m : List Char} (hm : IsAscii m) (hne : m ≠ []) (stop : Char → Bool)
    (text : List Char) {fuel : Nat} (hfuel : (utf8 text).length < fuel) :
    runRounds m stop fuel text = some (maskAfter m stop text) := by
  -- the loop follows the pass: one round per match, and each leaves fewer bytes to scan
  fun_induction maskAfter m stop text generalizing fuel with
  | case1 t h => exact absurd h hne
  | case2 t _ hs =>
    obtain ⟨n, rfl⟩ : ∃ n, fuel = n + 1 := ⟨fuel - 1, by omega⟩
    rw [runRounds, round_of_none hm hne stop hs]
  | case3 t _ before after hs _ ih =>
    obtain ⟨n, rfl⟩ : ∃ n, fuel = n + 1 := ⟨fuel - 1, by omega⟩
    have hnext := round_of_some hm hne stop hs
    have hless := round_next_consumes hnext
    have hpos : 0 < (utf8 m).length := by
      rw [length_utf8_of_isAscii hm]
      exact List.length_pos_iff.mpr hne
    rw [runRounds, hnext]
    dsimp only
    rw [ih (by omega)]
    simp

/-! ## The two markers -/

/-- A text whose characters all check as ASCII is ASCII. -/
theorem isAscii_of_all {cs : List Char} (h : (cs.all fun c => decide (c.toNat < 128)) = true) :
    IsAscii cs := fun c hc => by simpa using List.all_eq_true.mp h c hc

/-- The two markers of `secrets` are ASCII. -/
theorem isAscii_marker {r : Rule} (hr : r ∈ [headerRule, accessRule]) : IsAscii r.marker := by
  simp only [List.mem_cons, List.not_mem_nil, or_false] at hr
  rcases hr with rfl | rfl
  · exact isAscii_of_all (by rw [show headerRule.marker = _ from authorizationMarker_eq]; decide)
  · exact isAscii_of_all (by rw [show accessRule.marker = _ from accessTokenMarker_eq]; decide)

/-- The two marker passes of `secrets` over the bytes of a text, cut as slicing cuts. For each
marker: it has bytes; the search for them returns the least offset of a match, ASCII case
ignored, and none when there is none; a match covers ASCII bytes only, and in a text starts
and ends on character boundaries; no round cuts inside a character; a round that goes on
consumes at least the marker's bytes; and the loop ends within one round per byte and one
more, with what the masking pass writes. -/
theorem marker_loop_cuts_on_boundaries (r : Rule) (hr : r ∈ [headerRule, accessRule]) :
    0 < (utf8 r.marker).length ∧
    (∀ hay i, findIgnoringCase hay (utf8 r.marker) = some i ↔
      MatchesAt hay (utf8 r.marker) i ∧ ∀ j < i, ¬ MatchesAt hay (utf8 r.marker) j) ∧
    (∀ hay, findIgnoringCase hay (utf8 r.marker) = none ↔
      ∀ i, ¬ MatchesAt hay (utf8 r.marker) i) ∧
    (∀ hay i, MatchesAt hay (utf8 r.marker) i →
      ∀ b ∈ (hay.drop i).take (utf8 r.marker).length, b.toNat < 128) ∧
    (∀ cs i, MatchesAt (utf8 cs) (utf8 r.marker) i → ∃ k, (utf8 (cs.take k)).length = i ∧
      (utf8 (cs.take (k + r.marker.length))).length = i + (utf8 r.marker).length) ∧
    (∀ rest, round r.marker r.stop rest ≠ .offBoundary) ∧
    (∀ rest out rest', round r.marker r.stop rest = .next out rest' →
      (utf8 rest').length + (utf8 r.marker).length ≤ (utf8 rest).length) ∧
    ∀ text, runRounds r.marker r.stop ((utf8 text).length + 1) text =
      some (maskAfter r.marker r.stop text) := by
  have hm := isAscii_marker hr
  have hpos : 0 < (utf8 r.marker).length := by
    rw [length_utf8_of_isAscii hm]
    exact List.length_pos_iff.mpr r.marker_ne_nil
  have hbytes : utf8 r.marker ≠ [] := List.ne_nil_of_length_pos hpos
  exact ⟨hpos, fun _ _ => findIgnoringCase_eq_some_iff hbytes,
    fun _ => findIgnoringCase_eq_none_iff hbytes, fun _ _ => ascii_of_matchesAt hm,
    fun _ _ => boundaries_of_matchesAt hm r.marker_ne_nil,
    round_ne_offBoundary hm r.marker_ne_nil r.stop, fun _ _ _ => round_next_consumes,
    fun text => runRounds_eq_maskAfter hm r.marker_ne_nil r.stop text (Nat.lt_succ_self _)⟩

/-- The header pass on a header line ends, with what the masking pass writes. -/
theorem header_loop_on_bearer_line :
    headerRule ∈ [headerRule, accessRule] ∧
      runRounds headerRule.marker headerRule.stop
        ((utf8 "Authorization: Bearer abc\nok".toList).length + 1)
        "Authorization: Bearer abc\nok".toList =
      some (maskAfter headerRule.marker headerRule.stop "Authorization: Bearer abc\nok".toList) :=
  ⟨by simp, (marker_loop_cuts_on_boundaries headerRule (by simp)).2.2.2.2.2.2.2 _⟩

end Redact
end FeedClient
