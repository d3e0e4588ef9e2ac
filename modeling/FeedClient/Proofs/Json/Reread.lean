import FeedClient.Proofs.Json.Canonical
import FeedClient.Proofs.Json.Numbers

/-!
# Reading written values back

`Value.pretty` writes a value over several lines. Reading that text as a document gives the
value back up to its numbers, which `Value.shape` forgets: an integer comes back as itself
and a double as the double its shortest digits round to. This needs the value in the form
the reader itself produces (`Value.Canonical`: object keys strictly ascending, so inserting
the members one by one keeps them in place) and nesting below the limit.

The proof follows the writer. Each reading step of arrays and objects (the next element or
key, the colon, the closing bracket) gets a lemma of the reading calculus. `Scan.Rereads v`
states what reading the text of `v` gives; it holds of every canonical value, by induction
on the value, with the elements and members of a container read one level down, in order.

Main results:

- Theorems `Scan.yields_prettyItems` and `Scan.yields_prettyFields`: elements and members
  read back in order.
- Theorem `Scan.rereads_of_canonical`: the text of every canonical value reads back with its
  shape.
- Theorem `Value.readText_pretty`: the pretty text of a canonical value within the nesting
  limit is read as a document of the same shape.
-/

namespace FeedClient.Json

/-! ## The shape of a value -/

mutual

/-- A value with its numbers forgotten: what reading its text gives back exactly. -/
def Value.shape : Value → Value
  | .number _ => .null
  | .array items => .array (Value.shapeItems items)
  | .object fields => .object (Value.shapeFields fields)
  | v => v

/-- The shapes of a list of values. -/
def Value.shapeItems : List Value → List Value
  | [] => []
  | v :: rest => v.shape :: Value.shapeItems rest

/-- The shapes of the values of fields, under the same keys. -/
def Value.shapeFields : Fields → Fields
  | [] => []
  | (k, v) :: rest => (k, v.shape) :: Value.shapeFields rest

end

/-- A string keeps its shape. -/
@[simp]
theorem Value.shape_string (s : String) : (Value.string s).shape = .string s := by
  simp [Value.shape]

/-- Only a string has the shape of a string. -/
theorem Value.shape_eq_string {v : Value} {s : String} : v.shape = .string s ↔ v = .string s := by
  cases v <;> simp [Value.shape]

/-- The value of a key among shapes is the shape of its value. -/
theorem Value.find?_shapeFields (k : String) (fs : Fields) :
    Fields.find? k (Value.shapeFields fs) = (Fields.find? k fs).map Value.shape := by
  induction fs with
  | nil => rfl
  | cons f rest ih =>
    obtain ⟨k', v⟩ := f
    by_cases h : k' = k <;> simp [Value.shapeFields, Fields.find?, h, ih]

namespace Scan

/-! ## Reading arrays and objects step by step -/

/-- A byte that can start the text of a value: no blank, comma or closing bracket. -/
def StartsValue (b : UInt8) : Prop := isBlank b = false ∧ b ≠ 44 ∧ b ≠ 93 ∧ b ≠ 125

/-- Skipping blanks moves the cursor past them and returns the byte after them. -/
theorem exec_blank (c : Cursor) : blank.exec c = (.ok c.skipBlanks.rest.head?, c.skipBlanks) := by
  simp [blank, peek, Except.map]

/-- Entering a container with levels to spare steps over its bracket and spends one level. -/
theorem exec_enter {c : Cursor} (h : 1 < c.depth) :
    enter.exec c = (.ok (), { c.bump with depth := c.depth - 1 }) := by
  simp [enter, Nat.not_le.mpr h]

/-- Leaving a container gives back one level. -/
theorem exec_leave (c : Cursor) : leave.exec c = (.ok (), { c with depth := c.depth + 1 }) := by
  simp [leave]

/-- A reading that yields a result succeeds with it. -/
theorem Yields.exec_fst {x : Scan α} {c : Cursor} {a : α} {r : List UInt8} (h : Yields x c a r) :
    (x.exec c).1 = .ok a := by
  obtain ⟨c', -, -, he⟩ := h
  rw [he]
  rfl

/-- A body that yields, and a close that reads on from there, yield the body's result. -/
theorem yields_thenClose {body : Scan α} {close : Scan Unit} {c : Cursor} {a : α}
    {r r' : List UInt8} (hb : Yields body c a r)
    (hc : ∀ c', c'.rest = r → c'.depth = c.depth → Yields close c' () r') :
    Yields (thenClose body close) c a r' := by
  obtain ⟨c₁, hr₁, hd₁, he₁⟩ := hb
  obtain ⟨c₂, hr₂, hd₂, he₂⟩ := hc c₁ hr₁ hd₁
  refine ⟨c₂, hr₂, hd₂.trans hd₁, ?_⟩
  simp only [thenClose, exec_bind, exec_attempt, he₁, exec_pure, he₂]

/-- At the closing bracket, after blanks, there is no next element. -/
theorem yields_nextElement_end (first : Bool) {c : Cursor} {bl r : List UInt8}
    (h : c.rest = bl ++ 93 :: r) (hbl : ∀ b ∈ bl, isBlank b = true) :
    Yields (nextElement? first) c false (93 :: r) := by
  unfold nextElement?
  refine ((yields_blank h hbl fun b hb => by cases hb; rfl).bind _).trans fun c₁ h₁ _ => ?_
  dsimp only [List.head?_cons]
  exact Leads.refl _ h₁

/-- The first element starts after blanks. -/
theorem yields_nextElement_first {c : Cursor} {bl t : List UInt8} {x : UInt8}
    (h : c.rest = bl ++ x :: t) (hbl : ∀ b ∈ bl, isBlank b = true) (hx : StartsValue x) :
    Yields (nextElement? true) c true (x :: t) := by
  obtain ⟨hxb, hx44, hx93, -⟩ := hx
  unfold nextElement?
  refine ((yields_blank h hbl fun b hb => by cases hb; exact hxb).bind _).trans fun c₁ h₁ _ => ?_
  dsimp only [List.head?_cons]
  split
  next heq => exact absurd (Option.some.inj heq) hx93
  next heq => exact absurd (Option.some.inj heq) hx44
  next =>
    rename_i _ _ hxy
    cases hxy
    simp only [↓reduceIte, pure_bind]
    exact Leads.refl _ h₁
  next heq => cases heq

/-- A later element starts after a comma and blanks. -/
theorem yields_nextElement_comma {c : Cursor} {bl t : List UInt8} {x : UInt8}
    (h : c.rest = 44 :: (bl ++ x :: t)) (hbl : ∀ b ∈ bl, isBlank b = true) (hx : StartsValue x) :
    Yields (nextElement? false) c true (x :: t) := by
  obtain ⟨hxb, hx44, hx93, -⟩ := hx
  unfold nextElement?
  refine ((@yields_blank _ [] _ h (by simp) fun b hb => by cases hb; rfl).bind _).trans
    fun c₁ h₁ _ => ?_
  dsimp only [List.head?_cons]
  simp only [Bool.false_eq_true, ↓reduceIte]
  refine ((yields_bump h₁).bind _).trans fun c₂ h₂ _ => ?_
  refine ((yields_blank h₂ hbl fun b hb => by cases hb; exact hxb).bind _).trans fun c₃ h₃ _ => ?_
  dsimp only [List.head?_cons]
  simp only [pure_bind]
  exact Leads.refl _ h₃

/-- At the closing brace, after blanks, there is no next member. -/
theorem yields_nextKey_end (first : Bool) {c : Cursor} {bl r : List UInt8}
    (h : c.rest = bl ++ 125 :: r) (hbl : ∀ b ∈ bl, isBlank b = true) :
    Yields (nextKey? first) c none (125 :: r) := by
  unfold nextKey?
  refine ((yields_blank h hbl fun b hb => by cases hb; rfl).bind _).trans fun c₁ h₁ _ => ?_
  dsimp only [List.head?_cons]
  exact Leads.refl _ h₁

/-- The first member starts after blanks with its key. -/
theorem yields_nextKey_first {c : Cursor} {bl r : List UInt8} (k : String)
    (h : c.rest = bl ++ 34 :: (k.toList.flatMap escapedBytes ++ 34 :: r))
    (hbl : ∀ b ∈ bl, isBlank b = true) :
    Yields (nextKey? true) c (some k) r := by
  unfold nextKey?
  refine ((yields_blank h hbl fun b hb => by cases hb; rfl).bind _).trans fun c₁ h₁ _ => ?_
  dsimp only [List.head?_cons]
  simp only [↓reduceIte, pure_bind]
  refine ((yields_bump h₁).bind _).trans fun c₂ h₂ _ => ?_
  exact ((yields_string k h₂).bind _).trans fun c₃ h₃ _ => Leads.refl _ h₃

/-- A later member starts after a comma and blanks with its key. -/
theorem yields_nextKey_comma {c : Cursor} {bl r : List UInt8} (k : String)
    (h : c.rest = 44 :: (bl ++ 34 :: (k.toList.flatMap escapedBytes ++ 34 :: r)))
    (hbl : ∀ b ∈ bl, isBlank b = true) :
    Yields (nextKey? false) c (some k) r := by
  unfold nextKey?
  refine ((@yields_blank _ [] _ h (by simp) fun b hb => by cases hb; rfl).bind _).trans
    fun c₁ h₁ _ => ?_
  dsimp only [List.head?_cons]
  simp only [Bool.false_eq_true, ↓reduceIte]
  refine ((yields_bump h₁).bind _).trans fun c₂ h₂ _ => ?_
  refine ((yields_blank h₂ hbl fun b hb => by cases hb; rfl).bind _).trans fun c₃ h₃ _ => ?_
  dsimp only [List.head?_cons]
  simp only [pure_bind]
  refine ((yields_bump h₃).bind _).trans fun c₄ h₄ _ => ?_
  exact ((yields_string k h₄).bind _).trans fun c₅ h₅ _ => Leads.refl _ h₅

/-- A colon in front is read. -/
theorem yields_colon {c : Cursor} {r : List UInt8} (h : c.rest = 58 :: r) : Yields colon c () r := by
  unfold colon
  refine ((@yields_blank _ [] _ h (by simp) fun b hb => by cases hb; rfl).bind _).trans
    fun c₁ h₁ _ => ?_
  dsimp only [List.head?_cons]
  exact yields_bump h₁

/-- A closing bracket in front ends an array. -/
theorem yields_endArray {c : Cursor} {r : List UInt8} (h : c.rest = 93 :: r) :
    Yields endArray c () r := by
  unfold endArray
  refine ((@yields_blank _ [] _ h (by simp) fun b hb => by cases hb; rfl).bind _).trans
    fun c₁ h₁ _ => ?_
  dsimp only [List.head?_cons]
  exact yields_bump h₁

/-- A closing brace in front ends an object. -/
theorem yields_endObject {c : Cursor} {r : List UInt8} (h : c.rest = 125 :: r) :
    Yields endObject c () r := by
  unfold endObject
  refine ((@yields_blank _ [] _ h (by simp) fun b hb => by cases hb; rfl).bind _).trans
    fun c₁ h₁ _ => ?_
  dsimp only [List.head?_cons]
  exact yields_bump h₁

/-- Nothing left after the value ends the document. -/
theorem yields_finishDocument {c : Cursor} (h : c.rest = []) : Yields finishDocument c () [] := by
  unfold finishDocument
  refine ((@yields_blank _ [] [] (by rw [h]; rfl) (by simp)
    fun _ hb => by cases hb).bind _).trans fun c₁ h₁ _ => ?_
  exact Leads.refl _ h₁

/-- Blanks before a value are read by the value itself. -/
theorem leads_value_blanks (ordered : Bool) (fuel : Nat) {c : Cursor} {bl t : List UInt8}
    (h : c.rest = bl ++ t) (hbl : ∀ b ∈ bl, isBlank b = true)
    (ht : ∀ b, t.head? = some b → isBlank b = false) :
    Leads (value ordered (fuel + 1)) (value ordered (fuel + 1)) c t := by
  have hskip := Cursor.skipWhile_rest isBlank c
  have hdrop : c.rest.dropWhile isBlank = t := by
    rw [h, List.dropWhile_append_of_pos hbl]
    cases t with
    | nil => rfl
    | cons b t' => simp [ht b rfl]
  -- skipping again from where the blanks end stays there
  have hidem : c.skipBlanks.skipBlanks = c.skipBlanks :=
    Cursor.skipWhile_of_head _ _ fun b hb => by
      rw [show c.skipBlanks.rest = t from hskip.1.trans hdrop] at hb
      exact ht b hb
  refine ⟨c.skipBlanks, hskip.1.trans hdrop, hskip.2, ?_⟩
  rw [value, exec_bind, exec_bind, exec_blank, exec_blank, hidem]

/-! ## Values by their first byte -/

/-- The word `true`. -/
theorem yields_value_true (ordered : Bool) (fuel : Nat) {c : Cursor} {r : List UInt8}
    (h : c.rest = 116 :: 114 :: 117 :: 101 :: r) :
    Yields (value ordered (fuel + 1)) c (.bool true) r := by
  rw [value]
  refine ((@yields_blank _ [] _ h (by simp) fun b hb => by cases hb; rfl).bind _).trans
    fun c₁ h₁ _ => ?_
  dsimp only [List.head?_cons]
  rw [if_neg (by decide), if_pos (by decide)]
  refine ((yields_bump h₁).bind _).trans fun c₂ h₂ _ => ?_
  exact ((yields_word [114, 117, 101] h₂).bind _).trans fun c₃ h₃ _ => Leads.refl _ h₃

/-- The word `false`. -/
theorem yields_value_false (ordered : Bool) (fuel : Nat) {c : Cursor} {r : List UInt8}
    (h : c.rest = 102 :: 97 :: 108 :: 115 :: 101 :: r) :
    Yields (value ordered (fuel + 1)) c (.bool false) r := by
  rw [value]
  refine ((@yields_blank _ [] _ h (by simp) fun b hb => by cases hb; rfl).bind _).trans
    fun c₁ h₁ _ => ?_
  dsimp only [List.head?_cons]
  rw [if_neg (by decide), if_neg (by decide), if_pos (by decide)]
  refine ((yields_bump h₁).bind _).trans fun c₂ h₂ _ => ?_
  exact ((yields_word [97, 108, 115, 101] h₂).bind _).trans fun c₃ h₃ _ => Leads.refl _ h₃

/-- A string value. -/
theorem yields_value_string (ordered : Bool) (fuel : Nat) (s : String) {c : Cursor}
    {r : List UInt8} (h : c.rest = 34 :: (s.toList.flatMap escapedBytes ++ 34 :: r)) :
    Yields (value ordered (fuel + 1)) c (.string s) r := by
  rw [value]
  refine ((@yields_blank _ [] _ h (by simp) fun b hb => by cases hb; rfl).bind _).trans
    fun c₁ h₁ _ => ?_
  dsimp only [List.head?_cons]
  rw [if_neg (by decide), if_neg (by decide), if_neg (by decide), if_neg (by decide),
    if_neg (by decide), if_pos (by decide)]
  refine ((yields_bump h₁).bind _).trans fun c₂ h₂ _ => ?_
  exact ((yields_string s h₂).bind _).trans fun c₃ h₃ _ => Leads.refl _ h₃

/-- Entering a container, reading its inside one level down and leaving it gives the level
back. -/
theorem yields_container {body : Scan α} {close : Scan Unit} {c : Cursor} {a : α} {b : UInt8}
    {r₀ r₁ r : List UInt8} (h : c.rest = b :: r₀) (hd : 1 < c.depth)
    (hbody : ∀ c', c'.rest = r₀ → c'.depth = c.depth - 1 → Yields body c' a r₁)
    (hclose : ∀ c', c'.rest = r₁ → Yields close c' () r) (f : α → β) :
    Yields (do enter; let a ← thenClose body close; leave; return f a) c (f a) r := by
  have hc₁ : ({ c.bump with depth := c.depth - 1 } : Cursor).rest = r₀ := by
    show c.bump.rest = r₀
    rw [Cursor.bump_rest, h]
    rfl
  obtain ⟨c₂, hr₂, hd₂, he₂⟩ := yields_thenClose (hbody _ hc₁ rfl) fun c' h' _ => hclose c' h'
  refine ⟨{ c₂ with depth := c₂.depth + 1 }, hr₂, ?_, ?_⟩
  · show c₂.depth + 1 = c.depth
    rw [hd₂]
    show c.depth - 1 + 1 = c.depth
    omega
  · rw [exec_bind, exec_enter hd]
    simp only [exec_bind, he₂, exec_pure, exec_leave]

/-- An array value. -/
theorem yields_value_array (ordered : Bool) (fuel : Nat) {c : Cursor} {items : List Value}
    {r₀ r : List UInt8} (h : c.rest = 91 :: r₀) (hd : 1 < c.depth)
    (hel : ∀ c', c'.rest = r₀ → c'.depth = c.depth - 1 →
      Yields (elements ordered fuel true []) c' items (93 :: r)) :
    Yields (value ordered (fuel + 1)) c (.array items) r := by
  rw [value]
  refine ((@yields_blank _ [] _ h (by simp) fun b hb => by cases hb; rfl).bind _).trans
    fun c₁ h₁ d₁ => ?_
  dsimp only [List.head?_cons]
  rw [if_neg (by decide), if_neg (by decide), if_neg (by decide), if_neg (by decide),
    if_neg (by decide), if_neg (by decide), if_pos (by decide)]
  exact yields_container h₁ (d₁ ▸ hd) (fun c' h' d' => hel c' h' (d'.trans (by rw [d₁])))
    (fun c' h' => yields_endArray h') Value.array

/-- An object value. -/
theorem yields_value_object (ordered : Bool) (fuel : Nat) {c : Cursor} {fs : Fields}
    {r₀ r : List UInt8} (h : c.rest = 123 :: r₀) (hd : 1 < c.depth)
    (hms : ∀ c', c'.rest = r₀ → c'.depth = c.depth - 1 →
      Yields (members ordered fuel true []) c' fs (125 :: r)) :
    Yields (value ordered (fuel + 1)) c (.object fs) r := by
  rw [value]
  refine ((@yields_blank _ [] _ h (by simp) fun b hb => by cases hb; rfl).bind _).trans
    fun c₁ h₁ d₁ => ?_
  dsimp only [List.head?_cons]
  rw [if_neg (by decide), if_neg (by decide), if_neg (by decide), if_neg (by decide),
    if_neg (by decide), if_neg (by decide), if_neg (by decide), if_pos (by decide)]
  exact yields_container h₁ (d₁ ▸ hd) (fun c' h' d' => hms c' h' (d'.trans (by rw [d₁])))
    (fun c' h' => yields_endObject h') Value.object

/-! ## The bytes of written text -/

/-- A line break is one byte. -/
theorem newline_bytes : ("\n" : String).toList.flatMap String.utf8EncodeChar = [10] := rfl

/-- The separator between elements is a comma and a line break. -/
theorem comma_bytes : (",\n" : String).toList.flatMap String.utf8EncodeChar = [44, 10] := rfl

/-- The separator between a key and its value is a colon and a space. -/
theorem colonSpace_bytes : (": " : String).toList.flatMap String.utf8EncodeChar = [58, 32] := rfl

/-- Brackets and braces are one byte each. -/
theorem bracket_bytes : ("[" : String).toList.flatMap String.utf8EncodeChar = [91] ∧
    ("]" : String).toList.flatMap String.utf8EncodeChar = [93] ∧
    ("\x7b" : String).toList.flatMap String.utf8EncodeChar = [123] ∧
    ("\x7d" : String).toList.flatMap String.utf8EncodeChar = [125] := ⟨rfl, rfl, rfl, rfl⟩

/-- The indentation of a level is two spaces a level. -/
theorem indent_bytes (level : Nat) :
    (indent level).toList.flatMap String.utf8EncodeChar = List.replicate (2 * level) 32 := by
  simp only [indent, String.toList_ofList]
  induction 2 * level with
  | zero => rfl
  | succ n ih => rw [List.replicate_succ, List.flatMap_cons, ih, List.replicate_succ]; rfl

/-- The line break and indentation before an element are blanks. -/
theorem blank_of_mem_indent {b : UInt8} (h : b ∈ 10 :: List.replicate (2 * level) 32) :
    isBlank b = true := by
  rcases List.mem_cons.mp h with rfl | h
  · rfl
  · rw [List.eq_of_mem_replicate h]
    rfl

/-- Every character takes at least one byte. -/
theorem length_le_bytes (cs : List Char) : cs.length ≤ (cs.flatMap String.utf8EncodeChar).length := by
  induction cs with
  | nil => simp
  | cons ch cs ih =>
    rw [List.flatMap_cons, List.length_append, String.length_utf8EncodeChar, List.length_cons]
    have := Char.utf8Size_pos ch
    omega

/-- What may follow a number: a blank, a comma or a closing bracket. -/
theorem endsNumber_cons {b : UInt8} (t : List UInt8)
    (h : isBlank b = true ∨ b = 44 ∨ b = 93 ∨ b = 125) : EndsNumber (b :: t) := by
  intro b' hb'
  cases hb'
  rcases h with h | rfl | rfl | rfl
  · simp only [isBlank, Bool.or_eq_true, beq_iff_eq] at h
    rcases h with ((rfl | rfl) | rfl) | rfl <;> decide
  all_goals decide

/-- Blanks in front of what ends a number still end it. -/
theorem endsNumber_blanks {bl t : List UInt8} (hbl : ∀ b ∈ bl, isBlank b = true)
    (ht : EndsNumber t) : EndsNumber (bl ++ t) := by
  cases bl with
  | nil => exact ht
  | cons b bl => exact endsNumber_cons _ (.inl (hbl b List.mem_cons_self))

/-! ## The first byte of a written value -/

/-- A digit can start a value. -/
theorem startsValue_of_digit {b : UInt8} (h : isDigit b = true) : StartsValue b := by
  refine ⟨(digit_not_other h).1, ?_, ?_, ?_⟩ <;> (rintro rfl; revert h; decide)

/-- The digits of a number start with a digit byte. -/
theorem digits_head (n : Nat) :
    ∃ b t, (Nat.toDigits 10 n).flatMap String.utf8EncodeChar = b :: t ∧ isDigit b = true := by
  obtain ⟨ch, cs, hcs⟩ := List.exists_cons_of_ne_nil (Nat.toDigits_ne_nil (n := n) (b := 10))
  have hd := digit_bytes ch (Nat.isDigit_of_mem_toDigits (by decide) (by decide)
    (hcs ▸ List.mem_cons_self))
  exact ⟨_, _, by rw [hcs, List.flatMap_cons, hd.1]; rfl, hd.2.1⟩

/-- The text of a number starts with a digit, a minus or the `n` of `null`. -/
theorem text_head (x : Number) :
    ∃ b t, x.text.toList.flatMap String.utf8EncodeChar = b :: t ∧ StartsValue b := by
  cases x with
  | nat u =>
    obtain ⟨b, t, ht, hb⟩ := digits_head u.toNat
    exact ⟨b, t, by simpa [Number.text] using ht, startsValue_of_digit hb⟩
  | neg i =>
    cases hi : i.toInt with
    | ofNat m =>
      obtain ⟨b, t, ht, hb⟩ := digits_head m
      exact ⟨b, t, by simpa [Number.text, hi, Int.repr] using ht, startsValue_of_digit hb⟩
    | negSucc m =>
      refine ⟨45, (Nat.toDigits 10 (m + 1)).flatMap String.utf8EncodeChar, ?_,
        ⟨rfl, by decide, by decide, by decide⟩⟩
      simp [Number.text, hi, Int.repr]
      rfl
  | float f =>
    have htext : (Number.float f).text = floatLayout.render f := rfl
    rw [htext]
    cases hb : Decimal.Binary.ofBits f.toBits with
    | finite b =>
      have hrender : floatLayout.render f = if b.negative then "-" ++ floatLayout.renderDigits
          b.shortest else floatLayout.renderDigits b.shortest := by
        rw [Decimal.Layout.render, hb]
      rw [hrender]
      cases hneg : b.negative with
      | true =>
        refine ⟨45, (floatLayout.renderDigits b.shortest).toList.flatMap String.utf8EncodeChar,
          ?_, ⟨rfl, by decide, by decide, by decide⟩⟩
        rw [if_pos rfl, String.toList_append]
        rfl
      | false =>
        -- the digits read as a number, so they start with a digit
        obtain ⟨hD, hz, hlow, hprod⟩ := Decimal.Binary.shortest_readable hb
        obtain ⟨y, hy⟩ := yields_number_renderDigits true _ hD hz hlow hprod (r := [])
          (fun _ hb' => by cases hb')
        obtain ⟨d, hd, hdig⟩ := number_head (hy (c := ⟨_ ++ [], 1, 0, 1⟩) rfl)
        rw [if_neg (by decide)]
        rw [List.append_nil] at hd
        obtain ⟨t, ht⟩ : ∃ t, (floatLayout.renderDigits b.shortest).toList.flatMap
            String.utf8EncodeChar = d :: t := by
          revert hd
          cases (floatLayout.renderDigits b.shortest).toList.flatMap String.utf8EncodeChar with
          | nil => intro hd; cases hd
          | cons d' t => intro hd; cases hd; exact ⟨t, rfl⟩
        exact ⟨d, t, ht, startsValue_of_digit hdig⟩
    | infinite _ =>
      have hrender : floatLayout.render f = "null" := by rw [Decimal.Layout.render, hb]; rfl
      exact ⟨110, [117, 108, 108], by rw [hrender]; rfl, ⟨rfl, by decide, by decide, by decide⟩⟩
    | nan =>
      have hrender : floatLayout.render f = "null" := by rw [Decimal.Layout.render, hb]; rfl
      exact ⟨110, [117, 108, 108], by rw [hrender]; rfl, ⟨rfl, by decide, by decide, by decide⟩⟩

/-- The text of a value starts with a byte that starts a value. -/
theorem pretty_head (v : Value) (level : Nat) :
    ∃ b t, (v.pretty level).toList.flatMap String.utf8EncodeChar = b :: t ∧ StartsValue b := by
  cases v with
  | null => exact ⟨110, [117, 108, 108], by simp only [Value.pretty, Value.compact]; rfl,
      ⟨rfl, by decide, by decide, by decide⟩⟩
  | bool b =>
    cases b
    · exact ⟨102, [97, 108, 115, 101], by simp only [Value.pretty, Value.compact]; rfl,
        ⟨rfl, by decide, by decide, by decide⟩⟩
    · exact ⟨116, [114, 117, 101], by simp only [Value.pretty, Value.compact]; rfl,
        ⟨rfl, by decide, by decide, by decide⟩⟩
  | number n => exact text_head n
  | string s =>
    exact ⟨34, _, by simp only [Value.pretty, Value.compact]; rw [quoteString_bytes],
      ⟨rfl, by decide, by decide, by decide⟩⟩
  | array items =>
    cases items with
    | nil => exact ⟨91, [93], by simp only [Value.pretty]; rfl, ⟨rfl, by decide, by decide, by decide⟩⟩
    | cons v rest =>
      refine ⟨91, (prettyItems (level + 1) true (v :: rest) ++ "\n" ++ indent level ++ "]").toList.flatMap
        String.utf8EncodeChar, ?_, ⟨rfl, by decide, by decide, by decide⟩⟩
      simp only [Value.pretty, String.toList_append, List.flatMap_append]
      rfl
  | object fs =>
    cases fs with
    | nil => exact ⟨123, [125], by simp only [Value.pretty]; rfl,
      ⟨rfl, by decide, by decide, by decide⟩⟩
    | cons f rest =>
      refine ⟨123, (prettyFields (level + 1) true (f :: rest) ++ "\n" ++ indent level ++ "\x7d").toList.flatMap
        String.utf8EncodeChar, ?_, ⟨rfl, by decide, by decide, by decide⟩⟩
      simp only [Value.pretty, String.toList_append, List.flatMap_append]
      rfl

/-- The pretty text of a value is not empty. -/
theorem pretty_length_pos (v : Value) (level : Nat) : 1 ≤ (v.pretty level).length := by
  obtain ⟨x, t, hxt, -⟩ := pretty_head v level
  have := length_le_bytes (v.pretty level).toList
  rw [hxt, String.length_toList] at this
  by_contra h0
  have h0 : (v.pretty level).toList = [] := by
    rw [← String.length_toList] at h0
    exact List.eq_nil_of_length_eq_zero (by omega)
  rw [h0] at hxt
  cases hxt

/-! ## Reading written values back -/

/-- The pretty text of `v`, at any level and before anything that ends a number, reads back
as one value of the same shape, given fuel for its length and an allowance above its
nesting. -/
def Rereads (v : Value) : Prop :=
  ∀ (level : Nat) {r : List UInt8}, EndsNumber r → ∃ v', v'.shape = v.shape ∧
    ∀ {fuel : Nat} {c : Cursor}, (v.pretty level).length ≤ fuel → v.nesting < c.depth →
      c.rest = (v.pretty level).toList.flatMap String.utf8EncodeChar ++ r →
      Yields (value false fuel) c v' r

/-- An array below a nesting limit leaves two levels at least, and its elements nest below one level
less. -/
theorem nesting_lt_of_array {items : List Value} {d : Nat} (h : (Value.array items).nesting < d) :
    1 < d ∧ ∀ v ∈ items, v.nesting < d - 1 := by
  simp only [Value.nesting] at h
  refine ⟨by omega, fun v hv => ?_⟩
  have := (Value.itemsNesting_le (n := Value.itemsNesting items)).mp le_rfl v hv
  omega

/-- An object below a nesting limit leaves two levels at least, and its members nest below one level
less. -/
theorem nesting_lt_of_object {fs : Fields} {d : Nat} (h : (Value.object fs).nesting < d) :
    1 < d ∧ ∀ f ∈ fs, f.2.nesting < d - 1 := by
  simp only [Value.nesting] at h
  refine ⟨by omega, fun f hf => ?_⟩
  have := (Value.fieldsNesting_le (n := Value.fieldsNesting fs)).mp le_rfl f hf
  omega

/-- The elements of an array, each on its own line, read back in order; `acc` holds those
read before, last first. -/
theorem yields_prettyItems {items : List Value} (ih : ∀ v ∈ items, Rereads v) (level : Nat)
    (first : Bool) {bl r : List UInt8} (hbl : ∀ b ∈ bl, isBlank b = true) :
    ∃ items', Value.shapeItems items' = Value.shapeItems items ∧
      ∀ {fuel : Nat} {c : Cursor} {acc : List Value}, (prettyItems level first items).length < fuel →
        (∀ v ∈ items, v.nesting < c.depth) →
        c.rest = (prettyItems level first items).toList.flatMap String.utf8EncodeChar ++
          (bl ++ 93 :: r) →
        Yields (elements false fuel first acc) c (acc.reverse ++ items') (93 :: r) := by
  induction items generalizing first with
  | nil =>
    refine ⟨[], rfl, fun {fuel c acc} hf _ h => ?_⟩
    obtain ⟨G, rfl⟩ : ∃ G, fuel = G + 1 := ⟨fuel - 1, by omega⟩
    have h' : c.rest = bl ++ 93 :: r := by rw [h]; simp [prettyItems]
    rw [elements]
    refine ((yields_nextElement_end first h' hbl).bind _).trans fun c₁ h₁ _ => ?_
    simp only [Bool.false_eq_true, ↓reduceIte, List.append_nil]
    exact Leads.refl _ h₁
  | cons v rest ihl =>
    -- after the element come the later ones, or the blanks and the closing bracket
    have hends : EndsNumber ((prettyItems level false rest).toList.flatMap String.utf8EncodeChar ++
        (bl ++ 93 :: r)) := by
      cases rest with
      | nil => simpa [prettyItems] using endsNumber_blanks hbl (endsNumber_cons r (.inr (.inr (.inl rfl))))
      | cons w rest =>
        rw [prettyItems, if_neg (by decide)]
        simp only [String.toList_append, List.flatMap_append, List.append_assoc, comma_bytes]
        exact endsNumber_cons _ (.inr (.inl rfl))
    obtain ⟨v', hv'shape, hv'⟩ := ih v List.mem_cons_self level hends
    obtain ⟨rest', hrest'shape, hrest'⟩ := ihl (fun w hw => ih w (List.mem_cons_of_mem _ hw)) false
    refine ⟨v' :: rest', by simp [Value.shapeItems, hv'shape, hrest'shape],
      fun {fuel c acc} hf hn h => ?_⟩
    obtain ⟨G, rfl⟩ : ∃ G, fuel = G + 1 := ⟨fuel - 1, by omega⟩
    obtain ⟨x, t, hxt, hx⟩ := pretty_head v level
    have hlen : (v.pretty level).length ≤ G ∧ (prettyItems level false rest).length < G := by
      have hsep : 1 ≤ (if first then "\n" else ",\n").length := by cases first <;> decide
      rw [prettyItems] at hf
      simp only [String.length_append] at hf
      omega
    -- the element starts after a line break (and a comma before a later one) and the indent
    have hstart : Yields (nextElement? first) c true (x :: (t ++
        ((prettyItems level false rest).toList.flatMap String.utf8EncodeChar ++ (bl ++ 93 :: r)))) := by
      rw [prettyItems] at h
      cases first with
      | true =>
        simp only [if_pos, String.toList_append, List.flatMap_append, indent_bytes, hxt,
          newline_bytes, List.append_assoc] at h
        exact @yields_nextElement_first _ (10 :: List.replicate (2 * level) 32) _ _ (by rw [h]; rfl)
          (fun b hb => blank_of_mem_indent hb) hx
      | false =>
        simp only [Bool.false_eq_true, if_false, String.toList_append, List.flatMap_append,
          indent_bytes, hxt, comma_bytes, List.append_assoc] at h
        exact @yields_nextElement_comma _ (10 :: List.replicate (2 * level) 32) _ _ (by rw [h]; rfl)
          (fun b hb => blank_of_mem_indent hb) hx
    rw [elements]
    refine (hstart.bind _).trans fun c₁ h₁ d₁ => ?_
    simp only [↓reduceIte]
    refine ((hv' hlen.1 (by rw [d₁]; exact hn v List.mem_cons_self)
      (by rw [h₁, hxt, List.cons_append])).bind _).trans fun c₂ h₂ d₂ => ?_
    have hrest := @hrest' _ _ (v' :: acc) hlen.2
      (fun w hw => by rw [d₂, d₁]; exact hn w (List.mem_cons_of_mem _ hw)) h₂
    simpa using hrest

/-- The members of an object with sorted keys, each on its own line, read back in order
after the fields `acc` read before, whose keys are all smaller. -/
theorem yields_prettyFields {fs : Fields} (ih : ∀ f ∈ fs, Rereads f.2) (hs : fs.Sorted)
    (level : Nat) (first : Bool) {bl r : List UInt8} (hbl : ∀ b ∈ bl, isBlank b = true) :
    ∃ fs', Value.shapeFields fs' = Value.shapeFields fs ∧
      ∀ {fuel : Nat} {c : Cursor} {acc : Fields}, (prettyFields level first fs).length < fuel →
        (∀ f ∈ fs, f.2.nesting < c.depth) → (∀ f ∈ acc, ∀ g ∈ fs, f.1 < g.1) →
        c.rest = (prettyFields level first fs).toList.flatMap String.utf8EncodeChar ++
          (bl ++ 125 :: r) →
        Yields (members false fuel first acc) c (acc ++ fs') (125 :: r) := by
  induction fs generalizing first with
  | nil =>
    refine ⟨[], rfl, fun {fuel c acc} hf _ _ h => ?_⟩
    obtain ⟨G, rfl⟩ : ∃ G, fuel = G + 1 := ⟨fuel - 1, by omega⟩
    have h' : c.rest = bl ++ 125 :: r := by rw [h]; simp [prettyFields]
    rw [members]
    refine ((yields_nextKey_end first h' hbl).bind _).trans fun c₁ h₁ _ => ?_
    simp only [List.append_nil]
    exact Leads.refl _ h₁
  | cons f rest ihl =>
    obtain ⟨k, v⟩ := f
    obtain ⟨hk, hsr⟩ := Fields.sorted_cons.mp hs
    -- after the value come the later members, or the blanks and the closing brace
    have hends : EndsNumber ((prettyFields level false rest).toList.flatMap String.utf8EncodeChar ++
        (bl ++ 125 :: r)) := by
      cases rest with
      | nil =>
        simpa [prettyFields] using endsNumber_blanks hbl (endsNumber_cons r (.inr (.inr (.inr rfl))))
      | cons g rest =>
        rw [prettyFields, if_neg (by decide)]
        simp only [String.toList_append, List.flatMap_append, List.append_assoc, comma_bytes]
        exact endsNumber_cons _ (.inr (.inl rfl))
    obtain ⟨v', hv'shape, hv'⟩ := ih (k, v) List.mem_cons_self level hends
    obtain ⟨rest', hrest'shape, hrest'⟩ :=
      ihl (fun g hg => ih g (List.mem_cons_of_mem _ hg)) hsr false
    refine ⟨(k, v') :: rest', by simp [Value.shapeFields, hv'shape, hrest'shape],
      fun {fuel c acc} hf hn hacc h => ?_⟩
    obtain ⟨G, rfl⟩ : ∃ G, fuel = G + 1 := ⟨fuel - 1, by omega⟩
    obtain ⟨x, t, hxt, hx⟩ := pretty_head v level
    have hlen : (v.pretty level).length ≤ G ∧ (prettyFields level false rest).length < G := by
      have hsep : 1 ≤ (if first then "\n" else ",\n").length := by cases first <;> decide
      rw [prettyFields] at hf
      simp only [String.length_append] at hf
      omega
    obtain ⟨G', rfl⟩ : ∃ G', G = G' + 1 := ⟨G - 1, by
      obtain ⟨x', t', hxt', -⟩ := pretty_head v level
      have := length_le_bytes (v.pretty level).toList
      rw [hxt'] at this
      simp only [String.length_toList, List.length_cons] at this
      omega⟩
    -- the key starts after a line break (and a comma before a later one) and the indent
    have hkey : Yields (nextKey? first) c (some k) (58 :: 32 :: (x :: (t ++
        ((prettyFields level false rest).toList.flatMap String.utf8EncodeChar ++
          (bl ++ 125 :: r))))) := by
      rw [prettyFields] at h
      cases first with
      | true =>
        simp only [if_pos, String.toList_append, List.flatMap_append, indent_bytes, hxt,
          newline_bytes, quoteString_bytes, colonSpace_bytes, List.append_assoc] at h
        exact @yields_nextKey_first _ (10 :: List.replicate (2 * level) 32) _ k
          (by rw [h]; simp) (fun b hb => blank_of_mem_indent hb)
      | false =>
        simp only [Bool.false_eq_true, if_false, String.toList_append, List.flatMap_append,
          indent_bytes, hxt, comma_bytes, quoteString_bytes, colonSpace_bytes,
          List.append_assoc] at h
        exact @yields_nextKey_comma _ (10 :: List.replicate (2 * level) 32) _ k
          (by rw [h]; simp) (fun b hb => blank_of_mem_indent hb)
    rw [members]
    refine (hkey.bind _).trans fun c₁ h₁ d₁ => ?_
    dsimp only
    refine ((yields_colon h₁).bind _).trans fun c₂ h₂ d₂ => ?_
    -- the value follows the space after the colon
    refine ((@leads_value_blanks false G' _ [32] _ h₂ (by simp; rfl) fun b hb => by
      cases hb; exact hx.1).bind _).trans fun c₃ h₃ d₃ => ?_
    refine ((hv' hlen.1 (by rw [d₃, d₂, d₁]; exact hn _ List.mem_cons_self)
      (by rw [h₃, hxt, List.cons_append])).bind _).trans fun c₄ h₄ d₄ => ?_
    have hlt : ∀ f ∈ acc, f.1 < k := fun f hf => hacc f hf (k, v) List.mem_cons_self
    rw [addField, if_neg (by decide), Fields.insert_of_lt hlt]
    have hrest := @hrest' _ _ (acc ++ [(k, v')]) hlen.2
      (fun g hg => by rw [d₄, d₃, d₂, d₁]; exact hn g (List.mem_cons_of_mem _ hg))
      (fun f hf g hg => by
        rcases List.mem_append.mp hf with hf | hf
        · exact hacc f hf g (List.mem_cons_of_mem _ hg)
        · rw [List.mem_singleton.mp hf]
          exact hk g hg) h₄
    simpa using hrest

/-! ### One lemma per kind of value -/

/-- The text of `null` reads back. -/
theorem rereads_null : Rereads .null := by
  intro level r _
  refine ⟨.null, rfl, fun {fuel c} hf _ h => ?_⟩
  obtain ⟨F, rfl⟩ : ∃ F, fuel = F + 1 := ⟨fuel - 1, by have := pretty_length_pos .null level; omega⟩
  exact yields_value_null false F (by rw [h]; simp only [Value.pretty, Value.compact]; rfl)

/-- The text of a boolean reads back. -/
theorem rereads_bool (b : Bool) : Rereads (.bool b) := by
  intro level r _
  refine ⟨.bool b, rfl, fun {fuel c} hf _ h => ?_⟩
  obtain ⟨F, rfl⟩ : ∃ F, fuel = F + 1 :=
    ⟨fuel - 1, by have := pretty_length_pos (.bool b) level; omega⟩
  cases b
  · exact yields_value_false false F (by rw [h]; simp only [Value.pretty, Value.compact]; rfl)
  · exact yields_value_true false F (by rw [h]; simp only [Value.pretty, Value.compact]; rfl)

/-- A number reads back as a value of its shape: itself, or the double its digits round to. -/
theorem rereads_number (n : Number) : Rereads (.number n) := by
  intro level r hr
  obtain ⟨v', hv', hy⟩ := yields_value_text false n hr
  refine ⟨v', ?_, fun {fuel c} hf _ h => ?_⟩
  · rcases hv' with rfl | ⟨m, rfl⟩ <;> simp [Value.shape]
  · obtain ⟨F, rfl⟩ : ∃ F, fuel = F + 1 :=
      ⟨fuel - 1, by have := pretty_length_pos (.number n) level; omega⟩
    exact hy (by rw [h]; simp only [Value.pretty, Value.compact])

/-- The text of a string reads back. -/
theorem rereads_string (s : String) : Rereads (.string s) := by
  intro level r _
  refine ⟨.string s, rfl, fun {fuel c} hf _ h => ?_⟩
  obtain ⟨F, rfl⟩ : ∃ F, fuel = F + 1 :=
    ⟨fuel - 1, by have := pretty_length_pos (.string s) level; omega⟩
  exact yields_value_string false F s (by
    rw [h]; simp only [Value.pretty, Value.compact, quoteString_bytes]; simp)

/-- An array reads back when its elements do: they are read one level down, and an empty
array has no blanks before its bracket. -/
theorem rereads_array {items : List Value} (ih : ∀ v ∈ items, Rereads v) :
    Rereads (.array items) := by
  intro level r _
  cases items with
  | nil =>
    obtain ⟨items', hshape, hitems'⟩ := @yields_prettyItems [] (by simp) (level + 1) true [] r
      (by simp)
    refine ⟨.array items', by simp [Value.shape, hshape], fun {fuel c} hf hn h => ?_⟩
    obtain ⟨F, rfl⟩ : ∃ F, fuel = F + 1 :=
      ⟨fuel - 1, by have := pretty_length_pos (.array []) level; omega⟩
    obtain ⟨hd, -⟩ := nesting_lt_of_array hn
    have hfuel : (prettyItems (level + 1) true []).length < F := by
      have : (Value.pretty level (.array [])).length = 2 := by simp only [Value.pretty]; rfl
      simp only [prettyItems]
      rw [this] at hf
      simp
      omega
    have := @yields_value_array false F _ ([].reverse ++ items') (93 :: r) _
      (by rw [h]; simp only [Value.pretty]; rfl) hd
      (fun c' h' _ => hitems' hfuel (by simp) (by rw [h']; simp [prettyItems]))
    simpa using this
  | cons w rest =>
    obtain ⟨items', hshape, hitems'⟩ := @yields_prettyItems _ ih (level + 1) true
      (10 :: List.replicate (2 * level) 32) r fun b hb => blank_of_mem_indent hb
    refine ⟨.array items', by simp [Value.shape, hshape], fun {fuel c} hf hn h => ?_⟩
    obtain ⟨hd, hitems⟩ := nesting_lt_of_array hn
    have hlen : (Value.pretty level (.array (w :: rest))).length =
        1 + (prettyItems (level + 1) true (w :: rest)).length + 1 + (indent level).length + 1 := by
      simp only [Value.pretty, String.length_append]
      rfl
    obtain ⟨F, rfl⟩ : ∃ F, fuel = F + 1 := ⟨fuel - 1, by omega⟩
    have h' : c.rest = 91 :: ((prettyItems (level + 1) true (w :: rest)).toList.flatMap
        String.utf8EncodeChar ++ (10 :: List.replicate (2 * level) 32 ++ 93 :: r)) := by
      rw [h]
      simp only [Value.pretty, String.toList_append, List.flatMap_append, newline_bytes,
        indent_bytes, bracket_bytes, List.append_assoc, List.cons_append, List.nil_append]
    have := @yields_value_array false F _ ([].reverse ++ items') _ _ h' hd fun c' h' d' =>
      hitems' (by omega) (fun v hv => by rw [d']; exact hitems v hv) h'
    simpa using this

/-- An object with sorted keys reads back when its values do, one level down. -/
theorem rereads_object {fs : Fields} (hs : fs.Sorted) (ih : ∀ f ∈ fs, Rereads f.2) :
    Rereads (.object fs) := by
  intro level r _
  cases fs with
  | nil =>
    obtain ⟨fs', hshape, hfs'⟩ := @yields_prettyFields [] (by simp) Fields.sorted_nil
      (level + 1) true [] r (by simp)
    refine ⟨.object fs', by simp [Value.shape, hshape], fun {fuel c} hf hn h => ?_⟩
    obtain ⟨F, rfl⟩ : ∃ F, fuel = F + 1 :=
      ⟨fuel - 1, by have := pretty_length_pos (.object []) level; omega⟩
    obtain ⟨hd, -⟩ := nesting_lt_of_object hn
    have hfuel : (prettyFields (level + 1) true []).length < F := by
      have : (Value.pretty level (.object [])).length = 2 := by simp only [Value.pretty]; rfl
      simp only [prettyFields]
      rw [this] at hf
      simp
      omega
    have := @yields_value_object false F _ ([] ++ fs') (125 :: r) _
      (by rw [h]; simp only [Value.pretty]; rfl) hd
      (fun c' h' _ => hfs' hfuel (by simp) (by simp) (by rw [h']; simp [prettyFields]))
    simpa using this
  | cons g rest =>
    obtain ⟨fs', hshape, hfs'⟩ := @yields_prettyFields _ ih hs (level + 1) true
      (10 :: List.replicate (2 * level) 32) r fun b hb => blank_of_mem_indent hb
    refine ⟨.object fs', by simp [Value.shape, hshape], fun {fuel c} hf hn h => ?_⟩
    obtain ⟨hd, hfs⟩ := nesting_lt_of_object hn
    have hlen : (Value.pretty level (.object (g :: rest))).length =
        1 + (prettyFields (level + 1) true (g :: rest)).length + 1 + (indent level).length + 1 := by
      simp only [Value.pretty, String.length_append]
      rfl
    obtain ⟨F, rfl⟩ : ∃ F, fuel = F + 1 := ⟨fuel - 1, by omega⟩
    have h' : c.rest = 123 :: ((prettyFields (level + 1) true (g :: rest)).toList.flatMap
        String.utf8EncodeChar ++ (10 :: List.replicate (2 * level) 32 ++ 125 :: r)) := by
      rw [h]
      simp only [Value.pretty, String.toList_append, List.flatMap_append, newline_bytes,
        indent_bytes, bracket_bytes, List.append_assoc, List.cons_append, List.nil_append]
    have := @yields_value_object false F _ ([] ++ fs') _ _ h' hd fun c' h' d' =>
      hfs' (by omega) (fun f hf => by rw [d']; exact hfs f hf) (by simp) h'
    simpa using this

/-- Every canonical value reads back from its pretty text with its shape, by induction on
canonical values: one lemma per kind of value, containers from their elements and members. -/
theorem rereads_of_canonical {v : Value} (hc : v.Canonical) : Rereads v := by
  induction hc with
  | null => exact rereads_null
  | bool b => exact rereads_bool b
  | number n => exact rereads_number n
  | string s => exact rereads_string s
  | array _ ih => exact rereads_array ih
  | object hs _ ih => exact rereads_object hs ih

end Scan

/-! ## Whole documents -/

/-- The pretty text of a canonical value that nests less deep than the limit reads back as a
document, with the value's shape. -/
theorem Value.readText_pretty {v : Value} (hc : v.Canonical) (hn : v.nesting < nestingLimit) :
    ∃ v', Value.readText (v.pretty 0) = .ok v' ∧ v'.shape = v.shape := by
  obtain ⟨v', hshape, hy⟩ := Scan.rereads_of_canonical hc 0 (r := []) fun _ h => by cases h
  refine ⟨v', ?_, hshape⟩
  have hbytes := String.toUTF8_toList (v.pretty 0)
  have hlen : (v.pretty 0).length ≤ 2 * ((v.pretty 0).toUTF8.toList.length + 1) := by
    have := Scan.length_le_bytes (v.pretty 0).toList
    rw [hbytes]
    rw [String.length_toList] at this
    omega
  have hdoc : Scan.Yields (do let a ← Scan.anyValue false; Scan.finishDocument; pure a)
      (Cursor.ofBytes (v.pretty 0).toUTF8.toList) v' [] := by
    unfold Scan.anyValue
    refine ((Scan.yields_fuel.bind _).bind _).trans fun c₁ h₁ d₁ => ?_
    refine ((hy hlen (by rw [d₁]; exact hn) (by rw [h₁, List.append_nil]; exact hbytes)).bind
      _).trans fun c₂ h₂ _ => ?_
    exact ((Scan.yields_finishDocument h₂).bind _).trans fun c₃ h₃ _ => Scan.Leads.refl _ h₃
  rw [Value.readText, Value.read, Scan.runDocument_eq]
  exact hdoc.exec_fst

end FeedClient.Json
