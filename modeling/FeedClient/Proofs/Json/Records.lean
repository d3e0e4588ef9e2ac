import Mathlib
import FeedClient.Json.Decode
import FeedClient.Proofs.Json.Reread

/-!
# Typed records read back from their compact text

The typed readers of `Json.Decode` read what the writer writes. `Scan.ReadsBack read v a d`
says that `read` reads the compact text of `v` as `a`, from any cursor with more than `d`
levels of nesting left and before anything that ends a number: a comma, a closing bracket or
the end of the text.

The steps of reading a record's object come first: the record reader around its members
(`Scan.yields_record_object`), and one member whose key names a field not read yet
(`Scan.leads_recordMembers_field`). Scalars read back as themselves: strings, booleans,
64-bit integers of either sign, optional values and enumerations by name.

A record's object is given by its written members (`Scan.Member`): each carries its key, its
value, the field the key names and the proof that reading the value sets that field. Members
that name distinct fields then read, in whatever order they are written, as the record they
build (`Scan.readsBack_record`), so the round trip of a record type is a list of members and
the check that it rebuilds the record.

Main results:

- Theorem `Scan.readsBack_int64`: a 64-bit signed integer reads back as itself.
- Theorem `Scan.yields_recordMembers_members`: written members read as the record they build.
- Theorem `Scan.readsBack_record`: a record's object reads back as the record.
- Theorem `Scan.readsBack_tagged`: an object tagged by its first member reads as the variant
  it names, with the other members as content.
- Theorem `Scan.runDocument_of_readsBack`: a document of compact text reads back.
-/

namespace FeedClient
namespace Json

/-- The bytes of a value's compact text. -/
def Value.compactBytes (v : Value) : List UInt8 := v.compact.toList.flatMap String.utf8EncodeChar

/-- The compact text of an object's members, a comma before each but the first. -/
def membersBytes (first : Bool) : Fields → List UInt8
  | [] => []
  | (k, v) :: rest =>
    (if first then [] else [44]) ++ 34 :: (k.toList.flatMap escapedBytes ++ 34 :: 58 ::
      (v.compactBytes ++ membersBytes false rest))

/-- The text of an object's members has at least a byte per member. -/
theorem length_le_membersBytes (first : Bool) (fs : Fields) :
    fs.length ≤ (membersBytes first fs).length := by
  induction fs generalizing first with
  | nil => simp [membersBytes]
  | cons f fs ih =>
    have := ih false
    cases first <;> simp [membersBytes] <;> omega

/-- The members of an object, as compact text, are their bytes. -/
theorem compactFields_bytes (fs : Fields) :
    (compactFields fs).toList.flatMap String.utf8EncodeChar = membersBytes true fs := by
  have hcolon : (":" : String).toList.flatMap String.utf8EncodeChar = [58] := rfl
  have hcomma : ("," : String).toList.flatMap String.utf8EncodeChar = [44] := rfl
  induction fs with
  | nil => rfl
  | cons f rest ih =>
    obtain ⟨k, v⟩ := f
    cases rest with
    | nil =>
      simp only [compactFields, String.toList_append, List.flatMap_append, quoteString_bytes,
        hcolon]
      simp [membersBytes, Value.compactBytes]
    | cons g rest' =>
      simp only [compactFields, String.toList_append, List.flatMap_append, quoteString_bytes,
        hcolon, hcomma, ih]
      simp [membersBytes, Value.compactBytes]

/-- The compact text of an object is its members between braces. -/
theorem compactBytes_object (fs : Fields) :
    (Value.object fs).compactBytes = 123 :: (membersBytes true fs ++ [125]) := by
  simp only [Value.compactBytes, Value.compact, String.toList_append, List.flatMap_append,
    compactFields_bytes, Scan.bracket_bytes]
  rfl

/-- The compact text of a string is its escaped characters between quotes. -/
theorem compactBytes_string (s : String) :
    (Value.string s).compactBytes = 34 :: (s.toList.flatMap escapedBytes ++ [34]) := by
  simp [Value.compactBytes, Value.compact, quoteString_bytes]

/-- The compact text of a natural number is its decimal digits. -/
theorem compactBytes_nat (n : UInt64) :
    (Value.number (.nat n)).compactBytes =
      (Nat.toDigits 10 n.toNat).flatMap String.utf8EncodeChar := by
  simp [Value.compactBytes, Value.compact, Number.text]

namespace Scan

/-! ## Reading records -/

/-- A placed reading that succeeds is the reading itself. -/
theorem yields_placed {body : Scan α} {c : Cursor} {a : α} {r : List UInt8}
    (h : Yields body c a r) : Yields (placed body) c a r := by
  obtain ⟨c', hr, hd, he⟩ := h
  refine ⟨c', hr, hd, ?_⟩
  simp only [placed, exec_bind, exec_attempt, he, exec_pure]

/-- A string where a string is expected. -/
theorem yields_text (expected : String) (s : String) {c : Cursor} {r : List UInt8}
    (h : c.rest = 34 :: (s.toList.flatMap escapedBytes ++ 34 :: r)) :
    Yields (text expected) c s r := by
  refine yields_placed ?_
  refine ((@yields_blank c [] _ h (by simp) fun b hb => by cases hb; rfl).bind _).trans
    fun c₁ h₁ _ => ?_
  dsimp only [List.head?_cons]
  refine ((yields_bump h₁).bind _).trans fun c₂ h₂ _ => ?_
  exact yields_string s h₂

/-- The members of a record end at the closing brace. -/
theorem yields_recordMembers_end {form : RecordForm σ} {field : Nat → σ → Scan σ} (fuel : Nat)
    (first : Bool) (seen : List Nat) (st : σ) {c : Cursor} {bl r : List UInt8}
    (h : c.rest = bl ++ 125 :: r) (hbl : ∀ b ∈ bl, isBlank b = true) :
    Yields (recordMembers form field (fuel + 1) first seen st) c (st, seen) (125 :: r) := by
  rw [recordMembers]
  refine ((yields_nextKey_end first h hbl).bind _).trans fun c₁ h₁ _ => ?_
  exact Leads.refl _ h₁

/-- A member that names a field not read yet: the field is read after the colon, leaving the
state `st'` and the bytes `r₂`, and the members go on. -/
theorem leads_recordMembers_field {form : RecordForm σ} {field : Nat → σ → Scan σ} (fuel : Nat)
    (st' : σ) (r₂ : List UInt8) {first : Bool} {seen : List Nat} {st : σ} {k : String} {i : Nat}
    {c : Cursor} {r₁ : List UInt8} (hk : Yields (nextKey? first) c (some k) (58 :: r₁))
    (hslot : form.slot k = some i) (hseen : seen.contains i = false)
    (hfield : ∀ c', c'.rest = r₁ → c'.depth = c.depth → Yields (field i st) c' st' r₂) :
    Leads (recordMembers form field (fuel + 1) first seen st)
      (recordMembers form field fuel false (i :: seen) st') c r₂ := by
  rw [recordMembers]
  refine (hk.bind _).trans fun c₁ h₁ d₁ => ?_
  dsimp only
  rw [hslot]
  dsimp only
  rw [hseen]
  simp only [Bool.false_eq_true, ↓reduceIte]
  refine ((yields_colon h₁).bind _).trans fun c₂ h₂ d₂ => ?_
  exact ((hfield c₂ h₂ (d₂.trans d₁)).bind _).trans fun c₃ h₃ _ => Leads.refl _ h₃

/-- A record read from an object: its members, reaching the state `st` with the fields `seen`
read, then the check of the fields read. -/
theorem yields_record_object {form : RecordForm σ} {field : Nat → σ → Scan σ} (st : σ)
    (seen : List Nat) {c : Cursor} {st' : σ} {r₀ r : List UInt8} (h : c.rest = 123 :: r₀)
    (hd : 1 < c.depth)
    (hms : ∀ c', c'.rest = r₀ → c'.depth = c.depth - 1 →
      Yields (recordMembers form field (r₀.length + 1) true [] form.start) c' (st, seen) (125 :: r))
    (hfin : form.finishObject st seen = .ok st') :
    Yields (record form field) c st' r := by
  refine yields_placed ?_
  refine ((@yields_blank c [] _ h (by simp) fun b hb => by cases hb; rfl).bind _).trans
    fun c₁ h₁ d₁ => ?_
  dsimp only [List.head?_cons]
  refine yields_container h₁ (d₁ ▸ hd) (fun c' h' d' => ?_) (fun c' h' => yields_endObject h')
    (fun x => x)
  refine ((yields_fuel.bind _).bind _).trans fun c₂ h₂ d₂ => ?_
  rw [h'] at h₂ ⊢
  refine ((hms c₂ (by rw [h₂]) (by rw [d₂, d', d₁])).bind _).trans fun c₃ h₃ _ => ?_
  dsimp only
  rw [hfin]
  exact Leads.refl _ h₃

/-! ## Values read back from their text -/

/-- `read` reads the compact text of `v` as `a`: from any cursor with more than `d` levels of
nesting left, whatever follows that ends a number. -/
def ReadsBack (read : Scan α) (v : Value) (a : α) (d : Nat) : Prop :=
  ∀ (c : Cursor) (r : List UInt8), c.rest = v.compactBytes ++ r → EndsNumber r →
    d < c.depth → Yields read c a r

/-- A reading that needs some levels of nesting works with more. -/
theorem ReadsBack.mono {read : Scan α} {v : Value} {a : α} {d d' : Nat}
    (h : ReadsBack read v a d) (hd : d ≤ d') : ReadsBack read v a d' :=
  fun c r hc hr hdepth => h c r hc hr (by omega)

/-- A reading whose result a function turns into the result wanted. -/
theorem ReadsBack.map {read : Scan α} {v : Value} {a : α} {d : Nat} (h : ReadsBack read v a d)
    (f : α → β) : ReadsBack (read >>= fun x => pure (f x)) v (f a) d :=
  fun c r hc hr hd => (h c r hc hr hd).bind _

/-- A string reads back as itself. -/
theorem readsBack_text (expected s : String) : ReadsBack (text expected) (.string s) s 0 :=
  fun c r hc _ _ => yields_text expected s (by rw [hc, compactBytes_string]; simp)

/-- The word `true` reads as true. -/
theorem yields_flag_true {c : Cursor} {r : List UInt8}
    (h : c.rest = 116 :: 114 :: 117 :: 101 :: r) : Yields flag c true r := by
  refine yields_placed ?_
  refine ((@yields_blank _ [] _ h (by simp) fun b hb => by cases hb; rfl).bind _).trans
    fun c₁ h₁ _ => ?_
  dsimp only [List.head?_cons]
  refine ((yields_bump h₁).bind _).trans fun c₂ h₂ _ => ?_
  exact ((yields_word [114, 117, 101] h₂).bind _).trans fun c₃ h₃ _ => Leads.refl _ h₃

/-- The word `false` reads as false. -/
theorem yields_flag_false {c : Cursor} {r : List UInt8}
    (h : c.rest = 102 :: 97 :: 108 :: 115 :: 101 :: r) : Yields flag c false r := by
  refine yields_placed ?_
  refine ((@yields_blank _ [] _ h (by simp) fun b hb => by cases hb; rfl).bind _).trans
    fun c₁ h₁ _ => ?_
  dsimp only [List.head?_cons]
  refine ((yields_bump h₁).bind _).trans fun c₂ h₂ _ => ?_
  exact ((yields_word [97, 108, 115, 101] h₂).bind _).trans fun c₃ h₃ _ => Leads.refl _ h₃

/-- A boolean reads back as itself. -/
theorem readsBack_flag (b : Bool) : ReadsBack flag (.bool b) b 0 := by
  intro c r hc _ _
  cases b
  · exact yields_flag_false hc
  · exact yields_flag_true hc

/-- The digits of a 64-bit natural number read as that number. -/
theorem yields_number_nat (n : UInt64) {c : Cursor} {r : List UInt8}
    (h : c.rest = (Nat.toDigits 10 n.toNat).flatMap String.utf8EncodeChar ++ r)
    (hr : EndsNumber r) : Yields (number true) c (.nat n) r := by
  have hn : n.toNat ≤ u64Max := by
    have := n.toNat_lt
    simp only [u64Max, Nat.pow_eq]
    omega
  refine (leads_number_toDigits true hn h hr.endsDigits).trans fun c' h' _ => ?_
  have hend := leads_afterInteger_end true n.toNat (c := c') (h' ▸ hr)
  rw [h'] at hend
  simpa using hend

/-- A minus and the digits of a magnitude from 1 to `2 ^ 63` read as that negative number. -/
theorem yields_number_negSucc (m : Nat) (hm : m + 1 ≤ Nat.pow 2 63) {c : Cursor}
    {r : List UInt8} (h : c.rest = (Nat.toDigits 10 (m + 1)).flatMap String.utf8EncodeChar ++ r)
    (hr : EndsNumber r) : Yields (number false) c (.neg (Int64.ofInt (Int.negSucc m))) r := by
  have hle : m + 1 ≤ u64Max := by
    simp only [u64Max, Nat.pow_eq] at hm ⊢
    omega
  refine (leads_number_toDigits false hle h hr.endsDigits).trans fun c' h' _ => ?_
  have hend := leads_afterInteger_end false (m + 1) (c := c') (h' ▸ hr)
  rw [h'] at hend
  have hcond : ((m + 1 == 0) || decide (m + 1 > Nat.pow 2 63)) = false := by
    have h0 : (m + 1 == 0) = false := rfl
    rw [h0, Bool.false_or, decide_eq_false_iff_not]
    omega
  rw [if_neg (by decide), hcond, if_neg (by decide)] at hend
  have hneg : -((m + 1 : Nat) : Int) = Int.negSucc m := rfl
  rwa [hneg] at hend

/-- A nonnegative 64-bit integer has the same value as its unsigned bits. -/
theorem toNat_toUInt64_of_nonneg {i : Int64} (h : 0 ≤ i.toInt) :
    (i.toUInt64.toNat : Int) = i.toInt := by
  have h1 : i.toUInt64.toNat = i.toBitVec.toNat := rfl
  have h2 : i.toInt = i.toBitVec.toInt := rfl
  rw [h1, h2, BitVec.toInt_eq_toNat_cond]
  rw [h2, BitVec.toInt_eq_toNat_cond] at h
  split at h
  · simp_all
  · have := i.toBitVec.isLt
    omega

/-- Where an integer is expected, a number that starts with a digit is read. -/
theorem yields_integer_digit (expected : String) {c : Cursor} {x : Number} {r : List UInt8}
    (hnum : ∀ c', c'.rest = c.rest → c'.depth = c.depth → Yields (number true) c' x r) :
    Yields (integer expected) c x r := by
  obtain ⟨b, hh, hd⟩ := number_head (hnum c rfl rfl)
  obtain ⟨hbl, -, -, -, h45⟩ := digit_not_other hd
  unfold integer
  have hblank := @yields_blank c [] c.rest rfl (by simp)
    (fun b' hb' => by rw [hh] at hb'; cases hb'; exact hbl)
  refine (hblank.bind _).trans fun c₁ h₁ d₁ => ?_
  rw [hh]
  split
  next heq => cases heq
  next heq => exact absurd (Option.some.inj heq ▸ h45) (by decide)
  next b' _ heq =>
    obtain rfl : b = b' := Option.some.inj heq
    rw [if_pos hd]
    exact hnum c₁ h₁ d₁

/-- Where an integer is expected, a minus starts a negative number. -/
theorem yields_integer_minus (expected : String) {c : Cursor} {x : Number} {r₀ r : List UInt8}
    (h : c.rest = 45 :: r₀)
    (hnum : ∀ c', c'.rest = r₀ → c'.depth = c.depth → Yields (number false) c' x r) :
    Yields (integer expected) c x r := by
  unfold integer
  refine ((@yields_blank _ [] _ h (by simp) fun b hb => by cases hb; rfl).bind _).trans
    fun c₁ h₁ d₁ => ?_
  dsimp only [List.head?_cons]
  refine ((yields_bump h₁).bind _).trans fun c₂ h₂ d₂ => ?_
  exact hnum c₂ h₂ (d₂.trans d₁)

/-- An unsigned 64-bit integer reads back as itself. -/
theorem readsBack_nat64 (n : UInt64) : ReadsBack nat64 (.number (.nat n)) n 0 := by
  intro c r hc hr _
  rw [compactBytes_nat] at hc
  refine yields_placed ?_
  exact ((yields_integer_digit "u64" fun c' h' _ => yields_number_nat n (h'.trans hc) hr).bind
    _).trans fun c₁ h₁ _ => Leads.refl _ h₁

/-- A signed 64-bit integer reads back as itself. -/
theorem readsBack_int64 (i : Int64) : ReadsBack int64 (.number (Number.ofInt64 i)) i 0 := by
  intro c r hc hr _
  refine yields_placed ?_
  by_cases hneg : i < 0
  · -- a minus, then the magnitude, which is at most `2 ^ 63`
    obtain ⟨m, hm⟩ : ∃ m, i.toInt = Int.negSucc m :=
      Int.eq_negSucc_of_lt_zero (by simpa using Int64.lt_iff_toInt_lt.mp hneg)
    have hm63 : m + 1 ≤ Nat.pow 2 63 := by
      have := Int64.le_toInt i
      rw [hm] at this
      simp only [Nat.pow_eq]
      omega
    have hbytes : (Value.number (Number.ofInt64 i)).compactBytes =
        45 :: (Nat.toDigits 10 (m + 1)).flatMap String.utf8EncodeChar := by
      simp [Value.compactBytes, Value.compact, Number.ofInt64, hneg, Number.text, hm, Int.repr]
      rfl
    rw [hbytes, List.cons_append] at hc
    refine ((yields_integer_minus "i64" hc fun c' h' _ =>
      yields_number_negSucc m hm63 h' hr).bind _).trans fun c₁ h₁ _ => ?_
    rw [← hm, Int64.ofInt_toInt]
    exact Leads.refl _ h₁
  · -- the digits of the unsigned bits, below `2 ^ 63`
    have hnn : 0 ≤ i.toInt := by
      rw [Int64.lt_iff_toInt_lt] at hneg
      simpa using hneg
    have hnat := toNat_toUInt64_of_nonneg hnn
    have hlt : i.toUInt64.toNat < Nat.pow 2 63 := by
      have := Int64.toInt_lt i
      simp only [Nat.pow_eq]
      omega
    have hbytes : (Value.number (Number.ofInt64 i)).compactBytes =
        (Nat.toDigits 10 i.toUInt64.toNat).flatMap String.utf8EncodeChar := by
      simp [Value.compactBytes, Value.compact, Number.ofInt64, hneg, Number.text]
    rw [hbytes] at hc
    refine ((yields_integer_digit "i64" fun c' h' _ =>
      yields_number_nat i.toUInt64 (h'.trans hc) hr).bind _).trans fun c₁ h₁ _ => ?_
    dsimp only
    rw [if_pos hlt, Int64.toInt64_toUInt64]
    exact Leads.refl _ h₁

/-- A reading mapped through a function yields the image of its result. -/
theorem Yields.map {x : Scan α} {c : Cursor} {a : α} {r : List UInt8} (h : Yields x c a r)
    (f : α → β) : Yields (f <$> x) c (f a) r := by
  rw [map_eq_pure_bind]
  exact h.bind _

/-- `null` reads back as an absent value. -/
theorem readsBack_optional_null (read : Scan α) : ReadsBack (optional read) .null none 0 := by
  intro c r hc _ _
  have hc' : c.rest = 110 :: 117 :: 108 :: 108 :: r := hc
  unfold optional
  refine ((@yields_blank _ [] _ hc' (by simp) fun b hb => by cases hb; rfl).bind _).trans
    fun c₁ h₁ _ => ?_
  dsimp only [List.head?_cons]
  refine ((yields_bump h₁).bind _).trans fun c₂ h₂ _ => ?_
  exact ((yields_word [117, 108, 108] h₂).bind _).trans fun c₃ h₃ _ => Leads.refl _ h₃

/-- A value that does not start with the `n` of `null` reads as present. -/
theorem readsBack_optional_some {read : Scan α} {v : Value} {a : α} {d : Nat}
    (h : ReadsBack read v a d) {b : UInt8} {t : List UInt8} (hv : v.compactBytes = b :: t)
    (hb : isBlank b = false) (h110 : b ≠ 110) : ReadsBack (optional read) v (some a) d := by
  intro c r hc hr hd
  unfold optional
  have hblank := @yields_blank c [] c.rest rfl (by simp)
    (fun b' hb' => by rw [hc, hv] at hb'; cases hb'; exact hb)
  refine (hblank.bind _).trans fun c₁ h₁ d₁ => ?_
  rw [hc, hv, List.cons_append, List.head?_cons]
  split
  next heq => exact absurd (Option.some.inj heq) h110
  next => exact (h c₁ r (h₁.trans hc) hr (d₁ ▸ hd)).map some

/-- A string reads back as a present text. -/
theorem readsBack_optional_text (expected s : String) :
    ReadsBack (optional (text expected)) (.string s) (some s) 0 :=
  readsBack_optional_some (readsBack_text expected s) (compactBytes_string s) rfl (by decide)

/-- An unsigned 64-bit integer reads back as a present number. -/
theorem readsBack_optional_nat64 (n : UInt64) :
    ReadsBack (optional nat64) (.number (.nat n)) (some n) 0 := by
  obtain ⟨b, t, hbt, hb⟩ := digits_head n.toNat
  obtain ⟨hbl, h110, -⟩ := digit_not_other hb
  exact readsBack_optional_some (readsBack_nat64 n) ((compactBytes_nat n).trans hbt) hbl
    (by simpa using h110)

/-- A name among `names`, as a string, reads as its index. -/
theorem yields_variant {names : List String} {name : String} {i : Nat}
    (hi : names.idxOf? name = some i) {c : Cursor} {r : List UInt8}
    (h : c.rest = 34 :: (name.toList.flatMap escapedBytes ++ 34 :: r)) :
    Yields (variant names) c i r := by
  unfold variant
  refine yields_placed ?_
  refine ((@yields_blank _ [] _ h (by simp) fun b hb => by cases hb; rfl).bind _).trans
    fun c₁ h₁ _ => ?_
  dsimp only [List.head?_cons]
  refine ((yields_bump h₁).bind _).trans fun c₂ h₂ _ => ?_
  refine ((yields_string name h₂).bind _).trans fun c₃ h₃ _ => ?_
  rw [hi]
  exact Leads.refl _ h₃

/-- The name of an enumeration's variant reads back as its index. -/
theorem readsBack_unitVariant {names : List String} {name : String} {i : Nat}
    (hi : names.idxOf? name = some i) : ReadsBack (unitVariant names) (.string name) i 0 := by
  intro c r hc _ _
  have hc' : c.rest = 34 :: (name.toList.flatMap escapedBytes ++ 34 :: r) := by
    rw [hc, compactBytes_string]
    simp
  unfold unitVariant
  refine ((@yields_blank _ [] _ hc' (by simp) fun b hb => by cases hb; rfl).bind _).trans
    fun c₁ h₁ _ => ?_
  dsimp only [List.head?_cons]
  exact yields_variant hi h₁

/-- Any value, read where a string is written, is that string. -/
theorem yields_anyValue_string (ordered : Bool) (s : String) {c : Cursor} {r : List UInt8}
    (h : c.rest = 34 :: (s.toList.flatMap escapedBytes ++ 34 :: r)) :
    Yields (anyValue ordered) c (.string s) r := by
  unfold anyValue
  refine (yields_fuel.bind _).trans fun c₁ h₁ _ => ?_
  rw [show 2 * (c.rest.length + 1) = (2 * c.rest.length + 1) + 1 by omega]
  exact yields_value_string ordered _ s (h₁.trans h)

/-! ## Records -/

/-- A member of a record's object as the writer puts it: its key, its value, the field the key
names, and what reading the value does to the record. -/
structure Member (form : RecordForm σ) (field : Nat → σ → Scan σ) (d : Nat) where
  key : String
  value : Value
  slot : Nat
  set : σ → σ
  slot_eq : form.slot key = some slot
  reads : ∀ st, ReadsBack (field slot st) value (set st) d

/-- The member as a field of an object. -/
def Member.entry {form : RecordForm σ} {field : Nat → σ → Scan σ} {d : Nat}
    (m : Member form field d) : String × Value := (m.key, m.value)

section Members

variable {form : RecordForm σ} {field : Nat → σ → Scan σ} {d : Nat}

/-- The record the members build from `st`, each setting its field in turn. -/
def Member.applyAll (ms : List (Member form field d)) (st : σ) : σ :=
  ms.foldl (fun st m => m.set st) st

/-- Members that name distinct fields, not among those read before, read as the record they
build; the slots read are noted, the last first. -/
theorem yields_recordMembers_members (ms : List (Member form field d)) {first : Bool}
    {seen : List Nat} {st : σ} {fuel : Nat} (hfuel : ms.length < fuel)
    (hnd : (ms.map Member.slot ++ seen).Nodup) {c : Cursor} {r : List UInt8}
    (h : c.rest = membersBytes first (ms.map Member.entry) ++ 125 :: r) (hd : d < c.depth) :
    Yields (recordMembers form field fuel first seen st) c
      (Member.applyAll ms st, (ms.map Member.slot).reverse ++ seen) (125 :: r) := by
  induction ms generalizing first seen st fuel c with
  | nil =>
    obtain ⟨f, rfl⟩ : ∃ f, fuel = f + 1 := ⟨fuel - 1, by simp at hfuel; omega⟩
    exact @yields_recordMembers_end σ form field f first seen st c [] r h (by simp)
  | cons m ms ih =>
    obtain ⟨f, rfl⟩ : ∃ f, fuel = f + 1 := ⟨fuel - 1, by simp at hfuel; omega⟩
    have hnd' : (ms.map Member.slot ++ m.slot :: seen).Nodup := by
      simpa [List.nodup_middle] using hnd
    have hseen : seen.contains m.slot = false := by
      have : m.slot ∉ seen := by simp_all
      simpa using this
    -- what follows the member's value: a comma before the next member, or the closing brace
    have hrest : EndsNumber (membersBytes false (ms.map Member.entry) ++ 125 :: r) := by
      cases ms with
      | nil => exact endsNumber_cons _ (by simp)
      | cons m' ms' => exact endsNumber_cons _ (by simp)
    have hkey : Yields (nextKey? first) c (some m.key)
        (58 :: (m.value.compactBytes ++
          (membersBytes false (ms.map Member.entry) ++ 125 :: r))) := by
      cases first
      · exact @yields_nextKey_comma c [] _ m.key (by rw [h]; simp [membersBytes, Member.entry])
          (by simp)
      · exact @yields_nextKey_first c [] _ m.key (by rw [h]; simp [membersBytes, Member.entry])
          (by simp)
    refine (leads_recordMembers_field f (m.set st) _ hkey m.slot_eq hseen
      fun c' h' d' => m.reads st c' _ h' hrest (d' ▸ hd)).trans fun c' h' d' => ?_
    have hval : (Member.applyAll (m :: ms) st, ((m :: ms).map Member.slot).reverse ++ seen) =
        (Member.applyAll ms (m.set st), (ms.map Member.slot).reverse ++ m.slot :: seen) := by
      simp [Member.applyAll]
    rw [hval]
    exact ih (by simp at hfuel; omega) hnd' h' (d' ▸ hd)

/-- A record whose members are written once each reads back as the record they build, when
every field it requires is among them. -/
theorem readsBack_record (ms : List (Member form field d)) {x : σ}
    (hnd : (ms.map Member.slot).Nodup) (hx : Member.applyAll ms form.start = x)
    (hfin : form.finishObject x (ms.map Member.slot).reverse = .ok x) :
    ReadsBack (record form field) (.object (ms.map Member.entry)) x (d + 1) := by
  intro c r hc _ hd
  rw [compactBytes_object, List.cons_append, List.append_assoc, List.singleton_append] at hc
  refine yields_record_object x (ms.map Member.slot).reverse hc (by omega) (fun c' h' d' => ?_)
    hfin
  have hlen := length_le_membersBytes true (ms.map Member.entry)
  have hmem : Yields (recordMembers form field
      ((membersBytes true (ms.map Member.entry) ++ 125 :: r).length + 1) true [] form.start) c'
      (Member.applyAll ms form.start, (ms.map Member.slot).reverse ++ []) (125 :: r) :=
    yields_recordMembers_members ms (by simp at hlen ⊢; omega) (by simpa using hnd) h'
      (by omega)
  rwa [hx, List.append_nil] at hmem

end Members

/-- A whole document holding the compact text of a value reads back as the value. -/
theorem runDocument_of_readsBack {read : Scan α} {v : Value} {a : α} {d : Nat}
    (h : ReadsBack read v a d) (hd : d < nestingLimit) :
    runDocument read v.compact.toUTF8.toList = .ok a := by
  have hbytes : v.compact.toUTF8.toList = v.compactBytes ++ [] := by
    rw [List.append_nil, String.toUTF8_toList]
    rfl
  have hdoc : Yields (do let a ← read; finishDocument; pure a)
      (Cursor.ofBytes v.compact.toUTF8.toList) a [] := by
    refine ((h _ [] hbytes (fun _ hb => by cases hb) hd).bind _).trans fun c₁ h₁ _ => ?_
    exact ((yields_finishDocument h₁).bind _).trans fun c₂ h₂ _ => Leads.refl _ h₂
  rw [runDocument_eq]
  exact hdoc.exec_fst

/-! ## Internally tagged values -/

/-- Members beside the tag, each a string under a key other than the tag, are kept in order
as the content. -/
theorem yields_taggedMembers_strings (tag : String) (names : List String) (i : Nat)
    (rest : List (String × String)) (htag : ∀ p ∈ rest, p.1 ≠ tag) (acc : Fields)
    {fuel : Nat} (hfuel : rest.length < fuel) {c : Cursor} {r : List UInt8}
    (h : c.rest = membersBytes false (rest.map fun p => (p.1, .string p.2)) ++ 125 :: r) :
    Yields (taggedMembers tag names fuel false (some i) acc) c
      (i, .object (acc ++ rest.map fun p => (p.1, .string p.2))) (125 :: r) := by
  induction rest generalizing acc fuel c with
  | nil =>
    obtain ⟨f, rfl⟩ : ∃ f, fuel = f + 1 := ⟨fuel - 1, by simp at hfuel; omega⟩
    rw [taggedMembers]
    refine ((@yields_nextKey_end false c [] r h (by simp)).bind _).trans fun c₁ h₁ _ => ?_
    rw [List.map_nil, List.append_nil]
    exact Leads.refl _ h₁
  | cons p rest ih =>
    obtain ⟨k, s⟩ := p
    obtain ⟨f, rfl⟩ : ∃ f, fuel = f + 1 := ⟨fuel - 1, by simp at hfuel; omega⟩
    have hk : (k == tag) = false := by simpa using htag (k, s) (by simp)
    have hkey : Yields (nextKey? false) c (some k) (58 :: 34 :: (s.toList.flatMap escapedBytes ++
        34 :: (membersBytes false (rest.map fun p => (p.1, .string p.2)) ++ 125 :: r))) :=
      @yields_nextKey_comma c [] _ k (by simp [h, membersBytes, compactBytes_string]) (by simp)
    rw [taggedMembers]
    refine (hkey.bind _).trans fun c₁ h₁ _ => ?_
    dsimp only
    rw [hk]
    simp only [Bool.false_eq_true, ↓reduceIte]
    refine ((yields_colon h₁).bind _).trans fun c₂ h₂ _ => ?_
    refine ((yields_anyValue_string true s h₂).bind _).trans fun c₃ h₃ _ => ?_
    have := ih (fun q hq => htag q (by simp [hq])) (acc ++ [(k, .string s)])
      (by simp at hfuel; omega) h₃
    simpa using this

/-- An object whose first member is the tag, naming a variant, and whose other members are
strings reads as that variant with the other members as its content. -/
theorem readsBack_tagged {tag expecting name : String} {names : List String} {i : Nat}
    (hi : names.idxOf? name = some i) (rest : List (String × String))
    (htag : ∀ p ∈ rest, p.1 ≠ tag) :
    ReadsBack (tagged tag expecting names)
      (.object ((tag, .string name) :: rest.map fun p => (p.1, .string p.2)))
      (i, .object (rest.map fun p => (p.1, .string p.2))) 1 := by
  intro c r hc _ hd
  rw [compactBytes_object, List.cons_append, List.append_assoc, List.singleton_append] at hc
  unfold tagged
  refine yields_placed ?_
  refine ((@yields_blank c [] _ hc (by simp) fun b hb => by cases hb; rfl).bind _).trans
    fun c₁ h₁ d₁ => ?_
  dsimp only [List.head?_cons]
  refine yields_container h₁ (by omega) (fun c' h' _ => ?_) (fun c' h' => yields_endObject h')
    (fun x => x)
  refine (yields_fuel.bind _).trans fun c₂ h₂ _ => ?_
  rw [h', taggedMembers]
  have hkey : Yields (nextKey? true) c₂ (some tag)
      (58 :: 34 :: (name.toList.flatMap escapedBytes ++
        34 :: (membersBytes false (rest.map fun p => (p.1, .string p.2)) ++ 125 :: r))) :=
    @yields_nextKey_first c₂ [] _ tag (by simp [h₂, h', membersBytes, compactBytes_string])
      (by simp)
  refine (hkey.bind _).trans fun c₃ h₃ _ => ?_
  simp only [beq_self_eq_true, ↓reduceIte, Option.isSome_none, Bool.false_eq_true]
  refine ((yields_colon h₃).bind _).trans fun c₄ h₄ _ => ?_
  refine ((yields_variant hi h₄).bind _).trans fun c₅ h₅ _ => ?_
  have hlen := length_le_membersBytes false (rest.map fun p => (p.1, .string p.2))
  have hfuel : rest.length < (membersBytes true ((tag, .string name) ::
      rest.map fun p => (p.1, .string p.2)) ++ 125 :: r).length := by
    simp only [List.length_map] at hlen
    simp [membersBytes]
    omega
  have := yields_taggedMembers_strings tag names i rest htag [] hfuel h₅
  simpa using this

end Scan




end Json
end FeedClient
