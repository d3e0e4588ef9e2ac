import FeedClient.Proofs.Json.Run

/-!
# What a reading keeps

Only `enter` and `leave` change the nesting allowance of a cursor. Every other piece of the
reader moves through the input and leaves the allowance where it was, whatever its outcome:
`Scan.KeepsDepth` states that of a reading. It is closed under `pure`, `bind` and
conditionals, so each piece gets its lemma from those of the pieces it calls.

`Scan.Triple pre x post` is a partial correctness triple for readings: from a cursor meeting
`pre`, a run of `x` that succeeds ends with a result and a cursor meeting `post`. What the
reader returns is proved with these, one triple per reading.

Main results:

- Theorems `Scan.keepsDepth_number` and `Scan.keepsDepth_string`: reading a number or a
  string keeps the allowance.
- Theorems `Scan.Triple.bind` and `Scan.Triple.thenClose`: triples compose.
- Theorem `Scan.triple_enter`: entering an array or object needs two levels and spends one.
-/

namespace FeedClient.Json
namespace Scan

/-! ## Keeping the nesting allowance -/

/-- A reading that leaves the nesting allowance where it was, whatever its outcome. -/
def KeepsDepth (x : Scan α) : Prop := ∀ c, (x.exec c).2.depth = c.depth

namespace KeepsDepth

/-- A result read from nothing keeps the allowance. -/
theorem pure (a : α) : KeepsDepth (Pure.pure a : Scan α) := fun _ => rfl

/-- Two readings in sequence keep the allowance when each of them does. -/
theorem bind {x : Scan α} {f : α → Scan β} (hx : KeepsDepth x) (hf : ∀ a, KeepsDepth (f a)) :
    KeepsDepth (x >>= f) := by
  intro c
  have h := hx c
  rw [exec_bind]
  generalize x.exec c = p at h ⊢
  rcases p with ⟨_ | a, c'⟩
  · exact h
  · exact (hf a c').trans h

/-- Looking at the cursor keeps the allowance. -/
theorem get : KeepsDepth (MonadState.get : Scan Cursor) := fun _ => rfl

/-- A change of the cursor that keeps its depth keeps the allowance. -/
theorem modify {f : Cursor → Cursor} (hf : ∀ c, (f c).depth = c.depth) :
    KeepsDepth (MonadState.modifyGet (fun c => (PUnit.unit, f c)) : Scan PUnit) := hf

/-- A failure keeps the allowance. -/
theorem throw (e : Error) : KeepsDepth (MonadExcept.throw e : Scan α) := fun _ => rfl

/-- A choice between two readings that keep the allowance keeps it. -/
theorem ite {p : Prop} [Decidable p] {x y : Scan α} (hx : KeepsDepth x) (hy : KeepsDepth y) :
    KeepsDepth (if p then x else y) := by
  split
  · exact hx
  · exact hy

end KeepsDepth

/-! ### The lexical pieces -/

/-- Failing where the cursor stands keeps the allowance. -/
theorem keepsDepth_failHere (s : Malformed) : KeepsDepth (failHere s : Scan α) := by
  intro c; rw [exec_failHere]

/-- Failing at the next byte keeps the allowance. -/
theorem keepsDepth_failAtPeek (s : Malformed) : KeepsDepth (failAtPeek s : Scan α) := fun _ => rfl

/-- Failing some bytes back keeps the allowance. -/
theorem keepsDepth_failBehind (n : Nat) (s : Malformed) : KeepsDepth (failBehind n s : Scan α) :=
  fun _ => rfl

/-- Looking at the next byte keeps the allowance. -/
theorem keepsDepth_peek : KeepsDepth peek := fun _ => rfl

/-- Stepping over a byte keeps the allowance. -/
theorem keepsDepth_bump : KeepsDepth bump := fun c => Cursor.bump_depth c

/-- Taking the next byte keeps the allowance. -/
theorem keepsDepth_next : KeepsDepth next :=
  .bind keepsDepth_peek fun _ => .bind keepsDepth_bump fun _ => .pure _

/-- Skipping blanks keeps the allowance. -/
theorem keepsDepth_blank : KeepsDepth blank :=
  .bind (fun c => (Cursor.skipWhile_rest isBlank c).2) fun _ => keepsDepth_peek

/-- Skipping digits keeps the allowance. -/
theorem keepsDepth_skipDigits : KeepsDepth skipDigits := fun c => (Cursor.skipWhile_rest isDigit c).2

/-- Measuring the fuel of a loop keeps the allowance. -/
theorem keepsDepth_fuel : KeepsDepth fuel := fun _ => rfl

/-- Reading the rest of a literal word keeps the allowance. -/
theorem keepsDepth_word (bs : List UInt8) : KeepsDepth (word bs) := by
  induction bs with
  | nil => exact .pure _
  | cons b bs ih =>
    unfold word
    refine .bind keepsDepth_next fun x => ?_
    split
    · exact keepsDepth_failHere _
    · exact .ite ih (keepsDepth_failHere _)

/-- Reading four hex digits keeps the allowance. -/
theorem keepsDepth_hexQuad : KeepsDepth hexQuad := by
  unfold hexQuad
  refine .bind .get fun c => ?_
  split
  · refine .bind keepsDepth_bump fun _ => .bind keepsDepth_bump fun _ =>
      .bind keepsDepth_bump fun _ => .bind keepsDepth_bump fun _ => ?_
    split
    · exact .pure _
    · exact keepsDepth_failHere _
  · exact .bind (fun c => (Cursor.skipWhile_rest _ c).2) fun _ => keepsDepth_failHere _

/-- Reading the byte a surrogate pair needs next keeps the allowance. -/
theorem keepsDepth_expectEscapeByte (b : UInt8) : KeepsDepth (expectEscapeByte b) := by
  unfold expectEscapeByte
  refine .bind keepsDepth_peek fun x => ?_
  split
  · exact keepsDepth_failHere _
  · exact .bind keepsDepth_bump fun _ => .ite (keepsDepth_failHere _) (.pure _)

/-- Reading a `\u` escape, with its low surrogate, keeps the allowance. -/
theorem keepsDepth_unicodeEscape : KeepsDepth unicodeEscape := by
  unfold unicodeEscape
  refine .bind keepsDepth_hexQuad fun n => .ite (keepsDepth_failHere _) (.ite (.pure _) ?_)
  exact .bind (keepsDepth_expectEscapeByte _) fun _ => .bind (keepsDepth_expectEscapeByte _) fun _ =>
    .bind keepsDepth_hexQuad fun _ => .ite (keepsDepth_failHere _) (.pure _)

/-- Reading an escape keeps the allowance. -/
theorem keepsDepth_escape : KeepsDepth escape := by
  unfold escape
  refine .bind keepsDepth_next fun x => ?_
  split
  all_goals first
    | exact keepsDepth_failHere _
    | exact .pure _
    | exact keepsDepth_unicodeEscape

/-- Reading string content, at any fuel, keeps the allowance. -/
theorem keepsDepth_stringLoop (fuel : Nat) (acc : List UInt8) : KeepsDepth (stringLoop fuel acc) := by
  induction fuel generalizing acc with
  | zero => exact keepsDepth_failHere _
  | succ fuel ih =>
    unfold stringLoop
    refine .bind keepsDepth_peek fun x => ?_
    split
    · exact keepsDepth_failHere _
    · exact .bind keepsDepth_bump fun _ => .pure _
    · exact .bind keepsDepth_bump fun _ => .bind keepsDepth_escape fun _ => ih _
    · exact .bind keepsDepth_bump fun _ => .ite (keepsDepth_failHere _) (ih _)

/-- Reading a string keeps the allowance. -/
theorem keepsDepth_string : KeepsDepth string := by
  unfold string
  refine .bind keepsDepth_fuel fun f => .bind (keepsDepth_stringLoop f []) fun bytes => ?_
  split
  · exact .pure _
  · exact keepsDepth_failBehind _ _

/-! ### Numbers -/

/-- Building the double of a number keeps the allowance. -/
theorem keepsDepth_finish (positive : Bool) (s : Nat) (e : Int) : KeepsDepth (finish positive s e) := by
  unfold finish
  split
  · exact .pure _
  · exact keepsDepth_failHere _

/-- Reading past an exponent too large for 32 bits keeps the allowance. -/
theorem keepsDepth_exponentOverflow (positive zero up : Bool) :
    KeepsDepth (exponentOverflow positive zero up) :=
  .ite (keepsDepth_failHere _) (.bind keepsDepth_skipDigits fun _ => .pure _)

/-- Reading the digits of an exponent keeps the allowance. -/
theorem keepsDepth_exponentDigits (positive : Bool) (s : Nat) (start : Int) (up : Bool) (fuel : Nat)
    (e : Int) : KeepsDepth (exponentDigits positive s start up fuel e) := by
  induction fuel generalizing e with
  | zero => exact keepsDepth_failHere _
  | succ fuel ih =>
    unfold exponentDigits
    refine .bind keepsDepth_peek fun x => ?_
    split
    · exact .ite (.bind keepsDepth_bump fun _ => .ite (keepsDepth_exponentOverflow _ _ _) (ih _))
        (keepsDepth_finish _ _ _)
    · exact keepsDepth_finish _ _ _

/-- Reading an exponent keeps the allowance. -/
theorem keepsDepth_exponent (positive : Bool) (s : Nat) (start : Int) :
    KeepsDepth (exponent positive s start) := by
  unfold exponent
  refine .bind keepsDepth_bump fun _ => .bind keepsDepth_peek fun x => ?_
  -- the sign, read or not, then the join point that reads the digits
  dsimp only
  split
  all_goals first | refine .bind keepsDepth_bump fun _ => ?_ | skip
  all_goals refine .bind (.pure _) fun _ => .bind keepsDepth_next fun y => ?_
  all_goals split
  all_goals first
    | exact keepsDepth_failHere _
    | exact .ite (.bind keepsDepth_fuel fun _ => keepsDepth_exponentDigits _ _ _ _ _ _)
        (keepsDepth_failHere _)

/-- Ending a number, with or without an exponent, keeps the allowance. -/
theorem keepsDepth_finishOrExponent (positive : Bool) (s : Nat) (e : Int) :
    KeepsDepth (finishOrExponent positive s e) := by
  unfold finishOrExponent
  refine .bind keepsDepth_peek fun x => ?_
  split
  · exact keepsDepth_exponent _ _ _
  · exact keepsDepth_exponent _ _ _
  · exact keepsDepth_finish _ _ _

/-- Reading the digits of a fraction keeps the allowance. -/
theorem keepsDepth_fractionDigits (positive : Bool) (before : Int) (fuel s : Nat) (after : Int) :
    KeepsDepth (fractionDigits positive before fuel s after) := by
  have hend : ∀ s after, KeepsDepth (fractionDigits.endFraction positive before s after) := by
    intro s after
    unfold fractionDigits.endFraction
    refine .ite (.bind keepsDepth_peek fun x => ?_) (keepsDepth_finishOrExponent _ _ _)
    split
    · exact keepsDepth_failAtPeek _
    · exact keepsDepth_failAtPeek _
  induction fuel generalizing s after with
  | zero => exact keepsDepth_failHere _
  | succ fuel ih =>
    unfold fractionDigits
    refine .bind keepsDepth_peek fun x => ?_
    split
    · exact .ite (.ite (.bind keepsDepth_skipDigits fun _ => keepsDepth_finishOrExponent _ _ _)
        (.bind keepsDepth_bump fun _ => ih _ _)) (hend _ _)
    · exact hend _ _

/-- Reading a fraction keeps the allowance. -/
theorem keepsDepth_fraction (positive : Bool) (s : Nat) (before : Int) :
    KeepsDepth (fraction positive s before) :=
  .bind keepsDepth_bump fun _ => .bind keepsDepth_fuel fun _ => keepsDepth_fractionDigits _ _ _ _ _

/-- Reading integer digits past the significand keeps the allowance. -/
theorem keepsDepth_longDigits (positive : Bool) (s fuel : Nat) (e : Int) :
    KeepsDepth (longDigits positive s fuel e) := by
  induction fuel generalizing e with
  | zero => exact keepsDepth_failHere _
  | succ fuel ih =>
    unfold longDigits
    refine .bind keepsDepth_peek fun x => ?_
    split
    · exact .ite (.bind keepsDepth_bump fun _ => ih _) (.ite (keepsDepth_fraction _ _ _)
        (.ite (keepsDepth_exponent _ _ _) (keepsDepth_finish _ _ _)))
    · exact keepsDepth_finish _ _ _

/-- Reading what follows the integer part keeps the allowance. -/
theorem keepsDepth_afterInteger (positive : Bool) (s : Nat) : KeepsDepth (afterInteger positive s) := by
  unfold afterInteger
  refine .bind keepsDepth_peek fun x => ?_
  split
  · exact .bind (keepsDepth_fraction _ _ _) fun _ => .pure _
  · exact .bind (keepsDepth_exponent _ _ _) fun _ => .pure _
  · exact .bind (keepsDepth_exponent _ _ _) fun _ => .pure _
  · exact .ite (.pure _) (.ite (.pure _) (.pure _))

/-- Reading the integer digits keeps the allowance. -/
theorem keepsDepth_integerDigits (positive : Bool) (fuel s : Nat) :
    KeepsDepth (integerDigits positive fuel s) := by
  induction fuel generalizing s with
  | zero => exact keepsDepth_failHere _
  | succ fuel ih =>
    unfold integerDigits
    refine .bind keepsDepth_peek fun x => ?_
    split
    · exact .ite (.ite (.bind keepsDepth_fuel fun _ => .bind (keepsDepth_longDigits _ _ _ _)
        fun _ => .pure _) (.bind keepsDepth_bump fun _ => ih _)) (keepsDepth_afterInteger _ _)
    · exact keepsDepth_afterInteger _ _

/-- Reading a number keeps the allowance. -/
theorem keepsDepth_number (positive : Bool) : KeepsDepth (number positive) := by
  unfold number
  refine .bind keepsDepth_next fun x => ?_
  split
  · exact keepsDepth_failHere _
  · refine .ite (.bind keepsDepth_peek fun y => ?_) (.ite (.bind keepsDepth_fuel fun _ =>
      keepsDepth_integerDigits _ _ _) (keepsDepth_failHere _))
    split
    · exact .ite (keepsDepth_failAtPeek _) (keepsDepth_afterInteger _ _)
    · exact keepsDepth_afterInteger _ _

/-! ### Arrays and objects -/

/-- An attempt runs its body and returns the outcome, from the cursor where the body stopped. -/
theorem exec_attempt (body : Scan α) (c : Cursor) :
    (attempt body).exec c = (.ok (body.exec c).1, (body.exec c).2) := rfl

/-- Stepping to the next element of an array keeps the allowance. -/
theorem keepsDepth_nextElement (first : Bool) : KeepsDepth (nextElement? first) := by
  unfold nextElement?
  refine .bind keepsDepth_blank fun b => ?_
  -- each case of the byte computes where the element starts, then the join point on it
  dsimp only
  split
  all_goals first | apply KeepsDepth.ite | skip
  all_goals first
    | refine .bind (.pure _) fun start => ?_
    | refine .bind (keepsDepth_failAtPeek _) fun start => ?_
    | refine .bind keepsDepth_bump fun _ => .bind keepsDepth_blank fun _ => .bind (.pure _)
        fun start => ?_
  all_goals split
  all_goals first | exact .pure _ | exact keepsDepth_failAtPeek _

/-- Stepping to the next member of an object, and reading its key, keeps the allowance. -/
theorem keepsDepth_nextKey (first : Bool) : KeepsDepth (nextKey? first) := by
  unfold nextKey?
  refine .bind keepsDepth_blank fun b => ?_
  dsimp only
  split
  all_goals first | apply KeepsDepth.ite | skip
  all_goals first
    | refine .bind (.pure _) fun start => ?_
    | refine .bind (keepsDepth_failAtPeek _) fun start => ?_
    | refine .bind keepsDepth_bump fun _ => .bind keepsDepth_blank fun _ => .bind (.pure _)
        fun start => ?_
  all_goals split
  all_goals first
    | exact .pure _
    | exact keepsDepth_failAtPeek _
    | exact .bind keepsDepth_bump fun _ => .bind keepsDepth_string fun _ => .pure _

/-- Reading the colon after a key keeps the allowance. -/
theorem keepsDepth_colon : KeepsDepth colon := by
  unfold colon
  refine .bind keepsDepth_blank fun b => ?_
  split
  · exact keepsDepth_bump
  · exact keepsDepth_failAtPeek _
  · exact keepsDepth_failAtPeek _

/-- Reading the end of an array keeps the allowance. -/
theorem keepsDepth_endArray : KeepsDepth endArray := by
  unfold endArray
  refine .bind keepsDepth_blank fun b => ?_
  split
  · exact keepsDepth_bump
  · refine .bind keepsDepth_bump fun _ => .bind keepsDepth_blank fun b' => ?_
    split
    · exact keepsDepth_failAtPeek _
    · exact keepsDepth_failAtPeek _
  · exact keepsDepth_failAtPeek _
  · exact keepsDepth_failAtPeek _

/-- Reading the end of an object keeps the allowance. -/
theorem keepsDepth_endObject : KeepsDepth endObject := by
  unfold endObject
  refine .bind keepsDepth_blank fun b => ?_
  split
  · exact keepsDepth_bump
  all_goals exact keepsDepth_failAtPeek _

/-! ## Triples -/

/-- From every cursor meeting `pre`, a run of `x` that succeeds ends with a result and a cursor
meeting `post`. -/
def Triple (pre : Cursor → Prop) (x : Scan α) (post : α → Cursor → Prop) : Prop :=
  ∀ c, pre c → ∀ a c', x.exec c = (.ok a, c') → post a c'

namespace Triple

variable {pre : Cursor → Prop} {post : α → Cursor → Prop}

/-- A result read from nothing meets a postcondition that the precondition gives it. -/
theorem pure {a : α} (h : ∀ c, pre c → post a c) : Triple pre (Pure.pure a : Scan α) post := by
  intro c hc a' c' he
  rw [exec_pure] at he
  cases he
  exact h c hc

/-- Triples compose in sequence through a middle condition on the first result. -/
theorem bind {x : Scan α} {f : α → Scan β} {mid : α → Cursor → Prop} {post : β → Cursor → Prop}
    (hx : Triple pre x mid) (hf : ∀ a, Triple (mid a) (f a) post) : Triple pre (x >>= f) post := by
  intro c hc b c'' he
  rw [exec_bind] at he
  generalize hr : x.exec c = r at he
  rcases r with ⟨_ | a, c'⟩
  · cases he
  · exact hf a c' (hx c hc a c' hr) b c'' he

/-- A failure meets every triple: nothing is promised of a reading that fails. -/
theorem throw (e : Error) : Triple pre (MonadExcept.throw e : Scan α) post := by
  intro c _ a c' he
  cases he

/-- Failing where the cursor stands meets every triple. -/
theorem failHere (s : Malformed) : Triple pre (Scan.failHere s : Scan α) post := by
  intro c _ a c' he
  rw [exec_failHere] at he
  cases he

/-- Failing at the next byte meets every triple. -/
theorem failAtPeek (s : Malformed) : Triple pre (Scan.failAtPeek s : Scan α) post := by
  intro c _ a c' he
  cases he

/-- A choice between two readings meets a triple that each of them meets. -/
theorem ite {p : Prop} [Decidable p] {x y : Scan α} (hx : Triple pre x post)
    (hy : Triple pre y post) : Triple pre (if p then x else y) post := by
  split
  · exact hx
  · exact hy

/-- A fact that holds before a reading may be taken for granted in its proof. -/
theorem assume {p : Prop} {x : Scan α} (h : p → Triple pre x post) :
    Triple (fun c => p ∧ pre c) x post :=
  fun c hc => h hc.1 c hc.2

/-- A fact that holds before a reading still holds after it. -/
theorem of_fact {p : Prop} {x : Scan α} (h : p → Triple pre x post) :
    Triple (fun c => p ∧ pre c) x (fun a c => p ∧ post a c) :=
  fun c hc a c' he => ⟨hc.1, h hc.1 c hc.2 a c' he⟩

/-- A reading that keeps the nesting allowance keeps any fact about it. -/
theorem of_keepsDepth {x : Scan α} (hx : KeepsDepth x) (d : Nat) :
    Triple (fun c => c.depth = d) x (fun _ c => c.depth = d) := by
  intro c hc a c' he
  have := hx c
  rw [he] at this
  exact this.trans hc

/-- A body followed by its closing reading meets the triple of the body, when closing keeps its
postcondition. -/
theorem thenClose {body : Scan α} {close : Scan Unit} (hb : Triple pre body post)
    (hc : ∀ a, Triple (post a) close (fun _ => post a)) : Triple pre (Scan.thenClose body close) post := by
  intro c hpre a c' he
  unfold Scan.thenClose at he
  rw [exec_bind, exec_attempt] at he
  generalize hr : body.exec c = r at he
  rcases r with ⟨_ | a', c₁⟩
  · -- the body failed: its error is thrown whatever the close does
    simp [exec_attempt] at he
  · simp only at he
    rw [exec_bind] at he
    generalize hr' : close.exec c₁ = r' at he
    rcases r' with ⟨_ | u, c₂⟩
    · cases he
    · simp only [exec_pure, Prod.mk.injEq, Except.ok.injEq] at he
      obtain ⟨rfl, rfl⟩ := he
      exact hc a' c₁ (hb c hpre a' c₁ hr) u c₂ hr'

end Triple

/-- Entering an array or object spends one level, and needs two. -/
theorem triple_enter (d : Nat) :
    Triple (fun c => c.depth = d) enter (fun _ c => 1 < d ∧ c.depth = d - 1) := by
  intro c hc a c' he
  unfold enter at he
  by_cases h : c.depth ≤ 1
  · simp [h, failAtPeek] at he
  · simp only [exec_bind, exec_get, h, if_false, exec_set] at he
    cases he
    exact ⟨by omega, by rw [← hc]⟩

/-- Leaving an array or object gives back the level that entering spent. -/
theorem triple_leave (d : Nat) :
    Triple (fun c => c.depth = d) leave (fun _ c => c.depth = d + 1) := by
  intro c hc a c' he
  simp only [leave, exec_modify] at he
  cases he
  show c.depth + 1 = d + 1
  rw [hc]

end Scan
end FeedClient.Json
