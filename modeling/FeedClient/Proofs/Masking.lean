import FeedClient.Redact
import Mathlib

/-!
# Redactions as pieces

A redaction of a text keeps some of its characters and replaces spans of it, possibly
empty ones, by the mask. We record one as a list of pieces, each a kept character or a cut
span: the pieces read the text (`source`), write the redacted text (`result`), and mark the
characters of the text that lie in a cut span (`hidden`).

The marker passes of `Redact.secrets` rewrite a text that an earlier pass has already
redacted. A `Rule` is a marker pass whose matches and stop characters can never fall inside
a mask. For such a rule, `Rule.lift` runs the pass on the pieces of the earlier redaction,
so that the passes together are again one redaction of the original text.

Main results:

- `splitAfter_eq_some_iff`: the marker search stops at the first match.
- `keeps_of_window`: characters that spell a marker are kept characters of any redaction, so
  a match in what a redaction writes is a match in the text it reads
  (`Occurs.across_of_result`, `Rule.OpenAtEnd.of_result`).
- `Rule.result_lift` and `Rule.coarsens_lift`: the lifted pass writes what the pass writes,
  reads the same text, and hides at least what the pieces hid before.
- `Rule.lift_frame`: pieces that no value of the pass reaches are left as they are.
- `Rule.hides_lift`: the value after a match of the marker is hidden, unless the match
  starts inside an earlier match.
-/

namespace FeedClient
namespace Redact

/-! ## Matches of a marker -/

/-- A text with its ASCII letters lowercased: the form in which marker matches compare. -/
def lower (t : List Char) : List Char := t.map Char.toLower

/-- The empty text lowercases to itself. -/
@[simp] theorem lower_nil : lower [] = [] := rfl

/-- Lowercasing goes character by character. -/
@[simp] theorem lower_cons (c : Char) (t : List Char) : lower (c :: t) = c.toLower :: lower t :=
  rfl

/-- Lowercasing two texts one after the other lowercases each. -/
@[simp] theorem lower_append (x y : List Char) : lower (x ++ y) = lower x ++ lower y :=
  List.map_append

/-- Lowercasing keeps the length. -/
@[simp] theorem length_lower (t : List Char) : (lower t).length = t.length := List.length_map _

/-- Lowercasing commutes with dropping a prefix. -/
theorem lower_drop (t : List Char) (n : Nat) : lower (t.drop n) = (lower t).drop n :=
  List.map_drop

/-- Lowercasing commutes with taking a prefix. -/
theorem lower_take (t : List Char) (n : Nat) : lower (t.take n) = (lower t).take n :=
  List.map_take

/-- A text starts with a marker, ASCII case ignored, exactly when its lowercase form starts with the
marker's. -/
theorem startsWithIgnoringCase_iff (marker text : List Char) :
    startsWithIgnoringCase marker text = true ↔ lower marker <+: lower text := by
  induction marker generalizing text with
  | nil => simp [startsWithIgnoringCase]
  | cons m ms ih =>
    cases text with
    | nil => simp [startsWithIgnoringCase]
    | cons t ts => simp [startsWithIgnoringCase, ih, List.cons_prefix_cons]

/-- `marker` occurs in `t` at position `j`, ASCII case ignored. -/
def Occurs (marker t : List Char) (j : Nat) : Prop := lower marker <+: (lower t).drop j

instance (marker t : List Char) (j : Nat) : Decidable (Occurs marker t j) :=
  inferInstanceAs (Decidable (lower marker <+: (lower t).drop j))

/-- A match of a nonempty marker ends within the text. -/
theorem Occurs.end_le {marker t : List Char} {j : Nat} (hm : marker ≠ [])
    (h : Occurs marker t j) : j + marker.length ≤ t.length := by
  unfold Occurs at h
  have hle := h.length_le
  simp only [List.length_drop, length_lower] at hle
  by_cases hj : j ≤ t.length
  · omega
  · rw [List.drop_eq_nil_of_le (by simp; omega), List.prefix_nil] at h
    exact absurd (by simpa using congrArg List.length h) (List.length_pos_iff.mpr hm).ne'

/-- The stretch where a match starts spells the marker. -/
theorem Occurs.lower_window {marker t : List Char} {j : Nat} (h : Occurs marker t j) :
    lower ((t.drop j).take marker.length) = lower marker := by
  unfold Occurs at h
  rw [lower_take, lower_drop, List.prefix_iff_eq_take.mp h, length_lower]

/-- A match that ends within the first of two texts is a match in that text. -/
theorem occurs_append_left {marker x y : List Char} {j : Nat}
    (hj : j + marker.length ≤ x.length) : Occurs marker (x ++ y) j ↔ Occurs marker x j := by
  have hlen : (lower marker).length ≤ ((lower x).drop j).length := by simp; omega
  unfold Occurs
  rw [lower_append, List.drop_append_of_le_length (by simp; omega), List.prefix_iff_eq_take,
    List.prefix_iff_eq_take, List.take_append_of_le_length hlen]

/-- A match past the first of two texts is a match in the second, shifted by its length. -/
theorem occurs_append_right {marker x y : List Char} {j : Nat} :
    Occurs marker (x ++ y) (x.length + j) ↔ Occurs marker y j := by
  unfold Occurs
  rw [lower_append, ← length_lower x, List.drop_length_add_append]

/-- A stretch that spells the marker, ASCII case ignored, is a match of it. -/
theorem occurs_of_lower_eq {marker w : List Char} (hw : lower w = lower marker)
    (x y : List Char) : Occurs marker (x ++ w ++ y) x.length := by
  have h : Occurs marker (w ++ y) 0 := by
    unfold Occurs
    rw [List.drop_zero, lower_append, hw]
    exact List.prefix_append _ _
  rw [← Nat.add_zero x.length, List.append_assoc]
  exact occurs_append_right.mpr h

/-- A match at the start is the text starting with the marker. -/
theorem occurs_zero_iff {marker t : List Char} :
    Occurs marker t 0 ↔ startsWithIgnoringCase marker t = true := by
  simp [Occurs, startsWithIgnoringCase_iff]

/-- A match one character further in a text with one more character in front. -/
theorem occurs_cons_succ {marker t : List Char} {c : Char} {j : Nat} :
    Occurs marker (c :: t) (j + 1) ↔ Occurs marker t j := by
  simp [Occurs]

/-- A nonempty marker occurs nowhere in the empty text. -/
theorem not_occurs_nil {marker : List Char} (hm : marker ≠ []) (j : Nat) :
    ¬ Occurs marker [] j := by
  intro h
  have hend := h.end_le hm
  have hpos := List.length_pos_iff.mpr hm
  rw [List.length_nil] at hend
  omega

/-- Stretches spelling `a` and `b`, the second starting `d` characters into the first, agree
where they overlap, ASCII case ignored. -/
def Overlaps (a b : List Char) (d : Nat) : Prop :=
  (lower a).drop d <+: lower b ∨ lower b <+: (lower a).drop d

instance (a b : List Char) (d : Nat) : Decidable (Overlaps a b d) :=
  inferInstanceAs (Decidable ((lower a).drop d <+: lower b ∨ lower b <+: (lower a).drop d))

/-- Two matches in one text, the second starting `d` characters after the first, agree where
they overlap. -/
theorem Occurs.overlaps {a b t : List Char} {i d : Nat} (ha : Occurs a t i)
    (hb : Occurs b t (i + d)) : Overlaps a b d := by
  have ha' : (lower a).drop d <+: (lower t).drop (i + d) := by
    unfold Occurs at ha
    rw [List.prefix_iff_eq_take.mp ha, List.drop_take, List.drop_drop]
    exact List.take_prefix _ _
  exact List.prefix_or_prefix_of_prefix ha' hb

/-- The marker search stops at the first match: the text up to the end of that match, and
the rest. -/
theorem splitAfter_eq_some_iff {marker : List Char} (hm : marker ≠ [])
    {t before after : List Char} :
    splitAfter marker t = some (before, after) ↔
      ∃ f, Occurs marker t f ∧ (∀ j < f, ¬ Occurs marker t j) ∧
        before = t.take (f + marker.length) ∧ after = t.drop (f + marker.length) := by
  induction t generalizing before after with
  | nil =>
    have : marker.isEmpty = false := by simpa using hm
    simp [splitAfter, this, not_occurs_nil hm]
  | cons c t ih =>
    rw [splitAfter]
    by_cases hs : startsWithIgnoringCase marker (c :: t) = true
    · rw [if_pos hs]
      have h0 : Occurs marker (c :: t) 0 := occurs_zero_iff.mpr hs
      constructor
      · intro h
        simp only [Option.some.injEq, Prod.mk.injEq] at h
        exact ⟨0, h0, fun j hj => absurd hj (Nat.not_lt_zero j), by simp [h.1], by simp [h.2]⟩
      · rintro ⟨f, -, hfirst, rfl, rfl⟩
        have hf : f = 0 := Nat.eq_zero_of_not_pos fun hpos => hfirst 0 hpos h0
        subst hf
        simp
    · rw [if_neg hs]
      have h0 : ¬ Occurs marker (c :: t) 0 := fun h => hs (occurs_zero_iff.mp h)
      constructor
      · intro h
        obtain ⟨⟨b, a⟩, hba, heq⟩ := Option.map_eq_some_iff.mp h
        simp only [Prod.mk.injEq] at heq
        obtain ⟨rfl, rfl⟩ := heq
        obtain ⟨f, hf, hfirst, rfl, rfl⟩ := ih.mp hba
        refine ⟨f + 1, occurs_cons_succ.mpr hf, ?_, ?_, ?_⟩
        · intro j hj
          cases j with
          | zero => exact h0
          | succ j => exact fun h => hfirst j (by omega) (occurs_cons_succ.mp h)
        · rw [Nat.add_right_comm, List.take_succ_cons]
        · rw [Nat.add_right_comm, List.drop_succ_cons]
      · rintro ⟨f, hf, hfirst, rfl, rfl⟩
        cases f with
        | zero => exact absurd hf h0
        | succ f =>
          have hba : splitAfter marker t =
              some (t.take (f + marker.length), t.drop (f + marker.length)) :=
            ih.mpr ⟨f, occurs_cons_succ.mp hf,
              fun j hj h => hfirst (j + 1) (by omega) (occurs_cons_succ.mpr h), rfl, rfl⟩
          rw [hba, Nat.add_right_comm, List.take_succ_cons, List.drop_succ_cons]
          rfl

/-- The marker search finds nothing exactly when the marker occurs nowhere. -/
theorem splitAfter_eq_none_iff {marker : List Char} (hm : marker ≠ []) {t : List Char} :
    splitAfter marker t = none ↔ ∀ j, ¬ Occurs marker t j := by
  induction t with
  | nil =>
    have : marker.isEmpty = false := by simpa using hm
    simp [splitAfter, this, not_occurs_nil hm]
  | cons c t ih =>
    rw [splitAfter]
    by_cases hs : startsWithIgnoringCase marker (c :: t) = true
    · rw [if_pos hs]
      simpa using ⟨0, occurs_zero_iff.mpr hs⟩
    · rw [if_neg hs, Option.map_eq_none_iff, ih]
      constructor
      · intro h j
        cases j with
        | zero => exact fun h0 => hs (occurs_zero_iff.mp h0)
        | succ j => exact fun hj => h j (occurs_cons_succ.mp hj)
      · exact fun h j hj => h (j + 1) (occurs_cons_succ.mpr hj)

/-! ## Pieces -/

/-- The mask spells `REDACTED`. -/
theorem mask_eq : mask = ['R', 'E', 'D', 'A', 'C', 'T', 'E', 'D'] := rfl

/-- A stop test that no letter of the mask passes, checked letter by letter. -/
theorem stop_mask_of_all {stop : Char → Bool} (h : mask.all (fun c => !stop c) = true) :
    ∀ c ∈ mask, stop c = false := fun c hc => by
  simpa using List.all_eq_true.mp h c hc

/-- One step of a redaction: a character of the text kept as it is, or a span of the text,
possibly empty, replaced by the mask. -/
inductive Piece
  | keep (c : Char)
  | cut (span : List Char)

namespace Piece

/-- What the piece reads. -/
@[simp] def source : Piece → List Char
  | keep c => [c]
  | cut span => span

/-- What the piece writes. -/
@[simp] def result : Piece → List Char
  | keep c => [c]
  | cut _ => mask

/-- For each character the piece reads, whether it is cut. -/
@[simp] def hidden : Piece → List Bool
  | keep _ => [false]
  | cut span => span.map fun _ => true

/-- Every piece writes something: its character, or the mask. -/
theorem result_ne_nil (p : Piece) : p.result ≠ [] := by
  cases p <;> simp [mask_eq]

/-- A piece marks each character it reads. -/
theorem length_hidden (p : Piece) : p.hidden.length = p.source.length := by
  cases p <;> simp

end Piece

/-- The text a redaction reads. -/
def source (ps : List Piece) : List Char := ps.flatMap Piece.source

/-- The text a redaction writes. -/
def result (ps : List Piece) : List Char := ps.flatMap Piece.result

/-- For each character of the text a redaction reads, whether it lies in a cut span. -/
def hidden (ps : List Piece) : List Bool := ps.flatMap Piece.hidden

/-- An empty redaction reads nothing. -/
@[simp] theorem source_nil : source [] = [] := rfl

/-- An empty redaction writes nothing. -/
@[simp] theorem result_nil : result [] = [] := rfl

/-- An empty redaction marks nothing. -/
@[simp] theorem hidden_nil : hidden [] = [] := rfl

/-- Pieces read what their first piece reads, then what the rest read. -/
@[simp] theorem source_cons (p : Piece) (ps : List Piece) :
    source (p :: ps) = p.source ++ source ps := List.flatMap_cons

/-- Pieces write what their first piece writes, then what the rest write. -/
@[simp] theorem result_cons (p : Piece) (ps : List Piece) :
    result (p :: ps) = p.result ++ result ps := List.flatMap_cons

/-- Pieces mark what their first piece marks, then what the rest mark. -/
@[simp] theorem hidden_cons (p : Piece) (ps : List Piece) :
    hidden (p :: ps) = p.hidden ++ hidden ps := List.flatMap_cons

/-- Two runs of pieces read their texts one after the other. -/
@[simp] theorem source_append (ps qs : List Piece) :
    source (ps ++ qs) = source ps ++ source qs := List.flatMap_append

/-- Two runs of pieces write their texts one after the other. -/
@[simp] theorem result_append (ps qs : List Piece) :
    result (ps ++ qs) = result ps ++ result qs := List.flatMap_append

/-- Two runs of pieces mark their characters one after the other. -/
@[simp] theorem hidden_append (ps qs : List Piece) :
    hidden (ps ++ qs) = hidden ps ++ hidden qs := List.flatMap_append

/-- Keeping every character of a text reads that text. -/
@[simp] theorem source_keeps (t : List Char) : source (t.map Piece.keep) = t := by
  induction t <;> simp_all

/-- Keeping every character of a text writes that text. -/
@[simp] theorem result_keeps (t : List Char) : result (t.map Piece.keep) = t := by
  induction t <;> simp_all

/-- A redaction marks each character it reads. -/
theorem length_hidden (ps : List Piece) : (hidden ps).length = (source ps).length := by
  induction ps with
  | nil => rfl
  | cons p ps ih => simp only [hidden_cons, source_cons, List.length_append, ih, p.length_hidden]

/-- Pieces write nothing only when there are none. -/
theorem result_eq_nil {ps : List Piece} : result ps = [] ↔ ps = [] := by
  cases ps with
  | nil => simp
  | cons p ps => simp only [result_cons, List.append_eq_nil_iff, p.result_ne_nil, false_and,
      reduceCtorEq]

/-- A character read by pieces is read by one of them. -/
theorem mem_source {ps : List Piece} {c : Char} : c ∈ source ps ↔ ∃ p ∈ ps, c ∈ p.source := by
  simp [source]

/-- A character written by pieces is written by one of them. -/
theorem mem_result {ps : List Piece} {c : Char} : c ∈ result ps ↔ ∃ p ∈ ps, c ∈ p.result := by
  simp [result]

/-- A redaction writes characters it reads and characters of the mask. -/
theorem mem_source_or_mask_of_mem_result {ps : List Piece} {c : Char} (h : c ∈ result ps) :
    c ∈ source ps ∨ c ∈ mask := by
  obtain ⟨p, hp, hc⟩ := mem_result.mp h
  cases p with
  | keep d => exact Or.inl (mem_source.mpr ⟨_, hp, hc⟩)
  | cut span => exact Or.inr hc

/-- Of two ways to cut one list of pieces in two, the one whose first part writes less has
the shorter first part. -/
theorem prefix_of_result_le {A B C D : List Piece} (h : A ++ B = C ++ D)
    (hle : (result A).length ≤ (result C).length) : ∃ X, C = A ++ X := by
  rcases List.append_eq_append_iff.mp h with ⟨X, hC, -⟩ | ⟨Y, rfl, -⟩
  · exact ⟨X, hC⟩
  · have hY : result Y = [] := by
      simp only [result_append, List.length_append] at hle
      exact List.eq_nil_of_length_eq_zero (by omega)
    exact ⟨[], by simp [result_eq_nil.mp hY]⟩

/-- Two ways to cut one list of pieces whose first parts write equally much are the same. -/
theorem eq_of_result_length {A B C D : List Piece} (h : A ++ B = C ++ D)
    (hlen : (result A).length = (result C).length) : A = C ∧ B = D := by
  obtain ⟨X, rfl⟩ := prefix_of_result_le h hlen.le
  have hX : X = [] := by
    simp only [result_append, List.length_append] at hlen
    exact result_eq_nil.mp (List.eq_nil_of_length_eq_zero (by omega))
  subst hX
  simpa using h

/-! ## Hidden characters -/

/-- The redaction cuts the `count` characters of its source from position `start` on. -/
def Hides (ps : List Piece) (start count : Nat) : Prop :=
  ∀ i, start ≤ i → i < start + count → (hidden ps)[i]? = some true

/-- A redaction hides every stretch inside one it hides. -/
theorem Hides.of_le {ps : List Piece} {start n start' n' : Nat} (h : Hides ps start n)
    (hs : start ≤ start') (hn : start' + n' ≤ start + n) : Hides ps start' n' :=
  fun i hi hi' => h i (by omega) (by omega)

/-- A stretch hidden by later pieces is hidden, shifted by what the earlier pieces read, by all of
them. -/
theorem Hides.append_right {qs : List Piece} {start n : Nat} (h : Hides qs start n)
    (ps : List Piece) : Hides (ps ++ qs) ((source ps).length + start) n := by
  intro i hs hi
  rw [hidden_append, List.getElem?_append_right (by rw [length_hidden]; omega), length_hidden]
  exact h _ (by omega) (by omega)

/-- A cut span is hidden. -/
theorem hides_cut (ps qs : List Piece) (span : List Char) :
    Hides (ps ++ Piece.cut span :: qs) (source ps).length span.length := by
  have h : Hides (Piece.cut span :: qs) 0 span.length := by
    intro i _ hi
    simp only [hidden_cons, Piece.hidden]
    rw [List.getElem?_append_left (by simp; omega), List.getElem?_map,
      List.getElem?_eq_getElem (by omega)]
    rfl
  simpa using h.append_right ps

/-- `qs` redacts the same text as `ps` and hides every character that `ps` hides. -/
def Coarsens (ps qs : List Piece) : Prop :=
  source qs = source ps ∧ ∀ i : Nat, (hidden ps)[i]? = some true → (hidden qs)[i]? = some true

/-- Pieces coarsen themselves. -/
theorem Coarsens.refl (ps : List Piece) : Coarsens ps ps := ⟨rfl, fun _ h => h⟩

/-- Coarsening the two halves of a redaction coarsens the whole. -/
theorem Coarsens.append {ps qs ps' qs' : List Piece} (h : Coarsens ps ps')
    (h' : Coarsens qs qs') : Coarsens (ps ++ qs) (ps' ++ qs') := by
  have hlen : (hidden ps').length = (hidden ps).length := by
    rw [length_hidden, length_hidden, h.1]
  refine ⟨by simp [h.1, h'.1], fun i hi => ?_⟩
  rw [hidden_append] at hi ⊢
  by_cases hlt : i < (hidden ps).length
  · have hlt' : i < (hidden ps').length := by omega
    rw [List.getElem?_append_left hlt] at hi
    rw [List.getElem?_append_left hlt']
    exact h.2 i hi
  · have hle : (hidden ps').length ≤ i := by omega
    rw [List.getElem?_append_right (by omega)] at hi
    rw [List.getElem?_append_right hle, hlen]
    exact h'.2 _ hi

/-- Merging pieces into one cut of everything they read hides at least what they hid. -/
theorem Coarsens.cut (ps : List Piece) : Coarsens ps [Piece.cut (source ps)] := by
  refine ⟨by simp, fun i hi => ?_⟩
  have hlt : i < (source ps).length := length_hidden ps ▸ (List.getElem?_eq_some_iff.mp hi).1
  simp [hlt]

/-- What pieces hide, a coarsening of them hides too. -/
theorem Hides.coarsens {ps qs : List Piece} {start n : Nat} (h : Hides ps start n)
    (hc : Coarsens ps qs) : Hides qs start n :=
  fun i hs hi => hc.2 i (h i hs hi)

/-! ## Cutting pieces where their result is cut -/

/-- The boundary between `x` and `y` does not fall strictly inside a mask. -/
def Seam (x y : List Char) : Prop := ∀ a ∈ x.getLast?, ∀ b ∈ y.head?, a ∈ mask → b ∉ mask

/-- A text that starts with no letter of the mask meets any text before it at a seam. -/
theorem seam_of_head {x y : List Char} (h : ∀ b ∈ y.head?, b ∉ mask) : Seam x y :=
  fun _ _ b hb _ => h b hb

/-- Pieces whose result is `x ++ y` split into pieces writing `x` and pieces writing `y`,
when the boundary is not inside a mask. -/
theorem exists_split {ps : List Piece} {x y : List Char} (h : result ps = x ++ y)
    (hs : Seam x y) : ∃ ps₁ ps₂, ps = ps₁ ++ ps₂ ∧ result ps₁ = x ∧ result ps₂ = y := by
  induction ps generalizing x with
  | nil =>
    obtain ⟨rfl, rfl⟩ := List.append_eq_nil_iff.mp h.symm
    exact ⟨[], [], rfl, rfl, rfl⟩
  | cons p ps ih =>
    cases x with
    | nil => exact ⟨[], p :: ps, rfl, rfl, by simpa using h⟩
    | cons a x =>
      rw [result_cons] at h
      rcases List.append_eq_append_iff.mp h with ⟨as, hx, hps⟩ | ⟨bs, hp, hy⟩
      · have hs' : Seam as y := by
          intro l hl b hb hlm
          cases as with
          | nil => simp at hl
          | cons a' as' =>
            refine hs l ?_ b hb hlm
            rw [hx, List.getLast?_append, Option.mem_def.mp hl]
            rfl
        obtain ⟨ps₁, ps₂, rfl, h₁, h₂⟩ := ih hps hs'
        exact ⟨p :: ps₁, ps₂, rfl, by simp [h₁, hx], h₂⟩
      · cases bs with
        | nil => exact ⟨[p], ps, rfl, by simpa using hp, by simpa using hy.symm⟩
        | cons b bs =>
          exfalso
          cases p with
          | keep c => simp at hp
          | cut span =>
            simp only [Piece.result] at hp
            have hlast : (a :: x).getLast (List.cons_ne_nil _ _) ∈ mask := by
              rw [hp]; exact List.mem_append_left _ (List.getLast_mem _)
            have hb : b ∈ mask := by rw [hp]; simp
            exact hs _ (List.getLast?_eq_some_getLast (List.cons_ne_nil _ _)) b (by simp [hy])
              hlast hb

/-- No stretch of `w` lines up with a stretch of the mask, ASCII case ignored, so a run of
characters that spells `w` never overlaps a mask. -/
def ApartFromMask (w : List Char) : Prop :=
  ∀ i < w.length, ∀ k < mask.length,
    ¬ (lower w).drop i <+: (lower mask).drop k ∧ ¬ (lower mask).drop k <+: (lower w).drop i

instance : DecidablePred ApartFromMask := fun w =>
  inferInstanceAs (Decidable (∀ i < w.length, ∀ k < mask.length,
    ¬ (lower w).drop i <+: (lower mask).drop k ∧ ¬ (lower mask).drop k <+: (lower w).drop i))

/-- Being apart from the mask depends on the lowercase form alone. -/
theorem ApartFromMask.of_lower_eq {w w' : List Char} (h : ApartFromMask w)
    (hl : lower w' = lower w) : ApartFromMask w' := by
  have hlen : w'.length = w.length := by simpa using congrArg List.length hl
  intro i hi k hk
  rw [hl]
  exact h i (by omega) k hk

/-- A text apart from the mask stays so without its first character. -/
theorem ApartFromMask.tail {c : Char} {w : List Char} (h : ApartFromMask (c :: w)) :
    ApartFromMask w := by
  intro i hi k hk
  have := h (i + 1) (by simp; omega) k hk
  simpa using this

/-- A prefix of the mask or the mask itself, lined up with the start of a text apart from
the mask, is a contradiction. -/
theorem not_mask_overlap {w : List Char} (hw : ApartFromMask w) (hne : w ≠ [])
    (k : Nat) (hk : k < mask.length) (rest y : List Char)
    (h : mask.drop k ++ rest = w ++ y) : False := by
  have hw0 := hw 0 (List.length_pos_iff.mpr hne) k hk
  simp only [List.drop_zero] at hw0
  rcases List.append_eq_append_iff.mp h with ⟨as, hw', -⟩ | ⟨bs, hm, -⟩
  · exact hw0.2 (by rw [hw', lower_append, ← lower_drop]; exact List.prefix_append _ _)
  · exact hw0.1 (by rw [← lower_drop, hm, lower_append]; exact List.prefix_append _ _)

/-- Pieces whose result starts with a text apart from the mask start by keeping it. -/
theorem keeps_of_prefix {w : List Char} (hw : ApartFromMask w) {ps : List Piece}
    {y : List Char} (h : result ps = w ++ y) :
    ∃ B, ps = w.map Piece.keep ++ B ∧ result B = y := by
  induction w generalizing ps with
  | nil => exact ⟨ps, rfl, h⟩
  | cons c w ih =>
    cases ps with
    | nil => simp at h
    | cons p ps =>
      cases p with
      | keep d =>
        simp only [result_cons, Piece.result, List.cons_append, List.cons.injEq] at h
        obtain ⟨rfl, h⟩ := h
        obtain ⟨B, rfl, hB⟩ := ih hw.tail h
        exact ⟨B, rfl, hB⟩
      | cut span =>
        have h' : mask.drop 0 ++ result ps = (c :: w) ++ y := by simpa using h
        exact (not_mask_overlap hw (List.cons_ne_nil _ _) 0 (by rw [mask_eq]; decide) _ _ h').elim

/-- Characters of a result that spell a text apart from the mask are kept characters. -/
theorem keeps_of_window {w : List Char} (hw : ApartFromMask w) (hne : w ≠ [])
    {ps : List Piece} {x y : List Char} (h : result ps = x ++ w ++ y) :
    ∃ A B, ps = A ++ w.map Piece.keep ++ B ∧ result A = x ∧ result B = y := by
  induction ps generalizing x with
  | nil =>
    simp only [result_nil, List.append_assoc] at h
    exact absurd (List.append_eq_nil_iff.mp (List.append_eq_nil_iff.mp h.symm).2).1 hne
  | cons p ps ih =>
    cases x with
    | nil =>
      obtain ⟨B, hB, hBr⟩ := keeps_of_prefix hw (by simpa only [List.nil_append] using h)
      exact ⟨[], B, by simpa using hB, rfl, hBr⟩
    | cons a x =>
      rw [result_cons, List.append_assoc] at h
      rcases List.append_eq_append_iff.mp h with ⟨as, hx, hps⟩ | ⟨bs, hp, hy⟩
      · obtain ⟨A, B, rfl, hA, hB⟩ := ih (by rw [hps, List.append_assoc])
        exact ⟨p :: A, B, rfl, by simp [hA, hx], hB⟩
      · cases bs with
        | nil =>
          obtain ⟨B, hB, hBr⟩ := keeps_of_prefix hw hy.symm
          exact ⟨[p], B, by simp [hB], by simpa using hp, hBr⟩
        | cons b bs =>
          exfalso
          cases p with
          | keep c => simp at hp
          | cut span =>
            simp only [Piece.result] at hp
            have hk : (a :: x).length < mask.length := by
              rw [hp]; simp
            refine not_mask_overlap hw hne _ hk (result ps) y ?_
            rw [hp, List.drop_left]
            exact hy.symm

/-- A match, in what a redaction writes, of a marker apart from the mask is made of kept
characters. -/
theorem exists_kept_match {m : List Char} (hm : ApartFromMask m) (hne : m ≠ [])
    {ps : List Piece} {j : Nat} (h : Occurs m (result ps) j) :
    ∃ A w B, ps = A ++ w.map Piece.keep ++ B ∧ result A = (result ps).take j ∧
      w = ((result ps).drop j).take m.length ∧ result B = (result ps).drop (j + m.length) := by
  set t := result ps with ht
  have hlw := h.lower_window
  have hwne : (t.drop j).take m.length ≠ [] := fun h => hne
    (List.eq_nil_of_length_eq_zero (by simpa [h] using (congrArg List.length hlw).symm))
  have hsplit : t = t.take j ++ (t.drop j).take m.length ++ t.drop (j + m.length) := by
    rw [List.append_assoc, ← List.drop_drop, List.take_append_drop, List.take_append_drop]
  obtain ⟨A, B, hAB, hA, hB⟩ := keeps_of_window (hm.of_lower_eq hlw) hwne (ht ▸ hsplit)
  exact ⟨A, _, B, hAB, hA, rfl, hB⟩

/-- A match of a marker apart from the mask that starts in what pieces `P` write and runs
past it is a match in the text read, starting as far before the end of what `P` read. -/
theorem Occurs.across_of_result {m : List Char} (hm : ApartFromMask m) (hne : m ≠ [])
    {P Q : List Piece} {j : Nat} (h : Occurs m (result (P ++ Q)) j) (hj : j < (result P).length)
    (hj' : (result P).length < j + m.length) :
    ∃ i, Occurs m (source (P ++ Q)) i ∧ i + (result P).length = (source P).length + j := by
  obtain ⟨A, w, B, hAB, hA, hw, -⟩ := exists_kept_match hm hne h
  have hlw : lower w = lower m := by rw [hw]; exact h.lower_window
  have hAlen : (result A).length = j := by
    rw [hA, List.length_take, result_append, List.length_append]; omega
  -- `P` ends inside the kept match: past `A`, it reads and writes a part of `w`.
  obtain ⟨X, rfl⟩ := prefix_of_result_le (A := A) (B := w.map Piece.keep ++ B) (C := P) (D := Q)
    (by rw [← List.append_assoc, ← hAB]) (by omega)
  have hX : X ++ Q = w.map Piece.keep ++ B := by
    simpa only [List.append_assoc, List.append_cancel_left_eq] using hAB
  refine ⟨(source A).length, ?_, ?_⟩
  · rw [hAB, source_append, source_append, source_keeps]
    exact occurs_of_lower_eq hlw _ _
  · have hwlen : w.length = m.length := by simpa using congrArg List.length hlw
    obtain ⟨Z, hZ⟩ := prefix_of_result_le (C := w.map Piece.keep) hX (by
      simp only [result_append, List.length_append, result_keeps] at hj' ⊢
      omega)
    obtain ⟨l₁, l₂, -, rfl, -⟩ := List.append_eq_map_iff.mp hZ.symm
    have hkeep : (source (l₁.map Piece.keep)).length = (result (l₁.map Piece.keep)).length := by
      rw [source_keeps, result_keeps]
    simp only [source_append, result_append, List.length_append]
    omega

/-! ## The value after a marker -/

/-- The value after a marker: past one leading space, up to the first stop character. -/
def valueOf (stop : Char → Bool) (after : List Char) : List Char :=
  (after.drop (leadingSpace after).length).takeWhile fun c => !stop c

/-- The leading space of a text, and the rest after it, make up the text. -/
theorem leadingSpace_append_drop (after : List Char) :
    leadingSpace after ++ after.drop (leadingSpace after).length = after := by
  unfold leadingSpace
  split
  · rename_i h
    cases after with
    | nil => simp at h
    | cons c t => simp_all
  · simp

/-- The text after a marker is its leading space, its value and what follows the value. -/
theorem leadingSpace_append_value (stop : Char → Bool) (after : List Char) :
    leadingSpace after ++ valueOf stop after ++ afterValue stop after = after := by
  rw [valueOf, afterValue, List.append_assoc, List.takeWhile_append_dropWhile,
    leadingSpace_append_drop]

/-- The value after a marker holds no stop character. -/
theorem stop_of_mem_valueOf {stop : Char → Bool} {after : List Char} {c : Char}
    (h : c ∈ valueOf stop after) : stop c = false := by
  simpa using List.mem_takeWhile_imp h

/-- What follows the value starts with a stop character, if anything follows. -/
theorem stop_of_head_afterValue {stop : Char → Bool} {after : List Char} {c : Char}
    (h : c ∈ (afterValue stop after).head?) : stop c = true := by
  have := List.head?_dropWhile_not (fun c => !stop c) (after.drop (leadingSpace after).length)
  rw [afterValue, Option.mem_def.mp h] at *
  simpa using this

/-- The leading space of a text is read off its first part. -/
theorem leadingSpace_append (x y : List Char) (hx : x ≠ []) :
    leadingSpace (x ++ y) = leadingSpace x := by
  cases x with
  | nil => exact absurd rfl hx
  | cons c x => rfl

/-- A text read as leading space, a value free of stop characters, and a rest that starts
with a stop character has that value and that rest. -/
theorem value_of_parts {stop : Char → Bool} {gap value rest : List Char}
    (hgap : gap = leadingSpace (gap ++ value ++ rest)) (hvalue : ∀ c ∈ value, stop c = false)
    (hrest : ∀ c ∈ rest.head?, stop c = true) :
    valueOf stop (gap ++ value ++ rest) = value ∧
      afterValue stop (gap ++ value ++ rest) = rest := by
  have hdrop : (gap ++ value ++ rest).drop (leadingSpace (gap ++ value ++ rest)).length =
      value ++ rest := by
    rw [← hgap, List.append_assoc, List.drop_left]
  have hpos : ∀ c ∈ value, (!stop c) = true := fun c hc => by simp [hvalue c hc]
  have hneg : ∀ c ∈ rest.head?, (!stop c) = false := fun c hc => by simp [hrest c hc]
  constructor
  · rw [valueOf, hdrop, List.takeWhile_append_of_pos hpos]
    cases rest with
    | nil => simp
    | cons c r => simp [hneg c rfl]
  · rw [afterValue, hdrop, List.dropWhile_append_of_pos hpos]
    cases rest with
    | nil => simp
    | cons c r => simp [hneg c rfl]

/-- A marker pass keeps the first character of its text. -/
theorem head?_maskAfter {marker : List Char} (hm : marker ≠ []) (stop : Char → Bool)
    (x : List Char) : (maskAfter marker stop x).head? = x.head? := by
  rw [maskAfter, dif_neg hm]
  split
  · rfl
  · rename_i before after hs
    have hlen := length_le_of_splitAfter marker x before after hs
    have hb : before ≠ [] := by
      rintro rfl
      exact hm (List.eq_nil_of_length_eq_zero (by simpa using hlen))
    obtain ⟨f, -, -, rfl, rfl⟩ := (splitAfter_eq_some_iff hm).mp hs
    rw [List.append_assoc, List.append_assoc, List.head?_append_of_ne_nil _ hb]
    conv_rhs => rw [← List.take_append_drop (f + marker.length) x]
    rw [List.head?_append_of_ne_nil _ hb]

/-- The marker pass keeps the start of its text, so a space there stays. -/
theorem leadingSpace_maskAfter {marker : List Char} (hm : marker ≠ []) (stop : Char → Bool)
    (x : List Char) : leadingSpace (maskAfter marker stop x) = leadingSpace x := by
  simp only [leadingSpace, head?_maskAfter hm]

/-- The space kept after a marker stays the same when the text after it changes but keeps
its start. -/
theorem gap_of_leadingSpace {gap x y : List Char} (hgap : gap = leadingSpace (gap ++ x))
    (hxy : leadingSpace y = leadingSpace x) : gap = leadingSpace (gap ++ y) := by
  cases gap with
  | nil => simpa [hxy] using hgap
  | cons c cs =>
    rw [leadingSpace_append _ _ (List.cons_ne_nil _ _)] at hgap ⊢
    exact hgap

/-- A marker pass over a text with no match leaves it as it is. -/
theorem maskAfter_of_none {marker : List Char} (hm : marker ≠ []) (stop : Char → Bool)
    {x : List Char} (h : splitAfter marker x = none) : maskAfter marker stop x = x := by
  rw [maskAfter, dif_neg hm]
  split
  · rfl
  · rename_i heq
    rw [h] at heq
    cases heq

/-! ## A marker pass on pieces -/

/-- A marker pass of the redaction whose matches and stop characters never fall inside a
mask: the marker is apart from the mask, and neither the mask nor the space kept after a
marker stops a value. -/
structure Rule where
  marker : List Char
  stop : Char → Bool
  marker_ne_nil : marker ≠ []
  apart : ApartFromMask marker
  stop_space : stop ' ' = false
  stop_mask : ∀ c ∈ mask, stop c = false

/-- Splits pieces after the first `n` characters they write; a mask that the split would cut
through goes whole to the first part. -/
def splitAtResult : Nat → List Piece → List Piece × List Piece
  | 0, ps => ([], ps)
  | _ + 1, [] => ([], [])
  | n + 1, p :: ps =>
    let rest := splitAtResult (n + 1 - p.result.length) ps
    (p :: rest.1, rest.2)

/-- Splitting pieces after what their first part writes gives back the two parts. -/
theorem splitAtResult_append (ps qs : List Piece) :
    splitAtResult (result ps).length (ps ++ qs) = (ps, qs) := by
  induction ps with
  | nil => simp [splitAtResult]
  | cons p ps ih =>
    have hpos : 0 < p.result.length := List.length_pos_iff.mpr p.result_ne_nil
    have hlen : (result (p :: ps)).length = p.result.length + (result ps).length := by
      rw [result_cons, List.length_append]
    obtain ⟨n, hn⟩ : ∃ n, (result (p :: ps)).length = n + 1 :=
      ⟨p.result.length + (result ps).length - 1, by omega⟩
    rw [hn, List.cons_append, splitAtResult]
    have : n + 1 - p.result.length = (result ps).length := by omega
    rw [this, ih]

/-- The second part of a split has at most as many pieces as there were. -/
theorem length_splitAtResult_le (n : Nat) (ps : List Piece) :
    (splitAtResult n ps).2.length ≤ ps.length := by
  induction ps generalizing n with
  | nil => cases n <;> simp [splitAtResult]
  | cons p ps ih =>
    cases n with
    | zero => simp [splitAtResult]
    | succ n =>
      simp only [splitAtResult, List.length_cons]
      exact Nat.le_succ_of_le (ih _)

/-- A split after a positive count leaves fewer pieces in the second part. -/
theorem length_splitAtResult_lt {n : Nat} (hn : 0 < n) {ps : List Piece} (hps : ps ≠ []) :
    (splitAtResult n ps).2.length < ps.length := by
  obtain ⟨n, rfl⟩ : ∃ m, n = m + 1 := ⟨n - 1, by omega⟩
  cases ps with
  | nil => exact absurd rfl hps
  | cons p ps =>
    simp only [splitAtResult, List.length_cons]
    exact Nat.lt_succ_of_le (length_splitAtResult_le _ _)

/-- The pass of rule `r` run on the text that pieces write, as pieces of the text they read:
each value the pass masks becomes one cut of everything the pieces that write it read. -/
def Rule.lift (r : Rule) (ps : List Piece) : List Piece :=
  match hs : splitAfter r.marker (result ps) with
  | none => ps
  | some (before, after) =>
    let lead := splitAtResult (before.length + (leadingSpace after).length) ps
    let value := splitAtResult (valueOf r.stop after).length lead.2
    lead.1 ++ Piece.cut (source value.1) :: r.lift value.2
termination_by ps.length
decreasing_by
  have hps : ps ≠ [] := by
    intro hnil
    rw [hnil, result_nil, (splitAfter_eq_none_iff r.marker_ne_nil).mpr
      (not_occurs_nil r.marker_ne_nil)] at hs
    cases hs
  have hb := length_le_of_splitAfter r.marker (result ps) before after hs
  have hm := List.length_pos_iff.mpr r.marker_ne_nil
  exact Nat.lt_of_le_of_lt (length_splitAtResult_le _ _)
    (length_splitAtResult_lt (Nat.lt_of_lt_of_le hm (Nat.le_trans hb (Nat.le_add_right _ _))) hps)

/-- The pass on pieces whose result has no match leaves them as they are. -/
theorem Rule.lift_of_none (r : Rule) {ps : List Piece}
    (hs : splitAfter r.marker (result ps) = none) : r.lift ps = ps := by
  rw [Rule.lift]
  split
  · rfl
  · rename_i heq
    rw [hs] at heq
    cases heq

/-- The pass on pieces, at a match it finds: given any pieces writing the text up to the
value, and pieces writing the value, it cuts the latter and goes on after them. -/
theorem Rule.lift_eq (r : Rule) {ps L W R : List Piece} {before after : List Char}
    (hs : splitAfter r.marker (result ps) = some (before, after)) (hps : ps = L ++ W ++ R)
    (hL : result L = before ++ leadingSpace after) (hW : result W = valueOf r.stop after) :
    r.lift ps = L ++ Piece.cut (source W) :: r.lift R := by
  have hlead : splitAtResult (before.length + (leadingSpace after).length) ps = (L, W ++ R) := by
    rw [hps, List.append_assoc, ← List.length_append, ← hL, splitAtResult_append]
  have hvalue : splitAtResult (valueOf r.stop after).length (W ++ R) = (W, R) := by
    rw [← hW, splitAtResult_append]
  rw [Rule.lift]
  split
  · rename_i heq
    rw [hs] at heq
    cases heq
  · rename_i b a heq
    rw [hs] at heq
    obtain ⟨rfl, rfl⟩ := Prod.mk.inj (Option.some.inj heq)
    simp only [hlead, hvalue]

/-- Where the pass finds a match, the pieces split into those writing the text up to the
value, those writing the value, and those writing the rest. -/
theorem Rule.exists_found_split (r : Rule) {ps : List Piece} {before after : List Char}
    (hs : splitAfter r.marker (result ps) = some (before, after)) :
    ∃ L W R, ps = L ++ W ++ R ∧ result L = before ++ leadingSpace after ∧
      result W = valueOf r.stop after ∧ result R = afterValue r.stop after := by
  obtain ⟨f, hf, -, rfl, rfl⟩ := (splitAfter_eq_some_iff r.marker_ne_nil).mp hs
  -- The match itself is kept: it spells the marker, which is apart from the mask.
  obtain ⟨A, w, B, hAB, hA, hw, hB⟩ := exists_kept_match r.apart r.marker_ne_nil hf
  set t := result ps
  set after := t.drop (f + r.marker.length)
  -- So is the space after it, and the value ends at a stop character, outside any mask.
  have hgap : ApartFromMask (leadingSpace after) := by
    unfold leadingSpace; split <;> decide
  have hBsplit : result B = leadingSpace after ++ (valueOf r.stop after ++ afterValue r.stop after) := by
    rw [hB, ← List.append_assoc, leadingSpace_append_value]
  obtain ⟨B', hB', hB'r⟩ := keeps_of_prefix hgap hBsplit
  obtain ⟨W, R, rfl, hW, hR⟩ := exists_split hB'r (seam_of_head fun b hb hbm =>
    absurd (r.stop_mask b hbm) (by simp [stop_of_head_afterValue hb]))
  refine ⟨A ++ w.map Piece.keep ++ (leadingSpace after).map Piece.keep, W, R, ?_, ?_, hW, hR⟩
  · rw [hAB, hB']
    simp
  · rw [result_append, result_append, hA, hw, result_keeps, result_keeps, List.take_add]

/-- The pieces after a match are fewer than all the pieces, so the pass ends. -/
theorem Rule.length_rest_lt (r : Rule) {ps L W R : List Piece} {before after : List Char}
    (hs : splitAfter r.marker (result ps) = some (before, after)) (hps : ps = L ++ W ++ R)
    (hL : result L = before ++ leadingSpace after) : R.length < ps.length := by
  have hb := length_le_of_splitAfter r.marker (result ps) before after hs
  have hm := List.length_pos_iff.mpr r.marker_ne_nil
  have hL0 : L ≠ [] := by
    rintro rfl
    have := congrArg List.length hL
    simp only [result_nil, List.length_nil, List.length_append] at this
    omega
  have := List.length_pos_iff.mpr hL0
  rw [hps, List.length_append, List.length_append]
  omega

/-- The pass on pieces writes what the pass writes on their result. -/
theorem Rule.result_lift (r : Rule) (ps : List Piece) :
    result (r.lift ps) = maskAfter r.marker r.stop (result ps) := by
  induction hn : ps.length using Nat.strong_induction_on generalizing ps with
  | _ n ih =>
    rw [maskAfter, dif_neg r.marker_ne_nil]
    split
    · rename_i hs
      rw [r.lift_of_none hs]
    · rename_i before after hs
      obtain ⟨L, W, R, hps, hL, hW, hR⟩ := r.exists_found_split hs
      have hlt := r.length_rest_lt hs hps hL
      rw [r.lift_eq hs hps hL hW, result_append, result_cons, hL, Piece.result,
        ih R.length (hn ▸ hlt) R rfl, hR]
      simp only [List.append_assoc]

/-- The pass on pieces reads the same text and hides at least what the pieces hid. -/
theorem Rule.coarsens_lift (r : Rule) (ps : List Piece) : Coarsens ps (r.lift ps) := by
  induction hn : ps.length using Nat.strong_induction_on generalizing ps with
  | _ n ih =>
    cases hs : splitAfter r.marker (result ps) with
    | none =>
      rw [r.lift_of_none hs]
      exact Coarsens.refl ps
    | some split =>
      obtain ⟨before, after⟩ := split
      obtain ⟨L, W, R, hps, hL, hW, -⟩ := r.exists_found_split hs
      have hlt := r.length_rest_lt hs hps hL
      rw [r.lift_eq hs hps hL hW, hps, List.append_assoc]
      exact (Coarsens.refl L).append ((Coarsens.cut W).append (ih R.length (hn ▸ hlt) R rfl))

/-- The pass on pieces reads the same text as the pieces. -/
theorem Rule.source_lift (r : Rule) (ps : List Piece) : source (r.lift ps) = source ps :=
  (r.coarsens_lift ps).1

/-! ## What the pass leaves alone -/

/-- A match found in the first of two texts is the one found in both. -/
theorem splitAfter_append_of_some {marker x y before after : List Char} (hm : marker ≠ [])
    (h : splitAfter marker x = some (before, after)) :
    splitAfter marker (x ++ y) = some (before, after ++ y) := by
  obtain ⟨f, hf, hfirst, rfl, rfl⟩ := (splitAfter_eq_some_iff hm).mp h
  have hend := hf.end_le hm
  refine (splitAfter_eq_some_iff hm).mpr ⟨f, (occurs_append_left hend).mpr hf, fun j hj h' =>
    hfirst j hj ((occurs_append_left (by omega)).mp h'), ?_, ?_⟩
  · rw [List.take_append_of_le_length hend]
  · rw [List.drop_append_of_le_length hend]

/-- With no match starting in the first of two texts, the search runs on into the second. -/
theorem splitAfter_append_of_clear {marker x y : List Char} (hm : marker ≠ [])
    (hclear : ∀ j < x.length, ¬ Occurs marker (x ++ y) j) :
    splitAfter marker (x ++ y) = (splitAfter marker y).map fun p => (x ++ p.1, p.2) := by
  cases h : splitAfter marker y with
  | none =>
    rw [Option.map_none, splitAfter_eq_none_iff hm]
    intro j hj
    by_cases hlt : j < x.length
    · exact hclear j hlt hj
    · obtain ⟨k, rfl⟩ : ∃ k, j = x.length + k := ⟨j - x.length, by omega⟩
      exact (splitAfter_eq_none_iff hm).mp h k (occurs_append_right.mp hj)
  | some split =>
    obtain ⟨before, after⟩ := split
    obtain ⟨f, hf, hfirst, rfl, rfl⟩ := (splitAfter_eq_some_iff hm).mp h
    refine (splitAfter_eq_some_iff hm).mpr ⟨x.length + f, occurs_append_right.mpr hf,
      fun j hj h' => ?_, ?_, ?_⟩
    · by_cases hlt : j < x.length
      · exact hclear j hlt h'
      · obtain ⟨k, rfl⟩ : ∃ k, j = x.length + k := ⟨j - x.length, by omega⟩
        exact hfirst k (by omega) (occurs_append_right.mp h')
    · rw [Nat.add_assoc, List.take_length_add_append]
    · rw [Nat.add_assoc, List.drop_length_add_append]

/-- Some match of the rule's marker in `t` has no stop character after it: the pass masks
from there to the end of `t`. -/
def Rule.OpenAtEnd (r : Rule) (t : List Char) : Prop :=
  ∃ j, Occurs r.marker t j ∧ ∀ c ∈ t.drop (j + r.marker.length), r.stop c = false

/-- A text open at its end stays so with more text in front. -/
theorem Rule.OpenAtEnd.append_left (r : Rule) {x y : List Char} (h : r.OpenAtEnd y) :
    r.OpenAtEnd (x ++ y) := by
  obtain ⟨j, hj, hstop⟩ := h
  refine ⟨x.length + j, occurs_append_right.mpr hj, ?_⟩
  rwa [Nat.add_assoc, List.drop_length_add_append]

/-- A match whose value runs to the end of what a redaction writes runs to the end of the
text it reads too, when no cut span holds a stop character. -/
theorem Rule.OpenAtEnd.of_result {r : Rule} {ps : List Piece} (h : r.OpenAtEnd (result ps))
    (hcut : ∀ span, Piece.cut span ∈ ps → ∀ c ∈ span, r.stop c = false) :
    r.OpenAtEnd (source ps) := by
  obtain ⟨j, hj, hfree⟩ := h
  obtain ⟨A, w, B, rfl, -, hw, hB⟩ := exists_kept_match r.apart r.marker_ne_nil hj
  have hlw : lower w = lower r.marker := by rw [hw]; exact hj.lower_window
  have hwlen : w.length = r.marker.length := by simpa using congrArg List.length hlw
  refine ⟨(source A).length, ?_, ?_⟩
  · rw [source_append, source_append, source_keeps]
    exact occurs_of_lower_eq hlw _ _
  · rw [source_append, source_append, source_keeps, ← hwlen, ← List.length_append,
      List.drop_left]
    intro c hc
    obtain ⟨p, hp, hcp⟩ := mem_source.mp hc
    cases p with
    | keep d =>
      refine hfree c ?_
      rw [← hB]
      exact mem_result.mpr ⟨_, hp, hcp⟩
    | cut span => exact hcut span (by simp [hp]) c hcp

/-- When the text after a match holds a stop character, its value and what follows do not
depend on text appended after it. -/
theorem value_append {stop : Char → Bool} (hspace : stop ' ' = false) {a : List Char}
    (ha : ∃ c ∈ a, stop c = true) (y : List Char) :
    leadingSpace (a ++ y) = leadingSpace a ∧ valueOf stop (a ++ y) = valueOf stop a ∧
      afterValue stop (a ++ y) = afterValue stop a ++ y := by
  obtain ⟨c, hc, hcs⟩ := ha
  have hne : a ≠ [] := by rintro rfl; simp at hc
  have hgap := leadingSpace_append a y hne
  -- The stop character lies past the leading space, which is no stop.
  have hc' : c ∈ a.drop (leadingSpace a).length := by
    have := leadingSpace_append_drop a
    rw [← this, List.mem_append] at hc
    rcases hc with hc | hc
    · unfold leadingSpace at hc
      split at hc <;> simp_all
    · exact hc
  have hlen : (leadingSpace a).length ≤ a.length := by
    have := List.length_pos_iff.mpr hne
    unfold leadingSpace
    split
    · simp only [List.length_singleton]; omega
    · simp
  have hdrop : (a ++ y).drop (leadingSpace a).length = a.drop (leadingSpace a).length ++ y :=
    List.drop_append_of_le_length hlen
  have hnot : ¬ ∀ d ∈ a.drop (leadingSpace a).length, (!stop d) = true := fun h => by
    simpa [hcs] using h c hc'
  refine ⟨hgap, ?_, ?_⟩
  · rw [valueOf, valueOf, hgap, hdrop, List.takeWhile_append, if_neg fun hlen =>
      hnot (List.takeWhile_eq_self_iff.mp ((List.takeWhile_prefix _).eq_of_length hlen))]
  · rw [afterValue, afterValue, hgap, hdrop, List.dropWhile_append, if_neg fun hnil =>
      hnot (List.dropWhile_eq_nil_iff.mp (List.isEmpty_iff.mp hnil))]

/-- The pass leaves alone pieces `T` that no match overlaps and that no value reaches: it
runs on the pieces before them and on the pieces after them apart. -/
theorem Rule.lift_frame (r : Rule) {P T Q : List Piece}
    (hopen : ¬ r.OpenAtEnd (result P))
    (hT : ∀ j, (result P).length < j + r.marker.length → j < (result (P ++ T)).length →
      ¬ Occurs r.marker (result (P ++ T ++ Q)) j) :
    r.lift (P ++ T ++ Q) = r.lift P ++ T ++ r.lift Q := by
  induction hn : P.length using Nat.strong_induction_on generalizing P with
  | _ n ih =>
    cases hs : splitAfter r.marker (result P) with
    | none =>
      -- No match starts before the end of `T`, so the search goes straight on to `Q`.
      have hnone := (splitAfter_eq_none_iff r.marker_ne_nil).mp hs
      have hclear : ∀ j < (result (P ++ T)).length,
          ¬ Occurs r.marker (result (P ++ T) ++ result Q) j := by
        intro j hj hocc
        by_cases hle : j + r.marker.length ≤ (result P).length
        · rw [result_append, List.append_assoc, occurs_append_left hle] at hocc
          exact hnone j hocc
        · exact hT j (by omega) hj (by rwa [result_append (P ++ T)])
      have hsplit := splitAfter_append_of_clear r.marker_ne_nil hclear
      rw [r.lift_of_none hs]
      cases hq : splitAfter r.marker (result Q) with
      | none =>
        rw [hq, Option.map_none, ← result_append] at hsplit
        rw [r.lift_of_none hsplit, r.lift_of_none hq]
      | some split =>
        obtain ⟨before, after⟩ := split
        rw [hq, Option.map_some, ← result_append] at hsplit
        obtain ⟨L, W, R, hQ, hL, hW, -⟩ := r.exists_found_split hq
        rw [r.lift_eq hq hQ hL hW,
          r.lift_eq (L := P ++ T ++ L) (W := W) (R := R) hsplit (by simp [hQ])
            (by simp [hL]) hW]
        simp
    | some split =>
      obtain ⟨before, after⟩ := split
      obtain ⟨f, hf, -, rfl, rfl⟩ := (splitAfter_eq_some_iff r.marker_ne_nil).mp hs
      -- The value after the first match ends inside `P`: the text after it holds a stop.
      have hstop : ∃ c ∈ (result P).drop (f + r.marker.length), r.stop c = true := by
        by_contra hno
        exact hopen ⟨f, hf, fun c hc => Bool.eq_false_iff.mpr fun hcs => hno ⟨c, hc, hcs⟩⟩
      obtain ⟨hgap, hvalue, hrest⟩ := value_append r.stop_space hstop (result (T ++ Q))
      have hsplit := splitAfter_append_of_some r.marker_ne_nil (y := result (T ++ Q)) hs
      rw [← result_append, ← List.append_assoc] at hsplit
      obtain ⟨L, W, R, hP, hL, hW, hR⟩ := r.exists_found_split hs
      have hlt := r.length_rest_lt hs hP hL
      -- The pieces after that value still leave `T` alone.
      have hRopen : ¬ r.OpenAtEnd (result R) := fun h =>
        hopen (by rw [hP, result_append, result_append]; exact h.append_left r)
      have hRT : ∀ j, (result R).length < j + r.marker.length → j < (result (R ++ T)).length →
          ¬ Occurs r.marker (result (R ++ T ++ Q)) j := by
        intro j hj hj' hocc
        refine hT ((result (L ++ W)).length + j) ?_ ?_ ?_
        · rw [hP]; simp only [result_append, List.length_append] at hj ⊢; omega
        · rw [hP]; simp only [result_append, List.length_append] at hj' ⊢; omega
        · have hassoc : L ++ W ++ R ++ T ++ Q = (L ++ W) ++ (R ++ T ++ Q) := by simp
          rw [hP, hassoc, result_append (L ++ W)]
          exact occurs_append_right.mpr hocc
      rw [r.lift_eq hs hP hL hW,
        r.lift_eq (L := L) (W := W) (R := R ++ T ++ Q) hsplit (by simp [hP])
          (by rw [hL, hgap]) (by rw [hW, hvalue]),
        ih R.length (hn ▸ hlt) hRopen hRT rfl]
      simp

/-! ## What the pass hides -/

/-- Two readings of one text as a stretch free of stop characters that ends at a stop
character or at the end of the text end together, when the second starts inside the
first. -/
theorem stopFree_end_eq {stop : Char → Bool} (x₁ y₁ z₁ x₂ y₂ z₂ : List Char)
    (h : x₁ ++ y₁ ++ z₁ = x₂ ++ y₂ ++ z₂)
    (hy₁ : ∀ c ∈ y₁, stop c = false) (hz₁ : ∀ c ∈ z₁.head?, stop c = true)
    (hy₂ : ∀ c ∈ y₂, stop c = false) (hz₂ : ∀ c ∈ z₂.head?, stop c = true)
    (hx : x₁.length ≤ x₂.length) (hx' : x₂.length ≤ x₁.length + y₁.length) :
    x₁.length + y₁.length = x₂.length + y₂.length := by
  have hlen := congrArg List.length h
  simp only [List.length_append] at hlen
  -- The character at the earlier of the two ends is a stop, yet lies inside the other stretch.
  have at_end : ∀ {x y z : List Char}, ∀ c ∈ z.head?,
      (x ++ y ++ z)[x.length + y.length]? = some c := by
    intro x y z c hc
    rw [List.append_assoc, List.getElem?_append_right (by omega), Nat.add_sub_cancel_left,
      List.getElem?_append_right (by omega), Nat.sub_self, ← List.head?_eq_getElem?]
    exact hc
  have in_mid : ∀ {x y z : List Char} {i : Nat}, x.length ≤ i → i < x.length + y.length →
      ∃ c ∈ y, (x ++ y ++ z)[i]? = some c := by
    intro x y z i hi hi'
    refine ⟨y[i - x.length], List.getElem_mem _, ?_⟩
    rw [List.append_assoc, List.getElem?_append_right hi, List.getElem?_append_left (by omega),
      List.getElem?_eq_getElem]
  by_contra hne
  rcases Nat.lt_or_gt_of_ne hne with hlt | hgt
  · obtain ⟨d, hd⟩ : ∃ d, z₁.head? = some d := by
      cases z₁ with
      | nil => simp at hlen; omega
      | cons d _ => exact ⟨d, rfl⟩
    obtain ⟨e, he, hget⟩ := in_mid (x := x₂) (y := y₂) (z := z₂)
      (i := x₁.length + y₁.length) hx' hlt
    rw [← h, at_end d hd] at hget
    cases hget
    exact absurd (hz₁ d hd) (by simp [hy₂ d he])
  · obtain ⟨d, hd⟩ : ∃ d, z₂.head? = some d := by
      cases z₂ with
      | nil => simp at hlen; omega
      | cons d _ => exact ⟨d, rfl⟩
    obtain ⟨e, he, hget⟩ := in_mid (x := x₁) (y := y₁) (z := z₁)
      (i := x₂.length + y₂.length) (by omega) hgt
    rw [h, at_end d hd] at hget
    cases hget
    exact absurd (hz₂ d hd) (by simp [hy₁ d he])

/-- Pieces `T` write a match of the rule's marker and the space kept after it, pieces `V`
write the value after it and pieces `Q` the rest, which starts with a stop character if
anything. The match either holds no stop character or starts with one. -/
structure Rule.Spells (r : Rule) (T V Q : List Piece) : Prop where
  spells : ∃ w gap, lower w = lower r.marker ∧ result T = w ++ gap ∧
    gap = leadingSpace (gap ++ result V ++ result Q)
  value_open : ∀ c ∈ result V, r.stop c = false
  value_ends : ∀ c ∈ (result Q).head?, r.stop c = true
  match_stop : (∀ c ∈ result T, r.stop c = false) ∨ ∀ c ∈ (result T).head?, r.stop c = true

/-- Pieces that spell the marker give a match where they start. -/
theorem Rule.Spells.occurs {r : Rule} {T V Q : List Piece} (hm : r.Spells T V Q)
    (P : List Piece) : Occurs r.marker (result (P ++ T ++ V ++ Q)) (result P).length := by
  obtain ⟨w, gap, hw, hT, -⟩ := hm.spells
  have ht : result (P ++ T ++ V ++ Q) = result P ++ w ++ (gap ++ result V ++ result Q) := by
    simp [hT]
  rw [ht]
  exact occurs_of_lower_eq hw _ _

/-- Pieces that spell the marker write at least its length. -/
theorem Rule.Spells.length_le {r : Rule} {T V Q : List Piece} (hm : r.Spells T V Q) :
    r.marker.length ≤ (result T).length := by
  obtain ⟨w, gap, hw, hT, -⟩ := hm.spells
  have := congrArg List.length hw
  simp only [length_lower] at this
  rw [hT, List.length_append]
  omega

/-- Where the search stops at the match, the pass cuts exactly its value. -/
theorem Rule.lift_at_match (r : Rule) {P T V Q : List Piece} (hm : r.Spells T V Q)
    (hfirst : ∀ j < (result P).length, ¬ Occurs r.marker (result (P ++ T ++ V ++ Q)) j) :
    r.lift (P ++ T ++ V ++ Q) = P ++ T ++ Piece.cut (source V) :: r.lift Q := by
  obtain ⟨w, gap, hw, hT, hgap⟩ := hm.spells
  have hwlen : w.length = r.marker.length := by simpa using congrArg List.length hw
  have ht : result (P ++ T ++ V ++ Q) = (result P ++ w) ++ (gap ++ result V ++ result Q) := by
    simp [hT]
  have hs := (splitAfter_eq_some_iff r.marker_ne_nil).mpr
    ⟨(result P).length, hm.occurs P, hfirst, rfl, rfl⟩
  have hlen : (result P).length + r.marker.length = (result P ++ w).length := by simp [hwlen]
  rw [hlen, ht, List.take_left, List.drop_left, ← ht] at hs
  obtain ⟨hvalue, -⟩ := value_of_parts hgap hm.value_open hm.value_ends
  refine r.lift_eq hs rfl ?_ ?_
  · rw [← hgap, result_append, hT, List.append_assoc]
  · rw [hvalue]

/-- A match that starts in the stretch an earlier match masks has its value masked with it:
both values end at the same stop character. -/
theorem Rule.hides_in_masked (r : Rule) {P T V Q L W R : List Piece}
    {before after : List Char} (hm : r.Spells T V Q)
    (hps : P ++ T ++ V ++ Q = L ++ W ++ R) (hL : result L = before ++ leadingSpace after)
    (hW : result W = valueOf r.stop after) (hR : result R = afterValue r.stop after)
    (hstart : before.length ≤ (result P).length)
    (hin : (result P).length < (result (L ++ W)).length) :
    Hides (L ++ Piece.cut (source W) :: r.lift R) (source (P ++ T)).length
      (source V).length := by
  have hsplit : before ++ (leadingSpace after ++ valueOf r.stop after) ++
      afterValue r.stop after = result (P ++ T ++ V ++ Q) := by
    rw [hps]; simp [hL, hW, hR]
  have hfree : ∀ c ∈ leadingSpace after ++ valueOf r.stop after, r.stop c = false := by
    intro c hc
    rcases List.mem_append.mp hc with hc | hc
    · unfold leadingSpace at hc
      split at hc <;> simp_all [r.stop_space]
    · exact stop_of_mem_valueOf hc
  have hends : ∀ c ∈ (afterValue r.stop after).head?, r.stop c = true :=
    fun c hc => stop_of_head_afterValue hc
  have hLW : (result (L ++ W)).length =
      before.length + (leadingSpace after ++ valueOf r.stop after).length := by
    simp [hL, hW]
  rcases hm.match_stop with hclean | hhead
  · -- Our match holds no stop: our value ends where the masked stretch ends.
    have hend := stopFree_end_eq _ _ _ (result P) (result T ++ result V) (result Q)
      (hsplit.trans (by simp)) hfree hends
      (fun c hc => (List.mem_append.mp hc).elim (hclean c) (hm.value_open c)) hm.value_ends
      hstart (by omega)
    have hLW' : L ++ W = P ++ T ++ V := by
      refine (eq_of_result_length hps.symm ?_).1
      simp only [result_append, List.length_append] at hend hLW ⊢
      omega
    have hgap : (leadingSpace after).length ≤ 1 := by
      unfold leadingSpace; split <;> simp
    obtain ⟨X, hX⟩ := prefix_of_result_le hLW' (by
      have := hm.length_le
      have := List.length_pos_iff.mpr r.marker_ne_nil
      simp only [hL, result_append, List.length_append] at hLW ⊢
      omega)
    have hW' : W = X ++ V := by
      rw [hX, List.append_assoc] at hLW'
      exact List.append_cancel_left hLW'
    refine (hides_cut L (r.lift R) (source W)).of_le (by rw [hX]; simp) ?_
    rw [hX, hW']
    simp only [source_append, List.length_append]
    omega
  · -- Our match starts with a stop, which cannot lie in the masked stretch.
    exfalso
    obtain ⟨c, hc⟩ : ∃ c, (result T).head? = some c := by
      have hlen := hm.length_le
      have hpos := List.length_pos_iff.mpr r.marker_ne_nil
      cases hT : result T with
      | nil => rw [hT, List.length_nil] at hlen; omega
      | cons c _ => exact ⟨c, rfl⟩
    have hhead' : ∀ d ∈ (result T ++ result V ++ result Q).head?, r.stop d = true := by
      intro d hd
      rw [List.append_assoc, List.head?_append, hc, Option.some_or] at hd
      exact hhead d (by rw [hc]; exact hd)
    have hend := stopFree_end_eq _ _ _ (result P) [] (result T ++ result V ++ result Q)
      (hsplit.trans (by simp)) hfree hends (by simp) hhead' hstart (by omega)
    simp only [List.length_nil, Nat.add_zero] at hend
    omega

/-- The pass hides the value after a match of its marker, whether the search stops at that
match, or the match lies in a stretch that an earlier match masks, or comes after it. Only a
match that starts inside an earlier match can be passed over. -/
theorem Rule.hides_lift (r : Rule) {P T V Q : List Piece} (hm : r.Spells T V Q)
    (hinside : ∀ j < (result P).length, (result P).length < j + r.marker.length →
      ¬ Occurs r.marker (result (P ++ T ++ V ++ Q)) j) :
    Hides (r.lift (P ++ T ++ V ++ Q)) (source (P ++ T)).length (source V).length := by
  induction hn : P.length using Nat.strong_induction_on generalizing P with
  | _ n ih =>
    by_cases hclear : ∀ j < (result P).length, ¬ Occurs r.marker (result (P ++ T ++ V ++ Q)) j
    · rw [r.lift_at_match hm hclear]
      simpa using hides_cut (P ++ T) (r.lift Q) (source V)
    -- The search stops at an earlier match, which ends before ours starts.
    obtain ⟨⟨before, after⟩, hs⟩ : ∃ split, splitAfter r.marker (result (P ++ T ++ V ++ Q)) =
        some split := by
      cases h : splitAfter r.marker (result (P ++ T ++ V ++ Q)) with
      | none => exact absurd (hm.occurs P) ((splitAfter_eq_none_iff r.marker_ne_nil).mp h _)
      | some split => exact ⟨split, rfl⟩
    obtain ⟨f, hf, hfirst, hbefore, -⟩ := (splitAfter_eq_some_iff r.marker_ne_nil).mp hs
    have hfp : f < (result P).length := by
      by_contra hge
      exact hclear fun j hj => hfirst j (by omega)
    have hbl : before.length = f + r.marker.length := by
      rw [hbefore, List.length_take]; have := hf.end_le r.marker_ne_nil; omega
    have hstart : before.length ≤ (result P).length := by
      by_contra hover
      exact hinside f hfp (by omega) hf
    obtain ⟨L, W, R, hps, hL, hW, hR⟩ := r.exists_found_split hs
    rw [r.lift_eq hs hps hL hW]
    by_cases hin : (result P).length < (result (L ++ W)).length
    · exact r.hides_in_masked hm hps hL hW hR hstart hin
    -- Our match comes after the masked stretch: go on with the pieces after it.
    obtain ⟨P', hP'⟩ := prefix_of_result_le (A := L ++ W) (B := R) (C := P)
      (D := T ++ V ++ Q) (by rw [← hps]; simp) (by omega)
    have hR' : R = P' ++ T ++ V ++ Q := by
      have h := hps.symm
      rw [hP'] at h
      simp only [List.append_assoc, List.append_cancel_left_eq] at h
      simpa only [List.append_assoc] using h
    have hL0 : L ≠ [] := by
      rintro rfl
      have := congrArg List.length hL
      simp only [result_nil, List.length_nil, List.length_append] at this
      have := List.length_pos_iff.mpr r.marker_ne_nil
      omega
    have hlen : P'.length < n := by
      rw [← hn, hP', List.length_append, List.length_append]
      have := List.length_pos_iff.mpr hL0
      omega
    have hinside' : ∀ j < (result P').length, (result P').length < j + r.marker.length →
        ¬ Occurs r.marker (result (P' ++ T ++ V ++ Q)) j := by
      intro j hj hj' hocc
      have hshift : result (P ++ T ++ V ++ Q) = result (L ++ W) ++ result (P' ++ T ++ V ++ Q) := by
        rw [hP']; simp
      refine hinside ((result (L ++ W)).length + j) ?_ ?_ ?_
      · rw [hP']; simp only [result_append, List.length_append] at hj ⊢; omega
      · rw [hP']; simp only [result_append, List.length_append] at hj' ⊢; omega
      · rw [hshift]; exact occurs_append_right.mpr hocc
    have hrest := (ih P'.length hlen hinside' rfl).append_right (L ++ [Piece.cut (source W)])
    rw [← hR'] at hrest
    have hstartEq : (source (P ++ T)).length =
        (source (L ++ [Piece.cut (source W)])).length + (source (P' ++ T)).length := by
      rw [hP']; simp only [source_append, source_cons, source_nil, Piece.source,
        List.length_append, List.append_nil]; omega
    rw [hstartEq]
    simpa using hrest

/-- Pieces that write a stop character first do not start inside a text free of stop
characters: pieces before them read all of it. -/
theorem Rule.length_le_source (r : Rule) {V R : List Piece} {v y : List Char}
    (h : source (V ++ R) = v ++ y) (hv : ∀ c ∈ v, r.stop c = false)
    (hR : ∀ c ∈ (result R).head?, r.stop c = true) : v.length ≤ (source V).length := by
  cases R with
  | nil =>
    rw [List.append_nil] at h
    rw [h, List.length_append]
    omega
  | cons p R =>
    cases p with
    | keep d =>
      have hd : r.stop d = true := hR d (by simp)
      by_contra hlt
      rw [source_append, source_cons, Piece.source, List.singleton_append] at h
      rcases List.append_eq_append_iff.mp h with ⟨a, rfl, ha⟩ | ⟨c, hV, -⟩
      · -- The stop character `d` would be a character of `v`.
        cases a with
        | nil => simp at hlt
        | cons e a =>
          obtain ⟨rfl, -⟩ := List.cons.inj ha
          rw [hv d (by simp)] at hd
          cases hd
      · rw [hV, List.length_append] at hlt
        omega
    | cut span =>
      have hR' := hR 'R' (by simp [mask_eq])
      rw [r.stop_mask 'R' (by rw [mask_eq]; simp)] at hR'
      cases hR'

end Redact
end FeedClient
