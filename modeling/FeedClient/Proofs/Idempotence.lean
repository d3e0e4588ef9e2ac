import FeedClient.Proofs.TokenScan

/-!
# Redacting twice changes nothing

What `Redact.secrets` writes is a fixed point of each of its three passes, so a second run
gives the same text back. Two shapes of text make that so.

- A text is `JwtFree` when the JWT pass cuts nothing out of it. The JWT pass writes such a
  text, since the mask is a run of token characters that is no JWT, and the marker passes
  keep it so, since a match ends and a value stops at characters that are no token
  characters.
- A text is `Rule.Sealed` for a marker when every match of the marker is followed by an
  optional space, the mask, and then a stop character or the end of the text. A marker pass
  leaves such a text as it is, and writes one itself, because no match of its marker starts
  inside a match, its space and the mask. The field pass keeps a text sealed for the header
  marker: the field marker starts with a quote, which the mask after a header value
  cannot reach.

Main results:

- `jwtFree_jwtChars` and `Rule.jwtFree_maskAfter`: no pass leaves a JWT behind.
- `Rule.Sealed.maskAfter_eq`: a marker pass leaves a text sealed for its marker as it is.
- `Rule.sealed_maskAfter`: a marker pass writes a text sealed for its own marker.
- `sealed_header_maskAfter_access`: the field pass keeps a text sealed for the header marker.
- `secrets_idem`: redacting a redacted text changes nothing.
-/

namespace FeedClient
namespace Redact

/-! ## Texts without a JWT -/

/-- The JWT pass cuts nothing out of the text. -/
def JwtFree (t : List Char) : Prop := ∀ span, Piece.cut span ∉ jwtPieces t

/-- Pieces that cut nothing write the text they read. -/
theorem result_eq_source_of_keeps {ps : List Piece} (h : ∀ span, Piece.cut span ∉ ps) :
    result ps = source ps := by
  induction ps with
  | nil => rfl
  | cons p ps ih =>
    cases p with
    | keep c => simp [ih fun span hs => h span (List.mem_cons_of_mem _ hs)]
    | cut span => exact absurd List.mem_cons_self (h span)

/-- The JWT pass leaves a text it cuts nothing out of as it is. -/
theorem JwtFree.jwtChars_eq {t : List Char} (h : JwtFree t) : jwtChars t = t := by
  rw [← result_jwtPieces, result_eq_source_of_keeps h, source_jwtPieces]

/-- The empty text holds no JWT. -/
theorem jwtFree_nil : JwtFree [] := by simp [JwtFree]

/-- A text split before a character that is no token character holds no JWT when neither part does.
-/
theorem jwtFree_append {x y : List Char} (hy : ∀ c ∈ y.head?, isTokenChar c = false) :
    JwtFree (x ++ y) ↔ JwtFree x ∧ JwtFree y := by
  simp only [JwtFree, jwtPieces_append hy, List.mem_append, not_or, forall_and]

/-- A text split after a character that is no token character holds no JWT when neither part does.
-/
theorem jwtFree_append_of_last {x y : List Char}
    (hx : ∀ c ∈ x.getLast?, isTokenChar c = false) :
    JwtFree (x ++ y) ↔ JwtFree x ∧ JwtFree y := by
  simp only [JwtFree, jwtPieces_append_of_last hx, List.mem_append, not_or, forall_and]

/-- A run of token characters that is no JWT, followed by a character that is not a token
character, adds no cut. -/
theorem jwtFree_run_append {run post : List Char} (hne : run ≠ [])
    (hrun : ∀ c ∈ run, isTokenChar c = true)
    (hpost : ∀ c ∈ post.head?, isTokenChar c = false) (hjwt : isJwt run = false)
    (h : JwtFree post) : JwtFree (run ++ post) := by
  intro span hspan
  rw [jwtPieces_run hne hrun hpost, runPieces, if_neg (by simp [hjwt]), List.mem_append] at hspan
  rcases hspan with hspan | hspan
  · simp at hspan
  · exact h span hspan

/-- A character that is no token character holds no JWT. -/
theorem jwtFree_singleton {c : Char} (hc : isTokenChar c = false) : JwtFree [c] := by
  intro span hspan
  rw [jwtPieces_cons_other hc, jwtPieces_nil] at hspan
  simp at hspan

/-- The mask is no JWT. -/
theorem isJwt_mask : isJwt mask = false := by
  rw [mask_eq]; decide

/-- The mask is made of token characters. -/
theorem isTokenChar_mask : ∀ c ∈ mask, isTokenChar c = true :=
  List.all_eq_true.mp (by rw [mask_eq]; decide)

/-- The mask is not empty. -/
theorem mask_ne_nil : mask ≠ [] := by
  rw [mask_eq]; exact List.cons_ne_nil _ _

/-- The JWT pass keeps the first character of a text that starts with no token character. -/
theorem head_jwtChars {y : List Char} (hy : ∀ c ∈ y.head?, isTokenChar c = false) :
    ∀ c ∈ (jwtChars y).head?, isTokenChar c = false := by
  cases y with
  | nil => simp [jwtChars]
  | cons d ds =>
    rw [← result_jwtPieces, head_result_jwtPieces (hy d rfl)]
    exact hy

/-- The JWT pass writes a text it cuts nothing out of: each cut became the mask, a run that is
no JWT. -/
theorem jwtFree_jwtChars (s : List Char) : JwtFree (jwtChars s) := by
  fun_induction jwtChars s with
  | case1 => exact jwtFree_nil
  | case2 c cs hc run ih =>
    have hrest := head_jwtChars (head_dropWhile_token cs)
    have hrun : run ≠ [] := by simp [run, List.takeWhile_cons_of_pos hc]
    split
    · exact jwtFree_run_append mask_ne_nil isTokenChar_mask hrest isJwt_mask ih
    · rename_i hj
      exact jwtFree_run_append hrun (fun d hd => List.mem_takeWhile_imp hd) hrest
        (by simpa using hj) ih
  | case3 c cs hc ih =>
    rw [← List.singleton_append, jwtFree_append_of_last (by simpa using hc)]
    exact ⟨jwtFree_singleton (by simpa using hc), ih⟩

/-! ## One step of a marker pass -/

/-- A match in a text with a prefix dropped is a match further on in the text. -/
theorem occurs_drop {marker t : List Char} {k j : Nat} :
    Occurs marker (t.drop k) j ↔ Occurs marker t (k + j) := by
  simp only [Occurs, lower_drop, List.drop_drop]

namespace Rule

variable (r : Rule)

/-- A stretch that spells a marker is as long as the marker. -/
theorem length_of_spells {tag : List Char} (h : lower tag = lower r.marker) :
    tag.length = r.marker.length := by
  simpa using congrArg List.length h

/-- One step of a marker pass: the text up to its first match, the match, and what follows
it. -/
theorem window_of_splitAfter {t before after : List Char}
    (hs : splitAfter r.marker t = some (before, after)) :
    ∃ pre tag, t = pre ++ tag ++ after ∧ before = pre ++ tag ∧ lower tag = lower r.marker ∧
      ∀ j < pre.length, ¬ Occurs r.marker t j := by
  obtain ⟨f, hf, hfirst, rfl, rfl⟩ := (splitAfter_eq_some_iff r.marker_ne_nil).mp hs
  have hend := hf.end_le r.marker_ne_nil
  have hpre : (t.take f).length = f := by simp; omega
  refine ⟨t.take f, (t.drop f).take r.marker.length, ?_, List.take_add .., hf.lower_window,
    fun j hj => hfirst j (hpre ▸ hj)⟩
  rw [← List.take_add, List.take_append_drop]

/-! ## Sealed matches -/

/-- What follows a sealed match: an optional space, the mask, and then a stop character or
the end of the text. -/
def Closed (x : List Char) : Prop :=
  ∃ gap rest, (gap = [] ∨ gap = [' ']) ∧ x = gap ++ mask ++ rest ∧
    ∀ c ∈ rest.head?, r.stop c = true

/-- Every match of the marker is followed by the mask as the whole of its value. -/
def Sealed (t : List Char) : Prop :=
  ∀ j, Occurs r.marker t j → r.Closed (t.drop (j + r.marker.length))

variable {r}

/-- A sealed text stays sealed with a prefix dropped. -/
theorem Sealed.drop {t : List Char} (h : r.Sealed t) (k : Nat) : r.Sealed (t.drop k) := by
  intro j hj
  have hc := h (k + j) (occurs_drop.mp hj)
  rw [List.drop_drop, ← Nat.add_assoc]
  exact hc

/-- The end of a sealed text is sealed. -/
theorem Sealed.of_append {x y : List Char} (h : r.Sealed (x ++ y)) : r.Sealed y := by
  simpa using h.drop x.length

/-- A text is sealed when every match in a first part is, and the rest is. -/
theorem Sealed.append {x y : List Char}
    (hx : ∀ j < x.length, Occurs r.marker (x ++ y) j →
      r.Closed ((x ++ y).drop (j + r.marker.length)))
    (hy : r.Sealed y) : r.Sealed (x ++ y) := by
  intro j hj
  by_cases hlt : j < x.length
  · exact hx j hlt hj
  · obtain ⟨k, rfl⟩ := Nat.exists_eq_add_of_le (Nat.le_of_not_lt hlt)
    have hc := hy k (occurs_append_right.mp hj)
    rwa [Nat.add_assoc, List.drop_length_add_append]

/-- The space before a mask is the leading space of what follows the marker. -/
theorem gap_eq_leadingSpace {gap : List Char} (hgap : gap = [] ∨ gap = [' '])
    (rest : List Char) : gap = leadingSpace (gap ++ mask ++ rest) := by
  rcases hgap with rfl | rfl <;> simp [leadingSpace, mask_eq]

/-- A closed value stays closed when the text after it changes, as long as that text starts
with the same character, one that is neither a space, nor in the mask, nor a stop character:
the stop character that ends the mask lies before it. -/
theorem Closed.append_of_head {y v v' : List Char} (h : r.Closed (y ++ v)) {c : Char}
    (hv : v.head? = some c) (hv' : v'.head? = some c) (hspace : c ≠ ' ') (hmask : c ∉ mask)
    (hstop : r.stop c = false) : r.Closed (y ++ v') := by
  obtain ⟨gap, rest, hgap, heq, hrest⟩ := h
  rcases List.append_eq_append_iff.mp heq with ⟨a, hga, hva⟩ | ⟨b, hy, hrb⟩
  · -- `v` cannot start inside the space and the mask, nor right after them
    exfalso
    cases a with
    | nil =>
      rw [List.nil_append] at hva
      subst hva
      simp [hrest c hv] at hstop
    | cons a as =>
      rw [hva, List.cons_append, List.head?_cons, Option.some.injEq] at hv
      subst hv
      have ha : a ∈ gap ++ mask := by rw [hga]; simp
      rcases List.mem_append.mp ha with ha | ha
      · rcases hgap with rfl | rfl <;> simp_all
      · exact hmask ha
  · cases b with
    | nil =>
      rw [List.nil_append] at hrb
      subst hrb
      simp [hrest c hv] at hstop
    | cons b bs =>
      refine ⟨gap, b :: bs ++ v', hgap, by rw [hy]; simp, fun d hd => ?_⟩
      rw [List.cons_append, List.head?_cons, Option.mem_def, Option.some.injEq] at hd
      subst hd
      exact hrest b (by rw [hrb]; rfl)

/-- A marker pass leaves a text sealed for its marker as it is: each value it would mask is
the mask already. -/
theorem Sealed.maskAfter_eq {t : List Char} (h : r.Sealed t) :
    maskAfter r.marker r.stop t = t := by
  fun_induction maskAfter r.marker r.stop t with
  | case1 => rfl
  | case2 => rfl
  | case3 t hm before after hs _ ih =>
    obtain ⟨f, hf, -, rfl, rfl⟩ := (splitAfter_eq_some_iff hm).mp hs
    obtain ⟨gap, rest, hgap, hafter, hrest⟩ := h f hf
    obtain ⟨-, hvalue⟩ := value_of_parts (gap_eq_leadingSpace hgap rest) r.stop_mask hrest
    have hsealed : r.Sealed rest := by
      have hs' := h.drop (f + r.marker.length)
      rw [hafter] at hs'
      exact hs'.of_append
    have hrest' : afterValue r.stop (t.drop (f + r.marker.length)) = rest := by
      rw [hafter, hvalue]
    rw [hrest'] at ih
    rw [hafter, ← gap_eq_leadingSpace hgap rest, hvalue, ih hsealed]
    calc t.take (f + r.marker.length) ++ gap ++ mask ++ rest
        = t.take (f + r.marker.length) ++ (gap ++ mask ++ rest) := by simp
      _ = t := by rw [← hafter, List.take_append_drop]

/-! ## What a marker pass writes -/

variable (r) in
/-- No match of the marker of `r'` starts inside a match of the marker of `r`, the space kept
after it and the mask. -/
def ClearOfMask (r' : Rule) : Prop :=
  ∀ gap, (gap = [] ∨ gap = [' ']) → ∀ d < (r.marker ++ gap ++ mask).length, 0 < d →
    ¬ Overlaps (r.marker ++ gap ++ mask) r'.marker d

/-- A marker clear of the mask of another rule does not start inside that rule's match, its space
and its mask. -/
theorem not_occurs_inside_mask {r' : Rule} (hclear : r.ClearOfMask r')
    {pre tag gap rest : List Char} (hspell : lower tag = lower r.marker)
    (hgap : gap = [] ∨ gap = [' ']) {j : Nat} (hj : pre.length < j)
    (hj' : j < (pre ++ tag ++ gap ++ mask).length) :
    ¬ Occurs r'.marker (pre ++ tag ++ gap ++ mask ++ rest) j := by
  intro hocc
  have hw : Occurs (r.marker ++ gap ++ mask) (pre ++ tag ++ gap ++ mask ++ rest) pre.length := by
    have h : Occurs (r.marker ++ gap ++ mask) (pre ++ (tag ++ gap ++ mask) ++ rest) pre.length :=
      occurs_of_lower_eq (by simp [hspell]) pre rest
    simpa only [List.append_assoc] using h
  have hd := hw.overlaps (d := j - pre.length) (by rwa [Nat.add_sub_cancel' hj.le])
  have hlen := r.length_of_spells hspell
  simp only [List.length_append] at hj'
  exact hclear gap hgap _ (by simp only [List.length_append]; omega) (by omega) hd

/-- What follows the first match after a marker pass: the space kept after it, the mask, and
the rest of the text passed through again, which starts with a stop character if anything. -/
theorem closed_masked {gap rest : List Char} (hgap : gap = [] ∨ gap = [' ']) :
    r.Closed (gap ++ mask ++ maskAfter r.marker r.stop (afterValue r.stop rest)) := by
  refine ⟨gap, _, hgap, rfl, fun c hc => ?_⟩
  rw [head?_maskAfter r.marker_ne_nil] at hc
  exact stop_of_head_afterValue hc

variable (r) in
/-- A marker pass writes a text sealed for its own marker, when no match of the marker starts
inside a match, its space and the mask. -/
theorem sealed_maskAfter (hclear : r.ClearOfMask r) (t : List Char) :
    r.Sealed (maskAfter r.marker r.stop t) := by
  fun_induction maskAfter r.marker r.stop t with
  | case1 t hm => exact absurd hm r.marker_ne_nil
  | case2 t hm hs => exact fun j hj => absurd hj ((splitAfter_eq_none_iff hm).mp hs j)
  | case3 t hm before after hs _ ih =>
    obtain ⟨pre, tag, ht, rfl, hspell, hfirst⟩ := r.window_of_splitAfter hs
    have hlen := r.length_of_spells hspell
    have hgap : leadingSpace after = [] ∨ leadingSpace after = [' '] := gap_cases rfl
    refine Sealed.append (fun j hj hocc => ?_) ih
    rcases lt_trichotomy j pre.length with hlt | rfl | hgt
    · -- a match before the first one would be a match of the text
      have hwithin : j + r.marker.length ≤ (pre ++ tag).length := by
        rw [List.length_append]; omega
      simp only [List.append_assoc] at hocc
      rw [← List.append_assoc, occurs_append_left hwithin] at hocc
      exact absurd (by rw [ht, occurs_append_left hwithin]; exact hocc) (hfirst j hlt)
    · -- the first match is followed by the mask
      have hdrop : (pre ++ tag ++ leadingSpace after ++ mask ++
          maskAfter r.marker r.stop (afterValue r.stop after)).drop
            (pre.length + r.marker.length) =
          leadingSpace after ++ mask ++ maskAfter r.marker r.stop (afterValue r.stop after) := by
        rw [← hlen, ← List.length_append]
        simp only [List.append_assoc]
        rw [← List.append_assoc pre tag, List.drop_left]
      rw [hdrop]
      exact closed_masked hgap
    · exact absurd hocc (not_occurs_inside_mask hclear hspell hgap hgt hj)

end Rule

/-! ## The header marker after the field pass -/

/-- No header marker starts inside a masked header. -/
theorem headerRule_clearOfMask : headerRule.ClearOfMask headerRule := by
  intro gap hgap
  show ∀ d < (authorizationMarker ++ gap ++ mask).length, 0 < d →
    ¬ Overlaps (authorizationMarker ++ gap ++ mask) authorizationMarker d
  rw [authorizationMarker_eq, mask_eq]
  rcases hgap with rfl | rfl <;> decide

/-- No field marker starts inside a masked field. -/
theorem accessRule_clearOfMask : accessRule.ClearOfMask accessRule := by
  intro gap hgap
  show ∀ d < (accessTokenMarker ++ gap ++ mask).length, 0 < d →
    ¬ Overlaps (accessTokenMarker ++ gap ++ mask) accessTokenMarker d
  rw [accessTokenMarker_eq, mask_eq]
  rcases hgap with rfl | rfl <;> decide

/-- No field marker starts inside a masked header. -/
theorem accessRule_clearOfMask_header : accessRule.ClearOfMask headerRule := by
  intro gap hgap
  show ∀ d < (accessTokenMarker ++ gap ++ mask).length, 0 < d →
    ¬ Overlaps (accessTokenMarker ++ gap ++ mask) authorizationMarker d
  rw [accessTokenMarker_eq, authorizationMarker_eq, mask_eq]
  rcases hgap with rfl | rfl <;> decide

/-- The field pass keeps a text sealed for the header marker. A header match before the
field match has its mask end at a line break before the field marker, whose quote no header
value reaches; no header match starts inside the field marker, its space and its mask; and
the rest is sealed by induction. -/
theorem sealed_header_maskAfter_access {u : List Char} (h : headerRule.Sealed u) :
    headerRule.Sealed (maskAfter accessRule.marker accessRule.stop u) := by
  fun_induction maskAfter accessRule.marker accessRule.stop u with
  | case1 => exact h
  | case2 => exact h
  | case3 u hm before after hs _ ih =>
    obtain ⟨pre, tag, hu, rfl, hspell, -⟩ := accessRule.window_of_splitAfter hs
    have hgap : leadingSpace after = [] ∨ leadingSpace after = [' '] := gap_cases rfl
    -- what follows the value is a piece of the text, so still sealed
    have hrest : headerRule.Sealed (afterValue accessRule.stop after) := by
      have hafter : headerRule.Sealed after := by
        rw [hu] at h
        exact h.of_append
      rw [← leadingSpace_append_value accessRule.stop after] at hafter
      exact hafter.of_append
    refine Rule.Sealed.append (fun j hj hocc => ?_) (ih hrest)
    set out := maskAfter accessRule.marker accessRule.stop (afterValue accessRule.stop after)
    by_cases hbefore : j + headerRule.marker.length ≤ pre.length
    · -- a header match before the field match: its mask ends before the field marker
      have hsplit : pre ++ tag ++ leadingSpace after ++ mask ++ out =
          pre ++ (tag ++ leadingSpace after ++ mask ++ out) := by simp
      rw [hsplit, occurs_append_left hbefore] at hocc
      have hclosed := h j (by rw [hu, List.append_assoc, occurs_append_left hbefore]; exact hocc)
      rw [hu, List.append_assoc, List.drop_append_of_le_length hbefore] at hclosed
      rw [hsplit, List.drop_append_of_le_length hbefore]
      have hne := ne_nil_of_lower_eq hspell accessRule.marker_ne_nil
      have htag : tag.head? = some '"' := by
        obtain ⟨c, cs, rfl⟩ := List.exists_cons_of_ne_nil hne
        rw [List.head?_cons, head_eq_of_lower_eq hspell (c := c) (by simp)
          (by rw [lower_accessRule_marker]; rfl) (by decide)]
      refine hclosed.append_of_head (c := '"') ?_ ?_ (by decide) (by rw [mask_eq]; decide) rfl
      · rw [List.head?_append_of_ne_nil _ hne, htag]
      · rw [List.append_assoc, List.append_assoc, List.head?_append_of_ne_nil _ hne, htag]
    · by_cases hstart : j ≤ pre.length
      · -- a header match would run into the field marker
        have hA : Occurs accessRule.marker (pre ++ tag ++ leadingSpace after ++ mask ++ out)
            pre.length := by
          have h' := occurs_of_lower_eq hspell pre (leadingSpace after ++ mask ++ out)
          simpa only [List.append_assoc] using h'
        have hd := hocc.overlaps (d := pre.length - j) (by rwa [Nat.add_sub_cancel' hstart])
        exact absurd hd (headerRule_not_overlaps_access _ (by omega))
      · exact absurd hocc (Rule.not_occurs_inside_mask accessRule_clearOfMask_header hspell hgap
          (by omega) hj)

/-! ## Texts without a JWT after a marker pass -/

namespace Rule

/-- A rule whose matches end, and whose values stop, at characters that are no token
characters. -/
structure ApartFromTokens (r : Rule) : Prop where
  last : ∀ tag, lower tag = lower r.marker → ∀ c ∈ tag.getLast?, isTokenChar c = false
  stop : ∀ c, r.stop c = true → isTokenChar c = false

/-- A marker pass puts no JWT into a text: the mask stands between a match or a space and a
stop character or the end, so it is a whole run of token characters, and no JWT. -/
theorem jwtFree_maskAfter (r : Rule) (hr : r.ApartFromTokens) {t : List Char}
    (h : JwtFree t) : JwtFree (maskAfter r.marker r.stop t) := by
  fun_induction maskAfter r.marker r.stop t with
  | case1 => exact h
  | case2 => exact h
  | case3 t hm before after hs _ ih =>
    obtain ⟨pre, tag, ht, rfl, hspell, -⟩ := r.window_of_splitAfter hs
    have hlast : ∀ c ∈ (pre ++ tag).getLast?, isTokenChar c = false := by
      rw [List.getLast?_append_of_ne_nil _ (ne_nil_of_lower_eq hspell r.marker_ne_nil)]
      exact hr.last tag hspell
    have hstop : ∀ c ∈ (afterValue r.stop after).head?, isTokenChar c = false :=
      fun c hc => hr.stop c (stop_of_head_afterValue hc)
    rw [ht, jwtFree_append_of_last hlast, ← leadingSpace_append_value r.stop after,
      jwtFree_append hstop] at h
    obtain ⟨hbefore, -, hrest⟩ := h
    have hmasked : JwtFree (mask ++ maskAfter r.marker r.stop (afterValue r.stop after)) :=
      jwtFree_run_append mask_ne_nil isTokenChar_mask
        (by rw [head?_maskAfter r.marker_ne_nil]; exact hstop) isJwt_mask (ih hrest)
    rw [List.append_assoc, List.append_assoc, jwtFree_append_of_last hlast]
    refine ⟨hbefore, ?_⟩
    rcases gap_cases (rfl : leadingSpace after = _) with hg | hg
    · rw [hg, List.nil_append]
      exact hmasked
    · rw [hg, jwtFree_append_of_last (by simp; decide)]
      exact ⟨jwtFree_singleton (by decide), hmasked⟩

end Rule

/-- Header matches end, and header values stop, at characters that are no token characters. -/
theorem headerRule_apartFromTokens : headerRule.ApartFromTokens where
  last tag hspell c hc := by
    rw [getLast_eq_of_lower_eq hspell hc (by rw [lower_headerRule_marker]; rfl) (by decide)]
    decide
  stop _ h := isTokenChar_of_headerRule_stop h

/-- Field matches end, and field values stop, at characters that are no token characters. -/
theorem accessRule_apartFromTokens : accessRule.ApartFromTokens where
  last tag hspell c hc := by
    rw [getLast_eq_of_lower_eq hspell hc (by rw [lower_accessRule_marker]; rfl) (by decide)]
    decide
  stop c h := by
    rw [show c = '"' by simpa [accessRule] using h]
    decide

/-! ## Redacting twice -/

/-- Redacting a redacted text changes nothing: what `secrets` writes holds no JWT and is
sealed for both markers, so each of its passes leaves it as it is. -/
theorem secrets_idem (s : String) : secrets (secrets s) = secrets s := by
  -- the texts the passes of the first run write
  set t₁ := jwtChars s.toList
  set t₂ := maskAfter headerRule.marker headerRule.stop t₁
  set t₃ := maskAfter accessRule.marker accessRule.stop t₂
  have hsecrets : secrets s = String.ofList t₃ := rfl
  have hfree : JwtFree t₃ := accessRule.jwtFree_maskAfter accessRule_apartFromTokens
    (headerRule.jwtFree_maskAfter headerRule_apartFromTokens (jwtFree_jwtChars _))
  have hheader : headerRule.Sealed t₃ :=
    sealed_header_maskAfter_access (headerRule.sealed_maskAfter headerRule_clearOfMask t₁)
  have haccess : accessRule.Sealed t₃ := accessRule.sealed_maskAfter accessRule_clearOfMask t₂
  calc secrets (secrets s)
      = String.ofList (maskAfter accessRule.marker accessRule.stop
          (maskAfter headerRule.marker headerRule.stop (jwtChars t₃))) := by
        rw [hsecrets, secrets, String.toList_ofList]
        rfl
    _ = secrets s := by
        rw [hfree.jwtChars_eq, hheader.maskAfter_eq, haccess.maskAfter_eq, hsecrets]

end Redact
end FeedClient
