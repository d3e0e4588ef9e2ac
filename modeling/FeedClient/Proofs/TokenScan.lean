import FeedClient.Proofs.Redaction

/-!
# The scan for `eyJ` masks exactly the JWT runs

`Redact.jwt` does not cut its text into runs. It looks for the next `eyJ`, checks the
character before it, takes the run of token characters from there, and goes on after that
run. `Redact.jwtChars` states the rule run by run: every maximal run of token characters that
starts with `eyJ` and holds two dots becomes the mask.

The two agree because the scan always resumes at the end of a run, so the character before
the next `eyJ` it finds lies in the text it is looking at. An `eyJ` found inside a run is never
that run's start: an earlier `eyJ` would have been found first.

Main results:

- `jwtChars_eq_self_of_no_jwtPrefix`: a text with no `eyJ` holds no JWT.
- `scanJwt_eq_jwtChars`: the scan and the run-by-run rule give the same text.
- `jwt_eq_jwtChars`: `Redact.jwt` masks exactly the maximal token runs that are JWTs.
-/

namespace FeedClient
namespace Redact

/-! ## Splitting before the first occurrence -/

/-- No occurrence of the pattern starts before the split. -/
theorem not_prefix_drop_of_splitBefore {pat text before found : List Char}
    (h : splitBefore pat text = some (before, found)) :
    ∀ j < before.length, ¬ pat <+: text.drop j := by
  induction text generalizing before found with
  | nil =>
    simp only [splitBefore] at h
    split at h
    · simp only [Option.some.injEq, Prod.mk.injEq] at h
      obtain ⟨rfl, rfl⟩ := h
      simp
    · cases h
  | cons t ts ih =>
    simp only [splitBefore] at h
    split at h
    · rename_i hpre
      simp only [Option.some.injEq, Prod.mk.injEq] at h
      obtain ⟨rfl, rfl⟩ := h
      simp
    · rename_i hpre
      obtain ⟨⟨b, r⟩, hbr, heq⟩ := Option.map_eq_some_iff.1 h
      simp only [Prod.mk.injEq] at heq
      obtain ⟨rfl, rfl⟩ := heq
      intro j hj
      cases j with
      | zero => simpa using hpre
      | succ j => simpa using ih hbr j (by simpa using hj)

/-- A text the search finds nothing in holds no occurrence of a nonempty pattern. -/
theorem not_infix_of_splitBefore_none {pat text : List Char} (hpat : pat ≠ [])
    (h : splitBefore pat text = none) : ¬ pat <:+: text := by
  induction text with
  | nil => simpa using hpat
  | cons t ts ih =>
    simp only [splitBefore] at h
    split at h
    · cases h
    · rename_i hpre
      rw [Option.map_eq_none_iff] at h
      rw [List.infix_cons_iff]
      rintro (hp | hi)
      · exact hpre (List.isPrefixOf_iff_prefix.mpr hp)
      · exact ih h hi

/-- Where no occurrence of a nonempty pattern starts before a position, the text before that
position holds none. -/
theorem not_infix_of_first {pat before found : List Char} (hpat : pat ≠ [])
    (hfirst : ∀ j < before.length, ¬ pat <+: (before ++ found).drop j) : ¬ pat <:+: before := by
  rintro ⟨s, t, hst⟩
  have hlen : s.length < before.length := by
    have := congrArg List.length hst
    simp only [List.length_append] at this
    have := List.length_pos_iff.mpr hpat
    omega
  refine hfirst s.length hlen ⟨t ++ found, ?_⟩
  rw [← hst]
  simp

/-! ## The run-by-run rule -/

/-- The prefix of a JWT is not empty. -/
theorem jwtPrefix_ne_nil : jwtPrefix ≠ [] := List.cons_ne_nil _ _

/-- A run that starts with `eyJ` is a JWT exactly when it holds two dots. -/
theorem isJwt_of_jwtPrefix {run : List Char} (h : jwtPrefix <+: run) :
    isJwt run = (run.count '.' == 2) := by
  obtain ⟨r, rfl⟩ := h
  simp [isJwt, jwtPrefix]

/-- A JWT starts with `eyJ`. -/
theorem prefix_of_isJwt {run : List Char} (h : isJwt run = true) : jwtPrefix <+: run := by
  unfold isJwt at h
  have htake : run.take 3 = ['e', 'y', 'J'] := by simpa using (Bool.and_eq_true _ _).mp h |>.1
  rw [List.prefix_iff_eq_take]
  exact htake.symm

/-- A text ending in a character that is no token character is masked apart from what follows. -/
theorem jwtChars_append_of_last {x y : List Char}
    (hx : ∀ c ∈ x.getLast?, isTokenChar c = false) :
    jwtChars (x ++ y) = jwtChars x ++ jwtChars y := by
  rw [← result_jwtPieces, jwtPieces_append_of_last hx, result_append, result_jwtPieces,
    result_jwtPieces]

/-- A run of token characters followed by a character that is not one is masked whole or
kept whole. -/
theorem jwtChars_run_append {run post : List Char} (hne : run ≠ [])
    (hrun : ∀ c ∈ run, isTokenChar c = true)
    (hpost : ∀ c ∈ post.head?, isTokenChar c = false) :
    jwtChars (run ++ post) = (if isJwt run then mask else run) ++ jwtChars post := by
  rw [← result_jwtPieces, jwtPieces_run hne hrun hpost, result_append, result_runPieces,
    result_jwtPieces]

/-- A text with no `eyJ` holds no JWT, so the rule keeps it as it is. -/
theorem jwtChars_eq_self_of_no_jwtPrefix {t : List Char} (h : ¬ jwtPrefix <:+: t) :
    jwtChars t = t := by
  fun_induction jwtChars t with
  | case1 => rfl
  | case2 c cs hc run ih =>
    have hsplit : run ++ cs.dropWhile isTokenChar = c :: cs := by
      simp only [run, List.takeWhile_cons_of_pos hc, List.cons_append,
        List.takeWhile_append_dropWhile]
    -- the run is a prefix of the text, so it cannot start with `eyJ`
    have hrun : isJwt run = false := by
      by_contra hj
      exact h ((prefix_of_isJwt (by simpa using hj)).trans (List.takeWhile_prefix _)).isInfix
    have hrest : ¬ jwtPrefix <:+: cs.dropWhile isTokenChar := fun hi =>
      h (hi.trans ((List.dropWhile_suffix _).isInfix.trans (List.suffix_cons c cs).isInfix))
    rw [hrun, if_neg Bool.false_ne_true, ih hrest, hsplit]
  | case3 c cs hc ih =>
    rw [ih fun hi => h (hi.trans (List.suffix_cons c cs).isInfix)]

/-! ## At an occurrence of `eyJ` -/

section Occurrence

variable {before found : List Char}

/-- The run of token characters from an occurrence of `eyJ` starts with it. -/
theorem takeWhile_keeps_jwtPrefix (hpre : jwtPrefix <+: found) :
    jwtPrefix <+: found.takeWhile isTokenChar := by
  obtain ⟨r, rfl⟩ := hpre
  rw [List.takeWhile_append_of_pos fun c hc => List.all_eq_true.mp (by decide) c hc]
  exact List.prefix_append _ _

/-- What follows a run of token characters starts with a character that is no token character. -/
theorem head_dropWhile_token (found : List Char) :
    ∀ c ∈ (found.dropWhile isTokenChar).head?, isTokenChar c = false := fun c hc => by
  have := List.head?_dropWhile_not isTokenChar found
  rw [Option.mem_def.mp hc] at this
  exact this

/-- Where no token character stands before an occurrence of `eyJ`, the occurrence starts a
run of token characters, which the rule masks when it holds two dots. -/
theorem jwtChars_at_word_start (hclean : ¬ jwtPrefix <:+: before)
    (hword : (before.getLast?.all fun c => !isTokenChar c) = true) (hpre : jwtPrefix <+: found) :
    jwtChars (before ++ found) = before ++
      (if (found.takeWhile isTokenChar).count '.' == 2 then mask
        else found.takeWhile isTokenChar) ++ jwtChars (found.dropWhile isTokenChar) := by
  have hlast : ∀ c ∈ before.getLast?, isTokenChar c = false := fun c hc => by
    simpa [Option.mem_def.mp hc] using hword
  have hrun := takeWhile_keeps_jwtPrefix hpre
  have hne : found.takeWhile isTokenChar ≠ [] := fun h =>
    jwtPrefix_ne_nil (List.prefix_nil.mp (h ▸ hrun))
  conv_lhs => rw [← List.takeWhile_append_dropWhile (p := isTokenChar) (l := found)]
  rw [jwtChars_append_of_last hlast, jwtChars_eq_self_of_no_jwtPrefix hclean,
    jwtChars_run_append hne (fun c hc => List.mem_takeWhile_imp hc) (head_dropWhile_token found),
    isJwt_of_jwtPrefix hrun, List.append_assoc]

/-- Where a token character stands before the first occurrence of `eyJ`, the run of token
characters around it began earlier and does not start with `eyJ`: the rule keeps it. -/
theorem jwtChars_inside_run
    (hfirst : ∀ j < before.length, ¬ jwtPrefix <+: (before ++ found).drop j)
    (hword : (before.getLast?.all fun c => !isTokenChar c) = false) :
    jwtChars (before ++ found) = before ++ found.takeWhile isTokenChar ++
      jwtChars (found.dropWhile isTokenChar) := by
  -- the run reaching the occurrence starts after `x₀`, inside `before`
  obtain ⟨x₀, r₁, hbefore, hr₁, hx₀⟩ := exists_token_suffix before
  have hr₁ne : r₁ ≠ [] := by
    rintro rfl
    rw [List.append_nil] at hbefore
    subst hbefore
    cases hl : before.getLast? with
    | none => simp [hl] at hword
    | some c => simp [hl, hx₀ c hl] at hword
  set run := r₁ ++ found.takeWhile isTokenChar
  have htoken : ∀ c ∈ run, isTokenChar c = true := by
    intro c hc
    rcases List.mem_append.mp hc with hc | hc
    · exact hr₁ c hc
    · exact List.mem_takeWhile_imp hc
  have hsplit : before ++ found = x₀ ++ (run ++ found.dropWhile isTokenChar) := by
    rw [hbefore, List.append_assoc, List.append_assoc, List.takeWhile_append_dropWhile]
  -- a run starting with `eyJ` would be an occurrence before the first one
  have hnot : isJwt run = false := by
    by_contra hj
    refine hfirst x₀.length ?_ ?_
    · rw [hbefore, List.length_append]
      have := List.length_pos_iff.mpr hr₁ne
      omega
    · rw [hsplit, List.drop_left]
      exact (prefix_of_isJwt (by simpa using hj)).trans (List.prefix_append _ _)
  have hx₀clean : jwtChars x₀ = x₀ := jwtChars_eq_self_of_no_jwtPrefix fun hi =>
    not_infix_of_first jwtPrefix_ne_nil hfirst
      (hbefore ▸ hi.trans (List.prefix_append x₀ r₁).isInfix)
  rw [hsplit, jwtChars_append_of_last hx₀, jwtChars_run_append (by simp [run, hr₁ne]) htoken
    (head_dropWhile_token found), hnot, if_neg Bool.false_ne_true, hx₀clean, hbefore]
  simp [run]

end Occurrence

/-! ## The scan -/

/-- The scan for `eyJ` and the run-by-run rule give the same text: induction along the scan,
one occurrence at a time. -/
theorem scanJwt_eq_jwtChars (text : List Char) : scanJwt text = jwtChars text := by
  fun_induction scanJwt text with
  | case1 text h =>
    exact (jwtChars_eq_self_of_no_jwtPrefix
      (not_infix_of_splitBefore_none jwtPrefix_ne_nil h)).symm
  | case2 text before found h _ startsWord candidate ih =>
    obtain ⟨rfl, hpre⟩ := splitBefore_eq_some h
    have hfirst := not_prefix_drop_of_splitBefore h
    rw [ih]
    cases hword : startsWord with
    | true =>
      rw [jwtChars_at_word_start (not_infix_of_first jwtPrefix_ne_nil hfirst) hword hpre,
        Bool.true_and]
    | false =>
      rw [jwtChars_inside_run hfirst hword, Bool.false_and, if_neg Bool.false_ne_true]

/-- `Redact.jwt` masks exactly the maximal runs of token characters that start with `eyJ` and
hold two dots, and keeps every other character. -/
theorem jwt_eq_jwtChars (s : String) : jwt s = String.ofList (jwtChars s.toList) := by
  rw [jwt, scanJwt_eq_jwtChars]

end Redact
end FeedClient
