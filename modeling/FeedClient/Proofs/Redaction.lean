import FeedClient.Proofs.Masking

/-!
# What redaction hides

`Redact.secrets` masks JWT-shaped tokens, then the values of `Authorization:` headers, then
the values of `"access_token":"` fields, each pass reading the text the pass before it
wrote. Its output is its input with disjoint spans replaced by the mask. It hides every JWT of
the input, every header value whose marker does not start inside a JWT, and every
access-token value whose marker follows no header marker on its line and starts inside no
other access-token marker. A marker that does start there was already masked, or skipped,
before its own pass read the text, and its value can come through.

Main results:

- `hides_jwtPieces`: the JWT pass, as pieces, hides every JWT of its input.
- `Field.hides_header` and `Field.hides_access`: the header pass and the field pass hide the
  values whose markers the passes before them leave whole.
- `secrets_hide`: `secrets` is a redaction of its input that hides every secret whose marker
  no earlier pass can reach.
- `header_value_survives_inside_token`: a header whose marker ends a JWT keeps its value.
-/

namespace FeedClient
namespace Redact

/-! ## Runs of token characters -/

/-- A run taken from the front of two texts stops in the first when the second cannot continue it.
-/
theorem takeWhile_append_of_head {p : Char → Bool} {x y : List Char}
    (hy : ∀ c ∈ y.head?, p c = false) : (x ++ y).takeWhile p = x.takeWhile p := by
  induction x with
  | nil => cases y with
    | nil => rfl
    | cons c y => simp [hy c rfl]
  | cons c x ih => simp only [List.cons_append, List.takeWhile_cons, ih]

/-- A run dropped from the front of two texts stops in the first when the second cannot continue it.
-/
theorem dropWhile_append_of_head {p : Char → Bool} {x y : List Char}
    (hy : ∀ c ∈ y.head?, p c = false) : (x ++ y).dropWhile p = x.dropWhile p ++ y := by
  induction x with
  | nil => cases y with
    | nil => rfl
    | cons c y => simp [hy c rfl]
  | cons c x ih =>
    simp only [List.cons_append, List.dropWhile_cons]
    split
    · exact ih
    · rfl

/-- Every text ends with a run of token characters, possibly empty, after a character that
is not one. -/
theorem exists_token_suffix (x : List Char) : ∃ x₀ run, x = x₀ ++ run ∧
    (∀ c ∈ run, isTokenChar c = true) ∧ ∀ c ∈ x₀.getLast?, isTokenChar c = false := by
  refine ⟨(x.reverse.dropWhile isTokenChar).reverse, (x.reverse.takeWhile isTokenChar).reverse,
    ?_, fun c hc => List.mem_takeWhile_imp (List.mem_reverse.mp hc), fun c hc => ?_⟩
  · rw [← List.reverse_append, List.takeWhile_append_dropWhile, List.reverse_reverse]
  · have := List.head?_dropWhile_not isTokenChar x.reverse
    rw [List.getLast?_reverse, Option.mem_def.mp hc] at *
    exact this

/-- A JWT starts with `eyJ`, so it holds a `J`. -/
theorem mem_of_isJwt {run : List Char} (h : isJwt run = true) : 'J' ∈ run := by
  unfold isJwt at h
  have htake : run.take 3 = ['e', 'y', 'J'] := by simpa using (Bool.and_eq_true _ _).mp h |>.1
  exact List.mem_of_mem_take (by rw [htake]; simp)

/-! ## The JWT pass as pieces -/

/-- The JWT pass as a redaction: each maximal run of token characters that is a JWT is one
cut, and every other character is kept. -/
def jwtPieces : List Char → List Piece
  | [] => []
  | c :: cs =>
    if isTokenChar c then
      let run := (c :: cs).takeWhile isTokenChar
      (if isJwt run then [Piece.cut run] else run.map Piece.keep) ++
        jwtPieces (cs.dropWhile isTokenChar)
    else Piece.keep c :: jwtPieces cs
termination_by cs => cs.length
decreasing_by
  · simp only [List.length_cons]
    exact Nat.lt_succ_of_le (List.dropWhile_sublist _).length_le
  · simp only [List.length_cons]
    exact Nat.lt_succ_self _

/-- The JWT pass over the empty text is empty. -/
@[simp] theorem jwtPieces_nil : jwtPieces [] = [] := by
  rw [jwtPieces]

/-- The pieces of one run of token characters. -/
def runPieces (run : List Char) : List Piece :=
  if isJwt run then [Piece.cut run] else run.map Piece.keep

/-- The pieces of a run read the run. -/
@[simp] theorem source_runPieces (run : List Char) : source (runPieces run) = run := by
  unfold runPieces; split <;> simp

/-- The pieces of a run write the mask for a JWT and the run itself otherwise. -/
@[simp] theorem result_runPieces (run : List Char) :
    result (runPieces run) = if isJwt run then mask else run := by
  unfold runPieces; split <;> simp

/-- A text that starts with a token character has its first run handled whole. -/
theorem jwtPieces_cons_token {c : Char} {cs : List Char} (hc : isTokenChar c = true) :
    jwtPieces (c :: cs) = runPieces ((c :: cs).takeWhile isTokenChar) ++
      jwtPieces (cs.dropWhile isTokenChar) := by
  rw [jwtPieces, if_pos hc]; rfl

/-- A character that is no token character is kept. -/
theorem jwtPieces_cons_other {c : Char} {cs : List Char} (hc : isTokenChar c = false) :
    jwtPieces (c :: cs) = Piece.keep c :: jwtPieces cs := by
  rw [jwtPieces, if_neg (by simp [hc])]

/-- The JWT pass, as pieces, reads its input. -/
theorem source_jwtPieces (s : List Char) : source (jwtPieces s) = s := by
  fun_induction jwtPieces s with
  | case1 => rfl
  | case2 c cs hc run ih =>
    rw [source_append, ← runPieces, source_runPieces, ih]
    show (c :: cs).takeWhile isTokenChar ++ cs.dropWhile isTokenChar = c :: cs
    rw [List.takeWhile_cons_of_pos hc, List.cons_append, List.takeWhile_append_dropWhile]
  | case3 c cs hc ih => simp [ih]

/-- The JWT pass, as pieces, writes what the pass writes. -/
theorem result_jwtPieces (s : List Char) : result (jwtPieces s) = jwtChars s := by
  fun_induction jwtPieces s with
  | case1 => simp [jwtChars]
  | case2 c cs hc run ih =>
    rw [jwtChars, if_pos hc, result_append, ← runPieces, result_runPieces, ih]
  | case3 c cs hc ih =>
    rw [jwtChars, if_neg hc]
    simp [ih]

/-- The JWT pass cuts only runs of token characters. -/
theorem token_of_cut_mem_jwtPieces {s span : List Char}
    (h : Piece.cut span ∈ jwtPieces s) : ∀ c ∈ span, isTokenChar c = true := by
  fun_induction jwtPieces s with
  | case1 => simp at h
  | case2 c cs hc run ih =>
    rcases List.mem_append.mp h with h | h
    · split at h
      · simp only [List.mem_singleton, Piece.cut.injEq] at h
        subst h
        exact fun d hd => List.mem_takeWhile_imp hd
      · simp at h
    · exact ih h
  | case3 c cs hc ih =>
    rcases List.mem_cons.mp h with h | h
    · cases h
    · exact ih h

/-- A run of token characters followed by a character that is not one is handled whole. -/
theorem jwtPieces_run {run post : List Char} (hne : run ≠ [])
    (hrun : ∀ c ∈ run, isTokenChar c = true) (hpost : ∀ c ∈ post.head?, isTokenChar c = false) :
    jwtPieces (run ++ post) = runPieces run ++ jwtPieces post := by
  obtain ⟨c, cs, rfl⟩ := List.exists_cons_of_ne_nil hne
  rw [List.cons_append, jwtPieces_cons_token (hrun c (by simp)), ← List.cons_append,
    takeWhile_append_of_head hpost, List.takeWhile_eq_self_iff.mpr hrun,
    dropWhile_append_of_head hpost,
    List.dropWhile_eq_nil_iff.mpr fun d hd => hrun d (List.mem_cons_of_mem _ hd),
    List.nil_append]

/-- The JWT pass works on the two sides of a character that is not a token character apart. -/
theorem jwtPieces_append {x y : List Char} (hy : ∀ c ∈ y.head?, isTokenChar c = false) :
    jwtPieces (x ++ y) = jwtPieces x ++ jwtPieces y := by
  fun_induction jwtPieces x with
  | case1 => rfl
  | case2 c cs hc run ih =>
    rw [List.cons_append, jwtPieces_cons_token hc, ← List.cons_append,
      takeWhile_append_of_head hy, dropWhile_append_of_head hy, ih, ← runPieces,
      List.append_assoc]
  | case3 c cs hc ih =>
    rw [List.cons_append, jwtPieces_cons_other (by simpa using hc), ih, List.cons_append]

/-- A text ending in a character that is no token character has its pieces apart from what follows.
-/
theorem jwtPieces_append_of_last {x y : List Char}
    (hx : ∀ c ∈ x.getLast?, isTokenChar c = false) :
    jwtPieces (x ++ y) = jwtPieces x ++ jwtPieces y := by
  rcases List.eq_nil_or_concat' x with rfl | ⟨x', c, rfl⟩
  · simp
  · have hc : isTokenChar c = false := hx c (by simp)
    rw [List.append_assoc, jwtPieces_append (by simpa using hc),
      jwtPieces_append (x := x') (y := [c]) (by simpa using hc), List.singleton_append,
      jwtPieces_cons_other hc, jwtPieces_cons_other hc, List.append_assoc]
    simp

/-- A text with no `J` holds no JWT: the pass keeps all of it. -/
theorem jwtPieces_of_not_mem {x : List Char} (hx : 'J' ∉ x) : jwtPieces x = x.map Piece.keep := by
  fun_induction jwtPieces x with
  | case1 => rfl
  | case2 c cs hc run ih =>
    have hrun : isJwt run = false := by
      by_contra hj
      exact hx ((List.takeWhile_sublist _).subset (mem_of_isJwt (by simpa using hj)))
    rw [ih fun h => hx (List.mem_cons_of_mem _ ((List.dropWhile_sublist _).subset h)),
      if_neg (by simp [hrun])]
    rw [← List.map_append]
    show List.map Piece.keep ((c :: cs).takeWhile isTokenChar ++ cs.dropWhile isTokenChar) = _
    rw [List.takeWhile_cons_of_pos hc, List.cons_append, List.takeWhile_append_dropWhile]
  | case3 c cs hc ih =>
    rw [ih fun h => hx (List.mem_cons_of_mem _ h)]
    rfl

/-! ## JWTs of a text -/

/-- A JWT of a text: a maximal run of token characters, between `pre` and `post`, that is a
JWT. -/
structure JwtToken (s : List Char) where
  pre : List Char
  run : List Char
  post : List Char
  split : s = pre ++ run ++ post
  token : ∀ c ∈ run, isTokenChar c = true
  starts : ∀ c ∈ pre.getLast?, isTokenChar c = false
  ends : ∀ c ∈ post.head?, isTokenChar c = false
  jwt : isJwt run = true

/-- Position `p` of `s` lies strictly inside a JWT: past its first character and before its
end. -/
def InsideJwt (s : List Char) (p : Nat) : Prop :=
  ∃ t : JwtToken s, t.pre.length < p ∧ p < t.pre.length + t.run.length

/-- The JWT pass hides every JWT of its input. -/
theorem hides_jwtPieces {s : List Char} (t : JwtToken s) :
    Hides (jwtPieces s) t.pre.length t.run.length := by
  obtain ⟨pre, run, post, rfl, htoken, hstarts, hends, hjwt⟩ := t
  have hne : run ≠ [] := fun h => by simpa [h] using mem_of_isJwt hjwt
  have h := hides_cut (jwtPieces pre) (jwtPieces post) run
  rw [source_jwtPieces] at h
  show Hides (jwtPieces (pre ++ run ++ post)) pre.length run.length
  rw [List.append_assoc, jwtPieces_append_of_last hstarts, jwtPieces_run hne htoken hends,
    runPieces, if_pos hjwt]
  exact h

/-- Where no JWT runs across position `x.length` and `y` does not start with `e`, the JWT pass
treats `y` as it treats it alone. -/
theorem jwtPieces_split {x y : List Char} (hin : ¬ InsideJwt (x ++ y) x.length)
    (hy : ∀ c ∈ y.head?, c ≠ 'e') :
    ∃ A, jwtPieces (x ++ y) = A ++ jwtPieces y ∧ source A = x := by
  obtain ⟨x₀, r₁, rfl, hr₁, hx₀⟩ := exists_token_suffix x
  have hy' : ∀ c ∈ (y.dropWhile isTokenChar).head?, isTokenChar c = false := fun c hc => by
    have := List.head?_dropWhile_not isTokenChar y
    rw [Option.mem_def.mp hc] at this
    exact this
  have hr₂ : ∀ c ∈ y.takeWhile isTokenChar, isTokenChar c = true :=
    fun c hc => List.mem_takeWhile_imp hc
  have hysplit := (List.takeWhile_append_dropWhile (p := isTokenChar) (l := y)).symm
  rcases List.eq_nil_or_concat' r₁ with rfl | ⟨r₁', a, rfl⟩
  · exact ⟨jwtPieces x₀, by simpa using jwtPieces_append_of_last hx₀,
      by simp [source_jwtPieces]⟩
  cases hrun₂ : y.takeWhile isTokenChar with
  | nil =>
    -- `y` starts with no token character: the pass splits there.
    have hyh : ∀ c ∈ y.head?, isTokenChar c = false := by
      rw [hysplit, hrun₂, List.nil_append]; exact hy'
    exact ⟨jwtPieces (x₀ ++ (r₁' ++ [a])), jwtPieces_append hyh, source_jwtPieces _⟩
  | cons b r₂ =>
    -- One run of token characters crosses the position, and it is no JWT.
    set y' := y.dropWhile isTokenChar with hy'def
    have hrun : isJwt (r₁' ++ [a] ++ (b :: r₂)) = false := by
      by_contra hj
      refine hin ⟨⟨x₀, r₁' ++ [a] ++ (b :: r₂), y', ?_, ?_, hx₀, hy', by simpa using hj⟩, ?_, ?_⟩
      · conv_lhs => rw [hysplit, hrun₂]
        simp
      · intro c hc
        rcases List.mem_append.mp hc with hc | hc
        · exact hr₁ c hc
        · exact hr₂ c (hrun₂ ▸ hc)
      · simp
      · simp
    have hhead : b ≠ 'e' := hy b (by rw [hysplit, hrun₂]; rfl)
    have hrun₂' : isJwt (b :: r₂) = false := by
      unfold isJwt
      simp [hhead]
    refine ⟨jwtPieces x₀ ++ (r₁' ++ [a]).map Piece.keep, ?_, by simp [source_jwtPieces]⟩
    have hne : r₁' ++ [a] ++ b :: r₂ ≠ [] := by simp
    have htok : ∀ c ∈ r₁' ++ [a] ++ b :: r₂, isTokenChar c = true := by
      intro c hc
      rcases List.mem_append.mp hc with hc | hc
      · exact hr₁ c hc
      · exact hr₂ c (hrun₂ ▸ hc)
    have hxy : x₀ ++ (r₁' ++ [a]) ++ y = x₀ ++ ((r₁' ++ [a] ++ b :: r₂) ++ y') := by
      conv_lhs => rw [hysplit, hrun₂]
      simp
    rw [hxy, jwtPieces_append_of_last hx₀, jwtPieces_run hne htok hy']
    conv_rhs => rw [hysplit, hrun₂, jwtPieces_run (List.cons_ne_nil _ _) (hrun₂ ▸ hr₂) hy']
    have hrun' : isJwt (r₁' ++ a :: b :: r₂) = false := by simpa using hrun
    simp [runPieces, hrun', hrun₂']

/-- The JWT pass keeps the start of its text unless a JWT starts there, so a space there
stays. -/
theorem leadingSpace_jwtChars (x : List Char) : leadingSpace (jwtChars x) = leadingSpace x := by
  rw [← result_jwtPieces]
  cases x with
  | nil => simp
  | cons c cs =>
    by_cases hc : isTokenChar c = true
    · have hsp : c ≠ ' ' := by rintro rfl; exact absurd hc (by decide)
      rw [jwtPieces_cons_token hc, List.takeWhile_cons_of_pos hc, runPieces]
      split
      · simp [leadingSpace, hsp, mask_eq]
      · simp [leadingSpace, hsp]
    · rw [jwtPieces_cons_other (by simpa using hc)]
      simp [leadingSpace]

/-- A text that starts with a character that is no token character starts so after the JWT
pass. -/
theorem head_result_jwtPieces {c : Char} {cs : List Char} (hc : isTokenChar c = false) :
    (result (jwtPieces (c :: cs))).head? = some c := by
  rw [jwtPieces_cons_other hc]
  simp

/-! ## The two marker passes -/

/-- A character that lowercases to a character that is no lowercase letter was that
character. -/
theorem eq_of_toLower_eq {c d : Char} (hd : d.isLower = false) (h : c.toLower = d) : c = d := by
  unfold Char.toLower at h
  split at h
  · rename_i hu
    subst h
    simp [Char.isLower, UInt32.le_iff_toNat_le, UInt32.toNat_add] at hd hu
    omega
  · exact h

/-- The header marker spells `Authorization:`. -/
theorem authorizationMarker_eq :
    authorizationMarker = ['A', 'u', 't', 'h', 'o', 'r', 'i', 'z', 'a', 't', 'i', 'o', 'n', ':'] :=
  rfl

/-- The field marker spells `"access_token":"`. -/
theorem accessTokenMarker_eq : accessTokenMarker =
    ['"', 'a', 'c', 'c', 'e', 's', 's', '_', 't', 'o', 'k', 'e', 'n', '"', ':', '"'] := rfl

/-- The header pass: after `Authorization:`, the value runs to the end of its line. -/
def headerRule : Rule where
  marker := authorizationMarker
  stop c := c == '\n' || c == '\r'
  marker_ne_nil := by rw [authorizationMarker_eq]; exact List.cons_ne_nil _ _
  apart := by rw [authorizationMarker_eq]; decide
  stop_space := rfl
  stop_mask := stop_mask_of_all (by rw [mask_eq]; decide)

/-- The field pass: after `"access_token":"`, the value runs to the next quote. -/
def accessRule : Rule where
  marker := accessTokenMarker
  stop c := c == '"'
  marker_ne_nil := by rw [accessTokenMarker_eq]; exact List.cons_ne_nil _ _
  apart := by rw [accessTokenMarker_eq]; decide
  stop_space := rfl
  stop_mask := stop_mask_of_all (by rw [mask_eq]; decide)

/-- The three passes of `secrets` as one redaction of its input. -/
def secretPieces (s : List Char) : List Piece := accessRule.lift (headerRule.lift (jwtPieces s))

/-- The three passes, as pieces, read the input. -/
theorem source_secretPieces (s : List Char) : source (secretPieces s) = s := by
  rw [secretPieces, Rule.source_lift, Rule.source_lift, source_jwtPieces]

/-- The three passes, as pieces, write what `secrets` writes. -/
theorem result_secretPieces (s : String) : result (secretPieces s.toList) = (secrets s).toList := by
  rw [secretPieces, Rule.result_lift, Rule.result_lift, result_jwtPieces, secrets,
    String.toList_ofList]
  rfl

/-! ## Values after a marker -/

/-- A match of a rule's marker with the value after it: the text reads `pre`, the match
`tag`, the space kept after it if any, the value up to the first stop character, and the
rest. -/
structure Field (r : Rule) (s : List Char) where
  pre : List Char
  tag : List Char
  gap : List Char
  value : List Char
  post : List Char
  split : s = pre ++ tag ++ gap ++ value ++ post
  spells : lower tag = lower r.marker
  gap_eq : gap = leadingSpace (gap ++ value ++ post)
  value_open : ∀ c ∈ value, r.stop c = false
  value_ends : ∀ c ∈ post.head?, r.stop c = true

/-- Where the value of a field starts. -/
def Field.start {r : Rule} {s : List Char} (f : Field r s) : Nat :=
  (f.pre ++ f.tag ++ f.gap).length

/-- The space kept after a marker is nothing or one space. -/
theorem gap_cases {gap rest : List Char} (h : gap = leadingSpace rest) :
    gap = [] ∨ gap = [' '] := by
  unfold leadingSpace at h
  split at h <;> simp [h]

/-- The JWT pass keeps a match of a marker with no `J`, whose last character is no token
character, and the space after it. -/
theorem jwtPieces_tag {tag gap rest : List Char} (hJ : 'J' ∉ tag)
    (hlast : ∀ c ∈ tag.getLast?, isTokenChar c = false) (hgap : gap = [] ∨ gap = [' ']) :
    jwtPieces (tag ++ gap ++ rest) = (tag ++ gap).map Piece.keep ++ jwtPieces rest := by
  rw [List.append_assoc, jwtPieces_append_of_last hlast, jwtPieces_of_not_mem hJ]
  rcases hgap with rfl | rfl
  · simp
  · rw [List.singleton_append, jwtPieces_cons_other (by decide)]
    simp

/-! ## Characters of a match -/

section Spelling

variable {w m : List Char}

/-- A stretch that spells a marker holds no character whose lowercase form the marker lacks. -/
theorem not_mem_of_lower_eq (h : lower w = lower m) {c : Char} (hc : c.toLower ∉ lower m) :
    c ∉ w :=
  fun hw => hc (h ▸ List.mem_map_of_mem hw)

/-- A stretch that spells a marker starts with a character lowercasing to the marker's first. -/
theorem head_lower_of_lower_eq (h : lower w = lower m) {c : Char} (hc : c ∈ w.head?) :
    (lower m).head? = some c.toLower := by
  rw [← h, lower, List.head?_map, Option.mem_def.mp hc, Option.map_some]

/-- A stretch that spells a marker ends with a character lowercasing to the marker's last. -/
theorem getLast_lower_of_lower_eq (h : lower w = lower m) {c : Char} (hc : c ∈ w.getLast?) :
    (lower m).getLast? = some c.toLower := by
  rw [← h, lower, List.getLast?_map, Option.mem_def.mp hc, Option.map_some]

/-- The first character of a stretch that spells the marker is the marker's first character,
when that is no lowercase letter. -/
theorem head_eq_of_lower_eq (h : lower w = lower m) {c d : Char} (hc : c ∈ w.head?)
    (hd : (lower m).head? = some d) (hdl : d.isLower = false) : c = d :=
  eq_of_toLower_eq hdl (Option.some_inj.mp ((head_lower_of_lower_eq h hc).symm.trans hd))

/-- The last character of a stretch that spells the marker is the marker's last character, when that
is no lowercase letter. -/
theorem getLast_eq_of_lower_eq (h : lower w = lower m) {c d : Char} (hc : c ∈ w.getLast?)
    (hd : (lower m).getLast? = some d) (hdl : d.isLower = false) : c = d :=
  eq_of_toLower_eq hdl (Option.some_inj.mp ((getLast_lower_of_lower_eq h hc).symm.trans hd))

/-- A stretch that spells a nonempty marker is not empty. -/
theorem ne_nil_of_lower_eq (h : lower w = lower m) (hm : m ≠ []) : w ≠ [] := by
  rintro rfl
  exact hm (List.eq_nil_of_length_eq_zero (by simpa using (congrArg List.length h).symm))

end Spelling

/-- The header marker compares as `authorization:`. -/
theorem lower_headerRule_marker : lower headerRule.marker =
    ['a', 'u', 't', 'h', 'o', 'r', 'i', 'z', 'a', 't', 'i', 'o', 'n', ':'] := by
  show lower authorizationMarker = _
  rw [authorizationMarker_eq]; decide

/-- The field marker compares as itself: it has no capital letter. -/
theorem lower_accessRule_marker : lower accessRule.marker =
    ['"', 'a', 'c', 'c', 'e', 's', 's', '_', 't', 'o', 'k', 'e', 'n', '"', ':', '"'] := by
  show lower accessTokenMarker = _
  rw [accessTokenMarker_eq]; decide

/-- A header value stops at a line break. -/
theorem headerRule_stop {c : Char} : headerRule.stop c = true ↔ c = '\n' ∨ c = '\r' := by
  simp [headerRule]

/-- Line breaks are no token characters. -/
theorem isTokenChar_of_headerRule_stop {c : Char} (h : headerRule.stop c = true) :
    isTokenChar c = false := by
  rcases headerRule_stop.mp h with rfl | rfl <;> decide

/-- No two matches of the header marker overlap. -/
theorem headerRule_not_overlaps_self :
    ∀ d < headerRule.marker.length, 0 < d → ¬ Overlaps headerRule.marker headerRule.marker d := by
  show ∀ d < authorizationMarker.length, _
  rw [authorizationMarker_eq]; decide

/-- A match of the field marker does not start inside a match of the header marker. -/
theorem headerRule_not_overlaps_access :
    ∀ d < headerRule.marker.length, ¬ Overlaps headerRule.marker accessRule.marker d := by
  show ∀ d < authorizationMarker.length, ¬ Overlaps authorizationMarker accessTokenMarker d
  rw [authorizationMarker_eq, accessTokenMarker_eq]; decide

/-- A match of the header marker does not start inside a match of the field marker or the
space after it. -/
theorem accessRule_not_overlaps_header {gap : List Char} (hgap : gap = [] ∨ gap = [' ']) :
    ∀ d < (accessRule.marker ++ gap).length,
      ¬ Overlaps (accessRule.marker ++ gap) headerRule.marker d := by
  show ∀ d < (accessTokenMarker ++ gap).length, ¬ Overlaps (accessTokenMarker ++ gap) authorizationMarker d
  rw [authorizationMarker_eq, accessTokenMarker_eq]
  rcases hgap with rfl | rfl <;> decide

/-! ## Header values -/

/-- The header pass hides the value of every header whose marker does not start inside a
JWT: the JWT pass keeps that marker whole, and no other match of it overlaps it. -/
theorem Field.hides_header {s : List Char} (f : Field headerRule s)
    (hin : ¬ InsideJwt s f.pre.length) :
    Hides (headerRule.lift (jwtPieces s)) f.start f.value.length := by
  obtain ⟨pre, tag, gap, value, post, rfl, hspell, hgap, hopen, hends⟩ := f
  show Hides _ (pre ++ tag ++ gap).length value.length
  -- What the spelling of the marker tells about the characters of the match.
  have hJ : 'J' ∉ tag := not_mem_of_lower_eq hspell (by rw [lower_headerRule_marker]; decide)
  have hlast : ∀ c ∈ tag.getLast?, isTokenChar c = false := fun c hc => by
    rw [getLast_eq_of_lower_eq hspell hc (by rw [lower_headerRule_marker]; rfl) (by decide)]
    decide
  have hhead : ∀ c ∈ (tag ++ gap ++ (value ++ post)).head?, c ≠ 'e' := by
    intro c hc he
    have htag := ne_nil_of_lower_eq hspell headerRule.marker_ne_nil
    rw [List.append_assoc, List.head?_append_of_ne_nil _ htag] at hc
    have h := head_lower_of_lower_eq hspell hc
    rw [lower_headerRule_marker, he] at h
    exact absurd h (by decide)
  have hnostop : ∀ c ∈ tag, headerRule.stop c = false := by
    intro c hc
    refine Bool.eq_false_iff.mpr fun hstop => not_mem_of_lower_eq hspell ?_ hc
    rw [lower_headerRule_marker]
    rcases headerRule_stop.mp hstop with rfl | rfl <;> decide
  have hpost : ∀ c ∈ post.head?, isTokenChar c = false := fun c hc =>
    isTokenChar_of_headerRule_stop (hends c hc)
  -- The JWT pass keeps the match and the space after it, and cuts value and rest apart.
  have hsplit : pre ++ tag ++ gap ++ value ++ post = pre ++ (tag ++ gap ++ (value ++ post)) := by
    simp
  obtain ⟨A, hA, hsrc⟩ := jwtPieces_split (by rwa [← hsplit]) hhead
  set T := (tag ++ gap).map Piece.keep with hT
  have hjwt : jwtPieces (pre ++ tag ++ gap ++ value ++ post) =
      A ++ T ++ jwtPieces value ++ jwtPieces post := by
    rw [hsplit, hA, jwtPieces_tag hJ hlast (gap_cases hgap), jwtPieces_append hpost]
    simp [hT]
  have hsp : headerRule.Spells T (jwtPieces value) (jwtPieces post) := by
    refine ⟨⟨tag, gap, hspell, by simp [hT], ?_⟩, ?_, ?_, Or.inl ?_⟩
    · have h := gap_of_leadingSpace (x := value ++ post)
        (y := result (jwtPieces value) ++ result (jwtPieces post))
        (by simpa only [List.append_assoc] using hgap)
        (by rw [← result_append, ← jwtPieces_append hpost, result_jwtPieces, leadingSpace_jwtChars])
      simpa only [List.append_assoc] using h
    · intro c hc
      rcases mem_source_or_mask_of_mem_result hc with hc | hc
      · exact hopen c (by rwa [source_jwtPieces] at hc)
      · exact headerRule.stop_mask c hc
    · intro c hc
      cases post with
      | nil => simp at hc
      | cons d rest =>
        rw [head_result_jwtPieces (hpost d rfl), Option.mem_def, Option.some_inj] at hc
        subst hc
        exact hends _ rfl
    · intro c hc
      rw [hT, result_keeps, List.mem_append] at hc
      rcases hc with hc | hc
      · exact hnostop c hc
      · rcases gap_cases hgap with rfl | rfl
        · simp at hc
        · rw [List.mem_singleton.mp hc]; rfl
  -- A match starting inside ours would overlap it, and the marker overlaps itself nowhere.
  have hinside : ∀ j < (result A).length, (result A).length < j + headerRule.marker.length →
      ¬ Occurs headerRule.marker (result (A ++ T ++ jwtPieces value ++ jwtPieces post)) j := by
    intro j hj hj' hocc
    have hd := hocc.overlaps (d := (result A).length - j)
      (by rw [Nat.add_sub_cancel' hj.le]; exact hsp.occurs A)
    exact headerRule_not_overlaps_self _ (by omega) (by omega) hd
  have h := headerRule.hides_lift hsp hinside
  rw [hjwt]
  have hstart : (source (A ++ T)).length = (pre ++ tag ++ gap).length := by
    simp [hT, hsrc]
  rw [hstart, source_jwtPieces] at h
  exact h

/-! ## Access-token values -/

/-- The field pass hides the value of every access-token field whose marker starts neither
after a header marker on the same line, where the header pass masks first, nor inside
another match of the field marker. -/
theorem Field.hides_access {s : List Char} (f : Field accessRule s)
    (hheader : ¬ headerRule.OpenAtEnd f.pre)
    (hinside : ∀ j < f.pre.length, f.pre.length < j + accessRule.marker.length →
      ¬ Occurs accessRule.marker s j) :
    Hides (accessRule.lift (headerRule.lift (jwtPieces s))) f.start f.value.length := by
  obtain ⟨pre, tag, gap, value, post, rfl, hspell, hgap, hopen, hends⟩ := f
  show Hides _ (pre ++ tag ++ gap).length value.length
  dsimp only at hheader hinside
  -- What the spelling of the marker tells about the characters of the match.
  have htag := ne_nil_of_lower_eq hspell accessRule.marker_ne_nil
  have htaglen : tag.length = accessRule.marker.length := by
    simpa using congrArg List.length hspell
  have hquote : ∀ c ∈ tag.head?, c = '"' := fun c hc =>
    head_eq_of_lower_eq hspell hc (by rw [lower_accessRule_marker]; rfl) (by decide)
  have hJ : 'J' ∉ tag := not_mem_of_lower_eq hspell (by rw [lower_accessRule_marker]; decide)
  have hlast : ∀ c ∈ tag.getLast?, isTokenChar c = false := fun c hc => by
    rw [getLast_eq_of_lower_eq hspell hc (by rw [lower_accessRule_marker]; rfl) (by decide)]
    decide
  have hgap' := gap_cases hgap
  -- The JWT pass keeps the match and the space after it.
  set P₀ := jwtPieces pre
  set T := (tag ++ gap).map Piece.keep with hT
  set Q₀ := jwtPieces (value ++ post)
  have hjwt : jwtPieces (pre ++ tag ++ gap ++ value ++ post) = P₀ ++ T ++ Q₀ := by
    have hsplit : pre ++ tag ++ gap ++ value ++ post = pre ++ (tag ++ gap ++ (value ++ post)) := by
      simp
    have hhead : ∀ c ∈ (tag ++ gap ++ (value ++ post)).head?, isTokenChar c = false := by
      intro c hc
      rw [List.append_assoc, List.head?_append_of_ne_nil _ htag] at hc
      rw [hquote c hc]
      decide
    rw [hsplit, jwtPieces_append hhead, jwtPieces_tag hJ hlast hgap', List.append_assoc]
  have hresult : result (P₀ ++ T ++ Q₀) = result P₀ ++ tag ++ (gap ++ result Q₀) := by
    simp [hT]
  -- The header pass leaves the match alone: no header value reaches it, and no match of the
  -- header marker overlaps it.
  have hframe : headerRule.lift (P₀ ++ T ++ Q₀) = headerRule.lift P₀ ++ T ++ headerRule.lift Q₀ := by
    refine headerRule.lift_frame ?_ ?_
    · intro hopen'
      refine hheader ?_
      -- A cut of the JWT pass is a run of token characters, so it holds no line break.
      have h := hopen'.of_result fun span hspan c hc =>
        Bool.eq_false_iff.mpr fun hstop => absurd (token_of_cut_mem_jwtPieces hspan c hc)
          (by rw [isTokenChar_of_headerRule_stop hstop]; decide)
      rwa [source_jwtPieces] at h
    · intro j hj hj' hocc
      have hacc : Occurs accessRule.marker (result (P₀ ++ T ++ Q₀)) (result P₀).length := by
        rw [hresult]
        exact occurs_of_lower_eq hspell _ _
      have hacc' : Occurs (accessRule.marker ++ gap) (result (P₀ ++ T ++ Q₀))
          (result P₀).length := by
        have hlow : lower (tag ++ gap) = lower (accessRule.marker ++ gap) := by
          rw [lower_append, lower_append, hspell]
        have h := occurs_of_lower_eq hlow (result P₀) (result Q₀)
        rw [hresult]
        simpa only [List.append_assoc] using h
      by_cases hle : j ≤ (result P₀).length
      · have hd := hocc.overlaps (d := (result P₀).length - j)
          (by rw [Nat.add_sub_cancel' hle]; exact hacc)
        exact headerRule_not_overlaps_access _ (by omega) hd
      · have hd := hacc'.overlaps (d := j - (result P₀).length)
          (by rw [Nat.add_sub_cancel' (by omega)]; exact hocc)
        refine accessRule_not_overlaps_header hgap' _ ?_ hd
        simp only [hT, result_append, result_keeps, List.length_append] at hj' ⊢
        omega
  -- What the header pass writes after the match splits at its first quote.
  set u := result (headerRule.lift Q₀) with hu
  have hsplit : result (headerRule.lift Q₀) =
      u.takeWhile (fun c => !accessRule.stop c) ++ u.dropWhile fun c => !accessRule.stop c :=
    List.takeWhile_append_dropWhile.symm
  obtain ⟨V, R, hQ, hV, hR⟩ := exists_split hsplit (seam_of_head fun b hb hbm => by
      have h := List.head?_dropWhile_not (fun c => !accessRule.stop c) u
      rw [Option.mem_def.mp hb] at h
      simp [accessRule.stop_mask b hbm] at h)
  have hsp : accessRule.Spells T V R := by
    refine ⟨⟨tag, gap, hspell, by simp [hT], ?_⟩, ?_, ?_, Or.inr ?_⟩
    · have h := gap_of_leadingSpace (x := value ++ post) (y := result V ++ result R)
        (by simpa only [List.append_assoc] using hgap)
        (by rw [hV, hR, List.takeWhile_append_dropWhile, hu, Rule.result_lift,
          leadingSpace_maskAfter headerRule.marker_ne_nil, result_jwtPieces, leadingSpace_jwtChars])
      simpa only [List.append_assoc] using h
    · intro c hc
      rw [hV] at hc
      simpa using List.mem_takeWhile_imp hc
    · intro c hc
      have h := List.head?_dropWhile_not (fun c => !accessRule.stop c) u
      rw [← hR, Option.mem_def.mp hc] at h
      simpa using h
    · intro c hc
      rw [hT, result_keeps, List.head?_append_of_ne_nil _ htag] at hc
      rw [hquote c hc]
      rfl
  -- A match of the field marker starting inside ours would be one of the input.
  set P := headerRule.lift P₀
  have hsource : source (P ++ (T ++ V ++ R)) = pre ++ tag ++ gap ++ value ++ post := by
    rw [List.append_assoc T V R, ← hQ, source_append, source_append, Rule.source_lift,
      Rule.source_lift, source_jwtPieces, source_jwtPieces, hT, source_keeps]
    simp
  have hPsrc : (source P).length = pre.length := by
    rw [Rule.source_lift, source_jwtPieces]
  have hinside' : ∀ j < (result P).length, (result P).length < j + accessRule.marker.length →
      ¬ Occurs accessRule.marker (result (P ++ T ++ V ++ R)) j := by
    intro j hj hj' hocc
    rw [show P ++ T ++ V ++ R = P ++ (T ++ V ++ R) by simp] at hocc
    obtain ⟨i, hi, hieq⟩ := hocc.across_of_result accessRule.apart accessRule.marker_ne_nil hj hj'
    rw [hsource] at hi
    exact hinside i (by omega) (by omega) hi
  have hlen : value.length ≤ (source V).length :=
    accessRule.length_le_source (y := post)
      (by rw [← hQ, Rule.source_lift, source_jwtPieces]) hopen hsp.value_ends
  have h := accessRule.hides_lift hsp hinside'
  have hstart : (source (P ++ T)).length = (pre ++ tag ++ gap).length := by
    rw [source_append, Rule.source_lift, source_jwtPieces, hT, source_keeps]
    simp
  rw [hjwt, hframe, hQ, show P ++ T ++ (V ++ R) = P ++ T ++ V ++ R by simp]
  exact h.of_le hstart.le (by omega)

/-! ## What `secrets` hides -/

/-- `secrets` is a redaction of its input: its output is the input with disjoint spans,
possibly empty, each replaced by the mask. It hides every JWT of the input, the value of
every `Authorization:` header whose marker does not start inside a JWT, and the value of
every `"access_token":"` field whose marker follows no header marker on its line and starts
inside no other match of the field marker. -/
theorem secrets_hide (s : String) :
    ∃ ps : List Piece, source ps = s.toList ∧ result ps = (secrets s).toList ∧
      (∀ t : JwtToken s.toList, Hides ps t.pre.length t.run.length) ∧
      (∀ f : Field headerRule s.toList, ¬ InsideJwt s.toList f.pre.length →
        Hides ps f.start f.value.length) ∧
      (∀ f : Field accessRule s.toList, ¬ headerRule.OpenAtEnd f.pre →
        (∀ j < f.pre.length, f.pre.length < j + accessRule.marker.length →
          ¬ Occurs accessRule.marker s.toList j) →
        Hides ps f.start f.value.length) := by
  refine ⟨secretPieces s.toList, source_secretPieces _, result_secretPieces s, ?_, ?_, ?_⟩
  · intro t
    exact ((hides_jwtPieces t).coarsens (headerRule.coarsens_lift _)).coarsens
      (accessRule.coarsens_lift _)
  · intro f hin
    exact (f.hides_header hin).coarsens (accessRule.coarsens_lift _)
  · intro f hheader hinside
    exact f.hides_access hheader hinside

/-- A header whose marker ends a JWT keeps its value: the JWT pass masks the marker with the
token, and the header pass no longer finds it. -/
theorem header_value_survives_inside_token :
    secrets "eyJa.b.Authorization: secret" = "REDACTED: secret" := by
  have hs : "eyJa.b.Authorization: secret".toList =
      ['e', 'y', 'J', 'a', '.', 'b', '.', 'A', 'u', 't', 'h', 'o', 'r', 'i', 'z', 'a', 't', 'i',
        'o', 'n'] ++ [':', ' ', 's', 'e', 'c', 'r', 'e', 't'] := rfl
  have hjwt : jwtChars "eyJa.b.Authorization: secret".toList = "REDACTED: secret".toList := by
    have hpost : ∀ c ∈ [':', ' ', 's', 'e', 'c', 'r', 'e', 't'].head?, isTokenChar c = false := by
      intro c hc
      rw [List.head?_cons, Option.mem_some_iff] at hc
      rw [← hc]
      decide
    rw [hs, ← result_jwtPieces,
      jwtPieces_run (List.cons_ne_nil _ _) (List.all_eq_true.mp (by decide)) hpost,
      runPieces, if_pos (by decide), jwtPieces_of_not_mem (by decide)]
    simp only [List.singleton_append, result_cons, Piece.result, result_keeps]
    rfl
  have hheader : splitAfter headerRule.marker "REDACTED: secret".toList = none := by
    show splitAfter authorizationMarker _ = none
    rw [authorizationMarker_eq]
    decide
  have haccess : splitAfter accessRule.marker "REDACTED: secret".toList = none := by
    show splitAfter accessTokenMarker _ = none
    rw [accessTokenMarker_eq]
    decide
  refine String.toList_inj.mp ?_
  rw [secrets, String.toList_ofList, hjwt]
  show maskAfter accessRule.marker accessRule.stop
    (maskAfter headerRule.marker headerRule.stop _) = _
  rw [maskAfter_of_none headerRule.marker_ne_nil headerRule.stop hheader,
    maskAfter_of_none accessRule.marker_ne_nil accessRule.stop haccess]

end Redact
end FeedClient
