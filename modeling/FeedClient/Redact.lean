/-!
# Masking secrets in text

Text that may reach a log loses three kinds of secret, each replaced by `REDACTED`:

- a token that looks like a JWT: a maximal run of token characters (`A-Z a-z 0-9 _ - .`) that
  starts with `eyJ` and holds exactly two dots. `Redact.jwtChars` states the rule run by run;
  `Redact.jwt` finds them by scanning the text for `eyJ`;
- the value of an `Authorization:` header, up to the end of its line;
- the value of an `"access_token":"` field, up to the next quote.

The two markers are found without regard to ASCII case; the text found keeps its own case,
and one space after a marker is kept. `Redact.secrets` applies all three, in that order.
-/

namespace FeedClient
namespace Redact

/-- The replacement for a secret. -/
def mask : List Char := "REDACTED".toList

/-- Characters that can belong to a token: ASCII letters and digits, `_`, `-` and `.`. -/
def isTokenChar (c : Char) : Bool :=
  c.isAlphanum || c == '_' || c == '-' || c == '.'

/-- A run of token characters is a JWT when it starts with `eyJ` and has exactly two dots. -/
def isJwt (run : List Char) : Bool :=
  run.take 3 == ['e', 'y', 'J'] && run.count '.' == 2

/-- Replaces each maximal run of token characters that is a JWT by the mask, keeping every
other character: the masking rule for JWTs, read run by run. -/
def jwtChars : List Char → List Char
  | [] => []
  | c :: cs =>
    if isTokenChar c then
      let run := (c :: cs).takeWhile isTokenChar
      (if isJwt run then mask else run) ++ jwtChars (cs.dropWhile isTokenChar)
    else c :: jwtChars cs
termination_by cs => cs.length
decreasing_by
  · simp only [List.length_cons]
    exact Nat.lt_succ_of_le (List.dropWhile_sublist _).length_le
  · simp only [List.length_cons]
    exact Nat.lt_succ_self _

/-- The three characters a JWT starts with. -/
def jwtPrefix : List Char := ['e', 'y', 'J']

/-- Splits a text before the first occurrence of `pat`: the text before it, and the text from
the occurrence on. -/
def splitBefore (pat : List Char) : List Char → Option (List Char × List Char)
  | [] => if pat.isEmpty then some ([], []) else none
  | t :: ts =>
    if pat.isPrefixOf (t :: ts) then some ([], t :: ts)
    else (splitBefore pat ts).map fun (before, rest) => (t :: before, rest)

/-- The two parts of a split make up the text, and the second starts with the pattern. -/
theorem splitBefore_eq_some {pat text before rest : List Char}
    (h : splitBefore pat text = some (before, rest)) : before ++ rest = text ∧ pat <+: rest := by
  induction text generalizing before rest with
  | nil =>
    simp only [splitBefore] at h
    split at h
    · rename_i hpat
      simp only [Option.some.injEq, Prod.mk.injEq] at h
      obtain ⟨rfl, rfl⟩ := h
      simp_all
    · cases h
  | cons t ts ih =>
    simp only [splitBefore] at h
    split at h
    · rename_i hpre
      simp only [Option.some.injEq, Prod.mk.injEq] at h
      obtain ⟨rfl, rfl⟩ := h
      exact ⟨rfl, List.isPrefixOf_iff_prefix.mp hpre⟩
    · obtain ⟨⟨b, r⟩, hbr, heq⟩ := Option.map_eq_some_iff.1 h
      simp only [Prod.mk.injEq] at heq
      obtain ⟨rfl, rfl⟩ := heq
      obtain ⟨hcat, hpre⟩ := ih hbr
      exact ⟨by rw [List.cons_append, hcat], hpre⟩

/-- Past the start of an occurrence of `eyJ`, the scan's next text is shorter than the text
it split. -/
theorem length_dropWhile_lt_of_splitBefore {text before found : List Char}
    (h : splitBefore jwtPrefix text = some (before, found)) :
    (found.dropWhile isTokenChar).length < text.length := by
  obtain ⟨hcat, r, rfl⟩ := splitBefore_eq_some h
  -- the run starts with the `e` of the occurrence, which the scan passes
  have he : isTokenChar 'e' = true := by decide
  have hdrop : ((jwtPrefix ++ r).dropWhile isTokenChar).length ≤ (jwtPrefix ++ r).length - 1 := by
    rw [jwtPrefix, List.cons_append, List.dropWhile_cons_of_pos he]
    simpa using (List.dropWhile_sublist (l := ['y', 'J'] ++ r) isTokenChar).length_le
  have hlen := congrArg List.length hcat
  rw [List.length_append] at hlen
  have hpos : 0 < (jwtPrefix ++ r).length := by simp [jwtPrefix]
  omega

/-- Masks JWTs the way a scan for `eyJ` finds them. At each occurrence the run of token
characters from there on is masked when no token character stands right before the
occurrence and the run holds exactly two dots, and kept otherwise; the scan goes on after the
run. A text with no `eyJ` comes back as it is. -/
def scanJwt (text : List Char) : List Char :=
  match h : splitBefore jwtPrefix text with
  | none => text
  | some (before, found) =>
    have : (found.dropWhile isTokenChar).length < text.length :=
      length_dropWhile_lt_of_splitBefore h
    let startsWord := before.getLast?.all fun c => !isTokenChar c
    let candidate := found.takeWhile isTokenChar
    before ++ (if startsWord && candidate.count '.' == 2 then mask else candidate) ++
      scanJwt (found.dropWhile isTokenChar)
termination_by text.length

/-- Masks every JWT-shaped token of a text, by the scan for `eyJ`. -/
def jwt (s : String) : String := String.ofList (scanJwt s.toList)

/-- Whether `marker` starts `text`, ignoring ASCII case. -/
def startsWithIgnoringCase : List Char → List Char → Bool
  | [], _ => true
  | _ :: _, [] => false
  | m :: ms, t :: ts => m.toLower == t.toLower && startsWithIgnoringCase ms ts

/-- Splits a text at the first occurrence of `marker` (ASCII case ignored): the text up to
and including the occurrence, and the text after it. -/
def splitAfter (marker : List Char) : List Char → Option (List Char × List Char)
  | [] => if marker.isEmpty then some ([], []) else none
  | t :: ts =>
    if startsWithIgnoringCase marker (t :: ts) then
      some ((t :: ts).take marker.length, (t :: ts).drop marker.length)
    else (splitAfter marker ts).map fun (before, after) => (t :: before, after)

/-- The two parts of a split make up the text. -/
theorem splitAfter_length (marker text before after : List Char)
    (h : splitAfter marker text = some (before, after)) :
    before.length + after.length = text.length := by
  induction text generalizing before after with
  | nil =>
    simp only [splitAfter] at h
    split at h <;> simp_all
  | cons t ts ih =>
    simp only [splitAfter] at h
    split at h
    · simp only [Option.some.injEq, Prod.mk.injEq] at h
      obtain ⟨rfl, rfl⟩ := h
      simp only [List.length_take, List.length_drop, List.length_cons]
      omega
    · obtain ⟨⟨b, a⟩, hba, heq⟩ := Option.map_eq_some_iff.1 h
      simp only [Prod.mk.injEq] at heq
      obtain ⟨rfl, rfl⟩ := heq
      have := ih b a hba
      simp only [List.length_cons]
      omega

/-- The first part of a split holds the whole marker. -/
theorem length_le_of_splitAfter (marker text before after : List Char)
    (h : splitAfter marker text = some (before, after)) :
    marker.length ≤ before.length := by
  induction text generalizing before after with
  | nil =>
    simp only [splitAfter] at h
    split at h
    · simp_all
    · simp_all
  | cons t ts ih =>
    simp only [splitAfter] at h
    split at h
    · rename_i hs
      simp only [Option.some.injEq, Prod.mk.injEq] at h
      obtain ⟨rfl, rfl⟩ := h
      simp only [List.length_take]
      have : marker.length ≤ (t :: ts).length := by
        clear ih
        induction marker generalizing t ts with
        | nil => simp
        | cons m ms ihm =>
          cases ts with
          | nil =>
            cases ms with
            | nil => simp
            | cons m' ms' => simp [startsWithIgnoringCase] at hs
          | cons t' ts' =>
            simp only [startsWithIgnoringCase, Bool.and_eq_true] at hs
            have := ihm t' ts' hs.2
            simp only [List.length_cons] at this ⊢
            omega
      omega
    · obtain ⟨⟨b, a⟩, hba, heq⟩ := Option.map_eq_some_iff.1 h
      simp only [Prod.mk.injEq] at heq
      obtain ⟨rfl, rfl⟩ := heq
      have := ih b a hba
      simp only [List.length_cons]
      omega

/-- One leading space, kept after a marker. -/
def leadingSpace (after : List Char) : List Char :=
  if after.head? = some ' ' then [' '] else []

/-- The text after a marker's value: one leading space is skipped, then every character up
to the first that satisfies `stop`. -/
def afterValue (stop : Char → Bool) (after : List Char) : List Char :=
  (after.drop (leadingSpace after).length).dropWhile (fun c => !stop c)

/-- What follows a value is no longer than the text after its marker. -/
theorem length_afterValue_le (stop : Char → Bool) (after : List Char) :
    (afterValue stop after).length ≤ after.length := by
  unfold afterValue
  have := (List.dropWhile_sublist (l := after.drop (leadingSpace after).length)
    (fun c => !stop c)).length_le
  simp only [List.length_drop] at this
  omega

/-- After every occurrence of `marker`, keeps one space if present, then replaces the text up
to the next character satisfying `stop` (or the end) by the mask. -/
def maskAfter (marker : List Char) (stop : Char → Bool) (text : List Char) : List Char :=
  if h : marker = [] then text
  else
    match hs : splitAfter marker text with
    | none => text
    | some (before, after) =>
      have : (afterValue stop after).length < text.length := by
        have hlen := splitAfter_length marker text before after hs
        have hb := length_le_of_splitAfter marker text before after hs
        have hm : 0 < marker.length := List.length_pos_iff.mpr h
        have := length_afterValue_le stop after
        omega
      before ++ leadingSpace after ++ mask ++ maskAfter marker stop (afterValue stop after)
termination_by text.length

/-- The header marker. -/
def authorizationMarker : List Char := "Authorization:".toList

/-- The JSON field marker. -/
def accessTokenMarker : List Char := "\"access_token\":\"".toList

/-- Masks JWTs, then Authorization header values (to the end of the line), then access_token
field values (to the next quote). -/
def secrets (s : String) : String :=
  let afterJwt := jwtChars s.toList
  let afterHeader := maskAfter authorizationMarker (fun c => c == '\n' || c == '\r') afterJwt
  String.ofList (maskAfter accessTokenMarker (fun c => c == '"') afterHeader)

end Redact
end FeedClient
