import Mathlib
import FeedClient.Route
import FeedClient.Proofs.Percent

/-!
# Paths name their targets

The path builders of `Route` put a login, a search query or a service name percent-encoded
into a segment or a query value, an id or a cursor as its decimal text, and parameters after
`?` joined by `&`. `Route.Target` names a builder with its arguments, and `Target.path` is the
path it builds.

`Route.readPath` reads a path the plain way: the text before `?` split on `/` into segments,
the text after it split on `&` into `name=value` parameters, each value or segment decoded or
read as a number. Every path reads back as its target (`readPath_path`), less what the path
does not record: a cursor that is not positive (`Target.normal`). Two targets therefore build
the same path exactly when they agree once such cursors are dropped: the builders have
disjoint images, and each is injective up to those cursors.

The proof lays each path out as its segments and parameters (`layout`); since encoded text
and decimal numbers hold none of `/`, `?`, `&` and `=`, splitting the laid-out text gives
back exactly the segments and parameters it was joined from.

Main results:

- Theorem `Route.readPath_layout`: a path laid out from undelimited parts reads as those parts.
- Theorem `Route.readPath_path`: every path reads back as its target, less a dropped cursor.
- Theorem `Route.path_determines_target`: encoded text holds no delimiter, every path reads
  back as its target, and two targets share a path exactly when they agree as paths record
  them.
-/

namespace FeedClient
namespace Route

/-- What a path points at: one of the path builders with its arguments. -/
inductive Target where
  | profile (login : String)
  | followers (login : String) (cursor : Option Int)
  | following (login : String) (cursor : Option Int)
  | userPosts (userId : Int) (cursor : Option Int)
  | feed (userId : Int) (cursor : Option Int)
  | search (query : String) (queryId : Option Int) (offset : Nat)
  | mediaFiles (service : String) (ids : List Int)
  deriving DecidableEq, Repr

/-- The path a target's builder builds. -/
def Target.path : Target → String
  | .profile l => Route.profile l
  | .followers l c => Route.followers l c
  | .following l c => Route.following l c
  | .userPosts u c => Route.userPosts u c
  | .feed u c => Route.feed u c
  | .search q i o => Route.search q i o
  | .mediaFiles s ids => Route.mediaFiles s ids

/-- A cursor as a path keeps it: only when it is positive. -/
def keptCursor : Option Int → Option Int
  | some c => if c > 0 then some c else none
  | none => none

/-- The target as its path records it: a cursor that is not positive is dropped. -/
def Target.normal : Target → Target
  | .followers l c => .followers l (keptCursor c)
  | .following l c => .following l (keptCursor c)
  | .userPosts u c => .userPosts u (keptCursor c)
  | .feed u c => .feed u (keptCursor c)
  | t => t

/-! ## Reading a path -/

/-- An integer in decimal, after a minus when it is negative. -/
def readInt (cs : List Char) : Option Int := (String.ofList cs).toInt?

/-- A natural number in decimal. -/
def readNat (cs : List Char) : Option Nat := (String.ofList cs).toNat?

/-- A query parameter `name=value`, split at its single `=`. -/
def readParam (piece : List Char) : Option (String × List Char) :=
  match piece.splitOn '=' with
  | [k, v] => some (String.ofList k, v)
  | _ => none

/-- The cursor named `name`: absent, or the only parameter. -/
def readCursor (name : String) : List (String × List Char) → Option (Option Int)
  | [] => some none
  | [(k, v)] => if k = name then some <$> readInt v else none
  | _ => none

/-- A search from the parameters after its query: a query id, then an offset, each optional. -/
def readSearch (query : String) : List (String × List Char) → Option Target
  | [] => some (.search query none 0)
  | [("query_id", i)] => (fun i => .search query (some i) 0) <$> readInt i
  | [("offset", o)] => (fun o => .search query none o) <$> readNat o
  | [("query_id", i), ("offset", o)] =>
    (fun i o => .search query (some i) o) <$> readInt i <*> readNat o
  | _ => none

/-- A list of ids: decoded, then split on commas; the empty text is no id. -/
def readIds (v : List Char) : Option (List Int) := do
  let text ← Percent.decodeText v
  if text.isEmpty then pure [] else (text.toList.splitOn ',').mapM readInt

/-- The target that a path's segments and parameters spell. -/
def readTarget : List String → List (String × List Char) → Option Target
  | ["", "user", l], [] => .profile <$> Percent.decodeText l.toList
  | ["", "user", l, "followers"], q =>
    .followers <$> Percent.decodeText l.toList <*> readCursor "lfid" q
  | ["", "user", l, "following"], q =>
    .following <$> Percent.decodeText l.toList <*> readCursor "lfid" q
  | ["", "post", "user", n], q => .userPosts <$> readInt n.toList <*> readCursor "lpid" q
  | ["", "post", "feed", n], q => .feed <$> readInt n.toList <*> readCursor "lpid" q
  | ["", "post", "search"], ("query", v) :: rest => do readSearch (← Percent.decodeText v) rest
  | ["", "media"], [("service", s), ("ids", v)] =>
    .mediaFiles <$> Percent.decodeText s <*> readIds v
  | _, _ => none

/-- Reads a path back into the target that built it: the text before `?` split on `/` into
segments, the text after it on `&` into parameters. -/
def readPath (path : String) : Option Target :=
  match path.toList.splitOn '?' with
  | [front] => readTarget ((front.splitOn '/').map String.ofList) []
  | [front, query] => do
    readTarget ((front.splitOn '/').map String.ofList) (← (query.splitOn '&').mapM readParam)
  | _ => none

/-! ## Paths by their segments and parameters -/

/-- The characters that delimit the parts of a path. -/
def isDelimiter (c : Char) : Bool := c == '/' || c == '?' || c == '&' || c == '='

/-- Whether a text holds no delimiter. -/
def undelimited (s : String) : Bool := s.toList.all fun c => !isDelimiter c

/-- A path from its segments and its parameters: the segments joined by `/`, then, when there
are parameters, `?` and the parameters `name=value` joined by `&`. -/
def layout (segs : List String) (params : List (String × String)) : String :=
  "/".intercalate segs ++
    if params = [] then "" else "?" ++ "&".intercalate (params.map fun p => p.1 ++ "=" ++ p.2)

/-- The characters of a parameter. -/
def paramChars (p : String × String) : List Char := p.1.toList ++ '=' :: p.2.toList

/-- A character of lists joined by a separator is a character of the separator or of one of the
lists. -/
theorem mem_of_mem_intercalate {x : Char} {sep : List Char} {ls : List (List Char)}
    (h : x ∈ sep.intercalate ls) : x ∈ sep ∨ ∃ l ∈ ls, x ∈ l := by
  induction ls with
  | nil => simp at h
  | cons l ls ih =>
    cases ls with
    | nil => simp at h; exact Or.inr ⟨l, by simp, h⟩
    | cons l' ls' =>
      rw [List.intercalate_cons_cons] at h
      simp only [List.mem_append] at h
      rcases h with (h | h) | h
      · exact Or.inr ⟨l, by simp, h⟩
      · exact Or.inl h
      · rcases ih h with h | ⟨m, hm, hx⟩
        · exact Or.inl h
        · exact Or.inr ⟨m, List.mem_cons_of_mem _ hm, hx⟩

/-- A character that is in neither the separator nor any of the lists is not in the lists joined by
it. -/
theorem not_mem_intercalate {x : Char} {sep : List Char} {ls : List (List Char)} (hsep : x ∉ sep)
    (hls : ∀ l ∈ ls, x ∉ l) : x ∉ sep.intercalate ls := fun h => by
  rcases mem_of_mem_intercalate h with h | ⟨l, hl, hx⟩
  · exact hsep h
  · exact hls l hl hx

/-- An undelimited text holds no delimiter. -/
theorem not_mem_of_undelimited {s : String} (hs : undelimited s = true) {d : Char}
    (hd : isDelimiter d = true) : d ∉ s.toList := fun h => by
  have := List.all_eq_true.mp hs d h
  rw [hd] at this
  cases this

/-- A parameter of undelimited name and value holds no delimiter but its own `=`. -/
theorem not_mem_paramChars {p : String × String}
    (hp : undelimited p.1 = true ∧ undelimited p.2 = true) {d : Char}
    (hd : isDelimiter d = true) (heq : d ≠ '=') : d ∉ paramChars p := by
  simp only [paramChars, List.mem_append, List.mem_cons, not_or]
  exact ⟨not_mem_of_undelimited hp.1 hd, heq, not_mem_of_undelimited hp.2 hd⟩

/-- A parameter of undelimited name and value reads back as itself. -/
theorem readParam_paramChars {p : String × String} (h₁ : undelimited p.1 = true)
    (h₂ : undelimited p.2 = true) : readParam (paramChars p) = some (p.1, p.2.toList) := by
  have hsplit : (paramChars p).splitOn '=' = [p.1.toList, p.2.toList] := by
    have : (['='].intercalate [p.1.toList, p.2.toList]).splitOn '=' = [p.1.toList, p.2.toList] :=
      List.splitOn_intercalate '='
      (by
        intro l hl
        simp only [List.mem_cons, List.not_mem_nil, or_false] at hl
        rcases hl with rfl | rfl
        · exact not_mem_of_undelimited h₁ (by decide)
        · exact not_mem_of_undelimited h₂ (by decide))
      (by simp)
    simpa [paramChars] using this
  simp [readParam, hsplit]

/-- The characters of a laid-out path: the segments joined by slashes, then the parameters after a
question mark. -/
theorem layout_toList (segs : List String) (params : List (String × String)) :
    (layout segs params).toList = ['/'].intercalate (segs.map String.toList) ++
      if params = [] then [] else '?' :: ['&'].intercalate (params.map paramChars) := by
  rw [layout, String.toList_append]
  congr 1
  · simp [String.toList_intercalate]
  · split
    · rfl
    · have hparam : (String.toList ∘ fun p : String × String => p.1 ++ "=" ++ p.2) =
          paramChars := by
        funext p
        simp [paramChars]
      simp [String.toList_intercalate, List.map_map, hparam]

/-- Parameters of undelimited names and values read back, all of them, as themselves. -/
theorem mapM_readParam {params : List (String × String)}
    (h : ∀ p ∈ params, undelimited p.1 = true ∧ undelimited p.2 = true) :
    (params.map paramChars).mapM readParam = some (params.map fun p => (p.1, p.2.toList)) := by
  induction params with
  | nil => rfl
  | cons p ps ih =>
    have hp := h p (by simp)
    simp [readParam_paramChars hp.1 hp.2, ih fun q hq => h q (by simp [hq])]

/-- A path laid out from undelimited segments and parameters reads as those segments and
parameters. -/
theorem readPath_layout {segs : List String} {params : List (String × String)} (hne : segs ≠ [])
    (hsegs : ∀ s ∈ segs, undelimited s = true)
    (hparams : ∀ p ∈ params, undelimited p.1 = true ∧ undelimited p.2 = true) :
    readPath (layout segs params) = readTarget segs (params.map fun p => (p.1, p.2.toList)) := by
  have hfront : List.splitOn '/' (['/'].intercalate (segs.map String.toList)) =
      segs.map String.toList :=
    List.splitOn_intercalate '/' (fun l hl => by
        obtain ⟨s, hs, rfl⟩ := List.mem_map.mp hl
        exact not_mem_of_undelimited (hsegs s hs) (by decide)) (by simpa using hne)
  have hq : '?' ∉ ['/'].intercalate (segs.map String.toList) :=
    not_mem_intercalate (by decide) fun l hl => by
      obtain ⟨s, hs, rfl⟩ := List.mem_map.mp hl
      exact not_mem_of_undelimited (hsegs s hs) (by decide)
  have hsegs' : (segs.map String.toList).map String.ofList = segs := by simp
  rw [readPath, layout_toList]
  split_ifs with hp
  · -- no parameters: the whole text is the front
    subst hp
    rw [List.append_nil, List.splitOn_eq_singleton hq]
    simp only [hfront, hsegs']
    rfl
  · -- the one `?` parts the front from the parameters
    have hparts : ['/'].intercalate (segs.map String.toList) ++
        '?' :: ['&'].intercalate (params.map paramChars) =
        ['?'].intercalate [['/'].intercalate (segs.map String.toList),
          ['&'].intercalate (params.map paramChars)] := by simp
    have hamp : ∀ l ∈ params.map paramChars, '&' ∉ l ∧ '?' ∉ l := by
      intro l hl
      obtain ⟨p, hp', rfl⟩ := List.mem_map.mp hl
      exact ⟨not_mem_paramChars (hparams p hp') (by decide) (by decide),
        not_mem_paramChars (hparams p hp') (by decide) (by decide)⟩
    rw [hparts, List.splitOn_intercalate '?' (by
        intro l hl
        simp only [List.mem_cons, List.not_mem_nil, or_false] at hl
        rcases hl with rfl | rfl
        · exact hq
        · exact not_mem_intercalate (by decide) fun l hl => (hamp l hl).2) (by simp)]
    dsimp only
    rw [List.splitOn_intercalate '&' (fun l hl => (hamp l hl).1) (by simpa using hp),
      mapM_readParam hparams]
    simp only [hfront, hsegs']
    rfl

/-! ## Encoded text and numbers hold no delimiter -/

/-- The delimiters are the slash, the question mark, the ampersand and the equals sign. -/
theorem isDelimiter_cases {c : Char} (h : isDelimiter c = true) :
    c = '/' ∨ c = '?' ∨ c = '&' ∨ c = '=' := by
  simpa [isDelimiter, or_assoc] using h

/-- Encoded text holds no delimiter. -/
theorem undelimited_encode (s : String) : undelimited (Percent.encode s) = true := by
  refine List.all_eq_true.mpr fun c hc => ?_
  have henc := Percent.isEncodedChar_of_mem_encode hc
  cases hd : isDelimiter c
  · rfl
  · rcases isDelimiter_cases hd with rfl | rfl | rfl | rfl <;> exact absurd henc (by decide)

/-- A digit is no delimiter. -/
theorem isDelimiter_of_isDigit {c : Char} (h : c.isDigit = true) : isDelimiter c = false := by
  cases hd : isDelimiter c
  · rfl
  · rcases isDelimiter_cases hd with rfl | rfl | rfl | rfl <;> exact absurd h (by decide)

/-- The decimal text of a natural number holds no delimiter. -/
theorem undelimited_repr (n : Nat) : undelimited (Nat.repr n) = true := by
  refine List.all_eq_true.mpr fun c hc => ?_
  rw [Nat.repr, String.toList_ofList] at hc
  simp [isDelimiter_of_isDigit (Nat.isDigit_of_mem_toDigits (by decide) (by decide) hc)]

/-- The decimal text of an integer holds no delimiter. -/
theorem undelimited_intRepr (i : Int) : undelimited i.repr = true := by
  cases i with
  | ofNat m => exact undelimited_repr m
  | negSucc m =>
    have h := undelimited_repr (m + 1)
    simp only [undelimited, List.all_eq_true] at h ⊢
    show ∀ c ∈ ("-" ++ Nat.repr (m + 1)).toList, _
    simpa [isDelimiter] using h

/-- The decimal text of an integer reads back as the integer. -/
theorem readInt_repr (i : Int) : readInt i.repr.toList = some i := by
  rw [readInt, String.ofList_toList, String.toInt?_eq_some_iff]
  cases i with
  | ofNat m => exact Or.inl ⟨m, Nat.toNat?_repr m, rfl⟩
  | negSucc m => exact Or.inr ⟨Nat.repr (m + 1), rfl, m + 1, Nat.toNat?_repr _, by simp [Int.negSucc_eq]⟩

/-- The decimal digits of a natural number read back as the number. -/
theorem readNat_toDigits (n : Nat) : readNat (Nat.toDigits 10 n) = some n :=
  Nat.toNat?_repr n

/-- The decimal text of an integer is not empty. -/
theorem toString_toList_ne_nil (i : Int) : (toString i).toList ≠ [] := by
  cases i with
  | ofNat m => simp [toString, Int.repr, Nat.repr, Nat.toDigits_ne_nil]
  | negSucc m => simp [toString, Int.repr]

/-- The decimal text of an integer holds no comma. -/
theorem comma_not_mem_toString (i : Int) : ',' ∉ (toString i).toList := by
  cases i with
  | ofNat m =>
    intro h
    simp only [toString, Int.repr, Nat.repr, String.toList_ofList] at h
    exact absurd (Nat.isDigit_of_mem_toDigits (by decide) (by decide) h) (by decide)
  | negSucc m =>
    intro h
    simp only [toString, Int.repr, String.toList_append, Nat.repr, String.toList_ofList,
      List.mem_append] at h
    rcases h with h | h
    · exact absurd h (by decide)
    · exact absurd (Nat.isDigit_of_mem_toDigits (by decide) (by decide) h) (by decide)

/-! ## Lists of ids -/

/-- The text of a list of ids, as a path holds it before encoding. -/
def idsText (ids : List Int) : String := ",".intercalate (ids.map toString)

/-- The decimal texts of a list of integers read back, all of them, as the list. -/
theorem mapM_readInt (ids : List Int) :
    (ids.map fun j => j.repr.toList).mapM readInt = some ids := by
  induction ids with
  | nil => rfl
  | cons i is ih => simp [readInt_repr, ih]

/-- The encoded text of a list of ids reads back as the list. -/
theorem readIds_encode (ids : List Int) :
    readIds (Percent.encode (idsText ids)).toList = some ids := by
  rw [readIds, Percent.decodeText_encode, Option.bind_eq_bind, Option.bind_some]
  cases ids with
  | nil => rfl
  | cons i is =>
    have htext : (idsText (i :: is)).toList =
        [','].intercalate ((i :: is).map fun j => j.repr.toList) := by
      simp only [idsText, String.toList_intercalate, List.map_map]
      rfl
    -- the text of an id is never empty, so neither is that of a list of them
    have hne : (idsText (i :: is)).isEmpty = false := by
      rw [Bool.eq_false_iff]
      intro h
      rw [String.isEmpty_iff] at h
      have := congrArg String.toList h
      rw [htext] at this
      have hi := toString_toList_ne_nil i
      cases is <;> simp_all [toString]
    rw [hne, if_neg (by simp), htext, List.splitOn_intercalate ',' (fun l hl => by
        obtain ⟨j, -, rfl⟩ := List.mem_map.mp hl
        exact comma_not_mem_toString j) (by simp), mapM_readInt]

/-! ## Each target's path -/

/-- The parameter that carries a cursor, when the path keeps it. -/
def cursorParams (name : String) (c : Option Int) : List (String × String) :=
  match keptCursor c with
  | some k => [(name, toString k)]
  | none => []

/-- The segments of a target's path. -/
def Target.segments : Target → List String
  | .profile l => ["", "user", Percent.encode l]
  | .followers l _ => ["", "user", Percent.encode l, "followers"]
  | .following l _ => ["", "user", Percent.encode l, "following"]
  | .userPosts u _ => ["", "post", "user", toString u]
  | .feed u _ => ["", "post", "feed", toString u]
  | .search .. => ["", "post", "search"]
  | .mediaFiles .. => ["", "media"]

/-- The parameters of a target's path. -/
def Target.params : Target → List (String × String)
  | .profile _ => []
  | .followers _ c => cursorParams "lfid" c
  | .following _ c => cursorParams "lfid" c
  | .userPosts _ c => cursorParams "lpid" c
  | .feed _ c => cursorParams "lpid" c
  | .search q i o => ("query", Percent.encode q) ::
      ((i.map fun i => ("query_id", toString i)).toList ++
        if o > 0 then [("offset", toString o)] else [])
  | .mediaFiles s ids => [("service", Percent.encode s), ("ids", Percent.encode (idsText ids))]

/-- A path with a cursor appended is laid out with the cursor parameter, when the path keeps it. -/
theorem withCursor_layout (segs : List String) (name : String) (c : Option Int) :
    withCursor ("/".intercalate segs) name c = layout segs (cursorParams name c) := by
  rcases c with _ | k
  · simp [withCursor, layout, cursorParams, keptCursor]
  · by_cases hk : k > 0
    · simp [withCursor, layout, cursorParams, keptCursor, hk, String.append_assoc]
    · simp [withCursor, layout, cursorParams, keptCursor, hk]

/-- Every builder lays out its target's segments and parameters. -/
theorem path_eq_layout (t : Target) : t.path = layout t.segments t.params := by
  cases t with
  | profile l =>
    apply String.ext
    simp [Target.path, Route.profile, layout, Target.segments, Target.params, user]
  | followers l c =>
    rw [Target.path, Target.segments, Target.params, Route.followers, ← withCursor_layout]
    congr 1
    apply String.ext
    simp [user]
  | following l c =>
    rw [Target.path, Target.segments, Target.params, Route.following, ← withCursor_layout]
    congr 1
    apply String.ext
    simp [user]
  | userPosts u c =>
    rw [Target.path, Target.segments, Target.params, Route.userPosts, ← withCursor_layout]
    congr 1
  | feed u c =>
    rw [Target.path, Target.segments, Target.params, Route.feed, ← withCursor_layout]
    congr 1
  | search q i o =>
    apply String.ext
    rcases i with _ | i <;> by_cases ho : o > 0 <;>
      simp [Target.path, Route.search, layout, Target.segments, Target.params, post, ho]
  | mediaFiles s ids =>
    apply String.ext
    simp [Target.path, Route.mediaFiles, layout, Target.segments, Target.params, media, idsText]

/-- The cursor parameter under an undelimited name is undelimited. -/
theorem undelimited_cursorParams (name : String) (hname : undelimited name = true)
    (c : Option Int) : ∀ p ∈ cursorParams name c, undelimited p.1 = true ∧ undelimited p.2 = true := by
  intro p hp
  unfold cursorParams at hp
  split at hp
  · simp only [List.mem_singleton] at hp
    subst hp
    exact ⟨hname, undelimited_intRepr _⟩
  · simp at hp

/-- The segments of every target hold no delimiter. -/
theorem undelimited_segments (t : Target) : ∀ s ∈ t.segments, undelimited s = true := by
  cases t <;> simp [Target.segments, undelimited_encode, undelimited_intRepr] <;> decide

/-- The parameters of every target hold no delimiter. -/
theorem undelimited_params (t : Target) :
    ∀ p ∈ t.params, undelimited p.1 = true ∧ undelimited p.2 = true := by
  cases t with
  | profile => simp [Target.params]
  | followers _ c | following _ c => exact undelimited_cursorParams "lfid" (by decide) c
  | userPosts _ c | feed _ c => exact undelimited_cursorParams "lpid" (by decide) c
  | search q i o =>
    rcases i with _ | i <;> by_cases ho : o > 0 <;>
      simp [Target.params, ho, undelimited_encode, undelimited_intRepr, undelimited_repr] <;>
      decide
  | mediaFiles s ids => simp [Target.params, undelimited_encode]; decide

/-- The cursor parameter reads back as the cursor the path keeps. -/
theorem readCursor_cursorParams (name : String) (c : Option Int) :
    readCursor name ((cursorParams name c).map fun p => (p.1, p.2.toList)) =
      some (keptCursor c) := by
  rcases c with _ | k
  · rfl
  · by_cases hk : k > 0
    · simp [cursorParams, keptCursor, hk, readCursor, readInt_repr]
    · simp [cursorParams, keptCursor, hk, readCursor]

/-- The segments and parameters of a target read back as the target, less a cursor it
drops. -/
theorem readTarget_params (t : Target) :
    readTarget t.segments (t.params.map fun p => (p.1, p.2.toList)) = some t.normal := by
  cases t with
  | profile l =>
    simp [Target.segments, Target.params, readTarget, Percent.decodeText_encode, Target.normal]
  | followers l c =>
    simp [Target.segments, Target.params, readTarget, Percent.decodeText_encode, Target.normal,
      readCursor_cursorParams]
  | following l c =>
    simp [Target.segments, Target.params, readTarget, Percent.decodeText_encode, Target.normal,
      readCursor_cursorParams]
  | userPosts u c =>
    simp [Target.segments, Target.params, readTarget, readInt_repr, Target.normal,
      readCursor_cursorParams]
  | feed u c =>
    simp [Target.segments, Target.params, readTarget, readInt_repr, Target.normal,
      readCursor_cursorParams]
  | search q i o =>
    by_cases ho : o > 0
    · rcases i with _ | i <;>
        simp [Target.segments, Target.params, readTarget, Percent.decodeText_encode,
          Target.normal, ho, readSearch, readInt_repr, readNat_toDigits]
    · -- a zero offset is left out, and read back as zero
      obtain rfl : o = 0 := by omega
      rcases i with _ | i <;>
        simp [Target.segments, Target.params, readTarget, Percent.decodeText_encode,
          Target.normal, readSearch, readInt_repr]
  | mediaFiles s ids =>
    simp [Target.segments, Target.params, readTarget, Percent.decodeText_encode, Target.normal,
      readIds_encode]

/-- Every path reads back as the target that built it, less a cursor it drops. -/
theorem readPath_path (t : Target) : readPath t.path = some t.normal := by
  rw [path_eq_layout, readPath_layout (by cases t <;> simp [Target.segments])
    (undelimited_segments t) (undelimited_params t), readTarget_params]

/-- Dropping a cursor that is not positive leaves the path as it was. -/
theorem path_normal (t : Target) : t.normal.path = t.path := by
  have hkeep : ∀ p n c, withCursor p n (keptCursor c) = withCursor p n c := by
    intro p n c
    rcases c with _ | k
    · rfl
    · by_cases hk : k > 0 <;> simp [keptCursor, withCursor, hk]
  cases t <;> simp [Target.normal, Target.path, Route.followers, Route.following,
    Route.userPosts, Route.feed, hkeep]

/-- Paths name their targets. A login, query or service is written percent-encoded, in text
that holds none of `/`, `?`, `&` and `=`; every path reads back as its target, the login,
query or service decoded from the one segment or value that holds it, a cursor present only
when positive, a query id whenever given, an offset only when positive, and the ids of a
media path split on commas; and two targets build the same path exactly when they agree once
cursors that are not positive are dropped, so the builders have disjoint images. -/
theorem path_determines_target :
    (∀ s, undelimited (Percent.encode s) = true) ∧
    (∀ t : Target, readPath t.path = some t.normal) ∧
    ∀ t u : Target, t.path = u.path ↔ t.normal = u.normal := by
  refine ⟨undelimited_encode, readPath_path, fun t u => ⟨fun h => ?_, fun h => ?_⟩⟩
  · have hread := readPath_path t
    rw [h, readPath_path] at hread
    exact (Option.some.inj hread).symm
  · rw [← path_normal t, ← path_normal u, h]

end Route
end FeedClient
