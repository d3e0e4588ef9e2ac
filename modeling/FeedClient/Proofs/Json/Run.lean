import FeedClient.Json.Reader

/-!
# Running a reading

`Scan.exec x c` runs the reading `x` from the cursor `c` and gives its outcome together with
the cursor where it stopped. Its simp lemmas step through `pure` and `bind`, the cursor's
`get`, `set` and `modify`, and `throw`, so a reading of known input is evaluated
symbolically by `simp` once the readings it calls are unfolded.

Reading known input is stated with `Scan.Leads x y c rest`: run from `c`, `x` reads the
input up to `rest` and then ends exactly as `y` does from there, with the nesting allowance
unchanged. `Scan.Yields x c a rest` is the case where `x` ends with `a`. These compose along
`bind`, so each piece of the reader gets one lemma that later proofs chain.

Main results:

- Theorem `Value.read_nil`: an empty document is refused at its end, line 1, column 0.
- Theorems `Scan.Leads.trans`, `Scan.Leads.bind` and `Scan.Yields.bind`: readings of known
  input compose.
- Theorem `Cursor.skipWhile_rest`: skipping drops the longest prefix of kept bytes.
-/

namespace FeedClient
namespace Json
namespace Scan

/-- Runs a reading from a cursor: its outcome and the cursor where it stopped. -/
def exec (x : Scan α) (c : Cursor) : Except Error α × Cursor := x.run.run c

/-- A result read from nothing leaves the cursor. -/
@[simp]
theorem exec_pure (a : α) (c : Cursor) : (pure a : Scan α).exec c = (.ok a, c) := rfl

/-- A reading followed by another goes on from where the first stopped, unless it failed. -/
@[simp]
theorem exec_bind (x : Scan α) (f : α → Scan β) (c : Cursor) :
    (x >>= f).exec c =
      match x.exec c with
      | (.ok a, c') => (f a).exec c'
      | (.error e, c') => (.error e, c') := by
  simp only [exec, ExceptT.run_bind]
  show StateT.run _ c = _
  simp only [StateT.run_bind]
  rcases (ExceptT.run x).run c with ⟨r, c'⟩
  cases r <;> rfl

/-- A reading mapped through a function maps its result and leaves the cursor where the reading did.
-/
@[simp]
theorem exec_map (f : α → β) (x : Scan α) (c : Cursor) :
    (f <$> x).exec c = ((x.exec c).1.map f, (x.exec c).2) := by
  rw [map_eq_pure_bind, exec_bind]
  rcases x.exec c with ⟨r, c'⟩
  cases r <;> rfl

/-- Looking at the cursor returns it. -/
@[simp]
theorem exec_get (c : Cursor) : (get : Scan Cursor).exec c = (.ok c, c) := rfl

/-- Setting the cursor moves it. -/
@[simp]
theorem exec_set (c c' : Cursor) : (set c' : Scan PUnit).exec c = (.ok ⟨⟩, c') := rfl

/-- Changing the cursor applies the change. -/
@[simp]
theorem exec_modify (f : Cursor → Cursor) (c : Cursor) :
    (modify f : Scan PUnit).exec c = (.ok ⟨⟩, f c) := rfl

/-- A failure fails with its error and leaves the cursor. -/
@[simp]
theorem exec_throw (e : Error) (c : Cursor) : (throw e : Scan α).exec c = (.error e, c) := rfl

/-- Failing here reports the cursor's position. -/
@[simp]
theorem exec_failHere (s : Malformed) (c : Cursor) :
    (failHere s : Scan α).exec c = (.error { fault := .malformed s, position := some c.position }, c) := by
  simp [failHere]

/-- Taking the next byte returns it, if any, and steps over it. -/
theorem exec_next (c : Cursor) : (next : Scan (Option UInt8)).exec c = (.ok c.rest.head?, c.bump) := by
  simp [next, peek, bump, Except.map]

/-- A whole document is read by running the reading and then checking the end. -/
theorem runDocument_eq (body : Scan α) (bytes : List UInt8) :
    runDocument body bytes =
      ((do let a ← body; finishDocument; pure a : Scan α).exec (Cursor.ofBytes bytes)).1 := rfl

/-! ## Reading known input -/

/-- Run from `c`, `x` reads up to `rest` and then ends exactly as `y` does from there;
the nesting allowance is where it was. -/
def Leads (x y : Scan α) (c : Cursor) (rest : List UInt8) : Prop :=
  ∃ c', c'.rest = rest ∧ c'.depth = c.depth ∧ x.exec c = y.exec c'

/-- Run from `c`, `x` ends with `a`, having read up to `rest`. -/
abbrev Yields (x : Scan α) (c : Cursor) (a : α) (rest : List UInt8) : Prop :=
  Leads x (pure a) c rest

/-- Every reading leads to itself from where it starts. -/
theorem Leads.refl (x : Scan α) {c : Cursor} {rest : List UInt8} (h : c.rest = rest) :
    Leads x x c rest :=
  ⟨c, h, rfl, rfl⟩

/-- Reading on from where a first reading stopped. -/
theorem Leads.trans {x y z : Scan α} {c : Cursor} {r r' : List UInt8} (h₁ : Leads x y c r)
    (h₂ : ∀ c', c'.rest = r → c'.depth = c.depth → Leads y z c' r') : Leads x z c r' := by
  obtain ⟨c₁, hr₁, hd₁, he₁⟩ := h₁
  obtain ⟨c₂, hr₂, hd₂, he₂⟩ := h₂ c₁ hr₁ hd₁
  exact ⟨c₂, hr₂, hd₂.trans hd₁, he₁.trans he₂⟩

/-- What follows a reading does not change how it reads. -/
theorem Leads.bind {x y : Scan α} {c : Cursor} {r : List UInt8} (h : Leads x y c r)
    (f : α → Scan β) : Leads (x >>= f) (y >>= f) c r := by
  obtain ⟨c', hr, hd, he⟩ := h
  exact ⟨c', hr, hd, by rw [exec_bind, exec_bind, he]⟩

/-- A reading that yields `a` passes `a` on to what follows. -/
theorem Yields.bind {x : Scan α} {c : Cursor} {a : α} {r : List UInt8} (h : Yields x c a r)
    (f : α → Scan β) : Leads (x >>= f) (f a) c r := by
  obtain ⟨c', hr, hd, he⟩ := Leads.bind h f
  exact ⟨c', hr, hd, by rw [he, exec_bind, exec_pure]⟩

/-- Two readings in a row. -/
theorem Yields.seq {x : Scan α} {f : α → Scan β} {c : Cursor} {a : α} {b : β}
    {r r' : List UInt8} (h₁ : Yields x c a r)
    (h₂ : ∀ c', c'.rest = r → c'.depth = c.depth → Yields (f a) c' b r') :
    Yields (x >>= f) c b r' :=
  (h₁.bind f).trans h₂

end Scan

/-- Reading a byte moves past it and keeps the nesting allowance. -/
@[simp]
theorem Cursor.bump_depth (c : Cursor) : c.bump.depth = c.depth := by
  unfold Cursor.bump
  split <;> rfl

/-- Stepping over a byte drops it from the rest. -/
theorem Cursor.bump_rest (c : Cursor) : c.bump.rest = c.rest.tail := by
  unfold Cursor.bump
  split <;> simp_all

/-- Skipping drops the longest prefix of kept bytes and keeps the nesting allowance. -/
theorem Cursor.skipWhile_rest (keep : UInt8 → Bool) (c : Cursor) :
    (c.skipWhile keep).rest = c.rest.dropWhile keep ∧ (c.skipWhile keep).depth = c.depth := by
  induction h : c.rest generalizing c with
  | nil =>
    rw [Cursor.skipWhile.eq_def]
    split <;> simp_all
  | cons b r ih =>
    rw [Cursor.skipWhile.eq_def]
    split
    · simp_all
    · rename_i b' r' hc
      rw [h] at hc
      obtain ⟨rfl, rfl⟩ := List.cons.inj hc
      by_cases hk : keep b
      · have hbump : c.bump.rest = r := by rw [Cursor.bump_rest, h]; rfl
        simp only [hk, ↓reduceIte, List.dropWhile_cons]
        obtain ⟨h1, h2⟩ := ih c.bump hbump
        exact ⟨h1, h2.trans (Cursor.bump_depth c)⟩
      · simp [hk, h]

namespace Scan

/-- Reading one byte of a nonempty input. -/
theorem yields_bump {c : Cursor} {b : UInt8} {r : List UInt8} (h : c.rest = b :: r) :
    Yields bump c () r :=
  ⟨c.bump, by rw [Cursor.bump_rest, h]; rfl, Cursor.bump_depth c, by simp [bump]⟩

/-- Looking at the next byte yields it and moves nothing. -/
theorem yields_peek {c : Cursor} : Yields peek c c.rest.head? c.rest :=
  ⟨c, rfl, rfl, by simp [peek, Except.map]⟩

/-- Reading the next byte of a nonempty input. -/
theorem yields_next {c : Cursor} {b : UInt8} {r : List UInt8} (h : c.rest = b :: r) :
    Yields next c (some b) r := by
  have hhead : c.rest.head? = some b := by rw [h]; rfl
  unfold next
  rw [← hhead]
  exact yields_peek.seq fun c' hc' _ => by
    rw [h] at hc'
    exact (yields_bump hc').seq fun c'' hc'' _ => ⟨c'', hc'', rfl, rfl⟩

/-- Reading the rest of a word. -/
theorem yields_word (bs : List UInt8) {c : Cursor} {r : List UInt8} (h : c.rest = bs ++ r) :
    Yields (word bs) c () r := by
  induction bs generalizing c with
  | nil => exact Leads.refl _ h
  | cons b bs ih =>
    unfold word
    exact ((yields_next h).bind _).trans fun c' h' _ => by simpa using ih h'

/-- Blanks are skipped up to the next byte, which is returned unread. -/
theorem yields_blank {c : Cursor} {blanks r : List UInt8} (h : c.rest = blanks ++ r)
    (hb : ∀ b ∈ blanks, Json.isBlank b = true) (hr : ∀ b, r.head? = some b → Json.isBlank b = false) :
    Yields blank c r.head? r := by
  have hskip := Cursor.skipWhile_rest Json.isBlank c
  have hdrop : c.rest.dropWhile Json.isBlank = r := by
    rw [h, List.dropWhile_append_of_pos hb]
    cases r with
    | nil => rfl
    | cons b r' => simp [hr b rfl]
  refine ⟨c.skipBlanks, ?_, hskip.2, ?_⟩
  · exact hskip.1.trans hdrop
  · simp [blank, peek, Cursor.skipBlanks, hskip.1, hdrop, Except.map]

end Scan

/-- Skipping stops at once before a byte it does not keep. -/
theorem Cursor.skipWhile_of_head (keep : UInt8 → Bool) (c : Cursor)
    (h : ∀ b, c.rest.head? = some b → keep b = false) : c.skipWhile keep = c := by
  rw [Cursor.skipWhile.eq_def]
  split
  · rfl
  · rename_i b _ hc
    rw [h b (by rw [hc]; rfl)]
    rfl

/-- Reading at the end of the input leaves the cursor where it is. -/
theorem Cursor.skipWhile_of_rest_nil (keep : UInt8 → Bool) (c : Cursor) (h : c.rest = []) :
    c.skipWhile keep = c := by
  rw [Cursor.skipWhile.eq_def]
  split <;> simp_all

/-- An empty document is refused at its end: EOF while parsing a value, line 1, column 0. -/
theorem Value.read_nil :
    Value.read [] = .error { fault := .malformed .eofInValue, position := some ⟨1, 0⟩ } := by
  rw [Value.read, Scan.runDocument_eq]
  simp [Scan.anyValue, Scan.fuel, Scan.value, Scan.blank, Cursor.skipBlanks,
    Cursor.skipWhile_of_rest_nil, Cursor.ofBytes, Scan.peek, Scan.failAtPeek,
    Cursor.peekPosition, Cursor.position]

end Json
end FeedClient
