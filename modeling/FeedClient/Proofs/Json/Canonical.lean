import Mathlib.Data.String.Basic
import FeedClient.Proofs.Json.Frame

/-!
# Canonical values

Read as a document, an object keeps its keys sorted and unique: `Fields.insert` puts a new
key in its place and gives a repeated key its last value. `Value.Canonical` is that form at
every level, and `Value.nesting` counts how deep arrays and objects nest.

The reader returns canonical values that nest less deep than the nesting limit. This is
proved with triples over readings (`Scan.Triple`): `enter` spends one level of the allowance
on the way in and `leave` gives it back, so a value read at allowance `d` nests at most
`d - 1` levels deep.

Main results:

- Theorems `Fields.sorted_insert` and `Fields.find?_insert`: inserting keeps the keys sorted
  and gives the inserted key its value.
- Theorem `Scan.reader_triples`: values, elements and members read fit the allowance.
- Theorem `Value.read_canonical`: a document is read as a canonical value that nests less
  deep than the limit.
-/

namespace FeedClient.Json

/-! ## Sorted fields -/

/-- Keys in strictly ascending order: sorted, and none twice. -/
def Fields.Sorted (fs : Fields) : Prop := (fs.map Prod.fst).Pairwise (· < ·)

namespace Fields

/-- No members are in order. -/
@[simp]
theorem sorted_nil : Sorted [] := List.Pairwise.nil

/-- Members are in order when the first key comes before every other and the rest are in order. -/
theorem sorted_cons {k : String} {v : Value} {fs : Fields} :
    Sorted ((k, v) :: fs) ↔ (∀ f ∈ fs, k < f.1) ∧ Sorted fs := by
  simp [Sorted, List.pairwise_cons]

/-- A field of an insertion is the inserted one or an old one. -/
theorem mem_insert {key : String} {v : Value} {fs : Fields} {f : String × Value}
    (h : f ∈ fs.insert key v) : f = (key, v) ∨ f ∈ fs := by
  induction fs with
  | nil => simpa [Fields.insert] using h
  | cons g fs ih =>
    obtain ⟨k, w⟩ := g
    unfold Fields.insert at h
    by_cases hlt : key < k
    · rw [if_pos hlt] at h
      simpa using h
    · rw [if_neg hlt] at h
      by_cases heq : key = k
      · rw [if_pos heq] at h
        rcases List.mem_cons.mp h with rfl | h
        · exact .inl (by rw [heq])
        · exact .inr (List.mem_cons_of_mem _ h)
      · rw [if_neg heq] at h
        rcases List.mem_cons.mp h with rfl | h
        · exact .inr List.mem_cons_self
        · exact (ih h).imp_right (List.mem_cons_of_mem _)

/-- Inserting into sorted fields keeps them sorted. -/
theorem sorted_insert (key : String) (v : Value) {fs : Fields} (h : fs.Sorted) :
    (fs.insert key v).Sorted := by
  induction fs with
  | nil => simp [Fields.insert, Sorted]
  | cons g fs ih =>
    obtain ⟨k, w⟩ := g
    obtain ⟨hk, hfs⟩ := sorted_cons.mp h
    unfold Fields.insert
    by_cases hlt : key < k
    · rw [if_pos hlt]
      refine sorted_cons.mpr ⟨fun f hf => ?_, h⟩
      rcases List.mem_cons.mp hf with rfl | hf
      · exact hlt
      · exact lt_trans hlt (hk f hf)
    · rw [if_neg hlt]
      by_cases heq : key = k
      · rw [if_pos heq]
        exact sorted_cons.mpr ⟨hk, hfs⟩
      · rw [if_neg heq]
        -- the new key goes after `k`
        have hgt : k < key := lt_of_le_of_ne (not_lt.mp hlt) (Ne.symm heq)
        refine sorted_cons.mpr ⟨fun f hf => ?_, ih hfs⟩
        rcases mem_insert hf with rfl | hf
        · exact hgt
        · exact hk f hf

/-- A key above all present ones goes last. -/
theorem insert_of_lt {key : String} {v : Value} {fs : Fields} (h : ∀ f ∈ fs, f.1 < key) :
    fs.insert key v = fs ++ [(key, v)] := by
  induction fs with
  | nil => rfl
  | cons g fs ih =>
    obtain ⟨k, w⟩ := g
    have hk : k < key := h (k, w) List.mem_cons_self
    unfold Fields.insert
    rw [if_neg (not_lt.mpr hk.le), if_neg (ne_of_gt hk),
      ih fun f hf => h f (List.mem_cons_of_mem _ hf), List.cons_append]

/-- Removing a key keeps the rest sorted. -/
theorem sorted_erase (key : String) {fs : Fields} (h : fs.Sorted) : (fs.erase key).Sorted := by
  unfold Sorted Fields.erase at *
  exact h.sublist ((List.filter_sublist).map Prod.fst)

/-- The value of a key after an insertion. -/
@[simp]
theorem find?_insert (key k : String) (v : Value) (fs : Fields) :
    (fs.insert key v).find? k = if key = k then some v else fs.find? k := by
  induction fs with
  | nil => simp [Fields.insert, Fields.find?]
  | cons g fs ih =>
    obtain ⟨k', w⟩ := g
    unfold Fields.insert
    by_cases hlt : key < k'
    · rw [if_pos hlt]
      by_cases h : key = k <;> simp [Fields.find?, h]
    · rw [if_neg hlt]
      by_cases heq : key = k'
      · subst heq
        rw [if_pos rfl]
        by_cases h : key = k <;> simp [Fields.find?, h]
      · rw [if_neg heq, Fields.find?, ih, Fields.find?]
        by_cases h : k' = k
        · subst h
          simp [heq]
        · simp [h]

/-- The value of a key after a removal. -/
@[simp]
theorem find?_erase (key k : String) (fs : Fields) :
    (fs.erase key).find? k = if key = k then none else fs.find? k := by
  unfold Fields.erase
  induction fs with
  | nil => simp
  | cons g fs ih =>
    obtain ⟨k', w⟩ := g
    by_cases h : k' = key
    · subst h
      by_cases h' : k' = k
      · subst h'
        simp [ih]
      · simp [Fields.find?, h', ih]
    · rw [List.filter_cons_of_pos (by simpa using h), Fields.find?, Fields.find?, ih]
      by_cases h' : k' = k
      · subst h'
        simp [Ne.symm h]
      · simp [h']

end Fields

/-! ## Canonical values and their nesting -/

/-- A value whose objects, at every level, have their keys in strictly ascending order: the
form in which a document is read. -/
inductive Value.Canonical : Value → Prop
  | null : Value.Canonical .null
  | bool (b : Bool) : Value.Canonical (.bool b)
  | number (n : Number) : Value.Canonical (.number n)
  | string (s : String) : Value.Canonical (.string s)
  | array {items : List Value} (h : ∀ v ∈ items, Value.Canonical v) :
      Value.Canonical (.array items)
  | object {fields : Fields} (hs : fields.Sorted) (h : ∀ f ∈ fields, Value.Canonical f.2) :
      Value.Canonical (.object fields)

mutual

/-- How deep arrays and objects nest in a value: zero for a scalar, one for a container of
scalars. -/
def Value.nesting : Value → Nat
  | .array items => Value.itemsNesting items + 1
  | .object fields => Value.fieldsNesting fields + 1
  | _ => 0

/-- The deepest nesting of a list of values. -/
def Value.itemsNesting : List Value → Nat
  | [] => 0
  | v :: rest => max v.nesting (Value.itemsNesting rest)

/-- The deepest nesting of the values of fields. -/
def Value.fieldsNesting : List (String × Value) → Nat
  | [] => 0
  | (_, v) :: rest => max v.nesting (Value.fieldsNesting rest)

end

/-- Elements nest at most so deep exactly when each of them does. -/
theorem Value.itemsNesting_le {items : List Value} {n : Nat} :
    Value.itemsNesting items ≤ n ↔ ∀ v ∈ items, v.nesting ≤ n := by
  induction items with
  | nil => simp [Value.itemsNesting]
  | cons v rest ih => simp [Value.itemsNesting, ih]

/-- Members nest at most so deep exactly when each of them does. -/
theorem Value.fieldsNesting_le {fs : Fields} {n : Nat} :
    Value.fieldsNesting fs ≤ n ↔ ∀ f ∈ fs, f.2.nesting ≤ n := by
  induction fs with
  | nil => simp [Value.fieldsNesting]
  | cons f rest ih =>
    obtain ⟨k, v⟩ := f
    simp [Value.fieldsNesting, ih]

/-! ## What the reader returns -/

/-- A value read at nesting allowance `d`: it nests less deep than `d` levels, and in sorted
mode it is canonical. -/
def Scan.Fits (ordered : Bool) (d : Nat) (v : Value) : Prop :=
  v.nesting ≤ d - 1 ∧ (ordered = false → v.Canonical)

namespace Scan

/-- An array fits an allowance when it leaves a level and its elements fit one level less. -/
theorem fits_array {ordered : Bool} {d : Nat} {items : List Value} (hd : 1 < d)
    (h : ∀ v ∈ items, Fits ordered (d - 1) v) : Fits ordered d (.array items) := by
  refine ⟨?_, fun ho => .array fun v hv => (h v hv).2 ho⟩
  have : Value.itemsNesting items ≤ d - 1 - 1 := Value.itemsNesting_le.mpr fun v hv => (h v hv).1
  simp only [Value.nesting]
  omega

/-- An object fits an allowance when it leaves a level, its members fit one level less, and its keys
are in order where order is asked. -/
theorem fits_object {ordered : Bool} {d : Nat} {fs : Fields} (hd : 1 < d)
    (h : ∀ f ∈ fs, Fits ordered (d - 1) f.2) (hs : ordered = false → fs.Sorted) :
    Fits ordered d (.object fs) := by
  refine ⟨?_, fun ho => .object (hs ho) fun f hf => (h f hf).2 ho⟩
  have : Value.fieldsNesting fs ≤ d - 1 - 1 := Value.fieldsNesting_le.mpr fun f hf => (h f hf).1
  simp only [Value.nesting]
  omega

end Scan


namespace Scan

/-- A canonical scalar fits every allowance. -/
theorem fits_scalar {ordered : Bool} {d : Nat} {v : Value} (h : v.nesting = 0)
    (hc : v.Canonical) : Fits ordered d v :=
  ⟨by omega, fun _ => hc⟩

/-- Adding a field keeps what the fields satisfy. -/
theorem addField_fits {ordered : Bool} {d : Nat} {k : String} {v : Value} {acc : Fields}
    (hv : Fits ordered d v) (hacc : ∀ f ∈ acc, Fits ordered d f.2) :
    ∀ f ∈ addField ordered k v acc, Fits ordered d f.2 := by
  intro f hf
  unfold addField at hf
  split at hf
  · rcases List.mem_append.mp hf with hf | hf
    · exact hacc f hf
    · rw [List.mem_singleton.mp hf]
      exact hv
  · rcases Fields.mem_insert hf with rfl | hf
    · exact hv
    · exact hacc f hf

/-- What the reader returns fits the nesting allowance it was read with, and in sorted mode
is canonical; the allowance is given back. One induction on the fuel carries values,
elements and members together. -/
theorem reader_triples (ordered : Bool) (fuel d : Nat) :
    Triple (fun c => c.depth = d) (value ordered fuel)
        (fun v c => Fits ordered d v ∧ c.depth = d) ∧
      (∀ first acc, (∀ v ∈ acc, Fits ordered d v) →
        Triple (fun c => c.depth = d) (elements ordered fuel first acc)
          (fun items c => (∀ v ∈ items, Fits ordered d v) ∧ c.depth = d)) ∧
      (∀ first acc, (∀ f ∈ acc, Fits ordered d f.2) → (ordered = false → acc.Sorted) →
        Triple (fun c => c.depth = d) (members ordered fuel first acc)
          (fun fs c => ((∀ f ∈ fs, Fits ordered d f.2) ∧ (ordered = false → fs.Sorted)) ∧
            c.depth = d)) := by
  induction fuel generalizing d with
  | zero =>
    refine ⟨?_, fun _ _ _ => ?_, fun _ _ _ _ => ?_⟩ <;> exact .failHere _
  | succ fuel ih =>
    refine ⟨?_, fun first acc hacc => ?_, fun first acc hacc hsorted => ?_⟩
    · -- a value: a scalar, or a container read one level down
      rw [value]
      refine .bind (.of_keepsDepth keepsDepth_blank d) fun b => ?_
      split
      · exact .failAtPeek _
      refine .ite ?_ (.ite ?_ (.ite ?_ (.ite ?_ (.ite ?_ (.ite ?_ (.ite ?_ (.ite ?_
        (.failAtPeek _))))))))
      · exact .bind (.of_keepsDepth keepsDepth_bump d) fun _ => .bind
          (.of_keepsDepth (keepsDepth_word _) d) fun _ => .pure fun c hc =>
            ⟨fits_scalar rfl .null, hc⟩
      · exact .bind (.of_keepsDepth keepsDepth_bump d) fun _ => .bind
          (.of_keepsDepth (keepsDepth_word _) d) fun _ => .pure fun c hc =>
            ⟨fits_scalar rfl (.bool _), hc⟩
      · exact .bind (.of_keepsDepth keepsDepth_bump d) fun _ => .bind
          (.of_keepsDepth (keepsDepth_word _) d) fun _ => .pure fun c hc =>
            ⟨fits_scalar rfl (.bool _), hc⟩
      · exact .bind (.of_keepsDepth keepsDepth_bump d) fun _ => .bind
          (.of_keepsDepth (keepsDepth_number _) d) fun x => .pure fun c hc =>
            ⟨fits_scalar rfl (.number x), hc⟩
      · exact .bind (.of_keepsDepth (keepsDepth_number _) d) fun x => .pure fun c hc =>
            ⟨fits_scalar rfl (.number x), hc⟩
      · exact .bind (.of_keepsDepth keepsDepth_bump d) fun _ => .bind
          (.of_keepsDepth keepsDepth_string d) fun s => .pure fun c hc =>
            ⟨fits_scalar rfl (.string s), hc⟩
      · refine .bind (triple_enter d) fun _ => .bind (.of_fact fun _ =>
          .thenClose ((ih (d - 1)).2.1 true [] (by simp)) fun _ =>
            .of_fact fun _ => .of_keepsDepth keepsDepth_endArray (d - 1)) fun items => ?_
        refine .assume fun hd => .assume fun hitems => ?_
        exact .bind (triple_leave (d - 1)) fun _ => .pure fun c hc =>
          ⟨fits_array hd hitems, by omega⟩
      · refine .bind (triple_enter d) fun _ => .bind (.of_fact fun _ =>
          .thenClose ((ih (d - 1)).2.2 true [] (by simp) (fun _ => Fields.sorted_nil)) fun _ =>
            .of_fact fun _ => .of_keepsDepth keepsDepth_endObject (d - 1)) fun fs => ?_
        refine .assume fun hd => .assume fun hfs => ?_
        exact .bind (triple_leave (d - 1)) fun _ => .pure fun c hc =>
          ⟨fits_object hd hfs.1 hfs.2, by omega⟩
    · -- elements: another one while there is one, each read at the same allowance
      rw [elements]
      refine .bind (.of_keepsDepth (keepsDepth_nextElement first) d) fun b => .ite
        (.bind (ih d).1 fun v => .assume fun hv => (ih d).2.1 false (v :: acc) ?_)
        (.pure fun c hc => ⟨fun v hv => hacc v (List.mem_reverse.mp hv), hc⟩)
      intro w hw
      rcases List.mem_cons.mp hw with rfl | hw
      · exact hv
      · exact hacc w hw
    · -- members: a key, a colon and a value, added to the fields so far
      rw [members]
      refine .bind (.of_keepsDepth (keepsDepth_nextKey first) d) fun k => ?_
      split
      · exact .pure fun c hc => ⟨⟨hacc, hsorted⟩, hc⟩
      · refine .bind (.of_keepsDepth keepsDepth_colon d) fun _ => .bind (ih d).1 fun v =>
          .assume fun hv => (ih d).2.2 false _ (addField_fits hv hacc) fun ho => ?_
        rw [addField, if_neg (by simp [ho])]
        exact Fields.sorted_insert _ _ (hsorted ho)

end Scan

/-- A document is read as a canonical value that nests less deep than the limit. -/
theorem Value.read_canonical {bytes : List UInt8} {v : Value} (h : Value.read bytes = .ok v) :
    v.Canonical ∧ v.nesting < nestingLimit := by
  have ht : Scan.Triple (fun c => c.depth = nestingLimit)
      (do let a ← Scan.anyValue false; Scan.finishDocument; pure a)
      (fun v _ => Scan.Fits false nestingLimit v) :=
    .bind (.bind (.of_keepsDepth Scan.keepsDepth_fuel _) fun f =>
        (Scan.reader_triples false (2 * f) nestingLimit).1) fun a =>
      .assume fun hfit => .bind (fun _ _ _ _ _ => trivial) fun _ => .pure fun _ _ => hfit
  rw [Value.read, Scan.runDocument_eq] at h
  generalize hr : Scan.exec _ (Cursor.ofBytes bytes) = r at h
  obtain ⟨r, c'⟩ := r
  cases h
  obtain ⟨hn, hc⟩ := ht _ rfl v c' hr
  exact ⟨hc rfl, by simp only [nestingLimit] at hn ⊢; omega⟩

end FeedClient.Json
