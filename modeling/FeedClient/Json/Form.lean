import FeedClient.Json.Error

/-!
# The shape of a record

A record is read from an object, by member names, or from an array, by position. A
`RecordForm` says what the record is called in messages, which fields it has in which order,
which keys name them (aliases included), and what an absent field means. Reading starts from
`RecordForm.start`, which holds the values of fields that default.

Absent fields are checked in declaration order, so the first absent required field is the
one reported. Repeated keys for one field are refused, the alias counting as the field.
-/

namespace FeedClient
namespace Json

/-- What an absent field means. -/
inductive Absence where
  /-- The field keeps its default. -/
  | useDefault
  /-- The field must be present. -/
  | required
  /-- An optional field without a default: absent from an object it is none, but an array
  must still reach it. -/
  | optional
  deriving Repr, DecidableEq

/-- The shape of a record. -/
structure RecordForm (σ : Type) where
  /-- How the record is named in messages, such as `struct Alert`. -/
  expecting : String
  /-- Field names in declaration order, with what their absence means. -/
  fields : List (String × Absence)
  /-- The field a key names, aliases included. -/
  slot : String → Option Nat
  /-- The record before any field is read, holding the defaults. -/
  start : σ

/-- The name of field `i` in messages. -/
def RecordForm.fieldName (form : RecordForm σ) (i : Nat) : String :=
  ((form.fields[i]?).map Prod.fst).getD ""

/-- The first field, in declaration order, that was not read and must be present. -/
def RecordForm.firstMissing (form : RecordForm σ) (seen : List Nat) : Option String :=
  ((form.fields.zipIdx).find? fun (f, i) => f.2 == .required && !seen.contains i).map
    (fun p => p.1.1)

/-- Finishes a record read from an object: fails on the first missing required field. -/
def RecordForm.finishObject (form : RecordForm σ) (st : σ) (seen : List Nat) : Except Fault σ :=
  match form.firstMissing seen with
  | some name => .error (.missingField name)
  | none => .ok st

/-- How the length of a record read from an array is named in messages. -/
def RecordForm.lengthText (form : RecordForm σ) : String :=
  let n := form.fields.length
  form.expecting ++ " with " ++ toString n ++ (if n == 1 then " element" else " elements")

/-- The fault for an array that ends before field `i`, unless that field defaults. -/
def RecordForm.shortArray (form : RecordForm σ) (i : Nat) : Option Fault :=
  match form.fields[i]? with
  | some (_, .useDefault) => none
  | _ => some (.wrongLength i form.lengthText)

end Json
end FeedClient
