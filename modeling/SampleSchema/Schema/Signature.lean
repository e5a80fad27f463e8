import SampleSchema.Schema

/-!
# Signatures

The signature of a schema is its structure without names of objects, without the order of fields and
without counters: two schemas are structurally equal when their signatures are the same. The fields
of an object are sorted by name, and fields of one name keep their order.

* `Signature.decEq` decides equality of signatures.
-/

namespace SampleSchema

/-- The structure of a schema. -/
inductive Signature where
  /-- A kind without parts. -/
  | leaf (kind : Kind)
  | string (numeric : Bool)
  | array (element : Signature) (empty : Bool)
  /-- Names, types and optionality of the fields, sorted by name. -/
  | object (fields : List (String × Signature × Bool))
  | optional (inner : Signature)
  | union (variants : List Signature)
  deriving Repr

namespace Signature

mutual

/-- Decides whether two signatures are the same. -/
def decEq : (a b : Signature) → Decidable (a = b)
  | .leaf k, .leaf l => decidable_of_iff (k = l) (by simp)
  | .string m, .string n => decidable_of_iff (m = n) (by simp)
  | .array a m, .array b n =>
    match decEq a b with
    | isTrue h => decidable_of_iff (m = n) (by simp [h])
    | isFalse h => isFalse (by simp [h])
  | .object fs, .object gs =>
    match decEqFields fs gs with
    | isTrue h => isTrue (by rw [h])
    | isFalse h => isFalse (by simpa using h)
  | .optional a, .optional b =>
    match decEq a b with
    | isTrue h => isTrue (by rw [h])
    | isFalse h => isFalse (by simpa using h)
  | .union as, .union bs =>
    match decEqAll as bs with
    | isTrue h => isTrue (by rw [h])
    | isFalse h => isFalse (by simpa using h)
  | .leaf _, .string _ | .leaf _, .array .. | .leaf _, .object _ | .leaf _, .optional _
  | .leaf _, .union _ => isFalse (by simp)
  | .string _, .leaf _ | .string _, .array .. | .string _, .object _ | .string _, .optional _
  | .string _, .union _ => isFalse (by simp)
  | .array .., .leaf _ | .array .., .string _ | .array .., .object _ | .array .., .optional _
  | .array .., .union _ => isFalse (by simp)
  | .object _, .leaf _ | .object _, .string _ | .object _, .array .. | .object _, .optional _
  | .object _, .union _ => isFalse (by simp)
  | .optional _, .leaf _ | .optional _, .string _ | .optional _, .array ..
  | .optional _, .object _ | .optional _, .union _ => isFalse (by simp)
  | .union _, .leaf _ | .union _, .string _ | .union _, .array .. | .union _, .object _
  | .union _, .optional _ => isFalse (by simp)

/-- Decides whether two lists of fields are the same. -/
def decEqFields : (fs gs : List (String × Signature × Bool)) → Decidable (fs = gs)
  | [], [] => isTrue rfl
  | [], _ :: _ => isFalse (by simp)
  | _ :: _, [] => isFalse (by simp)
  | (n, s, o) :: fs, (m, t, p) :: gs =>
    match decEq s t, decEqFields fs gs with
    | isTrue h, isTrue hs => decidable_of_iff (n = m ∧ o = p) (by simp [h, hs])
    | isFalse h, _ => isFalse (by simp [h])
    | _, isFalse hs => isFalse (by simp [hs])

/-- Decides whether two lists of signatures are the same. -/
def decEqAll : (as bs : List Signature) → Decidable (as = bs)
  | [], [] => isTrue rfl
  | [], _ :: _ => isFalse (by simp)
  | _ :: _, [] => isFalse (by simp)
  | a :: as, b :: bs =>
    match decEq a b, decEqAll as bs with
    | isTrue h, isTrue hs => isTrue (by rw [h, hs])
    | isFalse h, _ => isFalse (by simp [h])
    | _, isFalse hs => isFalse (by simp [hs])

end

instance : DecidableEq Signature := decEq

end Signature

/-- The order of the fields of a signature. -/
def fieldOrder {α : Type} (f g : String × α) : Bool := f.1 ≤ g.1

mutual

/-- The signature of a schema. -/
def Schema.signature : Schema → Signature
  | .string numeric    => .string numeric
  | .array e empty     => .array e.signature empty
  | .object _ _ fields => .object ((fieldSignatures fields).mergeSort fieldOrder)
  | .optional t        => .optional t.signature
  | .union ts          => .union (signatures ts)
  | .null              => .leaf .null
  | .bool              => .leaf .bool
  | .int               => .leaf .int
  | .float             => .leaf .float
  | .timestamp         => .leaf .timestamp

/-- The signatures of fields in their own order. -/
def fieldSignatures : List (Field Schema) → List (String × Signature × Bool)
  | [] => []
  | ⟨name, type, optional, _, _⟩ :: fs => (name, type.signature, optional) :: fieldSignatures fs

/-- The signatures of a list of schemas. -/
def signatures : List Schema → List Signature
  | [] => []
  | t :: ts => t.signature :: signatures ts

end

/-- Whether two schemas have the same structure. -/
def Schema.structurallyEqual (a b : Schema) : Bool := a.signature = b.signature

end SampleSchema
