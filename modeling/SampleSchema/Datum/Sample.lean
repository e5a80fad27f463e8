import SampleSchema.Datum.Text
import SampleSchema.ReadError
import SampleSchema.Sample

/-!
# Samples of decoded values

A decoded value becomes a sample node by node: decimals with an exponent of zero or more become
integers and other decimals doubles, dates and times their texts, lists and tuples arrays, and
mappings objects under the texts of their keys. Values of other types have no sample, and a key that
has no text is refused.

* `Datum.decode` is the sample of a value, however deeply it is nested.
* `Datum.decodeWithin` is the sample where there is room for some levels of collections only.
* `Document.sample` is the sample of a loaded document.
-/

namespace SampleSchema

namespace Datum

/-- The sample of a decimal. -/
def sampleOfDecimal : Decimal → Except Malformed Sample
  | .finite negative c e =>
    if 0 ≤ e then
      let n : Int := (c * Nat.pow 10 e.toNat : Nat)
      .ok (.int (if negative then -n else n))
    else Sample.ofDouble (Double.ofDecimal negative c e)
  | d => .error (.nonFinite d.text)

/-- The name of the field of a key. -/
def fieldName (key : Datum) : Except ReadError String :=
  if key.showsLongInteger then .error .longInteger else .ok key.text

mutual

/-- The sample of a value. -/
def decode : Datum → Except ReadError Sample
  | .null      => .ok .null
  | .bool b    => .ok (.bool b)
  | .int n     => .ok (.int n)
  | .float x   => (Sample.ofDouble x).mapError .malformed
  | .decimal d => (sampleOfDecimal d).mapError .malformed
  | .string s  => .ok (.string s)
  | .date d    => .ok (.string d.text)
  | .moment m  => .ok (.string m.text)
  | .time c o  => .ok (.string (c.text ++ offsetText o))
  | .map es    => do (Sample.ofFields (← decodeEntries es)).mapError .malformed
  | .list xs   => do return .array (← decodeAll xs)
  | .tuple xs  => do return .array (← decodeAll xs)
  | d@(.set _) | d@(.bytes _) | d@(.complex _ _) | d@(.other ..) =>
    .error (.malformed (.unsupportedType d.typeName))

/-- The samples of a list of values. -/
def decodeAll : List Datum → Except ReadError (List Sample)
  | [] => .ok []
  | d :: ds => do
    let s ← decode d
    return s :: (← decodeAll ds)

/-- The fields of the entries of a mapping, named after the keys. -/
def decodeEntries : List (Datum × Datum) → Except ReadError (List (String × Sample))
  | [] => .ok []
  | (k, v) :: es => do
    let n ← fieldName k
    let s ← decode v
    return (n, s) :: (← decodeEntries es)

end

theorem decodeAll_eq_mapM : ∀ ds : List Datum, decodeAll ds = ds.mapM decode
  | []      => rfl
  | d :: ds => by
      rw [decodeAll, decodeAll_eq_mapM ds, List.mapM_cons]

/-- The field of an entry, where a function gives the samples of values. -/
def fieldOf {α : Type} (sample : α → Except ReadError Sample) (e : Datum × α) :
    Except ReadError (String × Sample) := do
  let n ← fieldName e.1
  return (n, ← sample e.2)

theorem decodeEntries_eq_mapM : ∀ es : List (Datum × Datum),
    decodeEntries es = es.mapM (fieldOf decode)
  | []          => rfl
  | (k, v) :: es => by
      rw [decodeEntries, decodeEntries_eq_mapM es, List.mapM_cons, fieldOf]
      cases fieldName k with
      | error => rfl
      | ok => cases decode v <;> rfl

/-- The sample of a value with at most `limit` levels of collections. -/
def decodeWithin : (limit : Nat) → Datum → Except ReadError Sample
  | 0, .list _          => .error .tooDeep
  | 0, .tuple _         => .error .tooDeep
  | 0, .map _           => .error .tooDeep
  | limit + 1, .list ds => do return .array (← ds.mapM (decodeWithin limit))
  | limit + 1, .tuple ds => do return .array (← ds.mapM (decodeWithin limit))
  | limit + 1, .map es =>
    do (Sample.ofFields (← es.mapM (fieldOf (decodeWithin limit)))).mapError .malformed
  | _, d                => d.decode

/-- The sample of a value that has to be a number. -/
def toNumberSample : Datum → Except Malformed Sample
  | .int n   => .ok (.int n)
  | .float x => Sample.ofDouble x
  | d        => .error (.notNumber d.typeName)

end Datum

namespace Document

/-- The sample of a value of a document with at most `limit` levels of collections. A pair is a
collection too. -/
def sampleAt (d : Document) : (limit : Nat) → Fin d.size → Except ReadError Sample
  | 0, i =>
    match d.value i with
    | .scalar value => value.decodeWithin 0
    | .set          => .error (.malformed (.unsupportedType "set"))
    | .sequence _ | .pairs _ | .mapping _ => .error .tooDeep
  | limit + 1, i =>
    match d.value i with
    | .scalar value     => value.decodeWithin (limit + 1)
    | .set              => .error (.malformed (.unsupportedType "set"))
    | .sequence items   => do return .array (← items.mapM (sampleAt d limit))
    | .pairs entries    => do
      return .array (← entries.mapM fun e =>
        match limit with
        | 0         => .error .tooDeep
        | limit + 1 => do return .array [← sampleAt d limit e.1, ← sampleAt d limit e.2])
    | .mapping entries  =>
      do (Sample.ofFields (← entries.mapM (Datum.fieldOf (sampleAt d limit)))).mapError .malformed

/-- The sample of a document with at most `limit` levels of collections. -/
def sample (d : Document) (limit : Nat) : Except ReadError Sample := d.sampleAt limit d.root

end Document

end SampleSchema
