import SampleSchema.Schema.Merge

/-!
# Conflicts

A conflict is recorded where a merge has to combine parts of different buckets: at a position where
neither schema has all the parts of the other. It names the path of the position, written with a dot
before a field and with brackets for the elements of an array, and the kinds of the merged parts.
The conflicts inside a position come before the conflict at it.
-/

namespace SampleSchema

/-- A place where values of different buckets met. -/
structure Conflict where
  path  : String
  kinds : List Kind
  deriving DecidableEq, Repr

/-- The path of a field. -/
def fieldPath (parent name : String) : String :=
  if parent = "" then name else parent ++ "." ++ name

/-- The path of the elements of an array. -/
def elementPath (parent : String) : String := parent ++ "[]"

/-- The words for the kinds of a conflict, sorted. -/
def Conflict.labels (c : Conflict) : List String :=
  (c.kinds.map Kind.label).mergeSort fun a b => a ≤ b

/-- The order of conflicts by path and then by kinds. -/
def Conflict.ordered (c d : Conflict) : Bool :=
  c.path < d.path || (c.path = d.path && !d.labels.lex c.labels)

/-- The conflict between two lots of parts, if neither has all the parts of the other. -/
def conflictBetween (path : String) (p q : Parts) : List Conflict :=
  let merged := (p.merge q).toList
  if 1 < merged.length ∧ max p.toList.length q.toList.length < merged.length then
    [⟨path, merged.map Schema.kind⟩]
  else []

mutual

/-- The conflicts of the merge of two schemas at a path. -/
def Schema.conflicts (path : String) (a b : Schema) : List Conflict :=
  (match _h : a.parts.array, b.parts.array with
    | some p, some q =>
      if p.empty || q.empty then [] else p.element.conflicts (elementPath path) q.element
    | _, _ => []) ++
  (match _h : a.parts.object, b.parts.object with
    | some p, some q => fieldConflicts path q.fields p.fields
    | _, _ => []) ++
  conflictBetween path a.parts b.parts
termination_by sizeOf a
decreasing_by
  · exact Schema.element_lt _h
  · exact Schema.fields_lt _h

/-- The conflicts of merging fields with the last fields of their names among `others`. -/
def fieldConflicts (path : String) (others : List (Field Schema)) :
    List (Field Schema) → List Conflict
  | [] => []
  | f :: fs =>
    (match lastField? others f.name with
      | some g => f.type.conflicts (fieldPath path f.name) g.type
      | none => []) ++ fieldConflicts path others fs
termination_by fs => sizeOf fs
decreasing_by
  · cases f; simp only [List.cons.sizeOf_spec, Field.mk.sizeOf_spec]; omega
  · simp only [List.cons.sizeOf_spec]; omega

end

/-- The conflicts of merging schemas into a first one from left to right. -/
def foldConflicts (path : String) : Schema → List Schema → List Conflict
  | _, []      => []
  | a, t :: ts => a.conflicts path t ++ foldConflicts path (a.merge t) ts

/-- The conflicts of `mergeAll`. -/
def mergeAllConflicts : List Schema → List Conflict
  | []      => []
  | t :: ts => foldConflicts "" t ts

/-- The conflicts of `mergePairs`. -/
def pairConflicts : List Schema → List Conflict
  | a :: b :: ts => a.conflicts "" b ++ pairConflicts ts
  | _            => []

/-- The conflicts of `mergeTree`. -/
def mergeTreeConflicts : List Schema → List Conflict
  | a :: b :: ts => pairConflicts (a :: b :: ts) ++ mergeTreeConflicts (a.merge b :: mergePairs ts)
  | _            => []
termination_by ts => ts.length
decreasing_by
  have := length_mergePairs_le ts
  simp only [List.length_cons]; omega

end SampleSchema
