/-!
# Table layouts

The columns, the primary key and the indexes of a database table, and the statements that make the
table.
-/

namespace SampleSchema

/-- The type of a column. -/
inductive ColumnType where
  | integer
  | text (maxLength : Nat)
  | json
  | moment
  deriving DecidableEq, Repr

/-- The word for a type of column. -/
def ColumnType.name : ColumnType → String
  | .integer => "INTEGER"
  | .text n  => "VARCHAR(" ++ Nat.repr n ++ ")"
  | .json    => "JSON"
  | .moment  => "DATETIME"

/-- A column; its default is an expression. -/
structure Column where
  name     : String
  type     : ColumnType
  nullable : Bool := false
  default  : Option String := none
  deriving DecidableEq, Repr

/-- An index of a table. -/
structure TableIndex where
  name    : String
  columns : List String
  unique  : Bool := false
  deriving DecidableEq, Repr

/-- The layout of a table. The constraint of its primary key may have a name. -/
structure TableLayout where
  name       : String
  columns    : List Column
  primaryKey : List String
  keyName    : Option String := none
  indexes    : List TableIndex := []
  deriving DecidableEq, Repr

/-- A column in the statement that makes its table. -/
def Column.definition (c : Column) : String :=
  c.name ++ " " ++ c.type.name ++ (match c.default with | some e => " DEFAULT " ++ e | none => "") ++
    if c.nullable then "" else " NOT NULL"

namespace TableLayout

/-- Names in parentheses. -/
def namesText (names : List String) : String := "(" ++ ", ".intercalate names ++ ")"

/-- The primary key in the statement that makes its table. -/
def keyDefinition (t : TableLayout) : String :=
  (match t.keyName with | some n => "CONSTRAINT " ++ n ++ " " | none => "") ++ "PRIMARY KEY " ++
    namesText t.primaryKey

/-- A statement with the blank line after it. -/
def statement (text : String) : String := text ++ ";\n\n"

/-- The statement that makes an index of a table. -/
def createIndex (table : String) (i : TableIndex) : String :=
  statement ("CREATE " ++ (if i.unique then "UNIQUE " else "") ++ "INDEX " ++ i.name ++ " ON " ++
    table ++ " " ++ namesText i.columns)

/-- The statements that make a table with its indexes. -/
def create (t : TableLayout) : String :=
  let parts := t.columns.map Column.definition ++ [t.keyDefinition]
  statement ("CREATE TABLE " ++ t.name ++ " (\n    " ++ ", \n    ".intercalate parts ++ "\n)") ++
    String.join (t.indexes.map (createIndex t.name))

/-- Whether a table has a column of a name. -/
def hasColumn (t : TableLayout) (name : String) : Bool := t.columns.any (·.name = name)

/-- Whether a table has an index of a name. -/
def hasIndex (t : TableLayout) (name : String) : Bool := t.indexes.any (·.name = name)

/-- The layout with one more index. -/
def withIndex (t : TableLayout) (i : TableIndex) : TableLayout := { t with indexes := t.indexes ++ [i] }

/-- The layout without the index of a name. -/
def withoutIndex (t : TableLayout) (name : String) : TableLayout :=
  { t with indexes := t.indexes.filter (·.name ≠ name) }

end TableLayout

end SampleSchema
