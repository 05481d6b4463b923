import Gamer.Lib.Table
import Gamer.Core.Json

/-! As much of SQLite as the schema's history needs: tables with their columns and rows, indexes,
    and the statements that change them. A text that is read as JSON is kept as the document it
    holds; one that holds none is kept as a text.

        sqlite_master     tables   name ↦ columns, rows
                          indexes  name ↦ table, unique, columns                              -/

namespace Gamer.Storage
open Gamer.Lib Gamer.Core

inductive Cell where
  | null
  | int (n : Int)
  | text (s : String)
  | json (v : Json)

abbrev Row := Table String Cell

structure Column where
  name : String
  type : String
  notNull : Bool
  primaryKey : Bool
  default : Cell

def Column.nullable (name type : String) : Column := ⟨name, type, false, false, .null⟩

def Column.required (name type : String) : Column := ⟨name, type, true, false, .null⟩

def Column.withDefault (name type : String) (default : Cell) : Column :=
  ⟨name, type, true, false, default⟩

def Column.key (name type : String) : Column := ⟨name, type, false, true, .null⟩

structure SqlTable where
  columns : List Column
  rows : List Row

structure Index where
  table : String
  unique : Bool
  columns : List String
  deriving DecidableEq, Repr

structure Content where
  tables : Table String SqlTable
  indexes : Table String Index

def Content.empty : Content := ⟨∅, ∅⟩

inductive Statement where
  | createTable (name : String) (columns : List Column)
  | createIndex (name : String) (index : Index)
  | dropTable (name : String) (ifExists : Bool)
  | dropIndex (name : String)
  | renameTable (name newName : String)
  | addColumn (table : String) (column : Column)
  | dropColumn (table column : String)
  /-- `INSERT INTO … SELECT … FROM`. The constraints the rows have to meet are those of the table
      they come from. -/
  | insertSelect (target source : String) (select : Row → Except String Row)

namespace Content

def setRows (c : Content) (name : String) (t : SqlTable) (rows : List Row) : Content :=
  { c with tables := c.tables.set name { t with rows := rows } }

def dropTable (c : Content) (name : String) : Content :=
  { tables := c.tables.del name, indexes := c.indexes.filter fun _ i => i.table ≠ name }

def renameTable (c : Content) (name newName : String) (t : SqlTable) : Content :=
  { tables := (c.tables.del name).set newName t,
    indexes := c.indexes.map fun i => if i.table = name then { i with table := newName } else i }

def addColumn (c : Content) (name : String) (t : SqlTable) (column : Column) : Content :=
  let rows := t.rows.map fun row => row.set column.name column.default
  { c with tables := c.tables.set name ⟨t.columns ++ [column], rows⟩ }

def dropColumn (c : Content) (name : String) (t : SqlTable) (column : String) : Content :=
  let columns := t.columns.filter fun col => col.name ≠ column
  { c with tables := c.tables.set name ⟨columns, t.rows.map fun row => row.del column⟩ }

def exec (c : Content) : Statement → Except String Content
  | .createTable name columns =>
    match c.tables.get name with
    | some _ => .error ("table " ++ name ++ " already exists")
    | none => .ok { c with tables := c.tables.set name ⟨columns, []⟩ }
  | .createIndex name index =>
    match c.indexes.get name, c.tables.get index.table with
    | some _, _ => .error ("index " ++ name ++ " already exists")
    | none, none => .error ("no such table: " ++ index.table)
    | none, some _ => .ok { c with indexes := c.indexes.set name index }
  | .dropTable name ifExists =>
    match c.tables.get name with
    | some _ => .ok (c.dropTable name)
    | none => if ifExists then .ok c else .error ("no such table: " ++ name)
  | .dropIndex name =>
    match c.indexes.get name with
    | some _ => .ok { c with indexes := c.indexes.del name }
    | none => .error ("no such index: " ++ name)
  | .renameTable name newName =>
    match c.tables.get name, c.tables.get newName with
    | none, _ => .error ("no such table: " ++ name)
    | some _, some _ =>
      .error ("there is already another table or index with this name: " ++ newName)
    | some t, none => .ok (c.renameTable name newName t)
  | .addColumn name column =>
    match c.tables.get name with
    | none => .error ("no such table: " ++ name)
    | some t =>
      if t.columns.any fun col => col.name == column.name then
        .error ("duplicate column name: " ++ column.name)
      else .ok (c.addColumn name t column)
  | .dropColumn name column =>
    match c.tables.get name with
    | none => .error ("no such table: " ++ name)
    | some t =>
      if t.columns.any fun col => col.name == column then .ok (c.dropColumn name t column)
      else .error ("no such column: " ++ column)
  | .insertSelect target source select =>
    match c.tables.get target, c.tables.get source with
    | some t, some from_ =>
      (from_.rows.mapM select).map fun rows => c.setRows target t (t.rows ++ rows)
    | none, _ => .error ("no such table: " ++ target)
    | some _, none => .error ("no such table: " ++ source)

/-- `execute_batch` inside a transaction. -/
def execBatch (c : Content) : List Statement → Except String Content
  | [] => .ok c
  | s :: rest =>
    match c.exec s with
    | .ok c' => c'.execBatch rest
    | .error e => .error e

end Content

end Gamer.Storage
