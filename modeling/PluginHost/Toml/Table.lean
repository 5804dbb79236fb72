import PluginHost.Json.Basic

/-!
# Tables of TOML

A document is a list of statements, and each statement adds to a tree of tables. How a table
came to be decides what may be added to it later: a header may complete a table that so far was
only on the way to another one, a dotted key may extend only what dotted keys have made, and
nothing is ever defined twice.

* `Toml.assign`: puts a value under a dotted key.
* `Toml.Document.step`: carries out one statement.
-/
namespace PluginHost.Toml

/-- How a table came to be. -/
inductive Origin where
  /-- By a header of its own, or as the root. -/
  | header
  /-- On the way to the table of a header. -/
  | path
  /-- On the way to the value of a dotted key. -/
  | dotted
  deriving DecidableEq, Repr, Inhabited

/-- What stands under a key. -/
inductive Item where
  | value (value : Json)
  | table (origin : Origin) (entries : List (String × Item))
  /-- An array of tables, the last one first. -/
  | tables (elements : List (List (String × Item)))
  deriving Inhabited

/-- The entries of a table, in the order of their keys' first mention. -/
abbrev Entries := List (String × Item)

/-- Puts an item under a key, in place of the one that is there or at the end. -/
def Entries.set (key : String) (item : Item) : Entries → Entries
  | [] => [(key, item)]
  | e :: es => if e.1 = key then (key, item) :: es else e :: set key item es

/-- Changes the table at the end of a path; tables that are missing on the way are made with
the given origin. A dotted path may not pass through a table that has a header. -/
def descend (made : Origin) (change : Origin → Entries → Option Entries) :
    List String → Origin → Entries → Option Entries
  | [], origin, entries => change origin entries
  | key :: keys, _, entries =>
    match entries.lookup key with
    | none => do
      let inner ← descend made change keys made []
      return entries.set key (.table made inner)
    | some (.table origin inner) =>
      if made = .dotted ∧ origin = .header then none
      else do
        let inner ← descend made change keys origin inner
        return entries.set key (.table origin inner)
    | some (.tables (last :: before)) => do
      let inner ← descend made change keys .header last
      return entries.set key (.tables (inner :: before))
    | some (.tables []) | some (.value _) => none

/-- Puts a value under a dotted key. The table it goes into was made by dotted keys if the key
has several parts. -/
def assign (path : List String) (key : String) (value : Json) (origin : Origin)
    (entries : Entries) : Option Entries :=
  descend .dotted
    (fun last inner =>
      if (path ≠ [] ∧ last ≠ .dotted) ∨ (inner.lookup key).isSome then none
      else some (inner.set key (.value value)))
    path origin entries

mutual

/-- The JSON document of an item. -/
def Item.toJson : Item → Json
  | .value v => v
  | .table _ entries => .object (entriesToJson entries)
  | .tables elements => .array (elementsToJson [] elements)

/-- The members of a table. -/
def entriesToJson : List (String × Item) → List (String × Json)
  | [] => []
  | (key, item) :: es => (key, item.toJson) :: entriesToJson es

/-- The elements of an array of tables, put back in order in front of `done`. -/
def elementsToJson (done : List Json) : List (List (String × Item)) → List Json
  | [] => done
  | t :: ts => elementsToJson (.object (entriesToJson t) :: done) ts

end

/-- A line of a document that says something. -/
inductive Statement where
  /-- `a.b.c = value` -/
  | assign (path : List String) (key : String) (value : Json)
  /-- `[a.b.c]` -/
  | table (path : List String) (key : String)
  /-- `[[a.b.c]]` -/
  | element (path : List String) (key : String)

/-- The tables so far, and the path of the header that is in force. -/
structure Document where
  root : Entries := []
  header : List String := []

namespace Document

/-- Opens a table: a new one, or one that was only on the way to another. -/
def openTable (key : String) (entries : Entries) : Option Entries :=
  match entries.lookup key with
  | none => some (entries.set key (.table .header []))
  | some (.table .path inner) => some (entries.set key (.table .header inner))
  | _ => none

/-- Opens a further element of an array of tables. -/
def openElement (key : String) (entries : Entries) : Option Entries :=
  match entries.lookup key with
  | none => some (entries.set key (.tables [[]]))
  | some (.tables elements) => some (entries.set key (.tables ([] :: elements)))
  | _ => none

/-- Carries out one statement. -/
def step (d : Document) : Statement → Option Document
  | .assign path key value => do
    let root ← descend .path (assign path key value) d.header .header d.root
    return { d with root }
  | .table path key => do
    let root ← descend .path (fun _ => openTable key) path .header d.root
    return ⟨root, path ++ [key]⟩
  | .element path key => do
    let root ← descend .path (fun _ => openElement key) path .header d.root
    return ⟨root, path ++ [key]⟩

/-- The document that the statements make, as JSON. -/
def ofStatements? (ss : List Statement) : Option Json :=
  (ss.foldlM step {}).map fun d => .object (entriesToJson d.root)

end Document

end PluginHost.Toml
