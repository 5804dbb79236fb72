import PluginHost.Plugin.Script

/-!
# Files

A tree of files is a list of nodes with the names that lead to them from the root, which is a
node itself. Paths begin there, whether they have a leading slash or not: the root of all files
is also the directory that one works in. Names that lead through something that is no directory
lead nowhere.

* `FileTree.node?`: what a path leads to.
* `FileTree.children`: the names in a directory.
-/
namespace PluginHost

/-- What stands at a place in a tree of files. -/
inductive Node where
  | directory
  | file (bytes : List UInt8)
  /-- A file that can be opened as a module. -/
  | module (image : ModuleImage)
  deriving Inhabited

/-- Neither a directory nor nothing. -/
def Node.isFile : Node → Bool
  | .directory => false
  | _ => true

/-- The names that lead from the root to a node. -/
abbrev Place := List String

/-- A tree of files, in the order in which the nodes were made. -/
structure FileTree where
  nodes : List (Place × Node)

namespace FileTree

/-- The tree that has not even a root. -/
def nowhere : FileTree := ⟨[]⟩

/-- The tree of an empty directory. -/
def empty : FileTree := ⟨[([], .directory)]⟩

instance : Inhabited FileTree := ⟨empty⟩

/-- What stands at a place. -/
def at? (t : FileTree) (p : Place) : Option Node :=
  t.nodes.lookup p

/-- There is a directory at the place. -/
def isDirectoryAt (t : FileTree) (p : Place) : Bool :=
  match t.at? p with
  | some .directory => true
  | _ => false

/-- The pieces between the slashes of a text, empty ones included. -/
def pieces (piece : List Char) : List Char → List String
  | [] => [String.ofList piece]
  | c :: cs =>
    if c = '/' then String.ofList piece :: pieces [] cs else pieces (piece ++ [c]) cs

/-- Goes on from a place by names. Every place that is left has to be a directory; the empty
name and `.` stay where they are, and `..` goes back. -/
def walk (t : FileTree) (p : Place) : List String → Option Place
  | [] => some p
  | name :: names =>
    if !t.isDirectoryAt p then none
    else if name = "" ∨ name = "." then walk t p names
    else if name = ".." then if p = [] then none else walk t p.dropLast names
    else walk t (p ++ [name]) names

/-- The place that a path leads to, whether something stands there or not. -/
def place? (t : FileTree) (path : String) : Option Place :=
  t.walk [] (pieces [] path.toList)

/-- What a path leads to. -/
def node? (t : FileTree) (path : String) : Option Node :=
  (t.place? path).bind t.at?

/-- The path leads to something. -/
def pathExists (t : FileTree) (path : String) : Bool :=
  (t.node? path).isSome

/-- The path leads to a directory. -/
def isDirectory (t : FileTree) (path : String) : Bool :=
  match t.node? path with
  | some .directory => true
  | _ => false

/-- The path leads to something that is no directory. -/
def isFile (t : FileTree) (path : String) : Bool :=
  ((t.node? path).map Node.isFile).getD false

/-- The name of a node in the directory at a place. -/
def childName? (p : Place) (node : Place) : Option String :=
  if node.length = p.length + 1 ∧ p.isPrefixOf node then node.getLast? else none

/-- The names in the directory at a place, in the order in which they were made. -/
def childrenAt (t : FileTree) (p : Place) : List String :=
  t.nodes.filterMap fun n => childName? p n.1

/-- The names in a directory; `none` when the path leads to none. -/
def children (t : FileTree) (path : String) : Option (List String) :=
  (t.place? path).bind fun p => if t.isDirectoryAt p then some (t.childrenAt p) else none

/-! ## Changes -/

/-- Puts a node at a place, in place of the one that is there. -/
def putNode (p : Place) (n : Node) : List (Place × Node) → List (Place × Node)
  | [] => [(p, n)]
  | m :: ms => if m.1 = p then (p, n) :: ms else m :: putNode p n ms

/-- The places on the way to a place, from the root on. -/
def ancestors (p : Place) : List Place :=
  (List.range p.length).map fun k => p.take k

/-- Makes the directories on the way to a place. -/
def makeAncestors (t : FileTree) (p : Place) : FileTree :=
  ⟨(ancestors p).foldl
    (fun ns a => if (ns.lookup a).isSome then ns else putNode a .directory ns) t.nodes⟩

/-- Writes a node to a place and makes the directories on the way. -/
def writeAt (t : FileTree) (p : Place) (n : Node) : FileTree :=
  ⟨putNode p n (t.makeAncestors p).nodes⟩

/-- Takes out what stands at a place and below. -/
def removeAt (t : FileTree) (p : Place) : FileTree :=
  ⟨t.nodes.filter fun n => !p.isPrefixOf n.1⟩

/-- Moves what stands at a place and below to another place. -/
def renameAt (t : FileTree) (p q : Place) : FileTree :=
  let moved := t.nodes.filter fun n => p.isPrefixOf n.1
  let rest := (t.removeAt p).removeAt q
  ⟨(rest.makeAncestors q).nodes ++ moved.map fun n => (q ++ n.1.drop p.length, n.2)⟩

/-- The names of a path, without the ones that stay where they are. -/
def names (path : String) : List String :=
  (pieces [] path.toList).filter fun n => n ≠ "" ∧ n ≠ "."

/-- The place that a path names when every directory on the way is there. -/
def placeOf (path : String) : Place :=
  (names path).foldl (fun p n => if n = ".." then p.dropLast else p ++ [n]) []

/-- Goes on from a place by names and makes every directory that is missing there. `none` when
something that is no directory is in the way. -/
def makeWay (t : FileTree) (p : Place) : List String → Option FileTree
  | [] => some t
  | ".." :: names => t.makeWay p.dropLast names
  | name :: names =>
    match t.at? (p ++ [name]) with
    | none => (t.writeAt (p ++ [name]) .directory).makeWay (p ++ [name]) names
    | some .directory => t.makeWay (p ++ [name]) names
    | some _ => none

/-- The last piece of a path is a point, which no directory can be made by. -/
def endsInPoint (path : String) : Bool :=
  ((pieces [] path.toList).filter (· ≠ "")).getLast? = some "."

/-- Makes the directory at a path with all that are missing on the way. `none` when something
that is no directory is in the way, and when the path ends in a point and the directory is not
there once the way to it is made. -/
def makeDirectories (t : FileTree) (path : String) : Option FileTree :=
  if endsInPoint path then
    (t.makeWay [] (names path).dropLast).filter fun t => t.isDirectory path
  else t.makeWay [] (names path)

/-- A way back makes the directory that it comes from, too. -/
example : (empty.makeDirectories "a/../b").map (fun t => (t.isDirectory "a", t.isDirectory "b")) =
    some (true, true) := by decide +kernel

example : (empty.makeDirectories "a/.").isNone = true := by decide +kernel

/-- The tree of files given by their paths. -/
def ofList (files : List (String × Node)) : FileTree :=
  files.foldl (fun t f => t.writeAt (placeOf f.1) f.2) empty

/-- A path into a directory. A name that begins at the root stands alone. -/
def join (dir name : String) : String :=
  if name.toList.head? = some '/' ∨ dir = "" then name
  else if dir.toList.getLast? = some '/' then dir ++ name
  else dir ++ "/" ++ name

/-- The names lead back beyond the place that lies `depth` names above them. -/
def goesBeyond (depth : Nat) : List String → Bool
  | [] => false
  | ".." :: names => depth = 0 || goesBeyond (depth - 1) names
  | _ :: names => goesBeyond (depth + 1) names

/-- The path leads back beyond the root. -/
def isOutside (path : String) : Bool :=
  goesBeyond 0 (names path)

/-- What a path consists of, however its slashes are written: a leading slash or point, and the
names behind. -/
def parts (path : String) : List String :=
  let isName := fun n : String => n ≠ "" ∧ n ≠ "."
  match pieces [] path.toList with
  | "" :: names => if names = [] then [] else "/" :: names.filter isName
  | "." :: names => "." :: names.filter isName
  | names => names.filter isName

/-- Two spellings of one path. -/
def samePath (p q : String) : Bool :=
  parts p == parts q

end FileTree

end PluginHost
