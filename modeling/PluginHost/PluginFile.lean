import PluginHost.FileTree
import PluginHost.Text.Utf8

/-!
# Files of plugins

A plugin has up to three files: its module, its manifest and its source. Which of them a path
is, and of which plugin, can be read off the last name of the path; names are bytes, and only
names that spell a text belong to a plugin.

* `classify`: the plugin and the kind of a file.
* `findLibrary`, `findManifest`: the file of a plugin in a directory.
-/
namespace PluginHost.PluginFile

/-- A path or a part of one, as bytes. -/
abbrev Bytes := List UInt8

/-- The byte of the slash. -/
def slash : UInt8 := 0x2f

/-- The byte of the point. -/
def point : UInt8 := 0x2e

/-- The names of a path that are not empty; `name` is the one that has begun. -/
def namesFrom (name : Bytes) : Bytes → List Bytes
  | [] => if name = [] then [] else [name]
  | b :: bs =>
    if b = slash then if name = [] then namesFrom [] bs else name :: namesFrom [] bs
    else namesFrom (name ++ [b]) bs

/-- The last name of a path. A path that ends by going back has none. -/
def fileName? (path : Bytes) : Option Bytes :=
  match ((namesFrom [] path).filter (· ≠ [point])).getLast? with
  | some name => if name = [point, point] then none else some name
  | none => none

/-- A name cut at its last point: what stands before and what stands behind. A point at the
front does not cut. -/
def cut (name : Bytes) : Bytes × Option Bytes :=
  match name.reverse.dropWhile (· ≠ point) with
  | [] | [_] => (name, none)
  | _ :: before => (before.reverse, some (name.reverse.takeWhile (· ≠ point)).reverse)

/-- What stands behind the last point of the last name. -/
def extension? (path : Bytes) : Option Bytes :=
  (fileName? path).bind fun name => (cut name).2

/-- The last name without its extension. -/
def stem? (path : Bytes) : Option Bytes :=
  (fileName? path).map fun name => (cut name).1

/-- The path has one of the extensions. -/
def hasExtension (extensions : List String) (path : Bytes) : Bool :=
  match extension? path with
  | some e => extensions.any fun x => Text.utf8 x = e
  | none => false

/-- What a file of a plugin is. -/
inductive Kind where
  | source
  | library
  | manifest
  deriving DecidableEq, Repr, Inhabited

/-- The name of a kind. -/
def Kind.name : Kind → String
  | .source => "Source"
  | .library => "Library"
  | .manifest => "Manifest"

/-- The file could be opened as a module. -/
def isLibrary (path : Bytes) : Bool :=
  hasExtension ["so"] path

/-- The extensions of manifests, in the order in which they are looked for. -/
def manifestExtensions : List String := ["toml", "json"]

/-- The file is a manifest. -/
def isManifest (path : Bytes) : Bool :=
  hasExtension manifestExtensions path

/-- The extensions of files that an editor leaves behind. -/
def swapExtensions : List String := ["swp", "swo", "swx", "tmp"]

/-- Hidden files and the files that editors leave behind. A path whose last name spells no text
counts as one. -/
def isTemporary (path : Bytes) : Bool :=
  match (fileName? path).bind Text.ofUtf8? with
  | none => true
  | some name =>
    let cs := name.toList
    cs.head? = some '.' || cs.getLast? = some '~' ||
      (1 < cs.length && cs.head? = some '#' && cs.getLast? = some '#') ||
      hasExtension swapExtensions path

/-- The name without one `lib` at its front. -/
def withoutLib (stem : String) : String :=
  match stem.toList with
  | 'l' :: 'i' :: 'b' :: rest => String.ofList rest
  | _ => stem

/-- The text unless it is empty. -/
def nonEmpty? (s : String) : Option String :=
  if s = "" then none else some s

/-- The plugin that a module belongs to. -/
def libraryName? (path : Bytes) : Option String :=
  if isLibrary path then
    ((stem? path).bind Text.ofUtf8?).bind fun stem => nonEmpty? (withoutLib stem)
  else none

/-- The plugin and the kind of a file. -/
def classify (path : Bytes) : Option (String × Kind) :=
  if isTemporary path then none
  else
    match libraryName? path with
    | some name => some (name, .library)
    | none =>
      let kind? :=
        if hasExtension ["rs"] path then some Kind.source
        else if isManifest path then some Kind.manifest
        else none
      kind?.bind fun kind =>
        (((stem? path).bind Text.ofUtf8?).bind nonEmpty?).map fun name => (name, kind)

/-- The paths at which a plugin's module may stand, the preferred one first. -/
def libraryPaths (dir name : String) : List String :=
  [FileTree.join dir (name ++ ".so"), FileTree.join dir ("lib" ++ name ++ ".so")]

/-- The module of a plugin in a directory. -/
def findLibrary (files : FileTree) (dir name : String) : Option String :=
  (libraryPaths dir name).find? files.pathExists

/-- The manifest of a plugin in a directory. -/
def findManifest (files : FileTree) (dir name : String) : Option String :=
  (manifestExtensions.map fun e => FileTree.join dir (name ++ "." ++ e)).find? files.isFile

end PluginHost.PluginFile
