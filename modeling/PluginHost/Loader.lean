import PluginHost.FileTree
import PluginHost.ManifestFile
import PluginHost.Plugin.Behavior

/-!
# The loader of modules

A loader opens files as modules and has each make an instance of its plugin. It keeps one handle
for every name that was loaded. A handle that is given up is retired, never closed, since
instances made from it may still be in use. Loading a name gives up its handle first, so a
failed load leaves the name without one.

* `Loader.load`, `Loader.unload`: the two ways a handle comes and goes.
-/
namespace PluginHost

/-- An open module: the path it was opened from, and which of all opened modules it is. -/
structure Handle where
  path : String
  library : Nat
  deriving DecidableEq, Repr

/-- The handles by name, the modules that were given up, and how many were opened in all. -/
structure Loader where
  handles : NameMap Handle
  /-- The last one first. -/
  retired : List Nat
  opened : Nat
  deriving DecidableEq, Repr

/-- Why a module was not loaded. -/
inductive LoadError where
  | notFound (path : String)
  | notOpened (path : String)
  | missingSymbol (path symbol : String)
  | versionMismatch (found : Nat)
  /-- The constructor made nothing. -/
  | noInstance (path : String)
  | emptyName (path : String)
  | unexpectedName (path name reported : String)
  deriving DecidableEq, Repr

namespace LoadError

/-- The kind of a cause. -/
def kind : LoadError → String
  | .notFound _ => "NotFound"
  | .notOpened _ => "LibraryLoad"
  | .missingSymbol .. => "MissingSymbol"
  | .versionMismatch _ => "ApiVersionMismatch"
  | .noInstance _ | .emptyName _ | .unexpectedName .. => "InvalidPlugin"

/-- What is said of two versions that differ. -/
def versionMessage (expected found : Nat) : String :=
  "API version mismatch: host expects " ++ toString expected ++
    ", plugin has " ++ toString found

/-- What is said of a module whose plugin is at fault. -/
def invalidMessage (path reason : String) : String :=
  "Invalid plugin in " ++ path ++ ": " ++ reason

/-- What is said of a cause. -/
def message : LoadError → String
  | .notFound path => "Plugin library not found: " ++ path
  | .notOpened path => "Failed to open plugin library " ++ path ++ ": " ++ systemText
  | .missingSymbol path symbol =>
    "Plugin library " ++ path ++ " does not export '" ++ symbol ++ "': " ++ systemText
  | .versionMismatch found => versionMessage apiVersion found
  | .noInstance path => invalidMessage path "constructor returned a null instance"
  | .emptyName path => invalidMessage path "plugin reports an empty name"
  | .unexpectedName path name reported =>
    invalidMessage path ("expected plugin '" ++ name ++ "', module provides '" ++ reported ++ "'")

end LoadError

/-- The symbol that a module exports its interface version under. -/
def versionSymbol : String := "_hotswap_plugin_api_version"

/-- The symbol that a module exports its constructor under. -/
def constructorSymbol : String := "_hotswap_plugin_create"

namespace Loader

variable {ω : Type}

/-- A loader that has opened nothing. -/
def empty : Loader := ⟨∅, [], 0⟩

instance : Inhabited Loader := ⟨empty⟩

/-- There is a handle for the name. -/
def isLoaded (l : Loader) (name : String) : Bool :=
  l.handles.contains name

/-- The names with a handle, in ascending order. -/
def names (l : Loader) : List String :=
  l.handles.names

/-- The path that the handle of a name was opened from. -/
def path? (l : Loader) (name : String) : Option String :=
  (l.handles.get? name).map (·.path)

/-- Gives up the handle of a name, if there is one. -/
def unload (l : Loader) (name : String) : Loader :=
  match l.handles.get? name with
  | none => l
  | some handle =>
    { l with handles := l.handles.erase name, retired := handle.library :: l.retired }

/-- What of an instance is not as expected of a plugin of the name. -/
def check (path name reported : String) : Except LoadError Unit :=
  if Text.isBlank reported then .error (.emptyName path)
  else if reported ≠ name then .error (.unexpectedName path name reported)
  else .ok ()

/-- Has an open module make an instance of the named plugin. -/
def instantiate (P : Plugins ω) (path name : String) (image : ModuleImage) (w : ω) :
    Except LoadError Instance × ω :=
  match image with
  | .withoutVersion => (.error (.missingSymbol path versionSymbol), w)
  | .withoutConstructor => (.error (.missingSymbol path constructorSymbol), w)
  | .complete version made =>
    if version ≠ apiVersion then (.error (.versionMismatch version), w)
    else
      match made with
      | none => (.error (.noInstance path), w)
      | some blueprint =>
        let (plugin, w) := P.construct blueprint w
        let (descriptor, w) := P.descriptor plugin w
        match check path name descriptor.name with
        | .error e => (.error e, w)
        | .ok () => (.ok plugin, w)

/-- Opens the module at a path and has it make an instance of the named plugin. -/
def load (P : Plugins ω) (files : FileTree) (path name : String) (l : Loader) (w : ω) :
    Except LoadError Instance × Loader × ω :=
  let l := l.unload name
  match files.node? path with
  | none => (.error (.notFound path), l, w)
  | some (.module image) =>
    let library := l.opened
    let l := { l with opened := l.opened + 1 }
    match instantiate P path name image w with
    | (.error e, w) => (.error e, { l with retired := library :: l.retired }, w)
    | (.ok plugin, w) =>
      (.ok plugin, { l with handles := l.handles.insert name ⟨path, library⟩ }, w)
  | some _ => (.error (.notOpened path), l, w)

/-- The loader in a diagnostic. -/
def debug (l : Loader) : String :=
  "DynamicLoader \x7b loaded: " ++ Text.quoteList l.names ++ " \x7d"

end Loader

end PluginHost
