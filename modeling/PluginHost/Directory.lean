import PluginHost.Site

/-!
# Directories of plugins

A directory provides the plugins that its modules and manifests are of: a module by its file's
name, a manifest by the name inside. They are loaded in the order of the dependencies that the
manifests declare. A manifest that cannot be read hides the plugin that its file is named for.

* `discover`: what a directory provides, in name order.
* `loadOrder`: dependencies first.
* `Site.loadDirectory`: loads all modules; the report says which plugins were registered, and
  why the others were not.
-/
namespace PluginHost

/-- A plugin found in a directory, by its module, its manifest or both. -/
structure Discovered where
  name : String
  library : Option String
  manifest : Option Manifest
  deriving DecidableEq, Repr, Inhabited

/-- The dependencies that the manifest declares. -/
def Discovered.dependencies (d : Discovered) : List String :=
  match d.manifest with
  | some m => m.dependencies
  | none => []

/-- What a file in a directory tells. -/
inductive Finding where
  | library (name path : String)
  | manifest (manifest : Manifest)
  /-- A manifest that cannot be read, with the plugin its file is named for. -/
  | broken (name : Option String)
  | nothing
  deriving DecidableEq, Repr

/-- What the file at a path tells. -/
def Finding.ofFile (files : FileTree) (path : String) : Finding :=
  let bytes := Text.utf8 path
  if !files.isFile path then .nothing
  else
    match PluginFile.libraryName? bytes with
    | some name => .library name path
    | none =>
      if PluginFile.isManifest bytes then
        match Manifest.load files path with
        | .ok m => .manifest m
        | .error _ => .broken ((PluginFile.stem? bytes).bind Text.ofUtf8?)
      else .nothing

/-- What has been found of a directory. -/
structure Scan where
  found : NameMap Discovered
  broken : List String

namespace Scan

/-- Nothing has been found. -/
def empty : Scan := ⟨∅, []⟩

/-- Changes what was found of a plugin. -/
def update (s : Scan) (name : String) (f : Discovered → Discovered) : Scan :=
  { s with found := s.found.insert name (f ((s.found.get? name).getD ⟨name, none, none⟩)) }

/-- Adds what a file tells. -/
def add (s : Scan) : Finding → Scan
  | .library name path => s.update name fun d => { d with library := some path }
  | .manifest m => s.update m.name fun d => { d with manifest := some m }
  | .broken (some name) => { s with broken := name :: s.broken }
  | .broken none | .nothing => s

/-- What was found and is not hidden by a broken manifest, in name order. -/
def result (s : Scan) : List Discovered :=
  (s.broken.foldl NameMap.erase s.found).values

end Scan

/-- The files of a directory, in the order in which they were made; none when it does not
exist. -/
def filesIn? (files : FileTree) (dir : String) : Option (List String) :=
  if files.pathExists dir then (files.children dir).map fun names => names.map (FileTree.join dir)
  else some []

/-- The plugins that a directory provides, in name order; `none` when it cannot be read. -/
def discover (files : FileTree) (dir : String) : Option (List Discovered) :=
  (filesIn? files dir).map fun paths =>
    ((paths.map (Finding.ofFile files)).foldl Scan.add Scan.empty).result

/-- The plugins in an order in which dependencies come first, or else a cycle. -/
def loadOrder (found : List Discovered) : Except (List String) (List Discovered) :=
  let graph := Dependency.Graph.ofList (found.map fun d => (d.name, d.dependencies))
  match graph.order with
  | .error cycle => .error cycle
  | .ok order => .ok (order.filterMap fun name => found.find? (·.name == name))

/-- Why a directory was not loaded at all. -/
inductive DirectoryError where
  | unreadable
  | cycle (nodes : List String)
  deriving DecidableEq, Repr

namespace DirectoryError

/-- The kind of a cause. -/
def kind : DirectoryError → String
  | .unreadable => "Io"
  | .cycle _ => "CycleDetected"

/-- What is said of an error of the operating system. -/
def systemMessage (text : String) : String :=
  "IO error: " ++ text

/-- What is said of a cause. -/
def message : DirectoryError → String
  | .unreadable => systemMessage systemText
  | .cycle nodes => Dependency.cycleMessage nodes

end DirectoryError

/-- Why a plugin of a directory was not registered. -/
inductive Shortfall where
  | newerRuntime
  | notLoaded (error : LoadError)
  | notRegistered (error : RegistryError)
  deriving DecidableEq, Repr

/-- What is said of a plugin that was not registered. -/
def Shortfall.message : Shortfall → String
  | .newerRuntime => "requires a newer runtime"
  | .notLoaded e => e.message
  | .notRegistered e => e.message

/-- What became of the modules of a directory, each list in load order. -/
structure LoadReport where
  loaded : List String
  failed : List (String × Shortfall)
  deriving DecidableEq, Repr

/-- How loading a directory ends without report. -/
inductive DirectoryStop where
  | failed (error : DirectoryError)
  | panicked (message : String)
  deriving DecidableEq, Repr

namespace LoadReport

/-- Nothing has been loaded. -/
def empty : LoadReport := ⟨[], []⟩

/-- Adds a plugin that was registered. -/
def addLoaded (r : LoadReport) (name : String) : LoadReport :=
  { r with loaded := r.loaded ++ [name] }

/-- Adds a plugin that was not registered. -/
def addFailed (r : LoadReport) (name : String) (why : Shortfall) : LoadReport :=
  { r with failed := r.failed ++ [(name, why)] }

end LoadReport

/-- The runtime that the manifest asks for, if there is one, is there. -/
def Discovered.isSupported (d : Discovered) : Bool :=
  match d.manifest with
  | some m => m.supports apiVersion
  | none => true

namespace Site

variable {ω : Type}

/-- Loads the modules among what was found, one after the other. -/
def loadEach (P : Plugins ω) (files : FileTree) (report : LoadReport) :
    List Discovered → Site ω → Except DirectoryStop LoadReport × Site ω
  | [], s => (.ok report, s)
  | d :: ds, s =>
    match d.library with
    | none => loadEach P files report ds s
    | some path =>
      if !d.isSupported then loadEach P files (report.addFailed d.name .newerRuntime) ds s
      else
        match s.loadModule P Note.none files path d.name with
        | (.ok (), s) => loadEach P files (report.addLoaded d.name) ds s
        | (.error (.notLoaded e), s) =>
          loadEach P files (report.addFailed d.name (.notLoaded e)) ds s
        | (.error (.notRegistered e), s) =>
          loadEach P files (report.addFailed d.name (.notRegistered e)) ds s
        | (.error (.panicked m), s) => (.error (.panicked m), s)

/-- Loads and registers every module of a directory, dependencies first. -/
def loadDirectory (P : Plugins ω) (files : FileTree) (dir : String) (s : Site ω) :
    Except DirectoryStop LoadReport × Site ω :=
  match discover files dir with
  | none => (.error (.failed .unreadable), s)
  | some found =>
    match loadOrder found with
    | .error nodes => (.error (.failed (.cycle nodes)), s)
    | .ok order => s.loadEach P files LoadReport.empty order

end Site

end PluginHost
