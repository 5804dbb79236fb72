import PluginHost.Watch.Dispatch

/-!
# Watching a directory

A running watcher keeps a deadline for each file that changed; a further change of the file
moves it. When a deadline has passed, the change is applied once, unless hot reload is off, in
which case it is dropped. Starting a watcher queues the files that are already there, all with
one deadline; stopping it forgets what is pending. Times are numbers that the caller hands in.

* `Watcher.start`, `Watcher.stop`, `Watcher.fileEvent`: what queues and forgets changes.
* `Watcher.tick`: applies the changes that are due, in the order of their deadlines.
-/
namespace PluginHost

/-- How a watcher behaves. -/
structure WatchOptions where
  /-- How long a file has to be quiet, in milliseconds. -/
  debounce : Nat := 1000
  /-- Whether changes are applied. -/
  hotReload : Bool := true
  deriving DecidableEq, Repr, Inhabited

/-- A watcher of one directory. -/
structure Watcher where
  dir : String
  options : WatchOptions
  /-- The deadlines by path, while the watcher is running. -/
  pending : Option (NameMap Nat)
  deriving DecidableEq, Repr

/-- Why a watcher was not started. -/
inductive WatchError where
  | missingDirectory (path : String)
  deriving DecidableEq, Repr

/-- The kind of a cause. -/
def WatchError.kind : WatchError → String
  | .missingDirectory _ => "DirNotFound"

/-- What is said of a cause. -/
def WatchError.message : WatchError → String
  | .missingDirectory path => "Plugin directory not found: " ++ path

namespace Watcher

/-- A watcher that is not running. -/
def ofDir (dir : String) (options : WatchOptions) : Watcher :=
  ⟨dir, options, none⟩

/-- The watcher is running. -/
def isRunning (w : Watcher) : Bool :=
  w.pending.isSome

/-- The path is a plugin's file. -/
def recognizes (path : String) : Bool :=
  (PluginFile.classify (Text.utf8 path)).isSome

/-- The files of plugins in the directory. -/
def scan (w : Watcher) (files : FileTree) : List String :=
  (((files.children w.dir).getD []).map (FileTree.join w.dir)).filter fun path =>
    files.isFile path && recognizes path

/-- Starts watching; what is there is queued as if it had just been made. -/
def start (w : Watcher) (files : FileTree) (now : Nat) : Except WatchError Watcher :=
  if w.isRunning then .ok w
  else if !files.isDirectory w.dir then .error (.missingDirectory w.dir)
  else
    let deadline := now + w.options.debounce
    .ok { w with
      pending := some (NameMap.ofList ((w.scan files).map fun path => (path, deadline))) }

/-- Stops watching and forgets what is pending. -/
def stop (w : Watcher) : Watcher :=
  { w with pending := none }

/-- Sets whether changes are applied. -/
def setHotReload (w : Watcher) (enabled : Bool) : Watcher :=
  { w with options := { w.options with hotReload := enabled } }

/-- Takes notice of a change of the file at a path. -/
def fileEvent (w : Watcher) (now : Nat) (path : String) : Watcher :=
  if recognizes path then
    { w with pending := w.pending.map fun p => p.insert path (now + w.options.debounce) }
  else w

/-- Puts a path before the first one with a deadline that is not earlier. -/
def insertByDeadline (e : String × Nat) : List (String × Nat) → List (String × Nat)
  | [] => [e]
  | f :: fs => if e.2 ≤ f.2 then e :: f :: fs else f :: insertByDeadline e fs

/-- Paths in the order of their deadlines; those with one deadline stay in their order. -/
def byDeadline (es : List (String × Nat)) : List (String × Nat) :=
  es.foldr insertByDeadline []

/-- The paths whose deadline has passed, in the order of deadline and path. -/
def due (w : Watcher) (now : Nat) : List String :=
  match w.pending with
  | none => []
  | some p => (byDeadline (p.entries.filter (·.2 ≤ now))).map (·.1)

/-- The latest deadline; nothing is pending after it. -/
def latest (w : Watcher) : Nat :=
  match w.pending with
  | none => 0
  | some p => p.values.foldl max 0

variable {ω : Type}

/-- Takes a path out of the pending ones and applies its change if hot reload is on. -/
def dispatch (P : Plugins ω) (note : Note ω) (files : FileTree) (ws : Watcher × Site ω)
    (path : String) : Watcher × Site ω :=
  let (w, s) := ws
  let w := { w with pending := w.pending.map (·.erase path) }
  if w.options.hotReload then (w, s.applyChange P ⟨w.dir, files, note⟩ path) else (w, s)

/-- Applies the changes that are due. -/
def tick (P : Plugins ω) (note : Note ω) (files : FileTree) (now : Nat) (w : Watcher)
    (s : Site ω) : Watcher × Site ω :=
  (w.due now).foldl (dispatch P note files) (w, s)

/-- Lets enough time pass for everything that is pending. -/
def settle (P : Plugins ω) (note : Note ω) (files : FileTree) (w : Watcher) (s : Site ω) :
    Watcher × Site ω :=
  w.tick P note files w.latest s

end Watcher

end PluginHost
