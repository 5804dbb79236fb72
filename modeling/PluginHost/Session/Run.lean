import PluginHost.Directory
import PluginHost.Session.Step

/-!
# Running a session

Each kind of step is carried out by a function that returns its answer and the session it leaves
behind. A step that is refused, or in which a plugin panics, answers with that, and the session
goes on.

* `Session.step`: one step, with the report on it.
* `Session.run`: all steps.
-/
namespace PluginHost.Session

/-- What a step answers that has nothing to tell. -/
def okJson : Json := .string "ok"

/-- A refusal as a document. -/
def errorJson (kind message : String) : Json :=
  .object [("error", .string kind), ("message", .string message)]

/-- A panic as a document. -/
def panicJson (message : String) : Json :=
  errorJson "panic" message

/-- A text that may not be there. -/
def optionalText : Option String → Json
  | none => .null
  | some s => .string s

/-- A path of a directory; a point stands for the root. -/
def directory (dir : String) : String :=
  if dir = "." then "" else dir

/-! ## The registry -/

/-- Carries out a command. -/
def runCommand (c : Command) (s : Session) : Json × Session :=
  let (result, host) := c.run Scripted.plugins s.site.host
  (Command.answer result, s.withHost host)

/-- Changes the script of a plugin. -/
def changeScript (id : String) (c : ScriptChange) (s : Session) : Session :=
  s.withWorld <| s.world.modify (s.plugin id) fun a =>
    match a.blueprint with
    | .scripted script => { a with blueprint := .scripted (c.apply script) }
    | _ => a

/-- The instance that is registered under a name, as it is reported. -/
def instanceJson (s : Session) (plugin : Instance) : Json :=
  .object [
    ("id", optionalText (s.idOf? plugin)),
    ("name", .string (Scripted.descriptor plugin s.world).name)]

/-- How a direct execution ends; a command is carried out if the plugin calls the host back. -/
def executionAnswer (command : Option Command) (s : Session) : Execution → Json × Session
  | .answered v => (v, s)
  | .failed e => (errorJson "PluginError" e.message, s)
  | .panicked m => (panicJson m, s)
  | .callsHost =>
    match command with
    | none => (.null, s)
    | some c => runCommand c s

/-- Executes a plugin directly. -/
def callExecute (id : String) (params : Json) (command : Option Command) (s : Session) :
    Json × Session :=
  let (execution, world) := Scripted.execute (s.plugin id) params s.world
  executionAnswer command (s.withWorld world) execution

/-- Calls a plugin directly. -/
def call (id : String) (method : CallMethod) (s : Session) : Json × Session :=
  match method with
  | .stage stage =>
    match Scripted.callback stage (s.plugin id) s.world with
    | (.ok, w) => (okJson, s.withWorld w)
    | (.failed e, w) => (errorJson "PluginError" e.message, s.withWorld w)
    | (.panicked m, w) => (panicJson m, s.withWorld w)
  | .execute params => callExecute id params none s
  | .executeCalling params command => callExecute id params (some command) s

/-- Carries out a step that concerns the registry. -/
def registryStep (s : Session) : RegistryStep → Json × Session
  | .command c => runCommand c s
  | .register id => runCommand (.register (s.plugin id)) s
  | .registerPlugins ids => runCommand (.registerPlugins (ids.map s.plugin)) s
  | .reloadWith name id => runCommand (.reloadWith name (s.plugin id)) s
  | .mutate id change => (okJson, changeScript id change s)
  | .get name => (((s.site.host.plugin? name).map (instanceJson s)).getD .null, s)
  | .call id method => call id method s

/-! ## Route tables -/

/-- A route that a request resolves to, as it is reported. -/
def matchJson (m : BoundRoute × NameMap String) : Json :=
  let (r, params) := m
  .object [
    ("plugin", .string r.plugin),
    ("method", .string r.method.name),
    ("path", .string r.path),
    ("auth_required", .bool r.authRequired),
    ("tags", Json.ofTexts r.tags),
    ("middlewares", Json.ofNat r.middlewares.length),
    ("params", params.toJson)]

/-- A response as it is reported. -/
def responseJson (r : Response) : Json :=
  .object [
    ("status", Json.ofNat r.status),
    ("content_type", .string r.contentType),
    ("body", .string r.body)]

/-- Method and path of a route. -/
def routeKeyJson (k : Method × String) : Json :=
  .array [.string k.1.name, .string k.2]

/-- The session with a route table under a name. -/
def putTable (name : String) (t : Route.Table) (s : Session) : Session :=
  s.withHost { s.site.host with tables := s.site.host.tables.insert name t }

/-- Carries out a step with the route table of a name. -/
def tableStep (name : String) (s : Session) (step : TableStep) : Json × Session :=
  let t := s.site.host.table name
  let s := putTable name t s
  match step with
  | .bind plugin route defaults =>
    let label := "t"
    let defaults := defaults.map (Scripted.labelMiddleware label)
    match t.bind ((Scripted.labelRoute label route).bind plugin defaults) with
    | .error e => (errorJson "UnsupportedRoute" e.message, s)
    | .ok t => (okJson, putTable name t s)
  | .resolve method path => (((t.find? method path).map matchJson).getD .null, s)
  | .dispatch method path request =>
    let (response, w) := t.dispatch Scripted.plugins.toService method path request s.world
    ((response.map responseJson).getD .null, s.withWorld w)
  | .routesFor plugin => (.array ((t.routesOf plugin).map routeKeyJson), s)
  | .isEmpty => (.bool (t.size == 0), s)

/-! ## Modules and directories -/

/-- A plugin that was found in a directory, as it is reported. -/
def discoveredJson (d : Discovered) : Json :=
  .object [
    ("name", .string d.name),
    ("library", optionalText d.library),
    ("manifest", (d.manifest.map Manifest.toJson).getD .null),
    ("dependencies", Json.ofTexts d.dependencies)]

/-- The load order of what was found, or its cycle. -/
def orderJson (found : List Discovered) : Json :=
  match loadOrder found with
  | .ok order => Json.ofTexts (order.map (·.name))
  | .error nodes => errorJson "CycleDetected" (Dependency.cycleMessage nodes)

/-- What a directory provides, as it is reported. -/
def discoverJson (files : FileTree) (dir : String) : Json :=
  match discover files dir with
  | none => .object [("error", .string "Io")]
  | some found =>
    .object [("candidates", .array (found.map discoveredJson)), ("order", orderJson found)]

/-- The report on a loaded directory. -/
def loadReportJson (r : LoadReport) : Json :=
  .object [
    ("loaded", Json.ofTexts r.loaded),
    ("failed", .array (r.failed.map fun f => Json.ofTexts [f.1, f.2.message]))]

/-- How the loading of a directory ended. -/
def directoryJson : Except DirectoryStop LoadReport → Json
  | .ok r => loadReportJson r
  | .error (.failed e) => errorJson e.kind e.message
  | .error (.panicked m) => panicJson m

/-- Loads a module; its instance may be known by an identifier from then on. -/
def load (path name : String) (id : Option String) (s : Session) : Json × Session :=
  match s.site.load Scripted.plugins s.files path name with
  | (.error e, site) => (errorJson e.kind e.message, { s with site })
  | (.ok plugin, site) =>
    let pool := match id with
      | none => s.pool
      | some id => s.pool.insert id plugin
    ((Scripted.descriptor plugin site.host.world).toJson, { s with site, pool })

/-- Carries out a step that concerns modules and directories. -/
def moduleStep (s : Session) : ModuleStep → Json × Session
  | .load path name id => load path name id s
  | .unload name =>
    (.bool (s.site.loader.isLoaded name), { s with site := s.site.unload name })
  | .isLoaded name => (.bool (s.site.loader.isLoaded name), s)
  | .libraryPath name => (optionalText (s.site.loader.path? name), s)
  | .debug => (.string s.site.loader.debug, s)
  | .findLibrary dir name =>
    (optionalText (PluginFile.findLibrary s.files (directory dir) name), s)
  | .findManifest dir name =>
    (optionalText (PluginFile.findManifest s.files (directory dir) name), s)
  | .discover dir => (discoverJson s.files (directory dir), s)
  | .loadDirectory dir =>
    let (result, site) := s.site.loadDirectory Scripted.plugins s.files (directory dir)
    (directoryJson result, { s with site })

/-! ## Files and the watcher -/

/-- The path under which the watcher sees a place: the directory that it looks at, or something
in there. -/
def watchedPath? (w : Watcher) (dir p : Place) : Option String :=
  if p = dir then some w.dir else (FileTree.childName? dir p).map (FileTree.join w.dir)

/-- Tells the watcher that something changed at a place. -/
def noticeChange (s : Session) (p : Place) : Session :=
  let now := s.now + 1
  { s with
    now
    watcher := s.watcher.map fun w =>
      match s.watched.bind fun dir => watchedPath? w dir p with
      | none => w
      | some path => w.fileEvent now path }

/-- Tells the watcher of changes at places, one after the other. -/
def noticeChanges (s : Session) (ps : List Place) : Session :=
  ps.foldl noticeChange s

/-- The directories that have to be made on the way to a place. -/
def missingAncestors (files : FileTree) (p : Place) : List Place :=
  (FileTree.ancestors p).filter fun a => (files.at? a).isNone

/-- Where the watched directory is after the removal of a place. -/
def watchedAfterRemoval (p dir : Place) : Option Place :=
  if p.isPrefixOf dir then none else some dir

/-- Where the watched directory is after a move from one place to another. -/
def watchedAfterMove (p q dir : Place) : Option Place :=
  if p.isPrefixOf dir then some (q ++ dir.drop p.length) else watchedAfterRemoval q dir

/-- Writes a node to a place. -/
def writeNode (p : Place) (n : Node) (s : Session) : Session :=
  noticeChanges { s with files := s.files.writeAt p n } (missingAncestors s.files p ++ [p])

/-- Removes what is at a place and below, from the innermost on. -/
def removeNode (p : Place) (s : Session) : Session :=
  let below := (s.files.nodes.map (·.1)).filter fun r => p.isPrefixOf r && r != p
  let s := noticeChanges { s with files := s.files.removeAt p } (below.reverse ++ [p])
  { s with watched := s.watched.bind (watchedAfterRemoval p) }

/-- Moves what is at a place to another place. -/
def moveNode (p q : Place) (s : Session) : Session :=
  let made := missingAncestors s.files q
  let s := noticeChanges { s with files := s.files.renameAt p q } (made ++ [p, q])
  { s with watched := s.watched.bind (watchedAfterMove p q) }

/-- Changes the files. -/
def changeFiles (s : Session) : FileChange → Session
  | .write path node => s.writeNode (FileTree.placeOf path) node
  | .remove path => s.removeNode (FileTree.placeOf path)
  | .rename path target => s.moveNode (FileTree.placeOf path) (FileTree.placeOf target)

/-- Lets the watcher apply everything that is pending. -/
def settleWatcher (s : Session) : Session :=
  match s.watcher with
  | none => s
  | some w =>
    let (w', site) := w.settle Scripted.plugins Scripted.note s.files s.site
    { s with watcher := some w', site, now := max s.now w.latest }

/-- Lets the watcher apply everything that is pending, if it is to. -/
def settleIf (settle : Bool) (s : Session) : Session :=
  if settle then settleWatcher s else s

/-- Starts the watcher. -/
def startWatcher (s : Session) : Json × Session :=
  match s.watcher with
  | none => (okJson, s)
  | some w =>
    match w.start s.files s.now with
    | .error e => (errorJson e.kind e.message, s)
    | .ok started =>
      let watched := if w.isRunning then s.watched else s.files.place? w.dir
      (okJson, { s with watcher := some started, watched })

/-- Loads a plugin that is not registered, as the watcher would. -/
def tryLoad (name : String) (s : Session) : Json × Session :=
  match s.watcher with
  | none => (.bool false, s)
  | some w =>
    match s.site.tryLoad Scripted.plugins ⟨w.dir, s.files, Scripted.note⟩ name with
    | (.ok loaded, site) => (.bool loaded, { s with site })
    | (.error m, site) => (panicJson m, { s with site })

/-- Carries out a step that concerns files and the watcher. -/
def watchStep (s : Session) : WatchStep → Json × Session
  | .files changes settle => (okJson, settleIf settle (changes.foldl changeFiles s))
  | .new dir options =>
    let w := Watcher.ofDir (directory dir) options
    (.array [.string w.dir, .bool w.isRunning, .bool w.options.hotReload],
      { s with watcher := some w, watched := none })
  | .start settle =>
    let (answer, s) := startWatcher s
    (answer, settleIf settle s)
  | .stop settle =>
    (okJson, settleIf settle { s with watcher := s.watcher.map Watcher.stop })
  | .shutdown => (okJson, { s with watcher := s.watcher.map Watcher.stop })
  | .isRunning => (.bool ((s.watcher.map Watcher.isRunning).getD false), s)
  | .hotReload enabled =>
    (.bool enabled, { s with watcher := s.watcher.map (·.setHotReload enabled) })
  | .tryLoad name => tryLoad name s

/-! ## All steps -/

/-- Carries out a step and reports on it. -/
def step (s : Session) (step : Step) : Json × Session :=
  let (result, s) :=
    match step with
    | .registry r => s.registryStep r
    | .table name t => tableStep name s t
    | .module m => s.moduleStep m
    | .watch w => s.watchStep w
  report result s

/-- Carries out steps one after the other. -/
def run (s : Session) : List Step → List Json
  | [] => []
  | x :: xs =>
    let (answer, s) := s.step x
    answer :: run s xs

end PluginHost.Session
