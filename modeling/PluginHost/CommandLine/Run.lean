import PluginHost.CommandLine.Arguments
import PluginHost.CommandLine.Output
import PluginHost.Config
import PluginHost.Watch.Watcher

/-!
# The commands

What each command does with the files around it, the environment and the home directory. A
command that loads plugins does so with a host of its own, and takes all of them out again before
it ends.

* `execute`: carries out an invocation.
-/
namespace PluginHost.CommandLine

/-- What a command works with: the plugins' code, the world it starts in, the environment, the
home directory if there is one, and the files. -/
structure Setting (ω : Type) where
  plugins : Plugins ω
  world : ω
  environment : Environment
  home : Option String
  files : FileTree

variable {ω : Type}

/-- A failure of reading the configuration. -/
def configFailure (e : ConfigError) : Output :=
  Output.failure [errorLine e.message]

/-- The directory that is given, or the configured one. -/
def directory (x : Setting ω) : Option String → Except ConfigError String
  | some dir => .ok dir
  | none => (Config.load x.environment x.home x.files none).map (·.dir)

/-- The files as seen from a directory; the empty path leads nowhere. -/
def filesFor (x : Setting ω) (dir : String) : FileTree :=
  if dir = "" then FileTree.nowhere else x.files

/-- A panic ends the program with a status of its own. -/
def panicOutput : Output :=
  ⟨.status 101, [], []⟩

/-- Takes every plugin out, and then prints. -/
def finish (x : Setting ω) (s : Site ω) (o : Output) : Output :=
  match s.host.shutdownAll x.plugins with
  | (.error (.panicked _), _) => panicOutput
  | _ => o

/-- Loads a directory into a host of its own and goes on with that. -/
def withLoaded (x : Setting ω) (dir : String) (go : LoadReport → Site ω → Output) : Output :=
  match (Site.start x.world).loadDirectory x.plugins (filesFor x dir) dir with
  | (.ok report, s) => go report s
  | (.error (.failed e), _) =>
    let head := "Failed to load plugins from " ++ dir
    match e with
    | .unreadable => Output.failure [errorLine head, "", "Caused by:", "    0: " ++ e.message]
    | .cycle _ => Output.failure (causedBy head e.message)
  | (.error (.panicked _), _) => panicOutput

/-- Loads a directory and reports every problem. -/
def check (x : Setting ω) (dir : String) : Output :=
  withLoaded x dir fun report s =>
    let problems := s.host.problems
    let err := report.failed.map shortfallLine ++ problems.map problemLine
    let failures := problems.length + report.failed.length
    let o :=
      if failures = 0 then
        Output.ok
          ["✓ " ++ toString s.host.size ++ " plugin(s) loaded, dependencies satisfied"]
      else
        Output.failure
          [errorLine (toString failures ++ " problem(s) found in " ++ dir)]
    finish x s (o.after [] err)

/-- Prints the load order of a directory, or what depends on what. -/
def graph (x : Setting ω) (dir : String) (json : Bool) : Output :=
  match discover (filesFor x dir) dir with
  | none => Output.failure [errorLine systemText]
  | some found =>
    if json then
      let members := found.map fun d => (d.name, Json.ofTexts d.dependencies)
      Output.ok [(Json.object members).sortMembers.pretty]
    else if found.isEmpty then Output.ok ["No plugins in " ++ dir]
    else
      match loadOrder found with
      | .error nodes => Output.failure [errorLine (Dependency.cycleMessage nodes)]
      | .ok order => Output.ok (orderLines 1 order)

/-- Loads a directory and prints its plugins. -/
def list (x : Setting ω) (dir : String) (json routes : Bool) : Output :=
  withLoaded x dir fun report s =>
    let infos := s.host.infos
    let out :=
      if json then [(Json.array (infos.map PluginInfo.toJson)).pretty]
      else if infos.isEmpty then ["No plugins loaded from " ++ dir]
      else infos.flatMap (pluginLines routes)
    finish x s ((Output.ok out).after [] (report.failed.map shortfallLine))

/-- What is printed of a manifest that asks for more than this host. -/
def runtimeWarning (m : Manifest) : List String :=
  if m.supports apiVersion then []
  else
    ["warning: '" ++ m.name ++ "' requires runtime " ++ m.minRuntime.getD "?" ++
      ", this host provides " ++ toString apiVersion]

/-- Prints a manifest. -/
def manifest (x : Setting ω) (path : String) : Output :=
  match Manifest.load x.files path with
  | .error e => Output.failure [errorLine e.message]
  | .ok m => (Output.ok [m.toJson.pretty]).after [] (runtimeWarning m)

/-- Starts watching a directory, which is made if it is missing. A path that leads out of the
files is taken to be there. -/
def startWatching (x : Setting ω) (config : Config) : Except Output Unit :=
  if FileTree.isOutside config.dir then .ok ()
  else
    match x.files.makeDirectories config.dir with
    | none =>
      .error (Output.failure (causedBy
        ("Failed to create plugin directory " ++ config.dir) systemText))
    | some files =>
      let files := if config.dir = "" then FileTree.nowhere else files
      match (Watcher.ofDir config.dir config.watchOptions).start files 0 with
      | .error e => .error (Output.failure [errorLine e.message])
      | .ok _ => .ok ()

/-- The table that a serving host binds routes into. -/
def servedTable : String := "routes"

/-- What a serving host prints. -/
def servingLines (config : Config) (host : Host ω) : List String :=
  ["Serving " ++ toString host.size ++ " plugin(s), " ++
    toString (host.table servedTable).size ++ " route(s) from " ++ config.dir] ++
  (if config.watcherEnabled then
    ["Watching for changes (hot reload " ++ (if config.hotReload then "on" else "off") ++ ")"]
  else []) ++
  ["Press Ctrl-C to stop"]

/-- Serves the plugins of a directory until it is interrupted. -/
def serve (x : Setting ω) (config : Config) : Output :=
  let s := Site.start x.world
  let s := { s with host := s.host.setRouter (some ⟨servedTable, none⟩) }
  match s.loadDirectory x.plugins (filesFor x config.dir) config.dir with
  | (.error (.failed e), _) => Output.failure [errorLine e.message]
  | (.error (.panicked _), _) => panicOutput
  | (.ok report, s) =>
    let err := report.failed.map shortfallLine
    let watching := if config.watcherEnabled then startWatching x config else .ok ()
    match watching with
    | .error o => o.after [] err
    | .ok () => ⟨.interrupted, servingLines config s.host, err⟩

/-- The settings of a host that serves, as the command line changes them. -/
def servedConfig (config : Config) (dir : Option String) (hotReload watch : Bool) : Config :=
  { config with
    dir := dir.getD config.dir
    hotReload := config.hotReload && hotReload
    watcherEnabled := config.watcherEnabled && watch }

/-- Goes on with a directory, if the configuration can be read. -/
def inDirectory (x : Setting ω) (dir : Option String) (go : String → Output) : Output :=
  match directory x dir with
  | .error e => configFailure e
  | .ok dir => go dir

/-- Carries out an invocation. -/
def execute (x : Setting ω) : Invocation → Output
  | .check dir => inDirectory x dir (check x)
  | .graph dir json => inDirectory x dir fun dir => graph x dir json
  | .list dir json routes => inDirectory x dir fun dir => list x dir json routes
  | .manifest path => manifest x path
  | .serve config dir hotReload watch =>
    match Config.load x.environment x.home x.files config with
    | .error e => configFailure e
    | .ok config => serve x (servedConfig config dir hotReload watch)

/-- The name of the program. -/
def programName : String := "hotswap"

/-- The version of the program. -/
def programVersion : String := "0.1.0"

/-- The line with the version of the program or of one of its commands. -/
def versionLine (command : Option CommandName) : String :=
  programName ++ ((command.map fun c => "-" ++ c.name).getD "") ++ " " ++ programVersion

end PluginHost.CommandLine
