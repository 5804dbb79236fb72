import PluginHost.Session.Basic

/-!
# Steps of a session

What can be done in a session. Plugins are named by their identifiers, so a step can be written
down before the plugins exist.
-/
namespace PluginHost.Session

/-- A change of the files. -/
inductive FileChange where
  | write (path : String) (node : Node)
  | remove (path : String)
  | rename (path target : String)

/-- What a plugin can be called for directly. -/
inductive CallMethod where
  | stage (stage : Stage)
  | execute (params : Json)
  /-- An execution with a command for the plugin to carry out, if it calls the host back. -/
  | executeCalling (params : Json) (command : Command)

/-- A step that concerns the registry or its plugins. -/
inductive RegistryStep where
  | command (command : Command)
  | register (id : String)
  | registerPlugins (ids : List String)
  | reloadWith (name id : String)
  | mutate (id : String) (change : ScriptChange)
  | get (name : String)
  | call (id : String) (method : CallMethod)

/-- A step that concerns a route table. -/
inductive TableStep where
  | bind (plugin : String) (route : Route) (defaults : List Middleware)
  | resolve (method : Method) (path : String)
  | dispatch (method : Method) (path : String) (request : Request)
  | routesFor (plugin : String)
  | isEmpty

/-- A step that concerns modules and directories. -/
inductive ModuleStep where
  | load (path name : String) (id : Option String)
  | unload (name : String)
  | isLoaded (name : String)
  | libraryPath (name : String)
  | debug
  | findLibrary (dir name : String)
  | findManifest (dir name : String)
  | discover (dir : String)
  | loadDirectory (dir : String)

/-- A step that concerns files and the watcher; `settle` says whether it waits until everything
that it caused has been applied. -/
inductive WatchStep where
  | files (changes : List FileChange) (settle : Bool)
  | new (dir : String) (options : WatchOptions)
  | start (settle : Bool)
  | stop (settle : Bool)
  | shutdown
  | isRunning
  | hotReload (enabled : Bool)
  | tryLoad (name : String)

/-- A step of a session. -/
inductive Step where
  | registry (step : RegistryStep)
  /-- A step with the table of a name, which exists from then on. -/
  | table (name : String) (step : TableStep)
  | module (step : ModuleStep)
  | watch (step : WatchStep)

end PluginHost.Session
