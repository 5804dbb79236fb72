import PluginHost.Registry.Basic

/-!
# Views of the registry

What can be asked of the registry without changing it. Every answer is read off the records, so
all of them speak of the same plugins, in name order.

* `Host.infos`: what is known of every plugin.
* `Host.problems`: the health check.
-/
namespace PluginHost

/-- A route as it is reported, under its full path. -/
structure RouteSummary where
  method : Method
  path : String
  authRequired : Bool
  tags : List String
  description : String
  deriving DecidableEq, Repr

/-- What is reported of a registered plugin. -/
structure PluginInfo where
  name : String
  description : String
  version : String
  enabled : Bool
  routeBound : Bool
  dependencies : List String
  conflicts : List String
  routes : List RouteSummary
  deriving DecidableEq, Repr

/-- A route of a plugin as it is reported. -/
def RouteSummary.of (plugin : String) (r : Route) : RouteSummary :=
  ⟨r.method, Route.fullPath plugin r.path, r.authRequired, r.tags, r.description⟩

/-- The reported route as a document. -/
def RouteSummary.toJson (r : RouteSummary) : Json :=
  .object [
    ("method", .string r.method.name),
    ("path", .string r.path),
    ("auth_required", .bool r.authRequired),
    ("tags", Json.ofTexts r.tags),
    ("description", .string r.description)]

/-- The word for whether a plugin is enabled. -/
def statusName (enabled : Bool) : String :=
  if enabled then "enabled" else "disabled"

/-- The report on a plugin as a document. -/
def PluginInfo.toJson (i : PluginInfo) : Json :=
  .object [
    ("name", .string i.name),
    ("description", .string i.description),
    ("version", .string i.version),
    ("status", .string (statusName i.enabled)),
    ("route_bound", .bool i.routeBound),
    ("dependencies", Json.ofTexts i.dependencies),
    ("conflicts", Json.ofTexts i.conflicts),
    ("routes", .array (i.routes.map RouteSummary.toJson))]

namespace Record

/-- The routes as they are reported. -/
def summaries (r : Record) : List RouteSummary :=
  r.routes.map (RouteSummary.of r.descriptor.name)

/-- The report on a plugin. -/
def info (r : Record) : PluginInfo :=
  { name := r.descriptor.name
    description := r.descriptor.description
    version := r.descriptor.version
    enabled := r.enabled
    routeBound := r.bound
    dependencies := r.descriptor.dependencies
    conflicts := r.descriptor.conflicts
    routes := r.summaries }

end Record

namespace Host

variable {ω : Type}

/-- Whether a registered plugin is enabled. -/
def status? (h : Host ω) (name : String) : Option Bool :=
  (h.records.get? name).map (·.enabled)

/-- The instance registered under a name. -/
def plugin? (h : Host ω) (name : String) : Option Instance :=
  (h.records.get? name).map (·.plugin)

/-- The report on one plugin. -/
def info? (h : Host ω) (name : String) : Option PluginInfo :=
  (h.records.get? name).map Record.info

/-- The reports on all plugins. -/
def infos (h : Host ω) : List PluginInfo :=
  h.records.values.map Record.info

/-- The names of all plugins. -/
def list (h : Host ω) : List String :=
  h.records.names

/-- How many plugins there are. -/
def size (h : Host ω) : Nat :=
  h.records.size

/-- The declared dependencies of all plugins. -/
def dependencyGraph (h : Host ω) : NameMap (List String) :=
  h.graph.snapshot

/-- The declared routes of all plugins. -/
def allRoutes (h : Host ω) : NameMap (List RouteSummary) :=
  h.records.map Record.summaries

/-! ## Health -/

/-- One problem for each declared dependency that is not registered. -/
def missingDependencies (h : Host ω) : List RegistryError :=
  h.records.values.flatMap fun r =>
    (r.descriptor.dependencies.filter (!h.contains ·)).map
      (.missingDependency r.descriptor.name)

/-- One problem for each pair of plugins that clash. -/
def clashesAmong : List Descriptor → List RegistryError
  | [] => []
  | d :: ds => (ds.filter d.clashes).map (fun e => .conflict d.name e.name) ++ clashesAmong ds

/-- Missing dependencies, conflicts and a cycle, if there is one. -/
def problems (h : Host ω) : List RegistryError :=
  h.missingDependencies ++ clashesAmong (h.records.values.map (·.descriptor)) ++
    (h.graph.findCycle.map .cycle).toList

/-- The registry in a diagnostic. -/
def debug (h : Host ω) : String :=
  "PluginRegistry \x7b plugins: " ++ Text.quoteList h.list ++
    ", router: " ++ Text.ofBool h.router.isSome ++ " \x7d"

end Host

end PluginHost
