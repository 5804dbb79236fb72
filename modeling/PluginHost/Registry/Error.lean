import PluginHost.Dependency.Order
import PluginHost.Plugin.Behavior

/-!
# Why the registry refuses

Each cause has a kind, which tells a caller what to do about it, and a message, which tells a
reader what happened. The two causes for which a plugin itself is at fault, a name that is
empty and a name that is not the expected one, are of one kind.
-/
namespace PluginHost

/-- Why an operation of the registry was refused. -/
inductive RegistryError where
  | emptyName
  /-- The replacement for a plugin reports another name. -/
  | renamed (name reported : String)
  | alreadyRegistered (name : String)
  /-- A batch holds two plugins of one name. -/
  | duplicate (name : String)
  | missingDependency (plugin dependency : String)
  | conflict (plugin other : String)
  | cycle (nodes : List String)
  | dependencyBlocked (plugin dependent : String)
  | dependencyNotEnabled (plugin dependency : String)
  | notFound (name : String)
  | disabled (name : String)
  | lifecycle (plugin : String) (stage : Stage) (source : PluginError)
  | execution (plugin : String) (source : PluginError)
  | routeBinding (plugin : String) (source : Route.Rejection)
  | noRouter
  deriving DecidableEq, Repr

namespace RegistryError

/-- The kind of a cause. -/
def kind : RegistryError → String
  | .emptyName | .renamed .. => "InvalidPlugin"
  | .alreadyRegistered _ => "AlreadyRegistered"
  | .duplicate _ => "DuplicatePlugin"
  | .missingDependency .. => "MissingDependency"
  | .conflict .. => "ConflictDetected"
  | .cycle _ => "CycleDetected"
  | .dependencyBlocked .. => "DependencyBlocked"
  | .dependencyNotEnabled .. => "DependencyNotEnabled"
  | .notFound _ => "NotFound"
  | .disabled _ => "Disabled"
  | .lifecycle .. => "Lifecycle"
  | .execution .. => "Execution"
  | .routeBinding .. => "RouteBinding"
  | .noRouter => "RouterNotSet"

/-- What is said of a cause. -/
def message : RegistryError → String
  | .emptyName => "Invalid plugin: plugin name must not be empty"
  | .renamed name reported =>
    "Invalid plugin: replacement for '" ++ name ++ "' reports name '" ++ reported ++ "'"
  | .alreadyRegistered name => "Plugin '" ++ name ++ "' is already registered"
  | .duplicate name => "Plugin '" ++ name ++ "' appears more than once in the batch"
  | .missingDependency plugin dependency =>
    "Plugin '" ++ plugin ++ "' depends on '" ++ dependency ++ "', which is not registered"
  | .conflict plugin other => "Plugin '" ++ plugin ++ "' conflicts with '" ++ other ++ "'"
  | .cycle nodes => Dependency.cycleMessage nodes
  | .dependencyBlocked plugin dependent =>
    "Cannot disable '" ++ plugin ++ "': enabled plugin '" ++ dependent ++ "' depends on it"
  | .dependencyNotEnabled plugin dependency =>
    "Cannot enable '" ++ plugin ++ "': dependency '" ++ dependency ++ "' is not enabled"
  | .notFound name => "Plugin '" ++ name ++ "' not found"
  | .disabled name => "Plugin '" ++ name ++ "' is disabled"
  | .lifecycle plugin stage source =>
    "Plugin '" ++ plugin ++ "' failed during " ++ stage.name ++ ": " ++ source.message
  | .execution plugin source => "Plugin '" ++ plugin ++ "' execution failed: " ++ source.message
  | .routeBinding plugin source =>
    "Failed to bind routes for plugin '" ++ plugin ++ "': " ++ source.message
  | .noRouter => "No router attached"

end RegistryError

end PluginHost
