import PluginHost.Plugin.Descriptor
import PluginHost.Plugin.Script
import PluginHost.Route.Table

/-!
# What plugins do

The host only ever calls plugins. `Plugins ω` says what the calls do, over a world `ω` that
the plugins' code may change as it likes; nothing else is known of it. What a plugin reports
comes out of such a call as well, so it can be another thing each time.
-/
namespace PluginHost

/-- The callbacks of a plugin's life. -/
inductive Stage where
  | init
  | shutdown
  | enable
  | disable
  deriving DecidableEq, Repr, Inhabited

/-- The name of a stage in messages. -/
def Stage.name : Stage → String
  | .init => "init"
  | .shutdown => "shutdown"
  | .enable => "enable"
  | .disable => "disable"

/-- How a callback ends. A panic unwinds out of the operation that made the call. -/
inductive Outcome where
  | ok
  | failed (error : PluginError)
  | panicked (message : String)
  deriving DecidableEq, Repr, Inhabited

/-- How an execution ends, or that it goes on by calling the host back with the command it was
given. -/
inductive Execution where
  | answered (value : Json)
  | failed (error : PluginError)
  | panicked (message : String)
  | callsHost
  deriving Inhabited

/-- What calls of plugins do to a world. -/
structure Plugins (ω : Type) extends Route.Service ω where
  descriptor : Instance → ω → Descriptor × ω
  routes : Instance → ω → List Route × ω
  /-- The middlewares that stand before those of every route. -/
  middlewares : Instance → ω → List Middleware × ω
  /-- Hands the host to the plugin. -/
  attach : Instance → ω → ω
  callback : Stage → Instance → ω → Outcome × ω
  execute : Instance → Json → ω → Execution × ω
  construct : Blueprint → ω → Instance × ω

end PluginHost
