/-!
# Errors of plugins

What a plugin's own code may fail with, and the text that is shown for it.
-/
namespace PluginHost

/-- A failure that a plugin reports. -/
inductive PluginError where
  | config (message : String)
  | io (message : String)
  | invalidInput (message : String)
  | json (message : String)
  | notInitialized
  | custom (message : String)
  deriving DecidableEq, Repr, Inhabited

namespace PluginError

/-- What is said of a failure. -/
def message : PluginError → String
  | .config m => "Configuration error: " ++ m
  | .io m => "IO error: " ++ m
  | .invalidInput m => "Invalid input: " ++ m
  | .json m => "JSON error: " ++ m
  | .notInitialized => "Plugin not initialized"
  | .custom m => m

/-- The failure of a kind; a kind without a name is the plugin's own. -/
def ofKind (kind message : String) : PluginError :=
  if kind = "config" then .config message
  else if kind = "io" then .io message
  else if kind = "invalid_input" then .invalidInput message
  else if kind = "json" then .json message
  else if kind = "not_initialized" then .notInitialized
  else .custom message

end PluginError

end PluginHost
