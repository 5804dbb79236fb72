import PluginHost.Plugin.Error
import PluginHost.Route.Basic

/-!
# Scripted plugins

A script writes out what a plugin reports and where its callbacks fail, call by call. It is
what a compiled module carries, and what a plugin without a module is made from.
-/
namespace PluginHost

/-- A callback that does not succeed. -/
inductive Failure where
  | error (error : PluginError)
  | panic (message : String)
  deriving DecidableEq, Repr, Inhabited

/-- The callbacks that a script can make fail. -/
inductive Event where
  | init
  | shutdown
  | enable
  | disable
  | execute
  deriving DecidableEq, Repr, Inhabited

/-- The name of a callback in scripts and logs. -/
def Event.name : Event → String
  | .init => "init"
  | .shutdown => "shutdown"
  | .enable => "enable"
  | .disable => "disable"
  | .execute => "execute"

/-- What a plugin reports and where it fails. Routes and middlewares carry no labels yet. -/
structure Script where
  name : String := ""
  version : String := ""
  description : String := ""
  dependencies : List String := []
  conflicts : List String := []
  routes : List Route := []
  middlewares : List Middleware := []
  /-- For each callback by name how its first, second, … call ends; `none` is success, and so is
  every call beyond the list. -/
  failures : NameMap (List (Option Failure)) := ∅
  deriving Inhabited

/-- How the call of a number, counted from zero, ends. -/
def Script.failure? (s : Script) (event : Event) (call : Nat) : Option Failure :=
  (((s.failures.get? event.name).getD [])[call]?).join

/-- The plugins that the constructor of a module or the host itself can make. -/
inductive Blueprint where
  | scripted (script : Script)
  /-- Greets callers and counts the greetings. -/
  | greeter
  /-- Reports a name and a version and gives back the parameters it is executed with. -/
  | minimal
  deriving Inhabited

/-- What a file that can be opened as a module exports. -/
inductive ModuleImage where
  /-- Neither entry point. -/
  | withoutVersion
  /-- An interface version, but no constructor. -/
  | withoutConstructor
  /-- Both entry points; a constructor may make nothing. -/
  | complete (version : Nat) (made : Option Blueprint)
  deriving Inhabited

end PluginHost
