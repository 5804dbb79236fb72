import PluginHost.Route.Message
import PluginHost.Route.Path
import PluginHost.Text.Quoted

/-!
# Routes

A plugin declares routes with paths of its own; bound to the plugin's name, a route has a full
path and runs the plugin's default middlewares before its own.
-/
namespace PluginHost

/-- A constructed plugin. -/
structure Instance where
  id : Nat
  deriving DecidableEq, Repr, Inhabited

/-- How a scripted handler answers. -/
inductive Reply where
  | json (status : Nat) (value : Json)
  | empty (status : Nat)
  /-- The request itself, as JSON. -/
  | echo (status : Nat)
  | text (status : Nat) (text : String)
  deriving Inhabited

/-- What answers a request in the end. -/
inductive Handler where
  /-- Leaves a line with its label in the log and gives a fixed kind of answer. -/
  | scripted (label : String) (reply : Reply)
  /-- Greets the caller and counts the greetings of an instance. -/
  | greeter (greeting : Instance)
  deriving Inhabited

/-- When a middleware answers in place of the handler. -/
inductive Guard where
  | pass
  | deny
  /-- Unless the request has the header. -/
  | requireHeader (name : String)
  /-- Unless the parameter has the value. -/
  | requireParam (name : String) (value : String)
  deriving DecidableEq, Repr, Inhabited

/-- Sees a request before the handler and may answer in its place. -/
structure Middleware where
  label : String
  tag : String
  guard : Guard
  status : Nat
  text : String
  deriving DecidableEq, Repr, Inhabited

/-- A route as a plugin declares it. -/
structure Route where
  method : Method
  /-- Relative to where the plugin's routes are mounted. -/
  path : String
  handler : Handler
  /-- Run after the plugin's default middlewares. -/
  middlewares : List Middleware
  authRequired : Bool
  tags : List String
  description : String
  deriving Inhabited

/-- A route that belongs to a plugin, ready to be served. -/
structure BoundRoute where
  plugin : String
  method : Method
  path : String
  handler : Handler
  middlewares : List Middleware
  authRequired : Bool
  tags : List String
  deriving Inhabited

namespace Text

/-- A truth value in a diagnostic. -/
def ofBool : Bool → String
  | true => "true"
  | false => "false"

end Text

/-- The route of a plugin, under its full path and behind the plugin's default middlewares. -/
def Route.bind (plugin : String) (defaults : List Middleware) (r : Route) : BoundRoute :=
  { plugin
    method := r.method
    path := Route.fullPath plugin r.path
    handler := r.handler
    middlewares := defaults ++ r.middlewares
    authRequired := r.authRequired
    tags := r.tags }

/-- The route in a diagnostic. -/
def Route.debug (r : Route) : String :=
  "Route \x7b method: " ++ r.method.label ++ ", path: " ++ Text.quote r.path ++
    ", middlewares: " ++ toString r.middlewares.length ++
    ", auth_required: " ++ Text.ofBool r.authRequired ++
    ", tags: " ++ Text.quoteList r.tags ++
    ", description: " ++ Text.quote r.description ++ " \x7d"

/-- The bound route in a diagnostic. -/
def BoundRoute.debug (r : BoundRoute) : String :=
  "BoundRoute \x7b plugin: " ++ Text.quote r.plugin ++ ", method: " ++ r.method.label ++
    ", path: " ++ Text.quote r.path ++
    ", middlewares: " ++ toString r.middlewares.length ++
    ", auth_required: " ++ Text.ofBool r.authRequired ++ " \x7d"

end PluginHost
