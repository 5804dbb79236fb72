import PluginHost.Route.Table

/-!
# Routers

A router binds the routes it is given into one of the host's route tables. A host may make it
refuse the routes whose full path holds a text.

* `Router.bindAll`: binds routes up to the first that is rejected.
-/
namespace PluginHost

/-- Where the registry binds routes. -/
structure Router where
  /-- The name of the table that routes are bound into. -/
  table : String
  /-- Refuses every full path that holds this text. -/
  refuses : Option String
  deriving DecidableEq, Repr

namespace Router

/-- The text is somewhere in a row of characters. -/
def holds (text : List Char) : List Char → Bool
  | [] => text.isEmpty
  | c :: cs => text.isPrefixOf (c :: cs) || holds text cs

/-- The router takes no route of the path. -/
def isRefused (router : Router) (path : String) : Bool :=
  match router.refuses with
  | none => false
  | some text => holds text.toList path.toList

/-- Binds one route into a table. -/
def bind (router : Router) (t : Route.Table) (r : BoundRoute) :
    Except Route.Rejection Route.Table :=
  if router.isRefused r.path then .error ⟨r.method, r.path, "rejected by host"⟩
  else t.bind r

/-- Binds routes in their order up to the first that is rejected; those before it stay. -/
def bindAll (router : Router) (t : Route.Table) :
    List BoundRoute → Except Route.Rejection Unit × Route.Table
  | [] => (.ok (), t)
  | r :: rs =>
    match router.bind t r with
    | .error e => (.error e, t)
    | .ok t => bindAll router t rs

end Router

end PluginHost
