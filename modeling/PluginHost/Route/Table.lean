import PluginHost.Route.Basic

/-!
# Route tables

A table keeps bound routes in the order in which their method and full path were first bound.
Binding the same method and path again puts the new route in the old one's place; a route whose
path is no pattern is rejected and leaves the table as it was.

* `Table.bind`: binds one route.
* `Table.find?`: the first entry that a request resolves to.
* `Table.dispatch`: serves a request.
-/
namespace PluginHost.Route

/-- A router takes no such route. -/
structure Rejection where
  method : Method
  path : String
  reason : String
  deriving DecidableEq, Repr

/-- What is said of a rejected route. -/
def Rejection.message (r : Rejection) : String :=
  "Route " ++ r.method.name ++ " " ++ r.path ++ " rejected: " ++ r.reason

/-- A bound route and the pattern of its path. -/
structure Entry where
  route : BoundRoute
  pattern : Pattern

/-- What an entry is known by: method and full path. -/
def Entry.key (e : Entry) : Method × String :=
  (e.route.method, e.route.path)

/-- Bound routes in the order in which their keys were first bound. -/
structure Table where
  entries : List Entry

namespace Table

/-- The table without routes. -/
def empty : Table := ⟨[]⟩

instance : Inhabited Table := ⟨empty⟩

instance : EmptyCollection Table := ⟨empty⟩

/-- How many routes are bound. -/
def size (t : Table) : Nat :=
  t.entries.length

/-- Puts an entry in the place of the one with the same key, or at the end. -/
def putEntry (e : Entry) : List Entry → List Entry
  | [] => [e]
  | f :: fs => if f.key = e.key then e :: fs else f :: putEntry e fs

/-- Binds a route. -/
def bind (t : Table) (r : BoundRoute) : Except Rejection Table :=
  match Pattern.ofPath r.path with
  | .error e => .error ⟨r.method, r.path, e.message⟩
  | .ok pattern => .ok ⟨putEntry ⟨r, pattern⟩ t.entries⟩

/-- Method and full path of the routes that belong to a plugin. -/
def routesOf (t : Table) (plugin : String) : List (Method × String) :=
  (t.entries.filter (·.route.plugin == plugin)).map Entry.key

/-- The parameters of a request that an entry matches. -/
def Entry.match? (e : Entry) (method : Method) (path : String) : Option (NameMap String) :=
  if e.route.method = method then e.pattern.match? path else none

/-- The first route that a request resolves to, with the parameters of its path. -/
def find? (t : Table) (method : Method) (path : String) : Option (BoundRoute × NameMap String) :=
  t.entries.findSome? fun e => (Entry.match? e method path).map fun params => (e.route, params)

end Table

/-- The code behind routes: what middlewares and handlers do to a world. -/
structure Service (ω : Type) where
  intercept : Middleware → Request → ω → Option Response × ω
  serve : Handler → Request → ω → Response × ω

/-- The parameters of a request, those of the matched path in place of the caller's. -/
def withParams (request : Request) (params : NameMap String) : Request :=
  { request with params := params.entries.foldl (fun m e => m.insert e.1 e.2) request.params }

/-- Runs middlewares up to the first that answers, and the handler if none does. -/
def runPipeline {ω : Type} (s : Service ω) (handler : Handler) (request : Request) :
    List Middleware → ω → Response × ω
  | [], w => s.serve handler request w
  | m :: ms, w =>
    match s.intercept m request w with
    | (some response, w) => (response, w)
    | (none, w) => runPipeline s handler request ms w

/-- Serves a request; `none` when no route matches. -/
def Table.dispatch {ω : Type} (t : Table) (s : Service ω) (method : Method) (path : String)
    (request : Request) (w : ω) : Option Response × ω :=
  match t.find? method path with
  | none => (none, w)
  | some (route, params) =>
    let (response, w) :=
      runPipeline s route.handler (withParams request params) route.middlewares w
    (some response, w)

end PluginHost.Route
