import PluginHost.Registry.Error
import PluginHost.Registry.Router

/-!
# The host

A host keeps a record of every registered plugin, the router that routes are bound with and the
route tables, over the world that the plugins' own code lives in. It also keeps a journal of
the calls it made, the last one first, each with the records that stood at that moment; no
operation looks into it.

Operations return how they ended and the host they leave behind. A plugin that panics unwinds
out of the operation, and the host keeps what had been done so far.

* `Host.runStage`: one callback of a plugin.
* `Host.evict`: shuts a plugin down and takes its record out.
* `Host.bindRoutes`: binds the routes of a plugin with the router.
-/
namespace PluginHost

/-- A registered plugin. Descriptor and routes are what the plugin reported when it was
admitted, whatever it reports later. -/
structure Record where
  plugin : Instance
  descriptor : Descriptor
  routes : List Route
  enabled : Bool
  /-- The routes have been bound with the router. -/
  bound : Bool
  deriving Inhabited

/-- What the host calls a plugin for. -/
inductive CallKind where
  | attach
  | stage (stage : Stage)
  deriving DecidableEq, Repr

/-- A call of a plugin by the host. -/
structure Call where
  kind : CallKind
  plugin : Instance
  /-- What the plugin is registered with, or is about to be. -/
  descriptor : Descriptor
  /-- Whether the plugin is enabled, or is about to be registered so. -/
  enabled : Bool
  outcome : Outcome
  /-- The records at the moment of the call. -/
  records : NameMap Record

/-- Registered plugins, router and route tables over the world of the plugins. -/
structure Host (ω : Type) where
  records : NameMap Record
  router : Option Router
  tables : NameMap Route.Table
  world : ω
  /-- The calls made so far, the last one first. -/
  journal : List Call

/-- How an operation ends without result. -/
inductive Stop where
  | refused (error : RegistryError)
  | panicked (message : String)
  deriving DecidableEq, Repr

namespace Host

variable {ω : Type}

/-- A host without plugins, router and tables. -/
def start (world : ω) : Host ω :=
  { records := ∅, router := none, tables := ∅, world, journal := [] }

/-- There is a record under the name. -/
def contains (h : Host ω) (name : String) : Bool :=
  h.records.contains name

/-- The plugin is registered and enabled. -/
def isEnabled (h : Host ω) (name : String) : Bool :=
  ((h.records.get? name).map (·.enabled)).getD false

/-- The route table of a name; one that was never used is empty. -/
def table (h : Host ω) (name : String) : Route.Table :=
  (h.tables.get? name).getD ∅

/-- Changes the record under a name. -/
def modify (h : Host ω) (name : String) (f : Record → Record) : Host ω :=
  { h with records := h.records.modify name f }

/-- The dependency graph of the records, in name order. -/
def graph (h : Host ω) : Dependency.Graph :=
  Dependency.Graph.ofList
    (h.records.values.map fun r => (r.descriptor.name, r.descriptor.dependencies))

/-- The registered names, dependencies first; in name order when the dependencies have a
cycle. -/
def dependencyOrder (h : Host ω) : List String :=
  match h.graph.order with
  | .ok order => order
  | .error _ => h.records.names

/-! ## Calls -/

/-- Asks a plugin what it is. -/
def describe (P : Plugins ω) (plugin : Instance) (h : Host ω) : Descriptor × Host ω :=
  let (descriptor, world) := P.descriptor plugin h.world
  (descriptor, { h with world })

/-- Hands the host to a plugin. -/
def attach (P : Plugins ω) (plugin : Instance) (descriptor : Descriptor) (enabled : Bool)
    (h : Host ω) : Host ω :=
  { h with
    world := P.attach plugin h.world
    journal := ⟨.attach, plugin, descriptor, enabled, .ok, h.records⟩ :: h.journal }

/-- Calls a plugin back. -/
def call (P : Plugins ω) (stage : Stage) (plugin : Instance) (descriptor : Descriptor)
    (enabled : Bool) (h : Host ω) : Outcome × Host ω :=
  let (outcome, world) := P.callback stage plugin h.world
  (outcome, { h with
    world
    journal := ⟨.stage stage, plugin, descriptor, enabled, outcome, h.records⟩ :: h.journal })

/-- Calls a plugin back; a failure is refused with the plugin's name. -/
def runStage (P : Plugins ω) (stage : Stage) (plugin : Instance) (descriptor : Descriptor)
    (enabled : Bool) (h : Host ω) : Except Stop Unit × Host ω :=
  match h.call P stage plugin descriptor enabled with
  | (.ok, h) => (.ok (), h)
  | (.failed e, h) => (.error (.refused (.lifecycle descriptor.name stage e)), h)
  | (.panicked m, h) => (.error (.panicked m), h)

/-! ## Records -/

/-- Shuts a plugin down and takes its record out, whether the shutdown fails or not. Names
without a record are left alone. -/
def evict (P : Plugins ω) (name : String) (h : Host ω) : Except Stop Unit × Host ω :=
  match h.records.get? name with
  | none => (.ok (), h)
  | some r =>
    match h.runStage P .shutdown r.plugin r.descriptor r.enabled with
    | (.error (.panicked m), h) => (.error (.panicked m), h)
    | (result, h) => (result, { h with records := h.records.erase name })

/-- Evicts one plugin after the other. Failures are passed over, and only a panic stops it. -/
def evictAll (P : Plugins ω) : List String → Host ω → Except Stop Unit × Host ω
  | [], h => (.ok (), h)
  | name :: names, h =>
    match h.evict P name with
    | (.error (.panicked m), h) => (.error (.panicked m), h)
    | (_, h) => evictAll P names h

/-! ## Routes -/

/-- Binds the routes of a registered plugin with the router, if there is one. A rejected route
leaves the plugin unbound and the routes before it in the table. -/
def bindRoutes (P : Plugins ω) (name : String) (h : Host ω) : Except Stop Unit × Host ω :=
  match h.router with
  | none => (.ok (), h)
  | some router =>
    match h.records.get? name with
    | none => (.error (.refused (.notFound name)), h)
    | some r =>
      let (defaults, world) := P.middlewares r.plugin h.world
      match router.bindAll (h.table router.table) (r.routes.map (Route.bind name defaults)) with
      | (.error e, t) =>
        (.error (.refused (.routeBinding name e)),
          { h with world, tables := h.tables.insert router.table t })
      | (.ok (), t) =>
        (.ok (),
          { h with world, tables := h.tables.insert router.table t }.modify name
            fun r => { r with bound := true })

/-- Binds the routes of one plugin after the other, up to the first refusal. -/
def bindEach (P : Plugins ω) : List String → Host ω → Except Stop Unit × Host ω
  | [], h => (.ok (), h)
  | name :: names, h =>
    match h.bindRoutes P name with
    | (.ok (), h) => bindEach P names h
    | (.error s, h) => (.error s, h)

end Host

end PluginHost
