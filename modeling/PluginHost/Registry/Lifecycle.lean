import PluginHost.Registry.Admission

/-!
# The life of a registered plugin

A plugin can be disabled and enabled again, taken out, and replaced without losing whether it
was enabled. A plugin stays enabled only as long as the plugins it needs are, so one is not
enabled before them and not disabled while another enabled plugin needs it. Taking a plugin out
asks nothing of the plugins that need it.

* `Host.reloadWith`: replaces a plugin; a failure leaves the name without a plugin.
* `Host.execute`: runs an enabled plugin.
* `Host.registerAllRoutes`: binds what is not bound yet.
-/
namespace PluginHost

/-- What the execution of a plugin came to: a value, or a call of the host that the plugin
makes before it answers. -/
inductive Executed where
  | value (value : Json)
  | callsHost
  deriving Inhabited

namespace Host

variable {ω : Type}

/-- Shuts a plugin down and takes it out. A failed shutdown is reported, but the plugin is
gone. -/
def unregister (P : Plugins ω) (name : String) (h : Host ω) : Except Stop Unit × Host ω :=
  h.evict P name

/-- Enables a plugin whose dependencies are enabled, and binds its routes if they are not. -/
def enable (P : Plugins ω) (name : String) (h : Host ω) : Except Stop Unit × Host ω :=
  match h.records.get? name with
  | none => (.error (.refused (.notFound name)), h)
  | some r =>
    if r.enabled then (.ok (), h)
    else
      match r.descriptor.dependencies.find? (!h.isEnabled ·) with
      | some dependency => (.error (.refused (.dependencyNotEnabled name dependency)), h)
      | none =>
        match h.runStage P .enable r.plugin r.descriptor r.enabled with
        | (.error s, h) => (.error s, h)
        | (.ok (), h) =>
          let h := h.modify name fun r => { r with enabled := true }
          if r.bound then (.ok (), h) else h.bindRoutes P name

/-- The first enabled plugin of another name that needs a plugin. -/
def blocker? (h : Host ω) (name : String) : Option Record :=
  h.records.values.find? fun r =>
    r.enabled && r.descriptor.name != name && r.descriptor.dependsOn name

/-- Disables a plugin that no other enabled plugin needs. -/
def disable (P : Plugins ω) (name : String) (h : Host ω) : Except Stop Unit × Host ω :=
  match h.records.get? name with
  | none => (.error (.refused (.notFound name)), h)
  | some r =>
    if !r.enabled then (.ok (), h)
    else
      match h.blocker? name with
      | some b => (.error (.refused (.dependencyBlocked name b.descriptor.name)), h)
      | none =>
        match h.runStage P .disable r.plugin r.descriptor r.enabled with
        | (.error s, h) => (.error s, h)
        | (.ok (), h) => (.ok (), h.modify name fun r => { r with enabled := false })

/-- Puts an instance in the place of the registered one: the old one is evicted, the new one is
checked and admitted with the old enabled state, and its routes are bound if it is enabled. -/
def replace (P : Plugins ω) (name : String) (old : Record) (plugin : Instance) (h : Host ω) :
    Except Stop Unit × Host ω :=
  let (descriptor, h) := h.describe P plugin
  if descriptor.name ≠ name then (.error (.refused (.renamed name descriptor.name)), h)
  else
    match h.evict P name with
    | (.error s, h) => (.error s, h)
    | (.ok (), h) =>
      match admissible h.records [] descriptor with
      | .error e => (.error (.refused e), h)
      | .ok () =>
        match h.enrol P plugin descriptor old.enabled with
        | (.error s, h) => (.error s, h)
        | (.ok (), h) => if old.enabled then h.bindRoutes P name else (.ok (), h)

/-- Replaces a plugin with another instance. -/
def reloadWith (P : Plugins ω) (name : String) (plugin : Instance) (h : Host ω) :
    Except Stop Unit × Host ω :=
  match h.records.get? name with
  | none => (.error (.refused (.notFound name)), h)
  | some old => h.replace P name old plugin

/-- Shuts a plugin down and initialises the same instance again. -/
def reload (P : Plugins ω) (name : String) (h : Host ω) : Except Stop Unit × Host ω :=
  match h.records.get? name with
  | none => (.error (.refused (.notFound name)), h)
  | some old => h.replace P name old old.plugin

/-- Runs an enabled plugin with parameters. -/
def execute (P : Plugins ω) (name : String) (params : Json) (h : Host ω) :
    Except Stop Executed × Host ω :=
  match h.records.get? name with
  | none => (.error (.refused (.notFound name)), h)
  | some r =>
    if !r.enabled then (.error (.refused (.disabled name)), h)
    else
      let (execution, world) := P.execute r.plugin params h.world
      let h := { h with world }
      match execution with
      | .answered value => (.ok (.value value), h)
      | .callsHost => (.ok .callsHost, h)
      | .failed e => (.error (.refused (.execution name e)), h)
      | .panicked m => (.error (.panicked m), h)

/-- Attaches a router or detaches the one there is. Detaching forgets what was bound; attaching
binds nothing by itself, and a table that is attached exists from then on. -/
def setRouter (router : Option Router) (h : Host ω) : Host ω :=
  match router with
  | none =>
    { h with router := none, records := h.records.map fun r => { r with bound := false } }
  | some r => { h with router, tables := h.tables.insert r.table (h.table r.table) }

/-- Binds the routes of every plugin whose routes are not bound, dependencies first. -/
def bindUnbound (P : Plugins ω) : List String → Host ω → Except Stop Unit × Host ω
  | [], h => (.ok (), h)
  | name :: names, h =>
    if ((h.records.get? name).map (·.bound)).getD true then bindUnbound P names h
    else
      match h.bindRoutes P name with
      | (.ok (), h) => bindUnbound P names h
      | (.error s, h) => (.error s, h)

/-- Binds all routes that are not bound. -/
def registerAllRoutes (P : Plugins ω) (h : Host ω) : Except Stop Unit × Host ω :=
  if h.router.isNone then (.error (.refused .noRouter), h)
  else h.bindUnbound P h.dependencyOrder

/-- Takes every plugin out, dependents first. Failed shutdowns are passed over. -/
def shutdownAll (P : Plugins ω) (h : Host ω) : Except Stop Unit × Host ω :=
  h.evictAll P h.dependencyOrder.reverse

end Host

end PluginHost
