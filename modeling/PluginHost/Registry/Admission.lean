import PluginHost.Registry.Basic
import PluginHost.Text.Blank

/-!
# Admission

A plugin is admitted when its name is not empty and not taken, every dependency it declares is
registered and no registered plugin conflicts with it; then the host is handed to it and it is
initialised, and only then it gets a record. The plugins of a batch are put in dependency order
and checked all together before the first of them is called; if one of them fails, those before
it are shut down and taken out again.

* `Host.register`, `Host.registerPlugins`: the two ways in.
-/
namespace PluginHost

/-- What keeps a candidate from being admitted next to the records and the members of its batch
that come before it: the first of the four rules that it breaks. -/
def admissible (records : NameMap Record) (batch : List Descriptor) (candidate : Descriptor) :
    Except RegistryError Unit :=
  if Text.isBlank candidate.name then .error .emptyName
  else if records.contains candidate.name then .error (.alreadyRegistered candidate.name)
  else
    let isPresent := fun name => records.contains name || batch.any (·.name == name)
    match candidate.dependencies.find? (!isPresent ·) with
    | some dependency => .error (.missingDependency candidate.name dependency)
    | none =>
      match (records.values.map (·.descriptor) ++ batch).find? candidate.clashes with
      | some other => .error (.conflict candidate.name other.name)
      | none => .ok ()

/-- `admissible` for a whole batch, one member after the other; `earlier` holds the members
before these. -/
def allAdmissible (records : NameMap Record) (earlier : List Descriptor) :
    List Descriptor → Except RegistryError Unit
  | [] => .ok ()
  | d :: ds =>
    match admissible records earlier d with
    | .error e => .error e
    | .ok () => allAdmissible records (earlier ++ [d]) ds

/-- A plugin and what it reports. -/
abbrev Candidate := Instance × Descriptor

/-- The dependency graph of a batch, in the order of its members. -/
def batchGraph (batch : List Candidate) : Dependency.Graph :=
  Dependency.Graph.ofList (batch.map fun c => (c.2.name, c.2.dependencies))

/-- The members of a batch in dependency order. -/
def batchOrder (batch : List Candidate) : Except RegistryError (List Candidate) :=
  match (batchGraph batch).order with
  | .error nodes => .error (.cycle nodes)
  | .ok order => .ok (order.filterMap fun name => batch.find? (·.2.name == name))

namespace Host

variable {ω : Type}

/-- Hands the host to a plugin, initialises it and gives it a record. -/
def enrol (P : Plugins ω) (plugin : Instance) (descriptor : Descriptor) (enabled : Bool)
    (h : Host ω) : Except Stop Unit × Host ω :=
  match (h.attach P plugin descriptor enabled).runStage P .init plugin descriptor enabled with
  | (.error s, h) => (.error s, h)
  | (.ok (), h) =>
    let (routes, world) := P.routes plugin h.world
    let record := ⟨plugin, descriptor, routes, enabled, false⟩
    (.ok (), { h with world, records := h.records.insert descriptor.name record })

/-- Registers one plugin, enabled, and binds its routes. -/
def register (P : Plugins ω) (plugin : Instance) (h : Host ω) : Except Stop Unit × Host ω :=
  let (descriptor, h) := h.describe P plugin
  match admissible h.records [] descriptor with
  | .error e => (.error (.refused e), h)
  | .ok () =>
    match h.enrol P plugin descriptor true with
    | (.error s, h) => (.error s, h)
    | (.ok (), h) => h.bindRoutes P descriptor.name

/-- Asks the plugins of a batch what they are, up to the first whose name was already there;
`seen` holds the names before. -/
def describeAll (P : Plugins ω) (seen : List String) :
    List Instance → Host ω → Except RegistryError (List Candidate) × Host ω
  | [], h => (.ok [], h)
  | plugin :: plugins, h =>
    let (descriptor, h) := h.describe P plugin
    if seen.contains descriptor.name then (.error (.duplicate descriptor.name), h)
    else
      match describeAll P (descriptor.name :: seen) plugins h with
      | (.error e, h) => (.error e, h)
      | (.ok batch, h) => (.ok ((plugin, descriptor) :: batch), h)

/-- Admits one candidate after the other. When one fails, those before it, whose names `done`
holds backwards, are evicted again; a panic leaves them. -/
def enrolAll (P : Plugins ω) (done : List String) :
    List Candidate → Host ω → Except Stop Unit × Host ω
  | [], h => (.ok (), h)
  | (plugin, descriptor) :: rest, h =>
    match h.enrol P plugin descriptor true with
    | (.ok (), h) => enrolAll P (descriptor.name :: done) rest h
    | (.error (.panicked m), h) => (.error (.panicked m), h)
    | (.error (.refused e), h) =>
      match h.evictAll P done with
      | (.error s, h) => (.error s, h)
      | (.ok (), h) => (.error (.refused e), h)

/-- Registers a batch of plugins, all or none, and binds their routes. -/
def registerPlugins (P : Plugins ω) (plugins : List Instance) (h : Host ω) :
    Except Stop Unit × Host ω :=
  match h.describeAll P [] plugins with
  | (.error e, h) => (.error (.refused e), h)
  | (.ok candidates, h) =>
    match batchOrder candidates with
    | .error e => (.error (.refused e), h)
    | .ok batch =>
      match allAdmissible h.records [] (batch.map (·.2)) with
      | .error e => (.error (.refused e), h)
      | .ok () =>
        match h.enrolAll P [] batch with
        | (.error s, h) => (.error s, h)
        | (.ok (), h) => h.bindEach P (batch.map (·.2.name))

end Host

end PluginHost
