import PluginHost.Loader
import PluginHost.Registry.Lifecycle

/-!
# Hosts that load modules

A site is a host together with the loader that its plugins come from. A module is loaded and its
plugin registered in one go, and when that fails the handle does not outlive the plugin: it is
given up unless a plugin of the name is registered.

Whoever changes the registry from outside may have each change noted; `Note` says how a world
takes it.

* `Site.loadModule`: loads a module and registers its plugin.
-/
namespace PluginHost

/-- The changes of the registry that can be noted. -/
inductive Change where
  | register
  | unregister
  | reload
  | reloadWith
  deriving DecidableEq, Repr

/-- The name of a change. -/
def Change.name : Change → String
  | .register => "register"
  | .unregister => "unregister"
  | .reload => "reload"
  | .reloadWith => "reload_with"

/-- A change of the registry that was made or refused. -/
structure Notice where
  change : Change
  plugin : String
  refused : Option RegistryError
  deriving DecidableEq, Repr

/-- How a world takes notice of changes. -/
abbrev Note (ω : Type) := Notice → ω → ω

/-- Takes no notice. -/
def Note.none {ω : Type} : Note ω := fun _ w => w

/-- A host and the loader of its modules. -/
structure Site (ω : Type) where
  host : Host ω
  loader : Loader

/-- Why a module's plugin was not registered. -/
inductive ModuleStop where
  | notLoaded (error : LoadError)
  | notRegistered (error : RegistryError)
  | panicked (message : String)
  deriving DecidableEq, Repr

namespace Host

variable {ω : Type}

/-- Has a change noted with how it ended. A panic leaves no notice. -/
def noted (note : Note ω) (change : Change) (plugin : String)
    (result : Except Stop Unit × Host ω) : Except Stop Unit × Host ω :=
  match result with
  | (.ok (), h) => (.ok (), { h with world := note ⟨change, plugin, none⟩ h.world })
  | (.error (.refused e), h) =>
    (.error (.refused e), { h with world := note ⟨change, plugin, some e⟩ h.world })
  | (.error (.panicked m), h) => (.error (.panicked m), h)

end Host

namespace Site

variable {ω : Type}

/-- A site without plugins and modules. -/
def start (world : ω) : Site ω :=
  ⟨Host.start world, Loader.empty⟩

/-- Loads a module for a name. -/
def load (P : Plugins ω) (files : FileTree) (path name : String) (s : Site ω) :
    Except LoadError Instance × Site ω :=
  let (result, loader, world) := s.loader.load P files path name s.host.world
  (result, { host := { s.host with world }, loader })

/-- Gives up the handle of a name. -/
def unload (name : String) (s : Site ω) : Site ω :=
  { s with loader := s.loader.unload name }

/-- Gives up the handle of a name that no plugin is registered under. -/
def unloadUnregistered (name : String) (s : Site ω) : Site ω :=
  if s.host.contains name then s else s.unload name

/-- Loads the module at a path and registers the plugin of the name that it makes. -/
def loadModule (P : Plugins ω) (note : Note ω) (files : FileTree) (path name : String)
    (s : Site ω) : Except ModuleStop Unit × Site ω :=
  match s.load P files path name with
  | (.error e, s) => (.error (.notLoaded e), s.unloadUnregistered name)
  | (.ok plugin, s) =>
    let reported := (P.descriptor plugin s.host.world).1.name
    match Host.noted note .register reported (s.host.register P plugin) with
    | (.ok (), host) => (.ok (), { s with host })
    | (.error (.refused e), host) =>
      (.error (.notRegistered e), { s with host }.unloadUnregistered name)
    | (.error (.panicked m), host) => (.error (.panicked m), { s with host })

end Site

end PluginHost
