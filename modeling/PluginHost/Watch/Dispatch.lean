import PluginHost.Site

/-!
# Applying a change of a file

What a change of one of a plugin's files does to a site. Whether the file was changed or removed
is read off the tree of files at that moment. A change of a registered plugin's file reloads the
plugin, from its module if there is a handle for it; a change for a name that is not registered
loads the plugin, once its manifest allows it; a removed file takes the plugin out.

* `Site.tryLoad`: loads a plugin that is not registered yet.
* `Site.handleChange`, `Site.handleRemoval`: the two ways a change goes.
-/
namespace PluginHost

/-- A directory that is watched: its path, the tree of files it is in, and how changes are
noted. -/
structure Watched (ω : Type) where
  dir : String
  files : FileTree
  note : Note ω

namespace Host

variable {ω : Type}

/-- The plugin may be loaded as far as its manifest goes: none is there, or it can be read, the
host satisfies it and every dependency is registered. -/
def allowsManifest (h : Host ω) (files : FileTree) (path : Option String) : Bool :=
  match path with
  | none => true
  | some path =>
    match Manifest.load files path with
    | .error _ => false
    | .ok m => m.supports apiVersion && m.dependencies.all h.contains

end Host

namespace Site

variable {ω : Type}

/-- Loads the module of a plugin that is not registered yet and registers it: whether that
worked, or the message of a panic. -/
def tryLoad (P : Plugins ω) (watched : Watched ω) (name : String) (s : Site ω) :
    Except String Bool × Site ω :=
  match PluginFile.findLibrary watched.files watched.dir name with
  | none => (.ok false, s)
  | some path =>
    let manifest := PluginFile.findManifest watched.files watched.dir name
    if !s.host.allowsManifest watched.files manifest then (.ok false, s)
    else
      match s.loadModule P watched.note watched.files path name with
      | (.ok (), s) => (.ok true, s)
      | (.error (.panicked m), s) => (.error m, s)
      | (.error _, s) => (.ok false, s)

/-- Unregisters a plugin. -/
def unregister (P : Plugins ω) (note : Note ω) (name : String) (s : Site ω) :
    Except Stop Unit × Site ω :=
  let (result, host) := Host.noted note .unregister name (s.host.unregister P name)
  (result, { s with host })

/-- Replaces a registered plugin by an instance that a module at a path makes. If none can be
made, the plugin is unregistered. -/
def reloadModule (P : Plugins ω) (watched : Watched ω) (path name : String) (s : Site ω) : Site ω :=
  match s.load P watched.files path name with
  | (.error _, s) => (s.unregister P watched.note name).2
  | (.ok plugin, s) =>
    match Host.noted watched.note .reloadWith name (s.host.reloadWith P name plugin) with
    | (.error (.refused _), host) => { s with host }.unloadUnregistered name
    | (_, host) => { s with host }

/-- The module that a registered plugin is reloaded from, if it came from one. -/
def moduleOf? (watched : Watched ω) (name : String) (s : Site ω) : Option String :=
  (PluginFile.findLibrary watched.files watched.dir name).filter fun _ => s.loader.isLoaded name

/-- Applies the change of a file that is there. -/
def handleChange (P : Plugins ω) (watched : Watched ω) (name : String) (s : Site ω) : Site ω :=
  if !s.host.contains name then (s.tryLoad P watched name).2
  else
    match s.moduleOf? watched name with
    | some path => s.reloadModule P watched path name
    | none =>
      { s with host := (Host.noted watched.note .reload name (s.host.reload P name)).2 }

/-- Applies the removal of a file. -/
def handleRemoval (P : Plugins ω) (watched : Watched ω) (name : String) (s : Site ω) : Site ω :=
  if !s.host.contains name then s
  else
    match s.unregister P watched.note name with
    | (.error (.panicked _), s) => s
    | (_, s) => s.unload name

/-- Applies a change of the file at a path, if it is a plugin's. -/
def applyChange (P : Plugins ω) (watched : Watched ω) (path : String) (s : Site ω) : Site ω :=
  match PluginFile.classify (Text.utf8 path) with
  | none => s
  | some (name, _) =>
    if watched.files.pathExists path then s.handleChange P watched name
    else s.handleRemoval P watched name

end Site

end PluginHost
