import PluginHost.Registry.Command
import PluginHost.Scripted
import PluginHost.Watch.Watcher

/-!
# Sessions

A session is everything that one run of a host consists of: the site, the files around it, the
plugins that are known by an identifier of their own and the watcher, if there is one. After
each step of a session its state is reported: what was logged since the step before, the
plugins, the sizes of the route tables and the modules that are loaded.

* `Session.report`: the answer of a step with the state it leaves behind.
-/
namespace PluginHost

/-- One run of a host. -/
structure Session where
  site : Site Scripted.World
  files : FileTree
  /-- The plugins that are known by an identifier. -/
  pool : NameMap Instance
  watcher : Option Watcher
  /-- The place of the directory that the watcher looks at, wherever it was moved; none once it
  was removed. -/
  watched : Option Place
  /-- The time, which goes on by one with each change of a file. -/
  now : Nat

namespace Session

/-- Replaces the contents of a script, field by field; what is left open stays. -/
structure ScriptChange where
  name : Option String
  version : Option String
  description : Option String
  dependencies : Option (List String)
  conflicts : Option (List String)
  routes : Option (List Route)
  middlewares : Option (List Middleware)
  failures : Option (NameMap (List (Option Failure)))

/-- The script with the change made. -/
def ScriptChange.apply (c : ScriptChange) (s : Script) : Script :=
  { name := c.name.getD s.name
    version := c.version.getD s.version
    description := c.description.getD s.description
    dependencies := c.dependencies.getD s.dependencies
    conflicts := c.conflicts.getD s.conflicts
    routes := c.routes.getD s.routes
    middlewares := c.middlewares.getD s.middlewares
    failures := c.failures.getD s.failures }

/-- The script with nothing but the change. -/
def ScriptChange.toScript (c : ScriptChange) : Script :=
  c.apply {}

/-- Adds a plugin that is known by an identifier. -/
def addPlugin (s : Session) (id : String) (b : Blueprint) : Session :=
  let (plugin, world) := s.site.host.world.add (Scripted.Actor.fresh b id true)
  { s with
    site := { s.site with host := { s.site.host with world } }
    pool := s.pool.insert id plugin }

/-- A session with plugins and files. -/
def start (plugins : List (String × Blueprint)) (files : FileTree) : Session :=
  plugins.foldl (fun s p => s.addPlugin p.1 p.2)
    { site := Site.start Scripted.World.empty, files, pool := ∅, watcher := none, watched := none,
      now := 0 }

/-- The world of the plugins. -/
def world (s : Session) : Scripted.World :=
  s.site.host.world

/-- The session with another world. -/
def withWorld (s : Session) (world : Scripted.World) : Session :=
  { s with site := { s.site with host := { s.site.host with world } } }

/-- The session with another host. -/
def withHost (s : Session) (host : Host Scripted.World) : Session :=
  { s with site := { s.site with host } }

/-- The plugin that is known by an identifier. -/
def plugin (s : Session) (id : String) : Instance :=
  (s.pool.get? id).getD default

/-- The identifier that an instance is known by. -/
def idOf? (s : Session) (plugin : Instance) : Option String :=
  (s.pool.entries.find? (·.2 == plugin)).map (·.1)

/-! ## Reports -/

/-- A record as it is reported. -/
def recordJson (e : String × Record) : Json :=
  .array [.string e.1, .string (statusName e.2.enabled), .bool e.2.bound]

/-- The answer of a step with the state that it leaves behind, and the session with an empty
log. -/
def report (result : Json) (s : Session) : Json × Session :=
  let host := s.site.host
  let answer := Json.object [
    ("result", result),
    ("log", Json.ofTexts host.world.log.reverse),
    ("plugins", .array (host.records.entries.map recordJson)),
    ("tables", .object (host.tables.map fun t => Json.ofNat t.size).entries),
    ("loaded", Json.ofTexts s.site.loader.names)]
  (answer, s.withWorld { host.world with log := [] })

end Session

end PluginHost
