import PluginHost.Registry.Lifecycle
import PluginHost.Registry.View

/-!
# Commands of the registry

A command is an operation of the registry written down, so that it can be carried out from
outside and also by a plugin while it executes. It answers with a document: `"ok"`, what was
asked for, the value of an execution, or why it was refused.

* `Command.run`: carries a command out.
* `Host.runAll`: carries commands out one after the other, whatever becomes of each.
-/
namespace PluginHost

/-- A question about the registry. -/
inductive Query where
  | status (name : String)
  | info (name : String)
  | infos
  | list
  | contains (name : String)
  | size
  | graph
  | allRoutes
  | check
  | debug
  deriving DecidableEq, Repr

/-- An operation of the registry. -/
inductive Command where
  | register (plugin : Instance)
  | registerPlugins (plugins : List Instance)
  | unregister (name : String)
  | enable (name : String)
  | disable (name : String)
  | reload (name : String)
  | reloadWith (name : String) (plugin : Instance)
  | setRouter (router : Option Router)
  | registerAllRoutes
  | shutdownAll
  | execute (name : String) (params : Json)
  /-- An execution with a command for the plugin to carry out, if it calls the host back. -/
  | executeCalling (name : String) (params : Json) (command : Command)
  | query (query : Query)

/-- The refusal as a document. -/
def RegistryError.toJson (e : RegistryError) : Json :=
  .object [("error", .string e.kind), ("message", .string e.message)]

/-- The end of an operation without result as a document. -/
def Stop.toJson : Stop → Json
  | .refused e => e.toJson
  | .panicked m => .object [("error", .string "panic"), ("message", .string m)]

/-- The answer to a question. -/
def Query.answer {ω : Type} (h : Host ω) : Query → Json
  | .status name => ((h.status? name).map fun s => .string (statusName s)).getD .null
  | .info name => ((h.info? name).map PluginInfo.toJson).getD .null
  | .infos => .array (h.infos.map PluginInfo.toJson)
  | .list => Json.ofTexts h.list
  | .contains name => .bool (h.contains name)
  | .size => .array [Json.ofNat h.size, Json.ofNat (if h.size = 0 then 1 else 0)]
  | .graph => .object (h.dependencyGraph.map Json.ofTexts).entries
  | .allRoutes => .object (h.allRoutes.map fun rs => .array (rs.map RouteSummary.toJson)).entries
  | .check => .array (h.problems.map RegistryError.toJson)
  | .debug => .string h.debug

/-- The answer of an operation that has nothing to tell. -/
def answerOk {ω : Type} : Except Stop Unit × Host ω → Except Stop Json × Host ω
  | (.ok (), h) => (.ok (.string "ok"), h)
  | (.error s, h) => (.error s, h)

namespace Command

variable {ω : Type}

/-- Carries a command out. What a plugin is refused while it executes is part of its answer. -/
def run (P : Plugins ω) : Command → Host ω → Except Stop Json × Host ω
  | .register plugin, h => answerOk (h.register P plugin)
  | .registerPlugins plugins, h => answerOk (h.registerPlugins P plugins)
  | .unregister name, h => answerOk (h.unregister P name)
  | .enable name, h => answerOk (h.enable P name)
  | .disable name, h => answerOk (h.disable P name)
  | .reload name, h => answerOk (h.reload P name)
  | .reloadWith name plugin, h => answerOk (h.reloadWith P name plugin)
  | .setRouter router, h => answerOk (.ok (), h.setRouter router)
  | .registerAllRoutes, h => answerOk (h.registerAllRoutes P)
  | .shutdownAll, h => answerOk (h.shutdownAll P)
  | .execute name params, h =>
    match h.execute P name params with
    | (.ok (.value v), h) => (.ok v, h)
    | (.ok .callsHost, h) => (.ok .null, h)
    | (.error s, h) => (.error s, h)
  | .executeCalling name params command, h =>
    match h.execute P name params with
    | (.ok (.value v), h) => (.ok v, h)
    | (.ok .callsHost, h) =>
      match run P command h with
      | (.error (.refused e), h) => (.ok e.toJson, h)
      | answer => answer
    | (.error s, h) => (.error s, h)
  | .query q, h => (.ok (q.answer h), h)

/-- The answer as a document, however the command ended. -/
def answer : Except Stop Json → Json
  | .ok v => v
  | .error s => s.toJson

end Command

/-- Carries commands out one after the other. -/
def Host.runAll {ω : Type} (P : Plugins ω) (h : Host ω) (commands : List Command) : Host ω :=
  commands.foldl (fun h c => (c.run P h).2) h

end PluginHost
