import PluginHost.Plugin.Behavior
import PluginHost.Site

/-!
# A world of scripted plugins

The plugins that scripts, the greeter and the minimal plugin stand for, as behaviour over a
world that remembers every instance and keeps a log. A scripted plugin logs each of its calls
and then succeeds or fails as its script says; what it reports is read off the script as it is
at that moment.

* `Scripted.plugins`: the behaviour.
-/
namespace PluginHost.Scripted

/-- An instance of a plugin and what it remembers. -/
structure Actor where
  blueprint : Blueprint
  /-- What its lines in the log begin with. -/
  label : String
  /-- It was made by the host itself, not by a module. -/
  inProcess : Bool
  /-- It was handed the host. -/
  attached : Bool
  /-- How often each callback was called, by name. -/
  calls : NameMap Nat
  greetings : Nat
  deriving Inhabited

/-- All instances, and the log with its last line first. -/
structure World where
  actors : List Actor
  log : List String

/-- A world without instances. -/
def World.empty : World := ⟨[], []⟩

namespace World

/-- An instance. -/
def actor? (w : World) (plugin : Instance) : Option Actor :=
  w.actors[plugin.id]?

/-- Changes an instance. -/
def modify (w : World) (plugin : Instance) (f : Actor → Actor) : World :=
  { w with actors := w.actors.modify plugin.id f }

/-- Adds a line to the log. -/
def write (w : World) (line : String) : World :=
  { w with log := line :: w.log }

/-- Adds an instance. -/
def add (w : World) (a : Actor) : Instance × World :=
  (⟨w.actors.length⟩, { w with actors := w.actors ++ [a] })

end World

/-- An instance that has done nothing yet. -/
def Actor.fresh (blueprint : Blueprint) (label : String) (inProcess : Bool) : Actor :=
  { blueprint, label, inProcess, attached := false, calls := ∅, greetings := 0 }

/-! ## What plugins report -/

/-- What a plugin of a blueprint reports. -/
def descriptorOf : Blueprint → Descriptor
  | .scripted s => ⟨s.name, s.description, s.version, s.dependencies, s.conflicts⟩
  | .greeter => ⟨"hello", "Greets callers and counts greetings", "0.1.0", [], []⟩
  | .minimal => ⟨"minimal", "", "1.0.0", [], []⟩

/-- A middleware with its label. -/
def labelMiddleware (label : String) (m : Middleware) : Middleware :=
  { m with label }

/-- A handler with its label. -/
def labelHandler (label : String) : Handler → Handler
  | .scripted _ reply => .scripted label reply
  | h => h

/-- A route with the label of its handler and middlewares. -/
def labelRoute (label : String) (r : Route) : Route :=
  { r with
    handler := labelHandler label r.handler
    middlewares := r.middlewares.map (labelMiddleware label) }

/-- The route of a greeter. -/
def greeterRoute (plugin : Instance) : Route :=
  { method := .get
    path := "/greet/:name"
    handler := .greeter plugin
    middlewares := []
    authRequired := false
    tags := ["demo"]
    description := "Greet someone by name" }

/-- The routes that an instance declares. -/
def routes (plugin : Instance) (w : World) : List Route :=
  match w.actor? plugin with
  | some a =>
    match a.blueprint with
    | .scripted s => s.routes.map (labelRoute a.label)
    | .greeter => [greeterRoute plugin]
    | .minimal => []
  | none => []

/-- The middlewares that stand before those of every route of an instance. -/
def middlewares (plugin : Instance) (w : World) : List Middleware :=
  match w.actor? plugin with
  | some a =>
    match a.blueprint with
    | .scripted s => s.middlewares.map (labelMiddleware a.label)
    | _ => []
  | none => []

/-- What an instance reports. -/
def descriptor (plugin : Instance) (w : World) : Descriptor :=
  ((w.actor? plugin).map fun a => descriptorOf a.blueprint).getD default

/-! ## What plugins do -/

/-- Logs a call of a scripted instance and counts it: its number from zero, and how it is to
fail. -/
def record (plugin : Instance) (a : Actor) (s : Script) (event : Event) (w : World) :
    Nat × Option Failure × World :=
  let count := (a.calls.get? event.name).getD 0
  let w := w.write (a.label ++ "." ++ event.name)
  let w := w.modify plugin fun a => { a with calls := a.calls.insert event.name (count + 1) }
  (count, s.failure? event count, w)

/-- The callback of a stage. -/
def eventOf : Stage → Event
  | .init => .init
  | .shutdown => .shutdown
  | .enable => .enable
  | .disable => .disable

/-- Calls an instance back. -/
def callback (stage : Stage) (plugin : Instance) (w : World) : Outcome × World :=
  match w.actor? plugin with
  | none => (.ok, w)
  | some a =>
    match a.blueprint with
    | .scripted s =>
      match record plugin a s (eventOf stage) w with
      | (_, none, w) => (.ok, w)
      | (_, some (.error e), w) => (.failed e, w)
      | (_, some (.panic m), w) => (.panicked m, w)
    | .greeter =>
      match stage with
      | .init => (.ok, w.modify plugin fun a => { a with greetings := 0 })
      | _ => (.ok, w)
    | .minimal => (.ok, w)

/-- Hands the host to an instance. -/
def attach (plugin : Instance) (w : World) : World :=
  match w.actor? plugin with
  | none => w
  | some a =>
    match a.blueprint with
    | .scripted _ =>
      (w.write (a.label ++ ".attach")).modify plugin fun a => { a with attached := true }
    | _ => w

/-- Greets someone and counts the greeting. -/
def greet (plugin : Instance) (name : String) (w : World) : Json × World :=
  let count := ((w.actor? plugin).map (·.greetings)).getD 0 + 1
  (.object [("message", .string ("Hello, " ++ name ++ "!")), ("count", Json.ofNat count)],
    w.modify plugin fun a => { a with greetings := count })

/-- Whom a greeter greets when it is executed with parameters. -/
def greeted (params : Json) : Except PluginError String :=
  match params.member? "name" with
  | none => .ok "world"
  | some (.string name) => .ok name
  | some _ => .error (.invalidInput "'name' must be a string")

/-- What a scripted instance answers when its execution of a number does not fail. -/
def answer (a : Actor) (s : Script) (call : Nat) (params : Json) : Execution :=
  if a.inProcess && (params.member? "registry").isSome then
    if a.attached then .callsHost else .answered (.string "detached")
  else
    .answered (.object [
      ("plugin", .string s.name),
      ("version", .string s.version),
      ("call", Json.ofNat (call + 1)),
      ("params", params)])

/-- Executes an instance. -/
def execute (plugin : Instance) (params : Json) (w : World) : Execution × World :=
  match w.actor? plugin with
  | none => (.answered .null, w)
  | some a =>
    match a.blueprint with
    | .scripted s =>
      match record plugin a s .execute w with
      | (call, none, w) => (answer a s call params, w)
      | (_, some (.error e), w) => (.failed e, w)
      | (_, some (.panic m), w) => (.panicked m, w)
    | .greeter =>
      match greeted params with
      | .error e => (.failed e, w)
      | .ok name =>
        let (value, w) := greet plugin name w
        (.answered value, w)
    | .minimal => (.answered params, w)

/-! ## What routes do -/

/-- The middleware lets a request through. -/
def passes (guard : Guard) (request : Request) : Bool :=
  match guard with
  | .pass => true
  | .deny => false
  | .requireHeader name => request.headers.contains name
  | .requireParam name value => request.params.get? name == some value

/-- Runs a middleware: it logs its tag and answers or not. -/
def intercept (m : Middleware) (request : Request) (w : World) : Option Response × World :=
  (if passes m.guard request then none else some (.text m.status m.text),
    w.write (m.label ++ ".mw:" ++ m.tag))

/-- A request as a document. -/
def requestJson (r : Request) : Json :=
  .object [
    ("body", .string r.body),
    ("headers", r.headers.toJson),
    ("params", r.params.toJson),
    ("query", r.query.toJson)]

/-- The response that a scripted handler gives. -/
def respond (request : Request) : Reply → Response
  | .json status value => .json status value
  | .empty status => .empty status
  | .echo status => .json status (requestJson request)
  | .text status text => .text status text

/-- Runs a handler. -/
def serve (h : Handler) (request : Request) (w : World) : Response × World :=
  match h with
  | .scripted label reply => (respond request reply, w.write (label ++ ".handler"))
  | .greeter plugin =>
    let (value, w) := greet plugin ((request.params.get? "name").getD "world") w
    (.json 200 value, w)

/-! ## The behaviour as a whole -/

/-- The label of an instance that a module makes. -/
def moduleLabel : Blueprint → String
  | .scripted s => s.name ++ "@" ++ s.version
  | _ => ""

/-- Makes an instance from a module. -/
def construct (b : Blueprint) (w : World) : Instance × World :=
  w.add (Actor.fresh b (moduleLabel b) false)

/-- What scripted plugins do. -/
def plugins : Plugins World :=
  { descriptor := fun plugin w => (descriptor plugin w, w)
    routes := fun plugin w => (routes plugin w, w)
    middlewares := fun plugin w => (middlewares plugin w, w)
    attach, callback, execute, construct, intercept, serve }

/-- A line in the log for every change of the registry that is noted. -/
def note : Note World := fun n w =>
  w.write ("manager." ++ n.change.name ++ ":" ++ n.plugin ++ " -> " ++
    match n.refused with
    | none => "ok"
    | some e => e.kind)

end PluginHost.Scripted
