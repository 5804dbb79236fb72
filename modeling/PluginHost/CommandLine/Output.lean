import PluginHost.Directory
import PluginHost.Json.Printer
import PluginHost.Registry.View

/-!
# What the commands print

Each command prints lines on two channels and ends with a status. A final error is printed with
what caused it below it, indented.
-/
namespace PluginHost.CommandLine

/-- How a program ends. -/
inductive Ending where
  | status (code : Nat)
  /-- It was serving until it was interrupted. -/
  | interrupted
  deriving DecidableEq, Repr

/-- What a program prints on either channel, and how it ends. -/
structure Output where
  ending : Ending
  out : List String
  err : List String
  deriving DecidableEq, Repr

namespace Output

/-- A success that prints lines. -/
def ok (out : List String) : Output := ⟨.status 0, out, []⟩

/-- A failure that prints an error and its causes, each on its lines. -/
def failure (err : List String) : Output := ⟨.status 1, [], err⟩

/-- The program printed something before. -/
def after (o : Output) (out err : List String) : Output :=
  { o with out := out ++ o.out, err := err ++ o.err }

end Output

/-- The text that lines are printed as: each of them ends with a new line. -/
def printed (ls : List String) : String :=
  String.join (ls.map (· ++ "\n"))

/-- The lines of a text. -/
def linesFrom (line : List Char) : List Char → List String
  | [] => [String.ofList line]
  | c :: cs =>
    if c = '\n' then String.ofList line :: linesFrom [] cs else linesFrom (line ++ [c]) cs

/-- The lines of a text. -/
def lines (s : String) : List String :=
  linesFrom [] s.toList

/-- The line of a final error. -/
def errorLine (message : String) : String :=
  "Error: " ++ message

/-- The lines of a final error with one cause. -/
def causedBy (message cause : String) : List String :=
  [errorLine message, "", "Caused by:"] ++ (lines cause).map ("    " ++ ·)

/-- The line for a plugin that was not loaded. -/
def shortfallLine (f : String × Shortfall) : String :=
  "✗ " ++ f.1 ++ ": " ++ f.2.message

/-- The line for a problem. -/
def problemLine (e : RegistryError) : String :=
  "✗ " ++ e.message

/-- Texts with commas between them. -/
def commaSeparated (ss : List String) : String :=
  String.intercalate ", " ss

/-- The lines of a plugin. -/
def pluginLines (withRoutes : Bool) (i : PluginInfo) : List String :=
  let mark := if i.enabled then "✓" else "○"
  let description := if i.description = "" then "No description" else i.description
  let head := mark ++ " " ++ i.name ++ " v" ++ i.version ++ "    " ++ description
  let dependencies :=
    if i.dependencies = [] then [] else ["    depends on: " ++ commaSeparated i.dependencies]
  let routes := i.routes.map fun r =>
    "    " ++ r.method.name ++ " " ++ r.path ++ (if r.authRequired then " [auth]" else "")
  head :: dependencies ++ (if withRoutes then routes else [])

/-- A number in at least three places. -/
def paddedNumber (n : Nat) : String :=
  let s := toString n
  String.ofList (List.replicate (3 - s.length) ' ') ++ s

/-- The line of a plugin in load order. -/
def orderLine (number : Nat) (d : Discovered) : String :=
  paddedNumber number ++ ". " ++ d.name ++ (if d.library.isSome then "" else " (no module)") ++
    (if d.dependencies = [] then "" else " <- " ++ commaSeparated d.dependencies)

/-- The lines of plugins in load order, numbered on from a number. -/
def orderLines (number : Nat) : List Discovered → List String
  | [] => []
  | d :: ds => orderLine number d :: orderLines (number + 1) ds

end PluginHost.CommandLine
