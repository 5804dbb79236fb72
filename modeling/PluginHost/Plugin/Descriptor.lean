import PluginHost.Json.Fields

/-!
# Descriptors

What a plugin says of itself: its name and version, the plugins it needs and the plugins it
cannot stand beside. The same data can be read from a document, where the two lists may be left
out.
-/
namespace PluginHost

/-- Identity and relationships of a plugin. -/
structure Descriptor where
  name : String
  description : String
  version : String
  dependencies : List String
  conflicts : List String
  deriving DecidableEq, Repr, Inhabited

namespace Descriptor

/-- The plugin needs the named one. -/
def dependsOn (d : Descriptor) (name : String) : Bool :=
  d.dependencies.contains name

/-- The plugin refuses the named one. -/
def conflictsWith (d : Descriptor) (name : String) : Bool :=
  d.conflicts.contains name

/-- Either of two plugins refuses the other. -/
def clashes (d e : Descriptor) : Bool :=
  d.conflictsWith e.name || e.conflictsWith d.name

/-- The descriptor as a document. -/
def toJson (d : Descriptor) : Json :=
  .object [
    ("name", .string d.name),
    ("description", .string d.description),
    ("version", .string d.version),
    ("dependencies", Json.ofTexts d.dependencies),
    ("conflicts", Json.ofTexts d.conflicts)]

end Descriptor

/-- The descriptor that a document stands for. -/
def Descriptor.ofJson? (j : Json) : Option Descriptor := do
  match ← j.fields? [["name"], ["description"], ["version"], ["dependencies"], ["conflicts"]] with
  | [name, description, version, dependencies, conflicts] =>
    return {
      name := ← Json.required Json.text? name
      description := ← Json.required Json.text? description
      version := ← Json.required Json.text? version
      dependencies := ← Json.defaulted [] Json.texts? dependencies
      conflicts := ← Json.defaulted [] Json.texts? conflicts }
  | _ => none

end PluginHost
