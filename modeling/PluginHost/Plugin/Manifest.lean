import PluginHost.Plugin.Descriptor
import PluginHost.Text.Blank
import PluginHost.Text.Natural

/-!
# Manifests

A manifest stands beside a plugin's module and describes it without the module being opened.
The least version of the host that the plugin runs on may be written under three names.

* `Manifest.supports`: a host of a version satisfies the manifest.
* `Manifest.ofJson?`, `Manifest.toJson`: a manifest as a document.
-/
namespace PluginHost

/-- The version of the interface between the host and its plugins. -/
def apiVersion : Nat := 1

/-- What a manifest says of a plugin. -/
structure Manifest where
  name : String
  description : String
  version : String
  author : String
  dependencies : List String
  conflicts : List String
  entryPoint : String
  buildTags : List String
  /-- The least version of the host, if one is asked for. -/
  minRuntime : Option String
  deriving DecidableEq, Repr, Inhabited

namespace Manifest

/-- A host of the version satisfies the manifest. Only a requirement that is a number of 32
bits is enforced. -/
def supports (m : Manifest) (version : Nat) : Bool :=
  match m.minRuntime.bind fun r => Text.boundedNat? Text.maxUInt32 (Text.trim r) with
  | some required => required ≤ version
  | none => true

/-- What the plugin's descriptor is expected to be. -/
def descriptor (m : Manifest) : Descriptor :=
  ⟨m.name, m.description, m.version, m.dependencies, m.conflicts⟩

/-- The spellings of each field, in the order of the fields. -/
def spellings : List (List String) :=
  [["name"], ["description"], ["version"], ["author"], ["dependencies"], ["conflicts"],
    ["entry_point"], ["build_tags"],
    ["min_runtime_version", "required_version", "required_go_version"]]

/-- The manifest that a document stands for. Every field may be left out. -/
def ofJson? (j : Json) : Option Manifest := do
  match ← j.fields? spellings with
  | [name, description, version, author, dependencies, conflicts, entryPoint, buildTags,
      minRuntime] =>
    return {
      name := ← Json.defaulted "" Json.text? name
      description := ← Json.defaulted "" Json.text? description
      version := ← Json.defaulted "" Json.text? version
      author := ← Json.defaulted "" Json.text? author
      dependencies := ← Json.defaulted [] Json.texts? dependencies
      conflicts := ← Json.defaulted [] Json.texts? conflicts
      entryPoint := ← Json.defaulted "" Json.text? entryPoint
      buildTags := ← Json.defaulted [] Json.texts? buildTags
      minRuntime := ← Json.optional Json.text? minRuntime }
  | _ => none

/-- The manifest as a document; a requirement that is not there is left out. -/
def toJson (m : Manifest) : Json :=
  .object ([
    ("name", .string m.name),
    ("description", .string m.description),
    ("version", .string m.version),
    ("author", .string m.author),
    ("dependencies", Json.ofTexts m.dependencies),
    ("conflicts", Json.ofTexts m.conflicts),
    ("entry_point", .string m.entryPoint),
    ("build_tags", Json.ofTexts m.buildTags)] ++
    match m.minRuntime with
    | none => []
    | some r => [("min_runtime_version", .string r)])

end Manifest

end PluginHost
