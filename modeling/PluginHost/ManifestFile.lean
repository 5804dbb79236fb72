import PluginHost.Json.Reader
import PluginHost.Plugin.Manifest
import PluginHost.PluginFile
import PluginHost.Toml.Reader

/-!
# Manifests in files

A manifest file is JSON when its extension says so, in capitals or not, and TOML otherwise. It
has to name a plugin. What an operating system or a reader says of a file that it cannot read is
not part of this library; a placeholder stands for it.

* `Manifest.load`: the manifest in a file.
-/
namespace PluginHost

/-- Stands for what the operating system says of a failure. -/
def systemText : String := "<os>"

/-- Stands for what a reader says of a text that is malformed. -/
def readerText : String := "<parser>"

/-- Why a file gives no manifest. -/
inductive ManifestError where
  | unreadable (path : String)
  | malformed (path : String)
  | nameless (path : String)
  deriving DecidableEq, Repr

namespace ManifestError

/-- The kind of a cause. -/
def kind : ManifestError → String
  | .unreadable _ => "Io"
  | .malformed _ | .nameless _ => "Malformed"

/-- What is said of a file that cannot be read. -/
def unreadableMessage (path source : String) : String :=
  "Failed to read manifest " ++ path ++ ": " ++ source

/-- What is said of a file that holds no manifest. -/
def malformedMessage (path reason : String) : String :=
  "Malformed manifest " ++ path ++ ": " ++ reason

/-- What is said of a cause. -/
def message : ManifestError → String
  | .unreadable path => unreadableMessage path systemText
  | .malformed path => malformedMessage path readerText
  | .nameless path => malformedMessage path "manifest has no plugin name"

end ManifestError

namespace FileTree

/-- The text that a file holds. -/
def text? (t : FileTree) (path : String) : Option String :=
  match t.node? path with
  | some (.file bytes) => Text.ofUtf8? bytes
  | _ => none

end FileTree

namespace Manifest

/-- The small letter of a capital ASCII letter. -/
def lowerByte (b : UInt8) : UInt8 :=
  if 0x41 ≤ b ∧ b ≤ 0x5a then b + 0x20 else b

/-- The file is read as JSON. -/
def isJsonPath (path : String) : Bool :=
  match PluginFile.extension? (Text.utf8 path) with
  | some e => e.map lowerByte = Text.utf8 "json"
  | none => false

/-- The document that a text spells, by the language of its file. -/
def document? (path text : String) : Option Json :=
  if isJsonPath path then Json.read? text else Toml.read? text

/-- The manifest that a text spells. -/
def ofText (path text : String) : Except ManifestError Manifest :=
  match (document? path text).bind ofJson? with
  | none => .error (.malformed path)
  | some m => if Text.isBlank m.name then .error (.nameless path) else .ok m

/-- The manifest in a file. -/
def load (files : FileTree) (path : String) : Except ManifestError Manifest :=
  match files.text? path with
  | none => .error (.unreadable path)
  | some text => ofText path text

end Manifest

end PluginHost
