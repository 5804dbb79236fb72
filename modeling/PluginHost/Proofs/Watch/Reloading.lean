import PluginHost.Proofs.Watch.Dispatch

/-!
# A module that changed takes the place of the old one, or nothing does

When a file of a registered plugin changes and the plugin came from a module, the module is
loaded again. The old instance does not outlive this, however it goes: a module that cannot be
loaded has the plugin unregistered, and a new instance that is refused finds the name free. So in
the end either the new instance is registered and the loader has its handle, or neither is there.

* `Site.reloadModule_in_step`: a plugin and its handle come and go together.
* `Site.handleChange_renews`: what the handling of a change comes to.
-/
namespace PluginHost

variable {ω : Type}

namespace Site

section
variable {P : Plugins ω} {watched : Watched ω} {s : Site ω} {path name lib : String}
  {old : Record}

/-! ## Records and handles -/

/-- A reload from a module that comes to its end leaves the name with a record and the handle of
the module, or with neither. -/
theorem reloadModule_in_step (hold : s.host.records.get? name = some old)
    (hquiet : Host.Quiet s.host (s.reloadModule P watched path name).host) :
    (s.reloadModule P watched path name).host.contains name =
        (s.reloadModule P watched path name).loader.isLoaded name ∧
      ∀ handle, (s.reloadModule P watched path name).loader.handles.get? name = some handle →
        handle.path = path := by
  have hend := reloadModule_ends P watched path hold
  generalize s.reloadModule P watched path name = t at hquiet hend ⊢
  have hneither : t.host.records.get? name = none → t.loader.handles.get? name = none →
      t.host.contains name = t.loader.isLoaded name ∧
        ∀ handle, t.loader.handles.get? name = some handle → handle.path = path := by
    intro hgone hunloaded
    rw [Host.contains, Loader.isLoaded, NameMap.contains_eq_false_iff.2 hgone,
      NameMap.contains_eq_false_iff.2 hunloaded]
    refine ⟨rfl, fun handle hhandle => ?_⟩
    rw [hunloaded] at hhandle
    cases hhandle
  cases hend with
  | @failed world hhandles hrecords hjournal =>
    obtain ⟨-, hgone, -⟩ := Host.evict_ends (h := { s.host with world }) (P := P) hold
      (hquiet.of_journal hjournal.symm)
    exact hneither (hrecords ▸ hgone) ((hhandles name).trans (if_pos rfl))
  | @loaded plugin loader world library _ hhandles hrecords hjournal hconcludes =>
    rcases hconcludes.loader_eq with ⟨hloader, hkept⟩ | ⟨hloader, -, hfree⟩
    · have hcontains : t.host.contains name = true := by
        have := Host.refused_or_present (h := { s.host with world }) hold
          (hquiet.of_journal hjournal.symm)
        rw [Host.contains, ← hrecords] at this
        exact this.elim hkept id
      have hloaded : loader.handles.get? name = some ⟨path, library⟩ :=
        (hhandles name).trans (if_pos rfl)
      rw [hloader, hcontains, Loader.isLoaded, NameMap.contains_iff.2 ⟨_, hloaded⟩]
      refine ⟨rfl, fun handle hhandle => ?_⟩
      rw [hloaded] at hhandle
      cases hhandle
      rfl
    · refine hneither (NameMap.contains_eq_false_iff.1 hfree) ?_
      rw [hloader]
      exact (Loader.get?_unload ..).trans (if_pos rfl)

/-- The old instance is shut down once, and a new one stands in its place as enabled as it was,
if its module's instances report the same when asked again. -/
theorem reloadModule_renews (hold : s.host.records.get? name = some old)
    (hsame : ∀ plugin made, Loader.Makes P watched.files path s.host.world plugin made →
      (P.descriptor plugin (P.descriptor plugin made).2).1 = (P.descriptor plugin made).1)
    (hquiet : Host.Quiet s.host (s.reloadModule P watched path name).host) :
    (s.reloadModule P watched path name).host.shutdownsOf old.plugin =
        s.host.shutdownsOf old.plugin + 1 ∧
      ∀ r, (s.reloadModule P watched path name).host.records.get? name = some r →
        (∃ made, Loader.Makes P watched.files path s.host.world r.plugin made) ∧
          r.enabled = old.enabled := by
  have hend := reloadModule_ends P watched path hold
  generalize s.reloadModule P watched path name = t at hquiet hend ⊢
  cases hend with
  | @failed world _ hrecords hjournal =>
    obtain ⟨-, hgone, hshutdowns⟩ := Host.evict_ends (h := { s.host with world }) (P := P) hold
      (hquiet.of_journal hjournal.symm)
    refine ⟨?_, fun r hr => ?_⟩
    · rw [Host.shutdownsOf_of_journal hjournal, hshutdowns, if_pos rfl]
      rfl
    · rw [hrecords, hgone] at hr
      cases hr
  | @loaded plugin _ world _ hprovides _ hrecords hjournal =>
    obtain ⟨made, d, hmakes, hasked, hname, -⟩ := hprovides
    rcases hagain : P.descriptor plugin world with ⟨d', asked⟩
    obtain rfl : d' = d := by
      have := hsame plugin made hmakes
      rwa [hasked, hagain] at this
    obtain ⟨hshutdowns, hreplaced⟩ := Host.replace_ends (h := { s.host with world }) hold hagain
      hname (hquiet.of_journal hjournal.symm)
    refine ⟨?_, fun r hr => ?_⟩
    · rw [Host.shutdownsOf_of_journal hjournal, hshutdowns, if_pos rfl]
      rfl
    · rw [hrecords] at hr
      rcases hreplaced with ⟨-, hgone⟩ | ⟨r', hr', hplugin, -, henabled⟩
      · rw [hgone] at hr
        cases hr
      · rw [hr'] at hr
        cases hr
        exact ⟨⟨made, hplugin ▸ hmakes⟩, henabled⟩

/-- The handling of a change of a registered plugin that has a handle and whose module is found,
when the instances of the module are new and report the same when asked again, and no call
panics: the old instance is gone and was shut down once. The plugin is registered exactly when
the loader has a handle for it; then the instance is one that the module made, it is enabled as
the old one was, and the handle is that of the module. No other record or handle changes. -/
theorem handleChange_renews (hold : s.host.records.get? name = some old)
    (hloaded : s.loader.isLoaded name = true)
    (hlib : PluginFile.findLibrary watched.files watched.dir name = some lib)
    (hnew : ∀ plugin made, Loader.Makes P watched.files lib s.host.world plugin made →
      plugin ≠ old.plugin)
    (hsame : ∀ plugin made, Loader.Makes P watched.files lib s.host.world plugin made →
      (P.descriptor plugin (P.descriptor plugin made).2).1 = (P.descriptor plugin made).1)
    (hquiet : Host.Quiet s.host (s.handleChange P watched name).host) :
    (s.handleChange P watched name).host.shutdownsOf old.plugin =
        s.host.shutdownsOf old.plugin + 1 ∧
      ((s.handleChange P watched name).host.contains name = true ↔
        (s.handleChange P watched name).loader.isLoaded name = true) ∧
      (∀ r, (s.handleChange P watched name).host.records.get? name = some r →
        r.plugin ≠ old.plugin ∧
          (∃ made, Loader.Makes P watched.files lib s.host.world r.plugin made) ∧
          r.enabled = old.enabled ∧
          (s.handleChange P watched name).loader.path? name = some lib) ∧
      Spares name s (s.handleChange P watched name) := by
  rw [handleChange_of_module hold hloaded hlib] at hquiet ⊢
  obtain ⟨hstep, hpath⟩ := reloadModule_in_step hold hquiet
  obtain ⟨hshutdowns, hrenewed⟩ := reloadModule_renews hold hsame hquiet
  refine ⟨hshutdowns, by rw [hstep], fun r hr => ?_, spares_reloadModule hold⟩
  obtain ⟨⟨made, hmakes⟩, henabled⟩ := hrenewed r hr
  have hhandle : (s.reloadModule P watched lib name).loader.isLoaded name = true :=
    hstep.symm.trans (NameMap.contains_iff.2 ⟨r, hr⟩)
  obtain ⟨handle, hhandle⟩ := Loader.isLoaded_iff.1 hhandle
  refine ⟨hnew r.plugin made hmakes, ⟨made, hmakes⟩, henabled, ?_⟩
  rw [Loader.path?, hhandle, Option.map_some, hpath handle hhandle]

end

/-- Calculators, each of them another one. -/
def calcPlugins : Plugins Nat where
  descriptor _ world := (⟨"calc", "", "1.0.0", [], []⟩, world)
  routes _ world := ([], world)
  middlewares _ world := ([], world)
  attach _ world := world
  callback _ _ world := (.ok, world)
  execute _ params world := (.answered params, world)
  construct _ world := (⟨world⟩, world + 1)
  intercept _ _ world := (none, world)
  serve _ _ world := (.empty 200, world)

/-- The directory of the calculator's module. -/
def calcWatched : Watched Nat where
  dir := "p"
  files := ⟨[([], .directory), (["p"], .directory),
    (["p", "calc.so"], .module (.complete apiVersion (some .minimal)))]⟩
  note := Note.none

/-- The first calculator was loaded from there. -/
def calcSite : Site Nat :=
  (start 0).handleChange calcPlugins calcWatched "calc"

/-- A change of the module replaces the calculator by the next one. -/
theorem calc_renewed :
    ∃ old r, calcSite.host.records.get? "calc" = some old ∧ old.plugin = ⟨0⟩ ∧
      (calcSite.handleChange calcPlugins calcWatched "calc").host.records.get? "calc" = some r ∧
      r.plugin ≠ old.plugin ∧ r.enabled = old.enabled ∧
      (calcSite.handleChange calcPlugins calcWatched "calc").host.shutdownsOf old.plugin =
        calcSite.host.shutdownsOf old.plugin + 1 ∧
      (calcSite.handleChange calcPlugins calcWatched "calc").loader.path? "calc" =
        some "p/calc.so" := by
  obtain ⟨old, hold⟩ := NameMap.contains_iff.1
    (by decide +kernel : calcSite.host.records.contains "calc" = true)
  have hplugin : old.plugin = ⟨0⟩ := by
    have : (calcSite.host.records.get? "calc").map (·.plugin) = some ⟨0⟩ := by decide +kernel
    rw [hold] at this
    exact Option.some.inj this
  obtain ⟨r, hr⟩ := NameMap.contains_iff.1 (by decide +kernel :
    (calcSite.handleChange calcPlugins calcWatched "calc").host.records.contains "calc" = true)
  have hquiet : Host.Quiet calcSite.host
      (calcSite.handleChange calcPlugins calcWatched "calc").host :=
    (passes_handleChange calcPlugins calcWatched "calc" calcSite).moves.quiet (by decide +kernel)
  obtain ⟨hshutdowns, -, hrenewed, -⟩ := handleChange_renews hold (by decide +kernel)
    (by decide +kernel : PluginFile.findLibrary calcWatched.files calcWatched.dir "calc" =
      some "p/calc.so")
    (fun plugin made ⟨_, _, hmade⟩ => by
      cases hmade
      rw [hplugin]
      decide +kernel)
    (fun _ _ _ => rfl) hquiet
  obtain ⟨hnew, -, henabled, hpath⟩ := hrenewed r hr
  exact ⟨old, r, hold, hplugin, hr, hnew, henabled, hshutdowns, hpath⟩

end Site

end PluginHost
