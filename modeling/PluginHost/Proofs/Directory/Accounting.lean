import PluginHost.Proofs.Directory.Startup
import PluginHost.Proofs.Registry.Atomicity
import PluginHost.Proofs.Watch.Handles
import PluginHost.Proofs.Watch.Rescan
import PluginHost.Scripted

/-!
# The report of a load

A directory can be loaded into a site that has plugins, and handles, of the very names that it
provides. Every module is accounted for once, as loaded or as failed, and what became of one
leaves the names of all others alone. Who failed and was not there before is not there
afterwards, unless nothing but a route was rejected; then it is registered and has its handle.

A plugin is asked for its name twice, by the loader and then by the registry. All of this is said
of plugins that give both the same answer.

* `Plugins.KeepsNames`: what is asked of the plugins.
* `Settles`: what became of one module; `loadModule_ends` says that it is one of three things.
* `LoadReport.Covers`, `Accounts`: a report against the names of the modules, and against what is
  there afterwards.
* `Accounts.cons`: one more module, before the others.
* `loadDirectory_accounts`: the whole directory.
* `calc_registered_as_other`: a plugin with two names, of which the report knows the first.
-/
namespace PluginHost

variable {ω : Type}

/-- A plugin's name is its key, and it does not change by being asked for. -/
def Plugins.KeepsNames (P : Plugins ω) : Prop :=
  ∀ plugin w,
    (P.descriptor plugin (P.descriptor plugin w).2).1.name = (P.descriptor plugin w).1.name

theorem Scripted.keepsNames : Scripted.plugins.KeepsNames :=
  fun _ _ => rfl

/-- Nothing but the routes of the plugin was refused. -/
def Shortfall.OfRoutes (name : String) (why : Shortfall) : Prop :=
  ∃ rejection, why = .notRegistered (.routeBinding name rejection)

theorem Shortfall.not_ofRoutes_newerRuntime (name : String) :
    ¬ Shortfall.newerRuntime.OfRoutes name := by
  rintro ⟨_, h⟩
  cases h

theorem Shortfall.not_ofRoutes_notLoaded (name : String) (e : LoadError) :
    ¬ (Shortfall.notLoaded e).OfRoutes name := by
  rintro ⟨_, h⟩
  cases h

theorem Shortfall.ofRoutes_notRegistered {name : String} {e : RegistryError} :
    (Shortfall.notRegistered e).OfRoutes name ↔ ∃ rejection, e = .routeBinding name rejection :=
  exists_congr fun _ => Shortfall.notRegistered.injEq _ _ ▸ Iff.rfl

namespace Site

/-- What became of the module of a name: it was loaded, or `why` it failed. No other name is
touched, and if the handle had a plugin before, it has one now. Who was not there before is there
if it was loaded, or if it failed for a route. -/
structure Settles (name : String) (s : Site ω) (why : Option Shortfall) (t : Site ω) : Prop where
  spares : Spares name s t
  held : (s.loader.isLoaded name = true → s.host.contains name = true) →
    t.loader.isLoaded name = true → t.host.contains name = true
  loaded : why = none → t.host.contains name = true ∧ t.loader.isLoaded name = true
  failed : ∀ {w}, why = some w → s.host.contains name = false → s.loader.isLoaded name = false →
    t.loader.isLoaded name = t.host.contains name ∧
      (t.host.contains name = true ↔ w.OfRoutes name)

/-- How the load of a module ends when no call panics. -/
inductive ModuleEnd (name : String) (s : Site ω) : Except ModuleStop Unit → Site ω → Prop where
  | loaded {t : Site ω} (hsettles : Settles name s none t) : ModuleEnd name s (.ok ()) t
  | notLoaded {e : LoadError} {t : Site ω} (hsettles : Settles name s (some (.notLoaded e)) t) :
      ModuleEnd name s (.error (.notLoaded e)) t
  | notRegistered {e : RegistryError} {t : Site ω}
      (hsettles : Settles name s (some (.notRegistered e)) t) :
      ModuleEnd name s (.error (.notRegistered e)) t

section
variable {P : Plugins ω} {note : Note ω} {files : FileTree} {path name : String}
  {loader : Loader} {world : ω} {plugin : Instance} {s t u : Site ω}

/-! ## One module -/

/-- Nothing is done for a plugin that asks for another runtime. -/
theorem settles_newerRuntime (name : String) (s : Site ω) :
    Settles name s (some .newerRuntime) s where
  spares := ⟨.refl _ _, fun _ _ => rfl⟩
  held h := h
  loaded h := by cases h
  failed {w} hw hfree hunloaded := by
    cases hw
    exact ⟨hunloaded.trans hfree.symm,
      iff_of_false (Bool.eq_false_iff.1 hfree) (Shortfall.not_ofRoutes_newerRuntime name)⟩

/-- Nobody is registered without a module. -/
theorem moduleEnd_of_failed {e : LoadError}
    (hload : s.loader.load P files path name s.host.world = (.error e, loader, world))
    (hhandles : ∀ n, loader.handles.get? n = if n = name then none else s.loader.handles.get? n) :
    ModuleEnd name s (s.loadModule P note files path name).1
      (s.loadModule P note files path name).2 := by
  have hnone : loader.handles.get? name = none := (hhandles name).trans (if_pos rfl)
  have hunloaded : loader.isLoaded name = false := NameMap.contains_eq_false_iff.2 hnone
  have hleft : (s.loadModule P note files path name).2 = ⟨{ s.host with world }, loader⟩ :=
    loadModule_of_failed hload hnone
  have hresult : (s.loadModule P note files path name).1 = .error (.notLoaded e) := by
    rw [loadModule, load_eq hload]
  rw [hleft, hresult]
  exact .notLoaded
    { spares := ⟨.refl _ _, fun n hn => (hhandles n).trans (if_neg hn)⟩
      held := fun _ h => by
        rw [hunloaded] at h
        cases h
      loaded := fun h => by cases h
      failed := fun hw hfree _ => by
        cases hw
        exact ⟨hunloaded.trans hfree.symm,
          iff_of_false (Bool.eq_false_iff.1 hfree) (Shortfall.not_ofRoutes_notLoaded name e)⟩ }

/-- Who was refused and had no record has one exactly if a route was rejected. -/
theorem contains_of_refused {h k : Host ω} {e : RegistryError}
    (hname : (P.descriptor plugin h.world).1.name = name)
    (hrefused : h.register P plugin = (.error (.refused e), k)) (hfree : h.contains name = false) :
    k.contains name = true ↔ ∃ rejection, e = .routeBinding name rejection := by
  subst hname
  cases Host.refusalEnd_of_register hrefused with
  | checked hkind =>
    refine iff_of_false (Bool.eq_false_iff.1 hfree) ?_
    rintro ⟨rejection, rfl⟩
    exact absurd hkind (by decide : "RouteBinding" ∉ validationKinds)
  | failed hrecords =>
    rw [Host.contains, hrecords]
    refine iff_of_false (Bool.eq_false_iff.1 hfree) ?_
    rintro ⟨_, h⟩
    cases h
  | @rejected rejection _ hpartly =>
    obtain ⟨_, r, _, _, _, _, _, _, _, hr, -⟩ := hpartly
    exact iff_of_true (NameMap.contains_iff.2 ⟨r, hr⟩) ⟨rejection, rfl⟩

/-- After a refusal the handle is there exactly if the plugin is. -/
theorem Concludes.isLoaded_of_refused {e : RegistryError} {host : Host ω}
    (hc : Concludes name loader (.error (.refused e)) host t)
    (hopened : loader.isLoaded name = true) :
    t.loader.isLoaded name = t.host.contains name := by
  rw [hc.host_eq]
  rcases hc.loader_eq with ⟨hkept, hthere⟩ | ⟨hgiven, -, hgone⟩
  · rw [hkept, hopened, hthere ⟨e, rfl⟩]
  · rw [hgiven, hgone, Loader.isLoaded, NameMap.contains_eq_false_iff, Loader.get?_unload,
      if_pos rfl]

/-- What is said of a module whose plugin the registry ended so with. -/
theorem loadModule_result {result : Except Stop Unit} {host : Host ω}
    (hload : s.loader.load P files path name s.host.world = (.ok plugin, loader, world))
    (hended : Host.noted note .register (P.descriptor plugin world).1.name
      (Host.register P plugin { s.host with world }) = (result, host)) :
    (s.loadModule P note files path name).1 =
      match result with
      | .ok () => .ok ()
      | .error (.refused e) => .error (.notRegistered e)
      | .error (.panicked m) => .error (.panicked m) := by
  rw [loadModule, load_eq hload]
  simp only [hended]
  rcases result with (e | m) | _ <;> rfl

/-- Who keeps the name is asked for it again and gives the one that it was loaded for. -/
theorem name_of_provides (hsame : P.KeepsNames)
    (hprovides : Loader.Provides P files path name s.host.world plugin world) :
    (P.descriptor plugin world).1.name = name := by
  obtain ⟨made, d, -, hasked, rfl, -⟩ := hprovides
  have hagain := hsame plugin made
  rwa [hasked] at hagain

/-- Whoever is refused keeps the handle with the record. -/
theorem settles_of_refused {e : RegistryError} {host k : Host ω}
    (hname : (P.descriptor plugin world).1.name = name)
    (hrefused : Host.register P plugin { s.host with world } = (.error (.refused e), k))
    (hrecords : k.records = host.records)
    (hc : Concludes name loader (.error (.refused e)) host t)
    (hspares : Spares name s t) (hopened : loader.isLoaded name = true) :
    Settles name s (some (.notRegistered e)) t where
  spares := hspares
  held _ h := hc.isLoaded_of_refused hopened ▸ h
  loaded h := by cases h
  failed {w} hw hfree _ := by
    cases hw
    refine ⟨hc.isLoaded_of_refused hopened, ?_⟩
    rw [hc.host_eq, Host.contains, ← hrecords, Shortfall.ofRoutes_notRegistered]
    exact contains_of_refused hname hrefused hfree

theorem settles_of_registered {host : Host ω} (hin : host.contains name = true)
    (hc : Concludes name loader (.ok ()) host t) (hspares : Spares name s t)
    (hopened : loader.isLoaded name = true) : Settles name s none t where
  spares := hspares
  held _ _ := hc.host_eq ▸ hin
  loaded _ := by
    refine ⟨hc.host_eq ▸ hin, ?_⟩
    rcases hc.loader_eq with ⟨hkept, -⟩ | ⟨-, ⟨e, he⟩, -⟩
    · exact hkept ▸ hopened
    · cases he
  failed hw := by cases hw

/-- The plugin of a module that was loaded is registered, or refused. -/
theorem moduleEnd_of_loaded (hsame : P.KeepsNames)
    (hquiet : Host.Quiet s.host (s.loadModule P note files path name).2.host)
    (hload : s.loader.load P files path name s.host.world = (.ok plugin, loader, world))
    (hprovides : Loader.Provides P files path name s.host.world plugin world)
    {library : Nat} (hhandles : ∀ n, loader.handles.get? n =
      if n = name then some ⟨path, library⟩ else s.loader.handles.get? n) :
    ModuleEnd name s (s.loadModule P note files path name).1
      (s.loadModule P note files path name).2 := by
  rcases hended : Host.noted note .register (P.descriptor plugin world).1.name
    (Host.register P plugin { s.host with world }) with ⟨result, host⟩
  have hc := loadModule_of_loaded hload hended
  have hsaid := loadModule_result hload hended
  generalize s.loadModule P note files path name = left at hquiet hc hsaid ⊢
  obtain ⟨outcome, t⟩ := left
  obtain ⟨hresult, hrecords, hjournal⟩ := Host.ended_of_noted hended
  have hname := name_of_provides hsame hprovides
  have hend := Host.register_ends (h := { s.host with world })
    (rfl : P.descriptor plugin world =
      ((P.descriptor plugin world).1, (P.descriptor plugin world).2))
  have hspares : Spares name s t :=
    ⟨fun n hn => hc.host_eq ▸ hrecords ▸ hend.spares n (hname ▸ hn),
      fun n hn => (hc.handles hn).trans ((hhandles n).trans (if_neg hn))⟩
  have hopened : loader.isLoaded name = true :=
    Loader.isLoaded_iff.2 ⟨_, (hhandles name).trans (if_pos rfl)⟩
  rcases result with (e | m) | _
  · obtain rfl : outcome = .error (.notRegistered e) := hsaid
    exact .notRegistered
      (settles_of_refused hname (Prod.ext hresult rfl) hrecords hc hspares hopened)
  · exact absurd hresult
      (hend.not_panicked (hquiet.of_journal (hjournal.trans (hc.host_eq ▸ rfl))) m)
  · obtain rfl : outcome = .ok () := hsaid
    rw [hresult] at hend
    refine .loaded (settles_of_registered ?_ hc hspares hopened)
    rw [Host.contains, ← hrecords]
    exact hname ▸ hend.present

/-- When no call panics, the load of a module ends in one of the three ways. -/
theorem loadModule_ends (hsame : P.KeepsNames) (note : Note ω) (files : FileTree)
    (path name : String) (s : Site ω)
    (hquiet : Host.Quiet s.host (s.loadModule P note files path name).2.host) :
    ModuleEnd name s (s.loadModule P note files path name).1
      (s.loadModule P note files path name).2 := by
  have hend := Loader.load_ends P files path name s.loader s.host.world
  rcases hload : s.loader.load P files path name s.host.world with ⟨result, loader, world⟩
  rw [hload] at hend
  cases hend with
  | failed _ hhandles => exact moduleEnd_of_failed hload hhandles
  | loaded library hprovides hhandles =>
    exact moduleEnd_of_loaded hsame hquiet hload hprovides hhandles

end

end Site

/-! ## One module after the other -/

namespace LoadReport

/-- A report that goes on with another. -/
def append (report more : LoadReport) : LoadReport :=
  ⟨report.loaded ++ more.loaded, report.failed ++ more.failed⟩

/-- A report with one module before the others. -/
def cons (name : String) (why : Option Shortfall) (report : LoadReport) : LoadReport :=
  match why with
  | none => { report with loaded := name :: report.loaded }
  | some w => { report with failed := (name, w) :: report.failed }

theorem append_empty (report : LoadReport) : report.append empty = report := by
  simp [append, empty]

/-- A report with one module behind the others. -/
def add (report : LoadReport) (name : String) (why : Option Shortfall) : LoadReport :=
  match why with
  | none => report.addLoaded name
  | some w => report.addFailed name w

theorem add_append (report : LoadReport) (name : String) (why : Option Shortfall)
    (more : LoadReport) :
    (report.add name why).append more = report.append (more.cons name why) := by
  cases why <;> simp [append, add, addLoaded, addFailed, cons]

end LoadReport

/-- The report covers the names: each is loaded or failed, and is so once, in their order. -/
structure LoadReport.Covers (report : LoadReport) (names : List String) : Prop where
  each : (report.loaded ++ report.failed.map (·.1)).Perm names
  loaded_in_order : report.loaded.Sublist names
  failed_in_order : (report.failed.map (·.1)).Sublist names

/-- What became of the names is as the report says. Whoever is loaded is registered and has a
handle; who failed and was not there before is not there, or failed for a route; no other name is
touched; and no handle is left without its plugin. -/
structure Accounts (names : List String) (s : Site ω) (report : LoadReport) (t : Site ω) :
    Prop where
  loaded : ∀ n ∈ report.loaded, t.host.contains n = true ∧ t.loader.isLoaded n = true
  failed : ∀ f ∈ report.failed, s.host.contains f.1 = false → s.loader.isLoaded f.1 = false →
    t.loader.isLoaded f.1 = t.host.contains f.1 ∧
      (t.host.contains f.1 = true ↔ f.2.OfRoutes f.1)
  records : ∀ n ∉ names, t.host.records.get? n = s.host.records.get? n
  handles : ∀ n ∉ names, t.loader.handles.get? n = s.loader.handles.get? n
  held : s.Held → t.Held

section
variable {P : Plugins ω} {files : FileTree} {names : List String} {name : String}
  {why : Option Shortfall} {report : LoadReport} {ds : List Discovered} {s t u : Site ω}

theorem LoadReport.covers_empty : LoadReport.empty.Covers [] :=
  ⟨.refl _, .refl _, .refl _⟩

theorem LoadReport.Covers.cons (h : report.Covers names) (name : String)
    (why : Option Shortfall) : (report.cons name why).Covers (name :: names) where
  each := by
    cases why with
    | none => exact h.each.cons name
    | some w => exact List.perm_middle.trans (h.each.cons name)
  loaded_in_order := by
    cases why with
    | none => exact h.loaded_in_order.cons_cons name
    | some w => exact h.loaded_in_order.cons name
  failed_in_order := by
    cases why with
    | none => exact h.failed_in_order.cons name
    | some w => exact h.failed_in_order.cons_cons name

theorem accounts_nil (s : Site ω) : Accounts [] s .empty s where
  loaded _ h := by cases h
  failed _ h := by cases h
  records _ _ := rfl
  handles _ _ := rfl
  held h := h

theorem Site.Settles.contains (h : Site.Settles name s why u) {n : String} (hn : n ≠ name) :
    u.host.contains n = s.host.contains n :=
  h.spares.records.contains hn

theorem Site.Settles.isLoaded (h : Site.Settles name s why u) {n : String} (hn : n ≠ name) :
    u.loader.isLoaded n = s.loader.isLoaded n := by
  rw [Loader.isLoaded, NameMap.contains, h.spares.handles n hn]
  rfl

theorem Site.Settles.heldAll (h : Site.Settles name s why u) (hs : s.Held) : u.Held := by
  intro n hloaded
  by_cases hn : n = name
  · exact hn ▸ h.held (hs name) (hn ▸ hloaded)
  · rw [h.contains hn]
    exact hs n (h.isLoaded hn ▸ hloaded)

theorem Accounts.contains (h : Accounts names s report t) {n : String} (hn : n ∉ names) :
    t.host.contains n = s.host.contains n := by
  rw [Host.contains, NameMap.contains, h.records n hn]
  rfl

theorem Accounts.isLoaded (h : Accounts names s report t) {n : String} (hn : n ∉ names) :
    t.loader.isLoaded n = s.loader.isLoaded n := by
  rw [Loader.isLoaded, NameMap.contains, h.handles n hn]
  rfl

/-- One more module, before the others. -/
theorem Accounts.cons (hfirst : Site.Settles name s why u) (hrest : Accounts names u report t)
    (hcovers : report.Covers names) (hnew : name ∉ names) :
    Accounts (name :: names) s (report.cons name why) t where
  loaded n hn := by
    cases why with
    | none =>
      rcases List.mem_cons.1 hn with rfl | hn
      · rw [hrest.contains hnew, hrest.isLoaded hnew]
        exact hfirst.loaded rfl
      · exact hrest.loaded n hn
    | some w => exact hrest.loaded n hn
  failed f hf hfree hunloaded := by
    have hlater : f ∈ report.failed → t.loader.isLoaded f.1 = t.host.contains f.1 ∧
        (t.host.contains f.1 = true ↔ f.2.OfRoutes f.1) := fun hf => by
      have hne : f.1 ≠ name := fun heq =>
        hnew (heq ▸ hcovers.failed_in_order.subset (List.mem_map_of_mem hf))
      exact hrest.failed f hf ((hfirst.contains hne).trans hfree)
        ((hfirst.isLoaded hne).trans hunloaded)
    cases why with
    | none => exact hlater hf
    | some w =>
      rcases List.mem_cons.1 hf with rfl | hf
      · rw [hrest.contains hnew, hrest.isLoaded hnew]
        exact hfirst.failed rfl hfree hunloaded
      · exact hlater hf
  records n hn := by
    rw [List.mem_cons, not_or] at hn
    exact (hrest.records n hn.2).trans (hfirst.spares.records n hn.1)
  handles n hn := by
    rw [List.mem_cons, not_or] at hn
    exact (hrest.handles n hn.2).trans (hfirst.spares.handles n hn.1)
  held hs := hrest.held (hfirst.heldAll hs)

namespace Site

/-- A module behind which others are loaded, unless a call panicked. -/
theorem loadEach_cons {d : Discovered} {path : String} {outcome : Except ModuleStop Unit}
    (hpath : d.library = some path) (hsupported : d.isSupported = true)
    (hload : s.loadModule P Note.none files path d.name = (outcome, u)) :
    s.loadEach P files report (d :: ds) =
      match outcome with
      | .ok () => u.loadEach P files (report.add d.name none) ds
      | .error (.notLoaded e) =>
        u.loadEach P files (report.add d.name (some (.notLoaded e))) ds
      | .error (.notRegistered e) =>
        u.loadEach P files (report.add d.name (some (.notRegistered e))) ds
      | .error (.panicked m) => (.error (.panicked m), u) := by
  rw [loadEach, hpath]
  simp only [hsupported, Bool.not_true, Bool.false_eq_true, if_false, hload]
  rcases outcome with (e | e | m) | _ <;> rfl

theorem loadEach_cons_of_unsupported {d : Discovered} {path : String}
    (hpath : d.library = some path) (hsupported : d.isSupported = false) :
    s.loadEach P files report (d :: ds) =
      s.loadEach P files (report.add d.name (some .newerRuntime)) ds := by
  rw [loadEach, hpath]
  simp [hsupported, LoadReport.add]

theorem loadEach_cons_of_none {d : Discovered} (hpath : d.library = none) :
    s.loadEach P files report (d :: ds) = s.loadEach P files report ds := by
  rw [loadEach, hpath]

theorem moves_loadEach (P : Plugins ω) (files : FileTree) (report : LoadReport)
    (ds : List Discovered) (s : Site ω) :
    Host.Moves s.host (s.loadEach P files report ds).2.host := by
  induction ds generalizing report s with
  | nil => exact .refl
  | cons d ds ih =>
    cases hpath : d.library with
    | none =>
      rw [loadEach_cons_of_none hpath]
      exact ih report s
    | some path =>
      cases hsupported : d.isSupported with
      | false =>
        rw [loadEach_cons_of_unsupported hpath hsupported]
        exact ih _ s
      | true =>
        have hfirst := (passes_loadModule P Note.none files path d.name s).moves
        rcases hload : s.loadModule P Note.none files path d.name with ⟨outcome, u⟩
        rw [hload] at hfirst
        rw [loadEach_cons hpath hsupported hload]
        rcases outcome with (e | e | m) | _
        · exact hfirst.trans (ih _ u)
        · exact hfirst.trans (ih _ u)
        · exact hfirst
        · exact hfirst.trans (ih _ u)

/-- What becomes of the first of some modules when no call panics. -/
theorem loadEach_begins (hsame : P.KeepsNames) {d : Discovered} {path : String}
    (hpath : d.library = some path)
    (hquiet : Host.Quiet s.host (s.loadEach P files report (d :: ds)).2.host) :
    ∃ why u, Settles d.name s why u ∧ s.host.journal <:+ u.host.journal ∧
      s.loadEach P files report (d :: ds) = u.loadEach P files (report.add d.name why) ds := by
  cases hsupported : d.isSupported with
  | false =>
    exact ⟨_, s, settles_newerRuntime d.name s, List.suffix_refl _,
      loadEach_cons_of_unsupported hpath hsupported⟩
  | true =>
    have hends := loadModule_ends hsame Note.none files path d.name s
    have hsuffix := (passes_loadModule P Note.none files path d.name s).moves.journal_suffix
    rcases hload : s.loadModule P Note.none files path d.name with ⟨outcome, u⟩
    rw [hload] at hends hsuffix
    rw [loadEach_cons hpath hsupported hload] at hquiet ⊢
    have hfirst : Host.Quiet s.host u.host := by
      rcases outcome with (e | e | m) | _
      · exact (hquiet.split hsuffix (moves_loadEach P files _ ds u).journal_suffix).1
      · exact (hquiet.split hsuffix (moves_loadEach P files _ ds u).journal_suffix).1
      · exact hquiet
      · exact (hquiet.split hsuffix (moves_loadEach P files _ ds u).journal_suffix).1
    cases hends hfirst with
    | loaded hsettles => exact ⟨_, u, hsettles, hsuffix, rfl⟩
    | notLoaded hsettles => exact ⟨_, u, hsettles, hsuffix, rfl⟩
    | notRegistered hsettles => exact ⟨_, u, hsettles, hsuffix, rfl⟩

/-- The modules one after the other are all accounted for. -/
theorem loadEach_accounts (hsame : P.KeepsNames) (hnodup : (modulesOf ds).Nodup)
    (hquiet : Host.Quiet s.host (s.loadEach P files report ds).2.host) :
    ∃ more t, s.loadEach P files report ds = (.ok (report.append more), t) ∧
      more.Covers (modulesOf ds) ∧ Accounts (modulesOf ds) s more t := by
  induction ds generalizing report s with
  | nil =>
    exact ⟨.empty, s, by rw [loadEach, LoadReport.append_empty], LoadReport.covers_empty,
      accounts_nil s⟩
  | cons d ds ih =>
    cases hpath : d.library with
    | none =>
      rw [loadEach_cons_of_none hpath] at hquiet ⊢
      rw [modulesOf_cons_of_none hpath] at hnodup ⊢
      exact ih hnodup hquiet
    | some path =>
      rw [modulesOf_cons_of_some hpath, List.nodup_cons] at hnodup
      rw [modulesOf_cons_of_some hpath]
      obtain ⟨why, u, hsettles, hsuffix, hgoes⟩ := loadEach_begins hsame hpath hquiet
      rw [hgoes] at hquiet ⊢
      obtain ⟨-, hrest⟩ := hquiet.split hsuffix (moves_loadEach P files _ ds u).journal_suffix
      obtain ⟨more, t, hmore, hcovers, haccounts⟩ := ih hnodup.2 hrest
      refine ⟨more.cons d.name why, t, ?_, hcovers.cons d.name why,
        haccounts.cons hsettles hcovers hnodup.1⟩
      rw [hmore, LoadReport.add_append]

/-- When plugins keep their names and no call panics: a directory that cannot be read, or whose
manifests make a cycle, is not loaded, and then nothing has changed. Any other is; its report
covers its modules in load order, and what became of them is as the report says. -/
theorem loadDirectory_accounts {P : Plugins ω} (hsame : P.KeepsNames) (files : FileTree)
    (dir : String) (s : Site ω)
    (hquiet : Host.Quiet s.host (s.loadDirectory P files dir).2.host) :
    (discover files dir = none ∧ s.loadDirectory P files dir = (.error (.failed .unreadable), s)) ∨
    (∃ found nodes, discover files dir = some found ∧ loadOrder found = .error nodes ∧
      s.loadDirectory P files dir = (.error (.failed (.cycle nodes)), s)) ∨
    ∃ found ordered report t, discover files dir = some found ∧ loadOrder found = .ok ordered ∧
      s.loadDirectory P files dir = (.ok report, t) ∧ (modulesOf ordered).Nodup ∧
      (∀ n, n ∈ modulesOf ordered ↔ ∃ d ∈ found, d.name = n ∧ d.library.isSome = true) ∧
      report.Covers (modulesOf ordered) ∧ Accounts (modulesOf ordered) s report t := by
  unfold loadDirectory at hquiet ⊢
  cases hfound : discover files dir with
  | none => exact Or.inl ⟨rfl, rfl⟩
  | some found =>
    simp only [hfound] at hquiet ⊢
    cases hordered : loadOrder found with
    | error nodes => exact Or.inr (Or.inl ⟨found, nodes, rfl, hordered, rfl⟩)
    | ok ordered =>
      simp only [hordered] at hquiet ⊢
      have hnames : (found.map (·.name)).Nodup := by
        obtain ⟨paths, -, rfl⟩ := files_of_discover hfound
        exact nodup_result _
      obtain ⟨hperm, -⟩ := perm_of_loadOrder hnames hordered
      have hnodup : (modulesOf ordered).Nodup :=
        nodup_modulesOf ((hperm.map _).nodup_iff.2 hnames)
      obtain ⟨report, t, hload, haccounts⟩ := loadEach_accounts hsame hnodup hquiet
      refine Or.inr (Or.inr ⟨found, ordered, report, t, rfl, hordered, hload, hnodup, fun n => ?_,
        haccounts⟩)
      rw [mem_modulesOf]
      exact exists_congr fun d => and_congr_left fun _ => hperm.mem_iff

end Site

end

/-! ## A lamp and its cable -/

/-- A site with a route table, into which the lamp and its cable are loaded. -/
def cableSite : Site Unit :=
  ⟨(Host.start ()).setRouter (some ⟨"main", none⟩), .empty⟩

/-- The cable fails for its route, and is there with its handle. -/
theorem cable_accounted : cablePlugins.KeepsNames ∧
    Host.Quiet cableSite.host (cableSite.loadDirectory cablePlugins (cableFiles []) "p").2.host ∧
    ∃ t, cableSite.loadDirectory cablePlugins (cableFiles []) "p" = (.ok cableReport, t) ∧
      t.host.contains "cable" = true ∧ t.loader.isLoaded "cable" = true ∧ t.Held := by
  have hsame : cablePlugins.KeepsNames := fun _ _ => rfl
  have hquiet : Host.Quiet cableSite.host
      (cableSite.loadDirectory cablePlugins (cableFiles []) "p").2.host :=
    ⟨_, (List.append_nil _).symm, by decide +kernel⟩
  have hfound : discover (cableFiles []) "p" = some cableFound := by decide +kernel
  have hreport : (cableSite.loadDirectory cablePlugins (cableFiles []) "p").1 =
      .ok cableReport := by decide +kernel
  have hends := Site.loadDirectory_accounts hsame (cableFiles []) "p" cableSite hquiet
  refine ⟨hsame, hquiet, ?_⟩
  clear hquiet
  generalize cableSite.loadDirectory cablePlugins (cableFiles []) "p" = ended
    at hreport hends ⊢
  rcases hends with ⟨hnone, -⟩ | ⟨_, _, -, -, hfailed⟩ |
    ⟨_, _, report, t, -, -, hload, -, -, -, haccounts⟩
  · rw [hfound] at hnone
    cases hnone
  · rw [hfailed] at hreport
    cases hreport
  · subst hload
    obtain rfl : report = cableReport := Except.ok.inj hreport
    have hcable : ("cable", .notRegistered (.routeBinding "cable"
        ⟨.get, "/plugins/cable/:", "empty path parameter name"⟩)) ∈ cableReport.failed :=
      List.mem_cons_self
    obtain ⟨hagree, hthere⟩ := haccounts.failed _ hcable rfl rfl
    have hin : t.host.contains "cable" = true := hthere.2 ⟨_, rfl⟩
    exact ⟨t, rfl, hin, hagree.trans hin, haccounts.held fun n hn => by cases hn⟩

/-! ## A plugin with two names -/

/-- A plugin that has another name when it is asked again. -/
def twofoldPlugins : Plugins Bool where
  descriptor _ asked := (⟨if asked then "other" else "calc", "", "1.0.0", [], []⟩, true)
  routes _ asked := ([], asked)
  middlewares _ asked := ([], asked)
  attach _ asked := asked
  callback _ _ asked := (.ok, asked)
  execute _ params asked := (.answered params, asked)
  construct _ asked := (⟨0⟩, asked)
  intercept _ _ asked := (none, asked)
  serve _ _ asked := (.empty 200, asked)

/-- A directory with its module. -/
def twofoldFiles : FileTree :=
  ⟨[([], .directory), (["p"], .directory),
    (["p", "calc.so"], .module (.complete apiVersion (some .minimal)))]⟩

/-- A new site that has loaded the directory. -/
def twofoldLoaded : Except DirectoryStop LoadReport × Site Bool :=
  (Site.start false).loadDirectory twofoldPlugins twofoldFiles "p"

/-- Who does not keep its name is loaded under the first and registered under the second: the
report has one that is not registered, another name is touched, and the handle is left without
its plugin. -/
theorem calc_registered_as_other : (Site.start (ω := Bool) false).Held ∧
    Host.Quiet (Host.start false) twofoldLoaded.2.host ∧
    twofoldLoaded.1 = .ok ⟨["calc"], []⟩ ∧
    twofoldLoaded.2.host.contains "calc" = false ∧ twofoldLoaded.2.host.contains "other" = true ∧
    twofoldLoaded.2.loader.isLoaded "calc" = true ∧ ¬ twofoldLoaded.2.Held := by
  have hgone : twofoldLoaded.2.host.contains "calc" = false := by decide +kernel
  have hopened : twofoldLoaded.2.loader.isLoaded "calc" = true := by decide +kernel
  refine ⟨?_, ⟨_, (List.append_nil _).symm, by decide +kernel⟩, by decide +kernel, hgone,
    by decide +kernel, hopened, fun hheld => ?_⟩
  · intro n hn
    cases hn
  · rw [hheld "calc" hopened] at hgone
    cases hgone

end PluginHost
