import PluginHost.Proofs.Watch.Reloading

/-!
# Handles without a plugin

The loader keeps a handle for each module, and the registry a record for each plugin; a handle
without a record is an orphan, since nothing will ever give it up again but a later load of the
same name. Where a change goes through the module, handle and record stay in step. There are two
ways out of step: a plugin whose module is gone is initialised again as it is, and when that
fails the record goes and the handle stays; and a plugin may register under another name than
the one that its module was loaded for.

* `Site.Strands`: the two ways.
* `Site.orphan_of_applyChange`, `Site.orphan_of_strands`: one change leaves no other orphan
  behind, and these it does.
* `Site.held_unless_stranded`: the orphans that a run of changes leaves behind.
* `Site.handle_left_behind`: one that is left behind.
-/
namespace PluginHost

variable {ω : Type}

namespace Site

/-- There is a handle for the name, and no plugin is registered under it. -/
def Orphan (s : Site ω) (name : String) : Prop :=
  s.loader.isLoaded name = true ∧ s.host.contains name = false

/-- Every name with a handle is registered. -/
def Held (s : Site ω) : Prop :=
  ∀ n, s.loader.isLoaded n = true → s.host.contains n = true

/-- The change of a file that is there leaves the plugin's handle without a record: the plugin
came from a module that is gone, and its initialisation leaves no record; or the instance that
the module made is registered under another name. -/
inductive Strands (P : Plugins ω) (watched : Watched ω) (path : String) (s : Site ω) :
    String → Prop where
  | reload {name : String} {kind : PluginFile.Kind}
      (hpath : PluginFile.classify (Text.utf8 path) = some (name, kind))
      (hexists : watched.files.pathExists path = true) (hcontains : s.host.contains name = true)
      (hloaded : s.loader.isLoaded name = true)
      (hlib : PluginFile.findLibrary watched.files watched.dir name = none)
      (hgone : (s.host.reload P name).2.contains name = false) : Strands P watched path s name
  | renamed {name lib : String} {kind : PluginFile.Kind} {plugin : Instance} {loader : Loader}
      {world : ω} (hpath : PluginFile.classify (Text.utf8 path) = some (name, kind))
      (hexists : watched.files.pathExists path = true) (hfree : s.host.contains name = false)
      (hlib : PluginFile.findLibrary watched.files watched.dir name = some lib)
      (hmanifest : s.host.allowsManifest watched.files
        (PluginFile.findManifest watched.files watched.dir name) = true)
      (hload : s.loader.load P watched.files lib name s.host.world = (.ok plugin, loader, world))
      (hok : (Host.register P plugin { s.host with world }).1 = .ok ())
      (hother : (P.descriptor plugin world).1.name ≠ name) : Strands P watched path s name

/-- Applies changes one after the other, each to a directory as it is by then. -/
def applyChanges (P : Plugins ω) (changes : List (Watched ω × String)) (s : Site ω) : Site ω :=
  changes.foldl (fun s c => s.applyChange P c.1 c.2) s

section
variable {P : Plugins ω} {watched : Watched ω} {s t : Site ω} {path name lib n : String}

/-! ## Other names -/

/-- For every other name the handle is as it was, and a record stays. -/
def Keeps (name : String) (s t : Site ω) : Prop :=
  ∀ n, n ≠ name → t.loader.handles.get? n = s.loader.handles.get? n ∧
    (s.host.contains n = true → t.host.contains n = true)

theorem Retains.keeps (hr : Retains name s t) : Keeps name s t := fun n hn =>
  ⟨hr.handles n hn, fun hcontains =>
    (NameMap.contains_iff.1 hcontains).elim fun _ hrecord =>
      NameMap.contains_iff.2 ⟨_, hr.records hn hrecord⟩⟩

/-- Where a name keeps what it has, it is no orphan unless it was one. -/
theorem Keeps.orphan (hk : Keeps name s t) (hn : n ≠ name) (ho : t.Orphan n) : s.Orphan n := by
  obtain ⟨hhandle, hkept⟩ := hk n hn
  obtain ⟨hloaded, hfree⟩ := ho
  refine ⟨?_, ?_⟩
  · rw [Loader.isLoaded, NameMap.contains, ← hhandle]
    exact hloaded
  · cases hcontains : s.host.contains n with
    | false => rfl
    | true => rw [← hfree, hkept hcontains]

/-! ## One change -/

/-- Loading a module and registering its plugin leaves no orphan, unless the plugin is registered
under another name. -/
theorem orphan_of_loadModule {note : Note ω} {files : FileTree}
    (hquiet : Host.Quiet s.host (s.loadModule P note files lib name).2.host)
    (ho : (s.loadModule P note files lib name).2.Orphan name) :
    ∃ plugin loader world, s.loader.load P files lib name s.host.world =
        (.ok plugin, loader, world) ∧
      (Host.register P plugin { s.host with world }).1 = .ok () ∧
      (P.descriptor plugin world).1.name ≠ name := by
  have hend := Loader.load_ends P files lib name s.loader s.host.world
  rcases hload : s.loader.load P files lib name s.host.world with ⟨result, loader, world⟩
  rw [hload] at hend
  cases hend with
  | failed _ hhandles =>
    have hunloaded : loader.handles.get? name = none := (hhandles name).trans (if_pos rfl)
    rw [loadModule_of_failed hload hunloaded] at ho
    exact absurd ho.1 (by rw [Loader.isLoaded, NameMap.contains_eq_false_iff.2 hunloaded]; simp)
  | @loaded plugin =>
    rcases hcall : P.descriptor plugin world with ⟨d, asked⟩
    rcases hended : Host.noted note .register (P.descriptor plugin world).1.name
      (Host.register P plugin { s.host with world }) with ⟨ended, host⟩
    have hconcludes := loadModule_of_loaded hload hended
    obtain ⟨hresult, hrecords, hjournal⟩ := Host.ended_of_noted hended
    have hregister := Host.register_ends (h := { s.host with world }) hcall
    rw [hconcludes.host_eq] at hquiet
    obtain ⟨hloaded, hnone⟩ := ho
    rw [hconcludes.host_eq] at hnone
    have hok : ended = .ok () := by
      rcases ended with (e | m) | _
      · rcases hconcludes.loader_eq with ⟨-, hkept⟩ | ⟨hgiven, -⟩
        · rw [hkept ⟨e, rfl⟩] at hnone
          cases hnone
        · have hunloaded : (loader.unload name).handles.get? name = none :=
            (Loader.get?_unload ..).trans (if_pos rfl)
          rw [hgiven, Loader.isLoaded, NameMap.contains_eq_false_iff.2 hunloaded] at hloaded
          cases hloaded
      · exact absurd hresult (hregister.not_panicked (hquiet.of_journal hjournal) m)
      · rfl
    rw [hok] at hresult
    rw [hresult] at hregister
    refine ⟨plugin, loader, world, rfl, hresult, fun hname => ?_⟩
    have hcontains := hregister.present
    rw [hcall] at hname
    rw [hname, Host.contains, hrecords] at hcontains
    rw [Host.contains, hcontains] at hnone
    cases hnone

theorem orphan_of_handleChange {kind : PluginFile.Kind}
    (hpath : PluginFile.classify (Text.utf8 path) = some (name, kind))
    (hexists : watched.files.pathExists path = true)
    (hquiet : Host.Quiet s.host (s.handleChange P watched name).host)
    (ho : (s.handleChange P watched name).Orphan name) :
    s.Orphan name ∨ s.Strands P watched path name := by
  have hway := handleChange_goes P watched name s
  generalize s.handleChange P watched name = t at hquiet ho hway
  cases hway with
  | idle => exact Or.inl ho
  | install hfree hlib hmanifest =>
    obtain ⟨plugin, loader, world, hload, hok, hother⟩ := orphan_of_loadModule hquiet ho
    exact Or.inr (.renamed hpath hexists (NameMap.contains_eq_false_iff.2 hfree) hlib hmanifest
      hload hok hother)
  | renew hold =>
    have hstep := (reloadModule_in_step hold hquiet).1
    rw [ho.1, ho.2] at hstep
    cases hstep
  | @revive old hold hmodule =>
    obtain ⟨hloaded, hgone⟩ := ho
    rw [Host.contains, Host.noted_records] at hgone
    exact Or.inr (.reload hpath hexists (NameMap.contains_iff.2 ⟨old, hold⟩) hloaded
      (hmodule hloaded) hgone)

theorem orphan_of_handleRemoval
    (hquiet : Host.Quiet s.host (s.handleRemoval P watched name).host)
    (ho : (s.handleRemoval P watched name).Orphan name) : s.Orphan name := by
  cases hr : s.host.records.get? name with
  | none =>
    rw [handleRemoval_of_absent (NameMap.contains_eq_false_iff.2 hr)] at ho
    exact ho
  | some old =>
    have hunloaded : (s.loader.unload name).isLoaded name = false :=
      NameMap.contains_eq_false_iff.2 ((Loader.get?_unload ..).trans (if_pos rfl))
    rcases hended : Host.noted watched.note .unregister name (s.host.evict P name) with
      ⟨result, host⟩
    obtain ⟨hresult, -, hjournal⟩ := Host.ended_of_noted hended
    rw [handleRemoval_of_present (NameMap.contains_iff.2 ⟨old, hr⟩) hended] at hquiet ho
    rcases result with (e | m) | _
    · rw [ho.1] at hunloaded
      cases hunloaded
    · exact absurd hresult ((Host.evict_ends hr (hquiet.of_journal hjournal)).1 m)
    · rw [ho.1] at hunloaded
      cases hunloaded

/-- After a change during which no call panicked, an orphan was one before, or the change
stranded it. -/
theorem orphan_of_applyChange (hquiet : Host.Quiet s.host (s.applyChange P watched path).host)
    (ho : (s.applyChange P watched path).Orphan n) :
    s.Orphan n ∨ s.Strands P watched path n := by
  cases hpath : PluginFile.classify (Text.utf8 path) with
  | none =>
    rw [applyChange_of_unrecognized hpath] at ho
    exact Or.inl ho
  | some file =>
    obtain ⟨name, kind⟩ := file
    cases hexists : watched.files.pathExists path with
    | true =>
      rw [applyChange_of_exists hpath hexists] at hquiet ho
      by_cases hn : n = name
      · subst hn
        exact orphan_of_handleChange hpath hexists hquiet ho
      · exact Or.inl ((retains_handleChange P watched name s).keeps.orphan hn ho)
    | false =>
      rw [applyChange_of_missing hpath hexists] at hquiet ho
      by_cases hn : n = name
      · subst hn
        exact Or.inl (orphan_of_handleRemoval hquiet ho)
      · exact Or.inl ((spares_handleRemoval P watched name s).retains.keeps.orphan hn ho)

/-- What a change strands is an orphan after it. -/
theorem orphan_of_strands (hs : s.Strands P watched path n) :
    (s.applyChange P watched path).Orphan n := by
  cases hs with
  | reload hpath hexists hcontains hloaded hlib hgone =>
    rw [applyChange_of_exists hpath hexists, handleChange_of_no_module hcontains fun _ => hlib]
    refine ⟨hloaded, ?_⟩
    rw [Host.contains, Host.noted_records]
    exact hgone
  | @renamed lib kind plugin loader world hpath hexists hfree hlib hmanifest hload hok hother =>
    rw [applyChange_of_exists hpath hexists, handleChange_of_absent hfree,
      tryLoad_of_allowed hlib hmanifest]
    rcases hcall : P.descriptor plugin world with ⟨d, asked⟩
    rw [hcall] at hother
    rcases hended : Host.noted watched.note .register (P.descriptor plugin world).1.name
      (Host.register P plugin { s.host with world }) with ⟨ended, host⟩
    have hconcludes := loadModule_of_loaded hload hended
    obtain ⟨hresult, hrecords, -⟩ := Host.ended_of_noted hended
    have hloader := hconcludes.loader_eq.resolve_right (by
      rintro ⟨-, ⟨e, he⟩, -⟩
      rw [hok, he] at hresult
      cases hresult)
    have hend := Loader.load_ends P watched.files lib n s.loader s.host.world
    rw [hload] at hend
    cases hend with
    | loaded library _ hhandles =>
      refine ⟨?_, ?_⟩
      · rw [hloader.1]
        exact Loader.isLoaded_iff.2 ⟨_, (hhandles n).trans (if_pos rfl)⟩
      · rw [hconcludes.host_eq, Host.contains, ← hrecords]
        exact ((Host.register_ends (h := { s.host with world }) hcall).spares.contains
          (Ne.symm hother)).trans hfree

/-! ## A run of changes -/

theorem applyChanges_concat (P : Plugins ω) (changes : List (Watched ω × String))
    (watched : Watched ω) (path : String) (s : Site ω) :
    s.applyChanges P (changes ++ [(watched, path)]) =
      (s.applyChanges P changes).applyChange P watched path :=
  List.foldl_concat ..

theorem moves_applyChanges (P : Plugins ω) (changes : List (Watched ω × String)) (s : Site ω) :
    Host.Moves s.host (s.applyChanges P changes).host := by
  induction changes using List.reverseRecOn with
  | nil => exact .refl
  | append_singleton changes last ih =>
    obtain ⟨watched, path⟩ := last
    rw [applyChanges_concat]
    exact ih.trans (passes_applyChange P watched path _).moves

/-- Where every handle has a plugin, the orphans that a change leaves behind are those that it
strands; and each orphan at the end of a run of changes was stranded by one of them. -/
theorem held_unless_stranded (hheld : s.Held) :
    (∀ watched path, Host.Quiet s.host (s.applyChange P watched path).host →
      ∀ n, (s.applyChange P watched path).Orphan n ↔ s.Strands P watched path n) ∧
    ∀ changes, Host.Quiet s.host (s.applyChanges P changes).host →
      ∀ n, (s.applyChanges P changes).Orphan n →
        ∃ before watched path after, changes = before ++ (watched, path) :: after ∧
          (s.applyChanges P before).Strands P watched path n := by
  have hnone : ∀ n, ¬ s.Orphan n := fun n ho => by
    have := hheld n ho.1
    rw [ho.2] at this
    cases this
  refine ⟨fun watched path hquiet n => ⟨fun ho => ?_, orphan_of_strands⟩, fun changes => ?_⟩
  · exact (orphan_of_applyChange hquiet ho).resolve_left (hnone n)
  · -- the last change stranded the orphan, or one of those before it did
    induction changes using List.reverseRecOn with
    | nil => exact fun _ n ho => absurd ho (hnone n)
    | append_singleton changes last ih =>
      obtain ⟨watched, path⟩ := last
      intro hquiet n ho
      rw [applyChanges_concat] at hquiet ho
      obtain ⟨hbefore, hlast⟩ := hquiet.split (moves_applyChanges P changes s).journal_suffix
        (passes_applyChange P watched path _).moves.journal_suffix
      rcases orphan_of_applyChange hlast ho with ho | hstrands
      · obtain ⟨before, watched', path', after, rfl, hstrands⟩ := ih hbefore n ho
        exact ⟨before, watched', path', after ++ [(watched, path)], by simp, hstrands⟩
      · exact ⟨changes, watched, path, [], rfl, hstrands⟩

end

/-- A calculator that fails when it is shut down. -/
def stuckPlugins : Plugins Unit :=
  .constant (fun _ => ⟨"calc", "", "1.0.0", [], []⟩) fun stage _ =>
    if stage = .shutdown then .failed (.custom "stuck") else .ok

/-- A directory with one file. -/
def stuckWatched (name : String) (node : Node) : Watched Unit where
  dir := "p"
  files := ⟨[([], .directory), (["p"], .directory), (["p", name], node)]⟩
  note := Note.none

/-- The directory of the calculator's module. -/
def stuckModule : Watched Unit :=
  stuckWatched "calc.so" (.module (.complete apiVersion (some .minimal)))

/-- The directory after the module was taken out and the source was written. -/
def stuckSource : Watched Unit :=
  stuckWatched "calc.rs" (.file [])

/-- The change of the source strands the handle of the module. -/
theorem calc_stranded :
    ∃ before watched path after,
      [(stuckModule, "p/calc.so"), (stuckSource, "p/calc.rs")] =
        before ++ (watched, path) :: after ∧
      ((start ()).applyChanges stuckPlugins before).Strands stuckPlugins watched path "calc" := by
  have hheld : (start ()).Held := fun n hn => by cases hn
  refine (held_unless_stranded hheld).2 _ ?_ "calc" ⟨by decide +kernel, by decide +kernel⟩
  exact (moves_applyChanges stuckPlugins _ (start ())).quiet (by decide +kernel)

/-- A change during which no call panics can leave a handle without a plugin where there was
none. -/
theorem handle_left_behind :
    ¬ ∀ (s : Site Unit) watched path, s.Held →
      Host.Quiet s.host (s.applyChange stuckPlugins watched path).host →
      (s.applyChange stuckPlugins watched path).Held := by
  intro hall
  let s : Site Unit := (start ()).applyChange stuckPlugins stuckModule "p/calc.so"
  have hnames : s.loader.handles.names = ["calc"] := by decide +kernel
  have hheld : s.Held := by
    intro n hn
    rw [Loader.isLoaded, ← NameMap.mem_names_iff, hnames, List.mem_singleton] at hn
    subst hn
    decide +kernel
  have hquiet : Host.Quiet s.host (s.applyChange stuckPlugins stuckSource "p/calc.rs").host :=
    (passes_applyChange stuckPlugins stuckSource "p/calc.rs" s).moves.quiet (by decide +kernel)
  have hcontains := hall s stuckSource "p/calc.rs" hheld hquiet "calc" (by decide +kernel)
  revert hcontains
  decide +kernel

end Site

end PluginHost
