import PluginHost.Proofs.Directory.Loading
import PluginHost.Proofs.FileTree
import PluginHost.Proofs.Watch.Queue

/-!
# Watching a directory that was just loaded

When a watcher starts, every file that is there counts as changed: each plugin is shut down and
loaded again, as often as it has files, in the order of the paths and not of the dependencies, and
plugins that could not be loaded before may join in between. A plugin keeps its place all the same
if its module is found again and all that it needs keeps its place too. For then it reports what
it did, so all that it needs is there; and whoever has joined by then was checked against it.

* `Anchored`: plugins that keep their place.
* `Anchored.handleChange`: the change of a file that is there leaves them there.
* `anchored_of_boarded`: who keeps its place after a directory was loaded.
* `loaded_through_rescan`: what was loaded is there after the first scan.
-/
namespace PluginHost

variable {ω : Type}

/-- The plugins that are meant are registered, enabled and steadfast, have a handle, and report
what their modules in the watched directory offer; and all that they need is meant, too. -/
structure Anchored (P : Plugins ω) (watched : Watched ω) (made : Blueprint → Descriptor)
    (kept : String → Prop) (s : Site ω) : Prop where
  coherent : Coherent s.host.records
  offered : ∀ {n}, kept n → ∃ d, watched.offer made n = some d ∧ s.outline n = some (d, true) ∧
    ∀ m ∈ d.dependencies, kept m ∧ m ≠ n
  enabled : ∀ {n r}, kept n → s.host.records.get? n = some r → r.enabled = true
  steadfast : ∀ {n r}, kept n → s.host.records.get? n = some r →
    Steadfast P watched.note r.plugin r.descriptor s.host.world
  faithful : ∀ {n path}, kept n →
    PluginFile.findLibrary watched.files watched.dir n = some path →
      FaithfulAt P watched.note watched.files made path s.host.world

/-- A module offers plugins that have a name. -/
theorem isBlank_of_offered {files : FileTree} {made : Blueprint → Descriptor}
    {path name : String} {d : Descriptor} (h : files.offered made path name = some d) :
    Text.isBlank name = false := by
  unfold FileTree.offered at h
  split at h
  · split at h
    · rename_i hmade
      exact hmade.2.2
    · cases h
  · cases h

section
variable {P : Plugins ω} {watched : Watched ω} {made : Blueprint → Descriptor}
  {kept : String → Prop} {s : Site ω} {n path : String} {d : Descriptor}

/-- A plugin that keeps its place could be admitted next to all others. -/
theorem Anchored.admits (hs : Anchored P watched made kept s) (hn : kept n)
    (hd : watched.offer made n = some d) : s.outline.Admits d := by
  obtain ⟨e, he, houtline, hneeds⟩ := hs.offered hn
  obtain rfl : e = d := Option.some.inj (he.symm.trans hd)
  obtain ⟨path, -, hoffered⟩ := Option.bind_eq_some_iff.1 hd
  obtain ⟨-, rfl⟩ := made_of_offered hoffered
  refine ⟨isBlank_of_offered hoffered, fun m hm => ?_, fun m f loaded hm hf => ?_⟩
  · obtain ⟨hkept, hne⟩ := hneeds m hm
    obtain ⟨_, -, hother, -⟩ := hs.offered hkept
    exact ⟨hne, by rw [hother, Option.isSome_some]⟩
  · -- both are registered, so they were checked against each other
    obtain ⟨r, hr, hrd, -⟩ := Site.outline_eq_some.1 houtline
    obtain ⟨q, hq, hqf, -⟩ := Site.outline_eq_some.1 hf
    rw [← hrd, ← hqf]
    exact hs.coherent.compatible hr hq (Ne.symm hm)

/-- The change of a file loads a plugin that stands again, and it stands as before. -/
theorem Anchored.handleChange_self (hs : Anchored P watched made kept s) (hn : kept n) :
    (s.handleChange P watched n).outline n = s.outline n ∧
      ∀ r, (s.handleChange P watched n).host.records.get? n = some r → r.enabled = true ∧
        Steadfast P watched.note r.plugin r.descriptor (s.handleChange P watched n).host.world := by
  obtain ⟨d, hd, houtline, -⟩ := hs.offered hn
  obtain ⟨lib, hlib, hoffered⟩ := Option.bind_eq_some_iff.1 hd
  obtain ⟨old, hold, -, hloaded⟩ := Site.outline_eq_some.1 houtline
  rw [Site.handleChange_of_module hold hloaded hlib]
  have hlands := Site.lands_reloadModule hs.coherent hold (hs.steadfast hn hold)
    (hs.faithful hn hlib)
  refine ⟨?_, fun r hr => ⟨?_, hlands.steadfast r hr⟩⟩
  · rw [hlands.outline, hoffered, Option.bind_some, Outline.entry, if_pos (hs.admits hn hd),
      houtline]
  · rw [Site.enabled_reloadModule hold hr]
    exact hs.enabled hn hold

/-- The change of a file of another plugin, which stands or not, does not touch it. -/
theorem Anchored.handleChange_other (hs : Anchored P watched made kept s) (hn : kept n)
    {name : String} (hne : n ≠ name) :
    (s.handleChange P watched name).outline n = s.outline n ∧
      ∀ r, (s.handleChange P watched name).host.records.get? n = some r → r.enabled = true ∧
        Steadfast P watched.note r.plugin r.descriptor
          (s.handleChange P watched name).host.world := by
  have hretains := Site.retains_handleChange P watched name s
  have hlater := (Site.passes_handleChange P watched name s).later
  obtain ⟨d, -, houtline, -⟩ := hs.offered hn
  obtain ⟨old, hold, rfl, hloaded⟩ := Site.outline_eq_some.1 houtline
  have hsame := hretains.records hne hold
  refine ⟨?_, fun r hr => ?_⟩
  · rw [houtline]
    refine Site.outline_eq_some.2 ⟨old, hsame, rfl, ?_⟩
    rw [Loader.isLoaded, NameMap.contains, hretains.handles n hne]
    exact hloaded
  · obtain rfl : old = r := Option.some.inj (hsame.symm.trans hr)
    exact ⟨hs.enabled hn hold, (hs.steadfast hn hold).later hlater⟩

/-- The change of a file that is there leaves every plugin in its place that has one, whoever it is of. -/
theorem Anchored.handleChange (hs : Anchored P watched made kept s) (name : String) :
    Anchored P watched made kept (s.handleChange P watched name) := by
  have hpasses := Site.passes_handleChange P watched name s
  have hstays : ∀ {n}, kept n → (s.handleChange P watched name).outline n = s.outline n ∧
      ∀ r, (s.handleChange P watched name).host.records.get? n = some r → r.enabled = true ∧
        Steadfast P watched.note r.plugin r.descriptor
          (s.handleChange P watched name).host.world := by
    intro n hn
    by_cases heq : n = name
    · exact heq ▸ hs.handleChange_self hn
    · exact hs.handleChange_other hn heq
  refine ⟨?_, fun hn => ?_, fun hn hr => ((hstays hn).2 _ hr).1,
    fun hn hr => ((hstays hn).2 _ hr).2, fun hn hlib => (hs.faithful hn hlib).later hpasses.later⟩
  · exact Host.Moves.invariant (I := fun h => Coherent h.records)
      (fun _ _ => Host.coherent_move) hpasses.moves hs.coherent
  · rw [(hstays hn).1]
    exact hs.offered hn

theorem Anchored.applyChange (hs : Anchored P watched made kept s)
    (hexists : watched.files.pathExists path = true) :
    Anchored P watched made kept (s.applyChange P watched path) := by
  cases hpath : PluginFile.classify (Text.utf8 path) with
  | none =>
    rw [Site.applyChange_of_unrecognized hpath]
    exact hs
  | some file =>
    rw [Site.applyChange_of_exists hpath hexists]
    exact hs.handleChange file.1

/-- Changes of files that are there, in any order and as many as there are. -/
theorem Anchored.foldl_applyChange (hs : Anchored P watched made kept s) {paths : List String}
    (hexist : ∀ path ∈ paths, watched.files.pathExists path = true) :
    Anchored P watched made kept
      (paths.foldl (fun s path => s.applyChange P watched path) s) := by
  induction paths generalizing s with
  | nil => exact hs
  | cons path paths ih =>
    exact ih (hs.applyChange (hexist path List.mem_cons_self)) fun p hp => hexist p (.tail path hp)

/-- Who stands is enabled and has a handle. -/
theorem Anchored.present (hs : Anchored P watched made kept s) (hn : kept n) :
    s.host.isEnabled n = true ∧ s.loader.isLoaded n = true := by
  obtain ⟨d, -, houtline, -⟩ := hs.offered hn
  obtain ⟨r, hr, -, hloaded⟩ := Site.outline_eq_some.1 houtline
  refine ⟨?_, hloaded⟩
  rw [Host.isEnabled, hr]
  exact hs.enabled hn hr

end

/-! ## After a directory was loaded -/

section
variable {P : Plugins ω} {note : Note ω} {files : FileTree} {made : Blueprint → Descriptor}
  {router : Option Router} {found : List Discovered} {loaded : List String} {dir : String}
  {s : Site ω}

/-- Plugins that were brought in by a load stand, as long as all they need is among them and their
modules are found again. -/
theorem anchored_of_boarded (hb : Boarded P note files made router found loaded s)
    (hf : ∀ d ∈ found, ∀ path, d.library = some path →
      FaithfulAt P note files made path s.host.world) {kept : String → Prop}
    (hpresent : ∀ {n}, kept n → s.host.contains n = true)
    (hclosed : ∀ {n m}, kept n → s.host.Needs n m → kept m)
    (hchosen : ∀ d ∈ found, kept d.name → PluginFile.findLibrary files dir d.name = d.library) :
    Anchored P ⟨dir, files, note⟩ made kept s := by
  obtain ⟨since, hsince⟩ := hb.accrued.supplied
  have hstems : ∀ {n r}, kept n → s.host.records.get? n = some r → ∃ d ∈ found, d.name = n ∧
      Stems P note files made d r s ∧ PluginFile.findLibrary files dir n = d.library := by
    intro n r hn hr
    obtain ⟨d, hd, rfl, hstem⟩ := hb.stems hr
    exact ⟨d, hd, rfl, hstem, hchosen d hd hn⟩
  refine ⟨hb.accrued.reachable.coherent, fun {n} hn => ?_, fun hn hr => ?_, fun hn hr => ?_,
    fun {n path} hn hlib => ?_⟩
  · obtain ⟨r, hr⟩ := NameMap.contains_iff.1 (hpresent hn)
    obtain ⟨d, hd, rfl, hstem, hfind⟩ := hstems hn hr
    obtain ⟨path, hpath, hoffered⟩ := hstem.offered
    refine ⟨r.descriptor, ?_, Site.outline_eq_some.2 ⟨r, hr, rfl, hstem.loaded⟩, fun m hm =>
      ⟨hclosed hn ⟨r, hr, hm⟩, ?_⟩⟩
    · rw [Watched.offer]
      simp only [hfind, hpath, Option.bind_some]
      exact hoffered
    · -- what it needs came before it
      rintro rfl
      exact Nat.lt_irrefl _ (hsince hr _ hm).2
  · obtain ⟨d, -, -, hstem, -⟩ := hstems hn hr
    exact hstem.enabled
  · obtain ⟨d, -, -, hstem, -⟩ := hstems hn hr
    exact hstem.steadfast
  · obtain ⟨r, hr⟩ := NameMap.contains_iff.1 (hpresent hn)
    obtain ⟨d, hd, rfl, -, hfind⟩ := hstems hn hr
    exact hf d hd path (hfind.symm.trans hlib)

/-- What is pending when a watcher has started is there. -/
theorem Watcher.start_ends {options : WatchOptions} {now : Nat} {watcher : Watcher}
    (h : (Watcher.ofDir dir options).start files now = .ok watcher) :
    ∃ m : NameMap Nat, watcher = ⟨dir, options, some m⟩ ∧ m.Ascending ∧
      ∀ p t, m.get? p = some t → files.pathExists p = true := by
  obtain ⟨hrunning, -⟩ | ⟨-, -, rfl⟩ := Watcher.start_cases h
  · cases hrunning
  · refine ⟨_, rfl, NameMap.ascending_ofList _, fun p t ht => ?_⟩
    rw [Watcher.get?_queued] at ht
    split at ht
    · rename_i hp
      exact FileTree.pathExists_of_isFile (Bool.and_eq_true_iff.1 (List.mem_filter.1 hp).2).1
    · cases ht

/-- What was loaded from a directory into a new site is there, enabled and with a handle, whenever
a watcher of the directory looks after it has started, if its module and those of all that it
needs are found again. Without router the latter need not be asked: what is needed was then
loaded, too. -/
theorem loaded_through_rescan {w : ω} {report : LoadReport} {options : WatchOptions} {now : Nat}
    {watcher : Watcher} (hfound : discover files dir = some found)
    (hf : ∀ d ∈ found, ∀ path, d.library = some path → FaithfulAt P note files made path w)
    (hload : Site.loadDirectory P files dir ⟨(Host.start w).setRouter router, .empty⟩ =
      (.ok report, s))
    (hchosen : ∀ d ∈ found, d.name ∈ report.loaded ∨ router ≠ none ∧
        (∃ n ∈ report.loaded, Relation.TransGen s.host.Needs n d.name) →
      PluginFile.findLibrary files dir d.name = d.library)
    (hstart : (Watcher.ofDir dir options).start files now = .ok watcher)
    (hhot : options.hotReload = true) (times : List Nat) :
    ∀ n ∈ report.loaded,
      (Watcher.ticks P note files times (watcher, s)).2.host.isEnabled n = true ∧
      (Watcher.ticks P note files times (watcher, s)).2.loader.isLoaded n = true := by
  obtain ⟨hb, hlater⟩ := boarded_loadDirectory hfound hf hload
  obtain ⟨since, hsince⟩ := hb.accrued.supplied
  have hpresent : ∀ {n}, (∃ m ∈ report.loaded, Relation.ReflTransGen s.host.Needs m n) →
      s.host.contains n = true := by
    rintro n ⟨m, hm, hneeds⟩
    cases hneeds with
    | refl => exact hb.registered n hm
    | tail _ hlast =>
      obtain ⟨r, hr, hd⟩ := hlast
      exact (hsince hr _ hd).1
  have hs : Anchored P ⟨dir, files, note⟩ made
      (fun n => ∃ m ∈ report.loaded, Relation.ReflTransGen s.host.Needs m n) s := by
    refine anchored_of_boarded hb (fun d hd path hpath => (hf d hd path hpath).later hlater)
      hpresent (fun ⟨m, hm, hneeds⟩ hlast => ⟨m, hm, hneeds.tail hlast⟩)
      fun d hd hkept => hchosen d hd ?_
    cases router with
    | none => exact Or.inl (hb.listed rfl d.name (hpresent hkept))
    | some router =>
      obtain ⟨m, hm, hneeds⟩ := hkept
      rcases Relation.reflTransGen_iff_eq_or_transGen.1 hneeds with heq | hneeds
      · exact Or.inl (heq ▸ hm)
      · exact Or.inr ⟨Option.some_ne_none _, m, hm, hneeds⟩
  obtain ⟨pending, rfl, hasc, hexist⟩ := Watcher.start_ends hstart
  obtain ⟨order, hticks, -, horder⟩ := Watcher.ticks_ends P note files
    (w := ⟨dir, options, some pending⟩) rfl hasc hhot times s
  rw [hticks]
  intro n hn
  exact (hs.foldl_applyChange fun p hp => by
    obtain ⟨t, ht, -⟩ := (horder p).1 hp
    exact hexist p t ht).present ⟨n, hn, .refl⟩

end

/-! ## A lamp and its cable -/

/-- What the plugins of the two modules report. -/
def cableMade : Blueprint → Descriptor
  | .greeter => ⟨"lamp", "", "1.0.0", ["cable"], []⟩
  | _ => ⟨"cable", "", "1.0.0", [], []⟩

/-- A lamp that needs a cable, which has a route that no table takes. -/
def cablePlugins : Plugins Unit :=
  { Plugins.constant (fun plugin => cableMade (if plugin.id = 1 then .greeter else .minimal))
      fun _ _ => .ok with
    routes := fun plugin world =>
      (if plugin.id = 1 then [] else [⟨.get, "/:", .greeter plugin, [], false, [], ""⟩], world)
    construct := fun blueprint world => (match blueprint with
      | .greeter => ⟨1⟩
      | _ => ⟨0⟩, world) }

/-- A directory with both modules, and more. -/
def cableFiles (more : List (Place × Node)) : FileTree :=
  ⟨[([], .directory), (["p"], .directory),
    (["p", "libcable.so"], .module (.complete apiVersion (some .minimal))),
    (["p", "liblamp.so"], .module (.complete apiVersion (some .greeter)))] ++ more⟩

/-- The cable's module cannot be found again when a directory has the name that is tried first. -/
def cableDirectory : List (Place × Node) :=
  [(["p", "cable.so"], .directory)]

def cableFound : List Discovered :=
  [⟨"cable", some "p/libcable.so", none⟩, ⟨"lamp", some "p/liblamp.so", none⟩]

/-- What loading the directory comes to where there is a route table. -/
def cableLoaded (more : List (Place × Node)) : Except DirectoryStop LoadReport × Site Unit :=
  Site.loadDirectory cablePlugins (cableFiles more) "p"
    ⟨(Host.start ()).setRouter (some ⟨"main", none⟩), .empty⟩

/-- The lamp is loaded; the cable is not, but is there. -/
def cableReport : LoadReport :=
  ⟨["lamp"], [("cable", .notRegistered (.routeBinding "cable"
    ⟨.get, "/plugins/cable/:", "empty path parameter name"⟩))]⟩

theorem faithful_cable (files : FileTree) (path : String) :
    FaithfulAt cablePlugins Note.none files cableMade path () := by
  intro blueprint _ _ _
  exact ⟨fun _ _ => by cases blueprint <;> rfl, fun _ _ => rfl, fun _ _ _ _ => rfl⟩

/-- The lamp is there after the first scan if the cable's module is found again. -/
theorem lamp_kept : ∃ s watcher, cableLoaded [] = (.ok cableReport, s) ∧
    (Watcher.ofDir "p" {}).start (cableFiles []) 0 = .ok watcher ∧
    (Watcher.ticks cablePlugins Note.none (cableFiles []) [1000] (watcher, s)).2.host.isEnabled
      "lamp" = true := by
  have hload : (cableLoaded []).1 = .ok cableReport := by decide +kernel
  have hfound : discover (cableFiles []) "p" = some cableFound := by decide +kernel
  have hchosen : ∀ d ∈ cableFound,
      PluginFile.findLibrary (cableFiles []) "p" d.name = d.library := by decide +kernel
  obtain ⟨watcher, hstart⟩ : ∃ watcher,
      (Watcher.ofDir "p" {}).start (cableFiles []) 0 = .ok watcher := ⟨_, rfl⟩
  refine ⟨_, watcher, Prod.ext hload rfl, hstart, ?_⟩
  exact (loaded_through_rescan hfound (fun _ _ path _ => faithful_cable _ path)
    (Prod.ext hload rfl) (fun d hd _ => hchosen d hd) hstart rfl [1000] "lamp" (by decide)).1

/-- Where there is a route table, it is not enough that the modules of those who were loaded are
found again: the cable is taken out, since its module is not found, and then the lamp, which needs
the cable. -/
theorem lamp_lost : ∃ s watcher,
    discover (cableFiles cableDirectory) "p" = some cableFound ∧
    (∀ path, FaithfulAt cablePlugins Note.none (cableFiles cableDirectory) cableMade path ()) ∧
    cableLoaded cableDirectory = (.ok cableReport, s) ∧
    (∀ d ∈ cableFound, d.name ∈ cableReport.loaded →
      PluginFile.findLibrary (cableFiles cableDirectory) "p" d.name = d.library) ∧
    (Watcher.ofDir "p" {}).start (cableFiles cableDirectory) 0 = .ok watcher ∧
    watcher.options.hotReload = true ∧ watcher.latest ≤ 1000 ∧
    (Watcher.ticks cablePlugins Note.none (cableFiles cableDirectory) [1000]
      (watcher, s)).2.host.contains "lamp" = false := by
  have hload : (cableLoaded cableDirectory).1 = .ok cableReport := by decide +kernel
  refine ⟨_, _, by decide +kernel, fun path => faithful_cable _ path, Prod.ext hload rfl,
    by decide +kernel, rfl, rfl, by decide +kernel, by decide +kernel⟩

end PluginHost
