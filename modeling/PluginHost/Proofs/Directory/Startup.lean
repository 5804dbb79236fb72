import PluginHost.Proofs.Dependency.Members
import PluginHost.Proofs.Directory.Loading

/-!
# Loading a whole directory

A directory in which all that belongs together is there is loaded without loss. Its modules are
found with their manifests, which are put in an order with dependencies first; so when a module
is loaded, all that its plugin needs is registered, no plugin that is registered conflicts with
it, and nobody has its name.

* `Intact`: what is asked of the files of a directory.
* `Onboard.loadModule`: one module.
* `Site.loadEach_intact`: the modules one after the other.
* `Site.loadDirectory_intact`: the whole directory.
-/
namespace PluginHost

variable {ω : Type}

/-- What is asked of the files of a directory. No claim is made twice and no manifest is broken;
each module makes plugins of its name that report the same and start; it has a manifest, which
declares what the plugin needs, and asks for a runtime that is there; what a module's manifest
declares are modules; no manifest depends on itself, be it through others; and no two plugins
conflict. -/
structure Intact (P : Plugins ω) (files : FileTree) (reported : String → Descriptor)
    (fs : List Finding) (w : ω) : Prop where
  unambiguous : Unambiguous fs
  readable : ∀ name, Finding.broken name ∉ fs
  makes : ∀ {n path}, Finding.library n path ∈ fs → ∃ blueprint,
    files.node? path = some (.module (.complete apiVersion (some blueprint))) ∧
      ∀ v, Later P Note.none w v →
        Ready P Note.none (P.construct blueprint v).1 (reported n) (P.construct blueprint v).2
  named : ∀ {n path}, Finding.library n path ∈ fs → (reported n).name = n
  described : ∀ {n path}, Finding.library n path ∈ fs → ∃ m, Finding.manifest m ∈ fs ∧
    m.name = n ∧ (reported n).dependencies ⊆ m.dependencies ∧ m.supports apiVersion = true
  closed : ∀ {m path}, Finding.manifest m ∈ fs → Finding.library m.name path ∈ fs →
    ∀ d ∈ m.dependencies, ∃ other, Finding.library d other ∈ fs
  acyclic : ∀ n, ¬ Relation.TransGen
    (fun n d => ∃ m, Finding.manifest m ∈ fs ∧ m.name = n ∧ d ∈ m.dependencies) n n
  peaceful : ∀ {n m path other}, Finding.library n path ∈ fs → Finding.library m other ∈ fs →
    n ≠ m → (reported n).clashes (reported m) = false

/-- The names of those that have a module. -/
def modulesOf (ds : List Discovered) : List String :=
  ds.filterMap fun d => d.library.map fun _ => d.name

/-! ## The modules of an intact directory -/

section
variable {P : Plugins ω} {files : FileTree} {reported : String → Descriptor} {fs : List Finding}
  {n path : String} {v w : ω}

theorem mem_modulesOf {ds : List Discovered} :
    n ∈ modulesOf ds ↔ ∃ d ∈ ds, d.name = n ∧ d.library.isSome = true := by
  simp only [modulesOf, List.mem_filterMap, Option.map_eq_some_iff, Option.isSome_iff_exists]
  exact exists_congr fun d => and_congr_right fun _ =>
    ⟨fun ⟨p, hp, hn⟩ => ⟨hn, p, hp⟩, fun ⟨hn, p, hp⟩ => ⟨p, hp, hn⟩⟩

theorem modulesOf_cons_of_none {d : Discovered} (h : d.library = none) (ds : List Discovered) :
    modulesOf (d :: ds) = modulesOf ds := by
  simp [modulesOf, h]

theorem modulesOf_cons_of_some {d : Discovered} (h : d.library = some path)
    (ds : List Discovered) : modulesOf (d :: ds) = d.name :: modulesOf ds := by
  simp [modulesOf, h]

/-- What an intact directory lists are the plugins that its files are of. -/
theorem Intact.mem_result_iff (hi : Intact P files reported fs w) {d : Discovered} :
    d ∈ (scanned fs).result ↔ d = provided fs d.name ∧
      (d.library ≠ none ∨ d.manifest ≠ none) := by
  rw [PluginHost.mem_result_iff]
  exact and_iff_right (hi.readable _)

/-- What a listed plugin declares is what a manifest of its name does. -/
theorem Intact.mem_dependencies_iff (hi : Intact P files reported fs w) {dependency : String} :
    dependency ∈ (provided fs n).dependencies ↔
      ∃ m, Finding.manifest m ∈ fs ∧ m.name = n ∧ dependency ∈ m.dependencies := by
  unfold Discovered.dependencies
  constructor
  · intro h
    split at h
    · rename_i m hm
      obtain ⟨hmem, hname⟩ := mem_of_manifest_provided hm
      exact ⟨m, hmem, hname, h⟩
    · cases h
  · rintro ⟨m, hmem, hname, h⟩
    rw [hi.unambiguous.manifest_iff.2 ⟨hmem, hname⟩]
    exact h

/-- A module of an intact directory provides its plugin, which is ready. -/
theorem Intact.provides (hi : Intact P files reported fs w) (hv : Later P Note.none w v)
    (hlib : Finding.library n path ∈ fs) (hname : Text.isBlank n = false) :
    ∃ plugin asked, Loader.Provides P files path n v plugin asked ∧
      Ready P Note.none plugin (reported n) asked := by
  obtain ⟨blueprint, hnode, hready⟩ := hi.makes hlib
  obtain ⟨asked, hcall, hasked⟩ := (hready v hv).asked
  exact ⟨_, asked, ⟨_, reported n, ⟨blueprint, hnode, rfl⟩, hcall, hi.named hlib, hname⟩,
    (hready v hv).later hasked⟩

end

/-- The plugins of the names have been loaded, and nobody else. -/
structure Onboard (P : Plugins ω) (reported : String → Descriptor) (w : ω) (names : List String)
    (s : Site ω) : Prop where
  later : Later P Note.none w s.host.world
  router : s.host.router = none
  ascending : s.host.records.Ascending
  registered : ∀ n, s.host.contains n = true ↔ n ∈ names
  reported : ∀ {n r}, s.host.records.get? n = some r → r.descriptor = reported n
  loaded : ∀ n, s.loader.isLoaded n = true ↔ n ∈ names

section
variable {P : Plugins ω} {files : FileTree} {reported : String → Descriptor} {fs : List Finding}
  {n path : String} {w : ω} {names : List String} {s : Site ω}

theorem onboard_start (P : Plugins ω) (reported : String → Descriptor) (w : ω) :
    Onboard P reported w [] (Site.start w) where
  later := .refl
  router := rfl
  ascending := NameMap.ascending_empty
  registered n := by simp [Site.start, Host.start, Host.contains, NameMap.contains]
  reported h := by simp [Site.start, Host.start] at h
  loaded n := by simp [Site.start, Loader.empty, Loader.isLoaded, NameMap.contains]

/-- A module of an intact directory whose plugin needs only what is there may be admitted. -/
theorem Onboard.admissible (ho : Onboard P reported w names s)
    (hi : Intact P files reported fs w) (hlib : Finding.library n path ∈ fs)
    (hname : Text.isBlank n = false) (hnew : n ∉ names)
    (hknown : ∀ m ∈ names, ∃ other, Finding.library m other ∈ fs)
    (hneeds : ∀ d ∈ (reported n).dependencies, d ∈ names) :
    Admissible s.host.records [] (reported n) where
  named := (hi.named hlib).symm ▸ hname
  fresh := by
    rw [hi.named hlib, ← Bool.not_eq_true]
    exact mt (ho.registered n).1 hnew
  present d hd := Or.inl ((ho.registered d).2 (hneeds d hd))
  compatible r hr := by
    obtain ⟨m, hm⟩ := ho.ascending.mem_values_iff.1 hr
    have hmem : m ∈ names := (ho.registered m).1 (NameMap.contains_iff.2 ⟨r, hm⟩)
    obtain ⟨other, hother⟩ := hknown m hmem
    rw [ho.reported hm]
    exact hi.peaceful hlib hother fun heq => hnew (heq ▸ hmem)
  compatibleBatch := by simp

/-- It is loaded and registered. -/
theorem Onboard.loadModule (ho : Onboard P reported w names s)
    (hi : Intact P files reported fs w) (hlib : Finding.library n path ∈ fs)
    (hname : Text.isBlank n = false) (ha : Admissible s.host.records [] (reported n)) :
    ∃ t, s.loadModule P Note.none files path n = (.ok (), t) ∧
      Onboard P reported w (names ++ [n]) t := by
  obtain ⟨plugin, asked, hprovides, hready⟩ := hi.provides ho.later hlib hname
  have hreported := hi.named hlib
  generalize hd : reported n = d at hready ha hreported
  subst hreported
  obtain ⟨loader, library, hmade, hhandles⟩ := Loader.load_of_provides hprovides s.loader
  obtain ⟨r, t, hload, hr, hrecords, hrouter, rfl⟩ :=
    Site.loadModule_of_ready Note.none ho.router ha hmade hready
  have hlater := (Site.passes_loadModule P Note.none files path d.name s).later
  rw [hload] at hlater
  refine ⟨t, hload, ho.later.trans hlater, hrouter, ?_, fun m => ?_, fun {m q} hq => ?_,
    fun m => ?_⟩
  · rw [hrecords]
    exact ho.ascending.insert _ _
  · rw [Host.contains, hrecords, NameMap.contains_insert, Bool.or_eq_true, decide_eq_true_iff,
      List.mem_append, List.mem_singleton, or_comm]
    exact or_congr_left (ho.registered m)
  · rw [hrecords, NameMap.get?_insert] at hq
    split at hq
    · rename_i hm
      cases hq
      rw [hm, hd, hr]
    · exact ho.reported hq
  · rw [Loader.isLoaded_iff, hhandles, List.mem_append, List.mem_singleton]
    split
    · rename_i hm
      simp [hm]
    · rename_i hm
      rw [← Loader.isLoaded_iff, ho.loaded m]
      simp [hm]

/-- An intact module asks for no other runtime. -/
theorem Intact.isSupported (hi : Intact P files reported fs w)
    (hlib : Finding.library n path ∈ fs) : (provided fs n).isSupported = true := by
  obtain ⟨m, hmem, hname, -, hsupports⟩ := hi.described hlib
  rw [Discovered.isSupported, hi.unambiguous.manifest_iff.2 ⟨hmem, hname⟩]
  exact hsupports

/-- What a plugin needs is what its manifest declares. -/
theorem Intact.needs_subset (hi : Intact P files reported fs w)
    (hlib : Finding.library n path ∈ fs) :
    (reported n).dependencies ⊆ (provided fs n).dependencies := by
  obtain ⟨m, hmem, hname, hsubset, -⟩ := hi.described hlib
  exact fun d hd => hi.mem_dependencies_iff.2 ⟨m, hmem, hname, hsubset hd⟩

/-- Plugins that are listed behind what they need are loaded without loss. -/
theorem Site.loadEach_intact (hi : Intact P files reported fs w)
    (hnames : ∀ m, Finding.manifest m ∈ fs → Text.isBlank m.name = false) {report : LoadReport}
    {ds : List Discovered} (ho : Onboard P reported w report.loaded s)
    (hlisted : ∀ d ∈ ds, d = provided fs d.name)
    (hknown : ∀ m ∈ report.loaded, ∃ other, Finding.library m other ∈ fs)
    (hnodup : (report.loaded ++ modulesOf ds).Nodup)
    (hfirst : ∀ before d after, ds = before ++ d :: after → d.library.isSome = true →
      ∀ m ∈ d.dependencies, m ∈ report.loaded ++ modulesOf before) :
    ∃ t, s.loadEach P files report ds =
        (.ok { report with loaded := report.loaded ++ modulesOf ds }, t) ∧
      Onboard P reported w (report.loaded ++ modulesOf ds) t := by
  induction ds generalizing report s with
  | nil =>
    refine ⟨s, ?_, ?_⟩
    · simp [loadEach, modulesOf]
    · simpa [modulesOf] using ho
  | cons d ds ih =>
    have hd := hlisted d List.mem_cons_self
    have hrest : ∀ e ∈ ds, e = provided fs e.name := fun e he => hlisted e (.tail d he)
    cases hpath : d.library with
    | none =>
      rw [modulesOf_cons_of_none hpath] at hnodup ⊢
      rw [loadEach, hpath]
      refine ih ho hrest hknown hnodup fun before e after heq hlib m hm => ?_
      have hcome := hfirst (d :: before) e after (by rw [heq, List.cons_append]) hlib m hm
      rwa [modulesOf_cons_of_none hpath] at hcome
    | some path =>
      have hlib : Finding.library d.name path ∈ fs := mem_of_library_provided (hd ▸ hpath)
      have hname : Text.isBlank d.name = false := by
        obtain ⟨m, hmem, hname, -⟩ := hi.described hlib
        exact hname ▸ hnames m hmem
      have hneeds : ∀ m ∈ (reported d.name).dependencies, m ∈ report.loaded := by
        intro m hm
        have hdeclared : m ∈ d.dependencies := hd ▸ hi.needs_subset hlib hm
        simpa [modulesOf] using hfirst [] d ds rfl (by rw [hpath, Option.isSome_some]) m hdeclared
      have hsupported : d.isSupported = true := hd ▸ hi.isSupported hlib
      rw [modulesOf_cons_of_some hpath, List.append_cons] at hnodup ⊢
      have hnew : d.name ∉ report.loaded := fun hmem =>
        (List.nodup_append.1 (List.nodup_append.1 hnodup).1).2.2 _ hmem _
          (List.mem_singleton_self _) rfl
      obtain ⟨t, hload, honboard⟩ := ho.loadModule hi hlib hname
        (ho.admissible hi hlib hname hnew hknown hneeds)
      have hnext : Onboard P reported w (report.addLoaded d.name).loaded t := honboard
      rw [loadEach, hpath]
      simp only [hsupported, Bool.not_true, Bool.false_eq_true, if_false, hload]
      refine ih hnext hrest (fun m hm => ?_) hnodup
        fun before e after heq hsome m hm => ?_
      · rcases List.mem_append.1 hm with hm | hm
        · exact hknown m hm
        · exact ⟨path, List.mem_singleton.1 hm ▸ hlib⟩
      · have hcome := hfirst (d :: before) e after (by rw [heq, List.cons_append]) hsome m hm
        rwa [modulesOf_cons_of_some hpath, List.append_cons] at hcome

/-! ## A whole directory -/

/-- What an intact directory provides can be put in order. -/
theorem Intact.loadOrder_ends (hi : Intact P files reported fs w) :
    ∃ ordered, loadOrder (scanned fs).result = .ok ordered := by
  have hacyclic : ∀ n, ¬ Relation.TransGen (fun m d =>
      ∃ e ∈ (scanned fs).result, e.name = m ∧ d ∈ e.dependencies) n n := by
    refine fun n hloop => hi.acyclic n (Relation.TransGen.mono (fun m d hd => ?_) n n hloop)
    obtain ⟨e, he, rfl, hd⟩ := hd
    exact hi.mem_dependencies_iff.1 ((hi.mem_result_iff.1 he).1 ▸ hd)
  obtain ⟨order, horder⟩ := Dependency.order_of_acyclic (nodup_result fs) hacyclic
  have hgraph : (Dependency.Graph.ofList ((scanned fs).result.map fun d =>
      (d.name, d.dependencies))).order = .ok order := horder
  rw [loadOrder]
  simp only [hgraph]
  exact ⟨_, rfl⟩

/-- The modules of an intact directory, whatever the order in which its plugins are listed. -/
theorem Intact.mem_modulesOf_iff (hi : Intact P files reported fs w) {ordered : List Discovered}
    (hperm : ordered.Perm (scanned fs).result) :
    n ∈ modulesOf ordered ↔ ∃ path, Finding.library n path ∈ fs := by
  rw [mem_modulesOf]
  constructor
  · rintro ⟨d, hd, rfl, hsome⟩
    obtain ⟨path, hpath⟩ := Option.isSome_iff_exists.1 hsome
    exact ⟨path, mem_of_library_provided ((hi.mem_result_iff.1 (hperm.subset hd)).1 ▸ hpath)⟩
  · rintro ⟨path, hlib⟩
    have hpath := hi.unambiguous.library_iff.2 hlib
    refine ⟨provided fs n, hperm.symm.subset (hi.mem_result_iff.2 ⟨rfl, Or.inl ?_⟩), rfl, ?_⟩
    · rw [hpath]
      exact Option.some_ne_none _
    · rw [hpath]
      rfl

theorem nodup_modulesOf {ds : List Discovered} (h : (ds.map (·.name)).Nodup) :
    (modulesOf ds).Nodup := by
  induction ds with
  | nil => exact List.nodup_nil
  | cons d ds ih =>
    rw [List.map_cons, List.nodup_cons] at h
    cases hpath : d.library with
    | none => exact modulesOf_cons_of_none hpath ds ▸ ih h.2
    | some path =>
      rw [modulesOf_cons_of_some hpath, List.nodup_cons]
      refine ⟨fun hmem => h.1 ?_, ih h.2⟩
      obtain ⟨e, he, hname, -⟩ := mem_modulesOf.1 hmem
      exact hname ▸ List.mem_map_of_mem he

/-- In an order with dependencies first, a module of an intact directory comes behind the modules
that it declares to depend on. -/
theorem Intact.mem_modulesOf_of_leading (hi : Intact P files reported fs w)
    {ordered before after : List Discovered} {d : Discovered}
    (hperm : ordered.Perm (scanned fs).result)
    (hleading : Dependency.Leading (·.name) (·.dependencies) ordered)
    (heq : ordered = before ++ d :: after) (hsome : d.library.isSome = true) {m : String}
    (hm : m ∈ d.dependencies) : m ∈ modulesOf before := by
  have hlisted : ∀ e ∈ ordered, e = provided fs e.name := fun e he =>
    (hi.mem_result_iff.1 (hperm.subset he)).1
  have hd := hlisted d (heq ▸ List.mem_append_right _ List.mem_cons_self)
  obtain ⟨path, hpath⟩ := Option.isSome_iff_exists.1 hsome
  obtain ⟨manifest, hmanifest, hname, hdeclared⟩ := hi.mem_dependencies_iff.1 (hd ▸ hm)
  obtain ⟨other, hother⟩ := hi.closed hmanifest
    (hname ▸ mem_of_library_provided (hd ▸ hpath)) m hdeclared
  obtain ⟨e, he, rfl, hmodule⟩ := mem_modulesOf.1 ((hi.mem_modulesOf_iff hperm).2 ⟨other, hother⟩)
  obtain ⟨f, hf, hsame⟩ := List.mem_map.1
    (hleading before d after heq e.name hm (List.mem_map_of_mem he))
  have hfe : f = e := by
    rw [hlisted e he, hlisted f (heq ▸ List.mem_append_left _ hf), hsame]
  exact mem_modulesOf.2 ⟨f, hf, hsame, hfe ▸ hmodule⟩

/-- Modules in an order with dependencies first, each behind those that its manifest declares. -/
theorem Intact.split_modulesOf (hi : Intact P files reported fs w)
    {ordered : List Discovered} (hperm : ordered.Perm (scanned fs).result)
    (hleading : Dependency.Leading (·.name) (·.dependencies) ordered)
    {before after : List String} (heq : modulesOf ordered = before ++ n :: after)
    {m : Manifest} (hm : Finding.manifest m ∈ fs) (hname : m.name = n) :
    m.dependencies ⊆ before := by
  intro dependency hdependency
  obtain ⟨front, rest, rfl, rfl, hrest⟩ := List.filterMap_eq_append_iff.1 heq
  obtain ⟨skipped, d, tail, rfl, hskipped, hd, -⟩ := List.filterMap_eq_cons_iff.1 hrest
  obtain ⟨path, hpath, rfl⟩ := Option.map_eq_some_iff.1 hd
  have hlisted := (hi.mem_result_iff.1
    (hperm.subset (List.mem_append_right _ (List.mem_append_right _ List.mem_cons_self)))).1
  have hdeclared : dependency ∈ d.dependencies := by
    rw [hlisted]
    exact hi.mem_dependencies_iff.2 ⟨m, hm, hname, hdependency⟩
  have hmodule := hi.mem_modulesOf_of_leading hperm hleading
    (List.append_assoc front skipped (d :: tail)).symm (by rw [hpath, Option.isSome_some]) hdeclared
  have hnone : modulesOf skipped = [] := List.filterMap_eq_nil_iff.2 hskipped
  rwa [modulesOf, List.filterMap_append, ← modulesOf, ← modulesOf, hnone,
    List.append_nil] at hmodule

/-- An intact directory is loaded without loss by a new site: nobody fails, every module is
loaded once and behind those that it declares to depend on, and those who are registered and
those who have a handle are the plugins of the modules. -/
theorem Site.loadDirectory_intact {dir : String} {paths : List String}
    (hfiles : filesIn? files dir = some paths)
    (hi : Intact P files reported (paths.map (Finding.ofFile files)) w) :
    ∃ loaded s, (Site.start w).loadDirectory P files dir = (.ok ⟨loaded, []⟩, s) ∧
      loaded.Nodup ∧
      (∀ n, n ∈ loaded ↔ ∃ path, Finding.library n path ∈ paths.map (Finding.ofFile files)) ∧
      (∀ before n after, loaded = before ++ n :: after →
        ∀ m, Finding.manifest m ∈ paths.map (Finding.ofFile files) → m.name = n →
          m.dependencies ⊆ before) ∧
      (∀ n, n ∈ s.host.records.names ↔ n ∈ loaded) ∧
      ∀ n, n ∈ s.loader.names ↔ n ∈ loaded := by
  obtain ⟨ordered, horder⟩ := hi.loadOrder_ends
  obtain ⟨hperm, hleading⟩ := perm_of_loadOrder (nodup_result _) horder
  have hnodup : (modulesOf ordered).Nodup :=
    nodup_modulesOf ((hperm.map _).nodup_iff.2 (nodup_result _))
  have hstart : Onboard P reported w LoadReport.empty.loaded (Site.start w) :=
    onboard_start P reported w
  obtain ⟨s, hload, honboard⟩ := loadEach_intact hi (fun m => isBlank_of_manifest) hstart
    (fun d hd => (hi.mem_result_iff.1 (hperm.subset hd)).1) (by simp [LoadReport.empty])
    hnodup fun before d after heq hsome m hm =>
      hi.mem_modulesOf_of_leading hperm hleading heq hsome hm
  refine ⟨modulesOf ordered, s, ?_, hnodup, fun n => hi.mem_modulesOf_iff hperm,
    fun before n after heq m hm hname => hi.split_modulesOf hperm hleading heq hm hname,
    fun n => NameMap.mem_names_iff.trans (honboard.registered n),
    fun n => NameMap.mem_names_iff.trans (honboard.loaded n)⟩
  rw [loadDirectory, discover_of_files hfiles]
  simp only [horder, hload]
  rfl

end

/-! ## A lamp and its bulb -/

/-- What the plugins of the two modules report. -/
def bulbReported : String → Descriptor
  | "lamp" => ⟨"lamp", "", "1.0.0", ["bulb"], []⟩
  | name => ⟨name, "", "1.0.0", [], []⟩

/-- A lamp, and a bulb that it needs. -/
def bulbPlugins : Plugins Unit :=
  { Plugins.constant (fun plugin => bulbReported (if plugin.id = 0 then "bulb" else "lamp"))
      fun _ _ => .ok with
    construct := fun blueprint world => (match blueprint with
      | .greeter => ⟨1⟩
      | _ => ⟨0⟩, world) }

/-- The manifest of a plugin that may declare a dependency. -/
def bulbManifest (name : String) (dependencies : List String) : Manifest :=
  ⟨name, "", "", "", dependencies, [], "", [], none⟩

/-- The lamp stands before what it needs, and the manifests have names of their own. -/
def bulbFiles : FileTree :=
  ⟨[([], .directory), (["p"], .directory),
    (["p", "liblamp.so"], .module (.complete apiVersion (some .greeter))),
    (["p", "bulb.so"], .module (.complete apiVersion (some .minimal))),
    (["p", "first.json"], .file (Text.utf8
      "\x7b\"name\":\"lamp\",\"dependencies\":[\"bulb\"]\x7d")),
    (["p", "second.json"], .file (Text.utf8 "\x7b\"name\":\"bulb\"\x7d"))]⟩

def bulbPaths : List String :=
  ["p/liblamp.so", "p/bulb.so", "p/first.json", "p/second.json"]

def bulbFindings : List Finding :=
  [.library "lamp" "p/liblamp.so", .library "bulb" "p/bulb.so",
    .manifest (bulbManifest "lamp" ["bulb"]), .manifest (bulbManifest "bulb" [])]

theorem bulb_findings : bulbPaths.map (Finding.ofFile bulbFiles) = bulbFindings := by
  decide +kernel

theorem library_mem_bulbFindings {n path : String} : Finding.library n path ∈ bulbFindings ↔
    n = "lamp" ∧ path = "p/liblamp.so" ∨ n = "bulb" ∧ path = "p/bulb.so" := by
  simp [bulbFindings]

theorem manifest_mem_bulbFindings {m : Manifest} : Finding.manifest m ∈ bulbFindings ↔
    m = bulbManifest "lamp" ["bulb"] ∨ m = bulbManifest "bulb" [] := by
  simp [bulbFindings]

/-- The lamp's manifest is the only one that declares anything. -/
theorem declared_in_bulbFindings {n d : String}
    (h : ∃ m, Finding.manifest m ∈ bulbFindings ∧ m.name = n ∧ d ∈ m.dependencies) :
    n = "lamp" ∧ d = "bulb" := by
  obtain ⟨m, hm, rfl, hd⟩ := h
  rcases manifest_mem_bulbFindings.1 hm with rfl | rfl
  · exact ⟨rfl, List.mem_singleton.1 hd⟩
  · cases hd

theorem bulb_intact : Intact bulbPlugins bulbFiles bulbReported bulbFindings () where
  unambiguous :=
    { libraries := by
        intro n path other hpath hother
        rcases library_mem_bulbFindings.1 hpath with ⟨rfl, rfl⟩ | ⟨rfl, rfl⟩
        · simpa [eq_comm] using library_mem_bulbFindings.1 hother
        · simpa [eq_comm] using library_mem_bulbFindings.1 hother
      manifests := by
        intro m m' hm hm' hname
        rcases manifest_mem_bulbFindings.1 hm with rfl | rfl <;>
          rcases manifest_mem_bulbFindings.1 hm' with rfl | rfl
        · rfl
        · exact absurd hname (by decide)
        · exact absurd hname (by decide)
        · rfl }
  readable name := by simp [bulbFindings]
  makes {n path} hlib := by
    rcases library_mem_bulbFindings.1 hlib with ⟨rfl, rfl⟩ | ⟨rfl, rfl⟩
    · exact ⟨.greeter, rfl, fun _ _ => ⟨fun _ _ => rfl, fun _ _ => rfl⟩⟩
    · exact ⟨.minimal, rfl, fun _ _ => ⟨fun _ _ => rfl, fun _ _ => rfl⟩⟩
  named {n path} hlib := by
    rcases library_mem_bulbFindings.1 hlib with ⟨rfl, -⟩ | ⟨rfl, -⟩ <;> rfl
  described {n path} hlib := by
    rcases library_mem_bulbFindings.1 hlib with ⟨rfl, -⟩ | ⟨rfl, -⟩
    · exact ⟨_, manifest_mem_bulbFindings.2 (Or.inl rfl), rfl, fun _ h => h, rfl⟩
    · exact ⟨_, manifest_mem_bulbFindings.2 (Or.inr rfl), rfl, fun _ h => h, rfl⟩
  closed {m path} hm _ d hd := by
    obtain ⟨-, rfl⟩ := declared_in_bulbFindings ⟨m, hm, rfl, hd⟩
    exact ⟨_, library_mem_bulbFindings.2 (Or.inr ⟨rfl, rfl⟩)⟩
  acyclic n hloop := by
    obtain ⟨_, hfirst, -⟩ := Relation.TransGen.head'_iff.1 hloop
    obtain ⟨_, -, hlast⟩ := Relation.TransGen.tail'_iff.1 hloop
    have hsame := (declared_in_bulbFindings hfirst).1.symm.trans (declared_in_bulbFindings hlast).2
    exact absurd hsame (by decide)
  peaceful {n m path other} hpath hother hne := by
    rcases library_mem_bulbFindings.1 hpath with ⟨rfl, -⟩ | ⟨rfl, -⟩ <;>
      rcases library_mem_bulbFindings.1 hother with ⟨rfl, -⟩ | ⟨rfl, -⟩ <;> rfl

/-- Both are loaded, the lamp behind its bulb. -/
theorem lamp_behind_bulb : filesIn? bulbFiles "p" = some bulbPaths ∧
    Intact bulbPlugins bulbFiles bulbReported (bulbPaths.map (Finding.ofFile bulbFiles)) () ∧
    ∃ loaded s, (Site.start ()).loadDirectory bulbPlugins bulbFiles "p" = (.ok ⟨loaded, []⟩, s) ∧
      (∀ n, n ∈ s.host.records.names ↔ n = "lamp" ∨ n = "bulb") ∧
      ∀ before after, loaded = before ++ "lamp" :: after → "bulb" ∈ before := by
  have hfiles : filesIn? bulbFiles "p" = some bulbPaths := by decide +kernel
  have hintact : Intact bulbPlugins bulbFiles bulbReported
      (bulbPaths.map (Finding.ofFile bulbFiles)) () := bulb_findings ▸ bulb_intact
  obtain ⟨loaded, s, hload, -, hmodules, hbehind, hregistered, -⟩ :=
    Site.loadDirectory_intact hfiles hintact
  rw [bulb_findings] at hmodules hbehind
  refine ⟨hfiles, hintact, loaded, s, hload, fun n => ?_, fun before after heq => ?_⟩
  · rw [hregistered, hmodules]
    simp [library_mem_bulbFindings, exists_or]
  · exact hbehind before "lamp" after heq _ (manifest_mem_bulbFindings.2 (Or.inl rfl)) rfl
      List.mem_cons_self

end PluginHost
