import PluginHost.Proofs.Directory.Scan
import PluginHost.Proofs.Registry.Accrual
import PluginHost.Proofs.Watch.Outline

/-!
# What loading a directory leaves behind

To load a directory is to register one plugin after the other. So no plugin is taken out, whatever
becomes of the load, and whoever is registered afterwards is the plugin of a module that was
listed. Where modules are faithful such a plugin is enabled, reports what its module offers and
has a handle; the report lists it unless a router refused its routes.

* `Site.accrued_loadDirectory`: to load a directory takes no plugin out.
* `Ready`, `Site.loadModule_of_ready`: a plugin that is ready and may be admitted is registered.
* `Stems`: a plugin as its module made it.
* `Boarded`: whom a load leaves registered; `Boarded.loadEach` is one module after the other.
-/
namespace PluginHost

variable {ω : Type}

theorem Host.noted_eq_world (note : Note ω) (change : Change) (name : String)
    (ended : Except Stop Unit × Host ω) : ∃ result world,
      Host.noted note change name ended = (result, { ended.2 with world }) := by
  obtain ⟨result, h⟩ := ended
  rcases result with (e | m) | _
  · exact ⟨_, _, rfl⟩
  · exact ⟨_, h.world, rfl⟩
  · exact ⟨_, _, rfl⟩

/-- Where changes are not noted, the worlds that follow do so as well when they are. -/
theorem later_of_silent {P : Plugins ω} (note : Note ω) {v w : ω} (h : Later P Note.none v w) :
    Later P note v w := by
  induction h with
  | refl => exact .refl
  | tail _ hlast ih =>
    cases hlast with
    | served hserved => exact ih.tail (.served hserved)
    | made blueprint => exact ih.tail (.made blueprint _)
    | noted => exact ih

/-! ## Nobody is taken out -/

namespace Site

section
variable {P : Plugins ω} {s : Site ω}

/-- The host that the load of a module leaves: but for its world it is the old one, or the one that
a registration left. -/
theorem loadModule_host (P : Plugins ω) (note : Note ω) (files : FileTree) (path name : String)
    (s : Site ω) : ∃ world, (s.loadModule P note files path name).2.host = { s.host with world } ∨
      ∃ plugin left, (s.loadModule P note files path name).2.host =
        { (Host.register P plugin { s.host with world }).2 with world := left } := by
  unfold loadModule
  rcases hload : s.loader.load P files path name s.host.world with ⟨result, loader, world⟩
  rw [load_eq hload]
  refine ⟨world, ?_⟩
  cases result with
  | error e => exact Or.inl (unloadUnregistered_host _ _)
  | ok plugin =>
    obtain ⟨result, left, hnoted⟩ := Host.noted_eq_world note .register
      (P.descriptor plugin world).1.name (Host.register P plugin { s.host with world })
    refine Or.inr ⟨plugin, left, ?_⟩
    simp only
    rw [hnoted]
    rcases result with (e | m) | _
    · exact unloadUnregistered_host _ _
    · rfl
    · rfl

theorem router_loadModule (P : Plugins ω) (note : Note ω) (files : FileTree) (path name : String)
    (s : Site ω) : (s.loadModule P note files path name).2.host.router = s.host.router := by
  obtain ⟨world, hhost | ⟨plugin, left, hhost⟩⟩ := loadModule_host P note files path name s
  · rw [hhost]
  · rw [hhost]
    exact (Host.strides_register P plugin { s.host with world }).router

theorem accrued_loadModule (note : Note ω) (files : FileTree) (path name : String)
    (ha : Host.Accrued P s.host) :
    Host.Accrued P (s.loadModule P note files path name).2.host := by
  obtain ⟨world, hhost | ⟨plugin, left, hhost⟩⟩ := loadModule_host P note files path name s
  · exact hhost ▸ ha.world world
  · exact hhost ▸ ((ha.world world).register plugin).world left

end

end Site

/-! ## Plugins that are ready -/

/-- Whatever world follows, the plugin reports the descriptor and its start succeeds. -/
structure Ready (P : Plugins ω) (note : Note ω) (plugin : Instance) (d : Descriptor) (w : ω) :
    Prop where
  descriptor : ∀ v, Later P note w v → (P.descriptor plugin v).1 = d
  init : ∀ v, Later P note w v → (P.callback .init plugin (P.attach plugin v)).1 = .ok

section
variable {P : Plugins ω} {note : Note ω} {plugin : Instance} {d : Descriptor} {v w : ω}

theorem Steadfast.ready (hs : Steadfast P note plugin d w) : Ready P note plugin d w :=
  ⟨hs.descriptor, hs.init⟩

theorem Ready.later (hr : Ready P note plugin d w) (hv : Later P note w v) :
    Ready P note plugin d v where
  descriptor u hu := hr.descriptor u (hv.trans hu)
  init u hu := hr.init u (hv.trans hu)

theorem Ready.asked (hr : Ready P note plugin d w) :
    ∃ asked, P.descriptor plugin w = (d, asked) ∧ Later P note w asked :=
  ⟨_, Prod.ext (hr.descriptor w .refl) rfl, .single (.served (.descriptor plugin w))⟩

/-- Without router, a plugin that is ready and may be admitted is registered. -/
theorem Host.register_of_ready {h : Host ω} (hrouter : h.router = none)
    (ha : Admissible h.records [] d) (hr : Ready P note plugin d h.world) :
    ∃ r k, h.register P plugin = (.ok (), k) ∧ r.descriptor = d ∧
      k.records = h.records.insert d.name r ∧ k.router = none := by
  obtain ⟨asked, hcall, hasked⟩ := hr.asked
  rcases hinit : P.callback .init plugin (P.attach plugin asked) with ⟨outcome, world⟩
  obtain rfl : outcome = .ok := by
    have := hr.init asked hasked
    rwa [hinit] at this
  have henrol := enrol_of_ok (h := { h with world := asked }) hinit d true
  generalize P.routes plugin world = routes at henrol
  refine ⟨⟨plugin, d, routes.1, true, false⟩,
    (initialised { h with world := asked } plugin d true .ok routes.2).enter plugin d true routes.1,
    ?_, rfl, rfl, hrouter⟩
  rw [register, describe_of_eq hcall]
  simp only [admissible_eq_ok_iff.2 ha, henrol]
  exact bindRoutes_of_no_router (by exact hrouter) d.name

end

/-! ## One module -/

namespace Site

section
variable {P : Plugins ω} {note : Note ω} {files : FileTree} {path name : String}
  {d : Descriptor} {plugin : Instance} {loader : Loader} {asked : ω} {s t : Site ω}

/-- Without router, a module whose plugin is ready and may be admitted is loaded. -/
theorem loadModule_of_ready (other : Note ω) (hrouter : s.host.router = none)
    (ha : Admissible s.host.records [] d)
    (hload : s.loader.load P files path d.name s.host.world = (.ok plugin, loader, asked))
    (hr : Ready P note plugin d asked) :
    ∃ r t, s.loadModule P other files path d.name = (.ok (), t) ∧ r.descriptor = d ∧
      t.host.records = s.host.records.insert d.name r ∧ t.host.router = none ∧
      t.loader = loader := by
  obtain ⟨r, k, hregister, hd, hrecords, hnone⟩ :=
    Host.register_of_ready (h := { s.host with world := asked }) hrouter ha hr
  refine ⟨r, ⟨{ k with world := other ⟨.register, d.name, none⟩ k.world }, loader⟩, ?_,
    hd, hrecords, hnone, rfl⟩
  rw [loadModule, load_eq hload]
  simp only [hregister, Host.noted, hr.descriptor asked .refl]

/-- The plugin of a faithful module is registered once it was loaded with success. -/
theorem contains_of_loadModule {other : Note ω} {made : Blueprint → Descriptor}
    (hf : FaithfulAt P note files made path s.host.world)
    (hload : s.loadModule P other files path name = (.ok (), t)) :
    t.host.contains name = true := by
  rcases Loader.load_faithful hf name s.loader with
    ⟨_, _, _, hmade, -⟩ | ⟨plugin, d, loader, asked, -, hmade, -, rfl, hs, -⟩
  · rw [loadModule, load_eq hmade] at hload
    cases hload
  obtain ⟨left, hcall, -⟩ := hs.asked
  have hend := Host.register_ends (h := { s.host with world := asked }) hcall
  rw [loadModule, load_eq hmade] at hload
  rcases hregister : Host.register P plugin { s.host with world := asked } with ⟨result, k⟩
  rw [hregister] at hend
  simp only [hregister] at hload
  rcases result with (e | m) | _
  · cases hload
  · cases hload
  · cases hload
    exact hend.present

/-- Without router, a plugin that a faithful module offers is loaded if it may be admitted. -/
theorem loadModule_of_admits {made : Blueprint → Descriptor} (other : Note ω)
    (hrouter : s.host.router = none) (hasc : s.host.records.Ascending) (hfree : s.host.records.get? name = none)
    (hf : FaithfulAt P note files made path s.host.world)
    (hoffered : files.offered made path name = some d) (ha : s.outline.Admits d) :
    ∃ t, s.loadModule P other files path name = (.ok (), t) := by
  rcases Loader.load_faithful hf name s.loader with
    ⟨_, _, _, -, hnone, -⟩ | ⟨plugin, e, loader, asked, library, hload, he, rfl, hs, -⟩
  · rw [hoffered] at hnone
    cases hnone
  obtain rfl : e = d := Option.some.inj (he.symm.trans hoffered)
  have hadmissible : Admissible s.host.records [] e := by
    refine (admissible_iff hasc fun n => ?_).2 ha
    split
    · rename_i hn
      rw [hn, hfree]
    · rfl
  obtain ⟨-, t, ht, -⟩ := loadModule_of_ready other hrouter hadmissible hload hs.ready
  exact ⟨t, ht⟩

/-- Who has a name after its module was loaded was offered by the module, and could be
admitted. -/
theorem Lands.of_contains {offered : Option Descriptor}
    (hl : Lands P note name s t (offered.bind (s.outline.entry true)))
    (hin : t.host.contains name = true) :
    ∃ d, offered = some d ∧ s.outline.Admits d ∧ t.outline name = some (d, true) := by
  rw [← isSome_outline, hl.outline, Option.isSome_iff_exists] at hin
  obtain ⟨entry, hentry⟩ := hin
  obtain ⟨d, rfl, hadmitted⟩ := Option.bind_eq_some_iff.1 hentry
  rw [Outline.entry] at hadmitted
  split at hadmitted
  · rename_i ha
    refine ⟨d, rfl, ha, ?_⟩
    rw [hl.outline, Option.bind_some, Outline.entry, if_pos ha]
  · cases hadmitted

end

end Site

/-! ## Whom a load leaves registered -/

/-- The record of a listed plugin, as its module made it. -/
structure Stems (P : Plugins ω) (note : Note ω) (files : FileTree) (made : Blueprint → Descriptor)
    (d : Discovered) (r : Record) (s : Site ω) : Prop where
  offered : ∃ path, d.library = some path ∧
    files.offered made path d.name = some r.descriptor
  enabled : r.enabled = true
  loaded : s.loader.isLoaded d.name = true
  steadfast : Steadfast P note r.plugin r.descriptor s.host.world

/-- Those who are registered after the modules of listed plugins were loaded one after the other,
some of them with success. -/
structure Boarded (P : Plugins ω) (note : Note ω) (files : FileTree)
    (made : Blueprint → Descriptor) (router : Option Router) (seen : List Discovered)
    (loaded : List String) (s : Site ω) : Prop where
  accrued : Host.Accrued P s.host
  attached : s.host.router = router
  stems : ∀ {n r}, s.host.records.get? n = some r →
    ∃ d ∈ seen, d.name = n ∧ Stems P note files made d r s
  registered : ∀ n ∈ loaded, s.host.contains n = true
  /-- Without router, nobody is registered whose load failed. -/
  listed : router = none → ∀ n, s.host.contains n = true → n ∈ loaded

section
variable {P : Plugins ω} {note : Note ω} {files : FileTree} {made : Blueprint → Descriptor}
  {router : Option Router} {seen ds : List Discovered} {loaded : List String} {d : Discovered}
  {r : Record} {path name : String} {s t : Site ω}

/-- A load does not touch the plugins of other names. -/
theorem Stems.spared (hs : Stems P note files made d r s) (hspares : Site.Spares name s t)
    (hne : d.name ≠ name) (hlater : Later P note s.host.world t.host.world) :
    Stems P note files made d r t where
  offered := hs.offered
  enabled := hs.enabled
  loaded := by
    rw [Loader.isLoaded, NameMap.contains, hspares.handles d.name hne]
    exact hs.loaded
  steadfast := hs.steadfast.later hlater

/-- More may have been listed than loaded. -/
theorem Boarded.mono (hb : Boarded P note files made router seen loaded s) (hsubset : seen ⊆ ds) :
    Boarded P note files made router ds loaded s where
  accrued := hb.accrued
  attached := hb.attached
  stems hr := by
    obtain ⟨e, he, hrest⟩ := hb.stems hr
    exact ⟨e, hsubset he, hrest⟩
  registered := hb.registered
  listed := hb.listed

theorem Boarded.free (hb : Boarded P note files made router seen loaded s)
    (hnew : d.name ∉ seen.map (·.name)) : s.host.records.get? d.name = none := by
  refine Option.eq_none_iff_forall_ne_some.2 fun r hr => hnew ?_
  obtain ⟨e, he, hname, -⟩ := hb.stems hr
  exact hname ▸ List.mem_map_of_mem he

/-- The load of one more module, in outline. -/
theorem Boarded.lands (hb : Boarded P note files made router seen loaded s)
    (hnew : d.name ∉ seen.map (·.name)) (hf : FaithfulAt P note files made path s.host.world) :
    Site.Lands P note d.name s (s.loadModule P Note.none files path d.name).2
      ((files.offered made path d.name).bind (s.outline.entry true)) :=
  Site.lands_loadModule (fun _ _ => .refl) hb.accrued.reachable.coherent.ascending
    (hb.free hnew) hf

/-- Whoever is registered then is as its module made it. -/
theorem Boarded.stems_loadModule (hb : Boarded P note files made router seen loaded s)
    (hpath : d.library = some path) (hnew : d.name ∉ seen.map (·.name))
    (hf : FaithfulAt P note files made path s.host.world) {n : String}
    (hr : (s.loadModule P Note.none files path d.name).2.host.records.get? n = some r) :
    ∃ e ∈ seen ++ [d], e.name = n ∧
      Stems P note files made e r (s.loadModule P Note.none files path d.name).2 := by
  have hlands := hb.lands hnew hf
  by_cases hn : n = d.name
  · subst hn
    obtain ⟨offered, he, -, houtline⟩ := hlands.of_contains (NameMap.contains_iff.2 ⟨r, hr⟩)
    obtain ⟨r', hr', rfl, hloaded⟩ := Site.outline_eq_some.1 houtline
    obtain rfl : r = r' := Option.some.inj (hr.symm.trans hr')
    exact ⟨d, List.mem_append_right _ List.mem_cons_self, rfl, ⟨path, hpath, he⟩,
      Site.enabled_loadModule (hb.free hnew) hr, hloaded, hlands.steadfast r hr⟩
  · rw [hlands.spares.records n hn] at hr
    obtain ⟨e, he, rfl, hstems⟩ := hb.stems hr
    exact ⟨e, List.mem_append_left _ he, rfl, hstems.spared hlands.spares hn
      (later_of_silent note (Site.passes_loadModule P Note.none files path d.name s).later)⟩

/-- Without router, whoever could be admitted was loaded with success. -/
theorem Boarded.loaded_of_contains (hb : Boarded P note files made router seen loaded s)
    (hnew : d.name ∉ seen.map (·.name)) (hf : FaithfulAt P note files made path s.host.world)
    (hrouter : router = none)
    (hin : (s.loadModule P Note.none files path d.name).2.host.contains d.name = true) :
    (s.loadModule P Note.none files path d.name).1 = .ok () := by
  obtain ⟨e, he, ha, -⟩ := (hb.lands hnew hf).of_contains hin
  obtain ⟨t, ht⟩ := Site.loadModule_of_admits Note.none (hb.attached.trans hrouter)
    hb.accrued.reachable.coherent.ascending (hb.free hnew) hf he ha
  exact congrArg Prod.fst ht

/-- One more module, which is loaded with success or not. -/
theorem Boarded.loadModule (hb : Boarded P note files made router seen loaded s)
    (hpath : d.library = some path) (hnew : d.name ∉ seen.map (·.name))
    (hf : FaithfulAt P note files made path s.host.world) {result : Except ModuleStop Unit}
    (hload : s.loadModule P Note.none files path d.name = (result, t)) :
    Boarded P note files made router (seen ++ [d])
        (match result with
          | .ok () => loaded ++ [d.name]
          | .error _ => loaded) t ∧
      Later P note s.host.world t.host.world := by
  have hlater := later_of_silent note
    (Site.passes_loadModule P Note.none files path d.name s).later
  have haccrued := Site.accrued_loadModule Note.none files path d.name hb.accrued
  have hrouter := Site.router_loadModule P Note.none files path d.name s
  have hspares := (hb.lands hnew hf).spares.records
  have hstems := fun {n r} => hb.stems_loadModule (n := n) (r := r) hpath hnew hf
  have hcomplete := hb.loaded_of_contains hnew hf
  have hfree := hb.free hnew
  rw [hload] at hlater haccrued hrouter hspares hstems hcomplete
  refine ⟨⟨haccrued, hrouter.trans hb.attached, hstems, ?_, fun hnone n hin => ?_⟩, hlater⟩
  · have hkept : ∀ n ∈ loaded, t.host.contains n = true := by
      intro n hn
      have hin := hb.registered n hn
      have hne : n ≠ d.name := by
        rintro rfl
        rw [Host.contains, NameMap.contains_eq_false_iff.2 hfree] at hin
        cases hin
      exact (hspares.contains hne).trans hin
    cases result with
    | error e => exact hkept
    | ok =>
      intro n hn
      rcases List.mem_append.1 hn with hn | hn
      · exact hkept n hn
      · rw [List.mem_singleton.1 hn]
        exact Site.contains_of_loadModule hf hload
  · by_cases hn : n = d.name
    · subst hn
      obtain rfl : result = .ok () := hcomplete hnone hin
      exact List.mem_append_right _ List.mem_cons_self
    · have hmem := hb.listed hnone n (hspares.contains hn ▸ hin)
      cases result with
      | error e => exact hmem
      | ok => exact List.mem_append_left _ hmem

/-- The modules of listed plugins, one after the other. -/
theorem Boarded.loadEach {report final : LoadReport}
    (hb : Boarded P note files made router seen report.loaded s)
    (hnames : ((seen ++ ds).map (·.name)).Nodup)
    (hf : ∀ d ∈ ds, ∀ path, d.library = some path →
      FaithfulAt P note files made path s.host.world)
    (hload : s.loadEach P files report ds = (.ok final, t)) :
    Boarded P note files made router (seen ++ ds) final.loaded t ∧
      Later P note s.host.world t.host.world := by
  induction ds generalizing seen report s with
  | nil =>
    cases hload
    exact ⟨(List.append_nil seen).symm ▸ hb, .refl⟩
  | cons d ds ih =>
    rw [List.append_cons] at hnames ⊢
    have hnew : d.name ∉ seen.map (·.name) := by
      rw [List.map_append, List.map_append] at hnames
      exact fun hmem => (List.nodup_append.1 (List.nodup_append.1 hnames).1).2.2 _ hmem _
        (List.mem_singleton_self _) rfl
    have hgo : ∀ {next : LoadReport} {u}, u.loadEach P files next ds = (.ok final, t) →
        Boarded P note files made router (seen ++ [d]) next.loaded u →
        Later P note s.host.world u.host.world →
        Boarded P note files made router (seen ++ [d] ++ ds) final.loaded t ∧
          Later P note s.host.world t.host.world := fun hload hboarded hlater =>
      (ih hboarded hnames (fun e he p hp => (hf e (.tail d he) p hp).later hlater) hload).imp_right
        hlater.trans
    unfold Site.loadEach at hload
    split at hload
    · exact hgo hload (hb.mono (List.subset_append_left _ _)) .refl
    rename_i path hpath
    split at hload
    · exact hgo hload (hb.mono (List.subset_append_left _ _)) .refl
    have hstep := fun {result u}
        (heq : s.loadModule P Note.none files path d.name = (result, u)) =>
      hb.loadModule hpath hnew (hf d List.mem_cons_self path hpath) heq
    split at hload
    · rename_i heq
      exact hgo hload (hstep heq).1 (hstep heq).2
    · rename_i heq
      exact hgo hload (hstep heq).1 (hstep heq).2
    · rename_i heq
      exact hgo hload (hstep heq).1 (hstep heq).2
    · cases hload

/-! ## A whole directory -/

/-- The load order lists the same plugins, dependencies first. -/
theorem perm_of_loadOrder {found ordered : List Discovered}
    (hnames : (found.map (·.name)).Nodup) (h : loadOrder found = .ok ordered) :
    ordered.Perm found ∧ Dependency.Leading (·.name) (·.dependencies) ordered := by
  unfold loadOrder at h
  simp only at h
  split at h
  · cases h
  · rename_i order horder
    cases h
    exact Dependency.perm_of_order hnames horder

theorem boarded_start (P : Plugins ω) (note : Note ω) (files : FileTree)
    (made : Blueprint → Descriptor) (router : Option Router) (w : ω) :
    Boarded P note files made router [] [] ⟨(Host.start w).setRouter router, .empty⟩ := by
  have hempty : ∀ n, ((Host.start w).setRouter router).records.get? n = none := fun n => by
    cases router <;> rfl
  refine ⟨(Host.Accrued.start w).command (.setRouter router) rfl, by cases router <;> rfl,
    fun {n r} hr => ?_, by simp, fun _ n hn => ?_⟩
  · rw [hempty] at hr
    cases hr
  · rw [Host.contains, NameMap.contains_eq_false_iff.2 (hempty n)] at hn
    cases hn

/-- After faithful modules of a directory were loaded into a new site, those who are registered
are plugins that the directory lists, as their modules made them. -/
theorem boarded_loadDirectory {dir : String} {found : List Discovered} {w : ω}
    {report : LoadReport} (hfound : discover files dir = some found)
    (hf : ∀ d ∈ found, ∀ path, d.library = some path → FaithfulAt P note files made path w)
    (hload : Site.loadDirectory P files dir ⟨(Host.start w).setRouter router, .empty⟩ =
      (.ok report, s)) :
    Boarded P note files made router found report.loaded s ∧ Later P note w s.host.world := by
  have hworld : ((Host.start w).setRouter router).world = w := by cases router <;> rfl
  have hnames : (found.map (·.name)).Nodup := by
    obtain ⟨paths, -, rfl⟩ := files_of_discover hfound
    exact nodup_result _
  unfold Site.loadDirectory at hload
  rw [hfound] at hload
  simp only at hload
  split at hload
  · cases hload
  rename_i ordered hordered
  obtain ⟨hperm, -⟩ := perm_of_loadOrder hnames hordered
  have hstart : Boarded P note files made router [] LoadReport.empty.loaded
      ⟨(Host.start w).setRouter router, .empty⟩ := boarded_start P note files made router w
  obtain ⟨hboarded, hlater⟩ := hstart.loadEach ((hperm.map _).nodup_iff.2 hnames)
    (fun d hd path hpath => hworld.symm ▸ hf d (hperm.subset hd) path hpath) hload
  exact ⟨hboarded.mono hperm.subset, hworld ▸ hlater⟩

end

end PluginHost
