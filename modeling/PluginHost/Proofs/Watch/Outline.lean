import Mathlib.Logic.Function.Basic
import PluginHost.Proofs.Registry.Coherence
import PluginHost.Proofs.Watch.Dispatch

/-!
# Changes in outline

When plugins always report the same and no callback fails, who is registered after a change
depends on a few facts only: which descriptors are registered, which of these plugins have a
handle, and what the directory offers. An `Outline` holds the first two. A change concerns the
name of its path alone, and what becomes of the name can be computed from the outline.

* `Steadfast`: a plugin that reports the same and whose callbacks succeed from some world on.
* `Outline.apply`: a change in outline.
* `Site.outline_applyChange`: it is what the change comes to.
-/
namespace PluginHost

variable {ω : Type}

/-- Whatever world changes lead to, the plugin reports the descriptor and no callback fails. -/
structure Steadfast (P : Plugins ω) (note : Note ω) (plugin : Instance) (d : Descriptor) (w : ω) :
    Prop where
  descriptor : ∀ v, Later P note w v → (P.descriptor plugin v).1 = d
  init : ∀ v, Later P note w v → (P.callback .init plugin (P.attach plugin v)).1 = .ok
  callback : ∀ stage v, stage ≠ .init → Later P note w v → (P.callback stage plugin v).1 = .ok

/-- Whatever world changes lead to, the module at a path makes steadfast plugins, which report what
its blueprint says. -/
def FaithfulAt (P : Plugins ω) (note : Note ω) (files : FileTree) (made : Blueprint → Descriptor)
    (path : String) (w : ω) : Prop :=
  ∀ blueprint, files.node? path = some (.module (.complete apiVersion (some blueprint))) →
    ∀ v, Later P note w v →
      Steadfast P note (P.construct blueprint v).1 (made blueprint) (P.construct blueprint v).2

/-- Whatever world changes lead to, the modules in the tree make steadfast plugins, which report
what their blueprint says. -/
def Faithful (P : Plugins ω) (note : Note ω) (files : FileTree) (made : Blueprint → Descriptor)
    (w : ω) : Prop :=
  ∀ path, FaithfulAt P note files made path w

section
variable {P : Plugins ω} {note : Note ω} {plugin : Instance} {d : Descriptor} {v w : ω}

theorem Steadfast.later (hs : Steadfast P note plugin d w) (hv : Later P note w v) :
    Steadfast P note plugin d v where
  descriptor u hu := hs.descriptor u (hv.trans hu)
  init u hu := hs.init u (hv.trans hu)
  callback stage u hstage hu := hs.callback stage u hstage (hv.trans hu)

theorem FaithfulAt.later {files : FileTree} {made : Blueprint → Descriptor} {path : String}
    (hf : FaithfulAt P note files made path w) (hv : Later P note w v) :
    FaithfulAt P note files made path v :=
  fun blueprint hnode u hu => hf blueprint hnode u (hv.trans hu)

theorem Faithful.later {files : FileTree} {made : Blueprint → Descriptor}
    (hf : Faithful P note files made w) (hv : Later P note w v) : Faithful P note files made v :=
  fun path => (hf path).later hv

theorem Steadfast.asked (hs : Steadfast P note plugin d w) :
    ∃ asked, P.descriptor plugin w = (d, asked) ∧ Later P note w asked :=
  ⟨_, Prod.ext (hs.descriptor w .refl) rfl, .single (.served (.descriptor plugin w))⟩

end

/-! ## Steadfast plugins in a registry -/

namespace Host

section
variable {P : Plugins ω} {note : Note ω} {h : Host ω} {plugin : Instance} {d e : Descriptor}
  {name : String} {old : Record}

theorem evict_steadfast (hold : h.records.get? name = some old)
    (hs : Steadfast P note old.plugin e h.world) : ∃ world, Later P note h.world world ∧
      h.evict P name = (.ok (), h.evicted name old .ok world) := by
  rcases hcall : P.callback .shutdown old.plugin h.world with ⟨outcome, world⟩
  obtain rfl : outcome = .ok := by
    have := hs.callback .shutdown h.world (by simp) .refl
    rwa [hcall] at this
  refine ⟨world, .single (.served (.callback (by simp) hcall)), ?_⟩
  rw [evict_of_some hold hcall (by simp)]
  rfl

/-- A steadfast plugin is admitted exactly when it may be. -/
theorem SettleEnd.steadfast {enabled : Bool} {result : Except Stop Unit} {k : Host ω}
    (hend : SettleEnd P plugin d enabled h result k)
    (hs : Steadfast P note plugin d h.world) :
    (Admissible h.records [] d → ∃ r, k.records.get? d.name = some r ∧ r.plugin = plugin ∧
        r.descriptor = d) ∧
      (¬ Admissible h.records [] d → k.records.get? d.name = h.records.get? d.name) := by
  cases hend with
  | refused ha => exact ⟨fun h => absurd h ha, fun _ => rfl⟩
  | turnedAway ha hcall ho =>
    have := hs.init h.world .refl
    rw [hcall] at this
    exact absurd this ho
  | entered ha _ _ hr hplugin hdescriptor =>
    exact ⟨fun _ => ⟨_, hr, hplugin, hdescriptor⟩, fun hnot => absurd ha hnot⟩

/-- A steadfast plugin takes the place of another one exactly when it may be admitted next to the
others; if not, the name is free. -/
theorem replace_steadfast (hold : h.records.get? name = some old)
    (hs : Steadfast P note old.plugin e h.world) (hplugin : Steadfast P note plugin d h.world)
    (hname : d.name = name) :
    (Admissible (h.records.erase name) [] d →
        ∃ r, (h.replace P name old plugin).2.records.get? name = some r ∧ r.plugin = plugin ∧
          r.descriptor = d) ∧
      (¬ Admissible (h.records.erase name) [] d →
        (h.replace P name old plugin).2.records.get? name = none) := by
  subst hname
  obtain ⟨asked, hcall, hasked⟩ := hplugin.asked
  obtain ⟨gone, hgone, hevict⟩ :=
    evict_steadfast (h := { h with world := asked }) hold (hs.later hasked)
  rw [replace_eq_settle hcall rfl, hevict]
  obtain ⟨hadmitted, hrefused⟩ := (settle_ends P plugin d old.enabled
    (evicted { h with world := asked } d.name old .ok gone)).steadfast
    (hplugin.later (hasked.trans hgone))
  exact ⟨hadmitted, fun ha => (hrefused ha).trans
    ((NameMap.get?_erase _ _ _).trans (if_pos rfl))⟩

end

end Host

/-! ## What a directory offers -/

/-- The descriptor of the named plugin that the module at a path makes, if it makes one. -/
def FileTree.offered (files : FileTree) (made : Blueprint → Descriptor) (path name : String) :
    Option Descriptor :=
  match files.node? path with
  | some (.module (.complete version (some blueprint))) =>
    if version = apiVersion ∧ (made blueprint).name = name ∧ Text.isBlank name = false then
      some (made blueprint)
    else none
  | _ => none

/-- The descriptor of the named plugin that its module in a directory makes. -/
def Watched.offer (watched : Watched ω) (made : Blueprint → Descriptor) (name : String) :
    Option Descriptor :=
  (PluginFile.findLibrary watched.files watched.dir name).bind fun path =>
    watched.files.offered made path name

/-- What is offered is what a blueprint makes, and has the name. -/
theorem made_of_offered {files : FileTree} {made : Blueprint → Descriptor} {path name : String}
    {d : Descriptor} (h : files.offered made path name = some d) :
    (∃ blueprint, made blueprint = d) ∧ d.name = name := by
  unfold FileTree.offered at h
  split at h
  · rename_i blueprint _
    split at h
    · rename_i hmade
      cases h
      exact ⟨⟨blueprint, rfl⟩, hmade.2.1⟩
    · cases h
  · cases h

/-- A load from a faithful module: it succeeds exactly when the module offers the plugin. -/
theorem Loader.load_faithful {P : Plugins ω} {note : Note ω} {files : FileTree}
    {made : Blueprint → Descriptor} {path : String} {w : ω}
    (hf : FaithfulAt P note files made path w) (name : String) (l : Loader) :
    (∃ e loader world, l.load P files path name w = (.error e, loader, world) ∧
        files.offered made path name = none ∧
        ∀ n, loader.handles.get? n = if n = name then none else l.handles.get? n) ∨
      ∃ plugin d loader asked library, l.load P files path name w = (.ok plugin, loader, asked) ∧
        files.offered made path name = some d ∧ d.name = name ∧
        Steadfast P note plugin d asked ∧
        ∀ n, loader.handles.get? n =
          if n = name then some ⟨path, library⟩ else l.handles.get? n := by
  have hend := load_ends P files path name l w
  rcases hload : l.load P files path name w with ⟨result, loader, world⟩
  rw [hload] at hend
  cases hend with
  | @failed e _ _ hnone hhandles =>
    refine Or.inl ⟨e, loader, world, rfl, ?_, hhandles⟩
    unfold FileTree.offered
    split
    · rename_i version blueprint hnode
      refine if_neg fun ⟨hversion, hname, hblank⟩ => ?_
      subst hversion
      -- a module that offers the plugin would have made an instance of it
      obtain ⟨asked, hcall, -⟩ := (hf blueprint hnode w .refl).asked
      exact hnone (P.construct blueprint w).1 asked
        ⟨_, made blueprint, ⟨blueprint, hnode, rfl⟩, hcall, hname, hblank⟩
    · rfl
  | @loaded plugin _ _ library hprovides hhandles =>
    obtain ⟨left, d, ⟨blueprint, hnode, hmade⟩, hcall, hname, hblank⟩ := hprovides
    have hs := hf blueprint hnode w .refl
    rw [hmade] at hs
    obtain rfl : made blueprint = d := by
      have := hs.descriptor left .refl
      rw [hcall] at this
      exact this.symm
    refine Or.inr ⟨plugin, made blueprint, loader, world, library, rfl, ?_, hname, ?_, hhandles⟩
    · rw [FileTree.offered, hnode]
      exact if_pos ⟨rfl, hname, hblank⟩
    · have hasked : Onward P note left (P.descriptor plugin left).2 :=
        .served (.descriptor plugin left)
      rw [hcall] at hasked
      exact hs.later (.single hasked)

/-! ## Outlines -/

/-- What is registered under each name, and whether there is a handle for it. -/
abbrev Outline := String → Option (Descriptor × Bool)

namespace Outline

/-- The plugin may be admitted next to those of the other names. -/
def Admits (o : Outline) (d : Descriptor) : Prop :=
  Text.isBlank d.name = false ∧
    (∀ n ∈ d.dependencies, n ≠ d.name ∧ (o n).isSome = true) ∧
    ∀ n e loaded, n ≠ d.name → o n = some (e, loaded) → d.clashes e = false

open Classical in
/-- What a name has after the plugin was admitted, or turned away. -/
noncomputable def entry (o : Outline) (loaded : Bool) (d : Descriptor) :
    Option (Descriptor × Bool) :=
  if o.Admits d then some (d, loaded) else none

/-- A manifest allows its plugin to be loaded. -/
def allows (o : Outline) (files : FileTree) (path : Option String) : Bool :=
  match path with
  | none => true
  | some path =>
    match Manifest.load files path with
    | .error _ => false
    | .ok m => m.supports apiVersion && m.dependencies.all fun n => (o n).isSome

/-- What a name has after one of its files changed that is there. -/
noncomputable def changed (watched : Watched ω) (made : Blueprint → Descriptor) (name : String)
    (o : Outline) : Option (Descriptor × Bool) :=
  match o name with
  | none =>
    if o.allows watched.files (PluginFile.findManifest watched.files watched.dir name) then
      (watched.offer made name).bind (o.entry true)
    else none
  | some (d, loaded) =>
    if loaded && (PluginFile.findLibrary watched.files watched.dir name).isSome then
      (watched.offer made name).bind (o.entry true)
    else o.entry loaded d

/-- What a name has after one of its files changed, which is there or was removed. -/
noncomputable def becomes (watched : Watched ω) (made : Blueprint → Descriptor) (name : String)
    (there : Bool) (o : Outline) : Option (Descriptor × Bool) :=
  if there then o.changed watched made name else none

/-- The outline after the file at a path changed or was removed. -/
noncomputable def apply (watched : Watched ω) (made : Blueprint → Descriptor) (path : String)
    (o : Outline) : Outline :=
  match PluginFile.classify (Text.utf8 path) with
  | none => o
  | some (name, _) =>
    Function.update o name (o.becomes watched made name (watched.files.pathExists path))

end Outline

namespace Site

/-- The outline of a site. -/
def outline (s : Site ω) : Outline := fun n =>
  (s.host.records.get? n).map fun r => (r.descriptor, s.loader.isLoaded n)

/-- A change of one name: the others are spared, the name has what is said, and the plugin it has
is steadfast. -/
structure Lands (P : Plugins ω) (note : Note ω) (name : String) (s t : Site ω)
    (ending : Option (Descriptor × Bool)) : Prop where
  spares : Spares name s t
  outline : t.outline name = ending
  steadfast : ∀ r, t.host.records.get? name = some r →
    Steadfast P note r.plugin r.descriptor t.host.world

section
variable {P : Plugins ω} {watched : Watched ω} {note : Note ω} {made : Blueprint → Descriptor}
  {files : FileTree} {s t : Site ω} {path name : String} {old : Record}

theorem isSome_outline (s : Site ω) (n : String) : (s.outline n).isSome = s.host.contains n :=
  Option.isSome_map

theorem outline_eq_some {d : Descriptor} {loaded : Bool} :
    s.outline name = some (d, loaded) ↔ ∃ r, s.host.records.get? name = some r ∧
      r.descriptor = d ∧ s.loader.isLoaded name = loaded := by
  simp [outline]

/-- The check of an admission in outline, against the records of the other names. -/
theorem admissible_iff {d : Descriptor} {records : NameMap Record} (hasc : records.Ascending)
    (hothers : ∀ n, records.get? n = if n = d.name then none else s.host.records.get? n) :
    Admissible records [] d ↔ s.outline.Admits d := by
  have hget : ∀ n r, records.get? n = some r ↔
      n ≠ d.name ∧ s.host.records.get? n = some r := by
    intro n r
    rw [hothers]
    by_cases hn : n = d.name <;> simp [hn]
  have hcontains : ∀ n, records.contains n = true ↔
      n ≠ d.name ∧ (s.outline n).isSome = true := by
    intro n
    rw [NameMap.contains_iff, isSome_outline, Host.contains, NameMap.contains_iff]
    simp [hget]
  constructor
  · intro ha
    refine ⟨ha.named, fun n hn => ?_, fun n e loaded hn he => ?_⟩
    · simpa using (ha.present n hn).imp_left (hcontains n).1
    · obtain ⟨r, hr, rfl, -⟩ := outline_eq_some.1 he
      exact ha.compatible r (NameMap.mem_values_of_get? ((hget n r).2 ⟨hn, hr⟩))
  · rintro ⟨hnamed, hpresent, hcompatible⟩
    refine ⟨hnamed, ?_, fun n hn => Or.inl ((hcontains n).2 (hpresent n hn)), fun r hr => ?_,
      by simp⟩
    · exact NameMap.contains_eq_false_iff.2 ((hothers _).trans (if_pos rfl))
    · obtain ⟨n, hr⟩ := hasc.mem_values_iff.1 hr
      obtain ⟨hn, hr⟩ := (hget n r).1 hr
      exact hcompatible n r.descriptor _ hn (outline_eq_some.2 ⟨r, hr, rfl, rfl⟩)

theorem allowsManifest_eq (s : Site ω) (files : FileTree) (manifest : Option String) :
    s.host.allowsManifest files manifest = s.outline.allows files manifest := by
  cases manifest with
  | none => rfl
  | some path =>
    cases hload : Manifest.load files path with
    | error _ => simp only [Host.allowsManifest, Outline.allows, hload]
    | ok m => simp only [Host.allowsManifest, Outline.allows, hload, isSome_outline]

/-! ## One change -/

theorem Lands.of_free (hspares : Spares name s t) (hfree : t.host.records.get? name = none) :
    Lands P note name s t none where
  spares := hspares
  outline := by rw [Site.outline, hfree, Option.map_none]
  steadfast r hr := by
    rw [hfree] at hr
    cases hr

/-- A plugin is admitted, or the name is free. -/
theorem Lands.of_entry {plugin : Instance} {d : Descriptor} {loaded : Bool}
    (hspares : Spares name s t) (hs : Steadfast P note plugin d t.host.world)
    (hadmitted : s.outline.Admits d → ∃ r, t.host.records.get? name = some r ∧
      r.plugin = plugin ∧ r.descriptor = d ∧ t.loader.isLoaded name = loaded)
    (hrefused : ¬ s.outline.Admits d → t.host.records.get? name = none) :
    Lands P note name s t (s.outline.entry loaded d) := by
  by_cases ha : s.outline.Admits d
  · obtain ⟨r, hr, rfl, rfl, hloaded⟩ := hadmitted ha
    refine ⟨hspares, ?_, fun r' hr' => ?_⟩
    · rw [Outline.entry, if_pos ha]
      exact outline_eq_some.2 ⟨r, hr, rfl, hloaded⟩
    · rw [hr] at hr'
      cases hr'
      exact hs
  · rw [Outline.entry, if_neg ha]
    exact .of_free hspares (hrefused ha)

/-- A registered plugin has the handle that the load of its module left. -/
theorem Concludes.isLoaded {loader : Loader} {result : Except Stop Unit} {host : Host ω}
    {handle : Handle} (hc : Concludes name loader result host t)
    (hhandle : loader.handles.get? name = some handle) {r : Record}
    (hr : t.host.records.get? name = some r) : t.loader.isLoaded name = true := by
  rcases hc.loader_eq with ⟨hloader, -⟩ | ⟨-, -, hfree⟩
  · rw [hloader]
    exact Loader.isLoaded_iff.2 ⟨handle, hhandle⟩
  · rw [hc.host_eq] at hr
    rw [Host.contains, NameMap.contains_iff.2 ⟨r, hr⟩] at hfree
    cases hfree

/-- The module of a name that nobody has, whether the registration is noted or not. -/
theorem lands_loadModule {other : Note ω} (hother : ∀ notice v, Later P note v (other notice v))
    (hasc : s.host.records.Ascending) (hfree : s.host.records.get? name = none)
    (hf : FaithfulAt P note files made path s.host.world) :
    Lands P note name s (s.loadModule P other files path name).2
      ((files.offered made path name).bind (s.outline.entry true)) := by
  rcases Loader.load_faithful hf name s.loader with
    ⟨e, loader, world, hload, hoffered, hhandles⟩ |
    ⟨plugin, d, loader, asked, library, hload, hoffered, rfl, hs, hhandles⟩
  · rw [hoffered, loadModule_of_failed hload ((hhandles name).trans (if_pos rfl))]
    exact .of_free ⟨.refl _ _, fun n hn => (hhandles n).trans (if_neg hn)⟩ hfree
  · obtain ⟨gone, hcall, hgone⟩ := hs.asked
    have hend := Host.register_ends (h := { s.host with world := asked }) hcall
    have hpasses := (Host.strides_register P plugin { s.host with world := asked }).passes.trans
      (Host.passes_noted_of .register (P.descriptor plugin asked).1.name _ hother)
    rcases hended : Host.noted other .register (P.descriptor plugin asked).1.name
      (Host.register P plugin { s.host with world := asked }) with ⟨result, host⟩
    have hc := loadModule_of_loaded hload hended
    obtain ⟨-, hrecords, -⟩ := Host.ended_of_noted hended
    rw [hended] at hpasses
    obtain ⟨hadmitted, hrefused⟩ := hend.steadfast (hs.later hgone)
    have hadmissible : Admissible s.host.records [] d ↔ s.outline.Admits d :=
      admissible_iff hasc fun n => by
        split
        · rename_i hn
          rw [hn, hfree]
        · rfl
    rw [← hc.host_eq] at hpasses hrecords
    rw [hoffered, Option.bind_some]
    refine .of_entry ⟨fun n hn => ?_, fun n hn => ?_⟩ (hs.later hpasses.later) (fun ha => ?_)
      fun ha => ?_
    · rw [← hrecords]
      exact hend.spares n hn
    · exact (hc.handles hn).trans ((hhandles n).trans (if_neg hn))
    · obtain ⟨r, hr, hplugin, hdescriptor⟩ := hadmitted (hadmissible.2 ha)
      rw [hrecords] at hr
      exact ⟨r, hr, hplugin, hdescriptor, hc.isLoaded ((hhandles _).trans (if_pos rfl)) hr⟩
    · rw [← hrecords]
      exact (hrefused (ha ∘ hadmissible.1)).trans hfree

/-- The module of a registered plugin. -/
theorem lands_reloadModule (hi : Coherent s.host.records)
    (hold : s.host.records.get? name = some old)
    (hs : Steadfast P watched.note old.plugin old.descriptor s.host.world)
    (hf : FaithfulAt P watched.note watched.files made path s.host.world) :
    Lands P watched.note name s (s.reloadModule P watched path name)
      ((watched.files.offered made path name).bind (s.outline.entry true)) := by
  have hspares : Spares name s (s.reloadModule P watched path name) := spares_reloadModule hold
  have hlater := Loader.later_load P watched.note watched.files path name s.loader s.host.world
  rcases Loader.load_faithful hf name s.loader with
    ⟨e, loader, world, hload, hoffered, hhandles⟩ |
    ⟨plugin, d, loader, asked, library, hload, hoffered, rfl, hplugin, hhandles⟩
  · rw [hload] at hlater
    rw [hoffered, Option.bind_none]
    refine .of_free hspares ?_
    obtain ⟨gone, -, hevict⟩ := Host.evict_steadfast (h := { s.host with world }) hold
      (hs.later hlater)
    rw [reloadModule_of_failed hload, Host.noted_records, hevict]
    exact (NameMap.get?_erase _ _ _).trans (if_pos rfl)
  · rw [hload] at hlater
    obtain ⟨hadmitted, hrefused⟩ := Host.replace_steadfast (h := { s.host with world := asked })
      hold (hs.later hlater) hplugin rfl
    have hadmissible : Admissible (s.host.records.erase d.name) [] d ↔ s.outline.Admits d :=
      admissible_iff (hi.ascending.erase d.name) fun n => NameMap.get?_erase _ _ _
    have hpasses := (Host.strides_replace (h := { s.host with world := asked }) P plugin
      hold).passes.trans (Host.passes_noted watched.note .reloadWith d.name _)
    rcases hended : Host.noted watched.note .reloadWith d.name
      (Host.replace P d.name old plugin { s.host with world := asked }) with ⟨result, host⟩
    have hc := reloadModule_of_loaded hold hload hended
    obtain ⟨-, hrecords, -⟩ := Host.ended_of_noted hended
    rw [hended] at hpasses
    rw [← hc.host_eq] at hpasses hrecords
    rw [hrecords] at hadmitted hrefused
    rw [hoffered, Option.bind_some]
    refine .of_entry hspares (hplugin.later hpasses.later) (fun ha => ?_) fun ha =>
      hrefused (ha ∘ hadmissible.1)
    obtain ⟨r, hr, hsame, hdescriptor⟩ := hadmitted (hadmissible.2 ha)
    exact ⟨r, hr, hsame, hdescriptor, hc.isLoaded ((hhandles _).trans (if_pos rfl)) hr⟩

/-- A registered plugin that is initialised again. -/
theorem lands_reload (hi : Coherent s.host.records) (hold : s.host.records.get? name = some old)
    (hs : Steadfast P note old.plugin old.descriptor s.host.world) :
    Lands P note name s ⟨(Host.noted note .reload name (s.host.reload P name)).2, s.loader⟩
      (s.outline.entry (s.loader.isLoaded name) old.descriptor) := by
  obtain rfl := hi.named hold
  have hreload : s.host.reload P old.descriptor.name =
      s.host.replace P old.descriptor.name old old.plugin := by
    rw [Host.reload, hold]
  have hspares := Host.spares_replace P old.descriptor.name old old.plugin s.host
  have hpasses := (Host.strides_replace P old.plugin hold).passes.trans
    (Host.passes_noted note .reload old.descriptor.name
      (s.host.replace P old.descriptor.name old old.plugin))
  obtain ⟨hadmitted, hrefused⟩ := Host.replace_steadfast hold hs hs rfl
  have hadmissible : Admissible (s.host.records.erase old.descriptor.name) [] old.descriptor ↔
      s.outline.Admits old.descriptor :=
    admissible_iff (hi.ascending.erase _) fun n => NameMap.get?_erase _ _ _
  rw [hreload]
  refine .of_entry ⟨fun n hn => ?_, fun _ _ => rfl⟩ (hs.later hpasses.later) (fun ha => ?_)
    fun ha => ?_
  · rw [Host.noted_records]
    exact hspares n hn
  · obtain ⟨r, hr, hplugin, hdescriptor⟩ := hadmitted (hadmissible.2 ha)
    refine ⟨r, ?_, hplugin, hdescriptor, rfl⟩
    rw [Host.noted_records]
    exact hr
  · rw [Host.noted_records]
    exact hrefused (ha ∘ hadmissible.1)

theorem lands_handleChange (hi : Coherent s.host.records)
    (hs : ∀ r, s.host.records.get? name = some r →
      Steadfast P watched.note r.plugin r.descriptor s.host.world)
    (hf : Faithful P watched.note watched.files made s.host.world) :
    Lands P watched.note name s (s.handleChange P watched name)
      (s.outline.changed watched made name) := by
  have hway := handleChange_goes P watched name s
  generalize s.handleChange P watched name = t at hway ⊢
  have hnone : s.host.records.get? name = none → s.outline name = none :=
    fun hfree => by rw [outline, hfree, Option.map_none]
  have hsome : ∀ {old}, s.host.records.get? name = some old →
      s.outline name = some (old.descriptor, s.loader.isLoaded name) :=
    fun hold => outline_eq_some.2 ⟨_, hold, rfl, rfl⟩
  unfold Outline.changed Watched.offer
  cases hway with
  | idle hfree hwhy =>
    have hstays : Lands P watched.note name s s none := .of_free ⟨.refl _ _, fun _ _ => rfl⟩ hfree
    rw [hnone hfree, ← allowsManifest_eq]
    rcases hwhy with hlib | hmanifest
    · rw [hlib, Option.bind_none, Option.bind_none]
      simp only [ite_self]
      exact hstays
    · rw [hmanifest]
      exact hstays
  | install hfree hlib hmanifest =>
    rw [hnone hfree, ← allowsManifest_eq, hmanifest, hlib, Option.bind_some]
    exact lands_loadModule (fun _ _ => .single (.noted _ _)) hi.ascending hfree (hf _)
  | renew hold hloaded hlib =>
    rw [hsome hold, hloaded, hlib, Option.bind_some]
    exact lands_reloadModule hi hold (hs _ hold) (hf _)
  | revive hold hmodule =>
    rw [hsome hold]
    simp only
    rw [if_neg fun hboth => ?_]
    · exact lands_reload hi hold (hs _ hold)
    · rw [Bool.and_eq_true] at hboth
      rw [hmodule hboth.1] at hboth
      cases hboth.2

theorem lands_handleRemoval (hs : ∀ r, s.host.records.get? name = some r →
      Steadfast P watched.note r.plugin r.descriptor s.host.world) :
    Lands P watched.note name s (s.handleRemoval P watched name) none := by
  refine .of_free (spares_handleRemoval P watched name s) ?_
  cases hold : s.host.records.get? name with
  | none =>
    rw [handleRemoval_of_absent (NameMap.contains_eq_false_iff.2 hold)]
    exact hold
  | some old =>
    obtain ⟨gone, -, hevict⟩ := Host.evict_steadfast hold (hs old hold)
    rw [handleRemoval_of_present (NameMap.contains_iff.2 ⟨old, hold⟩) (congrArg _ hevict)]
    exact (NameMap.get?_erase _ _ _).trans (if_pos rfl)

/-- A change in outline: all other names have what they had. -/
theorem Lands.outline_eq {ending : Option (Descriptor × Bool)} (hl : Lands P note name s t ending) :
    t.outline = Function.update s.outline name ending := by
  funext n
  by_cases hn : n = name
  · rw [hn, Function.update_self, hl.outline]
  · have hloaded : t.loader.isLoaded n = s.loader.isLoaded n := by
      rw [Loader.isLoaded, NameMap.contains, hl.spares.handles n hn]
      rfl
    rw [Function.update_of_ne hn, Site.outline, hl.spares.records n hn, hloaded]
    rfl

/-! ## A run of changes -/

/-- Records stand together, the plugins that are registered under some names are steadfast, and
so are those that the modules in a tree make. -/
structure Sound (P : Plugins ω) (note : Note ω) (named : String → Prop) (files : FileTree)
    (made : Blueprint → Descriptor) (s : Site ω) : Prop where
  coherent : Coherent s.host.records
  steadfast : ∀ n, named n → ∀ r, s.host.records.get? n = some r →
    Steadfast P note r.plugin r.descriptor s.host.world
  faithful : Faithful P note files made s.host.world

variable {named : String → Prop}

theorem Lands.sound {ending : Option (Descriptor × Bool)} (hl : Lands P note name s t ending)
    (hpasses : Host.Passes P note s.host t.host) (hs : Sound P note named files made s) :
    Sound P note named files made t where
  coherent := Host.Moves.invariant (I := fun h => Coherent h.records)
    (fun _ _ => Host.coherent_move) hpasses.moves hs.coherent
  steadfast n hn r hr := by
    by_cases heq : n = name
    · exact hl.steadfast r (heq ▸ hr)
    · rw [hl.spares.records n heq] at hr
      exact (hs.steadfast n hn r hr).later hpasses.later
  faithful := hs.faithful.later hpasses.later

theorem sound_applyChange (hs : Sound P watched.note named watched.files made s)
    (hnamed : ∀ n kind, PluginFile.classify (Text.utf8 path) = some (n, kind) → named n) :
    (s.applyChange P watched path).outline = s.outline.apply watched made path ∧
      Sound P watched.note named watched.files made (s.applyChange P watched path) := by
  unfold Outline.apply
  have hpasses := passes_applyChange P watched path s
  cases hpath : PluginFile.classify (Text.utf8 path) with
  | none =>
    rw [applyChange_of_unrecognized hpath]
    exact ⟨rfl, hs⟩
  | some file =>
    obtain ⟨name, kind⟩ := file
    have hregistered := hs.steadfast name (hnamed name kind hpath)
    cases hexists : watched.files.pathExists path with
    | true =>
      rw [applyChange_of_exists hpath hexists] at hpasses ⊢
      have hlands := lands_handleChange hs.coherent hregistered hs.faithful
      exact ⟨hlands.outline_eq, hlands.sound hpasses hs⟩
    | false =>
      rw [applyChange_of_missing hpath hexists] at hpasses ⊢
      have hlands : Lands P watched.note name s (s.handleRemoval P watched name) none :=
        lands_handleRemoval hregistered
      exact ⟨hlands.outline_eq, hlands.sound hpasses hs⟩

/-- Changes that are applied one after the other, in outline. -/
theorem outline_foldl_applyChange (watched : Watched ω)
    (hs : Sound P watched.note named watched.files made s) (paths : List String)
    (hnamed : ∀ path ∈ paths, ∀ n kind,
      PluginFile.classify (Text.utf8 path) = some (n, kind) → named n) :
    (paths.foldl (fun s path => s.applyChange P watched path) s).outline =
      paths.foldl (fun o path => o.apply watched made path) s.outline := by
  induction paths generalizing s with
  | nil => rfl
  | cons path paths ih =>
    obtain ⟨houtline, hsound⟩ := sound_applyChange hs (hnamed path List.mem_cons_self)
    rw [List.foldl_cons, List.foldl_cons, ← houtline]
    exact ih hsound fun p hp => hnamed p (List.mem_cons_of_mem _ hp)

end

end Site

end PluginHost
