import PluginHost.Watch.Dispatch
import PluginHost.Proofs.Loader
import PluginHost.Proofs.Registry.Locality

/-!
# What the application of a change is made of

To apply a change is to load a module, to have the registry register, replace or unregister the
plugin, and to note what became of it. For the host this is a run of moves, and the world goes
through calls of plugins, constructions and notices only, wherever the change ends.

* `Later`: the worlds that the application of changes can lead to.
* `Site.passes_applyChange`: what a whole application is for the host and the world.
* `Site.handleChange_goes`: the four ways that the change of a file goes.
* `Site.reloadModule_ends`: how a plugin comes out of a reload from its module.
-/
namespace PluginHost

variable {ω : Type}

/-- One step of the world while changes are applied: a plugin is called, an instance is made, or
a change is noted. -/
inductive Onward (P : Plugins ω) (note : Note ω) : ω → ω → Prop where
  | served {v w : ω} (hserved : Served P v w) : Onward P note v w
  | made (blueprint : Blueprint) (w : ω) : Onward P note w (P.construct blueprint w).2
  | noted (notice : Notice) (w : ω) : Onward P note w (note notice w)

/-- The worlds that come after a world while changes are applied. -/
abbrev Later (P : Plugins ω) (note : Note ω) : ω → ω → Prop :=
  Relation.ReflTransGen (Onward P note)

theorem Loader.later_load (P : Plugins ω) (note : Note ω) (files : FileTree) (path name : String)
    (l : Loader) (w : ω) : Later P note w (l.load P files path name w).2.2 := by
  have hinstantiate : ∀ image, Later P note w (instantiate P path name image w).2 := by
    intro image
    unfold instantiate
    split
    · exact .refl
    · exact .refl
    split
    · exact .refl
    split
    · exact .refl
    rename_i blueprint
    have hasked : Later P note w (P.descriptor (P.construct blueprint w).1
        (P.construct blueprint w).2).2 :=
      (Relation.ReflTransGen.single (.made blueprint w)).tail (.served (.descriptor _ _))
    simp only
    split
    · exact hasked
    · exact hasked
  unfold load
  split
  · exact .refl
  · rename_i image _
    have := hinstantiate image
    simp only
    split
    · rename_i heq
      rw [heq] at this
      exact this
    · rename_i heq
      rw [heq] at this
      exact this
  · exact .refl

namespace Host

/-- A run of moves during which the world goes on as it does while changes are applied. -/
structure Passes (P : Plugins ω) (note : Note ω) (h k : Host ω) : Prop where
  moves : Moves h k
  later : Later P note h.world k.world

section
variable {P : Plugins ω} {note : Note ω} {h k l : Host ω}

theorem Passes.refl (h : Host ω) : Passes P note h h :=
  ⟨.refl, .refl⟩

theorem Passes.trans (hhk : Passes P note h k) (hkl : Passes P note k l) : Passes P note h l :=
  ⟨hhk.moves.trans hkl.moves, hhk.later.trans hkl.later⟩

theorem Strides.passes (hs : Strides P h k) : Passes P note h k :=
  ⟨hs.moves, Relation.ReflTransGen.mono (fun _ _ => .served) _ _ hs.served⟩

theorem Passes.world {w : ω} (hw : Later P note h.world w) :
    Passes P note h { h with world := w } :=
  ⟨.single (.world h w), hw⟩

theorem Moves.journal_suffix (hm : Moves h k) : h.journal <:+ k.journal := by
  induction hm with
  | refl => exact List.suffix_refl _
  | tail _ hlast ih => exact ih.trans hlast.journal_suffix

/-- No call panicked during the moves if none of the calls in the journal did. -/
theorem Moves.quiet (hm : Moves h k) (hreturned : ∀ c ∈ k.journal, c.outcome.returned = true) :
    Quiet h k := by
  obtain ⟨calls, hcalls⟩ := hm.journal_suffix
  exact ⟨calls, hcalls.symm, fun c hc => hreturned c (hcalls ▸ List.mem_append_left _ hc)⟩

/-! ## Notices -/

section
variable (note : Note ω) (change : Change) (name : String) (ended : Except Stop Unit × Host ω)

@[simp] theorem noted_result : (noted note change name ended).1 = ended.1 := by
  obtain ⟨result, h⟩ := ended
  rcases result with (_ | _) | _ <;> rfl

@[simp] theorem noted_records : (noted note change name ended).2.records = ended.2.records := by
  obtain ⟨result, h⟩ := ended
  rcases result with (_ | _) | _ <;> rfl

@[simp] theorem noted_journal : (noted note change name ended).2.journal = ended.2.journal := by
  obtain ⟨result, h⟩ := ended
  rcases result with (_ | _) | _ <;> rfl

variable {note change name ended} in
/-- A notice leaves all but the world as it was. -/
theorem ended_of_noted {result : Except Stop Unit} {k : Host ω}
    (hended : noted note change name ended = (result, k)) :
    ended.1 = result ∧ ended.2.records = k.records ∧ ended.2.journal = k.journal := by
  rw [← noted_result note change name ended, ← noted_records note change name ended,
    ← noted_journal note change name ended, hended]
  exact ⟨rfl, rfl, rfl⟩

variable {note} in
/-- To note a change is a step of the world, or several, or none. -/
theorem passes_noted_of {other : Note ω} (hother : ∀ notice v, Later P note v (other notice v)) :
    Passes P note ended.2 (noted other change name ended).2 := by
  obtain ⟨result, h⟩ := ended
  rcases result with (e | m) | _
  · exact .world (hother _ _)
  · exact .refl _
  · exact .world (hother _ _)

theorem passes_noted : Passes P note ended.2 (noted note change name ended).2 :=
  passes_noted_of _ _ _ fun _ _ => .single (.noted _ _)

end

end

end Host

namespace Site

/-- The records and handles of all other names are as they were. -/
structure Spares (name : String) (s t : Site ω) : Prop where
  records : Host.Spares name s.host t.host
  handles : ∀ n, n ≠ name → t.loader.handles.get? n = s.loader.handles.get? n

/-- For every other name a record stays as it is, and so does the handle. -/
structure Retains (name : String) (s t : Site ω) : Prop where
  records : ∀ {n r}, n ≠ name → s.host.records.get? n = some r → t.host.records.get? n = some r
  handles : ∀ n, n ≠ name → t.loader.handles.get? n = s.loader.handles.get? n

/-- The registry ended so with a plugin whose module was loaded. The handle that the load left
stays, unless the plugin was refused and the name is free. -/
structure Concludes (name : String) (loader : Loader) (result : Except Stop Unit) (host : Host ω)
    (t : Site ω) : Prop where
  host_eq : t.host = host
  loader_eq : t.loader = loader ∧
      ((∃ e, result = .error (.refused e)) → host.contains name = true) ∨
    t.loader = loader.unload name ∧ (∃ e, result = .error (.refused e)) ∧
      host.contains name = false

/-- How a reload of a registered plugin from a module ends: without a module the plugin is
evicted, with one it is replaced. -/
inductive ReloadEnd (P : Plugins ω) (watched : Watched ω) (path name : String) (s : Site ω)
    (old : Record) (t : Site ω) : Prop where
  | failed {world : ω}
      (hhandles : ∀ n,
        t.loader.handles.get? n = if n = name then none else s.loader.handles.get? n)
      (hrecords : t.host.records = (Host.evict P name { s.host with world }).2.records)
      (hjournal : t.host.journal = (Host.evict P name { s.host with world }).2.journal)
  | loaded {plugin : Instance} {loader : Loader} {world : ω} {library : Nat}
      (hprovides : Loader.Provides P watched.files path name s.host.world plugin world)
      (hhandles : ∀ n, loader.handles.get? n =
        if n = name then some ⟨path, library⟩ else s.loader.handles.get? n)
      (hrecords : t.host.records =
        (Host.replace P name old plugin { s.host with world }).2.records)
      (hjournal : t.host.journal =
        (Host.replace P name old plugin { s.host with world }).2.journal)
      (hconcludes : Concludes name loader
        (Host.replace P name old plugin { s.host with world }).1 t.host t)

/-- The ways that the change of a file which is there goes: nothing is loaded, a module is loaded
for a name that is free, a registered plugin is loaded again from its module, or it is initialised
again as it is. -/
inductive Way (P : Plugins ω) (watched : Watched ω) (name : String) (s : Site ω) :
    Site ω → Prop where
  | idle (hfree : s.host.records.get? name = none)
      (hwhy : PluginFile.findLibrary watched.files watched.dir name = none ∨
        s.host.allowsManifest watched.files
          (PluginFile.findManifest watched.files watched.dir name) = false) :
      Way P watched name s s
  | install {lib : String} (hfree : s.host.records.get? name = none)
      (hlib : PluginFile.findLibrary watched.files watched.dir name = some lib)
      (hmanifest : s.host.allowsManifest watched.files
        (PluginFile.findManifest watched.files watched.dir name) = true) :
      Way P watched name s (s.loadModule P watched.note watched.files lib name).2
  | renew {old : Record} {lib : String} (hold : s.host.records.get? name = some old)
      (hloaded : s.loader.isLoaded name = true)
      (hlib : PluginFile.findLibrary watched.files watched.dir name = some lib) :
      Way P watched name s (s.reloadModule P watched lib name)
  | revive {old : Record} (hold : s.host.records.get? name = some old)
      (hmodule : s.loader.isLoaded name = true →
        PluginFile.findLibrary watched.files watched.dir name = none) :
      Way P watched name s
        ⟨(Host.noted watched.note .reload name (s.host.reload P name)).2, s.loader⟩

section
variable {P : Plugins ω} {watched : Watched ω} {s t : Site ω} {path name lib : String}
  {plugin : Instance} {loader : Loader} {world : ω} {old : Record}

theorem load_eq {files : FileTree} {result : Except LoadError Instance}
    (hload : s.loader.load P files path name s.host.world = (result, loader, world)) :
    s.load P files path name = (result, ⟨{ s.host with world }, loader⟩) := by
  rw [load, hload]

theorem unloadUnregistered_host (name : String) (s : Site ω) :
    (s.unloadUnregistered name).host = s.host := by
  unfold unloadUnregistered
  split <;> rfl

/-! ## Moves of the host -/

theorem passes_load (P : Plugins ω) (note : Note ω) (files : FileTree) (path name : String)
    (s : Site ω) : Host.Passes P note s.host (s.load P files path name).2.host :=
  .world (Loader.later_load P note files path name s.loader s.host.world)

theorem passes_unregister (P : Plugins ω) (note : Note ω) (name : String) (s : Site ω) :
    Host.Passes P note s.host (s.unregister P note name).2.host :=
  (Host.strides_evict P name s.host).passes.trans (Host.passes_noted note .unregister name _)

theorem passes_loadModule (P : Plugins ω) (note : Note ω) (files : FileTree) (path name : String)
    (s : Site ω) : Host.Passes P note s.host (s.loadModule P note files path name).2.host := by
  have hload := passes_load P note files path name s
  unfold loadModule
  split
  · rename_i heq
    rw [heq] at hload
    rw [unloadUnregistered_host]
    exact hload
  rename_i plugin t heq
  rw [heq] at hload
  have hregister := hload.trans ((Host.strides_register P plugin t.host).passes.trans
    (Host.passes_noted note .register (P.descriptor plugin t.host.world).1.name _))
  simp only
  split
  · rename_i hended
    rw [hended] at hregister
    exact hregister
  · rename_i hended
    rw [hended] at hregister
    rw [unloadUnregistered_host]
    exact hregister
  · rename_i hended
    rw [hended] at hregister
    exact hregister

theorem passes_tryLoad (P : Plugins ω) (watched : Watched ω) (name : String) (s : Site ω) :
    Host.Passes P watched.note s.host (s.tryLoad P watched name).2.host := by
  unfold tryLoad
  split
  · exact .refl _
  rename_i path _
  simp only
  split
  · exact .refl _
  have hload := passes_loadModule P watched.note watched.files path name s
  split
  all_goals
    rename_i heq
    rw [heq] at hload
    exact hload

theorem passes_reloadModule (P : Plugins ω) (watched : Watched ω) (path name : String)
    (s : Site ω) :
    Host.Passes P watched.note s.host (s.reloadModule P watched path name).host := by
  have hload := passes_load P watched.note watched.files path name s
  unfold reloadModule
  split
  · rename_i heq
    rw [heq] at hload
    exact hload.trans (passes_unregister P watched.note name _)
  rename_i plugin t heq
  rw [heq] at hload
  have hreload := hload.trans ((Host.strides_reloadWith P name plugin t.host).passes.trans
    (Host.passes_noted watched.note .reloadWith name _))
  split
  · rename_i hended
    rw [hended] at hreload
    rw [unloadUnregistered_host]
    exact hreload
  · rename_i hended
    rw [hended] at hreload
    exact hreload

theorem passes_handleChange (P : Plugins ω) (watched : Watched ω) (name : String) (s : Site ω) :
    Host.Passes P watched.note s.host (s.handleChange P watched name).host := by
  unfold handleChange
  split
  · exact passes_tryLoad P watched name s
  split
  · exact passes_reloadModule P watched _ name s
  · exact (Host.strides_reload P name s.host).passes.trans
      (Host.passes_noted watched.note .reload name _)

theorem passes_handleRemoval (P : Plugins ω) (watched : Watched ω) (name : String) (s : Site ω) :
    Host.Passes P watched.note s.host (s.handleRemoval P watched name).host := by
  have hunregister := passes_unregister P watched.note name s
  unfold handleRemoval
  split
  · exact .refl _
  split
  · rename_i heq
    rw [heq] at hunregister
    exact hunregister
  · rename_i heq
    rw [heq] at hunregister
    exact hunregister

/-- The application of a change is a run of moves for the host, and the world comes to a later
one. -/
theorem passes_applyChange (P : Plugins ω) (watched : Watched ω) (path : String) (s : Site ω) :
    Host.Passes P watched.note s.host (s.applyChange P watched path).host := by
  unfold applyChange
  split
  · exact .refl _
  split
  · exact passes_handleChange P watched _ s
  · exact passes_handleRemoval P watched _ s

/-! ## The ways of a change -/

theorem concludes_unloadUnregistered (name : String) (loader : Loader) (e : RegistryError)
    (host : Host ω) : Concludes name loader (.error (.refused e)) host
      (unloadUnregistered name ⟨host, loader⟩) := by
  unfold unloadUnregistered
  split
  · rename_i hcontains
    exact ⟨rfl, Or.inl ⟨rfl, fun _ => hcontains⟩⟩
  · rename_i hfree
    exact ⟨rfl, Or.inr ⟨rfl, ⟨e, rfl⟩, by simpa using hfree⟩⟩

/-- However it ended, the handles of other names stay. -/
theorem Concludes.handles {result : Except Stop Unit} {host : Host ω} {t : Site ω}
    (hc : Concludes name loader result host t) {n : String} (hn : n ≠ name) :
    t.loader.handles.get? n = loader.handles.get? n := by
  rcases hc.loader_eq with ⟨hkept, -⟩ | ⟨hgiven, -⟩
  · rw [hkept]
  · rw [hgiven, Loader.get?_unload, if_neg hn]

/-- Without a module nobody is registered. -/
theorem loadModule_of_failed {note : Note ω} {files : FileTree} {e : LoadError}
    (hload : s.loader.load P files path name s.host.world = (.error e, loader, world))
    (hunloaded : loader.handles.get? name = none) :
    (s.loadModule P note files path name).2 = ⟨{ s.host with world }, loader⟩ := by
  have hunload : loader.unload name = loader := by rw [Loader.unload, hunloaded]
  rw [loadModule, load_eq hload]
  simp only [unloadUnregistered, unload, hunload]
  split <;> rfl

/-- With one its plugin is registered. -/
theorem loadModule_of_loaded {note : Note ω} {files : FileTree}
    (hload : s.loader.load P files path name s.host.world = (.ok plugin, loader, world))
    {result : Except Stop Unit} {host : Host ω}
    (hended : Host.noted note .register (P.descriptor plugin world).1.name
      (Host.register P plugin { s.host with world }) = (result, host)) :
    Concludes name loader result host (s.loadModule P note files path name).2 := by
  rw [loadModule, load_eq hload]
  simp only [hended]
  rcases result with (e | m) | _
  · exact concludes_unloadUnregistered name loader e host
  · exact ⟨rfl, Or.inl ⟨rfl, fun ⟨_, he⟩ => by cases he⟩⟩
  · exact ⟨rfl, Or.inl ⟨rfl, fun ⟨_, he⟩ => by cases he⟩⟩

/-- Without a module the plugin is unregistered. -/
theorem reloadModule_of_failed {e : LoadError}
    (hload : s.loader.load P watched.files path name s.host.world = (.error e, loader, world)) :
    s.reloadModule P watched path name =
      ⟨(Host.noted watched.note .unregister name
        (Host.evict P name { s.host with world })).2, loader⟩ := by
  rw [reloadModule, load_eq hload]
  rfl

/-- With one the plugin is replaced. -/
theorem reloadModule_of_loaded (hold : s.host.records.get? name = some old)
    (hload : s.loader.load P watched.files path name s.host.world =
      (.ok plugin, loader, world))
    {result : Except Stop Unit} {host : Host ω}
    (hended : Host.noted watched.note .reloadWith name
      (Host.replace P name old plugin { s.host with world }) = (result, host)) :
    Concludes name loader result host (s.reloadModule P watched path name) := by
  have hreload : Host.reloadWith P name plugin { s.host with world } =
      Host.replace P name old plugin { s.host with world } := by
    rw [Host.reloadWith]
    simp only [hold]
  rw [reloadModule, load_eq hload]
  simp only [hreload, hended]
  rcases result with (e | m) | _
  · exact concludes_unloadUnregistered name loader e host
  · exact ⟨rfl, Or.inl ⟨rfl, by rintro ⟨_, he⟩; cases he⟩⟩
  · exact ⟨rfl, Or.inl ⟨rfl, by rintro ⟨_, he⟩; cases he⟩⟩

theorem tryLoad_of_none
    (hlib : PluginFile.findLibrary watched.files watched.dir name = none) :
    (s.tryLoad P watched name).2 = s := by
  unfold tryLoad
  simp only [hlib]

theorem tryLoad_of_disallowed
    (hmanifest : s.host.allowsManifest watched.files
      (PluginFile.findManifest watched.files watched.dir name) = false) :
    (s.tryLoad P watched name).2 = s := by
  unfold tryLoad
  split
  · rfl
  · simp [hmanifest]

theorem tryLoad_of_allowed
    (hlib : PluginFile.findLibrary watched.files watched.dir name = some lib)
    (hmanifest : s.host.allowsManifest watched.files
      (PluginFile.findManifest watched.files watched.dir name) = true) :
    (s.tryLoad P watched name).2 = (s.loadModule P watched.note watched.files lib name).2 := by
  unfold tryLoad
  simp only [hlib, hmanifest, Bool.not_true, Bool.false_eq_true, if_false]
  generalize s.loadModule P watched.note watched.files lib name = loaded
  rcases loaded with ⟨(_ | _ | m) | _, t⟩ <;> rfl

theorem handleChange_of_absent (hfree : s.host.contains name = false) :
    s.handleChange P watched name = (s.tryLoad P watched name).2 := by
  rw [handleChange, hfree, Bool.not_false, if_pos rfl]

theorem handleChange_of_module (hold : s.host.records.get? name = some old)
    (hloaded : s.loader.isLoaded name = true)
    (hlib : PluginFile.findLibrary watched.files watched.dir name = some lib) :
    s.handleChange P watched name = s.reloadModule P watched lib name := by
  have hcontains : s.host.contains name = true := NameMap.contains_iff.2 ⟨old, hold⟩
  have hmodule : s.moduleOf? watched name = some lib := by
    rw [moduleOf?, hlib, Option.filter_some, if_pos hloaded]
  rw [handleChange, hcontains, hmodule]
  rfl

/-- A registered plugin without a handle or without a module is initialised again. -/
theorem handleChange_of_no_module (hcontains : s.host.contains name = true)
    (hmodule : s.loader.isLoaded name = true →
      PluginFile.findLibrary watched.files watched.dir name = none) :
    s.handleChange P watched name =
      ⟨(Host.noted watched.note .reload name (s.host.reload P name)).2, s.loader⟩ := by
  have hnone : s.moduleOf? watched name = none := by
    unfold moduleOf?
    cases hloaded : s.loader.isLoaded name with
    | true => rw [hmodule hloaded, Option.filter_none]
    | false => exact Option.filter_eq_none_iff.2 (by simp)
  rw [handleChange, hcontains, hnone]
  rfl

theorem handleChange_goes (P : Plugins ω) (watched : Watched ω) (name : String) (s : Site ω) :
    Way P watched name s (s.handleChange P watched name) := by
  cases hold : s.host.records.get? name with
  | none =>
    rw [handleChange_of_absent (NameMap.contains_eq_false_iff.2 hold)]
    cases hlib : PluginFile.findLibrary watched.files watched.dir name with
    | none =>
      rw [tryLoad_of_none hlib]
      exact .idle hold (Or.inl hlib)
    | some lib =>
      cases hmanifest : s.host.allowsManifest watched.files
          (PluginFile.findManifest watched.files watched.dir name) with
      | false =>
        rw [tryLoad_of_disallowed hmanifest]
        exact .idle hold (Or.inr hmanifest)
      | true =>
        rw [tryLoad_of_allowed hlib hmanifest]
        exact .install hold hlib hmanifest
  | some old =>
    by_cases hmodule : s.loader.isLoaded name = true →
        PluginFile.findLibrary watched.files watched.dir name = none
    · rw [handleChange_of_no_module (NameMap.contains_iff.2 ⟨old, hold⟩) hmodule]
      exact .revive hold hmodule
    · obtain ⟨hloaded, hlib⟩ := Classical.not_imp.1 hmodule
      obtain ⟨lib, hlib⟩ := Option.ne_none_iff_exists'.1 hlib
      rw [handleChange_of_module hold hloaded hlib]
      exact .renew hold hloaded hlib

theorem handleRemoval_of_absent (hfree : s.host.contains name = false) :
    s.handleRemoval P watched name = s := by
  unfold handleRemoval
  simp only [hfree, Bool.not_false, if_true]

/-- A registered plugin is unregistered, and unless that panics its handle is given up. -/
theorem handleRemoval_of_present (hcontains : s.host.contains name = true)
    {result : Except Stop Unit} {host : Host ω}
    (hended : Host.noted watched.note .unregister name (s.host.evict P name) = (result, host)) :
    s.handleRemoval P watched name =
      match result with
      | .error (.panicked _) => ⟨host, s.loader⟩
      | _ => ⟨host, s.loader.unload name⟩ := by
  unfold handleRemoval
  simp only [hcontains, Bool.not_true, Bool.false_eq_true, if_false, unregister, Host.unregister,
    hended]
  rcases result with (e | m) | _ <;> rfl

theorem applyChange_of_exists {kind : PluginFile.Kind}
    (hpath : PluginFile.classify (Text.utf8 path) = some (name, kind))
    (hexists : watched.files.pathExists path = true) :
    s.applyChange P watched path = s.handleChange P watched name := by
  unfold applyChange
  simp only [hpath, hexists, if_true]

theorem applyChange_of_missing {kind : PluginFile.Kind}
    (hpath : PluginFile.classify (Text.utf8 path) = some (name, kind))
    (hmissing : watched.files.pathExists path = false) :
    s.applyChange P watched path = s.handleRemoval P watched name := by
  unfold applyChange
  simp only [hpath, hmissing, Bool.false_eq_true, if_false]

theorem applyChange_of_unrecognized (hpath : PluginFile.classify (Text.utf8 path) = none) :
    s.applyChange P watched path = s := by
  unfold applyChange
  simp only [hpath]

/-! ## Other names -/

theorem spares_handleRemoval (P : Plugins ω) (watched : Watched ω) (name : String) (s : Site ω) :
    Spares name s (s.handleRemoval P watched name) := by
  cases hcontains : s.host.contains name with
  | false =>
    rw [handleRemoval_of_absent hcontains]
    exact ⟨.refl _ _, fun _ _ => rfl⟩
  | true =>
    rcases hended : Host.noted watched.note .unregister name (s.host.evict P name) with
      ⟨result, host⟩
    obtain ⟨-, hrecords, -⟩ := Host.ended_of_noted hended
    have hspares : Host.Spares name s.host host := fun n hn => by
      rw [← hrecords]
      exact Host.spares_evict P name s.host n hn
    have hunload : ∀ n, n ≠ name →
        (s.loader.unload name).handles.get? n = s.loader.handles.get? n := fun n hn =>
      (Loader.get?_unload _ _ _).trans (if_neg hn)
    rw [handleRemoval_of_present hcontains hended]
    rcases result with (e | m) | _
    · exact ⟨hspares, hunload⟩
    · exact ⟨hspares, fun _ _ => rfl⟩
    · exact ⟨hspares, hunload⟩

theorem reloadModule_ends (P : Plugins ω) (watched : Watched ω) (path : String)
    (hold : s.host.records.get? name = some old) :
    ReloadEnd P watched path name s old (s.reloadModule P watched path name) := by
  have hend := Loader.load_ends P watched.files path name s.loader s.host.world
  rcases hload : s.loader.load P watched.files path name s.host.world with
    ⟨result, loader, world⟩
  rw [hload] at hend
  cases hend with
  | failed _ hhandles =>
    rw [reloadModule_of_failed hload]
    exact .failed hhandles (Host.noted_records ..) (Host.noted_journal ..)
  | @loaded plugin _ _ library hprovides hhandles =>
    rcases hended : Host.noted watched.note .reloadWith name
      (Host.replace P name old plugin { s.host with world }) with ⟨result, host⟩
    obtain ⟨rfl, hrecords, hjournal⟩ := Host.ended_of_noted hended
    have hconcludes := reloadModule_of_loaded hold hload hended
    obtain rfl := hconcludes.host_eq
    exact .loaded hprovides hhandles hrecords.symm hjournal.symm hconcludes

theorem spares_reloadModule (hold : s.host.records.get? name = some old) :
    Spares name s (s.reloadModule P watched path name) := by
  cases reloadModule_ends P watched path hold with
  | @failed world hhandles hrecords =>
    refine ⟨fun n hn => ?_, fun n hn => (hhandles n).trans (if_neg hn)⟩
    rw [hrecords]
    exact Host.spares_evict P name { s.host with world } n hn
  | @loaded plugin _ world _ _ hhandles hrecords _ hconcludes =>
    refine ⟨fun n hn => ?_, fun n hn =>
      (hconcludes.handles hn).trans ((hhandles n).trans (if_neg hn))⟩
    rw [hrecords]
    exact Host.spares_replace P name old plugin { s.host with world } n hn

/-- A reload of a module does not change whether the plugin is enabled. -/
theorem enabled_reloadModule (hold : s.host.records.get? name = some old) {r : Record}
    (hr : (s.reloadModule P watched path name).host.records.get? name = some r) :
    r.enabled = old.enabled := by
  cases reloadModule_ends P watched path hold with
  | @failed world _ hrecords =>
    rw [hrecords] at hr
    obtain ⟨-, -, hevicted | ⟨hevicted, -⟩⟩ :=
      Host.evict_leaves (h := { s.host with world }) P hold
    · rw [hevicted, NameMap.get?_erase, if_pos rfl] at hr
      cases hr
    · rw [hevicted, hold] at hr
      cases hr
      rfl
  | @loaded plugin _ world _ _ _ hrecords =>
    rw [hrecords] at hr
    exact Host.enabled_replace (h := { s.host with world }) hold hr

theorem Spares.retains (hs : Spares name s t) : Retains name s t :=
  ⟨fun hn hr => (hs.records _ hn).trans hr, hs.handles⟩

/-- The plugin of a module may report another name; but only a name that is free gets a record
then. -/
theorem retains_loadModule (P : Plugins ω) (note : Note ω) (files : FileTree) (path name : String)
    (s : Site ω) : Retains name s (s.loadModule P note files path name).2 := by
  have hend := Loader.load_ends P files path name s.loader s.host.world
  rcases hload : s.loader.load P files path name s.host.world with ⟨result, loader, world⟩
  rw [hload] at hend
  cases hend with
  | failed _ hhandles =>
    rw [loadModule_of_failed hload ((hhandles name).trans (if_pos rfl))]
    exact ⟨fun _ hr => hr, fun n hn => (hhandles n).trans (if_neg hn)⟩
  | @loaded plugin _ _ _ _ hhandles =>
    rcases hcall : P.descriptor plugin world with ⟨d, asked⟩
    rcases hended : Host.noted note .register (P.descriptor plugin world).1.name
      (Host.register P plugin { s.host with world }) with ⟨ended, host⟩
    have hconcludes := loadModule_of_loaded hload hended
    obtain ⟨-, hrecords, -⟩ := Host.ended_of_noted hended
    refine ⟨fun {n r} hn hr => ?_, fun n hn =>
      (hconcludes.handles hn).trans ((hhandles n).trans (if_neg hn))⟩
    rw [hconcludes.host_eq, ← hrecords]
    exact (Host.register_ends (h := { s.host with world }) hcall).retains hr

/-- A plugin that was not registered before is enabled when its module has been loaded. -/
theorem enabled_loadModule {note : Note ω} {files : FileTree} {n : String} {r : Record}
    (hfree : s.host.records.get? n = none)
    (hr : (s.loadModule P note files path name).2.host.records.get? n = some r) :
    r.enabled = true := by
  have hend := Loader.load_ends P files path name s.loader s.host.world
  rcases hload : s.loader.load P files path name s.host.world with ⟨result, loader, world⟩
  rw [hload] at hend
  cases hend with
  | failed _ hhandles =>
    rw [loadModule_of_failed hload ((hhandles name).trans (if_pos rfl)), hfree] at hr
    cases hr
  | @loaded plugin =>
    rcases hcall : P.descriptor plugin world with ⟨d, asked⟩
    rcases hended : Host.noted note .register (P.descriptor plugin world).1.name
      (Host.register P plugin { s.host with world }) with ⟨ended, host⟩
    obtain ⟨-, hrecords, -⟩ := Host.ended_of_noted hended
    rw [(loadModule_of_loaded hload hended).host_eq, ← hrecords] at hr
    exact (Host.register_ends (h := { s.host with world }) hcall).enabled_eq hfree hr

/-- The change of a file does not touch the plugins that are registered under other names. -/
theorem retains_handleChange (P : Plugins ω) (watched : Watched ω) (name : String) (s : Site ω) :
    Retains name s (s.handleChange P watched name) := by
  have hway := handleChange_goes P watched name s
  generalize s.handleChange P watched name = t at hway ⊢
  cases hway with
  | idle => exact ⟨fun _ hr => hr, fun _ _ => rfl⟩
  | install => exact retains_loadModule P watched.note watched.files _ name s
  | renew hold => exact (spares_reloadModule hold).retains
  | @revive old hold =>
    refine Spares.retains ⟨fun n hn => ?_, fun _ _ => rfl⟩
    rw [Host.noted_records, Host.reload, hold]
    exact Host.spares_replace P name old old.plugin s.host n hn

end

end Site

end PluginHost
