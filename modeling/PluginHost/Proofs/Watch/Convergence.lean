import Mathlib.Data.List.Perm.Basic
import PluginHost.Proofs.Watch.Outline
import PluginHost.Proofs.Watch.Queue

/-!
# Which orders of changes lead to the same plugins

The changes of a window are applied to the files as they are in the end, in the order of the last
changes of the paths. Two of them can be swapped unless they are entangled: one path of a plugin
is there in the end and another one is not, and there is a module to load the plugin from; or one
plugin names the other as a dependency or a conflict. So two rows of changes that leave the same
files lead to the same registered plugins if entangled paths changed last in the same order. In
the other order they can lead to different ones, even if no callback ever fails.

* `Outline.Entangled`: two paths whose order can matter.
* `Outline.apply_comm`: the changes of paths that are not entangled can be swapped.
* `foldl_eq_of_swaps`: two orders that differ by such swaps lead to the same.
* `Scene.play_converges`: two rows of changes that lead to the same registered plugins.
-/
namespace PluginHost

variable {ω : Type}

/-! ## Orders of steps -/

section
variable {α σ : Type} {f : σ → α → σ} {I : σ → Prop}

/-- A step is taken before those that it may be swapped with. -/
theorem foldl_to_front (hkeep : ∀ s a, I s → I (f s a)) {x : α} {before : List α}
    (hswap : ∀ y ∈ before, ∀ s, I s → f (f s y) x = f (f s x) y) (after : List α) {s : σ}
    (hs : I s) : (before ++ x :: after).foldl f s = (x :: (before ++ after)).foldl f s := by
  induction before generalizing s with
  | nil => rfl
  | cons y before ih =>
    have hfront := ih (fun z hz => hswap z (List.mem_cons_of_mem _ hz)) (hkeep s y hs)
    simp only [List.cons_append, List.foldl_cons] at hfront ⊢
    rw [hfront, hswap y List.mem_cons_self s hs]

/-- Two orders of the same steps lead to the same, if steps that may not be swapped are in the
same order in both. -/
theorem foldl_eq_of_swaps {R before before' : α → α → Prop} (hkeep : ∀ s a, I s → I (f s a))
    (hswap : ∀ x y, ¬ R x y → ∀ s, I s → f (f s x) y = f (f s y) x) {l l' : List α}
    (hperm : l.Perm l') (hnodup : l.Nodup) (hl : l.Pairwise before) (hl' : l'.Pairwise before')
    (horder : ∀ x y, R x y → before x y → ¬ before' y x) {s : σ} (hs : I s) :
    l.foldl f s = l'.foldl f s := by
  -- the first step of one order goes to the front of the other one
  induction l generalizing l' s with
  | nil => rw [List.nil_perm.1 hperm]
  | cons x l ih =>
    obtain ⟨front, back, rfl⟩ := List.append_of_mem (hperm.subset List.mem_cons_self)
    have hrest : l.Perm (front ++ back) := (hperm.trans List.perm_middle).cons_inv
    obtain ⟨hx, hl⟩ := List.pairwise_cons.1 hl
    obtain ⟨hfront, hback, hcross⟩ := List.pairwise_append.1 hl'
    rw [foldl_to_front hkeep (fun y hy s hs => ?_) back hs, List.foldl_cons, List.foldl_cons]
    · refine ih hrest hnodup.of_cons hl (List.pairwise_append.2 ⟨hfront, hback.of_cons, ?_⟩)
        (hkeep s x hs)
      exact fun a ha b hb => hcross a ha b (List.mem_cons_of_mem _ hb)
    · have hfirst := hx y (hrest.symm.subset (List.mem_append_left _ hy))
      have hother := hcross y hy x List.mem_cons_self
      exact (hswap x y (fun hR => horder x y hR hfirst hother) s hs).symm

end

namespace Outline

/-! ## Names that do not concern each other -/

/-- A descriptor that a name has or can get: that of its registered plugin, or that of the plugin
that its module makes. -/
def Role (watched : Watched ω) (made : Blueprint → Descriptor) (o : Outline) (name : String)
    (d : Descriptor) : Prop :=
  (∃ loaded, o name = some (d, loaded)) ∨ watched.offer made name = some d

/-- The plugin of the first name, as it is registered or as its module makes it, names the other
one as a dependency or a conflict, or its manifest names it as a dependency. -/
inductive Mentions (watched : Watched ω) (made : Blueprint → Descriptor) (o : Outline)
    (name other : String) : Prop where
  | dependency {d : Descriptor} (hrole : o.Role watched made name d)
      (hmem : other ∈ d.dependencies)
  | conflict {d : Descriptor} (hrole : o.Role watched made name d) (hmem : other ∈ d.conflicts)
  | manifest {path : String} {m : Manifest}
      (hfind : PluginFile.findManifest watched.files watched.dir name = some path)
      (hload : Manifest.load watched.files path = .ok m) (hmem : other ∈ m.dependencies)

/-- Two paths whose order can matter: one of them is there and the other one is not, and their
plugin has a module; or of the two plugins that they belong to one mentions the other. -/
inductive Entangled (watched : Watched ω) (made : Blueprint → Descriptor) (o : Outline)
    (p q : String) : Prop where
  | siblings {name : String} {kind kind' : PluginFile.Kind}
      (hp : PluginFile.classify (Text.utf8 p) = some (name, kind))
      (hq : PluginFile.classify (Text.utf8 q) = some (name, kind'))
      (hexists : watched.files.pathExists p ≠ watched.files.pathExists q)
      (hoffer : (watched.offer made name).isSome = true)
  | relatives {name other : String} {kind kind' : PluginFile.Kind}
      (hp : PluginFile.classify (Text.utf8 p) = some (name, kind))
      (hq : PluginFile.classify (Text.utf8 q) = some (other, kind')) (hne : name ≠ other)
      (hmentions : o.Mentions watched made name other ∨ o.Mentions watched made other name)

/-- Every name has one of some descriptors. -/
def Within (roles : String → Descriptor → Prop) (o : Outline) : Prop :=
  ∀ n d loaded, o n = some (d, loaded) → roles n d

section
variable {watched : Watched ω} {made : Blueprint → Descriptor} {initial o : Outline}
  {name other p q : String} {ending : Option (Descriptor × Bool)} {d e : Descriptor}
  {loaded loaded' there there' : Bool}

theorem eq_of_entry (h : o.entry loaded d = some (e, loaded')) : e = d := by
  unfold entry at h
  split at h
  · cases h
    rfl
  · cases h

/-- What a name gets is one of its descriptors. -/
theorem role_of_changed (ho : o.Within (initial.Role watched made))
    (h : o.changed watched made name = some (e, loaded)) : initial.Role watched made name e := by
  have hoffered : ∀ {loaded'}, (watched.offer made name).bind (o.entry true) =
      some (e, loaded') → initial.Role watched made name e := by
    intro loaded' h
    obtain ⟨d, hd, hentry⟩ := Option.bind_eq_some_iff.1 h
    rw [eq_of_entry hentry]
    exact Or.inr hd
  unfold changed at h
  split at h
  · split at h
    · exact hoffered h
    · cases h
  · rename_i d loaded' hd
    split at h
    · exact hoffered h
    · rw [eq_of_entry h]
      exact ho name d loaded' hd

theorem role_of_becomes (ho : o.Within (initial.Role watched made))
    (h : o.becomes watched made name there = some (e, loaded)) :
    initial.Role watched made name e := by
  unfold becomes at h
  split at h
  · exact role_of_changed ho h
  · cases h

theorem within_apply (ho : o.Within (initial.Role watched made)) (path : String) :
    (o.apply watched made path).Within (initial.Role watched made) := by
  unfold apply
  split
  · exact ho
  rename_i name kind _
  intro n d loaded hd
  by_cases hn : n = name
  · subst hn
    rw [Function.update_self] at hd
    exact role_of_becomes ho hd
  · rw [Function.update_of_ne hn] at hd
    exact ho n d loaded hd

/-- Whether a plugin is admitted does not depend on one that it does not need and that it does
not conflict with. -/
theorem admits_update (hdependencies : other ∉ d.dependencies)
    (hold : ∀ e loaded, o other = some (e, loaded) → d.clashes e = false)
    (hnew : ∀ e loaded, ending = some (e, loaded) → d.clashes e = false) :
    Admits (Function.update o other ending) d ↔ o.Admits d := by
  have hpresent : ∀ n ∈ d.dependencies, Function.update o other ending n = o n :=
    fun n hn => Function.update_of_ne (ne_of_mem_of_not_mem hn hdependencies) _ _
  refine and_congr_right' (and_congr (forall₂_congr fun n hn => by rw [hpresent n hn]) ?_)
  constructor
  · intro h n e loaded hn he
    by_cases heq : n = other
    · exact hold e loaded (heq ▸ he)
    · exact h n e loaded hn ((Function.update_of_ne heq _ _).trans he)
  · intro h n e loaded hn he
    by_cases heq : n = other
    · rw [heq, Function.update_self] at he
      exact hnew e loaded he
    · exact h n e loaded hn ((Function.update_of_ne heq _ _).symm.trans he)

theorem not_clashes (hnamed : ∀ n d, initial.Role watched made n d → d.name = n)
    (hto : ¬ initial.Mentions watched made name other)
    (hfrom : ¬ initial.Mentions watched made other name)
    (hd : initial.Role watched made name d) (he : initial.Role watched made other e) :
    d.clashes e = false := by
  refine Descriptor.clashes_eq_false_iff.2 ⟨fun hmem => ?_, fun hmem => ?_⟩
  · exact hto (.conflict hd (hnamed other e he ▸ hmem))
  · exact hfrom (.conflict he (hnamed name d hd ▸ hmem))

/-- What a name gets does not depend on one that it does not mention and that does not mention
it. -/
theorem changed_update (hnamed : ∀ n d, initial.Role watched made n d → d.name = n)
    (hne : name ≠ other) (hto : ¬ initial.Mentions watched made name other)
    (hfrom : ¬ initial.Mentions watched made other name)
    (ho : o.Within (initial.Role watched made))
    (hend : ∀ e loaded, ending = some (e, loaded) → initial.Role watched made other e) :
    changed watched made name (Function.update o other ending) = o.changed watched made name := by
  have hallows : allows (Function.update o other ending) watched.files
      (PluginFile.findManifest watched.files watched.dir name) =
        o.allows watched.files (PluginFile.findManifest watched.files watched.dir name) := by
    unfold allows
    split
    · rfl
    · rename_i path hfind
      split
      · rfl
      · rename_i m hload
        have hmem : other ∉ m.dependencies := fun hn => hto (.manifest hfind hload hn)
        refine congrArg _ ?_
        rw [Bool.eq_iff_iff, List.all_eq_true, List.all_eq_true]
        exact forall₂_congr fun n hn => by
          rw [Function.update_of_ne (ne_of_mem_of_not_mem hn hmem)]
  have hentry : ∀ d loaded, initial.Role watched made name d →
      entry (Function.update o other ending) loaded d = o.entry loaded d := by
    intro d loaded hd
    have hadmits : Admits (Function.update o other ending) d ↔ o.Admits d :=
      admits_update (fun hmem => hto (.dependency hd hmem))
        (fun e l he => not_clashes hnamed hto hfrom hd (ho other e l he))
        fun e l he => not_clashes hnamed hto hfrom hd (hend e l he)
    rw [entry, entry, propext hadmits]
  have hoffer : (watched.offer made name).bind (entry (Function.update o other ending) true) =
      (watched.offer made name).bind (o.entry true) := by
    cases hd : watched.offer made name with
    | none => rfl
    | some d => exact hentry d true (Or.inr hd)
  unfold changed
  rw [Function.update_of_ne hne, hallows, hoffer]
  split
  · rfl
  · rename_i d loaded hd
    rw [hentry d loaded (ho name d loaded hd)]

theorem becomes_update (hnamed : ∀ n d, initial.Role watched made n d → d.name = n)
    (hne : name ≠ other) (hto : ¬ initial.Mentions watched made name other)
    (hfrom : ¬ initial.Mentions watched made other name)
    (ho : o.Within (initial.Role watched made)) :
    becomes watched made name there
      (Function.update o other (o.becomes watched made other there')) =
        o.becomes watched made name there := by
  rw [becomes, changed_update hnamed hne hto hfrom ho fun _ _ => role_of_becomes ho, becomes]

/-- Two changes of one plugin come to the same in both orders, if both files are there or were
removed, or if there is no module to load the plugin from. -/
theorem becomes_of_siblings (h : there = there' ∨ watched.offer made name = none) :
    becomes watched made name there'
      (Function.update o name (o.becomes watched made name there)) =
        becomes watched made name there
          (Function.update o name (o.becomes watched made name there')) := by
  have hremoved : watched.offer made name = none →
      changed watched made name (Function.update o name none) = none := by
    intro hoffer
    unfold changed
    rw [Function.update_self, hoffer, Option.bind_none]
    exact ite_self _
  rcases h with rfl | hoffer
  · rfl
  · cases there <;> cases there'
    · rfl
    · exact hremoved hoffer
    · exact (hremoved hoffer).symm
    · rfl

theorem apply_of_classify {kind : PluginFile.Kind}
    (hp : PluginFile.classify (Text.utf8 p) = some (name, kind)) :
    o.apply watched made p =
      Function.update o name (o.becomes watched made name (watched.files.pathExists p)) := by
  simp only [apply, hp]

/-- Changes of paths that are not entangled can be swapped. -/
theorem apply_comm (hnamed : ∀ n d, initial.Role watched made n d → d.name = n)
    (ho : o.Within (initial.Role watched made)) (h : ¬ initial.Entangled watched made p q) :
    (o.apply watched made p).apply watched made q =
      (o.apply watched made q).apply watched made p := by
  cases hp : PluginFile.classify (Text.utf8 p) with
  | none => simp only [apply, hp]
  | some file =>
    obtain ⟨name, kind⟩ := file
    cases hq : PluginFile.classify (Text.utf8 q) with
    | none => simp only [apply, hq]
    | some file' =>
      obtain ⟨other, kind'⟩ := file'
      rw [apply_of_classify hp, apply_of_classify hq, apply_of_classify hq, apply_of_classify hp]
      by_cases hne : name = other
      · subst hne
        rw [becomes_of_siblings, Function.update_idem, Function.update_idem]
        refine Classical.or_iff_not_imp_left.2 fun hexists => ?_
        exact Option.not_isSome_iff_eq_none.1 fun hoffer => h (.siblings hp hq hexists hoffer)
      · have hapart : ¬ (initial.Mentions watched made name other ∨
            initial.Mentions watched made other name) :=
          fun hmentions => h (.relatives hp hq hne hmentions)
        obtain ⟨hto, hfrom⟩ := not_or.1 hapart
        rw [becomes_update hnamed (Ne.symm hne) hfrom hto ho,
          becomes_update hnamed hne hto hfrom ho, Function.update_comm hne]

/-! ## Trees with the same files -/

variable {files files' : FileTree}

theorem changed_of_same_files {dir : String} {note : Note ω}
    (hfiles : ∀ path, files.node? path = files'.node? path) :
    changed ⟨dir, files, note⟩ made name o = changed ⟨dir, files', note⟩ made name o := by
  have hexists : files.pathExists = files'.pathExists := by
    funext path
    rw [FileTree.pathExists, hfiles, FileTree.pathExists]
  have hisFile : files.isFile = files'.isFile := by
    funext path
    rw [FileTree.isFile, hfiles, FileTree.isFile]
  have hload : Manifest.load files = Manifest.load files' := by
    funext path
    rw [Manifest.load, FileTree.text?, hfiles]
    rfl
  have hoffered : files.offered made = files'.offered made := by
    funext path name
    rw [FileTree.offered, hfiles]
    rfl
  have hlibrary : PluginFile.findLibrary files = PluginFile.findLibrary files' := by
    funext dir name
    rw [PluginFile.findLibrary, hexists]
    rfl
  have hmanifest : PluginFile.findManifest files = PluginFile.findManifest files' := by
    funext dir name
    rw [PluginFile.findManifest, hisFile]
    rfl
  have hallows : o.allows files = o.allows files' := by
    funext path
    unfold allows
    rw [hload]
  unfold changed Watched.offer
  simp only [hlibrary, hmanifest, hallows, hoffered]

/-- What a change comes to depends on nothing but what the paths lead to. -/
theorem apply_of_same_files {dir : String} {note : Note ω}
    (hfiles : ∀ path, files.node? path = files'.node? path) :
    apply ⟨dir, files, note⟩ made p o = apply ⟨dir, files', note⟩ made p o := by
  cases hp : PluginFile.classify (Text.utf8 p) with
  | none => simp only [apply, hp]
  | some file =>
    obtain ⟨name, kind⟩ := file
    rw [apply_of_classify hp, apply_of_classify hp, becomes, changed_of_same_files hfiles, becomes,
      FileTree.pathExists, hfiles, FileTree.pathExists]

end

end Outline

/-! ## Windows that leave the same files -/

namespace Scene

/-- Two rows of changes that each come close together, change the same paths and leave the same
files. -/
structure Alike (c : Scene ω) (first second : List Disturbance) (ticks ticks' : List Nat) :
    Prop where
  window : Window c.watcher.options.debounce first ticks
  window' : Window c.watcher.options.debounce second ticks'
  paths : ∀ p, p ∈ first.map (·.path) ↔ p ∈ second.map (·.path)
  files : ∀ p, (filesAfter c.files first).node? p = (filesAfter c.files second).node? p

/-- What is watched after changes came. -/
def watchedAfter (c : Scene ω) (note : Note ω) (events : List Disturbance) : Watched ω :=
  ⟨c.watcher.dir, filesAfter c.files events, note⟩

section
variable {P : Plugins ω} {note : Note ω} {made : Blueprint → Descriptor} {c : Scene ω}
  {first second : List Disturbance} {ticks ticks' : List Nat}

/-- What is applied after a window, in outline. -/
theorem outline_play {named : String → Prop} (hidle : c.watcher.pending = some ∅)
    (hhot : c.watcher.options.hotReload = true)
    (hwindow : Window c.watcher.options.debounce first ticks)
    (hs : Site.Sound P note named (filesAfter c.files first) made c.site)
    (hnamed : ∀ p ∈ first.map (·.path), ∀ n kind,
      PluginFile.classify (Text.utf8 p) = some (n, kind) → named n) :
    ∃ order : List String, (c.play P note first ticks).outline = order.foldl
        (fun o p => o.apply (c.watchedAfter note first) made p) c.site.outline ∧
      order.Pairwise (LastBefore first) ∧ order.Nodup ∧
      ∀ p, p ∈ order ↔ Watcher.recognizes p = true ∧ p ∈ first.map (·.path) := by
  obtain ⟨order, hplay, hpairwise, hnodup, hmem⟩ := play_window P note hidle hhot
    hwindow
  refine ⟨order, ?_, hpairwise, hnodup, hmem⟩
  rw [hplay]
  exact Site.outline_foldl_applyChange (c.watchedAfter note first) hs order
    fun p hp => hnamed p ((hmem p).1 hp).2

/-- Two rows of changes that each come close together, change the same paths and leave the same
files lead to the same registered plugins, if no callback of a plugin that a path belongs to
fails, the modules' instances report the same each time, and entangled paths changed last in the
same order. -/
theorem play_converges (hreachable : Host.Reachable P c.site.host)
    (hidle : c.watcher.pending = some ∅) (hhot : c.watcher.options.hotReload = true)
    (halike : c.Alike first second ticks ticks')
    (hsteadfast : ∀ p ∈ first.map (·.path), ∀ n kind,
      PluginFile.classify (Text.utf8 p) = some (n, kind) →
        ∀ r, c.site.host.records.get? n = some r →
          Steadfast P note r.plugin r.descriptor c.site.host.world)
    (hfaithful : Faithful P note (filesAfter c.files first) made c.site.host.world)
    (horder : ∀ p q, c.site.outline.Entangled (c.watchedAfter note first) made p q →
      LastBefore first p q → LastBefore second p q)
    (name : String) :
    (c.play P note first ticks).host.contains name =
      (c.play P note second ticks').host.contains name := by
  let named : String → Prop := fun n => ∃ p ∈ first.map (·.path), ∃ kind,
    PluginFile.classify (Text.utf8 p) = some (n, kind)
  have hsound : Site.Sound P note named (filesAfter c.files first) made c.site :=
    ⟨hreachable.coherent, fun n ⟨p, hp, kind, hn⟩ => hsteadfast p hp n kind hn, hfaithful⟩
  have hsound' : Site.Sound P note named (filesAfter c.files second) made c.site :=
    ⟨hsound.coherent, hsound.steadfast, fun path blueprint hnode =>
      hfaithful path blueprint ((halike.files path).trans hnode)⟩
  obtain ⟨order, hplay, hpairwise, hnodup, hmem⟩ := outline_play hidle hhot halike.window hsound
    fun p hp n kind hn => ⟨p, hp, kind, hn⟩
  obtain ⟨order', hplay', hpairwise', hnodup', hmem'⟩ := outline_play hidle hhot halike.window'
    hsound' fun p hp n kind hn => ⟨p, (halike.paths p).2 hp, kind, hn⟩
  have hperm : order.Perm order' := (List.perm_ext_iff_of_nodup hnodup hnodup').2 fun p => by
    rw [hmem, hmem', halike.paths]
  have hrole : ∀ n d, c.site.outline.Role (c.watchedAfter note first) made n d → d.name = n := by
    rintro n d (⟨loaded, hd⟩ | hd)
    · obtain ⟨r, hr, rfl, -⟩ := Site.outline_eq_some.1 hd
      exact hsound.coherent.named hr
    · obtain ⟨path, -, hoffered⟩ := Option.bind_eq_some_iff.1 hd
      exact (made_of_offered hoffered).2
  have hsame : (c.play P note first ticks).outline = (c.play P note second ticks').outline := by
    have hfold := foldl_eq_of_swaps
      (f := fun (o : Outline) p => o.apply (c.watchedAfter note first) made p)
      (I := Outline.Within (c.site.outline.Role (c.watchedAfter note first) made))
      (fun o p ho => Outline.within_apply ho p)
      (fun p q hnot o ho => Outline.apply_comm hrole ho hnot) hperm hnodup hpairwise hpairwise'
      (fun p q hentangled hpq => (horder p q hentangled hpq).asymm)
      (fun n d loaded hd => Or.inl ⟨loaded, hd⟩)
    rw [hplay, hplay', hfold]
    simp only [watchedAfter, Outline.apply_of_same_files halike.files]
  rw [← Site.isSome_outline, ← Site.isSome_outline, hsame]

end

/-! ## Orders that matter and orders that do not -/

/-- Any two such rows of changes lead to the same registered plugins. -/
def Converges (P : Plugins ω) (note : Note ω) (c : Scene ω) : Prop :=
  ∀ first second ticks ticks', c.Alike first second ticks ticks' → ∀ name,
    (c.play P note first ticks).host.contains name =
      (c.play P note second ticks').host.contains name

/-- Two changes in both orders. -/
theorem alike_of_two {c : Scene ω} (p q : String) (t t' u : FileTree) {now : Nat}
    (hdebounce : 1 < c.watcher.options.debounce) (hnow : 1 + c.watcher.options.debounce ≤ now) :
    c.Alike [⟨0, p, t⟩, ⟨1, q, u⟩] [⟨0, q, t'⟩, ⟨1, p, u⟩] [now] [now] where
  window := ⟨by simp; omega, by simp; omega⟩
  window' := ⟨by simp; omega, by simp; omega⟩
  paths r := by simp [or_comm]
  files _ := rfl

/-- A calculator. -/
def calcDescriptor (dependencies : List String) : Descriptor :=
  ⟨"calc", "", "1.0.0", dependencies, []⟩

/-- A lamp. -/
def lampDescriptor (dependencies conflicts : List String) : Descriptor :=
  ⟨"lamp", "", "1.0.0", dependencies, conflicts⟩

/-- The plugins of two modules, none of whose callbacks fails. -/
def pairPlugins (lamp : Descriptor) : Plugins Unit :=
  { Plugins.constant (fun plugin => if plugin = ⟨1⟩ then lamp else calcDescriptor [])
      fun _ _ => .ok with
    construct := fun blueprint world => (match blueprint with
      | .greeter => ⟨1⟩
      | _ => ⟨0⟩, world) }

/-- The same, but an instance that is not the first one needs a plugin that there is not. -/
def shiftyPlugins : Plugins Nat where
  descriptor plugin world :=
    let dependencies := if plugin.id < 2 then [] else ["none"]
    (if plugin.id % 2 = 1 then lampDescriptor dependencies [] else calcDescriptor dependencies,
      world)
  routes _ world := ([], world)
  middlewares _ world := ([], world)
  attach _ world := world
  callback _ _ world := (.ok, world)
  execute _ params world := (.answered params, world)
  construct blueprint world := (match blueprint with
      | .greeter => ⟨2 * world + 1⟩
      | _ => ⟨2 * world⟩, world + 1)
  intercept _ _ world := (none, world)
  serve _ _ world := (.empty 200, world)

/-- A directory with some files. -/
def pairFiles (files : List (String × Node)) : FileTree :=
  ⟨[([], .directory), (["p"], .directory)] ++ files.map fun f => (["p", f.1], f.2)⟩

/-- The calculator's module. -/
def calcModule : String × Node := ("calc.so", .module (.complete apiVersion (some .minimal)))

/-- The lamp's module. -/
def lampModule : String × Node := ("lamp.so", .module (.complete apiVersion (some .greeter)))

/-- The calculator's source. -/
def calcSource : String × Node := ("calc.rs", .file [])

/-- A manifest of the lamp that asks for the calculator. -/
def lampManifest : String × Node :=
  ("lamp.json", .file (Text.utf8
    "\x7b\"name\":\"lamp\",\"version\":\"1.0.0\",\"dependencies\":[\"calc\"]\x7d"))

/-- A watched directory with some files. -/
def pairScene (site : Site ω) (files : List (String × Node)) : Scene ω :=
  ⟨⟨"p", {}, some ∅⟩, site, pairFiles files⟩

/-- Changes in two orders can lead to different plugins: changes of two files of one plugin, one
of which is removed, and changes of two plugins one of which needs the other or conflicts with
it, or whose manifest asks for the other one, or whose modules make instances that report
different things. -/
theorem windows_can_diverge :
    ¬ (pairScene (.start ()) [calcSource]).Converges (pairPlugins (lampDescriptor [] []))
        Note.none ∧
      ¬ (pairScene (.start ()) []).Converges (pairPlugins (lampDescriptor ["calc"] []))
        Note.none ∧
      ¬ (pairScene (.start ()) []).Converges (pairPlugins (lampDescriptor [] ["calc"]))
        Note.none ∧
      ¬ (pairScene (.start ()) [lampManifest]).Converges (pairPlugins (lampDescriptor [] []))
        Note.none ∧
      ¬ (pairScene (.start 0) []).Converges shiftyPlugins Note.none := by
  -- both modules are written, in one order and in the other
  have hlamp : ∀ {ω : Type} (P : Plugins ω) (site : Site ω) (files : List (String × Node)),
      ((pairScene site files).play P Note.none
        [⟨0, "p/calc.so", pairFiles (files ++ [calcModule])⟩,
          ⟨1, "p/lamp.so", pairFiles (files ++ [calcModule, lampModule])⟩]
        [2000]).host.contains "lamp" ≠
      ((pairScene site files).play P Note.none
        [⟨0, "p/lamp.so", pairFiles (files ++ [lampModule])⟩,
          ⟨1, "p/calc.so", pairFiles (files ++ [calcModule, lampModule])⟩]
        [2000]).host.contains "lamp" →
      ¬ (pairScene site files).Converges P Note.none :=
    fun P site files hne h => hne (h _ _ _ _ (alike_of_two _ _ _ _ _
      (by simp [pairScene]) (by simp [pairScene])) "lamp")
  refine ⟨fun h => ?_, hlamp _ _ [] (by decide +kernel), hlamp _ _ [] (by decide +kernel),
    hlamp _ _ [lampManifest] (by decide +kernel), hlamp _ _ [] (by decide +kernel)⟩
  -- the module is written and the source removed, in one order and in the other
  have hboth := h _ _ [2000] [2000] (alike_of_two "p/calc.rs" "p/calc.so" (pairFiles [])
    (pairFiles [calcSource, calcModule]) (pairFiles [calcModule]) (by decide) (by decide)) "calc"
  revert hboth
  decide +kernel

/-- What the instances of the two modules report. -/
def pairMade : Blueprint → Descriptor
  | .greeter => lampDescriptor [] []
  | _ => calcDescriptor []

/-- The calculator was registered before. -/
def calcSite : Site Unit :=
  ⟨((Host.start ()).register (pairPlugins (lampDescriptor [] [])) ⟨0⟩).2, Loader.empty⟩

theorem calcSite_records : calcSite.host.records =
    (∅ : NameMap Record).insert "calc" ⟨⟨0⟩, calcDescriptor [], [], true, false⟩ := rfl

theorem eq_of_calcSite {n : String} {r : Record} (hr : calcSite.host.records.get? n = some r) :
    r = ⟨⟨0⟩, calcDescriptor [], [], true, false⟩ := by
  rw [calcSite_records, NameMap.get?_insert] at hr
  split at hr
  · exact (Option.some.inj hr).symm
  · cases hr

theorem steadfast_calc (note : Note Unit) (w : Unit) :
    Steadfast (pairPlugins (lampDescriptor [] [])) note ⟨0⟩ (calcDescriptor []) w where
  descriptor _ _ := rfl
  init _ _ := rfl
  callback _ _ _ _ := rfl

theorem faithful_pairPlugins (files : FileTree) (note : Note Unit) (w : Unit) :
    Faithful (pairPlugins (lampDescriptor [] [])) note files pairMade w :=
  fun _ blueprint _ _ _ => {
    descriptor := fun _ _ => by cases blueprint <;> rfl
    init := fun _ _ => rfl
    callback := fun _ _ _ _ => rfl }

/-- The calculator and the lamp do not mention each other. -/
theorem not_mentions_pair {watched : Watched Unit} {name other : String}
    (hmanifest : PluginFile.findManifest watched.files watched.dir name = none) :
    ¬ calcSite.outline.Mentions watched pairMade name other := by
  have hrole : ∀ d, calcSite.outline.Role watched pairMade name d →
      d.dependencies = [] ∧ d.conflicts = [] := by
    rintro d (⟨loaded, hd⟩ | hd)
    · obtain ⟨r, hr, rfl, -⟩ := Site.outline_eq_some.1 hd
      rw [eq_of_calcSite hr]
      exact ⟨rfl, rfl⟩
    · obtain ⟨path, -, hoffered⟩ := Option.bind_eq_some_iff.1 hd
      obtain ⟨⟨blueprint, rfl⟩, -⟩ := made_of_offered hoffered
      cases blueprint <;> exact ⟨rfl, rfl⟩
  intro hmentions
  cases hmentions with
  | dependency hd hmem =>
    rw [(hrole _ hd).1] at hmem
    cases hmem
  | conflict hd hmem =>
    rw [(hrole _ hd).2] at hmem
    cases hmem
  | manifest hfind =>
    rw [hmanifest] at hfind
    cases hfind

/-- A file of the calculator and one of the lamp are not entangled. -/
theorem not_entangled_pair {watched : Watched Unit} {p q : String}
    (hp : (PluginFile.classify (Text.utf8 p)).map (·.1) = some "calc")
    (hq : (PluginFile.classify (Text.utf8 q)).map (·.1) = some "lamp")
    (hcalc : PluginFile.findManifest watched.files watched.dir "calc" = none)
    (hlamp : PluginFile.findManifest watched.files watched.dir "lamp" = none) :
    ¬ calcSite.outline.Entangled watched pairMade p q := by
  intro hentangled
  cases hentangled with
  | siblings hp' hq' =>
    rw [hp'] at hp
    rw [hq'] at hq
    exact absurd (hp.symm.trans hq) (by decide)
  | relatives hp' hq' _ hmentions =>
    rw [hp'] at hp
    rw [hq'] at hq
    cases hp
    cases hq
    exact hmentions.elim (not_mentions_pair hcalc) (not_mentions_pair hlamp)

/-- The source of the calculator is removed, its module is written, and then that of the lamp. -/
def calcFirst : List Disturbance :=
  [⟨0, "p/calc.rs", pairFiles []⟩, ⟨1, "p/calc.so", pairFiles [calcModule]⟩,
    ⟨2, "p/lamp.so", pairFiles [calcModule, lampModule]⟩]

/-- The same, but the module of the lamp is written first. -/
def lampFirst : List Disturbance :=
  [⟨0, "p/lamp.so", pairFiles [calcSource, lampModule]⟩, ⟨1, "p/calc.rs", pairFiles [lampModule]⟩,
    ⟨2, "p/calc.so", pairFiles [calcModule, lampModule]⟩]

/-- The two files of the calculator changed last in the same order. -/
theorem lastBefore_lampFirst {p q : String}
    (hentangled : calcSite.outline.Entangled
      ((pairScene calcSite [calcSource]).watchedAfter Note.none calcFirst) pairMade p q)
    (h : LastBefore calcFirst p q) : LastBefore lampFirst p q := by
  obtain ⟨s, t, hs, ht, hlt⟩ := h
  obtain ⟨d, hd, rfl, rfl⟩ := exists_of_lastTime? hs
  obtain ⟨e, he, rfl, rfl⟩ := exists_of_lastTime? ht
  simp only [calcFirst, List.mem_cons, List.not_mem_nil, or_false] at hd he
  rcases hd with rfl | rfl | rfl <;> rcases he with rfl | rfl | rfl
  case inl.inr.inl => exact ⟨1, 2, by decide +kernel, by decide +kernel, by decide⟩
  case inl.inr.inr | inr.inl.inr.inr =>
    exact absurd hentangled (not_entangled_pair (by decide +kernel) (by decide +kernel)
      (by decide +kernel) (by decide +kernel))
  all_goals exact absurd hlt (by decide)

/-- The calculator is taken out with its source and comes back with its module in both orders. -/
theorem calc_and_lamp_converge :
    ((pairScene calcSite [calcSource]).play (pairPlugins (lampDescriptor [] [])) Note.none calcFirst
      [2000]).host.contains "calc" = true ∧
    ((pairScene calcSite [calcSource]).play (pairPlugins (lampDescriptor [] [])) Note.none lampFirst
      [2000]).host.contains "calc" = true := by
  have hcalc : ((pairScene calcSite [calcSource]).play (pairPlugins (lampDescriptor [] []))
      Note.none calcFirst [2000]).host.contains "calc" = true := by decide +kernel
  have halike : (pairScene calcSite [calcSource]).Alike calcFirst lampFirst [2000] [2000] :=
    ⟨⟨by decide, by decide⟩, ⟨by decide, by decide⟩,
      fun p => by simp [calcFirst, lampFirst, or_comm, or_left_comm], fun _ => rfl⟩
  have hreachable : Host.Reachable (pairPlugins (lampDescriptor [] [])) calcSite.host :=
    (Host.Reachable.start ()).command (.register ⟨0⟩)
  refine ⟨hcalc, (play_converges hreachable rfl rfl halike (fun _ _ n _ _ r hr => ?_)
    (faithful_pairPlugins _ _ _) (fun p q => lastBefore_lampFirst) "calc").symm.trans hcalc⟩
  rw [eq_of_calcSite hr]
  exact steadfast_calc _ _

end Scene

end PluginHost
