import Mathlib.Data.List.Induction
import PluginHost.Proofs.Loader

/-!
# Where opened modules are kept

A loader never closes a module. Each one that it opened is the handle of one name, or it has been
retired: because its plugin was refused, because its name was unloaded, or because the name was to
be loaded again. What a name has is decided by the last call that named it alone, whatever was
called for other names before and after.

* `Loader.load_settles`: the three ways in which a load treats the module at its path.
* `Loader.Custody`: each opened module is in one place, kept by `Custody.after` with every call.
* `Loader.Held`, `Loader.get?_afterAll_iff`: whose handle is there after a row of calls.
* `Loader.custody_of_calls`: the books of a loader after any row of calls.
-/
namespace PluginHost

variable {ω : Type}

/-- A call of a loader. A load finds the files and the world of plugins as they are by then. -/
inductive LoaderCall (ω : Type) where
  | load (files : FileTree) (path name : String) (world : ω)
  | unload (name : String)

namespace LoaderCall

/-- The name that a call is about. -/
def name : LoaderCall ω → String
  | .load _ _ name _ => name
  | .unload name => name

/-- There is a module at the path, and it is opened, whatever becomes of its plugin. -/
def opens : LoaderCall ω → Bool
  | .load files path _ _ =>
    match files.node? path with
    | some (.module _) => true
    | _ => false
  | .unload _ => false

end LoaderCall

namespace Loader

/-- The loader after a call. -/
def after (P : Plugins ω) (l : Loader) : LoaderCall ω → Loader
  | .load files path name world => (l.load P files path name world).2.1
  | .unload name => l.unload name

/-- The loader after calls, one after the other. -/
def afterAll (P : Plugins ω) (l : Loader) (calls : List (LoaderCall ω)) : Loader :=
  calls.foldl (after P) l

/-- A module was opened, and it is retired at once. -/
def retireNext (l : Loader) : Loader :=
  { l with retired := l.opened :: l.retired, opened := l.opened + 1 }

/-- A module was opened, and a name has it for its handle. -/
def holdNext (name path : String) (l : Loader) : Loader :=
  { l with handles := l.handles.insert name ⟨path, l.opened⟩, opened := l.opened + 1 }

/-- All modules of a loader: those of its handles and the retired ones. -/
def libraries (l : Loader) : List Nat :=
  l.handles.values.map (·.library) ++ l.retired

/-- Each of the modules that were opened so far is kept in one place. -/
structure Custody (l : Loader) : Prop where
  ascending : l.handles.Ascending
  kept : l.libraries.Perm (List.range l.opened)

/-- The last of the calls that names a plugin is a load that succeeded; the path and the module are
those of this call. -/
def Held (P : Plugins ω) (calls : List (LoaderCall ω)) (name : String) (handle : Handle) : Prop :=
  ∃ before files world rest plugin, calls = before ++ .load files handle.path name world :: rest ∧
    (∀ c ∈ rest, c.name ≠ name) ∧
    ((empty.afterAll P before).load P files handle.path name world).1 = .ok plugin ∧
    handle.library = before.countP LoaderCall.opens

/-! ## One call -/

/-- A load opens no module, or opens one that is retired, or opens one that is held; the handle
that the name had is given up first. -/
theorem load_settles (P : Plugins ω) (files : FileTree) (path name : String) (l : Loader)
    (w : ω) :
    (LoaderCall.opens (.load files path name w) = false ∧
      (∃ e, (l.load P files path name w).1 = .error e) ∧
      (l.load P files path name w).2.1 = l.unload name) ∨
    (LoaderCall.opens (.load files path name w) = true ∧
      (∃ e, (l.load P files path name w).1 = .error e) ∧
      (l.load P files path name w).2.1 = (l.unload name).retireNext) ∨
    (LoaderCall.opens (.load files path name w) = true ∧
      (∃ plugin, (l.load P files path name w).1 = .ok plugin) ∧
      (l.load P files path name w).2.1 = (l.unload name).holdNext name path) := by
  unfold load
  split
  · rename_i hnode
    refine Or.inl ⟨?_, ⟨.notFound path, rfl⟩, rfl⟩
    simp only [LoaderCall.opens, hnode]
  · rename_i image hnode
    have hopens : LoaderCall.opens (.load files path name w) = true := by
      simp only [LoaderCall.opens, hnode]
    simp only
    split
    · rename_i e _ _
      exact Or.inr (Or.inl ⟨hopens, ⟨e, rfl⟩, rfl⟩)
    · rename_i plugin _ _
      exact Or.inr (Or.inr ⟨hopens, ⟨plugin, rfl⟩, rfl⟩)
  · rename_i node hmodule hnode
    refine Or.inl ⟨?_, ⟨.notOpened path, rfl⟩, rfl⟩
    simp only [LoaderCall.opens, hnode]
    split
    · rename_i image heq
      exact absurd (Option.some.inj heq) (hmodule image)
    · rfl

section
variable {l : Loader} {name : String}

@[simp] theorem opened_unload (l : Loader) (name : String) : (l.unload name).opened = l.opened := by
  unfold unload
  split <;> rfl

theorem Custody.unload (h : l.Custody) (name : String) : (l.unload name).Custody := by
  unfold Loader.unload
  split
  · exact h
  · rename_i handle hhandle
    refine ⟨h.ascending.erase name, List.Perm.trans ?_ h.kept⟩
    -- the module goes from the handles to the retired ones
    have hvalues := (h.ascending.values_erase_perm hhandle).map Handle.library
    exact List.perm_middle.trans (hvalues.symm.append_right l.retired)

theorem libraries_retireNext (l : Loader) :
    l.retireNext.libraries.Perm (l.opened :: l.libraries) :=
  List.perm_middle

theorem libraries_holdNext {path : String} (h : l.handles.get? name = none) :
    (l.holdNext name path).libraries.Perm (l.opened :: l.libraries) := by
  have hvalues := NameMap.values_insert_perm (⟨path, l.opened⟩ : Handle) h
  exact (hvalues.map Handle.library).append_right l.retired

/-- One more module was opened and put somewhere. -/
theorem Custody.next {k : Loader} (h : l.Custody) (hascending : k.handles.Ascending)
    (hlibraries : k.libraries.Perm (l.opened :: l.libraries)) (hopened : k.opened = l.opened + 1) :
    k.Custody := by
  refine ⟨hascending, ?_⟩
  rw [hopened, List.range_succ]
  calc k.libraries
    _ |>.Perm (l.opened :: l.libraries) := hlibraries
    _ |>.Perm (l.opened :: List.range l.opened) := h.kept.cons _
    _ |>.Perm (List.range l.opened ++ [l.opened]) := (List.perm_append_singleton _ _).symm

theorem custody_empty : empty.Custody :=
  ⟨NameMap.ascending_empty, .refl _⟩

/-- A call leaves each module in one place. -/
theorem Custody.after (h : l.Custody) (P : Plugins ω) (c : LoaderCall ω) :
    (l.after P c).Custody := by
  cases c with
  | unload name => exact h.unload name
  | load files path name w =>
    have hunloaded : (l.unload name).Custody := h.unload name
    have hnone : (l.unload name).handles.get? name = none :=
      (get?_unload l name name).trans (if_pos rfl)
    rw [Loader.after]
    rcases load_settles P files path name l w with ⟨-, -, hl⟩ | ⟨-, -, hl⟩ | ⟨-, -, hl⟩
    · rw [hl]
      exact hunloaded
    · rw [hl]
      exact hunloaded.next hunloaded.ascending (libraries_retireNext _) rfl
    · rw [hl]
      exact hunloaded.next (hunloaded.ascending.insert _ _) (libraries_holdNext hnone) rfl

/-- A call opens one module or none. -/
theorem opened_after (P : Plugins ω) (l : Loader) (c : LoaderCall ω) :
    (l.after P c).opened = l.opened + if c.opens then 1 else 0 := by
  cases c with
  | unload name => exact opened_unload l name
  | load files path name w =>
    rw [after]
    rcases load_settles P files path name l w with ⟨ho, -, hl⟩ | ⟨ho, -, hl⟩ | ⟨ho, -, hl⟩
    · rw [hl, ho]
      exact opened_unload l name
    · rw [hl, ho]
      exact congrArg (· + 1) (opened_unload l name)
    · rw [hl, ho]
      exact congrArg (· + 1) (opened_unload l name)

/-- A call leaves the handles of all names but its own alone. -/
theorem get?_after_of_ne (P : Plugins ω) (l : Loader) {c : LoaderCall ω} {n : String}
    (hne : c.name ≠ n) : (l.after P c).handles.get? n = l.handles.get? n := by
  have hunload : ∀ name, name ≠ n → (l.unload name).handles.get? n = l.handles.get? n :=
    fun name hname => (get?_unload l name n).trans (if_neg (Ne.symm hname))
  cases c with
  | unload name => exact hunload name hne
  | load files path name w =>
    rw [after]
    rcases load_settles P files path name l w with ⟨-, -, hl⟩ | ⟨-, -, hl⟩ | ⟨-, -, hl⟩
    · rw [hl]
      exact hunload name hne
    · rw [hl]
      exact hunload name hne
    · rw [hl, holdNext, NameMap.get?_insert]
      exact (if_neg (Ne.symm hne)).trans (hunload name hne)

/-- After a load the name has a handle exactly if the load succeeded: the one for the module that
was opened last. -/
theorem get?_after_load_iff (P : Plugins ω) (l : Loader) {files : FileTree} {path : String} {w : ω}
    {handle : Handle} :
    (l.after P (.load files path name w)).handles.get? name = some handle ↔
      (∃ plugin, (l.load P files path name w).1 = .ok plugin) ∧ handle = ⟨path, l.opened⟩ := by
  have hnone : (l.unload name).handles.get? name = none :=
    (get?_unload l name name).trans (if_pos rfl)
  rw [after]
  rcases load_settles P files path name l w with
    ⟨-, ⟨e, he⟩, hl⟩ | ⟨-, ⟨e, he⟩, hl⟩ | ⟨-, hok, hl⟩
  · rw [hl, hnone, he]
    simp
  · rw [hl, retireNext, hnone, he]
    simp
  · rw [hl, holdNext, NameMap.get?_insert, if_pos rfl, opened_unload, Option.some.injEq]
    exact ⟨fun h => ⟨hok, h.symm⟩, fun h => h.2.symm⟩

end

/-! ## Rows of calls -/

section
variable {P : Plugins ω} {l : Loader} {calls : List (LoaderCall ω)}

theorem afterAll_concat (P : Plugins ω) (l : Loader) (calls : List (LoaderCall ω))
    (c : LoaderCall ω) : l.afterAll P (calls ++ [c]) = (l.afterAll P calls).after P c := by
  rw [afterAll, afterAll, List.foldl_append]
  rfl

theorem Custody.afterAll (h : l.Custody) (P : Plugins ω) (calls : List (LoaderCall ω)) :
    (l.afterAll P calls).Custody := by
  induction calls generalizing l with
  | nil => exact h
  | cons c calls ih => exact ih (h.after P c)

theorem opened_afterAll (P : Plugins ω) (l : Loader) (calls : List (LoaderCall ω)) :
    (l.afterAll P calls).opened = l.opened + calls.countP LoaderCall.opens := by
  induction calls generalizing l with
  | nil => rfl
  | cons c calls ih =>
    have hfirst := opened_after P l c
    have hrest := ih (l.after P c)
    rw [List.countP_cons]
    rw [afterAll, List.foldl_cons, ← afterAll]
    omega

theorem not_held_nil {name : String} {handle : Handle} : ¬ Held P [] name handle := by
  rintro ⟨before, files, world, rest, plugin, hcalls, -⟩
  exact List.append_ne_nil_of_right_ne_nil before (List.cons_ne_nil _ rest) hcalls.symm

/-- The last call is a load of the name, or another call that does not name it. -/
theorem held_concat_iff {c : LoaderCall ω} {name : String} {handle : Handle} :
    Held P (calls ++ [c]) name handle ↔
      (∃ files world plugin, c = .load files handle.path name world ∧
        ((empty.afterAll P calls).load P files handle.path name world).1 = .ok plugin ∧
        handle.library = calls.countP LoaderCall.opens) ∨
      c.name ≠ name ∧ Held P calls name handle := by
  constructor
  · rintro ⟨before, files, world, rest, plugin, hcalls, hrest, hok, hlibrary⟩
    rcases List.eq_nil_or_concat rest with rfl | ⟨rest, last, rfl⟩
    · obtain ⟨rfl, hlast⟩ := List.append_inj' hcalls rfl
      exact Or.inl ⟨files, world, plugin, List.singleton_inj.1 hlast, hok, hlibrary⟩
    · rw [List.concat_eq_append] at hcalls hrest
      rw [← List.cons_append, ← List.append_assoc] at hcalls
      obtain ⟨rfl, hlast⟩ := List.append_inj' hcalls rfl
      obtain rfl := List.singleton_inj.1 hlast
      exact Or.inr ⟨hrest c (List.mem_append_right _ List.mem_cons_self),
        before, files, world, rest, plugin, rfl,
        fun d hd => hrest d (List.mem_append_left _ hd), hok, hlibrary⟩
  · rintro (⟨files, world, plugin, rfl, hok, hlibrary⟩ | ⟨hne, hheld⟩)
    · exact ⟨calls, files, world, [], plugin, rfl, by simp, hok, hlibrary⟩
    · obtain ⟨before, files, world, rest, plugin, rfl, hrest, hok, hlibrary⟩ := hheld
      refine ⟨before, files, world, rest ++ [c], plugin, by simp, fun d hd => ?_, hok, hlibrary⟩
      rcases List.mem_append.1 hd with hd | hd
      · exact hrest d hd
      · exact List.mem_singleton.1 hd ▸ hne

/-- The handle of a name is that of the last call that named it, if this was a load that
succeeded. -/
theorem get?_afterAll_iff (P : Plugins ω) (calls : List (LoaderCall ω)) {name : String}
    {handle : Handle} :
    (empty.afterAll P calls).handles.get? name = some handle ↔ Held P calls name handle := by
  induction calls using List.reverseRecOn with
  | nil =>
    refine iff_of_false (fun h => ?_) not_held_nil
    cases h
  | append_singleton calls c ih =>
    rw [afterAll_concat, held_concat_iff]
    by_cases hname : c.name = name
    · cases c with
      | unload other =>
        obtain rfl : other = name := hname
        have hnone : ((empty.afterAll P calls).unload other).handles.get? other = none :=
          (get?_unload _ _ _).trans (if_pos rfl)
        rw [after, hnone]
        simp [LoaderCall.name]
      | load files path other world =>
        obtain rfl : other = name := hname
        rw [get?_after_load_iff, opened_afterAll]
        constructor
        · rintro ⟨⟨plugin, hok⟩, rfl⟩
          exact Or.inl ⟨files, world, plugin, rfl, hok, Nat.zero_add _⟩
        · rintro (⟨_, _, plugin, hcall, hok, hlibrary⟩ | ⟨hne, -⟩)
          · cases hcall
            refine ⟨⟨plugin, hok⟩, ?_⟩
            obtain ⟨path, library⟩ := handle
            exact congrArg _ (hlibrary.trans (Nat.zero_add _).symm)
          · exact absurd rfl hne
    · rw [get?_after_of_ne P _ hname, ih]
      refine ⟨fun h => Or.inr ⟨hname, h⟩, ?_⟩
      rintro (⟨_, _, _, rfl, -⟩ | ⟨-, h⟩)
      · exact absurd rfl hname
      · exact h

end

/-- The books of a loader after any row of calls. A name is loaded exactly if the last call that
named it was a load that succeeded, and its path and its module are those of this call; no call
changes what another name has. An instance that a load returns came from a module of the host's own
version, and when it was asked it reported the name that was to be loaded, which is not blank. And
each of the modules that were opened is the handle of one name or retired, none of them twice and
none gone. -/
theorem custody_of_calls (P : Plugins ω) (calls : List (LoaderCall ω)) :
    let l := empty.afterAll P calls
    (∀ name, (l.isLoaded name = true ↔ ∃ handle, Held P calls name handle) ∧
      ∀ path, l.path? name = some path ↔ ∃ library, Held P calls name ⟨path, library⟩) ∧
    (∀ (c : LoaderCall ω) name, c.name ≠ name →
      (l.after P c).handles.get? name = l.handles.get? name) ∧
    (∀ files path name world plugin, (l.load P files path name world).1 = .ok plugin →
      ∃ blueprint made d asked,
        files.node? path = some (.module (.complete apiVersion (some blueprint))) ∧
        P.construct blueprint world = (plugin, made) ∧ P.descriptor plugin made = (d, asked) ∧
        d.name = name ∧ Text.isBlank name = false) ∧
    (l.handles.values.map (·.library) ++ l.retired).Perm (List.range l.opened) ∧
    l.opened = calls.countP LoaderCall.opens := by
  intro l
  refine ⟨fun name => ⟨?_, fun path => ?_⟩, fun c name hne => get?_after_of_ne P l hne,
    fun files path name world plugin hok => ?_, (custody_empty.afterAll P calls).kept,
    (opened_afterAll P empty calls).trans (Nat.zero_add _)⟩
  · rw [isLoaded_iff]
    exact exists_congr fun handle => get?_afterAll_iff P calls
  · rw [path?, Option.map_eq_some_iff]
    constructor
    · rintro ⟨handle, hhandle, rfl⟩
      exact ⟨handle.library, (get?_afterAll_iff P calls).1 hhandle⟩
    · rintro ⟨library, hheld⟩
      exact ⟨_, (get?_afterAll_iff P calls).2 hheld, rfl⟩
  · have hend := load_ends P files path name l world
    rw [hok] at hend
    generalize (l.load P files path name world).2.1 = loader at hend
    generalize (l.load P files path name world).2.2 = asked at hend
    cases hend with
    | loaded library hprovides =>
      obtain ⟨made, d, ⟨blueprint, hnode, hmade⟩, hasked, hname, hblank⟩ := hprovides
      exact ⟨blueprint, made, d, asked, hnode, hmade, hasked, hname, hblank⟩

end Loader

end PluginHost
