import Mathlib.Data.List.Induction
import PluginHost.Directory
import PluginHost.Proofs.Manifest
import PluginHost.Proofs.PluginFile

/-!
# What a directory provides

The files of a directory are looked at one after the other, and what is found is kept by plugin.
So of the modules of a plugin the one that was seen last counts, and so it is with manifests; a
plugin is listed if there is either, unless a broken manifest hides it. Where no two files make
the same claim, the order of the files does not matter.

* `Finding.ofFile_eq_library_iff`, `Finding.ofFile_eq_manifest_iff`, `Finding.ofFile_eq_broken_iff`:
  what a file tells.
* `provided`: what findings provide of a plugin.
* `mem_result_iff`: who is listed, and with what.
* `ascending_result`: the list is in name order, and nobody is listed twice.
* `Unambiguous.result_congr`: the order of the findings does not matter.
* `Unambiguous.library_iff`, `Unambiguous.manifest_iff`: which files a listed plugin has.
-/
namespace PluginHost

namespace Finding

/-- The module, if it is one of the named plugin. -/
def libraryOf (name : String) : Finding → Option String
  | .library n path => if n = name then some path else none
  | .manifest _ | .broken _ | .nothing => none

/-- The manifest, if it is one of the named plugin. -/
def manifestOf (name : String) : Finding → Option Manifest
  | .manifest m => if m.name = name then some m else none
  | .library .. | .broken _ | .nothing => none

section
variable {t : FileTree} {name path : String}

/-- What can be told of the file at a path: that it is a module, a manifest, or meant to be one. -/
inductive Tells (t : FileTree) (path : String) : Finding → Prop where
  | library {name : String} (hfile : t.isFile path = true)
      (hname : PluginFile.libraryName? (Text.utf8 path) = some name) :
      Tells t path (.library name path)
  | manifest {m : Manifest} (hfile : t.isFile path = true)
      (hmanifest : PluginFile.isManifest (Text.utf8 path) = true)
      (hload : Manifest.load t path = .ok m) : Tells t path (.manifest m)
  | broken {e : ManifestError} (hfile : t.isFile path = true)
      (hmanifest : PluginFile.isManifest (Text.utf8 path) = true)
      (hload : Manifest.load t path = .error e) :
      Tells t path (.broken ((PluginFile.stem? (Text.utf8 path)).bind Text.ofUtf8?))
  | nothing : Tells t path .nothing

theorem tells_ofFile (t : FileTree) (path : String) : Tells t path (ofFile t path) := by
  cases hfile : t.isFile path with
  | false => simpa [ofFile, hfile] using Tells.nothing
  | true =>
    cases hname : PluginFile.libraryName? (Text.utf8 path) with
    | some n => simpa [ofFile, hfile, hname] using Tells.library hfile hname
    | none =>
      cases hmanifest : PluginFile.isManifest (Text.utf8 path) with
      | false => simpa [ofFile, hfile, hname, hmanifest] using Tells.nothing
      | true =>
        cases hload : Manifest.load t path with
        | ok m =>
          simpa [ofFile, hfile, hname, hmanifest, hload] using Tells.manifest hfile hmanifest hload
        | error e =>
          simpa [ofFile, hfile, hname, hmanifest, hload] using Tells.broken hfile hmanifest hload

theorem isFile_of_ofFile (h : ofFile t path ≠ .nothing) : t.isFile path = true := by
  by_contra hfile
  exact h (by simp [ofFile, hfile])

theorem ofFile_eq_library_iff {found : String} : ofFile t path = .library name found ↔
    t.isFile path = true ∧ PluginFile.libraryName? (Text.utf8 path) = some name ∧
      path = found := by
  constructor
  · intro h
    have htells := tells_ofFile t path
    rw [h] at htells
    cases htells with
    | library hfile hname => exact ⟨hfile, hname, rfl⟩
  · rintro ⟨hfile, hname, rfl⟩
    simp [ofFile, hfile, hname]

theorem ofFile_eq_manifest_iff {m : Manifest} : ofFile t path = .manifest m ↔
    t.isFile path = true ∧ PluginFile.isManifest (Text.utf8 path) = true ∧
      Manifest.load t path = .ok m := by
  constructor
  · intro h
    have htells := tells_ofFile t path
    rw [h] at htells
    cases htells with
    | manifest hfile hmanifest hload => exact ⟨hfile, hmanifest, hload⟩
  · rintro ⟨hfile, hmanifest, hload⟩
    simp [ofFile, hfile, PluginFile.libraryName?_of_isManifest hmanifest, hmanifest, hload]

theorem ofFile_eq_broken_iff {stem : Option String} : ofFile t path = .broken stem ↔
    t.isFile path = true ∧ PluginFile.isManifest (Text.utf8 path) = true ∧
      (∃ e, Manifest.load t path = .error e) ∧
      (PluginFile.stem? (Text.utf8 path)).bind Text.ofUtf8? = stem := by
  constructor
  · intro h
    have htells := tells_ofFile t path
    rw [h] at htells
    cases htells with
    | broken hfile hmanifest hload => exact ⟨hfile, hmanifest, ⟨_, hload⟩, rfl⟩
  · rintro ⟨hfile, hmanifest, ⟨e, hload⟩, rfl⟩
    simp [ofFile, hfile, PluginFile.libraryName?_of_isManifest hmanifest, hmanifest, hload]

end

end Finding

/-- What findings provide of a plugin: the last of its modules and the last of its manifests. -/
def provided (fs : List Finding) (name : String) : Discovered :=
  ⟨name, fs.reverse.findSome? (Finding.libraryOf name),
    fs.reverse.findSome? (Finding.manifestOf name)⟩

/-- Two modules of one plugin are one file, and two manifests of one plugin say the same. -/
structure Unambiguous (fs : List Finding) : Prop where
  libraries : ∀ {n p q}, Finding.library n p ∈ fs → Finding.library n q ∈ fs → p = q
  manifests : ∀ {m m'}, Finding.manifest m ∈ fs → Finding.manifest m' ∈ fs → m.name = m'.name →
    m = m'

/-- What has been found after a row of findings. -/
def scanned (fs : List Finding) : Scan :=
  fs.foldl Scan.add Scan.empty

theorem scanned_concat (fs : List Finding) (f : Finding) :
    scanned (fs ++ [f]) = (scanned fs).add f := by
  rw [scanned, List.foldl_append]
  rfl

section
variable {fs : List Finding} {n : String}

theorem libraryOf_eq_some_iff {f : Finding} {path : String} :
    f.libraryOf n = some path ↔ f = .library n path := by
  cases f with
  | library m p => simp [Finding.libraryOf]
  | manifest | broken | nothing => simp [Finding.libraryOf]

theorem manifestOf_eq_some_iff {f : Finding} {m : Manifest} :
    f.manifestOf n = some m ↔ f = .manifest m ∧ m.name = n := by
  cases f with
  | manifest m' =>
    simp only [Finding.manifestOf, Option.ite_none_right_eq_some, Option.some.injEq,
      Finding.manifest.injEq]
    constructor
    · rintro ⟨hname, rfl⟩
      exact ⟨rfl, hname⟩
    · rintro ⟨rfl, hname⟩
      exact ⟨hname, rfl⟩
  | library | broken | nothing => simp [Finding.manifestOf]

theorem mem_of_library_provided {path : String} (h : (provided fs n).library = some path) :
    Finding.library n path ∈ fs := by
  obtain ⟨f, hf, hfound⟩ := List.exists_of_findSome?_eq_some h
  exact libraryOf_eq_some_iff.1 hfound ▸ List.mem_reverse.1 hf

theorem mem_of_manifest_provided {m : Manifest} (h : (provided fs n).manifest = some m) :
    Finding.manifest m ∈ fs ∧ m.name = n := by
  obtain ⟨f, hf, hfound⟩ := List.exists_of_findSome?_eq_some h
  obtain ⟨rfl, hname⟩ := manifestOf_eq_some_iff.1 hfound
  exact ⟨List.mem_reverse.1 hf, hname⟩

/-- Where a plugin has one module at most, it is provided with it. -/
theorem library_provided_iff {path : String}
    (hone : ∀ {p q}, Finding.library n p ∈ fs → Finding.library n q ∈ fs → p = q) :
    (provided fs n).library = some path ↔ Finding.library n path ∈ fs := by
  refine ⟨mem_of_library_provided, fun h => ?_⟩
  cases hfound : (provided fs n).library with
  | none =>
    have hnone := List.findSome?_eq_none_iff.1 hfound _ (List.mem_reverse.2 h)
    rw [libraryOf_eq_some_iff.2 rfl] at hnone
    cases hnone
  | some p => rw [hone (mem_of_library_provided hfound) h]

theorem Unambiguous.library_iff (hu : Unambiguous fs) {path : String} :
    (provided fs n).library = some path ↔ Finding.library n path ∈ fs :=
  library_provided_iff hu.libraries

theorem Unambiguous.manifest_iff (hu : Unambiguous fs) {m : Manifest} :
    (provided fs n).manifest = some m ↔ Finding.manifest m ∈ fs ∧ m.name = n := by
  refine ⟨mem_of_manifest_provided, fun h => ?_⟩
  cases hfound : (provided fs n).manifest with
  | none =>
    have hnone := List.findSome?_eq_none_iff.1 hfound _ (List.mem_reverse.2 h.1)
    rw [manifestOf_eq_some_iff.2 ⟨rfl, h.2⟩] at hnone
    cases hnone
  | some m' =>
    obtain ⟨hmem, hname⟩ := mem_of_manifest_provided hfound
    rw [hu.manifests hmem h.1 (hname.trans h.2.symm)]

/-! ## One finding after the other -/

/-- One more module counts for its plugin. -/
theorem provided_library (fs : List Finding) (m path : String) :
    provided (fs ++ [.library m path]) n =
      if n = m then { provided fs n with library := some path } else provided fs n := by
  by_cases h : n = m
  · subst h
    simp [provided, List.findSome?_cons, Finding.libraryOf, Finding.manifestOf]
  · simp [provided, List.findSome?_cons, Finding.libraryOf, Finding.manifestOf, h, Ne.symm h]

/-- One more manifest counts for its plugin. -/
theorem provided_manifest (fs : List Finding) (m : Manifest) :
    provided (fs ++ [.manifest m]) n =
      if n = m.name then { provided fs n with manifest := some m } else provided fs n := by
  by_cases h : n = m.name
  · subst h
    simp [provided, List.findSome?_cons, Finding.libraryOf, Finding.manifestOf]
  · simp [provided, List.findSome?_cons, Finding.libraryOf, Finding.manifestOf, h, Ne.symm h]

/-- What is neither counts for nobody. -/
theorem provided_other (fs : List Finding) {f : Finding} (hl : f.libraryOf n = none)
    (hm : f.manifestOf n = none) : provided (fs ++ [f]) n = provided fs n := by
  simp [provided, hl, hm]

/-- What has been found of a plugin is what is provided of it, if anything is. -/
theorem get?_scanned (fs : List Finding) (n : String) : (scanned fs).found.get? n =
    if provided fs n = ⟨n, none, none⟩ then none else some (provided fs n) := by
  induction fs using List.reverseRecOn with
  | nil => exact (if_pos rfl).symm
  | append_singleton fs f ih =>
    have hdefault : ((scanned fs).found.get? n).getD ⟨n, none, none⟩ = provided fs n := by
      rw [ih]
      split
      · rename_i heq
        exact heq.symm
      · rfl
    rw [scanned_concat]
    cases f with
    | library m path =>
      rw [provided_library]
      simp only [Scan.add, Scan.update]
      rw [NameMap.get?_insert]
      split
      · rename_i heq
        subst heq
        rw [hdefault, if_neg (by simp)]
      · exact ih
    | manifest m =>
      rw [provided_manifest]
      simp only [Scan.add, Scan.update]
      rw [NameMap.get?_insert]
      split
      · rename_i heq
        subst heq
        rw [hdefault, if_neg (by simp)]
      · exact ih
    | broken name =>
      rw [provided_other fs rfl rfl]
      cases name <;> exact ih
    | nothing =>
      rw [provided_other fs rfl rfl]
      exact ih

theorem ascending_scanned (fs : List Finding) : (scanned fs).found.Ascending := by
  induction fs using List.reverseRecOn with
  | nil => exact NameMap.ascending_empty
  | append_singleton fs f ih =>
    rw [scanned_concat]
    cases f with
    | library m path => exact ih.insert _ _
    | manifest m => exact ih.insert _ _
    | broken name => cases name <;> exact ih
    | nothing => exact ih

theorem mem_broken_scanned : n ∈ (scanned fs).broken ↔ Finding.broken (some n) ∈ fs := by
  induction fs using List.reverseRecOn with
  | nil => exact iff_of_false List.not_mem_nil List.not_mem_nil
  | append_singleton fs f ih =>
    rw [scanned_concat, List.mem_append, List.mem_singleton, ← ih]
    rcases f with _ | _ | (_ | name) | _
    · simp [Scan.add, Scan.update]
    · simp [Scan.add, Scan.update]
    · simp [Scan.add]
    · simp [Scan.add, or_comm]
    · simp [Scan.add]

/-! ## The result -/

/-- What is kept of a plugin in the end. -/
theorem get?_kept {d : Discovered} :
    ((scanned fs).broken.foldl NameMap.erase (scanned fs).found).get? n = some d ↔
      d.name = n ∧ Finding.broken (some n) ∉ fs ∧ d = provided fs n ∧
        (d.library ≠ none ∨ d.manifest ≠ none) := by
  rw [NameMap.get?_foldl_erase, get?_scanned]
  by_cases hbroken : Finding.broken (some n) ∈ fs
  · simp [mem_broken_scanned.2 hbroken, hbroken]
  rw [if_neg (mem_broken_scanned.not.2 hbroken)]
  have hnothing : provided fs n = ⟨n, none, none⟩ ↔
      ¬ ((provided fs n).library ≠ none ∨ (provided fs n).manifest ≠ none) := by
    rw [Discovered.mk.injEq]
    simp [provided]
  split
  · rename_i heq
    refine iff_of_false (by simp) ?_
    rintro ⟨-, -, rfl, hsome⟩
    exact hnothing.1 heq hsome
  · rename_i hne
    constructor
    · intro h
      cases h
      exact ⟨rfl, hbroken, rfl, not_not.1 (mt hnothing.2 hne)⟩
    · rintro ⟨-, -, rfl, -⟩
      rfl

/-- A plugin is listed when there is a module or a manifest of it and no broken manifest hides it,
and it is listed with what is provided. -/
theorem mem_result_iff {d : Discovered} : d ∈ (scanned fs).result ↔
    Finding.broken (some d.name) ∉ fs ∧ d = provided fs d.name ∧
      (d.library ≠ none ∨ d.manifest ≠ none) := by
  rw [Scan.result, ((ascending_scanned fs).foldl_erase _).mem_values_iff]
  simp only [get?_kept, exists_eq_left']

/-- Who is listed. -/
theorem mem_names_result_iff : n ∈ (scanned fs).result.map (·.name) ↔
    ((provided fs n).library ≠ none ∨ (provided fs n).manifest ≠ none) ∧
      Finding.broken (some n) ∉ fs := by
  rw [List.mem_map]
  constructor
  · rintro ⟨d, hd, rfl⟩
    obtain ⟨hbroken, hprovided, hsome⟩ := mem_result_iff.1 hd
    exact ⟨hprovided ▸ hsome, hbroken⟩
  · rintro ⟨hsome, hbroken⟩
    exact ⟨provided fs n, mem_result_iff.2 ⟨hbroken, rfl, hsome⟩, rfl⟩

theorem names_result (fs : List Finding) : (scanned fs).result.map (·.name) =
    ((scanned fs).broken.foldl NameMap.erase (scanned fs).found).names := by
  have hasc := (ascending_scanned fs).foldl_erase (scanned fs).broken
  rw [Scan.result, NameMap.values, NameMap.names, List.map_map]
  exact List.map_congr_left fun e he => (get?_kept.1 (hasc.get?_eq_some_iff.2 he)).1

/-- What is listed is in name order. -/
theorem ascending_result (fs : List Finding) :
    ((scanned fs).result.map (·.name)).Pairwise (· < ·) := by
  rw [names_result]
  exact (ascending_scanned fs).foldl_erase _

/-- Nobody is listed twice. -/
theorem nodup_result (fs : List Finding) : ((scanned fs).result.map (·.name)).Nodup := by
  rw [names_result]
  exact ((ascending_scanned fs).foldl_erase _).nodup

/-- Where no claim is made twice, what is listed depends on what was found and not on the order in
which it was. -/
theorem Unambiguous.result_congr (hu : Unambiguous fs) {gs : List Finding}
    (h : ∀ f, f ∈ gs ↔ f ∈ fs) : (scanned gs).result = (scanned fs).result := by
  have hu' : Unambiguous gs :=
    { libraries := fun hp hq => hu.libraries ((h _).1 hp) ((h _).1 hq)
      manifests := fun hm hm' => hu.manifests ((h _).1 hm) ((h _).1 hm') }
  have hprovided : ∀ n, provided gs n = provided fs n := by
    intro n
    have hlibrary : (provided gs n).library = (provided fs n).library :=
      Option.ext fun p => by rw [hu'.library_iff, hu.library_iff, h]
    have hmanifest : (provided gs n).manifest = (provided fs n).manifest :=
      Option.ext fun m => by rw [hu'.manifest_iff, hu.manifest_iff, h]
    exact congrArg₂ (Discovered.mk n) hlibrary hmanifest
  have hkept : (scanned gs).broken.foldl NameMap.erase (scanned gs).found =
      (scanned fs).broken.foldl NameMap.erase (scanned fs).found :=
    ((ascending_scanned gs).foldl_erase _).ext ((ascending_scanned fs).foldl_erase _) fun n =>
      Option.ext fun d => by rw [get?_kept, get?_kept, h, hprovided]
  rw [Scan.result, Scan.result, hkept]

/-! ## Directories -/

theorem discover_of_files {files : FileTree} {dir : String} {paths : List String}
    (hfiles : filesIn? files dir = some paths) :
    discover files dir = some (scanned (paths.map (Finding.ofFile files))).result := by
  rw [discover, hfiles]
  rfl

theorem files_of_discover {files : FileTree} {dir : String} {found : List Discovered}
    (h : discover files dir = some found) : ∃ paths, filesIn? files dir = some paths ∧
      found = (scanned (paths.map (Finding.ofFile files))).result := by
  obtain ⟨paths, hpaths, rfl⟩ := Option.map_eq_some_iff.1 h
  exact ⟨paths, hpaths, rfl⟩

/-- A manifest that is found names a plugin. -/
theorem isBlank_of_manifest {files : FileTree} {paths : List String} {m : Manifest}
    (h : Finding.manifest m ∈ paths.map (Finding.ofFile files)) : Text.isBlank m.name = false := by
  obtain ⟨path, -, hfile⟩ := List.mem_map.1 h
  exact Manifest.isBlank_of_load (Finding.ofFile_eq_manifest_iff.1 hfile).2.2

end

end PluginHost
