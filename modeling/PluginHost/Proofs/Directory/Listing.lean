import PluginHost.Proofs.Directory.Scan
import PluginHost.Proofs.FileTree

/-!
# Listing a directory

The operating system hands out the files of a directory in no order that one can count on. Where
no plugin has two modules and no two manifests name the same plugin, that does not show: what a
directory provides can be read off its files one by one.

* `FileTree.HasModule`, `FileTree.HasManifest`, `FileTree.Hides`: what a file of a directory is.
* `discover_lists`: who is listed, with what, and in which order.
-/
namespace PluginHost

/-! ## The files of a directory -/

namespace FileTree

/-- The path leads to a file of the directory. -/
def HasFile (t : FileTree) (dir path : String) : Prop :=
  (∃ names, t.children dir = some names ∧ ∃ name ∈ names, join dir name = path) ∧
    t.isFile path = true

/-- The file is a module of the plugin. -/
def HasModule (t : FileTree) (dir name path : String) : Prop :=
  t.HasFile dir path ∧ PluginFile.libraryName? (Text.utf8 path) = some name

/-- The file is a manifest that can be read. -/
def HasManifest (t : FileTree) (dir path : String) (m : Manifest) : Prop :=
  t.HasFile dir path ∧ PluginFile.isManifest (Text.utf8 path) = true ∧
    Manifest.load t path = .ok m

/-- A file named for the plugin is meant to be a manifest and cannot be read as one. -/
def Hides (t : FileTree) (dir name : String) : Prop :=
  ∃ path, t.HasFile dir path ∧ PluginFile.isManifest (Text.utf8 path) = true ∧
    (∃ e, Manifest.load t path = .error e) ∧
    (PluginFile.stem? (Text.utf8 path)).bind Text.ofUtf8? = some name

end FileTree

section
variable {t u : FileTree} {dir n p : String} {names : List String}

theorem children_of_isDirectory (h : t.isDirectory dir = true) :
    ∃ names, t.children dir = some names := by
  unfold FileTree.isDirectory at h
  split at h
  · next hnode =>
    obtain ⟨p, hp, hat⟩ := Option.bind_eq_some_iff.1 hnode
    refine ⟨t.childrenAt p, ?_⟩
    rw [FileTree.children, hp, Option.bind_some, FileTree.isDirectoryAt, hat, if_pos rfl]
  · cases h

theorem isDirectory_of_children (hnames : t.children dir = some names) :
    t.isDirectory dir = true := by
  obtain ⟨p, hp, hnames⟩ := Option.bind_eq_some_iff.1 hnames
  obtain ⟨hdir, -⟩ := Option.ite_none_right_eq_some.1 hnames
  unfold FileTree.isDirectoryAt at hdir
  split at hdir
  · next hat => rw [FileTree.isDirectory, FileTree.node?, hp, Option.bind_some, hat]
  · cases hdir

theorem filesIn?_of_children (hnames : t.children dir = some names) :
    filesIn? t dir = some (names.map (FileTree.join dir)) := by
  obtain ⟨p, hp, hnames'⟩ := Option.bind_eq_some_iff.1 hnames
  obtain ⟨hdir, -⟩ := Option.ite_none_right_eq_some.1 hnames'
  have hexists : t.pathExists dir = true := by
    unfold FileTree.isDirectoryAt at hdir
    split at hdir
    · next hat => rw [FileTree.pathExists, FileTree.node?, hp, Option.bind_some, hat]; rfl
    · cases hdir
  rw [filesIn?, if_pos hexists, hnames]
  rfl

/-- What the files of a directory tell. -/
def findings (t : FileTree) (dir : String) (names : List String) : List Finding :=
  (names.map (FileTree.join dir)).map (Finding.ofFile t)

theorem discover_of_children (hnames : t.children dir = some names) :
    discover t dir = some (scanned (findings t dir names)).result :=
  discover_of_files (filesIn?_of_children hnames)

/-- A finding is that of a file of the directory. -/
theorem mem_findings (hnames : t.children dir = some names) {f : Finding} (hf : f ≠ .nothing) :
    f ∈ findings t dir names ↔ ∃ path, t.HasFile dir path ∧ Finding.ofFile t path = f := by
  simp only [findings, List.mem_map]
  constructor
  · rintro ⟨_, ⟨name, hname, rfl⟩, hfile⟩
    exact ⟨_, ⟨⟨names, hnames, name, hname, rfl⟩, Finding.isFile_of_ofFile (hfile ▸ hf)⟩, hfile⟩
  · rintro ⟨path, ⟨⟨names', hnames', name, hname, rfl⟩, -⟩, hfile⟩
    obtain rfl : names' = names := Option.some.inj (hnames'.symm.trans hnames)
    exact ⟨_, ⟨name, hname, rfl⟩, hfile⟩

theorem library_mem_findings (hnames : t.children dir = some names) :
    Finding.library n p ∈ findings t dir names ↔ t.HasModule dir n p := by
  rw [mem_findings hnames (by simp)]
  constructor
  · rintro ⟨path, hfile, htold⟩
    obtain ⟨-, hname, rfl⟩ := Finding.ofFile_eq_library_iff.1 htold
    exact ⟨hfile, hname⟩
  · rintro ⟨hfile, hname⟩
    exact ⟨p, hfile, Finding.ofFile_eq_library_iff.2 ⟨hfile.2, hname, rfl⟩⟩

theorem manifest_mem_findings (hnames : t.children dir = some names) {m : Manifest} :
    Finding.manifest m ∈ findings t dir names ↔ ∃ path, t.HasManifest dir path m := by
  rw [mem_findings hnames (by simp)]
  refine exists_congr fun path => ?_
  rw [Finding.ofFile_eq_manifest_iff, FileTree.HasManifest]
  exact ⟨fun ⟨hfile, _, htold⟩ => ⟨hfile, htold⟩, fun ⟨hfile, htold⟩ => ⟨hfile, hfile.2, htold⟩⟩

theorem broken_mem_findings (hnames : t.children dir = some names) :
    Finding.broken (some n) ∈ findings t dir names ↔ t.Hides dir n := by
  rw [mem_findings hnames (by simp)]
  refine exists_congr fun path => ?_
  rw [Finding.ofFile_eq_broken_iff]
  exact ⟨fun ⟨hfile, _, htold⟩ => ⟨hfile, htold⟩, fun ⟨hfile, htold⟩ => ⟨hfile, hfile.2, htold⟩⟩

/-- Nothing that is found is claimed twice where no two files claim the same. -/
theorem unambiguous_findings (hnames : t.children dir = some names)
    (hmodules : ∀ {n p q}, t.HasModule dir n p → t.HasModule dir n q → p = q)
    (hmanifests : ∀ {p q m m'}, t.HasManifest dir p m → t.HasManifest dir q m' →
      m.name = m'.name → p = q) : Unambiguous (findings t dir names) where
  libraries hp hq :=
    hmodules ((library_mem_findings hnames).1 hp) ((library_mem_findings hnames).1 hq)
  manifests {m m'} hm hm' hname := by
    obtain ⟨p, hp⟩ := (manifest_mem_findings hnames).1 hm
    obtain ⟨q, hq⟩ := (manifest_mem_findings hnames).1 hm'
    obtain rfl := hmanifests hp hq hname
    exact Except.ok.inj (hp.2.2.symm.trans hq.2.2)

/-! ## Another order -/

theorem FileTree.Alike.finding (h : t.Alike u) (path : String) :
    Finding.ofFile u path = Finding.ofFile t path := by
  simp only [Finding.ofFile, h.isFile, h.load]

theorem FileTree.Alike.findings (h : t.Alike u) (hnames : t.children dir = some names) :
    ∃ others, u.children dir = some others ∧
      ∀ f, f ∈ PluginHost.findings u dir others ↔ f ∈ PluginHost.findings t dir names := by
  obtain ⟨others, hothers, hperm⟩ := h.children hnames
  refine ⟨others, hothers, fun f => ?_⟩
  rw [PluginHost.findings, PluginHost.findings, funext h.finding]
  exact ((hperm.map _).map _).mem_iff

/-- What a directory provides where no plugin has two modules and no two manifests name the same
plugin: the order in which the files are handed out does not show; the list is in name order; a
plugin is listed when there is a module or a manifest of it, unless a manifest that cannot be read
hides it; and it is listed with that module and that manifest. -/
theorem discover_lists (hdir : t.isDirectory dir = true)
    (hmodules : ∀ {n p q}, t.HasModule dir n p → t.HasModule dir n q → p = q)
    (hmanifests : ∀ {p q m m'}, t.HasManifest dir p m → t.HasManifest dir q m' →
      m.name = m'.name → p = q) :
    ∃ found, (∀ u, t.Alike u → discover u dir = some found) ∧
      (found.map (·.name)).Pairwise (· < ·) ∧
      (∀ n, n ∈ found.map (·.name) ↔
        ((∃ p, t.HasModule dir n p) ∨ ∃ p m, t.HasManifest dir p m ∧ m.name = n) ∧
          ¬ t.Hides dir n) ∧
      ∀ d ∈ found, (∀ p, d.library = some p ↔ t.HasModule dir d.name p) ∧
        ∀ m, d.manifest = some m ↔ ∃ p, t.HasManifest dir p m ∧ m.name = d.name := by
  obtain ⟨names, hnames⟩ := children_of_isDirectory hdir
  have hu := unambiguous_findings hnames hmodules hmanifests
  refine ⟨(scanned (findings t dir names)).result, fun u hlike => ?_, ascending_result _,
    fun n => ?_, fun d hd => ⟨fun p => ?_, fun m => ?_⟩⟩
  · obtain ⟨others, hothers, hsame⟩ := hlike.findings hnames
    rw [discover_of_children hothers, hu.result_congr hsame]
  · rw [mem_names_result_iff, Option.ne_none_iff_exists', Option.ne_none_iff_exists',
      broken_mem_findings hnames]
    simp only [hu.library_iff, hu.manifest_iff, library_mem_findings hnames,
      manifest_mem_findings hnames, ← exists_and_right]
    rw [exists_comm]
  · obtain ⟨-, hprovided, -⟩ := mem_result_iff.1 hd
    rw [hprovided, hu.library_iff, library_mem_findings hnames]
    rfl
  · obtain ⟨-, hprovided, -⟩ := mem_result_iff.1 hd
    rw [hprovided, hu.manifest_iff, manifest_mem_findings hnames, exists_and_right]
    rfl

end

/-! ## A directory with a broken manifest -/

/-- A lamp with a manifest, a bulb that is only described, and a cable whose manifest cannot be
read; what is called `bulb.so` is a directory. -/
def shedFiles : FileTree :=
  ⟨[([], .directory), (["p"], .directory), (["p", "liblamp.so"], .file []),
    (["p", "cable.so"], .file []), (["p", "bulb.so"], .directory),
    (["p", "first.json"], .file (Text.utf8 "\x7b\"name\":\"lamp\"\x7d")),
    (["p", "second.json"], .file (Text.utf8 "\x7b\"name\":\"bulb\"\x7d")),
    (["p", "cable.toml"], .file (Text.utf8 "="))]⟩

def shedNames : List String :=
  ["liblamp.so", "cable.so", "bulb.so", "first.json", "second.json", "cable.toml"]

theorem shed_children : shedFiles.children "p" = some shedNames := by decide +kernel

theorem shed_findings : findings shedFiles "p" shedNames =
    [.library "lamp" "p/liblamp.so", .library "cable" "p/cable.so", .nothing,
      .manifest ⟨"lamp", "", "", "", [], [], "", [], none⟩,
      .manifest ⟨"bulb", "", "", "", [], [], "", [], none⟩, .broken (some "cable")] := by
  decide +kernel

theorem shed_hasModule_iff {n p : String} : shedFiles.HasModule "p" n p ↔
    n = "lamp" ∧ p = "p/liblamp.so" ∨ n = "cable" ∧ p = "p/cable.so" := by
  rw [← library_mem_findings shed_children, shed_findings]
  simp

theorem shed_hasManifest {p : String} {m : Manifest} (h : shedFiles.HasManifest "p" p m) :
    p = "p/first.json" ∧ m.name = "lamp" ∨ p = "p/second.json" ∧ m.name = "bulb" := by
  obtain ⟨⟨⟨names, hnames, name, hname, rfl⟩, hfile⟩, hmanifest, hload⟩ := h
  obtain rfl : names = shedNames := Option.some.inj (hnames.symm.trans shed_children)
  have htold := Finding.ofFile_eq_manifest_iff.2 ⟨hfile, hmanifest, hload⟩
  have hall := shed_findings
  simp only [findings, shedNames, List.map_cons, List.map_nil, List.cons.injEq] at hall
  simp only [shedNames, List.mem_cons, List.not_mem_nil, or_false] at hname
  rcases hname with rfl | rfl | rfl | rfl | rfl | rfl
  · simp [hall.1] at htold
  · simp [hall.2.1] at htold
  · simp [hall.2.2.1] at htold
  · rw [hall.2.2.2.1, Finding.manifest.injEq] at htold
    exact Or.inl ⟨rfl, htold ▸ rfl⟩
  · rw [hall.2.2.2.2.1, Finding.manifest.injEq] at htold
    exact Or.inr ⟨rfl, htold ▸ rfl⟩
  · simp [hall.2.2.2.2.2.1] at htold

/-- From whichever end its files are listed, the bulb is found and the cable is not. -/
theorem shed_discovered : shedFiles.isDirectory "p" = true ∧
    (∀ {n p q}, shedFiles.HasModule "p" n p → shedFiles.HasModule "p" n q → p = q) ∧
    (∀ {p q m m'}, shedFiles.HasManifest "p" p m → shedFiles.HasManifest "p" q m' →
      m.name = m'.name → p = q) ∧
    ∃ found, discover shedFiles "p" = some found ∧
      discover ⟨shedFiles.nodes.reverse⟩ "p" = some found ∧
      "bulb" ∈ found.map (·.name) ∧ "cable" ∉ found.map (·.name) := by
  have hdir : shedFiles.isDirectory "p" = true := by decide +kernel
  have hmodules : ∀ {n p q}, shedFiles.HasModule "p" n p → shedFiles.HasModule "p" n q →
      p = q := by
    intro n p q hp hq
    rcases shed_hasModule_iff.1 hp with ⟨rfl, rfl⟩ | ⟨rfl, rfl⟩
    · simpa [eq_comm] using shed_hasModule_iff.1 hq
    · simpa [eq_comm] using shed_hasModule_iff.1 hq
  have hmanifests : ∀ {p q m m'}, shedFiles.HasManifest "p" p m →
      shedFiles.HasManifest "p" q m' → m.name = m'.name → p = q := by
    intro p q m m' hp hq hname
    rcases shed_hasManifest hp with ⟨rfl, hm⟩ | ⟨rfl, hm⟩ <;>
      rcases shed_hasManifest hq with ⟨rfl, hm'⟩ | ⟨rfl, hm'⟩
    · rfl
    · exact absurd (hm.symm.trans (hname.trans hm')) (by decide)
    · exact absurd (hm.symm.trans (hname.trans hm')) (by decide)
    · rfl
  obtain ⟨found, hfound, -, hlisted, -⟩ := discover_lists hdir hmodules hmanifests
  have hone : (shedFiles.nodes.map (·.1)).Nodup := by decide
  refine ⟨hdir, hmodules, hmanifests, found, hfound _ (.refl _),
    hfound _ (.of_perm hone (List.reverse_perm _)), (hlisted _).2 ⟨Or.inr ?_, ?_⟩,
    fun hcable => ((hlisted _).1 hcable).2 ?_⟩
  · rw [exists_comm]
    simp only [exists_and_right, ← manifest_mem_findings shed_children, shed_findings]
    exact ⟨⟨"bulb", "", "", "", [], [], "", [], none⟩, by simp, rfl⟩
  · rw [← broken_mem_findings shed_children, shed_findings]
    simp
  · rw [← broken_mem_findings shed_children, shed_findings]
    simp

end PluginHost
