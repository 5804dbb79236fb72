import PluginHost.Proofs.Directory.Listing

/-!
# Looking for the module of a plugin

A directory that is listed has its modules sorted by the names of their plugins, which come from
the names of the files. A module that is looked for by the plugin's name is sought under the two
spellings that such a file can have, and whatever is there under the first of them is taken. The
two go together but for a few names: a file that is named like a plugin whose name begins with
`lib` is the module of another.

* `libraryName?_join`: the files that can be modules of a plugin.
* `findLibrary_found`, `findLibrary_finds`: what is found under the two spellings.
* `findLibrary_inverts`: for which plugins the module that is found is the one that is listed.
-/
namespace PluginHost

open FileTree PluginFile

section
variable {t : FileTree} {dir n f name : String} {names : List String}

/-! ## The two spellings -/

/-- A file of a directory is a module of the plugin if its name is one of the two spellings; but
the plain one is that of another plugin if the name begins with `lib`. -/
theorem libraryName?_join (hname : FileTree.IsName name) :
    libraryName? (Text.utf8 (join dir name)) = some n ↔
      n ≠ "" ∧ (name = "lib" ++ n ++ ".so" ∨ name = n ++ ".so" ∧ ¬ BeginsWithLib n) := by
  rw [libraryName?_eq_some_iff, fileName?_join hname]
  simp only [Option.some.injEq, Text.utf8_inj, withoutLib_eq_iff]
  refine and_congr_right fun _ => ⟨?_, ?_⟩
  · rintro ⟨stem, rfl, rfl | ⟨rfl, hplain⟩⟩
    · exact Or.inl rfl
    · exact Or.inr ⟨rfl, hplain⟩
  · rintro (rfl | ⟨rfl, hplain⟩)
    · exact ⟨_, rfl, Or.inl rfl⟩
    · exact ⟨_, rfl, Or.inr ⟨rfl, hplain⟩⟩

/-- What ends in `.so` can stand in a directory if there is no slash in it. -/
theorem isName_so (h : '/' ∉ n.toList) : FileTree.IsName (n ++ ".so") := by
  have hne : ∀ other : String, other.toList.getLast? ≠ some 'o' → n ++ ".so" ≠ other := by
    rintro _ hother rfl
    exact hother (by simp)
  refine ⟨hne "" (by decide), hne "." (by decide), hne ".." (by decide), ?_⟩
  simpa using h

theorem slashless_of_isName_so (h : FileTree.IsName (n ++ ".so")) : '/' ∉ n.toList := by
  have := h.2.2.2
  simp only [String.toList_append, List.mem_append, not_or] at this
  exact this.1

/-! ## The file that is found -/

theorem findLibrary_found (h : findLibrary t dir n = some f) : t.pathExists f = true ∧
    (f = join dir (n ++ ".so") ∨ f = join dir ("lib" ++ n ++ ".so")) := by
  refine ⟨List.find?_some h, ?_⟩
  simpa [libraryPaths] using List.mem_of_find?_eq_some h

theorem findLibrary_finds (hexists : t.pathExists f = true)
    (hspelled : f = join dir (n ++ ".so") ∨ f = join dir ("lib" ++ n ++ ".so")) :
    ∃ g, findLibrary t dir n = some g := by
  rw [← Option.isSome_iff_exists, findLibrary, List.find?_isSome]
  exact ⟨f, by simpa [libraryPaths] using hspelled, hexists⟩

/-! ## Modules by their spelling -/

theorem hasModule_join_iff (hnames : t.children dir = some names) (hname : FileTree.IsName name) :
    t.HasModule dir n (join dir name) ↔ t.isFile (join dir name) = true ∧ n ≠ "" ∧
      (name = "lib" ++ n ++ ".so" ∨ name = n ++ ".so" ∧ ¬ BeginsWithLib n) := by
  rw [HasModule, libraryName?_join hname]
  refine and_congr_left fun _ => ⟨And.right, fun hfile => ⟨⟨names, hnames, name, ?_, rfl⟩, hfile⟩⟩
  exact (pathExists_join hnames hname).1 (pathExists_of_isFile hfile)

/-- The module of a plugin stands under one of its spellings. -/
theorem FileTree.HasModule.spelled (hproper : t.Proper) (h : t.HasModule dir n f) :
    n ≠ "" ∧ '/' ∉ n.toList ∧
      (f = join dir ("lib" ++ n ++ ".so") ∨ f = join dir (n ++ ".so") ∧ ¬ BeginsWithLib n) := by
  obtain ⟨⟨names, hnames, name, hmem, rfl⟩, -⟩ := h.1
  have hname := hproper.isName hnames hmem
  obtain ⟨-, hne, rfl | ⟨rfl, hplain⟩⟩ := (hasModule_join_iff hnames hname).1 h
  · have hslash := slashless_of_isName_so hname
    rw [String.toList_append, List.mem_append, not_or] at hslash
    exact ⟨hne, hslash.2, Or.inl rfl⟩
  · exact ⟨hne, slashless_of_isName_so hname, Or.inr ⟨rfl, hplain⟩⟩

/-- What is found is a module of the plugin if it is a file, the name can be one, and it is not the
plain spelling of a name that begins with `lib`. -/
theorem hasModule_of_found (hnames : t.children dir = some names)
    (hfound : findLibrary t dir n = some f) (hfile : t.isFile f = true) (hne : n ≠ "")
    (hslash : '/' ∉ n.toList) (hplain : BeginsWithLib n → f ≠ join dir (n ++ ".so")) :
    t.HasModule dir n f := by
  obtain ⟨-, rfl | rfl⟩ := findLibrary_found hfound
  · have hlib : ¬ BeginsWithLib n := fun hlib => hplain hlib rfl
    exact (hasModule_join_iff hnames (isName_so hslash)).2 ⟨hfile, hne, Or.inr ⟨rfl, hlib⟩⟩
  · have hslash' : '/' ∉ ("lib" ++ n).toList := by simpa using hslash
    exact (hasModule_join_iff hnames (isName_so hslash')).2 ⟨hfile, hne, Or.inl rfl⟩

/-- The plain spelling of a name that begins with `lib` is no module of that plugin. -/
theorem not_hasModule_of_lib (hnames : t.children dir = some names) (hslash : '/' ∉ n.toList)
    (hlib : BeginsWithLib n) : ¬ t.HasModule dir n (join dir (n ++ ".so")) := by
  intro h
  obtain ⟨-, -, heq | ⟨-, hplain⟩⟩ := (hasModule_join_iff hnames (isName_so hslash)).1 h
  · have hlength := congrArg String.length heq
    simp at hlength
  · exact hplain hlib

/-- A plugin that has one module at most and is not hidden is listed with it. -/
theorem listed_iff_hasModule (hnames : t.children dir = some names)
    (hone : ∀ {p q}, t.HasModule dir n p → t.HasModule dir n q → p = q) (hhides : ¬ t.Hides dir n) :
    (∃ d ∈ (scanned (findings t dir names)).result, d.name = n ∧ d.library = some f) ↔
      t.HasModule dir n f := by
  rw [← library_mem_findings hnames, ← library_provided_iff fun hp hq =>
    hone ((library_mem_findings hnames).1 hp) ((library_mem_findings hnames).1 hq)]
  constructor
  · rintro ⟨d, hd, rfl, hlibrary⟩
    obtain ⟨-, hprovided, -⟩ := mem_result_iff.1 hd
    exact hprovided ▸ hlibrary
  · intro h
    exact ⟨provided _ n, mem_result_iff.2 ⟨mt (broken_mem_findings hnames).1 hhides, rfl,
      Or.inl (h ▸ Option.some_ne_none f)⟩, rfl, h⟩

/-- Where a plugin has one module at most, and what is found is a file, the module that is found is
the one that the plugin has, unless the name cannot be that of a file, or what is found is the
plain spelling of a name that begins with `lib`. And then it is the module that the plugin is
listed with, if no broken manifest hides the plugin. -/
theorem findLibrary_inverts (hproper : t.Proper) (hdir : t.isDirectory dir = true)
    (hone : ∀ {p q}, t.HasModule dir n p → t.HasModule dir n q → p = q)
    (hregular : ∀ f, findLibrary t dir n = some f → t.isFile f = true) :
    ((∀ f, findLibrary t dir n = some f ↔ t.HasModule dir n f) ↔
      ∀ f, findLibrary t dir n = some f →
        n ≠ "" ∧ '/' ∉ n.toList ∧ (BeginsWithLib n → f ≠ join dir (n ++ ".so"))) ∧
    ((∀ f, findLibrary t dir n = some f ↔ t.HasModule dir n f) →
      ∀ found, discover t dir = some found → ¬ t.Hides dir n →
        ∀ f, findLibrary t dir n = some f ↔ ∃ d ∈ found, d.name = n ∧ d.library = some f) := by
  obtain ⟨names, hnames⟩ := children_of_isDirectory hdir
  refine ⟨⟨fun hagree f hfound => ?_, fun hnamed f => ⟨fun hfound => ?_, fun hmodule => ?_⟩⟩,
    fun hagree found hdiscover hhides f => ?_⟩
  · have hmodule := (hagree f).1 hfound
    obtain ⟨hne, hslash, -⟩ := hmodule.spelled hproper
    refine ⟨hne, hslash, ?_⟩
    rintro hlib rfl
    exact not_hasModule_of_lib hnames hslash hlib hmodule
  · obtain ⟨hne, hslash, hplain⟩ := hnamed f hfound
    exact hasModule_of_found hnames hfound (hregular f hfound) hne hslash hplain
  · have hexists := pathExists_of_isFile hmodule.1.2
    obtain ⟨-, -, hspelled⟩ := hmodule.spelled hproper
    obtain ⟨g, hg⟩ := findLibrary_finds hexists (hspelled.symm.imp_left And.left)
    obtain ⟨hne, hslash, hplain⟩ := hnamed g hg
    rw [hg, hone hmodule (hasModule_of_found hnames hg (hregular g hg) hne hslash hplain)]
  · rw [discover_of_children hnames] at hdiscover
    cases hdiscover
    rw [hagree f, listed_iff_hasModule hnames hone hhides]

/-! ## A file that two plugins could have -/

/-- The modules of the plugins `calc` and `libcalc`. -/
def libcalcFiles : FileTree :=
  .ofList [("p/libcalc.so", .module (.complete apiVersion (some .minimal))),
    ("p/liblibcalc.so", .module (.complete apiVersion (some .greeter)))]

theorem libcalc_hasModule_iff : libcalcFiles.HasModule "p" n f ↔
    n = "calc" ∧ f = "p/libcalc.so" ∨ n = "libcalc" ∧ f = "p/liblibcalc.so" := by
  have hchildren : libcalcFiles.children "p" = some ["libcalc.so", "liblibcalc.so"] := by
    decide +kernel
  have hfindings : findings libcalcFiles "p" ["libcalc.so", "liblibcalc.so"] =
      [.library "calc" "p/libcalc.so", .library "libcalc" "p/liblibcalc.so"] := by decide +kernel
  rw [← library_mem_findings hchildren, hfindings]
  simp

theorem libcalc_hasModule_unique {p q : String} (hp : libcalcFiles.HasModule "p" n p)
    (hq : libcalcFiles.HasModule "p" n q) : p = q := by
  rcases libcalc_hasModule_iff.1 hp with ⟨rfl, rfl⟩ | ⟨rfl, rfl⟩
  · simpa [eq_comm] using libcalc_hasModule_iff.1 hq
  · simpa [eq_comm] using libcalc_hasModule_iff.1 hq

/-- The module of `calc` is found. -/
theorem calc_found : libcalcFiles.Proper ∧ libcalcFiles.isDirectory "p" = true ∧
    (∀ {p q}, libcalcFiles.HasModule "p" "calc" p → libcalcFiles.HasModule "p" "calc" q → p = q) ∧
    (∀ f, findLibrary libcalcFiles "p" "calc" = some f → libcalcFiles.isFile f = true) ∧
    findLibrary libcalcFiles "p" "calc" = some "p/libcalc.so" := by
  have hproper : libcalcFiles.Proper := proper_ofList _
  have hdir : libcalcFiles.isDirectory "p" = true := by decide +kernel
  have hfile : libcalcFiles.isFile "p/libcalc.so" = true := by decide +kernel
  have hfirst : libcalcFiles.pathExists (join "p" ("calc" ++ ".so")) = false := by decide +kernel
  have hregular : ∀ f, findLibrary libcalcFiles "p" "calc" = some f →
      libcalcFiles.isFile f = true := by
    intro f hf
    obtain ⟨hexists, rfl | rfl⟩ := findLibrary_found hf
    · rw [hfirst] at hexists
      cases hexists
    · exact hfile
  have hagree := (findLibrary_inverts (n := "calc") hproper hdir libcalc_hasModule_unique
    hregular).1.2 fun _ _ => ⟨by decide, by decide, fun hlib => absurd hlib (by decide)⟩
  exact ⟨hproper, hdir, libcalc_hasModule_unique, hregular,
    (hagree _).2 (libcalc_hasModule_iff.2 (Or.inl ⟨rfl, rfl⟩))⟩

/-- For `libcalc` that file is found, too, and not its own module. -/
theorem libcalc_mistaken : ¬ ∀ (t : FileTree) (dir n : String), t.Proper →
    t.isDirectory dir = true → (∀ {p q}, t.HasModule dir n p → t.HasModule dir n q → p = q) →
    ∀ f, findLibrary t dir n = some f ↔ t.HasModule dir n f := by
  intro hall
  have hfound : findLibrary libcalcFiles "p" "libcalc" = some "p/libcalc.so" := by decide +kernel
  have hmodule := (hall libcalcFiles "p" "libcalc" (proper_ofList _) (by decide +kernel)
    libcalc_hasModule_unique "p/libcalc.so").1 hfound
  have hwrong := libcalc_hasModule_iff.1 hmodule
  revert hwrong
  decide

end

end PluginHost
