import PluginHost.Proofs.Directory.Accounting
import PluginHost.Proofs.Text.Natural

/-!
# Plugins that ask for a newer host

A manifest may ask for a version of the host. Where it asks with digits alone, the version is
compared with the host's, unless the digits spell a number of more than 32 bits: that is not read
as a number, and what is not read is not asked for. A plugin that asks for more than the host has
is passed over by the watcher and by the load of a directory, as if it were not there.

* `Manifest.supports_of_spells`: what digits ask for.
* `Site.tryLoad_of_newer`, `Site.loadEach_refuses`: how a plugin is passed over.
* `runtime_enforced`: digits of 32 bits are enforced wherever a plugin is loaded.
* `runtime_overflows`: larger ones are not.
-/
namespace PluginHost

variable {ω : Type}

/-- Digits ask for the number that they spell, and for nothing if it is too large. -/
theorem Manifest.supports_of_spells {m : Manifest} {r : String} {n : Nat}
    (hr : m.minRuntime = some r) (hspells : Text.Spells (Text.trim r).toList n) (version : Nat) :
    m.supports version = true ↔ n ≤ version ∨ Text.maxUInt32 < n := by
  rw [supports, hr, Option.bind_some, Text.boundedNat?_of_spells hspells]
  by_cases hle : n ≤ Text.maxUInt32
  · rw [if_pos hle]
    simp [Nat.not_lt_of_le hle]
  · rw [if_neg hle]
    simp [Nat.lt_of_not_le hle]

namespace Site

section
variable {P : Plugins ω} {note : Note ω} {watched : Watched ω} {files : FileTree} {s t : Site ω}
  {m : Manifest} {name path : String} {ds : List Discovered} {d : Discovered}
  {report final : LoadReport}

/-! ## The watcher -/

/-- A plugin that asks for another host is not loaded. -/
theorem tryLoad_of_newer
    (hpath : PluginFile.findManifest watched.files watched.dir name = some path)
    (hm : Manifest.load watched.files path = .ok m) (hnewer : m.supports apiVersion = false) :
    s.tryLoad P watched name = (.ok false, s) := by
  have hmanifest : s.host.allowsManifest watched.files
      (PluginFile.findManifest watched.files watched.dir name) = false := by
    rw [hpath, Host.allowsManifest, hm]
    simp [hnewer]
  unfold tryLoad
  split
  · rfl
  · simp only [hmanifest, Bool.not_false, if_true]

/-! ## A directory -/

/-- A load that ends goes on behind the first module, which was passed over if it asks for another
host. -/
theorem loadEach_continues (hpath : d.library = some path)
    (hload : s.loadEach P files report (d :: ds) = (.ok final, t)) :
    ∃ (why : Option Shortfall) (u : Site ω),
      u.loadEach P files (report.add d.name why) ds = (.ok final, t) ∧
      (d.isSupported = false → why = some .newerRuntime) ∧
      (why = none → d.isSupported = true) := by
  cases hsupported : d.isSupported with
  | false =>
    rw [loadEach_cons_of_unsupported hpath hsupported] at hload
    exact ⟨_, s, hload, fun _ => rfl, nofun⟩
  | true =>
    rcases houtcome : s.loadModule P Note.none files path d.name with ⟨outcome, u⟩
    rw [loadEach_cons hpath hsupported houtcome] at hload
    rcases outcome with (e | e | m) | _
    · exact ⟨_, u, hload, nofun, fun _ => rfl⟩
    · exact ⟨_, u, hload, nofun, fun _ => rfl⟩
    · cases hload
    · exact ⟨none, u, hload, nofun, fun _ => rfl⟩

/-- Modules that ask for another host fail, each of them, and only others are loaded. -/
theorem loadEach_refuses (hload : s.loadEach P files report ds = (.ok final, t)) :
    report.failed ⊆ final.failed ∧
    (∀ d ∈ ds, d.library.isSome = true → d.isSupported = false →
      (d.name, .newerRuntime) ∈ final.failed) ∧
    ∀ n ∈ final.loaded, n ∈ report.loaded ∨ ∃ d ∈ ds, d.name = n ∧ d.isSupported = true := by
  induction ds generalizing report s with
  | nil =>
    cases hload
    exact ⟨List.Subset.refl _, fun _ h => absurd h List.not_mem_nil, fun _ h => Or.inl h⟩
  | cons d ds ih =>
    cases hpath : d.library with
    | none =>
      rw [loadEach_cons_of_none hpath] at hload
      obtain ⟨hold, hrefused, hloaded⟩ := ih hload
      refine ⟨hold, fun e he hlib hnewer => ?_, fun n hn => ?_⟩
      · rcases List.mem_cons.1 he with rfl | he
        · rw [hpath] at hlib
          cases hlib
        · exact hrefused e he hlib hnewer
      · exact (hloaded n hn).imp_right fun ⟨e, he, hok⟩ => ⟨e, List.mem_cons_of_mem _ he, hok⟩
    | some path =>
      obtain ⟨why, u, hrest, hnewer, hsupported⟩ := loadEach_continues hpath hload
      obtain ⟨hold, hrefused, hloaded⟩ := ih hrest
      refine ⟨fun f hf => hold ?_, fun e he hlib hunsupported => ?_, fun n hn => ?_⟩
      · cases why with
        | none => exact hf
        | some why => exact List.mem_append_left _ hf
      · rcases List.mem_cons.1 he with rfl | he
        · rw [hnewer hunsupported] at hold
          exact hold (List.mem_append_right _ List.mem_cons_self)
        · exact hrefused e he hlib hunsupported
      · rcases hloaded n hn with hn | ⟨e, he, hok⟩
        · cases why with
          | none =>
            rcases List.mem_append.1 hn with hn | hn
            · exact Or.inl hn
            · exact Or.inr ⟨d, List.mem_cons_self, (List.mem_singleton.1 hn).symm, hsupported rfl⟩
          | some why => exact Or.inl hn
        · exact Or.inr ⟨e, List.mem_cons_of_mem _ he, hok⟩

/-- Modules that ask for another host leave no trace but in the report. -/
theorem loadEach_supported (report report' : LoadReport) (ds : List Discovered) (s : Site ω) :
    (s.loadEach P files report ds).2 =
      (s.loadEach P files report' (ds.filter (·.isSupported))).2 := by
  induction ds generalizing report report' s with
  | nil => rfl
  | cons d ds ih =>
    cases hpath : d.library with
    | none =>
      rw [loadEach_cons_of_none hpath, List.filter_cons]
      split
      · rw [loadEach_cons_of_none hpath]
        exact ih report report' s
      · exact ih report report' s
    | some path =>
      cases hsupported : d.isSupported with
      | false =>
        rw [loadEach_cons_of_unsupported hpath hsupported,
          List.filter_cons_of_neg (by simp [hsupported])]
        exact ih _ report' s
      | true =>
        rcases houtcome : s.loadModule P Note.none files path d.name with ⟨outcome, u⟩
        rw [List.filter_cons_of_pos hsupported, loadEach_cons hpath hsupported houtcome,
          loadEach_cons hpath hsupported houtcome]
        rcases outcome with (e | e | m) | _
        · exact ih _ _ u
        · exact ih _ _ u
        · rfl
        · exact ih _ _ u

/-- A module of a directory that asks for another host fails for that, and the load of the
directory goes as if the module were not there. -/
theorem loadDirectory_of_newer {dir : String} {found : List Discovered}
    (hfound : discover files dir = some found)
    (hload : s.loadDirectory P files dir = (.ok report, t)) (hd : d ∈ found)
    (hlibrary : d.library.isSome = true) (hnewer : d.isSupported = false) :
    (d.name, .newerRuntime) ∈ report.failed ∧ d.name ∉ report.loaded ∧
      ∃ ordered, loadOrder found = .ok ordered ∧
        t = (s.loadEach P files .empty (ordered.filter (·.isSupported))).2 := by
  have hnames : (found.map (·.name)).Nodup := by
    obtain ⟨paths, -, rfl⟩ := files_of_discover hfound
    exact nodup_result _
  unfold loadDirectory at hload
  simp only [hfound] at hload
  cases hordered : loadOrder found with
  | error nodes =>
    rw [hordered] at hload
    cases hload
  | ok ordered =>
    simp only [hordered] at hload
    obtain ⟨hperm, -⟩ := perm_of_loadOrder hnames hordered
    obtain ⟨-, hrefused, hloaded⟩ := loadEach_refuses hload
    refine ⟨hrefused d (hperm.mem_iff.2 hd) hlibrary hnewer, fun hn => ?_, ordered, rfl, ?_⟩
    · obtain hn | ⟨e, he, hname, hsupported⟩ := hloaded d.name hn
      · cases hn
      · obtain rfl := List.inj_on_of_nodup_map hnames (hperm.mem_iff.1 he) hd hname
        rw [hnewer] at hsupported
        cases hsupported
    · rw [← loadEach_supported .empty .empty ordered s, hload]

end

end Site

/-! ## Digits -/

/-- Digits of 32 bits, whatever zeros and white space are around them, are compared with the version
of the host, and a plugin that asks for more than the host has is loaded neither by the watcher nor
with a directory. Digits that spell a larger number ask for nothing. -/
theorem runtime_enforced (P : Plugins ω) (m : Manifest) (r : String) (n : Nat)
    (hr : m.minRuntime = some r) (hspells : Text.Spells (Text.trim r).toList n) :
    (∀ version, m.supports version = true ↔ n ≤ version ∨ Text.maxUInt32 < n) ∧
    (apiVersion < n → n ≤ Text.maxUInt32 →
      (∀ (watched : Watched ω) (name path : String) (s : Site ω),
        PluginFile.findManifest watched.files watched.dir name = some path →
        Manifest.load watched.files path = .ok m →
          s.tryLoad P watched name = (.ok false, s) ∧
          (s.host.contains name = false → s.handleChange P watched name = s)) ∧
      ∀ (files : FileTree) (dir : String) (s t : Site ω) (found : List Discovered)
        (d : Discovered) (report : LoadReport),
        discover files dir = some found → d ∈ found → d.manifest = some m →
        d.library.isSome = true → s.loadDirectory P files dir = (.ok report, t) →
          (d.name, .newerRuntime) ∈ report.failed ∧ d.name ∉ report.loaded ∧
          ∃ ordered, loadOrder found = .ok ordered ∧
            t = (s.loadEach P files .empty (ordered.filter (·.isSupported))).2) := by
  refine ⟨Manifest.supports_of_spells hr hspells, fun hnewer hsmall => ?_⟩
  have hunsupported : m.supports apiVersion = false := by
    rw [← Bool.not_eq_true, Manifest.supports_of_spells hr hspells]
    exact not_or.2 ⟨Nat.not_le_of_lt hnewer, Nat.not_lt_of_le hsmall⟩
  refine ⟨fun watched name path s hpath hm => ?_, ?_⟩
  · have hrefused := Site.tryLoad_of_newer (P := P) (s := s) hpath hm hunsupported
    exact ⟨hrefused, fun hfree => by rw [Site.handleChange_of_absent hfree, hrefused]⟩
  · intro files dir s t found d report hfound hd hmanifest hlibrary hload
    refine Site.loadDirectory_of_newer hfound hload hd hlibrary ?_
    rw [Discovered.isSupported, hmanifest]
    exact hunsupported

/-! ## A lamp for another host -/

/-- Every plugin is a lamp that needs nothing. -/
def lampPlugins : Plugins Unit :=
  .constant (fun _ => ⟨"lamp", "", "1.0.0", [], []⟩) fun _ _ => .ok

/-- A manifest of a lamp, with the version that it asks for. -/
def lampAsking (version : String) : Manifest :=
  ⟨"lamp", "", "", "", [], [], "", [], some version⟩

/-- A directory with a lamp's module and its manifest. -/
def askingFiles (version : String) : FileTree :=
  ⟨[([], .directory), (["p"], .directory),
    (["p", "liblamp.so"], .module (.complete apiVersion (some .greeter))),
    (["p", "lamp.json"], .file (Text.utf8
      ("\x7b\"name\":\"lamp\",\"min_runtime_version\":\"" ++ version ++ "\"\x7d")))]⟩

/-- The second version is not there yet, however it is spelled. -/
theorem second_refused :
    (lampAsking " 002 ").supports 2 = true ∧
    (Site.start ()).tryLoad lampPlugins ⟨"p", askingFiles " 002 ", Note.none⟩ "lamp" =
      (.ok false, .start ()) ∧
    ∃ report t, (Site.start ()).loadDirectory lampPlugins (askingFiles " 002 ") "p" =
      (.ok report, t) ∧ ("lamp", .newerRuntime) ∈ report.failed ∧ "lamp" ∉ report.loaded := by
  have hspells : Text.Spells (Text.trim " 002 ").toList 2 :=
    ⟨by decide +kernel, List.all_eq_true.1 (by decide +kernel), by decide +kernel⟩
  obtain ⟨hsupports, hrefused⟩ := runtime_enforced lampPlugins (lampAsking " 002 ") " 002 " 2 rfl
    hspells
  obtain ⟨hwatcher, hdirectory⟩ := hrefused (by decide) (by decide)
  have hfound : discover (askingFiles " 002 ") "p" =
      some [⟨"lamp", some "p/liblamp.so", some (lampAsking " 002 ")⟩] := by decide +kernel
  have hreport : ∃ report, ((Site.start ()).loadDirectory lampPlugins (askingFiles " 002 ")
      "p").1 = .ok report := ⟨⟨[], [("lamp", .newerRuntime)]⟩, by decide +kernel⟩
  obtain ⟨report, hreport⟩ := hreport
  obtain ⟨hfailed, hunloaded, -⟩ := hdirectory _ _ _ _ _ _ _ hfound List.mem_cons_self rfl rfl
    (Prod.ext hreport rfl)
  exact ⟨(hsupports 2).2 (Or.inl (Nat.le_refl 2)),
    (hwatcher _ _ "p/lamp.json" _ (by decide +kernel) (by decide +kernel)).1,
    report, _, Prod.ext hreport rfl, hfailed, hunloaded⟩

/-- The least version that is too large for 32 bits is not asked for: the lamp is loaded. -/
theorem runtime_overflows :
    Text.Spells (Text.trim "4294967296").toList 4294967296 ∧ apiVersion < 4294967296 ∧
    (lampAsking "4294967296").supports apiVersion = true ∧
    ((Site.start ()).loadDirectory lampPlugins (askingFiles "4294967296") "p").1 =
      .ok ⟨["lamp"], []⟩ :=
  ⟨⟨by decide +kernel, List.all_eq_true.1 (by decide +kernel), by decide +kernel⟩, by decide,
    by decide +kernel, by decide +kernel⟩

end PluginHost
