import PluginHost.Proofs.Registry.Coherence

/-!
# A batch and its members one by one

Plugins that report the same and are initialised the same way each time can be registered as a
batch exactly when they can be registered one after the other in some order. Both come to the
same three conditions: the members fit together, there is an order with dependencies first, and
every initialisation succeeds. The first and the last do not depend on the order, and neither do
the records, as the names are distinct.

* `registerInTurn_ok_iff`, `registerPlugins_ok_iff`: the three conditions.
* `entered_perm`: records do not depend on the order in which they were made.
* `registerPlugins_iff_inTurn`: the two ways agree.
-/
namespace PluginHost

variable {ω : Type}

/-! ## Records that are made in a row -/

/-- The records after new ones were made, one after the other. -/
def entered (records : NameMap Record) (rs : List Record) : NameMap Record :=
  rs.foldl (fun m r => m.insert r.descriptor.name r) records

section
variable {records : NameMap Record}

theorem ascending_entered (h : records.Ascending) (rs : List Record) :
    (entered records rs).Ascending := by
  induction rs generalizing records with
  | nil => exact h
  | cons r rs ih => exact ih (h.insert _ r)

theorem get?_entered_of_not_mem (records : NameMap Record) {rs : List Record} {n : String}
    (hn : n ∉ rs.map (·.descriptor.name)) : (entered records rs).get? n = records.get? n := by
  induction rs generalizing records with
  | nil => rfl
  | cons r rs ih =>
    rw [List.map_cons, List.mem_cons, not_or] at hn
    have hrest := ih (records.insert r.descriptor.name r) hn.2
    rw [NameMap.get?_insert, if_neg hn.1] at hrest
    exact hrest

theorem get?_entered_of_mem {rs : List Record} (hnames : (rs.map (·.descriptor.name)).Nodup)
    {r : Record} (hr : r ∈ rs) : (entered records rs).get? r.descriptor.name = some r := by
  induction rs generalizing records with
  | nil => cases hr
  | cons s rs ih =>
    obtain ⟨hname, hnames⟩ := List.nodup_cons.1 hnames
    rcases List.mem_cons.1 hr with rfl | hr
    · have hrest := get?_entered_of_not_mem (records.insert r.descriptor.name r) hname
      rw [NameMap.get?_insert, if_pos rfl] at hrest
      exact hrest
    · exact ih hnames hr

/-- Records under distinct names are the same in whatever order they were made. -/
theorem entered_perm (h : records.Ascending) {rs ss : List Record} (hperm : rs.Perm ss)
    (hnames : (rs.map (·.descriptor.name)).Nodup) : entered records rs = entered records ss := by
  have hnames' : (ss.map (·.descriptor.name)).Nodup := (hperm.map _).nodup_iff.1 hnames
  refine (ascending_entered h rs).ext (ascending_entered h ss) fun n => ?_
  by_cases hn : n ∈ rs.map (·.descriptor.name)
  · obtain ⟨r, hr, rfl⟩ := List.mem_map.1 hn
    rw [get?_entered_of_mem hnames hr, get?_entered_of_mem hnames' (hperm.subset hr)]
  · have hn' : n ∉ ss.map (·.descriptor.name) := fun hmem => hn ((hperm.map _).symm.subset hmem)
    rw [get?_entered_of_not_mem records hn, get?_entered_of_not_mem records hn']

end

/-! ## Plugins that do the same each time -/

/-- The plugin as a candidate, with what it reports in a world. -/
def Plugins.report (P : Plugins ω) (world : ω) (plugin : Instance) : Candidate :=
  (plugin, (P.descriptor plugin world).1)

/-- The record that the plugin is given when it is admitted, with what it reports in a world. -/
def Plugins.record (P : Plugins ω) (world : ω) (plugin : Instance) : Record :=
  ⟨plugin, (P.descriptor plugin world).1, (P.routes plugin world).1, true, false⟩

/-- In every world the plugin reports the same descriptor and the same routes, and its
initialisation ends the same way. -/
structure Steady (P : Plugins ω) (plugin : Instance) : Prop where
  descriptor : ∀ v w, (P.descriptor plugin v).1 = (P.descriptor plugin w).1
  routes : ∀ v w, (P.routes plugin v).1 = (P.routes plugin w).1
  init : ∀ v w, (P.callback .init plugin v).1 = (P.callback .init plugin w).1

/-- The initialisation of the plugin succeeds in a world. -/
def Plugins.Starts (P : Plugins ω) (world : ω) (plugin : Instance) : Prop :=
  (P.callback .init plugin world).1 = .ok

namespace Host

/-- Registers plugins one after the other, up to the first that is not registered. -/
def registerInTurn (P : Plugins ω) : List Instance → Host ω → Except Stop Unit × Host ω
  | [], h => (.ok (), h)
  | plugin :: plugins, h =>
    match h.register P plugin with
    | (.ok (), h) => registerInTurn P plugins h
    | (.error s, h) => (.error s, h)

section
variable {P : Plugins ω} {h : Host ω} (w : ω)

theorem bindEach_of_no_router (hrouter : h.router = none) (names : List String) :
    h.bindEach P names = (.ok (), h) := by
  induction names with
  | nil => rfl
  | cons name names ih =>
    rw [bindEach, bindRoutes_of_no_router hrouter]
    exact ih

theorem descriptor_eq_report {plugin : Instance} (hs : Steady P plugin) {world asked : ω}
    {d : Descriptor} (hcall : P.descriptor plugin world = (d, asked)) :
    d = (P.report w plugin).2 := by
  rw [Plugins.report, hs.descriptor w world, hcall]

/-- A plugin that does the same each time gets its record exactly when its initialisation
succeeds. -/
theorem enrol_steady {plugin : Instance} (hs : Steady P plugin) :
    (P.Starts w plugin ∧ ∃ k, h.enrol P plugin (P.report w plugin).2 true = (.ok (), k) ∧
        k.router = h.router ∧
        k.records = h.records.insert (P.report w plugin).2.name (P.record w plugin)) ∨
      ¬ P.Starts w plugin ∧ ∃ s k, h.enrol P plugin (P.report w plugin).2 true = (.error s, k) := by
  rcases hcall : P.callback .init plugin (P.attach plugin h.world) with ⟨outcome, world⟩
  have hinit : (P.callback .init plugin w).1 = outcome := by
    rw [hs.init w (P.attach plugin h.world), hcall]
  cases outcome with
  | ok =>
    refine Or.inl ⟨hinit, _, enrol_of_ok hcall _ _, rfl, ?_⟩
    rw [Plugins.record, hs.routes w world]
    rfl
  | failed e =>
    exact Or.inr ⟨by simp [Plugins.Starts, hinit], _, _, enrol_of_ne_ok hcall (by simp) _ _⟩
  | panicked m =>
    exact Or.inr ⟨by simp [Plugins.Starts, hinit], _, _, enrol_of_ne_ok hcall (by simp) _ _⟩

/-! ## One by one -/

/-- Without a router such a plugin is registered exactly when it is admissible and its
initialisation succeeds. -/
theorem register_steady {plugin : Instance} (hs : Steady P plugin) (hrouter : h.router = none) :
    ((Admissible h.records [] (P.report w plugin).2 ∧ P.Starts w plugin) ∧
        ∃ k, h.register P plugin = (.ok (), k) ∧ k.router = none ∧
          k.records = h.records.insert (P.report w plugin).2.name (P.record w plugin)) ∨
      ¬ (Admissible h.records [] (P.report w plugin).2 ∧ P.Starts w plugin) ∧
        ∃ s k, h.register P plugin = (.error s, k) := by
  rcases hcall : P.descriptor plugin h.world with ⟨d, asked⟩
  obtain rfl := descriptor_eq_report w hs hcall
  rw [register, describe_of_eq hcall, ← admissible_eq_ok_iff]
  simp only
  split
  · rename_i e he
    refine Or.inr ⟨fun ⟨hok, _⟩ => ?_, _, _, rfl⟩
    rw [he] at hok
    cases hok
  · rename_i hok
    rcases enrol_steady w hs (h := { h with world := asked }) with
      ⟨hstarts, k, henrol, hrouter', hrecords⟩ | ⟨hstarts, s, k, henrol⟩
    · rw [henrol]
      have hnone : k.router = none := hrouter'.trans hrouter
      exact Or.inl ⟨⟨hok, hstarts⟩, k, bindRoutes_of_no_router hnone _, hnone, hrecords⟩
    · rw [henrol]
      exact Or.inr ⟨fun ⟨_, hstart⟩ => hstarts hstart, _, _, rfl⟩

/-- Members that are registered one by one, after some of the base's were: each is checked next
to the base and the ones before it. -/
theorem registerInTurn_grown {base : NameMap Record} {earlier : List Descriptor}
    {plugins : List Instance} (hsteady : ∀ p ∈ plugins, Steady P p) (hrouter : h.router = none)
    (hgrown : Grown base earlier h.records) (hearlier : (earlier.map (·.name)).Nodup) :
    ((h.registerInTurn P plugins).1 = .ok () ↔
        (allAdmissible base earlier (plugins.map fun p => (P.report w p).2) = .ok () ∧
          ((earlier ++ plugins.map fun p => (P.report w p).2).map (·.name)).Nodup) ∧
        ∀ p ∈ plugins, P.Starts w p) ∧
      ((h.registerInTurn P plugins).1 = .ok () →
        (h.registerInTurn P plugins).2.records =
          entered h.records (plugins.map (P.record w))) := by
  induction plugins generalizing earlier h with
  | nil =>
    exact ⟨⟨fun _ => ⟨⟨rfl, by simpa using hearlier⟩, by simp⟩, fun _ => rfl⟩, fun _ => rfl⟩
  | cons p plugins ih =>
    obtain ⟨hp, hsteady⟩ := List.forall_mem_cons.1 hsteady
    rw [registerInTurn, List.map_cons, allAdmissible_cons_eq_ok_iff, List.forall_mem_cons]
    rcases register_steady w hp hrouter with
      ⟨⟨ha, hstarts⟩, k, hregister, hnone, hrecords⟩ | ⟨hnot, s, k, hregister⟩
    · obtain ⟨hfirst, hname⟩ := hgrown.admissible_iff.1 ha
      have hgrown' : Grown base (earlier ++ [(P.report w p).2]) k.records := by
        rw [hrecords]
        exact hgrown.insert rfl ha.fresh
      have hearlier' : ((earlier ++ [(P.report w p).2]).map (·.name)).Nodup := by
        rw [List.map_append]
        exact hearlier.append (by simp) (by simpa using hname)
      obtain ⟨hiff, hentered⟩ := ih hsteady hnone hgrown' hearlier'
      have hsame : earlier ++ (P.report w p).2 :: plugins.map (fun p => (P.report w p).2) =
          earlier ++ [(P.report w p).2] ++ plugins.map fun p => (P.report w p).2 := by simp
      rw [hregister, hsame]
      refine ⟨hiff.trans ⟨?_, ?_⟩, fun hok => ?_⟩
      · exact fun ⟨⟨hall, hnames⟩, hrest⟩ => ⟨⟨⟨hfirst, hall⟩, hnames⟩, hstarts, hrest⟩
      · exact fun ⟨⟨⟨_, hall⟩, hnames⟩, _, hrest⟩ => ⟨⟨hall, hnames⟩, hrest⟩
      · rw [hentered hok, hrecords]
        rfl
    · rw [hregister]
      refine ⟨⟨nofun, ?_⟩, nofun⟩
      rintro ⟨⟨⟨hfirst, -⟩, hnames⟩, hstarts, -⟩
      rw [List.map_append, List.map_cons, List.nodup_append] at hnames
      refine absurd ⟨hgrown.admissible_iff.2 ⟨hfirst, fun hmem => ?_⟩, hstarts⟩ hnot
      exact hnames.2.2 _ hmem _ List.mem_cons_self rfl

/-- One by one, plugins are registered in an order exactly when they fit, the order has
dependencies first and every initialisation succeeds. -/
theorem registerInTurn_ok_iff {plugins : List Instance} (hsteady : ∀ p ∈ plugins, Steady P p)
    (hrouter : h.router = none) :
    (h.registerInTurn P plugins).1 = .ok () ↔
      (Joint h.records (plugins.map fun p => (P.report w p).2) ∧
          DependenciesFirst (plugins.map fun p => (P.report w p).2)) ∧
        ∀ p ∈ plugins, P.Starts w p := by
  rw [← allAdmissible_iff_joint]
  exact (registerInTurn_grown w hsteady hrouter (grown_nil _) List.nodup_nil).1

theorem registerInTurn_records {plugins : List Instance} (hsteady : ∀ p ∈ plugins, Steady P p)
    (hrouter : h.router = none) (hok : (h.registerInTurn P plugins).1 = .ok ()) :
    (h.registerInTurn P plugins).2.records = entered h.records (plugins.map (P.record w)) :=
  (registerInTurn_grown w hsteady hrouter (grown_nil _) List.nodup_nil).2 hok

/-! ## As a batch -/

theorem report_of_describeAll {seen : List String} {plugins : List Instance}
    {batch : List Candidate} (hsteady : ∀ p ∈ plugins, Steady P p)
    (hok : (h.describeAll P seen plugins).1 = .ok batch) : batch = plugins.map (P.report w) := by
  induction plugins generalizing seen h batch with
  | nil =>
    cases hok
    rfl
  | cons p plugins ih =>
    obtain ⟨hp, hsteady⟩ := List.forall_mem_cons.1 hsteady
    rcases hcall : P.descriptor p h.world with ⟨d, asked⟩
    rw [describeAll, describe_of_eq hcall] at hok
    simp only at hok
    split at hok
    · cases hok
    split at hok
    · cases hok
    rename_i heq
    cases hok
    rw [ih hsteady (congrArg Prod.fst heq), descriptor_eq_report w hp hcall]
    rfl

theorem describeAll_of_distinct (seen : List String) {plugins : List Instance}
    (hsteady : ∀ p ∈ plugins, Steady P p)
    (hnames : (plugins.map fun p => (P.report w p).2.name).Nodup)
    (hseen : ∀ p ∈ plugins, (P.report w p).2.name ∉ seen) :
    (h.describeAll P seen plugins).1 = .ok (plugins.map (P.report w)) := by
  induction plugins generalizing seen h with
  | nil => rfl
  | cons p plugins ih =>
    obtain ⟨hp, hsteady⟩ := List.forall_mem_cons.1 hsteady
    obtain ⟨hname, hnames⟩ := List.nodup_cons.1 hnames
    obtain ⟨hnew, hseen⟩ := List.forall_mem_cons.1 hseen
    rcases hcall : P.descriptor p h.world with ⟨d, asked⟩
    obtain rfl := descriptor_eq_report w hp hcall
    rw [describeAll, describe_of_eq hcall]
    simp only
    rw [if_neg (by simpa using hnew)]
    have hrest := ih ((P.report w p).2.name :: seen) (h := { h with world := asked })
      hsteady hnames fun q hq hmem => by
        rcases List.mem_cons.1 hmem with heq | hmem
        · exact hname (List.mem_map.2 ⟨q, hq, heq⟩)
        · exact hseen q hq hmem
    generalize describeAll P ((P.report w p).2.name :: seen) plugins { h with world := asked } =
      described at hrest
    obtain ⟨result, k⟩ := described
    cases hrest
    rfl

/-- The members of a batch are all admitted exactly when all initialisations succeed. -/
theorem enrolAll_steady (done : List String) {plugins : List Instance}
    (hsteady : ∀ p ∈ plugins, Steady P p) :
    ((∀ p ∈ plugins, P.Starts w p) ∧
        ∃ k, h.enrolAll P done (plugins.map (P.report w)) = (.ok (), k) ∧ k.router = h.router ∧
          k.records = entered h.records (plugins.map (P.record w))) ∨
      ¬ (∀ p ∈ plugins, P.Starts w p) ∧
        ∃ s k, h.enrolAll P done (plugins.map (P.report w)) = (.error s, k) := by
  induction plugins generalizing done h with
  | nil => exact Or.inl ⟨by simp, h, rfl, rfl, rfl⟩
  | cons p plugins ih =>
    obtain ⟨hp, hsteady⟩ := List.forall_mem_cons.1 hsteady
    have hreport : P.report w p = (p, (P.report w p).2) := rfl
    rw [List.map_cons, hreport, enrolAll, List.forall_mem_cons]
    rcases enrol_steady w hp (h := h) with
      ⟨hstarts, k, henrol, hrouter, hrecords⟩ | ⟨hstarts, s, k, henrol⟩
    · rw [henrol]
      rcases ih ((P.report w p).2.name :: done) hsteady (h := k) with
        ⟨hrest, l, hall, hrouter', hentered⟩ | ⟨hrest, s, l, hall⟩
      · refine Or.inl ⟨⟨hstarts, hrest⟩, l, hall, hrouter'.trans hrouter, ?_⟩
        rw [hentered, hrecords]
        rfl
      · exact Or.inr ⟨fun hboth => hrest hboth.2, s, l, hall⟩
    · refine Or.inr ⟨fun hboth => hstarts hboth.1, ?_⟩
      rw [henrol]
      cases s with
      | panicked m => exact ⟨_, _, rfl⟩
      | refused e =>
        simp only
        split
        · exact ⟨_, _, rfl⟩
        · exact ⟨_, _, rfl⟩

/-- A list of candidates with what plugins report is one of the plugins. -/
theorem exists_order {plugins : List Instance} {ordered : List Candidate}
    (hperm : ordered.Perm (plugins.map (P.report w))) :
    ∃ l : List Instance, l.Perm plugins ∧ ordered = l.map (P.report w) := by
  refine ⟨ordered.map (·.1), ?_, ?_⟩
  · have hfst := hperm.map (·.1)
    rw [List.map_map] at hfst
    exact hfst.trans (.of_eq (List.map_id plugins))
  · rw [List.map_map]
    refine ((List.map_congr_left fun c hc => ?_).trans (List.map_id ordered)).symm
    obtain ⟨p, -, rfl⟩ := List.mem_map.1 (hperm.subset hc)
    rfl

/-- Without a router, a batch that is registered fits, its initialisations succeed, and its
records are made in an order with dependencies first. -/
theorem registerPlugins_of_ok {plugins : List Instance} (hsteady : ∀ p ∈ plugins, Steady P p)
    (hrouter : h.router = none) (hok : (h.registerPlugins P plugins).1 = .ok ()) :
    ∃ l : List Instance, l.Perm plugins ∧
      (Joint h.records (l.map fun p => (P.report w p).2) ∧
        DependenciesFirst (l.map fun p => (P.report w p).2)) ∧ (∀ p ∈ l, P.Starts w p) ∧
      (h.registerPlugins P plugins).2.records = entered h.records (l.map (P.record w)) := by
  obtain ⟨world, hworld⟩ := describeAll_eq P [] plugins h
  unfold registerPlugins at hok ⊢
  split at hok
  · cases hok
  rename_i batch k heq
  rw [heq] at hworld
  subst hworld
  have hnames := (describeAll_of_ok (congrArg Prod.fst heq)).2.1
  obtain rfl := report_of_describeAll w hsteady (congrArg Prod.fst heq)
  split at hok
  · cases hok
  rename_i ordered hordered
  obtain ⟨hperm, hfirst⟩ := batchOrder_perm hnames hordered
  obtain ⟨l, hl, rfl⟩ := exists_order w hperm
  split at hok
  · cases hok
  rename_i hall
  have hdistinct : (((l.map (P.report w)).map (·.2)).map (·.name)).Nodup := by
    rw [List.map_map]
    exact (hperm.map (·.2.name)).nodup_iff.2 hnames
  have hjoint := allAdmissible_iff_joint.1 ⟨hall, hdistinct⟩
  rcases enrolAll_steady w (h := { h with world }) []
    (fun p hp => hsteady p (hl.subset hp)) with
    ⟨hstarts, m, henrol, hnone, hrecords⟩ | ⟨-, s, m, henrol⟩
  · rw [List.map_map] at hjoint
    refine ⟨l, hl, hjoint, hstarts, ?_⟩
    simp only [henrol, bindEach_of_no_router (hnone.trans hrouter)]
    exact hrecords
  · rw [henrol] at hok
    cases hok

/-- Without a router, a batch that fits is registered if its initialisations succeed and there
is an order with dependencies first. -/
theorem registerPlugins_of_order {plugins l : List Instance}
    (hsteady : ∀ p ∈ plugins, Steady P p) (hrouter : h.router = none) (hl : l.Perm plugins)
    (hjoint : Joint h.records (l.map fun p => (P.report w p).2))
    (hfirst : DependenciesFirst (l.map fun p => (P.report w p).2))
    (hstarts : ∀ p ∈ l, P.Starts w p) : (h.registerPlugins P plugins).1 = .ok () := by
  obtain ⟨world, hworld⟩ := describeAll_eq P [] plugins h
  have hnames : ((plugins.map (P.report w)).map (·.2.name)).Nodup := by
    have hdistinct := (hjoint.perm (hl.map _)).distinct
    rw [List.map_map] at hdistinct ⊢
    exact hdistinct
  have hdescribe := describeAll_of_distinct w (h := h) [] hsteady
    (by rwa [List.map_map] at hnames) (by simp)
  rcases heq : h.describeAll P [] plugins with ⟨result, k⟩
  rw [heq] at hdescribe hworld
  subst hworld
  cases hdescribe
  obtain ⟨ordered, hordered⟩ := batchOrder_of_dependenciesFirst hnames (hl.map (P.report w))
    (by rwa [List.map_map])
  obtain ⟨hperm, hfirst'⟩ := batchOrder_perm hnames hordered
  obtain ⟨l', hl', rfl⟩ := exists_order w hperm
  rw [List.map_map] at hfirst'
  have hall : allAdmissible h.records [] ((l'.map (P.report w)).map (·.2)) = .ok () := by
    rw [List.map_map]
    exact (allAdmissible_iff_joint.2 ⟨hjoint.perm ((hl.trans hl'.symm).map _), hfirst'⟩).1
  rcases enrolAll_steady w (h := { h with world }) []
    (fun p hp => hsteady p (hl'.subset hp)) with
    ⟨-, m, henrol, hnone, -⟩ | ⟨hnot, -⟩
  · rw [registerPlugins, heq]
    simp only [hordered, hall, henrol, bindEach_of_no_router (hnone.trans hrouter)]
  · exact absurd (fun p hp => hstarts p (hl.symm.subset (hl'.subset hp))) hnot

/-! ## Both ways -/

theorem entered_order {plugins l : List Instance} (hasc : h.records.Ascending)
    (hl : l.Perm plugins) (hjoint : Joint h.records (l.map fun p => (P.report w p).2)) :
    entered h.records (l.map (P.record w)) = entered h.records (plugins.map (P.record w)) := by
  refine entered_perm hasc (hl.map _) ?_
  have hdistinct := hjoint.distinct
  rw [List.map_map] at hdistinct ⊢
  exact hdistinct

end

/-- Plugins that do the same each time are registered as a batch exactly when they can be
registered one by one in some order; and then a batch in any other order is registered as well,
and all these ways lead to the same records. -/
theorem registerPlugins_iff_inTurn {P : Plugins ω} {h : Host ω} (hr : Reachable P h)
    (hrouter : h.router = none) {plugins : List Instance}
    (hsteady : ∀ p ∈ plugins, Steady P p) :
    ((h.registerPlugins P plugins).1 = .ok () ↔
        ∃ l : List Instance, l.Perm plugins ∧ (h.registerInTurn P l).1 = .ok ()) ∧
      ((h.registerPlugins P plugins).1 = .ok () → ∃ records : NameMap Record,
        ∀ l : List Instance, l.Perm plugins →
          ((h.registerPlugins P l).1 = .ok () ∧ (h.registerPlugins P l).2.records = records) ∧
          ((h.registerInTurn P l).1 = .ok () →
            (h.registerInTurn P l).2.records = records)) := by
  have hasc := hr.coherent.ascending
  have hsteady' : ∀ l : List Instance, l.Perm plugins → ∀ p ∈ l, Steady P p :=
    fun l hl p hp => hsteady p (hl.subset hp)
  refine ⟨⟨fun hok => ?_, fun ⟨l, hl, hok⟩ => ?_⟩, fun hok => ?_⟩
  · obtain ⟨l, hl, hfits, hstarts, -⟩ := registerPlugins_of_ok h.world hsteady hrouter hok
    exact ⟨l, hl, (registerInTurn_ok_iff h.world (hsteady' l hl) hrouter).2 ⟨hfits, hstarts⟩⟩
  · obtain ⟨⟨hjoint, hfirst⟩, hstarts⟩ :=
      (registerInTurn_ok_iff h.world (hsteady' l hl) hrouter).1 hok
    exact registerPlugins_of_order h.world hsteady hrouter hl hjoint hfirst hstarts
  · obtain ⟨m, hm, ⟨hjoint, hfirst⟩, hstarts, -⟩ :=
      registerPlugins_of_ok h.world hsteady hrouter hok
    refine ⟨entered h.records (plugins.map (P.record h.world)), fun l hl => ⟨?_, fun hturn => ?_⟩⟩
    · have hbatch := registerPlugins_of_order h.world (hsteady' l hl) hrouter
        (hm.trans hl.symm) hjoint hfirst hstarts
      obtain ⟨n, hn, ⟨hjoint', -⟩, -, hrecords⟩ :=
        registerPlugins_of_ok h.world (hsteady' l hl) hrouter hbatch
      exact ⟨hbatch, hrecords.trans (entered_order h.world hasc (hn.trans hl) hjoint')⟩
    · have hfits := (registerInTurn_ok_iff h.world (hsteady' l hl) hrouter).1 hturn
      rw [registerInTurn_records h.world (hsteady' l hl) hrouter hturn]
      exact entered_order h.world hasc hl hfits.1.1

theorem steady_constant (descriptor : Instance → Descriptor)
    (outcome : Stage → Instance → Outcome) (plugin : Instance) :
    Steady (.constant descriptor outcome) plugin :=
  ⟨fun _ _ => rfl, fun _ _ => rfl, fun _ _ => rfl⟩

/-- A reader that needs a store, which needs a disk. -/
def storePlugins : Plugins Unit :=
  .constant (fun plugin => match plugin.id with
    | 0 => ⟨"reader", "", "1.0.0", ["store"], []⟩
    | 1 => ⟨"store", "", "1.0.0", ["disk"], []⟩
    | _ => ⟨"disk", "", "1.0.0", [], []⟩) fun _ _ => .ok

/-- Given as a batch in the wrong order, the three are registered as well. -/
theorem reader_store_disk_registered :
    ((start ()).registerPlugins storePlugins [⟨0⟩, ⟨1⟩, ⟨2⟩]).1 = .ok () ∧
      ((start ()).registerInTurn storePlugins [⟨0⟩, ⟨1⟩, ⟨2⟩]).1 ≠ .ok () :=
  ⟨(registerPlugins_iff_inTurn (.start ()) rfl fun p _ => steady_constant _ _ p).1.2
    ⟨[⟨2⟩, ⟨1⟩, ⟨0⟩], by decide, rfl⟩, by decide⟩

end Host

end PluginHost
