import PluginHost.Proofs.Registry.Move

/-!
# A batch is registered as a whole or not at all

The members of a batch are admitted one after the other onto the records there are, as onto a
stack; when one fails, those before it are taken off again, the last one first. `Stacked` says
which members lie on which records, so taking them off gives these records back, whether their
shutdowns fail or not.

* `evictAll_stacked`: taking members off.
* `enrolAll_stacked`: admitting members, and taking them off again at the first failure.
* `registerPlugins_ends`: the ways in which the registration of a batch can end.
* `registerPlugins_all_or_none`: what each of them means for records, router and tables.
-/
namespace PluginHost

variable {ω : Type}

/-- What a plugin was called for, and as which candidate. -/
def Call.brief (c : Call) : CallKind × Candidate :=
  (c.kind, c.plugin, c.descriptor)

/-- The candidates that were initialised with success in a row of calls. -/
def initialisedIn (calls : List Call) : List Candidate :=
  calls.filterMap fun c =>
    if c.kind = .stage .init ∧ c.outcome = .ok then some (c.plugin, c.descriptor) else none

/-- The members of a batch are handed the host and initialised one after the other, up to the
first that fails, and then the ones before it are shut down once each, the last one first; and
after them those in `done`, which had been initialised before. -/
def Undone (done batch : List Candidate) (calls : List Call) : Prop :=
  ∃ before failing after entering leaving, batch = before ++ failing :: after ∧
    calls = entering ++ leaving ∧
    entering.map Call.brief =
      (before ++ [failing]).flatMap (fun c => [(.attach, c), (.stage .init, c)]) ∧
    initialisedIn entering = before ∧
    leaving.map Call.brief = (before.reverse ++ done).map fun c => (.stage .shutdown, c)

/-- The kinds of errors that are found before any plugin is called back. -/
def checkKinds : List String :=
  ["DuplicatePlugin", "CycleDetected", "InvalidPlugin", "AlreadyRegistered", "MissingDependency",
    "ConflictDetected"]

/-- The candidate is registered and enabled. -/
def Host.Holds (h : Host ω) (c : Candidate) : Prop :=
  ∃ r, h.records.get? c.2.name = some r ∧ r.plugin = c.1 ∧ r.descriptor = c.2 ∧ r.enabled = true

/-- Members of a batch, the last one first, that were admitted onto records. -/
inductive Stacked (base : NameMap Record) : List Candidate → NameMap Record → Prop where
  | nil : Stacked base [] base
  | cons {done : List Candidate} {records : NameMap Record} {plugin : Instance} {d : Descriptor}
      (routes : List Route) (hdone : Stacked base done records)
      (hfresh : records.get? d.name = none) :
      Stacked base ((plugin, d) :: done)
        (records.insert d.name ⟨plugin, d, routes, true, false⟩)

theorem kind_of_batchOrder {batch : List Candidate} {e : RegistryError}
    (h : batchOrder batch = .error e) : e.kind ∈ checkKinds := by
  unfold batchOrder at h
  split at h
  · cases h
    simp [RegistryError.kind, checkKinds]
  · cases h

theorem kind_of_admissible {records : NameMap Record} {earlier : List Descriptor}
    {d : Descriptor} {e : RegistryError} (h : admissible records earlier d = .error e) :
    e.kind ∈ checkKinds := by
  unfold admissible at h
  split at h
  · cases h
    simp [RegistryError.kind, checkKinds]
  split at h
  · cases h
    simp [RegistryError.kind, checkKinds]
  simp only at h
  split at h
  · cases h
    simp [RegistryError.kind, checkKinds]
  split at h
  · cases h
    simp [RegistryError.kind, checkKinds]
  · cases h

theorem kind_of_allAdmissible {records : NameMap Record} {earlier ds : List Descriptor}
    {e : RegistryError} (h : allAdmissible records earlier ds = .error e) :
    e.kind ∈ checkKinds := by
  induction ds generalizing earlier with
  | nil => cases h
  | cons d ds ih =>
    unfold allAdmissible at h
    split at h
    · rename_i hd
      cases h
      exact kind_of_admissible hd
    · exact ih h

/-- The names of a batch that passed the checks are not taken. -/
theorem fresh_of_allAdmissible {records : NameMap Record} {earlier : List Descriptor}
    {batch : List Candidate} (h : allAdmissible records earlier (batch.map (·.2)) = .ok ()) :
    ∀ c ∈ batch, records.get? c.2.name = none := by
  induction batch generalizing earlier with
  | nil => simp
  | cons c batch ih =>
    obtain ⟨hfirst, hrest⟩ := allAdmissible_cons_eq_ok_iff.1 h
    exact List.forall_mem_cons.2 ⟨get?_eq_none_of_fresh hfirst.fresh, ih hrest⟩

theorem Stacked.get? {base records : NameMap Record} {done : List Candidate}
    (hs : Stacked base done records) {c : Candidate} (hc : c ∈ done) :
    ∃ routes, records.get? c.2.name = some ⟨c.1, c.2, routes, true, false⟩ := by
  induction hs with
  | nil => cases hc
  | cons routes _ hfresh ih =>
    rw [NameMap.get?_insert]
    rcases List.mem_cons.1 hc with rfl | hc
    · exact ⟨routes, if_pos rfl⟩
    · obtain ⟨old, hold⟩ := ih hc
      refine ⟨old, ?_⟩
      rw [if_neg fun heq => ?_, hold]
      rw [heq, hfresh] at hold
      cases hold

namespace Host

theorem kind_of_describeAll {P : Plugins ω} {seen : List String} {plugins : List Instance}
    {h : Host ω} {e : RegistryError} (he : (h.describeAll P seen plugins).1 = .error e) :
    e.kind ∈ checkKinds := by
  induction plugins generalizing seen h with
  | nil => cases he
  | cons plugin plugins ih =>
    rw [describeAll] at he
    generalize h.describe P plugin = described at he
    obtain ⟨d, k⟩ := described
    simp only at he
    split at he
    · cases he
      simp [RegistryError.kind, checkKinds]
    split at he
    · rename_i heq
      cases he
      exact ih (congrArg Prod.fst heq)
    · cases he

/-- Between two hosts plugins were called, and neither the router nor a table changed. -/
structure Calls (calls : List Call) (h k : Host ω) : Prop where
  router : k.router = h.router
  tables : k.tables = h.tables
  journal : k.journal = calls.reverse ++ h.journal

theorem calls_refl (h : Host ω) : Calls [] h h :=
  ⟨rfl, rfl, rfl⟩

theorem Calls.trans {first rest : List Call} {h k l : Host ω} (hfirst : Calls first h k)
    (hrest : Calls rest k l) : Calls (first ++ rest) h l where
  router := hrest.router.trans hfirst.router
  tables := hrest.tables.trans hfirst.tables
  journal := by simp [hrest.journal, hfirst.journal]

theorem calls_called (h : Host ω) (kind : CallKind) (plugin : Instance) (d : Descriptor)
    (enabled : Bool) (outcome : Outcome) (world : ω) :
    Calls [⟨kind, plugin, d, enabled, outcome, h.records⟩] h
      (h.called kind plugin d enabled outcome world) :=
  ⟨rfl, rfl, rfl⟩

section
variable {P : Plugins ω} {base : NameMap Record}

/-! ## Taking members off -/

/-- Members that are taken off are shut down, the last one first, and leave the records that
they were admitted onto; unless one of them panics. -/
theorem evictAll_stacked {done : List Candidate} {h : Host ω}
    (hs : Stacked base done h.records) :
    ∃ calls, Calls calls h (h.evictAll P (done.map (·.2.name))).2 ∧
      ((h.evictAll P (done.map (·.2.name))).1 = .ok () ∧
          (h.evictAll P (done.map (·.2.name))).2.records = base ∧
          calls.map Call.brief = done.map (fun c => (.stage .shutdown, c)) ∨
        ∃ m, (h.evictAll P (done.map (·.2.name))).1 = .error (.panicked m) ∧
          ∃ c ∈ calls, c.outcome = .panicked m) := by
  induction done generalizing h with
  | nil =>
    refine ⟨[], calls_refl h, Or.inl ⟨rfl, ?_, rfl⟩⟩
    generalize hrecords : h.records = records at hs
    cases hs
    exact hrecords
  | cons c done ih =>
    generalize hrecords : h.records = records at hs
    cases hs with
    | @cons _ records plugin d routes hdone hfresh =>
      have hr : h.records.get? d.name = some ⟨plugin, d, routes, true, false⟩ := by
        rw [hrecords, NameMap.get?_insert, if_pos rfl]
      rcases hcall : P.callback .shutdown plugin h.world with ⟨outcome, world⟩
      rw [List.map_cons]
      by_cases hpanic : ∃ m, outcome = .panicked m
      · obtain ⟨m, rfl⟩ := hpanic
        rw [evictAll_cons_of_panicked hr hcall]
        exact ⟨_, calls_called h (.stage .shutdown) plugin d true (.panicked m) world,
          Or.inr ⟨m, rfl, by simp⟩⟩
      · have ho : ∀ m, outcome ≠ .panicked m := by simpa using hpanic
        rw [evictAll_cons_of_some hr hcall ho, hrecords, NameMap.erase_insert _ hfresh]
        have hfirst : Calls [⟨.stage .shutdown, plugin, d, true, outcome, h.records⟩] h
            { h.recalled .shutdown ⟨plugin, d, routes, true, false⟩ outcome world with
              records } := ⟨rfl, rfl, rfl⟩
        obtain ⟨calls, hcalls, hend⟩ := ih
          (h := { h.recalled .shutdown ⟨plugin, d, routes, true, false⟩ outcome world with
            records }) hdone
        refine ⟨_, hfirst.trans hcalls, hend.imp ?_ ?_⟩
        · intro ⟨hok, hbase, hdown⟩
          exact ⟨hok, hbase, by simpa [Call.brief] using hdown⟩
        · intro ⟨m, hm, c, hc, hcm⟩
          exact ⟨m, hm, c, List.mem_cons_of_mem _ hc, hcm⟩

/-! ## Admitting members -/

/-- The calls that hand the host to a plugin and initialise it. -/
def entryCalls (h : Host ω) (plugin : Instance) (d : Descriptor) (outcome : Outcome) :
    List Call :=
  [⟨.attach, plugin, d, true, .ok, h.records⟩,
    ⟨.stage .init, plugin, d, true, outcome, h.records⟩]

theorem calls_initialised (h : Host ω) (plugin : Instance) (d : Descriptor) (outcome : Outcome)
    (world : ω) :
    Calls (h.entryCalls plugin d outcome) h (h.initialised plugin d true outcome world) :=
  (calls_called h .attach plugin d true .ok world).trans
    (calls_called (h.called .attach plugin d true .ok world) (.stage .init) plugin d true outcome
      world)

/-- What undoes later members and then this one undoes it together with them. -/
theorem undone_entryCalls {done batch : List Candidate} {calls : List Call} {h : Host ω}
    {plugin : Instance} {d : Descriptor} (hu : Undone ((plugin, d) :: done) batch calls) :
    Undone done ((plugin, d) :: batch) (h.entryCalls plugin d .ok ++ calls) := by
  obtain ⟨before, failing, after, entering, leaving, rfl, rfl, henter, hinit, hleave⟩ := hu
  refine ⟨(plugin, d) :: before, failing, after, h.entryCalls plugin d .ok ++ entering, leaving,
    rfl, by simp, ?_, ?_, ?_⟩
  · rw [List.map_append, henter]
    rfl
  · rw [initialisedIn, List.filterMap_append, ← initialisedIn, ← initialisedIn, hinit]
    rfl
  · rw [hleave, List.reverse_cons, List.append_assoc]
    rfl

/-- The members of a batch are admitted onto records, or taken off again when one of them
fails; unless one panics. -/
theorem enrolAll_stacked {done batch : List Candidate} {h : Host ω}
    (hs : Stacked base done h.records)
    (hfresh : ∀ c ∈ batch, h.records.get? c.2.name = none)
    (hnames : (batch.map (·.2.name)).Nodup) :
    ∃ calls, Calls calls h (h.enrolAll P (done.map (·.2.name)) batch).2 ∧
      ((h.enrolAll P (done.map (·.2.name)) batch).1 = .ok () ∧
          Stacked base (batch.reverse ++ done)
            (h.enrolAll P (done.map (·.2.name)) batch).2.records ∨
        (∃ name e, (h.enrolAll P (done.map (·.2.name)) batch).1 =
            .error (.refused (.lifecycle name .init e))) ∧
          (h.enrolAll P (done.map (·.2.name)) batch).2.records = base ∧ Undone done batch calls ∨
        ∃ m, (h.enrolAll P (done.map (·.2.name)) batch).1 = .error (.panicked m) ∧
          ∃ c ∈ calls, c.outcome = .panicked m) := by
  induction batch generalizing done h with
  | nil => exact ⟨[], calls_refl h, Or.inl ⟨rfl, hs⟩⟩
  | cons c batch ih =>
    obtain ⟨plugin, d⟩ := c
    obtain ⟨hname, hnames⟩ := List.nodup_cons.1 hnames
    have hd : h.records.get? d.name = none := hfresh (plugin, d) List.mem_cons_self
    rcases hcall : P.callback .init plugin (P.attach plugin h.world) with ⟨outcome, world⟩
    rw [enrolAll]
    cases outcome with
    | ok =>
      rw [enrol_of_ok hcall]
      have hfirst : Calls (h.entryCalls plugin d .ok) h
          ((h.initialised plugin d true .ok (P.routes plugin world).2).enter plugin d true
            (P.routes plugin world).1) :=
        { calls_initialised h plugin d .ok (P.routes plugin world).2 with }
      have hrest : ∀ c ∈ batch, (h.records.insert d.name
          ⟨plugin, d, (P.routes plugin world).1, true, false⟩).get? c.2.name = none := by
        intro c hc
        rw [NameMap.get?_insert, if_neg fun heq => hname (List.mem_map.2 ⟨c, hc, heq⟩)]
        exact hfresh c (List.mem_cons_of_mem _ hc)
      obtain ⟨calls, hcalls, hend⟩ := ih (h := (h.initialised plugin d true .ok
        (P.routes plugin world).2).enter plugin d true (P.routes plugin world).1)
        (Stacked.cons (P.routes plugin world).1 hs hd) hrest hnames
      refine ⟨_, hfirst.trans hcalls, hend.imp ?_ (Or.imp ?_ ?_)⟩
      · intro ⟨hok, hstacked⟩
        exact ⟨hok, by simpa using hstacked⟩
      · intro ⟨hrefused, hbase, hundone⟩
        exact ⟨hrefused, hbase, undone_entryCalls hundone⟩
      · intro ⟨m, hm, c, hc, hcm⟩
        exact ⟨m, hm, c, List.mem_append_right _ hc, hcm⟩
    | failed e =>
      rw [enrol_of_ne_ok hcall (by simp)]
      obtain ⟨calls, hcalls, hend⟩ := evictAll_stacked (P := P)
        (h := h.initialised plugin d true (.failed e) world) hs
      have hall := (calls_initialised h plugin d (.failed e) world).trans hcalls
      simp only [Outcome.result]
      generalize evictAll P (done.map (·.2.name)) (h.initialised plugin d true (.failed e) world) =
        evicted at hall hend
      obtain ⟨result, k⟩ := evicted
      rcases hend with ⟨rfl, hbase, hdown⟩ | ⟨m, rfl, c, hc, hcm⟩
      · exact ⟨_, hall, Or.inr (Or.inl ⟨⟨d.name, e, rfl⟩, hbase, [], (plugin, d), batch,
          h.entryCalls plugin d (.failed e), calls, rfl, rfl, rfl, rfl, hdown⟩)⟩
      · exact ⟨_, hall, Or.inr (Or.inr ⟨m, rfl, c, List.mem_append_right _ hc, hcm⟩)⟩
    | panicked m =>
      rw [enrol_of_ne_ok hcall (by simp)]
      exact ⟨_, calls_initialised h plugin d (.panicked m) world,
        Or.inr (Or.inr ⟨m, rfl, by simp [entryCalls]⟩)⟩

/-! ## Binding -/

/-- Binding calls no plugin back, and whoever is registered and enabled stays so. -/
theorem bindRoutes_holds (P : Plugins ω) (name : String) (h : Host ω) :
    (h.bindRoutes P name).2.journal = h.journal ∧
      ∀ c, h.Holds c → (h.bindRoutes P name).2.Holds c := by
  unfold bindRoutes
  split
  · exact ⟨rfl, fun _ => id⟩
  split
  · exact ⟨rfl, fun _ => id⟩
  simp only
  split
  · exact ⟨rfl, fun _ => id⟩
  refine ⟨rfl, fun c ⟨r, hr, hplugin, hdescriptor, henabled⟩ => ?_⟩
  by_cases hname : c.2.name = name
  · refine ⟨{ r with bound := true }, ?_, hplugin, hdescriptor, henabled⟩
    rw [modify_records, NameMap.get?_modify, if_pos hname, hr]
    rfl
  · refine ⟨r, ?_, hplugin, hdescriptor, henabled⟩
    rw [modify_records, NameMap.get?_modify, if_neg hname, hr]

theorem bindEach_holds {batch : List Candidate} {h : Host ω} (hbatch : ∀ c ∈ batch, h.Holds c) :
    (h.bindEach P (batch.map (·.2.name))).2.journal = h.journal ∧
      (∀ c, h.Holds c → (h.bindEach P (batch.map (·.2.name))).2.Holds c) ∧
      ((h.bindEach P (batch.map (·.2.name))).1 = .ok () ∨
        ∃ name e, (h.bindEach P (batch.map (·.2.name))).1 =
          .error (.refused (.routeBinding name e))) := by
  induction batch generalizing h with
  | nil => exact ⟨rfl, fun _ => id, Or.inl rfl⟩
  | cons c batch ih =>
    obtain ⟨r, hr, -⟩ := hbatch c List.mem_cons_self
    obtain ⟨hjournal, hkept⟩ := bindRoutes_holds P c.2.name h
    have hends := bindRoutes_ends (P := P) hr
    rw [List.map_cons, bindEach]
    generalize h.bindRoutes P c.2.name = bound at hjournal hkept hends
    obtain ⟨result, k⟩ := bound
    rcases hends with rfl | ⟨e, rfl⟩
    · obtain ⟨hjournal', hkept', hends'⟩ := ih (h := k)
        fun b hb => hkept b (hbatch b (List.mem_cons_of_mem _ hb))
      exact ⟨hjournal'.trans hjournal, fun b hb => hkept' b (hkept b hb), hends'⟩
    · exact ⟨hjournal, hkept, Or.inr ⟨c.2.name, e, rfl⟩⟩

/-! ## Whole batches -/

/-- The plugins report these descriptors when they are asked in turn, no name twice. -/
def Presents (P : Plugins ω) (plugins : List Instance) (h : Host ω) (batch : List Candidate) :
    Prop :=
  (h.describeAll P [] plugins).1 = .ok batch ∧ batch.map (·.1) = plugins ∧
    (batch.map (·.2.name)).Nodup

/-- How the registration of a batch ends, the calls that it made and the host that it leaves. -/
inductive BatchEnd (P : Plugins ω) (plugins : List Instance) (h : Host ω) :
    Except Stop Unit → List Call → Host ω → Prop where
  | refused {e : RegistryError} (he : e.kind ∈ checkKinds) (world : ω) :
      BatchEnd P plugins h (.error (.refused e)) [] { h with world }
  | undone {batch ordered : List Candidate} {name : String} {e : PluginError}
      {calls : List Call} {k : Host ω} (hbatch : h.Presents P plugins batch)
      (hperm : ordered.Perm batch) (hrecords : k.records = h.records)
      (hrouter : k.router = h.router) (htables : k.tables = h.tables)
      (hundone : Undone [] ordered calls) :
      BatchEnd P plugins h (.error (.refused (.lifecycle name .init e))) calls k
  | panicked {m : String} {calls : List Call} {k : Host ω}
      (hcall : ∃ c ∈ calls, c.outcome = .panicked m) :
      BatchEnd P plugins h (.error (.panicked m)) calls k
  | registered {batch : List Candidate} {result : Except Stop Unit} {calls : List Call}
      {k : Host ω} (hbatch : h.Presents P plugins batch) (hheld : ∀ c ∈ batch, k.Holds c)
      (hend : result = .ok () ∨ ∃ name e, result = .error (.refused (.routeBinding name e))) :
      BatchEnd P plugins h result calls k

theorem registerPlugins_ends (P : Plugins ω) (plugins : List Instance) (h : Host ω) :
    ∃ calls, (h.registerPlugins P plugins).2.journal = calls.reverse ++ h.journal ∧
      BatchEnd P plugins h (h.registerPlugins P plugins).1 calls
        (h.registerPlugins P plugins).2 := by
  obtain ⟨world, hworld⟩ := describeAll_eq P [] plugins h
  unfold registerPlugins
  split
  · rename_i e k heq
    rw [heq] at hworld
    subst hworld
    exact ⟨[], rfl, .refused (kind_of_describeAll (congrArg Prod.fst heq)) world⟩
  rename_i batch k heq
  rw [heq] at hworld
  subst hworld
  obtain ⟨hplugins, hnames, -⟩ := describeAll_of_ok (congrArg Prod.fst heq)
  have hbatch : h.Presents P plugins batch := ⟨congrArg Prod.fst heq, hplugins, hnames⟩
  split
  · rename_i e herror
    exact ⟨[], rfl, .refused (kind_of_batchOrder herror) world⟩
  rename_i ordered hordered
  have hperm := (batchOrder_perm hnames hordered).1
  split
  · rename_i e herror
    exact ⟨[], rfl, .refused (kind_of_allAdmissible herror) world⟩
  rename_i hall
  obtain ⟨calls, hcalls, hend⟩ := enrolAll_stacked (P := P) (h := { h with world }) .nil
    (fresh_of_allAdmissible hall) ((hperm.map _).nodup_iff.2 hnames)
  rw [List.map_nil] at hcalls hend
  generalize enrolAll P [] ordered { h with world } = enrolled at hcalls hend
  obtain ⟨result, k⟩ := enrolled
  rcases hend with ⟨rfl, hstacked⟩ | ⟨⟨name, e, rfl⟩, hrecords, hundone⟩ | ⟨m, rfl, hpanic⟩
  · have hheld : ∀ c ∈ ordered, k.Holds c := by
      intro c hc
      obtain ⟨routes, hget⟩ := hstacked.get? (List.mem_append_left [] (List.mem_reverse.2 hc))
      exact ⟨_, hget, rfl, rfl, rfl⟩
    obtain ⟨hjournal, hkept, hbound⟩ := bindEach_holds (P := P) hheld
    exact ⟨calls, hjournal.trans hcalls.journal,
      .registered hbatch (fun c hc => hkept c (hheld c (hperm.symm.subset hc))) hbound⟩
  · exact ⟨calls, hcalls.journal,
      .undone hbatch hperm hrecords hcalls.router hcalls.tables hundone⟩
  · exact ⟨calls, hcalls.journal, .panicked hpanic⟩

/-- A batch is registered as a whole or not at all. When no callback panics, a refusal other
than of a route leaves records, router and tables as they were: either no plugin was called, or
one failed and those initialised before it were shut down again, once each and in reverse.
Otherwise all members are registered and enabled. -/
theorem registerPlugins_all_or_none (P : Plugins ω) (plugins : List Instance) (h : Host ω) :
    ∃ calls, (h.registerPlugins P plugins).2.journal = calls.reverse ++ h.journal ∧
      (∀ m, (h.registerPlugins P plugins).1 = .error (.panicked m) →
        ∃ c ∈ calls, c.outcome = .panicked m) ∧
      (∀ e, (h.registerPlugins P plugins).1 = .error (.refused e) → e.kind ≠ "RouteBinding" →
        (h.registerPlugins P plugins).2.records = h.records ∧
        (h.registerPlugins P plugins).2.router = h.router ∧
        (h.registerPlugins P plugins).2.tables = h.tables ∧
        (e.kind ∈ checkKinds ∧ calls = [] ∨
          e.kind = "Lifecycle" ∧ ∃ batch ordered, h.Presents P plugins batch ∧
            ordered.Perm batch ∧ Undone [] ordered calls)) ∧
      ((h.registerPlugins P plugins).1 = .ok () ∨
          (∃ e, (h.registerPlugins P plugins).1 = .error (.refused e) ∧
            e.kind = "RouteBinding") →
        ∃ batch, h.Presents P plugins batch ∧
          ∀ c ∈ batch, (h.registerPlugins P plugins).2.Holds c) := by
  obtain ⟨calls, hjournal, hend⟩ := registerPlugins_ends P plugins h
  refine ⟨calls, hjournal, ?_⟩
  clear hjournal
  generalize h.registerPlugins P plugins = ended at hend
  obtain ⟨result, k⟩ := ended
  cases hend with
  | refused he world =>
    refine ⟨by simp, fun e heq _ => ?_, fun hbound => ?_⟩
    · cases heq
      exact ⟨rfl, rfl, rfl, Or.inl ⟨he, rfl⟩⟩
    · obtain ⟨e, heq, hkind⟩ : ∃ e', _ = Except.error (Stop.refused e') ∧ _ :=
        hbound.resolve_left (by simp)
      cases heq
      rw [hkind] at he
      simp [checkKinds] at he
  | undone hbatch hperm hrecords hrouter htables hundone =>
    refine ⟨by simp, fun e heq _ => ?_, by simp [RegistryError.kind]⟩
    cases heq
    exact ⟨hrecords, hrouter, htables, Or.inr ⟨rfl, _, _, hbatch, hperm, hundone⟩⟩
  | panicked hcall =>
    refine ⟨fun m heq => ?_, by simp, by simp⟩
    cases heq
    exact hcall
  | registered hbatch hheld hbound =>
    refine ⟨fun m heq => ?_, fun e heq hkind => ?_, fun _ => ⟨_, hbatch, hheld⟩⟩
    · rcases hbound with rfl | ⟨name, e, rfl⟩ <;> cases heq
    · rcases hbound with rfl | ⟨name, e, rfl⟩ <;> cases heq
      exact absurd rfl hkind

end

end Host

end PluginHost
