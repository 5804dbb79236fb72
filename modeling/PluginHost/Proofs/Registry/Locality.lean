import PluginHost.Proofs.Registry.Balance
import PluginHost.Proofs.Registry.Batch
import PluginHost.Proofs.Registry.Replacement

/-!
# Operations on one name

To register, replace or evict a plugin is to work on one name, and the records of all other
names are as they were. What becomes of the name itself depends on the plugin's callbacks;
`Quiet` says that none of them panicked, so that the operation came to its end.

* `SettleEnd`, `settle_ends`: the ways in which an admission ends.
* `spares_evict`, `SettleEnd.spares`, `spares_replace`: the other names.
* `replace_ends`: the old plugin is shut down once and gone, and either the new one has the name
  or nobody has.
-/
namespace PluginHost

variable {ω : Type}

namespace Host

/-- Every record but that of the name is as it was. -/
def Spares (name : String) (h k : Host ω) : Prop :=
  ∀ n, n ≠ name → k.records.get? n = h.records.get? n

/-- None of the calls that were made between two hosts panicked. -/
def Quiet (h k : Host ω) : Prop :=
  ∃ calls, k.journal = calls ++ h.journal ∧ ∀ c ∈ calls, c.outcome.returned = true

/-- How the admission of a plugin that was asked what it is ends, and the host it leaves. -/
inductive SettleEnd (P : Plugins ω) (plugin : Instance) (d : Descriptor) (enabled : Bool)
    (h : Host ω) : Except Stop Unit → Host ω → Prop where
  | refused {e : RegistryError} (ha : ¬ Admissible h.records [] d) :
      SettleEnd P plugin d enabled h (.error (.refused e)) h
  | turnedAway {outcome : Outcome} {world : ω} (ha : Admissible h.records [] d)
      (hcall : P.callback .init plugin (P.attach plugin h.world) = (outcome, world))
      (ho : outcome ≠ .ok) :
      SettleEnd P plugin d enabled h (outcome.result d.name .init)
        (h.initialised plugin d enabled outcome world)
  | entered {result : Except Stop Unit} {k : Host ω} {r : Record} {world : ω}
      (ha : Admissible h.records [] d)
      (hcall : P.callback .init plugin (P.attach plugin h.world) = (.ok, world))
      (hresult : ∀ m, result ≠ .error (.panicked m))
      (hr : k.records.get? d.name = some r) (hplugin : r.plugin = plugin)
      (hdescriptor : r.descriptor = d) (henabled : r.enabled = enabled)
      (hspares : Spares d.name h k)
      (hjournal : k.journal = (h.initialised plugin d enabled .ok world).journal) :
      SettleEnd P plugin d enabled h result k

section
variable {P : Plugins ω} {h k l : Host ω} {name : String} {plugin : Instance} {d : Descriptor}
  {enabled : Bool} {old : Record}

/-! ## Calls that return -/

/-- Of two stretches of calls that were made without a panic, each was. -/
theorem Quiet.split (hquiet : Quiet h l) (hhk : h.journal <:+ k.journal)
    (hkl : k.journal <:+ l.journal) : Quiet h k ∧ Quiet k l := by
  obtain ⟨calls, hcalls, hreturned⟩ := hquiet
  obtain ⟨first, hfirst⟩ := hhk
  obtain ⟨rest, hrest⟩ := hkl
  obtain rfl : calls = rest ++ first := by
    rw [← hfirst, hcalls, ← List.append_assoc] at hrest
    exact (List.append_cancel_right hrest).symm
  exact ⟨⟨first, hfirst.symm, fun c hc => hreturned c (List.mem_append_right _ hc)⟩,
    rest, hrest.symm, fun c hc => hreturned c (List.mem_append_left _ hc)⟩

theorem Quiet.of_journal (hquiet : Quiet h k) (hjournal : l.journal = k.journal) : Quiet h l := by
  obtain ⟨calls, hcalls, hreturned⟩ := hquiet
  exact ⟨calls, hjournal.trans hcalls, hreturned⟩

/-- The last call is among those that did not panic. -/
theorem Quiet.returned (hquiet : Quiet h k) {c : Call} (hk : k.journal = c :: l.journal)
    (hl : h.journal <:+ l.journal) : c.outcome.returned = true := by
  obtain ⟨calls, hcalls, hreturned⟩ := hquiet
  obtain ⟨between, hbetween⟩ := hl
  rw [hk, ← hbetween, ← List.cons_append] at hcalls
  exact hreturned c (List.append_cancel_right hcalls ▸ List.mem_cons_self)

theorem shutdownsOf_of_journal (hjournal : k.journal = h.journal) (p : Instance) :
    k.shutdownsOf p = h.shutdownsOf p := by
  rw [shutdownsOf, hjournal, shutdownsOf]

theorem shutdownsOf_initialised (h : Host ω) (plugin : Instance) (d : Descriptor) (enabled : Bool)
    (outcome : Outcome) (world : ω) (p : Instance) :
    (h.initialised plugin d enabled outcome world).shutdownsOf p = h.shutdownsOf p := by
  rw [initialised, shutdownsOf_called, shutdownsOf_called]
  simp

theorem shutdownsOf_evicted (h : Host ω) (name : String) (r : Record) {outcome : Outcome}
    (hreturned : outcome.returned = true) (world : ω) (p : Instance) :
    (h.evicted name r outcome world).shutdownsOf p =
      h.shutdownsOf p + if r.plugin = p then 1 else 0 := by
  change (h.recalled .shutdown r outcome world).shutdownsOf p = _
  rw [recalled, shutdownsOf_called]
  simp [hreturned]

/-! ## Other names -/

theorem Spares.refl (name : String) (h : Host ω) : Spares name h h :=
  fun _ _ => rfl

theorem Spares.trans (hhk : Spares name h k) (hkl : Spares name k l) : Spares name h l :=
  fun n hn => (hkl n hn).trans (hhk n hn)

theorem Spares.contains (hs : Spares name h k) {n : String} (hn : n ≠ name) :
    k.contains n = h.contains n := by
  rw [Host.contains, NameMap.contains, hs n hn]
  rfl

theorem spares_evict (P : Plugins ω) (name : String) (h : Host ω) :
    Spares name h (h.evict P name).2 := by
  cases hr : h.records.get? name with
  | none =>
    rw [evict_of_none hr]
    exact .refl name h
  | some r =>
    obtain ⟨-, -, hrecords | ⟨hrecords, -⟩⟩ := evict_leaves P hr
    · intro n hn
      rw [hrecords, NameMap.get?_erase, if_neg hn]
    · intro n _
      rw [hrecords]

/-- A registered plugin that is evicted without a panic is shut down once and has no record. -/
theorem evict_ends (hold : h.records.get? name = some old) (hquiet : Quiet h (h.evict P name).2) :
    (∀ m, (h.evict P name).1 ≠ .error (.panicked m)) ∧
      (h.evict P name).2.records.get? name = none ∧
      ∀ p, (h.evict P name).2.shutdownsOf p =
        h.shutdownsOf p + if old.plugin = p then 1 else 0 := by
  rcases hcall : P.callback .shutdown old.plugin h.world with ⟨outcome, world⟩
  by_cases ho : ∀ m, outcome ≠ .panicked m
  · rw [evict_of_some hold hcall ho]
    refine ⟨?_, (NameMap.get?_erase _ _ _).trans (if_pos rfl),
      shutdownsOf_evicted h name old (returned_eq_true_iff.2 ho) world⟩
    cases outcome with
    | ok => simp [Outcome.result]
    | failed e => simp [Outcome.result]
    | panicked m => exact absurd rfl (ho m)
  · obtain ⟨m, rfl⟩ : ∃ m, outcome = .panicked m := by simpa using ho
    rw [evict_of_panicked hold hcall] at hquiet
    cases hquiet.returned (l := h) rfl (List.suffix_refl _)

theorem spares_enter (h : Host ω) (plugin : Instance) (d : Descriptor) (enabled : Bool)
    (routes : List Route) : Spares d.name h (h.enter plugin d enabled routes) :=
  fun _ hn => (NameMap.get?_insert _ _ _ _).trans (if_neg hn)

theorem spares_bindRoutes (P : Plugins ω) (name : String) (h : Host ω) :
    Spares name h (h.bindRoutes P name).2 := by
  unfold bindRoutes
  split
  · exact .refl name h
  split
  · exact .refl name h
  simp only
  split
  · exact .refl name h
  · intro n hn
    rw [modify_records, NameMap.get?_modify, if_neg hn]

/-! ## Admissions -/

theorem settle_ends (P : Plugins ω) (plugin : Instance) (d : Descriptor) (enabled : Bool)
    (h : Host ω) : SettleEnd P plugin d enabled h (h.settle P plugin d enabled).1
      (h.settle P plugin d enabled).2 := by
  unfold settle
  split
  · rename_i e he
    refine .refused fun ha => ?_
    rw [admissible_eq_ok_iff.2 ha] at he
    cases he
  rename_i hadmissible
  have ha := admissible_eq_ok_iff.1 hadmissible
  rcases hcall : P.callback .init plugin (P.attach plugin h.world) with ⟨outcome, world⟩
  by_cases ho : outcome = .ok
  · subst ho
    rw [enrol_of_ok hcall]
    generalize P.routes plugin world = asked
    have hspares : Spares d.name h ((h.initialised plugin d enabled .ok asked.2).enter plugin d
        enabled asked.1) := spares_enter _ plugin d enabled asked.1
    have hentered : ((h.initialised plugin d enabled .ok asked.2).enter plugin d enabled
        asked.1).records.get? d.name = some ⟨plugin, d, asked.1, enabled, false⟩ :=
      (NameMap.get?_insert _ _ _ _).trans (if_pos rfl)
    cases enabled with
    | false => exact .entered ha hcall (by simp) hentered rfl rfl rfl hspares rfl
    | true =>
      obtain ⟨hjournal, hheld⟩ := bindRoutes_holds P d.name
        ((h.initialised plugin d true .ok asked.2).enter plugin d true asked.1)
      obtain ⟨r, hr, hplugin, hdescriptor, henabled⟩ :=
        hheld (plugin, d) ⟨_, hentered, rfl, rfl, rfl⟩
      refine .entered ha hcall (fun m => ?_) hr hplugin hdescriptor henabled
        (hspares.trans (spares_bindRoutes P d.name _)) hjournal
      simp only [if_true]
      rcases bindRoutes_ends (P := P) hentered with hok | ⟨e, hrejected⟩
      · simp [hok]
      · simp [hrejected]
  · rw [enrol_of_ne_ok hcall ho]
    have hend : SettleEnd P plugin d enabled h _ _ := .turnedAway ha hcall ho
    cases outcome with
    | ok => exact absurd rfl ho
    | failed e => exact hend
    | panicked m => exact hend

theorem SettleEnd.spares {result : Except Stop Unit}
    (hend : SettleEnd P plugin d enabled h result k) : Spares d.name h k := by
  cases hend with
  | refused => exact .refl _ _
  | turnedAway => exact .refl _ _
  | entered _ _ _ _ _ _ _ hspares => exact hspares

theorem SettleEnd.journal_suffix {result : Except Stop Unit}
    (hend : SettleEnd P plugin d enabled h result k) : h.journal <:+ k.journal := by
  have hcalled : ∀ outcome world,
      h.journal <:+ (h.initialised plugin d enabled outcome world).journal :=
    fun _ _ => (List.suffix_cons _ _).trans (List.suffix_cons _ _)
  cases hend with
  | refused => exact List.suffix_refl _
  | turnedAway => exact hcalled _ _
  | entered _ _ _ _ _ _ _ _ hjournal => exact hjournal ▸ hcalled _ _

theorem SettleEnd.shutdownsOf {result : Except Stop Unit}
    (hend : SettleEnd P plugin d enabled h result k) (p : Instance) :
    k.shutdownsOf p = h.shutdownsOf p := by
  cases hend with
  | refused => rfl
  | turnedAway => exact shutdownsOf_initialised h plugin d enabled _ _ p
  | entered _ _ _ _ _ _ _ _ hjournal =>
    exact (shutdownsOf_of_journal hjournal p).trans
      (shutdownsOf_initialised h plugin d enabled .ok _ p)

theorem SettleEnd.not_panicked {result : Except Stop Unit}
    (hend : SettleEnd P plugin d enabled h result k) (hquiet : Quiet h k) (m : String) :
    result ≠ .error (.panicked m) := by
  cases hend with
  | refused => simp
  | @turnedAway outcome world =>
    have hreturned : outcome.returned = true :=
      hquiet.returned (l := h.called .attach plugin d enabled .ok world) rfl (List.suffix_cons _ _)
    cases outcome with
    | ok => simp [Outcome.result]
    | failed e => simp [Outcome.result]
    | panicked => cases hreturned
  | entered _ _ hresult => exact hresult m

/-- When no call panicked, a plugin that has no record afterwards was refused. -/
theorem SettleEnd.of_quiet {result : Except Stop Unit}
    (hend : SettleEnd P plugin d enabled h result k) (hfresh : h.records.get? d.name = none)
    (hquiet : Quiet h k) :
    (∃ e, result = .error (.refused e)) ∧ k.records.get? d.name = none ∨
      ∃ r, k.records.get? d.name = some r ∧ r.plugin = plugin ∧ r.descriptor = d ∧
        r.enabled = enabled := by
  have hreturned := hend.not_panicked hquiet
  cases hend with
  | @refused e => exact Or.inl ⟨⟨e, rfl⟩, hfresh⟩
  | @turnedAway outcome world ha hcall ho =>
    cases outcome with
    | ok => exact absurd rfl ho
    | failed e => exact Or.inl ⟨⟨_, rfl⟩, hfresh⟩
    | panicked m => exact absurd rfl (hreturned m)
  | entered _ _ _ hr hplugin hdescriptor henabled =>
    exact Or.inr ⟨_, hr, hplugin, hdescriptor, henabled⟩

/-- A plugin that was not refused has a record, unless a call panicked. -/
theorem SettleEnd.present (hend : SettleEnd P plugin d enabled h (.ok ()) k) :
    k.contains d.name = true := by
  generalize hresult : (Except.ok () : Except Stop Unit) = result at hend
  cases hend with
  | refused => cases hresult
  | @turnedAway outcome _ _ _ ho => cases outcome with
    | ok => exact absurd rfl ho
    | failed e => cases hresult
    | panicked m => cases hresult
  | entered _ _ _ hr => exact NameMap.contains_iff.2 ⟨_, hr⟩

/-- Every record stays as it is when a plugin is admitted. -/
theorem SettleEnd.retains {result : Except Stop Unit}
    (hend : SettleEnd P plugin d enabled h result k) {n : String} {r : Record}
    (hr : h.records.get? n = some r) : k.records.get? n = some r := by
  by_cases heq : n = d.name
  · cases hend with
    | refused => exact hr
    | turnedAway => exact hr
    | entered ha =>
      rw [heq, get?_eq_none_of_fresh ha.fresh] at hr
      cases hr
  · exact (hend.spares n heq).trans hr

/-- Who was not registered before is enabled as it was said. -/
theorem SettleEnd.enabled_eq {result : Except Stop Unit}
    (hend : SettleEnd P plugin d enabled h result k) {n : String} {r : Record}
    (hfree : h.records.get? n = none) (hr : k.records.get? n = some r) : r.enabled = enabled := by
  cases hend with
  | refused =>
    rw [hfree] at hr
    cases hr
  | turnedAway =>
    rw [initialised_records, hfree] at hr
    cases hr
  | entered _ _ _ hentered _ _ henabled hspares =>
    by_cases heq : n = d.name
    · rw [heq, hentered] at hr
      cases hr
      exact henabled
    · rw [hspares n heq, hfree] at hr
      cases hr

/-- A registration is the admission of a plugin as enabled, after it was asked what it is. -/
theorem register_ends {world : ω} (hcall : P.descriptor plugin h.world = (d, world)) :
    SettleEnd P plugin d true { h with world } (h.register P plugin).1
      (h.register P plugin).2 := by
  rw [register_eq_settle hcall]
  exact settle_ends P plugin d true { h with world }

/-! ## Replacements -/

theorem spares_replace (P : Plugins ω) (name : String) (old : Record) (plugin : Instance)
    (h : Host ω) : Spares name h (h.replace P name old plugin).2 := by
  rcases hcall : P.descriptor plugin h.world with ⟨d, asked⟩
  by_cases hname : d.name = name
  · subst hname
    rw [replace_eq_settle hcall rfl]
    have hevict : Spares d.name h (evict P d.name { h with world := asked }).2 :=
      spares_evict P d.name { h with world := asked }
    generalize evict P d.name { h with world := asked } = evicted at *
    obtain ⟨result, k⟩ := evicted
    cases result with
    | error s => exact hevict
    | ok => exact hevict.trans (settle_ends P plugin d old.enabled k).spares
  · rw [replace_of_renamed hcall hname]
    exact .refl name h

/-- However a replacement ends, who has the name then is enabled as the old plugin was. -/
theorem enabled_replace (hold : h.records.get? name = some old) {r : Record}
    (hr : (h.replace P name old plugin).2.records.get? name = some r) :
    r.enabled = old.enabled := by
  rcases hcall : P.descriptor plugin h.world with ⟨d, asked⟩
  by_cases hname : d.name = name
  · subst hname
    rw [replace_eq_settle hcall rfl] at hr
    obtain ⟨-, -, hrecords⟩ := evict_leaves (h := { h with world := asked }) P hold
    generalize evict P d.name { h with world := asked } = left at *
    obtain ⟨result, k⟩ := left
    have hfree : k.records = h.records.erase d.name → k.records.get? d.name = none := fun heq => by
      rw [heq, NameMap.get?_erase, if_pos rfl]
    cases result with
    | error s =>
      rcases hrecords with hrecords | ⟨hrecords, -⟩
      · rw [hfree hrecords] at hr
        cases hr
      · rw [hrecords, hold] at hr
        cases hr
        rfl
    | ok =>
      exact (settle_ends P plugin d old.enabled k).enabled_eq
        (hfree (hrecords.resolve_right (by simp))) hr
  · rw [replace_of_renamed hcall hname, hold] at hr
    cases hr
    rfl

/-- A replacement by a plugin that reports the name, when no call panicked: the old plugin is
shut down once, and either the replacement is refused and the name is free, or the new plugin
has the name and is enabled as the old one was. -/
theorem replace_ends {asked : ω} (hold : h.records.get? name = some old)
    (hcall : P.descriptor plugin h.world = (d, asked)) (hname : d.name = name)
    (hquiet : Quiet h (h.replace P name old plugin).2) :
    (∀ p, (h.replace P name old plugin).2.shutdownsOf p =
        h.shutdownsOf p + if old.plugin = p then 1 else 0) ∧
      ((∃ e, (h.replace P name old plugin).1 = .error (.refused e)) ∧
          (h.replace P name old plugin).2.records.get? name = none ∨
        ∃ r, (h.replace P name old plugin).2.records.get? name = some r ∧ r.plugin = plugin ∧
          r.descriptor = d ∧ r.enabled = old.enabled) := by
  subst hname
  rw [replace_eq_settle hcall rfl] at hquiet ⊢
  rcases hshutdown : P.callback .shutdown old.plugin asked with ⟨outcome, gone⟩
  have hgone : (evicted { h with world := asked } d.name old outcome gone).records.get? d.name =
      none := (NameMap.get?_erase _ _ _).trans (if_pos rfl)
  have hcounted : outcome.returned = true → ∀ p,
      (evicted { h with world := asked } d.name old outcome gone).shutdownsOf p =
        h.shutdownsOf p + if old.plugin = p then 1 else 0 :=
    fun hreturned p => shutdownsOf_evicted { h with world := asked } d.name old hreturned gone p
  cases outcome with
  | ok =>
    rw [evict_of_some (h := { h with world := asked }) hold hshutdown (by simp)] at hquiet ⊢
    have hend := settle_ends P plugin d old.enabled
      (evicted { h with world := asked } d.name old .ok gone)
    obtain ⟨-, hquiet⟩ := hquiet.split
      (k := evicted { h with world := asked } d.name old .ok gone) (List.suffix_cons _ _)
      hend.journal_suffix
    exact ⟨fun p => (hend.shutdownsOf p).trans (hcounted rfl p), hend.of_quiet hgone hquiet⟩
  | failed e =>
    rw [evict_of_some (h := { h with world := asked }) hold hshutdown (by simp)]
    exact ⟨hcounted rfl, Or.inl ⟨⟨_, rfl⟩, hgone⟩⟩
  | panicked m =>
    rw [evict_of_panicked (h := { h with world := asked }) hold hshutdown] at hquiet
    cases hquiet.returned (l := h) rfl (List.suffix_refl _)

/-- A replacement during which no call panicked is refused, or the name has a record. -/
theorem refused_or_present (hold : h.records.get? name = some old)
    (hquiet : Quiet h (h.replace P name old plugin).2) :
    (∃ e, (h.replace P name old plugin).1 = .error (.refused e)) ∨
      (h.replace P name old plugin).2.contains name = true := by
  rcases hcall : P.descriptor plugin h.world with ⟨d, asked⟩
  by_cases hname : d.name = name
  · obtain ⟨-, ⟨hrefused, -⟩ | ⟨r, hr, -⟩⟩ := replace_ends hold hcall hname hquiet
    · exact Or.inl hrefused
    · exact Or.inr (NameMap.contains_iff.2 ⟨r, hr⟩)
  · rw [replace_of_renamed hcall hname]
    exact Or.inl ⟨_, rfl⟩

end

end Host

end PluginHost
