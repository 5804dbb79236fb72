import Mathlib.Data.Setoid.Basic
import PluginHost.Proofs.Registry.Coherence

/-!
# Replacing a plugin

To replace an enabled plugin is to unregister it and, if that was granted, to register the new
one: the answer, the records, the tables and the calls of plugins are the same. To replace a
disabled plugin is to do so without a router, save that the new plugin is disabled in the end and
the router stays. The one difference is when the new plugin is asked what it is: a replacement
asks before the old plugin is shut down. So the two are compared for a plugin that reports the
same each time, and up to what the question leaves behind in the world, which no plugin may
notice.

* `Host.settle`: the half that a replacement and a registration have in common.
* `settle_of_ok`, `replace_of_ok`, `renew_of_ok`: what is known of a replacement that was granted.
* `Twin.evict`, `Identical.settle`: the same operation on two hosts that plugins cannot tell
  apart.
* `absent_of_settle`: when the new plugin is refused, it has no record.
* `renew_refines`: replacement against unregistering and registering, and its refusals.
-/
namespace PluginHost

variable {ω : Type}

/-- A relation of worlds that plugins cannot tell apart: whatever the host calls a plugin for
answers the same in both and leaves two such worlds behind. -/
structure Plugins.Indistinct (P : Plugins ω) (s : Setoid ω) : Prop where
  attach : ∀ plugin v w, s v w → s (P.attach plugin v) (P.attach plugin w)
  callback : ∀ stage plugin v w, s v w →
    (P.callback stage plugin v).1 = (P.callback stage plugin w).1 ∧
      s (P.callback stage plugin v).2 (P.callback stage plugin w).2
  routes : ∀ plugin v w, s v w → (P.routes plugin v).1 = (P.routes plugin w).1 ∧
    s (P.routes plugin v).2 (P.routes plugin w).2
  middlewares : ∀ plugin v w, s v w → (P.middlewares plugin v).1 = (P.middlewares plugin w).1 ∧
    s (P.middlewares plugin v).2 (P.middlewares plugin w).2

theorem Plugins.Indistinct.callback_of {P : Plugins ω} {s : Setoid ω} (hP : P.Indistinct s)
    {stage : Stage} {plugin : Instance} {v w next : ω} (hvw : s v w) {outcome : Outcome}
    (hcall : P.callback stage plugin v = (outcome, next)) :
    ∃ next', P.callback stage plugin w = (outcome, next') ∧ s next next' := by
  obtain ⟨hsame, hnext⟩ := hP.callback stage plugin v w hvw
  rw [hcall] at hsame hnext
  exact ⟨(P.callback stage plugin w).2, Prod.ext hsame.symm rfl, hnext⟩

/-- No plugin tells a world from itself. -/
theorem Plugins.indistinct_eq (P : Plugins ω) : P.Indistinct ⟨Eq, eq_equivalence⟩ where
  attach plugin _ _ hvw := congrArg (P.attach plugin) hvw
  callback stage plugin _ _ hvw :=
    ⟨congrArg (P.callback stage plugin · |>.1) hvw, congrArg (P.callback stage plugin · |>.2) hvw⟩
  routes plugin _ _ hvw :=
    ⟨congrArg (P.routes plugin · |>.1) hvw, congrArg (P.routes plugin · |>.2) hvw⟩
  middlewares plugin _ _ hvw :=
    ⟨congrArg (P.middlewares plugin · |>.1) hvw, congrArg (P.middlewares plugin · |>.2) hvw⟩

/-- The plugin reports the descriptor every time, and nobody notices that it was asked. -/
def Plugins.Reports (P : Plugins ω) (s : Setoid ω) (plugin : Instance) (d : Descriptor) : Prop :=
  ∀ w, (P.descriptor plugin w).1 = d ∧ s w (P.descriptor plugin w).2

/-- The call, whatever was to become of the plugin. -/
def Call.bare (c : Call) : Call :=
  { c with enabled := false }

namespace Host

/-! ## Replacement and registration -/

/-- Replaces a plugin with a fresh instance, or with the same one. -/
def renew (P : Plugins ω) (name : String) (fresh : Option Instance) (h : Host ω) :
    Except Stop Unit × Host ω :=
  match fresh with
  | none => h.reload P name
  | some plugin => h.reloadWith P name plugin

/-- Unregisters a plugin and, only if that was granted, registers an instance. -/
def anew (P : Plugins ω) (name : String) (plugin : Instance) (h : Host ω) :
    Except Stop Unit × Host ω :=
  match h.unregister P name with
  | (.error s, h) => (.error s, h)
  | (.ok (), h) => h.register P plugin

/-- Checks a plugin that was asked what it is, admits it, and binds its routes if it is
enabled. -/
def settle (P : Plugins ω) (plugin : Instance) (d : Descriptor) (enabled : Bool) (h : Host ω) :
    Except Stop Unit × Host ω :=
  match admissible h.records [] d with
  | .error e => (.error (.refused e), h)
  | .ok () =>
    match h.enrol P plugin d enabled with
    | (.error s, h) => (.error s, h)
    | (.ok (), h) => if enabled then h.bindRoutes P d.name else (.ok (), h)

/-- The same descriptors under the same names, save that a name has the given one. -/
def Exchanged (h : Host ω) (name : String) (d : Descriptor) (k : Host ω) : Prop :=
  ∀ n, (k.records.get? n).map (·.descriptor) =
    if n = name then some d else (h.records.get? n).map (·.descriptor)

section
variable {P : Plugins ω} {h k : Host ω} {plugin : Instance} {d : Descriptor} {name : String}
  {old : Record} {world : ω}

theorem register_eq_settle (hcall : P.descriptor plugin h.world = (d, world)) :
    h.register P plugin = settle P plugin d true { h with world } := by
  rw [register, describe_of_eq hcall]
  rfl

theorem replace_of_renamed (hcall : P.descriptor plugin h.world = (d, world))
    (hname : d.name ≠ name) : h.replace P name old plugin =
      (.error (.refused (.renamed name d.name)), { h with world }) := by
  rw [replace, describe_of_eq hcall]
  exact if_pos hname

theorem replace_eq_settle (hcall : P.descriptor plugin h.world = (d, world))
    (hname : d.name = name) : h.replace P name old plugin =
      match evict P name { h with world } with
      | (.error s, k) => (.error s, k)
      | (.ok (), k) => k.settle P plugin d old.enabled := by
  subst hname
  rw [replace, describe_of_eq hcall]
  exact if_neg fun hne => hne rfl

theorem renew_of_none (hold : h.records.get? name = none) (fresh : Option Instance) :
    h.renew P name fresh = (.error (.refused (.notFound name)), h) := by
  cases fresh with
  | none => rw [renew, reload, hold]
  | some plugin => rw [renew, reloadWith, hold]

theorem renew_of_some (hold : h.records.get? name = some old) (fresh : Option Instance) :
    h.renew P name fresh = h.replace P name old (fresh.getD old.plugin) := by
  cases fresh with
  | none =>
    rw [renew, reload, hold]
    rfl
  | some plugin =>
    rw [renew, reloadWith, hold]
    rfl

/-! ## What was granted -/

/-- A plugin that was admitted without refusal: it was admissible and initialised with success,
and if it is enabled, its routes were bound. -/
theorem settle_of_ok {enabled : Bool} (hok : h.settle P plugin d enabled = (.ok (), k)) :
    Admissible h.records [] d ∧ ∃ world,
      (if enabled then
        bindRoutes P d.name ((h.initialised plugin d enabled .ok (P.routes plugin world).2).enter
          plugin d enabled (P.routes plugin world).1)
      else
        (.ok (), (h.initialised plugin d enabled .ok (P.routes plugin world).2).enter plugin d
          enabled (P.routes plugin world).1)) = (.ok (), k) := by
  unfold settle at hok
  split at hok
  · cases hok
  rename_i hadmissible
  refine ⟨admissible_eq_ok_iff.1 hadmissible, ?_⟩
  rcases hcall : P.callback .init plugin (P.attach plugin h.world) with ⟨outcome, world⟩
  cases outcome with
  | ok =>
    rw [enrol_of_ok hcall] at hok
    exact ⟨world, hok⟩
  | failed e =>
    rw [enrol_of_ne_ok hcall (by simp)] at hok
    cases hok
  | panicked m =>
    rw [enrol_of_ne_ok hcall (by simp)] at hok
    cases hok

/-- A replacement that was granted: the new plugin reports the name, the old one was shut down
with success, and the new one was admitted without refusal. -/
theorem replace_of_ok (hold : h.records.get? name = some old)
    (hok : h.replace P name old plugin = (.ok (), k)) :
    ∃ d asked gone, P.descriptor plugin h.world = (d, asked) ∧ d.name = name ∧
      settle P plugin d old.enabled (evicted { h with world := asked } name old .ok gone) =
        (.ok (), k) := by
  rcases hcall : P.descriptor plugin h.world with ⟨d, asked⟩
  by_cases hname : d.name = name
  · rw [replace_eq_settle hcall hname] at hok
    rcases hshutdown : P.callback .shutdown old.plugin asked with ⟨outcome, gone⟩
    cases outcome with
    | ok =>
      rw [evict_of_some (h := { h with world := asked }) hold hshutdown (by simp)] at hok
      exact ⟨d, asked, gone, rfl, hname, hok⟩
    | failed e =>
      rw [evict_of_some (h := { h with world := asked }) hold hshutdown (by simp)] at hok
      cases hok
    | panicked m =>
      rw [evict_of_panicked (h := { h with world := asked }) hold hshutdown] at hok
      cases hok
  · rw [replace_of_renamed hcall hname] at hok
    cases hok

theorem exchanged_of_settle {enabled : Bool} (hok : h.settle P plugin d enabled = (.ok (), k)) :
    Exchanged h d.name d k := by
  intro n
  obtain ⟨-, world, hbound⟩ := settle_of_ok hok
  have hentered : ∀ routes, (((h.initialised plugin d enabled .ok (P.routes plugin world).2).enter
      plugin d enabled routes).records.get? n).map (·.descriptor) =
        if n = d.name then some d else (h.records.get? n).map (·.descriptor) := by
    intro routes
    rw [enter_records, NameMap.get?_insert, initialised_records]
    split
    · rfl
    · rfl
  cases enabled with
  | false =>
    cases hbound
    exact hentered _
  | true =>
    have hkept := bindRoutes_descriptor P d.name ((h.initialised plugin d true .ok
      (P.routes plugin world).2).enter plugin d true (P.routes plugin world).1) n
    rw [if_pos rfl] at hbound
    rw [hbound] at hkept
    exact hkept.trans (hentered _)

/-- A replacement that was granted put a plugin that was admissible next to the others in the
place of the old one, and left the descriptors of the others alone. -/
theorem renew_of_ok {fresh : Option Instance} (hok : h.renew P name fresh = (.ok (), k)) :
    ∃ old d, h.records.get? name = some old ∧ d.name = name ∧
      Admissible (h.records.erase name) [] d ∧ Exchanged h name d k := by
  cases hold : h.records.get? name with
  | none =>
    rw [renew_of_none hold] at hok
    cases hok
  | some old =>
    rw [renew_of_some hold] at hok
    obtain ⟨d, asked, gone, -, rfl, hsettled⟩ := replace_of_ok hold hok
    refine ⟨old, d, rfl, rfl, (settle_of_ok hsettled).1, fun n => ?_⟩
    rw [exchanged_of_settle hsettled n, evicted_records, NameMap.get?_erase]
    split
    · rfl
    · rfl

end

/-! ## What was refused -/

section
variable {P : Plugins ω} {h k : Host ω} {plugin : Instance} {d : Descriptor} {e : RegistryError}

/-- A plugin that is refused has no record, unless it is its routes that were rejected. -/
theorem absent_of_settle {enabled : Bool} (hfresh : h.records.get? d.name = none)
    (he : h.settle P plugin d enabled = (.error (.refused e), k)) :
    (∃ rejection, e = .routeBinding d.name rejection) ∨ k.records.get? d.name = none := by
  unfold settle at he
  split at he
  · cases he
    exact Or.inr hfresh
  rcases hcall : P.callback .init plugin (P.attach plugin h.world) with ⟨outcome, world⟩
  by_cases ho : outcome = .ok
  · subst ho
    rw [enrol_of_ok hcall] at he
    cases enabled with
    | false => cases he
    | true =>
      have hentered : ((h.initialised plugin d true .ok (P.routes plugin world).2).enter plugin d
          true (P.routes plugin world).1).records.get? d.name = some _ :=
        (NameMap.get?_insert _ _ _ _).trans (if_pos rfl)
      have hends := bindRoutes_ends (P := P) hentered
      simp only [if_true] at he
      rw [he] at hends
      rcases hends with hok | ⟨rejection, hrejected⟩
      · cases hok
      · cases hrejected
        exact Or.inl ⟨rejection, rfl⟩
  · rw [enrol_of_ne_ok hcall ho] at he
    cases outcome with
    | ok => exact absurd rfl ho
    | failed error =>
      cases he
      exact Or.inr hfresh
    | panicked m => cases he

/-- When a replacement is refused, the name is free, unless the new plugin reports another one
or its routes were rejected. -/
theorem absent_of_replace {name : String} {old : Record} (hold : h.records.get? name = some old)
    (he : h.replace P name old plugin = (.error (.refused e), k)) :
    (∃ reported, e = .renamed name reported) ∨ (∃ rejection, e = .routeBinding name rejection) ∨
      k.records.get? name = none := by
  rcases hcall : P.descriptor plugin h.world with ⟨d, asked⟩
  by_cases hname : d.name = name
  · subst hname
    right
    have hgone : (h.records.erase d.name).get? d.name = none := by simp [NameMap.get?_erase]
    rw [replace_eq_settle hcall rfl] at he
    rcases hshutdown : P.callback .shutdown old.plugin asked with ⟨outcome, gone⟩
    cases outcome with
    | ok =>
      rw [evict_of_some (h := { h with world := asked }) hold hshutdown (by simp)] at he
      exact absent_of_settle (h := evicted { h with world := asked } d.name old .ok gone) hgone he
    | failed error =>
      rw [evict_of_some (h := { h with world := asked }) hold hshutdown (by simp)] at he
      cases he
      exact Or.inr hgone
    | panicked m =>
      rw [evict_of_panicked (h := { h with world := asked }) hold hshutdown] at he
      cases he
  · rw [replace_of_renamed hcall hname] at he
    cases he
    exact Or.inl ⟨d.name, rfl⟩

end

/-! ## Hosts that plugins cannot tell apart -/

/-- The same records and the same calls over worlds that plugins cannot tell apart. -/
structure Twin (s : Setoid ω) (h k : Host ω) : Prop where
  records : h.records = k.records
  calls : h.journal.map Call.bare = k.journal.map Call.bare
  world : s h.world k.world

/-- Twins with the same router and the same tables. -/
structure Identical (s : Setoid ω) (h k : Host ω) : Prop extends Twin s h k where
  router : h.router = k.router
  tables : h.tables = k.tables

/-- Twins, save that the plugin of a name is disabled in the first of them. -/
structure Dimmed (s : Setoid ω) (name : String) (h k : Host ω) : Prop where
  records : h.records = k.records.modify name fun r => { r with enabled := false }
  calls : h.journal.map Call.bare = k.journal.map Call.bare
  world : s h.world k.world

section
variable {P : Plugins ω} {s : Setoid ω} {h k l : Host ω} {plugin : Instance} {d : Descriptor}

theorem Twin.trans (ht : Twin s h k) (ht' : Twin s k l) : Twin s h l :=
  ⟨ht.records.trans ht'.records, ht.calls.trans ht'.calls, s.trans ht.world ht'.world⟩

theorem Identical.trans (hi : Identical s h k) (hi' : Identical s k l) : Identical s h l :=
  ⟨hi.toTwin.trans hi'.toTwin, hi.router.trans hi'.router, hi.tables.trans hi'.tables⟩

/-- Only the world tells a host from the one in which a plugin was asked what it is. -/
theorem identical_of_asked (hd : P.Reports s plugin d) (h : Host ω) :
    ∃ asked, P.descriptor plugin h.world = (d, asked) ∧
      Identical s h { h with world := asked } := by
  obtain ⟨hreported, hasked⟩ := hd h.world
  exact ⟨_, Prod.ext hreported rfl, ⟨⟨rfl, rfl, hasked⟩, rfl, rfl⟩⟩

theorem Twin.called (ht : Twin s h k) (kind : CallKind) (plugin : Instance) (d : Descriptor)
    (e e' : Bool) (outcome : Outcome) {v w : ω} (hvw : s v w) :
    Twin s (h.called kind plugin d e outcome v) (k.called kind plugin d e' outcome w) := by
  refine ⟨ht.records, ?_, hvw⟩
  simp only [Host.called, List.map_cons, ht.calls, Call.bare, ht.records]

theorem Twin.initialised (ht : Twin s h k) (plugin : Instance) (d : Descriptor) (e e' : Bool)
    (outcome : Outcome) {v w : ω} (hvw : s v w) :
    Twin s (h.initialised plugin d e outcome v) (k.initialised plugin d e' outcome w) :=
  (ht.called .attach plugin d e e' .ok hvw).called (.stage .init) plugin d e e' outcome hvw

theorem Twin.evict (hP : P.Indistinct s) (ht : Twin s h k) (name : String) :
    (h.evict P name).1 = (k.evict P name).1 ∧ Twin s (h.evict P name).2 (k.evict P name).2 := by
  cases hr : h.records.get? name with
  | none =>
    rw [evict_of_none hr, evict_of_none (ht.records ▸ hr)]
    exact ⟨rfl, ht⟩
  | some r =>
    have hr' : k.records.get? name = some r := ht.records ▸ hr
    rcases hcall : P.callback .shutdown r.plugin h.world with ⟨outcome, v⟩
    obtain ⟨w, hcall', hvw⟩ := hP.callback_of ht.world hcall
    have hcalled : Twin s (h.recalled .shutdown r outcome v) (k.recalled .shutdown r outcome w) :=
      ht.called _ _ _ _ _ _ hvw
    by_cases ho : ∀ m, outcome ≠ .panicked m
    · rw [evict_of_some hr hcall ho, evict_of_some hr' hcall' ho]
      exact ⟨rfl, congrArg (NameMap.erase · name) ht.records, hcalled.calls, hvw⟩
    · obtain ⟨m, rfl⟩ : ∃ m, outcome = .panicked m := by simpa using ho
      rw [evict_of_panicked hr hcall, evict_of_panicked hr' hcall']
      exact ⟨rfl, hcalled⟩

/-- An eviction leaves the router and the tables alone; the record goes, unless the shutdown
panics. -/
theorem evict_leaves (P : Plugins ω) {name : String} {r : Record}
    (hr : h.records.get? name = some r) :
    (h.evict P name).2.router = h.router ∧ (h.evict P name).2.tables = h.tables ∧
      ((h.evict P name).2.records = h.records.erase name ∨
        (h.evict P name).2.records = h.records ∧
          ∃ m, (h.evict P name).1 = .error (.panicked m)) := by
  rcases hcall : P.callback .shutdown r.plugin h.world with ⟨outcome, world⟩
  by_cases ho : ∀ m, outcome ≠ .panicked m
  · rw [evict_of_some hr hcall ho]
    exact ⟨rfl, rfl, Or.inl rfl⟩
  · obtain ⟨m, rfl⟩ : ∃ m, outcome = .panicked m := by simpa using ho
    rw [evict_of_panicked hr hcall]
    exact ⟨rfl, rfl, Or.inr ⟨rfl, m, rfl⟩⟩

/-- A plugin is initialised in either host, or turned away in both. -/
theorem Twin.enrol (hP : P.Indistinct s) (ht : Twin s h k) (plugin : Instance) (d : Descriptor)
    (e e' : Bool) :
    (∃ routes v w, s v w ∧
      h.enrol P plugin d e = (.ok (), (h.initialised plugin d e .ok v).enter plugin d e routes) ∧
      k.enrol P plugin d e' =
        (.ok (), (k.initialised plugin d e' .ok w).enter plugin d e' routes)) ∨
    ∃ stop outcome v w, s v w ∧
      h.enrol P plugin d e = (.error stop, h.initialised plugin d e outcome v) ∧
      k.enrol P plugin d e' = (.error stop, k.initialised plugin d e' outcome w) := by
  rcases hcall : P.callback .init plugin (P.attach plugin h.world) with ⟨outcome, v⟩
  obtain ⟨w, hcall', hvw⟩ := hP.callback_of (hP.attach plugin _ _ ht.world) hcall
  cases outcome with
  | ok =>
    obtain ⟨hroutes, hnext⟩ := hP.routes plugin v w hvw
    refine Or.inl ⟨_, _, _, hnext, enrol_of_ok hcall d e, ?_⟩
    rw [hroutes]
    exact enrol_of_ok hcall' d e'
  | failed error =>
    exact Or.inr ⟨_, _, v, w, hvw, enrol_of_ne_ok hcall (by simp) d e,
      enrol_of_ne_ok hcall' (by simp) d e'⟩
  | panicked m =>
    exact Or.inr ⟨_, _, v, w, hvw, enrol_of_ne_ok hcall (by simp) d e,
      enrol_of_ne_ok hcall' (by simp) d e'⟩

theorem Identical.bindRoutes (hP : P.Indistinct s) (hi : Identical s h k) (name : String) :
    (h.bindRoutes P name).1 = (k.bindRoutes P name).1 ∧
      Identical s (h.bindRoutes P name).2 (k.bindRoutes P name).2 := by
  have htable : k.table = h.table := funext fun t => by rw [table, table, hi.tables]
  unfold Host.bindRoutes
  rw [← hi.router, ← hi.records]
  split
  · exact ⟨rfl, hi⟩
  rename_i router _
  split
  · exact ⟨rfl, hi⟩
  rename_i r _
  obtain ⟨hdefaults, hnext⟩ := hP.middlewares r.plugin _ _ hi.world
  simp only [← hdefaults, htable, ← hi.tables]
  generalize router.bindAll (h.table router.table) _ = bound
  obtain ⟨result, t⟩ := bound
  cases result with
  | error e => exact ⟨rfl, ⟨rfl, hi.calls, hnext⟩, rfl, rfl⟩
  | ok => exact ⟨rfl, ⟨rfl, hi.calls, hnext⟩, rfl, rfl⟩

/-- Identical hosts admit an enabled plugin alike, whatever becomes of it. -/
theorem Identical.settle (hP : P.Indistinct s) (hi : Identical s h k) (plugin : Instance)
    (d : Descriptor) :
    (h.settle P plugin d true).1 = (k.settle P plugin d true).1 ∧
      Identical s (h.settle P plugin d true).2 (k.settle P plugin d true).2 := by
  unfold Host.settle
  rw [← hi.records]
  split
  · exact ⟨rfl, hi⟩
  rcases hi.toTwin.enrol hP plugin d true true with
    ⟨routes, v, w, hvw, hh, hk⟩ | ⟨stop, outcome, v, w, hvw, hh, hk⟩
  · rw [hh, hk]
    have ht : Twin s (h.initialised plugin d true .ok v) (k.initialised plugin d true .ok w) :=
      hi.initialised plugin d true true .ok hvw
    have hentered : Identical s ((h.initialised plugin d true .ok v).enter plugin d true routes)
        ((k.initialised plugin d true .ok w).enter plugin d true routes) :=
      ⟨⟨congrArg (NameMap.insert · d.name _) ht.records, ht.calls, hvw⟩, hi.router, hi.tables⟩
    exact hentered.bindRoutes hP d.name
  · rw [hh, hk]
    exact ⟨rfl, hi.initialised plugin d true true outcome hvw, hi.router, hi.tables⟩

/-- Twins differ in a disabled plugin as little as in any other. -/
theorem Twin.dimmed (ht : Twin s h k) (hasc : h.records.Ascending) {name : String}
    (hoff : ∀ r, h.records.get? name = some r → r.enabled = false) : Dimmed s name h k := by
  refine ⟨?_, ht.calls, ht.world⟩
  rw [← ht.records]
  refine (hasc.modify_eq_self fun r hr => ?_).symm
  rw [← hoff r hr]

/-- A plugin is admitted as disabled as it is admitted as enabled where there is no router. -/
theorem Twin.settle_dimmed (hP : P.Indistinct s) (ht : Twin s h k) (hrouter : k.router = none)
    (hasc : h.records.Ascending) (hfresh : h.records.get? d.name = none) (plugin : Instance) :
    (h.settle P plugin d false).1 = (k.settle P plugin d true).1 ∧
      Dimmed s d.name (h.settle P plugin d false).2 (k.settle P plugin d true).2 := by
  have hoff : ∀ r, h.records.get? d.name = some r → r.enabled = false := fun r hr => by
    rw [hfresh] at hr
    cases hr
  unfold Host.settle
  rw [← ht.records]
  split
  · exact ⟨rfl, ht.dimmed hasc hoff⟩
  rcases ht.enrol hP plugin d false true with
    ⟨routes, v, w, hvw, hh, hk⟩ | ⟨stop, outcome, v, w, hvw, hh, hk⟩
  · have hcalls := (ht.initialised plugin d false true .ok hvw).calls
    have hentered :
        ((k.initialised plugin d true .ok w).enter plugin d true routes).router = none := hrouter
    rw [hh, hk]
    simp only [if_true, Bool.false_eq_true, if_false, bindRoutes_of_no_router hentered]
    refine ⟨trivial, ?_, hcalls, hvw⟩
    rw [enter_records, enter_records, initialised_records, initialised_records, ← ht.records,
      hasc.modify_insert]
  · rw [hh, hk]
    exact ⟨rfl, (ht.initialised plugin d false true outcome hvw).dimmed hasc hoff⟩

theorem settle_router (P : Plugins ω) (plugin : Instance) (d : Descriptor) (h : Host ω) :
    (h.settle P plugin d false).2.router = h.router ∧
      (h.settle P plugin d false).2.tables = h.tables := by
  unfold settle
  split
  · exact ⟨rfl, rfl⟩
  rcases hcall : P.callback .init plugin (P.attach plugin h.world) with ⟨outcome, world⟩
  cases outcome with
  | ok =>
    rw [enrol_of_ok hcall]
    exact ⟨rfl, rfl⟩
  | failed e =>
    rw [enrol_of_ne_ok hcall (by simp)]
    exact ⟨rfl, rfl⟩
  | panicked m =>
    rw [enrol_of_ne_ok hcall (by simp)]
    exact ⟨rfl, rfl⟩

/-! ## Replacement against registration -/

/-- To replace an enabled plugin is to unregister it and to register the new one. -/
theorem replace_identical (hP : P.Indistinct s) {name : String} {old : Record}
    (hold : h.records.get? name = some old) (hon : old.enabled = true) (hname : d.name = name)
    (hd : P.Reports s plugin d) :
    (h.replace P name old plugin).1 = (h.anew P name plugin).1 ∧
      Identical s (h.replace P name old plugin).2 (h.anew P name plugin).2 := by
  obtain ⟨asked, hcall, hasked⟩ := identical_of_asked hd h
  have ht : Twin s { h with world := asked } h := ⟨rfl, rfl, s.symm hasked.world⟩
  obtain ⟨hresult, hevicted⟩ := ht.evict hP name
  obtain ⟨hrouter, htables, -⟩ := evict_leaves (h := { h with world := asked }) P hold
  obtain ⟨hrouter', htables', -⟩ := evict_leaves P hold
  rw [replace_eq_settle hcall hname, hon, anew, unregister]
  generalize evict P name { h with world := asked } = left at *
  generalize evict P name h = right at *
  obtain ⟨result, a⟩ := left
  obtain ⟨result', b⟩ := right
  obtain rfl : result = result' := hresult
  have hi : Identical s a b := ⟨hevicted, hrouter.trans hrouter'.symm, htables.trans htables'.symm⟩
  cases result with
  | error stop => exact ⟨rfl, hi⟩
  | ok =>
    obtain ⟨asked', hcall', hasked'⟩ := identical_of_asked hd b
    simp only [register_eq_settle hcall']
    exact (hi.trans hasked').settle hP plugin d

/-- To replace a disabled plugin is to do so where there is no router, and to leave the router
and the tables alone. -/
theorem replace_dimmed (hP : P.Indistinct s) {name : String} {old : Record}
    (hasc : h.records.Ascending) (hold : h.records.get? name = some old)
    (hoff : old.enabled = false) (hname : d.name = name) (hd : P.Reports s plugin d) :
    (h.replace P name old plugin).1 = (anew P name plugin { h with router := none }).1 ∧
      Dimmed s name (h.replace P name old plugin).2
        (anew P name plugin { h with router := none }).2 ∧
      (h.replace P name old plugin).2.router = h.router ∧
      (h.replace P name old plugin).2.tables = h.tables := by
  subst hname
  obtain ⟨asked, hcall, hasked⟩ := identical_of_asked hd h
  have ht : Twin s { h with world := asked } { h with router := none } :=
    ⟨rfl, rfl, s.symm hasked.world⟩
  obtain ⟨hresult, hevicted⟩ := ht.evict hP d.name
  obtain ⟨hrouter, htables, hrecords⟩ := evict_leaves (h := { h with world := asked }) P hold
  obtain ⟨hrouter', -, -⟩ := evict_leaves (h := { h with router := none }) P hold
  rw [replace_eq_settle hcall rfl, hoff, anew, unregister]
  generalize evict P d.name { h with world := asked } = left at *
  generalize evict P d.name { h with router := none } = right at *
  obtain ⟨result, a⟩ := left
  obtain ⟨result', b⟩ := right
  obtain rfl : result = result' := hresult
  have hasc' : a.records.Ascending := by
    rcases hrecords with heq | ⟨heq, -⟩
    · exact heq ▸ hasc.erase _
    · exact heq ▸ hasc
  cases result with
  | error stop =>
    -- the old plugin is gone, or it is still there and was disabled before
    refine ⟨rfl, Twin.dimmed hevicted hasc' fun r hr => ?_, hrouter, htables⟩
    rcases hrecords with heq | ⟨heq, -⟩
    · rw [heq, NameMap.get?_erase, if_pos rfl] at hr
      cases hr
    · rw [heq, hold] at hr
      cases hr
      exact hoff
  | ok =>
    have hfresh : a.records.get? d.name = none := by
      rcases hrecords with heq | ⟨-, m, hpanicked⟩
      · rw [heq, NameMap.get?_erase, if_pos rfl]
      · cases hpanicked
    obtain ⟨asked', hcall', hasked'⟩ := identical_of_asked hd b
    obtain ⟨hsettled, hdimmed⟩ :=
      (hevicted.trans hasked'.toTwin).settle_dimmed hP hrouter' hasc' hfresh plugin
    obtain ⟨hkept, hkept'⟩ := settle_router P plugin d a
    simp only [register_eq_settle hcall']
    exact ⟨hsettled, hdimmed, hkept.trans hrouter, hkept'.trans htables⟩

end

/-- In every host that a run leads to, a plugin is replaced as it is unregistered and the new one
registered: where it is enabled, with the same answer, records, router, tables and calls; where
it is disabled, as if there were no router, save that the new plugin is disabled and the router
and its tables stay. A name without a plugin, and a new plugin of another name, change nothing;
after any other refusal the name is free, unless the routes were rejected. -/
theorem renew_refines {P : Plugins ω} {h : Host ω} (hr : Reachable P h) (name : String)
    (fresh : Option Instance) :
    (∀ s old d, P.Indistinct s → h.records.get? name = some old → d.name = name →
      P.Reports s (fresh.getD old.plugin) d →
      (old.enabled = true →
        (h.renew P name fresh).1 = (h.anew P name (fresh.getD old.plugin)).1 ∧
          Identical s (h.renew P name fresh).2 (h.anew P name (fresh.getD old.plugin)).2) ∧
      (old.enabled = false →
        (h.renew P name fresh).1 =
            (anew P name (fresh.getD old.plugin) { h with router := none }).1 ∧
          Dimmed s name (h.renew P name fresh).2
            (anew P name (fresh.getD old.plugin) { h with router := none }).2 ∧
          (h.renew P name fresh).2.router = h.router ∧
          (h.renew P name fresh).2.tables = h.tables)) ∧
    (h.records.get? name = none →
      h.renew P name fresh = (.error (.refused (.notFound name)), h)) ∧
    (∀ old d world, h.records.get? name = some old →
      P.descriptor (fresh.getD old.plugin) h.world = (d, world) → d.name ≠ name →
      h.renew P name fresh = (.error (.refused (.renamed name d.name)), { h with world })) ∧
    ∀ e k, h.renew P name fresh = (.error (.refused e), k) →
      (∃ reported, e = .renamed name reported) ∨ (∃ rejection, e = .routeBinding name rejection) ∨
        k.records.get? name = none := by
  refine ⟨fun s old d hP hold hname hd => ?_, fun hold => renew_of_none hold fresh,
    fun old d world hold hcall hname => ?_, fun e k he => ?_⟩
  · rw [renew_of_some hold]
    exact ⟨fun hon => replace_identical hP hold hon hname hd,
      fun hoff => replace_dimmed hP hr.coherent.ascending hold hoff hname hd⟩
  · rw [renew_of_some hold]
    exact replace_of_renamed hcall hname
  · cases hold : h.records.get? name with
    | none =>
      rw [renew_of_none hold] at he
      cases he
      exact Or.inr (Or.inr hold)
    | some old =>
      rw [renew_of_some hold] at he
      exact absent_of_replace hold he

/-- Instances of a door that all report the same, and open the way to a route of their own. -/
def doorPlugins : Plugins Unit :=
  { Plugins.constant (fun _ => ⟨"door", "", "1.0.0", [], []⟩) fun _ _ => .ok with
    routes := fun plugin world =>
      ([⟨.get, "/open", .greeter plugin, [], false, [], ""⟩], world) }

/-- A second door takes the place of the first, with its route in the table. -/
theorem door_renewed :
    ∃ (h : Host Unit) (old : Record), Reachable doorPlugins h ∧
      h.records.get? "door" = some old ∧ old.enabled = true ∧ old.plugin = ⟨0⟩ ∧
      (h.renew doorPlugins "door" (some ⟨1⟩)).1 = .ok () ∧
      Identical ⟨Eq, eq_equivalence⟩ (h.renew doorPlugins "door" (some ⟨1⟩)).2
        (h.anew doorPlugins "door" ⟨1⟩).2 := by
  have hr : Reachable doorPlugins ((start ()).runAll doorPlugins
      [.setRouter (some ⟨"main", none⟩), .register ⟨0⟩]) := (Reachable.start ()).runAll _
  refine ⟨_, _, hr, rfl, rfl, rfl, rfl, ?_⟩
  have hboth := (renew_refines hr "door" (some ⟨1⟩)).1 _ _ _ doorPlugins.indistinct_eq rfl rfl
    fun _ => ⟨rfl, rfl⟩
  exact (hboth.1 rfl).2

end Host

end PluginHost
