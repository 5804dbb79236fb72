import PluginHost.Proofs.Registry.Coherence

/-!
# What a plugin finds when it is initialised

A plugin may rely on its dependencies from its first call on. Whoever initialises it, a
registration, a batch or a replacement, has checked it against the records of that very moment:
what it depends on is registered, nothing that it conflicts with is, nor anything under its own
name; and it was handed the host directly before.

The checks of a batch are made before any of its members is called, and the records of a
replacement lack the old plugin by then. Both is said once, by the moves: an admission is one
move, and it needs a plugin that is admissible next to the records it is made with.

* `Call.Prepared`: what holds when a plugin is initialised.
* `orderly_move`: every move leaves all initialisations prepared.
* `Reachable.begun`: whoever is registered was initialised.
* `introduced_runAll`: no call of a plugin, of whatever kind, comes between the two.
* `inits_prepared`: all of it, along all runs.
-/
namespace PluginHost

variable {ω : Type}

/-- What holds when a plugin is initialised, after the calls made so far. -/
structure Call.Prepared (c : Call) (earlier : List Call) : Prop where
  present : ∀ n ∈ c.descriptor.dependencies, c.records.contains n = true
  compatible : ∀ n r, c.records.get? n = some r →
    n ∉ c.descriptor.conflicts ∧ c.descriptor.name ∉ r.descriptor.conflicts
  fresh : c.records.contains c.descriptor.name = false
  independent : c.descriptor.name ∉ c.descriptor.dependencies
  attached : ∃ a rest, earlier = a :: rest ∧ a.kind = .attach ∧ a.plugin = c.plugin

/-- Every initialisation in the journal was prepared. -/
def Orderly (journal : List Call) : Prop :=
  ∀ c earlier, c :: earlier <:+ journal → c.kind = .stage .init → c.Prepared earlier

theorem Orderly.cons {journal : List Call} (h : Orderly journal) {c : Call}
    (hc : c.kind = .stage .init → c.Prepared journal) : Orderly (c :: journal) := by
  intro e earlier hsuffix hinit
  rcases List.suffix_cons_iff.1 hsuffix with heq | hsuffix
  · cases heq
    exact hc hinit
  · exact h e earlier hsuffix hinit

/-- What is admissible finds what it needs and nothing that it clashes with. -/
theorem Admissible.prepared {records : NameMap Record} {d : Descriptor}
    (ha : Admissible records [] d) (hi : Coherent records) {a c : Call} (journal : List Call)
    (hrecords : c.records = records) (hdescriptor : c.descriptor = d) (hkind : a.kind = .attach)
    (hplugin : a.plugin = c.plugin) : c.Prepared (a :: journal) := by
  subst hrecords hdescriptor
  have hpresent : ∀ n ∈ c.descriptor.dependencies, c.records.contains n = true := by
    intro n hn
    simpa using ha.present n hn
  refine ⟨hpresent, fun n r hr => ?_, ha.fresh, fun hself => ?_, a, journal, rfl, hkind, hplugin⟩
  · have hclash := ha.compatible r (NameMap.mem_values_of_get? hr)
    rw [Descriptor.clashes_eq_false_iff, hi.named hr] at hclash
    exact hclash
  · -- a plugin that needs itself would have to be there already
    have htaken := hpresent _ hself
    rw [ha.fresh] at htaken
    cases htaken

/-- A call that initialises nobody. -/
theorem Orderly.pass {journal : List Call} (h : Orderly journal) {c : Call}
    (hkind : c.kind ≠ .stage .init) : Orderly (c :: journal) :=
  h.cons fun hinit => absurd hinit hkind

namespace Host

theorem orderly_initialised {h : Host ω} (ho : Orderly h.journal) (hi : Coherent h.records)
    {plugin : Instance} {d : Descriptor} (ha : Admissible h.records [] d) {enabled : Bool}
    {outcome : Outcome} {world : ω} :
    Orderly (h.initialised plugin d enabled outcome world).journal := by
  have hattach : Orderly (h.called .attach plugin d enabled .ok world).journal :=
    ho.pass (by simp)
  exact hattach.cons fun _ => ha.prepared hi _ rfl rfl rfl rfl

/-- Every move leaves all initialisations prepared. -/
theorem orderly_move {h k : Host ω} (hm : Move h k) (hi : Coherent h.records)
    (ho : Orderly h.journal) : Orderly k.journal := by
  cases hm with
  | world => exact ho
  | enrol ha => exact orderly_initialised ho hi ha
  | turnAway ha => exact orderly_initialised ho hi ha
  | evict => exact ho.pass (by simp)
  | keep => exact ho.pass (by simp)
  | enable => exact ho.pass (by simp)
  | enableFails => exact ho.pass (by simp)
  | disable => exact ho.pass (by simp)
  | disableFails => exact ho.pass (by simp)
  | bind => exact ho
  | bindFails => exact ho
  | attachRouter => exact ho
  | detachRouter => exact ho

theorem Reachable.orderly {P : Plugins ω} {h : Host ω} (hr : Reachable P h) :
    Orderly h.journal :=
  hr.invariant_of_moves (I := fun h => Orderly h.journal)
    (fun _ => by simp [Orderly, Host.start]) fun _ _ hi hm ho => orderly_move hm hi ho

/-- Whoever is registered was initialised with success, with the descriptor of the record. -/
theorem Reachable.begun {P : Plugins ω} {h : Host ω} (hr : Reachable P h) :
    ∀ n r, h.records.get? n = some r → ∃ c ∈ h.journal, c.kind = .stage .init ∧
      c.outcome = .ok ∧ c.plugin = r.plugin ∧ c.descriptor = r.descriptor := by
  refine hr.invariant (I := fun h => ∀ n r, h.records.get? n = some r → ∃ c ∈ h.journal,
    c.kind = .stage .init ∧ c.outcome = .ok ∧ c.plugin = r.plugin ∧
      c.descriptor = r.descriptor) (fun _ n r hr => by simp [Host.start] at hr) ?_
  intro h k hm hi n r hr
  rcases hm.registered hr with ⟨s, hs, hplugin, hdescriptor, -⟩ | ⟨-, -, hnew⟩
  · obtain ⟨c, hc, hkind, hok, hcp, hcd⟩ := hi n s hs
    exact ⟨c, hm.journal_suffix.subset hc, hkind, hok, hcp.trans hplugin, hcd.trans hdescriptor⟩
  · exact hnew

end Host

/-! ## All calls of plugins -/

/-- A call of a plugin, the questions included that the host keeps no journal of. -/
inductive Contact where
  | descriptor (plugin : Instance)
  | routes (plugin : Instance)
  | middlewares (plugin : Instance)
  | attach (plugin : Instance)
  | callback (stage : Stage) (plugin : Instance)
  | execute (plugin : Instance)

/-- The same plugins in a world that keeps every call of them, the last one first. -/
def Plugins.logged (P : Plugins ω) : Plugins (ω × List Contact) where
  descriptor plugin w :=
    let (d, next) := P.descriptor plugin w.1
    (d, next, .descriptor plugin :: w.2)
  routes plugin w :=
    let (routes, next) := P.routes plugin w.1
    (routes, next, .routes plugin :: w.2)
  middlewares plugin w :=
    let (middlewares, next) := P.middlewares plugin w.1
    (middlewares, next, .middlewares plugin :: w.2)
  attach plugin w := (P.attach plugin w.1, .attach plugin :: w.2)
  callback stage plugin w :=
    let (outcome, next) := P.callback stage plugin w.1
    (outcome, next, .callback stage plugin :: w.2)
  execute plugin params w :=
    let (execution, next) := P.execute plugin params w.1
    (execution, next, .execute plugin :: w.2)
  construct blueprint w :=
    let (plugin, next) := P.construct blueprint w.1
    (plugin, next, w.2)
  intercept middleware request w :=
    let (response, next) := P.intercept middleware request w.1
    (response, next, w.2)
  serve handler request w :=
    let (response, next) := P.serve handler request w.1
    (response, next, w.2)

/-- Directly before it is initialised, a plugin is handed the host. -/
def Introduced (log : List Contact) : Prop :=
  ∀ plugin earlier, .callback .init plugin :: earlier <:+ log →
    ∃ rest, earlier = .attach plugin :: rest

theorem Introduced.cons {log : List Contact} (h : Introduced log) {c : Contact}
    (hc : ∀ plugin, c = .callback .init plugin → ∃ rest, log = .attach plugin :: rest) :
    Introduced (c :: log) := by
  intro plugin earlier hsuffix
  rcases List.suffix_cons_iff.1 hsuffix with heq | hsuffix
  · cases heq
    exact hc plugin rfl
  · exact h plugin earlier hsuffix

/-- Whatever the host makes of the world, its plugins are introduced. -/
theorem Served.introduced {P : Plugins ω} {v w : ω × List Contact} (hs : Served P.logged v w)
    (hv : Introduced v.2) : Introduced w.2 := by
  cases hs with
  | descriptor => exact hv.cons (by simp)
  | routes => exact hv.cons (by simp)
  | middlewares => exact hv.cons (by simp)
  | execute => exact hv.cons (by simp)
  | start hcall =>
    cases hcall
    refine (hv.cons (by simp)).cons fun other heq => ?_
    cases heq
    exact ⟨_, rfl⟩
  | callback hstage hcall =>
    cases hcall
    refine hv.cons fun other heq => ?_
    cases heq
    exact absurd rfl hstage

namespace Host

theorem setRouter_world (router : Option Router) (h : Host ω) :
    (h.setRouter router).world = h.world := by
  cases router <;> rfl

theorem introduced_run (P : Plugins ω) (c : Command) {h : Host (ω × List Contact)}
    (hi : Introduced h.world.2) : Introduced (c.run P.logged h).2.world.2 := by
  obtain ⟨k, hk, hend⟩ := strides_run P.logged c h
  have hworld : (c.run P.logged h).2.world = k.world := by
    rcases hend with hend | ⟨router, hend⟩
    · rw [hend]
    · rw [hend, setRouter_world]
  rw [hworld]
  have hserved := hk.served
  generalize k.world = w at hserved
  induction hserved with
  | refl => exact hi
  | tail _ hlast ih => exact hlast.introduced ih

theorem introduced_runAll (P : Plugins ω) (commands : List Command)
    {h : Host (ω × List Contact)} (hi : Introduced h.world.2) :
    Introduced (h.runAll P.logged commands).world.2 := by
  induction commands generalizing h with
  | nil => exact hi
  | cons c commands ih => exact ih (introduced_run P c hi)

/-- In the journal of every host that a run leads to, each initialisation was prepared, and there
is one for every registered plugin; and of all that a run asks plugins, nothing comes between
their being handed the host and their initialisation. -/
theorem inits_prepared (P : Plugins ω) :
    (∀ h, Reachable P h →
      (∀ c earlier, c :: earlier <:+ h.journal → c.kind = .stage .init → c.Prepared earlier) ∧
      ∀ n r, h.records.get? n = some r → ∃ c ∈ h.journal, c.kind = .stage .init ∧
        c.outcome = .ok ∧ c.plugin = r.plugin ∧ c.descriptor = r.descriptor) ∧
    ∀ world commands, Introduced ((start (world, [])).runAll P.logged commands).world.2 := by
  refine ⟨fun h hr => ⟨hr.orderly, hr.begun⟩, fun world commands => ?_⟩
  exact introduced_runAll P commands (by simp [Introduced, start])

/-- A lamp and the socket it needs. -/
def lampPlugins : Plugins Unit :=
  .constant (fun plugin =>
    ⟨if plugin.id = 0 then "socket" else "lamp", "", "1.0.0",
      if plugin.id = 0 then [] else ["socket"], []⟩) fun _ _ => .ok

/-- The lamp is put in first and initialised last, when the socket is there. -/
theorem lamp_prepared :
    ∃ (h : Host Unit) (c : Call) (earlier : List Call), Reachable lampPlugins h ∧
      h.journal = c :: earlier ∧ c.kind = .stage .init ∧ c.plugin = ⟨1⟩ ∧
      c.descriptor.dependencies = ["socket"] ∧ c.Prepared earlier := by
  have hr : Reachable lampPlugins ((start ()).runAll lampPlugins
      [.registerPlugins [⟨1⟩, ⟨0⟩]]) := (Reachable.start ()).runAll _
  refine ⟨_, _, _, hr, rfl, rfl, rfl, rfl, ?_⟩
  exact ((inits_prepared lampPlugins).1 _ hr).1 _ _ (List.suffix_refl _) rfl

end Host

end PluginHost
