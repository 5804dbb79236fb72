import Mathlib.Data.List.Chain
import Mathlib.Logic.Function.Iterate
import PluginHost.Proofs.Registry.Balance

/-!
# Enabling and disabling in turn

A plugin is told when it is enabled and when it is disabled, and it may count on it that the two
come in turn: whoever is told to enable was disabled, by a call or since its admission, and the
other way round. The journal shows it: the calls between the admission of a plugin and its end,
read alone, say at every moment whether the plugin is enabled, and the records agree. A call
that fails or panics switches nothing, and neither does an operation that finds the plugin as it
should be, since it makes no call.

* `toldOf`: what a journal tells of a name.
* `Accounted`: the journal tells of all records, at every call as well as at the end.
* `accounted_move`: every move keeps the journal true.
* `Term`: a plugin's time under a name, from its admission on.
* `succession_stride`: a plugin is admitted as disabled only in the place of a disabled one.
* `reachable_switches`: all switches, along all runs.
-/
namespace PluginHost

variable {ω : Type}

/-- Who is registered under a name, and whether it is enabled. -/
structure Standing where
  plugin : Instance
  descriptor : Descriptor
  enabled : Bool

/-- Who a record registers, and whether it is enabled. -/
def Record.standing (r : Record) : Standing :=
  ⟨r.plugin, r.descriptor, r.enabled⟩

namespace Call

/-- The plugin is registered by this call: it was initialised with success. -/
def admits (c : Call) : Bool :=
  decide (c.kind = .stage .init ∧ c.outcome = .ok)

/-- The plugin is registered no longer: it was shut down, whether that failed or not. -/
def removes (c : Call) : Bool :=
  decide (c.kind = .stage .shutdown ∧ c.outcome.returned = true)

/-- What the plugin was switched to with success, enabled or disabled. -/
def switch? (c : Call) : Option Bool :=
  match c.kind, c.outcome with
  | .stage .enable, .ok => some true
  | .stage .disable, .ok => some false
  | _, _ => none

/-- Nobody is registered, taken out or switched. -/
structure Idle (c : Call) : Prop where
  admits : c.admits = false
  removes : c.removes = false
  switch? : c.switch? = none

end Call

/-! ## What a journal tells -/

/-- What a journal tells of a name, the last call first. -/
def toldOf (name : String) : List Call → Option Standing
  | [] => none
  | c :: earlier =>
    if c.descriptor.name = name then
      if c.admits then some ⟨c.plugin, c.descriptor, c.enabled⟩
      else if c.removes then none
      else
        match c.switch? with
        | some enabled => (toldOf name earlier).map ({ · with enabled })
        | none => toldOf name earlier
    else toldOf name earlier

/-- What the calls switched the plugin of a name to, the last switch first. -/
def switches (name : String) (calls : List Call) : List Bool :=
  calls.filterMap fun c => if c.descriptor.name = name then c.switch? else none

/-- The calls begin with the time of a plugin under a name: the call that admitted it, and those
since then, of which none admits or removes a plugin of the name. -/
structure Term (name : String) (calls during : List Call) (a : Call) (before : List Call) :
    Prop where
  split : calls = during ++ a :: before
  named : a.descriptor.name = name
  admits : a.admits = true
  lasting : ∀ c ∈ during, c.descriptor.name = name → c.admits = false ∧ c.removes = false

section
variable {name : String} {c a : Call} {calls earlier during before : List Call}

theorem toldOf_cons_of_ne (hc : c.descriptor.name ≠ name) :
    toldOf name (c :: earlier) = toldOf name earlier := by
  rw [toldOf, if_neg hc]

theorem toldOf_cons_of_idle (hc : c.Idle) : toldOf name (c :: earlier) = toldOf name earlier := by
  rw [toldOf, hc.admits, hc.removes, hc.switch?]
  simp

/-- A call that switches a plugin neither admits nor removes one. -/
theorem admits_of_switch {enabled : Bool} (hs : c.switch? = some enabled) :
    c.admits = false ∧ c.removes = false := by
  unfold Call.switch? at hs
  split at hs
  · rename_i hkind _
    simp [Call.admits, Call.removes, hkind]
  · rename_i hkind _
    simp [Call.admits, Call.removes, hkind]
  · cases hs

theorem toldOf_cons_of_switch (hname : c.descriptor.name = name) {enabled : Bool}
    (hs : c.switch? = some enabled) :
    toldOf name (c :: earlier) = (toldOf name earlier).map ({ · with enabled }) := by
  obtain ⟨hadmits, hremoves⟩ := admits_of_switch hs
  rw [toldOf, if_pos hname, hadmits, hremoves, hs]
  simp

theorem switches_cons_of_ne (hc : c.descriptor.name ≠ name) :
    switches name (c :: calls) = switches name calls := by
  simp [switches, hc]

theorem switches_cons_of_none (hc : c.switch? = none) :
    switches name (c :: calls) = switches name calls := by
  simp [switches, hc]

theorem switches_cons_of_some (hname : c.descriptor.name = name) {enabled : Bool}
    (hc : c.switch? = some enabled) :
    switches name (c :: calls) = enabled :: switches name calls := by
  simp [switches, hname, hc]

theorem Term.tail (ht : Term name (c :: calls) (c :: during) a before) :
    Term name calls during a before :=
  ⟨List.tail_eq_of_cons_eq ht.split, ht.named, ht.admits,
    fun e he => ht.lasting e (List.mem_cons_of_mem _ he)⟩

/-- During the time of a plugin, the journal tells that it is as it was switched last, or
admitted. -/
theorem Term.told_eq (ht : Term name calls during a before) : toldOf name calls =
    some ⟨a.plugin, a.descriptor, (switches name during).headD a.enabled⟩ := by
  induction during generalizing calls with
  | nil =>
    rw [ht.split, List.nil_append, toldOf, if_pos ht.named, if_pos ht.admits]
    rfl
  | cons c during ih =>
    obtain ⟨rest, rfl⟩ : ∃ rest, calls = c :: rest := ⟨_, ht.split⟩
    have hrest := ih ht.tail
    by_cases hname : c.descriptor.name = name
    · obtain ⟨hadmits, hremoves⟩ := ht.lasting c List.mem_cons_self hname
      cases hswitch : c.switch? with
      | none =>
        rw [toldOf_cons_of_idle ⟨hadmits, hremoves, hswitch⟩, switches_cons_of_none hswitch]
        exact hrest
      | some enabled =>
        rw [toldOf_cons_of_switch hname hswitch, switches_cons_of_some hname hswitch, hrest]
        rfl
    · rw [toldOf_cons_of_ne hname, switches_cons_of_ne hname]
      exact hrest

/-- Whoever the journal tells of was admitted, and not removed since then. -/
theorem exists_term {s : Standing} (h : toldOf name calls = some s) :
    ∃ during a before, Term name calls during a before := by
  induction calls generalizing s with
  | nil => cases h
  | cons c calls ih =>
    -- a call that does not begin the time of the plugin lengthens the one that it falls into
    have hlonger : (c.descriptor.name = name → c.admits = false ∧ c.removes = false) →
        (∃ during a before, Term name calls during a before) →
        ∃ during a before, Term name (c :: calls) during a before := by
      rintro hc ⟨during, a, before, ht⟩
      refine ⟨c :: during, a, before, congrArg (c :: ·) ht.split, ht.named, ht.admits, ?_⟩
      intro e he
      rcases List.mem_cons.1 he with rfl | he
      · exact hc
      · exact ht.lasting e he
    by_cases hname : c.descriptor.name = name
    · cases hadmits : c.admits with
      | true => exact ⟨[], c, calls, rfl, hname, hadmits, by simp⟩
      | false =>
        cases hremoves : c.removes with
        | true => simp [toldOf, hname, hadmits, hremoves] at h
        | false =>
          refine hlonger (fun _ => ⟨hadmits, hremoves⟩) ?_
          cases hswitch : c.switch? with
          | none => exact ih (toldOf_cons_of_idle ⟨hadmits, hremoves, hswitch⟩ ▸ h)
          | some enabled =>
            rw [toldOf_cons_of_switch hname hswitch] at h
            obtain ⟨before, hbefore, -⟩ := Option.map_eq_some_iff.1 h
            exact ih hbefore
    · exact hlonger (fun heq => absurd heq hname) (ih (toldOf_cons_of_ne hname ▸ h))

end

/-- Truth values that come in turn: the first is what the last becomes when it is flipped once
for each of the others. -/
theorem headD_of_isChain {l : List Bool} {b : Bool} (h : (l ++ [b]).IsChain (· ≠ ·)) :
    l.headD b = not^[l.length] b := by
  induction l with
  | nil => rfl
  | cons x xs ih =>
    obtain ⟨hne, hxs⟩ : x ≠ xs.headD b ∧ (xs ++ [b]).IsChain (· ≠ ·) := by
      cases xs with
      | nil => exact List.isChain_cons_cons.1 h
      | cons y ys => exact List.isChain_cons_cons.1 h
    have hrest : xs.headD b = not^[xs.length] b := ih hxs
    rw [List.length_cons, Function.iterate_succ_apply', ← hrest]
    exact Bool.eq_not_of_ne hne

/-! ## Journals that are true -/

/-- What holds when a plugin is called, after the calls made so far: these tell of all records;
and if the plugin is called to be enabled or disabled, it is registered and not so yet, and what
it needs, or what needs it, is as it should be. -/
structure Call.Founded (c : Call) (earlier : List Call) : Prop where
  told : ∀ n, toldOf n earlier = (c.records.get? n).map Record.standing
  enable : c.kind = .stage .enable → ∃ r, c.records.get? c.descriptor.name = some r ∧
    r.standing = ⟨c.plugin, c.descriptor, false⟩ ∧
    ∀ n ∈ c.descriptor.dependencies, ∃ s, c.records.get? n = some s ∧ s.enabled = true
  disable : c.kind = .stage .disable → ∃ r, c.records.get? c.descriptor.name = some r ∧
    r.standing = ⟨c.plugin, c.descriptor, true⟩ ∧
    ∀ n s, c.records.get? n = some s → s.enabled = true → n ≠ c.descriptor.name →
      c.descriptor.name ∉ s.descriptor.dependencies

/-- Every call in the journal was founded on what it tells of the time before. -/
def Chronicle (journal : List Call) : Prop :=
  ∀ c earlier, c :: earlier <:+ journal → c.Founded earlier

theorem Chronicle.cons {journal : List Call} (h : Chronicle journal) {c : Call}
    (hc : c.Founded journal) : Chronicle (c :: journal) := by
  intro e earlier hsuffix
  rcases List.suffix_cons_iff.1 hsuffix with heq | hsuffix
  · cases heq
    exact hc
  · exact h e earlier hsuffix

/-- A call that switches a plugin finds it registered and not so yet. -/
theorem Call.Founded.told_of_switch {c : Call} {earlier : List Call} (hc : c.Founded earlier)
    {enabled : Bool} (hs : c.switch? = some enabled) :
    toldOf c.descriptor.name earlier = some ⟨c.plugin, c.descriptor, !enabled⟩ := by
  unfold Call.switch? at hs
  split at hs
  · rename_i hkind _
    cases hs
    obtain ⟨r, hr, hstanding, -⟩ := hc.enable hkind
    rw [hc.told, hr, Option.map_some, hstanding]
    rfl
  · rename_i hkind _
    cases hs
    obtain ⟨r, hr, hstanding, -⟩ := hc.disable hkind
    rw [hc.told, hr, Option.map_some, hstanding]
    rfl
  · cases hs

/-- In a true journal, a plugin is enabled and disabled in turn. -/
theorem Chronicle.alternate {calls : List Call} (h : Chronicle calls) {name : String}
    {during before : List Call} {a : Call} (ht : Term name calls during a before) :
    (switches name during ++ [a.enabled]).IsChain (· ≠ ·) := by
  induction during generalizing calls with
  | nil => exact List.isChain_singleton _
  | cons c during ih =>
    obtain ⟨rest, rfl⟩ : ∃ rest, calls = c :: rest := ⟨_, ht.split⟩
    have hrest := ih (fun e earlier he => h e earlier (he.trans (List.suffix_cons _ _))) ht.tail
    by_cases hname : c.descriptor.name = name
    · cases hswitch : c.switch? with
      | none =>
        rw [switches_cons_of_none hswitch]
        exact hrest
      | some enabled =>
        -- the journal tells the same state twice: as the term has it, and as the call found it
        have hfound := (h c rest (List.suffix_refl _)).told_of_switch hswitch
        rw [hname, ht.tail.told_eq] at hfound
        have hlast : (switches name during).headD a.enabled = !enabled :=
          congrArg Standing.enabled (Option.some.inj hfound)
        have hne : enabled ≠ (switches name during).headD a.enabled := by
          rw [hlast]
          cases enabled <;> decide
        rw [switches_cons_of_some hname hswitch, List.cons_append]
        cases hs : switches name during with
        | nil =>
          rw [hs] at hne
          exact List.isChain_cons_cons.2 ⟨hne, List.isChain_singleton _⟩
        | cons x xs =>
          rw [hs] at hrest hne
          exact List.isChain_cons_cons.2 ⟨hne, hrest⟩
    · rw [switches_cons_of_ne hname]
      exact hrest

namespace Host

/-- The journal tells of all records, now and at every call. -/
structure Accounted (h : Host ω) : Prop where
  told : ∀ n, toldOf n h.journal = (h.records.get? n).map Record.standing
  chronicle : Chronicle h.journal

section
variable {h k : Host ω}

theorem Accounted.of_eq (hi : h.Accounted) (hjournal : k.journal = h.journal)
    (hrecords : ∀ n, (k.records.get? n).map Record.standing =
      (h.records.get? n).map Record.standing) : k.Accounted := by
  refine ⟨fun n => ?_, ?_⟩
  · rw [hjournal, hrecords]
    exact hi.told n
  · rw [hjournal]
    exact hi.chronicle

/-- A call for which the plugin need not be registered. -/
theorem Accounted.founded (hi : h.Accounted) {c : Call} (hc : c.records = h.records)
    (henable : c.kind ≠ .stage .enable) (hdisable : c.kind ≠ .stage .disable) :
    c.Founded h.journal :=
  ⟨fun n => hc ▸ hi.told n, fun hkind => absurd hkind henable, fun hkind => absurd hkind hdisable⟩

/-- A call that changes nothing. -/
theorem Accounted.called (hi : h.Accounted) {kind : CallKind} {plugin : Instance}
    {d : Descriptor} {enabled : Bool} {outcome : Outcome} {world : ω}
    (hidle : Call.Idle ⟨kind, plugin, d, enabled, outcome, h.records⟩)
    (hfounded : Call.Founded ⟨kind, plugin, d, enabled, outcome, h.records⟩ h.journal) :
    (h.called kind plugin d enabled outcome world).Accounted :=
  ⟨fun n => (toldOf_cons_of_idle hidle).trans (hi.told n), hi.chronicle.cons hfounded⟩

theorem Accounted.attached (hi : h.Accounted) (plugin : Instance) (d : Descriptor)
    (enabled : Bool) (world : ω) : (h.called .attach plugin d enabled .ok world).Accounted :=
  hi.called ⟨by simp [Call.admits], by simp [Call.removes], rfl⟩
    (hi.founded rfl (by simp) (by simp))

theorem Accounted.modify (hi : h.Accounted) (name : String) {f : Record → Record}
    (hf : ∀ r, (f r).standing = r.standing) : (h.modify name f).Accounted := by
  refine hi.of_eq rfl fun n => ?_
  rw [modify_records, NameMap.get?_modify]
  split
  · rw [Option.map_map]
    exact congrArg (Option.map · _) (funext hf)
  · rfl

/-- A plugin that is admitted. -/
theorem Accounted.enrol (hi : h.Accounted) {plugin : Instance} {d : Descriptor} {enabled : Bool}
    {routes : List Route} {world : ω} :
    ((h.initialised plugin d enabled .ok world).enter plugin d enabled routes).Accounted := by
  have hattached := hi.attached plugin d enabled world
  refine ⟨fun n => ?_, hattached.chronicle.cons (hattached.founded rfl (by simp) (by simp))⟩
  change toldOf n (⟨.stage .init, plugin, d, enabled, .ok, h.records⟩ ::
    (h.called .attach plugin d enabled .ok world).journal) = _
  rw [enter_records, NameMap.get?_insert, initialised_records]
  by_cases hn : d.name = n
  · rw [toldOf, if_pos hn, if_pos hn.symm]
    simp [Call.admits, Record.standing]
  · rw [toldOf_cons_of_ne hn, if_neg (Ne.symm hn)]
    exact hattached.told n

theorem Accounted.turnAway (hi : h.Accounted) {plugin : Instance} {d : Descriptor}
    {enabled : Bool} {outcome : Outcome} {world : ω} (ho : outcome ≠ .ok) :
    (h.initialised plugin d enabled outcome world).Accounted :=
  (hi.attached plugin d enabled world).called
    ⟨by simp [Call.admits, ho], by simp [Call.removes], by simp [Call.switch?]⟩
    ((hi.attached plugin d enabled world).founded rfl (by simp) (by simp))

/-- A plugin that is shut down and loses its record. -/
theorem Accounted.evict (hi : h.Accounted) {name : String} {r : Record} {outcome : Outcome}
    {world : ω} (hname : r.descriptor.name = name) (ho : outcome.returned = true) :
    Accounted { h.recalled .shutdown r outcome world with records := h.records.erase name } := by
  refine ⟨fun n => ?_, hi.chronicle.cons (hi.founded rfl (by simp) (by simp))⟩
  change toldOf n (⟨.stage .shutdown, r.plugin, r.descriptor, r.enabled, outcome, h.records⟩ ::
    h.journal) = ((h.records.erase name).get? n).map Record.standing
  rw [NameMap.get?_erase]
  by_cases hn : r.descriptor.name = n
  · rw [toldOf, if_pos hn, if_pos (hn.symm.trans hname)]
    simp [Call.admits, Call.removes, ho]
  · rw [toldOf_cons_of_ne hn, if_neg fun heq => hn (hname.trans heq.symm)]
    exact hi.told n

/-- A plugin that is enabled or disabled with success. -/
theorem Accounted.switched (hi : h.Accounted) {name : String} {r : Record} {stage : Stage}
    {enabled : Bool} {world : ω} (hname : r.descriptor.name = name)
    (hswitch : Call.switch? ⟨.stage stage, r.plugin, r.descriptor, r.enabled, .ok, h.records⟩ =
      some enabled)
    (hfounded : Call.Founded ⟨.stage stage, r.plugin, r.descriptor, r.enabled, .ok, h.records⟩
      h.journal) :
    ((h.recalled stage r .ok world).modify name fun r => { r with enabled }).Accounted := by
  refine ⟨fun n => ?_, hi.chronicle.cons hfounded⟩
  change toldOf n (⟨.stage stage, r.plugin, r.descriptor, r.enabled, .ok, h.records⟩ ::
    h.journal) = ((h.records.modify name _).get? n).map Record.standing
  rw [NameMap.get?_modify]
  by_cases hn : r.descriptor.name = n
  · rw [if_pos (hn.symm.trans hname), toldOf_cons_of_switch hn hswitch, hi.told,
      Option.map_map, Option.map_map]
    rfl
  · rw [toldOf_cons_of_ne hn, if_neg fun heq => hn (hname.trans heq.symm)]
    exact hi.told n

/-- A plugin that is called to be enabled: it is registered and disabled, and what it needs is
enabled. -/
theorem Accounted.founded_enable (hi : h.Accounted) (hcoherent : Coherent h.records)
    {name : String} {r : Record} (hr : h.records.get? name = some r) (hoff : r.enabled = false)
    (hready : ∀ n ∈ r.descriptor.dependencies, h.isEnabled n = true) (outcome : Outcome) :
    Call.Founded ⟨.stage .enable, r.plugin, r.descriptor, r.enabled, outcome, h.records⟩
      h.journal := by
  refine ⟨hi.told, fun _ => ⟨r, (hcoherent.named hr).symm ▸ hr, ?_, fun n hn => ?_⟩,
    fun hkind => by simp at hkind⟩
  · rw [Record.standing, hoff]
  · have hon := hready n hn
    rw [isEnabled] at hon
    cases hs : h.records.get? n with
    | none => simp [hs] at hon
    | some s => exact ⟨s, rfl, by simpa [hs] using hon⟩

/-- A plugin that is called to be disabled: it is registered and enabled, and no other plugin
that is enabled needs it. -/
theorem Accounted.founded_disable (hi : h.Accounted) (hcoherent : Coherent h.records)
    {name : String} {r : Record} (hr : h.records.get? name = some r) (hon : r.enabled = true)
    (hfree : h.blocker? name = none) (outcome : Outcome) :
    Call.Founded ⟨.stage .disable, r.plugin, r.descriptor, r.enabled, outcome, h.records⟩
      h.journal := by
  have hname : r.descriptor.name = name := hcoherent.named hr
  refine ⟨hi.told, fun hkind => by simp at hkind, fun _ => ⟨r, hname.symm ▸ hr, ?_, ?_⟩⟩
  · rw [Record.standing, hon]
  · intro n s hs hson hne
    have hother : s.descriptor.name ≠ name := by
      rw [hcoherent.named hs, ← hname]
      exact hne
    exact hname.symm ▸
      not_mem_dependencies_of_blocker? hfree (NameMap.mem_values_of_get? hs) hson hother

/-- Every move keeps the journal true. -/
theorem accounted_move (hm : Move h k) (hcoherent : Coherent h.records) (hi : h.Accounted) :
    k.Accounted := by
  cases hm with
  | world => exact hi.of_eq rfl fun _ => rfl
  | enrol => exact hi.enrol
  | turnAway _ ho => exact hi.turnAway ho
  | evict hr ho => exact hi.evict (hcoherent.named hr) (returned_eq_true_iff.2 ho)
  | keep hr =>
    exact hi.called ⟨by simp [Call.admits], by simp [Call.removes, Outcome.returned], rfl⟩
      (hi.founded rfl (by simp) (by simp))
  | enable hr hoff hready =>
    exact hi.switched (hcoherent.named hr) rfl (hi.founded_enable hcoherent hr hoff hready .ok)
  | @enableFails _ r outcome _ hr hoff hready ho =>
    exact hi.called ⟨by simp [Call.admits], by simp [Call.removes], by simp [Call.switch?, ho]⟩
      (hi.founded_enable hcoherent hr hoff hready outcome)
  | disable hr hon hfree =>
    exact hi.switched (hcoherent.named hr) rfl (hi.founded_disable hcoherent hr hon hfree .ok)
  | @disableFails _ r outcome _ hr hon hfree ho =>
    exact hi.called ⟨by simp [Call.admits], by simp [Call.removes], by simp [Call.switch?, ho]⟩
      (hi.founded_disable hcoherent hr hon hfree outcome)
  | @bind name _ router _ t world =>
    have hbound : Accounted { h with world, tables := h.tables.insert router.table t } :=
      hi.of_eq rfl fun _ => rfl
    exact hbound.modify name fun _ => rfl
  | bindFails => exact hi.of_eq rfl fun _ => rfl
  | attachRouter => exact hi.of_eq rfl fun _ => rfl
  | detachRouter =>
    refine hi.of_eq rfl fun n => ?_
    rw [setRouter_none_records, NameMap.get?_map, Option.map_map]
    rfl

theorem Reachable.accounted {P : Plugins ω} (hr : Reachable P h) : h.Accounted :=
  hr.invariant_of_moves (fun _ => ⟨fun _ => rfl, by simp [Chronicle, Host.start]⟩)
    fun _ _ hcoherent hm hi => accounted_move hm hcoherent hi

end

end Host

/-! ## Admissions as disabled -/

/-- The call comes after the shutdown of a disabled plugin of the same name; in between the
plugin was only handed the host. -/
def Call.Succeeds (c : Call) (earlier : List Call) : Prop :=
  ∃ a s rest, earlier = a :: s :: rest ∧ a.kind = .attach ∧ s.kind = .stage .shutdown ∧
    s.outcome = .ok ∧ s.descriptor.name = c.descriptor.name ∧ s.enabled = false

/-- Plugins are admitted as disabled only in the place of disabled ones. -/
def Successive (journal : List Call) : Prop :=
  ∀ c earlier, c :: earlier <:+ journal → c.admits = true → c.enabled = false → c.Succeeds earlier

theorem Successive.cons {journal : List Call} (h : Successive journal) {c : Call}
    (hc : c.admits = true → c.enabled = false → c.Succeeds journal) :
    Successive (c :: journal) := by
  intro e earlier hsuffix
  rcases List.suffix_cons_iff.1 hsuffix with heq | hsuffix
  · cases heq
    exact hc
  · exact h e earlier hsuffix

theorem Successive.pass {journal : List Call} (h : Successive journal) {c : Call}
    (hc : c.admits = false) : Successive (c :: journal) :=
  h.cons fun hadmits => by simp [hc] at hadmits

namespace Host

theorem successive_stride {P : Plugins ω} {h k : Host ω} (hs : Stride P h k)
    (hcoherent : Coherent h.records) (hi : Successive h.journal) : Successive k.journal := by
  cases hs with
  | swap hold hoff =>
    refine ((hi.pass (by simp [Call.admits])).pass (by simp [Call.admits])).cons fun _ _ => ?_
    exact ⟨_, _, _, rfl, rfl, rfl, rfl, hcoherent.named hold, hoff⟩
  | move hmove _ henabled =>
    cases hmove with
    | @enrol plugin d enabled routes world ha =>
      obtain rfl : enabled = true := enabled_of_entered ha henabled
      exact (hi.pass (by simp [Call.admits])).cons fun _ hoff => by cases hoff
    | turnAway _ ho => exact (hi.pass (by simp [Call.admits])).pass (by simp [Call.admits, ho])
    | evict | keep | enable | enableFails | disable | disableFails =>
      exact hi.pass (by simp [Call.admits])
    | world | bind | bindFails | attachRouter | detachRouter => exact hi

theorem setRouter_journal (router : Option Router) (h : Host ω) :
    (h.setRouter router).journal = h.journal := by
  cases router <;> rfl

theorem Reachable.successive {P : Plugins ω} {h : Host ω} (hr : Reachable P h) :
    Successive h.journal :=
  hr.invariant_of_strides (I := fun h => Successive h.journal)
    (fun _ => by simp [Successive, Host.start])
    (fun _ _ hcoherent hs hi => successive_stride hs hcoherent hi)
    (fun h router hi => (setRouter_journal router h).symm ▸ hi) fun _ _ hi => hi

/-! ## All switches -/

/-- The records at some time, and the calls that had been made by then: at the end, or when one
of the calls was made. -/
inductive Moment (h : Host ω) : NameMap Record → List Call → Prop where
  | now : Moment h h.records h.journal
  | call {c : Call} {earlier : List Call} (hc : c :: earlier <:+ h.journal) :
      Moment h c.records earlier

theorem Accounted.told_at {h : Host ω} (hi : h.Accounted) {records : NameMap Record}
    {calls : List Call} (hm : Moment h records calls) (n : String) :
    toldOf n calls = (records.get? n).map Record.standing := by
  cases hm with
  | now => exact hi.told n
  | call hc => exact (hi.chronicle _ _ hc).told n

/-- In the journal of every host that a run leads to, the successful switches of a plugin between
its admission and its end alternate, and begin with the state that it was not admitted in; it is
admitted as disabled only in the place of a disabled plugin. At every moment each record has such
a time, and its state is that of the admission, flipped once for each switch since then. Whoever
is called to be enabled or disabled, with success or not, is registered by then; to be enabled,
with all it needs registered and enabled; to be disabled, with nobody else enabled who needs
it. -/
theorem reachable_switches {P : Plugins ω} {h : Host ω} (hr : Reachable P h) :
    (∀ calls, calls <:+ h.journal → ∀ name during a before, Term name calls during a before →
      (switches name during ++ [a.enabled]).IsChain (· ≠ ·) ∧
        (a.enabled = false → a.Succeeds before)) ∧
    (∀ records calls, Moment h records calls → ∀ name r, records.get? name = some r →
      ∃ during a before, Term name calls during a before ∧ a.plugin = r.plugin ∧
        a.descriptor = r.descriptor ∧ r.enabled = not^[(switches name during).length] a.enabled) ∧
    (∀ c ∈ h.journal, c.kind = .stage .enable →
      ∃ r, c.records.get? c.descriptor.name = some r ∧
        r.standing = ⟨c.plugin, c.descriptor, false⟩ ∧
        ∀ n ∈ c.descriptor.dependencies, ∃ s, c.records.get? n = some s ∧ s.enabled = true) ∧
    ∀ c ∈ h.journal, c.kind = .stage .disable →
      ∃ r, c.records.get? c.descriptor.name = some r ∧
        r.standing = ⟨c.plugin, c.descriptor, true⟩ ∧
        ∀ n s, c.records.get? n = some s → s.enabled = true → n ≠ c.descriptor.name →
          c.descriptor.name ∉ s.descriptor.dependencies := by
  have hi : h.Accounted := hr.accounted
  have hbefore : ∀ c ∈ h.journal, ∃ earlier, c.Founded earlier := by
    intro c hc
    obtain ⟨later, earlier, heq⟩ := List.append_of_mem hc
    exact ⟨earlier, hi.chronicle c earlier (heq ▸ List.suffix_append later _)⟩
  refine ⟨fun calls hcalls name during a before ht => ⟨?_, fun hoff => ?_⟩,
    fun records calls hm name r hget => ?_, fun c hc hkind => ?_, fun c hc hkind => ?_⟩
  · exact Chronicle.alternate (fun c earlier hc => hi.chronicle c earlier (hc.trans hcalls)) ht
  · refine hr.successive a before ?_ ht.admits hoff
    exact (ht.split ▸ List.suffix_append during (a :: before)).trans hcalls
  · have htold := hi.told_at hm name
    rw [hget] at htold
    obtain ⟨during, a, before, ht⟩ := exists_term htold
    have hchronicle : Chronicle calls := by
      cases hm with
      | now => exact hi.chronicle
      | call hc =>
        exact fun e earlier he =>
          hi.chronicle e earlier (he.trans ((List.suffix_cons _ _).trans hc))
    rw [ht.told_eq] at htold
    obtain ⟨hplugin, hdescriptor, henabled⟩ := Standing.mk.inj (Option.some.inj htold)
    refine ⟨during, a, before, ht, hplugin, hdescriptor, ?_⟩
    rw [← henabled]
    exact headD_of_isChain (hchronicle.alternate ht)
  · obtain ⟨earlier, hfounded⟩ := hbefore c hc
    exact hfounded.enable hkind
  · obtain ⟨earlier, hfounded⟩ := hbefore c hc
    exact hfounded.disable hkind

/-- A heater that does as it is told. -/
def heaterPlugins : Plugins Unit :=
  .constant (fun _ => ⟨"heater", "", "1.0.0", [], []⟩) fun _ _ => .ok

/-- The heater is disabled, enabled, disabled again and put in its own place; then it is admitted
as disabled, and enabled. -/
def heaterHost : Host Unit :=
  (start ()).runAll heaterPlugins [.register ⟨0⟩, .disable "heater", .enable "heater",
    .disable "heater", .reload "heater", .enable "heater"]

/-- Its second time begins as disabled, after that of the first one, and has one switch. -/
theorem heater_switches :
    ∃ (c a : Call) (before : List Call), Reachable heaterPlugins heaterHost ∧
      Term "heater" heaterHost.journal [c] a before ∧ a.enabled = false ∧
      switches "heater" heaterHost.journal = [true, false, true, false] ∧
      (switches "heater" [c] ++ [a.enabled]).IsChain (· ≠ ·) ∧ a.Succeeds before := by
  have hr : Reachable heaterPlugins heaterHost := (Reachable.start ()).runAll _
  have hterm : Term "heater" heaterHost.journal [_] _ _ :=
    ⟨rfl, rfl, rfl, by simp [Call.admits, Call.removes]⟩
  obtain ⟨hchain, hsucceeds⟩ :=
    (reachable_switches hr).1 _ (List.suffix_refl _) "heater" _ _ _ hterm
  exact ⟨_, _, _, hr, hterm, rfl, rfl, hchain, hsucceeds rfl⟩

end Host

end PluginHost
