import PluginHost.Text.Natural

/-!
# Which texts are read as numbers

Decimal digits are read to the number that they spell, however many there are and whatever zeros
are in front, as long as the number does not go beyond the limit.

* `Spells`: digits spell a number.
* `boundedNat?_eq_some_iff`: the texts that are read to a number.
* `boundedNat?_of_spells`: what digits alone are read to.
-/
namespace PluginHost.Text

/-- The digits, of which there is at least one, spell the number. -/
def Spells (cs : List Char) (n : Nat) : Prop :=
  cs ≠ [] ∧ (∀ c ∈ cs, c.isDigit = true) ∧ Nat.ofDigitChars 10 cs 0 = n

section
variable {c : Char} {cs : List Char} {s : String} {n limit : Nat}

theorem digit?_eq : digit? c = if c.isDigit then some (c.toNat - '0'.toNat) else none := by
  have hdigit : ('0' ≤ c ∧ c ≤ '9') ↔ c.isDigit = true := by
    rw [Char.isDigit, Bool.and_eq_true, decide_eq_true_eq, decide_eq_true_eq]
    exact Iff.rfl
  simp only [digit?, hdigit]

theorem decimalFrom?_eq_some_iff {acc : Nat} : decimalFrom? acc cs = some n ↔
    (∀ c ∈ cs, c.isDigit = true) ∧ Nat.ofDigitChars 10 cs acc = n := by
  induction cs generalizing acc with
  | nil => simp [decimalFrom?]
  | cons c cs ih =>
    rw [decimalFrom?, digit?_eq]
    cases hc : c.isDigit <;> simp [hc, ih, Nat.ofDigitChars_cons]

theorem decimal?_eq_some_iff : decimal? cs = some n ↔ Spells cs n := by
  cases cs with
  | nil => simp [decimal?, Spells]
  | cons c cs => simp [decimal?, Spells, decimalFrom?_eq_some_iff]

/-- No digits begin with a plus sign. -/
theorem not_spells_plus : ¬ Spells ('+' :: cs) n := fun ⟨_, hdigits, _⟩ =>
  absurd (hdigits '+' List.mem_cons_self) (by decide)

/-- A text is read to a number if it spells it, with or without a plus sign in front. -/
theorem boundedNat?_eq_some_iff : boundedNat? limit s = some n ↔
    (Spells s.toList n ∨ ∃ cs, s.toList = '+' :: cs ∧ Spells cs n) ∧ n ≤ limit := by
  rw [boundedNat?, Option.filter_eq_some_iff, decide_eq_true_eq, decimal?_eq_some_iff]
  refine and_congr_left fun _ => ?_
  split
  · rename_i cs hplus
    rw [hplus]
    exact ⟨fun h => Or.inr ⟨cs, rfl, h⟩, fun h => h.elim (absurd · not_spells_plus)
      fun ⟨ds, heq, hds⟩ => (List.cons.inj heq).2 ▸ hds⟩
  · rename_i hplain
    exact ⟨Or.inl, fun h => h.elim id fun ⟨cs, heq, _⟩ => absurd heq (hplain cs)⟩

theorem Spells.unique {m : Nat} (hn : Spells cs n) (hm : Spells cs m) : m = n :=
  hm.2.2.symm.trans hn.2.2

/-- Digits that spell a number beyond the limit are not read. -/
theorem boundedNat?_of_spells (h : Spells s.toList n) :
    boundedNat? limit s = if n ≤ limit then some n else none := by
  split
  · rename_i hle
    exact boundedNat?_eq_some_iff.2 ⟨Or.inl h, hle⟩
  · rename_i hgt
    refine Option.eq_none_iff_forall_ne_some.2 fun m hm => ?_
    obtain ⟨hspells | ⟨cs, hplus, -⟩, hle⟩ := boundedNat?_eq_some_iff.1 hm
    · exact hgt (h.unique hspells ▸ hle)
    · rw [hplus] at h
      exact not_spells_plus h

end

end PluginHost.Text
