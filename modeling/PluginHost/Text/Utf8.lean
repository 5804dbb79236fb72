/-!
# Texts as bytes

Names of files are bytes, names of plugins are texts. `utf8` writes a text as its UTF-8 bytes
and `ofUtf8?` reads it back; the two are inverse, and bytes that spell no text are refused.

* `mem_utf8_iff`: a small byte stands for its letter and for nothing else.
-/
namespace PluginHost.Text

/-- The UTF-8 bytes of a text. -/
def utf8 (s : String) : List UInt8 :=
  s.toUTF8.data.toList

/-- The text that the bytes spell, if they are UTF-8. -/
def ofUtf8? (bytes : List UInt8) : Option String :=
  String.fromUTF8? ⟨bytes.toArray⟩

@[simp] theorem utf8_append (s t : String) : utf8 (s ++ t) = utf8 s ++ utf8 t := by
  simp [utf8]

@[simp] theorem ofUtf8?_utf8 (s : String) : ofUtf8? (utf8 s) = some s := by
  simp only [ofUtf8?, utf8, String.fromUTF8?, String.toUTF8_eq_toByteArray,
    dif_pos s.isValidUTF8]
  rfl

theorem utf8_of_ofUtf8? {bytes : List UInt8} {s : String} (h : ofUtf8? bytes = some s) :
    utf8 s = bytes := by
  unfold ofUtf8? String.fromUTF8? at h
  split at h
  · next hv =>
    rw [Option.some.injEq] at h
    subst h
    rfl
  · contradiction

theorem utf8_eq_flatMap (s : String) : utf8 s = s.toList.flatMap String.utf8EncodeChar := by
  have h : s.toUTF8 = (s.toList.flatMap String.utf8EncodeChar).toByteArray := by
    rw [String.toUTF8_eq_toByteArray, ← List.utf8Encode, ← String.toByteArray_ofList,
      String.ofList_toList]
  rw [utf8, h]
  simp

/-- The letters behind the first 128 are written with large bytes only. -/
theorem le_of_mem_utf8EncodeChar {c : Char} (hc : 127 < c.toNat) {b : UInt8}
    (hb : b ∈ String.utf8EncodeChar c) : 128 ≤ b.toNat := by
  have hvalue : ¬ c.val.toNat ≤ 127 := Nat.not_le.2 hc
  unfold String.utf8EncodeChar at hb
  simp only [if_neg hvalue] at hb
  split at hb
  · simp only [List.mem_cons, List.not_mem_nil, or_false] at hb
    rcases hb with rfl | rfl <;> rw [UInt8.toNat_ofNat'] <;> omega
  split at hb
  · simp only [List.mem_cons, List.not_mem_nil, or_false] at hb
    rcases hb with rfl | rfl | rfl <;> rw [UInt8.toNat_ofNat'] <;> omega
  · simp only [List.mem_cons, List.not_mem_nil, or_false] at hb
    rcases hb with rfl | rfl | rfl | rfl <;> rw [UInt8.toNat_ofNat'] <;> omega

/-- A small byte is part of no letter but the one that it is the number of. -/
theorem mem_utf8EncodeChar {b : UInt8} (hb : b.toNat < 128) {c : Char} :
    b ∈ String.utf8EncodeChar c ↔ c.toNat = b.toNat := by
  have hc : c.val.toNat = c.toNat := rfl
  by_cases hsmall : c.toNat ≤ 127
  · unfold String.utf8EncodeChar
    simp only [hc, if_pos hsmall]
    rw [List.mem_singleton, ← UInt8.toNat_inj, UInt8.toNat_ofNat', Nat.mod_eq_of_lt (by omega),
      eq_comm]
  · refine iff_of_false (fun hmem => ?_) (by omega)
    have := le_of_mem_utf8EncodeChar (by omega) hmem
    omega

/-- A text is written with a small byte exactly when it has the letter. -/
theorem mem_utf8_iff {c : Char} (hc : c.toNat < 128) {s : String} :
    UInt8.ofNat c.toNat ∈ utf8 s ↔ c ∈ s.toList := by
  have hbyte : (UInt8.ofNat c.toNat).toNat = c.toNat := by
    rw [UInt8.toNat_ofNat']
    omega
  rw [utf8_eq_flatMap, List.mem_flatMap]
  constructor
  · rintro ⟨d, hd, hmem⟩
    have heq := (mem_utf8EncodeChar (by omega)).1 hmem
    rwa [← Char.toNat_inj.1 (heq.trans hbyte)]
  · exact fun hmem => ⟨c, hmem, (mem_utf8EncodeChar (by omega)).2 hbyte.symm⟩

theorem utf8_inj {s t : String} : utf8 s = utf8 t ↔ s = t := by
  refine ⟨fun h => ?_, congrArg utf8⟩
  have hread := ofUtf8?_utf8 s
  rw [h, ofUtf8?_utf8, Option.some.injEq] at hread
  exact hread.symm

end PluginHost.Text
