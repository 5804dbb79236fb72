/-!
# White space

`isBlankChar` is the Unicode property `White_Space`. `trim` takes it off both ends of a text,
and a text is blank when nothing else is in it. Names, version requirements and environment
values are all read through these two.
-/
namespace PluginHost.Text

/-- The characters of the Unicode property `White_Space`. -/
def isBlankChar (c : Char) : Bool :=
  let n := c.toNat
  (0x9 ≤ n && n ≤ 0xd) || n = 0x20 || n = 0x85 || n = 0xa0 || n = 0x1680 ||
    (0x2000 ≤ n && n ≤ 0x200a) || n = 0x2028 || n = 0x2029 || n = 0x202f || n = 0x205f ||
    n = 0x3000

/-- Takes the characters that satisfy `p` off both ends. -/
def trimChars (p : Char → Bool) (cs : List Char) : List Char :=
  ((cs.dropWhile p).reverse.dropWhile p).reverse

/-- The text without the white space at its ends. -/
def trim (s : String) : String :=
  String.ofList (trimChars isBlankChar s.toList)

/-- Nothing but white space, or nothing at all. -/
def isBlank (s : String) : Bool :=
  s.toList.all isBlankChar

theorem dropWhile_eq_nil_iff {p : Char → Bool} {cs : List Char} :
    cs.dropWhile p = [] ↔ ∀ c ∈ cs, p c = true := by
  induction cs with
  | nil => simp
  | cons c cs ih =>
    by_cases h : p c = true
    · simp [h, ih]
    · simp [h]

/-- A text is blank exactly when trimming leaves nothing. -/
theorem all_iff_trimChars_eq_nil (p : Char → Bool) (cs : List Char) :
    cs.all p = true ↔ trimChars p cs = [] := by
  simp only [trimChars, List.reverse_eq_nil_iff, dropWhile_eq_nil_iff, List.mem_reverse,
    List.all_eq_true]
  constructor
  · intro h x hx
    exact h x ((List.dropWhile_sublist p).subset hx)
  · intro h x hx
    rw [← List.takeWhile_append_dropWhile (p := p) (l := cs), List.mem_append] at hx
    rcases hx with hx | hx
    · exact List.all_eq_true.1 List.all_takeWhile x hx
    · exact h x hx

theorem isBlank_iff_trim_eq_empty (s : String) : isBlank s = true ↔ trim s = "" := by
  rw [isBlank, all_iff_trimChars_eq_nil, trim]
  constructor
  · intro h; rw [h]
  · intro h; simpa using congrArg String.toList h

end PluginHost.Text
