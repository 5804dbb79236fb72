import PluginHost.Json.Basic

/-!
# Records in documents

A record is written as an object with a member for each field, in any order and among others
that mean nothing, or as an array with the fields in their order. What a field holds is read by
a function on its document.

* `Json.fields?`: the documents of the fields.
-/
namespace PluginHost.Json

/-- What stands under a name or one of its other spellings: nothing, or one value. It is an
error when several members have one of the spellings. -/
def field? (spellings : List String) (members : List (String × Json)) : Option (Option Json) :=
  match members.filter fun m => spellings.contains m.1 with
  | [] => some none
  | [m] => some (some m.2)
  | _ => none

/-- The fields of a record in their order, from an object by their spellings, or from an array
by position. An array may leave out fields at its end and has nothing beyond them. -/
def fields? (spellings : List (List String)) : Json → Option (List (Option Json))
  | .object members => spellings.mapM (field? · members)
  | .array items =>
    if spellings.length < items.length then none
    else some (items.map some ++ List.replicate (spellings.length - items.length) none)
  | _ => none

/-- A field that has to be there. -/
def required {α : Type} (read : Json → Option α) (field : Option Json) : Option α :=
  field.bind read

/-- A field with a value that stands for it when it is left out. -/
def defaulted {α : Type} (default : α) (read : Json → Option α) : Option Json → Option α
  | none => some default
  | some j => read j

/-- A field that may be left out or be null. -/
def optional {α : Type} (read : Json → Option α) : Option Json → Option (Option α)
  | none | some .null => some none
  | some j => (read j).map some

/-- A truth value. -/
def bool? : Json → Option Bool
  | .bool b => some b
  | _ => none

/-- A natural number of at most 64 bits. -/
def natural? (j : Json) : Option Nat :=
  match j.int? with
  | some (.ofNat n) => if n < Nat.pow 2 64 then some n else none
  | _ => none

end PluginHost.Json
