import PluginHost.NameMap
import PluginHost.Json.Printer

/-!
# Requests and responses

What a route is asked and what it answers. Bodies are texts, and a JSON body is written on one
line with its members in order.
-/
namespace PluginHost

/-- The methods a route can be bound to. -/
inductive Method where
  | get
  | post
  | put
  | delete
  | patch
  | options
  deriving DecidableEq, Repr, Inhabited

namespace Method

/-- The method in a request line. -/
def name : Method → String
  | .get => "GET"
  | .post => "POST"
  | .put => "PUT"
  | .delete => "DELETE"
  | .patch => "PATCH"
  | .options => "OPTIONS"

/-- The method in a diagnostic. -/
def label : Method → String
  | .get => "Get"
  | .post => "Post"
  | .put => "Put"
  | .delete => "Delete"
  | .patch => "Patch"
  | .options => "Options"

/-- All methods. -/
def all : List Method := [.get, .post, .put, .delete, .patch, .options]

/-- The method of a name; case matters. -/
def ofName? (s : String) : Option Method :=
  all.find? (·.name == s)

theorem ofName?_name (m : Method) : ofName? m.name = some m := by
  cases m <;> decide

/-- The method that a document stands for: its name, or an object whose only member has that
name and nothing in it. -/
def ofJson? : Json → Option Method
  | .string s => ofName? s
  | .object [(s, .null)] => ofName? s
  | _ => none

end Method

/-- A request as a handler sees it. -/
structure Request where
  /-- What the parameters of the route's path stand for. -/
  params : NameMap String
  query : NameMap String
  headers : NameMap String
  body : String
  deriving DecidableEq, Repr

/-- The answer to a request. -/
structure Response where
  status : Nat
  contentType : String
  body : String
  deriving DecidableEq, Repr, Inhabited

namespace Response

/-- A JSON answer. -/
def json (status : Nat) (j : Json) : Response :=
  ⟨status, "application/json", j.sortMembers.compact⟩

/-- A plain text answer. -/
def text (status : Nat) (s : String) : Response :=
  ⟨status, "text/plain", s⟩

/-- An answer without a body. -/
def empty (status : Nat) : Response :=
  ⟨status, "application/json", ""⟩

end Response

/-- A map of texts as a document. -/
def NameMap.toJson (m : NameMap String) : Json :=
  .object (m.entries.map fun e => (e.1, .string e.2))

end PluginHost
