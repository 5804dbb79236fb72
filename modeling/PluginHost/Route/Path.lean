import PluginHost.NameMap

/-!
# Paths of routes

A path is what its segments are: the pieces between slashes that are not empty. A pattern is
read from a path, and a segment of it that begins with a colon stands for any one segment of a
request.

* `fullPath`: where the routes of a plugin are mounted.
* `Pattern.match?`: the parameters of a request path that a pattern matches.
-/
namespace PluginHost.Route

/-- Puts a piece in front unless it is empty. -/
def consPiece (piece : List Char) (pieces : List String) : List String :=
  if piece = [] then pieces else String.ofList piece :: pieces

/-- The pieces between slashes that are not empty; `piece` is the one that has begun. -/
def segmentsFrom (piece : List Char) : List Char → List String
  | [] => consPiece piece []
  | c :: cs =>
    if c = '/' then consPiece piece (segmentsFrom [] cs) else segmentsFrom (piece ++ [c]) cs

/-- The segments of a path. -/
def segments (path : String) : List String :=
  segmentsFrom [] path.toList

/-- Every route of a plugin is mounted under this. -/
def mountPoint : String := "/plugins"

/-- The path without the slashes at its end. -/
def trimSlashes (path : String) : String :=
  String.ofList (path.toList.reverse.dropWhile (· = '/')).reverse

/-- The full path of a plugin's route. -/
def fullPath (plugin path : String) : String :=
  let path := trimSlashes path
  if path = "" then mountPoint ++ "/" ++ plugin
  else if path.toList.head? = some '/' then mountPoint ++ "/" ++ plugin ++ path
  else mountPoint ++ "/" ++ plugin ++ "/" ++ path

/-- A segment of a pattern. -/
inductive Segment where
  | literal (text : String)
  | param (name : String)
  deriving DecidableEq, Repr, Inhabited

/-- The segments that a path has to have. -/
abbrev Pattern := List Segment

/-- Why a path is no pattern. -/
inductive PatternError where
  | emptyName
  | repeatedName (name : String)
  deriving DecidableEq, Repr

/-- What is said of a path that is no pattern. -/
def PatternError.message : PatternError → String
  | .emptyName => "empty path parameter name"
  | .repeatedName name => "duplicate path parameter ':" ++ name ++ "'"

/-- The segment of a pattern that a segment of its path stands for. -/
def Segment.ofText (s : String) : Segment :=
  match s.toList with
  | ':' :: name => .param (String.ofList name)
  | _ => .literal s

namespace Pattern

/-- The names of the parameters. -/
def params (p : Pattern) : List String :=
  p.filterMap fun
    | .param name => some name
    | .literal _ => none

/-- Adds segments to a pattern: a parameter needs a name, and one that is not taken. -/
def extend (p : Pattern) : List Segment → Except PatternError Pattern
  | [] => .ok p
  | .param name :: ss =>
    if name = "" then .error .emptyName
    else if p.params.contains name then .error (.repeatedName name)
    else extend (p ++ [.param name]) ss
  | .literal s :: ss => extend (p ++ [.literal s]) ss

/-- The pattern of a path. -/
def ofPath (path : String) : Except PatternError Pattern :=
  extend [] ((segments path).map Segment.ofText)

/-- Compares a pattern with segments one by one and collects the parameters. -/
def matchSegments (found : NameMap String) : Pattern → List String → Option (NameMap String)
  | [], [] => some found
  | .literal s :: p, t :: ts => if s = t then matchSegments found p ts else none
  | .param name :: p, t :: ts => matchSegments (found.insert name t) p ts
  | _, _ => none

/-- The parameters of a request path that the pattern matches. -/
def match? (p : Pattern) (path : String) : Option (NameMap String) :=
  matchSegments ∅ p (segments path)

end Pattern

end PluginHost.Route
