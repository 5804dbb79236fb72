import PluginHost.CommandLine.Arguments

/-!
# Help

What the program says of how it is called.
-/
namespace PluginHost.CommandLine

/-- What a command is for. -/
def CommandName.purpose : CommandName → String
  | .check => "Verify plugin dependencies in a directory"
  | .graph => "Print the dependency load order of a directory"
  | .list => "List the plugins a directory provides"
  | .manifest => "Parse and print a plugin manifest"
  | .serve => "Host plugins and reload them as their files change"

/-- How an option is written. -/
def OptionForm.shown (f : OptionForm) : String :=
  let letter := (f.letter.map fun c => "-" ++ String.singleton c ++ ", ").getD ""
  letter ++ "--" ++ f.long ++ (if f.kind = .value then " PATH" else "")

/-- The lines on a command and its options. -/
def CommandName.help (c : CommandName) : List String :=
  ("  " ++ c.name ++ (if c.operandLimit = 0 then "" else " PATH") ++ "    " ++ c.purpose) ::
    c.forms.map fun f => "      " ++ f.shown

/-- The lines of the help. -/
def usage : List String :=
  ["Run and inspect hot-reloadable plugins", "", "Commands:"] ++
    CommandName.all.flatMap CommandName.help

end PluginHost.CommandLine
