import PluginHost.FileTree
import PluginHost.Json.Fields
import PluginHost.ManifestFile
import PluginHost.Text.Blank
import PluginHost.Toml.Reader
import PluginHost.Watch.Watcher

/-!
# Configuration

Four settings come from layers that may each leave any of them open: the environment, an
explicit file, the user's file and the defaults, in this order of precedence. A setting is the
value of the first layer that has it. An environment variable whose value means nothing counts
as unset, but a file that cannot be read is an error. Where the home directory is, or whether
there is one, is for the system to say, and given here.

* `Layer.overlay`: one layer on top of another.
* `Config.load`, `Config.loadFrom`: the settings of all layers, or of one file.
-/
namespace PluginHost

/-- The environment variables that are set. -/
abbrev Environment := NameMap String

/-- Settings, each of them possibly left open. -/
structure Layer where
  dir : Option String
  watcherEnabled : Option Bool
  hotReload : Option Bool
  debounce : Option Nat
  deriving DecidableEq, Repr

/-- The settings. -/
structure Config where
  /-- The directory that plugins are loaded from and watched in. -/
  dir : String
  watcherEnabled : Bool
  hotReload : Bool
  /-- How long a file has to be quiet, in milliseconds. -/
  debounce : Nat
  deriving DecidableEq, Repr

/-- Why there are no settings. -/
inductive ConfigError where
  | unreadable (path : String)
  | malformed (path : String)
  deriving DecidableEq, Repr

namespace ConfigError

/-- The kind of a cause. -/
def kind : ConfigError → String
  | .unreadable _ => "Io"
  | .malformed _ => "Parse"

/-- What is said of a file that cannot be read. -/
def unreadableMessage (path source : String) : String :=
  "Failed to read config " ++ path ++ ": " ++ source

/-- What is said of a cause. -/
def message : ConfigError → String
  | .unreadable path => unreadableMessage path systemText
  | .malformed path => "Failed to parse config " ++ path ++ ": " ++ readerText

end ConfigError

/-! ## Places -/

namespace Environment

/-- The variables that matter. -/
def variableNames : List String :=
  ["XDG_CONFIG_HOME", "HOTSWAP_PLUGINS_DIR", "HOTSWAP_WATCHER_ENABLED", "HOTSWAP_HOT_RELOAD",
    "HOTSWAP_DEBOUNCE_MS"]

/-- The value of a variable that is set and not empty. -/
def nonEmpty? (env : Environment) (name : String) : Option String :=
  (env.get? name).filter (· ≠ "")

/-- The directory of the configuration: in the directory for all configurations if one is named,
else in the home directory, and else, without a home, from here. -/
def configDir (env : Environment) (home : Option String) : String :=
  match env.nonEmpty? "XDG_CONFIG_HOME", home with
  | some base, _ => FileTree.join base "hotswap"
  | none, some home => FileTree.join home ".config/hotswap"
  | none, none => ".config/hotswap"

/-- The directory of plugins, unless one is set. -/
def pluginsDir (env : Environment) (home : Option String) : String :=
  FileTree.join (env.configDir home) "plugins"

/-- The user's own file of settings. -/
def userFile (env : Environment) (home : Option String) : String :=
  FileTree.join (env.configDir home) "config.toml"

end Environment

/-! ## Layers -/

namespace Layer

/-- Leaves every setting open. -/
def empty : Layer := ⟨none, none, none, none⟩

/-- This layer, and the one below wherever it leaves a setting open. -/
def overlay (l below : Layer) : Layer :=
  { dir := l.dir.or below.dir
    watcherEnabled := l.watcherEnabled.or below.watcherEnabled
    hotReload := l.hotReload.or below.hotReload
    debounce := l.debounce.or below.debounce }

/-- The names of the settings, in their order. -/
def settingNames : List String :=
  ["dir", "watcher_enabled", "hot_reload", "debounce_ms"]

/-- The layer that a document stands for: a table that may leave settings out, or an array of
all of them, whose items beyond are passed over. -/
def ofJson? (j : Json) : Option Layer := do
  let fields ← match j with
    | .array items =>
      if items.length < settingNames.length then none
      else some ((items.take settingNames.length).map some)
    | j => j.fields? (settingNames.map fun n => [n])
  match fields with
  | [dir, watcherEnabled, hotReload, debounce] =>
    return {
      dir := ← Json.optional Json.text? dir
      watcherEnabled := ← Json.optional Json.bool? watcherEnabled
      hotReload := ← Json.optional Json.bool? hotReload
      debounce := ← Json.optional Json.natural? debounce }
  | _ => none

/-- The layer that a text spells, under `plugins`. -/
def ofText? (text : String) : Option Layer := do
  match ← (← Toml.read? text).fields? [["plugins"]] with
  | [plugins] => Json.defaulted empty ofJson? plugins
  | _ => none

/-- The layer in a file. -/
def ofFile (files : FileTree) (path : String) : Except ConfigError Layer :=
  match files.text? path with
  | none => .error (.unreadable path)
  | some text =>
    match ofText? text with
    | none => .error (.malformed path)
    | some l => .ok l

/-- The truth value of a word, white space around it and capitals aside. -/
def word? (s : String) : Option Bool :=
  let w := (Text.trim s).map Char.toLower
  if ["1", "true", "yes", "on"].contains w then some true
  else if ["0", "false", "no", "off"].contains w then some false
  else none

/-- The layer of the environment. -/
def ofEnvironment (env : Environment) : Layer :=
  { dir := (env.get? "HOTSWAP_PLUGINS_DIR").filter (!Text.isBlank ·)
    watcherEnabled := (env.get? "HOTSWAP_WATCHER_ENABLED").bind word?
    hotReload := (env.get? "HOTSWAP_HOT_RELOAD").bind word?
    debounce := (env.get? "HOTSWAP_DEBOUNCE_MS").bind fun s =>
      Text.boundedNat? Text.maxUInt64 (Text.trim s) }

end Layer

/-! ## Settings -/

namespace Config

/-- The settings when nothing is set. -/
def defaults (env : Environment) (home : Option String) : Config :=
  let options : WatchOptions := {}
  { dir := env.pluginsDir home
    watcherEnabled := true
    hotReload := options.hotReload
    debounce := options.debounce }

/-- The settings of a layer on top of the defaults. -/
def ofLayer (env : Environment) (home : Option String) (l : Layer) : Config :=
  let d := defaults env home
  { dir := l.dir.getD d.dir
    watcherEnabled := l.watcherEnabled.getD d.watcherEnabled
    hotReload := l.hotReload.getD d.hotReload
    debounce := l.debounce.getD d.debounce }

/-- The layer of the user's file, which need not be there. -/
def userLayer (env : Environment) (home : Option String) (files : FileTree) :
    Except ConfigError Layer :=
  if files.pathExists (env.userFile home) then Layer.ofFile files (env.userFile home)
  else .ok Layer.empty

/-- The layer of the explicit file, if one is given. -/
def explicitLayer (files : FileTree) : Option String → Except ConfigError Layer
  | none => .ok Layer.empty
  | some path => Layer.ofFile files path

/-- The settings of all layers. -/
def load (env : Environment) (home : Option String) (files : FileTree)
    (explicit : Option String) : Except ConfigError Config :=
  match userLayer env home files with
  | .error e => .error e
  | .ok user =>
    match explicitLayer files explicit with
    | .error e => .error e
    | .ok explicit =>
      .ok (ofLayer env home ((Layer.ofEnvironment env).overlay (explicit.overlay user)))

/-- The settings of one file alone. -/
def loadFrom (env : Environment) (home : Option String) (files : FileTree) (path : String) :
    Except ConfigError Config :=
  match Layer.ofFile files path with
  | .error e => .error e
  | .ok l => .ok (ofLayer env home l)

/-- The options of a watcher. -/
def watchOptions (c : Config) : WatchOptions :=
  { debounce := c.debounce, hotReload := c.hotReload }

/-- The settings are the same; directories may be spelled differently. -/
def isSame (c d : Config) : Bool :=
  FileTree.samePath c.dir d.dir && c.watcherEnabled == d.watcherEnabled &&
    c.hotReload == d.hotReload && c.debounce == d.debounce

/-- The settings as a document. -/
def toJson (c : Config) : Json :=
  .object [("plugins", .object [
    ("dir", .string c.dir),
    ("watcher_enabled", .bool c.watcherEnabled),
    ("hot_reload", .bool c.hotReload),
    ("debounce_ms", Json.ofNat c.debounce)])]

/-- The settings that a document stands for, with every one of them. -/
def settings? (j : Json) : Option Config := do
  match ← j.fields? (Layer.settingNames.map fun n => [n]) with
  | [dir, watcherEnabled, hotReload, debounce] =>
    return {
      dir := ← Json.required Json.text? dir
      watcherEnabled := ← Json.required Json.bool? watcherEnabled
      hotReload := ← Json.required Json.bool? hotReload
      debounce := ← Json.required Json.natural? debounce }
  | _ => none

/-- The settings that a document has under `plugins`, or else the defaults. -/
def ofJson? (env : Environment) (home : Option String) (j : Json) : Option Config := do
  match ← j.fields? [["plugins"]] with
  | [plugins] => Json.defaulted (defaults env home) settings? plugins
  | _ => none

end Config

end PluginHost
