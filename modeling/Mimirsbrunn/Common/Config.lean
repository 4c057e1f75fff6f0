import Mimirsbrunn.Library.Layers
import Mimirsbrunn.Library.Outcome
import Mimirsbrunn.Library.Regex

namespace Mimirsbrunn.Common
open Regex Layers Outcome

inductive Error (ConfigError : Type) where
  | splitting (msg : Text)
  | configValue (source : ConfigError)
  | configCompilation (source : ConfigError)
  | unrecognizedValueType (details : Text)

inductive Resolved (Config ConfigError : Type) where
  | unresolved (error : ConfigError)
  | malformed (error : ConfigError)
  | parsed (contents : Config)

-- What is used of the crate `config`, a configuration being read at its leaf keys.
structure Crate (Config Key Value ConfigError : Type) where
  default : Config
  merge : Config → Config → Config
  get : Config → Key → Option Value
  fromStr : Text → Except ConfigError Config

structure Crate.DeepMerge {Config Key Value ConfigError : Type}
    (crate : Crate Config Key Value ConfigError) : Prop where
  get_default : ∀ key, crate.get crate.default key = none
  get_merge : ∀ config source key,
    crate.get (crate.merge config source) key = (crate.get source key).or (crate.get config key)

structure Machine (Config ConfigError : Type) where
  var : Text → Option Text
  isFile : Text → Bool
  resolve : Text → Resolved Config ConfigError
  environment : Text → Text → Except ConfigError Config

section Paths

def join (dir path : Text) : Text :=
  if path.head? = some '/' then path
  else if dir = [] ∨ dir.getLast? = some '/' then dir ++ path
  else dir ++ '/' :: path

-- On a reversed path: a final separator and a final `.` are no component.
def trimmed : Text → Text
  | '/' :: path => trimmed path
  | '.' :: '/' :: path => trimmed path
  | path => path

-- On a reversed file name: a dot that only leads begins no extension.
def fileStem (name : Text) : Text :=
  match name.dropWhile (· ≠ '.') with
  | _ :: c :: stem => c :: stem
  | _ => name

def withExtension (path extension : Text) : Text :=
  let path' := trimmed path.reverse
  let name := path'.takeWhile (· ≠ '/')
  if name = [] ∨ name = ['.'] ∨ name = ['.', '.'] then path
  else
    let kept := (path'.dropWhile (· ≠ '/')).reverse ++ (fileStem name).reverse
    if extension = [] then kept else kept ++ '.' :: extension

end Paths

variable {Config Key Value ConfigError : Type} (crate : Crate Config Key Value ConfigError)
  (machine : Machine Config ConfigError)

structure File where
  path : Text
  required : Bool

def File.collect (file : File) : Except ConfigError Config :=
  match machine.resolve file.path with
  | .unresolved error => if file.required then .error error else .ok crate.default
  | .malformed error => .error error
  | .parsed contents => .ok contents

def mergeSource (config : Config) (source : Except ConfigError Config) : Except ConfigError Config :=
  source.map (crate.merge config)

-- The RUN_MODE environment variable overrides the one given as argument.
def runModeOf (runMode : Option Text) : Option Text :=
  (machine.var "RUN_MODE".toList).or runMode

def tomlPath (configDir subDir name : Text) : Text :=
  withExtension (join (join configDir subDir) name) "toml".toList

def mergeRunMode (configDir : Text) (runMode : Option Text) (config : Config) (subDir : Text) :
    Except ConfigError Config :=
  match runModeOf machine runMode with
  | none => .ok config
  | some runMode =>
      let runModePath := tomlPath configDir subDir runMode
      if machine.isFile runModePath then
        mergeSource crate config (File.collect crate machine ⟨runModePath, false⟩)
      else .ok config

def mergeSubDir (configDir : Text) (runMode : Option Text) (config : Config) (subDir : Text) :
    Except ConfigError Config := do
  let defaultPath := tomlPath configDir subDir "default".toList
  let config ← mergeSource crate config (File.collect crate machine ⟨defaultPath, true⟩)
  let config ← mergeRunMode crate machine configDir runMode config subDir
  let localPath := tomlPath configDir subDir "local".toList
  mergeSource crate config (File.collect crate machine ⟨localPath, false⟩)

def configFromArgs (args : List Text) : Except (Error ConfigError) Config :=
  (args.foldlM (fun builder arg => mergeSource crate builder (crate.fromStr arg))
    crate.default).mapError .configCompilation

def mergeEnvironment (envPrefix : Option Text) (config : Config) : Except ConfigError Config :=
  match envPrefix with
  | none => .ok config
  | some label => mergeSource crate config (machine.environment label "__".toList)

def mergeOverrides (overrides : List Text) (config : Config) :
    Except (Error ConfigError) Config :=
  if overrides.isEmpty then .ok config
  else (configFromArgs crate overrides).map (crate.merge config)

def configFrom (configDir : Text) (subDirs : List Text) (runMode envPrefix : Option Text)
    (overrides : List Text) : Except (Error ConfigError) Config := do
  let config ← (subDirs.foldlM (mergeSubDir crate machine configDir runMode)
    crate.default).mapError .configCompilation
  let config ← (mergeEnvironment crate machine envPrefix config).mapError .configCompilation
  mergeOverrides crate overrides config

end Mimirsbrunn.Common
