import Mimirsbrunn.Common.Config

namespace Mimirsbrunn.Common
open Regex Layers Outcome

variable {Config Key Value ConfigError : Type} (crate : Crate Config Key Value ConfigError)
  (machine : Machine Config ConfigError) (configDir : Text) (subDirs : List Text)
  (runMode envPrefix : Option Text) (overrides : List Text) (key : Key)

inductive Layer where
  | defaultFile
  | runModeFile
  | localFile

def layers : List Layer := [.defaultFile, .runModeFile, .localFile]

def layerPath (subDir : Text) : Layer → Option Text
  | .defaultFile => some (tomlPath configDir subDir "default".toList)
  | .runModeFile =>
      ((runModeOf machine runMode).map (tomlPath configDir subDir)).filter machine.isFile
  | .localFile => some (tomlPath configDir subDir "local".toList)

def sourceValue : Except ConfigError Config → Option Value
  | .ok contents => crate.get contents key
  | .error _ => none

def pathValue (path : Text) : Option Value :=
  match machine.resolve path with
  | .parsed contents => crate.get contents key
  | _ => none

def fileValue (subDir : Text) (layer : Layer) : Option Value :=
  (layerPath machine configDir runMode subDir layer).bind (pathValue crate machine key)

def environmentValue : Option Value :=
  envPrefix.bind (fun label => sourceValue crate key (machine.environment label "__".toList))

def overrideValue : Option Value :=
  lastDefined (overrides.map (fun arg => sourceValue crate key (crate.fromStr arg)))

def highestLayer : Option Value :=
  (overrideValue crate overrides key).or ((environmentValue crate machine envPrefix key).or
    (byLayer (fileValue crate machine configDir runMode key) subDirs layers))

variable {crate machine configDir subDirs runMode envPrefix overrides key}
  {config config' : Config} {subDir : Text}

section Steps

variable (law : crate.DeepMerge)
include law

theorem mergeSource_get {source : Except ConfigError Config}
    (h : mergeSource crate config source = .ok config') :
    crate.get config' key = (sourceValue crate key source).or (crate.get config key) := by
  obtain ⟨contents, rfl, rfl⟩ := map_ok.mp h
  exact law.get_merge config contents key

theorem sourceValue_collect (file : File) :
    sourceValue crate key (file.collect crate machine) = pathValue crate machine key file.path := by
  rw [File.collect, pathValue]
  cases machine.resolve file.path with
  | unresolved error =>
      by_cases hr : file.required
      · simp [hr, sourceValue]
      · simpa [hr, sourceValue] using law.get_default key
  | malformed error => rfl
  | parsed contents => rfl

theorem mergeRunMode_get
    (h : mergeRunMode crate machine configDir runMode config subDir = .ok config') :
    crate.get config' key =
      (fileValue crate machine configDir runMode key subDir .runModeFile).or
        (crate.get config key) := by
  rw [mergeRunMode] at h
  rw [fileValue, layerPath]
  cases hmode : runModeOf machine runMode with
  | none =>
      rw [hmode] at h
      obtain rfl := Except.ok.inj h
      rfl
  | some mode =>
      rw [hmode] at h
      cases hfile : machine.isFile (tomlPath configDir subDir mode) with
      | false =>
          obtain rfl : config = config' := by simpa [hfile] using h
          simp [Option.filter_some, hfile]
      | true =>
          rw [mergeSource_get law (by simpa [hfile] using h), sourceValue_collect law]
          simp [Option.filter_some, hfile]

theorem mergeSubDir_get
    (h : mergeSubDir crate machine configDir runMode config subDir = .ok config') :
    crate.get config' key =
      (lastDefined (layers.map (fileValue crate machine configDir runMode key subDir))).or
        (crate.get config key) := by
  obtain ⟨c₁, h₁, h⟩ := bind_ok.mp h
  obtain ⟨c₂, h₂, h₃⟩ := bind_ok.mp h
  rw [mergeSource_get law h₃, mergeRunMode_get law h₂, mergeSource_get law h₁,
    sourceValue_collect law, sourceValue_collect law]
  simp [layers, lastDefined_cons, lastDefined_nil, Option.or_assoc, fileValue, layerPath]

theorem foldlM_get {α : Type} {step : Config → α → Except ConfigError Config}
    {offer : α → Option Value} {sources : List α}
    (hstep : ∀ config source config', step config source = .ok config' →
      crate.get config' key = (offer source).or (crate.get config key))
    (h : sources.foldlM step crate.default = .ok config) :
    crate.get config key = lastDefined (sources.map offer) := by
  rw [foldlM_view (fun config => crate.get config key) offer (fun heard x => x.or heard) hstep h,
    foldl_or, law.get_default, Option.or_none]

theorem mergeSubDirs_get
    (h : subDirs.foldlM (mergeSubDir crate machine configDir runMode) crate.default = .ok config) :
    crate.get config key =
      byRow (fileValue crate machine configDir runMode key) subDirs layers := by
  rw [byRow_eq]
  exact foldlM_get law (fun _ _ _ hstep => mergeSubDir_get law hstep) h

theorem mergeEnvironment_get (h : mergeEnvironment crate machine envPrefix config = .ok config') :
    crate.get config' key =
      (environmentValue crate machine envPrefix key).or (crate.get config key) := by
  cases envPrefix with
  | none =>
      obtain rfl := Except.ok.inj h
      rfl
  | some label => exact mergeSource_get law h

theorem configFromArgs_get (h : configFromArgs crate overrides = .ok config) :
    crate.get config key = overrideValue crate overrides key :=
  foldlM_get law (fun _ _ _ hstep => mergeSource_get law hstep) (mapError_ok.mp h)

theorem mergeOverrides_get (h : mergeOverrides crate overrides config = .ok config') :
    crate.get config' key = (overrideValue crate overrides key).or (crate.get config key) := by
  rw [mergeOverrides] at h
  cases overrides with
  | nil =>
      obtain rfl := Except.ok.inj h
      rfl
  | cons arg args =>
      obtain ⟨source, hargs, rfl⟩ := map_ok.mp h
      rw [law.get_merge, configFromArgs_get law hargs]

theorem configFrom_get
    (h : configFrom crate machine configDir subDirs runMode envPrefix overrides = .ok config) :
    crate.get config key =
      (overrideValue crate overrides key).or ((environmentValue crate machine envPrefix key).or
        (byRow (fileValue crate machine configDir runMode key) subDirs layers)) := by
  obtain ⟨c₁, h₁, h⟩ := bind_ok.mp h
  obtain ⟨c₂, h₂, h₃⟩ := bind_ok.mp h
  rw [mergeOverrides_get law h₃, mergeEnvironment_get law (mapError_ok.mp h₂),
    mergeSubDirs_get law (mapError_ok.mp h₁)]

end Steps

theorem layering_kept_iff (law : crate.DeepMerge)
    (h : configFrom crate machine configDir subDirs runMode envPrefix overrides = .ok config) :
    crate.get config key =
        highestLayer crate machine configDir subDirs runMode envPrefix overrides key ↔
      (overrideValue crate overrides key = none →
        environmentValue crate machine envPrefix key = none →
        ¬ ∃ i hi j lo w v, Shadowed (fileValue crate machine configDir runMode key) subDirs layers
          i hi j lo w v) := by
  rw [configFrom_get law h, highestLayer, ← byRow_ne_byLayer, not_not]
  cases overrideValue crate overrides key with
  | some v => simp
  | none =>
      cases environmentValue crate machine envPrefix key with
      | some v => simp
      | none => simp

section Osm2mimir

def assignments : Crate (List (Text × Text)) Text Text Text where
  default := []
  merge config source := source ++ config
  get config key := config.lookup key
  fromStr arg :=
    match arg.span (· ≠ '=') with
    | (key, _ :: value) => .ok [(key, value)]
    | _ => .error "expected an equals".toList

theorem assignments_deepMerge : assignments.DeepMerge where
  get_default _ := rfl
  get_merge _ _ _ := List.lookup_append

def esUrl : Text := "elasticsearch.url".toList

def files : List (Text × List (Text × Text)) :=
  [("config/osm2mimir/default.toml".toList, [("nb_threads".toList, "2".toList)]),
   ("config/osm2mimir/local.toml".toList, [(esUrl, "'http://es:9200'".toList)]),
   ("config/elasticsearch/default.toml".toList, [(esUrl, "'http://localhost:9200'".toList)])]

def machineWith (files : List (Text × List (Text × Text))) :
    Machine (List (Text × Text)) Text where
  var _ := none
  isFile path := (files.lookup path).isSome
  resolve path :=
    match files.lookup path with
    | some contents => .parsed contents
    | none => .unresolved "configuration file not found".toList
  environment _ _ := .ok []

def osm2mimirDirs : List Text := ["osm2mimir".toList, "elasticsearch".toList]

def osm2mimirConfig : List (Text × Text) :=
  [("nb_threads".toList, "4".toList), (esUrl, "'http://localhost:9200'".toList),
   (esUrl, "'http://es:9200'".toList), ("nb_threads".toList, "2".toList)]

theorem osm2mimir_configFrom :
    configFrom assignments (machineWith files) "config".toList osm2mimirDirs none
      (some "MIMIR".toList) ["nb_threads=4".toList] = .ok osm2mimirConfig := by
  rfl

theorem default_overrides_local :
    assignments.DeepMerge ∧ ∃ config,
      configFrom assignments (machineWith files) "config".toList osm2mimirDirs none
        (some "MIMIR".toList) ["nb_threads=4".toList] = .ok config ∧
      assignments.get config esUrl = some "'http://localhost:9200'".toList ∧
      highestLayer assignments (machineWith files) "config".toList osm2mimirDirs none
        (some "MIMIR".toList) ["nb_threads=4".toList] esUrl = some "'http://es:9200'".toList :=
  ⟨assignments_deepMerge, osm2mimirConfig, osm2mimir_configFrom, by decide, by decide⟩

theorem local_url_shadowed :
    ∃ i hi j lo w v, Shadowed (fileValue assignments (machineWith files) "config".toList none esUrl)
      osm2mimirDirs layers i hi j lo w v := by
  by_contra hnone
  have hget := (layering_kept_iff assignments_deepMerge osm2mimir_configFrom).mpr
    (fun _ _ => hnone)
  revert hget
  decide

end Osm2mimir

end Mimirsbrunn.Common
