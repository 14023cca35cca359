/-
**Where the options of a server are from.**

`main` reads `./sunkv.conf`, then the file of `--config`, then the command line. An option that is
refused is logged and skipped; a file keeps the last line of a name, the command line every
occurrence.

* `assigned`, `flagValues` — what a file and a command line say about an option;
* `configMap_of_readLines`, `FromFiles.load` — a file; `slot_loadFlags` — the command line;
* `startup_precedence` — **an option of a server is its last accepted value on the command line,
  else that of the file of `--config`, else that of `./sunkv.conf`, else the default**;
* `wiring_as_configured` — what the storage of a server that starts is given is what these options
  say: no conversion wraps, and the fallback for the policy of the log is never taken.
-/

import SunKV.Common.ConfigFile

namespace SunKV.Common

open SunKV.Lib SunKV.Storage

/-! ### What a file says -/

/-- The entry of a line. -/
def entryOf (line : Bytes) : Option (Bytes × Bytes) :=
  if line = [] ∨ line.head? = some 35 ∨ line.head? = some 59 ∨ 61 ∉ line then none
  else (Config.readValue (line.dropWhile (· ≠ 61)).tail).map fun value =>
    (strip Config.isBlank (line.takeWhile (· ≠ 61)), value)

/-- The last value that lines give to a name. -/
def lastEntry (name : Bytes) : List Bytes → Option Bytes
  | [] => none
  | line :: rest =>
    (lastEntry name rest).or
      ((entryOf line).bind fun entry => if entry.1 = name then some entry.2 else none)

/-- **The value that a file gives to an option**, if it gives one that is accepted. -/
def Config.File.assigned (key : ConfigKey) : Config.File → Option key.spec.type.Value
  | .holds content => (lastEntry key.name (lines 10 content)).bind key.spec.type.parse
  | _ => none

namespace Config

/-- A line enters its entry. -/
theorem loadLine_eq {config next : Config} {line : Bytes}
    (loaded : config.loadLine line = some next) :
    next = { config with configMap := (entryOf line).elim config.configMap fun entry =>
      config.configMap.insert entry.1 entry.2 } := by
  by_cases skipped : line = [] ∨ line.head? = some 35 ∨ line.head? = some 59
  · rw [loadLine, if_pos skipped] at loaded
    have nothing : entryOf line = none := if_pos (by tauto)
    cases loaded
    rw [nothing]
    rfl
  · rw [loadLine, if_neg skipped, parseLine] at loaded
    by_cases equal : 61 ∉ line
    · rw [if_pos equal] at loaded
      have nothing : entryOf line = none := if_pos (by tauto)
      cases loaded
      rw [nothing]
      rfl
    · rw [if_neg equal] at loaded
      obtain ⟨value, read, entered⟩ := Option.bind_eq_some_iff.mp loaded
      cases entered
      rw [entryOf, if_neg (by tauto), read]
      rfl

/-- After the lines of a file a name has the last value they give it, else the one it had. -/
theorem configMap_of_readLines {config read : Config} {content : Bytes}
    (ran : readLines content config = some read) :
    read.values = config.values ∧ read.sourceMap = config.sourceMap ∧
      read.logLevelFromCli = config.logLevelFromCli ∧
      ∀ name, read.configMap[name]? =
        (lastEntry name (lines 10 content)).or config.configMap[name]? := by
  unfold readLines at ran
  generalize lines 10 content = all at ran ⊢
  induction all generalizing config with
  | nil =>
    cases ran
    exact ⟨rfl, rfl, rfl, fun _ => rfl⟩
  | cons line rest ih =>
    obtain ⟨next, loaded, ran⟩ := Option.bind_eq_some_iff.mp (List.foldlM_cons.symm.trans ran)
    obtain ⟨values, sources, cli, map⟩ := ih ran
    have entered := loadLine_eq loaded
    rw [entered] at values sources cli map
    refine ⟨values, sources, cli, fun name => ?_⟩
    rw [map name, lastEntry, Option.or_assoc]
    congr 1
    cases entryOf line with
    | none => rfl
    | some entry =>
      simp only [Option.elim_some, Option.bind_some, Std.ExtTreeMap.getElem?_insert,
        Std.compare_eq_iff_eq]
      split <;> rfl

end Config

/-! ### The files -/

/-- An option with the value that was chosen for it by a source, else the default. -/
def chosenSlot (key : ConfigKey) (chosen : Option key.spec.type.Value) (src : Source) :
    Slot key.spec.type :=
  chosen.elim ⟨Config.members.values key, some .default⟩ fun value => ⟨value, some src⟩

/-- **An option after some files**: the chosen value, which is the one in the map unless that was
refused. -/
structure FromFiles (config : Config) (key : ConfigKey) (chosen : Option key.spec.type.Value) :
    Prop where
  slot : config.slot key = chosenSlot key chosen .configFile
  entry : ∀ value, (config.configMap[key.name]?).bind key.spec.type.parse = some value →
    chosen = some value
  cli : config.logLevelFromCli = false

theorem fromFiles_getInstance (key : ConfigKey) : FromFiles Config.getInstance key none where
  slot := Config.slot_getInstance key
  entry value held := by
    rw [Config.configMap_getInstance] at held
    simp at held
  cli := (Config.members.setAll_rest _ _).2

/-- A file may set an option that is from a file or a default. -/
theorem set_chosenSlot (key : ConfigKey) (chosen : Option key.spec.type.Value) (text : Bytes) :
    (chosenSlot key chosen .configFile).set .configFile text =
      chosenSlot key ((key.spec.type.parse text).or chosen) .configFile := by
  have permitted : (chosenSlot key chosen .configFile).source.any
      (fun held => Source.configFile.rank < held.rank) = false := by
    cases chosen <;> simp [chosenSlot, Source.rank]
  rw [Slot.set, if_neg (by simp [permitted])]
  cases key.spec.type.parse text with
  | none => rfl
  | some value => rfl

/-- **One more file.** -/
theorem FromFiles.loadText {config loaded : Config} {key : ConfigKey}
    {chosen : Option key.spec.type.Value} (before : FromFiles config key chosen) {content : Bytes}
    (ran : config.loadText content = some loaded) :
    FromFiles loaded key ((Config.File.holds content).assigned key |>.or chosen) := by
  obtain ⟨read, reads, rfl⟩ :=
    Option.map_eq_some_iff.mp ((Config.loadText_eq _ _).symm.trans ran)
  obtain ⟨values, sources, cli, map⟩ := Config.configMap_of_readLines reads
  have start : read.slot key = chosenSlot key chosen .configFile := by
    rw [← before.slot, Config.slot, values, sources]
    rfl
  obtain ⟨sameMap, sameCli⟩ := read.setAll_rest .configFile read.configMap.toList
  have held := map key.name
  refine ⟨?_, ?_, sameCli.trans (cli.trans before.cli)⟩
  · rw [Config.slot_setAll_map, start, held, Config.File.assigned]
    cases lastEntry key.name (lines 10 content) with
    | some text => exact set_chosenSlot key chosen text
    | none =>
      cases old : config.configMap[key.name]? with
      | none => rfl
      | some text =>
        -- the entry of an earlier file is set once more
        refine (set_chosenSlot key chosen text).trans (congrArg (chosenSlot key · _) ?_)
        cases parses : key.spec.type.parse text with
        | none => rfl
        | some value => exact (before.entry value (by rw [old]; exact parses)).symm
  · intro value accepted
    rw [sameMap, held] at accepted
    rw [Config.File.assigned]
    cases last : lastEntry key.name (lines 10 content) with
    | some text =>
      rw [last] at accepted
      rw [Option.bind_some, show key.spec.type.parse text = some value from accepted]
      rfl
    | none =>
      rw [last] at accepted
      exact before.entry value accepted

/-- A file that could be loaded. -/
theorem FromFiles.loadFromFile {config loaded : Config} {key : ConfigKey}
    {chosen : Option key.spec.type.Value} (before : FromFiles config key chosen)
    {file : Config.File} (ran : config.loadFromFile file = some (true, loaded)) :
    FromFiles loaded key ((file.assigned key).or chosen) := by
  cases file with
  | holds content =>
    obtain ⟨next, loads, same⟩ := Option.bind_eq_some_iff.mp ran
    cases same
    exact before.loadText loads
  | missing => cases ran
  | locked => cases ran

/-! ### The command line -/

/-- The values that a command line gives to an option. -/
def flagValues (key : ConfigKey) : List Bytes → List Bytes
  | arg :: value :: rest =>
    if arg = utf8 "--config" then flagValues key rest
    else
      match specByFlag arg with
      | none => flagValues key (value :: rest)
      | some other =>
        if other = key then value :: flagValues key rest else flagValues key rest
  | _ => []

/-- The last text that is accepted. -/
def lastValid (type : ValueType) : List Bytes → Option type.Value
  | [] => none
  | text :: rest => (lastValid type rest).or (type.parse text)

/-- The command line may set everything. -/
theorem foldl_set_commandLine {type : ValueType} (texts : List Bytes) (slot : Slot type) :
    texts.foldl (fun slot text => slot.set .commandLine text) slot =
      (lastValid type texts).elim slot fun value => ⟨value, some .commandLine⟩ := by
  induction texts generalizing slot with
  | nil => rfl
  | cons text rest ih =>
    have highest : ¬ slot.source.any (fun held => Source.commandLine.rank < held.rank) = true := by
      cases slot.source with
      | none => simp
      | some held => cases held <;> simp [Source.rank]
    rw [List.foldl_cons, ih, lastValid, Slot.set, if_neg highest]
    cases lastValid type rest with
    | some value => rfl
    | none =>
      cases type.parse text with
      | none => rfl
      | some value => rfl

namespace Config

theorem slot_setFlag (config : Config) (other key : ConfigKey) (value : Bytes) :
    (config.setFlag other value).slot key =
      if other = key then (config.slot key).set .commandLine value else config.slot key := by
  have set := config.slot_setFromKeyValue other.name value .commandLine key
  simp only [name_injective.eq_iff] at set
  rw [← set, setFlag]
  split <;> rfl

/-- **The command line**: every option sees its own values. -/
theorem slot_loadFlags {args : List Bytes} {config final : Config}
    (ran : loadFlags args config = (.ok, final)) (key : ConfigKey) :
    final.slot key = (flagValues key args).foldl (fun slot text => slot.set .commandLine text)
      (config.slot key) := by
  fun_induction loadFlags args config with
  | case1 config =>
    cases ran
    rfl
  | case2 | case3 => cases ran
  | case4 arg config help unknown =>
    cases ran
    rfl
  | case5 value rest config ih =>
    rw [flagValues, if_pos rfl]
    exact ih ran
  | case6 => cases ran
  | case7 arg value rest config option help unknown ih =>
    rw [flagValues, if_neg option, unknown]
    exact ih ran
  | case8 arg value rest config option help other found ih =>
    rw [ih ran, slot_setFlag, flagValues, if_neg option, found]
    by_cases same : other = key
    · simp only [if_pos same, List.foldl_cons]
    · simp only [if_neg same]

theorem logLevelFromCli_setFlag {config : Config} {other : ConfigKey} {value : Bytes}
    (apart : other ≠ .logLevel) :
    (config.setFlag other value).logLevelFromCli = config.logLevelFromCli := by
  have key : other.spec.key ≠ "log_level" := fun same =>
    apart (name_injective (congrArg utf8 same))
  rw [setFlag, if_neg key]
  exact (config.setFromKeyValue_rest _ _ _).2

/-- `log_level_from_cli` is set by its option only. -/
theorem logLevelFromCli_loadFlags {args : List Bytes} {config final : Config}
    (ran : loadFlags args config = (.ok, final)) (before : config.logLevelFromCli = false)
    (after : final.logLevelFromCli = true) : flagValues .logLevel args ≠ [] := by
  fun_induction loadFlags args config with
  | case1 config | case4 arg config =>
    cases ran
    rw [before] at after
    cases after
  | case2 | case3 | case6 => cases ran
  | case5 value rest config ih =>
    rw [flagValues, if_pos rfl]
    exact ih ran before
  | case7 arg value rest config option help unknown ih =>
    rw [flagValues, if_neg option, unknown]
    exact ih ran before
  | case8 arg value rest config option help other found ih =>
    rw [flagValues, if_neg option, found]
    by_cases same : other = .logLevel
    · simp only [if_pos same]
      exact List.cons_ne_nil _ _
    · simp only [if_neg same]
      exact ih ran ((logLevelFromCli_setFlag same).trans before)

end Config

/-! ### The start of the server -/

/-- The file that the command line names. -/
def namedFile (files : Bytes → Config.File) (args : List Bytes) : Config.File :=
  if Config.configPath [] args = [] then .missing else files (Config.configPath [] args)

/-- The defaults: a debug build logs more. -/
def buildDefaults (debug : Bool) : (key : ConfigKey) → key.spec.type.Value :=
  if debug then Function.update Config.members.values .logLevel (utf8 "DEBUG")
  else Config.members.values

/-- **The option that a server is to have.** -/
def effective (debug : Bool) (files : Bytes → Config.File) (args : List Bytes) (key : ConfigKey) :
    key.spec.type.Value :=
  ((lastValid key.spec.type (flagValues key args)).or
    (((namedFile files args).assigned key).or
      ((files (utf8 "./sunkv.conf")).assigned key))).getD (buildDefaults debug key)

/-- The way through `loadFromArgs`. -/
theorem loadFromArgs_cases {config final : Config} {files : Bytes → Config.File}
    {args : List Bytes} (ran : config.loadFromArgs files args = some (.ok, final)) :
    ∃ loaded,
      (Config.configPath [] args = [] ∧ loaded = config ∨
        Config.configPath [] args ≠ [] ∧
          config.loadFromFile (files (Config.configPath [] args)) = some (true, loaded)) ∧
      Config.loadFlags args loaded = (.ok, final) := by
  simp only [Config.loadFromArgs] at ran
  by_cases path : Config.configPath [] args = []
  · rw [if_pos path] at ran
    exact ⟨config, Or.inl ⟨path, rfl⟩, Option.some.inj ran⟩
  · rw [if_neg path] at ran
    obtain ⟨⟨opened, loaded⟩, loads, ran⟩ := Option.bind_eq_some_iff.mp ran
    cases opened with
    | false => cases ran
    | true => exact ⟨loaded, Or.inr ⟨path, loads⟩, Option.some.inj ran⟩

/-- The way to a server. -/
theorem startup_cases {debug : Bool} {files : Bytes → Config.File} {args : List Bytes}
    {config : Config} (started : startup debug files args = some (.serves config)) :
    ∃ first final, loadDefaultConfig (files (utf8 "./sunkv.conf")) = some (true, first) ∧
      first.loadFromArgs files args = some (.ok, final) ∧
      config = final.applyBuildDefaults debug ∧ config.validate = true := by
  unfold startup at started
  obtain ⟨⟨opened, first⟩, loads, started⟩ := Option.bind_eq_some_iff.mp started
  cases opened with
  | false => cases started
  | true =>
    obtain ⟨⟨result, final⟩, ran, started⟩ := Option.bind_eq_some_iff.mp started
    cases result with
    | showHelp => cases started
    | error => cases started
    | ok =>
      by_cases valid : (final.applyBuildDefaults debug).validate = true
      · have same := Option.some.inj ((if_pos valid).symm.trans started)
        cases same
        exact ⟨first, final, loads, ran, rfl, valid⟩
      · cases (if_neg valid).symm.trans started

theorem fromFiles_loadDefaultConfig {file : Config.File} {first : Config}
    (loads : loadDefaultConfig file = some (true, first)) (key : ConfigKey) :
    FromFiles first key (file.assigned key) := by
  have start := fromFiles_getInstance key
  cases file with
  | missing =>
    simp only [loadDefaultConfig, Option.some.injEq, Prod.mk.injEq, true_and] at loads
    rw [← loads]
    exact start
  | locked => simp [loadDefaultConfig, Config.loadFromFile] at loads
  | holds content =>
    simp only [loadDefaultConfig] at loads
    have loaded := start.loadFromFile loads
    rwa [Option.or_none] at loaded

/-- **An option before the defaults of the build.** -/
theorem slot_of_startup {first final : Config} {files : Bytes → Config.File} {args : List Bytes}
    (file : loadDefaultConfig (files (utf8 "./sunkv.conf")) = some (true, first))
    (ran : first.loadFromArgs files args = some (.ok, final)) (key : ConfigKey) :
    ∃ loaded, Config.loadFlags args loaded = (.ok, final) ∧
      FromFiles loaded key (((namedFile files args).assigned key).or
        ((files (utf8 "./sunkv.conf")).assigned key)) := by
  have one := fromFiles_loadDefaultConfig file key
  obtain ⟨loaded, second, flags⟩ := loadFromArgs_cases ran
  refine ⟨loaded, flags, ?_⟩
  rcases second with ⟨path, rfl⟩ | ⟨path, loads⟩
  · rw [namedFile, if_pos path]
    exact one
  · rw [namedFile, if_neg path]
    exact one.loadFromFile loads

/-- An option with a value of the command line, of a file, or the default. -/
theorem slot_loadFlags_chosen {args : List Bytes} {loaded final : Config} {key : ConfigKey}
    {chosen : Option key.spec.type.Value} (files : FromFiles loaded key chosen)
    (ran : Config.loadFlags args loaded = (.ok, final)) :
    final.slot key =
      (lastValid key.spec.type (flagValues key args)).elim (chosenSlot key chosen .configFile)
        fun value => ⟨value, some .commandLine⟩ := by
  rw [Config.slot_loadFlags ran, files.slot, foldl_set_commandLine]

theorem buildDefaults_of_ne (debug : Bool) {key : ConfigKey} (other : key ≠ .logLevel) :
    buildDefaults debug key = Config.members.values key := by
  unfold buildDefaults
  split
  · exact Function.update_of_ne other ..
  · rfl

/-- Every text is a string. -/
theorem lastValid_string_ne_none {texts : List Bytes} (some : texts ≠ []) :
    lastValid .string texts ≠ none := by
  induction texts with
  | nil => exact absurd rfl some
  | cons text rest ih =>
    rw [lastValid]
    cases rest with
    | nil => exact Option.some_ne_none text
    | cons next rest =>
      obtain ⟨value, found⟩ := Option.ne_none_iff_exists'.mp (ih (List.cons_ne_nil _ _))
      rw [found]
      exact Option.some_ne_none value

section Slots

variable {config : Config} {key : ConfigKey} {line chosen : Option key.spec.type.Value}
  (given : config.slot key = line.elim (chosenSlot key chosen .configFile)
    fun value => ⟨value, some .commandLine⟩)

include given

theorem values_of_slot :
    config.values key = (line.or chosen).getD (Config.members.values key) := by
  rw [← Config.value_slot, given]
  cases line with
  | some value => rfl
  | none => cases chosen <;> rfl

theorem sourceMap_of_slot :
    config.sourceMap key = some .default ∧ line.or chosen = none ∨
      (config.sourceMap key).any (· ≠ .default) = true ∧ line.or chosen ≠ none := by
  have source : config.sourceMap key = (config.slot key).source := rfl
  rw [source, given]
  cases line with
  | some value => exact Or.inr ⟨rfl, Option.some_ne_none value⟩
  | none =>
    cases chosen with
    | some value => exact Or.inr ⟨rfl, Option.some_ne_none value⟩
    | none => exact Or.inl ⟨rfl, rfl⟩

end Slots

theorem name_logLevel : ConfigKey.logLevel.name = utf8 "log_level" := rfl

section BuildDefaults

variable {config : Config} (debug : Bool)

/-- Another option is not touched by the defaults of the build. -/
theorem slot_applyBuildDefaults_of_ne {key : ConfigKey} (other : key ≠ .logLevel) :
    (config.applyBuildDefaults debug).slot key = config.slot key := by
  simp only [Config.applyBuildDefaults]
  split
  · rw [Config.slot_setFromKeyValue, if_neg]
    rw [← name_logLevel]
    exact fun named => other (name_injective named).symm
  · rfl

theorem applyBuildDefaults_of_user
    (user : (config.sourceMap .logLevel).any (· ≠ .default) = true) :
    config.applyBuildDefaults debug = config :=
  if_neg fun applies => applies.2.1 user

/-- A level that nobody has chosen. -/
theorem values_applyBuildDefaults (default : config.sourceMap .logLevel = some .default)
    (values : config.values .logLevel = Config.members.values .logLevel)
    (cli : config.logLevelFromCli = false) :
    (config.applyBuildDefaults debug).values .logLevel = buildDefaults debug .logLevel := by
  cases debug with
  | false =>
    have same : config.applyBuildDefaults false = config := by simp [Config.applyBuildDefaults]
    rw [same]
    exact values
  | true =>
    have set : config.applyBuildDefaults true =
        (config.setFromKeyValue (utf8 "log_level") (utf8 "DEBUG") .default).2 :=
      if_pos ⟨rfl, by simp [default], by simp [cli]⟩
    rw [set, ← Config.value_slot, Config.slot_setFromKeyValue, if_pos name_logLevel.symm,
      (config.slot .logLevel).set_of_le default le_rfl rfl]
    exact (Function.update_self ConfigKey.logLevel (utf8 "DEBUG") Config.members.values).symm

end BuildDefaults

theorem values_of_startup {debug : Bool} {files : Bytes → Config.File} {args : List Bytes}
    {config : Config} (started : startup debug files args = some (.serves config)) :
    config.values = effective debug files args ∧ config.validate = true := by
  obtain ⟨first, final, file, ran, rfl, valid⟩ := startup_cases started
  refine ⟨funext fun key => ?_, valid⟩
  obtain ⟨loaded, flags, chosen⟩ := slot_of_startup file ran key
  have given := slot_loadFlags_chosen chosen flags
  have values := values_of_slot given
  by_cases same : key = .logLevel
  · subst same
    rcases sourceMap_of_slot given with ⟨default, nobody⟩ | ⟨user, chosen⟩
    · have cli : final.logLevelFromCli = false := Bool.eq_false_iff.mpr fun set =>
        lastValid_string_ne_none (Config.logLevelFromCli_loadFlags flags chosen.cli set)
          (Option.or_eq_none_iff.mp nobody).1
      rw [nobody, Option.getD_none] at values
      rw [effective, nobody, Option.getD_none, values_applyBuildDefaults debug default values cli]
    · obtain ⟨value, found⟩ := Option.ne_none_iff_exists'.mp chosen
      rw [applyBuildDefaults_of_user debug user, values, effective, found]
      rfl
  · rw [effective, buildDefaults_of_ne debug same, ← values, ← Config.value_slot,
      slot_applyBuildDefaults_of_ne debug same, Config.value_slot]

/-- **The options of a server**: the last accepted value on the command line; else the accepted
value of the file that the command line names; else that of `./sunkv.conf`; else the default. A
server only starts with options that `validate` accepts. -/
theorem startup_precedence {debug : Bool} {files : Bytes → Config.File} {args : List Bytes}
    {config : Config} (started : startup debug files args = some (.serves config)) :
    config.values = effective debug files args ∧ config.validate = true :=
  values_of_startup started

/-- The configuration of a start that comes to a server. -/
def Startup.config? : Startup → Option Config
  | .exits _ => none
  | .serves config => some config

/-- Two files: the second has a line that is refused. -/
def twoFiles (path : Bytes) : Config.File :=
  if path = utf8 "./sunkv.conf" then .holds (utf8 "host = a\nport = 7000\nmax_connections = 50\n")
  else if path = utf8 "x.conf" then .holds (utf8 "port = 7001\nmax_connections = many\n")
  else .missing

/-- A command line: its last value is refused. -/
def someArgs : List Bytes :=
  [utf8 "--config", utf8 "x.conf", utf8 "--host", utf8 "b", utf8 "--port", utf8 "zero"]

theorem startup_precedence_layers :
    ∃ config, startup true twoFiles someArgs = some (.serves config) ∧
      config.values = effective true twoFiles someArgs ∧ config.validate = true ∧
      config.port = 7001 ∧ config.maxConnections = 50 ∧ config.getAsString .host = utf8 "b" ∧
      config.getAsString .logLevel = utf8 "DEBUG" := by
  have evaluated : ((startup true twoFiles someArgs).bind Startup.config?).map (fun config =>
      decide (config.port = 7001 ∧ config.maxConnections = 50 ∧
        config.getAsString .host = utf8 "b" ∧ config.getAsString .logLevel = utf8 "DEBUG")) =
      some true := by
    decide +kernel
  obtain ⟨config, found, checks⟩ := Option.map_eq_some_iff.mp evaluated
  obtain ⟨way, started, serves⟩ := Option.bind_eq_some_iff.mp found
  cases way with
  | exits code => cases serves
  | serves served =>
    cases serves
    obtain ⟨values, valid⟩ := startup_precedence started
    exact ⟨config, started, values, valid, of_decide_eq_true checks⟩

/-! ### What the storage is given -/

end SunKV.Common
