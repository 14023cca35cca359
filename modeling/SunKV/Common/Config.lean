/-
**The configuration.**

The options of `Config.cpp` with their table `specs()`, the configuration file, the command line and
the check that `Server::start` makes, and the order in which `main` reads them.

* `ConfigKey.spec` — the table, a row for every option;
* `Config` — a value of its type for every option, where it is from, and the lines of the files;
* `Config.loadFromFile`, `Config.generateSampleConfig`, `Config.loadFromArgs`, `startup`.

Behaviour that the language leaves undefined (the first character of an empty value) is `none`.
-/

import SunKV.Lib.Decimal
import SunKV.Lib.Lines
import SunKV.Storage.Value

namespace SunKV.Common

open SunKV.Lib SunKV.Storage

/-- A text of the source, as the compiler stores it. -/
def utf8 (message : String) : Bytes := message.toByteArray.data.toList

/-! ### The table -/

/-- `ValueType`. -/
inductive ValueType where
  | string | int | bool
  deriving DecidableEq

/-- The type of the member of a `ValueType`. -/
def ValueType.Value : ValueType → Type
  | .string => Bytes
  | .int => Int32
  | .bool => Bool

instance : ∀ type : ValueType, DecidableEq type.Value
  | .string => inferInstanceAs (DecidableEq Bytes)
  | .int => inferInstanceAs (DecidableEq Int32)
  | .bool => inferInstanceAs (DecidableEq Bool)

/-- The options: the members of `Config` that have a row in `specs()`. -/
inductive ConfigKey where
  | host | port | maxConnections | threadPoolSize
  | dataDir | walDir | snapshotDir | maxMemoryMb
  | enableWal | enableSnapshot | snapshotIntervalSeconds | walSyncIntervalMs | maxWalFileSizeMb
  | walAsync | walMaxQueue | walFlushPolicy | walGroupCommitLingerMs | walGroupCommitMaxMutations
  | walGroupCommitMaxBytes
  | logLevel | logFile | logStrategy | enableConsoleLog | enablePeriodicStatsLog
  | statsLogIntervalSeconds | enableSlowlog | slowlogThresholdMs
  | ttlCleanupIntervalSeconds | maxTtlSeconds
  | tcpKeepaliveSeconds | tcpSendBufferSize | tcpRecvBufferSize | maxConnInputBufferMb
  | memoryPoolMaxCachedBlocksPerSize
  deriving DecidableEq

/-- `OptionSpec`, without the two functions: these follow from the type and the member. -/
structure OptionSpec where
  key : String
  group : String
  cliFlag : String
  type : ValueType
  defaultValue : String
  description : String

/-- **`specs()`**, the rows. -/
def ConfigKey.spec : ConfigKey → OptionSpec
  | .host => ⟨"host", "network", "--host", .string, "0.0.0.0", "Server bind host"⟩
  | .port => ⟨"port", "network", "--port", .int, "6379", "Server port"⟩
  | .maxConnections => ⟨"max_connections", "network", "--max-connections", .int, "1000",
      "Max client connections"⟩
  | .threadPoolSize => ⟨"thread_pool_size", "network", "--thread-pool-size", .int, "4",
      "Worker thread count"⟩
  | .dataDir => ⟨"data_dir", "storage", "--data-dir", .string, "./data", "Data directory"⟩
  | .walDir => ⟨"wal_dir", "storage", "--wal-dir", .string, "./data/wal", "WAL directory"⟩
  | .snapshotDir => ⟨"snapshot_dir", "storage", "--snapshot-dir", .string, "./data/snapshot",
      "Snapshot directory"⟩
  | .maxMemoryMb => ⟨"max_memory_mb", "storage", "--max-memory-mb", .int, "1024", "Max memory (MB)"⟩
  | .enableWal => ⟨"enable_wal", "persistence", "--enable-wal", .bool, "true", "Enable WAL"⟩
  | .enableSnapshot => ⟨"enable_snapshot", "persistence", "--enable-snapshot", .bool, "true",
      "Enable snapshot"⟩
  | .snapshotIntervalSeconds => ⟨"snapshot_interval_seconds", "persistence",
      "--snapshot-interval-seconds", .int, "3600", "Snapshot interval (seconds)"⟩
  | .walSyncIntervalMs => ⟨"wal_sync_interval_ms", "persistence",
      "--wal-sync-interval-ms", .int, "100", "WAL sync interval (ms)"⟩
  | .maxWalFileSizeMb => ⟨"max_wal_file_size_mb", "persistence",
      "--max-wal-file-size-mb", .int, "100", "Max WAL file size (MB)"⟩
  | .walAsync => ⟨"wal_async", "persistence", "--wal-async", .bool, "true",
      "Async WAL submit queue"⟩
  | .walMaxQueue => ⟨"wal_max_queue", "persistence", "--wal-max-queue", .int, "100000",
      "Max WAL async queue depth (batches)"⟩
  | .walFlushPolicy => ⟨"wal_flush_policy", "persistence",
      "--wal-flush-policy", .string, "periodic", "never|always|periodic"⟩
  | .walGroupCommitLingerMs => ⟨"wal_group_commit_linger_ms", "persistence",
      "--wal-group-commit-linger-ms", .int, "2", "WAL group commit linger (ms)"⟩
  | .walGroupCommitMaxMutations => ⟨"wal_group_commit_max_mutations", "persistence",
      "--wal-group-commit-max-mutations", .int, "8192", "WAL group max mutations per write"⟩
  | .walGroupCommitMaxBytes => ⟨"wal_group_commit_max_bytes", "persistence",
      "--wal-group-commit-max-bytes", .int, "2097152", "WAL group max encoded bytes per write"⟩
  | .logLevel => ⟨"log_level", "logging", "--log-level", .string, "INFO",
      "DEBUG|INFO|WARN|ERROR (Debug 构建未指定时默认为 DEBUG)"⟩
  | .logFile => ⟨"log_file", "logging", "--log-file", .string, "./data/logs/sunkv.log",
      "Log file path"⟩
  | .logStrategy => ⟨"log_strategy", "logging", "--log-strategy", .string, "fixed",
      "fixed|per_run|daily"⟩
  | .enableConsoleLog => ⟨"enable_console_log", "logging", "--enable-console-log", .bool, "true",
      "Enable console log"⟩
  | .enablePeriodicStatsLog => ⟨"enable_periodic_stats_log", "logging",
      "--enable-periodic-stats-log", .bool, "false", "Enable periodic stats log"⟩
  | .statsLogIntervalSeconds => ⟨"stats_log_interval_seconds", "logging",
      "--stats-log-interval", .int, "30", "Stats log interval (seconds)"⟩
  | .enableSlowlog => ⟨"enable_slowlog", "logging", "--enable-slowlog", .bool, "false",
      "Enable structured slow command log"⟩
  | .slowlogThresholdMs => ⟨"slowlog_threshold_ms", "logging", "--slowlog-threshold-ms", .int, "20",
      "Slow command threshold in milliseconds"⟩
  | .ttlCleanupIntervalSeconds => ⟨"ttl_cleanup_interval_seconds", "ttl",
      "--ttl-cleanup-interval-seconds", .int, "5", "TTL cleanup interval (seconds)"⟩
  | .maxTtlSeconds => ⟨"max_ttl_seconds", "ttl", "--max-ttl-seconds", .int, "2592000",
      "Max TTL (seconds)"⟩
  | .tcpKeepaliveSeconds => ⟨"tcp_keepalive_seconds", "performance",
      "--tcp-keepalive-seconds", .int, "300", "TCP keepalive seconds"⟩
  | .tcpSendBufferSize => ⟨"tcp_send_buffer_size", "performance",
      "--tcp-send-buffer-size", .int, "65536", "TCP send buffer size (bytes)"⟩
  | .tcpRecvBufferSize => ⟨"tcp_recv_buffer_size", "performance",
      "--tcp-recv-buffer-size", .int, "65536", "TCP recv buffer size (bytes)"⟩
  | .maxConnInputBufferMb => ⟨"max_conn_input_buffer_mb", "performance",
      "--max-conn-input-buffer-mb", .int, "8", "Per-connection input buffer cap (MB)"⟩
  | .memoryPoolMaxCachedBlocksPerSize => ⟨"memory_pool_max_cached_blocks_per_size", "performance",
      "--memory-pool-max-cached-blocks-per-size", .int, "8",
      "ThreadLocalBufferPool max cached blocks per size class"⟩

/-- `specs()`, the order of the rows. -/
def specs : List ConfigKey :=
  [.host, .port, .maxConnections, .threadPoolSize,
   .dataDir, .walDir, .snapshotDir, .maxMemoryMb,
   .enableWal, .enableSnapshot, .snapshotIntervalSeconds, .walSyncIntervalMs, .maxWalFileSizeMb,
   .walAsync, .walMaxQueue, .walFlushPolicy, .walGroupCommitLingerMs, .walGroupCommitMaxMutations,
   .walGroupCommitMaxBytes,
   .logLevel, .logFile, .logStrategy, .enableConsoleLog, .enablePeriodicStatsLog,
   .statsLogIntervalSeconds, .enableSlowlog, .slowlogThresholdMs,
   .ttlCleanupIntervalSeconds, .maxTtlSeconds,
   .tcpKeepaliveSeconds, .tcpSendBufferSize, .tcpRecvBufferSize, .maxConnInputBufferMb,
   .memoryPoolMaxCachedBlocksPerSize]

/-- The name of an option in a file. -/
def ConfigKey.name (key : ConfigKey) : Bytes := utf8 key.spec.key

/-- `specByKey().find(key)`. -/
def specByKey (name : Bytes) : Option ConfigKey := specs.find? fun key => key.name = name

/-- `specByFlag().find(arg)`. -/
def specByFlag (arg : Bytes) : Option ConfigKey :=
  specs.find? fun key => key.spec.cliFlag ≠ "" ∧ utf8 key.spec.cliFlag = arg

/-! ### Values -/

/-- `trim`. -/
def trim (s : Bytes) : Bytes := strip isSpace s

/-- `std::tolower`. -/
def toLower (byte : UInt8) : UInt8 := if 65 ≤ byte ∧ byte ≤ 90 then byte + 32 else byte

/-- `lower`. -/
def lower (s : Bytes) : Bytes := s.map toLower

/-- `parseBoolLoose`. -/
def parseBoolLoose (raw : Bytes) : Option Bool :=
  let s := lower (trim raw)
  if s = utf8 "true" ∨ s = utf8 "1" ∨ s = utf8 "yes" ∨ s = utf8 "on" then some true
  else if s = utf8 "false" ∨ s = utf8 "0" ∨ s = utf8 "no" ∨ s = utf8 "off" then some false
  else none

/-- `std::stoi`, with the number of characters it has read; it throws without a digit, and out of
range. -/
def stoi (s : Bytes) : Option (Int32 × Nat) :=
  let (sign, unsigned) := splitSign (s.dropWhile isSpace)
  let digits := unsigned.takeWhile isDigit
  let value := sign * decimalValue digits
  if digits.isEmpty ∨ value < -2 ^ 31 ∨ 2 ^ 31 ≤ value then none
  else some (Int32.ofInt value, s.length - (unsigned.dropWhile isDigit).length)

/-- `parseIntLoose`. -/
def parseIntLoose (raw : Bytes) : Option Int32 := do
  let s := trim raw
  let (v, idx) ← stoi s
  if idx ≠ s.length then none else some v

/-- `set_from_string`: the value to be stored, unless the text is refused. -/
def ValueType.parse : (type : ValueType) → Bytes → Option type.Value
  | .string, v => some v
  | .int, v => parseIntLoose v
  | .bool, v => parseBoolLoose v

/-- A `bool` in a text. -/
def printBool (value : Bool) : Bytes := if value then utf8 "true" else utf8 "false"

/-- `get_as_string`, on the member. -/
def ValueType.print : (type : ValueType) → type.Value → Bytes
  | .string, value => value
  | .int, value => toDecimal value.toInt
  | .bool, value => printBool value

/-! ### The configuration -/

/-- `Source`. -/
inductive Source where
  | default | configFile | commandLine
  deriving DecidableEq

/-- The number of the enumerator. -/
def Source.rank : Source → Nat
  | .default => 0
  | .configFile => 1
  | .commandLine => 2

/-- **`Config`**: the members of the table, and the other state. -/
structure Config where
  values : (key : ConfigKey) → key.spec.type.Value
  sourceMap : ConfigKey → Option Source := fun _ => none
  configMap : Dict Bytes := ∅
  logLevelFromCli : Bool := false

namespace Config

/-- The initialisers of the members. -/
def members : Config where
  values
    | .host => utf8 "0.0.0.0"
    | .port => (6379 : Int32)
    | .maxConnections => (1000 : Int32)
    | .threadPoolSize => (4 : Int32)
    | .dataDir => utf8 "./data"
    | .walDir => utf8 "./data/wal"
    | .snapshotDir => utf8 "./data/snapshot"
    | .maxMemoryMb => (1024 : Int32)
    | .enableWal => true
    | .enableSnapshot => true
    | .snapshotIntervalSeconds => (3600 : Int32)
    | .walSyncIntervalMs => (100 : Int32)
    | .maxWalFileSizeMb => (100 : Int32)
    | .walAsync => true
    | .walMaxQueue => (100000 : Int32)
    | .walFlushPolicy => utf8 "periodic"
    | .walGroupCommitLingerMs => (2 : Int32)
    | .walGroupCommitMaxMutations => (8192 : Int32)
    | .walGroupCommitMaxBytes => (2097152 : Int32)
    | .logLevel => utf8 "INFO"
    | .logFile => utf8 "./data/logs/sunkv.log"
    | .logStrategy => utf8 "fixed"
    | .enableConsoleLog => true
    | .enablePeriodicStatsLog => false
    | .statsLogIntervalSeconds => (30 : Int32)
    | .enableSlowlog => false
    | .slowlogThresholdMs => (20 : Int32)
    | .ttlCleanupIntervalSeconds => (5 : Int32)
    | .maxTtlSeconds => (86400 * 30 : Int32)
    | .tcpKeepaliveSeconds => (300 : Int32)
    | .tcpSendBufferSize => (65536 : Int32)
    | .tcpRecvBufferSize => (65536 : Int32)
    | .maxConnInputBufferMb => (8 : Int32)
    | .memoryPoolMaxCachedBlocksPerSize => (8 : Int32)

variable (config : Config)

/-- `get_as_string`. -/
def getAsString (key : ConfigKey) : Bytes := key.spec.type.print (config.values key)

/-- `setFromKeyValue`: a source does not override a higher one. -/
def setFromKeyValue (name value : Bytes) (src : Source) : Bool × Config :=
  match specByKey name with
  | none => (false, config)
  | some key =>
    if (config.sourceMap key).any fun held => src.rank < held.rank then (true, config)
    else
      match key.spec.type.parse value with
      | none => (false, config)
      | some parsed =>
        (true, { config with
          values := Function.update config.values key parsed
          sourceMap := Function.update config.sourceMap key (some src) })

/-- `setFromKeyValue` for one entry after the other; failures are logged only. -/
def setAll (src : Source) (entries : List (Bytes × Bytes)) : Config :=
  entries.foldl (fun config entry => (config.setFromKeyValue entry.1 entry.2 src).2) config

/-- `initSchemaDefaultsOnce`, the one time. -/
def initSchemaDefaultsOnce : Config :=
  config.setAll .default (specs.map fun key => (key.name, utf8 key.spec.defaultValue))

/-- `getInstance`, the first time. -/
def getInstance : Config := members.initSchemaDefaultsOnce

/-! ### The file -/

/-- The blanks of `parseLine`. -/
def isBlank (byte : UInt8) : Bool := byte = 32 || byte = 9

/-- A value in quotes of the same kind. -/
def quoted (value : Bytes) : Bool :=
  (value.head? = some 34 && value.getLast? = some 34) ||
    (value.head? = some 39 && value.getLast? = some 39)

/-- The value behind `=`: an empty one has no `front()`. -/
def readValue (raw : Bytes) : Option Bytes :=
  let value := strip isBlank raw
  if value = [] then none
  else if quoted value then some value.tail.dropLast
  else some value

/-- `parseLine`. -/
def parseLine (line : Bytes) : Option Config :=
  if 61 ∉ line then some config
  else do
    let key := strip isBlank (line.takeWhile (· ≠ 61))
    let value ← readValue (line.dropWhile (· ≠ 61)).tail
    some { config with configMap := config.configMap.insert key value }

/-- A turn of the loop of `loadFromFile`: empty lines and comments are skipped. -/
def loadLine (line : Bytes) : Option Config :=
  if line = [] ∨ line.head? = some 35 ∨ line.head? = some 59 then some config
  else config.parseLine line

/-- `loadFromFile`, once the file is open: the lines, then the entries of the map. -/
def loadText (content : Bytes) : Option Config := do
  let read ← (lines 10 content).foldlM loadLine config
  some (read.setAll .configFile read.configMap.toList)

/-- The lines of a row: its group if it is another, the comment, the option. -/
def sampleFrom : String → List ConfigKey → Bytes
  | _, [] => utf8 "\n"
  | lastGroup, key :: rest =>
    (if key.spec.group ≠ lastGroup then utf8 "\n# [" ++ utf8 key.spec.group ++ utf8 "]\n"
      else []) ++
      utf8 "# " ++ utf8 key.spec.description ++ utf8 " (default: " ++ utf8 key.spec.defaultValue ++
      utf8 ")\n" ++ key.name ++ utf8 " = " ++ config.getAsString key ++ utf8 "\n" ++
      sampleFrom key.spec.group rest

/-- **`generateSampleConfig`**, which `saveToFile` writes. -/
def generateSampleConfig : Bytes :=
  utf8 "# SunKV Configuration File\n" ++
    utf8 "# NOTE: 该配置文件语义是“扁平 key=value”。这里的分组仅用于阅读。\n" ++
    utf8 "#       CLI 优先级高于配置文件；配置文件优先级高于内置默认值。\n" ++
    utf8 "# Generated automatically\n\n" ++
    config.sampleFrom "" specs

/-- What a path leads to. -/
inductive File where
  | missing
  | locked
  | holds (content : Bytes)

/-- `loadFromFile`. -/
def loadFromFile (file : File) : Option (Bool × Config) :=
  match file with
  | .holds content => do
    let loaded ← config.loadText content
    some (true, loaded)
  | _ => some (false, config)

/-! ### The command line -/

/-- `LoadArgsResult`. -/
inductive LoadArgsResult where
  | ok | showHelp | error
  deriving DecidableEq

/-- The first loop of `loadFromArgs`: the path behind the last `--config`. -/
def configPath : Bytes → List Bytes → Bytes
  | path, arg :: next :: rest =>
    if arg = utf8 "--config" then configPath next rest else configPath path (next :: rest)
  | path, _ => path

/-- An option of the command line. -/
def setFlag (key : ConfigKey) (value : Bytes) : Config :=
  let set := (config.setFromKeyValue key.name value .commandLine).2
  if key.spec.key = "log_level" then { set with logLevelFromCli := true } else set

/-- The second loop of `loadFromArgs`. -/
def loadFlags : List Bytes → Config → LoadArgsResult × Config
  | [], config => (.ok, config)
  | [arg], config =>
    if arg = utf8 "--help" then (.showHelp, config)
    else if (specByFlag arg).isSome then (.error, config)
    else (.ok, config)
  | arg :: value :: rest, config =>
    if arg = utf8 "--config" then loadFlags rest config
    else if arg = utf8 "--help" then (.showHelp, config)
    else
      match specByFlag arg with
      | none => loadFlags (value :: rest) config
      | some key => loadFlags rest (config.setFlag key value)

/-- **`loadFromArgs`**; the arguments are those behind the name of the program. -/
def loadFromArgs (files : Bytes → File) (args : List Bytes) : Option (LoadArgsResult × Config) := do
  let path := configPath [] args
  if path = [] then some (loadFlags args config)
  else
    let (opened, loaded) ← config.loadFromFile (files path)
    if opened then some (loadFlags args loaded) else some (.error, loaded)

/-- `applyBuildDefaults`; `debug` is a build without `NDEBUG`. -/
def applyBuildDefaults (debug : Bool) : Config :=
  let hasUserValue := (config.sourceMap .logLevel).any (· ≠ .default)
  if debug ∧ ¬ hasUserValue ∧ ¬ config.logLevelFromCli then
    (config.setFromKeyValue (utf8 "log_level") (utf8 "DEBUG") .default).2
  else config

/-! ### The check -/

section Members

def port : Int32 := config.values .port
def maxConnections : Int32 := config.values .maxConnections
def threadPoolSize : Int32 := config.values .threadPoolSize
def maxMemoryMb : Int32 := config.values .maxMemoryMb
def enableSnapshot : Bool := config.values .enableSnapshot
def snapshotIntervalSeconds : Int32 := config.values .snapshotIntervalSeconds
def enablePeriodicStatsLog : Bool := config.values .enablePeriodicStatsLog
def statsLogIntervalSeconds : Int32 := config.values .statsLogIntervalSeconds
def slowlogThresholdMs : Int32 := config.values .slowlogThresholdMs
def ttlCleanupIntervalSeconds : Int32 := config.values .ttlCleanupIntervalSeconds
def maxTtlSeconds : Int32 := config.values .maxTtlSeconds
def walMaxQueue : Int32 := config.values .walMaxQueue
def walGroupCommitLingerMs : Int32 := config.values .walGroupCommitLingerMs
def walGroupCommitMaxMutations : Int32 := config.values .walGroupCommitMaxMutations
def walGroupCommitMaxBytes : Int32 := config.values .walGroupCommitMaxBytes
def maxWalFileSizeMb : Int32 := config.values .maxWalFileSizeMb
def maxConnInputBufferMb : Int32 := config.values .maxConnInputBufferMb
def memoryPoolMaxCachedBlocksPerSize : Int32 := config.values .memoryPoolMaxCachedBlocksPerSize
def walFlushPolicy : Bytes := config.values .walFlushPolicy

end Members

/-- **`validate`**: none of the checks fails. -/
def validate : Bool :=
  let policy := lower (trim config.walFlushPolicy)
  !(config.port ≤ 0 || 65535 < config.port) &&
    !(config.maxConnections < 0) &&
    !(config.threadPoolSize ≤ 0) &&
    !(config.maxMemoryMb < 0) &&
    !(config.enableSnapshot && config.snapshotIntervalSeconds ≤ 0) &&
    !(config.enablePeriodicStatsLog && config.statsLogIntervalSeconds ≤ 0) &&
    !(config.slowlogThresholdMs < 0) &&
    !(config.ttlCleanupIntervalSeconds ≤ 0) &&
    !(config.maxTtlSeconds ≤ 0) &&
    !(config.walMaxQueue < 0) &&
    !(config.walGroupCommitLingerMs < 0) &&
    !(config.walGroupCommitMaxMutations ≤ 0) &&
    !(config.walGroupCommitMaxBytes ≤ 0) &&
    !(config.maxWalFileSizeMb < 0) &&
    !(policy ≠ utf8 "never" && policy ≠ utf8 "always" && policy ≠ utf8 "periodic") &&
    !(config.maxConnInputBufferMb ≤ 0) &&
    !(config.memoryPoolMaxCachedBlocksPerSize ≤ 0)

end Config

/-! ### The start of the server -/

/-- How `main` comes to a server. -/
inductive Startup where
  | exits (code : Nat)
  | serves (config : Config)

/-- The file that `main` looks for. -/
def loadDefaultConfig (file : Config.File) : Option (Bool × Config) :=
  match file with
  | .missing => some (true, Config.getInstance)
  | file => Config.getInstance.loadFromFile file

/-- **`main`** up to the checks of `Server::start`: the file that is always looked for, the command
line, the defaults of the build. -/
def startup (debug : Bool) (files : Bytes → Config.File) (args : List Bytes) : Option Startup := do
  let (opened, config) ← loadDefaultConfig (files (utf8 "./sunkv.conf"))
  if opened then
    let (result, config) ← config.loadFromArgs files args
    match result with
    | .showHelp => some (.exits 0)
    | .error => some (.exits 1)
    | .ok =>
      let config := config.applyBuildDefaults debug
      if config.validate then some (.serves config) else some (.exits 1)
  else some (.exits 1)

/-- `WalFlushPolicy`. -/
inductive WalFlushPolicy where
  | never | always | periodic
  deriving DecidableEq

/-- The name of a policy in the configuration. -/
def WalFlushPolicy.name : WalFlushPolicy → Bytes
  | .never => utf8 "never"
  | .always => utf8 "always"
  | .periodic => utf8 "periodic"

end SunKV.Common
