import SlotIndex.Config.Contract

/-!
# Chain configurations

What a configuration says about one chain: how its node and its database are reached, its contracts,
and the tuning of the pipeline.

* `ChainDecl`: a chain as it is written; its contracts stand in place or at a path.
* `Chain`, `ChainDecl.resolve`: the same with the contracts loaded and the paths below the directory
  of the configuration.
* `loadChains`: all chains of a configuration file.
-/

namespace SlotIndex

/-- The tuning of the diff pipeline. -/
structure PipelineOptions where
  /-- A file of diffs to follow while watching. -/
  csvPath : Option String := none
  /-- The variable that holds the address of the node's subscription. -/
  wsUrlVar : Option String := none
  healthCheckPath : Option String := none
  pollInterval : UInt64 := 1000
  queueInterval : UInt64 := 5000
  /-- The attempts that a queued diff gets. -/
  maxQueueAttempts : Nat := 10
  backfillBatchSize : UInt64 := 1000
  backfillMaxInFlight : UInt64 := 10
  channelCapacity : UInt64 := 1000
deriving DecidableEq

/-- Contracts, or the path at which they are written. -/
inductive ContractsSource where
  | inPlace (contracts : Contracts)
  | path (path : String)
deriving DecidableEq

/-- A chain as it is written, with its contracts as `C`. -/
structure ChainSettings (C : Type) where
  name : String
  chainId : UInt64
  rpcUrlVar : String
  databaseUrlVar : String := "DATABASE_URL"
  contracts : C
  requestsPerSecond : Option Nat := none
  rpcBatchSize : Option UInt64 := none
  rpcMaxRetries : Option Nat := none
  options : PipelineOptions := {}

/-- A chain as it is written. -/
abbrev ChainDecl := ChainSettings ContractsSource

/-- A chain with its contracts. -/
abbrev Chain := ChainSettings Contracts

open Json in
/-- The tuning of the pipeline. Every field has a default. -/
def PipelineOptions.ofJson? (j : Json) : Option PipelineOptions := do
  let [csvPath, wsUrlVar, healthCheckPath, pollInterval, queueInterval, maxQueueAttempts,
      batchSize, maxInFlight, capacity] ←
    record? ["csv_path", "ws_url_env_var", "health_check_path", "poll_interval_ms",
      "queue_interval_ms", "max_queue_attempts", "backfill_batch_size", "backfill_max_in_flight",
      "channel_capacity"] j
    | none
  return {
    csvPath := ← orElse? none (optional? text?) csvPath
    wsUrlVar := ← orElse? none (optional? text?) wsUrlVar
    healthCheckPath := ← orElse? none (optional? text?) healthCheckPath
    pollInterval := ← orElse? 1000 uint64? pollInterval
    queueInterval := ← orElse? 5000 uint64? queueInterval
    maxQueueAttempts := ← orElse? 10 (nat? UInt32.size) maxQueueAttempts
    backfillBatchSize := ← orElse? 1000 uint64? batchSize
    backfillMaxInFlight := ← orElse? 10 uint64? maxInFlight
    channelCapacity := ← orElse? 1000 uint64? capacity }

/-- Contracts in place, or a path. -/
def ContractsSource.ofJson? (levels : Nat) (j : Json) : Option ContractsSource :=
  if j.isPlainData levels then
    match Contracts.ofJson? maxLevels j with
    | some contracts => some (.inPlace contracts)
    | none => .path <$> j.text?
  else none

open Json in
/-- A chain, at a place where lists and objects may be nested `levels` deep. -/
def ChainDecl.ofJson? (levels : Nat) (j : Json) : Option ChainDecl := do
  let [name, chainId, rpcUrlVar, databaseUrlVar, contracts, perSecond, batchSize, maxRetries,
      options] ←
    record? ["name", "chain_id", "rpc_url_env_var", "database_url_env_var", "contracts",
      "requests_per_second", "rpc_batch_size", "rpc_max_retries", "storage_diffs"] j
    | none
  return {
    name := ← required? text? name
    chainId := ← required? uint64? chainId
    rpcUrlVar := ← required? text? rpcUrlVar
    databaseUrlVar := ← orElse? "DATABASE_URL" text? databaseUrlVar
    contracts := ← required? (ContractsSource.ofJson? (levels - 1)) contracts
    requestsPerSecond := ← orElse? none (optional? (nat? UInt32.size)) perSecond
    rpcBatchSize := ← orElse? none (optional? uint64?) batchSize
    rpcMaxRetries := ← orElse? none (optional? (nat? UInt32.size)) maxRetries
    options := ← orElse? {} PipelineOptions.ofJson? options }

/-- The chain of a JSON text. -/
def ChainDecl.parse (text : String) : Option ChainDecl :=
  (Json.parse text).bind (ofJson? maxLevels)

/-- The first interval or capacity that is zero. -/
def PipelineOptions.zeroField? (o : PipelineOptions) : Option String :=
  if o.pollInterval = 0 then some "poll_interval_ms"
  else if o.queueInterval = 0 then some "queue_interval_ms"
  else if o.channelCapacity = 0 then some "channel_capacity"
  else none

/-- The options with their paths below a directory. -/
def PipelineOptions.below (base : String) (o : PipelineOptions) : PipelineOptions :=
  { o with
    csvPath := o.csvPath.map (Path.join base)
    healthCheckPath := o.healthCheckPath.map (Path.join base) }

section

variable {m : Type → Type} [Monad m] (files : FileAccess m)

/-- The contracts of a chain. -/
def ContractsSource.resolve (base : String) : ContractsSource → m (Except ConfigError Contracts)
  | .inPlace contracts => return .ok contracts
  | .path p => Contracts.load files base p

/-- A chain with its contracts loaded. The contracts come first, then the numbers that must not be
zero. -/
def ChainDecl.resolve (base : String) (decl : ChainDecl) : m (Except ConfigError Chain) := do
  match ← decl.contracts.resolve files base with
  | .error e => return .error e
  | .ok contracts =>
    match decl.options.zeroField? with
    | some field => return .error (.zeroField field)
    | none => return .ok { decl with contracts, options := decl.options.below base }

/-- Chains one after the other; the first that fails is the error. -/
def resolveChains (base : String) : List ChainDecl → m (Except ConfigError (List Chain))
  | [] => return .ok []
  | decl :: rest => do
    match ← decl.resolve files base with
    | .error e => return .error (.resolveChain decl.name e)
    | .ok chain =>
      match ← resolveChains base rest with
      | .error e => return .error e
      | .ok chains => return .ok (chain :: chains)

open Json in
/-- The chains of a configuration. -/
def chainsOfJson? (j : Json) : Option (List ChainDecl) := do
  let [chains] ← record? ["chains"] j | none
  required? (list? (ChainDecl.ofJson? (maxLevels - 2))) chains

/-- The chains of a configuration file. Paths in it start from its directory. -/
def loadChains (path : String) : m (Except ConfigError (List Chain)) := do
  match ← files.readText path with
  | .error fault => return .error (.readConfig path fault)
  | .ok text =>
    match (Json.parse text).bind chainsOfJson? with
    | none => return .error (.parseConfig path)
    | some decls => resolveChains files ((Path.parent path).getD ".") decls

end

end SlotIndex
