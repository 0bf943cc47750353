import SlotIndex.Cli
import SlotIndex.Config.Chain
import SlotIndex.Report.Diffs

/-!
# Reports of configurations

Layouts, contracts, chains and command lines as JSON, with every default filled in.

* `Layout.toJson`, `Contracts.toJson`, `Chain.toJson`.
* `Invocation.toJson`.
-/

namespace SlotIndex

open Json

/-- A value that may be missing. -/
def optionToJson {α : Type} (value : α → Json) (o : Option α) : Json := (o.map value).getD .null

/-- A number. -/
def numberToJson (n : Nat) : Json := ofInt n

/-- The fields of a packed slot. -/
def fieldsToJson (fields : List Field) : Json :=
  listToJson (fun f => .array [ofString f.name, ofString f.type.name]) fields

/-- A mapping key. -/
def MappingKey.toJson : MappingKey → Json
  | .single word => .array [ofString "single", listToJson ofString [word]]
  | .nested words => .array [ofString "nested", listToJson ofString words]

/-- A state variable. -/
def SlotDecl.toJson (s : SlotDecl) : Json :=
  ofMembers [("key", ofString s.key), ("name", ofString s.name), ("type", ofString s.type.name),
    ("packed", fieldsToJson s.packed)]

/-- A member of a struct. -/
def MemberDecl.toJson (m : MemberDecl) : Json :=
  ofMembers [("offset", largeToJson m.offset), ("name", ofString m.name),
    ("type", ofString m.type.name), ("packed", fieldsToJson m.packed)]

/-- A mapping. -/
def MappingDecl.toJson (m : MappingDecl) : Json :=
  ofMembers [("index", ofString m.index), ("name", ofString m.name),
    ("type", ofString m.type.name), ("key_names", listToJson ofString m.keyNames),
    ("keys", listToJson MappingKey.toJson m.keys), ("keys_query", optionToJson ofString m.keysQuery),
    ("packed", fieldsToJson m.packed), ("fields", listToJson MemberDecl.toJson m.members)]

/-- A layout. -/
def Layout.toJson (l : Layout) : Json :=
  ofMembers [("slots", listToJson SlotDecl.toJson l.slots),
    ("mappings", listToJson MappingDecl.toJson l.mappings)]

/-- A configured contract. -/
def ContractDecl.toJson (c : ContractDecl) : Json :=
  ofMembers [("address", ofString c.address.text), ("transformer", ofString c.transformer),
    ("storage", c.storage.toJson)]

/-- The configured contracts. -/
def Contracts.toJson (cs : Contracts) : Json :=
  ofMembers (cs.entries.map fun e => (e.1, e.2.toJson))

/-- The tuning of the pipeline. -/
def PipelineOptions.toJson (o : PipelineOptions) : Json :=
  ofMembers [("csv_path", optionToJson ofString o.csvPath),
    ("ws_url_env_var", optionToJson ofString o.wsUrlVar),
    ("health_check_path", optionToJson ofString o.healthCheckPath),
    ("poll_interval_ms", largeToJson o.pollInterval),
    ("queue_interval_ms", largeToJson o.queueInterval),
    ("max_queue_attempts", numberToJson o.maxQueueAttempts),
    ("backfill_batch_size", largeToJson o.backfillBatchSize),
    ("backfill_max_in_flight", largeToJson o.backfillMaxInFlight),
    ("channel_capacity", largeToJson o.channelCapacity)]

/-- A chain. -/
def Chain.toJson (c : Chain) : Json :=
  ofMembers [("name", ofString c.name), ("chain_id", largeToJson c.chainId),
    ("rpc_url_env_var", ofString c.rpcUrlVar),
    ("database_url_env_var", ofString c.databaseUrlVar),
    ("contracts", Contracts.toJson c.contracts),
    ("requests_per_second", optionToJson numberToJson c.requestsPerSecond),
    ("rpc_batch_size", optionToJson largeToJson c.rpcBatchSize),
    ("rpc_max_retries", optionToJson numberToJson c.rpcMaxRetries),
    ("storage_diffs", c.options.toJson)]

/-- A command. -/
def Command.toJson : Command → Json
  | .watch => ofMembers [("name", ofString "watch")]
  | .backfill first last batchSize contracts keys =>
    ofMembers [("name", ofString "backfill"), ("from", largeToJson first), ("to", largeToJson last),
      ("batch_size", optionToJson largeToJson batchSize),
      ("contracts", listToJson ofString contracts), ("keys", listToJson Word.toJson keys)]
  | .loadValues block =>
    ofMembers [("name", ofString "load-values"), ("block", largeToJson block)]

/-- A command line. -/
def Invocation.toJson (i : Invocation) : Json :=
  ofMembers [("config", ofString i.config), ("command", i.command.toJson)]

end SlotIndex
