import TaskBoard.Net.SocketAddress
import TaskBoard.Text.Ascii
import TaskBoard.Text.Blank

/-!
# Configuration

A configuration is read from nine named values. Values are trimmed and blank ones count as
missing. The first value that is wrong, in the order below, is the error.
-/

namespace TaskBoard

open Text

/-- Where tasks are stored. -/
inductive StorageMode where
  | inMemory
  | postgres
deriving DecidableEq, Repr

/-- Why a configuration is refused. -/
inductive ConfigError where
  | invalidStorageMode (value : String)
  | missingDatabaseUrl
  | invalidValue (name value : String)
deriving DecidableEq, Repr

/-- The wording of a configuration error. -/
def ConfigError.message : ConfigError → String
  | invalidStorageMode value =>
    "invalid storage mode '" ++ value ++ "', expected 'in_memory' or 'postgres'"
  | missingDatabaseUrl => "DATABASE_URL is required when STORAGE_MODE=postgres"
  | invalidValue name value => "invalid value for " ++ name ++ ": '" ++ value ++ "'"

/-- The storage mode of a name in any letter case. No character outside ASCII has a letter of
these names as its lower case. -/
def StorageMode.read (value : String) : Except ConfigError StorageMode :=
  let name := lowered value
  if name ∈ ["in_memory", "inmemory", "memory"] then .ok .inMemory
  else if name ∈ ["postgres", "postgresql", "pg"] then .ok .postgres
  else .error (.invalidStorageMode value)

/-- How the service is set up. -/
structure Config where
  storageMode : StorageMode
  databaseUrl : Option String
  /-- Without an address lists are not cached. -/
  redisAddress : Option String
  host : String
  port : Nat
  /-- Seconds. -/
  cacheTtl : Nat
  /-- Milliseconds. -/
  cacheOpTimeout : Nat
  /-- Seconds. -/
  requestTimeout : Nat
  databaseMaxConnections : Nat
deriving DecidableEq, Repr

namespace Config

/-- A value without the blanks around it, if anything is left. -/
def present (value : Option String) : Option String :=
  (value.map trimmed).filter fun v => !v.isEmpty

/-- A number of `bits` bits, or `default` if the value is missing. -/
def number (name : String) (value : Option String) (bits default : Nat) :
    Except ConfigError Nat :=
  match value with
  | none => .ok default
  | some v =>
    match readUnsigned? v.toList with
    | some n => if n < Nat.pow 2 bits then .ok n else .error (.invalidValue name v)
    | none => .error (.invalidValue name v)

/-- The storage mode: as named, or by whether there is a database. -/
def mode (named databaseUrl : Option String) : Except ConfigError StorageMode :=
  match named with
  | some value => StorageMode.read value
  | none => .ok (if databaseUrl.isSome then .postgres else .inMemory)

/-- The configuration that the named values describe. -/
def ofLookup (lookup : String → Option String) : Except ConfigError Config := do
  let get (name : String) := present (lookup name)
  let databaseUrl := get "DATABASE_URL"
  let storageMode ← mode (get "STORAGE_MODE") databaseUrl
  if storageMode = .postgres ∧ databaseUrl = none then throw .missingDatabaseUrl
  let port ← number "PORT" (get "PORT") 16 8080
  let cacheTtl ← number "CACHE_TTL_SECS" (get "CACHE_TTL_SECS") 64 60
  let cacheOpTimeout ← number "CACHE_OP_TIMEOUT_MS" (get "CACHE_OP_TIMEOUT_MS") 64 500
  let requestTimeout ← number "REQUEST_TIMEOUT_SECS" (get "REQUEST_TIMEOUT_SECS") 64 30
  let databaseMaxConnections ←
    number "DATABASE_MAX_CONNECTIONS" (get "DATABASE_MAX_CONNECTIONS") 32 10
  return {
    storageMode, databaseUrl, port, cacheTtl, cacheOpTimeout, requestTimeout
    databaseMaxConnections
    redisAddress := get "REDIS_ADDR"
    host := (get "HOST").getD "0.0.0.0" }

/-- The address to listen on. -/
def bindAddress (c : Config) : Except ConfigError Net.SocketAddress :=
  let text := c.host ++ ":" ++ natText c.port
  match Net.SocketAddress.read? text.toList with
  | some a => .ok a
  | none => .error (.invalidValue "HOST" text)

end Config

end TaskBoard
