import TaskBoard.Cache.Address
import TaskBoard.Config
import TaskBoard.Http.Server
import TaskBoard.Run.Backend
import TaskBoard.Store.Address

/-!
# Starting the service

A service is started in this order: the database, if the store is one, is connected to and its
table made; the gauge is set to the number of tasks; the cache server is asked whether it is there;
and the address to listen on is read. Without a store or an address there is no service, whereas a
count that fails leaves the gauge at zero, and a cache server that is not there leaves lists
uncached.
-/

namespace TaskBoard

/-- Why a service is not started. -/
inductive StartupError where
  | config (e : ConfigError)
  | storage (e : TaskError)
deriving DecidableEq, Repr

/-- The wording of a startup error. -/
def StartupError.message : StartupError → String
  | config e => e.message
  | storage e => "storage initialization failed: " ++ e.message

namespace Startup

open Run (Backend)

/-- How long the cache server may take to say that it is there, in milliseconds. -/
def pingTimeout : Nat := 2000

/-- Sets the gauge to the number of tasks, if they can be counted. -/
def seedGauge : Operation Unit :=
  .store .count fun
    | .ok n => .gauge (.assign n) (.done ())
    | .error _ => .done ()

/-- Whether the server at a cache address can be used and is there. -/
def connectCache (address : String) (b : Backend) : Bool × Backend :=
  match CacheAddress.check address with
  | .error _ => (false, b)
  | .ok () =>
    let (answer, cache) := Remote.ping pingTimeout b.cache
    (answer.isOk, { b with cache })

/-- How lists are cached if there is a cache server. -/
def cachingOf (c : Config) : Caching := ⟨c.cacheTtl * 1000, c.cacheOpTimeout⟩

/-- Seeds the gauge and finds out how lists are cached. -/
def assemble (c : Config) (b : Backend) : Option Caching × Backend :=
  let ((), b) := b.run seedGauge
  match c.redisAddress with
  | none => (none, b)
  | some address =>
    let (there, b) := connectCache address b
    (if there then some (cachingOf c) else none, b)

/-- Makes the store ready that the configuration names. -/
def openStore (c : Config) (b : Backend) : Except TaskError Unit × Backend :=
  match c.storageMode with
  | .inMemory => (.ok (), { b with inDatabase := false })
  | .postgres =>
    match DatabaseAddress.check (c.databaseUrl.getD "") *> Sql.connect b.database with
    | .error e => (.error e, b)
    | .ok () =>
      let (made, database) := Sql.ensureSchema b.database
      (made, { b with database, inDatabase := true })

/-- Starts the service: the server and the address that it listens on. -/
def serve (c : Config) (b : Backend) :
    Except StartupError (Http.Server × Net.SocketAddress) × Backend :=
  match openStore c b with
  | (.error e, b) => (.error (.storage e), b)
  | (.ok (), b) =>
    let (caching, b) := assemble c b
    match c.bindAddress with
    | .error e => (.error (.config e), b)
    | .ok address => (.ok (⟨caching, c.requestTimeout * 1000⟩, address), b)

end Startup

end TaskBoard
