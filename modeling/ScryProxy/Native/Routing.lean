import ScryProxy.Native.ModeEnforcer
import ScryProxy.Native.PoolManager
import ScryProxy.Native.Startup

/-!
# Routing and backend login

Model of `routing/mod.rs` (`DatabaseRouter`), of the pools that `ProxyServer::new`
creates, of `handle_client_connection` in `proxy/server.rs` and of the way from a
client's startup message to the login on a backend (`Authenticator` in
`auth/authenticator.rs`, the startup handshakes of `ConnectionHandler` in
`proxy/connection.rs`).

A pool manager is known here by the configuration it was created with.
-/

namespace ScryProxy

/-! ## Configuration -/

structure BackendConfig where
  host : Str
  port : Nat
  database : Str
  user : Str
  password : Str
  deriving DecidableEq, Repr

/-- An entry of `databases`, or the default backend under the name `*`. -/
structure DatabaseConfig where
  name : Str
  host : Str
  port : Nat
  database : Str
  user : Str
  password : Str
  poolSize : Option Nat
  deriving DecidableEq, Repr

inductive AuthType where
  | trust
  | md5
  | scramSha256
  | cert
  deriving DecidableEq, Repr

/-- The part of `Config` that routing and login read. -/
structure Config where
  backend : BackendConfig
  databases : List DatabaseConfig
  connectionPooling : PoolingStrategy
  poolSize : Nat
  authType : AuthType
  deriving DecidableEq, Repr

/-! ## Routes and pools -/

/-- Name of the default route. -/
def defaultName : Str := ['*']

structure DatabaseRouter where
  routes : AList fun _ : Str => DatabaseConfig
  default : DatabaseConfig

namespace DatabaseRouter

/-- `new`: of entries with one name the last one counts. -/
def new (databases : List DatabaseConfig) (defaultBackend : BackendConfig)
    (defaultPoolSize : Nat) : DatabaseRouter where
  routes := databases.foldl (fun routes db => routes.insert db.name db) ∅
  default :=
    { name := defaultName
      host := defaultBackend.host
      port := defaultBackend.port
      database := defaultBackend.database
      user := defaultBackend.user
      password := defaultBackend.password
      poolSize := some defaultPoolSize }

/-- `route`. -/
def route (r : DatabaseRouter) (databaseName : Str) : DatabaseConfig :=
  (r.routes.lookup databaseName).getD r.default

end DatabaseRouter

/-- The router that `ProxyServer::new` builds. -/
def Config.router (cfg : Config) : DatabaseRouter :=
  .new cfg.databases cfg.backend cfg.poolSize

/-- The pools that `ProxyServer::new` creates: none when pooling is disabled, else the default one
    and then one for each entry. -/
def Config.poolManagers (cfg : Config) : AList fun _ : Str => DatabaseConfig :=
  if cfg.connectionPooling = .disabled then ∅
  else cfg.databases.foldl (fun pools db => pools.insert db.name db)
    (AList.singleton defaultName cfg.router.default)

/-! ## Client connections -/

inductive Transport where
  | plain
  | tls
  | unix
  deriving DecidableEq, Repr

/-- The startup data that `handle_client_connection` is given: the message was read before, over
    plain TCP or after the TLS handshake, but on a UNIX socket nothing was. -/
def Transport.startupData (transport : Transport) (message : List UInt8) : List UInt8 :=
  match transport with
  | .plain | .tls => message
  | .unix => []

/-- `ADMIN_DATABASE`. -/
def adminDatabase : Str := "pgbouncer".toList

/-- Where a client ends up. -/
inductive Destination where
  | adminConsole
  /-- a connection from the pool with this configuration -/
  | pool (db : DatabaseConfig)
  /-- a connection of its own -/
  | direct (host : Str) (port : Nat)
  deriving DecidableEq, Repr

/-- Database name and admin flag, as `handle_client_connection` reads them. -/
def identify (startupData : List UInt8) : Option Str × Bool :=
  if startupData.isEmpty then (none, false)
  else match StartupMessage.parse startupData with
    | some startup =>
      (startup.database, startup.database.any (Str.eqIgnoreAsciiCase · adminDatabase))
    | none => (none, false)

/-- The choice of a pool manager in `handle_client_connection`. -/
def selectPool (pools : AList fun _ : Str => DatabaseConfig) (databaseName : Option Str) :
    Option DatabaseConfig :=
  (databaseName.bind pools.lookup).or (pools.lookup defaultName)

/-- `handle_client_connection`, and `ConnectionHandler::handle` as far as it picks the backend. -/
def handleClientConnection (cfg : Config) (startupData : List UInt8) : Destination :=
  let (databaseName, isAdmin) := identify startupData
  let poolManager := selectPool cfg.poolManagers databaseName
  if isAdmin then .adminConsole
  else match poolManager with
    | some db => .pool db
    -- without pools the handler connects to the default backend
    | none => .direct cfg.backend.host cfg.backend.port

/-! ## Login -/

/-- What a client presents besides its startup message. -/
structure Credentials where
  /-- the response to the MD5 challenge verifies against the auth file -/
  passwordVerifies : Bool
  /-- the TLS layer has verified a client certificate -/
  verifiedPeerCert : Bool
  deriving DecidableEq, Repr

/-- The arguments of `StartupMessage::build` for the message that goes to a backend. -/
structure BackendStartup where
  user : Str
  database : Str
  extraParams : List (Str × Str)
  deriving DecidableEq, Repr

def BackendStartup.bytes (s : BackendStartup) : List UInt8 :=
  StartupMessage.build s.user s.database s.extraParams

/-- `build_backend_startup`: the client's user and database are replaced by those of the default
    backend. -/
def buildBackendStartup (cfg : Config) (client : StartupMessage) : BackendStartup where
  user := cfg.backend.user
  database := cfg.backend.database
  extraParams := (client.parameters.entries.map fun e => (e.1, e.2)).filter fun e =>
    e.1 ≠ "user".toList ∧ e.1 ≠ "database".toList

/-- `Authenticator::authenticate`, on the startup message of the client, wherever it was read. -/
def authenticate (cfg : Config) (credentials : Credentials) (message : List UInt8) :
    Option BackendStartup := do
  let startup ← StartupMessage.parse message
  let _ ← startup.user
  match cfg.authType with
  | .trust => return buildBackendStartup cfg startup
  | .md5 =>
    if credentials.passwordVerifies then return buildBackendStartup cfg startup else none
  | .scramSha256 => none
  | .cert =>
    if credentials.verifiedPeerCert then return buildBackendStartup cfg startup else none

/-- A login on a backend: the startup message sent and the credentials of `BackendAuthenticator`. -/
structure BackendLogin where
  startup : BackendStartup
  authUser : Str
  authPassword : Str
  deriving DecidableEq, Repr

/-- `initialize_backend_startup`, which the session start and a mid-session reacquire share. -/
def initializeBackendStartup (backendUser backendPassword : Str) (startup : BackendStartup) :
    BackendLogin := ⟨startup, backendUser, backendPassword⟩

/-- The login on a connection just acquired: none if the connection has been through its startup
    already. -/
def loginOn (cfg : Config) (startup : BackendStartup) (conn : PooledBackend) :
    Option BackendLogin :=
  match conn.startupResponse with
  | some _ => none
  | none =>
    some (initializeBackendStartup cfg.backend.user cfg.backend.password startup)

/-- The logins of a session that acquires the given connections, the first at its start and the
    others at its transaction ends.  The startup message built at the start serves for all. -/
def sessionLogins (cfg : Config) (credentials : Credentials) (message : List UInt8)
    (acquired : List PooledBackend) : List BackendLogin :=
  match authenticate cfg credentials message with
  | none => []
  | some startup => acquired.filterMap (loginOn cfg startup)

end ScryProxy
