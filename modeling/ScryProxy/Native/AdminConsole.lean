import ScryProxy.Native.ClientRegistry
import ScryProxy.Native.Routing

/-!
# Admin console

Model of `admin/commands.rs`: how a text is read as a command, and `SHOW POOLS`, `PAUSE`,
`RESUME` and `KILL` over the configuration, the pools and the client registry.  The reports of
the other commands do not matter here; they are a parameter of `execute`.
-/

namespace ScryProxy

/-! ## Commands -/

inductive AdminCommand where
  | showPools
  | showStats
  | showDatabases
  | showClients
  | showServers
  | showVersion
  | showConfig
  | pause (database : Option Str)
  | resume (database : Option Str)
  | reload
  | shutdown (wait : Bool)
  | kill (database : Option Str)
  deriving DecidableEq, Repr

namespace AdminCommand

/-- The second word after `SHOW`; other reports are not the console's. -/
def parseShow (keyword : Str) : Option AdminCommand :=
  if keyword = "POOLS".toList then some .showPools
  else if keyword = "STATS".toList ∨ keyword = "STATS_TOTALS".toList ∨
      keyword = "STATS_AVERAGES".toList then some .showStats
  else if keyword = "DATABASES".toList then some .showDatabases
  else if keyword = "CLIENTS".toList then some .showClients
  else if keyword = "SERVERS".toList then some .showServers
  else if keyword = "VERSION".toList then some .showVersion
  else if keyword = "CONFIG".toList then some .showConfig
  else none

/-- `parse`, once the text has been cut into words. -/
def ofWords : List Str → Option AdminCommand
  | [] => none
  | command :: arguments =>
    let database := arguments.head?.map Str.toLowercase
    if command = "SHOW".toList then arguments.head?.bind parseShow
    else if command = "PAUSE".toList then some (.pause database)
    else if command = "RESUME".toList then some (.resume database)
    else if command = "RELOAD".toList then some .reload
    else if command = "SHUTDOWN".toList then
      some (.shutdown (arguments.head?.any (· = "WAIT".toList)))
    else if command = "KILL".toList then some (.kill database)
    else none

/-- `parse`: the whole text is converted to upper case first. -/
def parse (sql : Str) : Option AdminCommand := ofWords sql.trim.toUppercase.splitWhitespace

/-- What `execute` makes of a text: a command, or the message of its error response. -/
def request (sql : Str) : Except Str AdminCommand :=
  match parse sql with
  | some cmd => .ok cmd
  | none => .error ("Unknown admin command: ".toList ++ sql)

/-- The keywords that `is_admin_command` takes behind `SHOW`. -/
def showKeywords : List Str :=
  ["POOLS".toList, "STATS".toList, "STATS_TOTALS".toList, "STATS_AVERAGES".toList,
    "DATABASES".toList, "CLIENTS".toList, "SERVERS".toList, "VERSION".toList, "CONFIG".toList]

/-- `AdminConsole::is_admin_command`, which looks at the front of the text before it is parsed. -/
def isAdminCommand (sql : Str) : Bool :=
  let upper := sql.trim.toUppercase
  if upper.startsWith "SHOW ".toList then
    let rest := ((upper.stripPrefix "SHOW ".toList).getD []).trim
    let keyword := rest.splitWhitespace.head?.getD []
    showKeywords.contains keyword
  else
    upper.startsWith "PAUSE".toList || upper.startsWith "RESUME".toList ||
      upper.startsWith "RELOAD".toList || upper.startsWith "SHUTDOWN".toList ||
      upper.startsWith "KILL".toList

end AdminCommand

inductive AdminResponse where
  | rowSet (columns : List Str) (rows : List (List Str))
  | commandComplete (tag : Str)
  | error (message : Str)
  deriving DecidableEq, Repr

/-! ## What the console reads -/

inductive ClientState where
  | active
  | admin
  deriving DecidableEq, Repr

/-- The `state` of an entry: `handle_client_connection` sets it from the database name as it
    registers the entry, and nothing changes it later. -/
def ClientEntry.state (e : ClientEntry) : ClientState :=
  if e.database.eqIgnoreAsciiCase adminDatabase then .admin else .active

/-- The part of `DatabaseEntry` that the modelled commands read. -/
structure DatabaseEntry where
  name : Str
  user : Str
  poolKey : Str
  deriving DecidableEq, Repr

/-- The live figures of a pool and its wait queue. -/
structure PoolStatus where
  size : Nat
  available : Nat
  waitQueueDepth : Nat
  deriving DecidableEq, Repr

structure AdminHandles where
  config : Config
  clientRegistry : ClientRegistry
  status : DatabaseConfig → PoolStatus

/-- `database_entries`: the default backend first. -/
def Config.databaseEntries (cfg : Config) : List DatabaseEntry :=
  ⟨cfg.backend.database, cfg.backend.user, defaultName⟩ ::
    cfg.databases.map fun db => ⟨db.name, db.user, db.name⟩

/-- `pool_mode_str`. -/
def poolModeStr : PoolingStrategy → Str
  | .disabled => "disabled".toList
  | .session => "session".toList
  | .transaction => "transaction".toList
  | .hybrid => "hybrid".toList

/-- The key under which a client is counted. -/
def Config.countKey (cfg : Config) (database : Str) : Str :=
  if database ∈ cfg.poolManagers then database else defaultName

namespace AdminHandles

/-- `live_clients_per_pool_key`. -/
def liveClientsPerPoolKey (h : AdminHandles) : AList fun _ : Str => Nat :=
  (h.clientRegistry.inner.entries.map Sigma.snd).foldl (fun counts entry =>
    if entry.state = .admin then counts
    else
      let key := h.config.countKey entry.database
      counts.insert key ((counts.lookup key).getD 0 + 1)) ∅

/-- A row of `SHOW POOLS`. -/
def poolsRow (h : AdminHandles) (entry : DatabaseEntry) : List Str :=
  let clActive := (h.liveClientsPerPoolKey.lookup entry.poolKey).getD 0
  let (clWaiting, svActive, svIdle) :=
    match h.config.poolManagers.lookup entry.poolKey with
    | some pm =>
      let status := h.status pm
      (status.waitQueueDepth, status.size - status.available, status.available)
    | none => (0, 0, 0)
  [entry.name, entry.user, Nat.toDigits 10 clActive, Nat.toDigits 10 clWaiting,
    Nat.toDigits 10 svActive, Nat.toDigits 10 svIdle, ['0'], ['0'], ['0'], ['0'],
    poolModeStr h.config.connectionPooling]

/-- `show_pools`. -/
def showPools (h : AdminHandles) : AdminResponse :=
  .rowSet (["database", "user", "cl_active", "cl_waiting", "sv_active", "sv_idle", "sv_used",
    "sv_tested", "sv_login", "maxwait", "pool_mode"].map String.toList)
    (h.config.databaseEntries.map h.poolsRow)

/-- `resolve_pool_manager`: a pool's own key first, then the name of an entry in any case. -/
def resolvePoolManager (h : AdminHandles) (db : Str) : Option DatabaseConfig :=
  match h.config.poolManagers.lookup db with
  | some pm => some pm
  | none =>
    (h.config.databaseEntries.find? (·.name.eqIgnoreAsciiCase db)).bind fun e =>
      h.config.poolManagers.lookup e.poolKey

/-! ## Execution -/

/-- What `pause` and `resume` share: the response, and the pool managers that are told. -/
def onPools (h : AdminHandles) (tag : Str) : Option Str → AdminResponse × List DatabaseConfig
  | some db =>
    match h.resolvePoolManager db with
    | some pm => (.commandComplete tag, [pm])
    | none => (.error ("no such database: ".toList ++ db), [])
  | none => (.commandComplete tag, h.config.poolManagers.entries.map Sigma.snd)

def pause (h : AdminHandles) : Option Str → AdminResponse × List DatabaseConfig :=
  h.onPools "PAUSE".toList

def resume (h : AdminHandles) : Option Str → AdminResponse × List DatabaseConfig :=
  h.onPools "RESUME".toList

/-- A database that `kill` accepts. -/
def known (h : AdminHandles) (db : Str) : Bool :=
  h.config.databaseEntries.any fun e =>
    e.name.eqIgnoreAsciiCase db || e.poolKey.eqIgnoreAsciiCase db

/-- `kill`, with the handles of the aborted tasks and the registry it leaves. -/
def kill (h : AdminHandles) : Option Str → AdminResponse × List AbortHandle × ClientRegistry
  | none =>
    (.error "KILL requires a database name (usage: KILL <db>)".toList, [], h.clientRegistry)
  | some db =>
    if h.known db then
      let (killed, aborted, registry) := h.clientRegistry.killByDatabase db
      (.commandComplete ("KILL ".toList ++ Nat.toDigits 10 killed.length), aborted, registry)
    else (.error ("no such database: ".toList ++ db), [], h.clientRegistry)

/-- What a command answers and what it does. -/
structure Outcome where
  response : AdminResponse
  paused : List DatabaseConfig
  resumed : List DatabaseConfig
  aborted : List AbortHandle
  clientRegistry : ClientRegistry

/-- `execute`; `report` answers the commands that are not modelled. -/
def execute (h : AdminHandles) (report : AdminCommand → AdminResponse) (sql : Str) :
    Except Str Outcome :=
  match AdminCommand.request sql with
  | .error message => .error message
  | .ok .showPools => .ok ⟨h.showPools, [], [], [], h.clientRegistry⟩
  | .ok (.pause db) =>
    let (response, paused) := h.pause db
    .ok ⟨response, paused, [], [], h.clientRegistry⟩
  | .ok (.resume db) =>
    let (response, resumed) := h.resume db
    .ok ⟨response, [], resumed, [], h.clientRegistry⟩
  | .ok (.kill db) =>
    let (response, aborted, registry) := h.kill db
    .ok ⟨response, [], [], aborted, registry⟩
  | .ok cmd => .ok ⟨report cmd, [], [], [], h.clientRegistry⟩

end AdminHandles

end ScryProxy
