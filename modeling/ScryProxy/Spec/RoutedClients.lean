import ScryProxy.Native.Routing

/-!
# Where a client ends up, and as whom

The router says which backend a client asked for; four places of the server decide which
one it gets: the identity read from the startup data, the map of pools, the direct
connection without pools, and the startup read late on UNIX sockets.
`routesAsRequested_iff` says exactly when they agree with the router.

The login on a fresh connection is built from the default backend's settings, whatever
pool the connection comes from, so it is the routed entry's own login exactly when the
two have the same user, database and password (`logsInAsRouted_iff`).
-/

namespace ScryProxy

/-! ## Entries and pools -/

/-- The entry for a name. -/
def Config.entry (cfg : Config) (name : Str) : Option DatabaseConfig :=
  cfg.router.routes.lookup name

/-- Inserting entries one after the other: a later one replaces what the map had. -/
theorem lookup_foldl_insert (dbs : List DatabaseConfig) (m : AList fun _ : Str => DatabaseConfig)
    (name : Str) :
    (dbs.foldl (fun m db => m.insert db.name db) m).lookup name =
      ((dbs.foldl (fun m db => m.insert db.name db)
        (∅ : AList fun _ : Str => DatabaseConfig)).lookup name).or (m.lookup name) := by
  rw [Maps.lookup_foldl_insert, Maps.lookup_foldl_insert DatabaseConfig.name (fun db => db) dbs ∅,
    AList.lookup_empty, Option.or_none]

variable {cfg : Config}

/-- The pool for a name is its entry's; the default pool gives way to an entry of its name. -/
theorem poolManagers_lookup (h : cfg.connectionPooling ≠ .disabled) (name : Str) :
    cfg.poolManagers.lookup name =
      (cfg.entry name).or (if name = defaultName then some cfg.router.default else none) := by
  rw [Config.poolManagers, if_neg h, lookup_foldl_insert]
  show (cfg.entry name).or _ = _
  congr 1
  rw [← AList.insert_empty]
  by_cases hname : name = defaultName
  · rw [hname, AList.lookup_insert, if_pos rfl]
  · rw [AList.lookup_insert_ne hname, AList.lookup_empty, if_neg hname]

/-- The configuration behind the pool `*`. -/
def Config.fallback (cfg : Config) : DatabaseConfig :=
  (cfg.entry defaultName).getD cfg.router.default

theorem selectPool_eq (h : cfg.connectionPooling ≠ .disabled) (database : Option Str) :
    selectPool cfg.poolManagers database = some ((database.bind cfg.entry).getD cfg.fallback) := by
  -- the pool `*` is always there
  have hstar : cfg.poolManagers.lookup defaultName = some cfg.fallback := by
    rw [poolManagers_lookup h, if_pos rfl, Config.fallback]
    cases cfg.entry defaultName <;> rfl
  unfold selectPool
  rw [hstar]
  cases database with
  | none => rfl
  | some name =>
    show (cfg.poolManagers.lookup name).or _ = some ((cfg.entry name).getD _)
    rw [poolManagers_lookup h]
    cases hentry : cfg.entry name with
    | some db => rfl
    | none =>
      -- only the name `*` itself has a pool without an entry
      by_cases hname : name = defaultName
      · subst hname
        rw [if_pos rfl, Config.fallback, hentry]
        rfl
      · rw [if_neg hname]
        rfl

theorem selectPool_disabled (h : cfg.connectionPooling = .disabled) (database : Option Str) :
    selectPool cfg.poolManagers database = none := by
  rw [Config.poolManagers, if_pos h, selectPool]
  cases database <;> rfl

/-! ## Routing -/

def isAdmin (database : Option Str) : Bool := database.any (Str.eqIgnoreAsciiCase · adminDatabase)

/-- Host and port of the backend; the admin console has none. -/
def Destination.address : Destination → Option (Str × Nat)
  | .adminConsole => none
  | .pool db => some (db.host, db.port)
  | .direct host port => some (host, port)

def DatabaseConfig.address (db : DatabaseConfig) : Str × Nat := (db.host, db.port)

/-- The configuration that the router gives for a startup database. -/
def Config.routed (cfg : Config) (database : Option Str) : DatabaseConfig :=
  (database.map cfg.router.route).getD cfg.router.default

/-- What a client asks for: the admin console, or the routed backend. -/
def requestedAddress (cfg : Config) (database : Option Str) : Option (Str × Nat) :=
  if isAdmin database then none else some (cfg.routed database).address

/-- The client gets what it asks for. -/
def RoutesAsRequested (cfg : Config) (transport : Transport) (message : List UInt8) : Prop :=
  ∀ startup, StartupMessage.parse message = some startup →
    (handleClientConnection cfg (transport.startupData message)).address =
      requestedAddress cfg startup.database

/-- Where a client that is not sent to the admin console and has no pool of its own is served. -/
def Config.fallbackAddress (cfg : Config) : Str × Nat :=
  if cfg.connectionPooling = .disabled then cfg.router.default.address else cfg.fallback.address

/-- Over TCP: the client names the admin database, or an entry that has a pool, or its route leads
    to where clients without a pool of their own are served.  On a UNIX socket only the latter
    helps. -/
def ServedAsRouted (cfg : Config) (transport : Transport) (database : Option Str) : Prop :=
  match transport with
  | .plain | .tls =>
    isAdmin database = true ∨
      (cfg.connectionPooling ≠ .disabled ∧ (database.bind cfg.entry).isSome = true) ∨
      (cfg.routed database).address = cfg.fallbackAddress
  | .unix => isAdmin database = false ∧ (cfg.routed database).address = cfg.fallbackAddress

theorem routed_eq (cfg : Config) (database : Option Str) :
    cfg.routed database = (database.bind cfg.entry).getD cfg.router.default := by
  cases database <;> rfl

/-- The client's backend once its database name and admin flag are known. -/
theorem handleClientConnection_address {startupData : List UInt8} {database : Option Str}
    {admin : Bool} (hid : identify startupData = (database, admin)) :
    (handleClientConnection cfg startupData).address =
      if admin then none
      else if cfg.connectionPooling = .disabled then some cfg.router.default.address
      else some ((database.bind cfg.entry).getD cfg.fallback).address := by
  simp only [handleClientConnection, hid]
  cases admin with
  | true => rfl
  | false =>
    simp only [Bool.false_eq_true, if_false]
    by_cases hpool : cfg.connectionPooling = .disabled
    · rw [selectPool_disabled hpool, if_pos hpool]
      rfl
    · rw [selectPool_eq hpool, if_neg hpool]
      rfl

variable {message : List UInt8}

theorem identify_message {startup : StartupMessage}
    (h : StartupMessage.parse message = some startup) :
    identify message = (startup.database, isAdmin startup.database) := by
  have hne : message.isEmpty = false := by
    cases message with
    | nil => cases h
    | cons b bytes => rfl
  simp only [identify, hne, Bool.false_eq_true, if_false, h]
  rfl

/-- One client: the backend it gets against the one it asks for. -/
theorem address_eq_requested_iff (cfg : Config) (transport : Transport) {startup : StartupMessage}
    (h : StartupMessage.parse message = some startup) :
    (handleClientConnection cfg (transport.startupData message)).address =
        requestedAddress cfg startup.database ↔
      ServedAsRouted cfg transport startup.database := by
  -- over TCP the server knows the database that the client names
  have htcp : (handleClientConnection cfg message).address =
      requestedAddress cfg startup.database ↔ ServedAsRouted cfg .plain startup.database := by
    rw [handleClientConnection_address (identify_message h)]
    simp only [ServedAsRouted, requestedAddress, Config.fallbackAddress, routed_eq]
    cases isAdmin startup.database with
    | true => simp
    | false =>
      by_cases hpool : cfg.connectionPooling = .disabled
      · simp only [hpool, Bool.false_eq_true, false_or, if_true, if_false, Option.some.injEq,
          ne_eq, not_true_eq_false, false_and]
        exact eq_comm
      · cases startup.database.bind cfg.entry with
        | none => simpa [hpool] using eq_comm
        | some db => simp [hpool]
  cases transport with
  | plain => exact htcp
  | tls => exact htcp
  | unix =>
    -- on a UNIX socket it knows nothing
    have hnone : identify [] = (none, false) := rfl
    simp only [Transport.startupData]
    rw [handleClientConnection_address hnone]
    simp only [ServedAsRouted, requestedAddress, Config.fallbackAddress]
    cases isAdmin startup.database with
    | true => by_cases hpool : cfg.connectionPooling = .disabled <;> simp [hpool]
    | false =>
      by_cases hpool : cfg.connectionPooling = .disabled <;> simpa [hpool] using eq_comm

/-- The client gets what it asks for exactly when its route is where the server takes it. -/
theorem routesAsRequested_iff (cfg : Config) (transport : Transport) (message : List UInt8) :
    RoutesAsRequested cfg transport message ↔
      ∀ startup, StartupMessage.parse message = some startup →
        ServedAsRouted cfg transport startup.database :=
  forall_congr' fun _ => imp_congr_right fun h => address_eq_requested_iff cfg transport h

/-- A default backend and one entry elsewhere, with users, databases and passwords of their own. -/
def twoBackends (pooling : PoolingStrategy) : Config where
  backend :=
    { host := "db0".toList, port := 5432, database := "main".toList, user := "postgres".toList,
      password := "top".toList }
  databases :=
    [{ name := "app".toList, host := "db1".toList, port := 5433, database := "app1".toList,
       user := "app".toList, password := "low".toList, poolSize := none }]
  connectionPooling := pooling
  poolSize := 10
  authType := .trust

/-- A client that names the entry. -/
def appMessage : List UInt8 := StartupMessage.build "alice".toList "app".toList []

theorem appMessage_parse :
    ∃ startup, StartupMessage.parse appMessage = some startup ∧
      startup.database = some "app".toList :=
  Option.map_eq_some_iff.mp (by decide +kernel :
    (StartupMessage.parse appMessage).map StartupMessage.database = some (some "app".toList))

/-- Without pools the client of `db1` is served by `db0`. -/
theorem unpooled_entry_ignored : ¬ RoutesAsRequested (twoBackends .disabled) .plain appMessage := by
  intro h
  obtain ⟨startup, hparse, hdb⟩ := appMessage_parse
  have haddress := h startup hparse
  rw [hdb] at haddress
  exact absurd haddress (by decide +kernel)

/-! ## Login -/

/-- The login of the entry. -/
def BackendLogin.IsOf (login : BackendLogin) (db : DatabaseConfig) : Prop :=
  login.startup.user = db.user ∧ login.startup.database = db.database ∧
    login.authUser = db.user ∧ login.authPassword = db.password

/-- A client served from the pool of `db` is logged in as `db` says, on every fresh connection. -/
def LogsInAsRouted (cfg : Config) (transport : Transport) (credentials : Credentials)
    (message : List UInt8) (acquired : List PooledBackend) (db : DatabaseConfig) : Prop :=
  handleClientConnection cfg (transport.startupData message) = .pool db →
    ∀ login ∈ sessionLogins cfg credentials message acquired, login.IsOf db

/-- Whatever the way of authentication, the message for the backend names the default backend's
    user and database. -/
theorem authenticate_backend {credentials : Credentials} {startup : BackendStartup}
    (h : authenticate cfg credentials message = some startup) :
    startup.user = cfg.backend.user ∧ startup.database = cfg.backend.database := by
  unfold authenticate at h
  simp only [Option.bind_eq_bind, Option.bind_eq_some_iff] at h
  obtain ⟨client, -, user, -, h⟩ := h
  have hbuilt : buildBackendStartup cfg client = startup := by
    cases hauth : cfg.authType with
    | trust => simpa [hauth] using h
    | md5 =>
      simp only [hauth] at h
      split at h
      · exact Option.some.inj h
      · exact nomatch h
    | scramSha256 => simp [hauth] at h
    | cert =>
      simp only [hauth] at h
      split at h
      · exact Option.some.inj h
      · exact nomatch h
  rw [← hbuilt]
  exact ⟨rfl, rfl⟩

/-- Every login is the default backend's, and there is one for each fresh connection. -/
theorem mem_sessionLogins {credentials : Credentials} {startup : BackendStartup}
    (hauth : authenticate cfg credentials message = some startup) (acquired : List PooledBackend)
    (login : BackendLogin) :
    login ∈ sessionLogins cfg credentials message acquired ↔
      (∃ conn ∈ acquired, conn.startupResponse = none) ∧
        login = ⟨startup, cfg.backend.user, cfg.backend.password⟩ := by
  simp only [sessionLogins, hauth, List.mem_filterMap]
  constructor
  · rintro ⟨conn, hconn, hlogin⟩
    unfold loginOn at hlogin
    split at hlogin
    · exact nomatch hlogin
    · rename_i hfresh
      exact ⟨⟨conn, hconn, hfresh⟩, (Option.some.inj hlogin).symm⟩
  · rintro ⟨⟨conn, hconn, hfresh⟩, rfl⟩
    refine ⟨conn, hconn, ?_⟩
    simp only [loginOn, hfresh, initializeBackendStartup]

/-- A client that is let in and given a fresh connection from the pool of `db` is logged in as `db`
    says exactly when `db` has the user, database and password of the default backend. -/
theorem logsInAsRouted_iff (cfg : Config) (transport : Transport) (credentials : Credentials)
    (message : List UInt8) (acquired : List PooledBackend) (db : DatabaseConfig) :
    LogsInAsRouted cfg transport credentials message acquired db ↔
      (handleClientConnection cfg (transport.startupData message) = .pool db →
        (authenticate cfg credentials message).isSome = true →
        (∃ conn ∈ acquired, conn.startupResponse = none) →
        db.user = cfg.backend.user ∧ db.database = cfg.backend.database ∧
          db.password = cfg.backend.password) := by
  refine imp_congr_right fun _ => ?_
  cases hauth : authenticate cfg credentials message with
  | none => simp [sessionLogins, hauth]
  | some startup =>
    obtain ⟨huser, hdatabase⟩ := authenticate_backend hauth
    simp only [mem_sessionLogins hauth, BackendLogin.IsOf]
    constructor
    · intro h _ hfresh
      obtain ⟨h₁, h₂, -, h₄⟩ := h _ ⟨hfresh, rfl⟩
      exact ⟨(huser.symm.trans h₁).symm, (hdatabase.symm.trans h₂).symm, h₄.symm⟩
    · rintro h login ⟨hfresh, rfl⟩
      obtain ⟨h₁, h₂, h₃⟩ := h rfl hfresh
      exact ⟨huser.trans h₁.symm, hdatabase.trans h₂.symm, h₁.symm, h₃.symm⟩

/-- The client of `db1` is logged in there with the user and password for `db0`. -/
theorem entry_login_ignored :
    ¬ LogsInAsRouted (twoBackends .transaction) .plain ⟨false, false⟩ appMessage [⟨0, none⟩]
      { name := "app".toList, host := "db1".toList, port := 5433, database := "app1".toList,
        user := "app".toList, password := "low".toList, poolSize := none } := by
  intro h
  obtain ⟨startup, hauth, huser⟩ : ∃ startup,
      authenticate (twoBackends .transaction) ⟨false, false⟩ appMessage = some startup ∧
        startup.user = "postgres".toList :=
    Option.map_eq_some_iff.mp (by decide +kernel)
  have hlogin := h (by decide +kernel) _
    ((mem_sessionLogins hauth _ _).mpr ⟨⟨_, List.mem_singleton_self _, rfl⟩, rfl⟩)
  rw [BackendLogin.IsOf, huser] at hlogin
  exact absurd hlogin.1 (by decide)

end ScryProxy
