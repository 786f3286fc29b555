import ScryProxy.Native.AdminConsole
import ScryProxy.Spec.RoutedClients

/-!
# The clients behind a row of `SHOW POOLS`

A client is served from the pool of its startup database, letter by letter, or from the pool
`*`, and `SHOW POOLS` counts it there.  `KILL` and `PAUSE` take a name that the parser has
converted to upper case and back; `KILL` compares it with the startup databases, and `PAUSE`
with the keys of the pools and then with the names of the entries.

## Key results

- `aborted_iff`: whom `KILL` with a name disconnects
- `pauses_exactly_iff`: when `PAUSE` with a row's name gates the pool of the row's clients
- `row_means_same_iff`: exactly when the three commands mean the same clients
-/

namespace ScryProxy

/-! ## Live clients -/

/-- A live client: its connection and the startup data that it was routed by. -/
structure LiveClient where
  connId : Nat
  startupData : List UInt8
  deriving DecidableEq, Repr

namespace LiveClient

def databaseName (c : LiveClient) : Option Str := (identify c.startupData).1

/-- The entry that `handle_client_connection` registers. -/
def entry (c : LiveClient) : ClientEntry := ⟨c.connId, c.databaseName.getD []⟩

theorem identify_admin (startupData : List UInt8) :
    (identify startupData).2 = isAdmin (identify startupData).1 := by
  unfold identify
  split
  · rfl
  · split <;> rfl

/-- The state is the one that the admin flag of `handle_client_connection` asks for. -/
theorem state_entry (c : LiveClient) :
    c.entry.state = if (identify c.startupData).2 then .admin else .active := by
  rw [identify_admin]
  show (if (c.databaseName.getD []).eqIgnoreAsciiCase adminDatabase = true then ClientState.admin
    else .active) = if isAdmin c.databaseName = true then .admin else .active
  cases c.databaseName <;> rfl

end LiveClient

/-- The live clients, each with its own connection id. -/
structure LiveClients where
  all : List LiveClient
  distinct : (all.map LiveClient.connId).Nodup

namespace LiveClients

/-- Every client has its entry and its abort handle. -/
def registry (clients : LiveClients) : ClientRegistry where
  inner := ⟨clients.all.map fun c => ⟨c.connId, c.entry⟩, by
    rw [List.NodupKeys, List.keys, List.map_map]
    exact clients.distinct⟩
  abortHandles := ⟨clients.all.map fun c => ⟨c.connId, ⟨c.connId⟩⟩, by
    rw [List.NodupKeys, List.keys, List.map_map]
    exact clients.distinct⟩

theorem eq_of_connId {clients : LiveClients} {c c' : LiveClient} (hc : c ∈ clients.all)
    (hc' : c' ∈ clients.all) (h : c.connId = c'.connId) : c = c' :=
  List.inj_on_of_nodup_map clients.distinct hc hc' h

theorem mem_aborted {clients : LiveClients} {c : LiveClient} (hc : c ∈ clients.all) (db : Str) :
    (⟨c.connId⟩ : AbortHandle) ∈ (clients.registry.killByDatabase db).2.1 ↔
      c.entry.database.eqIgnoreAsciiCase db = true := by
  rw [ClientRegistry.mem_killByDatabase]
  simp only [ClientRegistry.matched, registry, List.map_map, List.mem_map, List.mem_filter,
    ← Option.mem_def, AList.mem_lookup_iff]
  constructor
  · rintro ⟨id, ⟨e, ⟨⟨c₁, hc₁, rfl⟩, hname⟩, hid⟩, c₂, hc₂, heq⟩
    -- the entry that was matched and the handle belong to one client
    simp only [Sigma.mk.injEq, AbortHandle.mk.injEq, heq_eq_eq] at heq
    have hsame : c.connId = c₁.connId := heq.2.symm.trans (heq.1.trans hid.symm)
    rwa [eq_of_connId hc hc₁ hsame]
  · intro hname
    exact ⟨c.connId, ⟨c.entry, ⟨⟨c, hc, rfl⟩, hname⟩, rfl⟩, c, hc, rfl⟩

end LiveClients

/-! ## Pools and entries -/

/-- There is a pool with that key. -/
def Config.HasPool (cfg : Config) (key : Str) : Prop :=
  cfg.connectionPooling ≠ .disabled ∧ (key = defaultName ∨ ∃ db ∈ cfg.databases, db.name = key)

/-- A name's entry has that name, and a name without one is no entry's. -/
theorem lookup_entries (dbs : List DatabaseConfig) (name : Str) :
    (∀ db, (dbs.foldl (fun m db => m.insert db.name db)
      (∅ : AList fun _ : Str => DatabaseConfig)).lookup name = some db → db ∈ dbs ∧ db.name = name) ∧
    ((dbs.foldl (fun m db => m.insert db.name db)
      (∅ : AList fun _ : Str => DatabaseConfig)).lookup name = none → ∀ db ∈ dbs, db.name ≠ name) := by
  rw [Maps.lookup_foldl_insert DatabaseConfig.name (fun db => db) dbs ∅, AList.lookup_empty,
    Option.or_none, Option.map_id']
  constructor
  · intro db hdb
    exact ⟨List.mem_reverse.1 (List.mem_of_find?_eq_some hdb), by simpa using List.find?_some hdb⟩
  · intro hnone db hdb
    simpa using List.find?_eq_none.1 hnone db (List.mem_reverse.2 hdb)

variable {cfg : Config} {key : Str}

theorem name_of_entry {db : DatabaseConfig} (h : cfg.entry key = some db) :
    db ∈ cfg.databases ∧ db.name = key :=
  (lookup_entries cfg.databases key).1 db h

variable {p : DatabaseConfig}

theorem name_of_lookup (h : cfg.poolManagers.lookup key = some p) : p.name = key := by
  by_cases hpools : cfg.connectionPooling = .disabled
  · rw [Config.poolManagers, if_pos hpools, AList.lookup_empty] at h
    cases h
  · rw [poolManagers_lookup hpools] at h
    cases hentry : cfg.entry key with
    | some db =>
      rw [hentry, Option.some_or] at h
      rw [← Option.some.inj h]
      exact (name_of_entry hentry).2
    | none =>
      rw [hentry, Option.none_or] at h
      split at h
      · next hkey => rw [hkey, ← Option.some.inj h]; rfl
      · cases h

theorem mem_poolManagers (cfg : Config) (key : Str) : key ∈ cfg.poolManagers ↔ cfg.HasPool key := by
  rw [← AList.lookup_isSome]
  by_cases hpools : cfg.connectionPooling = .disabled
  · simp [Config.HasPool, Config.poolManagers, hpools]
  · rw [poolManagers_lookup hpools]
    cases hentry : cfg.entry key with
    | some db => exact iff_of_true rfl ⟨hpools, .inr ⟨db, name_of_entry hentry⟩⟩
    | none =>
      have hnone : ¬ ∃ db ∈ cfg.databases, db.name = key := by
        rintro ⟨db, hdb, h⟩
        exact (lookup_entries cfg.databases key).2 hentry db hdb h
      by_cases hkey : key = defaultName <;> simp [Config.HasPool, hpools, hkey, hnone]

theorem exists_pool (h : cfg.HasPool key) : ∃ p, cfg.poolManagers.lookup key = some p :=
  Option.isSome_iff_exists.1 (AList.lookup_isSome.2 ((mem_poolManagers cfg key).2 h))

theorem hasPool_of_lookup (h : cfg.poolManagers.lookup key = some p) : cfg.HasPool key :=
  (mem_poolManagers cfg key).1 (AList.lookup_isSome.1 (by rw [h]; rfl))

/-- A pool has one key. -/
theorem lookup_inj {key' : Str} (h : cfg.poolManagers.lookup key = some p) :
    cfg.poolManagers.lookup key' = some p ↔ key' = key := by
  constructor
  · intro h'
    rw [← name_of_lookup h, ← name_of_lookup h']
  · rintro rfl
    exact h

variable {row : DatabaseEntry}

/-- The key of a row is its name, or the row is the default's. -/
theorem mem_databaseEntries (h : row ∈ cfg.databaseEntries) :
    row.poolKey = defaultName ∨
      (row.poolKey = row.name ∧ ∃ db ∈ cfg.databases, db.name = row.poolKey) := by
  rcases List.mem_cons.1 h with rfl | h
  · exact .inl rfl
  · obtain ⟨db, hdb, rfl⟩ := List.mem_map.1 h
    exact .inr ⟨rfl, db, hdb, rfl⟩

theorem hasPool_of_mem (hpools : cfg.connectionPooling ≠ .disabled) (h : row ∈ cfg.databaseEntries) :
    cfg.HasPool row.poolKey :=
  ⟨hpools, (mem_databaseEntries h).imp id And.right⟩

/-! ## Whom a row counts -/

/-- The handles of a server with these clients. -/
def LiveClients.handles (clients : LiveClients) (cfg : Config)
    (status : DatabaseConfig → PoolStatus) : AdminHandles :=
  ⟨cfg, clients.registry, status⟩

/-- The row's `cl_active` counts the client. -/
def Counted (cfg : Config) (row : DatabaseEntry) (c : LiveClient) : Prop :=
  c.entry.state ≠ .admin ∧ cfg.countKey c.entry.database = row.poolKey

instance (cfg : Config) (row : DatabaseEntry) (c : LiveClient) : Decidable (Counted cfg row c) :=
  inferInstanceAs (Decidable (_ ∧ _))

/-- The loop over the entries counts each key's clients. -/
theorem lookup_counts (cfg : Config) (entries : List ClientEntry) (counts : AList fun _ : Str => Nat)
    (key : Str) :
    ((entries.foldl (fun counts entry =>
      if entry.state = .admin then counts
      else counts.insert (cfg.countKey entry.database)
        ((counts.lookup (cfg.countKey entry.database)).getD 0 + 1)) counts).lookup key).getD 0 =
      (counts.lookup key).getD 0 +
        entries.countP fun e => e.state ≠ .admin ∧ cfg.countKey e.database = key := by
  induction entries generalizing counts with
  | nil => simp
  | cons e entries ih =>
    rw [List.foldl_cons, ih, List.countP_cons]
    by_cases hadmin : e.state = .admin
    · simp [hadmin]
    · by_cases hkey : cfg.countKey e.database = key
      · subst hkey
        simp [hadmin]
        omega
      · rw [if_neg hadmin, AList.lookup_insert_ne (Ne.symm hkey)]
        simp [hkey]

theorem clActive_eq (cfg : Config) (clients : LiveClients) (status : DatabaseConfig → PoolStatus)
    (row : DatabaseEntry) :
    ((clients.handles cfg status).liveClientsPerPoolKey.lookup row.poolKey).getD 0 =
      clients.all.countP fun c => Counted cfg row c := by
  have hcounts := lookup_counts cfg (clients.all.map LiveClient.entry) ∅ row.poolKey
  rw [AList.lookup_empty, Option.getD_none, Nat.zero_add, List.countP_map] at hcounts
  have hentries : clients.registry.inner.entries.map Sigma.snd = clients.all.map LiveClient.entry := by
    rw [LiveClients.registry, List.map_map]
    rfl
  unfold AdminHandles.liveClientsPerPoolKey LiveClients.handles
  rw [hentries]
  exact hcounts

/-! ## What the parser makes of a name -/

/-- The name that reaches a command: the first word in upper case, and that in lower case. -/
def typedName (name : Str) : Option Str := name.toUppercase.splitWhitespace.head?.map Str.toLowercase

theorem parse_command {command : Str} (hupper : command.toUppercase = command)
    (hword : command.splitWhitespace = [command]) (name : Str) :
    AdminCommand.parse (command ++ ' ' :: name) =
      AdminCommand.ofWords (command :: name.toUppercase.splitWhitespace) := by
  have hspace : Str.toUppercase (' ' :: name) = ' ' :: name.toUppercase := rfl
  rw [AdminCommand.parse, Str.splitWhitespace_toUppercase_trim, Str.toUppercase_append, hupper, hspace,
    Str.splitWhitespace, Str.words_append_cons (by decide)]
  rw [Str.splitWhitespace] at hword
  rw [hword]
  rfl

theorem parse_kill (name : Str) :
    AdminCommand.parse ("KILL".toList ++ ' ' :: name) = some (.kill (typedName name)) :=
  (parse_command (by decide +kernel) (by decide +kernel) name).trans rfl

theorem parse_pause (name : Str) :
    AdminCommand.parse ("PAUSE".toList ++ ' ' :: name) = some (.pause (typedName name)) :=
  (parse_command (by decide +kernel) (by decide +kernel) name).trans rfl

/-! ## `KILL` -/

/-- The tasks that a command aborts. -/
def AdminHandles.abortedBy (h : AdminHandles) (report : AdminCommand → AdminResponse) (sql : Str) :
    List AbortHandle :=
  match h.execute report sql with
  | .ok outcome => outcome.aborted
  | .error _ => []

/-- The pool managers that a command pauses. -/
def AdminHandles.pausedBy (h : AdminHandles) (report : AdminCommand → AdminResponse) (sql : Str) :
    List DatabaseConfig :=
  match h.execute report sql with
  | .ok outcome => outcome.paused
  | .error _ => []

/-- The name, as it is typed, is that of an entry or of a pool, and the client's database is the same
    but for the case of ASCII letters. -/
def Config.Names (cfg : Config) (name database : Str) : Prop :=
  ∃ t, typedName name = some t ∧ database.eqIgnoreAsciiCase t = true ∧
    ∃ e ∈ cfg.databaseEntries, e.name.eqIgnoreAsciiCase t = true ∨ e.poolKey.eqIgnoreAsciiCase t = true

theorem abortedBy_kill (h : AdminHandles) (report : AdminCommand → AdminResponse) (name : Str) :
    h.abortedBy report ("KILL".toList ++ ' ' :: name) = (h.kill (typedName name)).2.1 := by
  simp only [AdminHandles.abortedBy, AdminHandles.execute, AdminCommand.request, parse_kill]

theorem pausedBy_pause (h : AdminHandles) (report : AdminCommand → AdminResponse) (name : Str) :
    h.pausedBy report ("PAUSE".toList ++ ' ' :: name) = (h.pause (typedName name)).2 := by
  simp only [AdminHandles.pausedBy, AdminHandles.execute, AdminCommand.request, parse_pause]

variable {c : LiveClient}

theorem aborted_iff (cfg : Config) {clients : LiveClients} (status : DatabaseConfig → PoolStatus)
    (report : AdminCommand → AdminResponse) (name : Str) (hc : c ∈ clients.all) :
    (⟨c.connId⟩ : AbortHandle) ∈
        (clients.handles cfg status).abortedBy report ("KILL".toList ++ ' ' :: name) ↔
      cfg.Names name c.entry.database := by
  rw [abortedBy_kill]
  cases htyped : typedName name with
  | none => simp [AdminHandles.kill, Config.Names, htyped]
  | some t =>
    have hnames : cfg.Names name c.entry.database ↔ c.entry.database.eqIgnoreAsciiCase t = true ∧
        (clients.handles cfg status).known t = true := by
      simp [Config.Names, htyped, AdminHandles.known, LiveClients.handles]
    rw [hnames, AdminHandles.kill]
    split
    · next hknown =>
      simp only [hknown, and_true]
      exact LiveClients.mem_aborted hc t
    · next hknown => simp [hknown]

/-! ## `PAUSE` -/

/-- `PAUSE` with the name gates the pool with that key and no other.  A blank name is no argument,
    and then every pool is gated.  A key of a pool comes before the names of the entries, of which
    the first one counts. -/
def Config.Gates (cfg : Config) (name key : Str) : Prop :=
  (typedName name = none ∧ ∀ db ∈ cfg.databases, db.name = defaultName) ∨
    ∃ t, typedName name = some t ∧
      ((cfg.HasPool t ∧ t = key) ∨
        (¬ cfg.HasPool t ∧ ∃ e, cfg.databaseEntries.find? (·.name.eqIgnoreAsciiCase t) = some e ∧
          e.poolKey = key))

/-- The key of the pool that a client is served from. -/
def Config.servedKey (cfg : Config) (databaseName : Option Str) : Str :=
  (databaseName.map cfg.countKey).getD defaultName

theorem selectPool_servedKey (cfg : Config) (databaseName : Option Str) :
    selectPool cfg.poolManagers databaseName = cfg.poolManagers.lookup (cfg.servedKey databaseName) := by
  cases databaseName with
  | none => rfl
  | some name =>
    show (cfg.poolManagers.lookup name).or (cfg.poolManagers.lookup defaultName) =
      cfg.poolManagers.lookup (cfg.countKey name)
    by_cases hmem : name ∈ cfg.poolManagers
    · obtain ⟨p, hp⟩ := Option.isSome_iff_exists.1 (AList.lookup_isSome.2 hmem)
      rw [show cfg.countKey name = name from if_pos hmem, hp, Option.some_or]
    · rw [show cfg.countKey name = defaultName from if_neg hmem, AList.lookup_eq_none.2 hmem,
        Option.none_or]

theorem hasPool_servedKey (hpools : cfg.connectionPooling ≠ .disabled) (databaseName : Option Str) :
    cfg.HasPool (cfg.servedKey databaseName) := by
  have hdefault : cfg.HasPool defaultName := ⟨hpools, .inl rfl⟩
  cases databaseName with
  | none => exact hdefault
  | some name =>
    show cfg.HasPool (cfg.countKey name)
    unfold Config.countKey
    split
    · next hmem => exact (mem_poolManagers cfg name).1 hmem
    · exact hdefault

/-- A client that a row counts is no admin client, so its pool is the selected one. -/
theorem destination_of_counted (h : Counted cfg row c) (p : DatabaseConfig) :
    handleClientConnection cfg c.startupData = .pool p ↔
      cfg.poolManagers.lookup (cfg.servedKey c.databaseName) = some p := by
  have hadmin : (identify c.startupData).2 = false := by
    have hstate := h.1
    rw [c.state_entry] at hstate
    simpa using hstate
  rw [← selectPool_servedKey]
  simp only [handleClientConnection, hadmin, Bool.false_eq_true, if_false]
  show _ ↔ selectPool cfg.poolManagers (identify c.startupData).1 = some p
  cases selectPool cfg.poolManagers (identify c.startupData).1 <;> simp

/-- The key it is counted under is that of its pool, but for a client without a database name where
    a pool has the empty name. -/
theorem servedKey_of_counted (hrow : row ∈ cfg.databaseEntries) (h : Counted cfg row c)
    (hname : row.name ≠ []) : cfg.servedKey c.databaseName = row.poolKey := by
  have hkey : cfg.countKey (c.databaseName.getD []) = row.poolKey := h.2
  cases hdb : c.databaseName with
  | some name => rw [hdb] at hkey; exact hkey
  | none =>
    rw [hdb, Option.getD_none, Config.countKey] at hkey
    split at hkey
    · -- the row of the pool with the empty name has that name
      rcases mem_databaseEntries hrow with hdefault | ⟨hsame, -⟩
      · rw [hdefault] at hkey
        cases hkey
      · exact absurd (hsame.symm.trans hkey.symm) hname
    · exact hkey

theorem mem_paused_none (cfg : Config) (clients : LiveClients) (status : DatabaseConfig → PoolStatus)
    (p : DatabaseConfig) :
    p ∈ ((clients.handles cfg status).pause none).2 ↔ ∃ key, cfg.poolManagers.lookup key = some p := by
  show p ∈ cfg.poolManagers.entries.map Sigma.snd ↔ _
  simp only [List.mem_map, ← Option.mem_def, AList.mem_lookup_iff]
  constructor
  · rintro ⟨⟨key, q⟩, hmem, rfl⟩
    exact ⟨key, hmem⟩
  · rintro ⟨key, hmem⟩
    exact ⟨⟨key, p⟩, hmem, rfl⟩

theorem mem_paused_some (cfg : Config) (clients : LiveClients) (status : DatabaseConfig → PoolStatus)
    (t : Str) (p : DatabaseConfig) :
    p ∈ ((clients.handles cfg status).pause (some t)).2 ↔
      (clients.handles cfg status).resolvePoolManager t = some p := by
  simp only [AdminHandles.pause, AdminHandles.onPools]
  cases (clients.handles cfg status).resolvePoolManager t <;> simp [eq_comm]

/-- Without a name `PAUSE` gates one pool only if there is one only. -/
theorem paused_none_iff (hpools : cfg.connectionPooling ≠ .disabled) (clients : LiveClients)
    (status : DatabaseConfig → PoolStatus) {q : DatabaseConfig}
    (hq : cfg.poolManagers.lookup key = some q) :
    (∀ p, p ∈ ((clients.handles cfg status).pause none).2 ↔ cfg.poolManagers.lookup key = some p) ↔
      ∀ db ∈ cfg.databases, db.name = defaultName := by
  simp only [mem_paused_none]
  constructor
  · intro h
    -- every key is this one, and `*` is a key
    have hall : ∀ other, cfg.HasPool other → other = key := by
      intro other hother
      obtain ⟨p, hp⟩ := exists_pool hother
      have hkey := (h p).1 ⟨other, hp⟩
      exact (lookup_inj hkey).1 hp
    have hstar := hall defaultName ⟨hpools, .inl rfl⟩
    intro db hdb
    rw [hstar]
    exact hall db.name ⟨hpools, .inr ⟨db, hdb, rfl⟩⟩
  · intro h
    have hall : ∀ other, cfg.HasPool other → other = defaultName := by
      rintro other ⟨-, hother | ⟨db, hdb, rfl⟩⟩
      · exact hother
      · exact h db hdb
    intro p
    constructor
    · rintro ⟨other, hother⟩
      rw [hall key (hasPool_of_lookup hq), ← hall other (hasPool_of_lookup hother)]
      exact hother
    · intro hp
      exact ⟨key, hp⟩

/-- With a name it gates the pool that the name leads to. -/
theorem paused_some_iff (clients : LiveClients) (status : DatabaseConfig → PoolStatus) (t : Str)
    {q : DatabaseConfig} (hq : cfg.poolManagers.lookup key = some q) :
    (∀ p, p ∈ ((clients.handles cfg status).pause (some t)).2 ↔ cfg.poolManagers.lookup key = some p) ↔
      (cfg.HasPool t ∧ t = key) ∨
        (¬ cfg.HasPool t ∧ ∃ e, cfg.databaseEntries.find? (·.name.eqIgnoreAsciiCase t) = some e ∧
          e.poolKey = key) := by
  have hresolve : (∀ p, p ∈ ((clients.handles cfg status).pause (some t)).2 ↔
      cfg.poolManagers.lookup key = some p) ↔
      (clients.handles cfg status).resolvePoolManager t = some q := by
    simp only [mem_paused_some, hq]
    constructor
    · intro h
      exact (h q).2 rfl
    · intro h p
      rw [h]
  rw [hresolve, AdminHandles.resolvePoolManager]
  by_cases ht : cfg.HasPool t
  · obtain ⟨p, hp⟩ := exists_pool ht
    have hfirst : (clients.handles cfg status).config.poolManagers.lookup t = some p := hp
    simp only [hfirst, ht, true_and, not_true_eq_false, false_and, or_false]
    rw [← hp]
    exact lookup_inj hq
  · have hfirst : (clients.handles cfg status).config.poolManagers.lookup t = none :=
      AList.lookup_eq_none.2 (mt (mem_poolManagers cfg t).1 ht)
    simp only [hfirst, ht, false_and, not_false_eq_true, true_and, false_or]
    rw [Option.bind_eq_some_iff]
    exact exists_congr fun e => and_congr_right fun _ => lookup_inj hq

/-- `PAUSE` with the row's name gates exactly the pool of a client of the row. -/
theorem pauses_exactly_iff (hpools : cfg.connectionPooling ≠ .disabled) (clients : LiveClients)
    (status : DatabaseConfig → PoolStatus) (hrow : row ∈ cfg.databaseEntries)
    (hc : Counted cfg row c) :
    (∀ p, p ∈ ((clients.handles cfg status).pause (typedName row.name)).2 ↔
      handleClientConnection cfg c.startupData = .pool p) ↔ cfg.Gates row.name row.poolKey := by
  simp only [destination_of_counted hc]
  cases htyped : typedName row.name with
  | none =>
    obtain ⟨q, hq⟩ := exists_pool (hasPool_servedKey hpools c.databaseName)
    rw [paused_none_iff hpools clients status hq]
    simp [Config.Gates, htyped]
  | some t =>
    -- a row whose name is typed as a word has a name
    have hname : row.name ≠ [] := by
      intro hnil
      rw [hnil] at htyped
      cases htyped
    rw [servedKey_of_counted hrow hc hname]
    obtain ⟨q, hq⟩ := exists_pool (hasPool_of_mem hpools hrow)
    rw [paused_some_iff clients status t hq]
    simp [Config.Gates, htyped]

theorem paused_disabled (hpools : cfg.connectionPooling = .disabled) (clients : LiveClients)
    (status : DatabaseConfig → PoolStatus) (database : Option Str) :
    ((clients.handles cfg status).pause database).2 = [] := by
  have hempty : (clients.handles cfg status).config.poolManagers = ∅ := by
    show cfg.poolManagers = ∅
    rw [Config.poolManagers, if_pos hpools]
  cases database <;>
    simp [AdminHandles.pause, AdminHandles.onPools, AdminHandles.resolvePoolManager, hempty]

/-! ## The three commands together -/

/-- `KILL` with the row's name disconnects exactly the clients that the row counts, and `PAUSE` with
    it gates exactly the pool that they are served from. -/
def RowMeansSame (cfg : Config) (clients : LiveClients) (status : DatabaseConfig → PoolStatus)
    (report : AdminCommand → AdminResponse) (row : DatabaseEntry) : Prop :=
  (∀ c ∈ clients.all, (⟨c.connId⟩ : AbortHandle) ∈
      (clients.handles cfg status).abortedBy report ("KILL".toList ++ ' ' :: row.name) ↔
    Counted cfg row c) ∧
  ∀ c ∈ clients.all, Counted cfg row c → ∀ p, p ∈
      (clients.handles cfg status).pausedBy report ("PAUSE".toList ++ ' ' :: row.name) ↔
    handleClientConnection cfg c.startupData = .pool p

/-- A client with that startup database gets a session from the pool with that key; without pools
    all sessions are the default's. -/
def Config.Serves (cfg : Config) (key database : Str) : Prop :=
  database.eqIgnoreAsciiCase adminDatabase = false ∧
    ((cfg.HasPool database ∧ database = key) ∨ (¬ cfg.HasPool database ∧ defaultName = key))

theorem counted_iff (cfg : Config) (row : DatabaseEntry) (c : LiveClient) :
    Counted cfg row c ↔ cfg.Serves row.poolKey c.entry.database := by
  unfold Counted Config.Serves
  refine and_congr ?_ ?_
  · cases hname : c.entry.database.eqIgnoreAsciiCase adminDatabase <;> simp [ClientEntry.state, hname]
  · rw [Config.countKey]
    by_cases hpool : cfg.HasPool c.entry.database
    · simp [(mem_poolManagers cfg _).2 hpool, hpool]
    · simp [mt (mem_poolManagers cfg _).1 hpool, hpool]

/-- The row's name stands for the clients of the row's pool, as far as there are such clients. -/
structure RowStandsForPool (cfg : Config) (clients : LiveClients) (row : DatabaseEntry) : Prop where
  named : ∀ c ∈ clients.all,
    cfg.Names row.name c.entry.database ↔ cfg.Serves row.poolKey c.entry.database
  gated : (∃ c ∈ clients.all, cfg.Serves row.poolKey c.entry.database) →
    cfg.connectionPooling = .disabled ∨ cfg.Gates row.name row.poolKey

/-- For each row of `SHOW POOLS`: `cl_active` is the number of the clients it counts, and the
    commands mean the same clients exactly if the row's name stands for them. -/
theorem row_means_same_iff (cfg : Config) (clients : LiveClients)
    (status : DatabaseConfig → PoolStatus) (report : AdminCommand → AdminResponse)
    {row : DatabaseEntry} (hrow : row ∈ cfg.databaseEntries) :
    ((clients.handles cfg status).poolsRow row)[2]? =
        some (Nat.toDigits 10 (clients.all.countP fun c => Counted cfg row c)) ∧
      (RowMeansSame cfg clients status report row ↔ RowStandsForPool cfg clients row) := by
  refine ⟨?_, ?_⟩
  · rw [← clActive_eq cfg clients status row]
    rfl
  · have hkill : (∀ c ∈ clients.all, (⟨c.connId⟩ : AbortHandle) ∈
        (clients.handles cfg status).abortedBy report ("KILL".toList ++ ' ' :: row.name) ↔
          Counted cfg row c) ↔
        ∀ c ∈ clients.all, cfg.Names row.name c.entry.database ↔
          cfg.Serves row.poolKey c.entry.database :=
      forall₂_congr fun c hc => by rw [aborted_iff cfg status report row.name hc, counted_iff]
    have hpause : (∀ c ∈ clients.all, Counted cfg row c → ∀ p, p ∈
        (clients.handles cfg status).pausedBy report ("PAUSE".toList ++ ' ' :: row.name) ↔
          handleClientConnection cfg c.startupData = .pool p) ↔
        ((∃ c ∈ clients.all, cfg.Serves row.poolKey c.entry.database) →
          cfg.connectionPooling = .disabled ∨ cfg.Gates row.name row.poolKey) := by
      simp only [pausedBy_pause, ← counted_iff]
      by_cases hpools : cfg.connectionPooling = .disabled
      · -- there is no pool to gate, and none that serves a client
        refine iff_of_true (fun c hc hcounted p => ?_) fun _ => .inl hpools
        rw [paused_disabled hpools, destination_of_counted hcounted, Config.poolManagers, if_pos hpools]
        simp
      · simp only [hpools, false_or]
        constructor
        · rintro h ⟨c, hc, hcounted⟩
          exact (pauses_exactly_iff hpools clients status hrow hcounted).1 (h c hc hcounted)
        · intro h c hc hcounted
          exact (pauses_exactly_iff hpools clients status hrow hcounted).2 (h ⟨c, hc, hcounted⟩)
    constructor
    · intro h
      exact ⟨hkill.1 h.1, hpause.1 h.2⟩
    · intro h
      exact ⟨hkill.2 h.named, hpause.2 h.gated⟩

/-- One client of the entry `app`. -/
def appClients : LiveClients := ⟨[⟨1, appMessage⟩], by decide⟩

/-- Next to a default backend with another name, the row of `app` means its client in all three
    commands. -/
theorem app_row_means_same :
    ⟨"app".toList, "app".toList, "app".toList⟩ ∈ (twoBackends .transaction).databaseEntries ∧
      RowMeansSame (twoBackends .transaction) appClients (fun _ => ⟨1, 0, 0⟩) (fun _ => .error [])
        ⟨"app".toList, "app".toList, "app".toList⟩ := by
  have hrow : ⟨"app".toList, "app".toList, "app".toList⟩ ∈
      (twoBackends .transaction).databaseEntries := by decide
  have hpool : (twoBackends .transaction).HasPool "app".toList :=
    ⟨by decide, .inr ⟨_, List.mem_cons_self, rfl⟩⟩
  have htyped : typedName "app".toList = some "app".toList := by decide +kernel
  have hdatabase : ∀ c ∈ appClients.all, c.entry.database = "app".toList := by decide +kernel
  refine ⟨hrow, (row_means_same_iff _ _ _ _ hrow).2.2 ⟨fun c hc => ?_, fun _ => ?_⟩⟩
  · rw [hdatabase c hc]
    exact iff_of_true ⟨_, htyped, by decide, _, hrow, .inl (by decide)⟩ ⟨by decide, .inl ⟨hpool, rfl⟩⟩
  · exact .inr (.inr ⟨_, htyped, .inl ⟨hpool, rfl⟩⟩)

/-- Two entries whose names differ in case only, next to a default backend. -/
def caseTwins : Config where
  backend :=
    { host := "db0".toList, port := 5432, database := "main".toList, user := "postgres".toList,
      password := [] }
  databases :=
    [{ name := "App".toList, host := "db1".toList, port := 5432, database := "one".toList,
       user := "u".toList, password := [], poolSize := none },
      { name := "app".toList, host := "db2".toList, port := 5432, database := "two".toList,
        user := "u".toList, password := [], poolSize := none }]
  connectionPooling := .transaction
  poolSize := 10
  authType := .trust

/-- A client of each. -/
def twinClients : LiveClients :=
  ⟨[⟨1, StartupMessage.build "alice".toList "App".toList []⟩,
    ⟨2, StartupMessage.build "bob".toList "app".toList []⟩], by decide⟩

/-- The row `App` counts one client, but `KILL App` disconnects both, and `PAUSE App` gates the pool
    of `app` instead. -/
theorem case_twins_confused :
    ⟨"App".toList, "u".toList, "App".toList⟩ ∈ caseTwins.databaseEntries ∧
      ((twinClients.handles caseTwins fun _ => ⟨1, 0, 0⟩).abortedBy (fun _ => .error [])
        "KILL App".toList = [⟨1⟩, ⟨2⟩]) ∧
      ((twinClients.handles caseTwins fun _ => ⟨1, 0, 0⟩).pausedBy (fun _ => .error [])
        "PAUSE App".toList).map DatabaseConfig.name = ["app".toList] ∧
      ¬ RowMeansSame caseTwins twinClients (fun _ => ⟨1, 0, 0⟩) (fun _ => .error [])
        ⟨"App".toList, "u".toList, "App".toList⟩ := by
  refine ⟨by decide, by decide +kernel, by decide +kernel, fun h => ?_⟩
  have hbob := h.1 ⟨2, StartupMessage.build "bob".toList "app".toList []⟩ (by decide)
  exact absurd hbob (by decide +kernel)

end ScryProxy
