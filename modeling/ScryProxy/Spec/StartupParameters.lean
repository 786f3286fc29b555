import ScryProxy.Native.Routing

/-!
# The startup message for a backend

The message that `build_backend_startup` makes is read back as the client's parameters with the
configured user and database, in whatever order the client's hash map is walked
(`backendStartup_keeps_parameters`).  The length of a startup message is a signed 32-bit number,
so this holds for messages that are no longer than it can tell.
-/

namespace ScryProxy

open Str (NulFree)

namespace StartupMessage

/-- A parameter that can be told from the end of the list and from the next one. -/
def Sendable (p : Str × Str) : Prop := p.1 ≠ [] ∧ NulFree p.1 ∧ NulFree p.2

/-- The parameters of a message. -/
def parameterBytes (params : List (Str × Str)) : List UInt8 :=
  params.flatMap (fun (key, value) => cstring key ++ cstring value) ++ [0]

theorem takeWhile_cstring {s : Str} (h : NulFree s) (rest : List UInt8) :
    (cstring s ++ rest).takeWhile (· != 0) = Utf8.encode s := by
  rw [cstring, List.append_assoc]
  exact Cstring.takeWhile_append (Utf8.zero_notMem_encode h) rest

/-- One round of the loop takes one parameter. -/
theorem parseParameters_cons {p : Str × Str} (hp : Sendable p) (fuel : Nat) (rest : List UInt8)
    (parameters : AList fun _ : Str => Str) :
    parseParameters (fuel + 1) (cstring p.1 ++ (cstring p.2 ++ rest)) parameters =
      parseParameters fuel rest (parameters.insert p.1 p.2) := by
  obtain ⟨hne, hkey, hvalue⟩ := hp
  have hdrop : (cstring p.1 ++ (cstring p.2 ++ rest)).drop (Utf8.encode p.1).length =
      0 :: (cstring p.2 ++ rest) := by
    rw [cstring, List.append_assoc, List.drop_left]
    rfl
  have hrest : (cstring p.2 ++ rest).drop ((Utf8.encode p.2).length + 1) = rest := by
    rw [cstring, List.append_assoc]
    exact Cstring.drop_append _ _
  rw [parseParameters]
  simp only [takeWhile_cstring hkey, takeWhile_cstring hvalue, hdrop, hrest, Utf8.decodeLossy_encode]
  rw [if_neg (by simpa using hne)]

theorem parseParameters_params {params : List (Str × Str)} (h : ∀ p ∈ params, Sendable p) {fuel : Nat}
    (hfuel : params.length < fuel) (parameters : AList fun _ : Str => Str) :
    parseParameters fuel (parameterBytes params) parameters =
      params.foldl (fun m p => m.insert p.1 p.2) parameters := by
  induction params generalizing fuel parameters with
  | nil =>
    obtain ⟨fuel, rfl⟩ := Nat.exists_eq_succ_of_ne_zero (Nat.ne_of_gt hfuel)
    rfl
  | cons p params ih =>
    obtain ⟨fuel, rfl⟩ := Nat.exists_eq_succ_of_ne_zero (Nat.ne_of_gt (Nat.zero_lt_of_lt hfuel))
    obtain ⟨hp, hrest⟩ := List.forall_mem_cons.1 h
    have hbytes : parameterBytes (p :: params) = cstring p.1 ++ (cstring p.2 ++ parameterBytes params) := by
      simp [parameterBytes]
    rw [hbytes, parseParameters_cons hp, ih hrest (Nat.lt_of_succ_lt_succ hfuel)]
    rfl

theorem length_lt_parameterBytes (params : List (Str × Str)) :
    params.length < (parameterBytes params).length := by
  induction params with
  | nil => exact Nat.zero_lt_one
  | cons p params ih =>
    simp only [parameterBytes, cstring, List.flatMap_cons, List.length_append, List.length_cons,
      List.length_nil] at ih ⊢
    omega

/-- All parameters of a message that `build` makes, in their order. -/
def allParams (user database : Str) (extraParams : List (Str × Str)) : List (Str × Str) :=
  ("user".toList, user) :: ("database".toList, database) :: extraParams

theorem build_eq (user database : Str) (extraParams : List (Str × Str)) :
    build user database extraParams =
      BigEndian.bytes32 (4 + 4 + (parameterBytes (allParams user database extraParams)).length) ++
        (BigEndian.bytes32 protocolVersion3 ++
          parameterBytes (allParams user database extraParams)) := by
  have hparams : cstring "user".toList ++ cstring user ++ cstring "database".toList ++
      cstring database ++ extraParams.flatMap (fun (key, value) => cstring key ++ cstring value) ++
      [0] = parameterBytes (allParams user database extraParams) := by
    simp [parameterBytes, allParams]
  unfold build
  rw [hparams, List.append_assoc]

/-- A message whose length says where it ends. -/
theorem parse_version3 {body : List UInt8} (hsize : 4 + 4 + body.length < 2 ^ 31) :
    parse (BigEndian.bytes32 (4 + 4 + body.length) ++ (BigEndian.bytes32 protocolVersion3 ++ body)) =
      some ⟨protocolVersion3, parseParameters body.length body ∅⟩ := by
  have hversion : BigEndian.i32 0 3 0 0 = protocolVersion3 := by decide
  have hbytes : BigEndian.bytes32 protocolVersion3 = [0, 3, 0, 0] := by decide
  have hlen : Rust.asUsize ((4 + 4 + body.length : Nat) : Int) = 4 + 4 + body.length := by
    rw [Rust.asUsize, if_pos (Int.natCast_nonneg _), Int.toNat_natCast]
  rw [hbytes, BigEndian.bytes32]
  simp only [List.cons_append, List.nil_append, parse, BigEndian.i32_bytes32 hsize, hlen, hversion]
  rw [if_neg, if_neg (by decide), List.take_of_length_le]
  · rfl
  · simp only [List.length_cons]
    omega
  · simp only [List.length_cons]
    omega

/-- A message that is not too long for its length is read as its parameters. -/
theorem parse_build {user database : Str} {extraParams : List (Str × Str)}
    (h : ∀ p ∈ allParams user database extraParams, Sendable p)
    (hsize : (build user database extraParams).length < 2 ^ 31) :
    parse (build user database extraParams) = some ⟨protocolVersion3,
      (allParams user database extraParams).foldl (fun m p => m.insert p.1 p.2) ∅⟩ := by
  rw [build_eq] at hsize ⊢
  have hshort : 4 + 4 + (parameterBytes (allParams user database extraParams)).length < 2 ^ 31 := by
    simp only [BigEndian.bytes32, List.length_append, List.length_cons, List.length_nil] at hsize
    omega
  rw [parse_version3 hshort, parseParameters_params h (length_lt_parameterBytes _)]

end StartupMessage

/-! ## The parameters of the client -/

open StartupMessage (Sendable allParams)

theorem mem_extraParams {cfg : Config} {client : StartupMessage} {p : Str × Str} :
    p ∈ (buildBackendStartup cfg client).extraParams ↔
      client.parameters.lookup p.1 = some p.2 ∧ p.1 ≠ "user".toList ∧ p.1 ≠ "database".toList := by
  simp only [buildBackendStartup, List.mem_filter, List.mem_map, decide_eq_true_eq]
  refine and_congr_left fun _ => ?_
  constructor
  · rintro ⟨e, he, rfl⟩
    exact AList.mem_lookup_iff.2 he
  · intro h
    exact ⟨⟨p.1, p.2⟩, AList.mem_lookup_iff.1 h, rfl⟩

theorem nodup_extraParams (cfg : Config) (client : StartupMessage) :
    ((buildBackendStartup cfg client).extraParams.map Prod.fst).Nodup := by
  have hkeys : ((client.parameters.entries.map fun e => (e.1, e.2)).map Prod.fst).Nodup := by
    rw [List.map_map]
    exact client.parameters.nodupKeys
  exact hkeys.sublist ((List.filter_sublist).map _)

theorem nodup_allParams (cfg : Config) (client : StartupMessage) :
    ((allParams cfg.backend.user cfg.backend.database
      (buildBackendStartup cfg client).extraParams).map Prod.fst).Nodup := by
  have hextra : ∀ key, (key = "user".toList ∨ key = "database".toList) →
      key ∉ (buildBackendStartup cfg client).extraParams.map Prod.fst := by
    intro key hkey hmem
    obtain ⟨p, hp, rfl⟩ := List.mem_map.1 hmem
    obtain ⟨-, huser, hdatabase⟩ := mem_extraParams.1 hp
    exact hkey.elim huser hdatabase
  rw [allParams, List.map_cons, List.map_cons, List.nodup_cons, List.nodup_cons, List.mem_cons, not_or]
  exact ⟨⟨(by decide : "user".toList ≠ "database".toList), hextra _ (.inl rfl)⟩,
    hextra _ (.inr rfl), nodup_extraParams cfg client⟩

theorem sendable_allParams {cfg : Config} {client : StartupMessage}
    (hparams : ∀ e ∈ client.parameters.entries, e.1 ≠ [] ∧ NulFree e.1 ∧ NulFree e.2)
    (huser : NulFree cfg.backend.user) (hdatabase : NulFree cfg.backend.database) :
    ∀ p ∈ allParams cfg.backend.user cfg.backend.database
      (buildBackendStartup cfg client).extraParams, Sendable p := by
  intro p hp
  rcases List.mem_cons.1 hp with rfl | hp
  · exact ⟨(by decide : "user".toList ≠ []), (by decide : '\x00' ∉ "user".toList), huser⟩
  rcases List.mem_cons.1 hp with rfl | hp
  · exact ⟨(by decide : "database".toList ≠ []), (by decide : '\x00' ∉ "database".toList), hdatabase⟩
  · exact hparams ⟨p.1, p.2⟩ (AList.mem_lookup_iff.1 (mem_extraParams.1 hp).1)

/-- The message for a backend is read as the parameters of the client, with the configured user and
    database.  `walked` has the parameters in the order in which the hash map gives them. -/
theorem backendStartup_keeps_parameters (cfg : Config) (client walked : StartupMessage)
    (hwalk : walked.parameters.entries.Perm client.parameters.entries)
    (hparams : ∀ e ∈ client.parameters.entries, e.1 ≠ [] ∧ NulFree e.1 ∧ NulFree e.2)
    (huser : NulFree cfg.backend.user) (hdatabase : NulFree cfg.backend.database)
    (hsize : (buildBackendStartup cfg walked).bytes.length < 2 ^ 31) :
    ∃ backend, StartupMessage.parse (buildBackendStartup cfg walked).bytes = some backend ∧
      backend.protocolVersion = 196608 ∧
      ∀ key, backend.parameters.lookup key =
        if key = "user".toList then some cfg.backend.user
        else if key = "database".toList then some cfg.backend.database
        else client.parameters.lookup key := by
  have hlookup : ∀ key, walked.parameters.lookup key = client.parameters.lookup key :=
    fun key => AList.perm_lookup hwalk
  have hsendable := sendable_allParams (fun e he => hparams e (hwalk.mem_iff.1 he)) huser hdatabase
  have hnodup := nodup_allParams cfg walked
  refine ⟨_, StartupMessage.parse_build hsendable hsize, rfl, fun key => ?_⟩
  dsimp only
  -- by the parameter of that key
  by_cases hkey : key = "user".toList
  · rw [if_pos hkey, hkey]
    exact Maps.lookup_foldl_insert_of_mem hnodup List.mem_cons_self
  by_cases hkey' : key = "database".toList
  · rw [if_neg hkey, if_pos hkey', hkey']
    exact Maps.lookup_foldl_insert_of_mem hnodup (List.mem_cons_of_mem _ List.mem_cons_self)
  rw [if_neg hkey, if_neg hkey', ← hlookup]
  cases hclient : walked.parameters.lookup key with
  | some value =>
    have hmem : (key, value) ∈ (buildBackendStartup cfg walked).extraParams :=
      mem_extraParams.2 ⟨hclient, hkey, hkey'⟩
    exact Maps.lookup_foldl_insert_of_mem hnodup
      (List.mem_cons_of_mem _ (List.mem_cons_of_mem _ hmem))
  | none =>
    rw [Maps.lookup_foldl_insert_of_ne]
    · rfl
    · intro p hp
      rcases List.mem_cons.1 hp with rfl | hp
      · exact Ne.symm hkey
      rcases List.mem_cons.1 hp with rfl | hp
      · exact Ne.symm hkey'
      · rintro rfl
        rw [(mem_extraParams.1 hp).1] at hclient
        cases hclient

/-- Backend settings with the given user. -/
def backendOf (user : Str) : Config where
  backend := ⟨"localhost".toList, 5432, "d".toList, user, "secret".toList⟩
  databases := []
  connectionPooling := .disabled
  poolSize := 10
  authType := .trust

/-- A client that gives its name and an option. -/
def psqlStartup : StartupMessage where
  protocolVersion := 196608
  parameters := (AList.singleton "options".toList []).insert "user".toList "alice".toList

theorem backendStartup_keeps_options :
    ∃ backend, StartupMessage.parse (buildBackendStartup (backendOf "app".toList) psqlStartup).bytes =
        some backend ∧ backend.protocolVersion = 196608 ∧
      ∀ key, backend.parameters.lookup key =
        if key = "user".toList then some "app".toList
        else if key = "database".toList then some "d".toList
        else psqlStartup.parameters.lookup key :=
  backendStartup_keeps_parameters (backendOf "app".toList) psqlStartup psqlStartup (List.Perm.refl _)
    (by decide) (by decide) (by decide) (by decide)

/-- For a user name of 2^32 characters the length of the message is written as 26, which leaves 13
    of them. -/
theorem parse_long_user {n : Nat} (hn : n = 2 ^ 32) :
    (StartupMessage.parse (buildBackendStartup (backendOf (List.replicate n 'a')) ⟨196608, ∅⟩).bytes).map
      (·.user) = some (some (List.replicate 13 'a')) := by
  have hencode : Utf8.encode (List.replicate n 'a') = List.replicate n 97 := by
    clear hn
    induction n with
    | zero => rfl
    | succ n ih => exact congrArg (97 :: ·) ih
  obtain ⟨tail, htail, hlen⟩ : ∃ tail : List UInt8, StartupMessage.parameterBytes
      (allParams (List.replicate n 'a') "d".toList []) =
        [117, 115, 101, 114, 0] ++ (List.replicate n 97 ++ tail) ∧ tail.length = 13 := by
    refine ⟨[0] ++ StartupMessage.cstring "database".toList ++ StartupMessage.cstring "d".toList ++ [0],
      ?_, by decide⟩
    have huser : Utf8.encode "user".toList = [117, 115, 101, 114] := by decide
    simp only [StartupMessage.parameterBytes, allParams, StartupMessage.cstring, huser, hencode,
      List.flatMap_cons, List.flatMap_nil, List.append_nil, List.append_assoc, List.cons_append,
      List.nil_append]
  have hsize : BigEndian.bytes32 (4 + 4 + (n + 18)) = [0, 0, 0, 26] := by
    rw [hn]
    decide
  have hbytes : (buildBackendStartup (backendOf (List.replicate n 'a')) ⟨196608, ∅⟩).bytes =
      [0, 0, 0, 26, 0, 3, 0, 0, 117, 115, 101, 114, 0] ++ (List.replicate n 97 ++ tail) := by
    have hcount : ([117, 115, 101, 114, 0] ++ (List.replicate n 97 ++ tail)).length = n + 18 := by
      simp only [List.length_append, List.length_cons, List.length_nil, List.length_replicate, hlen]
      omega
    show StartupMessage.build (List.replicate n 'a') "d".toList [] = _
    rw [StartupMessage.build_eq, htail, hcount, hsize]
    rfl
  have htake : ([0, 0, 0, 26, 0, 3, 0, 0, 117, 115, 101, 114, 0] ++ (List.replicate n 97 ++ tail)).take 26 =
      [0, 0, 0, 26, 0, 3, 0, 0, 117, 115, 101, 114, 0] ++ List.replicate 13 97 := by
    rw [List.take_append, List.take_append_of_le_length (by simp; omega), List.take_replicate,
      Nat.min_eq_left (by simp; omega)]
    rfl
  have hlong : ¬ ([0, 0, 0, 26, 0, 3, 0, 0, 117, 115, 101, 114, 0] ++
      (List.replicate n 97 ++ tail)).length < 26 := by
    simp only [List.length_append, List.length_cons, List.length_nil, List.length_replicate]
    omega
  have hlength : Rust.asUsize (BigEndian.i32 0 0 0 26) = 26 := by decide
  have hversion : BigEndian.i32 0 3 0 0 = 196608 := by decide
  rw [hbytes]
  simp only [List.cons_append, List.nil_append] at htake hlong ⊢
  simp only [StartupMessage.parse, hlength, hlong, hversion, htake, if_false]
  decide

theorem long_user_cut :
    NulFree (List.replicate (2 ^ 32) 'a') ∧
    ¬ ∃ backend, StartupMessage.parse (buildBackendStartup (backendOf (List.replicate (2 ^ 32) 'a'))
      ⟨196608, ∅⟩).bytes = some backend ∧ backend.user = some (List.replicate (2 ^ 32) 'a') := by
  obtain ⟨n, hn⟩ : ∃ n : Nat, n = 2 ^ 32 := ⟨_, rfl⟩
  rw [← hn]
  constructor
  · exact fun h => absurd (List.eq_of_mem_replicate h) (by decide)
  · rintro ⟨backend, hbackend, huser⟩
    have hread := parse_long_user hn
    rw [hbackend, Option.map_some, huser] at hread
    have hlen := congrArg List.length (Option.some.inj (Option.some.inj hread))
    simp only [List.length_replicate] at hlen
    omega

end ScryProxy
