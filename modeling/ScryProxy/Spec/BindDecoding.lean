import ScryProxy.Native.DirectRelay
import ScryProxy.Spec.ParamPanics

/-!
# Bind messages that the relays get through

Both relays decode the parameters of a Bind while they look at the read it is in, and the
decoder can panic.  Whether it does depends on the statements cached at that moment, so the
condition on the messages of a read goes through them with the cache (`Decodes`).  Answers
of the backend in between change only what is pending, and that plays no part
(`decodes_withPending`).
-/

namespace ScryProxy

namespace PreparedStatementCache

/-- No parameter of the message slips, given the types of the cached statement that it binds. -/
def Bindable (cache : PreparedStatementCache) : Message → Prop
  | .bind _ statement formatCodes paramsRaw =>
    ∀ stmt, cache.statements.lookup statement = some stmt →
      ∀ i data, paramsRaw[i]? = some (some data) →
        ¬ ParamSlips data ((stmt.paramOids[i]?).getD 0) (getFormatCode formatCodes i)
  | _ => True

/-- Each message is bindable when it comes. -/
def Decodes : PreparedStatementCache → List Message → Prop
  | _, [] => True
  | cache, msg :: msgs =>
    cache.Bindable msg ∧ ∀ cache', cache.observe msg = .ok cache' → cache'.Decodes msgs

variable {cache cache' : PreparedStatementCache} {msg : Message} {msgs : List Message}

section

variable {statement : Str} {stmt : PreparedStatement} (portal : Str) (formatCodes : List Int)
  (paramsRaw : List (Option (List UInt8)))

theorem bindPortal_some (h : cache.statements.lookup statement = some stmt) :
    cache.bindPortal portal statement formatCodes paramsRaw =
      (decodeParams (fun _ => none) (fun _ => none) paramsRaw formatCodes stmt.paramOids).map
        fun _ => (cache.getStatement statement).2.setPending portal
          ⟨stmt.query, .typed paramsRaw formatCodes stmt.paramOids, false⟩ := by
  simp only [bindPortal, getStatement, h]
  cases decodeParams (fun _ => none) (fun _ => none) paramsRaw formatCodes stmt.paramOids <;> rfl

theorem bindPortal_none (h : cache.statements.lookup statement = none) :
    cache.bindPortal portal statement formatCodes paramsRaw = .ok (cache.setPending portal
      ⟨"[unknown: ".toList ++ statement ++ [']'], .untyped paramsRaw, true⟩) := by
  simp only [bindPortal, getStatement, h]

end

/-- A Bind that returns has left an execution on its portal. -/
theorem exists_of_bindPortal {portal statement : Str} {formatCodes : List Int}
    {paramsRaw : List (Option (List UInt8))}
    (h : cache.bindPortal portal statement formatCodes paramsRaw = .ok cache') :
    ∃ p, cache' = (cache.getStatement statement).2.setPending portal p := by
  cases hfound : cache.statements.lookup statement with
  | none =>
    rw [bindPortal_none _ _ _ hfound] at h
    cases h
    exact ⟨_, by rw [getStatement, hfound]⟩
  | some stmt =>
    rw [bindPortal_some _ _ _ hfound] at h
    obtain ⟨values, -, rfl⟩ := Rust.map_returns.1 h
    exact ⟨_, rfl⟩

theorem bindPortal_returns_iff {portal statement : Str} {formatCodes : List Int}
    {paramsRaw : List (Option (List UInt8))} :
    (∃ cache', cache.bindPortal portal statement formatCodes paramsRaw = .ok cache') ↔
      cache.Bindable (.bind portal statement formatCodes paramsRaw) := by
  cases hfound : cache.statements.lookup statement with
  | none =>
    rw [bindPortal_none _ _ _ hfound]
    refine iff_of_true ⟨_, rfl⟩ fun stmt hstmt => ?_
    cases hfound.symm.trans hstmt
  | some stmt =>
    rw [bindPortal_some _ _ _ hfound, Rust.map_returns_iff, decodeParams_isOk_iff]
    constructor
    · intro hslips stmt' hstmt
      cases hfound.symm.trans hstmt
      exact hslips
    · intro hbindable
      exact hbindable stmt hfound

theorem observe_returns_iff : (∃ cache', cache.observe msg = .ok cache') ↔ cache.Bindable msg := by
  cases msg with
  | bind portal statement formatCodes paramsRaw => exact bindPortal_returns_iff
  | close kind name =>
    refine iff_of_true ?_ trivial
    exact Rust.ite_returns ⟨_, rfl⟩ (Rust.ite_returns ⟨_, rfl⟩ ⟨_, rfl⟩)
  | parse | query | execute | sync | terminate => exact iff_of_true ⟨_, rfl⟩ trivial

/-- The messages are observed one after the other exactly if they decode. -/
theorem decodes_iff : cache.Decodes msgs ↔ ∃ cache', msgs.foldlM observe cache = .ok cache' := by
  induction msgs generalizing cache with
  | nil => exact iff_of_true trivial ⟨cache, rfl⟩
  | cons msg msgs ih =>
    simp only [Decodes, List.foldlM_cons, Rust.bind_returns_iff, ← observe_returns_iff, ih]
    constructor
    · rintro ⟨⟨cache₁, hmsg⟩, hrest⟩
      exact ⟨cache₁, hmsg, hrest cache₁ hmsg⟩
    · rintro ⟨cache₁, hmsg, hrest⟩
      refine ⟨⟨cache₁, hmsg⟩, fun cache₂ hmsg₂ => ?_⟩
      cases hmsg.symm.trans hmsg₂
      exact hrest

theorem decodes_of_no_bind
    (h : ∀ msg ∈ msgs, ∀ portal statement codes raw, msg ≠ .bind portal statement codes raw) :
    cache.Decodes msgs := by
  induction msgs generalizing cache with
  | nil => trivial
  | cons msg msgs ih =>
    refine ⟨?_, fun _ _ => ih fun m hm => h m (List.mem_cons_of_mem msg hm)⟩
    cases msg with
    | bind portal statement codes raw => exact absurd rfl (h _ List.mem_cons_self _ _ _ _)
    | parse | close | query | execute | sync | terminate => trivial

/-! ## What is pending plays no part -/

/-- The same statements, with other executions pending. -/
def withPending (cache : PreparedStatementCache) (pending : AList fun _ : Str => PendingExecution) :
    PreparedStatementCache :=
  { cache with pending }

theorem observe_withPending (cache : PreparedStatementCache)
    (pending : AList fun _ : Str => PendingExecution) (msg : Message) :
    ∃ pending', (cache.withPending pending).observe msg =
      (cache.observe msg).map (·.withPending pending') := by
  cases msg with
  | bind portal statement formatCodes paramsRaw =>
    simp only [observe]
    cases hfound : cache.statements.lookup statement with
    | none =>
      have hfound' : (cache.withPending pending).statements.lookup statement = none := hfound
      rw [bindPortal_none _ _ _ hfound, bindPortal_none _ _ _ hfound']
      exact ⟨_, rfl⟩
    | some stmt =>
      have hfound' : (cache.withPending pending).statements.lookup statement = some stmt := hfound
      rw [bindPortal_some _ _ _ hfound, bindPortal_some _ _ _ hfound']
      simp only [getStatement, hfound, show (cache.withPending pending).statements =
        cache.statements from rfl]
      cases decodeParams (fun _ => none) (fun _ => none) paramsRaw formatCodes stmt.paramOids with
      | error e => exact ⟨pending, rfl⟩
      | ok values => exact ⟨_, rfl⟩
  | close kind name =>
    simp only [observe]
    split
    · exact ⟨pending, rfl⟩
    · split
      · exact ⟨_, rfl⟩
      · exact ⟨pending, rfl⟩
  | parse | query => exact ⟨_, rfl⟩
  | execute | sync | terminate => exact ⟨pending, rfl⟩

theorem foldlM_observe_withPending (cache : PreparedStatementCache)
    (pending : AList fun _ : Str => PendingExecution) (msgs : List Message) :
    ∃ pending', msgs.foldlM observe (cache.withPending pending) =
      (msgs.foldlM observe cache).map (·.withPending pending') := by
  induction msgs generalizing cache pending with
  | nil => exact ⟨pending, rfl⟩
  | cons msg msgs ih =>
    obtain ⟨pending₁, hmsg⟩ := observe_withPending cache pending msg
    rw [List.foldlM_cons, List.foldlM_cons, hmsg]
    cases cache.observe msg with
    | error e => exact ⟨pending, rfl⟩
    | ok cache₁ => exact ih cache₁ pending₁

theorem decodes_withPending (pending : AList fun _ : Str => PendingExecution) :
    (cache.withPending pending).Decodes msgs ↔ cache.Decodes msgs := by
  obtain ⟨pending', hobserved⟩ := foldlM_observe_withPending cache pending msgs
  rw [decodes_iff, decodes_iff, hobserved, Rust.map_returns_iff]

end PreparedStatementCache

end ScryProxy
