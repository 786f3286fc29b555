import ScryProxy.Spec.FrontendStream
import ScryProxy.Spec.RelaySteps

/-!
# Frames the tracker must not miss

A read is forwarded as it is; what the tracker learns of it goes through
`extract_messages`.  When every frame of the client's stream has an accepted length and
every Query and Parse has a payload that parses, each of them that a forwarded read
completes is passed to `apply_query` (`failsClosed_of_readable`), however the stream is
cut into reads.  A Query whose text is not UTF-8 goes to the backend unseen and unpinned
(`undecodable_query_unseen`).
-/

namespace ScryProxy

open Frame (encodeAll)

/-- The bytes the client sent, in order. -/
def clientBytes (inputs : List Input) : List UInt8 :=
  inputs.flatMap fun
    | .clientRead data _ _ => data
    | _ => []

/-- The SQL text of a message that carries one. -/
def Message.sql? : Message → Option Str
  | .query sql => some sql
  | .parse _ sql _ => some sql
  | _ => none

/-- A Query or Parse frame. -/
def carriesSql (f : Frame) : Prop := f.tag = msgQuery ∨ f.tag = msgParse

/-- The read of `data` after the bytes `past` completes the frame that follows `before`. -/
def Completes (past data : List UInt8) (before : List Frame) (f : Frame) : Prop :=
  past.length < (encodeAll before).length + f.encode.length ∧
  (encodeAll before).length + f.encode.length ≤ past.length + data.length

/-- In a run over `inputs`, in which the client sends the frames `fs`: each Query or Parse that a
    forwarded read completes is parsed and passed to `apply_query` in that iteration, or the
    connection is pinned from then on. -/
def FailsClosed (cfg : RelayConfig) (conn : ManagedConnection) (inputs : List Input)
    (fs : List Frame) : Prop :=
  ∀ pre data now writes post, inputs = pre ++ .clientRead data now writes :: post →
    ∀ effects r effects' outcome, Relay.run cfg (.start cfg conn) pre = .ok (effects, .next r) →
      Relay.step cfg r (.clientRead data now writes) = .ok (effects', outcome) →
        .toBackend data ∈ effects' →
          ∀ before f after, fs = before ++ f :: after → carriesSql f →
            Completes (clientBytes pre) data before f →
              (∃ msg sql, parsePayload f.tag f.payload = .ok (some msg) ∧ msg.sql? = some sql ∧
                .applied sql ∈ effects') ∨
              ∀ n effects r', Relay.run cfg r (.clientRead data now writes :: post.take n) =
                .ok (effects, .next r') → r'.connState.isPinned = true

/-- Every frame has an accepted length, and every Query and Parse has a payload that parses. -/
def Readable (fs : List Frame) : Prop :=
  ∀ f ∈ fs, Fits f ∧ (carriesSql f → ∃ msg, parsePayload f.tag f.payload = .ok (some msg))

/-! ## The reassembly buffer -/

/-- The buffer holds what was sent of the first frame that is not complete. -/
def Buffered (fs : List Frame) (past buffer : List UInt8) : Prop :=
  ∃ done todo, fs = done ++ todo ∧ past = encodeAll done ++ buffer ∧ Frame.Partial buffer todo

variable {fs : List Frame} {past : List UInt8}

/-- A read splits what is buffered and sent into complete frames and a new rest. -/
theorem Buffered.read {buffer data : List UInt8} (h : Buffered fs past buffer)
    (hbytes : past ++ data <+: encodeAll fs) :
    ∃ done now todo rest, fs = done ++ (now ++ todo) ∧ past = encodeAll done ++ buffer ∧
      buffer ++ data = encodeAll now ++ rest ∧ Frame.Partial rest todo := by
  -- what is buffered and what is read lie behind the frames already done
  obtain ⟨done, todo, rfl, rfl, -⟩ := h
  rw [List.append_assoc, Frame.encodeAll_append] at hbytes
  obtain ⟨now, later, rest, rfl, hnow, hrest⟩ :=
    Frame.prefix_encodeAll ((List.prefix_append_right_inj _).1 hbytes)
  exact ⟨done, now, later, rest, rfl, rfl, hnow, hrest⟩

variable {cfg : RelayConfig} {effects : List Effect}

theorem step_buffered {r r' : Relay} {input : Input} (hfit : ∀ f ∈ fs, Fits f)
    (hbuf : Buffered fs past r.frontendBuffer)
    (hbytes : past ++ clientBytes [input] <+: encodeAll fs)
    (h : Relay.step cfg r input = .ok (effects, .next r')) :
    Buffered fs (past ++ clientBytes [input]) r'.frontendBuffer := by
  -- only a client read touches the buffer
  have hsame : clientBytes [input] = [] → r'.frontendBuffer = r.frontendBuffer →
      Buffered fs (past ++ clientBytes [input]) r'.frontendBuffer := by
    intro hnone hbuffer
    rwa [hnone, List.append_nil, hbuffer]
  cases input with
  | clientRead data now writes =>
    have hdata : clientBytes [.clientRead data now writes] = data := by simp [clientBytes]
    rw [hdata] at hbytes ⊢
    obtain ⟨done, frames, todo, rest, rfl, rfl, hnow, hrest⟩ := hbuf.read hbytes
    obtain ⟨messages, buffer, r₁, applied, verdict, hext, hmsgs, hcases⟩ :=
      Relay.clientRead_cases h
    have hlink := (Relay.handleMessages_sameLink hmsgs).1.trans
      (Relay.armDeadline_sameLink cfg r₁ now)
    rw [extractMessages_encodeAll (fun f hf => hfit f (List.mem_append_right done hf)) hrest hnow]
      at hext
    have hbuffer : buffer = rest := by
      cases hmsgsOf : messagesOf frames with
      | error e => rw [hmsgsOf] at hext; cases hext
      | ok ms => rw [hmsgsOf] at hext; cases hext; rfl
    -- a rejected read keeps the new buffer too
    have hnext : r'.frontendBuffer = rest := by
      rcases hcases with ⟨-, -, hnext⟩ | ⟨-, hnext⟩ | ⟨-, how, hexit, -⟩
      · cases hnext
        exact hlink.frontendBuffer.trans hbuffer
      · cases hnext
        exact hlink.frontendBuffer.trans hbuffer
      · cases hexit
    rw [hnext]
    exact ⟨done ++ frames, todo, by simp, by simp [hnow], hrest⟩
  | backendRead data writes reacquired =>
    obtain ⟨r₁, settled, status, hlink, -, -, -, hcases⟩ := Relay.backendRead_cases h
    refine hsame rfl ?_
    rcases hcases with ⟨-, -, hnext⟩ | ⟨-, ⟨conn, -, -, hnext⟩ | ⟨-, -, hexit⟩⟩ | ⟨-, hexit, -⟩
    · cases hnext
      exact hlink.frontendBuffer
    · cases hnext
      exact hlink.frontendBuffer
    · cases hexit
    · cases hexit
  | clientClosed => cases h
  | backendClosed => cases h
  | deadline now =>
    simp only [Relay.step] at h
    split at h <;> cases h
    exact hsame rfl rfl

theorem clientBytes_append (inputs inputs' : List Input) :
    clientBytes (inputs ++ inputs') = clientBytes inputs ++ clientBytes inputs' :=
  List.flatMap_append

/-- Along a run the buffer holds the incomplete last frame. -/
theorem run_buffered {r r' : Relay} {inputs : List Input} (hfit : ∀ f ∈ fs, Fits f)
    (hbuf : Buffered fs past r.frontendBuffer)
    (hbytes : past ++ clientBytes inputs <+: encodeAll fs)
    (h : Relay.run cfg r inputs = .ok (effects, .next r')) :
    Buffered fs (past ++ clientBytes inputs) r'.frontendBuffer := by
  induction inputs generalizing r effects past with
  | nil =>
    cases h
    rwa [clientBytes, List.flatMap_nil, List.append_nil]
  | cons input inputs ih =>
    obtain ⟨effects₁, effects₂, r₁, hstep, hrun, rfl⟩ := Relay.run_cons_next h
    rw [← List.singleton_append, clientBytes_append, ← List.append_assoc] at hbytes ⊢
    have hstep₁ := step_buffered hfit hbuf ((List.prefix_append _ _).trans hbytes) hstep
    exact ih hstep₁ hbytes hrun

/-! ## From frames to `apply_query` -/

/-- A read that is forwarded has had the text of each of its messages applied. -/
theorem applied_of_forward {r r' : Relay} {i : Nat} {msgs : List Message}
    (h : Relay.handleMessages cfg r i msgs = .ok (r', effects, .forward)) {msg : Message}
    {sql : Str} (hmem : msg ∈ msgs) (hsql : msg.sql? = some sql) : .applied sql ∈ effects := by
  induction msgs generalizing r i effects with
  | nil => cases hmem
  | cons m msgs ih =>
    obtain ⟨⟨r₁, effects₁, v₁⟩, hmsg, h⟩ := Rust.bind_returns.1 h
    cases v₁ with
    | reject error => cases h
    | terminate => cases h
    | forward =>
      obtain ⟨⟨r₂, effects₂, v₂⟩, hrest, h⟩ := Rust.bind_returns.1 h
      cases h
      -- a text is applied where its message is handled, if it is not rejected
      rcases List.mem_cons.1 hmem with rfl | hmem
      · refine List.mem_append_left _ ?_
        cases msg with
        | query text | parse name text oids =>
          cases hsql
          obtain ⟨error, -, hmsg⟩ := Rust.bind_returns.1 hmsg
          cases error with
          | some error => cases hmsg
          | none =>
            obtain ⟨s, -, hmsg⟩ := Rust.bind_returns.1 hmsg
            cases hmsg
            exact List.mem_singleton.2 rfl
        | bind | execute | close | sync | terminate => cases hsql
      · exact List.mem_append_right _ (ih hrest hmem)

/-- The message of a completed frame is among those extracted. -/
theorem mem_messagesOf {ms : List Message} (h : messagesOf fs = .ok ms) {f : Frame} (hf : f ∈ fs)
    {msg : Message} (hmsg : parsePayload f.tag f.payload = .ok (some msg)) : msg ∈ ms := by
  obtain ⟨parsed, hparsed, rfl⟩ := Rust.map_returns.1 h
  obtain ⟨p, hp, hfp⟩ := (Rust.mem_mapM hparsed).1 f hf
  rw [hmsg] at hfp
  cases hfp
  exact List.mem_flatMap.2 ⟨_, hp, by simp⟩

/-- A frame of a Query or a Parse that parses yields a message with a text. -/
theorem sql_of_carriesSql {f : Frame} {msg : Message} (hf : carriesSql f)
    (h : parsePayload f.tag f.payload = .ok (some msg)) : ∃ sql, msg.sql? = some sql := by
  have htag := parsePayload_tag h
  cases msg with
  | query sql => exact ⟨sql, rfl⟩
  | parse name sql oids => exact ⟨sql, rfl⟩
  | bind | execute | close | sync | terminate =>
    simp only [carriesSql, ← htag, Message.tag] at hf
    exact absurd hf (by decide)

/-- When the client's stream is readable, the tracker sees every Query and Parse that is
    forwarded. -/
theorem failsClosed_of_readable (cfg : RelayConfig) (conn : ManagedConnection)
    (inputs : List Input) (fs : List Frame) (hbytes : clientBytes inputs <+: encodeAll fs)
    (hread : Readable fs) : FailsClosed cfg conn inputs fs := by
  intro pre data now writes post hinputs effects r effects' outcome hrun hstep hforward before f
    after hfs hsql hcompletes
  have hfit : ∀ f ∈ fs, Fits f := fun f hf => (hread f hf).1
  have hsent : clientBytes pre ++ data <+: encodeAll fs := by
    refine List.IsPrefix.trans ?_ hbytes
    rw [hinputs, clientBytes_append]
    refine (List.prefix_append_right_inj _).2 ?_
    exact List.prefix_append data (clientBytes post)
  -- the relay has run over the reads before this one
  have hbuf : Buffered fs (clientBytes pre) r.frontendBuffer := by
    have hstart : Buffered fs [] (Relay.start cfg conn).frontendBuffer := by
      refine ⟨[], fs, rfl, rfl, ?_⟩
      cases fs with
      | nil => rfl
      | cons g fs => exact ⟨by simp [Relay.start], by simp [Relay.start]⟩
    exact run_buffered hfit hstart ((List.prefix_append _ _).trans hsent) hrun
  obtain ⟨done, frames, todo, rest, hsplit, hpast, hnow, hrest⟩ := hbuf.read hsent
  obtain ⟨messages, buffer, r₁, applied, verdict, hext, hmsgs, hcases⟩ :=
    Relay.clientRead_cases hstep
  -- the frame is one of those that this read completes
  have hmem : f ∈ frames := by
    have hlen := congrArg List.length hnow
    have hlen' := congrArg List.length hpast
    simp only [List.length_append] at hlen hlen'
    refine Frame.mem_of_ends_between (hsplit.symm.trans hfs) hrest ?_ ?_
    · have := hcompletes.1
      omega
    · have := hcompletes.2
      omega
  have hverdict : verdict = .forward ∧ effects' = applied ++ [.toBackend data] := by
    obtain ⟨-, happlied⟩ := Relay.handleMessages_sameLink hmsgs
    have hnone : .toBackend data ∉ applied := by
      intro hin
      obtain ⟨sql, hsql⟩ := happlied _ hin
      cases hsql
    rcases hcases with ⟨hv, he, -⟩ | ⟨⟨error, -, he⟩, -⟩ | ⟨he, -⟩
    · exact ⟨hv, he⟩
    · rw [he] at hforward
      simp [hnone] at hforward
    · rw [he] at hforward
      exact absurd hforward hnone
  obtain ⟨rfl, heffects⟩ := hverdict
  obtain ⟨msg, hmsg⟩ := (hread f (hfs ▸ by simp)).2 hsql
  obtain ⟨sql, hmsgsql⟩ := sql_of_carriesSql hsql hmsg
  rw [extractMessages_encodeAll (fun g hg => hfit g (hsplit ▸ List.mem_append_right done hg))
    hrest hnow] at hext
  cases hms : messagesOf frames with
  | error e => rw [hms] at hext; cases hext
  | ok ms =>
    rw [hms] at hext
    cases hext
    refine .inl ⟨msg, sql, hmsg, hmsgsql, ?_⟩
    rw [heffects]
    exact List.mem_append_left _ (applied_of_forward hmsgs (mem_messagesOf hms hmem hmsg) hmsgsql)

/-- `SELECT 1`, cut into two reads, is readable. -/
theorem failsClosed_select :
    FailsClosed ⟨.transaction, 0, 100⟩ ⟨⟨0, none⟩, 0, false⟩
      [.clientRead [81, 0, 0, 0, 13, 83, 69] 0 {}, .clientRead [76, 69, 67, 84, 32, 49, 0] 0 {}]
      [⟨msgQuery, asciiBytes "SELECT 1" ++ [0]⟩] := by
  have hparse : parsePayload msgQuery (asciiBytes "SELECT 1" ++ [0]) =
      .ok (some (.query "SELECT 1".toList)) := by decide +kernel
  refine failsClosed_of_readable _ _ _ _ ⟨[], by decide⟩ fun f hf => ?_
  rw [List.mem_singleton.1 hf]
  exact ⟨by unfold Fits; decide, fun _ => ⟨_, hparse⟩⟩

/-- Whether the connection is pinned, while the loop goes on. -/
def Outcome.pinned? : Outcome → Option Bool
  | .next r => some r.connState.isPinned
  | .exit _ => none

/-- A Query whose text is the byte `0xFF` is forwarded; nothing is applied and nothing pins. -/
theorem undecodable_query_unseen :
    ¬ FailsClosed ⟨.transaction, 0, 100⟩ ⟨⟨0, none⟩, 0, false⟩
      [.clientRead [81, 0, 0, 0, 6, 255, 0] 0 {}] [⟨msgQuery, [255, 0]⟩] := by
  have hend : (Relay.step ⟨.transaction, 0, 100⟩
      (.start ⟨.transaction, 0, 100⟩ ⟨⟨0, none⟩, 0, false⟩)
      (.clientRead [81, 0, 0, 0, 6, 255, 0] 0 {})).map (fun x => (x.1, x.2.pinned?)) =
      .ok ([.toBackend [81, 0, 0, 0, 6, 255, 0]], some false) := by
    decide +kernel
  obtain ⟨⟨effects, outcome⟩, hstep, hproj⟩ := Rust.map_returns.1 hend
  obtain ⟨rfl, hpin⟩ := Prod.mk.inj hproj
  intro h
  cases outcome with
  | exit how => cases hpin
  | next r =>
    have hseen := h [] _ 0 {} [] rfl _ _ _ _ rfl hstep (by simp) [] _ [] rfl (.inl rfl)
      (by unfold Completes; decide)
    rcases hseen with ⟨msg, sql, hmsg, -, -⟩ | hpinned
    · have hnone : parsePayload msgQuery [255, 0] = .ok none := by decide
      rw [hnone] at hmsg
      cases hmsg
    · have hrun : Relay.run _ _ [.clientRead [81, 0, 0, 0, 6, 255, 0] 0 {}] =
          .ok (_, .next r) := Rust.bind_returns.2 ⟨_, hstep, rfl⟩
      have hunpinned : r.connState.isPinned = false := Option.some.inj hpin
      rw [hpinned 0 _ _ hrun] at hunpinned
      cases hunpinned

end ScryProxy
