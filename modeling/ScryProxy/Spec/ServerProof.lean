import ScryProxy.Native.BackendAuth

/-!
# The server's proof

Which requests `authenticate` handles before it returns, and whether the backend has proved
itself among them.  The requests are read off the bytes of the backend alone (`Sends`), in
whatever reads they come; an exchange begins with a SASL request and is verified if a
SASLFinal in it passed `verify_server_final`.  AuthenticationOk ends the loop in any state.

## Key results

- `BackendAuthenticator.authenticate_sends`: the requests before the return were all answered
- `scram_verified_iff`: the returns with a verified server
-/

namespace ScryProxy

open Rust (Overflow)

/-- The bytes that a list of reads brings. -/
def dataOf : List ReadEvent → List UInt8
  | [] => []
  | .data bytes :: events => bytes ++ dataOf events
  | _ :: events => dataOf events

/-! ## Requests in a stream -/

/-- `reqs` are the requests at the front of the bytes, none of them AuthenticationOk, and `rest` is
    what follows them. -/
inductive Taken (ov : Overflow) : List UInt8 → List AuthRequest → List UInt8 → Prop where
  | nil (bytes : List UInt8) : Taken ov bytes [] bytes
  | cons {bytes rest : List UInt8} {req : AuthRequest} {reqs : List AuthRequest} {n : Nat}
      (hparse : tryParseAuth ov bytes = .ok (some (req, n))) (hreq : req ≠ .ok)
      (htaken : Taken ov (bytes.drop n) reqs rest) : Taken ov bytes (req :: reqs) rest

/-- The bytes are the requests, AuthenticationOk and what remains. -/
def Sends (ov : Overflow) (bytes : List UInt8) (reqs : List AuthRequest)
    (remaining : List UInt8) : Prop :=
  ∃ rest n, Taken ov bytes reqs rest ∧ tryParseAuth ov rest = .ok (some (.ok, n)) ∧
    remaining = rest.drop n

/-- What is found in a buffer is found whatever follows it. -/
theorem tryParseAuth_append_eq {ov : Overflow} {bytes : List UInt8}
    (h : tryParseAuth ov bytes ≠ .ok none) (more : List UInt8) :
    tryParseAuth ov (bytes ++ more) = tryParseAuth ov bytes := by
  unfold tryParseAuth at h
  split at h
  · next t b₀ b₁ b₂ b₃ c₀ c₁ c₂ c₃ rest =>
    split at h
    · exact absurd rfl h
    · next htag =>
      rw [List.cons_append]
      simp only [List.cons_append, tryParseAuth, htag, if_false]
      cases htotal : Rust.offsetAdd ov 1 (BigEndian.i32 b₀ b₁ b₂ b₃) with
      | error e => rfl
      | ok total =>
        rw [htotal] at h
        -- the message is complete, so the slice that is parsed is the same
        have hlong : ¬ (t :: b₀ :: b₁ :: b₂ :: b₃ :: c₀ :: c₁ :: c₂ :: c₃ :: rest).length < total := by
          intro hlt
          exact h (if_pos hlt)
        have hlong' : ¬ (t :: b₀ :: b₁ :: b₂ :: b₃ :: c₀ :: c₁ :: c₂ :: c₃ ::
            (rest ++ more)).length < total := by
          simp only [List.length_cons, List.length_append] at hlong ⊢
          omega
        have htake : (t :: b₀ :: b₁ :: b₂ :: b₃ :: c₀ :: c₁ :: c₂ :: c₃ :: rest ++ more).take total =
            (t :: b₀ :: b₁ :: b₂ :: b₃ :: c₀ :: c₁ :: c₂ :: c₃ :: rest).take total :=
          List.take_append_of_le_length (Nat.not_lt.1 hlong)
        simp only [List.cons_append] at htake
        simp only [Rust.ok_bind, hlong, hlong', if_false, htake]
  · exact absurd rfl h

/-- A request lies in the bytes that it is found in. -/
theorem tryParseAuth_le_length {ov : Overflow} {bytes : List UInt8} {req : AuthRequest} {n : Nat}
    (h : tryParseAuth ov bytes = .ok (some (req, n))) : n ≤ bytes.length := by
  unfold tryParseAuth at h
  split at h
  · split at h
    · cases h
    · obtain ⟨total, -, h⟩ := Rust.bind_returns.1 h
      split at h
      · cases h
      · next hlong =>
        obtain ⟨parsed, -, h⟩ := Rust.bind_returns.1 h
        cases parsed with
        | none => cases h
        | some req' =>
          cases h
          exact Nat.not_lt.1 hlong
  · cases h

/-- A request that is complete is found whatever follows it. -/
theorem tryParseAuth_append {ov : Overflow} {bytes : List UInt8} {req : AuthRequest} {n : Nat}
    (h : tryParseAuth ov bytes = .ok (some (req, n))) (more : List UInt8) :
    tryParseAuth ov (bytes ++ more) = .ok (some (req, n)) ∧ n ≤ bytes.length := by
  refine ⟨?_, tryParseAuth_le_length h⟩
  rw [tryParseAuth_append_eq (by rw [h]; nofun), h]

namespace Taken

variable {ov : Overflow} {bytes middle rest : List UInt8} {reqs reqs' : List AuthRequest}

theorem append (h : Taken ov bytes reqs rest) (more : List UInt8) :
    Taken ov (bytes ++ more) reqs (rest ++ more) := by
  induction h with
  | nil bytes => exact .nil _
  | cons hparse hreq _ ih =>
    obtain ⟨hparse', hle⟩ := tryParseAuth_append hparse more
    refine .cons hparse' hreq ?_
    rwa [List.drop_append_of_le_length hle]

theorem trans (h : Taken ov bytes reqs middle) (h' : Taken ov middle reqs' rest) :
    Taken ov bytes (reqs ++ reqs') rest := by
  induction h with
  | nil bytes => exact h'
  | cons hparse hreq _ ih => exact .cons hparse hreq (ih h')

end Taken

/-- The bytes determine the requests and what follows AuthenticationOk. -/
theorem Sends.determined {ov : Overflow} {bytes rem rem' : List UInt8} {reqs reqs' : List AuthRequest}
    (h : Sends ov bytes reqs rem) (h' : Sends ov bytes reqs' rem') : reqs = reqs' ∧ rem = rem' := by
  obtain ⟨rest, n, htaken, hok, rfl⟩ := h
  obtain ⟨rest', n', htaken', hok', rfl⟩ := h'
  induction htaken generalizing reqs' with
  | nil bytes =>
    cases htaken' with
    | nil =>
      rw [hok] at hok'
      cases hok'
      exact ⟨rfl, rfl⟩
    | cons hparse hreq _ =>
      rw [hok] at hparse
      cases hparse
      exact absurd rfl hreq
  | cons hparse hreq _ ih =>
    cases htaken' with
    | nil =>
      rw [hok'] at hparse
      cases hparse
      exact absurd rfl hreq
    | cons hparse' hreq' htail =>
      rw [hparse] at hparse'
      cases hparse'
      obtain ⟨hreqs, hrem⟩ := ih hok htail
      exact ⟨by rw [hreqs], hrem⟩

/-! ## The loop -/

namespace BackendAuthenticator

variable {ov : Overflow} {auth : BackendAuthenticator} {writeOk : Bool} {s s' : AuthState}
  {pending rest remaining : List UInt8} {reqs reqs' : List AuthRequest}

/-- The requests are answered one after the other. -/
def replies (auth : BackendAuthenticator) (writeOk : Bool) :
    AuthState → List AuthRequest → Except StartupError AuthState
  | s, [] => .ok s
  | s, req :: reqs =>
    match auth.respond writeOk s req with
    | .ok s => replies auth writeOk s reqs
    | .error e => .error e

theorem replies_cons {req : AuthRequest} :
    auth.replies writeOk s (req :: reqs) = .ok s' ↔
      ∃ s₁, auth.respond writeOk s req = .ok s₁ ∧ auth.replies writeOk s₁ reqs = .ok s' := by
  rw [replies]
  cases auth.respond writeOk s req with
  | ok s₁ => simp
  | error e => simp

theorem replies_append :
    auth.replies writeOk s (reqs ++ reqs') = .ok s' ↔
      ∃ s₁, auth.replies writeOk s reqs = .ok s₁ ∧ auth.replies writeOk s₁ reqs' = .ok s' := by
  induction reqs generalizing s with
  | nil => simp [replies]
  | cons req reqs ih =>
    simp only [List.cons_append, replies_cons, ih]
    constructor
    · rintro ⟨s₁, hrespond, s₂, hreqs, hreqs'⟩
      exact ⟨s₂, ⟨s₁, hrespond, hreqs⟩, hreqs'⟩
    · rintro ⟨s₂, ⟨s₁, hrespond, hreqs⟩, hreqs'⟩
      exact ⟨s₁, hrespond, s₂, hreqs, hreqs'⟩

/-- The rounds without a read have taken requests off the front and answered them. -/
def Reached (ov : Overflow) (auth : BackendAuthenticator) (writeOk : Bool) (pending : List UInt8)
    (s : AuthState) : Progress → Prop
  | .more rest s' => ∃ reqs, Taken ov pending reqs rest ∧ auth.replies writeOk s reqs = .ok s'
  | .done remaining => ∃ reqs s', Sends ov pending reqs remaining ∧ auth.replies writeOk s reqs = .ok s'
  | .failed _ => True

theorem reached_of_handleRequests {fuel : Nat} {progress : Progress}
    (h : handleRequests ov auth writeOk fuel pending s = .ok progress) :
    Reached ov auth writeOk pending s progress := by
  induction fuel generalizing pending s with
  | zero =>
    cases h
    exact ⟨[], .nil _, rfl⟩
  | succ fuel ih =>
    rw [handleRequests] at h
    obtain ⟨parsed, hparse, h⟩ := Rust.bind_returns.1 h
    cases parsed with
    | none =>
      cases h
      exact ⟨[], .nil _, rfl⟩
    | some pair =>
      obtain ⟨req, n⟩ := pair
      dsimp only at h
      split at h
      · next hreq =>
        cases h
        exact ⟨[], s, ⟨pending, n, .nil _, hreq ▸ hparse, rfl⟩, rfl⟩
      · next hreq =>
        split at h
        · cases h
          trivial
        · next s₁ hrespond =>
          have hrest := ih h
          cases progress with
          | more =>
            obtain ⟨reqs, htaken, hreplies⟩ := hrest
            exact ⟨req :: reqs, .cons hparse hreq htaken, replies_cons.2 ⟨s₁, hrespond, hreplies⟩⟩
          | done =>
            obtain ⟨reqs, s', ⟨rest, m, htaken, hok, hrem⟩, hreplies⟩ := hrest
            exact ⟨req :: reqs, s', ⟨rest, m, .cons hparse hreq htaken, hok, hrem⟩,
              replies_cons.2 ⟨s₁, hrespond, hreplies⟩⟩
          | failed => trivial

/-- When `authenticate` returns, the reads it used hold requests that were all answered,
    AuthenticationOk and what it returns. -/
theorem authenticate_sends {events later : List ReadEvent}
    (h : auth.authenticate ov writeOk events pending s = .ok (.returned remaining later)) :
    ∃ used reqs s', events = used ++ later ∧ Sends ov (pending ++ dataOf used) reqs remaining ∧
      auth.replies writeOk s reqs = .ok s' := by
  induction events generalizing pending s with
  | nil =>
    rw [authenticate] at h
    obtain ⟨progress, hround, h⟩ := Rust.bind_returns.1 h
    cases progress with
    | done remaining' =>
      cases h
      obtain ⟨reqs, s', hsends, hreplies⟩ := reached_of_handleRequests hround
      exact ⟨[], reqs, s', rfl, by simpa [dataOf] using hsends, hreplies⟩
    | more _ _ => cases h
    | failed e => cases h
  | cons event events ih =>
    rw [authenticate] at h
    obtain ⟨progress, hround, h⟩ := Rust.bind_returns.1 h
    cases progress with
    | done remaining' =>
      cases h
      obtain ⟨reqs, s', hsends, hreplies⟩ := reached_of_handleRequests hround
      exact ⟨[], reqs, s', rfl, by simpa [dataOf] using hsends, hreplies⟩
    | failed e => cases h
    | more rest s₁ =>
      -- the next read goes behind what is left of the last one
      obtain ⟨reqs, htaken, hreplies⟩ := reached_of_handleRequests hround
      cases event with
      | eof => cases h
      | ioError => cases h
      | data bytes =>
        obtain ⟨used, reqs', s', rfl, ⟨rest', n, htaken', hok, hrem⟩, hreplies'⟩ := ih h
        refine ⟨.data bytes :: used, reqs ++ reqs', s', rfl, ⟨rest', n, ?_, hok, hrem⟩, ?_⟩
        · have hall := htaken.append (bytes ++ dataOf used)
          rw [List.append_assoc] at htaken'
          exact hall.trans htaken'
        · exact replies_append.2 ⟨s₁, hreplies, hreplies'⟩

end BackendAuthenticator

/-! ## Exchanges -/

def AuthRequest.isSasl : AuthRequest → Bool
  | .sasl _ => true
  | _ => false

/-- What follows the latest SASL request. -/
def latestExchange : List AuthRequest → Option (List AuthRequest)
  | [] => none
  | req :: reqs => (latestExchange reqs).or (if req.isSasl then some reqs else none)

/-- The server-first messages among the requests. -/
def serverFirsts : List AuthRequest → List (List UInt8)
  | [] => []
  | .saslContinue data :: reqs => data :: serverFirsts reqs
  | _ :: reqs => serverFirsts reqs

/-- In the exchange that the latest SASL request began, if there is one, `verify_server_final` has
    succeeded. -/
def ServerVerified (auth : BackendAuthenticator) (reqs : List AuthRequest) : Prop :=
  ∀ exchange ∈ latestExchange reqs, ∃ before data after,
    exchange = before ++ .saslFinal data :: after ∧
      auth.scram.verifyServerFinal (serverFirsts before) data = true

theorem latestExchange_eq_none {reqs : List AuthRequest} (h : latestExchange reqs = none) :
    ∀ req ∈ reqs, req.isSasl = false := by
  induction reqs with
  | nil => intro req hreq; cases hreq
  | cons req reqs ih =>
    rw [latestExchange, Option.or_eq_none_iff] at h
    obtain ⟨hlater, hfirst⟩ := h
    intro req' hreq'
    rcases List.mem_cons.1 hreq' with rfl | hmem
    · cases hsasl : req'.isSasl with
      | false => rfl
      | true => simp [hsasl] at hfirst
    · exact ih hlater req' hmem

theorem latestExchange_eq_some {reqs exchange : List AuthRequest}
    (h : latestExchange reqs = some exchange) :
    ∃ before mechanisms, reqs = before ++ .sasl mechanisms :: exchange ∧
      ∀ req ∈ exchange, req.isSasl = false := by
  induction reqs with
  | nil => cases h
  | cons req reqs ih =>
    rw [latestExchange] at h
    cases hlater : latestExchange reqs with
    | some later =>
      rw [hlater] at h ih
      cases h
      obtain ⟨before, mechanisms, rfl, hnone⟩ := ih rfl
      exact ⟨req :: before, mechanisms, rfl, hnone⟩
    | none =>
      rw [hlater, Option.none_or] at h
      split at h
      · next hsasl =>
        cases h
        cases req with
        | sasl mechanisms => exact ⟨[], mechanisms, rfl, latestExchange_eq_none hlater⟩
        | ok | cleartextPassword | md5 _ | saslContinue _ | saslFinal _ => cases hsasl
      · cases h

namespace BackendAuthenticator

variable {auth : BackendAuthenticator} {writeOk : Bool} {s s' : AuthState}

theorem send_eq_ok {message : List UInt8} (h : send writeOk s message = .ok s') :
    s'.scramClient = s.scramClient := by
  rw [send] at h
  split at h
  · cases h; rfl
  · cases h

/-- A request other than SASL keeps the exchange; a SASLContinue adds its data to it. -/
theorem respond_keeps {req : AuthRequest} {firsts : List (List UInt8)}
    (h : auth.respond writeOk s req = .ok s') (hsasl : req.isSasl = false)
    (hs : s.scramClient = some firsts) :
    s'.scramClient = some (firsts ++ serverFirsts [req]) := by
  cases req with
  | sasl mechanisms => cases hsasl
  | ok =>
    cases h
    simpa [serverFirsts] using hs
  | cleartextPassword =>
    rw [send_eq_ok h]
    simpa [serverFirsts] using hs
  | md5 salt =>
    rw [send_eq_ok h]
    simpa [serverFirsts] using hs
  | saslContinue data =>
    simp only [respond, hs] at h
    split at h
    · cases h
    · rw [send_eq_ok h]
      rfl
  | saslFinal data =>
    simp only [respond, hs] at h
    split at h
    · cases h
      simpa [serverFirsts] using hs
    · cases h

theorem serverFirsts_cons (req : AuthRequest) (reqs : List AuthRequest) :
    serverFirsts (req :: reqs) = serverFirsts [req] ++ serverFirsts reqs := by
  cases req with
  | saslContinue data => rfl
  | ok | cleartextPassword | md5 _ | sasl _ | saslFinal _ => rfl

/-- A SASLFinal that was answered in an exchange has been verified. -/
theorem verified_of_replies {before after : List AuthRequest} {data : List UInt8}
    {firsts : List (List UInt8)} (hs : s.scramClient = some firsts)
    (hsasl : ∀ req ∈ before, req.isSasl = false)
    (h : auth.replies writeOk s (before ++ .saslFinal data :: after) = .ok s') :
    auth.scram.verifyServerFinal (firsts ++ serverFirsts before) data = true := by
  induction before generalizing s firsts with
  | nil =>
    obtain ⟨s₁, hrespond, -⟩ := replies_cons.1 h
    simp only [respond, hs] at hrespond
    split at hrespond
    · next hverified => simpa [serverFirsts] using hverified
    · cases hrespond
  | cons req before ih =>
    obtain ⟨s₁, hrespond, hrest⟩ := replies_cons.1 h
    have hs₁ := respond_keeps hrespond (hsasl req List.mem_cons_self) hs
    have hverified := ih hs₁ (fun req' hreq' => hsasl req' (List.mem_cons_of_mem req hreq')) hrest
    rwa [List.append_assoc, ← serverFirsts_cons] at hverified

/-- The server of an answered sequence of requests is verified once a SASLFinal follows the latest
    SASL request. -/
theorem serverVerified_iff {reqs : List AuthRequest} (h : auth.replies writeOk s reqs = .ok s') :
    ServerVerified auth reqs ↔
      ∀ exchange ∈ latestExchange reqs, ∃ data, .saslFinal data ∈ exchange := by
  constructor
  · intro hverified exchange hexchange
    obtain ⟨before, data, after, rfl, -⟩ := hverified exchange hexchange
    exact ⟨data, by simp⟩
  · intro hfinal exchange hexchange
    obtain ⟨data, hmem⟩ := hfinal exchange hexchange
    obtain ⟨before, after, rfl⟩ := List.append_of_mem hmem
    obtain ⟨earlier, mechanisms, rfl, hnone⟩ := latestExchange_eq_some hexchange
    obtain ⟨s₁, -, hrest⟩ := replies_append.1 h
    obtain ⟨s₂, hrespond, hrest⟩ := replies_cons.1 hrest
    -- the SASL request begins with a new client
    have hs₂ : s₂.scramClient = some [] := by
      rw [respond] at hrespond
      split at hrespond
      · rw [send_eq_ok hrespond]
      · cases hrespond
    refine ⟨before, data, after, rfl, ?_⟩
    exact verified_of_replies hs₂ (fun req hreq => hnone req (List.mem_append_left _ hreq)) hrest

end BackendAuthenticator

/-- When `authenticate` returns, the backend has sent requests and then AuthenticationOk; in the
    exchange that its latest SASL request began, the server's signature was verified just when a
    SASLFinal came before AuthenticationOk. -/
theorem scram_verified_iff {ov : Overflow} {auth : BackendAuthenticator} {writeOk : Bool}
    {events later : List ReadEvent} {sent : List (List UInt8)} {remaining : List UInt8}
    (hrun : auth.authenticate ov writeOk events [] ⟨none, sent⟩ = .ok (.returned remaining later)) :
    ∃ used reqs, events = used ++ later ∧ Sends ov (dataOf used) reqs remaining ∧
      (ServerVerified auth reqs ↔
        ∀ exchange ∈ latestExchange reqs, ∃ data, .saslFinal data ∈ exchange) := by
  obtain ⟨used, reqs, s', hevents, hsends, hreplies⟩ :=
    BackendAuthenticator.authenticate_sends hrun
  exact ⟨used, reqs, hevents, hsends, BackendAuthenticator.serverVerified_iff hreplies⟩

/-- An authentication request with the given code. -/
def authRequest (code : UInt8) (data : List UInt8) : List UInt8 :=
  Frame.encode ⟨msgAuthentication, [0, 0, 0, code] ++ data⟩

/-- AuthenticationSASL with the one mechanism. -/
def saslMessage : List UInt8 := authRequest 10 (scramSha256 ++ [0, 0])

/-- An authenticator with the given test of the server's signature. -/
def authenticatorWith (verifyServerFinal : List (List UInt8) → List UInt8 → Bool) :
    BackendAuthenticator :=
  ⟨[], fun _ => [], ⟨[], fun _ data => some data, verifyServerFinal⟩⟩

/-- A whole exchange, in two reads, for a server whose signature is `7`. -/
theorem scram_verified_exchange :
    ∃ reqs, Sends .wrapping
        (saslMessage ++ authRequest 11 [1] ++ (authRequest 12 [7] ++ buildAuthOk)) reqs [] ∧
      ServerVerified (authenticatorWith fun firsts data => firsts = [[1]] ∧ data = [7]) reqs := by
  obtain ⟨used, reqs, hused, hsends, hverified⟩ := @scram_verified_iff .wrapping
    (authenticatorWith fun firsts data => firsts = [[1]] ∧ data = [7]) true
    [.data (saslMessage ++ authRequest 11 [1]), .data (authRequest 12 [7] ++ buildAuthOk)] [] [] []
    (by decide +kernel)
  rw [List.append_nil] at hused
  subst hused
  have hknown : Sends .wrapping
      (saslMessage ++ authRequest 11 [1] ++ (authRequest 12 [7] ++ buildAuthOk))
      [.sasl [scramSha256], .saslContinue [1], .saslFinal [7]] [] := by
    refine ⟨buildAuthOk, 9, ?_, by decide +kernel, by decide +kernel⟩
    refine .cons (n := 24) (by decide +kernel) (by decide) ?_
    refine .cons (n := 10) (by decide +kernel) (by decide) ?_
    refine .cons (n := 10) (by decide +kernel) (by decide) ?_
    have hleft : ((((saslMessage ++ authRequest 11 [1] ++
        (authRequest 12 [7] ++ buildAuthOk)).drop 24).drop 10).drop 10) = buildAuthOk := by
      decide +kernel
    rw [hleft]
    exact .nil _
  simp only [dataOf, List.append_nil] at hsends
  have hreqs := (hsends.determined hknown).1
  subst hreqs
  refine ⟨_, hsends, hverified.2 fun exchange hexchange => ⟨[7], ?_⟩⟩
  cases hexchange
  simp

/-- A backend that asks for SASL and then says AuthenticationOk is taken for authenticated, whatever
    the test of its signature would be. -/
theorem scram_skipped :
    (authenticatorWith fun _ _ => false).authenticate .wrapping true
        [.data (saslMessage ++ buildAuthOk)] [] ⟨none, []⟩ = .ok (.returned [] []) ∧
      Sends .wrapping (saslMessage ++ buildAuthOk) [.sasl [scramSha256]] [] ∧
      ¬ ServerVerified (authenticatorWith fun _ _ => false) [.sasl [scramSha256]] := by
  refine ⟨by decide +kernel, ?_, fun hverified => ?_⟩
  · refine ⟨buildAuthOk, 9, ?_, by decide +kernel, by decide +kernel⟩
    refine .cons (n := 24) (by decide +kernel) (by decide) ?_
    have hleft : (saslMessage ++ buildAuthOk).drop 24 = buildAuthOk := by decide +kernel
    rw [hleft]
    exact .nil _
  · obtain ⟨before, data, after, -, hfalse⟩ := hverified [] rfl
    cases hfalse

end ScryProxy
