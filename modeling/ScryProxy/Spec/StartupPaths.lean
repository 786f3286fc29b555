import ScryProxy.Native.DirectStartup
import ScryProxy.Spec.StartupCapture

/-!
# The three ways through a startup

A client gets its startup from a backend of its own, from a fresh pooled backend, or from the
response that a pooled backend gave to an earlier client.  Where they succeed, the client gets
the same bytes (`startup_paths_agree`).  Where no ReadyForQuery is found, the unpooled startup has
passed on all that the backend sent (`direct_delivers`).  With a ReadyForQuery that two reads
share, its client therefore holds a complete startup, while its handler still reads from the
backend.
-/

namespace ScryProxy

open Rust (Overflow)
open Frame (encodeAll)

/-- How a startup ended, without what it captured. -/
def Awaited.outcome {α : Type} : Awaited α → Awaited Unit
  | .returned _ rest => .returned () rest
  | .failed e => .failed e
  | .waiting => .waiting

/-- The two loops read alike; where the one returns what it captured, the other has passed it on. -/
theorem forwardLoop_eq (ov : Overflow) (out captured : List UInt8) (events : List ReadEvent) :
    (forwardLoop ov (out ++ captured) events).map Prod.snd =
        (captureLoop ov captured events).map Awaited.outcome ∧
      ∀ value rest, captureLoop ov captured events = .ok (.returned value rest) →
        forwardLoop ov (out ++ captured) events = .ok (out ++ value, .returned () rest) := by
  induction events generalizing captured with
  | nil =>
    refine ⟨rfl, fun value rest h => ?_⟩
    cases h
  | cons event events ih =>
    cases event with
    | eof | ioError =>
      refine ⟨rfl, fun value rest h => ?_⟩
      cases h
    | data bytes =>
      rw [forwardLoop, captureLoop]
      cases hfound : extractReadyForQuery ov bytes with
      | error failure =>
        refine ⟨rfl, fun value rest h => ?_⟩
        cases h
      | ok status =>
        cases status with
        | some status =>
          refine ⟨rfl, fun value rest h => ?_⟩
          cases h
          rw [List.append_assoc]
          rfl
        | none =>
          simp only [Rust.ok_bind, Option.isSome_none, Bool.false_eq_true, if_false]
          rw [List.append_assoc]
          exact ih (captured ++ bytes)

section

variable {ov : Overflow} {auth : BackendAuthenticator} {writeOk : Bool} {startupBytes : List UInt8}

/-- So do the two startups. -/
theorem performStartupHandshake_eq_captured (events : List ReadEvent) :
    (auth.performStartupHandshake ov writeOk startupBytes events).map Prod.snd =
        (auth.initializeBackendStartup ov writeOk startupBytes events).map Awaited.outcome ∧
      ∀ captured rest, auth.initializeBackendStartup ov writeOk startupBytes events =
          .ok (.returned captured rest) →
        auth.performStartupHandshake ov writeOk startupBytes events =
          .ok (buildAuthOk ++ captured, .returned () rest) := by
  unfold BackendAuthenticator.initializeBackendStartup BackendAuthenticator.performStartupHandshake
  cases writeOk with
  | false =>
    refine ⟨rfl, fun captured rest h => ?_⟩
    cases h
  | true =>
    simp only [Bool.not_true, Bool.false_eq_true, if_false]
    cases auth.authenticate ov true events [] ⟨none, [startupBytes]⟩ with
    | error failure =>
      refine ⟨rfl, fun captured rest h => ?_⟩
      cases h
    | ok result =>
      cases result with
      | failed | waiting =>
        refine ⟨rfl, fun captured rest h => ?_⟩
        cases h
      | returned remaining events =>
        have hloops := forwardLoop_eq ov buildAuthOk []
          (if remaining = [] then events else .data remaining :: events)
        rw [List.append_nil] at hloops
        exact hloops

/-- On the same reads of a backend the pooled and the unpooled startup succeed together, after the
    same read; the client gets the same bytes from both, and so does a later client to whom the
    captured response is replayed. -/
theorem startup_paths_agree (events rest : List ReadEvent) (out : List UInt8) :
    auth.performStartupHandshake ov writeOk startupBytes events = .ok (out, .returned () rest) ↔
      ∃ captured, performStartupHandshakeCapturing ov auth writeOk startupBytes events =
          .ok (out, .returned captured rest) ∧ replayStartupToClient captured = out := by
  obtain ⟨hsame, hcaptured⟩ := performStartupHandshake_eq_captured events
  constructor
  · intro h
    rw [h] at hsame
    obtain ⟨result, hresult, houtcome⟩ := Rust.map_returns.1 hsame.symm
    cases result with
    | returned captured rest' =>
      cases houtcome
      cases h.symm.trans (hcaptured captured rest hresult)
      exact ⟨captured, by rw [performStartupHandshakeCapturing, hresult]; rfl, rfl⟩
    | failed e => cases houtcome
    | waiting => cases houtcome
  · rintro ⟨captured, h, hout⟩
    obtain ⟨result, hresult, h⟩ := Rust.bind_returns.1 h
    cases result with
    | returned captured' rest' =>
      cases h
      exact hcaptured _ _ hresult
    | failed e => cases h
    | waiting => cases h

theorem forwardLoop_unseen {chunks : List (List UInt8)} (h : ∀ chunk ∈ chunks, Unseen chunk)
    (out : List UInt8) (tail : List ReadEvent) :
    forwardLoop .wrapping out (chunks.map .data ++ tail) =
      forwardLoop .wrapping (out ++ chunks.flatten) tail := by
  induction chunks generalizing out with
  | nil => simp
  | cons chunk chunks ih =>
    have hfirst : extractReadyForQuery .wrapping chunk = .ok none := h chunk List.mem_cons_self
    rw [List.map_cons, List.cons_append, forwardLoop, hfirst]
    simp only [Rust.ok_bind, Option.isSome_none, Bool.false_eq_true, if_false]
    rw [ih fun c hc => h c (List.mem_cons_of_mem chunk hc), List.flatten_cons, List.append_assoc]

variable {fs reply : List Frame} {reads : List (List UInt8)}

/-- After the authentication the reads go to the client one by one. -/
theorem performStartupHandshake_eq {s' : AuthState} (hauth : auth.answers ⟨none, [startupBytes]⟩ fs = some s')
    (hcut : Cut (fs ++ authOkFrame :: reply) reads) (tail : List ReadEvent) :
    auth.performStartupHandshake .wrapping true startupBytes (reads.map .data ++ tail) =
      forwardLoop .wrapping buildAuthOk ((afterAuth fs reads).map .data ++ tail) := by
  have hshort : ∀ f ∈ fs, f.len < 2 ^ 31 := fun f hf =>
    (hcut.wellFormed f (List.mem_append_left _ hf)).short
  have hstream : [] ++ reads.flatten = encodeAll fs ++ (authOkFrame.encode ++ encodeAll reply) := by
    simp [hcut.flatten]
  obtain ⟨remaining, later, hrun, hchunks⟩ :=
    BackendAuthenticator.authenticate_returns hauth hshort hcut.nonempty hstream tail
  have hafter : (if remaining = [] then later else remaining :: later) = afterAuth fs reads := by
    rw [hchunks, dropBytes_cons (Nat.zero_le _), afterAuth, Frame.encodeAll_append, List.length_append]
    simp
  rw [← hafter, BackendAuthenticator.performStartupHandshake, hrun]
  simp only [Bool.not_true, Bool.false_eq_true, if_false, Rust.ok_bind]
  split <;> rfl

/-- Behind AuthenticationOk, and as long as no read is taken for one with a ReadyForQuery, the client
    of the unpooled startup has all of the reply and its handler waits for more, or fails when the
    backend closes. -/
theorem direct_delivers (hauth : (auth.answers ⟨none, [startupBytes]⟩ fs).isSome = true)
    (hcut : Cut (fs ++ authOkFrame :: reply) reads) (hunseen : ∀ chunk ∈ afterAuth fs reads, Unseen chunk) :
    auth.performStartupHandshake .wrapping true startupBytes (reads.map .data) =
        .ok (buildAuthOk ++ encodeAll reply, .waiting) ∧
    auth.performStartupHandshake .wrapping true startupBytes (reads.map .data ++ [.eof]) =
        .ok (buildAuthOk ++ encodeAll reply, .failed .closedDuringStartup) := by
  obtain ⟨s', hanswers⟩ := Option.isSome_iff_exists.1 hauth
  have hdirect := performStartupHandshake_eq hanswers hcut
  simp only [forwardLoop_unseen hunseen, flatten_afterAuth hcut] at hdirect
  have hnil := hdirect []
  rw [List.append_nil] at hnil
  exact ⟨hnil, hdirect [.eof]⟩

end

/-- ReadyForQuery cut before its status: the client has it, and its handler waits for it. -/
theorem direct_delivers_split_ready :
    secretAuth.performStartupHandshake .wrapping true []
        ([authOkFrame.encode ++ (readyFrame .idle).encode.take 5, (readyFrame .idle).encode.drop 5].map .data) =
      .ok (buildAuthOk ++ encodeAll [readyFrame .idle], .waiting) := by
  have hcut : Cut ([] ++ authOkFrame :: [readyFrame .idle])
      [authOkFrame.encode ++ (readyFrame .idle).encode.take 5, (readyFrame .idle).encode.drop 5] := by
    refine ⟨?_, by decide, by decide⟩
    intro f hf
    rcases List.mem_cons.1 hf with rfl | hf
    · exact wellFormed_of_ne (by decide) (by decide)
    · rw [List.mem_singleton.1 hf]
      exact wellFormed_readyFrame .idle
  exact (direct_delivers (by decide) hcut (by unfold Unseen; decide)).1

end ScryProxy
