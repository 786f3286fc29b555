import ScryProxy.Spec.BackendStream
import ScryProxy.Spec.RelaySteps

/-!
# Transaction tracking across reads

The relay scans each backend read on its own, from its first byte.  When every read
starts at a message boundary of the backend stream, the tracker ends in the state of
the last ReadyForQuery and every update comes from a ReadyForQuery of the stream
(`tracksStream_of_aligned`).  A ReadyForQuery cut in two is never seen
(`split_ready_missed`).
-/

namespace ScryProxy

open Frame (encodeAll)
open Relay (afterReady)

/-! ## The tracker's part of the relay loop -/

/-- What one backend read does to the tracker. -/
def trackRead (t : TransactionState) (data : List UInt8) : Rust TransactionState :=
  (extractReadyForQuery .wrapping data).map (afterReady t)

/-- The data of the backend reads, in order. -/
def backendReads (inputs : List Input) : List (List UInt8) :=
  inputs.filterMap fun
    | .backendRead data _ _ => some data
    | _ => none

theorem step_txnTracker {cfg : RelayConfig} {r r' : Relay} {input : Input} {effects : List Effect}
    (h : Relay.step cfg r input = .ok (effects, .next r')) :
    (backendReads [input]).foldlM trackRead r.txnTracker = .ok r'.txnTracker := by
  cases input with
  | clientRead data now writes =>
    obtain ⟨messages, buffer, r₁, applied, verdict, -, hmsgs, hcases⟩ := Relay.clientRead_cases h
    have hlink := (Relay.handleMessages_sameLink hmsgs).1.trans
      (Relay.armDeadline_sameLink cfg r₁ now)
    rcases hcases with ⟨-, -, hnext⟩ | ⟨-, hnext⟩ | ⟨-, how, hexit, -⟩
    · cases hnext
      exact congrArg Except.ok hlink.txnTracker.symm
    · cases hnext
      exact congrArg Except.ok hlink.txnTracker.symm
    · cases hexit
  | backendRead data writes reacquired =>
    obtain ⟨r₁, settled, status, -, -, -, hstatus, hcases⟩ := Relay.backendRead_cases h
    -- every outcome that stays in the loop has the same tracker
    have htrack : (backendReads [.backendRead data writes reacquired]).foldlM trackRead
        r.txnTracker = .ok (afterReady r.txnTracker status) := by
      show (trackRead r.txnTracker data >>= pure) = _
      rw [trackRead, hstatus]
      rfl
    rcases hcases with ⟨-, -, hnext⟩ | ⟨-, ⟨conn, -, -, hnext⟩ | ⟨-, -, hexit⟩⟩ | ⟨-, hexit, -⟩
    · cases hnext
      exact htrack
    · cases hnext
      exact htrack
    · cases hexit
    · cases hexit
  | clientClosed => cases h
  | backendClosed => cases h
  | deadline now =>
    simp only [Relay.step] at h
    split at h <;> cases h
    rfl

/-- The tracker after a run is what the backend reads make of it. -/
theorem run_txnTracker {cfg : RelayConfig} {r r' : Relay} {inputs : List Input}
    {effects : List Effect} (h : Relay.run cfg r inputs = .ok (effects, .next r')) :
    (backendReads inputs).foldlM trackRead r.txnTracker = .ok r'.txnTracker := by
  induction inputs generalizing r effects with
  | nil => cases h; rfl
  | cons input inputs ih =>
    obtain ⟨effects₁, effects₂, r₁, hstep, hrun, rfl⟩ := Relay.run_cons_next h
    have happend : backendReads (input :: inputs) =
        backendReads [input] ++ backendReads inputs := by
      rw [backendReads, ← List.singleton_append, List.filterMap_append]
      rfl
    rw [happend, List.foldlM_append, step_txnTracker hstep]
    exact ih hrun

/-! ## Streams and their cuts -/

/-- Reads that cut a stream of well-formed messages into non-empty pieces. -/
structure Cut (fs : List Frame) (reads : List (List UInt8)) : Prop where
  wellFormed : ∀ f ∈ fs, WellFormed f
  nonempty : ∀ data ∈ reads, data ≠ []
  flatten : reads.flatten = encodeAll fs

/-- The tracker follows the stream through its reads. -/
structure TracksStream (fs : List Frame) (reads : List (List UInt8)) : Prop where
  /-- the tracker ends in the state of the last ReadyForQuery, or idle -/
  final : reads.foldlM trackRead .idle = .ok (afterReady .idle (lastReady fs))
  /-- so does the relay, however its other inputs lie between the reads -/
  relayed : ∀ cfg conn inputs effects r, backendReads inputs = reads →
    Relay.run cfg (.start cfg conn) inputs = .ok (effects, .next r) →
      r.txnTracker = afterReady .idle (lastReady fs)
  /-- a status that a read yields is that of a ReadyForQuery starting where it was found -/
  genuine : ∀ before data after pos st, reads = before ++ data :: after →
    readyScan .wrapping data = .ok (some (pos, st)) →
      ∃ done f todo, fs = done ++ f :: todo ∧ readyStatus f = some st ∧
        (encodeAll done).length = before.flatten.length + pos

/-- Every read starts at a message boundary: it is a whole number of messages. -/
def Aligned (fs : List Frame) (reads : List (List UInt8)) : Prop :=
  ∃ parts : List (List Frame), fs = parts.flatten ∧ reads = parts.map encodeAll

/-- A later status replaces an earlier one. -/
theorem afterReady_lastReady_append (t : TransactionState) {fs gs : List Frame}
    (hwf : ∀ f ∈ gs, WellFormed f) :
    afterReady t (lastReady (fs ++ gs)) = afterReady (afterReady t (lastReady fs)) (lastReady gs) := by
  rw [lastReady_append]
  cases hgs : lastReady gs with
  | none => rfl
  | some st =>
    obtain ⟨u, rfl⟩ := lastReady_status hwf hgs
    simp only [Option.some_or, afterReady, TransactionState.updateFromReadyForQuery_status]

theorem trackRead_encodeAll (t : TransactionState) {fs : List Frame}
    (hwf : ∀ f ∈ fs, WellFormed f) :
    trackRead t (encodeAll fs) = .ok (afterReady t (lastReady fs)) := by
  rw [trackRead, extractReadyForQuery_whole .wrapping hwf]
  rfl

/-- Along aligned reads the tracker follows the last ReadyForQuery. -/
theorem foldlM_trackRead_aligned (t : TransactionState) {parts : List (List Frame)}
    (hwf : ∀ f ∈ parts.flatten, WellFormed f) :
    (parts.map encodeAll).foldlM trackRead t = .ok (afterReady t (lastReady parts.flatten)) := by
  induction parts generalizing t with
  | nil => rfl
  | cons part parts ih =>
    have hpart : ∀ f ∈ part, WellFormed f := fun f hf => hwf f (by simp [hf])
    have hrest : ∀ f ∈ parts.flatten, WellFormed f := fun f hf =>
      hwf f (List.mem_append_right part hf)
    rw [List.map_cons, List.foldlM_cons, trackRead_encodeAll t hpart, Rust.ok_bind,
      ih _ hrest, List.flatten_cons, afterReady_lastReady_append t hrest]

/-- When every read starts at a message boundary, the tracker follows the stream. -/
theorem tracksStream_of_aligned {fs : List Frame} {reads : List (List UInt8)} (hcut : Cut fs reads)
    (haligned : Aligned fs reads) : TracksStream fs reads := by
  obtain ⟨parts, rfl, rfl⟩ := haligned
  have hfinal := foldlM_trackRead_aligned .idle hcut.wellFormed
  refine ⟨hfinal, fun cfg conn inputs effects r hreads hrun => ?_, ?_⟩
  · have htrack := run_txnTracker hrun
    rw [hreads] at htrack
    exact Except.ok.inj (htrack.symm.trans hfinal)
  intro before data after pos st hreads hscan
  -- the read in question is one of the aligned parts
  obtain ⟨front, back, rfl, rfl, hback⟩ := List.map_eq_append_iff.1 hreads
  obtain ⟨part, back, rfl, rfl, rfl⟩ := List.map_eq_cons_iff.1 hback
  have hpart : ∀ f ∈ part ++ [], WellFormed f := fun f hf => hcut.wellFormed f (by simp_all)
  have hat := readyScan_encodeAll .wrapping hpart rfl
  rw [List.append_nil, hscan] at hat
  obtain ⟨done, f, todo, rfl, hst, rfl⟩ := lastReadyAt_eq_some (Except.ok.inj hat).symm
  refine ⟨front.flatten ++ done, f, todo ++ back.flatten, by simp, hst, ?_⟩
  rw [Frame.encodeAll_append, List.length_append, Frame.encodeAll_flatten, Nat.zero_add]

/-- BEGIN answered in two reads, cut between the messages: the tracker sees the transaction. -/
theorem tracksStream_begin :
    TracksStream [⟨msgCommandComplete, asciiBytes "BEGIN" ++ [0]⟩, readyFrame .inTransaction]
      [encodeAll [⟨msgCommandComplete, asciiBytes "BEGIN" ++ [0]⟩],
        encodeAll [readyFrame .inTransaction]] := by
  refine tracksStream_of_aligned ⟨?_, by decide, rfl⟩
    ⟨[[⟨msgCommandComplete, asciiBytes "BEGIN" ++ [0]⟩], [readyFrame .inTransaction]], rfl, rfl⟩
  intro f hf
  simp only [List.mem_cons, List.not_mem_nil, or_false] at hf
  rcases hf with rfl | rfl
  · exact ⟨by decide, fun htag => absurd htag (by decide)⟩
  · exact wellFormed_readyFrame .inTransaction

/-- A ReadyForQuery that two reads share is never seen, wherever it is cut. -/
theorem split_ready_missed (t u : TransactionState) {front back : List UInt8} (hfront : front ≠ [])
    (hback : back ≠ []) (h : front ++ back = (readyFrame u).encode) :
    [front, back].foldlM trackRead t = .ok t := by
  -- a ReadyForQuery has six bytes, so there are five places to cut it
  have hpieces : ∀ n < 6, 0 < n → extractReadyForQuery .wrapping ((readyFrame u).encode.take n) =
      .ok none ∧ extractReadyForQuery .wrapping ((readyFrame u).encode.drop n) = .ok none := by
    cases u <;> decide
  have hlen : front.length + back.length = 6 := by
    have := congrArg List.length h
    simpa [readyFrame] using this
  have hpos := List.length_pos_of_ne_nil hfront
  have hpos' := List.length_pos_of_ne_nil hback
  obtain ⟨hf, hb⟩ := hpieces front.length (by omega) hpos
  rw [← h, List.take_left] at hf
  rw [← h, List.drop_left] at hb
  simp [List.foldlM, trackRead, hf, hb, Except.map, afterReady]

/-- A ReadyForQuery that reports a transaction, cut in the middle: the tracker stays idle. -/
theorem split_ready_untracked :
    Cut [readyFrame .inTransaction] [[90, 0, 0], [0, 5, 84]] ∧
      ¬ TracksStream [readyFrame .inTransaction] [[90, 0, 0], [0, 5, 84]] := by
  refine ⟨⟨?_, by decide, by decide⟩, fun h => ?_⟩
  · simpa using wellFormed_readyFrame .inTransaction
  · have hfinal := h.final
    rw [split_ready_missed .idle .inTransaction (by decide) (by decide) (by decide)] at hfinal
    revert hfinal
    decide

end ScryProxy
