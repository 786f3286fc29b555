import ScryProxy.Spec.RecycleResync
import ScryProxy.Spec.TransactionTracking

/-!
# The outcome of a reset

`reset_connection` decides from the status byte of the ReadyForQuery alone.  It accepts a
response exactly if the read that completes the first ReadyForQuery ends with an idle one and
the response had not outgrown its bound before (`reset_returns`); what the other messages say
plays no part, so a DISCARD ALL that failed outside a transaction is accepted like one that
succeeded (`failed_discard_accepted`).
-/

namespace ScryProxy

open Frame (encodeAll)

/-- The response says that DISCARD ALL was carried out. -/
def Discarded (fs : List Frame) : Prop :=
  (∃ f ∈ fs, f.tag = msgCommandComplete) ∧ ∀ f ∈ fs, f.tag ≠ msgErrorResponse

instance (fs : List Frame) : Decidable (Discarded fs) := inferInstanceAs (Decidable (_ ∧ _))

/-- `reset_connection` on a response that arrives in the given reads. -/
def resetOn (reads : List (List UInt8)) : Rust Answer :=
  resetConnection .wrapping ⟨true, reads.map .data⟩

/-- A reset that succeeds has discarded the session state. -/
def ResetSound (fs : List Frame) (reads : List (List UInt8)) : Prop :=
  ∀ answer, resetOn reads = .ok answer → answer.ok = true → Discarded fs

/-- A backend that `recycle` accepts after a passed health check has discarded its session state. -/
def RecycleSound (fs : List Frame) (reads : List (List UInt8)) : Prop :=
  ∀ health ping, healthCheck .wrapping health = .ok ping → ping.ok = true →
    recycle .wrapping ⟨health, ⟨true, reads.map .data⟩⟩ = .ok true → Discarded fs

/-- Status of the last ReadyForQuery that is all there. -/
def shownStatus (bytes : List UInt8) : Option UInt8 := lastReady (Frame.split bytes).1

/-- Behind `buffer`, some read ends with an idle ReadyForQuery, and no read before it completed one
    or made the response too long. -/
def Accepted (buffer : List UInt8) (reads : List (List UInt8)) : Prop :=
  ∃ before read after, reads = before ++ read :: after ∧
    shownStatus (buffer ++ before.flatten ++ read) = some TransactionState.idle.status ∧
    ∀ early, early ≠ [] → early <+: before → shownStatus (buffer ++ early.flatten) = none ∧
      (buffer ++ early.flatten).length ≤ maxResponseBuffer

/-! ## The scan of a growing response -/

variable {fs : List Frame} {bytes : List UInt8}

/-- Of the front of a response, the scan finds the last ReadyForQuery that is all there. -/
theorem scan_front (hwf : ∀ f ∈ fs, WellFormed f) (h : bytes <+: encodeAll fs) :
    extractReadyForQuery .wrapping bytes = .ok (shownStatus bytes) := by
  obtain ⟨done, todo, rest, rfl, rfl, hrest⟩ := Frame.prefix_encodeAll h
  rw [extractReadyForQuery_encodeAll .wrapping hwf hrest, shownStatus,
    Frame.split_encodeAll (fun f hf => (hwf f hf).short) hrest]

/-- Where no message is a ReadyForQuery, none shows. -/
theorem shownStatus_none (hwf : ∀ f ∈ fs, WellFormed f) (hne : ∀ f ∈ fs, f.tag ≠ msgReadyForQuery)
    (h : bytes <+: encodeAll fs) : shownStatus bytes = none := by
  obtain ⟨done, todo, rest, rfl, rfl, hrest⟩ := Frame.prefix_encodeAll h
  rw [shownStatus, Frame.split_encodeAll (fun f hf => (hwf f hf).short) hrest]
  exact lastReady_of_ne fun f hf => hne f (List.mem_append_left todo hf)

theorem accepted_nil (buffer : List UInt8) : ¬ Accepted buffer [] := by
  rintro ⟨before, read, after, hreads, -⟩
  simp at hreads

/-- The first read decides, or leaves the decision to those after it. -/
theorem accepted_cons (buffer read : List UInt8) (reads : List (List UInt8)) :
    Accepted buffer (read :: reads) ↔
      shownStatus (buffer ++ read) = some TransactionState.idle.status ∨
      shownStatus (buffer ++ read) = none ∧ (buffer ++ read).length ≤ maxResponseBuffer ∧
        Accepted (buffer ++ read) reads := by
  constructor
  · rintro ⟨before, read', after, hreads, hidle, hearly⟩
    cases before with
    | nil =>
      cases hreads
      exact .inl (by simpa using hidle)
    | cons first before =>
      cases hreads
      have hfirst := hearly [read] (by simp) (by simp)
      simp only [List.flatten_cons, List.flatten_nil, List.append_nil] at hfirst
      refine .inr ⟨hfirst.1, hfirst.2, before, read', after, rfl, by simpa using hidle, ?_⟩
      intro early _ hpre
      simpa using hearly (read :: early) (by simp) (List.cons_prefix_cons.2 ⟨rfl, hpre⟩)
  · rintro (hidle | ⟨hnone, hlen, before, read', after, rfl, hidle, hearly⟩)
    · exact ⟨[], read, reads, rfl, by simpa using hidle, fun early hne hpre =>
        absurd (List.prefix_nil.1 hpre) hne⟩
    · refine ⟨read :: before, read', after, rfl, by simpa using hidle, ?_⟩
      intro early hne hpre
      cases early with
      | nil => exact absurd rfl hne
      | cons first early =>
        obtain ⟨rfl, hrest⟩ := List.cons_prefix_cons.1 hpre
        rw [List.flatten_cons, ← List.append_assoc]
        by_cases hnil : early = []
        · rw [hnil, List.flatten_nil, List.append_nil]
          exact ⟨hnone, hlen⟩
        · exact hearly early hnil hrest

variable {reads : List (List UInt8)}

/-- Reading on from a part of the response returns, and says whether it is accepted. -/
theorem readUntil_returns (hwf : ∀ f ∈ fs, WellFormed f) {buffer : List UInt8}
    (h : buffer ++ reads.flatten <+: encodeAll fs) :
    ∃ ok taken, readUntilReadyForQuery .wrapping buffer (reads.map .data) = .ok (ok, taken) ∧
      (ok = true ↔ Accepted buffer reads) := by
  induction reads generalizing buffer with
  | nil => exact ⟨false, buffer, rfl, by simp [accepted_nil]⟩
  | cons read reads ih =>
    have hrest : buffer ++ read ++ reads.flatten <+: encodeAll fs := by simpa using h
    have hscan := scan_front hwf ((List.prefix_append _ _).trans hrest)
    rw [List.map_cons, readUntilReadyForQuery, hscan, accepted_cons]
    cases hstatus : shownStatus (buffer ++ read) with
    | some status =>
      refine ⟨status == 'I'.toUInt8, buffer ++ read, rfl, ?_⟩
      simp [TransactionState.status]
    | none =>
      obtain ⟨e, he⟩ := extractError_returns (buffer ++ read)
      simp only [Rust.ok_bind, he]
      by_cases hlong : maxResponseBuffer < (buffer ++ read).length
      · refine ⟨false, buffer ++ read, by rw [if_pos hlong]; rfl, ?_⟩
        simp only [reduceCtorEq, false_or, true_and, Bool.false_eq_true, false_iff]
        exact fun h => absurd h.1 (Nat.not_le.2 hlong)
      · obtain ⟨ok, taken, hread, hiff⟩ := ih hrest
        refine ⟨ok, taken, by rw [if_neg hlong]; exact hread, ?_⟩
        simp only [reduceCtorEq, false_or, true_and, hiff]
        exact ⟨fun h => ⟨Nat.not_lt.1 hlong, h⟩, fun h => h.2⟩

/-- A reset returns, and it succeeds exactly if the response is accepted. -/
theorem reset_returns (hcut : Cut fs reads) :
    ∃ answer, resetOn reads = .ok answer ∧ (answer.ok = true ↔ Accepted [] reads) := by
  have hall : [] ++ reads.flatten <+: encodeAll fs := by simp [hcut.flatten]
  obtain ⟨ok, taken, hread, hiff⟩ := readUntil_returns hcut.wellFormed hall
  exact ⟨⟨resetMessage, ok, taken⟩, by simp [resetOn, resetConnection, exchange, hread], hiff⟩

/-! ## Responses with one ReadyForQuery -/

/-- Where only the last message is a ReadyForQuery, it shows with the last byte. -/
theorem shownStatus_front {body : List Frame} {t : TransactionState}
    (hwf : ∀ f ∈ body ++ [readyFrame t], WellFormed f) (hne : ∀ f ∈ body, f.tag ≠ msgReadyForQuery)
    (h : bytes <+: encodeAll (body ++ [readyFrame t])) :
    shownStatus bytes = if bytes = encodeAll (body ++ [readyFrame t]) then some t.status else none := by
  obtain ⟨done, todo, rest, hsplit, rfl, hrest⟩ := Frame.prefix_encodeAll h
  have hlen : ∀ f ∈ done ++ todo, f.len < 2 ^ 31 := fun f hf => (hwf f (hsplit ▸ hf)).short
  rw [shownStatus, Frame.split_encodeAll hlen hrest]
  cases todo with
  | nil =>
    cases hrest
    rw [List.append_nil] at hsplit
    rw [← hsplit, List.append_nil, if_pos rfl, lastReady_append]
    rfl
  | cons f todo =>
    have hless : encodeAll done ++ rest ≠ encodeAll (body ++ [readyFrame t]) := by
      rw [hsplit]
      intro heq
      have hlength := congrArg List.length heq
      have hlt := hrest.2
      simp only [List.length_append, Frame.encodeAll_append, Frame.encodeAll_cons] at hlength
      omega
    rw [if_neg hless, lastReady_front hne hsplit.symm (List.cons_ne_nil f todo)]

/-- Then the last status decides, if all but the last read fit the response bound. -/
theorem accepted_iff {body : List Frame} {t : TransactionState}
    (hcut : Cut (body ++ [readyFrame t]) reads) (hne : ∀ f ∈ body, f.tag ≠ msgReadyForQuery) :
    Accepted [] reads ↔ t = .idle ∧ reads.dropLast.flatten.length ≤ maxResponseBuffer := by
  have hstatus : ∀ front back, front ++ back = reads → shownStatus front.flatten =
      if back = [] then some t.status else none := by
    intro front back hreads
    have hwhole : front.flatten ++ back.flatten = encodeAll (body ++ [readyFrame t]) := by
      rw [← hcut.flatten, ← hreads, List.flatten_append]
    rw [shownStatus_front hcut.wellFormed hne ⟨_, hwhole⟩]
    cases back with
    | nil => simp [← hwhole]
    | cons read back =>
      have hread : read ≠ [] := hcut.nonempty read (by simp [← hreads])
      have hless : front.flatten ≠ encodeAll (body ++ [readyFrame t]) := by
        rw [← hwhole]
        simp [hread]
      rw [if_neg hless, if_neg (List.cons_ne_nil read back)]
  constructor
  · rintro ⟨before, read, after, hreads, hidle, hearly⟩
    have hshown := hstatus (before ++ [read]) after (by simp [hreads])
    simp only [List.flatten_append, List.flatten_singleton] at hshown
    rw [List.nil_append, hshown] at hidle
    by_cases hafter : after = []
    · rw [if_pos hafter, Option.some.injEq] at hidle
      subst hafter
      refine ⟨TransactionState.status_injective hidle, ?_⟩
      rw [hreads, List.dropLast_concat]
      by_cases hbefore : before = []
      · simp [hbefore]
      · simpa using (hearly before hbefore (List.prefix_refl before)).2
    · simp [hafter] at hidle
  · rintro ⟨rfl, hlen⟩
    have hnil : reads ≠ [] := by
      rintro rfl
      have hempty := congrArg List.length hcut.flatten
      simp [Frame.encodeAll_append, Frame.length_encode] at hempty
    have hlast := List.dropLast_append_getLast hnil
    refine ⟨reads.dropLast, reads.getLast hnil, [], hlast.symm, ?_, ?_⟩
    · have hshown := hstatus reads [] (List.append_nil reads)
      rw [if_pos rfl, ← hlast] at hshown
      simpa using hshown
    · rintro early - ⟨back, hback⟩
      have hshown := hstatus early (back ++ [reads.getLast hnil]) (by
        rw [← List.append_assoc, hback, hlast])
      rw [if_neg (by simp)] at hshown
      refine ⟨hshown, ?_⟩
      rw [← hback, List.flatten_append, List.length_append] at hlen
      simp only [List.nil_append]
      omega

/-- Where the health check before it passes, `recycle` answers as the reset does. -/
theorem recycle_of_healthy {health : Exchange} {ping answer : Answer}
    (hhealth : healthCheck .wrapping health = .ok ping) (hok : ping.ok = true)
    (hreset : resetOn reads = .ok answer) :
    recycle .wrapping ⟨health, ⟨true, reads.map .data⟩⟩ = .ok answer.ok := by
  simp only [recycle, hhealth, Rust.ok_bind, hok, if_true]
  rw [resetOn] at hreset
  rw [hreset]
  rfl

/-- A reset is sound on a response, and keeps `recycle` sound, exactly if the response is not
    accepted or is that of a DISCARD ALL that was carried out.  With one ReadyForQuery, at its
    end, the response is accepted if that is idle, whatever comes before it. -/
theorem resetSound_iff {body : List Frame} {t : TransactionState} {reads : List (List UInt8)}
    (hcut : Cut (body ++ [readyFrame t]) reads) :
    (ResetSound (body ++ [readyFrame t]) reads ↔
      (Accepted [] reads → Discarded (body ++ [readyFrame t]))) ∧
    (RecycleSound (body ++ [readyFrame t]) reads ↔
      (Accepted [] reads → Discarded (body ++ [readyFrame t]))) ∧
    ((∀ f ∈ body, f.tag ≠ msgReadyForQuery) →
      (Accepted [] reads ↔ t = .idle ∧ reads.dropLast.flatten.length ≤ maxResponseBuffer)) := by
  obtain ⟨answer, hanswer, hiff⟩ := reset_returns hcut
  rw [← hiff]
  refine ⟨?_, ?_, fun hne => hiff.trans (accepted_iff hcut hne)⟩
  · refine ⟨fun h hok => h answer hanswer hok, fun h answer' hanswer' hok => ?_⟩
    rw [hanswer] at hanswer'
    cases hanswer'
    exact h hok
  · refine ⟨fun h hok => ?_, fun h health ping hhealth hping hrecycle => ?_⟩
    · -- a health check answered by an idle ReadyForQuery passes
      have hping : healthCheck .wrapping ⟨true, [.data (encodeAll [readyFrame .idle])]⟩ =
          .ok ⟨healthCheckMessage, true, encodeAll [readyFrame .idle]⟩ := by decide
      refine h _ _ hping rfl ?_
      rw [recycle_of_healthy hping rfl hanswer, hok]
    · rw [recycle_of_healthy hhealth hping hanswer] at hrecycle
      exact h (Except.ok.inj hrecycle)

/-- A DISCARD ALL that was carried out, its answer cut inside the ReadyForQuery. -/
theorem resetSound_discarded :
    ∃ reads, Cut [⟨msgCommandComplete, asciiBytes "DISCARD ALL" ++ [0]⟩, readyFrame .idle] reads ∧
      reads.length = 2 ∧ resetOn reads = .ok ⟨resetMessage, true, reads.flatten⟩ ∧
      ResetSound [⟨msgCommandComplete, asciiBytes "DISCARD ALL" ++ [0]⟩, readyFrame .idle] reads := by
  let body : List Frame := [⟨msgCommandComplete, asciiBytes "DISCARD ALL" ++ [0]⟩]
  let whole := encodeAll (body ++ [readyFrame .idle])
  have hcut : Cut (body ++ [readyFrame .idle]) [whole.take 20, whole.drop 20] :=
    ⟨(cycle_pair (by decide) (by decide)).wellFormed, by decide, by decide⟩
  refine ⟨_, hcut, rfl, by decide, ?_⟩
  exact (resetSound_iff hcut).1.2 fun _ => by decide

/-- DISCARD ALL answered by an error, outside a transaction: the reset succeeds and the connection
    is recycled. -/
theorem failed_discard_accepted :
    Cut [⟨msgErrorResponse, asciiBytes "SERROR" ++ [0, 0]⟩, readyFrame .idle]
      [encodeAll [⟨msgErrorResponse, asciiBytes "SERROR" ++ [0, 0]⟩, readyFrame .idle]] ∧
    ¬ ResetSound [⟨msgErrorResponse, asciiBytes "SERROR" ++ [0, 0]⟩, readyFrame .idle]
      [encodeAll [⟨msgErrorResponse, asciiBytes "SERROR" ++ [0, 0]⟩, readyFrame .idle]] ∧
    ¬ RecycleSound [⟨msgErrorResponse, asciiBytes "SERROR" ++ [0, 0]⟩, readyFrame .idle]
      [encodeAll [⟨msgErrorResponse, asciiBytes "SERROR" ++ [0, 0]⟩, readyFrame .idle]] := by
  let response : List Frame := [⟨msgErrorResponse, asciiBytes "SERROR" ++ [0, 0]⟩, readyFrame .idle]
  have hreset : resetOn [encodeAll response] =
      .ok ⟨resetMessage, true, encodeAll response⟩ := by decide
  have hhealth : healthCheck .wrapping ⟨true, [.data (encodeAll [readyFrame .idle])]⟩ =
      .ok ⟨healthCheckMessage, true, encodeAll [readyFrame .idle]⟩ := by decide
  have hfailed : ¬ Discarded response := by decide
  refine ⟨⟨?_, by decide, by decide⟩, fun h => ?_, fun h => ?_⟩
  · exact (cycle_pair (by decide) (by decide)).wellFormed
  · exact hfailed (h _ hreset rfl)
  · exact hfailed (h _ _ hhealth rfl (recycle_of_healthy hhealth rfl hreset))

end ScryProxy
