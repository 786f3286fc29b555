import ScryProxy.Native.ModeEnforcer
import ScryProxy.Native.Extractor

/-!
# Scanning a backend stream

A backend stream is a sequence of well-formed messages.  A scan for ReadyForQuery that
starts at a message boundary finds the last ReadyForQuery that is completely there
(`extractReadyForQuery_encodeAll`), and finds it where it stands (`readyScan_encodeAll`).
Nothing is promised of a scan that starts inside a message.
-/

namespace ScryProxy

open Rust (Overflow)
open Frame (encodeAll)

/-- The status byte, if the message is a ReadyForQuery. -/
def readyStatus (f : Frame) : Option UInt8 :=
  if f.tag = msgReadyForQuery then f.payload.head? else none

/-- A message as a backend sends it: its length fits, and a ReadyForQuery holds one of the three
    status bytes and nothing else. -/
structure WellFormed (f : Frame) : Prop where
  short : f.len < 2 ^ 31
  ready : f.tag = msgReadyForQuery → ∃ t : TransactionState, f.payload = [t.status]

/-- Offset and status of the last ReadyForQuery of messages that start at `base`. -/
def lastReadyAt (base : Nat) : List Frame → Option (Nat × UInt8)
  | [] => none
  | f :: fs => (lastReadyAt (base + f.encode.length) fs).or ((readyStatus f).map (base, ·))

/-- Status of the last ReadyForQuery. -/
def lastReady : List Frame → Option UInt8
  | [] => none
  | f :: fs => (lastReady fs).or (readyStatus f)

theorem lastReadyAt_status (base : Nat) (fs : List Frame) :
    (lastReadyAt base fs).map Prod.snd = lastReady fs := by
  induction fs generalizing base with
  | nil => rfl
  | cons f fs ih =>
    rw [lastReadyAt, lastReady, ← ih (base + f.encode.length)]
    cases lastReadyAt (base + f.encode.length) fs with
    | some r => rfl
    | none => cases readyStatus f <;> rfl

theorem lastReady_append (fs gs : List Frame) :
    lastReady (fs ++ gs) = (lastReady gs).or (lastReady fs) := by
  induction fs with
  | nil => simp [lastReady]
  | cons f fs ih => rw [List.cons_append, lastReady, ih, lastReady, Option.or_assoc]

variable {fs : List Frame}

/-- In a well-formed stream the last status is one of the three. -/
theorem lastReady_status (hwf : ∀ f ∈ fs, WellFormed f) {st : UInt8} (h : lastReady fs = some st) :
    ∃ t : TransactionState, st = t.status := by
  induction fs with
  | nil => cases h
  | cons f fs ih =>
    -- the status comes from a later message, or from this one
    rcases Option.or_eq_some_iff.1 h with h | ⟨-, h⟩
    · exact ih (fun g hg => hwf g (List.mem_cons_of_mem f hg)) h
    · unfold readyStatus at h
      split at h
      · next htag =>
        obtain ⟨t, ht⟩ := (hwf f List.mem_cons_self).ready htag
        rw [ht] at h
        exact ⟨t, (Option.some.inj h).symm⟩
      · cases h

/-- What `lastReadyAt` finds is the start of a ReadyForQuery among the messages. -/
theorem lastReadyAt_eq_some {base pos : Nat} {st : UInt8} (h : lastReadyAt base fs = some (pos, st)) :
    ∃ before f after, fs = before ++ f :: after ∧ readyStatus f = some st ∧
      pos = base + (encodeAll before).length := by
  induction fs generalizing base with
  | nil => cases h
  | cons f fs ih =>
    rcases Option.or_eq_some_iff.1 h with h | ⟨-, h⟩
    · obtain ⟨before, g, after, rfl, hst, rfl⟩ := ih h
      exact ⟨f :: before, g, after, rfl, hst, by simp [Nat.add_assoc]⟩
    -- no later message has one, so this message is it
    · obtain ⟨st', hst, hpos⟩ := Option.map_eq_some_iff.1 h
      obtain ⟨rfl, rfl⟩ := Prod.mk.inj hpos
      exact ⟨[], f, fs, rfl, hst, rfl⟩

/-! ## The scan with offsets -/

/-- `readyLoop`, keeping the offset at which the status was found. -/
def readyLoopAt (ov : Overflow) (data : List UInt8) :
    Nat → Nat → Option (Nat × UInt8) → Rust (Option (Nat × UInt8))
  | 0, _, _ => .error .diverge
  | fuel + 1, offset, last =>
    match data.drop offset with
    | t :: b₀ :: b₁ :: b₂ :: b₃ :: rest =>
      let last := if t = msgReadyForQuery then (rest.head?.map (offset, ·)).or last else last
      let length := BigEndian.i32 b₀ b₁ b₂ b₃
      if 0 ≤ length ∧ length < 4 then .ok last
      else do
        let next ← Rust.offsetAdd ov (offset + 1) length
        if data.length < next then .ok last
        else readyLoopAt ov data fuel next last
    | _ => .ok last

/-- The scan of one read, with the offset of the status it returns. -/
def readyScan (ov : Overflow) (data : List UInt8) : Rust (Option (Nat × UInt8)) :=
  readyLoopAt ov data (data.length + 1) 0 none

theorem readyLoop_eq (ov : Overflow) (data : List UInt8) (fuel offset : Nat)
    (last : Option (Nat × UInt8)) :
    readyLoop ov data fuel offset (last.map Prod.snd) =
      (readyLoopAt ov data fuel offset last).map (Option.map Prod.snd) := by
  induction fuel generalizing offset last with
  | zero => rfl
  | succ fuel ih =>
    match hd : data.drop offset with
    | [] | [_] | [_, _] | [_, _, _] | [_, _, _, _] => simp [readyLoop, readyLoopAt, hd, Except.map]
    | t :: b₀ :: b₁ :: b₂ :: b₃ :: rest =>
      -- both loops update the status in the same way
      have hlast : (if t = msgReadyForQuery then rest.head?.or (last.map Prod.snd)
          else last.map Prod.snd) =
          (if t = msgReadyForQuery then (rest.head?.map (offset, ·)).or last else last).map
            Prod.snd := by
        split
        · cases rest.head? <;> rfl
        · rfl
      simp only [readyLoop, readyLoopAt, hd, hlast]
      split
      · rfl
      · cases Rust.offsetAdd ov (offset + 1) (BigEndian.i32 b₀ b₁ b₂ b₃) with
        | error e => rfl
        | ok next =>
          simp only [Rust.ok_bind]
          split
          · rfl
          · exact ih next _

/-- `extract_ready_for_query` is the scan without the offset. -/
theorem extractReadyForQuery_eq (ov : Overflow) (data : List UInt8) :
    extractReadyForQuery ov data = (readyScan ov data).map (Option.map Prod.snd) :=
  readyLoop_eq ov data (data.length + 1) 0 none

/-! ## Scans that start at a message boundary -/

variable {rest : List UInt8} {todo : List Frame}

/-- The scan stops at the message that is not all there. -/
theorem readyLoopAt_rest (ov : Overflow) (front : List UInt8) (hwf : ∀ f ∈ todo, WellFormed f)
    (hrest : Frame.Partial rest todo) (fuel : Nat) (last : Option (Nat × UInt8)) :
    readyLoopAt ov (front ++ rest) (fuel + 1) front.length last = .ok last := by
  have hd : (front ++ rest).drop front.length = rest := by simp
  match rest with
  | [] | [_] | [_, _] | [_, _, _] | [_, _, _, _] => simp [readyLoopAt, hd]
  | t :: b₀ :: b₁ :: b₂ :: b₃ :: body =>
    cases todo with
    | nil => cases hrest
    | cons f todo =>
      obtain ⟨hfront, hlt⟩ := hrest
      have hf := hwf f (by simp)
      obtain ⟨rfl, hlen, hbody⟩ := Frame.header_of_front hfront hf.short
      have hshort : body.length < f.payload.length := by
        simp only [List.length_cons, Frame.length_encode] at hlt
        omega
      -- a ReadyForQuery cut short has no byte after its header
      have hlast : (if f.tag = msgReadyForQuery then
          (body.head?.map (front.length, ·)).or last else last) = last := by
        split
        · next htag =>
          obtain ⟨st, hst⟩ := hf.ready htag
          rw [hst] at hshort
          have hnil : body = [] := List.length_eq_zero_iff.1 (by simpa using hshort)
          simp [hnil]
        · rfl
      -- the announced end is behind the data, so the scan stops
      simp only [readyLoopAt, hd, hlast, hlen, Frame.not_len_lt_four, if_false,
        Rust.offsetAdd_ofNat, Rust.ok_bind, Frame.lt_offset_behind front hlt, if_true]

/-- From a message boundary the scan finds the last ReadyForQuery that is all there. -/
theorem readyLoopAt_encodeAll (ov : Overflow) (front : List UInt8) (fs : List Frame)
    (hwf : ∀ f ∈ fs ++ todo, WellFormed f) (hrest : Frame.Partial rest todo) {fuel : Nat}
    (hfuel : fs.length < fuel) (last : Option (Nat × UInt8)) :
    readyLoopAt ov (front ++ (encodeAll fs ++ rest)) fuel front.length last =
      .ok ((lastReadyAt front.length fs).or last) := by
  induction fs generalizing front fuel last with
  | nil =>
    obtain ⟨fuel, rfl⟩ := Nat.exists_eq_succ_of_ne_zero (Nat.ne_of_gt hfuel)
    exact readyLoopAt_rest ov front hwf hrest fuel last
  | cons f fs ih =>
    obtain ⟨fuel, rfl⟩ := Nat.exists_eq_succ_of_ne_zero (Nat.ne_of_gt (Nat.zero_lt_of_lt hfuel))
    have hf := hwf f (by simp)
    have hlast : (if f.tag = msgReadyForQuery then
        ((f.payload ++ (encodeAll fs ++ rest)).head?.map (front.length, ·)).or last else last) =
        ((readyStatus f).map (front.length, ·)).or last := by
      unfold readyStatus
      split
      · next htag =>
        obtain ⟨st, hst⟩ := hf.ready htag
        simp [hst]
      · rfl
    -- the message is all there, so the scan goes on behind it
    rw [Frame.append_encodeAll_cons]
    simp only [readyLoopAt, Frame.drop_frame, hlast, BigEndian.i32_bytes32 hf.short,
      Frame.not_len_lt_four, if_false, Rust.offsetAdd_ofNat, Rust.ok_bind,
      Frame.not_lt_offset_behind]
    rw [Frame.offset_behind, ih (front ++ f.encode) (fun g hg => hwf g (by simp_all))
      (by simpa using hfuel), lastReadyAt, List.length_append, Option.or_assoc]

/-- The scan of a read that starts at a message boundary, with offsets. -/
theorem readyScan_encodeAll (ov : Overflow) (hwf : ∀ f ∈ fs ++ todo, WellFormed f)
    (hrest : Frame.Partial rest todo) :
    readyScan ov (encodeAll fs ++ rest) = .ok (lastReadyAt 0 fs) := by
  have hfuel : fs.length < (encodeAll fs ++ rest).length + 1 := by
    have hle := Frame.length_le_encodeAll fs
    rw [List.length_append]
    omega
  simpa [readyScan] using readyLoopAt_encodeAll ov [] fs hwf hrest hfuel none

/-- `extract_ready_for_query` on a read that starts at a message boundary. -/
theorem extractReadyForQuery_encodeAll (ov : Overflow) (hwf : ∀ f ∈ fs ++ todo, WellFormed f)
    (hrest : Frame.Partial rest todo) :
    extractReadyForQuery ov (encodeAll fs ++ rest) = .ok (lastReady fs) := by
  rw [extractReadyForQuery_eq, readyScan_encodeAll ov hwf hrest, ← lastReadyAt_status 0 fs]
  rfl

/-- The same for a read of whole messages. -/
theorem extractReadyForQuery_whole (ov : Overflow) (hwf : ∀ f ∈ fs, WellFormed f) :
    extractReadyForQuery ov (encodeAll fs) = .ok (lastReady fs) := by
  have hscan := @extractReadyForQuery_encodeAll fs [] [] ov (by simpa using hwf) rfl
  rwa [List.append_nil] at hscan

/-! ## The scans behind the events -/

/-- The tags by which `is_query_complete` knows that a query is done. -/
def endsQuery (tag : UInt8) : Bool := tag = msgCommandComplete ∨ tag = msgReadyForQuery

/-- The tag of a header that is all there. -/
def headerTag : List UInt8 → Option UInt8
  | t :: _ :: _ :: _ :: _ :: _ => some t
  | _ => none

/-- `is_query_complete` needs of the last message only its header. -/
theorem completeLoop_rest (ov : Overflow) (front : List UInt8) (hlen : ∀ f ∈ todo, f.len < 2 ^ 31)
    (hrest : Frame.Partial rest todo) (fuel : Nat) :
    completeLoop ov (front ++ rest) (fuel + 1) front.length =
      .ok ((headerTag rest).any endsQuery) := by
  have hd : (front ++ rest).drop front.length = rest := by simp
  match rest with
  | [] | [_] | [_, _] | [_, _, _] | [_, _, _, _] => simp [completeLoop, hd, headerTag]
  | t :: b₀ :: b₁ :: b₂ :: b₃ :: body =>
    cases todo with
    | nil => cases hrest
    | cons f todo =>
      obtain ⟨hfront, hlt⟩ := hrest
      obtain ⟨rfl, hi32, -⟩ := Frame.header_of_front hfront (hlen f List.mem_cons_self)
      simp only [completeLoop, hd, headerTag, Option.any_some, endsQuery]
      split
      · next hends => simp [hends]
      · next hends =>
        simp only [hi32, Frame.not_len_lt_four, if_false, Rust.offsetAdd_ofNat, Rust.ok_bind,
          Frame.lt_offset_behind front hlt, if_true, hends, decide_false]

theorem completeLoop_encodeAll (ov : Overflow) (front : List UInt8) (fs : List Frame)
    (hlen : ∀ f ∈ fs ++ todo, f.len < 2 ^ 31) (hrest : Frame.Partial rest todo) {fuel : Nat}
    (hfuel : fs.length < fuel) :
    completeLoop ov (front ++ (encodeAll fs ++ rest)) fuel front.length =
      .ok (fs.any (endsQuery ·.tag) || (headerTag rest).any endsQuery) := by
  induction fs generalizing front fuel with
  | nil =>
    obtain ⟨fuel, rfl⟩ := Nat.exists_eq_succ_of_ne_zero (Nat.ne_of_gt hfuel)
    exact completeLoop_rest ov front hlen hrest fuel
  | cons f fs ih =>
    obtain ⟨fuel, rfl⟩ := Nat.exists_eq_succ_of_ne_zero (Nat.ne_of_gt (Nat.zero_lt_of_lt hfuel))
    rw [Frame.append_encodeAll_cons]
    simp only [completeLoop, Frame.drop_frame, List.any_cons, endsQuery]
    split
    · next hends => simp [hends]
    · next hends =>
      simp only [BigEndian.i32_bytes32 (hlen f (by simp)), Frame.not_len_lt_four, if_false,
        Rust.offsetAdd_ofNat, Rust.ok_bind, Frame.not_lt_offset_behind, hends, decide_false,
        Bool.false_or]
      rw [Frame.offset_behind]
      exact ih (front ++ f.encode) (fun g hg => hlen g (List.mem_cons_of_mem f hg))
        (by simpa using hfuel)

/-- `is_query_complete` on a read that starts at a message boundary. -/
theorem isQueryComplete_encodeAll (ov : Overflow) (hlen : ∀ f ∈ fs ++ todo, f.len < 2 ^ 31)
    (hrest : Frame.Partial rest todo) :
    isQueryComplete ov (encodeAll fs ++ rest) =
      .ok (fs.any (endsQuery ·.tag) || (headerTag rest).any endsQuery) := by
  have hfuel : fs.length < (encodeAll fs ++ rest).length + 1 := by
    have hle := Frame.length_le_encodeAll fs
    rw [List.length_append]
    omega
  exact completeLoop_encodeAll ov [] fs hlen hrest hfuel

/-- The error that the scan finds in whole messages, before it goes on to `tail`.  A message
    without a payload ends it. -/
def scanErrors (tail : Rust (Option ErrorFields)) : List Frame → Rust (Option ErrorFields)
  | [] => tail
  | f :: fs =>
    if f.tag = msgErrorResponse then .ok (some (parseErrorFields f.payload))
    else if f.payload = [] then .ok none
    else scanErrors tail fs

/-- `find_error_fields` from a message boundary; it takes one round for each message. -/
theorem findErrorLoop_encodeAll (ov : Overflow) (hlen : ∀ f ∈ fs, f.len < 2 ^ 31) (fuel : Nat)
    (rest : List UInt8) :
    findErrorLoop ov (fs.length + fuel) (encodeAll fs ++ rest) =
      scanErrors (findErrorLoop ov fuel rest) fs := by
  induction fs with
  | nil => simp [scanErrors]
  | cons f fs ih =>
    have hsize : (f.len : Int).toNat - 4 = f.payload.length := by
      rw [Int.toNat_natCast, Frame.len, Nat.add_sub_cancel]
    have hthere : f.payload.length ≤ (f.payload ++ (encodeAll fs ++ rest)).length := by simp
    have hfour : (4 : Int) ≤ f.len := by simp only [Frame.len]; omega
    have hmore : (4 : Int) < f.len ↔ f.payload ≠ [] := by
      rw [← List.length_pos_iff, Frame.len]
      omega
    rw [Frame.encodeAll_cons, List.append_assoc, Frame.encode_append, List.length_cons,
      Nat.add_right_comm]
    simp only [findErrorLoop, BigEndian.i32_bytes32 (hlen f List.mem_cons_self), hsize, hthere,
      hfour, hmore, and_true, and_self, if_true, List.take_left, List.drop_left, scanErrors,
      ih fun g hg => hlen g (List.mem_cons_of_mem f hg)]
    split
    · rfl
    · split <;> simp_all

/-- The scan for errors over whole messages. -/
theorem findErrorFields_whole (ov : Overflow) (hlen : ∀ f ∈ fs, f.len < 2 ^ 31) :
    findErrorFields ov (encodeAll fs) = scanErrors (.ok none) fs := by
  have hfuel : ∃ fuel, (encodeAll fs).length = fs.length + fuel :=
    Nat.exists_eq_add_of_le (by have hle := Frame.length_le_encodeAll fs; omega)
  obtain ⟨fuel, hfuel⟩ := hfuel
  have hscan := findErrorLoop_encodeAll ov hlen fuel []
  have htail : findErrorLoop ov fuel [] = .ok none := by cases fuel <;> rfl
  rw [List.append_nil, htail] at hscan
  rw [findErrorFields, hfuel, hscan]

/-- The ReadyForQuery that reports a state. -/
def readyFrame (t : TransactionState) : Frame := ⟨msgReadyForQuery, [t.status]⟩

theorem wellFormed_readyFrame (t : TransactionState) : WellFormed (readyFrame t) :=
  ⟨by simp [readyFrame, Frame.len], fun _ => ⟨t, rfl⟩⟩

end ScryProxy
