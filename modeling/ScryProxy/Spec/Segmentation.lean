import ScryProxy.Spec.FrontendStream

/-!
# Frontend framing does not depend on the segmentation

Every buffer is a number of frames that fit, followed by bytes that start no complete
frame or a refused one (`exists_frames`).  What is taken from a stream in pieces is then
what is taken from the stream as a whole, so the messages do not depend on where the reads
cut the stream (`extractAll_chunks`).
-/

namespace ScryProxy

open Frame (encodeAll)

/-! ## Calls on one extractor -/

/-- Calls of `extract_messages` on one extractor, chunk by chunk: the messages of all calls, and the
    buffer after the last one. -/
def extractAll : List UInt8 → List (List UInt8) → Rust (List Message × List UInt8)
  | buffer, [] => .ok ([], buffer)
  | buffer, data :: chunks => do
    let (messages, buffer) ← extractMessages buffer data
    let (later, buffer) ← extractAll buffer chunks
    return (messages ++ later, buffer)

/-- The frames that the calls take, and the buffer after the last one. -/
def takeAll : List UInt8 → List (List UInt8) → List Frame × List UInt8
  | buffer, [] => ([], buffer)
  | buffer, data :: chunks =>
    let (frames, leftover) := takeFrames (buffer ++ data)
    let (later, buffer) := takeAll leftover.bytes chunks
    (frames ++ later, buffer)

theorem messagesOf_append (fs gs : List Frame) :
    messagesOf (fs ++ gs) =
      messagesOf fs >>= fun ms => (messagesOf gs).map fun ms' => ms ++ ms' := by
  simp only [messagesOf, List.mapM_append]
  cases fs.mapM fun f => parsePayload f.tag f.payload with
  | error e => rfl
  | ok ms =>
    cases gs.mapM fun f => parsePayload f.tag f.payload with
    | error e => rfl
    | ok ms' => simp [Except.map]

theorem extractAll_eq (buffer : List UInt8) (chunks : List (List UInt8)) :
    extractAll buffer chunks =
      (messagesOf (takeAll buffer chunks).1).map fun ms => (ms, (takeAll buffer chunks).2) := by
  induction chunks generalizing buffer with
  | nil => rfl
  | cons data chunks ih =>
    simp only [extractAll, takeAll, extractMessages_eq, ih, messagesOf_append]
    cases messagesOf (takeFrames (buffer ++ data)).1 with
    | error e => rfl
    | ok ms =>
      simp only [Except.map, Rust.ok_bind]
      cases messagesOf (takeAll (takeFrames (buffer ++ data)).2.bytes chunks).1 with
      | error e => rfl
      | ok ms' => rfl

/-! ## Cutting a stream -/

/-- Every buffer is frames that fit, and then bytes that stop the loop. -/
theorem exists_frames (buf : List UInt8) :
    ∃ frames tail, buf = encodeAll frames ++ tail ∧ (∀ f ∈ frames, Fits f) ∧
      (Unfinished tail ∨ RefusedLength tail) := by
  induction hn : buf.length using Nat.strong_induction_on generalizing buf with
  | _ n ih =>
  match buf with
  | [] | [_] | [_, _] | [_, _, _] | [_, _, _, _] => exact ⟨[], _, rfl, by simp, .inl trivial⟩
  | t :: b₀ :: b₁ :: b₂ :: b₃ :: rest =>
    by_cases hrefused : RefusedLength (t :: b₀ :: b₁ :: b₂ :: b₃ :: rest)
    · exact ⟨[], _, rfl, by simp, .inr hrefused⟩
    · unfold RefusedLength at hrefused
      by_cases hcut : rest.length < (BigEndian.i32 b₀ b₁ b₂ b₃).toNat - 4
      · refine ⟨[], _, rfl, by simp, .inl ?_⟩
        unfold Unfinished
        omega
      · -- the first frame is all there, and the rest of the buffer is shorter
        obtain ⟨frames, tail, hrest, hfit, htail⟩ :=
          ih _ (by simp only [← hn, List.length_cons, List.length_drop]; omega)
            (rest.drop ((BigEndian.i32 b₀ b₁ b₂ b₃).toNat - 4)) rfl
        refine ⟨⟨t, rest.take ((BigEndian.i32 b₀ b₁ b₂ b₃).toNat - 4)⟩ :: frames, tail, ?_, ?_, htail⟩
        · rw [Frame.header_eq_encode t (by omega) (Nat.not_lt.1 hcut), hrest]
          simp
        · rw [List.forall_mem_cons]
          refine ⟨?_, hfit⟩
          rw [Fits, Frame.len, List.length_take]
          omega

variable {left : List UInt8}

/-- What one call leaves is unfinished. -/
theorem unfinished_of_takeFrames {buf : List UInt8} {frames : List Frame}
    (h : takeFrames buf = (frames, .retain left)) :
    buf = encodeAll frames ++ left ∧ (∀ f ∈ frames, Fits f) ∧ Unfinished left := by
  obtain ⟨frames', tail, rfl, hfit, htail | htail⟩ := exists_frames buf
  · rw [takeFrames_encodeAll hfit, takeFrames_unfinished htail] at h
    cases h
    simpa using ⟨hfit, htail⟩
  · rw [takeFrames_encodeAll hfit, takeFrames_refused htail] at h
    cases h

/-- A refused length is refused whatever follows. -/
theorem takeFrames_append_framingError {buf : List UInt8}
    (h : (takeFrames buf).2 = .framingError) (bytes : List UInt8) :
    (takeFrames (buf ++ bytes)).2 = .framingError := by
  obtain ⟨frames, tail, rfl, hfit, htail | htail⟩ := exists_frames buf
  · rw [takeFrames_encodeAll hfit, takeFrames_unfinished htail] at h
    cases h
  · rw [List.append_assoc, takeFrames_encodeAll hfit, takeFrames_refused (htail.append bytes)]

variable {buffer : List UInt8} {chunks : List (List UInt8)}

/-- The calls take the frames of the stream, wherever the chunks cut it. -/
theorem takeAll_chunks {frames : List Frame} {rest : List UInt8} (hbuffer : Unfinished buffer)
    (hstream : takeFrames (buffer ++ chunks.flatten) = (frames, .retain rest)) :
    takeAll buffer chunks = (frames, rest) := by
  -- the invariant of the calls: buffer and chunks to come hold the frames still to be taken
  induction chunks generalizing buffer frames with
  | nil =>
    rw [List.flatten_nil, List.append_nil, takeFrames_unfinished hbuffer] at hstream
    cases hstream
    rfl
  | cons data chunks ih =>
    rw [List.flatten_cons, ← List.append_assoc] at hstream
    simp only [takeAll]
    cases htake : takeFrames (buffer ++ data) with
    | mk now leftover =>
      cases leftover with
      | framingError =>
        -- the stream as a whole would have been refused there
        have herror := takeFrames_append_framingError (congrArg Prod.snd htake) chunks.flatten
        rw [hstream] at herror
        cases herror
      | retain left =>
        obtain ⟨hbytes, hfit, hleft⟩ := unfinished_of_takeFrames htake
        rw [hbytes, List.append_assoc, takeFrames_encodeAll hfit, Prod.mk.injEq] at hstream
        rw [Leftover.bytes, ih hleft (Prod.ext rfl hstream.2), ← hstream.1]

/-- A stream of frames that fit, whose payloads are parsed without a panic, followed by the start of
    another frame: the calls on its chunks yield the messages of one call on the whole stream, and
    leave what follows the last complete frame. -/
theorem extractAll_chunks {chunks : List (List UInt8)} {frames : List Frame} {rest : List UInt8}
    (hstream : chunks.flatten = encodeAll frames ++ rest) (hfit : ∀ f ∈ frames, Fits f)
    (hrest : Unfinished rest)
    (hparse : ∀ f ∈ frames, ∃ msg, parsePayload f.tag f.payload = .ok msg) :
    ∃ messages, extractAll [] chunks = .ok (messages, rest) ∧
      extractMessages [] chunks.flatten = .ok (messages, rest) := by
  have htake : takeFrames chunks.flatten = (frames, .retain rest) := by
    rw [hstream, takeFrames_encodeAll hfit, takeFrames_unfinished hrest, List.append_nil]
  obtain ⟨parsed, hparsed⟩ := Rust.mapM_returns hparse
  refine ⟨parsed.flatMap Option.toList, ?_, ?_⟩
  · have hempty : Unfinished [] := trivial
    rw [extractAll_eq, takeAll_chunks hempty htake, messagesOf, hparsed]
    rfl
  · rw [extractMessages_eq, List.nil_append, htake, messagesOf, hparsed]
    rfl

/-- Two Sync frames and the first bytes of a third one, cut inside both headers. -/
theorem extractAll_two_syncs :
    ∃ messages, extractAll [] [[83, 0, 0], [0, 4, 83, 0, 0, 0, 4, 83], [0]] = .ok (messages, [83, 0]) ∧
      extractMessages [] [83, 0, 0, 0, 4, 83, 0, 0, 0, 4, 83, 0] = .ok (messages, [83, 0]) := by
  have hframes : [[83, 0, 0], [0, 4, 83, 0, 0, 0, 4, 83], [0]].flatten =
      encodeAll [⟨83, []⟩, ⟨83, []⟩] ++ [83, 0] := by decide
  have hrest : Unfinished [83, 0] := trivial
  have hsync : parsePayload 83 [] = .ok (some .sync) := rfl
  exact extractAll_chunks hframes (by simp [Fits, Frame.len, maxFrontendMessageSize]) hrest
    (by simp [hsync])

/-! ## What stays in the buffer -/

/-- A buffer that is empty, holds less than a header, or the start of a frame that fits. -/
structure Bounded (buffer : List UInt8) : Prop where
  small : buffer.length < 1 + 64 * 1024 * 1024
  start : buffer = [] ∨ buffer.length < 5 ∨
    ∃ f, Fits f ∧ buffer <+: f.encode ∧ buffer.length < f.encode.length

theorem Unfinished.bounded (h : Unfinished buffer) : Bounded buffer := by
  match buffer with
  | [] | [_] | [_, _] | [_, _, _] | [_, _, _, _] =>
    exact ⟨by simp only [List.length_cons, List.length_nil]; omega, .inr (.inl (by simp))⟩
  | t :: b₀ :: b₁ :: b₂ :: b₃ :: body =>
    obtain ⟨hlo, hhi, hcut⟩ := h
    generalize hn : (BigEndian.i32 b₀ b₁ b₂ b₃).toNat = n at hhi hcut
    have hbytes : BigEndian.bytes32 n = [b₀, b₁, b₂, b₃] := by
      rw [← hn]
      exact BigEndian.bytes32_i32 (by omega)
    -- the frame with the missing bytes filled in
    have hlen : Frame.len ⟨t, body ++ List.replicate (n - 4 - body.length) 0⟩ = n := by
      simp only [Frame.len, List.length_append, List.length_replicate]
      omega
    refine ⟨?_, .inr (.inr ⟨⟨t, body ++ List.replicate (n - 4 - body.length) 0⟩, ?_, ?_, ?_⟩)⟩
    · unfold maxFrontendMessageSize at hhi
      simp only [List.length_cons]
      omega
    · rw [Fits, hlen]
      exact hhi
    · rw [Frame.encode, hlen, hbytes]
      exact ⟨List.replicate (n - 4 - body.length) 0, by simp⟩
    · simp only [Frame.length_encode, List.length_cons, List.length_append, List.length_replicate]
      omega

/-- Every call leaves an unfinished buffer, whatever it is called with. -/
theorem unfinished_after {data : List UInt8} {messages : List Message}
    (h : extractMessages buffer data = .ok (messages, left)) : Unfinished left := by
  rw [extractMessages_eq] at h
  obtain ⟨ms, -, hleft⟩ := Rust.map_returns.1 h
  cases hleft
  cases htake : takeFrames (buffer ++ data) with
  | mk frames leftover =>
    cases leftover with
    | retain bytes => exact (unfinished_of_takeFrames htake).2.2
    | framingError => trivial

theorem unfinished_after_all {messages : List Message} (hbuffer : Unfinished buffer)
    (h : extractAll buffer chunks = .ok (messages, left)) : Unfinished left := by
  induction chunks generalizing buffer messages with
  | nil =>
    cases h
    exact hbuffer
  | cons data chunks ih =>
    obtain ⟨⟨now, middle⟩, hnow, h⟩ := Rust.bind_returns.1 h
    obtain ⟨⟨later, left'⟩, hlater, h⟩ := Rust.bind_returns.1 h
    cases h
    exact ih (unfinished_after hnow) hlater

/-- If no call panics, none of the first calls does. -/
theorem extractAll_take {result : List Message × List UInt8}
    (h : extractAll buffer chunks = .ok result) (n : Nat) :
    ∃ messages left, extractAll buffer (chunks.take n) = .ok (messages, left) := by
  induction chunks generalizing buffer n result with
  | nil => exact ⟨_, _, by rw [List.take_nil]; rfl⟩
  | cons data chunks ih =>
    cases n with
    | zero => exact ⟨_, _, rfl⟩
    | succ n =>
      obtain ⟨⟨now, middle⟩, hnow, h⟩ := Rust.bind_returns.1 h
      obtain ⟨⟨later, left⟩, hlater, -⟩ := Rust.bind_returns.1 h
      obtain ⟨messages, left', hfirst⟩ := ih hlater n
      refine ⟨now ++ messages, left', ?_⟩
      rw [List.take_succ_cons, extractAll, hnow, Rust.ok_bind]
      dsimp only
      rw [hfirst]
      rfl

/-- Whatever the chunks hold: as long as no call panics, after each of them the buffer holds fewer than
    1 + 64 MiB bytes, and these are no header, or a part of one frame of an accepted length. -/
theorem reassembly_buffer_bounded {chunks : List (List UInt8)} {result : List Message × List UInt8}
    (h : extractAll [] chunks = .ok result) (n : Nat) :
    ∃ messages buffer, extractAll [] (chunks.take n) = .ok (messages, buffer) ∧
      buffer.length < 1 + 64 * 1024 * 1024 ∧
      (buffer = [] ∨ buffer.length < 5 ∨
        ∃ f, Fits f ∧ buffer <+: f.encode ∧ buffer.length < f.encode.length) := by
  obtain ⟨messages, buffer, hfirst⟩ := extractAll_take h n
  have hempty : Unfinished [] := trivial
  have hbounded := (unfinished_after_all hempty hfirst).bounded
  exact ⟨messages, buffer, hfirst, hbounded.small, hbounded.start⟩

/-- A Sync and a part of a query, its continuation, and its end with bytes behind the NUL. -/
theorem reassembly_buffer_bounded_query :
    ∃ messages buffer,
      extractAll [] ([[83, 0, 0, 0, 4, 81, 0, 0], [0, 9, 65], [66, 0, 255, 255]].take 2) =
        .ok (messages, buffer) ∧ buffer.length < 1 + 64 * 1024 * 1024 ∧
      (buffer = [] ∨ buffer.length < 5 ∨
        ∃ f, Fits f ∧ buffer <+: f.encode ∧ buffer.length < f.encode.length) :=
  have hrun : extractAll [] [[83, 0, 0, 0, 4, 81, 0, 0], [0, 9, 65], [66, 0, 255, 255]] =
      .ok ([.sync, .query "AB".toList], []) := by decide
  reassembly_buffer_bounded hrun 2

end ScryProxy
