import ScryProxy.Native.Extractor

/-!
# Reassembling a frontend stream

When the client sends frames no longer than the accepted maximum, `extract_messages`
keeps the incomplete last frame in its buffer and yields the messages of the complete
ones, whatever the reads are (`extractMessages_encodeAll`).
-/

namespace ScryProxy

open Frame (encodeAll)

/-- The frame's length is accepted. -/
def Fits (f : Frame) : Prop := f.len ≤ maxFrontendMessageSize

theorem Fits.short {f : Frame} (h : Fits f) : f.len < 2 ^ 31 := by
  unfold Fits maxFrontendMessageSize at h
  omega

/-! ## Messages and their type bytes -/

/-- The type byte of the frame of a message. -/
def Message.tag : Message → UInt8
  | .query _ => msgQuery
  | .parse _ _ _ => msgParse
  | .bind _ _ _ _ => msgBind
  | .execute _ => msgExecute
  | .close _ _ => msgClose
  | .sync => msgSync
  | .terminate => msgTerminate

-- of the exits of the two parsers only the last one yields a message

variable {payload : List UInt8}

theorem parseParseMessage_tag {msg : Message} (h : parseParseMessage payload = .ok (some msg)) :
    msg.tag = msgParse := by
  unfold parseParseMessage at h
  split at h
  · cases h
  · split at h
    · cases h
    · split at h
      · obtain ⟨_, -, h⟩ := Rust.bind_returns.1 h
        obtain ⟨oids, -, rfl⟩ := Option.map_eq_some_iff.1 (Except.ok.inj h)
        rfl
      · cases h

theorem parseBindMessage_tag {msg : Message} (h : parseBindMessage payload = .ok (some msg)) :
    msg.tag = msgBind := by
  unfold parseBindMessage at h
  split at h
  · cases h
  · split at h
    · cases h
    · split at h
      · obtain ⟨_, -, h⟩ := Rust.bind_returns.1 h
        split at h
        · obtain ⟨_, -, h⟩ := Rust.bind_returns.1 h
          obtain ⟨_, -, h⟩ := Rust.bind_returns.1 h
          obtain ⟨params, -, rfl⟩ := Option.map_eq_some_iff.1 (Except.ok.inj h)
          rfl
        · cases h
      · cases h

/-- The message that is read from a frame is of the frame's type. -/
theorem parsePayload_tag {tag : UInt8} {msg : Message}
    (h : parsePayload tag payload = .ok (some msg)) : msg.tag = tag := by
  unfold parsePayload at h
  split at h
  · next htag =>
    obtain ⟨_, -, rfl⟩ := Option.map_eq_some_iff.1 (Except.ok.inj h)
    exact htag.symm
  split at h
  · next htag => exact (parseParseMessage_tag h).trans htag.symm
  split at h
  · next htag => exact (parseBindMessage_tag h).trans htag.symm
  split at h
  · next htag =>
    obtain ⟨_, -, rfl⟩ := Option.map_eq_some_iff.1 (Except.ok.inj h)
    exact htag.symm
  split at h
  · next htag =>
    cases payload with
    | nil => cases h
    | cons kind rest =>
      obtain ⟨_, -, rfl⟩ := Option.map_eq_some_iff.1 (Except.ok.inj h)
      exact htag.symm
  split at h
  · next htag => cases h; exact htag.symm
  split at h
  · next htag => cases h; exact htag.symm
  · cases h

/-! ## Messages of frames -/

/-- The messages of complete frames; a payload that does not parse yields none. -/
def messagesOf (fs : List Frame) : Rust (List Message) :=
  (fs.mapM fun f => parsePayload f.tag f.payload).map fun ms => ms.flatMap Option.toList

/-! ## Frames of a buffer

`extract_messages` takes complete frames off the front of the buffer and parses their payloads in
one loop.  `takeFrames` is the first half alone. -/

/-- `takeFrames` with a bound on the number of frames. -/
def takeLoop : Nat → List UInt8 → List Frame × Leftover
  | fuel + 1, t :: b₀ :: b₁ :: b₂ :: b₃ :: rest =>
    let length := BigEndian.i32 b₀ b₁ b₂ b₃
    if length < 4 ∨ maxFrontendMessageSize < length.toNat then ([], .framingError)
    else if rest.length < length.toNat - 4 then ([], .retain (t :: b₀ :: b₁ :: b₂ :: b₃ :: rest))
    else
      let (frames, leftover) := takeLoop fuel (rest.drop (length.toNat - 4))
      (⟨t, rest.take (length.toNat - 4)⟩ :: frames, leftover)
  | _, buf => ([], .retain buf)

/-- The complete frames in front of the buffer, up to a refused length. -/
def takeFrames (buf : List UInt8) : List Frame × Leftover := takeLoop buf.length buf

variable {buf : List UInt8}

/-- A round takes at least a header, so the length of the buffer bounds the rounds. -/
theorem takeLoop_fuel {fuel : Nat} (hfuel : buf.length ≤ fuel) :
    takeLoop fuel buf = takeFrames buf := by
  unfold takeFrames
  -- the rounds of the two loops run side by side
  generalize hn : buf.length = n at hfuel
  replace hn : buf.length ≤ n := hn.le
  induction n generalizing fuel buf with
  | zero =>
    rw [List.length_eq_zero_iff.1 (Nat.le_zero.1 hn)]
    cases fuel <;> rfl
  | succ n ih =>
    obtain ⟨fuel, rfl⟩ := Nat.exists_eq_succ_of_ne_zero (Nat.ne_of_gt (Nat.zero_lt_of_lt hfuel))
    match buf with
    | [] | [_] | [_, _] | [_, _, _] | [_, _, _, _] => rfl
    | t :: b₀ :: b₁ :: b₂ :: b₃ :: rest =>
      have hrest : (rest.drop ((BigEndian.i32 b₀ b₁ b₂ b₃).toNat - 4)).length ≤ n := by
        simp only [List.length_cons, List.length_drop] at hn ⊢
        omega
      simp only [takeLoop, ih (Nat.le_of_succ_le_succ hfuel) hrest]

/-- A round of `extract_messages` parses the frame that it takes. -/
theorem extractLoop_eq (fuel : Nat) (buf : List UInt8) :
    extractLoop fuel buf =
      (messagesOf (takeLoop fuel buf).1).map fun ms => (ms, (takeLoop fuel buf).2) := by
  induction fuel generalizing buf with
  | zero => rfl
  | succ fuel ih =>
    match buf with
    | [] | [_] | [_, _] | [_, _, _] | [_, _, _, _] => rfl
    | t :: b₀ :: b₁ :: b₂ :: b₃ :: rest =>
      simp only [extractLoop, takeLoop]
      split
      · rfl
      · split
        · rfl
        · rw [ih]
          simp only [messagesOf, List.mapM_cons]
          cases parsePayload t (rest.take ((BigEndian.i32 b₀ b₁ b₂ b₃).toNat - 4)) with
          | error e => rfl
          | ok msg =>
            cases (takeLoop fuel (rest.drop ((BigEndian.i32 b₀ b₁ b₂ b₃).toNat - 4))).1.mapM
                fun f => parsePayload f.tag f.payload with
            | error e => rfl
            | ok ms => rfl

/-- The bound on the rounds is never what ends the loop. -/
theorem extractLoop_fuel {fuel : Nat} (hfuel : buf.length ≤ fuel) :
    extractLoop fuel buf = extractLoop buf.length buf := by
  rw [extractLoop_eq, extractLoop_eq, takeLoop_fuel hfuel, takeFrames]

/-- The reassembly buffer after the call. -/
def Leftover.bytes : Leftover → List UInt8
  | .retain bytes => bytes
  | .framingError => []

/-- `extract_messages` is the taking of the frames followed by the parsing of their payloads. -/
theorem extractMessages_eq (buffer data : List UInt8) :
    extractMessages buffer data = (messagesOf (takeFrames (buffer ++ data)).1).map
      fun ms => (ms, (takeFrames (buffer ++ data)).2.bytes) := by
  unfold extractMessages
  simp only [extractLoop_eq]
  rw [← takeFrames]
  cases messagesOf (takeFrames (buffer ++ data)).1 with
  | error e => rfl
  | ok ms =>
    simp only [Except.map, Rust.ok_bind]
    cases (takeFrames (buffer ++ data)).2 <;> rfl

/-! ## Buffers by what they start with -/

/-- The bytes start no complete frame and no frame of a refused length. -/
def Unfinished : List UInt8 → Prop
  | _ :: b₀ :: b₁ :: b₂ :: b₃ :: body =>
    4 ≤ BigEndian.i32 b₀ b₁ b₂ b₃ ∧ (BigEndian.i32 b₀ b₁ b₂ b₃).toNat ≤ maxFrontendMessageSize ∧
      body.length < (BigEndian.i32 b₀ b₁ b₂ b₃).toNat - 4
  | _ => True

/-- The bytes start with a header whose length is refused. -/
def RefusedLength : List UInt8 → Prop
  | _ :: b₀ :: b₁ :: b₂ :: b₃ :: _ =>
    BigEndian.i32 b₀ b₁ b₂ b₃ < 4 ∨ maxFrontendMessageSize < (BigEndian.i32 b₀ b₁ b₂ b₃).toNat
  | _ => False

theorem takeFrames_unfinished (h : Unfinished buf) : takeFrames buf = ([], .retain buf) := by
  match buf with
  | [] | [_] | [_, _] | [_, _, _] | [_, _, _, _] => rfl
  | t :: b₀ :: b₁ :: b₂ :: b₃ :: rest =>
    obtain ⟨hlo, hhi, hcut⟩ := h
    have hvalid : ¬ (BigEndian.i32 b₀ b₁ b₂ b₃ < 4 ∨
        maxFrontendMessageSize < (BigEndian.i32 b₀ b₁ b₂ b₃).toNat) := by omega
    simp only [takeFrames, List.length_cons, takeLoop, hvalid, if_false, hcut, if_true]

theorem takeFrames_refused (h : RefusedLength buf) : takeFrames buf = ([], .framingError) := by
  match buf with
  | t :: b₀ :: b₁ :: b₂ :: b₃ :: rest =>
    unfold RefusedLength at h
    simp only [takeFrames, List.length_cons, takeLoop, h, if_true]

theorem RefusedLength.append (h : RefusedLength buf) (bytes : List UInt8) :
    RefusedLength (buf ++ bytes) := by
  match buf with
  | t :: b₀ :: b₁ :: b₂ :: b₃ :: rest => exact h

theorem takeFrames_encode {f : Frame} (hf : Fits f) (bytes : List UInt8) :
    takeFrames (f.encode ++ bytes) = (f :: (takeFrames bytes).1, (takeFrames bytes).2) := by
  have hvalid : ¬ ((f.len : Int) < 4 ∨ maxFrontendMessageSize < (f.len : Int).toNat) := by
    unfold Fits at hf
    simp only [Frame.len] at hf ⊢
    omega
  have hpayload : (f.len : Int).toNat - 4 = f.payload.length := by
    rw [Int.toNat_natCast, Frame.len, Nat.add_sub_cancel]
  have hcomplete : ¬ (f.payload ++ bytes).length < f.payload.length := by simp
  have hfuel : bytes.length ≤ (f.payload ++ bytes).length + 4 := by
    rw [List.length_append]
    omega
  rw [Frame.encode_append]
  simp only [takeFrames, List.length_cons, takeLoop, BigEndian.i32_bytes32 hf.short, hvalid,
    if_false, hpayload, hcomplete, List.take_left, List.drop_left, takeLoop_fuel hfuel]

/-- The frames in front are taken, and the taking goes on behind them. -/
theorem takeFrames_encodeAll {frames : List Frame} (hfit : ∀ f ∈ frames, Fits f)
    (bytes : List UInt8) :
    takeFrames (encodeAll frames ++ bytes) =
      (frames ++ (takeFrames bytes).1, (takeFrames bytes).2) := by
  induction frames with
  | nil => rfl
  | cons f frames ih =>
    rw [Frame.encodeAll_cons, List.append_assoc, takeFrames_encode (hfit f List.mem_cons_self),
      ih fun g hg => hfit g (List.mem_cons_of_mem f hg)]
    rfl

theorem unfinished_of_partial {todo : List Frame} {rest : List UInt8} (hfit : ∀ f ∈ todo, Fits f)
    (hrest : Frame.Partial rest todo) : Unfinished rest := by
  match rest with
  | [] | [_] | [_, _] | [_, _, _] | [_, _, _, _] => trivial
  | t :: b₀ :: b₁ :: b₂ :: b₃ :: body =>
    cases todo with
    | nil => cases hrest
    | cons f todo =>
      obtain ⟨hfront, hlt⟩ := hrest
      have hf := hfit f List.mem_cons_self
      obtain ⟨-, hlen, -⟩ := Frame.header_of_front hfront hf.short
      unfold Fits at hf
      simp only [List.length_cons, Frame.length_encode, Frame.len] at hlt hf hlen
      unfold Unfinished
      omega

/-- `extract_messages` on frames that fit: the messages of the completed frames, and the rest kept
    for the next read. -/
theorem extractMessages_encodeAll {now todo : List Frame} {buffer data rest : List UInt8}
    (hfit : ∀ f ∈ now ++ todo, Fits f) (hrest : Frame.Partial rest todo)
    (hbytes : buffer ++ data = encodeAll now ++ rest) :
    extractMessages buffer data = (messagesOf now).map fun ms => (ms, rest) := by
  have hunfinished : Unfinished rest :=
    unfinished_of_partial (fun f hf => hfit f (List.mem_append_right now hf)) hrest
  have htake : takeFrames (buffer ++ data) = (now, .retain rest) := by
    rw [hbytes, takeFrames_encodeAll fun f hf => hfit f (List.mem_append_left todo hf),
      takeFrames_unfinished hunfinished, List.append_nil]
  rw [extractMessages_eq, htake]
  rfl

end ScryProxy
