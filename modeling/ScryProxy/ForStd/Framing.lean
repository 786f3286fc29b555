import ScryProxy.ForStd.Rust

/-!
# Tagged, length-prefixed frames

A frame on the wire is a tag byte, a big-endian 32-bit length that counts itself
and the payload, and the payload.  Frames are self-delimiting, so every prefix of
a sequence of frames is some complete frames followed by a strict prefix of the
next one (`prefix_encodeAll`).  Readers that see a stream in arbitrary pieces are
verified from that decomposition.
-/

/-- A frame: its tag and its payload. -/
structure Frame where
  tag : UInt8
  payload : List UInt8
  deriving DecidableEq, Repr

namespace Frame

/-- Value of the length field: itself plus the payload. -/
def len (f : Frame) : Nat := f.payload.length + 4

/-- Wire encoding of a frame. -/
def encode (f : Frame) : List UInt8 := f.tag :: BigEndian.bytes32 f.len ++ f.payload

/-- Wire encoding of a sequence of frames. -/
def encodeAll (fs : List Frame) : List UInt8 := fs.flatMap encode

/-- `rest` holds the start of the first frame of `fs`, but not all of it. -/
def Partial (rest : List UInt8) : List Frame → Prop
  | [] => rest = []
  | f :: _ => rest <+: f.encode ∧ rest.length < f.encode.length

@[simp] theorem length_encode (f : Frame) : f.encode.length = f.payload.length + 5 := by
  simp [encode, BigEndian.bytes32]

@[simp] theorem encodeAll_nil : encodeAll [] = [] := rfl

@[simp] theorem encodeAll_cons (f : Frame) (fs : List Frame) :
    encodeAll (f :: fs) = f.encode ++ encodeAll fs := rfl

@[simp] theorem encodeAll_append (fs gs : List Frame) :
    encodeAll (fs ++ gs) = encodeAll fs ++ encodeAll gs := List.flatMap_append

theorem encodeAll_flatten (parts : List (List Frame)) :
    encodeAll parts.flatten = (parts.map encodeAll).flatten := by
  induction parts with
  | nil => rfl
  | cons part parts ih => simp [ih]

theorem length_le_encodeAll (fs : List Frame) : 5 * fs.length ≤ (encodeAll fs).length := by
  induction fs with
  | nil => exact le_rfl
  | cons f fs ih =>
    simp only [List.length_cons, encodeAll_cons, List.length_append, length_encode]
    omega

theorem encode_ne_nil (f : Frame) : f.encode ≠ [] := by simp [encode]

/-- Either a list is a strict prefix of `xs`, or it has all of `xs` in front. -/
theorem prefix_append_cases {α : Type} {u xs ys : List α} (h : u <+: xs ++ ys) :
    (u <+: xs ∧ u.length < xs.length) ∨ ∃ v, u = xs ++ v ∧ v <+: ys := by
  rcases Nat.lt_or_ge u.length xs.length with hlt | hge
  · exact .inl ⟨List.prefix_of_prefix_length_le h (List.prefix_append xs ys) hlt.le, hlt⟩
  · obtain ⟨v, rfl⟩ := List.prefix_of_prefix_length_le (List.prefix_append xs ys) h hge
    exact .inr ⟨v, rfl, (List.prefix_append_right_inj xs).1 h⟩

variable {fs : List Frame}

/-- Every prefix of a frame sequence is a number of complete frames followed by a strict prefix of
    the next frame. -/
theorem prefix_encodeAll {u : List UInt8} (h : u <+: encodeAll fs) :
    ∃ done todo rest, fs = done ++ todo ∧ u = encodeAll done ++ rest ∧ Partial rest todo := by
  induction fs generalizing u with
  | nil => exact ⟨[], [], [], rfl, List.prefix_nil.1 h, rfl⟩
  | cons f fs ih =>
    rcases prefix_append_cases h with hlt | ⟨v, rfl, hv⟩
    · exact ⟨[], f :: fs, u, rfl, rfl, hlt⟩
    · -- the first frame is complete, so the rest is a prefix of the remaining frames
      obtain ⟨done, todo, rest, rfl, rfl, hrest⟩ := ih hv
      exact ⟨f :: done, todo, rest, rfl, by simp, hrest⟩

/-- Two sequences of frames of the same sizes, seen up to the same point: the complete frames and
    the parts of the next one correspond. -/
theorem prefix_encodeAll_pair {R : Frame → Frame → Prop}
    (hsize : ∀ f g, R f g → f.payload.length = g.payload.length) {u v : List UInt8}
    {gs : List Frame} (hR : List.Forall₂ R fs gs) (hu : u <+: encodeAll fs)
    (hv : v <+: encodeAll gs) (hlen : u.length = v.length) :
    ∃ fs₁ fs₂ gs₁ gs₂ u' v', fs = fs₁ ++ fs₂ ∧ gs = gs₁ ++ gs₂ ∧ u = encodeAll fs₁ ++ u' ∧
      v = encodeAll gs₁ ++ v' ∧ List.Forall₂ R fs₁ gs₁ ∧ List.Forall₂ R fs₂ gs₂ ∧
      Partial u' fs₂ ∧ Partial v' gs₂ ∧ u'.length = v'.length := by
  induction hR generalizing u v with
  | nil => exact ⟨[], [], [], [], u, v, rfl, rfl, rfl, rfl, .nil, .nil, List.prefix_nil.1 hu,
      List.prefix_nil.1 hv, hlen⟩
  | @cons f g fs gs hfg hR ih =>
    have hfg' := hsize f g hfg
    rcases prefix_append_cases hu with hlt | ⟨u, rfl, hurest⟩
    · rcases prefix_append_cases hv with hlt' | ⟨v, rfl, -⟩
      · exact ⟨[], f :: fs, [], g :: gs, u, v, rfl, rfl, rfl, rfl, .nil, .cons hfg hR, hlt, hlt',
          hlen⟩
      · have := hlt.2
        simp only [length_encode, List.length_append] at hlen this
        omega
    · rcases prefix_append_cases hv with hlt' | ⟨v, rfl, hvrest⟩
      · have := hlt'.2
        simp only [length_encode, List.length_append] at hlen this
        omega
      · -- both first frames are complete
        simp only [List.length_append, length_encode, hfg', Nat.add_left_cancel_iff] at hlen
        obtain ⟨fs₁, fs₂, gs₁, gs₂, u', v', rfl, rfl, rfl, rfl, hdone, htodo, hu', hv', hlen⟩ :=
          ih hurest hvrest hlen
        exact ⟨f :: fs₁, fs₂, g :: gs₁, gs₂, u', v', rfl, rfl, by simp, by simp,
          .cons hfg hdone, htodo, hu', hv', hlen⟩

theorem length_encodeAll_pair {R : Frame → Frame → Prop}
    (hsize : ∀ f g, R f g → f.payload.length = g.payload.length) {gs : List Frame}
    (hR : List.Forall₂ R fs gs) : (encodeAll fs).length = (encodeAll gs).length := by
  induction hR with
  | nil => rfl
  | @cons f g fs gs hfg hR ih =>
    simp only [encodeAll_cons, List.length_append, length_encode, hsize f g hfg, ih]

variable {rest : List UInt8}

/-- A strict prefix of a frame with at least a header shows the frame's tag and length. -/
theorem header_of_front {f : Frame} {t b₀ b₁ b₂ b₃ : UInt8}
    (h : t :: b₀ :: b₁ :: b₂ :: b₃ :: rest <+: f.encode) (hf : f.len < 2 ^ 31) :
    t = f.tag ∧ BigEndian.i32 b₀ b₁ b₂ b₃ = f.len ∧ rest <+: f.payload := by
  simp only [encode, BigEndian.bytes32, List.cons_append, List.nil_append,
    List.cons_prefix_cons] at h
  obtain ⟨rfl, rfl, rfl, rfl, rfl, hrest⟩ := h
  exact ⟨rfl, BigEndian.i32_bytes32 hf, hrest⟩

/-- A complete frame is its header and its payload. -/
theorem encode_append (f : Frame) (bytes : List UInt8) :
    f.encode ++ bytes = f.tag :: UInt8.ofNat (f.len / 2 ^ 24) :: UInt8.ofNat (f.len / 2 ^ 16) ::
      UInt8.ofNat (f.len / 2 ^ 8) :: UInt8.ofNat f.len :: (f.payload ++ bytes) := by
  simp [encode, BigEndian.bytes32]

/-- A header and at least as many bytes as it announces start with a frame. -/
theorem header_eq_encode (t : UInt8) {b₀ b₁ b₂ b₃ : UInt8} (hlen : 4 ≤ BigEndian.i32 b₀ b₁ b₂ b₃)
    (hrest : (BigEndian.i32 b₀ b₁ b₂ b₃).toNat - 4 ≤ rest.length) :
    t :: b₀ :: b₁ :: b₂ :: b₃ :: rest =
      (⟨t, rest.take ((BigEndian.i32 b₀ b₁ b₂ b₃).toNat - 4)⟩ : Frame).encode ++
        rest.drop ((BigEndian.i32 b₀ b₁ b₂ b₃).toNat - 4) := by
  have hframe : (⟨t, rest.take ((BigEndian.i32 b₀ b₁ b₂ b₃).toNat - 4)⟩ : Frame).len =
      (BigEndian.i32 b₀ b₁ b₂ b₃).toNat := by
    rw [len, List.length_take, Nat.min_eq_left hrest]
    omega
  rw [encode, hframe, BigEndian.bytes32_i32 (by omega)]
  simp

/-! ## Walking over a buffer by offsets

The walk stands at the end of `front`, where a frame starts. -/

theorem drop_frame (front : List UInt8) (f : Frame) (bytes : List UInt8) :
    (front ++ f.encode ++ bytes).drop front.length =
      f.tag :: UInt8.ofNat (f.len / 2 ^ 24) :: UInt8.ofNat (f.len / 2 ^ 16) ::
        UInt8.ofNat (f.len / 2 ^ 8) :: UInt8.ofNat f.len :: (f.payload ++ bytes) := by
  rw [List.append_assoc, List.drop_left, encode_append]

/-- The frame joins the part already walked over. -/
theorem append_encodeAll_cons (front : List UInt8) (f : Frame) (fs : List Frame)
    (rest : List UInt8) :
    front ++ (encodeAll (f :: fs) ++ rest) = front ++ f.encode ++ (encodeAll fs ++ rest) := by simp

theorem not_len_lt_four (f : Frame) : ¬ ((0 : Int) ≤ f.len ∧ (f.len : Int) < 4) := by
  simp only [len]
  omega

/-- The offset behind the frame. -/
theorem offset_behind (front : List UInt8) (f : Frame) :
    front.length + 1 + f.len = (front ++ f.encode).length := by
  simp only [List.length_append, length_encode, len]
  omega

theorem not_lt_offset_behind (front : List UInt8) (f : Frame) (bytes : List UInt8) :
    ¬ (front ++ f.encode ++ bytes).length < front.length + 1 + f.len := by
  rw [offset_behind, List.length_append]
  exact Nat.not_lt.2 (Nat.le_add_right _ _)

/-- A frame that is not all there ends behind the buffer. -/
theorem lt_offset_behind (front : List UInt8) {f : Frame} {bytes : List UInt8}
    (h : bytes.length < f.encode.length) :
    (front ++ bytes).length < front.length + 1 + f.len := by
  rw [offset_behind, List.length_append, List.length_append]
  exact Nat.add_lt_add_left h _

/-! ## Splitting a stream -/

/-- `split` with a bound on the number of frames. -/
def splitLoop : Nat → List UInt8 → List Frame × List UInt8
  | fuel + 1, t :: b₀ :: b₁ :: b₂ :: b₃ :: body =>
    let size := (BigEndian.i32 b₀ b₁ b₂ b₃).toNat - 4
    if 4 ≤ BigEndian.i32 b₀ b₁ b₂ b₃ ∧ size ≤ body.length then
      let (fs, rest) := splitLoop fuel (body.drop size)
      (⟨t, body.take size⟩ :: fs, rest)
    else ([], t :: b₀ :: b₁ :: b₂ :: b₃ :: body)
  | _, bytes => ([], bytes)

/-- The complete frames in front of some bytes, and what follows them. -/
def split (bytes : List UInt8) : List Frame × List UInt8 := splitLoop bytes.length bytes

variable {todo : List Frame}

theorem splitLoop_rest (hlen : ∀ f ∈ todo, f.len < 2 ^ 31) (hrest : Partial rest todo) (fuel : Nat) :
    splitLoop fuel rest = ([], rest) := by
  match fuel, rest with
  | 0, _ => rfl
  | _ + 1, [] | _ + 1, [_] | _ + 1, [_, _] | _ + 1, [_, _, _] | _ + 1, [_, _, _, _] => rfl
  | fuel + 1, t :: b₀ :: b₁ :: b₂ :: b₃ :: body =>
    cases todo with
    | nil => cases hrest
    | cons f todo =>
      obtain ⟨hfront, hlt⟩ := hrest
      obtain ⟨-, hi32, -⟩ := header_of_front hfront (hlen f List.mem_cons_self)
      -- the length is readable, but the payload is not all there
      have hcut : ¬ ((4 : Int) ≤ f.len ∧ (f.len : Int).toNat - 4 ≤ body.length) := by
        simp only [List.length_cons, length_encode, len] at hlt ⊢
        omega
      simp only [splitLoop, hi32, hcut, if_false]

theorem splitLoop_encodeAll (hlen : ∀ f ∈ fs ++ todo, f.len < 2 ^ 31) (hrest : Partial rest todo)
    {fuel : Nat} (hfuel : fs.length ≤ fuel) :
    splitLoop fuel (encodeAll fs ++ rest) = (fs, rest) := by
  induction fs generalizing fuel with
  | nil => exact splitLoop_rest hlen hrest fuel
  | cons f fs ih =>
    obtain ⟨fuel, rfl⟩ := Nat.exists_eq_succ_of_ne_zero (Nat.ne_of_gt (Nat.zero_lt_of_lt hfuel))
    have hsize : (f.len : Int).toNat - 4 = f.payload.length := by
      rw [Int.toNat_natCast, len, Nat.add_sub_cancel]
    have hall : (4 : Int) ≤ f.len ∧
        f.payload.length ≤ (f.payload ++ (encodeAll fs ++ rest)).length := by
      simp only [len, List.length_append]
      omega
    -- one round takes this frame off the front
    rw [encodeAll_cons, List.append_assoc, encode_append]
    simp only [splitLoop, BigEndian.i32_bytes32 (hlen f (by simp)), hsize, hall, and_self, if_true,
      List.take_left, List.drop_left,
      ih (fun g hg => hlen g (List.mem_cons_of_mem f hg)) (Nat.le_of_succ_le_succ hfuel)]

/-- Frames followed by a part of the next one are split into just these. -/
theorem split_encodeAll (hlen : ∀ f ∈ fs ++ todo, f.len < 2 ^ 31) (hrest : Partial rest todo) :
    split (encodeAll fs ++ rest) = (fs, rest) := by
  have hle := length_le_encodeAll fs
  exact splitLoop_encodeAll hlen hrest (by rw [List.length_append]; omega)

/-- What is left after the complete frames holds no complete frame. -/
theorem splitLoop_splitLoop_snd {fuel : Nat} {bytes : List UInt8} (hfuel : bytes.length ≤ fuel)
    (fuel' : Nat) :
    splitLoop fuel' (splitLoop fuel bytes).2 = ([], (splitLoop fuel bytes).2) := by
  induction fuel generalizing bytes with
  | zero =>
    rw [List.length_eq_zero_iff.1 (Nat.le_zero.1 hfuel)]
    cases fuel' <;> rfl
  | succ fuel ih =>
    match bytes with
    | [] | [_] | [_, _] | [_, _, _] | [_, _, _, _] => cases fuel' <;> rfl
    | t :: b₀ :: b₁ :: b₂ :: b₃ :: body =>
      simp only [splitLoop]
      split
      · refine ih ?_
        simp only [List.length_cons, List.length_drop] at hfuel ⊢
        omega
      · next hcut =>
        cases fuel' with
        | zero => rfl
        | succ fuel' => simp only [splitLoop, hcut, if_false]

theorem split_split_snd (bytes : List UInt8) :
    split (split bytes).2 = ([], (split bytes).2) :=
  splitLoop_splitLoop_snd le_rfl _

/-- A frame that ends after `done` and no later than `rest` is one of those in between. -/
theorem mem_of_ends_between {done now before after : List Frame} {f : Frame}
    (hsplit : done ++ (now ++ todo) = before ++ f :: after) (hrest : Partial rest todo)
    (hlo : (encodeAll done).length < (encodeAll before).length + f.encode.length)
    (hhi : (encodeAll before).length + f.encode.length ≤
      (encodeAll done).length + (encodeAll now).length + rest.length) : f ∈ now := by
  -- a frame among those still to come ends behind `rest`
  have hlater : ∀ b, before = done ++ now ++ b → todo ≠ b ++ f :: after := by
    rintro b rfl rfl
    simp only [encodeAll_append, List.length_append] at hhi
    cases b with
    | nil =>
      have := hrest.2
      simp only [encodeAll_nil, List.length_nil] at hhi
      omega
    | cons g b =>
      have := hrest.2
      simp only [encodeAll_cons, List.length_append] at hhi
      omega
  -- where `before` ends: behind `done`, or inside it
  rcases List.append_eq_append_iff.1 hsplit with ⟨a, rfl, ha⟩ | ⟨c, rfl, hc⟩
  · rcases List.append_eq_append_iff.1 ha with ⟨b, rfl, hb⟩ | ⟨c, rfl, hc⟩
    · exact absurd hb (hlater b (by simp))
    · cases c with
      | nil => exact absurd hc.symm (hlater [] (by simp))
      | cons g c =>
        obtain ⟨rfl, -⟩ := List.cons.inj hc
        simp
  · cases c with
    | nil =>
      cases now with
      | nil => exact absurd hc.symm (hlater [] (by simp))
      | cons g now =>
        obtain ⟨rfl, -⟩ := List.cons.inj hc
        simp
    | cons g c =>
      obtain ⟨rfl, -⟩ := List.cons.inj hc
      simp only [encodeAll_append, encodeAll_cons, List.length_append] at hlo
      omega

end Frame
