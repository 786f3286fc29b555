import ScryProxy.ForStd.Framing
import ScryProxy.ForStd.Str
import ScryProxy.ForStd.Utf8
import ScryProxy.ForStd.WireFields

/-!
# Backend messages

Reference decoder for the messages of a reply, independent of the proxy.  A message counts only
if its fields take all of its bytes, and a stream only if its messages do.
-/

namespace Pg

/-- A column of a RowDescription. -/
structure Field where
  name : Str
  tableOid : Nat
  columnAttr : Int
  typeOid : Nat
  typeSize : Int
  typeModifier : Int
  format : Int
  deriving DecidableEq, Repr

inductive BackendMessage where
  | rowDescription (fields : List Field)
  /-- the values as texts, `none` for NULL -/
  | dataRow (values : List (Option Str))
  | commandComplete (tag : Str)
  | errorResponse (fields : List (UInt8 × Str))
  | readyForQuery (status : UInt8)
  deriving DecidableEq, Repr

/-! ## Fields -/

def readText (data : List UInt8) : Option (Str × List UInt8) :=
  let text := data.takeWhile (· != 0)
  match data.drop text.length with
  | [] => none
  | _ :: rest => (Utf8.decode text).map (·, rest)

def readField (data : List UInt8) : Option (Field × List UInt8) := do
  let (name, rest) ← readText data
  match rest with
  | r₀ :: r₁ :: r₂ :: r₃ :: a₀ :: a₁ :: t₀ :: t₁ :: t₂ :: t₃ :: s₀ :: s₁ :: m₀ :: m₁ :: m₂ :: m₃ ::
      f₀ :: f₁ :: rest =>
    some (⟨name, BigEndian.u32 r₀ r₁ r₂ r₃, BigEndian.i16 a₀ a₁, BigEndian.u32 t₀ t₁ t₂ t₃,
      BigEndian.i16 s₀ s₁, BigEndian.i32 m₀ m₁ m₂ m₃, BigEndian.i16 f₀ f₁⟩, rest)
  | _ => none

/-- A value with its length; -1 stands for NULL. -/
def readValue : List UInt8 → Option (Option Str × List UInt8)
  | b₀ :: b₁ :: b₂ :: b₃ :: rest =>
    let len := BigEndian.i32 b₀ b₁ b₂ b₃
    if len = -1 then some (none, rest)
    else if len < 0 ∨ rest.length < len.toNat then none
    else (Utf8.decode (rest.take len.toNat)).map fun s => (some s, rest.drop len.toNat)
  | _ => none

/-- A count, as many items, and nothing else. -/
def readAll {α : Type} (item : List UInt8 → Option (α × List UInt8)) : List UInt8 → Option (List α)
  | b₀ :: b₁ :: rest =>
    if BigEndian.i16 b₀ b₁ < 0 then none
    else match Counted.read item (BigEndian.i16 b₀ b₁).toNat rest with
      | some (items, []) => some items
      | _ => none
  | _ => none

/-- The fields of an ErrorResponse up to the final NUL, which ends the message. -/
def readErrorFields : Nat → List UInt8 → Option (List (UInt8 × Str))
  | fuel + 1, code :: rest =>
    if rest = [] then if code = 0 then some [] else none
    else do
      let (text, rest) ← readText rest
      let fields ← readErrorFields fuel rest
      return (code, text) :: fields
  | _, _ => none

/-! ## Messages -/

/-- The message of a frame. -/
def decodeFrame (f : Frame) : Option BackendMessage :=
  if f.tag = 'T'.toUInt8 then (readAll readField f.payload).map .rowDescription
  else if f.tag = 'D'.toUInt8 then (readAll readValue f.payload).map .dataRow
  else if f.tag = 'C'.toUInt8 then
    match readText f.payload with
    | some (tag, []) => some (.commandComplete tag)
    | _ => none
  else if f.tag = 'E'.toUInt8 then
    (readErrorFields f.payload.length f.payload).map .errorResponse
  else if f.tag = 'Z'.toUInt8 then
    match f.payload with
    | [status] => some (.readyForQuery status)
    | _ => none
  else none

/-- The messages of a stream that ends with the last of them. -/
def decodeAll (bytes : List UInt8) : Option (List BackendMessage) :=
  match Frame.split bytes with
  | (frames, []) => frames.mapM decodeFrame
  | _ => none

/-! ## Reading back what was written -/

theorem readText_append {s : Str} (h : s.NulFree) (rest : List UInt8) :
    readText (Utf8.encode s ++ 0 :: rest) = some (s, rest) := by
  have hnul := Utf8.zero_notMem_encode h
  simp only [readText, Cstring.takeWhile_append hnul, List.drop_left, Utf8.decode_encode,
    Option.map_some]

theorem readValue_append {s : Str} (h : (Utf8.encode s).length < 2 ^ 31) (rest : List UInt8) :
    readValue (BigEndian.bytes32 (Utf8.encode s).length ++ (Utf8.encode s ++ rest)) =
      some (some s, rest) := by
  have hnat : ¬ ((Utf8.encode s).length : Int) = -1 := by omega
  have hthere : ¬ (((Utf8.encode s).length : Int) < 0 ∨
      (Utf8.encode s ++ rest).length < (Utf8.encode s).length) := by
    rw [List.length_append]
    omega
  rw [BigEndian.bytes32]
  simp only [List.cons_append, List.nil_append, readValue, BigEndian.i32_bytes32 h, hnat, if_false,
    Int.toNat_natCast, hthere, List.take_left, List.drop_left, Utf8.decode_encode, Option.map_some]

theorem readAll_append {α : Type} (item : List UInt8 → Option (α × List UInt8))
    (encode : α → List UInt8) {items : List α} (hcount : items.length ≤ 32767)
    (h : ∀ a ∈ items, ∀ rest, item (encode a ++ rest) = some (a, rest)) :
    readAll item (BigEndian.bytes16 items.length ++ items.flatMap encode) = some items := by
  have hi16 := BigEndian.i16_bytes16 (i := (items.length : Int)) (by omega) (by omega)
  have hread := Counted.read_flatMap h []
  rw [List.append_nil] at hread
  rw [BigEndian.bytes16]
  simp only [List.cons_append, List.nil_append, readAll, hi16, Int.toNat_natCast, hread]
  rw [if_neg (by omega)]

/-- A code and a text of an ErrorResponse. -/
def errorField (field : UInt8 × Str) : List UInt8 := field.1 :: (Utf8.encode field.2 ++ [0])

theorem readErrorFields_append {fields : List (UInt8 × Str)} (h : ∀ field ∈ fields, field.2.NulFree)
    {fuel : Nat} (hfuel : fields.length < fuel) :
    readErrorFields fuel (fields.flatMap errorField ++ [0]) = some fields := by
  induction fields generalizing fuel with
  | nil =>
    obtain ⟨fuel, rfl⟩ := Nat.exists_eq_succ_of_ne_zero (Nat.ne_of_gt hfuel)
    rfl
  | cons field fields ih =>
    obtain ⟨fuel, rfl⟩ := Nat.exists_eq_succ_of_ne_zero (Nat.ne_of_gt (Nat.zero_lt_of_lt hfuel))
    obtain ⟨hfield, hfields⟩ := List.forall_mem_cons.1 h
    have hbytes : (field :: fields).flatMap errorField ++ [0] =
        field.1 :: (Utf8.encode field.2 ++ 0 :: (fields.flatMap errorField ++ [0])) := by
      simp [errorField]
    rw [hbytes, readErrorFields, if_neg (by simp), readText_append hfield]
    simp only [Option.bind_eq_bind, Option.bind_some, ih hfields (Nat.lt_of_succ_lt_succ hfuel)]
    rfl

theorem decodeAll_encodeAll {frames : List Frame} {messages : List BackendMessage}
    (hshort : ∀ f ∈ frames, f.len < 2 ^ 31)
    (h : frames.mapM decodeFrame = some messages) :
    decodeAll (Frame.encodeAll frames) = some messages := by
  have hnone : Frame.Partial [] [] := rfl
  have hsplit : Frame.split (Frame.encodeAll frames ++ []) = (frames, []) :=
    Frame.split_encodeAll (by simpa using hshort) hnone
  rw [List.append_nil] at hsplit
  rw [decodeAll, hsplit]
  exact h

end Pg
