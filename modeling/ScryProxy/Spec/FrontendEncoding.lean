import ScryProxy.Native.Startup
import ScryProxy.Spec.FrontendPanics

/-!
# Frontend messages on the wire

A frontend message as a client sends it, with what `extract_messages` skips: the result formats
of a Bind and the row limit of an Execute.  Messages that fit into the fields of the protocol
are extracted as they were encoded (`extractMessages_encoded`).
-/

namespace ScryProxy

open Frame (encodeAll)
open Str (NulFree)
open StartupMessage (cstring)

/-! ## Encoding -/

inductive FrontendMessage where
  | query (query : Str)
  | parse (name query : Str) (paramOids : List Nat)
  | bind (portal statement : Str) (formatCodes : List Int) (paramsRaw : List (Option (List UInt8)))
      (resultFormats : List Int)
  | execute (portal : Str) (maxRows : Nat)
  | close (kind : Char) (name : Str)
  | sync
  | terminate
  deriving DecidableEq, Repr

namespace FrontendMessage

/-- A nullable parameter with its length. -/
def paramBytes : Option (List UInt8) → List UInt8
  -- -1
  | none => [255, 255, 255, 255]
  | some value => BigEndian.bytes32 value.length ++ value

/-- A list of format codes with its count. -/
def formatBytes (codes : List Int) : List UInt8 :=
  BigEndian.bytes16 codes.length ++ codes.flatMap BigEndian.bytes16

def payload : FrontendMessage → List UInt8
  | .query text => cstring text
  | .parse name text paramOids =>
    cstring name ++ (cstring text ++ (BigEndian.bytes16 paramOids.length ++
      paramOids.flatMap BigEndian.bytes32))
  | .bind portal statement formatCodes paramsRaw resultFormats =>
    cstring portal ++ (cstring statement ++ (formatBytes formatCodes ++
      (BigEndian.bytes16 paramsRaw.length ++ (paramsRaw.flatMap paramBytes ++
        formatBytes resultFormats))))
  | .execute portal maxRows => cstring portal ++ BigEndian.bytes32 maxRows
  | .close kind name => UInt8.ofNat kind.toNat :: cstring name
  | .sync | .terminate => []

/-- What `extract_messages` keeps of a message. -/
def message : FrontendMessage → Message
  | .query text => .query text
  | .parse name text paramOids => .parse name text paramOids
  | .bind portal statement formatCodes paramsRaw _ => .bind portal statement formatCodes paramsRaw
  | .execute portal _ => .execute portal
  | .close kind name => .close kind name
  | .sync => .sync
  | .terminate => .terminate

def frame (m : FrontendMessage) : Frame := ⟨m.message.tag, m.payload⟩

/-- The values fit into the fields they are written to. -/
def FieldsFit : FrontendMessage → Prop
  | .query text => NulFree text
  | .parse name text paramOids =>
    NulFree name ∧ NulFree text ∧ paramOids.length ≤ 32767 ∧ ∀ oid ∈ paramOids, oid < 2 ^ 32
  | .bind portal statement formatCodes paramsRaw _ =>
    NulFree portal ∧ NulFree statement ∧ formatCodes.length ≤ 32767 ∧
      (∀ code ∈ formatCodes, -2 ^ 15 ≤ code ∧ code < 2 ^ 15) ∧ paramsRaw.length ≤ 32767
  | .execute portal _ => NulFree portal
  | .close kind name => kind.toNat ≤ 0xFF ∧ NulFree name
  | .sync | .terminate => True

instance (m : FrontendMessage) : Decidable m.FieldsFit := by
  cases m <;> unfold FieldsFit <;> infer_instance

/-! ## Decoding -/

theorem readCstring_cstring {s : Str} (h : NulFree s) (rest : List UInt8) :
    readCstring (cstring s ++ rest) = some (s, rest) := by
  rw [cstring, List.append_assoc]
  exact (readCstring_append (Utf8.zero_notMem_encode h) rest).trans
    (by rw [Utf8.decode_encode, Option.map_some])

theorem readOids_bytes {oids : List Nat} (h : ∀ oid ∈ oids, oid < 2 ^ 32) :
    readOids oids.length (oids.flatMap BigEndian.bytes32) = some oids := by
  induction oids with
  | nil => rfl
  | cons oid oids ih =>
    obtain ⟨hoid, hoids⟩ := List.forall_mem_cons.1 h
    rw [List.flatMap_cons, BigEndian.bytes32]
    simp only [List.cons_append, List.nil_append, List.length_cons, readOids, ih hoids,
      BigEndian.u32_bytes32 hoid, Option.map_some]

theorem readFormatCodes_bytes {codes : List Int}
    (h : ∀ code ∈ codes, -2 ^ 15 ≤ code ∧ code < 2 ^ 15) (rest : List UInt8) :
    readFormatCodes codes.length (codes.flatMap BigEndian.bytes16 ++ rest) = some (codes, rest) := by
  induction codes with
  | nil => rfl
  | cons code codes ih =>
    obtain ⟨⟨hlow, hhigh⟩, hcodes⟩ := List.forall_mem_cons.1 h
    rw [List.flatMap_cons, BigEndian.bytes16]
    simp only [List.cons_append, List.nil_append, List.length_cons, readFormatCodes, ih hcodes,
      BigEndian.i16_bytes16 hlow hhigh, Option.map_some]

theorem readParams_bytes (total : Nat) {params : List (Option (List UInt8))} (rest : List UInt8)
    (h : (params.flatMap paramBytes).length < 2 ^ 31) :
    readParams total params.length (params.flatMap paramBytes ++ rest) = .ok (some params) := by
  induction params with
  | nil => rfl
  | cons param params ih =>
    rw [List.flatMap_cons, List.length_append] at h
    have hrest := ih (by omega)
    rw [List.flatMap_cons, List.append_assoc]
    cases param with
    | none =>
      have hnull : BigEndian.i32 255 255 255 255 = -1 := by decide
      simp only [paramBytes, List.cons_append, List.nil_append, List.length_cons, readParams, hnull,
        if_true, hrest]
      rfl
    | some value =>
      have hlen : value.length < 2 ^ 31 := by
        rw [paramBytes, List.length_append] at h
        omega
      have hnat : ¬ (value.length : Int) = -1 ∧ ¬ (value.length : Int) < 0 := by omega
      have hthere : ¬ (value ++ (params.flatMap paramBytes ++ rest)).length <
          value.length := by simp
      rw [paramBytes, List.append_assoc, BigEndian.bytes32]
      simp only [List.cons_append, List.nil_append, List.length_cons, readParams,
        BigEndian.i32_bytes32 hlen, hnat, if_false, hthere, Int.toNat_natCast, List.take_left,
        List.drop_left, hrest]
      rfl

/-- A count is read back as it was written, and there is capacity for it. -/
theorem i16_count {n : Nat} (h : n ≤ 32767) :
    BigEndian.i16 (UInt8.ofNat (((n : Int) % 2 ^ 16).toNat / 2 ^ 8))
      (UInt8.ofNat ((n : Int) % 2 ^ 16).toNat) = n ∧ withCapacity n = .ok () := by
  refine ⟨BigEndian.i16_bytes16 (by omega) (by omega), ?_⟩
  rw [withCapacity, if_neg (by omega)]

theorem parseParseMessage_payload {name query : Str} {paramOids : List Nat}
    (h : FieldsFit (.parse name query paramOids)) :
    parseParseMessage (payload (.parse name query paramOids)) =
      .ok (some (.parse name query paramOids)) := by
  obtain ⟨hname, hquery, hcount, hoids⟩ := h
  obtain ⟨hi16, hcapacity⟩ := i16_count hcount
  unfold parseParseMessage
  simp only [payload, readCstring_cstring hname, readCstring_cstring hquery, BigEndian.bytes16,
    List.cons_append, List.nil_append, hi16, hcapacity, Rust.ok_bind, Int.toNat_natCast,
    readOids_bytes hoids]
  rfl

theorem parseBindMessage_payload {portal statement : Str} {formatCodes resultFormats : List Int}
    {paramsRaw : List (Option (List UInt8))}
    (h : FieldsFit (.bind portal statement formatCodes paramsRaw resultFormats))
    (hfits : Fits (frame (.bind portal statement formatCodes paramsRaw resultFormats))) :
    parseBindMessage (payload (.bind portal statement formatCodes paramsRaw resultFormats)) =
      .ok (some (.bind portal statement formatCodes paramsRaw)) := by
  obtain ⟨hportal, hstatement, hcodeCount, hcodes, hparamCount⟩ := h
  obtain ⟨hi16, hcapacity⟩ := i16_count hcodeCount
  obtain ⟨hi16', hcapacity'⟩ := i16_count hparamCount
  have hsize : (paramsRaw.flatMap paramBytes).length < 2 ^ 31 := by
    have hshort := hfits.short
    simp only [frame, payload, Frame.len, List.length_append] at hshort
    omega
  unfold parseBindMessage
  simp only [payload, formatBytes, List.append_assoc, readCstring_cstring hportal,
    readCstring_cstring hstatement]
  generalize (cstring portal ++ _).length = total
  simp only [BigEndian.bytes16, List.cons_append, List.nil_append, hi16, hcapacity, Rust.ok_bind,
    Int.toNat_natCast, readFormatCodes_bytes hcodes, hi16', hcapacity', readParams_bytes total _ hsize]
  rfl

/-- The payload of a message is parsed as that message. -/
theorem parsePayload_frame {m : FrontendMessage} (h : m.FieldsFit) (hfits : Fits m.frame) :
    parsePayload m.frame.tag m.frame.payload = .ok (some m.message) := by
  cases m with
  | query text =>
    show Except.ok (parseQueryMessage (cstring text)) = _
    have hread := readCstring_cstring h []
    rw [List.append_nil] at hread
    rw [parseQueryMessage, hread]
    rfl
  | parse name text paramOids => exact parseParseMessage_payload h
  | bind portal statement formatCodes paramsRaw resultFormats => exact parseBindMessage_payload h hfits
  | execute portal maxRows =>
    show Except.ok (parseExecuteMessage (cstring portal ++ BigEndian.bytes32 maxRows)) = _
    rw [parseExecuteMessage, readCstring_cstring h]
    rfl
  | close kind name =>
    obtain ⟨hkind, hname⟩ := h
    have hread := readCstring_cstring hname []
    rw [List.append_nil] at hread
    have hbyte : Char.ofNat (UInt8.ofNat kind.toNat).toNat = kind := by
      rw [Utf8.toNat_ofNat (by omega), Char.ofNat_toNat]
    show Except.ok (parseCloseMessage (UInt8.ofNat kind.toNat :: cstring name)) = _
    rw [parseCloseMessage, hread, hbyte]
    rfl
  | sync => rfl
  | terminate => rfl

theorem messagesOf_frames {messages : List FrontendMessage}
    (h : ∀ m ∈ messages, m.FieldsFit ∧ Fits m.frame) :
    messagesOf (messages.map frame) = .ok (messages.map message) := by
  have hparsed : ((messages.map frame).mapM fun f => parsePayload f.tag f.payload) =
      .ok (messages.map fun m => some m.message) := by
    induction messages with
    | nil => rfl
    | cons m messages ih =>
      obtain ⟨⟨hfields, hfits⟩, hrest⟩ := List.forall_mem_cons.1 h
      rw [List.map_cons, List.mapM_cons, parsePayload_frame hfields hfits, Rust.ok_bind, ih hrest]
      rfl
  have hflat : (messages.map fun m => some m.message).flatMap Option.toList = messages.map message := by
    rw [List.flatMap_map]
    exact List.flatMap_pure_eq_map message messages
  rw [messagesOf, hparsed, ← hflat]
  rfl

end FrontendMessage

/-- A list of frontend messages, encoded one after the other, is extracted as that list. -/
theorem extractMessages_encoded (messages : List FrontendMessage)
    (h : ∀ m ∈ messages, m.FieldsFit ∧ m.frame.len ≤ 64 * 1024 * 1024) :
    extractMessages [] (encodeAll (messages.map FrontendMessage.frame)) =
      .ok (messages.map FrontendMessage.message, []) := by
  have hfit : ∀ f ∈ messages.map FrontendMessage.frame ++ [], Fits f := by
    intro f hf
    rw [List.append_nil] at hf
    obtain ⟨m, hm, rfl⟩ := List.mem_map.1 hf
    exact (h m hm).2
  have hrest : Frame.Partial [] [] := rfl
  rw [extractMessages_encodeAll hfit hrest (by simp), FrontendMessage.messagesOf_frames h]
  rfl

/-- A statement is prepared, used with a NULL and closed. -/
def preparedCycle : List FrontendMessage :=
  [.parse "s".toList "SELECT $1".toList [23], .bind [] "s".toList [1, -1] [none, some [0, 7]] [0],
    .execute [] 100, .close 'S' "s".toList, .sync, .query "é".toList, .terminate]

theorem extractMessages_preparedCycle :
    extractMessages [] (encodeAll (preparedCycle.map FrontendMessage.frame)) =
      .ok ([.parse "s".toList "SELECT $1".toList [23],
        .bind [] "s".toList [1, -1] [none, some [0, 7]], .execute [], .close 'S' "s".toList, .sync,
        .query "é".toList, .terminate], []) :=
  extractMessages_encoded preparedCycle (by decide)

end ScryProxy
