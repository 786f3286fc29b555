import ScryProxy.Native.AdminResponse
import ScryProxy.Spec.Pg.Backend

/-!
# What a client of the admin console reads

The bytes of a response are decoded as the messages of a reply: a row set with its columns, rows
and row count, a tag or an error, and one ReadyForQuery at the end (`decodeAll_toWire`).
-/

namespace ScryProxy

open Frame (encodeAll)
open Str (NulFree)
open StartupMessage (cstring)

namespace AdminResponse

/-! ## Frames and messages -/

def readyFrame : Frame := ⟨'Z'.toUInt8, ['I'.toUInt8]⟩

/-- The messages of a response, before they are written. -/
def frames : AdminResponse → List Frame
  | .rowSet columns rows =>
    rowDescription columns :: (rows.map dataRow ++ [commandCompleteFrame (selectTag rows), readyFrame])
  | .commandComplete tag => [commandCompleteFrame tag, readyFrame]
  | .error message => [errorResponse message, readyFrame]

theorem toWire_eq (r : AdminResponse) : r.toWire = encodeAll r.frames := by
  have hready : buildReadyForQuery = readyFrame.encode := by decide
  cases r with
  | rowSet columns rows =>
    have hrows : rows.flatMap buildDataRow = encodeAll (rows.map dataRow) := by
      rw [encodeAll, List.flatMap_map]
      rfl
    simp only [toWire, frames, hready, hrows, Frame.encodeAll_cons, Frame.encodeAll_append,
      Frame.encodeAll_nil, List.append_assoc, List.append_nil, buildRowDescription,
      buildCommandComplete]
  | commandComplete tag =>
    simp only [toWire, frames, hready, Frame.encodeAll_cons, Frame.encodeAll_nil, List.append_nil,
      buildCommandComplete]
  | error message =>
    simp only [toWire, frames, hready, Frame.encodeAll_cons, Frame.encodeAll_nil, List.append_nil,
      buildErrorResponse]

/-- A column of type `text`. -/
def textColumn (name : Str) : Pg.Field := ⟨name, 0, 0, 25, -1, -1, 0⟩

/-- What the reply says. -/
def messages : AdminResponse → List Pg.BackendMessage
  | .rowSet columns rows =>
    .rowDescription (columns.map textColumn) ::
      (rows.map (fun row => .dataRow (row.map some)) ++
        [.commandComplete ("SELECT ".toList ++ Nat.toDigits 10 rows.length),
          .readyForQuery 'I'.toUInt8])
  | .commandComplete tag => [.commandComplete tag, .readyForQuery 'I'.toUInt8]
  | .error message =>
    [.errorResponse [('S'.toUInt8, "ERROR".toList), ('C'.toUInt8, "42000".toList),
      ('M'.toUInt8, message)], .readyForQuery 'I'.toUInt8]

/-- Texts without NULs, as many columns as can be counted, and rows as long as the columns. -/
def WellFormed : AdminResponse → Prop
  | .rowSet columns rows => (∀ name ∈ columns, NulFree name) ∧ columns.length ≤ 32767 ∧
      ∀ row ∈ rows, row.length = columns.length
  | .commandComplete tag => NulFree tag
  | .error message => NulFree message

/-! ## Message by message -/

theorem readField_columnBytes {name : Str} (h : NulFree name) (rest : List UInt8) :
    Pg.readField (columnBytes name ++ rest) = some (textColumn name, rest) := by
  have hnumbers : BigEndian.bytes32 0 ++ (BigEndian.bytes16 0 ++ (BigEndian.bytes32 25 ++
      (BigEndian.bytes16 (-1) ++ ([255, 255, 255, 255] ++ BigEndian.bytes16 0)))) =
      [0, 0, 0, 0, 0, 0, 0, 0, 0, 25, 255, 255, 255, 255, 255, 255, 0, 0] := by decide
  have hbytes : columnBytes name ++ rest = Utf8.encode name ++
      0 :: ([0, 0, 0, 0, 0, 0, 0, 0, 0, 25, 255, 255, 255, 255, 255, 255, 0, 0] ++ rest) := by
    rw [columnBytes, hnumbers, cstring, List.append_assoc, List.append_assoc]
    rfl
  have hcolumn : textColumn name = ⟨name, BigEndian.u32 0 0 0 0, BigEndian.i16 0 0,
      BigEndian.u32 0 0 0 25, BigEndian.i16 255 255, BigEndian.i32 255 255 255 255,
      BigEndian.i16 0 0⟩ := by
    rw [textColumn, Pg.Field.mk.injEq]
    exact ⟨rfl, by decide, by decide, by decide, by decide, by decide, by decide⟩
  rw [hbytes, hcolumn, Pg.readField, Pg.readText_append h]
  rfl

theorem decodeFrame_rowDescription {columns : List Str} (h : ∀ name ∈ columns, NulFree name)
    (hcount : columns.length ≤ 32767) :
    Pg.decodeFrame (rowDescription columns) = some (.rowDescription (columns.map textColumn)) := by
  have hread : Pg.readAll Pg.readField (rowDescription columns).payload =
      some (columns.map textColumn) := by
    have hitems : ∀ f ∈ columns.map textColumn, ∀ rest,
        Pg.readField (columnBytes f.name ++ rest) = some (f, rest) := by
      intro f hf rest
      obtain ⟨name, hname, rfl⟩ := List.mem_map.1 hf
      exact readField_columnBytes (h name hname) rest
    have hall := Pg.readAll_append Pg.readField (fun f => columnBytes f.name)
      (by rwa [List.length_map]) hitems
    rwa [List.flatMap_map, List.length_map] at hall
  show (Pg.readAll Pg.readField (rowDescription columns).payload).map
    Pg.BackendMessage.rowDescription = _
  rw [hread]
  rfl

/-- A value is not longer than its row. -/
theorem length_value_lt {values : List Str} (hshort : (dataRow values).len < 2 ^ 31) :
    ∀ value ∈ values, (Utf8.encode value).length < 2 ^ 31 := by
  intro value hvalue
  obtain ⟨before, after, rfl⟩ := List.append_of_mem hvalue
  simp only [dataRow, Frame.len, List.flatMap_append, List.flatMap_cons, valueBytes,
    List.length_append] at hshort
  omega

theorem decodeFrame_dataRow {values : List Str} (hcount : values.length ≤ 32767)
    (hshort : (dataRow values).len < 2 ^ 31) :
    Pg.decodeFrame (dataRow values) = some (.dataRow (values.map some)) := by
  have hread : Pg.readAll Pg.readValue (dataRow values).payload = some (values.map some) := by
    have hitems : ∀ v ∈ values.map some, ∀ rest,
        Pg.readValue (valueBytes (v.getD []) ++ rest) = some (v, rest) := by
      intro v hv rest
      obtain ⟨value, hvalue, rfl⟩ := List.mem_map.1 hv
      rw [Option.getD_some, valueBytes, List.append_assoc]
      exact Pg.readValue_append (length_value_lt hshort value hvalue) rest
    have hall := Pg.readAll_append Pg.readValue (fun v => valueBytes (v.getD []))
      (by rwa [List.length_map]) hitems
    rwa [List.flatMap_map, List.length_map] at hall
  show (Pg.readAll Pg.readValue (dataRow values).payload).map Pg.BackendMessage.dataRow = _
  rw [hread]
  rfl

theorem decodeFrame_commandComplete {tag : Str} (h : NulFree tag) :
    Pg.decodeFrame (commandCompleteFrame tag) = some (.commandComplete tag) := by
  have hread := Pg.readText_append h []
  have htag : (commandCompleteFrame tag).tag = 'C'.toUInt8 := rfl
  have hpayload : (commandCompleteFrame tag).payload = Utf8.encode tag ++ [0] := rfl
  rw [Pg.decodeFrame, htag, if_neg (by decide), if_neg (by decide), if_pos rfl, hpayload, hread]

theorem decodeFrame_errorResponse {message : Str} (h : NulFree message) :
    Pg.decodeFrame (errorResponse message) = some (.errorResponse [('S'.toUInt8, "ERROR".toList),
      ('C'.toUInt8, "42000".toList), ('M'.toUInt8, message)]) := by
  have hfields : Pg.readErrorFields (errorResponse message).payload.length
      (errorResponse message).payload = some [('S'.toUInt8, "ERROR".toList),
        ('C'.toUInt8, "42000".toList), ('M'.toUInt8, message)] := by
    have hpayload : (errorResponse message).payload = [('S'.toUInt8, "ERROR".toList),
        ('C'.toUInt8, "42000".toList), ('M'.toUInt8, message)].flatMap Pg.errorField ++ [0] := by
      simp [errorResponse, Pg.errorField, cstring]
    have hnul : ∀ field ∈ [('S'.toUInt8, "ERROR".toList), ('C'.toUInt8, "42000".toList),
        ('M'.toUInt8, message)], NulFree field.2 := by
      simpa using (⟨by decide, by decide, h⟩ :
        NulFree "ERROR".toList ∧ NulFree "42000".toList ∧ NulFree message)
    rw [hpayload]
    exact Pg.readErrorFields_append hnul (by simp [Pg.errorField]; omega)
  show (Pg.readErrorFields (errorResponse message).payload.length
    (errorResponse message).payload).map Pg.BackendMessage.errorResponse = _
  rw [hfields]
  rfl

theorem nulFree_selectTag (rows : List (List Str)) : NulFree (selectTag rows) := by
  intro hmem
  rcases List.mem_append.1 hmem with hmem | hmem
  · exact absurd hmem (by decide)
  · have hdigit := Nat.isDigit_of_mem_toDigits (by decide) (by decide) hmem
    exact absurd hdigit (by decide)

theorem mapM_dataRows {rows : List (List Str)} (hcount : ∀ row ∈ rows, row.length ≤ 32767)
    (hshort : ∀ row ∈ rows, (dataRow row).len < 2 ^ 31) :
    (rows.map dataRow).mapM Pg.decodeFrame =
      some (rows.map fun row => .dataRow (row.map some)) := by
  induction rows with
  | nil => rfl
  | cons row rows ih =>
    obtain ⟨hrow, hrows⟩ := List.forall_mem_cons.1 hcount
    obtain ⟨hfits, hrest⟩ := List.forall_mem_cons.1 hshort
    rw [List.map_cons, List.mapM_cons, decodeFrame_dataRow hrow hfits, ih hrows hrest]
    rfl

theorem mapM_decodeFrame {r : AdminResponse} (h : r.WellFormed)
    (hsize : ∀ f ∈ r.frames, f.len < 2 ^ 31) : r.frames.mapM Pg.decodeFrame = some r.messages := by
  have hready : Pg.decodeFrame readyFrame = some (.readyForQuery 'I'.toUInt8) := by decide
  cases r with
  | rowSet columns rows =>
    obtain ⟨hnames, hcount, hrows⟩ := h
    have hdata := mapM_dataRows (fun row hrow => (hrows row hrow).trans_le hcount) fun row hrow =>
      hsize (dataRow row) (List.mem_cons_of_mem _
        (List.mem_append_left _ (List.mem_map_of_mem hrow)))
    rw [frames, List.mapM_cons, List.mapM_append, List.mapM_cons, List.mapM_cons, List.mapM_nil,
      decodeFrame_rowDescription hnames hcount, hdata,
      decodeFrame_commandComplete (nulFree_selectTag rows), hready]
    rfl
  | commandComplete tag =>
    rw [frames, List.mapM_cons, List.mapM_cons, List.mapM_nil, decodeFrame_commandComplete h, hready]
    rfl
  | error message =>
    rw [frames, List.mapM_cons, List.mapM_cons, List.mapM_nil, decodeFrame_errorResponse h, hready]
    rfl

/-- The bytes of a response are the messages of the reply and nothing else: a row set with its columns,
    its rows in their order and `SELECT` with their number, or the tag, or the error, and then one
    ReadyForQuery with the status idle. -/
theorem decodeAll_toWire (r : AdminResponse) (h : r.WellFormed)
    (hsize : ∀ f ∈ r.frames, f.len < 2 ^ 31) : Pg.decodeAll r.toWire = some r.messages := by
  rw [toWire_eq]
  exact Pg.decodeAll_encodeAll hsize (mapM_decodeFrame h hsize)

/-- A report of two rows, with an empty value and one that is not ASCII. -/
def versionReport : AdminResponse :=
  .rowSet ["key".toList, "value".toList]
    [["version".toList, "é".toList], ["pool".toList, []]]

theorem decodeAll_versionReport :
    Pg.decodeAll versionReport.toWire = some
      [.rowDescription [⟨"key".toList, 0, 0, 25, -1, -1, 0⟩, ⟨"value".toList, 0, 0, 25, -1, -1, 0⟩],
        .dataRow [some "version".toList, some "é".toList], .dataRow [some "pool".toList, some []],
        .commandComplete "SELECT 2".toList, .readyForQuery 'I'.toUInt8] :=
  decodeAll_toWire versionReport (by unfold versionReport WellFormed; decide) (by decide)

end AdminResponse

end ScryProxy
