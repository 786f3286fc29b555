import ScryProxy.Native.AdminConsole

/-!
# Wire form of admin responses

Model of `admin/response.rs`: the messages that `to_wire` puts one after the other.
-/

namespace ScryProxy

open StartupMessage (cstring)

namespace AdminResponse

/-- A column of a RowDescription: no table, type `text`, no modifier, text format. -/
def columnBytes (name : Str) : List UInt8 :=
  cstring name ++ (BigEndian.bytes32 0 ++ (BigEndian.bytes16 0 ++ (BigEndian.bytes32 25 ++
    (BigEndian.bytes16 (-1) ++ ([255, 255, 255, 255] ++ BigEndian.bytes16 0)))))

/-- A value of a DataRow with its length. -/
def valueBytes (value : Str) : List UInt8 :=
  BigEndian.bytes32 (Utf8.encode value).length ++ Utf8.encode value

def rowDescription (columns : List Str) : Frame :=
  ⟨'T'.toUInt8, BigEndian.bytes16 columns.length ++ columns.flatMap columnBytes⟩

def dataRow (values : List Str) : Frame :=
  ⟨'D'.toUInt8, BigEndian.bytes16 values.length ++ values.flatMap valueBytes⟩

def commandCompleteFrame (tag : Str) : Frame := ⟨'C'.toUInt8, cstring tag⟩

def errorResponse (message : Str) : Frame :=
  ⟨'E'.toUInt8, 'S'.toUInt8 :: (cstring "ERROR".toList ++ 'C'.toUInt8 :: (cstring "42000".toList ++
    'M'.toUInt8 :: (cstring message ++ [0])))⟩

/-- `build_row_description`. -/
def buildRowDescription (columns : List Str) : List UInt8 := (rowDescription columns).encode

/-- `build_data_row`. -/
def buildDataRow (values : List Str) : List UInt8 := (dataRow values).encode

/-- `build_command_complete`. -/
def buildCommandComplete (tag : Str) : List UInt8 := (commandCompleteFrame tag).encode

/-- `build_ready_for_query`. -/
def buildReadyForQuery : List UInt8 := ['Z'.toUInt8, 0, 0, 0, 5, 'I'.toUInt8]

/-- `build_error_response`. -/
def buildErrorResponse (message : Str) : List UInt8 := (errorResponse message).encode

/-- The tag of a row set. -/
def selectTag (rows : List (List Str)) : Str := "SELECT ".toList ++ Nat.toDigits 10 rows.length

/-- `to_wire`. -/
def toWire : AdminResponse → List UInt8
  | .rowSet columns rows =>
    buildRowDescription columns ++ rows.flatMap buildDataRow ++
      buildCommandComplete (selectTag rows) ++ buildReadyForQuery
  | .commandComplete tag => buildCommandComplete tag ++ buildReadyForQuery
  | .error message => buildErrorResponse message ++ buildReadyForQuery

end AdminResponse

end ScryProxy
