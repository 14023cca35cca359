/-
**Replies on the wire.**

The functions of `RESPSerializer` that the server answers with, and the arrays that its command
handlers spell out themselves. The first byte of a reply is its type: nothing else looks like an
error (`IsError`).
-/

import SunKV.Protocol.Command

namespace SunKV.Protocol

open SunKV.Lib

/-- `kSimpleStringOk`. -/
def kSimpleStringOk : Bytes := text "+OK" ++ crlf

/-- `kSimpleStringPong`. -/
def kSimpleStringPong : Bytes := text "+PONG" ++ crlf

/-- `kNullBulkString`. -/
def kNullBulkString : Bytes := text "$-1" ++ crlf

/-- `serializeError`. -/
def serializeError (error : Bytes) : Bytes := [ascii '-'] ++ error ++ crlf

/-- `serializeInteger`. -/
def serializeInteger (value : Int) : Bytes := [ascii ':'] ++ toDecimal value ++ crlf

/-- `serializeBulkString`. -/
def serializeBulkString (str : Bytes) : Bytes :=
  [ascii '$'] ++ decimal str.length ++ crlf ++ str ++ crlf

/-- The header of an array. -/
def arrayHeader (size : Nat) : Bytes := [ascii '*'] ++ decimal size ++ crlf

/-- An array of bulk strings. -/
def serializeStrings (strings : List Bytes) : Bytes :=
  arrayHeader strings.length ++ strings.flatMap serializeBulkString

/-- The reply is one error. -/
def IsError (replies : List Bytes) : Prop := ∃ error, replies = [serializeError error]

theorem isError_of_error (error : Bytes) : IsError [serializeError error] := ⟨error, rfl⟩

/-- A reply of another type is no error. -/
theorem not_isError {reply : Bytes} {type : UInt8} (typed : reply.head? = some type)
    (other : type ≠ ascii '-') : ¬ IsError [reply] := by
  rintro ⟨error, same⟩
  obtain rfl := List.singleton_inj.mp same
  exact other (Option.some.inj typed).symm

theorem not_isError_integer (value : Int) : ¬ IsError [serializeInteger value] :=
  not_isError rfl (by decide)

theorem not_isError_bulkString (str : Bytes) : ¬ IsError [serializeBulkString str] :=
  not_isError rfl (by decide)

theorem not_isError_strings (strings : List Bytes) : ¬ IsError [serializeStrings strings] :=
  not_isError rfl (by decide)

theorem not_isError_null : ¬ IsError [kNullBulkString] := not_isError rfl (by decide)

theorem not_isError_ok : ¬ IsError [kSimpleStringOk] := not_isError rfl (by decide)

end SunKV.Protocol
