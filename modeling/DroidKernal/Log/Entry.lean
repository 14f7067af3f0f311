import DroidKernal.Lib.FlatRecord

/-!
# The record header `struct logger_entry`

Every record in a log starts with this header; `len` payload bytes follow.
-/

namespace DroidKernal.Log

open Lib

/-- `struct logger_entry` without its flexible tail `msg`. -/
structure LoggerEntry where
  len : UInt16
  hdrSize : UInt16
  pid : Int32
  tid : Int32
  sec : Int32
  nsec : Int32
  realSec : Int32
  realNsec : Int32
  euid : UInt32
  deriving DecidableEq, Repr

namespace LoggerEntry

/-- The members in declaration order, as nested pairs. -/
def toMembers (entry : LoggerEntry) :
    UInt16 × UInt16 × Int32 × Int32 × Int32 × Int32 × Int32 × Int32 × UInt32 :=
  (entry.len, entry.hdrSize, entry.pid, entry.tid, entry.sec, entry.nsec,
    entry.realSec, entry.realNsec, entry.euid)

/-- Rebuild the structure from its members. -/
def ofMembers :
    UInt16 × UInt16 × Int32 × Int32 × Int32 × Int32 × Int32 × Int32 × UInt32 →
      LoggerEntry
  | (len, hdrSize, pid, tid, sec, nsec, realSec, realNsec, euid) =>
      { len, hdrSize, pid, tid, sec, nsec, realSec, realNsec, euid }

/-- The memory layout: no member needs padding on any ABI that aligns a member
to at most its own size. -/
def record : FlatRecord LoggerEntry :=
  (FlatRecord.uint16.pair <| FlatRecord.uint16.pair <| FlatRecord.int32.pair <|
    FlatRecord.int32.pair <| FlatRecord.int32.pair <| FlatRecord.int32.pair <|
    FlatRecord.int32.pair <| FlatRecord.int32.pair FlatRecord.uint32).through
      toMembers ofMembers fun _ => rfl

end LoggerEntry

/-- `sizeof(struct logger_entry)`. -/
def sizeofLoggerEntry : Nat := 32

@[simp] theorem record_size : LoggerEntry.record.size = sizeofLoggerEntry := rfl

/-- `LOGGER_ENTRY_MAX_PAYLOAD` of the driver's `logger.h`. -/
def loggerEntryMaxPayload : Nat := 4 * 1024

/-- A stored record: the header and the payload that follows it. -/
structure Record where
  header : LoggerEntry
  payload : List UInt8
  deriving DecidableEq

namespace Record

/-- The bytes of a record in the log and on their way to a reader. -/
def bytes (record : Record) : List UInt8 :=
  LoggerEntry.record.encode record.header ++ record.payload

@[simp] theorem bytes_length (record : Record) :
    record.bytes.length = sizeofLoggerEntry + record.payload.length := by
  simp [bytes]

end Record

end DroidKernal.Log
