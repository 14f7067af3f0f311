import DroidKernal.Kernel
import DroidKernal.Lib.Ring
import DroidKernal.Log.Entry

/-!
# The logger driver

The functions of `logger.c` on one log, each as the code computes it while it
holds `log->mutex`.  Sizes and offsets are natural numbers: `create_log` takes
the size as an `int`, so no sum of offsets formed here reaches `2 ^ 64`, and
every offset passed to a subtraction from `size` is at most `size`.

The ring memory is a function from offsets to bytes.  Offsets below `size` are
`log->buffer`, larger ones the memory that follows it, so that a store beyond
the buffer is visible in the model instead of being cut off.
-/

namespace DroidKernal.Log

open Lib

/-- `struct logger_reader`, an open file in `log->readers`. -/
structure LoggerReader where
  rOff : Nat
  rAll : Bool
  rVer : Nat
  deriving DecidableEq, Repr

/-- `struct logger_log`.  Readers are kept in the order of `list_add_tail` and
named by their position. -/
structure LoggerLog where
  buffer : Nat → UInt8
  readers : List LoggerReader
  wOff : Nat
  head : Nat
  size : Nat

/-- `logger_offset`. -/
def loggerOffset (log : LoggerLog) (n : Nat) : Nat :=
  n &&& (log.size - 1)

/-- `get_user_hdr_len`: every API version has the same header. -/
def getUserHdrLen (_ver : Nat) : Nat := sizeofLoggerEntry

/-- `get_entry_header`.  A header that straddles the end of the buffer is
assembled in `scratch`. -/
def getEntryHeader (log : LoggerLog) (off : Nat) : LoggerEntry :=
  let len := min sizeofLoggerEntry (log.size - off)
  if len ≠ sizeofLoggerEntry then
    let scratch :=
      Mem.read log.buffer off len ++ Mem.read log.buffer 0 (sizeofLoggerEntry - len)
    LoggerEntry.record.decode scratch
  else
    LoggerEntry.record.decode (Mem.read log.buffer off sizeofLoggerEntry)

/-- `get_next_entry_by_uid`.  The fuel counts iterations; the loop has no bound
of its own. -/
def getNextEntryByUid (log : LoggerLog) (euid : UInt32) : Nat → Nat → Option Nat
  | 0, _ => none
  | fuel + 1, off =>
      if log.wOff ≠ off then
        let entry := getEntryHeader log off
        if entry.euid = euid then
          some off
        else
          -- the source adds the record length to zero, not to `off`
          getNextEntryByUid log euid fuel
            (loggerOffset log (sizeofLoggerEntry + entry.len.toNat))
      else
        some off

/-- Iterations after which the scan has met some offset twice and therefore
runs forever: from the second iteration on, offsets are below `size`. -/
def scanFuel (log : LoggerLog) : Nat := log.size + 2

/-- `get_entry_msg_len`. -/
def getEntryMsgLen (log : LoggerLog) (off : Nat) : Nat :=
  (getEntryHeader log off).len.toNat

/-- What a pass through the locked part of `logger_read` ends with. -/
inductive ReadResult where
  /-- nothing to read: the caller goes back to `start` -/
  | wait
  | error (errno : Int)
  /-- the bytes stored in the user buffer; the return value is their number -/
  | data (bytes : List UInt8)
  deriving DecidableEq, Repr

/-- `do_read_log_to_user`, with `count` the length of header and payload. -/
def doReadLogToUser (log : LoggerLog) (reader : LoggerReader) (user : UserBuffer)
    (count : Nat) : ReadResult × LoggerReader :=
  let entry := getEntryHeader log reader.rOff
  let hdrLen := getUserHdrLen reader.rVer
  if copyToUser user 0 hdrLen then (.error (-EFAULT), reader)
  else
    let count := count - hdrLen
    let msgStart := loggerOffset log (reader.rOff + sizeofLoggerEntry)
    let len := min count (log.size - msgStart)
    if copyToUser user hdrLen len then (.error (-EFAULT), reader)
    else if count ≠ len && copyToUser user (hdrLen + len) (count - len) then
      (.error (-EFAULT), reader)
    else
      let rOff := loggerOffset log (reader.rOff + sizeofLoggerEntry + count)
      let bytes := LoggerEntry.record.encode entry ++
        (Mem.read log.buffer msgStart len ++ Mem.read log.buffer 0 (count - len))
      (.data bytes, { reader with rOff })

/-- The locked part of `logger_read`, from the second `mutex_lock` on.  The wait
loop before it only tests `w_off == r_off` and changes nothing.  There is no
result when the uid scan does not terminate. -/
def loggerRead (log : LoggerLog) (reader : LoggerReader) (euid : UInt32)
    (user : UserBuffer) (count : Nat) : Option (ReadResult × LoggerReader) :=
  let scanned := if reader.rAll then some reader.rOff
    else getNextEntryByUid log euid (scanFuel log) reader.rOff
  scanned.map fun rOff =>
    let reader := { reader with rOff }
    if log.wOff = reader.rOff then (.wait, reader)
    else
      let ret := getUserHdrLen reader.rVer + getEntryMsgLen log reader.rOff
      if count < ret then (.error (-EINVAL), reader)
      else doReadLogToUser log reader user ret

/-- A memory access to `log->buffer`. -/
inductive Access where
  | store (off len : Nat)
  | load (off len : Nat)
  deriving DecidableEq, Repr

/-- What `logger_write_iter` returns, leaves behind, and touches on the way. -/
structure WriteResult where
  ret : Int
  log : LoggerLog
  accesses : List Access

/-- The header that `logger_write_iter` fills in.  `now` and `real_now` are
nanoseconds; `do_div` leaves the seconds and returns the remainder. -/
def writeHeader (current : Task) (now realNow count : Nat) : LoggerEntry where
  len := UInt16.ofNat count
  hdrSize := UInt16.ofNat sizeofLoggerEntry
  pid := current.tgid
  tid := current.pid
  sec := Int32.ofNat (now / 1000000000)
  nsec := Int32.ofNat (now % 1000000000)
  realSec := Int32.ofNat (realNow / 1000000000)
  realNsec := Int32.ofNat (realNow % 1000000000)
  euid := current.euid

/-- The payload length of a request. -/
def writeCount (source : IovIter) : Nat :=
  min (iovIterCount source) loggerEntryMaxPayload

/-- The ring after the header has been stored, in two pieces, at `w_off`. -/
def storeHeader (log : LoggerLog) (header : LoggerEntry) : Nat → UInt8 :=
  let bytes := LoggerEntry.record.encode header
  let len := min sizeofLoggerEntry (log.size - log.wOff)
  Mem.write (Mem.write log.buffer log.wOff (bytes.take len)) 0 (bytes.drop len)

/-- `logger_write_iter`.  `fix_up_readers` is commented out in the source. -/
def loggerWriteIter (log : LoggerLog) (current : Task) (now realNow : Nat)
    (source : IovIter) : WriteResult :=
  let count := writeCount source
  let header := writeHeader current now realNow count
  if header.len = 0 then
    { ret := 0, log, accesses := [] }
  else
    let hdrLen := min sizeofLoggerEntry (log.size - log.wOff)
    let stored := [.store log.wOff hdrLen, .store 0 (sizeofLoggerEntry - hdrLen)]
    let buffer := storeHeader log header
    let wOff := loggerOffset log (log.wOff + sizeofLoggerEntry)
    let len := min count (log.size - wOff)
    let (first, rest) := copyFromIter source len
    let buffer := Mem.write buffer wOff first
    let stored := stored ++ [.store wOff first.length]
    if first.length ≠ len then
      { ret := -EFAULT, log := { log with buffer }, accesses := stored }
    else
      let (second, _) := copyFromIter rest (count - len)
      let buffer := Mem.write buffer 0 second
      let stored := stored ++ [.store 0 second.length]
      if second.length ≠ count - len then
        { ret := -EFAULT, log := { log with buffer }, accesses := stored }
      else
        -- the debug message copies `count` bytes from `w_off` without wrapping
        { ret := len
          log := { log with buffer, wOff := loggerOffset log (wOff + count) }
          accesses := stored ++ [.load wOff count] }

/-- `logger_open` of a readable file, once the log was found and the reader
allocated. -/
def loggerOpen (log : LoggerLog) (inEgroup capSyslog : Bool) : LoggerLog :=
  { log with readers := log.readers ++
      [{ rOff := log.head, rAll := inEgroup || capSyslog, rVer := 1 }] }

/-- The log that `create_log` registers; `vmalloc` does not clear the buffer. -/
def createLog (buffer : Nat → UInt8) (size : Nat) : LoggerLog :=
  { buffer, readers := [], wOff := 0, head := 0, size }

/-- A call on an open log file. -/
inductive Call where
  | openLog (inEgroup capSyslog : Bool)
  | write (current : Task) (now realNow : Nat) (source : IovIter)
  | read (reader : Nat) (euid : UInt32) (user : UserBuffer) (count : Nat)

/-- What the caller sees. -/
inductive Reply where
  | opened
  | wrote (ret : Int)
  | read (result : ReadResult)
  deriving DecidableEq, Repr

/-- One call under the log's mutex.  A read through a file that is not open for
reading cannot happen. -/
def LoggerLog.call (log : LoggerLog) : Call → Option (LoggerLog × Reply)
  | .openLog inEgroup capSyslog => some (loggerOpen log inEgroup capSyslog, .opened)
  | .write current now realNow source =>
      let result := loggerWriteIter log current now realNow source
      some (result.log, .wrote result.ret)
  | .read index euid user count => do
      let reader ← log.readers[index]?
      let (result, reader) ← loggerRead log reader euid user count
      return ({ log with readers := log.readers.set index reader }, .read result)

/-- A step of the log: a call and its reply. -/
def LoggerLog.Step (log : LoggerLog) (event : Call × Reply) (next : LoggerLog) : Prop :=
  log.call event.1 = some (next, event.2)

end DroidKernal.Log
