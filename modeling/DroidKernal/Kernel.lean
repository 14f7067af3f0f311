import DroidKernal.Lib.FlatRecord

/-!
# What the drivers use of the kernel

The drivers call a handful of kernel services whose source is not part of the
repository: the `errno` values, the identity of the calling task, and the
copies between kernel and user memory.  A copy can stop at an unmapped page,
so every user range carries the number of bytes that can be reached.
-/

namespace DroidKernal

/-- Negated error numbers are returned as `ssize_t` or `int`. -/
def EINTR : Int := 4
def ENOMEM : Int := 12
def EFAULT : Int := 14
def EBUSY : Int := 16
def EEXIST : Int := 17
def ENODEV : Int := 19
def EINVAL : Int := 22
def ENOSPC : Int := 28
def EPERM : Int := 1
def EBADF : Int := 9
def E2BIG : Int := 7

/-- `strscpy(dst, src, count)`: the bytes before the terminator. -/
def strscpy (src : List UInt8) (count : Nat) : List UInt8 := src.take (count - 1)

/-- The fields of `current` that the drivers read.  `tgid` is the process,
`pid` the thread, `euid` the effective user. -/
structure Task where
  tgid : Int32
  pid : Int32
  euid : UInt32
  deriving DecidableEq, Repr

/-- The source of a `write`: the bytes of all its segments, of which only the
first `readable` can be fetched before a fault. -/
structure IovIter where
  bytes : List UInt8
  readable : Nat

/-- `iov_iter_count`. -/
def iovIterCount (source : IovIter) : Nat := source.bytes.length

/-- `copy_from_iter`: the bytes fetched, at most `len` of them, and the
advanced iterator. -/
def copyFromIter (source : IovIter) (len : Nat) : List UInt8 × IovIter :=
  let fetched := min len source.readable
  (source.bytes.take fetched,
    { bytes := source.bytes.drop fetched, readable := source.readable - fetched })

/-- The destination of a `read`: its first `writable` bytes can be stored
before a fault. -/
structure UserBuffer where
  writable : Nat

/-- `copy_to_user(buf + off, from, len)`: whether bytes were left uncopied. -/
def copyToUser (user : UserBuffer) (off len : Nat) : Bool :=
  0 < len && user.writable < off + len

@[simp] theorem copyToUser_eq_false {user : UserBuffer} {off len : Nat}
    (reachable : off + len ≤ user.writable) : copyToUser user off len = false := by
  simp [copyToUser, reachable]

/-- The end of the addresses that a process can use. -/
def taskSize : Nat := 2 ^ 47

/-- The memory of the calling process, as the driver reaches it. -/
structure UserMemory where
  byte : Nat → Option UInt8
  unmapped : ∀ addr, taskSize ≤ addr → byte addr = none

namespace UserMemory

open Lib

/-- `copy_from_user` of `len` bytes; there is no result if a byte is left
uncopied. -/
def copyFromUser (memory : UserMemory) : Nat → Nat → Option (List UInt8)
  | _, 0 => some []
  | addr, len + 1 => do
      let byte ← memory.byte addr
      let rest ← memory.copyFromUser (addr + 1) len
      return byte :: rest

/-- `get_user` of a `u32`. -/
def getUser (memory : UserMemory) (addr : Nat) : Option UInt32 :=
  (memory.copyFromUser addr FlatRecord.uint32.size).map FlatRecord.uint32.decode

/-- The bytes at an address. -/
def Holds (memory : UserMemory) (addr : Nat) (bytes : List UInt8) : Prop :=
  ∀ i (bound : i < bytes.length), memory.byte (addr + i) = some bytes[i]

variable {memory : UserMemory} {addr : Nat}

theorem holds_append {left right : List UInt8} :
    memory.Holds addr (left ++ right) ↔
      memory.Holds addr left ∧ memory.Holds (addr + left.length) right := by
  constructor
  · intro both
    constructor
    · intro i bound
      have cell := both i (by simp; omega)
      rwa [List.getElem_append_left bound] at cell
    · intro i bound
      have cell := both (left.length + i) (by simp; omega)
      rw [List.getElem_append_right (by omega)] at cell
      simpa [Nat.add_assoc] using cell
  · rintro ⟨first, second⟩ i bound
    by_cases inLeft : i < left.length
    · rw [List.getElem_append_left inLeft]
      exact first i inLeft
    · rw [List.length_append] at bound
      rw [List.getElem_append_right (by omega)]
      have cell := second (i - left.length) (by omega)
      rwa [Nat.add_assoc, Nat.add_sub_cancel' (by omega)] at cell

/-- Mapped bytes are copied. -/
theorem Holds.copyFromUser {bytes : List UInt8} (held : memory.Holds addr bytes) :
    memory.copyFromUser addr bytes.length = some bytes := by
  induction bytes generalizing addr with
  | nil => rfl
  | cons byte bytes ih =>
      have both : memory.Holds addr ([byte] ++ bytes) := held
      have first : memory.byte addr = some byte := held 0 (by simp)
      have rest : memory.Holds (addr + 1) bytes := (holds_append.mp both).2
      simp only [List.length_cons, UserMemory.copyFromUser, first, ih rest,
        Option.bind_eq_bind, Option.bind_some]
      rfl

end UserMemory

end DroidKernal
