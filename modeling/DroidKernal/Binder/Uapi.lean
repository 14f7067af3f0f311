import DroidKernal.Kernel

/-!
# What the driver and its clients share

Both sides take the protocol from the kernel's `uapi/linux/android/binder.h`,
which is not part of the repository.  It enters as a parameter: two command
words and a flat layout for the record that follows them.
-/

namespace DroidKernal.Binder

open Lib

/-- `struct binder_transaction_data`.  `target` is the union of a 32-bit handle
and a pointer, `buffer` and `offsets` are `data.ptr`. -/
structure BinderTransactionData where
  target : UInt64
  cookie : UInt64
  code : UInt32
  flags : UInt32
  senderPid : Int32
  senderEuid : UInt32
  dataSize : UInt64
  offsetsSize : UInt64
  buffer : UInt64
  offsets : UInt64
  deriving DecidableEq, Repr

/-- `tr.target.handle`. -/
def BinderTransactionData.handle (tr : BinderTransactionData) : UInt32 :=
  tr.target.toUInt32

/-- The constants and layouts of the header. -/
structure BinderUapi where
  bcTransaction : UInt32
  bcReply : UInt32
  brOk : UInt32
  tfOneWay : UInt32
  tfStatusCode : UInt32
  tfAcceptFds : UInt32
  transactionData : FlatRecord BinderTransactionData
  distinct : bcTransaction ≠ bcReply
  aligned : 4 ∣ transactionData.size
  nonempty : 0 < transactionData.size
  small : transactionData.size ≤ 4096

/-- `struct binder_write_read`. -/
structure BinderWriteRead where
  writeSize : Nat
  writeConsumed : Nat
  writeBuffer : Nat
  readSize : Nat
  readConsumed : Nat
  readBuffer : Nat
  deriving DecidableEq, Repr

/-- The members of `struct binder_transaction_data` in declaration order. -/
def BinderTransactionData.toMembers (tr : BinderTransactionData) :
    UInt64 × UInt64 × UInt32 × UInt32 × Int32 × UInt32 × UInt64 × UInt64 × UInt64 × UInt64 :=
  (tr.target, tr.cookie, tr.code, tr.flags, tr.senderPid, tr.senderEuid, tr.dataSize,
    tr.offsetsSize, tr.buffer, tr.offsets)

/-- Rebuild the structure from its members. -/
def BinderTransactionData.ofMembers :
    UInt64 × UInt64 × UInt32 × UInt32 × Int32 × UInt32 × UInt64 × UInt64 × UInt64 × UInt64 →
      BinderTransactionData
  | (target, cookie, code, flags, senderPid, senderEuid, dataSize, offsetsSize, buffer,
      offsets) =>
      { target, cookie, code, flags, senderPid, senderEuid, dataSize, offsetsSize, buffer,
        offsets }

/-- The header of a 64-bit little-endian Linux. -/
def linuxUapi : BinderUapi where
  bcTransaction := 0x40406300
  bcReply := 0x40406301
  brOk := 0x7201
  tfOneWay := 0x01
  tfStatusCode := 0x08
  tfAcceptFds := 0x10
  transactionData :=
    (FlatRecord.uint64.pair <| FlatRecord.uint64.pair <| FlatRecord.uint32.pair <|
      FlatRecord.uint32.pair <| FlatRecord.int32.pair <| FlatRecord.uint32.pair <|
      FlatRecord.uint64.pair <| FlatRecord.uint64.pair <| FlatRecord.uint64.pair
        FlatRecord.uint64).through
      BinderTransactionData.toMembers BinderTransactionData.ofMembers fun _ => rfl
  distinct := by decide
  aligned := by decide
  nonempty := by decide
  small := by decide

/-! ## Objects in the data -/

/-- `struct flat_binder_object`.  `binder` is the union of a pointer and a 32-bit handle. -/
structure FlatObject where
  type : UInt32
  flags : UInt32
  binder : UInt64
  cookie : UInt64
  deriving DecidableEq, Repr

/-- `obj.handle`. -/
def FlatObject.handle (object : FlatObject) : UInt32 := object.binder.toUInt32

/-- What the header says about objects.  They start with their type; the other members end
where `handleEnd`, `binderEnd` and `cookieEnd` say. -/
structure ObjectUapi where
  binderTypeBinder : UInt32
  binderTypeHandle : UInt32
  binderTypeFd : UInt32
  flatBinderObject : FlatRecord FlatObject
  handleEnd : Nat
  binderEnd : Nat
  cookieEnd : Nat
  distinct : binderTypeBinder ≠ binderTypeHandle
  typeFirst : ∀ bytes,
    (flatBinderObject.decode bytes).type = FlatRecord.uint32.decode (bytes.take 4)
  covers : 4 ≤ flatBinderObject.size
  small : flatBinderObject.size ≤ 4096

namespace ObjectUapi

/-- `sizeof(flat_binder_object)`. -/
def sizeofFlat (uapi : ObjectUapi) : Nat := uapi.flatBinderObject.size

theorem sizeofFlat_pos (uapi : ObjectUapi) : 0 < uapi.sizeofFlat :=
  Nat.lt_of_lt_of_le (by decide) uapi.covers

end ObjectUapi

/-- The members of `struct flat_binder_object` in declaration order. -/
def FlatObject.toMembers (object : FlatObject) : UInt32 × UInt32 × UInt64 × UInt64 :=
  (object.type, object.flags, object.binder, object.cookie)

/-- Rebuild the structure from its members. -/
def FlatObject.ofMembers : UInt32 × UInt32 × UInt64 × UInt64 → FlatObject
  | (type, flags, binder, cookie) => { type, flags, binder, cookie }

/-- The objects of a 64-bit little-endian Linux. -/
def linuxObjects : ObjectUapi where
  binderTypeBinder := 0x73622a85
  binderTypeHandle := 0x73682a85
  binderTypeFd := 0x66642a85
  flatBinderObject :=
    (FlatRecord.uint32.pair <| FlatRecord.uint32.pair <|
      FlatRecord.uint64.pair FlatRecord.uint64).through
      FlatObject.toMembers FlatObject.ofMembers fun _ => rfl
  handleEnd := 12
  binderEnd := 16
  cookieEnd := 24
  distinct := by decide
  typeFirst := fun _ => rfl
  covers := by decide
  small := by decide

end DroidKernal.Binder
