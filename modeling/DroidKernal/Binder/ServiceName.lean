import DroidKernal.Binder.Encoding
import DroidKernal.Binder.Talk
import DroidKernal.Utils.TextRoundTrip

/-!
# The name of a service on its way to the driver

`ServiceManagerShim::addService` of `IServiceManager.cpp` converts the name, and
`BpServiceManager::addService` writes it to a Parcel and calls `transact`.  The driver is
handed a command that refers to that Parcel.  From the bytes there, the text can be read back.
-/

namespace DroidKernal.Binder

open Lib

/-! ## The calls -/

/-- `IBinder::FIRST_CALL_TRANSACTION`. -/
def firstCallTransaction : UInt32 := 0x00000001

/-- `BnServiceManager::TRANSACTION_addService`. -/
def transactionAddService : UInt32 := firstCallTransaction + 2

/-- `binder::Status`. -/
structure Status where
  mException : Int
  mErrorCode : Int
  deriving DecidableEq, Repr

/-- `EX_TRANSACTION_FAILED`. -/
def exTransactionFailed : Int := -129

/-- `FAILED_TRANSACTION`, which is `UNKNOWN_ERROR + 2`. -/
def failedTransaction : Int := -2 ^ 31 + 2

/-- `Status::fromExceptionCode`. -/
def Status.fromExceptionCode (exceptionCode : Int) : Status :=
  if exceptionCode = exTransactionFailed then ⟨exceptionCode, failedTransaction⟩
  else ⟨exceptionCode, noError⟩

/-- What a call leaves behind: the status, the Parcel `data` as it was passed on, and what
`transact` left behind. -/
structure AddService (K : Type) where
  status : Status
  data : Parcel
  response : Response K

section Calls

variable {K : Type} (ioctl : K → UserMemory → BinderWriteRead → IoctlResult × K)

/-- `BpServiceManager::addService` on a proxy for `mHandle`: the name is a C string, and the
other arguments are not written.  The results of the calls are not looked at. -/
def bpAddService (uapi : BinderUapi) (heap : Heap) (heaps : CallHeaps)
    (outside : Nat → Option UInt8) (fuel : Nat) (kernel : K) (thread : IPCThreadState)
    (mHandle : Int32) (name : List UInt8) : Option (AddService K) := do
  let written ← Parcel.initState.write heap name
  let data := written.parcel
  let response ← transact ioctl uapi heaps (data.memory outside).byte fuel kernel thread mHandle
    transactionAddService data (some .initState) 0
  return { status := .fromExceptionCode 10086, data, response }

/-- `ServiceManagerShim::addService`. -/
def shimAddService (uapi : BinderUapi) (heap : Heap) (heaps : CallHeaps)
    (outside : Nat → Option UInt8) (fuel : Nat) (kernel : K) (thread : IPCThreadState)
    (mHandle : Int32) (a : Utils.Allocator UInt8) (strings : Utils.StringMemory)
    (name : Utils.String16) : Option (AddService K) := do
  let (buf, strings) ← strings.ofString16 a name
  let bytes ← strings.cString buf
  bpAddService ioctl uapi heap heaps outside fuel kernel thread mHandle bytes

end Calls

/-! ## The bytes -/

/-- The bytes of a name in a Parcel. -/
def nameBytes (chars : List Char) : List UInt8 := (Parcel.Item.data (utf8Encode chars)).encoding

/-- Different texts have different bytes. -/
theorem utf8Encode_injective {chars others : List Char}
    (same : utf8Encode chars = utf8Encode others) : chars = others := by
  have sameBytes : chars.utf8Encode = others.utf8Encode := by
    rw [List.utf8Encode, List.utf8Encode]
    exact congrArg List.toByteArray same
  have decoded := List.utf8Decode?_utf8Encode (l := chars)
  rw [sameBytes, List.utf8Decode?_utf8Encode] at decoded
  exact (congrArg Array.toList (Option.some.inj decoded)).symm

theorem zero_notMem_utf8Encode {chars : List Char} (noNul : Char.ofNat 0 ∉ chars) :
    0 ∉ utf8Encode chars := by
  intro member
  obtain ⟨c, isIn, zero⟩ := List.mem_flatMap.mp member
  exact noNul (zero_mem_utf8EncodeChar zero ▸ isIn)

/-- What is before the zero bytes at the end is determined. -/
theorem append_zeros_injective {bytes others : List UInt8} (noZero : 0 ∉ bytes)
    (othersNoZero : 0 ∉ others) {n m : Nat}
    (same : bytes ++ List.replicate n 0 = others ++ List.replicate m 0) : bytes = others := by
  have filtered : ∀ {bytes : List UInt8}, 0 ∉ bytes → ∀ n,
      (bytes ++ List.replicate n 0).filter (fun byte => byte != 0) = bytes := by
    intro bytes noZero n
    have allKept : bytes.filter (fun byte => byte != 0) = bytes := by
      rw [List.filter_eq_self]
      intro byte member
      rw [bne_iff_ne]
      exact fun isZero => noZero (isZero ▸ member)
    have noneKept : (List.replicate n (0 : UInt8)).filter (fun byte => byte != 0) = [] := by
      rw [List.filter_eq_nil_iff]
      intro byte member
      rw [List.eq_of_mem_replicate member]
      exact fun kept => absurd kept Bool.false_ne_true
    rw [List.filter_append, allKept, noneKept, List.append_nil]
  rw [← filtered noZero n, same, filtered othersNoZero m]

/-- The text can be read back. -/
theorem nameBytes_injective {chars others : List Char} (noNul : Char.ofNat 0 ∉ chars)
    (othersNoNul : Char.ofNat 0 ∉ others) (same : nameBytes chars = nameBytes others) :
    chars = others :=
  utf8Encode_injective (append_zeros_injective (zero_notMem_utf8Encode noNul)
    (zero_notMem_utf8Encode othersNoNul) same)

/-! ## The way -/

section Way

variable {a : Utils.Allocator UInt8} {strings : Utils.StringMemory} {chars : List Char}
  {name : Utils.String16}

/-- The conversion gives the bytes of the text. -/
theorem name_converted (known : ∀ old ∈ strings.storage.freed, old < strings.storage.allocated)
    (noNul : Char.ofNat 0 ∉ chars) (fits : (utf8Encode chars).length + 1 < 2 ^ 63)
    (provided : strings.Provided a (utf8Encode chars)) (isText : name.content = utf16Encode chars) :
    ∃ buf next, strings.ofString16 a name = some (buf, next) ∧
      next.cString buf = some (utf8Encode chars) := by
  obtain ⟨buf, next, converted, holds⟩ :=
    (Utils.StringMemory.ofString16_holds_iff isText fits known).mpr provided
  exact ⟨buf, next, converted,
    ((Utils.StringMemory.holds_iff (zero_notMem_utf8Encode noNul)).mp holds).1⟩

/-- A Parcel of its own takes the bytes. -/
theorem name_written {heap : Heap} (succeeds : heap.Succeeds)
    (short : (nameBytes chars).length * 3 / 2 ≤ int32Max) :
    ∃ data, Parcel.initState.write heap (utf8Encode chars) =
        some { value := noError, parcel := data, effects := [] } ∧
      data.Appending (nameBytes chars) := by
  have length := Parcel.Item.encoding_length (.data (utf8Encode chars))
  obtain ⟨data, written, appending⟩ := Parcel.appending_initState.append_item succeeds
    (.data (utf8Encode chars)) fun _ => by
      rw [← length]
      change (0 + (nameBytes chars).length) * 3 / 2 ≤ int32Max
      rwa [Nat.zero_add]
  exact ⟨data, written, appending⟩

/-- For every name that is a text without null characters, after any transactions of the thread
that fit `mOut`, without an allocation failure and unless `errno` is `EINTR`: `addService` reports
its fixed status, and the last command that the driver is handed asks the object behind `mHandle`
for `addService`, with a buffer that holds the text in UTF-8, padded with zero bytes.  A name is
the only one with its bytes. -/
theorem service_name_arrives (uapi : BinderUapi) (pid : Int32) {fd errno : Int} (valid : 0 ≤ fd)
    (notInterrupted : errno ≠ EINTR) {calls : List TransactCall}
    (allocated : ∀ call ∈ calls, call.heaps.writeCmd.Succeeds ∧ call.heaps.writeTr.Succeeds)
    (limit : ((accepted calls).length + 1) * Command.size uapi * 3 / 2 ≤ int32Max)
    (known : ∀ old ∈ strings.storage.freed, old < strings.storage.allocated)
    (noNul : Char.ofNat 0 ∉ chars) (provided : strings.Provided a (utf8Encode chars))
    (isText : name.content = utf16Encode chars) {heap : Heap} (succeeds : heap.Succeeds)
    (short : (nameBytes chars).length * 3 / 2 ≤ int32Max) {heaps : CallHeaps}
    (cmdAllocated : heaps.writeCmd.Succeeds) (trAllocated : heaps.writeTr.Succeeds)
    (outside : Nat → Option UInt8) (mHandle : Int32) (fuel : Nat) :
    ∃ driver thread added tr,
      transactAll uapi (.create uapi pid) (fuel + 1) { handed := [], rets := [], errno } (.init fd)
        calls = some (driver, thread) ∧
      shimAddService (driverIoctl uapi (.create uapi pid)) uapi heap heaps outside (fuel + 1)
        driver thread mHandle a strings name = some added ∧
      added.status = ⟨10086, noError⟩ ∧
      added.response.kernel.handed = driver.handed ++
        (accepted calls).map (TransactCall.command uapi) ++ [⟨uapi.bcTransaction, tr⟩] ∧
      tr.target = mHandle.toUInt32.toUInt64 ∧ tr.code = transactionAddService ∧
      tr.flags = uapi.tfAcceptFds ∧ tr.dataSize.toNat = (nameBytes chars).length ∧
      tr.offsetsSize = 0 ∧
      (added.data.memory outside).Holds tr.buffer.toNat (nameBytes chars) ∧
      ∀ others : List Char, Char.ofNat 0 ∉ others → nameBytes others = nameBytes chars →
        others = chars := by
  have length : (nameBytes chars).length = ((utf8Encode chars).length + 3) / 4 * 4 :=
    Parcel.Item.encoding_length (.data (utf8Encode chars))
  have fits : (utf8Encode chars).length + 1 < 2 ^ 63 := by
    simp only [int32Max] at short
    omega
  obtain ⟨buf, next, converted, read⟩ := name_converted known noNul fits provided isText
  obtain ⟨data, written, appending⟩ := name_written succeeds short
  let call : TransactCall :=
    { handle := mHandle, code := transactionAddService, data, reply := some .initState, flags := 0
      heaps, outside := (data.memory outside).byte }
  obtain ⟨driver, thread, bytes, ran, talking⟩ :=
    transactAll_talking (Talking.init valid notInterrupted : Talking uapi [] _ _ _) allocated pid
      fuel
  rw [List.nil_append] at talking
  have errorFree : call.data.mError = noError := appending.error
  obtain ⟨response, bytes', transacted, after⟩ :=
    talking.accepted errorFree cmdAllocated trAllocated pid fuel
  have called : shimAddService (driverIoctl uapi (.create uapi pid)) uapi heap heaps outside
      (fuel + 1) driver thread mHandle a strings name =
        some { status := .fromExceptionCode 10086, data, response } := by
    have proxyCalled : bpAddService (driverIoctl uapi (.create uapi pid)) uapi heap heaps outside
        (fuel + 1) driver thread mHandle (utf8Encode chars) =
          some { status := .fromExceptionCode 10086, data, response } := by
      rw [bpAddService, written, Option.bind_eq_bind, Option.bind_some]
      dsimp only
      rw [transacted]
      rfl
    rw [shimAddService, converted, Option.bind_eq_bind, Option.bind_some]
    dsimp only
    rw [read]
    exact proxyCalled
  obtain ⟨_, handed, _⟩ := talking.fits (by
    rw [List.length_map]
    exact le_trans (Nat.div_le_div_right (Nat.mul_le_mul_right _
      (Nat.mul_le_mul_right _ (Nat.le_succ _)))) limit)
  obtain ⟨_, handedAfter, _⟩ := after.fits (by
    rw [List.length_append, List.length_map, List.length_singleton]
    exact limit)
  have inSpace := appending.inSpace
  have size : data.dataSize = (nameBytes chars).length := appending.dataSize_eq
  refine ⟨driver, thread, _, (call.command uapi).tr, ran, called, rfl, ?_, rfl, rfl, ?_, ?_, ?_, ?_,
    ?_⟩
  · rw [handedAfter, resent_append, handed, List.append_assoc]
    rfl
  · change (0 : UInt32) ||| uapi.tfAcceptFds = _
    exact UInt32.zero_or
  · change (UInt64.ofNat data.dataSize).toNat = _
    rw [UInt64.toNat_ofNat_of_lt' (lt_of_le_of_lt (Nat.le_add_left _ _) inSpace), size]
  · change UInt64.ofNat (data.mObjectsSize * 8) = 0
    rw [appending.objects]
    rfl
  · change (data.memory outside).Holds (UInt64.ofNat data.ipcData).toNat _
    rw [UInt64.toNat_ofNat_of_lt' (lt_of_le_of_lt (Nat.le_add_right _ _) inSpace)]
    exact appending.memory outside
  · intro others othersNoNul same
    exact nameBytes_injective othersNoNul noNul same

end Way

/-- The name of a service, behind another transaction. -/
theorem service_name_arrives_second :
    let heap := Heap.fixed 4096 (by decide) (by decide)
    let earlier : TransactCall :=
      { handle := 7, code := 1, data := .initState, reply := none, flags := 0
        heaps := ⟨heap, heap, heap, heap⟩, outside := fun _ => none }
    ∃ driver thread added tr,
      transactAll linuxUapi (.create linuxUapi 1) 1 { handed := [], rets := [], errno := 0 }
        (.init 3) [earlier] = some (driver, thread) ∧
      shimAddService (driverIoctl linuxUapi (.create linuxUapi 1)) linuxUapi heap
        ⟨heap, heap, heap, heap⟩ (fun _ => none) 1 driver thread 0 .ample .init
        (.allocated (fun _ => 0) (utf16Encode ['l', 'o', 'g', 'é'])) = some added ∧
      added.response.kernel.handed = driver.handed ++ [earlier.command linuxUapi] ++
        [⟨linuxUapi.bcTransaction, tr⟩] ∧
      (added.data.memory fun _ => none).Holds tr.buffer.toNat
        [0x6C, 0x6F, 0x67, 0xC3, 0xA9, 0, 0, 0] := by
  intro heap earlier
  have succeeds : heap.Succeeds := Heap.fixed_succeeds _ _
  have allocated : ∀ call ∈ [earlier],
      call.heaps.writeCmd.Succeeds ∧ call.heaps.writeTr.Succeeds := by
    intro call member
    rw [List.mem_singleton.mp member]
    exact ⟨succeeds, succeeds⟩
  have valid : (0 : Int) ≤ 3 := by decide
  let heaps : CallHeaps := ⟨heap, heap, heap, heap⟩
  have cmdAllocated : heaps.writeCmd.Succeeds := succeeds
  have provided : Utils.StringMemory.init.Provided .ample (utf8Encode ['l', 'o', 'g', 'é']) :=
    .inr ⟨by simp [Utils.Allocator.ample, Utils.Allocator.mallocBuffer], by decide⟩
  obtain ⟨driver, thread, added, tr, ran, called, -, handed, -, -, -, -, -, holds, -⟩ :=
    service_name_arrives linuxUapi 1 valid (by decide : (0 : Int) ≠ EINTR) allocated (by decide)
      (fun old member => absurd member List.not_mem_nil) (by decide) provided
      (Utils.String16.allocated_content (fun _ => 0) (by decide)) succeeds (by decide)
      cmdAllocated succeeds (fun _ => none) 0 0
  exact ⟨driver, thread, added, tr, ran, called, handed, holds⟩

end DroidKernal.Binder
