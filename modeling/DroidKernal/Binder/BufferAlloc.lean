import DroidKernal.Kernel
import DroidKernal.Lib.Run
import DroidKernal.Lib.SearchTree
import DroidKernal.Lib.Threads
import DroidKernal.Utils.Vector

/-!
# The buffer of a process

`binder_alloc.c`: the buffers of a region, their sizes, the tree of the free ones, and the calls
that map the region.  A call is cut at every statement that others may see, also where it does
not hold `binder_alloc_mmap_lock`.

The lock and the list of pages to reclaim are left out, and so are the fields of a buffer that
describe its data.
-/

namespace DroidKernal.Binder

open Lib Lib.SearchTree

/-- `PAGE_SIZE`. -/
def pageSize : Nat := 4096

/-- `SZ_4M`. -/
def sz4M : Nat := 0x400000

/-- `struct vm_area_struct`, which is never empty. -/
structure VmArea where
  vmStart : Nat
  vmEnd : Nat
  vmMm : Nat
  nonempty : vmStart < vmEnd
  inMemory : vmEnd < 2 ^ 64

/-- `struct binder_buffer`. -/
structure BinderBuffer where
  userData : Nat
  free : Bool
  deriving DecidableEq, Repr

/-- A buffer as `kzalloc` returns it. -/
def BinderBuffer.zeroed : BinderBuffer where
  userData := 0
  free := false

/-- `struct binder_alloc`, and the memory of its buffers.  `pages` is the length of the array
that it points to. -/
structure BinderAlloc where
  vma : Option VmArea
  vmaVmMm : Option Nat
  buffer : Nat
  buffers : List Nat
  freeBuffers : BinaryTree Nat
  freeAsyncSpace : Nat
  pages : Option Nat
  bufferSize : Nat
  memory : Blocks BinderBuffer

namespace BinderAlloc

/-- `binder_alloc_init` in memory of `kzalloc`. -/
def init : BinderAlloc where
  vma := none
  vmaVmMm := none
  buffer := 0
  buffers := []
  freeBuffers := .nil
  freeAsyncSpace := 0
  pages := none
  bufferSize := 0
  memory := { block := fun _ => .zeroed, allocated := 0, freed := [] }

/-- `binder_buffer_next`, unless `list_is_last`. -/
def binderBufferNext (buffer : Nat) : List Nat → Option Nat
  | [] => none
  | entry :: rest => if entry = buffer then rest.head? else binderBufferNext buffer rest

/-- `binder_alloc_buffer_size`. -/
def binderAllocBufferSize (alloc : BinderAlloc) (buffer : Nat) : Nat :=
  let userData := (alloc.memory.block buffer).userData
  match binderBufferNext buffer alloc.buffers with
  | none => Utils.sizeSub (Utils.sizeAdd alloc.buffer alloc.bufferSize) userData
  | some next => Utils.sizeSub (alloc.memory.block next).userData userData

/-- The way that `binder_insert_free_buffer` takes at a buffer.  At a buffer that is not free
it ends in a `BUG_ON`. -/
def freeDirection (alloc : BinderAlloc) (newBufferSize buffer : Nat) : Ordering :=
  if (alloc.memory.block buffer).free = false then .eq
  else if newBufferSize < alloc.binderAllocBufferSize buffer then .lt
  else .gt

/-- `binder_insert_free_buffer`.  There is no result where a `BUG_ON` stops the kernel. -/
def binderInsertFreeBuffer (rbInsertColor : BinaryTree Nat → BinaryTree Nat) (alloc : BinderAlloc)
    (newBuffer : Nat) : Option BinderAlloc :=
  if (alloc.memory.block newBuffer).free = false then none
  else
    match descend (alloc.freeDirection (alloc.binderAllocBufferSize newBuffer)) []
        alloc.freeBuffers with
    | .found _ => none
    | .place path => some { alloc with freeBuffers := rbInsertColor (link newBuffer path) }

/-- `binder_alloc_set_vma`. -/
def binderAllocSetVma (alloc : BinderAlloc) (vma : Option VmArea) : BinderAlloc :=
  match vma with
  | some area => { alloc with vmaVmMm := some area.vmMm, vma }
  | none => { alloc with vma }

/-- A store to a buffer. -/
def updateBuffer (alloc : BinderAlloc) (buffer : Nat) (change : BinderBuffer → BinderBuffer) :
    BinderAlloc :=
  { alloc with memory := alloc.memory.set buffer (change (alloc.memory.block buffer)) }

end BinderAlloc

/-! ## Calls -/

/-- Where a caller is in `binder_alloc_mmap_handler`: what it did last. -/
inductive MmapPlace where
  | idle
  | claimed (vma : VmArea)
  | placed (vma : VmArea)
  | paged (vma : VmArea)
  | allocated (vma : VmArea) (buffer : Nat)
  | located (vma : VmArea) (buffer : Nat)
  | listed (vma : VmArea) (buffer : Nat)
  | marked (vma : VmArea) (buffer : Nat)
  | inserted (vma : VmArea)
  | counted (vma : VmArea)
  /-- at `err_alloc_buf_struct_failed` -/
  | noBuffer (vma : VmArea)
  /-- at `err_alloc_pages_failed` -/
  | noPages (vma : VmArea)
  /-- before the second `mutex_lock` -/
  | unplaced (vma : VmArea)
  /-- stopped by a `BUG_ON` -/
  | killed

/-- What can be observed of an interleaving. -/
inductive MmapEvent (ι : Type*) where
  | claims (caller : ι) (vma : VmArea)
  | advances (caller : ι)
  | bugs (caller : ι)
  | returns (caller : ι) (vma : VmArea) (ret : Int)
  | closes

/-- One step of one place to another. -/
inductive MmapSection : BinderAlloc → MmapPlace → BinderAlloc → MmapPlace → Prop where
  | place {alloc : BinderAlloc} {vma : VmArea} :
      MmapSection alloc (.claimed vma) { alloc with buffer := vma.vmStart } (.placed vma)
  | allocPages {alloc : BinderAlloc} {vma : VmArea} :
      MmapSection alloc (.placed vma) { alloc with pages := some (alloc.bufferSize / pageSize) }
        (.paged vma)
  | allocPagesFails {alloc : BinderAlloc} {vma : VmArea} :
      MmapSection alloc (.placed vma) { alloc with pages := none } (.noPages vma)
  | allocBuffer {alloc : BinderAlloc} {vma : VmArea} :
      MmapSection alloc (.paged vma) { alloc with memory := alloc.memory.add .zeroed }
        (.allocated vma alloc.memory.allocated)
  | allocBufferFails {alloc : BinderAlloc} {vma : VmArea} :
      MmapSection alloc (.paged vma) alloc (.noBuffer vma)
  | locate {alloc : BinderAlloc} {vma : VmArea} {buffer : Nat} :
      MmapSection alloc (.allocated vma buffer)
        (alloc.updateBuffer buffer fun b => { b with userData := alloc.buffer })
        (.located vma buffer)
  | listAdd {alloc : BinderAlloc} {vma : VmArea} {buffer : Nat} :
      MmapSection alloc (.located vma buffer) { alloc with buffers := buffer :: alloc.buffers }
        (.listed vma buffer)
  | mark {alloc : BinderAlloc} {vma : VmArea} {buffer : Nat} :
      MmapSection alloc (.listed vma buffer)
        (alloc.updateBuffer buffer fun b => { b with free := true }) (.marked vma buffer)
  | insert {alloc next : BinderAlloc} {vma : VmArea} {buffer : Nat}
      {rbInsertColor : BinaryTree Nat → BinaryTree Nat} (keeps : KeepsOrder rbInsertColor)
      (inserted : alloc.binderInsertFreeBuffer rbInsertColor buffer = some next) :
      MmapSection alloc (.marked vma buffer) next (.inserted vma)
  | count {alloc : BinderAlloc} {vma : VmArea} :
      MmapSection alloc (.inserted vma) { alloc with freeAsyncSpace := alloc.bufferSize / 2 }
        (.counted vma)
  | freePages {alloc : BinderAlloc} {vma : VmArea} :
      MmapSection alloc (.noBuffer vma) { alloc with pages := none } (.noPages vma)
  | unplace {alloc : BinderAlloc} {vma : VmArea} :
      MmapSection alloc (.noPages vma) { alloc with buffer := 0 } (.unplaced vma)

section Steps

variable {ι : Type*} [DecidableEq ι]

/-- A caller gets to another place, and leaves the buffer so. -/
def moveMapper (system : Threads ι BinderAlloc MmapPlace) (caller : ι) (alloc : BinderAlloc)
    (next : MmapPlace) : Threads ι BinderAlloc MmapPlace where
  shared := alloc
  threads := Function.update system.threads caller next

/-- The interleavings of `binder_alloc_mmap_handler` and `binder_alloc_vma_close`. -/
inductive MmapStep :
    Threads ι BinderAlloc MmapPlace → MmapEvent ι → Threads ι BinderAlloc MmapPlace → Prop where
  | busy {system : Threads ι BinderAlloc MmapPlace} {caller : ι} (vma : VmArea)
      (place : system.threads caller = .idle) (mapped : system.shared.bufferSize ≠ 0) :
      MmapStep system (.returns caller vma (-EBUSY)) (moveMapper system caller system.shared .idle)
  | claim {system : Threads ι BinderAlloc MmapPlace} {caller : ι} (vma : VmArea)
      (place : system.threads caller = .idle) (unmapped : system.shared.bufferSize = 0) :
      MmapStep system (.claims caller vma)
        (moveMapper system caller
          { system.shared with bufferSize := min (Utils.sizeSub vma.vmEnd vma.vmStart) sz4M }
          (.claimed vma))
  | advance {system : Threads ι BinderAlloc MmapPlace} {caller : ι} {alloc : BinderAlloc}
      {next : MmapPlace} (taken : MmapSection system.shared (system.threads caller) alloc next) :
      MmapStep system (.advances caller) (moveMapper system caller alloc next)
  | bug {system : Threads ι BinderAlloc MmapPlace} {caller : ι} {vma : VmArea} {buffer : Nat}
      {rbInsertColor : BinaryTree Nat → BinaryTree Nat} (keeps : KeepsOrder rbInsertColor)
      (place : system.threads caller = .marked vma buffer)
      (stopped : system.shared.binderInsertFreeBuffer rbInsertColor buffer = none) :
      MmapStep system (.bugs caller) (moveMapper system caller system.shared .killed)
  | succeed {system : Threads ι BinderAlloc MmapPlace} {caller : ι} {vma : VmArea}
      (place : system.threads caller = .counted vma) :
      MmapStep system (.returns caller vma 0)
        (moveMapper system caller (system.shared.binderAllocSetVma (some vma)) .idle)
  | fail {system : Threads ι BinderAlloc MmapPlace} {caller : ι} {vma : VmArea}
      (place : system.threads caller = .unplaced vma) :
      MmapStep system (.returns caller vma (-ENOMEM))
        (moveMapper system caller { system.shared with bufferSize := 0 } .idle)
  | close {system : Threads ι BinderAlloc MmapPlace} :
      MmapStep system .closes
        { system with shared := system.shared.binderAllocSetVma none }

/-- The device was opened, and nobody mapped it. -/
def mappersInit (ι : Type*) : Threads ι BinderAlloc MmapPlace where
  shared := .init
  threads := fun _ => .idle

end Steps

end DroidKernal.Binder
