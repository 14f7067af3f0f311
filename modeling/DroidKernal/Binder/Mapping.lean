import DroidKernal.Binder.BufferAlloc

/-!
# Mapping a region once

`buffer_size` is claimed under the lock and tells others that the region is taken, whatever has
been set up of it.  So there is one caller at work at a time, and its place says what the buffer
holds.
-/

namespace DroidKernal.Binder

open Lib Lib.SearchTree

/-- What a call of `binder_alloc_mmap_handler` sets up. -/
structure BufferRegion where
  buffer : Nat
  pages : Option Nat
  buffers : List Nat
  freeBuffers : BinaryTree Nat
  freeAsyncSpace : Nat

/-- The `buffer_size` for a region. -/
def VmArea.size (vma : VmArea) : Nat := min (vma.vmEnd - vma.vmStart) sz4M

theorem VmArea.size_pos (vma : VmArea) : 0 < vma.size :=
  Nat.lt_min.mpr ⟨Nat.sub_pos_of_lt vma.nonempty, by decide⟩

theorem VmArea.size_eq (vma : VmArea) :
    min (Utils.sizeSub vma.vmEnd vma.vmStart) sz4M = vma.size := by
  have start := vma.nonempty
  have stop := vma.inMemory
  rw [VmArea.size, Utils.sizeSub_eq stop (Nat.le_of_lt start)]

namespace BinderAlloc

def region (alloc : BinderAlloc) : BufferRegion where
  buffer := alloc.buffer
  pages := alloc.pages
  buffers := alloc.buffers
  freeBuffers := alloc.freeBuffers
  freeAsyncSpace := alloc.freeAsyncSpace

/-- Nothing is mapped. -/
structure Clean (alloc : BinderAlloc) : Prop where
  region : alloc.region = ⟨0, none, [], .nil, 0⟩
  bufferSize : alloc.bufferSize = 0

/-- A call set up so much of a region. -/
structure Building (alloc : BinderAlloc) (vma : VmArea) (buffer : Nat) (pages : Option Nat)
    (buffers : List Nat) : Prop where
  region : alloc.region = ⟨buffer, pages, buffers, .nil, 0⟩
  bufferSize : alloc.bufferSize = vma.size

/-- The region is one free buffer, of which so much is for asynchronous transactions. -/
structure Whole (alloc : BinderAlloc) (vma : VmArea) (freeAsyncSpace : Nat) : Prop where
  buffer : alloc.buffer = vma.vmStart
  single : ∃ buffer, alloc.buffers = [buffer] ∧ inOrder alloc.freeBuffers = [buffer] ∧
    alloc.memory.block buffer = ⟨vma.vmStart, true⟩ ∧
    alloc.binderAllocBufferSize buffer = alloc.bufferSize
  bufferSize : alloc.bufferSize = vma.size
  freeAsyncSpace : alloc.freeAsyncSpace = freeAsyncSpace

end BinderAlloc

open BinderAlloc

variable {alloc next : BinderAlloc} {vma : VmArea} {buffer : Nat}

/-- What a place says of the buffer. -/
def MmapPlace.Fits (alloc : BinderAlloc) : MmapPlace → Prop
  | .idle => False
  | .claimed vma => alloc.Building vma 0 none []
  | .placed vma => alloc.Building vma vma.vmStart none []
  | .paged vma => ∃ pages, alloc.Building vma vma.vmStart (some pages) []
  | .allocated vma _ => ∃ pages, alloc.Building vma vma.vmStart (some pages) []
  | .located vma buffer =>
      (alloc.memory.block buffer).userData = vma.vmStart ∧
        ∃ pages, alloc.Building vma vma.vmStart (some pages) []
  | .listed vma buffer =>
      (alloc.memory.block buffer).userData = vma.vmStart ∧
        ∃ pages, alloc.Building vma vma.vmStart (some pages) [buffer]
  | .marked vma buffer =>
      alloc.memory.block buffer = ⟨vma.vmStart, true⟩ ∧
        ∃ pages, alloc.Building vma vma.vmStart (some pages) [buffer]
  | .inserted vma => alloc.Whole vma 0
  | .counted vma => alloc.Whole vma (vma.size / 2)
  | .noBuffer vma => ∃ pages, alloc.Building vma vma.vmStart (some pages) []
  | .noPages vma => alloc.Building vma vma.vmStart none []
  | .unplaced vma => alloc.Building vma 0 none []
  | .killed => False

/-- The size of the only buffer. -/
theorem binderAllocBufferSize_single (single : alloc.buffers = [buffer])
    (isBuffer : alloc.buffer = vma.vmStart) (size : alloc.bufferSize = vma.size)
    (located : (alloc.memory.block buffer).userData = vma.vmStart) :
    alloc.binderAllocBufferSize buffer = alloc.bufferSize := by
  have start := vma.nonempty
  have stop := vma.inMemory
  have atMost : vma.size ≤ vma.vmEnd - vma.vmStart := Nat.min_le_left ..
  have last : binderBufferNext buffer [buffer] = none := if_pos rfl
  rw [binderAllocBufferSize, single, last, isBuffer, located, size]
  simp only
  rw [Utils.sizeAdd_eq (by omega), Utils.sizeSub_eq (by omega) (by omega)]
  omega

/-- The empty tree takes a free buffer. -/
theorem binderInsertFreeBuffer_nil {rbInsertColor : BinaryTree Nat → BinaryTree Nat}
    (isFree : (alloc.memory.block buffer).free = true) (empty : alloc.freeBuffers = .nil) :
    alloc.binderInsertFreeBuffer rbInsertColor buffer =
      some { alloc with freeBuffers := rbInsertColor (link buffer []) } := by
  rw [binderInsertFreeBuffer, isFree, if_neg (by decide), empty]
  rfl

/-- One statement of a call. -/
theorem MmapSection.fits {place after : MmapPlace} (fits : place.Fits alloc)
    (taken : MmapSection alloc place next after) : after.Fits next := by
  cases taken with
  | place =>
      obtain ⟨region, size⟩ := fits
      cases alloc
      cases region
      exact ⟨rfl, size⟩
  | allocPages =>
      obtain ⟨region, size⟩ := fits
      cases alloc
      cases region
      exact ⟨_, rfl, size⟩
  | allocPagesFails =>
      obtain ⟨region, size⟩ := fits
      cases alloc
      cases region
      exact ⟨rfl, size⟩
  | allocBuffer =>
      obtain ⟨pages, region, size⟩ := fits
      exact ⟨pages, region, size⟩
  | allocBufferFails => exact fits
  | @locate vma buffer =>
      obtain ⟨pages, region, size⟩ := fits
      have isBuffer : alloc.buffer = vma.vmStart := congrArg BufferRegion.buffer region
      refine ⟨?_, pages, region, size⟩
      rw [updateBuffer, Blocks.set_block_self, isBuffer]
  | listAdd =>
      obtain ⟨located, pages, region, size⟩ := fits
      refine ⟨located, pages, ?_, size⟩
      cases alloc
      cases region
      rfl
  | mark =>
      obtain ⟨located, pages, region, size⟩ := fits
      refine ⟨?_, pages, region, size⟩
      rw [updateBuffer, Blocks.set_block_self, located]
  | @insert _ vma buffer _ keeps inserted =>
      obtain ⟨marked, pages, region, size⟩ := fits
      have isBuffer : alloc.buffer = vma.vmStart := congrArg BufferRegion.buffer region
      have single : alloc.buffers = [buffer] := congrArg BufferRegion.buffers region
      have empty : alloc.freeBuffers = .nil := congrArg BufferRegion.freeBuffers region
      have isFree : (alloc.memory.block buffer).free = true := congrArg BinderBuffer.free marked
      rw [binderInsertFreeBuffer_nil isFree empty] at inserted
      cases inserted
      refine ⟨isBuffer, ⟨buffer, single, ?_, marked, ?_⟩, size,
        congrArg BufferRegion.freeAsyncSpace region⟩
      · rw [keeps, inOrder_link]
        rfl
      · exact binderAllocBufferSize_single single isBuffer size
          (congrArg BinderBuffer.userData marked)
  | count =>
      obtain ⟨isBuffer, single, size, -⟩ := fits
      exact ⟨isBuffer, single, size, congrArg (· / 2) size⟩
  | freePages =>
      obtain ⟨pages, region, size⟩ := fits
      cases alloc
      cases region
      exact ⟨rfl, size⟩
  | unplace =>
      obtain ⟨region, size⟩ := fits
      cases alloc
      cases region
      exact ⟨rfl, size⟩

/-! ## Callers -/

section Steps

variable {ι : Type*}

/-- A call that returned 0. -/
def MmapEvent.success : MmapEvent ι → Option VmArea
  | .returns _ vma ret => if ret = 0 then some vma else none
  | _ => none

def successes (events : List (MmapEvent ι)) : List VmArea :=
  events.filterMap MmapEvent.success

theorem successes_snoc (events : List (MmapEvent ι)) (event : MmapEvent ι) :
    successes (events ++ [event]) = successes events ++ event.success.toList :=
  filterMap_snoc ..

theorem successes_none {events : List (MmapEvent ι)} {event : MmapEvent ι}
    (none : event.success = none) : successes (events ++ [event]) = successes events := by
  rw [successes_snoc, none, Option.toList_none, List.append_nil]

/-- How far the callers got. -/
inductive Stage (events : List (MmapEvent ι)) (system : Threads ι BinderAlloc MmapPlace) :
    Prop where
  | unmapped (clean : system.shared.Clean) (idle : ∀ caller, system.threads caller = .idle)
      (none : successes events = [])
  | working (caller : ι) (fits : (system.threads caller).Fits system.shared)
      (idle : ∀ other, other ≠ caller → system.threads other = .idle)
      (none : successes events = [])
  | mapped {vma : VmArea} (whole : system.shared.Whole vma (vma.size / 2))
      (idle : ∀ caller, system.threads caller = .idle) (once : successes events = [vma])

/-- One call succeeded at most. -/
theorem Stage.succeeded {events : List (MmapEvent ι)} {system : Threads ι BinderAlloc MmapPlace}
    (stage : Stage events system) :
    successes events = [] ∨
      ∃ vma : VmArea, successes events = [vma] ∧ system.shared.Whole vma (vma.size / 2) := by
  cases stage with
  | unmapped clean idle none => exact .inl none
  | working caller fits idle none => exact .inl none
  | @mapped vma whole idle once => exact .inr ⟨vma, once, whole⟩

theorem stage_init : Stage [] (mappersInit ι) := .unmapped ⟨rfl, rfl⟩ (fun _ => rfl) rfl

theorem MmapPlace.Fits.bufferSize_pos {place : MmapPlace} (fits : place.Fits alloc) :
    0 < alloc.bufferSize := by
  have claimed : ∃ vma : VmArea, alloc.bufferSize = vma.size := by
    cases place with
    | idle | killed => cases fits
    | claimed vma | placed vma | noPages vma | unplaced vma => exact ⟨vma, fits.bufferSize⟩
    | inserted vma | counted vma => exact ⟨vma, fits.bufferSize⟩
    | paged vma | allocated vma | noBuffer vma =>
        obtain ⟨_, built⟩ := fits
        exact ⟨vma, built.bufferSize⟩
    | located vma | listed vma | marked vma =>
        obtain ⟨-, _, built⟩ := fits
        exact ⟨vma, built.bufferSize⟩
  obtain ⟨vma, isSize⟩ := claimed
  rw [isSize]
  exact vma.size_pos

/-- Nobody is at work while `buffer_size` is 0. -/
theorem Stage.of_unmapped {events : List (MmapEvent ι)}
    {system : Threads ι BinderAlloc MmapPlace} (stage : Stage events system)
    (unmapped : system.shared.bufferSize = 0) :
    system.shared.Clean ∧ (∀ caller, system.threads caller = .idle) ∧ successes events = [] := by
  cases stage with
  | unmapped clean idle none => exact ⟨clean, idle, none⟩
  | working _ fits idle none => exact absurd unmapped (Nat.ne_of_gt fits.bufferSize_pos)
  | @mapped vma whole idle once =>
      have positive := vma.size_pos
      rw [← whole.bufferSize] at positive
      exact absurd unmapped (Nat.ne_of_gt positive)

section Step

variable [DecidableEq ι] {events : List (MmapEvent ι)}
  {system after : Threads ι BinderAlloc MmapPlace} {event : MmapEvent ι} {caller : ι}

/-- The area itself is not what is checked. -/
theorem BinderAlloc.Whole.setVma {freeAsyncSpace : Nat} (whole : alloc.Whole vma freeAsyncSpace)
    (area : Option VmArea) : (alloc.binderAllocSetVma area).Whole vma freeAsyncSpace := by
  obtain ⟨isBuffer, single, size, async⟩ := whole
  cases area with
  | none => exact ⟨isBuffer, single, size, async⟩
  | some area => exact ⟨isBuffer, single, size, async⟩

/-- `binder_alloc_vma_close` has nothing to do with what a call sets up. -/
theorem MmapPlace.Fits.close {place : MmapPlace} (fits : place.Fits alloc) :
    place.Fits (alloc.binderAllocSetVma none) := by
  cases place with
  | idle | killed => cases fits
  | claimed | placed | noPages | unplaced => exact ⟨fits.region, fits.bufferSize⟩
  | inserted | counted => exact fits.setVma none
  | paged | allocated | noBuffer =>
      obtain ⟨pages, built⟩ := fits
      exact ⟨pages, built.region, built.bufferSize⟩
  | located | listed | marked =>
      obtain ⟨isBuffer, pages, built⟩ := fits
      exact ⟨isBuffer, pages, built.region, built.bufferSize⟩

/-- Only the caller at work is somewhere. -/
theorem Stage.at_work {place : MmapPlace} (stage : Stage events system)
    (isPlace : system.threads caller = place) (active : place ≠ .idle) :
    place.Fits system.shared ∧
      (∀ other, other ≠ caller → system.threads other = .idle) ∧ successes events = [] := by
  cases isPlace
  cases stage with
  | unmapped clean idle none => exact absurd (idle caller) active
  | working worker fits idle none =>
      by_cases same : caller = worker
      · cases same
        exact ⟨fits, idle, none⟩
      · exact absurd (idle caller same) active
  | mapped whole idle once => exact absurd (idle caller) active

theorem moveMapper_idle {alloc : BinderAlloc}
    (idle : ∀ other, other ≠ caller → system.threads other = .idle) (other : ι) :
    (moveMapper system caller alloc .idle).threads other = .idle := by
  by_cases same : other = caller
  · rw [same]
    exact Function.update_self ..
  · rw [← idle other same]
    exact Function.update_of_ne same ..

theorem Stage.work {alloc : BinderAlloc} {place : MmapPlace} (fits : place.Fits alloc)
    (idle : ∀ other, other ≠ caller → system.threads other = .idle)
    (none : successes events = []) : Stage events (moveMapper system caller alloc place) := by
  apply Stage.working caller
  · show MmapPlace.Fits alloc (Function.update system.threads caller place caller)
    rw [Function.update_self]
    exact fits
  · intro other differ
    rw [← idle other differ]
    exact Function.update_of_ne differ ..
  · exact none

/-- A place from which a call goes on is not `idle`. -/
theorem MmapSection.active {place next' : MmapPlace} (taken : MmapSection alloc place next next') :
    place ≠ .idle := by
  cases taken <;> exact nofun

/-- The empty tree takes the buffer. -/
theorem Stage.no_bug (stage : Stage events system)
    (taken : MmapStep system (.bugs caller) after) : False := by
  cases taken with
  | bug keeps place stopped =>
      obtain ⟨⟨marked, pages, region, -⟩, -, -⟩ := stage.at_work place nofun
      have empty : system.shared.freeBuffers = .nil := congrArg BufferRegion.freeBuffers region
      rw [binderInsertFreeBuffer_nil (congrArg BinderBuffer.free marked) empty] at stopped
      cases stopped

/-- What every step keeps. -/
theorem Stage.step (stage : Stage events system) (taken : MmapStep system event after) :
    Stage (events ++ [event]) after := by
  cases taken with
  | @busy mapper vma place mapped =>
      have same : moveMapper system mapper system.shared .idle = system := by
        rw [moveMapper, ← place, Function.update_eq_self]
      have none : successes (events ++ [.returns mapper vma (-EBUSY)]) = successes events :=
        successes_none rfl
      rw [same]
      cases stage with
      | unmapped clean idle nothing => exact .unmapped clean idle (none.trans nothing)
      | working worker fits idle nothing => exact .working worker fits idle (none.trans nothing)
      | mapped whole idle once => exact .mapped whole idle (none.trans once)
  | claim vma place unmapped =>
      obtain ⟨clean, idle, nothing⟩ := stage.of_unmapped unmapped
      apply Stage.work
      · exact ⟨clean.region, vma.size_eq⟩
      · exact fun other _ => idle other
      · exact (successes_none rfl).trans nothing
  | advance moved =>
      obtain ⟨fits, idle, nothing⟩ := stage.at_work rfl moved.active
      exact .work (moved.fits fits) idle ((successes_none rfl).trans nothing)
  | bug keeps place stopped => exact (stage.no_bug (.bug keeps place stopped)).elim
  | @succeed mapper vma place =>
      obtain ⟨whole, idle, nothing⟩ := stage.at_work place nofun
      apply Stage.mapped
      · exact BinderAlloc.Whole.setVma whole (some vma)
      · exact moveMapper_idle idle
      · rw [successes_snoc, nothing]
        rfl
  | @fail mapper vma place =>
      obtain ⟨built, idle, nothing⟩ := stage.at_work place nofun
      apply Stage.unmapped
      · exact ⟨built.region, rfl⟩
      · exact moveMapper_idle idle
      · exact (successes_none rfl).trans nothing
  | close =>
      have none : successes (events ++ [.closes]) = successes events := successes_none rfl
      cases stage with
      | unmapped clean idle nothing =>
          exact .unmapped ⟨clean.region, clean.bufferSize⟩ idle (none.trans nothing)
      | working worker fits idle nothing =>
          exact .working worker fits.close idle (none.trans nothing)
      | mapped whole idle once => exact .mapped (whole.setVma .none) idle (none.trans once)

theorem stage_of_run (run : Run MmapStep (mappersInit ι) events system) : Stage events system :=
  run.history_invariant Stage stage_init fun stage taken => stage.step taken

theorem no_bug_of_run (run : Run MmapStep (mappersInit ι) events system) (caller : ι) :
    .bugs caller ∉ events := by
  have every := run.every_event (p := fun event => event ≠ .bugs caller) fun sofar taken isBug =>
    (stage_of_run sofar).no_bug (isBug ▸ taken)
  exact fun isIn => every _ isIn rfl

/-- A failed call found the region taken, or cleared what it had set up. -/
theorem Stage.fails {ret : Int} (stage : Stage events system)
    (taken : MmapStep system (.returns caller vma ret) after) (failed : ret ≠ 0) :
    ret = -EBUSY ∧ after.shared = system.shared ∨ ret = -ENOMEM ∧ after.shared.Clean := by
  cases taken with
  | busy place mapped => exact .inl ⟨rfl, rfl⟩
  | succeed place => exact absurd rfl failed
  | fail place =>
      obtain ⟨built, -, -⟩ := stage.at_work place nofun
      exact .inr ⟨rfl, built.region, rfl⟩

theorem Stage.claims (stage : Stage events system)
    (taken : MmapStep system (.claims caller vma) after) : system.shared.Clean := by
  cases taken with
  | claim _ place unmapped => exact (stage.of_unmapped unmapped).1

/-- A caller that failed found `buffer_size` claimed, or leaves 0 and the rest as it was when it
claimed it. -/
def FailsCleanly (system after : Threads ι BinderAlloc MmapPlace) (caller : ι) (vma : VmArea)
    (ret : Int) : Prop :=
  ret = -EBUSY ∧ after.shared = system.shared ∨
    ret = -ENOMEM ∧ after.shared.bufferSize = 0 ∧
      ∀ {earlier between : List (MmapEvent ι)} {start claimed : Threads ι BinderAlloc MmapPlace},
        Run MmapStep (mappersInit ι) earlier start → MmapStep start (.claims caller vma) claimed →
        Run MmapStep claimed between system → after.shared.region = start.shared.region

/-- However the calls interleave and whatever fails, one of them maps the region at most.  It is
then one free buffer, and a call that failed left no trace. -/
theorem mapped_at_most_once (run : Run MmapStep (mappersInit ι) events system) :
    (successes events).length ≤ 1 ∧
      (∀ vma ∈ successes events, system.shared.Whole vma (vma.size / 2)) ∧
      (∀ caller, .bugs caller ∉ events) ∧
      ∀ caller vma ret after, MmapStep system (.returns caller vma ret) after → ret ≠ 0 →
        FailsCleanly system after caller vma ret := by
  have stage := stage_of_run run
  have fails : ∀ caller vma ret after, MmapStep system (.returns caller vma ret) after → ret ≠ 0 →
      FailsCleanly system after caller vma ret := by
    intro caller vma ret after taken failed
    obtain busy | ⟨noMemory, clean⟩ := stage.fails taken failed
    · exact .inl busy
    · refine .inr ⟨noMemory, clean.bufferSize, fun first claims _ => ?_⟩
      exact clean.region.trans ((stage_of_run first).claims claims).region.symm
  obtain none | ⟨vma, once, whole⟩ := stage.succeeded
  · rw [none]
    exact ⟨Nat.zero_le _, fun _ isIn => absurd isIn List.not_mem_nil, no_bug_of_run run, fails⟩
  · rw [once]
    refine ⟨Nat.le_refl _, fun other isIn => ?_, no_bug_of_run run, fails⟩
    cases List.mem_singleton.mp isIn
    exact whole

/-- A page. -/
def onePage : VmArea where
  vmStart := 8192
  vmEnd := 12288
  vmMm := 0
  nonempty := by decide
  inMemory := by decide

/-- A call fails, another maps the region, and the first is told so. -/
theorem mapped_at_most_once_retried : ∃ final : Threads Bool BinderAlloc MmapPlace,
    final.threads = (fun _ => .idle) ∧ final.shared.Whole onePage 2048 := by
  obtain ⟨final, run, places⟩ : ∃ final, Run MmapStep (mappersInit Bool)
      [.claims false onePage, .advances false, .advances false, .advances false,
        .returns false onePage (-ENOMEM), .claims true onePage, .advances true, .closes,
        .advances true, .returns false onePage (-EBUSY), .advances true, .advances true,
        .advances true, .advances true, .advances true, .advances true,
        .returns true onePage 0] final ∧ final.threads = fun _ => .idle :=
    ⟨_, .cons (.claim _ rfl rfl) <| .cons (.advance .place) <| .cons (.advance .allocPagesFails) <|
      .cons (.advance .unplace) <| .cons (.fail rfl) <| .cons (.claim _ rfl rfl) <|
      .cons (.advance .place) <| .cons .close <| .cons (.advance .allocPages) <|
      .cons (.busy _ rfl (by decide)) <| .cons (.advance .allocBuffer) <|
      .cons (.advance .locate) <| .cons (.advance .listAdd) <| .cons (.advance .mark) <|
      .cons (.advance (.insert keepsOrder_id rfl)) <| .cons (.advance .count) <|
      .cons (.succeed rfl) .nil, by funext caller; cases caller <;> rfl⟩
  exact ⟨final, places, (mapped_at_most_once run).2.1 onePage (List.mem_singleton_self _)⟩

end Step

end Steps

end DroidKernal.Binder
