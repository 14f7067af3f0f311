import DroidKernal.Lib.SearchTree

/-!
# Search or insert

A tree of blocks in the order of a key that the blocks hold.  Callers look up the block of a
key, or bring a new block that is linked if there is none.  Between the allocation of a block
and its insertion others may link one with the same key, and the new block is freed.
-/

namespace Lib

open SearchTree

/-- A tree, and the memory of the blocks that it links. -/
structure Table (β : Type*) where
  tree : BinaryTree Nat
  memory : Blocks β

/-- A call that returned an entry: the key that it wanted, and the block that it brought. -/
structure Returned (κ : Type*) where
  wanted : κ
  brought : Option Nat
  entry : Nat
  deriving DecidableEq

namespace Table

variable {ι β κ : Type*} [LT κ]

/-- Look up a key and change the block that is found, or set up a new block and link it where
the way down ended. -/
def searchOrInsert [DecidableLT κ] (rbInsertColor : BinaryTree Nat → BinaryTree Nat) (key : β → κ)
    (visit create : β → β) (wanted : κ) (new : Option Nat) (table : Table β) :
    Option Nat × Table β :=
  match descend (fun name => towards wanted (key (table.memory.block name))) [] table.tree with
  | .found name =>
      (some name, { table with memory := table.memory.set name (visit (table.memory.block name)) })
  | .place path =>
      match new with
      | none => (none, table)
      | some name =>
          (some name, {
            tree := rbInsertColor (link name path)
            memory := table.memory.set name (create (table.memory.block name)) })

/-- The blocks that callers hold, which are new and not linked, those that calls returned, and
the rest of the memory.  A weight is what each call adds to its entry. -/
structure Lawful (key : β → κ) (fresh : β) (weight : β → Int) (step : Int) (held : ι → Option Nat)
    (returned : List (Returned κ)) (table : Table β) : Prop where
  sane : table.memory.Sane
  sorted : (inOrder table.tree).Pairwise fun first second =>
    key (table.memory.block first) < key (table.memory.block second)
  live : ∀ name ∈ inOrder table.tree, table.memory.Live name
  heldLive : ∀ i name, held i = some name → table.memory.Live name
  heldFresh : ∀ i name, held i = some name →
    name ∉ inOrder table.tree ∧ table.memory.block name = fresh
  heldOnce : ∀ i j name, held i = some name → held j = some name → i = j
  accounted : ∀ name, table.memory.Live name →
    name ∈ inOrder table.tree ∨ ∃ i, held i = some name
  entries : ∀ call ∈ returned, call.entry ∈ inOrder table.tree ∧
    key (table.memory.block call.entry) = call.wanted
  lost : ∀ call ∈ returned, ∀ name, call.brought = some name → name ≠ call.entry →
    name ∈ table.memory.freed
  weighed : ∀ name ∈ inOrder table.tree,
    weight (table.memory.block name) = step * (returned.countP fun call => call.entry = name)

/-- Nothing was allocated yet. -/
def init (fresh : β) : Table β where
  tree := .nil
  memory := { block := fun _ => fresh, allocated := 0, freed := [] }

variable {key : β → κ} {fresh : β} {weight : β → Int} {step : Int} {held : ι → Option Nat}
  {returned : List (Returned κ)} {table : Table β}

theorem lawful_init (fresh : β) :
    Lawful key fresh weight step (fun _ : ι => none) [] (init fresh) where
  sane := ⟨nofun, List.nodup_nil⟩
  sorted := List.Pairwise.nil
  live := nofun
  heldLive := nofun
  heldFresh := nofun
  heldOnce := nofun
  accounted _ live := absurd live.1 (Nat.not_lt_zero _)
  entries := nofun
  lost := nofun
  weighed := nofun

theorem update_eq_some_iff [DecidableEq ι] {i j : ι} {value : Option Nat} {name : Nat} :
    Function.update held i value j = some name ↔
      j = i ∧ value = some name ∨ j ≠ i ∧ held j = some name := by
  by_cases same : j = i
  · subst same
    simp
  · simp [same]

theorem held_of_release [DecidableEq ι] {i j : ι} {name : Nat}
    (holds : Function.update held i none j = some name) : j ≠ i ∧ held j = some name := by
  obtain ⟨-, none⟩ | still := update_eq_some_iff.mp holds
  · cases none
  · exact still

theorem key_of_found [DecidableLT κ] [LE κ] [Std.IsLinearOrder κ] [Std.LawfulOrderLT κ]
    {wanted : κ} {name : Nat} (isFound : descend (fun name =>
      towards wanted (key (table.memory.block name))) [] table.tree = .found name) :
    name ∈ inOrder table.tree ∧ key (table.memory.block name) = wanted := by
  obtain ⟨isIn, isEq⟩ := descend_found isFound
  exact ⟨isIn, towards_eq_eq_iff.mp isEq⟩

omit [LT κ] in
/-- The references for one more call. -/
theorem weigh_snoc (step : Int) (returned : List (Returned κ)) (call : Returned κ) (name : Nat) :
    step * ((returned ++ [call]).countP fun call => call.entry = name) =
      step * (returned.countP fun call => call.entry = name) +
        if call.entry = name then step else 0 := by
  rw [List.countP_append, Int.natCast_add, Int.mul_add, List.countP_singleton]
  by_cases same : call.entry = name <;> simp [same]

namespace Lawful

variable (lawful : Lawful key fresh weight step held returned table)

include lawful

theorem ne_new {name : Nat} (isIn : name ∈ inOrder table.tree) : name ≠ table.memory.allocated :=
  (lawful.live name isIn).ne_new

theorem held_ne {i : ι} {new name : Nat} (holds : held i = some new)
    (isIn : name ∈ inOrder table.tree) : name ≠ new := by
  rintro rfl
  exact (lawful.heldFresh i name holds).1 isIn

/-- A caller allocates a block. -/
theorem alloc [DecidableEq ι] {i : ι} (idle : held i = none) :
    Lawful key fresh weight step (Function.update held i (some table.memory.allocated)) returned
      { table with memory := table.memory.add fresh } where
  sane := lawful.sane.add
  sorted := by
    refine lawful.sorted.imp_of_mem fun firstIn secondIn isLess => ?_
    rwa [Blocks.add_block (lawful.ne_new firstIn), Blocks.add_block (lawful.ne_new secondIn)]
  live name isIn := (lawful.live name isIn).add
  heldLive j name holds := by
    obtain ⟨-, isNew⟩ | ⟨-, holds⟩ := update_eq_some_iff.mp holds
    · cases isNew
      exact lawful.sane.live_new
    · exact (lawful.heldLive j name holds).add
  heldFresh j name holds := by
    obtain ⟨-, isNew⟩ | ⟨-, holds⟩ := update_eq_some_iff.mp holds
    · cases isNew
      exact ⟨fun isIn => lawful.ne_new isIn rfl, Blocks.add_block_new⟩
    · obtain ⟨notIn, isFresh⟩ := lawful.heldFresh j name holds
      exact ⟨notIn, (Blocks.add_block (lawful.heldLive j name holds).ne_new).trans isFresh⟩
  heldOnce j k name first second := by
    obtain ⟨isFirst, isNew⟩ | ⟨-, old⟩ := update_eq_some_iff.mp first
    · obtain ⟨isSecond, -⟩ | ⟨-, old⟩ := update_eq_some_iff.mp second
      · rw [isFirst, isSecond]
      · cases isNew
        exact absurd rfl (lawful.heldLive k _ old).ne_new
    · obtain ⟨-, isNew⟩ | ⟨-, old'⟩ := update_eq_some_iff.mp second
      · cases isNew
        exact absurd rfl (lawful.heldLive j _ old).ne_new
      · exact lawful.heldOnce j k name old old'
  accounted name live := by
    obtain old | rfl := (Blocks.live_add lawful.sane).mp live
    · obtain isIn | ⟨j, holds⟩ := lawful.accounted name old
      · exact .inl isIn
      · have differ : j ≠ i := by
          rintro rfl
          cases idle.symm.trans holds
        exact .inr ⟨j, update_eq_some_iff.mpr (.inr ⟨differ, holds⟩)⟩
    · exact .inr ⟨i, update_eq_some_iff.mpr (.inl ⟨rfl, rfl⟩)⟩
  entries call isCall := by
    obtain ⟨isIn, isKey⟩ := lawful.entries call isCall
    exact ⟨isIn, by rwa [Blocks.add_block (lawful.ne_new isIn)]⟩
  lost := lawful.lost
  weighed name isIn := by
    rw [Blocks.add_block (lawful.ne_new isIn)]
    exact lawful.weighed name isIn

/-- A caller frees its block. -/
theorem free [DecidableEq ι] {i : ι} {new : Nat} (holds : held i = some new) :
    Lawful key fresh weight step (Function.update held i none) returned
      { table with memory := table.memory.free new } where
  sane := lawful.sane.free (lawful.heldLive i new holds)
  sorted := lawful.sorted
  live name isIn := Blocks.live_free.mpr ⟨lawful.live name isIn, lawful.held_ne holds isIn⟩
  heldLive j name still := by
    obtain ⟨differ, still⟩ := held_of_release still
    refine Blocks.live_free.mpr ⟨lawful.heldLive j name still, ?_⟩
    rintro rfl
    exact differ (lawful.heldOnce j i name still holds)
  heldFresh j name still := lawful.heldFresh j name (held_of_release still).2
  heldOnce j k name first second :=
    lawful.heldOnce j k name (held_of_release first).2 (held_of_release second).2
  accounted name live := by
    obtain ⟨live, differ⟩ := Blocks.live_free.mp live
    obtain isIn | ⟨j, holds'⟩ := lawful.accounted name live
    · exact .inl isIn
    · refine .inr ⟨j, update_eq_some_iff.mpr (.inr ⟨?_, holds'⟩)⟩
      rintro rfl
      cases holds.symm.trans holds'
      exact differ rfl
  entries := lawful.entries
  lost call isCall name brought differ :=
    List.mem_append_left _ (lawful.lost call isCall name brought differ)
  weighed := lawful.weighed

/-- A call returns an entry that it found. -/
theorem visited {visit : β → β} {name : Nat} {wanted : κ} {brought : Option Nat}
    (keyVisit : ∀ content, key (visit content) = key content)
    (weightVisit : ∀ content, weight (visit content) = weight content + step)
    (isIn : name ∈ inOrder table.tree) (isKey : key (table.memory.block name) = wanted)
    (freed : ∀ new, brought = some new → new ≠ name → new ∈ table.memory.freed) :
    Lawful key fresh weight step held (returned ++ [⟨wanted, brought, name⟩])
      { table with memory := table.memory.set name (visit (table.memory.block name)) } := by
  have sameKey : ∀ other,
      key ((table.memory.set name (visit (table.memory.block name))).block other) =
        key (table.memory.block other) := by
    intro other
    by_cases same : other = name
    · rw [same, Blocks.set_block_self, keyVisit]
    · rw [Blocks.set_block same]
  constructor
  · exact lawful.sane.set
  · exact lawful.sorted.imp fun isLess => by rwa [sameKey, sameKey]
  · exact lawful.live
  · exact lawful.heldLive
  · intro j other holds
    obtain ⟨notIn, isFresh⟩ := lawful.heldFresh j other holds
    refine ⟨notIn, (Blocks.set_block ?_).trans isFresh⟩
    rintro rfl
    exact notIn isIn
  · exact lawful.heldOnce
  · exact lawful.accounted
  · intro call isCall
    rw [sameKey]
    obtain earlier | isLast := List.mem_append.mp isCall
    · exact lawful.entries call earlier
    · cases List.mem_singleton.mp isLast
      exact ⟨isIn, isKey⟩
  · intro call isCall new isBrought differ
    obtain earlier | isLast := List.mem_append.mp isCall
    · exact lawful.lost call earlier new isBrought differ
    · cases List.mem_singleton.mp isLast
      exact freed new isBrought differ
  · intro other otherIn
    rw [weigh_snoc, ← lawful.weighed other otherIn]
    by_cases same : name = other
    · subst same
      rw [if_pos rfl, Blocks.set_block_self, weightVisit]
    · rw [if_neg same, Blocks.set_block (Ne.symm same), Int.add_zero]

/-- A call links the block that it brought and returns it. -/
theorem linked [DecidableEq ι] [DecidableLT κ] [LE κ] [Std.IsLinearOrder κ]
    [Std.LawfulOrderLT κ] {rbInsertColor : BinaryTree Nat → BinaryTree Nat}
    (keeps : KeepsOrder rbInsertColor) {create : β → β} {new : Nat} {wanted : κ} {i : ι}
    {path : List (Turn Nat)} (keyCreate : key (create fresh) = wanted)
    (weightCreate : weight (create fresh) = step) (holds : held i = some new)
    (placed : descend (fun name => towards wanted (key (table.memory.block name))) [] table.tree =
      .place path) :
    Lawful key fresh weight step (Function.update held i none)
      (returned ++ [⟨wanted, some new, new⟩])
      { tree := rbInsertColor (link new path)
        memory := table.memory.set new (create (table.memory.block new)) } := by
  obtain ⟨notIn, isFresh⟩ := lawful.heldFresh i new holds
  rw [isFresh]
  have others : ∀ name ∈ inOrder table.tree,
      (table.memory.set new (create fresh)).block name = table.memory.block name :=
    fun name isIn => Blocks.set_block (lawful.held_ne holds isIn)
  have sameWay : descend (fun name => towards wanted
      (key ((table.memory.set new (create fresh)).block name))) [] table.tree =
        descend (fun name => towards wanted (key (table.memory.block name))) [] table.tree :=
    descend_congr fun name isIn =>
      congrArg (fun content => towards wanted (key content)) (others name isIn)
  have sorted : (inOrder table.tree).Pairwise fun first second =>
      key ((table.memory.set new (create fresh)).block first) <
        key ((table.memory.set new (create fresh)).block second) :=
    lawful.sorted.imp_of_mem fun firstIn secondIn isLess => by
      rwa [others _ firstIn, others _ secondIn]
  obtain ⟨-, isLinked, nowSorted⟩ := sorted_link sorted (sameWay.trans placed) new
  have memLinked : ∀ name, name ∈ inOrder (rbInsertColor (link new path)) ↔
      name = new ∨ name ∈ inOrder table.tree := by
    intro name
    rw [keeps]
    exact isLinked name
  constructor
  · exact lawful.sane.set
  · rw [keeps]
    exact nowSorted (by rw [Blocks.set_block_self, keyCreate])
  · intro name isIn
    obtain rfl | isIn := (memLinked name).mp isIn
    · exact lawful.heldLive i name holds
    · exact lawful.live name isIn
  · exact fun j name still => lawful.heldLive j name (held_of_release still).2
  · intro j name still
    obtain ⟨differ, still⟩ := held_of_release still
    obtain ⟨notIn', isFresh'⟩ := lawful.heldFresh j name still
    have isOther : name ≠ new := by
      rintro rfl
      exact differ (lawful.heldOnce j i name still holds)
    refine ⟨fun isIn => ?_, (Blocks.set_block isOther).trans isFresh'⟩
    exact ((memLinked name).mp isIn).elim isOther notIn'
  · exact fun j k name first second =>
      lawful.heldOnce j k name (held_of_release first).2 (held_of_release second).2
  · intro name live
    rw [memLinked]
    obtain isIn | ⟨j, holds'⟩ := lawful.accounted name live
    · exact .inl (.inr isIn)
    · by_cases same : j = i
      · subst same
        cases holds.symm.trans holds'
        exact .inl (.inl rfl)
      · exact .inr ⟨j, update_eq_some_iff.mpr (.inr ⟨same, holds'⟩)⟩
  · intro call isCall
    rw [memLinked]
    obtain earlier | isLast := List.mem_append.mp isCall
    · obtain ⟨isIn, isKey⟩ := lawful.entries call earlier
      exact ⟨.inr isIn, by rw [others _ isIn, isKey]⟩
    · cases List.mem_singleton.mp isLast
      exact ⟨.inl rfl, by rw [Blocks.set_block_self, keyCreate]⟩
  · intro call isCall name isBrought differ
    obtain earlier | isLast := List.mem_append.mp isCall
    · exact lawful.lost call earlier name isBrought differ
    · cases List.mem_singleton.mp isLast
      cases isBrought
      exact absurd rfl differ
  · intro name isIn
    rw [weigh_snoc]
    obtain rfl | isIn := (memLinked name).mp isIn
    · have noneYet : (returned.countP fun call => call.entry = name) = 0 := by
        refine List.countP_eq_zero.mpr fun call isCall isEntry => ?_
        rw [decide_eq_true_eq] at isEntry
        exact notIn (isEntry ▸ (lawful.entries call isCall).1)
      rw [Blocks.set_block_self, weightCreate, noneYet, if_pos rfl]
      simp
    · have differ : new ≠ name := (lawful.held_ne holds isIn).symm
      rw [others name isIn, lawful.weighed name isIn, if_neg differ, Int.add_zero]

section Sections

variable [DecidableEq ι] [DecidableLT κ] [LE κ] [Std.IsLinearOrder κ] [Std.LawfulOrderLT κ]
  {rbInsertColor : BinaryTree Nat → BinaryTree Nat} {visit create : β → β} {wanted : κ}
  {next : Table β} {found : Option Nat}

omit [DecidableEq ι] in
/-- A caller looks up a key and brings nothing. -/
theorem lookup
    (searched : table.searchOrInsert rbInsertColor key visit create wanted none = (found, next))
    (keyVisit : ∀ content, key (visit content) = key content)
    (weightVisit : ∀ content, weight (visit content) = weight content + step) :
    (found = none ∧ next = table) ∨ ∃ name, found = some name ∧
      Lawful key fresh weight step held (returned ++ [⟨wanted, none, name⟩]) next := by
  rw [searchOrInsert] at searched
  split at searched
  next name isFound =>
    cases searched
    obtain ⟨isIn, isKey⟩ := key_of_found isFound
    exact .inr ⟨name, rfl, lawful.visited keyVisit weightVisit isIn isKey nofun⟩
  next path placed =>
    cases searched
    exact .inl ⟨rfl, rfl⟩

/-- A caller looks up a key, and brings a block that is linked or freed. -/
theorem insert {i : ι} {new : Nat}
    (searched : table.searchOrInsert rbInsertColor key visit create wanted (some new) =
      (found, next)) (keeps : KeepsOrder rbInsertColor) (holds : held i = some new)
    (keyVisit : ∀ content, key (visit content) = key content)
    (weightVisit : ∀ content, weight (visit content) = weight content + step)
    (keyCreate : key (create fresh) = wanted) (weightCreate : weight (create fresh) = step) :
    ∃ name, found = some name ∧
      Lawful key fresh weight step (Function.update held i none)
        (returned ++ [⟨wanted, some new, name⟩])
        (if name ≠ new then { next with memory := next.memory.free new } else next) := by
  rw [searchOrInsert] at searched
  split at searched
  next name isFound =>
    cases searched
    obtain ⟨isIn, isKey⟩ := key_of_found isFound
    refine ⟨name, rfl, ?_⟩
    rw [if_pos (lawful.held_ne holds isIn)]
    refine (lawful.free holds).visited keyVisit weightVisit isIn isKey fun other brought _ => ?_
    cases brought
    exact List.mem_append_right _ (List.mem_singleton_self _)
  next path placed =>
    cases searched
    refine ⟨new, rfl, ?_⟩
    rw [if_neg (not_not.mpr rfl)]
    exact lawful.linked keeps keyCreate weightCreate holds placed

end Sections

end Lawful

/-- With a block in hand a search ends at an entry. -/
theorem searchOrInsert_some [DecidableLT κ] {rbInsertColor : BinaryTree Nat → BinaryTree Nat}
    {visit create : β → β} {wanted : κ} {new : Nat} {found : Option Nat} {next : Table β}
    (searched : table.searchOrInsert rbInsertColor key visit create wanted (some new) =
      (found, next)) : found ≠ none := by
  rw [searchOrInsert] at searched
  split at searched
  next =>
    cases searched
    exact Option.some_ne_none _
  next =>
    cases searched
    exact Option.some_ne_none _

/-- No entry leaves the tree. -/
theorem searchOrInsert_grows [DecidableLT κ] {rbInsertColor : BinaryTree Nat → BinaryTree Nat}
    (keeps : KeepsOrder rbInsertColor) {visit create : β → β} {wanted : κ} {new found : Option Nat}
    {next : Table β} {name : Nat}
    (searched : table.searchOrInsert rbInsertColor key visit create wanted new = (found, next))
    (isIn : name ∈ inOrder table.tree) : name ∈ inOrder next.tree := by
  rw [searchOrInsert] at searched
  split at searched
  next =>
    cases searched
    exact isIn
  next path placed =>
    cases new with
    | none =>
        cases searched
        exact isIn
    | some new =>
        cases searched
        rw [keeps]
        exact mem_link_of_mem placed isIn

end Table

end Lib
