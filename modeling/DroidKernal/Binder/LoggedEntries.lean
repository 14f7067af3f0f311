import DroidKernal.Binder.TransactionLog

/-!
# What the log of transactions holds

Threads store into their entries without a lock.  As long as nobody takes a place that a
thread is still filling in, 32 places earlier, the stores of different threads go to
different entries: each of the last 32 places holds the whole entry of its own call, and
an entry that says it is done is whole at every moment.
-/

namespace DroidKernal.Binder

open Lib

/-! ## One call by itself -/

section Call

variable (uapi : BinderUapi) (call : LoggedCall) (id : Int32)

/-- The stores of a call make its entry, whatever was there before. -/
theorem LoggedCall.applyAll_stores (before : BinderTransactionLogEntry) :
    LogStore.applyAll before (call.stores uapi id) = call.entry uapi id := by
  cases found : call.found with
  | none =>
      simp [LoggedCall.stores, LoggedCall.leaveStores, LoggedCall.enterStores, found,
        LogStore.applyAll, LogStore.apply, BinderTransactionLogEntry.zeroed,
        LoggedCall.entry, LoggedCall.returns]
  | some target =>
      cases allocated : call.allocated with
      | false =>
          simp [LoggedCall.stores, LoggedCall.leaveStores, LoggedCall.enterStores, found,
            allocated, LogStore.applyAll, LogStore.apply, BinderTransactionLogEntry.zeroed,
            LoggedCall.entry, LoggedCall.returns]
      | true =>
          simp [LoggedCall.stores, LoggedCall.leaveStores, LoggedCall.enterStores, found,
            allocated, LogStore.applyAll, LogStore.apply, BinderTransactionLogEntry.zeroed,
            LoggedCall.entry, LoggedCall.returns]

/-- The store that says the entry is done is the last one. -/
theorem LoggedCall.nil_of_done_suffix {last : Int32} {rest : List LogStore}
    (suffix : LogStore.done last :: rest <:+ call.stores uapi id) : rest = [] := by
  obtain ⟨before, stores⟩ := suffix
  -- a store behind it would come after one that says the entry is done
  have notYet : LogStore.done last ∉ (call.stores uapi id).dropLast := by
    cases found : call.found with
    | none => simp [LoggedCall.stores, LoggedCall.leaveStores, LoggedCall.enterStores, found]
    | some target =>
        cases allocated : call.allocated with
        | false =>
            simp [LoggedCall.stores, LoggedCall.leaveStores, LoggedCall.enterStores, found,
              allocated]
        | true =>
            simp [LoggedCall.stores, LoggedCall.leaveStores, LoggedCall.enterStores, found,
              allocated]
  by_contra more
  rw [← stores, List.dropLast_append_of_ne_nil (List.cons_ne_nil _ _),
    List.dropLast_cons_of_ne_nil more] at notYet
  simp at notYet

/-- The first store takes the mark away, and no other one before the last puts it back. -/
theorem LogStore.apply_debugIdDone {store : LogStore} (notDone : ∀ id, store ≠ .done id)
    (entry : BinderTransactionLogEntry) (unmarked : entry.debugIdDone = 0) :
    (store.apply entry).debugIdDone = 0 := by
  cases store with
  | done id => exact absurd rfl (notDone id)
  | undone => rfl
  | clear => rfl
  | _ => exact unmarked

end Call

/-! ## The ring -/

/-- Indices less than a turn apart name different entries. -/
theorem logSlot_ne {k n : Nat} (before : k < n) (recent : n < k + logEntryCount) :
    k % logEntryCount ≠ n % logEntryCount := by
  simp only [logEntryCount] at *
  omega

variable {ι : Type*}

/-- What a thread that has taken the `k`-th place, for this call, still has to do, and
what it has done to its entry. -/
inductive Filling (uapi : BinderUapi) (k : Nat) (call : LoggedCall) (id : Int32)
    (entry : BinderTransactionLogEntry) : LogWriter → Prop where
  | counted {cur : UInt32} : cur.toNat = k % 2 ^ 32 →
      Filling uapi k call id entry (.counted call id cur)
  | fresh : Filling uapi k call id entry
      (.storing (k % logEntryCount) (call.stores uapi id))
  | underway {todo : List LogStore} : todo <:+ call.stores uapi id →
      LogStore.applyAll entry todo = call.entry uapi id →
      todo = [] ∨ entry.debugIdDone = 0 →
      Filling uapi k call id entry (.storing (k % logEntryCount) todo)

/-- The place that a thread fills in. -/
theorem Filling.slot_eq {uapi : BinderUapi} {k : Nat} {call : LoggedCall} {id : Int32}
    {entry : BinderTransactionLogEntry} {writer : LogWriter}
    (filling : Filling uapi k call id entry writer) :
    writer.slot = some (k % logEntryCount) := by
  cases filling with
  | counted value =>
      rw [LogWriter.slot, value, Nat.mod_mod_of_dvd k (by decide)]
  | fresh => rfl
  | underway suffix whole mark => rfl

/-- What holds of the log and its writers after some places were taken. -/
structure LogLawful (uapi : BinderUapi) (claims : List (ι × LoggedCall × Int32))
    (system : LogSystem ι) : Prop where
  cur : system.shared.log.cur = UInt32.ofNat claims.length - 1
  /-- a thread that has an entry took one of the last places, and no other has it -/
  filling : ∀ thread slot, (system.threads thread).slot = some slot →
    ∃ k call id, claims[k]? = some (thread, call, id) ∧
      claims.length ≤ k + logEntryCount ∧
      Filling uapi k call id (system.shared.log.entry (k % logEntryCount))
        (system.threads thread)
  /-- the last places are being filled in or hold their entries -/
  settled : ∀ k thread call id, claims[k]? = some (thread, call, id) →
    claims.length ≤ k + logEntryCount →
    (system.threads thread).slot = some (k % logEntryCount) ∨
      system.shared.log.entry (k % logEntryCount) = call.entry uapi id
  /-- an entry that is marked as done is that of a call -/
  published : ∀ slot, (system.shared.log.entry slot).debugIdDone ≠ 0 →
    ∃ claim ∈ claims, system.shared.log.entry slot = claim.2.1.entry uapi claim.2.2
  full : system.shared.log.full = true → logEntryCount < claims.length
  notFull : logEntryCount < claims.length → system.shared.log.full = true ∨
    ∃ thread call id cur, system.threads thread = .counted call id cur ∧ cur = 32

section Steps

variable {uapi : BinderUapi} {claims : List (ι × LoggedCall × Int32)} {system : LogSystem ι}

theorem LogLawful.init : LogLawful uapi [] (LogSystem.init ι) where
  cur := rfl
  filling thread slot taken := by cases taken
  settled k thread call id isClaim := by simp at isClaim
  published slot marked := absurd rfl marked
  full isFull := by cases isFull
  notFull := by simp [logEntryCount]

/-- Two of the last places with the same entry are the same place. -/
theorem logPlace_unique {k k' n : Nat} (before : k < n) (before' : k' < n)
    (recent : n ≤ k + logEntryCount) (recent' : n ≤ k' + logEntryCount)
    (same : k % logEntryCount = k' % logEntryCount) : k = k' := by
  rcases Nat.lt_trichotomy k k' with less | equal | more
  · exact absurd same (logSlot_ne less (by omega))
  · exact equal
  · exact absurd same.symm (logSlot_ne more (by omega))

/-- A thread that fills in the entry of one of the last places does so for the call that took it. -/
theorem LogLawful.filling_of_slot (lawful : LogLawful uapi claims system) {k : Nat}
    {thread taker : ι} {call : LoggedCall} {id : Int32}
    (isClaim : claims[k]? = some (taker, call, id)) (recent : claims.length ≤ k + logEntryCount)
    (slot : (system.threads thread).slot = some (k % logEntryCount)) :
    thread = taker ∧
      Filling uapi k call id (system.shared.log.entry (k % logEntryCount))
        (system.threads thread) := by
  obtain ⟨k', call', id', isClaim', recent', filling⟩ := lawful.filling thread _ slot
  have before := (List.getElem?_eq_some_iff.mp isClaim).1
  have before' := (List.getElem?_eq_some_iff.mp isClaim').1
  have sameSlot := Option.some.inj (filling.slot_eq.symm.trans slot)
  obtain rfl := logPlace_unique before' before recent' recent sameSlot
  cases isClaim.symm.trans isClaim'
  exact ⟨rfl, filling⟩

variable [DecidableEq ι]

@[simp] theorem LogSystem.move_threads (system : LogSystem ι) (thread : ι) (shared : LogShared)
    (writer : LogWriter) :
    (system.move thread shared writer).threads = Function.update system.threads thread writer :=
  rfl

@[simp] theorem LogSystem.move_shared (system : LogSystem ι) (thread : ι) (shared : LogShared)
    (writer : LogWriter) : (system.move thread shared writer).shared = shared :=
  rfl

/-- A thread that goes to where no entry is filled in. -/
theorem LogLawful.outside (lawful : LogLawful uapi claims system) {thread : ι} {lastId : Int32}
    {writer : LogWriter} (noSlot : writer.slot = none)
    (notCounted : ∀ call id cur, system.threads thread ≠ .counted call id cur)
    (left : ∀ k call id, claims[k]? = some (thread, call, id) →
      claims.length ≤ k + logEntryCount →
      (system.threads thread).slot = some (k % logEntryCount) →
      system.shared.log.entry (k % logEntryCount) = call.entry uapi id) :
    LogLawful uapi claims (system.move thread { system.shared with lastId } writer) where
  cur := lawful.cur
  filling other slot taken := by
    by_cases same : other = thread
    · subst same
      simp [noSlot] at taken
    · simp only [LogSystem.move_threads, Function.update_of_ne same] at taken ⊢
      exact lawful.filling other slot taken
  settled k other call id isClaim recent := by
    rcases lawful.settled k other call id isClaim recent with inside | whole
    · by_cases same : other = thread
      · subst same
        exact .inr (left k call id isClaim recent inside)
      · left
        simpa only [LogSystem.move_threads, Function.update_of_ne same] using inside
    · exact .inr whole
  published := lawful.published
  full := lawful.full
  notFull many := by
    rcases lawful.notFull many with isFull | ⟨other, call, id, cur, counted, value⟩
    · exact .inl isFull
    · refine .inr ⟨other, call, id, cur, ?_, value⟩
      have differs : other ≠ thread := by
        rintro rfl
        exact notCounted call id cur counted
      simpa only [LogSystem.move_threads, Function.update_of_ne differs] using counted

/-- Taking a place whose entry no thread is filling in. -/
theorem LogLawful.claim (lawful : LogLawful uapi claims system) {thread : ι}
    {call : LoggedCall} {id : Int32} (place : system.threads thread = .numbered call id)
    (unlapped : ∀ other, (system.threads other).slot ≠
      some ((system.shared.log.cur + 1).toNat % logEntryCount)) :
    LogLawful uapi (claims ++ [(thread, call, id)])
      (system.move thread
        { system.shared with log := { system.shared.log with cur := system.shared.log.cur + 1 } }
        (.counted call id (system.shared.log.cur + 1))) := by
  have next : system.shared.log.cur + 1 = UInt32.ofNat claims.length := by
    rw [lawful.cur]
    exact UInt32.sub_add_cancel _ _
  have value : (system.shared.log.cur + 1).toNat = claims.length % 2 ^ 32 := by
    rw [next]
    rfl
  have newSlot : (system.shared.log.cur + 1).toNat % logEntryCount =
      claims.length % logEntryCount := by
    rw [value, Nat.mod_mod_of_dvd _ (by decide)]
  rw [newSlot] at unlapped
  refine ⟨?_, ?_, ?_, ?_, ?_, ?_⟩
  · rw [LogSystem.move_shared, next, List.length_append, List.length_singleton,
      UInt32.ofNat_add]
    exact (UInt32.add_sub_cancel _ _).symm
  · intro other slot taken
    by_cases same : other = thread
    · subst same
      refine ⟨claims.length, call, id, by simp, by simp [logEntryCount], ?_⟩
      simp only [LogSystem.move_threads, Function.update_self]
      exact .counted value
    · simp only [LogSystem.move_threads, Function.update_of_ne same] at taken ⊢
      obtain ⟨k, call', id', isClaim, recent, filling⟩ := lawful.filling other slot taken
      have before := (List.getElem?_eq_some_iff.mp isClaim).1
      refine ⟨k, call', id', by rw [List.getElem?_append_left before, isClaim], ?_, filling⟩
      -- the place 32 earlier is not being filled in
      rw [List.length_append, List.length_singleton]
      by_contra lapped
      refine unlapped other ?_
      rw [filling.slot_eq, show claims.length = k + logEntryCount by omega, Nat.add_mod_right]
  · intro k other call' id' isClaim recent
    rw [List.length_append, List.length_singleton] at recent
    rcases Nat.lt_or_ge k claims.length with before | last
    · rw [List.getElem?_append_left before] at isClaim
      rcases lawful.settled k other call' id' isClaim (by omega) with inside | whole
      · left
        have differs : other ≠ thread := by
          rintro rfl
          rw [place] at inside
          cases inside
        simpa only [LogSystem.move_threads, Function.update_of_ne differs] using inside
      · exact .inr whole
    · have within := (List.getElem?_eq_some_iff.mp isClaim).1
      rw [List.length_append, List.length_singleton] at within
      obtain rfl : k = claims.length := by omega
      simp only [List.getElem?_concat_length, Option.some.injEq, Prod.mk.injEq] at isClaim
      obtain ⟨rfl, _, _⟩ := isClaim
      left
      simp only [LogSystem.move_threads, Function.update_self, LogWriter.slot, newSlot]
  · intro slot marked
    obtain ⟨claim, isClaim, whole⟩ := lawful.published slot marked
    exact ⟨claim, List.mem_append_left _ isClaim, whole⟩
  · intro isFull
    have many := lawful.full isFull
    rw [List.length_append]
    omega
  · intro many
    rw [List.length_append, List.length_singleton] at many
    rcases Nat.lt_or_ge logEntryCount claims.length with already | first
    · rcases lawful.notFull already with isFull | ⟨other, call', id', cur, counted, is32⟩
      · exact .inl isFull
      · refine .inr ⟨other, call', id', cur, ?_, is32⟩
        have differs : other ≠ thread := by
          rintro rfl
          rw [place] at counted
          cases counted
        simpa only [LogSystem.move_threads, Function.update_of_ne differs] using counted
    · refine .inr ⟨thread, call, id, _, Function.update_self .., ?_⟩
      rw [next, show claims.length = 32 by simp only [logEntryCount] at first many; omega]
      rfl

/-- Looking whether the log is full. -/
theorem LogLawful.check (lawful : LogLawful uapi claims system) {thread : ι}
    {call : LoggedCall} {id : Int32} {cur : UInt32}
    (place : system.threads thread = .counted call id cur) :
    LogLawful uapi claims
      (system.move thread
        { system.shared with
          log := { system.shared.log with
            full := system.shared.log.full || logEntryCount ≤ cur.toNat } }
        (.storing (cur.toNat % logEntryCount) (call.stores uapi id))) := by
  obtain ⟨k, call', id', isClaim, recent, filling⟩ :=
    lawful.filling thread _ (congrArg LogWriter.slot place)
  rw [place] at filling
  have before := (List.getElem?_eq_some_iff.mp isClaim).1
  obtain ⟨rfl, rfl, value⟩ : call = call' ∧ id = id' ∧ cur.toNat = k % 2 ^ 32 := by
    cases filling with
    | counted value => exact ⟨rfl, rfl, value⟩
  have slot : cur.toNat % logEntryCount = k % logEntryCount := by
    rw [value, Nat.mod_mod_of_dvd _ (by decide)]
  rw [slot]
  refine ⟨lawful.cur, ?_, ?_, lawful.published, ?_, ?_⟩
  · intro other taken isTaken
    by_cases same : other = thread
    · subst same
      refine ⟨k, call, id, isClaim, recent, ?_⟩
      simp only [LogSystem.move_threads, Function.update_self]
      exact .fresh
    · simp only [LogSystem.move_threads, Function.update_of_ne same] at isTaken ⊢
      exact lawful.filling other taken isTaken
  · intro k' other call' id' isClaim' recent'
    rcases lawful.settled k' other call' id' isClaim' recent' with inside | whole
    · left
      by_cases same : other = thread
      · subst same
        rw [place, LogWriter.slot, slot] at inside
        simpa only [LogSystem.move_threads, Function.update_self, LogWriter.slot] using inside
      · simpa only [LogSystem.move_threads, Function.update_of_ne same] using inside
    · exact .inr whole
  · intro isFull
    simp only [LogSystem.move_shared, Bool.or_eq_true, decide_eq_true_eq] at isFull
    rcases isFull with already | late
    · exact lawful.full already
    · have small := Nat.mod_le k (2 ^ 32)
      omega
  · intro many
    rcases lawful.notFull many with isFull | ⟨other, call', id', cur', counted, is32⟩
    · left
      simp [isFull]
    · by_cases same : other = thread
      · subst same
        rw [place] at counted
        cases counted
        left
        subst is32
        simp [logEntryCount]
      · refine .inr ⟨other, call', id', cur', ?_, is32⟩
        simpa only [LogSystem.move_threads, Function.update_of_ne same] using counted

/-- What a store makes of an entry that is being filled in. -/
theorem Filling.store {k : Nat} {call : LoggedCall} {id : Int32}
    {entry : BinderTransactionLogEntry} {slot : Nat} {store : LogStore} {todo : List LogStore}
    (filling : Filling uapi k call id entry (.storing slot (store :: todo))) :
    Filling uapi k call id (store.apply entry) (.storing slot todo) ∧
      ((store.apply entry).debugIdDone = 0 ∨ store.apply entry = call.entry uapi id) := by
  generalize writer : LogWriter.storing slot (store :: todo) = place at filling
  cases filling with
  | counted value => cases writer
  | fresh =>
      -- the first store takes the mark of the previous call away
      simp only [LogWriter.storing.injEq] at writer
      obtain ⟨rfl, stores⟩ := writer
      have whole := call.applyAll_stores uapi id entry
      have head : store = .undone := (List.cons.inj stores).1
      subst head
      rw [← stores] at whole
      exact ⟨.underway (stores ▸ List.suffix_cons _ _) whole (.inr rfl), .inl rfl⟩
  | underway suffix whole mark =>
      cases writer
      have unmarked : entry.debugIdDone = 0 := mark.resolve_left (List.cons_ne_nil _ _)
      have rest : todo <:+ call.stores uapi id := (List.suffix_cons _ _).trans suffix
      by_cases last : ∃ id, store = .done id
      · obtain ⟨final, rfl⟩ := last
        obtain rfl := call.nil_of_done_suffix uapi id suffix
        exact ⟨.underway rest whole (.inl rfl), .inr whole⟩
      · have still := LogStore.apply_debugIdDone (fun id isLast => last ⟨id, isLast⟩) entry
          unmarked
        exact ⟨.underway rest whole (.inr still), .inl still⟩

/-- A store into the entry of a thread. -/
theorem LogLawful.store (lawful : LogLawful uapi claims system) {thread : ι} {slot : Nat}
    {store : LogStore} {todo : List LogStore}
    (place : system.threads thread = .storing slot (store :: todo)) :
    LogLawful uapi claims
      (system.move thread
        { system.shared with
          log := { system.shared.log with
            entry := Function.update system.shared.log.entry slot
              (store.apply (system.shared.log.entry slot)) } }
        (.storing slot todo)) := by
  obtain ⟨k, call, id, isClaim, recent, filling⟩ :=
    lawful.filling thread _ (congrArg LogWriter.slot place)
  obtain rfl : slot = k % logEntryCount := by
    have same := filling.slot_eq
    rw [place] at same
    exact Option.some.inj same
  rw [place] at filling
  obtain ⟨after, published⟩ := filling.store
  have before := (List.getElem?_eq_some_iff.mp isClaim).1
  refine ⟨lawful.cur, ?_, ?_, ?_, lawful.full, ?_⟩
  · intro other taken isTaken
    by_cases same : other = thread
    · subst same
      refine ⟨k, call, id, isClaim, recent, ?_⟩
      simpa only [LogSystem.move_threads, LogSystem.move_shared, Function.update_self] using after
    · simp only [LogSystem.move_threads, LogSystem.move_shared,
        Function.update_of_ne same] at isTaken ⊢
      obtain ⟨k', call', id', isClaim', recent', filling'⟩ := lawful.filling other taken isTaken
      refine ⟨k', call', id', isClaim', recent', ?_⟩
      -- no other thread fills in this entry
      have apart : k' % logEntryCount ≠ k % logEntryCount := by
        intro shared
        rw [← filling'.slot_eq.symm.trans isTaken |> Option.some.inj] at isTaken
        rw [shared] at isTaken
        exact same (lawful.filling_of_slot isClaim recent isTaken).1
      rwa [Function.update_of_ne apart]
  · intro k' other call' id' isClaim' recent'
    have before' := (List.getElem?_eq_some_iff.mp isClaim').1
    by_cases mine : k' % logEntryCount = k % logEntryCount
    · obtain rfl := logPlace_unique before' before recent' recent mine
      cases isClaim.symm.trans isClaim'
      left
      simp only [LogSystem.move_threads, Function.update_self, LogWriter.slot]
    · simp only [LogSystem.move_threads, LogSystem.move_shared, Function.update_of_ne mine]
      rcases lawful.settled k' other call' id' isClaim' recent' with inside | whole
      · left
        have differs : other ≠ thread := by
          rintro rfl
          rw [place] at inside
          exact mine (Option.some.inj inside).symm
        rwa [Function.update_of_ne differs]
      · exact .inr whole
  · intro slot marked
    simp only [LogSystem.move_shared] at marked ⊢
    by_cases mine : slot = k % logEntryCount
    · subst mine
      rw [Function.update_self] at marked ⊢
      exact ⟨_, List.mem_of_getElem? isClaim, published.resolve_left marked⟩
    · rw [Function.update_of_ne mine] at marked ⊢
      exact lawful.published slot marked
  · intro many
    rcases lawful.notFull many with isFull | ⟨other, call', id', cur, counted, is32⟩
    · exact .inl isFull
    · refine .inr ⟨other, call', id', cur, ?_, is32⟩
      have differs : other ≠ thread := by
        rintro rfl
        rw [place] at counted
        cases counted
      simpa only [LogSystem.move_threads, Function.update_of_ne differs] using counted

/-- Every store of a call is made. -/
theorem Filling.whole {k : Nat} {call : LoggedCall} {id : Int32}
    {entry : BinderTransactionLogEntry} {slot : Nat}
    (filling : Filling uapi k call id entry (.storing slot [])) : entry = call.entry uapi id := by
  generalize writer : LogWriter.storing slot [] = place at filling
  cases filling with
  | counted value => cases writer
  | fresh =>
      simp only [LogWriter.storing.injEq] at writer
      exact absurd writer.2.symm (List.cons_ne_nil _ _)
  | underway suffix whole mark =>
      cases writer
      exact whole

/-- A step in which no thread takes a place whose entry another one is still filling in. -/
def UnlappedLogStep (uapi : BinderUapi) (system : LogSystem ι) (event : LogEvent ι)
    (next : LogSystem ι) : Prop :=
  LogStep uapi system event next ∧
    ∀ thread call id, event = .claims thread call id → ∀ other,
      (system.threads other).slot ≠
        some ((system.shared.log.cur + 1).toNat % logEntryCount)

theorem LogLawful.step {events : List (LogEvent ι)} {event : LogEvent ι} {next : LogSystem ι}
    (lawful : LogLawful uapi (claimed events) system)
    (step : UnlappedLogStep uapi system event next) :
    LogLawful uapi (claimed (events ++ [event])) next := by
  obtain ⟨taken, unlapped⟩ := step
  rw [claimed, filterMap_snoc]
  cases taken with
  | starts idle call =>
      rw [Option.toList_none, List.append_nil]
      refine lawful.outside rfl ?_ ?_
      · intro call id cur counted
        rw [idle] at counted
        cases counted
      · intro k call id _ _ slot
        rw [idle] at slot
        cases slot
  | claims place => exact lawful.claim place (unlapped _ _ _ rfl)
  | checks place =>
      rw [Option.toList_none, List.append_nil]
      exact lawful.check place
  | stores place =>
      rw [Option.toList_none, List.append_nil]
      exact lawful.store place
  | ends place =>
      rw [Option.toList_none, List.append_nil]
      refine lawful.outside rfl ?_ ?_
      · intro call id cur counted
        rw [place] at counted
        cases counted
      · intro k call id isClaim recent slot
        have filling := (lawful.filling_of_slot isClaim recent slot).2
        rw [place] at filling
        exact filling.whole

/-- However the threads take turns, as long as no thread is lapped: each of the last 32 places
of the log is being filled in by the thread that took it or holds the whole entry of its call,
an entry that is marked as done is whole at every moment, and when nothing is underway the log
says it is full exactly if more than 32 calls have been made.  The counter may wrap. -/
theorem transaction_log_whole {events : List (LogEvent ι)}
    (run : Run (UnlappedLogStep uapi) (LogSystem.init ι) events system) :
    let claims := claimed events
    let log := system.shared.log
    (∀ (k : Nat) (thread : ι) (call : LoggedCall) (id : Int32),
      claims[k]? = some (thread, call, id) → claims.length ≤ k + logEntryCount →
        (system.threads thread).slot = some (k % logEntryCount) ∨
          log.entry (k % logEntryCount) = call.entry uapi id) ∧
    (∀ slot, (log.entry slot).debugIdDone ≠ 0 →
      ∃ claim ∈ claims, log.entry slot = claim.2.1.entry uapi claim.2.2) ∧
    ((∀ thread, (system.threads thread).slot = none) →
      (log.full = true ↔ logEntryCount < claims.length)) := by
  intro claims log
  have lawful : LogLawful uapi claims system :=
    run.history_invariant (fun events system => LogLawful uapi (claimed events) system)
      LogLawful.init fun lawful step => lawful.step step
  refine ⟨lawful.settled, lawful.published, fun quiet => ⟨lawful.full, fun many => ?_⟩⟩
  rcases lawful.notFull many with isFull | ⟨thread, call, id, cur, counted, _⟩
  · exact isFull
  · have none := quiet thread
    rw [counted] at none
    cases none

/-- A transaction of 8 bytes to the manager. -/
def oneLoggedCall : LoggedCall where
  reply := false
  tr := ⟨0, 0, 3, 0, 0, 0, 8, 0, 0, 0⟩
  fromProc := 40
  fromThread := 41
  contextName := [98]
  target := some (1, 7)
  allocated := true

/-- A reply without a target. -/
def oneLoggedReply : LoggedCall where
  reply := true
  tr := ⟨0, 0, 0, 0, 0, 0, 0, 0, 0, 0⟩
  fromProc := 50
  fromThread := 51
  contextName := [98]
  target := none
  allocated := true

/-- A thread can make the stores it has left, and end, while the others are where they are. -/
theorem LogSystem.run_stores (uapi : BinderUapi) (thread : ι) {slot : Nat} (todo : List LogStore)
    {system : LogSystem ι} (place : system.threads thread = .storing slot todo) :
    ∃ events next, Run (UnlappedLogStep uapi) system events next ∧ claimed events = [] ∧
      next.threads = Function.update system.threads thread .idle := by
  induction todo generalizing system with
  | nil =>
      refine ⟨[.ends thread], _, .single ⟨.ends place, fun _ _ _ same => by cases same⟩, rfl, rfl⟩
  | cons store todo ih =>
      obtain ⟨events, next, run, quiet, done⟩ := @ih (system.move thread _ _)
        (Function.update_self ..)
      refine ⟨_, next, .cons ⟨.stores place, fun _ _ _ same => by cases same⟩ run, quiet, ?_⟩
      rw [done]
      exact Function.update_idem ..

/-- Two threads make a call each; the one that was numbered last takes the first place. -/
theorem transaction_log_two :
    ∃ (events : List (LogEvent Bool)) (system : LogSystem Bool),
      Run (UnlappedLogStep linuxUapi) (LogSystem.init Bool) events system ∧
      claimed events = [(true, oneLoggedCall, 2), (false, oneLoggedReply, 1)] ∧
      system.shared.log.entry 0 = oneLoggedCall.entry linuxUapi 2 ∧
      system.shared.log.entry 1 = oneLoggedReply.entry linuxUapi 1 := by
  let begun : List (LogEvent Bool) :=
    [.starts false oneLoggedReply, .starts true oneLoggedCall, .claims true oneLoggedCall 2,
      .claims false oneLoggedReply 1, .checks true, .checks false]
  obtain ⟨numbered, begins, first, second⟩ : ∃ numbered,
      Run (UnlappedLogStep linuxUapi) (LogSystem.init Bool) begun numbered ∧
      numbered.threads false = .storing 1 (oneLoggedReply.stores linuxUapi 1) ∧
      numbered.threads true = .storing 0 (oneLoggedCall.stores linuxUapi 2) := by
    have counts := Run.cons (show UnlappedLogStep linuxUapi (LogSystem.init Bool)
        (.starts false oneLoggedReply) _ from ⟨.starts rfl _, fun _ _ _ same => by cases same⟩)
      (.cons (show UnlappedLogStep linuxUapi _ (.starts true oneLoggedCall) _ from
        ⟨.starts rfl _, fun _ _ _ same => by cases same⟩)
      (.cons (show UnlappedLogStep linuxUapi _ (.claims true oneLoggedCall 2) _ from
        ⟨.claims rfl, fun _ _ _ _ other => by cases other <;> decide⟩)
      (.single (show UnlappedLogStep linuxUapi _ (.claims false oneLoggedReply 1) _ from
        ⟨.claims rfl, fun _ _ _ _ other => by cases other <;> decide⟩))))
    exact ⟨_, (counts.snoc (show UnlappedLogStep linuxUapi _ (.checks true) _ from
        ⟨.checks rfl, fun _ _ _ same => by cases same⟩)).snoc
      (show UnlappedLogStep linuxUapi _ (.checks false) _ from
        ⟨.checks rfl, fun _ _ _ same => by cases same⟩), rfl, rfl⟩
  obtain ⟨events, middle, stores, quiet, moved⟩ := LogSystem.run_stores linuxUapi false _ first
  obtain ⟨others, system, rest, still, done⟩ :=
    LogSystem.run_stores linuxUapi true _ ((congrFun moved true).trans second)
  have run := (begins.append stores).append rest
  have claims : claimed (begun ++ events ++ others) =
      [(true, oneLoggedCall, 2), (false, oneLoggedReply, 1)] := by
    simp only [claimed, List.filterMap_append] at quiet still ⊢
    rw [quiet, still]
    rfl
  have idle : ∀ thread, (system.threads thread).slot = none := by
    rw [done, moved]
    rintro (_ | _) <;> rfl
  refine ⟨_, system, run, claims, ?_⟩
  obtain ⟨settled, _, _⟩ := transaction_log_whole run
  rw [claims] at settled
  have settled (k : Nat) {thread : Bool} {call : LoggedCall} {id : Int32}
      (isClaim : [(true, oneLoggedCall, 2), (false, oneLoggedReply, 1)][k]? =
        some (thread, call, id)) :
      system.shared.log.entry (k % logEntryCount) = call.entry linuxUapi id := by
    rcases settled k thread call id isClaim (Nat.le_add_left_of_le (by decide)) with inside | whole
    · rw [idle] at inside
      cases inside
    · exact whole
  exact ⟨settled 0 rfl, settled 1 rfl⟩

end Steps

end DroidKernal.Binder
