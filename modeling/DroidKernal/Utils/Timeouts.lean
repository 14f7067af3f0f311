import DroidKernal.Utils.Looper

/-!
# Timeouts

The conversions of `Timers.cpp`, and the timeouts that `pollInner` passes to `epoll_wait` and
`pollAll` to `pollOnce`.  A delay of more than `INT_MAX - 1` milliseconds becomes -1, which
both take for waiting forever.
-/

namespace DroidKernal.Utils

/-- `INT_MAX`. -/
def intMax : Int := 2 ^ 31 - 1

/-- A conversion to `uint64_t`. -/
def toUint64 (n : Int) : Int := n % 2 ^ 64

/-- A conversion to `nsecs_t`. -/
def toNsecs (n : Int) : Int := n.bmod (2 ^ 64)

/-- A conversion to `int`. -/
def toInt (n : Int) : Int := n.bmod (2 ^ 32)

/-- `milliseconds_to_nanoseconds`. -/
def millisecondsToNanoseconds (secs : Int) : Int := secs * 1000000

/-- `toMillisecondTimeoutDelay`. -/
def toMillisecondTimeoutDelay (referenceTime timeoutTime : Int) : Int :=
  let timeoutDelayMillis :=
    if timeoutTime > referenceTime then
      let timeoutDelay := toUint64 (timeoutTime - referenceTime)
      if timeoutDelay > toUint64 ((intMax - 1) * 1000000) then -1
      else toNsecs (toUint64 (timeoutDelay + 999999)) / 1000000
    else 0
  toInt timeoutDelayMillis

/-- The timeout that `pollInner` passes to `epoll_wait`, with the reading `now` of the clock. -/
def pollInnerTimeout (timeoutMillis mNextMessageUptime now : Int) : Int :=
  if timeoutMillis ≠ 0 ∧ mNextMessageUptime ≠ llongMax then
    let messageTimeoutMillis := toMillisecondTimeoutDelay now mNextMessageUptime
    if messageTimeoutMillis ≥ 0 ∧ (timeoutMillis < 0 ∨ messageTimeoutMillis < timeoutMillis) then
      messageTimeoutMillis
    else timeoutMillis
  else timeoutMillis

/-- What `pollOnce` returns, and the reading of the clock that follows. -/
structure PollRound where
  result : Int
  now : Int

def pollCallback : Int := -2
def pollTimeout : Int := -3

/-- The timeouts passed to `pollOnce`, and what `pollAll` returns unless a call is still waiting. -/
structure PollAllRun where
  timeouts : List Int
  returned : Option Int

/-- The loop of `pollAll` without an end time. -/
def pollAllForever (timeoutMillis : Int) : List PollRound → PollAllRun
  | [] => { timeouts := [timeoutMillis], returned := none }
  | round :: rounds =>
      if round.result = pollCallback then
        let run := pollAllForever timeoutMillis rounds
        { run with timeouts := timeoutMillis :: run.timeouts }
      else { timeouts := [timeoutMillis], returned := some round.result }

/-- The loop of `pollAll` with an end time. -/
def pollAllUntil (endTime : Int) : Int → List PollRound → PollAllRun
  | timeoutMillis, [] => { timeouts := [timeoutMillis], returned := none }
  | timeoutMillis, round :: rounds =>
      if round.result ≠ pollCallback then
        { timeouts := [timeoutMillis], returned := some round.result }
      else
        let remaining := toMillisecondTimeoutDelay round.now endTime
        if remaining = 0 then { timeouts := [timeoutMillis], returned := some pollTimeout }
        else
          let run := pollAllUntil endTime remaining rounds
          { run with timeouts := timeoutMillis :: run.timeouts }

/-- `pollAll`, with the first reading `start` of the clock.  There is no result where the end
time cannot be represented. -/
def pollAll (timeoutMillis start : Int) (rounds : List PollRound) : Option PollAllRun :=
  if timeoutMillis ≤ 0 then some (pollAllForever timeoutMillis rounds)
  else
    let endTime := start + millisecondsToNanoseconds timeoutMillis
    if endTime ≤ llongMax then some (pollAllUntil endTime timeoutMillis rounds) else none

/-! ## Delays -/

section Delays

variable {referenceTime timeoutTime : Int}

theorem delay_passed (passed : timeoutTime ≤ referenceTime) :
    toMillisecondTimeoutDelay referenceTime timeoutTime = 0 := by
  rw [toMillisecondTimeoutDelay]
  simp only [if_neg (Int.not_lt.mpr passed)]
  rfl

/-- A delay beyond the limit. -/
theorem delay_far (far : (intMax - 1) * 1000000 < timeoutTime - referenceTime)
    (small : timeoutTime - referenceTime < 2 ^ 63) :
    toMillisecondTimeoutDelay referenceTime timeoutTime = -1 := by
  rw [intMax] at far
  have exact' : toUint64 (timeoutTime - referenceTime) = timeoutTime - referenceTime :=
    Int.emod_eq_of_lt (by omega) (by omega)
  have limit : toUint64 ((intMax - 1) * 1000000) = 2147483646000000 := rfl
  rw [toMillisecondTimeoutDelay]
  simp only [if_pos (show timeoutTime > referenceTime by omega), exact', limit]
  rw [if_pos (by omega)]
  rfl

/-- Other delays are rounded up. -/
theorem delay_near (later : referenceTime < timeoutTime)
    (near : timeoutTime - referenceTime ≤ (intMax - 1) * 1000000) :
    timeoutTime ≤ referenceTime +
        toMillisecondTimeoutDelay referenceTime timeoutTime * 1000000 ∧
      referenceTime + toMillisecondTimeoutDelay referenceTime timeoutTime * 1000000 <
        timeoutTime + 1000000 := by
  rw [intMax] at near
  have exact' : toUint64 (timeoutTime - referenceTime) = timeoutTime - referenceTime :=
    Int.emod_eq_of_lt (by omega) (by omega)
  have limit : toUint64 ((intMax - 1) * 1000000) = 2147483646000000 := rfl
  have rounded : toNsecs (toUint64 (timeoutTime - referenceTime + 999999)) =
      timeoutTime - referenceTime + 999999 := by
    rw [toUint64, Int.emod_eq_of_lt (by omega) (by omega), toNsecs,
      Int.bmod_eq_of_le (by omega) (by omega)]
  have isDelay : toMillisecondTimeoutDelay referenceTime timeoutTime =
      (timeoutTime - referenceTime + 999999) / 1000000 := by
    rw [toMillisecondTimeoutDelay]
    simp only [if_pos later, exact', limit, rounded]
    rw [if_neg (by omega), toInt, Int.bmod_eq_of_le (by omega) (by omega)]
  rw [isDelay]
  omega

theorem delay_positive (later : referenceTime < timeoutTime)
    (near : timeoutTime - referenceTime ≤ (intMax - 1) * 1000000) :
    1 ≤ toMillisecondTimeoutDelay referenceTime timeoutTime := by
  have covers := (delay_near later near).1
  omega

end Delays

/-! ## pollInner -/

section PollInner

variable {timeoutMillis mNextMessageUptime now passed : Int}

/-- The timeout does not let the poll sleep past the next message. -/
structure WakesInTime (timeoutMillis mNextMessageUptime now passed : Int) : Prop where
  finite : 0 ≤ passed
  within : 0 ≤ timeoutMillis → passed ≤ timeoutMillis
  wakes : 0 ≤ timeoutMillis ∧ now + timeoutMillis * 1000000 < mNextMessageUptime ∧
        passed = timeoutMillis ∨
      mNextMessageUptime ≤ now ∧ passed = 0 ∨
      mNextMessageUptime ≤ now + passed * 1000000 ∧
        now + passed * 1000000 < mNextMessageUptime + 1000000

theorem wakesInTime_due (due : mNextMessageUptime ≤ now) :
    WakesInTime timeoutMillis mNextMessageUptime now 0 :=
  ⟨Int.le_refl 0, id, .inr (.inl ⟨due, rfl⟩)⟩

/-- The timeout of the caller. -/
theorem wakesInTime_caller (finite : 0 ≤ timeoutMillis)
    (notLate : now + timeoutMillis * 1000000 < mNextMessageUptime + 1000000) :
    WakesInTime timeoutMillis mNextMessageUptime now timeoutMillis := by
  refine ⟨finite, fun _ => Int.le_refl _, ?_⟩
  by_cases smaller : now + timeoutMillis * 1000000 < mNextMessageUptime
  · exact .inl ⟨finite, smaller, rfl⟩
  · exact .inr (.inr ⟨Int.not_lt.mp smaller, notLate⟩)

/-- The timeout is right unless the caller waits forever and the message is too far. -/
theorem poll_wakes_in_time_iff (clock : 0 ≤ now) (pending : mNextMessageUptime < llongMax)
    (isInt : timeoutMillis ≤ intMax) :
    WakesInTime timeoutMillis mNextMessageUptime now
        (pollInnerTimeout timeoutMillis mNextMessageUptime now) ↔
      0 ≤ timeoutMillis ∨ mNextMessageUptime - now ≤ (intMax - 1) * 1000000 := by
  have notMax : mNextMessageUptime ≠ llongMax := Int.ne_of_lt pending
  rw [llongMax] at pending
  rw [intMax] at isInt
  by_cases none : timeoutMillis = 0
  · have isZero : pollInnerTimeout timeoutMillis mNextMessageUptime now = 0 := by
      rw [pollInnerTimeout, if_neg fun both => both.1 none, none]
    rw [isZero, none]
    refine ⟨fun _ => .inl (Int.le_refl 0), fun _ => ?_⟩
    by_cases due : mNextMessageUptime ≤ now
    · exact wakesInTime_due due
    · exact wakesInTime_caller (Int.le_refl 0) (by omega)
  rw [pollInnerTimeout, if_pos ⟨none, notMax⟩]
  by_cases due : mNextMessageUptime ≤ now
  · rw [delay_passed due]
    simp only
    rw [intMax]
    refine ⟨fun _ => .inr (by omega), fun _ => ?_⟩
    have isZero : (if (0 : Int) ≥ 0 ∧ (timeoutMillis < 0 ∨ 0 < timeoutMillis) then 0
        else timeoutMillis) = 0 := if_pos ⟨by omega, by omega⟩
    rw [isZero]
    exact wakesInTime_due due
  have later := Int.not_le.mp due
  by_cases near : mNextMessageUptime - now ≤ (intMax - 1) * 1000000
  · obtain ⟨covers, tight⟩ := delay_near later near
    have positive := delay_positive later near
    refine ⟨fun _ => .inr near, fun _ => ?_⟩
    simp only
    split
    next isShorter =>
      exact ⟨by omega, fun _ => by omega, .inr (.inr ⟨covers, tight⟩)⟩
    next isLonger =>
      exact wakesInTime_caller (by omega) (by omega)
  · rw [delay_far (Int.not_le.mp near) (by omega)]
    simp only
    rw [if_neg fun both => absurd both.1 (by decide)]
    constructor
    · exact fun wakes => .inl wakes.finite
    · intro enough
      have finite := enough.resolve_right near
      rw [intMax] at near
      exact wakesInTime_caller finite (by omega)

/-- A message in a second and a half. -/
theorem poll_wakes_in_time_soon :
    WakesInTime (-1) 1500000000 0 (pollInnerTimeout (-1) 1500000000 0) :=
  (poll_wakes_in_time_iff (by decide) (by decide) (by decide)).mpr (.inr (by decide))

/-- Nothing wakes the poll for a message in a month. -/
theorem month_slept_past :
    ¬ ∀ timeoutMillis mNextMessageUptime now : Int, 0 ≤ now → mNextMessageUptime < llongMax →
      -intMax - 1 ≤ timeoutMillis → timeoutMillis ≤ intMax →
      WakesInTime timeoutMillis mNextMessageUptime now
        (pollInnerTimeout timeoutMillis mNextMessageUptime now) := by
  intro every
  have finite := (every (-1) (30 * 24 * 60 * 60 * 1000000000) 0 (by decide) (by decide) (by decide)
    (by decide)).finite
  exact absurd finite (by decide)

end PollInner

/-! ## pollAll -/

/-- A timeout that reaches the end time from a reading of the clock, and not a millisecond
more. -/
structure Covers (limit endTime now timeout : Int) : Prop where
  positive : 1 ≤ timeout
  within : timeout ≤ limit
  reaches : endTime ≤ now + timeout * 1000000
  tight : now + timeout * 1000000 < endTime + 1000000

/-- Finite timeouts up to the end time, and no round behind it. -/
structure KeepsFinite (timeoutMillis start : Int) (rounds : List PollRound) (run : PollAllRun) :
    Prop where
  covers : ∀ (j : Nat) (timeout : Int), run.timeouts[j]? = some timeout →
    ∃ now, (start :: rounds.map PollRound.now)[j]? = some now ∧
      Covers timeoutMillis (start + timeoutMillis * 1000000) now timeout
  returns : ∀ before round later, rounds = before ++ round :: later →
    (∀ earlier ∈ before, earlier.result = pollCallback ∧
      earlier.now < start + timeoutMillis * 1000000) →
    round.result = pollCallback → start + timeoutMillis * 1000000 ≤ round.now →
      run.returned = some pollTimeout ∧ run.timeouts.length = before.length + 1

section PollAll

variable {limit endTime now timeout timeoutMillis start : Int} {round : PollRound}
  {rounds : List PollRound}

/-- A round with the end time near enough. -/
def Near (limit endTime : Int) (round : PollRound) : Prop :=
  endTime - round.now ≤ limit * 1000000 ∧ endTime - round.now ≤ (intMax - 1) * 1000000

theorem covers_of_near (near : Near limit endTime round)
    (more : toMillisecondTimeoutDelay round.now endTime ≠ 0) :
    Covers limit endTime round.now (toMillisecondTimeoutDelay round.now endTime) := by
  have later : round.now < endTime := by
    by_contra passed
    exact more (delay_passed (Int.not_lt.mp passed))
  obtain ⟨reaches, tight⟩ := delay_near later near.2
  have enough := near.1
  exact ⟨delay_positive later near.2, by omega, reaches, tight⟩

theorem pollAllUntil_waits (notCallback : round.result ≠ pollCallback) :
    pollAllUntil endTime timeout (round :: rounds) =
      { timeouts := [timeout], returned := some round.result } :=
  if_pos notCallback

theorem pollAllUntil_passed (isCallback : round.result = pollCallback)
    (passed : toMillisecondTimeoutDelay round.now endTime = 0) :
    pollAllUntil endTime timeout (round :: rounds) =
      { timeouts := [timeout], returned := some pollTimeout } := by
  rw [pollAllUntil, if_neg (not_not.mpr isCallback)]
  exact if_pos passed

theorem pollAllUntil_goes_on (isCallback : round.result = pollCallback)
    (more : toMillisecondTimeoutDelay round.now endTime ≠ 0) :
    pollAllUntil endTime timeout (round :: rounds) =
      { pollAllUntil endTime (toMillisecondTimeoutDelay round.now endTime) rounds with
        timeouts := timeout :: (pollAllUntil endTime
          (toMillisecondTimeoutDelay round.now endTime) rounds).timeouts } := by
  rw [pollAllUntil, if_neg (not_not.mpr isCallback)]
  exact if_neg more

theorem pollAllUntil_first : (pollAllUntil endTime timeout rounds).timeouts[0]? = some timeout := by
  cases rounds with
  | nil => rfl
  | cons round rounds =>
      by_cases isCallback : round.result = pollCallback
      · by_cases passed : toMillisecondTimeoutDelay round.now endTime = 0
        · rw [pollAllUntil_passed isCallback passed]
          rfl
        · rw [pollAllUntil_goes_on isCallback passed]
          rfl
      · rw [pollAllUntil_waits isCallback]
        rfl

theorem covers_only {readings : List Int} (covers : Covers limit endTime now timeout) {j : Nat}
    {passed : Int} (isPassed : [timeout][j]? = some passed) :
    ∃ reading, (now :: readings)[j]? = some reading ∧ Covers limit endTime reading passed := by
  cases j with
  | zero =>
      cases isPassed
      exact ⟨now, rfl, covers⟩
  | succ j => cases isPassed

/-- Every timeout of the loop covers what remains. -/
theorem pollAllUntil_covers (covers : Covers limit endTime now timeout)
    (near : ∀ round ∈ rounds, Near limit endTime round) {j : Nat} {passed : Int}
    (isPassed : (pollAllUntil endTime timeout rounds).timeouts[j]? = some passed) :
    ∃ reading, (now :: rounds.map PollRound.now)[j]? = some reading ∧
      Covers limit endTime reading passed := by
  induction rounds generalizing now timeout j with
  | nil => exact covers_only covers isPassed
  | cons round rounds ih =>
      have only : ∀ returned, (pollAllUntil endTime timeout (round :: rounds)) =
          ⟨[timeout], returned⟩ → ∃ reading, (now :: (round :: rounds).map PollRound.now)[j]? =
            some reading ∧ Covers limit endTime reading passed := by
        intro returned isRun
        rw [isRun] at isPassed
        exact covers_only covers isPassed
      by_cases isCallback : round.result = pollCallback
      · by_cases ended : toMillisecondTimeoutDelay round.now endTime = 0
        · exact only _ (pollAllUntil_passed isCallback ended)
        · rw [pollAllUntil_goes_on isCallback ended] at isPassed
          cases j with
          | zero =>
              cases isPassed
              exact ⟨now, rfl, covers⟩
          | succ j =>
              exact ih (covers_of_near (near round (List.mem_cons_self ..)) ended)
                (fun later isLater => near later (List.mem_cons_of_mem _ isLater)) isPassed
      · exact only _ (pollAllUntil_waits isCallback)

/-- The round that reaches the end time is the last. -/
theorem pollAllUntil_returns {before later : List PollRound}
    (inTime : ∀ earlier ∈ before, earlier.result = pollCallback ∧
      endTime - earlier.now ≤ (intMax - 1) * 1000000 ∧ earlier.now < endTime)
    (isCallback : round.result = pollCallback) (ended : endTime ≤ round.now) :
    (pollAllUntil endTime timeout (before ++ round :: later)).returned = some pollTimeout ∧
      (pollAllUntil endTime timeout (before ++ round :: later)).timeouts.length =
        before.length + 1 := by
  induction before generalizing timeout with
  | nil =>
      rw [List.nil_append, pollAllUntil_passed isCallback (delay_passed ended)]
      exact ⟨rfl, rfl⟩
  | cons earlier before ih =>
      obtain ⟨isEarlier, near, soon⟩ := inTime earlier (List.mem_cons_self ..)
      have more := delay_positive soon near
      rw [List.cons_append, pollAllUntil_goes_on isEarlier (by omega)]
      obtain ⟨returned, length⟩ := @ih (toMillisecondTimeoutDelay earlier.now endTime)
        fun next isNext => inTime next (List.mem_cons_of_mem _ isNext)
      exact ⟨returned, by rw [List.length_cons, length, List.length_cons]⟩

/-- The first callback decides for the rounds behind it. -/
theorem near_of_first (isInt : timeoutMillis ≤ intMax)
    (clock : (start :: (round :: rounds).map PollRound.now).Pairwise (· ≤ ·))
    (enough : timeoutMillis < intMax ∨ start + 1000000 ≤ round.now) :
    ∀ next ∈ round :: rounds, Near timeoutMillis (start + timeoutMillis * 1000000) next := by
  intro next isNext
  obtain ⟨notEarlier, ordered⟩ := List.pairwise_cons.mp clock
  have afterStart := notEarlier next.now (List.mem_map_of_mem isNext)
  refine ⟨by omega, ?_⟩
  obtain smaller | late := enough
  · omega
  · have afterFirst : round.now ≤ next.now := by
      obtain rfl | isLater := List.mem_cons.mp isNext
      · exact Int.le_refl _
      · exact (List.pairwise_cons.mp ordered).1 _ (List.mem_map_of_mem isLater)
    omega

/-- A first callback before the delay can be represented makes the second timeout endless. -/
theorem pollAllUntil_endless (isCallback : round.result = pollCallback)
    (isDelay : toMillisecondTimeoutDelay round.now endTime = -1) :
    (pollAllUntil endTime timeout (round :: rounds)).timeouts[1]? = some (-1) := by
  rw [pollAllUntil_goes_on isCallback (by rw [isDelay]; decide), isDelay]
  exact pollAllUntil_first

theorem pollAllUntil_keepsFinite (positive : 0 < timeoutMillis) (isInt : timeoutMillis ≤ intMax)
    (clock : (start :: rounds.map PollRound.now).Pairwise (· ≤ ·))
    (enough : timeoutMillis < intMax ∨ ∀ round, rounds.head? = some round →
      round.result = pollCallback → start + 1000000 ≤ round.now) :
    KeepsFinite timeoutMillis start rounds
      (pollAllUntil (start + timeoutMillis * 1000000) timeoutMillis rounds) := by
  have initial : Covers timeoutMillis (start + timeoutMillis * 1000000) start timeoutMillis :=
    ⟨positive, Int.le_refl _, Int.le_refl _, by omega⟩
  constructor
  · intro j passed isPassed
    cases rounds with
    | nil => exact covers_only initial isPassed
    | cons first later =>
        by_cases isCallback : first.result = pollCallback
        · have near := near_of_first isInt clock (enough.imp_right fun late =>
            late first rfl isCallback)
          exact pollAllUntil_covers initial near isPassed
        · rw [pollAllUntil_waits isCallback] at isPassed
          exact covers_only initial isPassed
  · rintro before round later rfl inTime isCallback ended
    cases before with
    | nil => exact pollAllUntil_returns (by simp) isCallback ended
    | cons first before =>
        have isFirst := (inTime first (List.mem_cons_self ..)).1
        have near := near_of_first isInt clock (enough.imp_right fun late =>
          late first rfl isFirst)
        refine pollAllUntil_returns (fun earlier isEarlier => ?_) isCallback ended
        obtain ⟨isCall, soon⟩ := inTime earlier isEarlier
        exact ⟨isCall, (near earlier (List.mem_append_left _ isEarlier)).2, soon⟩

/-- The timeouts are finite unless the first callback of the longest timeout ends within its first
millisecond. -/
theorem pollAll_keeps_finite_iff (positive : 0 < timeoutMillis) (isInt : timeoutMillis ≤ intMax)
    (clock : (start :: rounds.map PollRound.now).Pairwise (· ≤ ·)) :
    (∃ run, pollAll timeoutMillis start rounds = some run ∧
        KeepsFinite timeoutMillis start rounds run) ↔
      start + timeoutMillis * 1000000 ≤ llongMax ∧
        (timeoutMillis < intMax ∨ ∀ round, rounds.head? = some round →
          round.result = pollCallback → start + 1000000 ≤ round.now) := by
  have notEarlier := (List.pairwise_cons.mp clock).1
  rw [pollAll, if_neg (Int.not_le.mpr positive), millisecondsToNanoseconds]
  simp only
  constructor
  · rintro ⟨run, isRun, keeps⟩
    split at isRun
    next fits =>
      cases isRun
      refine ⟨fits, ?_⟩
      by_contra neither
      obtain ⟨longest, bad⟩ := not_or.mp neither
      push Not at bad
      obtain ⟨round, isFirst, isCallback, early⟩ := bad
      obtain ⟨later, rfl⟩ : ∃ later, rounds = round :: later := by
        cases rounds with
        | nil => cases isFirst
        | cons first later =>
            cases isFirst
            exact ⟨later, rfl⟩
      have notBefore := notEarlier round.now (List.mem_cons_self ..)
      have isDelay : toMillisecondTimeoutDelay round.now (start + timeoutMillis * 1000000) = -1 :=
        delay_far (by omega) (by rw [intMax] at isInt; omega)
      obtain ⟨reading, -, covers⟩ :=
        keeps.covers 1 (-1) (pollAllUntil_endless isCallback isDelay)
      exact absurd covers.positive (by decide)
    next overflows => cases isRun
  · rintro ⟨fits, enough⟩
    exact ⟨_, if_pos fits, pollAllUntil_keepsFinite positive isInt clock enough⟩

/-- The longest timeout, with a first callback that takes a millisecond. -/
theorem pollAll_keeps_finite_longest :
    (∃ run, pollAll intMax 0 [⟨pollCallback, 1000000⟩, ⟨0, 2000000⟩] = some run ∧
      KeepsFinite intMax 0 [⟨pollCallback, 1000000⟩, ⟨0, 2000000⟩] run) :=
  (pollAll_keeps_finite_iff (by decide) (by decide) (by decide)).mpr
    ⟨by decide, .inr fun _ isFirst _ => by cases isFirst; decide⟩

/-- The longest timeout becomes an endless one. -/
theorem longest_timeout_endless :
    ¬ ∀ (timeoutMillis start : Int) (rounds : List PollRound), 0 < timeoutMillis →
      timeoutMillis ≤ intMax → (start :: rounds.map PollRound.now).Pairwise (· ≤ ·) →
      start + timeoutMillis * 1000000 ≤ llongMax →
      ∃ run, pollAll timeoutMillis start rounds = some run ∧
        KeepsFinite timeoutMillis start rounds run := by
  intro every
  obtain ⟨run, isRun, keeps⟩ := every intMax 0 [⟨pollCallback, 999999⟩] (by decide) (by decide)
    (by decide) (by decide)
  cases isRun
  obtain ⟨reading, -, covers⟩ := keeps.covers 1 (-1) rfl
  exact absurd covers.positive (by decide)

end PollAll

end DroidKernal.Utils
