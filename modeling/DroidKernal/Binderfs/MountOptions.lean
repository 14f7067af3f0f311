import DroidKernal.Binderfs.Devices
import DroidKernal.Lib.CString
import DroidKernal.Lib.Text

/-!
# Mount options

`binderfs_parse_mount_opts`, `binderfs_show_mount_opts` and `binderfs_remount`.  The matching
of tokens, the conversion of numbers and the copying of arguments are those of the kernel's
parser library, which is not part of the repository: what they do is a parameter, and what is
assumed about them is `KernelParser.Documented`.
-/

namespace DroidKernal.Binderfs

open Lib

/-- `enum binderfs_stats_mode`. -/
inductive StatsMode where
  | statsNone
  | statsGlobal
  deriving DecidableEq, Repr

/-- `struct binderfs_mount_opts`. -/
structure BinderfsMountOpts where
  max : Int
  statsMode : StatsMode
  deriving DecidableEq, Repr

/-- The tokens of a `match_table_t`. -/
inductive OptToken where
  | optMax
  | optStatMode
  | optErr
  deriving DecidableEq, Repr

/-- What stands for the argument in a pattern: `%d` or `%s`. -/
inductive Conversion where
  | d
  | s
  deriving DecidableEq, Repr

/-- A pattern: the text before the argument, and the argument. -/
structure OptPattern where
  text : List UInt8
  argument : Conversion
  deriving DecidableEq, Repr

/-- `match_table_t`, whose last entry has no pattern. -/
abbrev MatchTable := List (OptToken × Option OptPattern)

def maxText : List UInt8 := ascii "max="
def statsText : List UInt8 := ascii "stats="
def globalText : List UInt8 := ascii "global"

/-- `tokens`. -/
def tokens : MatchTable :=
  [(.optMax, some ⟨maxText, .d⟩), (.optStatMode, some ⟨statsText, .s⟩), (.optErr, none)]

/-- The functions of the kernel's parser library.  The last two need memory, and have no
result if they fail. -/
structure KernelParser where
  /-- the token and `args[0]` -/
  matchToken : List UInt8 → MatchTable → OptToken × List UInt8
  matchInt : Bool → List UInt8 → Option Int
  matchStrdup : Bool → List UInt8 → Option (List UInt8)

/-- The tokens that `strsep(&data, ",")` returns one after the other. -/
def strsepTokens : Option CString → List (List UInt8)
  | none => []
  | some data => data.bytes.splitOn 0x2C

/-- A conversion to `unsigned int`. -/
def toUint32 (n : Int) : Int := n % 2 ^ 32

section Parse

variable (kernel : KernelParser) (capable : Bool)

/-- The body of the loop of `binderfs_parse_mount_opts`, with the outcome of `kmalloc`: the
options, or what the function returns. -/
def parseToken (memory : Bool) (opts : BinderfsMountOpts) (p : List UInt8) :
    Except Int BinderfsMountOpts :=
  if p.length = 0 then .ok opts
  else
    let (token, arg) := kernel.matchToken p tokens
    match token with
    | .optMax =>
        match kernel.matchInt memory arg with
        | none => .error (-EINVAL)
        | some maxDevices =>
            if maxDevices < 0 ∨ toUint32 maxDevices > binderfsMaxMinor then .error (-EINVAL)
            else .ok { opts with max := maxDevices }
    | .optStatMode =>
        if capable = false then .error (-EINVAL)
        else
          match kernel.matchStrdup memory arg with
          | none => .error (-ENOMEM)
          | some stats =>
              if stats ≠ globalText then .error (-EINVAL)
              else .ok { opts with statsMode := .statsGlobal }
    | .optErr => .error (-EINVAL)

/-- The loop of `binderfs_parse_mount_opts`. -/
def parseTokens : (Nat → Bool) → List (List UInt8) → BinderfsMountOpts → Int × BinderfsMountOpts
  | _, [], opts => (0, opts)
  | memory, p :: ps, opts =>
      match parseToken kernel capable (memory 0) opts p with
      | .error ret => (ret, opts)
      | .ok opts => parseTokens (fun i => memory (i + 1)) ps opts

/-- The options that `binderfs_parse_mount_opts` begins with. -/
def defaultOpts : BinderfsMountOpts := { max := binderfsMaxMinor, statsMode := .statsNone }

/-- `binderfs_parse_mount_opts`: what it returns, and the options it leaves, which it sets
whatever they were. -/
def binderfsParseMountOpts (memory : Nat → Bool) (data : Option CString) :
    Int × BinderfsMountOpts :=
  parseTokens kernel capable memory (strsepTokens data) defaultOpts

/-- `binderfs_remount`, which lets `binderfs_parse_mount_opts` set the options of the mount. -/
def binderfsRemount (memory : Nat → Bool) (data : Option CString) (mountOpts : BinderfsMountOpts) :
    Int × BinderfsMountOpts :=
  let prevStatsMode := mountOpts.statsMode
  let (ret, mountOpts) := binderfsParseMountOpts kernel capable memory data
  if ret ≠ 0 then (ret, mountOpts)
  else if prevStatsMode ≠ mountOpts.statsMode then
    (-EINVAL, { mountOpts with statsMode := prevStatsMode })
  else (0, mountOpts)

end Parse

/-- `binderfs_show_mount_opts`: what it prints. -/
def binderfsShowMountOpts (mountOpts : BinderfsMountOpts) : List UInt8 :=
  (if toUint32 mountOpts.max ≤ binderfsMaxMinor then ascii ",max=" ++ formatInt mountOpts.max
    else []) ++
  (if mountOpts.statsMode = .statsGlobal then ascii ",stats=global" else [])

/-! ## The parser library -/

section Documented

variable (integer : List UInt8 → Option Int)

/-- A pattern matches a token, with an argument.  `integer` tells the texts that `%d` takes
for an integer, and which. -/
def OptPattern.Matches (pattern : OptPattern) (p arg : List UInt8) : Prop :=
  p = pattern.text ++ arg ∧
    match pattern.argument with
    | .d => ∃ n, integer arg = some n
    | .s => arg ≠ []

/-- The first entry of a table that matches. -/
inductive FirstMatch (p : List UInt8) : MatchTable → OptToken → List UInt8 → Prop where
  | here {pattern : OptPattern} {token : OptToken} {table : MatchTable} {arg : List UInt8}
      (here : pattern.Matches integer p arg) :
      FirstMatch p ((token, some pattern) :: table) token arg
  | later {pattern : OptPattern} {token other : OptToken} {table : MatchTable}
      {arg : List UInt8} (notHere : ∀ arg, ¬ pattern.Matches integer p arg)
      (later : FirstMatch p table token arg) :
      FirstMatch p ((other, some pattern) :: table) token arg
  | last {token : OptToken} {table : MatchTable} {arg : List UInt8} :
      FirstMatch p ((token, none) :: table) token arg

/-- What the kernel documents about its parser: a token is that of the first pattern that
matches, a number is read if it is an `int`, an argument is copied, and a number that was
printed is read back. -/
structure KernelParser.Documented (kernel : KernelParser) : Prop where
  matchToken : ∀ p table, (∃ entry ∈ table, entry.2 = none) →
    FirstMatch integer p table (kernel.matchToken p table).1 (kernel.matchToken p table).2
  matchInt : ∀ arg n, kernel.matchInt true arg = some n ↔
    integer arg = some n ∧ -2 ^ 31 ≤ n ∧ n < 2 ^ 31
  matchInt_fails : ∀ arg, kernel.matchInt false arg = none
  matchStrdup : ∀ arg, kernel.matchStrdup true arg = some arg
  matchStrdup_fails : ∀ arg, kernel.matchStrdup false arg = none
  printed : ∀ n : Nat, n < 2 ^ 31 → integer (decimal n) = some (n : Int)

end Documented

variable {integer : List UInt8 → Option Int} {kernel : KernelParser} {capable memory : Bool}
  {opts next : BinderfsMountOpts} {p text arg : List UInt8} {n : Int}

theorem maxText_ne_statsText (text arg : List UInt8) : maxText ++ text ≠ statsText ++ arg := by
  intro same
  have first := congrArg List.head? same
  cases first

namespace KernelParser.Documented

variable (documented : kernel.Documented integer)

include documented

theorem firstMatch (p : List UInt8) : FirstMatch integer p tokens (kernel.matchToken p tokens).1
    (kernel.matchToken p tokens).2 :=
  documented.matchToken p tokens ⟨(.optErr, none), by simp [tokens], rfl⟩

theorem matchToken_max (isInteger : integer text = some n) :
    kernel.matchToken (maxText ++ text) tokens = (.optMax, text) := by
  have first := documented.firstMatch (maxText ++ text)
  generalize kernel.matchToken (maxText ++ text) tokens = found at first
  obtain ⟨token, arg⟩ := found
  cases first with
  | here here =>
      rw [List.append_cancel_left here.1]
  | later notHere _ => exact absurd ⟨rfl, n, isInteger⟩ (notHere text)

theorem matchToken_stats (someText : text ≠ []) :
    kernel.matchToken (statsText ++ text) tokens = (.optStatMode, text) := by
  have first := documented.firstMatch (statsText ++ text)
  generalize kernel.matchToken (statsText ++ text) tokens = found at first
  obtain ⟨token, arg⟩ := found
  cases first with
  | here here => exact absurd here.1.symm (maxText_ne_statsText arg text)
  | later _ first =>
      cases first with
      | here here => rw [List.append_cancel_left here.1]
      | later notHere _ => exact absurd ⟨rfl, someText⟩ (notHere text)

/-- What the token says about the text. -/
theorem of_matchToken :
    ((kernel.matchToken p tokens).1 = .optMax → p = maxText ++ (kernel.matchToken p tokens).2) ∧
    ((kernel.matchToken p tokens).1 = .optStatMode →
      p = statsText ++ (kernel.matchToken p tokens).2) := by
  have first := documented.firstMatch p
  generalize kernel.matchToken p tokens = found at first
  obtain ⟨token, arg⟩ := found
  cases first with
  | here here => exact ⟨fun _ => here.1, nofun⟩
  | later _ first =>
      cases first with
      | here here => exact ⟨nofun, fun _ => here.1⟩
      | later _ first =>
          cases first with
          | last => exact ⟨nofun, nofun⟩

end KernelParser.Documented

/-! ## Tokens -/

/-- What an accepted token does to the options. -/
inductive TokenGives (integer : List UInt8 → Option Int) (capable memory : Bool)
    (opts : BinderfsMountOpts) : List UInt8 → BinderfsMountOpts → Prop where
  | empty : TokenGives integer capable memory opts [] opts
  | max {text : List UInt8} {n : Int} (hasMemory : memory = true)
      (isInteger : integer text = some n) (nonneg : 0 ≤ n) (within : n ≤ binderfsMaxMinor) :
      TokenGives integer capable memory opts (maxText ++ text) { opts with max := n }
  | stats (hasMemory : memory = true) (isCapable : capable = true) :
      TokenGives integer capable memory opts (statsText ++ globalText)
        { opts with statsMode := .statsGlobal }

theorem toUint32_eq (nonneg : 0 ≤ n) (small : n < 2 ^ 32) : toUint32 n = n :=
  Int.emod_eq_of_lt nonneg small

theorem gives_of_matchInt (documented : kernel.Documented integer) {arg : List UInt8}
    (read : kernel.matchInt memory arg = some n)
    (inside : ¬ (n < 0 ∨ toUint32 n > binderfsMaxMinor)) :
    TokenGives integer capable memory opts (maxText ++ arg) { opts with max := n } := by
  cases memory with
  | false => cases read.symm.trans (documented.matchInt_fails arg)
  | true =>
      obtain ⟨isInteger, least, most⟩ := (documented.matchInt arg n).mp read
      obtain ⟨nonneg, within⟩ := not_or.mp inside
      rw [toUint32_eq (Int.not_lt.mp nonneg) (by omega)] at within
      exact .max rfl isInteger (Int.not_lt.mp nonneg) (Int.not_lt.mp within)

theorem gives_of_matchStrdup (documented : kernel.Documented integer) {arg stats : List UInt8}
    (isCapable : capable = true) (copied : kernel.matchStrdup memory arg = some stats)
    (isGlobal : stats = globalText) :
    TokenGives integer capable memory opts (statsText ++ arg)
      { opts with statsMode := .statsGlobal } := by
  cases memory with
  | false => cases copied.symm.trans (documented.matchStrdup_fails arg)
  | true =>
      cases copied.symm.trans (documented.matchStrdup arg)
      rw [isGlobal]
      exact .stats rfl isCapable

theorem gives_of_parseToken (documented : kernel.Documented integer)
    (parsed : parseToken kernel capable memory opts p = .ok next) :
    TokenGives integer capable memory opts p next := by
  obtain ⟨isMax, isStats⟩ := documented.of_matchToken (p := p)
  rw [parseToken] at parsed
  split at parsed
  next none =>
    obtain rfl := List.eq_nil_of_length_eq_zero none
    cases parsed
    exact .empty
  next nonempty =>
    generalize kernel.matchToken p tokens = found at parsed isMax isStats
    obtain ⟨token, arg⟩ := found
    cases token with
    | optMax =>
        obtain rfl := isMax rfl
        simp only at parsed
        split at parsed
        next => cases parsed
        next maxDevices read =>
          split at parsed
          next => cases parsed
          next inside =>
            cases parsed
            exact gives_of_matchInt documented read inside
    | optStatMode =>
        obtain rfl := isStats rfl
        simp only at parsed
        split at parsed
        next => cases parsed
        next isCapable =>
          split at parsed
          next => cases parsed
          next stats copied =>
            split at parsed
            next => cases parsed
            next isGlobal =>
              cases parsed
              exact gives_of_matchStrdup documented (Bool.eq_true_of_not_eq_false isCapable)
                copied (not_not.mp isGlobal)
    | optErr => cases parsed

theorem parseToken_of_gives (documented : kernel.Documented integer)
    (gives : TokenGives integer capable memory opts p next) :
    parseToken kernel capable memory opts p = .ok next := by
  cases gives with
  | empty => rfl
  | @max text n hasMemory isInteger nonneg within =>
      have limit : (binderfsMaxMinor : Int) = 1048576 := rfl
      have nonempty : (maxText ++ text).length ≠ 0 := by simp [maxText, ascii]
      have read := (documented.matchInt text n).mpr ⟨isInteger, by omega, by omega⟩
      have inside : ¬ (n < 0 ∨ toUint32 n > binderfsMaxMinor) := by
        rw [toUint32_eq nonneg (by omega)]
        omega
      rw [parseToken, if_neg nonempty, documented.matchToken_max isInteger, hasMemory]
      simp only [read, if_neg inside]
  | stats hasMemory isCapable =>
      have nonempty : (statsText ++ globalText).length ≠ 0 := by decide
      rw [parseToken, if_neg nonempty, documented.matchToken_stats (by decide), hasMemory,
        isCapable]
      simp only [documented.matchStrdup, Bool.true_eq_false, if_false, ne_eq, not_true_eq_false]

theorem parseToken_ok_iff (documented : kernel.Documented integer) :
    parseToken kernel capable memory opts p = .ok next ↔
      TokenGives integer capable memory opts p next :=
  ⟨gives_of_parseToken documented, parseToken_of_gives documented⟩

theorem parseToken_error {ret : Int}
    (failed : parseToken kernel capable memory opts p = .error ret) : ret ≠ 0 := by
  rw [parseToken] at failed
  split at failed
  next => cases failed
  next =>
    generalize kernel.matchToken p tokens = found at failed
    obtain ⟨token, arg⟩ := found
    cases token with
    | optMax =>
        simp only at failed
        split at failed
        next =>
          cases failed
          decide
        next =>
          split at failed <;> cases failed
          decide
    | optStatMode =>
        simp only at failed
        split at failed
        next =>
          cases failed
          decide
        next =>
          split at failed
          next =>
            cases failed
            decide
          next =>
            split at failed <;> cases failed
            decide
    | optErr =>
        cases failed
        decide

/-- A token of the grammar: `max=` with an integer in range, or `stats=global` from a capable
caller. -/
def MountToken (integer : List UInt8 → Option Int) (capable : Bool) (token : List UInt8) : Prop :=
  (∃ text n, token = maxText ++ text ∧ integer text = some n ∧ 0 ≤ n ∧ n ≤ binderfsMaxMinor) ∨
    capable = true ∧ token = statsText ++ globalText

/-- A token that is accepted, with the outcome of its `kmalloc`. -/
def Accepted (integer : List UInt8 → Option Int) (capable memory : Bool) (token : List UInt8) :
    Prop :=
  token = [] ∨ memory = true ∧ MountToken integer capable token

theorem accepted_iff : Accepted integer capable memory p ↔
    ∃ next, TokenGives integer capable memory opts p next := by
  constructor
  · rintro (rfl | ⟨hasMemory, ⟨text, n, rfl, isInteger, nonneg, within⟩ | ⟨isCapable, rfl⟩⟩)
    · exact ⟨_, .empty⟩
    · exact ⟨_, .max hasMemory isInteger nonneg within⟩
    · exact ⟨_, .stats hasMemory isCapable⟩
  · rintro ⟨next, gives⟩
    cases gives with
    | empty => exact .inl rfl
    | @max text n hasMemory isInteger nonneg within =>
        exact .inr ⟨hasMemory, .inl ⟨text, n, rfl, isInteger, nonneg, within⟩⟩
    | stats hasMemory isCapable => exact .inr ⟨hasMemory, .inr ⟨isCapable, rfl⟩⟩

/-- The token is parsed with no error exactly if it is accepted. -/
theorem parseToken_cases (documented : kernel.Documented integer) (capable memory : Bool)
    (opts : BinderfsMountOpts) (p : List UInt8) :
    (∃ next, parseToken kernel capable memory opts p = .ok next ∧
      TokenGives integer capable memory opts p next ∧ Accepted integer capable memory p) ∨
    ∃ ret, parseToken kernel capable memory opts p = .error ret ∧ ret ≠ 0 ∧
      ¬ Accepted integer capable memory p := by
  cases parsed : parseToken kernel capable memory opts p with
  | ok next =>
      have gives := (parseToken_ok_iff documented).mp parsed
      exact .inl ⟨next, rfl, gives, accepted_iff.mpr ⟨next, gives⟩⟩
  | error ret =>
      refine .inr ⟨ret, rfl, parseToken_error parsed, fun accepted => ?_⟩
      obtain ⟨next, gives⟩ := accepted_iff.mp accepted
      cases parsed.symm.trans ((parseToken_ok_iff documented).mpr gives)

/-! ## Lists of tokens -/

/-- The options that tokens give if they are read from `start` on: the limit of the last `max`
token, and the statistics if a token asks for them. -/
structure Gives (integer : List UInt8 → Option Int) (start : BinderfsMountOpts)
    (ps : List (List UInt8)) (opts : BinderfsMountOpts) : Prop where
  lastMax : ∀ before text after, ps = before ++ (maxText ++ text) :: after →
    (∀ token ∈ after, ¬ maxText <+: token) → integer text = some opts.max
  noMax : (∀ token ∈ ps, ¬ maxText <+: token) → opts.max = start.max
  stats : opts.statsMode = .statsGlobal ↔
    start.statsMode = .statsGlobal ∨ statsText ++ globalText ∈ ps

namespace TokenGives

theorem ofMax (gives : TokenGives integer capable memory opts p next)
    (isMax : p = maxText ++ text) : integer text = some next.max := by
  cases gives with
  | empty => cases List.append_ne_nil_of_left_ne_nil (by decide) _ isMax.symm
  | max hasMemory isInteger => rwa [← List.append_cancel_left isMax]
  | stats => exact absurd isMax.symm (maxText_ne_statsText _ _)

theorem notMax (gives : TokenGives integer capable memory opts p next)
    (notMax : ¬ maxText <+: p) : next.max = opts.max := by
  cases gives with
  | empty => rfl
  | max => exact absurd (List.prefix_append ..) notMax
  | stats => rfl

theorem statsMode (gives : TokenGives integer capable memory opts p next) :
    next.statsMode = .statsGlobal ↔
      opts.statsMode = .statsGlobal ∨ statsText ++ globalText = p := by
  cases gives with
  | empty => exact ⟨.inl, fun either => either.resolve_right (by decide)⟩
  | max =>
      exact ⟨.inl, fun either => either.resolve_right (maxText_ne_statsText _ _).symm⟩
  | stats => exact ⟨fun _ => .inr rfl, fun _ => rfl⟩

end TokenGives

namespace Gives

variable {start : BinderfsMountOpts} {ps : List (List UInt8)}

theorem nil : Gives integer opts [] opts where
  lastMax _ _ _ split :=
    absurd split.symm (List.append_ne_nil_of_right_ne_nil _ (List.cons_ne_nil _ _))
  noMax _ := rfl
  stats := ⟨.inl, fun either => either.resolve_right List.not_mem_nil⟩

theorem cons (gives : TokenGives integer capable memory start p next)
    (rest : Gives integer next ps opts) : Gives integer start (p :: ps) opts where
  lastMax before text after split noneAfter := by
    cases before with
    | nil =>
        obtain ⟨isMax, rfl⟩ := List.cons.inj split
        rw [rest.noMax noneAfter]
        exact gives.ofMax isMax
    | cons first before => exact rest.lastMax before text after (List.cons.inj split).2 noneAfter
  noMax none := by
    rw [rest.noMax fun token isIn => none token (List.mem_cons_of_mem _ isIn)]
    exact gives.notMax (none p (List.mem_cons_self ..))
  stats := by rw [rest.stats, gives.statsMode, List.mem_cons, or_assoc]

end Gives

/-- The last token of a kind. -/
theorem exists_last_max (ps : List (List UInt8)) :
    (∀ token ∈ ps, ¬ maxText <+: token) ∨
      ∃ before text after, ps = before ++ (maxText ++ text) :: after ∧
        ∀ token ∈ after, ¬ maxText <+: token := by
  induction ps with
  | nil => exact .inl fun token isIn => absurd isIn List.not_mem_nil
  | cons p ps ih =>
      obtain none | ⟨before, text, after, rfl, noneAfter⟩ := ih
      · by_cases isMax : maxText <+: p
        · obtain ⟨text, rfl⟩ := isMax
          exact .inr ⟨[], text, ps, rfl, none⟩
        · refine .inl fun token isIn => ?_
          obtain rfl | isLater := List.mem_cons.mp isIn
          · exact isMax
          · exact none token isLater
      · exact .inr ⟨p :: before, text, after, rfl, noneAfter⟩

theorem Gives.unique {start : BinderfsMountOpts} {ps : List (List UInt8)}
    (first : Gives integer start ps opts) (second : Gives integer start ps next) : opts = next := by
  have sameMax : opts.max = next.max := by
    obtain none | ⟨before, text, after, split, noneAfter⟩ := exists_last_max ps
    · rw [first.noMax none, second.noMax none]
    · exact Option.some.inj ((first.lastMax before text after split noneAfter).symm.trans
        (second.lastMax before text after split noneAfter))
  have sameStats := first.stats.trans second.stats.symm
  obtain ⟨max, statsMode⟩ := opts
  obtain ⟨max', statsMode'⟩ := next
  cases sameMax
  cases statsMode <;> cases statsMode' <;> simp_all

/-- All tokens are accepted, each with the outcome of its `kmalloc`. -/
def AllAccepted (integer : List UInt8 → Option Int) (capable : Bool) (memory : Nat → Bool)
    (ps : List (List UInt8)) : Prop :=
  ∀ i p, ps[i]? = some p → Accepted integer capable (memory i) p

section Lists

variable {memory : Nat → Bool} {ps : List (List UInt8)}

theorem allAccepted_cons_iff : AllAccepted integer capable memory (p :: ps) ↔
    Accepted integer capable (memory 0) p ∧
      AllAccepted integer capable (fun i => memory (i + 1)) ps := by
  constructor
  · exact fun all => ⟨all 0 p rfl, fun i token isAt => all (i + 1) token isAt⟩
  · rintro ⟨first, rest⟩ i token isAt
    cases i with
    | zero =>
        cases isAt
        exact first
    | succ i => exact rest i token isAt

/-- There is a first token that is not accepted, unless all are. -/
theorem all_or_rejected : ∀ (memory : Nat → Bool) (ps : List (List UInt8)),
    AllAccepted integer capable memory ps ∨
      ∃ before bad after, ps = before ++ bad :: after ∧
        AllAccepted integer capable memory before ∧
        ¬ Accepted integer capable (memory before.length) bad := by
  intro memory ps
  induction ps generalizing memory with
  | nil => exact .inl nofun
  | cons p ps ih =>
      by_cases accepted : Accepted integer capable (memory 0) p
      · obtain all | ⟨before, bad, after, rfl, allBefore, rejected⟩ := ih fun i => memory (i + 1)
        · exact .inl (allAccepted_cons_iff.mpr ⟨accepted, all⟩)
        · exact .inr ⟨p :: before, bad, after, rfl,
            allAccepted_cons_iff.mpr ⟨accepted, allBefore⟩, rejected⟩
      · exact .inr ⟨[], p, ps, rfl, nofun, accepted⟩

/-- Accepted tokens are parsed one after the other. -/
theorem parseTokens_append (documented : kernel.Documented integer)
    (all : AllAccepted integer capable memory ps) (opts : BinderfsMountOpts)
    (after : List (List UInt8)) :
    ∃ next, Gives integer opts ps next ∧ parseTokens kernel capable memory (ps ++ after) opts =
      parseTokens kernel capable (fun i => memory (i + ps.length)) after next := by
  induction ps generalizing memory opts with
  | nil => exact ⟨opts, .nil, rfl⟩
  | cons p ps ih =>
      obtain ⟨accepted, all⟩ := allAccepted_cons_iff.mp all
      obtain ⟨mid, gives⟩ := accepted_iff.mp accepted
      obtain ⟨next, given, parsed⟩ := ih all mid
      refine ⟨next, .cons gives given, ?_⟩
      rw [List.cons_append, parseTokens, (parseToken_ok_iff documented).mpr gives]
      simp only [parsed, List.length_cons]
      rfl

theorem parseTokens_accepts (documented : kernel.Documented integer)
    (all : AllAccepted integer capable memory ps) :
    ∃ next, Gives integer opts ps next ∧
      parseTokens kernel capable memory ps opts = (0, next) := by
  obtain ⟨next, given, parsed⟩ := parseTokens_append documented all opts []
  rw [List.append_nil] at parsed
  exact ⟨next, given, parsed⟩

theorem parseTokens_rejects (documented : kernel.Documented integer)
    (all : AllAccepted integer capable memory ps)
    (rejected : ¬ Accepted integer capable (memory ps.length) p) (after : List (List UInt8)) :
    ∃ ret next, ret ≠ 0 ∧ Gives integer opts ps next ∧
      parseTokens kernel capable memory (ps ++ p :: after) opts = (ret, next) := by
  obtain ⟨next, given, parsed⟩ := parseTokens_append documented all opts (p :: after)
  obtain ⟨_, _, _, accepted⟩ | ⟨ret, failed, notZero, -⟩ :=
    parseToken_cases documented capable (memory ps.length) next p
  · exact absurd accepted rejected
  · refine ⟨ret, next, notZero, given, ?_⟩
    rw [parsed, parseTokens, Nat.zero_add, failed]

end Lists

end DroidKernal.Binderfs
