import DroidKernal.Binderfs.MountOptions

/-!
# Parsing, showing and remounting

The options that are parsed are those of the grammar, and what is printed for them is parsed
to the same options.  A remount lets the parser set the options of the mount and does not
restore them.
-/

namespace DroidKernal.Binderfs

open Lib

variable {integer : List UInt8 → Option Int} {kernel : KernelParser} {capable : Bool}
  {memory : Nat → Bool} {opts next : BinderfsMountOpts} {data : Option CString}

/-! ## Limits -/

theorem TokenGives.range {memory : Bool} {p : List UInt8}
    (gives : TokenGives integer capable memory opts p next)
    (range : 0 ≤ opts.max ∧ opts.max ≤ binderfsMaxMinor) :
    0 ≤ next.max ∧ next.max ≤ binderfsMaxMinor := by
  cases gives with
  | empty => exact range
  | max hasMemory isInteger nonneg within => exact ⟨nonneg, within⟩
  | stats => exact range

theorem parseTokens_range (documented : kernel.Documented integer) (memory : Nat → Bool)
    (ps : List (List UInt8)) (range : 0 ≤ opts.max ∧ opts.max ≤ binderfsMaxMinor) :
    0 ≤ (parseTokens kernel capable memory ps opts).2.max ∧
      (parseTokens kernel capable memory ps opts).2.max ≤ binderfsMaxMinor := by
  induction ps generalizing memory opts with
  | nil => exact range
  | cons p ps ih =>
      rw [parseTokens]
      obtain ⟨next, parsed, gives, -⟩ | ⟨ret, failed, -⟩ :=
        parseToken_cases documented capable (memory 0) opts p
      · rw [parsed]
        exact ih _ (gives.range range)
      · rw [failed]
        exact range

/-- Every limit that is left is in the range, also after an error. -/
theorem binderfsParseMountOpts_range (documented : kernel.Documented integer) :
    0 ≤ (binderfsParseMountOpts kernel capable memory data).2.max ∧
      (binderfsParseMountOpts kernel capable memory data).2.max ≤ binderfsMaxMinor :=
  parseTokens_range documented _ _ ⟨by decide, by decide⟩

/-! ## Printed options -/

theorem noComma_of_digits {n : Nat} : 0x2C ∉ maxText ++ decimal n := by
  intro isIn
  obtain isText | isDigit := List.mem_append.mp isIn
  · exact absurd isText (by decide)
  · exact absurd (isDigitByte_of_mem_decimal isDigit) (by decide)

theorem noNul_of_digits {n : Nat} : 0 ∉ maxText ++ decimal n := by
  intro isIn
  obtain isText | isDigit := List.mem_append.mp isIn
  · exact absurd isText (by decide)
  · exact absurd (isDigitByte_of_mem_decimal isDigit) (by decide)

/-- The tokens that are printed. -/
def shownTokens (opts : BinderfsMountOpts) : List (List UInt8) :=
  [] :: (maxText ++ decimal opts.max.toNat) ::
    if opts.statsMode = .statsGlobal then [statsText ++ globalText] else []

theorem binderfsShowMountOpts_eq (range : 0 ≤ opts.max ∧ opts.max ≤ binderfsMaxMinor) :
    binderfsShowMountOpts opts = 0x2C :: (maxText ++ decimal opts.max.toNat) ++
      (if opts.statsMode = .statsGlobal then 0x2C :: (statsText ++ globalText) else []) := by
  have limit : (binderfsMaxMinor : Int) = 1048576 := rfl
  have isAbs : opts.max.natAbs = opts.max.toNat := by omega
  rw [binderfsShowMountOpts, toUint32_eq range.1 (by omega), if_pos range.2, formatInt,
    if_neg (Int.not_lt.mpr range.1), isAbs]
  rfl

/-- The printed text is a C string with these tokens. -/
theorem shown_tokens (range : 0 ≤ opts.max ∧ opts.max ≤ binderfsMaxMinor) :
    ∃ shown : CString, shown.bytes = binderfsShowMountOpts opts ∧
      strsepTokens (some shown) = shownTokens opts := by
  have isShown := binderfsShowMountOpts_eq range
  have noNul : 0 ∉ binderfsShowMountOpts opts := by
    rw [isShown]
    intro isIn
    obtain isMax | isStats := List.mem_append.mp isIn
    · obtain isComma | isMax := List.mem_cons.mp isMax
      · cases isComma
      · exact noNul_of_digits isMax
    · split at isStats
      · exact absurd isStats (by decide)
      · cases isStats
  have split : (binderfsShowMountOpts opts).splitOn 0x2C = shownTokens opts := by
    rw [isShown, shownTokens, ← List.nil_append (0x2C :: _), List.append_assoc,
      List.cons_append, List.splitOn_append_cons_self_of_not_mem List.not_mem_nil]
    split
    · rw [List.splitOn_append_cons_self_of_not_mem noComma_of_digits]
      rfl
    · rw [List.append_nil, List.splitOn_eq_singleton noComma_of_digits]
  exact ⟨⟨_, noNul⟩, rfl, split⟩

/-- What was printed is parsed back. -/
theorem parse_shown (documented : kernel.Documented integer)
    (range : 0 ≤ opts.max ∧ opts.max ≤ binderfsMaxMinor) :
    ∃ shown : CString, shown.bytes = binderfsShowMountOpts opts ∧
      binderfsParseMountOpts kernel true (fun _ => true) (some shown) = (0, opts) := by
  obtain ⟨shown, isShown, isTokens⟩ := shown_tokens range
  refine ⟨shown, isShown, ?_⟩
  have limit : (binderfsMaxMinor : Int) = 1048576 := rfl
  have isNat : (opts.max.toNat : Int) = opts.max := Int.toNat_of_nonneg range.1
  have isInteger := documented.printed opts.max.toNat (by omega)
  rw [isNat] at isInteger
  have first : ∀ start, parseToken kernel true true start [] = .ok start := fun _ => rfl
  have second : ∀ start, parseToken kernel true true start (maxText ++ decimal opts.max.toNat) =
      .ok { start with max := opts.max } := fun start =>
    (parseToken_ok_iff documented).mpr (.max rfl isInteger range.1 range.2)
  have third : ∀ start, parseToken kernel true true start (statsText ++ globalText) =
      .ok { start with statsMode := .statsGlobal } := fun start =>
    (parseToken_ok_iff documented).mpr (.stats rfl rfl)
  rw [binderfsParseMountOpts, isTokens, shownTokens, parseTokens, first]
  simp only
  rw [parseTokens, second]
  simp only
  obtain ⟨max, statsMode⟩ := opts
  cases statsMode with
  | statsGlobal =>
      rw [if_pos rfl, parseTokens, third]
      rfl
  | statsNone =>
      rw [if_neg fun isGlobal => StatsMode.noConfusion isGlobal]
      rfl

/-! ## The grammar -/

theorem allAccepted_iff {ps : List (List UInt8)} :
    AllAccepted integer capable (fun _ => true) ps ↔
      ∀ token ∈ ps, token ≠ [] → MountToken integer capable token := by
  constructor
  · intro all token isIn someText
    obtain ⟨i, isAt⟩ := List.mem_iff_getElem?.mp isIn
    exact ((all i token isAt).resolve_left someText).2
  · intro each i token isAt
    by_cases none : token = []
    · exact .inl none
    · exact .inr ⟨rfl, each token (List.mem_of_getElem? isAt) none⟩

theorem not_allAccepted {before after : List (List UInt8)} {bad : List UInt8}
    (rejected : ¬ Accepted integer capable (memory before.length) bad) :
    ¬ AllAccepted integer capable memory (before ++ bad :: after) := by
  intro all
  apply rejected
  apply all
  rw [List.getElem?_append_right (Nat.le_refl _), Nat.sub_self]
  rfl

/-- Either all tokens are accepted, or those before the first one that is not set the options. -/
theorem binderfsParseMountOpts_cases (documented : kernel.Documented integer) (capable : Bool)
    (memory : Nat → Bool) (data : Option CString) :
    (AllAccepted integer capable memory (strsepTokens data) ∧
      ∃ next, Gives integer defaultOpts (strsepTokens data) next ∧
        binderfsParseMountOpts kernel capable memory data = (0, next)) ∨
    (¬ AllAccepted integer capable memory (strsepTokens data) ∧
      ∃ before bad after, strsepTokens data = before ++ bad :: after ∧
        AllAccepted integer capable memory before ∧
        ¬ Accepted integer capable (memory before.length) bad ∧
        ∃ ret next, ret ≠ 0 ∧ Gives integer defaultOpts before next ∧
          binderfsParseMountOpts kernel capable memory data = (ret, next)) := by
  rw [binderfsParseMountOpts]
  obtain all | ⟨before, bad, after, split, allBefore, rejected⟩ :=
    @all_or_rejected integer capable memory (strsepTokens data)
  · exact .inl ⟨all, parseTokens_accepts documented all⟩
  · rw [split]
    exact .inr ⟨not_allAccepted rejected, before, bad, after, rfl, allBefore, rejected,
      parseTokens_rejects documented allBefore rejected after⟩

/-- All is parsed exactly if every token that is not empty is one of the grammar.  Then the
options are those that the tokens give, and whatever the options are, printing and parsing them
changes nothing. -/
theorem mount_opts_by_grammar (documented : kernel.Documented integer) (capable : Bool)
    (data : Option CString) :
    let parsed := binderfsParseMountOpts kernel capable (fun _ => true) data
    (parsed.1 = 0 ↔
      ∀ token ∈ strsepTokens data, token ≠ [] → MountToken integer capable token) ∧
    (parsed.1 = 0 → Gives integer defaultOpts (strsepTokens data) parsed.2) ∧
    ∃ shown : CString, shown.bytes = binderfsShowMountOpts parsed.2 ∧
      binderfsParseMountOpts kernel true (fun _ => true) (some shown) = (0, parsed.2) := by
  intro parsed
  have inRange : 0 ≤ parsed.2.max ∧ parsed.2.max ≤ binderfsMaxMinor :=
    binderfsParseMountOpts_range documented
  have back := parse_shown documented inRange
  obtain ⟨all, next, given, isParsed⟩ | ⟨notAll, before, bad, after, -, -, -, ret, next, notZero, -,
    isParsed⟩ := binderfsParseMountOpts_cases documented capable (fun _ => true) data
  · have isNext : parsed = (0, next) := isParsed
    rw [isNext] at back ⊢
    exact ⟨⟨fun _ => allAccepted_iff.mp all, fun _ => rfl⟩, fun _ => given, back⟩
  · have isNext : parsed = (ret, next) := isParsed
    rw [isNext] at back ⊢
    exact ⟨⟨fun none => absurd none notZero,
      fun each => absurd (allAccepted_iff.mpr each) notAll⟩, fun none => absurd none notZero, back⟩

/-! ## A parser of decimal numbers -/

/-- The texts of decimal digits. -/
def decimalInteger (text : List UInt8) : Option Int := (readDecimal text).map Int.ofNat

/-- The argument of a pattern in a token. -/
def matchPattern (pattern : OptPattern) (p : List UInt8) : Option (List UInt8) :=
  (pattern.text.isPrefixOf? p).filter fun arg =>
    match pattern.argument with
    | .d => (decimalInteger arg).isSome
    | .s => arg ≠ []

def matchFirst (p : List UInt8) : MatchTable → OptToken × List UInt8
  | [] => (.optErr, [])
  | (token, none) :: _ => (token, [])
  | (token, some pattern) :: table =>
      match matchPattern pattern p with
      | some arg => (token, arg)
      | none => matchFirst p table

/-- A parser that reads decimal digits only. -/
def decimalParser : KernelParser where
  matchToken := matchFirst
  matchInt memory arg := if memory then (decimalInteger arg).filter (· < 2 ^ 31) else none
  matchStrdup memory arg := if memory then some arg else none

theorem matchPattern_iff {pattern : OptPattern} {p arg : List UInt8} :
    matchPattern pattern p = some arg ↔ pattern.Matches decimalInteger p arg := by
  rw [matchPattern, Option.filter_eq_some_iff, List.isPrefixOf?_eq_some_iff_append_eq,
    OptPattern.Matches, eq_comm]
  apply and_congr_right
  intro _
  cases pattern.argument with
  | d => exact Option.isSome_iff_exists
  | s => exact decide_eq_true_iff

theorem matchFirst_firstMatch (p : List UInt8) {table : MatchTable}
    (ends : ∃ entry ∈ table, entry.2 = none) :
    FirstMatch decimalInteger p table (matchFirst p table).1 (matchFirst p table).2 := by
  induction table with
  | nil =>
      obtain ⟨entry, isIn, -⟩ := ends
      cases isIn
  | cons entry table ih =>
      obtain ⟨token, pattern⟩ := entry
      cases pattern with
      | none => exact .last
      | some pattern =>
          rw [matchFirst]
          cases found : matchPattern pattern p with
          | some arg => exact .here (matchPattern_iff.mp found)
          | none =>
              refine .later (fun arg here => ?_) (ih ?_)
              · cases found.symm.trans (matchPattern_iff.mpr here)
              · obtain ⟨entry, isIn, isLast⟩ := ends
                obtain rfl | isLater := List.mem_cons.mp isIn
                · cases isLast
                · exact ⟨entry, isLater, isLast⟩

theorem decimalParser_documented : decimalParser.Documented decimalInteger where
  matchToken p _ ends := matchFirst_firstMatch p ends
  matchInt arg n := by
    simp only [decimalParser, if_true, Option.filter_eq_some_iff, decide_eq_true_eq,
      and_congr_right_iff]
    intro isInteger
    obtain ⟨m, -, rfl⟩ := Option.map_eq_some_iff.mp isInteger
    have nonneg : 0 ≤ Int.ofNat m := Int.natCast_nonneg m
    omega
  matchInt_fails _ := rfl
  matchStrdup _ := rfl
  matchStrdup_fails _ := rfl
  printed n _ := by
    rw [decimalInteger, readDecimal_decimal]
    rfl

/-- Two tokens with an empty one between them. -/
def limitAndStats : CString := ⟨ascii "max=4,,stats=global", by decide⟩

theorem mount_opts_by_grammar_both :
    let parsed := binderfsParseMountOpts decimalParser true (fun _ => true) (some limitAndStats)
    parsed.1 = 0 ∧
      Gives decimalInteger defaultOpts [maxText ++ ascii "4", [], statsText ++ globalText]
        parsed.2 ∧
      ∃ shown : CString, shown.bytes = binderfsShowMountOpts parsed.2 ∧
        binderfsParseMountOpts decimalParser true (fun _ => true) (some shown) =
          (0, parsed.2) := by
  intro parsed
  have isTokens : strsepTokens (some limitAndStats) =
      [maxText ++ ascii "4", [], statsText ++ globalText] := by decide
  obtain ⟨byGrammar, gives, shows⟩ :=
    mount_opts_by_grammar decimalParser_documented true (some limitAndStats)
  rw [isTokens] at byGrammar gives
  have accepted : parsed.1 = 0 := by
    apply byGrammar.mpr
    intro token isIn someText
    simp only [List.mem_cons, List.not_mem_nil, or_false] at isIn
    obtain rfl | rfl | rfl := isIn
    · exact .inl ⟨_, 4, rfl, by decide, by decide, by decide⟩
    · exact absurd rfl someText
    · exact .inr ⟨rfl, rfl⟩
  exact ⟨accepted, gives accepted, shows⟩

/-! ## Remounts -/

theorem binderfsRemount_error {ret : Int} (notZero : ret ≠ 0)
    (parsed : binderfsParseMountOpts kernel capable memory data = (ret, next)) :
    binderfsRemount kernel capable memory data opts = (ret, next) := by
  rw [binderfsRemount, parsed]
  exact if_pos notZero

theorem binderfsRemount_parsed
    (parsed : binderfsParseMountOpts kernel capable memory data = (0, next)) :
    binderfsRemount kernel capable memory data opts =
      if opts.statsMode ≠ next.statsMode then
        (-EINVAL, { next with statsMode := opts.statsMode })
      else (0, next) := by
  rw [binderfsRemount, parsed]
  exact if_neg (not_not.mpr rfl)

/-- A remount that fails keeps the options exactly if the tokens before the first rejected one
give the options again, and if tokens that would change the statistics do not change the
limit. -/
theorem rejected_remount_keeps_iff (documented : kernel.Documented integer) (capable : Bool)
    (memory : Nat → Bool) (data : Option CString) (mountOpts : BinderfsMountOpts) :
    ((binderfsRemount kernel capable memory data mountOpts).1 ≠ 0 →
        (binderfsRemount kernel capable memory data mountOpts).2 = mountOpts) ↔
      (∀ before bad after, strsepTokens data = before ++ bad :: after →
        AllAccepted integer capable memory before →
        ¬ Accepted integer capable (memory before.length) bad →
          Gives integer defaultOpts before mountOpts) ∧
      (AllAccepted integer capable memory (strsepTokens data) →
        ∀ given, Gives integer defaultOpts (strsepTokens data) given →
          given.statsMode ≠ mountOpts.statsMode → given.max = mountOpts.max) := by
  obtain ⟨all, next, given, parsed⟩ | ⟨notAll, before, bad, after, split, allBefore, rejected, ret,
    next, notZero, given, parsed⟩ := binderfsParseMountOpts_cases documented capable memory data
  · rw [binderfsRemount_parsed parsed]
    have never : ∀ before bad after, strsepTokens data = before ++ bad :: after →
        AllAccepted integer capable memory before →
        ¬ Accepted integer capable (memory before.length) bad →
          Gives integer defaultOpts before mountOpts := by
      intro before bad after split _ rejected
      rw [split] at all
      exact absurd all (not_allAccepted rejected)
    split
    next differ =>
      constructor
      · intro keeps
        refine ⟨never, fun _ given' isGiven _ => ?_⟩
        rw [isGiven.unique given]
        have refused : (-EINVAL : Int) ≠ 0 := by decide
        have kept : { next with statsMode := mountOpts.statsMode } = mountOpts := keeps refused
        have sameMax := congrArg BinderfsMountOpts.max kept
        exact sameMax
      · rintro ⟨-, sameMax⟩ -
        obtain ⟨max, statsMode⟩ := mountOpts
        have isMax := sameMax all next given (Ne.symm differ)
        rw [isMax]
    next same =>
      refine ⟨fun _ => ⟨never, fun _ given' isGiven differ => ?_⟩,
        fun _ failed => absurd rfl failed⟩
      rw [isGiven.unique given] at differ
      exact absurd (Eq.symm (not_not.mp same)) differ
  · rw [binderfsRemount_error notZero parsed]
    constructor
    · intro keeps
      have isSame : next = mountOpts := keeps notZero
      subst isSame
      refine ⟨fun before' bad' after' split' allBefore' rejected' => ?_,
        fun all => absurd all notAll⟩
      obtain ⟨ret', next', -, given', parsed'⟩ :=
        parseTokens_rejects documented allBefore' rejected' after'
      rw [binderfsParseMountOpts, split'] at parsed
      cases parsed'.symm.trans parsed
      exact given'
    · rintro ⟨same, -⟩ -
      exact given.unique (same before bad after split allBefore rejected)

/-- A token that no caller may use. -/
def misspelt : CString := ⟨ascii "limit=8", by decide⟩

theorem misspelt_rejected : ¬ Accepted decimalInteger true true (ascii "limit=8") := by
  rintro (none | ⟨-, ⟨text, n, isMax, -⟩ | ⟨-, isStats⟩⟩)
  · cases none
  · cases congrArg List.head? isMax
  · cases isStats

/-- The options of a mount without options. -/
theorem rejected_remount_keeps_defaults :
    (binderfsRemount decimalParser true (fun _ => true) (some misspelt) defaultOpts).2 =
      defaultOpts := by
  refine (rejected_remount_keeps_iff decimalParser_documented true (fun _ => true) (some misspelt)
    defaultOpts).mpr ⟨?_, ?_⟩ (by decide)
  · intro before bad after split _ _
    have single : [ascii "limit=8"] = before ++ bad :: after := split
    obtain rfl : before = [] := by
      cases before with
      | nil => rfl
      | cons first before =>
          have length := congrArg List.length single
          simp at length
    exact .nil
  · intro all
    exact absurd (all 0 (ascii "limit=8") rfl) misspelt_rejected

/-- A limit of eight devices is lost. -/
theorem limit_lost :
    ¬ ∀ (integer : List UInt8 → Option Int) (kernel : KernelParser) (capable : Bool)
      (memory : Nat → Bool) (data : Option CString) (mountOpts : BinderfsMountOpts),
      kernel.Documented integer →
      (binderfsRemount kernel capable memory data mountOpts).1 ≠ 0 →
        (binderfsRemount kernel capable memory data mountOpts).2 = mountOpts := by
  intro every
  have kept := every decimalInteger decimalParser true (fun _ => true) (some misspelt)
    { max := 8, statsMode := .statsNone } decimalParser_documented (by decide)
  exact absurd kept (by decide)

end DroidKernal.Binderfs
