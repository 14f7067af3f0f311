import Mathlib.Data.List.Basic

/-!
# NUL-terminated strings

A C string is a byte list without a zero byte; in memory it is followed by one.
Scanning memory for the terminator recovers it, whatever bytes come after.
-/

namespace Lib

/-- The bytes of a C string, its terminator left out. -/
structure CString where
  bytes : List UInt8
  noNul : 0 ∉ bytes

namespace CString

/-- `strlen`. -/
def strlen (string : CString) : Nat := string.bytes.length

/-- The string as it lies in memory. -/
def terminated (string : CString) : List UInt8 := string.bytes ++ [0]

@[simp] theorem terminated_length (string : CString) :
    string.terminated.length = string.strlen + 1 := by
  simp [terminated, strlen]

/-- Read a string from the front of a piece of memory.  There is no result if
the scan leaves the memory without meeting a terminator. -/
def scan : List UInt8 → Option (List UInt8)
  | [] => none
  | byte :: rest => if byte = 0 then some [] else (scan rest).map (byte :: ·)

theorem scan_append {bytes : List UInt8} (noNul : 0 ∉ bytes) (rest : List UInt8) :
    scan (bytes ++ 0 :: rest) = some bytes := by
  induction bytes with
  | nil => rfl
  | cons byte bytes ih =>
      have notZero : byte ≠ 0 := by
        rintro rfl
        simp at noNul
      have tailNoNul : 0 ∉ bytes := by
        intro member
        simp [member] at noNul
      simp [scan, notZero, ih tailNoNul]

/-- The scan ends at the first zero byte. -/
theorem eq_of_scan {cells bytes : List UInt8} (scanned : scan cells = some bytes) :
    ∃ rest, cells = bytes ++ 0 :: rest := by
  induction cells generalizing bytes with
  | nil => cases scanned
  | cons byte cells ih =>
      rw [scan] at scanned
      split at scanned
      next zero =>
        cases scanned
        exact ⟨cells, by rw [zero, List.nil_append]⟩
      next notZero =>
        obtain ⟨tail, scannedTail, rfl⟩ := Option.map_eq_some_iff.mp scanned
        obtain ⟨rest, split⟩ := ih scannedTail
        exact ⟨rest, by rw [split, List.cons_append]⟩

/-- A string in memory is read back. -/
@[simp] theorem scan_terminated (string : CString) (rest : List UInt8) :
    scan (string.terminated ++ rest) = some string.bytes := by
  rw [terminated, List.append_assoc]
  exact scan_append string.noNul rest

end CString

end Lib
