import OsModel.Net.Packages
import Mathlib.Data.Nat.Digits.Defs

/-!
Bytes as a text for the log (`bytes_to_safe_string` in `utils/src/utils/net_utils.c`).

`bytesToSafeString_isSome_iff` says for which bytes the text stays inside the buffer that is
allocated for it: the size of the buffer is computed in 32 bits, and the position in the text of
escapes is an `int`.
-/

namespace OsModel.Net

open Lib

/-- `bytes[i] >= 32 && bytes[i] <= 126`. -/
def printable (byte : UInt8) : Bool := 32 ≤ byte.toNat && byte.toNat ≤ 126

/-- A digit of `%02X`. -/
def hexDigit (n : Nat) : UInt8 :=
  UInt8.ofNat (if n < 10 then '0'.toNat + n else 'A'.toNat + (n - 10))

/-- A byte of the fallback: itself, or `\xNN`. -/
def escape (byte : UInt8) : List UInt8 :=
  if printable byte then [byte]
  else
    [UInt8.ofNat '\\'.toNat, UInt8.ofNat 'x'.toNat, hexDigit (byte.toNat / 16),
      hexDigit (byte.toNat % 16)]

/-- `%u`. -/
def decimal (value : Nat) : List UInt8 := (Nat.toDigits 10 value).map fun c => UInt8.ofNat c.toNat

/-- A text and its end, in a buffer of `allocated` bytes; `none` when it is written behind it. -/
def written (allocated : UInt32) (text : List UInt8) : Option (List UInt8) :=
  if text.length + 1 ≤ allocated.toNat then some text else none

/-- `bytes_to_safe_string`. The sizes of its buffers are computed in 32 bits, and the position
in the text of the fallback is an `int`. -/
def bytesToSafeString (bytes : List UInt8) : Option (List UInt8) :=
  let size := UInt32.ofNat bytes.length
  if bytes.all printable then written (size + 1) bytes
  else if size = 1 then written 4 (decimal (ofBytes bytes))
  else if size = 4 then written 11 (decimal (ofBytes bytes))
  else
    let text := bytes.flatMap escape
    if text.length < 2 ^ 31 then written (size * 4 + 1) text else none

/-- The bytes that are written as `\xNN`. -/
def escapes (bytes : List UInt8) : Nat := bytes.countP fun byte => !printable byte

/-- The lengths for which the text is inside its buffer. -/
def Loggable (bytes : List UInt8) : Prop :=
  if escapes bytes = 0 then bytes.length + 1 < 2 ^ 32
  else
    bytes.length = 1 ∨ bytes.length = 4 ∨
      bytes.length + 3 * escapes bytes < 2 ^ 31 ∧
        bytes.length + 3 * escapes bytes < (4 * bytes.length + 1) % 2 ^ 32

instance (bytes : List UInt8) : Decidable (Loggable bytes) := by
  unfold Loggable
  infer_instance

theorem length_flatMap_escape (bytes : List UInt8) :
    (bytes.flatMap escape).length = bytes.length + 3 * escapes bytes := by
  induction bytes with
  | nil => rfl
  | cons byte rest ih =>
      rw [List.flatMap_cons, List.length_append, ih, escapes, escapes, List.countP_cons, escape,
        List.length_cons]
      cases printable byte with
      | true =>
          simp
          omega
      | false =>
          simp
          omega

theorem all_printable_iff (bytes : List UInt8) :
    bytes.all printable = true ↔ escapes bytes = 0 := by
  simp [escapes, List.countP_eq_zero]

theorem ofBytes_lt (bytes : List UInt8) : ofBytes bytes < 256 ^ bytes.length := by
  induction bytes with
  | nil => decide
  | cons byte rest ih =>
      have low := byte.toNat_lt
      rw [ofBytes, List.length_cons, pow_succ]
      omega

/-- A number of a known width fits the buffer for its digits. -/
theorem written_decimal {allocated : UInt32} {bytes : List UInt8} (digits : Nat)
    (positive : 0 < digits) (wide : 256 ^ bytes.length ≤ 10 ^ digits)
    (room : digits + 1 ≤ allocated.toNat) :
    (written allocated (decimal (ofBytes bytes))).isSome := by
  have short := Nat.toDigits_length 10 (ofBytes bytes) digits positive
    ((ofBytes_lt bytes).trans_le wide)
  rw [written, if_pos]
  · rfl
  · rw [decimal, List.length_map]
    omega

/-- **For which bytes `bytes_to_safe_string` stays inside its buffer.** -/
theorem bytesToSafeString_isSome_iff {bytes : List UInt8} (small : bytes.length < 2 ^ 32) :
    (bytesToSafeString bytes).isSome ↔ Loggable bytes := by
  have size : (UInt32.ofNat bytes.length).toNat = bytes.length :=
    UInt32.toNat_ofNat_of_lt' small
  have isSome_written : ∀ (allocated : UInt32) (text : List UInt8),
      (written allocated text).isSome ↔ text.length + 1 ≤ allocated.toNat := by
    intro allocated text
    unfold written
    split <;> simp_all
  unfold bytesToSafeString Loggable
  by_cases plain : escapes bytes = 0
  · rw [if_pos ((all_printable_iff bytes).mpr plain), if_pos plain, isSome_written,
      UInt32.toNat_add, size, UInt32.toNat_one]
    omega
  · have binary : ¬ bytes.all printable = true := (all_printable_iff bytes).not.mpr plain
    have width : ∀ n < 2 ^ 32, UInt32.ofNat bytes.length = UInt32.ofNat n ↔ bytes.length = n := by
      intro n fits
      rw [← UInt32.toNat_inj, size, UInt32.toNat_ofNat_of_lt' fits]
    have one : UInt32.ofNat bytes.length = 1 ↔ bytes.length = 1 := width 1 (by decide)
    have four : UInt32.ofNat bytes.length = 4 ↔ bytes.length = 4 := width 4 (by decide)
    rw [if_neg binary, if_neg plain]
    by_cases single : bytes.length = 1
    · rw [if_pos (one.mpr single)]
      refine iff_of_true (written_decimal 3 ?_ ?_ ?_) (.inl single)
      · decide
      · rw [single]
        decide
      · decide
    · rw [if_neg (one.not.mpr single)]
      by_cases word : bytes.length = 4
      · rw [if_pos (four.mpr word)]
        refine iff_of_true (written_decimal 10 ?_ ?_ ?_) (.inr (.inl word))
        · decide
        · rw [word]
          decide
        · decide
      · rw [if_neg (four.not.mpr word)]
        dsimp only
        rw [length_flatMap_escape]
        have allocated : (UInt32.ofNat bytes.length * 4 + 1).toNat =
            (4 * bytes.length + 1) % 2 ^ 32 := by
          rw [UInt32.toNat_add, UInt32.toNat_mul, size, UInt32.toNat_one]
          have four : (4 : UInt32).toNat = 4 := rfl
          rw [four]
          omega
        split
        · rename_i short
          rw [isSome_written, length_flatMap_escape, allocated]
          simp only [single, word, false_or, short, true_and]
          omega
        · rename_i long
          simp only [single, word, false_or, Option.isSome_none, Bool.false_eq_true, false_iff,
            not_and]
          exact fun short => absurd short long

/-- A short text is inside its buffer, whatever the bytes are. -/
theorem exists_bytesToSafeString {bytes : List UInt8} (short : 4 * bytes.length < 2 ^ 31) :
    ∃ text, bytesToSafeString bytes = some text := by
  apply Option.isSome_iff_exists.mp
  rw [bytesToSafeString_isSome_iff (by omega), Loggable]
  have most : escapes bytes ≤ bytes.length := List.countP_le_length
  split
  · omega
  · right
    right
    rw [Nat.mod_eq_of_lt (by omega)]
    omega

end OsModel.Net
