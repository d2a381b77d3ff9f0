import OsModel.Lib.Bytes
import Mathlib.Data.List.TakeWhile

/-!
Texts in memory: bytes up to the first zero.

`textAt memory` is the text that starts where a memory starts. A text that was put there
with its end is found again (`textAt_withEnd`); a block without a zero runs on into what
lies behind it (`textAt_append`).
-/

namespace OsModel.Lib

/-- The bytes in front of the first zero, all of them when there is none. -/
def upToZero (bytes : List UInt8) : List UInt8 := bytes.takeWhile fun byte => byte != 0

/-- The text at the front of a memory; `none` when it has no end there. -/
def textAt (memory : List UInt8) : Option (List UInt8) :=
  if 0 ∈ memory then some (upToZero memory) else none

section Text

variable {bytes text memory rest : List UInt8}

theorem zero_not_mem_upToZero (bytes : List UInt8) : 0 ∉ upToZero bytes := by
  intro mem
  simpa using List.mem_takeWhile_imp mem

theorem upToZero_of_not_mem (endless : 0 ∉ text) : upToZero text = text := by
  unfold upToZero
  rw [List.takeWhile_eq_self_iff]
  intro byte mem
  rw [bne_iff_ne]
  rintro rfl
  exact endless mem

@[simp]
theorem upToZero_eq_nil_iff : upToZero bytes = [] ↔ bytes = [] ∨ bytes.head? = some 0 := by
  cases bytes with
  | nil => simp [upToZero]
  | cons byte rest => simp [upToZero, List.takeWhile_cons]

/-- The first zero of two parts is in the first one that has any. -/
theorem upToZero_append :
    upToZero (bytes ++ rest) = if 0 ∈ bytes then upToZero bytes else bytes ++ upToZero rest := by
  induction bytes with
  | nil => simp [upToZero]
  | cons byte bytes ih =>
      unfold upToZero at ih ⊢
      by_cases zero : byte = 0
      · simp [zero]
      · have other : (0 : UInt8) ≠ byte := fun eq => zero eq.symm
        rw [List.cons_append, List.takeWhile_cons_of_pos (by simpa using zero), ih]
        simp only [List.mem_cons, other, false_or]
        split
        · rw [List.takeWhile_cons_of_pos (by simpa using zero)]
        · rfl

/-- A block with a zero is a text of its own; another one runs on behind its end. -/
theorem textAt_append :
    textAt (bytes ++ rest) =
      if 0 ∈ bytes then some (upToZero bytes) else (textAt rest).map (bytes ++ ·) := by
  unfold textAt
  rw [upToZero_append]
  by_cases ends : 0 ∈ bytes
  · simp [ends]
  · by_cases later : 0 ∈ rest
    · simp [ends, later]
    · simp [ends, later]

/-- A text is found again in front of its end. -/
theorem textAt_withEnd (endless : 0 ∉ text) : textAt (text ++ [0]) = some text := by
  rw [textAt_append, if_neg endless]
  simp [textAt, upToZero]

/-- What is cut off in front of its end is no text. -/
theorem textAt_take_of_le (endless : 0 ∉ text) {n : Nat} (short : n ≤ text.length) :
    textAt ((text ++ [0]).take n) = none := by
  rw [List.take_append_of_le_length short]
  unfold textAt
  rw [if_neg]
  intro mem
  exact endless (List.mem_of_mem_take mem)

end Text

end OsModel.Lib
