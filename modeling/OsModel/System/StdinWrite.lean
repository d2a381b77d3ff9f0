import OsModel.KernelMemory.Operations
import OsModel.System.StickAccesses

/-!
A `STDIN` on its way from the typed line to the sticks.

The IO module cuts the line to the size that was asked for (`io_stdin` in `io/src/main.c`) and
sends it as a text; the scheduler sends it on to Kernel Memory (`send_memory_write`), which
fills it up with zeros and writes it, in a package for each stick that it meets.

* `stdinWrite_eq`: what comes of the line at the sticks.
* `stdin_writes_iff`: the range has the line in it, cut or filled up, exactly when one `send`
  takes each package on the way, and the bytes have a text for the logs of the sticks.
* `long_line_lost`: a line just below two gibibytes, of which nothing is written.
-/

namespace OsModel.StdinWrite

open Lib Net StickAccesses
open KernelMemory hiding ioMemoryWrite memoryRead memoryWrite

/-! ### The path of the line -/

/-- `string_append` of the commons library. -/
def stringAppend (original string : List UInt8) : List UInt8 := original ++ string

/-- `string_n_append` of the commons library. -/
def stringNAppend (original string : List UInt8) (n : Nat) : List UInt8 :=
  original ++ string.take n

/-- `missing_characters`: the difference of two unsigned lengths, as an `int`. -/
def missingCharacters (size : UInt32) (read : List UInt8) : Int32 :=
  Int32.ofInt (size.toNat - read.length)

/-- `io_stdin`, with the line that `readline` has read. What is appended for each missing
character is a text of no characters. -/
def ioStdin (size : UInt32) (read : List UInt8) : List UInt8 :=
  if 0 < missingCharacters size read then
    (fun input => stringAppend input [])^[(missingCharacters size read).toInt.toNat]
      (stringAppend [] read)
  else if missingCharacters size read < 0 then stringNAppend [] read size.toNat
  else stringAppend [] read

/-- The handler of `IO_MEMORY_WRITE`, with its packages to the sticks. -/
def ioMemoryWrite (s : State) (physicalAddress sizeToWrite : UInt32) (rawData : List UInt8) :
    Option (Bool × State) := do
  let (couldWrite, sticks) ← memoryWrite s.devices.listMemoryStick physicalAddress
    (paddedData sizeToWrite rawData) sizeToWrite
  pure (couldWrite, { s with devices := { s.devices with listMemoryStick := sticks } })

/-- A `STDIN` from the line to Kernel Memory after its `memory_write`; `none` when a program
on the way dies of it, or waits for what one `send` has not taken. -/
def stdinWrite (s : State) (pid physicalAddress size : UInt32) (line : List UInt8) :
    Option State := do
  let sent ← ioStringProcessSend .stdin pid (ioStdin size line) .stdin
  let ((pid, value, _), _) ← ioStringProcessReceive sent
  let request ← sendMemoryWrite pid physicalAddress size value
  let ((_, physicalAddress, sizeToWrite, rawData), _) ← ioMemoryWriteReceive request
  let (_, s) ← ioMemoryWrite s physicalAddress sizeToWrite rawData
  pure s

/-- The bytes of the range are those of the line, up to its end or the end of the range, and
zeros behind it. Nothing else has changed. -/
def Writes (s : State) (pid physicalAddress size : UInt32) (line : List UInt8) : Prop :=
  ∃ s', stdinWrite s pid physicalAddress size line = some s' ∧
    slice (flat s'.devices.listMemoryStick) physicalAddress.toNat size.toNat =
      line.take size.toNat ++ List.replicate (size.toNat - line.length) 0 ∧
    SameOutside physicalAddress.toNat size.toNat (flat s.devices.listMemoryStick)
      (flat s'.devices.listMemoryStick) ∧
    s'.devices.swapFile = s.devices.swapFile ∧ s' = { s with devices := s'.devices }

/-- The condition on the lengths, and on the bytes of each chunk. -/
structure Carried (s : State) (physicalAddress size : UInt32) (line : List UInt8) : Prop where
  cut : line.length ≤ size.toNat ∨ missingCharacters size line < 0
  short : min size.toNat line.length + 37 ≤ maxTransfer
  chunks : ∀ request ∈ accessRequests s.devices.listMemoryStick physicalAddress size,
    Writable (paddedData size line) request

/-! ### The lengths -/

section Lengths

variable {s : State} {pid physicalAddress size : UInt32} {line text : List UInt8}

theorem missingCharacters_toInt :
    (missingCharacters size line).toInt = (size.toNat - line.length : Int).bmod (2 ^ 32) := by
  rw [missingCharacters, Int32.toInt_ofInt]
  rfl

/-- A line that is not cut is longer than the size by at least two gibibytes. -/
theorem length_of_not_cut
    (whole : ¬ (line.length ≤ size.toNat ∨ missingCharacters size line < 0)) :
    size.toNat + 2 ^ 31 ≤ line.length := by
  rw [not_or, Int32.lt_iff_toInt_lt, missingCharacters_toInt, Int32.toInt_zero,
    Int.bmod_def] at whole
  have bound := size.toNat_lt
  omega

/-- What `io_stdin` makes of a line. -/
theorem ioStdin_eq (line : List UInt8) (small : size.toNat < 2 ^ 31) :
    ioStdin size line =
      if line.length ≤ size.toNat ∨ missingCharacters size line < 0 then line.take size.toNat
      else line := by
  have nothing (n : Nat) (input : List UInt8) :
      (fun input => stringAppend input [])^[n] input = input := by
    have same : (fun input => stringAppend input []) = id := funext List.append_nil
    rw [same, Function.iterate_id]
    rfl
  have whole : ¬ missingCharacters size line < 0 → ioStdin size line = line := by
    intro enough
    unfold ioStdin
    rw [nothing, if_neg enough, ite_self]
    rfl
  by_cases fits : line.length ≤ size.toNat
  · have enough : ¬ missingCharacters size line < 0 := by
      rw [Int32.lt_iff_toInt_lt, missingCharacters_toInt, Int32.toInt_zero, Int.bmod_def]
      omega
    rw [whole enough, if_pos (.inl fits), List.take_of_length_le fits]
  · by_cases negative : missingCharacters size line < 0
    · have positive : ¬ 0 < missingCharacters size line :=
        Int32.not_lt.mpr (Int32.le_of_lt negative)
      rw [if_pos (.inr negative), ioStdin, if_neg positive, if_pos negative]
      rfl
    · rw [if_neg (not_or_intro fits negative), whole negative]

/-! ### What comes of the line -/

/-- A text without a zero arrives in Kernel Memory, if one `send` takes its packages. -/
theorem stdinWrite_eq (cut : ioStdin size line = text) (endless : 0 ∉ text) :
    stdinWrite s pid physicalAddress size line =
      if text.length + 37 ≤ maxTransfer then
        (ioMemoryWrite s physicalAddress size text).map Prod.snd
      else none := by
  have first := receive_ioStringProcessSend .stdin pid .stdin endless
  have second := receive_sendMemoryWrite pid physicalAddress size endless
  unfold stdinWrite
  simp only [bind]
  rw [cut, ← Option.bind_assoc, first]
  by_cases short : text.length + 37 ≤ maxTransfer
  · rw [if_pos (by omega), Option.bind_some, ← Option.bind_assoc, second, if_pos short,
      Option.bind_some, if_pos short]
    cases ioMemoryWrite s physicalAddress size text <;> rfl
  · rw [if_neg short]
    by_cases through : text.length + 29 ≤ maxTransfer
    · rw [if_pos through, Option.bind_some, ← Option.bind_assoc, second, if_neg short]
      rfl
    · rw [if_neg through]
      rfl

/-- The line is cut or filled up twice in the same way. -/
theorem paddedData_take (size : UInt32) (line : List UInt8) :
    paddedData size (line.take size.toNat) = paddedData size line := by
  rw [paddedData, paddedData, List.take_take, min_self, List.length_take]
  congr 2
  omega

/-- **When a `STDIN` writes the line.** -/
theorem writes_iff (fits : stickTotal s.devices.listMemoryStick < 2 ^ 32)
    (small : size.toNat < 2 ^ 31)
    (valid : physicalAddress.toNat + size.toNat ≤ stickTotal s.devices.listMemoryStick)
    (endless : 0 ∉ line) :
    Writes s pid physicalAddress size line ↔ Carried s physicalAddress size line := by
  have shape := ioStdin_eq line small
  have exact_size := length_paddedData size line
  have transfer := maxTransfer_lt
  obtain ⟨ok, sticks', idle, -, write⟩ :=
    @memoryWrite_eq s.devices.listMemoryStick physicalAddress size _ fits exact_size
  constructor
  · rintro ⟨s', path, -⟩
    by_cases cut : line.length ≤ size.toNat ∨ missingCharacters size line < 0
    · rw [if_pos cut] at shape
      rw [stdinWrite_eq shape fun mem => endless (List.mem_of_mem_take mem)] at path
      split at path
      · rename_i short
        rw [List.length_take] at short
        refine ⟨cut, short, ?_⟩
        by_contra lost
        rw [if_neg lost] at write
        simp only [ioMemoryWrite, paddedData_take, write, bind, Option.bind_none,
          Option.map_none] at path
        cases path
      · cases path
    · have long := length_of_not_cut cut
      rw [if_neg cut] at shape
      rw [stdinWrite_eq shape endless, if_neg (by omega)] at path
      cases path
  · rintro ⟨cut, short, chunks⟩
    rw [if_pos cut] at shape
    rw [if_pos chunks] at write
    obtain ⟨⟨outside, -⟩, stored, success⟩ := memoryWrite_spec
      (answering s.devices.listMemoryStick) physicalAddress fits exact_size
    have written := stored (success rfl valid)
    rw [idle] at outside written
    have cut_short : (line.take size.toNat).length + 37 ≤ maxTransfer := by
      rw [List.length_take]
      exact short
    have inside : physicalAddress.toNat + (paddedData size line).length ≤
        (flat s.devices.listMemoryStick).length := by
      rw [length_flat, exact_size]
      exact valid
    have placed := slice_writeAt inside
    rw [exact_size] at placed
    refine ⟨{ s with devices := { s.devices with listMemoryStick := sticks' } }, ?_, ?_, outside,
      rfl, rfl⟩
    · rw [stdinWrite_eq shape fun mem => endless (List.mem_of_mem_take mem), if_pos cut_short]
      simp only [ioMemoryWrite, paddedData_take, write, bind, Option.bind_some, pure,
        Option.map_some]
    · change slice (flat sticks') _ _ = _
      rw [show flat sticks' = _ from written.1]
      exact placed

/-- **What a `STDIN` writes**: a valid range has the line in it, cut or filled up with zeros,
and nothing else changes, exactly when one `send` takes each package on the way and the chunks
have a text. -/
theorem stdin_writes_iff (s : State) (pid physicalAddress size : UInt32) (line : List UInt8)
    (fits : stickTotal s.devices.listMemoryStick < 2 ^ 32) (small : size.toNat < 2 ^ 31)
    (valid : physicalAddress.toNat + size.toNat ≤ stickTotal s.devices.listMemoryStick)
    (endless : 0 ∉ line) :
    Writes s pid physicalAddress size line ↔ Carried s physicalAddress size line :=
  writes_iff fits small valid endless

/-- A line of two characters for a range of four bytes that two sticks share. -/
theorem stdin_writes_of_short :
    Writes (connectStick (connectStick (initial .best 4 16 (fun _ _ => 0) [] fun _ => 0) 0 3) 1 3)
      1 1 4 [72, 105] :=
  (stdin_writes_iff _ 1 1 4 [72, 105] (by decide) (by decide) (by decide)
    (by decide)).mpr ⟨by decide, by decide, by decide⟩

/-- Kernel Memory with one new stick. -/
def oneStick (size : UInt32) : State :=
  connectStick (initial .best 4 16 (fun _ _ => 0) [] fun _ => 0) 0 size

theorem stickTotal_oneStick (size : UInt32) :
    stickTotal (oneStick size).devices.listMemoryStick = size.toNat := Nat.add_zero _

/-- **A long line is lost**: of `2 ^ 31 - 37` characters for as many bytes, nothing is
written. -/
theorem long_line_lost : ∃ (size : UInt32) (line : List UInt8),
    size.toNat = 2 ^ 31 - 37 ∧ line.length = 2 ^ 31 - 37 ∧ 0 ∉ line ∧
      (0 : UInt32).toNat + size.toNat ≤ stickTotal (oneStick size).devices.listMemoryStick ∧
      stdinWrite (oneStick size) 1 0 size line = none ∧
      ¬ Writes (oneStick size) 1 0 size line := by
  have exists_size : ∃ size : UInt32, size.toNat = 2 ^ 31 - 37 := ⟨2147483611, by decide⟩
  have exists_line : ∀ n : Nat, ∃ line : List UInt8, line.length = n ∧ 0 ∉ line := by
    intro n
    refine ⟨List.replicate n 65, List.length_replicate, ?_⟩
    simp [List.mem_replicate]
  obtain ⟨size, size_eq⟩ := exists_size
  obtain ⟨line, length, endless⟩ := exists_line (2 ^ 31 - 37)
  have shape := @ioStdin_eq size line (by omega)
  rw [if_pos (.inl (by omega)), List.take_of_length_le (by omega)] at shape
  have lost : stdinWrite (oneStick size) 1 0 size line = none := by
    have transfer := maxTransfer_lt
    rw [stdinWrite_eq shape endless, if_neg (by omega)]
  refine ⟨size, line, size_eq, length, endless, ?_, lost, ?_⟩
  · rw [stickTotal_oneStick, UInt32.toNat_zero, Nat.zero_add]
  · rintro ⟨s', path, -⟩
    rw [lost] at path
    cases path

end Lengths

end OsModel.StdinWrite
