import OsModel.KernelMemory.Operations
import OsModel.KernelScheduler.Managers
import OsModel.System.StickAccesses

/-!
A `STDOUT` on its way from Kernel Memory through the scheduler to the device.

Kernel Memory reads the bytes into a buffer of their number and sends them as a text
(`kernel_memory/src/module_handlers/kernel_scheduler_handler.c`); the scheduler takes an
empty text for an error (`stdout_wait_memory_read`) and hands the text to a device.

* `delivers_iff`: the device shows the bytes, and the process goes on, exactly when the read
  gets through, the first byte is not zero, the text ends where the bytes do, and one `send`
  takes its packages.
* `zeros_end_process`: a process that prints from a new stick is ended.
-/

namespace OsModel.Stdout

open Lib Net StickAccesses
open KernelMemory hiding memoryRead

/-! ### The path of the bytes -/

/-- The handler of `IO_MEMORY_READ`: the answer that goes out. The text starts in the buffer of
`memory_read` and ends at the first zero, there or in `heap`, which lies behind it. `none` is a
read that does not get through, reading on until the program dies, or a text of which nothing
goes out. -/
def ioMemoryRead (heap : List UInt8) (s : State) (pid physicalAddress sizeToRead : UInt32) :
    Option (List UInt8) := do
  match ← memoryRead s.devices.listMemoryStick physicalAddress sizeToRead with
  | (none, _) => ioMemoryReadSend pid []
  | (some data, _) =>
      let text ← textAt (data ++ heap)
      ioMemoryReadSend pid text

variable {ι : Type}

/-- What has become of a `STDOUT`: the scheduler after `stdout_wait_memory_read`, and what
`io_stdout` shows. -/
structure Shown (ι : Type) where
  scheduler : KernelScheduler.State ι
  output : List UInt8

/-- A `STDOUT` from the `IO_MEMORY_READ` to the device; `none` when a program on the way dies
of it, or waits for what one `send` has not taken. -/
def stdout (heap : List UInt8) (s : State) (k : KernelScheduler.State ι)
    (pid physicalAddress toRead : UInt32) : Option (Shown ι) := do
  let reply ← ioMemoryRead heap s pid physicalAddress toRead
  let ((pid, value), _) ← receiveReadValueIoMemoryRead reply
  let sent ← ioStringProcessSend .stdout pid value .stdout
  let ((_, output, _), _) ← ioStringProcessReceive sent
  some ⟨KernelScheduler.stdoutWaitMemoryRead k pid (textOf value), output⟩

/-- A request has gone to a `STDOUT` device, or waits for one. -/
def HandedOver (k k' : KernelScheduler.State ι) (request : KernelScheduler.IoRequest) : Prop :=
  (∃ io ∈ k.listIo .stdout, (k'.io io).requests = (k.io io).requests ++ [request]) ∨
    k'.pendingRequestIo .stdout = k.pendingRequestIo .stdout ++ [request]

/-- The bytes of a range are delivered: the device is asked to show them, up to the first
zero, and the scheduler has not ended the process. -/
def Delivers (heap : List UInt8) (s : State) (k : KernelScheduler.State ι)
    (pid physicalAddress toRead : UInt32) : Prop :=
  ∃ shown, stdout heap s k pid physicalAddress toRead = some shown ∧
    shown.output = upToZero
      (slice (flat s.devices.listMemoryStick) physicalAddress.toNat toRead.toNat) ∧
    HandedOver k shown.scheduler (.string pid (textOf shown.output)) ∧
    shown.scheduler.process = k.process ∧ shown.scheduler.memory = k.memory

/-- The condition on the bytes, and on what lies behind their buffer. -/
structure Printable (heap bytes : List UInt8) : Prop where
  nonzero : bytes.head? ≠ some 0
  ends : 0 ∈ bytes ∨ heap.head? = some 0
  short : (upToZero bytes).length + 29 ≤ maxTransfer

theorem printable_iff {heap bytes : List UInt8} :
    Printable heap bytes ↔ bytes.head? ≠ some 0 ∧ (0 ∈ bytes ∨ heap.head? = some 0) ∧
      (upToZero bytes).length + 29 ≤ maxTransfer :=
  ⟨fun h => ⟨h.nonzero, h.ends, h.short⟩, fun ⟨nonzero, ends, short⟩ => ⟨nonzero, ends, short⟩⟩

instance (heap bytes : List UInt8) : Decidable (Printable heap bytes) :=
  decidable_of_iff' _ printable_iff

/-! ### What comes out at the other end -/

section Path

variable {heap bytes value : List UInt8} {s : State} {k : KernelScheduler.State ι}
  {pid physicalAddress toRead : UInt32}

theorem textOf_eq_empty_iff : textOf bytes = "" ↔ bytes = [] := by
  unfold textOf
  rw [String.ext_iff]
  simp

/-- What the scheduler does with a text: it hands it over, and ends the process if it is
empty. -/
theorem stdoutWaitMemoryRead_spec (k : KernelScheduler.State ι) (pid : UInt32) (value : String) :
    HandedOver k (KernelScheduler.stdoutWaitMemoryRead k pid value) (.string pid value) ∧
      ((KernelScheduler.stdoutWaitMemoryRead k pid value).memory = k.memory ↔ value ≠ "") ∧
      (value ≠ "" → (KernelScheduler.stdoutWaitMemoryRead k pid value).process = k.process) := by
  have request (s : KernelScheduler.State ι) :
      HandedOver s (KernelScheduler.requestIo s .stdout (.string pid value)) (.string pid value) ∧
        (KernelScheduler.requestIo s .stdout (.string pid value)).memory = s.memory ∧
        (KernelScheduler.requestIo s .stdout (.string pid value)).process = s.process := by
    unfold KernelScheduler.requestIo HandedOver
    cases found : KernelScheduler.getAvailableIoType s .stdout with
    | none =>
        refine ⟨.inr ?_, rfl, rfl⟩
        simp [KernelScheduler.State.postShortTerm]
    | some io =>
        refine ⟨.inl ⟨io, List.mem_of_find?_eq_some found, ?_⟩, rfl, rfl⟩
        simp [KernelScheduler.State.postShortTerm, KernelScheduler.ioProcessSend,
          KernelScheduler.State.setIo]
  unfold KernelScheduler.stdoutWaitMemoryRead
  by_cases empty : value = ""
  · obtain ⟨handed, memory, -⟩ := request
      ((KernelScheduler.processSetState k pid .exit).sendMemory (.processEnd pid))
    rw [if_pos empty, memory]
    have told : ((KernelScheduler.processSetState k pid .exit).sendMemory
        (.processEnd pid)).memory ≠ k.memory := by
      intro same
      have messages := congrArg KernelScheduler.Memory.toMemory same
      simp [KernelScheduler.State.sendMemory, KernelScheduler.processSetState,
        KernelScheduler.State.setProcess] at messages
    exact ⟨handed, iff_of_false told (not_not_intro empty), fun other => absurd empty other⟩
  · obtain ⟨handed, memory, process⟩ := request k
    rw [if_neg empty]
    exact ⟨handed, iff_of_true memory empty, fun _ => process⟩

/-- A successful read is shown up to the first zero in it or behind it, if that is short
enough. -/
theorem stdout_eq {sticks : List MemoryStick}
    (read : memoryRead s.devices.listMemoryStick physicalAddress toRead =
      some (some bytes, sticks)) :
    stdout heap s k pid physicalAddress toRead =
      (textAt (bytes ++ heap)).bind fun value =>
        if value.length + 29 ≤ maxTransfer then
          some ⟨KernelScheduler.stdoutWaitMemoryRead k pid (textOf value), value⟩
        else none := by
  have answer : ioMemoryRead heap s pid physicalAddress toRead =
      (textAt (bytes ++ heap)).bind (ioMemoryReadSend pid) := by
    simp only [ioMemoryRead, bind, read, Option.bind_some]
  unfold stdout
  simp only [bind]
  rw [answer, Option.bind_assoc]
  cases found : textAt (bytes ++ heap) with
  | none => rfl
  | some value =>
      have endless : 0 ∉ value := by
        unfold textAt at found
        split at found
        · rw [← Option.some.inj found]
          exact zero_not_mem_upToZero _
        · cases found
      have first := receive_ioMemoryReadSend pid endless
      have second := receive_ioStringProcessSend .stdout pid .stdout endless
      simp only [Option.bind_some]
      rw [← Option.bind_assoc, first]
      by_cases short : value.length + 29 ≤ maxTransfer
      · rw [if_pos short] at second ⊢
        rw [if_pos (by omega), Option.bind_some, ← Option.bind_assoc, second]
        rfl
      · rw [if_neg short] at second ⊢
        by_cases through : value.length + 21 ≤ maxTransfer
        · rw [if_pos through, Option.bind_some, ← Option.bind_assoc, second]
          rfl
        · rw [if_neg through]
          rfl

/-- **When a `STDOUT` delivers** what was read. -/
theorem delivers_iff {sticks : List MemoryStick}
    (read : memoryRead s.devices.listMemoryStick physicalAddress toRead =
      some (some bytes, sticks))
    (contents : bytes = slice (flat s.devices.listMemoryStick) physicalAddress.toNat toRead.toNat)
    (some_bytes : bytes ≠ []) :
    Delivers heap s k pid physicalAddress toRead ↔ Printable heap bytes := by
  have nonzero (short : bytes.head? ≠ some 0) : textOf (upToZero bytes) ≠ "" := by
    rw [Ne, textOf_eq_empty_iff, upToZero_eq_nil_iff]
    exact not_or_intro some_bytes short
  unfold Delivers
  rw [stdout_eq read, ← contents, textAt_append]
  constructor
  · rintro ⟨shown, path, output, -, -, memory⟩
    obtain ⟨value, text, rest⟩ := Option.bind_eq_some_iff.mp path
    split at rest
    · rename_i short
      obtain rfl := Option.some.inj rest
      obtain rfl : value = upToZero bytes := output
      have kept := (stdoutWaitMemoryRead_spec k pid (textOf (upToZero bytes))).2.1.mp memory
      rw [Ne, textOf_eq_empty_iff, upToZero_eq_nil_iff, not_or] at kept
      refine ⟨kept.2, ?_, short⟩
      by_cases ends : 0 ∈ bytes
      · exact .inl ends
      · right
        rw [if_neg ends, upToZero_of_not_mem ends] at text
        obtain ⟨behind, found, same⟩ := Option.map_eq_some_iff.mp text
        obtain rfl : behind = [] := by simpa using same
        unfold textAt at found
        split at found
        · rename_i zero
          rcases upToZero_eq_nil_iff.mp (Option.some.inj found) with rfl | first
          · simp at zero
          · exact first
        · cases found
    · cases rest
  · rintro ⟨first, ends, short⟩
    have text : (if 0 ∈ bytes then some (upToZero bytes) else (textAt heap).map (bytes ++ ·)) =
        some (upToZero bytes) := by
      by_cases inside : 0 ∈ bytes
      · rw [if_pos inside]
      · have behind := ends.resolve_left inside
        have zero : 0 ∈ heap := List.mem_of_head? behind
        rw [if_neg inside, textAt, if_pos zero, upToZero_eq_nil_iff.mpr (.inr behind),
          upToZero_of_not_mem inside, Option.map_some, List.append_nil]
    obtain ⟨handed, kept, process⟩ :=
      stdoutWaitMemoryRead_spec k pid (textOf (upToZero bytes))
    rw [text, Option.bind_some, if_pos short]
    exact ⟨_, rfl, rfl, handed, process (nonzero first), kept.mpr (nonzero first)⟩

/-- **What a `STDOUT` delivers**: of a valid range, Kernel Memory asks for the bytes of the range
only, and they are delivered exactly when the chunks get through and the bytes are printable. -/
theorem stdout_delivers_iff (heap : List UInt8) (s : State) (k : KernelScheduler.State ι)
    (pid physicalAddress toRead : UInt32)
    (fits : stickTotal s.devices.listMemoryStick < 2 ^ 32) (positive : 0 < toRead)
    (valid : physicalAddress.toNat + toRead.toNat ≤ stickTotal s.devices.listMemoryStick) :
    (∀ request ∈ accessRequests s.devices.listMemoryStick physicalAddress toRead,
      physicalAddress.toNat ≤ (request.span s.devices.listMemoryStick).base ∧
        (request.span s.devices.listMemoryStick).stop ≤ physicalAddress.toNat + toRead.toNat) ∧
      (Delivers heap s k pid physicalAddress toRead ↔
        (∀ request ∈ accessRequests s.devices.listMemoryStick physicalAddress toRead,
          Readable s.devices.listMemoryStick request) ∧
        Printable heap
          (slice (flat s.devices.listMemoryStick) physicalAddress.toNat toRead.toNat)) := by
  constructor
  · intro request mem
    obtain ⟨span, within⟩ := chunkRequests_span fits (by omega) _ _ request mem
    rw [span]
    constructor
    · exact Nat.le_add_right _ _
    · simp only [Span.stop]
      omega
  · have read := @memoryRead_eq s.devices.listMemoryStick physicalAddress toRead fits
    by_cases through : ∀ request ∈ accessRequests s.devices.listMemoryStick physicalAddress toRead,
        Readable s.devices.listMemoryStick request
    · have length := length_slice (l := flat s.devices.listMemoryStick)
        (i := physicalAddress.toNat) (n := toRead.toNat) (by rwa [length_flat])
      have nonempty :
          slice (flat s.devices.listMemoryStick) physicalAddress.toNat toRead.toNat ≠ [] := by
        rw [UInt32.lt_iff_toNat_lt] at positive
        apply List.ne_nil_of_length_pos
        rw [length]
        exact positive
      rw [if_pos through, answering_read fits (.inr valid)] at read
      rw [delivers_iff read rfl nonempty]
      exact (and_iff_right through).symm
    · rw [if_neg through] at read
      refine iff_of_false ?_ fun both => through both.1
      rintro ⟨shown, path, -⟩
      simp only [stdout, ioMemoryRead, read, bind, Option.bind_none] at path
      cases path

/-- Kernel Memory with one new stick. -/
def blank : State := connectStick (initial .best 4 16 (fun _ _ => 0) [] fun _ => 0) 0 4

theorem stdout_delivers_of_text :
    Delivers [] (KernelMemory.ioMemoryWrite blank 0 4 [72, 105]).2
      (KernelScheduler.initial : KernelScheduler.State Unit) 1 0 4 :=
  (stdout_delivers_iff [] _ KernelScheduler.initial 1 0 4 (by decide) (by decide)
    (by decide)).2.mpr (by decide)

/-- **Zeros end the process**: a read of four bytes from a new stick succeeds, and is taken for
an error. -/
theorem zeros_end_process :
    memoryRead blank.devices.listMemoryStick 0 4 =
        some (some [0, 0, 0, 0], blank.devices.listMemoryStick) ∧
      ¬ Delivers [] blank (KernelScheduler.initial : KernelScheduler.State Unit) 1 0 4 := by
  have read : memoryRead blank.devices.listMemoryStick 0 4 =
      some (some [0, 0, 0, 0], blank.devices.listMemoryStick) := by
    have bytes : slice (flat blank.devices.listMemoryStick) (0 : UInt32).toNat (4 : UInt32).toNat =
        [0, 0, 0, 0] := by decide
    rw [memoryRead_eq (by decide), if_pos (by decide),
      answering_read (by decide) (.inr (by decide)), bytes]
  refine ⟨read, ?_⟩
  rw [delivers_iff read (by decide) (by decide)]
  decide

end Path

end OsModel.Stdout
