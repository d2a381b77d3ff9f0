import OsModel.Utils
import OsModel.Lib.Bytes

/-!
The Memory Stick module (`memory_stick/src/main.c`): a byte array of fixed
capacity that answers `MS_READ` and `MS_WRITE` requests.
-/

namespace OsModel

open Lib

/-- A connected stick: its identity in `t_memory_stick_info` and the contents
of the module's `memory`, whose length is the announced size. -/
structure MemoryStick where
  id : UInt32
  size : UInt32
  memory : List UInt8
  length_memory : memory.length = size.toNat

namespace MemoryStick

/-- A stick as `main` starts it: `memory` is set to zero. -/
def fresh (id size : UInt32) : MemoryStick :=
  ⟨id, size, List.replicate size.toNat 0, List.length_replicate⟩

/-- What an `MS_READ` request leads to. -/
inductive ReadOutcome where
  /-- `MS_READ_RESPONSE` with the bytes. -/
  | answered (data : List UInt8)
  /-- `handle_read` returned without sending anything. -/
  | unanswered
  /-- The 32-bit check passed and the copy left the array. -/
  | overrun
  deriving DecidableEq, Repr

def handleRead (ms : MemoryStick) (localOffset readSize : UInt32) : ReadOutcome :=
  if localOffset + readSize > ms.size then .unanswered
  else if localOffset.toNat + readSize.toNat ≤ ms.size.toNat then
    .answered (slice ms.memory localOffset.toNat readSize.toNat)
  else .overrun

/-- What an `MS_WRITE` request leads to. -/
inductive WriteOutcome where
  /-- `MS_WRITE_RESPONSE` with the flag, and the stick afterwards. -/
  | answered (ok : Bool) (ms : MemoryStick)
  /-- The 32-bit check passed and the copy left one of the two arrays. -/
  | overrun

/-- `handle_write`: the request carries the offset, the size and the data. -/
def handleWrite (ms : MemoryStick) (localOffset writeSize : UInt32) (data : List UInt8) :
    WriteOutcome :=
  if localOffset + writeSize > ms.size then .answered false ms
  else if fits : localOffset.toNat + writeSize.toNat ≤ ms.size.toNat ∧
      data.length = writeSize.toNat then
    .answered true
      { ms with
        memory := writeAt ms.memory localOffset.toNat data
        length_memory := by
          rw [length_writeAt (by rw [fits.2, ms.length_memory]; exact fits.1), ms.length_memory] }
  else .overrun

/-- A request inside the stick is answered with the slice it names. -/
theorem handleRead_inside {ms : MemoryStick} {localOffset readSize : UInt32}
    (inside : localOffset.toNat + readSize.toNat ≤ ms.size.toNat) :
    ms.handleRead localOffset readSize =
      .answered (slice ms.memory localOffset.toNat readSize.toNat) := by
  have small : ¬ localOffset + readSize > ms.size := by
    have := ms.size.toNat_lt
    rw [gt_iff_lt, UInt32.lt_iff_toNat_lt, UInt32.toNat_add]
    omega
  rw [handleRead, if_neg small, if_pos inside]

/-- A request inside the stick changes exactly the range it names. -/
theorem handleWrite_inside {ms : MemoryStick} {localOffset writeSize : UInt32}
    {data : List UInt8} (inside : localOffset.toNat + writeSize.toNat ≤ ms.size.toNat)
    (exact_size : data.length = writeSize.toNat) :
    ∃ ms', ms.handleWrite localOffset writeSize data = .answered true ms' ∧
      ms'.id = ms.id ∧ ms'.size = ms.size ∧
      ms'.memory = writeAt ms.memory localOffset.toNat data := by
  have small : ¬ localOffset + writeSize > ms.size := by
    have := ms.size.toNat_lt
    rw [gt_iff_lt, UInt32.lt_iff_toNat_lt, UInt32.toNat_add]
    omega
  rw [handleWrite, if_neg small, dif_pos ⟨inside, exact_size⟩]
  exact ⟨_, rfl, rfl, rfl, rfl⟩

end MemoryStick

end OsModel
