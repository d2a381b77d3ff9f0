import OsModel.Lib.Bytes
import Mathlib.Algebra.Group.Nat.Defs

/-!
Readers of a buffer, and what it means that one reads back an encoding.

A reader takes a buffer and an offset, and gives a value and the offset behind
what it has read. `Reads r bytes a` says that `r` finds `a` wherever `bytes`
stand in a buffer; the lemmas of its namespace put encodings together the way
the readers are put together. `readWhile` is the loop that goes on below an
offset, `readTimes` the one that counts.

`Consumes r bytes a` is the same for what takes bytes from a stream: it gives
`a` for exactly these bytes and leaves what comes after them.
-/

namespace OsModel.Lib

/-! ### Numbers as bytes -/

/-- The `width` lowest bytes of a number, lowest first. -/
def toBytes : Nat → Nat → List UInt8
  | 0, _ => []
  | width + 1, n => UInt8.ofNat n :: toBytes width (n / 256)

/-- The number whose bytes these are, lowest first. -/
def ofBytes : List UInt8 → Nat
  | [] => 0
  | byte :: rest => byte.toNat + 256 * ofBytes rest

@[simp] theorem length_toBytes (width n : Nat) : (toBytes width n).length = width := by
  induction width generalizing n with
  | zero => rfl
  | succ width ih => simp [toBytes, ih]

theorem ofBytes_toBytes {width n : Nat} (fits : n < 256 ^ width) :
    ofBytes (toBytes width n) = n := by
  induction width generalizing n with
  | zero =>
      have : n = 0 := by simpa using fits
      simp [toBytes, ofBytes, this]
  | succ width ih =>
      have rest : n / 256 < 256 ^ width := by
        rw [pow_succ] at fits
        exact Nat.div_lt_of_lt_mul (by rwa [Nat.mul_comm])
      rw [toBytes, ofBytes, ih rest, UInt8.toNat_ofNat']
      exact Nat.mod_add_div n 256

/-! ### Readers -/

/-- A reader of a buffer that moves an offset; it fails where it would read
outside the buffer. -/
abbrev Reader := ReaderT (List UInt8) (StateT Nat Option)

/-- What a reader makes of a buffer from an offset on. -/
def Reader.from {α : Type} (r : Reader α) (buffer : List UInt8) (offset : Nat) :
    Option (α × Nat) :=
  r buffer offset

/-- The next `n` bytes. -/
def copy (n : Nat) : Reader (List UInt8) := fun buffer offset =>
  if offset + n ≤ buffer.length then some (slice buffer offset n, offset + n) else none

/-- Read as long as the offset is below `size`, at most `fuel` times. -/
def readWhile {α : Type} (r : Reader α) (size : Nat) : Nat → Reader (List α)
  | 0 => fun _ offset => if offset < size then none else some ([], offset)
  | fuel + 1 => fun buffer offset =>
      if offset < size then
        (do
          let a ← r
          let rest ← readWhile r size fuel
          pure (a :: rest) : Reader (List α)) buffer offset
      else some ([], offset)

/-- Read a given number of times. -/
def readTimes {α : Type} (r : Reader α) : Nat → Reader (List α)
  | 0 => pure []
  | n + 1 => do
      let a ← r
      let rest ← readTimes r n
      pure (a :: rest)

/-- Wherever the bytes stand in a buffer, the reader finds the value there and
moves behind them. -/
def Reads {α : Type} (r : Reader α) (bytes : List UInt8) (a : α) : Prop :=
  ∀ before after, r.from (before ++ bytes ++ after) before.length =
    some (a, before.length + bytes.length)

namespace Reads

variable {α β γ : Type} {r : Reader α} {bytes more : List UInt8} {a : α}

theorem pure (a : α) : Reads (pure a) [] a := by
  intro before after
  rfl

/-- One reader after another. -/
theorem bind {f : α → Reader β} {b : β} (first : Reads r bytes a)
    (second : Reads (f a) more b) : Reads (r >>= f) (bytes ++ more) b := by
  intro before after
  have one := first before (more ++ after)
  have two := second (before ++ bytes) after
  simp only [Reader.from, List.append_assoc, List.length_append] at one two ⊢
  simp only [Bind.bind, ReaderT.bind, StateT.bind, one, Option.bind_some, two, Nat.add_assoc]

theorem map (f : α → β) (reads : Reads r bytes a) : Reads (f <$> r) bytes (f a) := by
  have composed := reads.bind (f := fun a => Pure.pure (f a)) (pure (f a))
  rw [List.append_nil] at composed
  rwa [map_eq_pure_bind]

/-- The last step of a reader that only puts a value together. -/
theorem bind_pure {f : α → β} (reads : Reads r bytes a) :
    Reads (r >>= fun a => Pure.pure (f a)) bytes (f a) := by
  have composed := reads.bind (f := fun a => Pure.pure (f a)) (pure (f a))
  rwa [List.append_nil] at composed

/-- A choice that is made without reading. -/
theorem lift {choice : Option α} (chosen : choice = some a) :
    Reads (choice : Reader α) [] a := by
  subst chosen
  exact pure a

/-- The bytes themselves. -/
theorem copy (bytes : List UInt8) : Reads (Lib.copy bytes.length) bytes bytes := by
  intro before after
  have enough : before.length + bytes.length ≤ (before ++ bytes ++ after).length := by simp
  have found : slice (before ++ bytes ++ after) before.length bytes.length = bytes := by
    rw [List.append_assoc, slice_append_right (Nat.le_refl _), Nat.sub_self,
      slice_append_left (by omega)]
    simp [slice]
  rw [Reader.from, Lib.copy, if_pos enough, found]

/-- A buffer that is one encoding is read to its end. -/
theorem whole (reads : Reads r bytes a) : r.from bytes 0 = some (a, bytes.length) := by
  simpa using reads [] []

variable {encode : β → List UInt8} {value : β → α} {xs : List β}

/-- The counting loop reads back a list of encodings. -/
theorem times (reads : ∀ x ∈ xs, Reads r (encode x) (value x)) :
    Reads (readTimes r xs.length) (xs.flatMap encode) (xs.map value) := by
  induction xs with
  | nil => exact pure []
  | cons x rest ih =>
      have first := reads x List.mem_cons_self
      have later := ih fun y mem => reads y (List.mem_cons_of_mem _ mem)
      exact first.bind later.bind_pure

/-- Each element of the list says how it is read. -/
theorem mapM {read : γ → Reader α} {kind : β → γ}
    (reads : ∀ x ∈ xs, Reads (read (kind x)) (encode x) (value x)) :
    Reads ((xs.map kind).mapM read) (xs.flatMap encode) (xs.map value) := by
  induction xs with
  | nil => exact pure []
  | cons x rest ih =>
      have first := reads x List.mem_cons_self
      have later := ih fun y mem => reads y (List.mem_cons_of_mem _ mem)
      rw [List.map_cons, List.mapM_cons]
      exact first.bind later.bind_pure

/-- **The loop below an offset reads back a list of encodings** that ends there,
with any fuel that is enough for its elements, and stops exactly at the end:
every encoding moves the offset. -/
theorem readWhile (reads : ∀ x ∈ xs, Reads r (encode x) (value x))
    (moves : ∀ x ∈ xs, encode x ≠ []) (before : List UInt8) {fuel : Nat}
    (enough : xs.length ≤ fuel) :
    (Lib.readWhile r (before ++ xs.flatMap encode).length fuel).from
        (before ++ xs.flatMap encode) before.length =
      some (xs.map value, (before ++ xs.flatMap encode).length) := by
  induction xs generalizing before fuel with
  | nil => cases fuel <;> simp [Lib.readWhile, Reader.from]
  | cons x rest ih =>
      cases fuel with
      | zero => simp at enough
      | succ fuel =>
          have first := reads x List.mem_cons_self before (rest.flatMap encode)
          have later := ih (fun y mem => reads y (List.mem_cons_of_mem _ mem))
            (fun y mem => moves y (List.mem_cons_of_mem _ mem)) (before ++ encode x)
            (Nat.le_of_succ_le_succ enough)
          have below : before.length < (before ++ (x :: rest).flatMap encode).length := by
            have := List.length_pos_of_ne_nil (moves x List.mem_cons_self)
            simp only [List.flatMap_cons, List.length_append]
            omega
          rw [List.flatMap_cons, ← List.append_assoc] at below ⊢
          simp only [Reader.from, List.length_append] at first later below ⊢
          rw [Lib.readWhile]
          simp only [if_pos below, Bind.bind, ReaderT.bind, StateT.bind, first, Option.bind_some,
            later]
          rfl

end Reads

/-! ### Streams -/

/-- From a stream that begins with the bytes, exactly these are taken. -/
def Consumes {α : Type} (r : StateT (List UInt8) Option α) (bytes : List UInt8) (a : α) : Prop :=
  ∀ rest, r (bytes ++ rest) = some (a, rest)

namespace Consumes

variable {α β γ : Type} {r : StateT (List UInt8) Option α} {bytes more : List UInt8} {a : α}

theorem pure (a : α) : Consumes (pure a) [] a := by
  intro rest
  rfl

/-- One message after another. -/
theorem bind {f : α → StateT (List UInt8) Option β} {b : β} (first : Consumes r bytes a)
    (second : Consumes (f a) more b) : Consumes (r >>= f) (bytes ++ more) b := by
  intro rest
  have one := first (more ++ rest)
  have two := second rest
  simp only [List.append_assoc, Bind.bind, StateT.bind] at one two ⊢
  rw [one, Option.bind_some, two]

/-- The last step of what only puts a value together. -/
theorem bind_pure {f : α → β} (consumes : Consumes r bytes a) :
    Consumes (r >>= fun a => Pure.pure (f a)) bytes (f a) := by
  have composed := consumes.bind (f := fun a => Pure.pure (f a)) (pure (f a))
  rwa [List.append_nil] at composed

/-- A choice that is made without taking anything. -/
theorem lift {choice : Option α} (chosen : choice = some a) :
    Consumes (choice : StateT (List UInt8) Option α) [] a := by
  subst chosen
  exact pure a

/-- **A sequence of messages** is taken from a stream one after another. -/
theorem mapM {read : γ → StateT (List UInt8) Option α} {kind : β → γ} {encode : β → List UInt8}
    {value : β → α} {xs : List β}
    (consumes : ∀ x ∈ xs, Consumes (read (kind x)) (encode x) (value x)) :
    Consumes ((xs.map kind).mapM read) (xs.flatMap encode) (xs.map value) := by
  induction xs with
  | nil => exact pure []
  | cons x rest ih =>
      have first := consumes x List.mem_cons_self
      have later := ih fun y mem => consumes y (List.mem_cons_of_mem _ mem)
      rw [List.map_cons, List.mapM_cons]
      exact first.bind later.bind_pure

end Consumes

/-- More elements than bytes cannot be: the size is fuel enough. -/
theorem length_le_flatMap {β : Type} {encode : β → List UInt8} {xs : List β}
    (moves : ∀ x ∈ xs, encode x ≠ []) : xs.length ≤ (xs.flatMap encode).length := by
  induction xs with
  | nil => exact Nat.zero_le _
  | cons x rest ih =>
      have some_byte := List.length_pos_of_ne_nil (moves x List.mem_cons_self)
      have later := ih fun y mem => moves y (List.mem_cons_of_mem _ mem)
      simp only [List.flatMap_cons, List.length_append, List.length_cons]
      omega

end OsModel.Lib
