import OsModel.Utils

/-!
Registers and operands (`cpu/src/manage_instructions.c`).

Operands are the words of an instruction as the program writes them; a register
is found by name without regard to case, and what is not a register is not one
under any spelling.
-/

namespace OsModel.Cpu

/-- A field of the context, as `get_register_descriptor` points at it. -/
inductive Register where
  | ax | bx | cx | dx
  | eax | ebx | ecx | edx
  | si | di | pc
  deriving DecidableEq, Repr

/-- The chain of `strcasecmp` in `get_register_descriptor`; `none` is a
descriptor without an address. -/
def getRegisterDescriptor (registerName : String) : Option Register :=
  match registerName.toLower with
  | "ax" => some .ax
  | "bx" => some .bx
  | "cx" => some .cx
  | "dx" => some .dx
  | "eax" => some .eax
  | "ebx" => some .ebx
  | "ecx" => some .ecx
  | "edx" => some .edx
  | "si" => some .si
  | "di" => some .di
  | "pc" => some .pc
  | _ => none

/-- `check_if_register` compares with the same names. -/
def checkIfRegister (operand : String) : Bool := (getRegisterDescriptor operand).isSome

def Register.fieldSize : Register → UInt32
  | .ax | .bx | .cx | .dx => 1
  | _ => 4

/-- The value at `descriptor.field_address`. -/
def Register.read (context : CpuContext) : Register → UInt32
  | .ax => context.ax.toUInt32
  | .bx => context.bx.toUInt32
  | .cx => context.cx.toUInt32
  | .dx => context.dx.toUInt32
  | .eax => context.eax
  | .ebx => context.ebx
  | .ecx => context.ecx
  | .edx => context.edx
  | .si => context.si
  | .di => context.di
  | .pc => context.pc

/-- A write at `descriptor.field_address`; a one-byte field keeps the low byte. -/
def Register.write (context : CpuContext) (value : UInt32) : Register → CpuContext
  | .ax => { context with ax := value.toUInt8 }
  | .bx => { context with bx := value.toUInt8 }
  | .cx => { context with cx := value.toUInt8 }
  | .dx => { context with dx := value.toUInt8 }
  | .eax => { context with eax := value }
  | .ebx => { context with ebx := value }
  | .ecx => { context with ecx := value }
  | .edx => { context with edx := value }
  | .si => { context with si := value }
  | .di => { context with di := value }
  | .pc => { context with pc := value }

/-- `read_register_value`: zero for what is not a register. -/
def readRegisterValue (context : CpuContext) (registerName : String) : UInt32 :=
  match getRegisterDescriptor registerName with
  | none => 0
  | some register => register.read context

/-- `write_register_value`; only ever called with a register. -/
def writeRegisterValue (context : CpuContext) (registerName : String) (value : UInt32) :
    CpuContext :=
  match getRegisterDescriptor registerName with
  | none => context
  | some register => register.write context value

/-- A register holds what was written, up to its width. -/
theorem Register.read_write (context : CpuContext) (value : UInt32) (register : Register) :
    register.read (register.write context value) =
      if register.fieldSize = 1 then value.toUInt8.toUInt32 else value := by
  cases register <;> rfl

/-- A write to one register leaves the others. -/
theorem Register.read_write_of_ne {register other : Register} (ne : other ≠ register)
    (context : CpuContext) (value : UInt32) :
    other.read (register.write context value) = other.read context := by
  cases register <;> cases other <;> first | rfl | exact absurd rfl ne

/-! ### Numbers -/

/-- The digits at the front of a number. -/
def leadingDigits : List Char → Nat → Nat
  | [], value => value
  | c :: rest, value =>
      if c.isDigit then leadingDigits rest (value * 10 + (c.toNat - '0'.toNat)) else value

/-- `isspace`. -/
def isSpace (c : Char) : Bool := c.toNat == 32 || (9 ≤ c.toNat && c.toNat ≤ 13)

/-- `strtol(s, NULL, 10)` with 64-bit `long`: leading white space, a sign,
digits; out of range is the nearest `long`. -/
def strtol (s : String) : Int :=
  match s.toList.dropWhile isSpace with
  | '-' :: rest => max (-(leadingDigits rest 0 : Int)) (-(2 ^ 63))
  | '+' :: rest => min (leadingDigits rest 0 : Int) (2 ^ 63 - 1)
  | rest => min (leadingDigits rest 0 : Int) (2 ^ 63 - 1)

/-- `atoi`, which converts the `long` to an `int`. -/
def atoi (s : String) : Int := (strtol s).bmod (2 ^ 32)

/-- An `int` assigned to a `uint32_t`. -/
def uint32OfInt (value : Int) : UInt32 := UInt32.ofInt value

example : uint32OfInt (atoi "4294967295") = 0xFFFFFFFF := by decide

end OsModel.Cpu
