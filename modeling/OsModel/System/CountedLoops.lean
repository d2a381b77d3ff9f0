import OsModel.System.Scripts

/-!
Loops that count down (`scripts/PHP_1.prc`, `scripts/PLANI_PRE_2.prc` and others).

A script counts in a register: it subtracts one in every round, and `JNZ` goes back while the
register is not zero. The test is behind the body, so that a register that is zero from the
beginning goes round once through all its values: 256 rounds in one of the one-byte registers,
and `2 ^ 32` in the others.

* `counted`: the rule for such loops; loops may be inside loops.
* `counts_sub`: the bodies of the scripts count.
* `rounds_in_slices`: the process goes through its loop as often, in whatever slices.
-/

namespace OsModel.Scripts

open Lib KernelMemory Cpu Slices

/-! ### Registers that a part leaves -/

/-- The register that a line writes to. -/
def writes (decoded : List String) : Option Register :=
  match decoded with
  | "SET" :: name :: _ | "SUM" :: name :: _ | "SUB" :: name :: _ => getRegisterDescriptor name
  | _ => none

/-- No line of a part writes to the register. -/
def Block.Keeps (r : Register) : Block → Prop
  | .empty => True
  | .line decoded => writes decoded ≠ some r
  | .seq first second => first.Keeps r ∧ second.Keeps r
  | .loop body _ _ | .skip _ _ body => body.Keeps r

variable {r u : Register} {b first second body : Block} {c c' : CpuContext} {trace : List Word}
  {start : ℕ} {register target : String}

theorem read_writeRegisterValue {name : String} (ne : getRegisterDescriptor name ≠ some r)
    (c : CpuContext) (value : UInt32) : r.read (writeRegisterValue c name value) = r.read c := by
  unfold writeRegisterValue
  cases found : getRegisterDescriptor name with
  | none => rfl
  | some other =>
      have apart : r ≠ other := by
        rintro rfl
        exact ne found
      exact Register.read_write_of_ne apart c value

/-- The program counter is no other register. -/
theorem read_pc (ne : r ≠ .pc) (c : CpuContext) (pc : UInt32) :
    r.read { c with pc := pc } = r.read c :=
  Register.read_write_of_ne ne c pc

/-- A line leaves the registers that it does not write to. -/
theorem read_effect (ne : r ≠ .pc) {decoded : List String} (keeps : writes decoded ≠ some r)
    (c : CpuContext) : r.read (effect decoded c) = r.read c := by
  rw [effect, read_pc ne]
  unfold assigned
  split
  · exact read_writeRegisterValue keeps c _
  · split
    · exact read_writeRegisterValue keeps c _
    · rfl
  · split
    · exact read_writeRegisterValue keeps c _
    · rfl
  · rfl

/-- So does a part. -/
theorem Runs.keeps (runs : Runs b c trace c') (ne : r ≠ .pc) (keeps : b.Keeps r) :
    r.read c' = r.read c := by
  induction runs with
  | empty => rfl
  | line => exact read_effect ne keeps _
  | seq _ _ ih ih' => exact (ih' keeps.2).trans (ih keeps.1)
  | done _ _ ih => exact (read_pc ne ..).trans (ih keeps)
  | again _ _ _ ih ih' => exact (ih' keeps).trans ((read_pc ne ..).trans (ih keeps))
  | skipped _ => exact read_pc ne ..
  | entered _ _ ih => exact (ih keeps).trans (read_pc ne ..)

/-! ### Parts that come to an end -/

/-- The part comes to an end, from whatever registers. -/
def Total (b : Block) : Prop := ∀ c, ∃ trace c', Runs b c trace c'

theorem total_empty : Total .empty := fun _ => ⟨_, _, .empty⟩

theorem total_line (decoded : List String) : Total (.line decoded) := fun _ => ⟨_, _, .line⟩

theorem Total.seq (total : Total first) (total' : Total second) : Total (.seq first second) := by
  intro c
  obtain ⟨trace, c', leads⟩ := total c
  obtain ⟨trace', c'', leads'⟩ := total' c'
  exact ⟨_, _, .seq leads leads'⟩

theorem Total.skip (total : Total body) : Total (.skip register target body) := by
  intro c
  by_cases zero : readRegisterValue c register = 0
  · obtain ⟨trace, c', leads⟩ := total (next c)
    exact ⟨_, _, .entered zero leads⟩
  · exact ⟨_, _, .skipped zero⟩

/-! ### Where a part is executed -/

/-- The lines that a part executes are its own. -/
theorem Runs.inside (runs : Runs b c trace c') (fits : b.Fits start)
    (room : start + b.lines.length < 2 ^ 32) (at_start : c.pc.toNat = start) :
    ∀ word ∈ trace, start ≤ word.1.toNat ∧ word.1.toNat < start + b.lines.length := by
  induction runs generalizing start with
  | empty => simp
  | line => simp [Block.lines, at_start]
  | seq leads leads' ih ih' =>
      simp only [Block.lines, List.length_append] at room ⊢
      have middle := leads.pc_eq fits.1 (by omega) at_start
      intro word among
      rcases List.mem_append.mp among with before | behind
      · have := ih fits.1 (by omega) at_start word before
        omega
      · have := ih' fits.2 (by omega) middle word behind
        omega
  | done leads zero ih =>
      simp only [Block.lines, List.length_append, List.length_singleton] at room ⊢
      have middle := leads.pc_eq fits.1 (by omega) at_start
      intro word among
      rcases List.mem_append.mp among with before | test
      · have := ih fits.1 (by omega) at_start word before
        omega
      · obtain rfl := List.mem_singleton.mp test
        simp only
        omega
  | again leads nonzero rest ih ih' =>
      have room' := room
      simp only [Block.lines, List.length_append, List.length_singleton] at room ⊢
      have middle := leads.pc_eq fits.1 (by omega) at_start
      intro word among
      rcases List.mem_append.mp among with before | behind
      · have := ih fits.1 (by omega) at_start word before
        omega
      · rcases List.mem_cons.mp behind with rfl | behind
        · simp only
          omega
        · have := ih' fits room' (toNat_landed fits.2 (by omega) _) word behind
          simpa [Block.lines] using this
  | skipped nonzero => simp [Block.lines, at_start]
  | entered zero leads ih =>
      simp only [Block.lines, List.length_cons] at room ⊢
      intro word among
      rcases List.mem_cons.mp among with rfl | behind
      · simp only
        omega
      · have := ih fits.2 (by omega) (toNat_next at_start (by omega)) word behind
        omega

/-! ### Counting -/

/-- How many values a register has. -/
def width (r : Register) : ℕ := if r.fieldSize = 1 then 2 ^ 8 else 2 ^ 32

def value (r : Register) (c : CpuContext) : ℕ := (r.read c).toNat

/-- The rounds of a loop that counts in this register. -/
def rounds (r : Register) (c : CpuContext) : ℕ := if value r c = 0 then width r else value r c

/-- Wherever it starts from, the part comes to an end and takes one from the register. -/
def Counts (r : Register) (body : Block) : Prop :=
  ∀ c, ∃ trace c', Runs body c trace c' ∧ value r c' = (value r c + (width r - 1)) % width r

theorem value_lt_width (r : Register) (c : CpuContext) : value r c < width r := by
  have byte (x : UInt8) : x.toUInt32.toNat < 2 ^ 8 := by
    rw [UInt8.toNat_toUInt32]
    exact x.toNat_lt
  have word (x : UInt32) : x.toNat < 2 ^ 32 := x.toNat_lt
  cases r <;> first | exact byte _ | exact word _

/-- The jump of a loop, among the lines that have been executed. -/
def atLine (line : ℕ) (word : Word) : Bool := word.1.toNat == line

/-- The lines of a part are not those behind it or before it. -/
theorem Runs.countP_atLine (runs : Runs b c trace c') (fits : b.Fits start)
    (room : start + b.lines.length < 2 ^ 32) (at_start : c.pc.toNat = start) (line : ℕ)
    (outside : line < start ∨ start + b.lines.length ≤ line) :
    trace.countP (atLine line) = 0 := by
  refine List.countP_eq_zero.mpr fun word among here => ?_
  have inside := runs.inside fits room at_start word among
  have eq : word.1.toNat = line := by simpa [atLine] using here
  omega

/-- The rounds that are left after the first one. -/
theorem rounds_eq (less : value r c' = (value r c + (width r - 1)) % width r) :
    rounds r c = value r c' + 1 := by
  have wide := value_lt_width r c
  unfold rounds
  split
  · rename_i nothing
    rw [less, nothing, Nat.zero_add, Nat.mod_eq_of_lt (by omega)]
    omega
  · have small : value r c + (width r - 1) = value r c - 1 + width r := by omega
    rw [less, small, Nat.add_mod_right, Nat.mod_eq_of_lt (by omega)]
    omega

theorem readRegisterValue_eq_zero (named : getRegisterDescriptor register = some r)
    (c : CpuContext) : readRegisterValue c register = 0 ↔ value r c = 0 := by
  simp [readRegisterValue, named, value, ← UInt32.toNat_inj]

/-- What a loop does in so many rounds. -/
inductive Unrolls (body : Block) (register target : String) :
    ℕ → CpuContext → List Word → CpuContext → Prop where
  | last {c c' : CpuContext} {trace : List Word} :
      Runs body c trace c' → readRegisterValue c' register = 0 →
        Unrolls body register target 1 c (trace ++ [(c'.pc, jnz register target)]) (next c')
  | more {n : ℕ} {c c' c'' : CpuContext} {trace trace' : List Word} :
      Runs body c trace c' → readRegisterValue c' register ≠ 0 →
        Unrolls body register target n (landed target c') trace' c'' →
          Unrolls body register target (n + 1) c
            (trace ++ (c'.pc, jnz register target) :: trace') c''

theorem Unrolls.runs {n : ℕ} (unrolls : Unrolls body register target n c trace c') :
    Runs (.loop body register target) c trace c' := by
  induction unrolls with
  | last leads zero => exact .done leads zero
  | more leads nonzero _ ih => exact .again leads nonzero ih

/-- The jump of a loop is executed once in every round. -/
theorem Unrolls.countP_atLine {n : ℕ} (unrolls : Unrolls body register target n c trace c')
    (fits : (Block.loop body register target).Fits start)
    (room : start + (Block.loop body register target).lines.length < 2 ^ 32)
    (at_start : c.pc.toNat = start) :
    trace.countP (atLine (start + body.lines.length)) = n := by
  have short : start + body.lines.length + 1 < 2 ^ 32 := by
    simpa [Block.lines, Nat.add_assoc] using room
  induction unrolls with
  | last leads zero =>
      have middle := leads.pc_eq fits.1 (by omega) at_start
      have none := leads.countP_atLine fits.1 (by omega) at_start _ (.inr (Nat.le_refl _))
      rw [List.countP_append, none, List.countP_singleton, if_pos (by simp [atLine, middle])]
  | more leads nonzero rest ih =>
      have middle := leads.pc_eq fits.1 (by omega) at_start
      have none := leads.countP_atLine fits.1 (by omega) at_start _ (.inr (Nat.le_refl _))
      rw [List.countP_append, none, List.countP_cons, if_pos (by simp [atLine, middle]),
        ih (toNat_landed fits.2 (by omega) _), Nat.zero_add]

/-- **The rule for loops that count**: one round for each value on the way to zero. The induction
is on the rounds that are left. -/
theorem Counts.unrolls (counts : Counts r body) (named : getRegisterDescriptor register = some r)
    (ne : r ≠ .pc) (c : CpuContext) :
    ∃ trace c', Unrolls body register target (rounds r c) c trace c' := by
  generalize left : rounds r c = n
  induction n generalizing c with
  | zero =>
      obtain ⟨-, c', -, less⟩ := counts c
      rw [rounds_eq less] at left
      cases left
  | succ n ih =>
      obtain ⟨trace, c', leads, less⟩ := counts c
      have fewer : value r c' = n := Nat.succ.inj ((rounds_eq less).symm.trans left)
      by_cases zero : readRegisterValue c' register = 0
      · have done : n = 0 := by
          rwa [readRegisterValue_eq_zero named, fewer] at zero
        rw [done]
        exact ⟨_, _, .last leads zero⟩
      · have again : rounds r (landed target c') = n := by
          have same : value r (landed target c') = value r c' :=
            congrArg UInt32.toNat (read_pc ne c' _)
          rw [readRegisterValue_eq_zero named] at zero
          rw [rounds, same, if_neg zero, fewer]
        obtain ⟨trace', c'', rest⟩ := ih _ again
        exact ⟨_, _, .more leads zero rest⟩

/-- A loop that counts comes to an end. -/
theorem Counts.total (counts : Counts r body) (named : getRegisterDescriptor register = some r)
    (ne : r ≠ .pc) : Total (.loop body register target) := by
  intro c
  obtain ⟨trace, c', unrolls⟩ := counts.unrolls named ne c
  exact ⟨trace, c', unrolls.runs⟩

/-- **The bodies of the scripts count**: one is written to a register, and then subtracted. -/
theorem counts_sub {name unit one : String} (named : getRegisterDescriptor name = some r)
    (other : getRegisterDescriptor unit = some u) (ne : r ≠ .pc) (ne' : u ≠ .pc) (apart : u ≠ r)
    (isOne : uint32OfInt (atoi one) = 1) (total : Total first) (total' : Total second)
    (keeps : first.Keeps r) (keeps' : second.Keeps r) (kept : second.Keeps u) :
    Counts r
      (.seq first (.seq (.line ["SET", unit, one]) (.seq second (.line ["SUB", name, unit])))) := by
  intro c
  obtain ⟨trace, c', leads⟩ := total c
  obtain ⟨trace', c'', leads'⟩ := total' (effect ["SET", unit, one] c')
  refine ⟨_, _, .seq leads (.seq .line (.seq leads' .line)), ?_⟩
  have counter : r.read c'' = r.read c := by
    have set : r.read (effect ["SET", unit, one] c') = r.read c' :=
      read_effect ne (by simp [writes, other, apart]) c'
    rw [leads'.keeps ne keeps', set, leads.keeps ne keeps]
  have step : u.read c'' = 1 := by
    rw [leads'.keeps ne' kept, effect, read_pc ne']
    simp only [assigned, writeRegisterValue, other, isOne, Register.read_write]
    split <;> rfl
  have result : r.read (effect ["SUB", name, unit] c'') =
      if r.fieldSize = 1 then (r.read c - 1).toUInt8.toUInt32 else r.read c - 1 := by
    rw [effect, read_pc ne]
    simp [assigned, checkIfRegister, other, readRegisterValue, writeRegisterValue, named, counter,
      step, Register.read_write]
  rw [value, result, value, width]
  split
  · rw [UInt8.toNat_toUInt32, UInt32.toNat_toUInt8, UInt32.toNat_sub]
    have small := value_lt_width r c
    rw [value, width, if_pos ‹_›] at small
    simp only [UInt32.toNat_one]
    omega
  · rw [UInt32.toNat_sub]
    simp only [UInt32.toNat_one]
    omega

/-! ### Scripts with a loop that counts -/

variable {decode : String → List String} {pid : UInt32} {memory : State} {pcb : Pcb}
  {before behind : Block}

/-- How often a script executes the jump of its loop. -/
theorem countP_whole (script : Script decode pcb)
    (shape : script.block = .seq before (.seq (.loop body register target) behind))
    (named : getRegisterDescriptor register = some r) (ne : r ≠ .pc)
    (leads : Runs before pcb.context trace c) (counts : Counts r body) (total : Total behind) :
    ∃ trace' c', Runs script.block pcb.context trace' c' ∧
      (whole trace' c').countP (atLine (before.lines.length + body.lines.length)) =
        rounds r c := by
  have fits := script.fits
  have small := script.small
  rw [shape] at fits small ⊢
  obtain ⟨fitsBefore, fitsLoop, fitsBehind⟩ := fits
  simp only [Block.lines, List.length_append, List.length_singleton] at small
  rw [Nat.zero_add] at fitsLoop fitsBehind
  obtain ⟨trace', c', unrolls⟩ := counts.unrolls named ne c
  obtain ⟨trace'', c'', rest⟩ := total c'
  have room : before.lines.length + (Block.loop body register target).lines.length < 2 ^ 32 := by
    simp only [Block.lines, List.length_append, List.length_singleton]
    omega
  have at_loop := leads.pc_eq fitsBefore (by omega) script.at_start
  rw [Nat.zero_add] at at_loop
  have at_behind := unrolls.runs.pc_eq fitsLoop room at_loop
  have room' : before.lines.length + (Block.loop body register target).lines.length +
      behind.lines.length + 1 < 2 ^ 32 := by
    simp only [Block.lines, List.length_append, List.length_singleton]
    omega
  have at_end := rest.pc_eq fitsBehind (by omega) at_behind
  have loop : (Block.loop body register target).lines.length = body.lines.length + 1 := by
    simp [Block.lines]
  refine ⟨_, _, .seq leads (.seq unrolls.runs rest), ?_⟩
  have first := leads.countP_atLine fitsBefore (by omega) script.at_start
    (before.lines.length + body.lines.length) (.inr (by omega))
  have last := rest.countP_atLine fitsBehind (by omega) at_behind
    (before.lines.length + body.lines.length) (.inl (by omega))
  have ended : atLine (before.lines.length + body.lines.length) (c''.pc, exit) = false := by
    simp [atLine, at_end, loop]
    omega
  rw [whole, List.countP_append, List.countP_append, List.countP_append, first, last,
    unrolls.countP_atLine fitsLoop room at_loop, List.countP_singleton, ended]
  simp

/-- **A loop that counts is gone through as often as it should be**, in whatever slices the
process is executed: never more often, and exactly as often when the process ends; and the
process can be executed to its end, with interruptions pending where one likes. -/
theorem rounds_in_slices (segmentMaxSize : UInt32) (found : findPcb memory pid = some pcb)
    (script : Script decode pcb)
    (shape : script.block = .seq before (.seq (.loop body register target) behind))
    (named : getRegisterDescriptor register = some r) (ne : r ≠ .pc)
    (leads : Runs before pcb.context trace c) (counts : Counts r body) (total : Total behind) :
    (∀ as s, Lib.Run (step decode pid) (fun _ _ => True) (initial segmentMaxSize memory) as s →
      (s.executed.map Executed.word).countP (atLine (before.lines.length + body.lines.length)) ≤
          rounds r c ∧
        (s.exited = true →
          (s.executed.map Executed.word).countP
            (atLine (before.lines.length + body.lines.length)) = rounds r c)) ∧
      ∀ pending, ∃ as s,
        Lib.Run (step decode pid) (fun _ _ => True) (initial segmentMaxSize memory) as s ∧
          s.exited = true ∧
            s.executed.map Executed.interrupt = (List.range s.executed.length).map pending := by
  obtain ⟨trace', c', runs, count⟩ := countP_whole script shape named ne leads counts total
  refine ⟨fun as s run => ?_, script.exits found segmentMaxSize runs⟩
  rcases script.progress found segmentMaxSize runs run with
    ⟨going, before, -⟩ | ⟨-, executed, -⟩
  · refine ⟨count ▸ before.sublist.countP_le, fun exited => ?_⟩
    rw [going] at exited
    cases exited
  · rw [executed, count]
    exact ⟨Nat.le_refl _, fun _ => rfl⟩

/-- A process of `scripts/PHP_1.prc`. -/
def php1 : Pcb :=
  ⟨1, .zero, ["NOOP", "MUTEX_LOCK MUTEX_1", "SET AX 20", "SET BX 1", "NOOP", "NOOP",
    "SLEEP 1000", "NOOP", "NOOP", "SUB AX BX", "JNZ AX 3", "MUTEX_UNLOCK MUTEX_1", "EXIT"], []⟩

/-- What `scripts/PHP_1.prc` does in a round before it counts. -/
def php1Work : Block :=
  .seq (.line ["NOOP"]) (.seq (.line ["NOOP"]) (.seq (.line ["SLEEP", "1000"])
    (.seq (.line ["NOOP"]) (.line ["NOOP"]))))

def php1Round : Block :=
  .seq .empty (.seq (.line ["SET", "BX", "1"]) (.seq php1Work (.line ["SUB", "AX", "BX"])))

/-- `scripts/PHP_1.prc`. -/
def php1Script : Script decodeInstruction php1 where
  block :=
    .seq (.seq (.line ["NOOP"]) (.seq (.line ["MUTEX_LOCK", "MUTEX_1"])
        (.line ["SET", "AX", "20"])))
      (.seq (.loop php1Round "AX" "3") (.line ["MUTEX_UNLOCK", "MUTEX_1"]))
  program := by decide +kernel
  fits := by decide +kernel
  small := by decide +kernel
  fresh := rfl

/-- It sleeps, and counts, twenty times. -/
theorem rounds_in_slices_php1 :
    ∃ as s, Lib.Run (step decodeInstruction 1) (fun _ _ => True) (initial 16 (memoryOf php1)) as s ∧
      s.exited = true ∧ (s.executed.map Executed.word).countP (atLine 10) = 20 := by
  have work : Total php1Work :=
    (total_line _).seq ((total_line _).seq ((total_line _).seq ((total_line _).seq (total_line _))))
  have counts : Counts .ax php1Round :=
    counts_sub (u := .bx) (by decide +kernel) (by decide +kernel) (by decide) (by decide)
      (by decide) (by decide +kernel) total_empty work trivial
      (by simp [php1Work, Block.Keeps, writes]) (by simp [php1Work, Block.Keeps, writes])
  have found : findPcb (memoryOf php1) 1 = some php1 := rfl
  obtain ⟨progress, exits⟩ := rounds_in_slices 16 found php1Script rfl
    (by decide +kernel) (by decide) (.seq .line (.seq .line .line)) counts (total_line _)
  obtain ⟨as, s, run, exited, -⟩ := exits fun _ => none
  refine ⟨as, s, run, exited, ((progress as s run).2 exited).trans ?_⟩
  decide +kernel

end OsModel.Scripts
