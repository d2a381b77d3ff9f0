import OsModel.Cpu.PlainLines
import OsModel.Lib.Interference
import OsModel.System.SliceSchedules

/-!
Programs with loops (`scripts/*.prc`), and what the CPU makes of them.

A program is a list of lines, and its loops are a `JNZ` back to their first line. `Block` is such
a part of a program: plain lines, one part after another, a loop, and a part that a `JNZ` jumps
over. `Block.Runs` says what a part does from given registers, without a program counter that
goes about: it is the meaning of the part, to be compared with that of the CPU.

* `Runs.sound`: from its first line the CPU executes the part as it should, whatever the rest of
  the system does meanwhile.
* `Block.terminates`: it comes to an end only if the part does.
* `script_in_slices`: so does a process, in whatever slices it is executed.
-/

namespace OsModel.Scripts

open Lib KernelMemory Cpu Slices

/-! ### Parts of programs -/

/-- A part of a program. -/
inductive Block where
  | empty
  | line (decoded : List String)
  | seq (first second : Block)
  /-- `body`, and again while the register is not zero. -/
  | loop (body : Block) (register target : String)
  /-- `body`, if the register is zero. -/
  | skip (register target : String) (body : Block)
  deriving DecidableEq, Repr

/-- The words of a jump. -/
def jnz (register target : String) : List String := ["JNZ", register, target]

namespace Block

def lines : Block → List (List String)
  | .empty => []
  | .line decoded => [decoded]
  | .seq first second => first.lines ++ second.lines
  | .loop body register target => body.lines ++ [jnz register target]
  | .skip register target body => jnz register target :: body.lines

/-- The operands of a jump to a line. The first line cannot be jumped to. -/
def Jumps (register target : String) (line : ℕ) : Prop :=
  checkIfRegister register = true ∧ 0 < line ∧ atoi target = line

instance (register target : String) (line : ℕ) : Decidable (Jumps register target line) := by
  unfold Jumps
  infer_instance

/-- The part may begin at this line: its lines are plain, and its jumps lead where they should. -/
def Fits : Block → ℕ → Prop
  | .empty, _ => True
  | .line decoded, _ => Plain decoded
  | .seq first second, start => first.Fits start ∧ second.Fits (start + first.lines.length)
  | .loop body register target, start => body.Fits start ∧ Jumps register target start
  | .skip register target body, start =>
      Jumps register target (start + 1 + body.lines.length) ∧ body.Fits (start + 1)

instance instDecidableFits : (b : Block) → (start : ℕ) → Decidable (b.Fits start)
  | .empty, _ => .isTrue trivial
  | .line decoded, _ => inferInstanceAs (Decidable (Plain decoded))
  | .seq first second, start =>
      have := instDecidableFits first start
      have := instDecidableFits second (start + first.lines.length)
      inferInstanceAs (Decidable (_ ∧ _))
  | .loop body _ _, start =>
      have := instDecidableFits body start
      inferInstanceAs (Decidable (_ ∧ _))
  | .skip _ _ body, start =>
      have := instDecidableFits body (start + 1)
      inferInstanceAs (Decidable (_ ∧ _))

end Block

/-- A line that has been executed, and where it was. -/
abbrev Word := UInt32 × List String

def next (context : CpuContext) : CpuContext := { context with pc := context.pc + 1 }

/-- The line that a jump leads to. -/
def landed (target : String) (context : CpuContext) : CpuContext :=
  { context with pc := uint32OfInt (atoi target) }

/-- What a part does: the lines that are executed from these registers, and the registers that
they leave. -/
inductive Runs : Block → CpuContext → List Word → CpuContext → Prop where
  | empty {c : CpuContext} : Runs .empty c [] c
  | line {decoded : List String} {c : CpuContext} :
      Runs (.line decoded) c [(c.pc, decoded)] (effect decoded c)
  | seq {first second : Block} {c c' c'' : CpuContext} {trace trace' : List Word} :
      Runs first c trace c' → Runs second c' trace' c'' →
        Runs (.seq first second) c (trace ++ trace') c''
  | done {body : Block} {register target : String} {c c' : CpuContext} {trace : List Word} :
      Runs body c trace c' → readRegisterValue c' register = 0 →
        Runs (.loop body register target) c (trace ++ [(c'.pc, jnz register target)]) (next c')
  | again {body : Block} {register target : String} {c c' c'' : CpuContext}
      {trace trace' : List Word} :
      Runs body c trace c' → readRegisterValue c' register ≠ 0 →
        Runs (.loop body register target) (landed target c') trace' c'' →
          Runs (.loop body register target) c
            (trace ++ (c'.pc, jnz register target) :: trace') c''
  | skipped {register target : String} {body : Block} {c : CpuContext} :
      readRegisterValue c register ≠ 0 →
        Runs (.skip register target body) c [(c.pc, jnz register target)] (landed target c)
  | entered {register target : String} {body : Block} {c c' : CpuContext} {trace : List Word} :
      readRegisterValue c register = 0 → Runs body (next c) trace c' →
        Runs (.skip register target body) c ((c.pc, jnz register target) :: trace) c'

/-! ### The process among the rest of the system -/

section Process

variable (decode : String → List String) (pid : UInt32)

/-- The next instruction. -/
def act (u : Uninterrupted) : Option Uninterrupted := uninterrupted decode pid u .instruction

/-- The rest of the system leaves the program. -/
def Others (u v : Uninterrupted) : Prop :=
  (findPcb v.memory pid).map Pcb.instructions = (findPcb u.memory pid).map Pcb.instructions ∧
    v = { u with memory := v.memory }

/-- The step is one of the process. -/
def own : Visible pid → Bool
  | .instruction => true
  | .elsewhere _ => false

theorem interleaves : Interleaves (uninterrupted decode pid) (own pid) (act decode pid)
    (Others pid) where
  acts {u b} mine := by
    cases b with
    | instruction => rfl
    | elsewhere world => cases mine
  others {u b v} other taken := by
    cases b with
    | instruction => cases other
    | elsewhere world =>
        obtain rfl := Option.some.inj taken
        exact ⟨world.program u.memory, rfl⟩
  refl u := ⟨rfl, rfl⟩
  trans {u v w} first second := by
    refine ⟨second.1.trans first.1, second.2.trans ?_⟩
    rw [first.2]

/-- The process has these lines, and is between two instructions. -/
structure Loaded (lines : List (List String)) (u : Uninterrupted) : Prop where
  calm : u.cpu.Calm
  program : ((findPcb u.memory pid).map Pcb.instructions).map (List.map decode) = some lines

/-- The process has executed these lines since, and has come to its end or not. -/
structure Executes (u : Uninterrupted) (trace : List Word) (context : CpuContext) (ends : Bool)
    (v : Uninterrupted) : Prop where
  goes : v.exited = ends
  context : v.cpu.context = context
  executed : v.executed = u.executed ++ trace
  syscalls : v.cpu.syscalls = u.cpu.syscalls ++ trace.flatMap fun word => calls pid word.2

end Process

variable {decode : String → List String} {pid : UInt32} {lines : List (List String)}
  {u v w : Uninterrupted}

theorem Loaded.others (loaded : Loaded decode pid lines u) (others : Others pid u v) :
    Loaded decode pid lines v := by
  obtain ⟨program, same⟩ := others
  refine ⟨?_, by rw [program, loaded.program]⟩
  rw [same]
  exact loaded.calm

theorem Executes.trans {trace trace' : List Word} {context context' : CpuContext}
    {ends ends' : Bool} (first : Executes pid u trace context ends v)
    (second : Executes pid v trace' context' ends' w) :
    Executes pid u (trace ++ trace') context' ends' w where
  goes := second.goes
  context := second.context
  executed := by rw [second.executed, first.executed, List.append_assoc]
  syscalls := by rw [second.syscalls, first.syscalls, List.flatMap_append, List.append_assoc]

/-- One line is executed. -/
theorem Loaded.step (loaded : Loaded decode pid lines u) (goes : u.exited = false)
    {decoded : List String} (fetched : lines[u.cpu.context.pc.toNat]? = some decoded)
    {context : CpuContext} {ends : Bool}
    (executes : ∀ cpu : Execution, cpu.Calm → cpu.context = u.cpu.context → ∀ args,
      ∃ cpu', executeInstruction decoded cpu args = some cpu' ∧
        (Threads.advance cpu').context = context ∧ cpu'.shouldExit = ends ∧
          cpu'.syscalls = cpu.syscalls ++ calls args.pid decoded) :
    After (act decode pid) (Others pid)
      (fun v => Loaded decode pid lines v ∧
        Executes pid u [(u.cpu.context.pc, decoded)] context ends v) 1 u := by
  intro v others
  have there := loaded.others others
  have same := others.2
  have cpu : v.cpu = u.cpu := by rw [same]
  have context : v.cpu.context = u.cpu.context := by rw [cpu]
  obtain ⟨instructions, program, decoding⟩ := Option.map_eq_some_iff.mp there.program
  obtain ⟨pcb, found, rfl⟩ := Option.map_eq_some_iff.mp program
  rw [← decoding, List.getElem?_map] at fetched
  obtain ⟨instruction, at_pc, rfl⟩ := Option.map_eq_some_iff.mp fetched
  have calm : ({ v.cpu with devices := v.memory.devices } : Execution).Calm :=
    ⟨there.calm.hasJumped, there.calm.shouldExit, there.calm.shouldStop, there.calm.contexts⟩
  obtain ⟨cpu', executed, after, stays, asked⟩ :=
    executes { v.cpu with devices := v.memory.devices } calm context
      ⟨pid, pcb.segmentTable.map HeapSegment.toSegment⟩
  have running : v.exited = false := by rw [same, ← goes]
  have fetch : instructionFetch v.memory pid v.cpu.context.pc = some instruction := by
    rw [instructionFetch, found, cpu]
    exact at_pc
  have sought : Machine.table v.memory pid = some (pcb.segmentTable.map HeapSegment.toSegment) := by
    rw [Machine.table, contextSeek, found]
    rfl
  refine ⟨v.after (decode instruction) cpu', ?_, ?_, ?_⟩
  · simp [act, uninterrupted, running, sought, fetch, executed]
  · exact ⟨⟨advance_hasJumped cpu', rfl, rfl, rfl⟩, there.program⟩
  · refine ⟨stays, after, ?_, ?_⟩
    · rw [Uninterrupted.after, cpu, same]
    · have silent : (Threads.advance cpu').syscalls = cpu'.syscalls := by
        unfold Threads.advance
        split <;> rfl
      rw [Uninterrupted.after]
      simp [silent, asked, cpu]

/-! ### The CPU executes a part as it should -/

/-- A plain line. -/
theorem Loaded.line (loaded : Loaded decode pid lines u) (goes : u.exited = false)
    {decoded : List String} (fetched : lines[u.cpu.context.pc.toNat]? = some decoded)
    (plain : Plain decoded) :
    After (act decode pid) (Others pid)
      (fun v => Loaded decode pid lines v ∧
        Executes pid u [(u.cpu.context.pc, decoded)] (effect decoded u.cpu.context) false v)
      1 u := by
  refine loaded.step goes fetched fun cpu calm same args => ?_
  obtain ⟨cpu', executed, follows⟩ := plain.executed calm args
  exact ⟨cpu', executed, same ▸ follows.context, follows.shouldExit, follows.syscalls⟩

/-- A jump, or what is no jump since the register is zero. -/
theorem Loaded.jump (loaded : Loaded decode pid lines u) (goes : u.exited = false)
    {register target : String} {line : ℕ}
    (fetched : lines[u.cpu.context.pc.toNat]? = some (jnz register target))
    (jumps : Block.Jumps register target line) :
    After (act decode pid) (Others pid)
      (fun v => Loaded decode pid lines v ∧
        Executes pid u [(u.cpu.context.pc, jnz register target)]
          (if readRegisterValue u.cpu.context register = 0 then next u.cpu.context
            else landed target u.cpu.context) false v) 1 u := by
  obtain ⟨known, positive, number⟩ := jumps
  have lands : ¬ atoi target ≤ 0 := by omega
  refine loaded.step goes fetched fun cpu calm same args => ?_
  rw [← same]
  by_cases zero : readRegisterValue cpu.context register = 0
  · refine ⟨cpu, ?_, ?_, calm.shouldExit, (List.append_nil _).symm⟩
    · simp [executeInstruction, jnz, instructionJnz, known, zero]
    · simp [Threads.advance, calm.hasJumped, zero, next]
  · refine ⟨{ cpu with
      context := landed target cpu.context
      hasJumped := true }, ?_, ?_, calm.shouldExit, (List.append_nil _).symm⟩
    · simp [executeInstruction, jnz, instructionJnz, known, zero, lands, landed]
    · simp [Threads.advance, zero]

/-- The lines of a part are there, from this line on. -/
def Installed (b : Block) (start : ℕ) (lines : List (List String)) : Prop :=
  ∃ before behind, lines = before ++ b.lines ++ behind ∧ before.length = start

namespace Installed

variable {a b : Block} {start : ℕ} {register target : String}

theorem bound (installed : Installed b start lines) : start + b.lines.length ≤ lines.length := by
  obtain ⟨before, behind, rfl, rfl⟩ := installed
  simp

theorem first (installed : Installed (.seq a b) start lines) : Installed a start lines := by
  obtain ⟨before, behind, rfl, rfl⟩ := installed
  exact ⟨before, b.lines ++ behind, by simp [Block.lines], rfl⟩

theorem second (installed : Installed (.seq a b) start lines) :
    Installed b (start + a.lines.length) lines := by
  obtain ⟨before, behind, rfl, rfl⟩ := installed
  exact ⟨before ++ a.lines, behind, by simp [Block.lines], List.length_append⟩

theorem body (installed : Installed (.loop a register target) start lines) :
    Installed a start lines := by
  obtain ⟨before, behind, rfl, rfl⟩ := installed
  exact ⟨before, jnz register target :: behind, by simp [Block.lines], rfl⟩

theorem test (installed : Installed (.loop a register target) start lines) :
    lines[start + a.lines.length]? = some (jnz register target) := by
  obtain ⟨before, behind, rfl, rfl⟩ := installed
  simp [Block.lines]

theorem guard (installed : Installed (.skip register target a) start lines) :
    lines[start]? = some (jnz register target) := by
  obtain ⟨before, behind, rfl, rfl⟩ := installed
  simp [Block.lines]

theorem guarded (installed : Installed (.skip register target a) start lines) :
    Installed a (start + 1) lines := by
  obtain ⟨before, behind, rfl, rfl⟩ := installed
  exact ⟨before ++ [jnz register target], behind, by simp [Block.lines], by simp⟩

theorem only {decoded : List String} (installed : Installed (.line decoded) start lines) :
    lines[start]? = some decoded := by
  obtain ⟨before, behind, rfl, rfl⟩ := installed
  simp [Block.lines]

end Installed

/-- The next line, in numbers. -/
theorem toNat_next {pc : UInt32} {start : ℕ} (at_start : pc.toNat = start)
    (room : start + 1 < 2 ^ 32) : (pc + 1).toNat = start + 1 := by
  rw [UInt32.toNat_add, at_start]
  exact Nat.mod_eq_of_lt room

/-- The line that is jumped to, in numbers. -/
theorem toNat_landed {register target : String} {line : ℕ}
    (jumps : Block.Jumps register target line) (room : line < 2 ^ 32) (context : CpuContext) : (landed target context).pc.toNat = line := by
  have number : ((line : Int) % 2 ^ 32).toNat = line := by omega
  rw [landed, uint32OfInt, jumps.2.2, UInt32.ofInt, number, UInt32.toNat_ofNat_of_lt' room]

variable {b : Block} {c c' : CpuContext} {trace : List Word} {start : ℕ}

/-- A part ends behind its last line. -/
theorem Runs.pc_eq (runs : Runs b c trace c') (fits : b.Fits start)
    (room : start + b.lines.length < 2 ^ 32) (at_start : c.pc.toNat = start) :
    c'.pc.toNat = start + b.lines.length := by
  induction runs generalizing start with
  | empty => exact at_start
  | line => exact toNat_next at_start room
  | seq first second ih ih' =>
      simp only [Block.lines, List.length_append] at room ⊢
      have middle := ih fits.1 (by omega) at_start
      rw [ih' fits.2 (by omega) middle, Nat.add_assoc]
  | done leads zero ih =>
      simp only [Block.lines, List.length_append, List.length_singleton] at room ⊢
      exact toNat_next (ih fits.1 (by omega) at_start) (by omega)
  | again leads again rest ih ih' =>
      exact ih' fits room (toNat_landed fits.2 (by omega) _)
  | skipped nonzero =>
      simp only [Block.lines, List.length_cons] at room ⊢
      rw [toNat_landed fits.1 (by omega)]
      omega
  | entered zero leads ih =>
      simp only [Block.lines, List.length_cons] at room ⊢
      rw [ih fits.2 (by omega) (toNat_next at_start (by omega))]
      omega

/-- **A part is executed as it should**, whatever the rest of the system does meanwhile. -/
theorem Runs.sound (runs : Runs b c trace c') (small : lines.length < 2 ^ 32)
    (fits : b.Fits start) (installed : Installed b start lines)
    (loaded : Loaded decode pid lines u) (goes : u.exited = false) (context : u.cpu.context = c)
    (at_start : c.pc.toNat = start) :
    After (act decode pid) (Others pid)
      (fun v => Loaded decode pid lines v ∧ Executes pid u trace c' false v) trace.length u := by
  have room := installed.bound
  induction runs generalizing start u with
  | empty =>
      exact ⟨loaded, goes, context, (List.append_nil _).symm, (List.append_nil _).symm⟩
  | line =>
      subst context
      exact loaded.line goes (by rw [at_start]; exact installed.only) fits
  | seq first second ih ih' =>
      have inside := installed.first.bound
      have middle := first.pc_eq fits.1 (by omega) at_start
      rw [List.length_append]
      refine (ih fits.1 installed.first loaded goes context at_start inside).trans ?_
      rintro v ⟨loaded', executes⟩
      have inside' := installed.second.bound
      refine (ih' fits.2 installed.second loaded' executes.goes executes.context middle
        inside').mono ?_
      rintro w ⟨loaded'', executes'⟩
      exact ⟨loaded'', executes.trans executes'⟩
  | done leads zero ih =>
      have inside := installed.body.bound
      have middle := leads.pc_eq fits.1 (by omega) at_start
      rw [List.length_append]
      refine (ih fits.1 installed.body loaded goes context at_start inside).trans ?_
      rintro v ⟨loaded', executes⟩
      have test := loaded'.jump executes.goes
        (by rw [executes.context, middle]; exact installed.test) fits.2
      rw [executes.context, if_pos zero] at test
      refine test.mono ?_
      rintro w ⟨loaded'', executes'⟩
      exact ⟨loaded'', executes.trans executes'⟩
  | again leads nonzero rest ih ih' =>
      have inside := installed.body.bound
      have middle := leads.pc_eq fits.1 (by omega) at_start
      rw [List.length_append, List.length_cons, Nat.add_comm (List.length _) 1]
      refine (ih fits.1 installed.body loaded goes context at_start inside).trans ?_
      rintro v ⟨loaded', executes⟩
      have test := loaded'.jump executes.goes
        (by rw [executes.context, middle]; exact installed.test) fits.2
      rw [executes.context, if_neg nonzero] at test
      refine test.trans ?_
      rintro w ⟨loaded'', executes'⟩
      refine (ih' fits installed loaded'' executes'.goes executes'.context
        (toNat_landed fits.2 (by omega) _) room).mono ?_
      rintro x ⟨still, executes''⟩
      exact ⟨still, executes.trans (executes'.trans executes'')⟩
  | skipped nonzero =>
      subst context
      have test := loaded.jump goes (by rw [at_start]; exact installed.guard) fits.1
      rwa [if_neg nonzero] at test
  | entered zero leads ih =>
      subst context
      have test := loaded.jump goes (by rw [at_start]; exact installed.guard) fits.1
      rw [if_pos zero] at test
      rw [List.length_cons, Nat.add_comm]
      refine test.trans ?_
      rintro v ⟨loaded', executes⟩
      have inside := installed.guarded.bound
      have inner := toNat_next at_start (by omega)
      refine (ih fits.2 installed.guarded loaded' executes.goes executes.context inner
        inside).mono ?_
      rintro w ⟨loaded'', executes'⟩
      exact ⟨loaded'', executes.trans executes'⟩

/-! ### The CPU comes to an end only if the part does -/

/-- The process can end within `n` instructions. -/
def Ends (decode : String → List String) (pid : UInt32) (n : ℕ) (u : Uninterrupted) : Prop :=
  ∃ bs v, Lib.Run (uninterrupted decode pid) (fun _ _ => True) u bs v ∧ v.exited = true ∧
    bs.countP (own pid) ≤ n

/-- A process that ends has been where its instructions lead to. -/
theorem Ends.reach {n k : ℕ} {Q : Uninterrupted → Prop} (ends : Ends decode pid n u)
    (after : After (act decode pid) (Others pid) Q k u) :
    ∃ v m, Q v ∧ m + k ≤ n ∧ Ends decode pid m v := by
  obtain ⟨bs, v, run, exited, bound⟩ := ends
  rcases after.reached (interleaves decode pid) run with
    ⟨left, -, later⟩ | ⟨first, rest, w, rfl, -, further, count, there⟩
  · obtain ⟨v', taken, -⟩ := later v ⟨rfl, rfl⟩
    simp [act, uninterrupted, exited] at taken
  · refine ⟨w, rest.countP (own pid), there, ?_, rest, v, further, exited, Nat.le_refl _⟩
    rw [List.countP_append, count] at bound
    omega

/-- **A process ends only if its part does.** The induction is on the part, and for a loop on the
number of instructions that are left. -/
theorem Block.terminates (small : lines.length < 2 ^ 32) (fits : b.Fits start)
    (installed : Installed b start lines) (loaded : Loaded decode pid lines u)
    (goes : u.exited = false) (at_start : u.cpu.context.pc.toNat = start) {n : ℕ}
    (ends : Ends decode pid n u) : ∃ trace c', Runs b u.cpu.context trace c' := by
  have room := installed.bound
  induction b generalizing start u n with
  | empty => exact ⟨_, _, .empty⟩
  | line decoded => exact ⟨_, _, .line⟩
  | seq first second ih ih' =>
      have inside := installed.first.bound
      obtain ⟨trace, c', leads⟩ := ih fits.1 installed.first loaded goes at_start ends inside
      have after := leads.sound small fits.1 installed.first loaded goes rfl at_start
      obtain ⟨v, m, ⟨loaded', executes⟩, -, ends'⟩ := ends.reach after
      have middle := leads.pc_eq fits.1 (by omega) at_start
      rw [← executes.context] at middle
      have inside' := installed.second.bound
      obtain ⟨trace', c'', leads'⟩ :=
        ih' fits.2 installed.second loaded' executes.goes middle ends' inside'
      rw [executes.context] at leads'
      exact ⟨_, _, .seq leads leads'⟩
  | loop body register target ih =>
      induction n using Nat.strong_induction_on generalizing u with
      | _ n again =>
          have inside := installed.body.bound
          obtain ⟨trace, c', leads⟩ := ih fits.1 installed.body loaded goes at_start ends inside
          have after := leads.sound small fits.1 installed.body loaded goes rfl at_start
          obtain ⟨v, m, ⟨loaded', executes⟩, fewer, ends'⟩ := ends.reach after
          have middle := leads.pc_eq fits.1 (by omega) at_start
          by_cases zero : readRegisterValue c' register = 0
          · exact ⟨_, _, .done leads zero⟩
          · have test := loaded'.jump executes.goes
              (by rw [executes.context, middle]; exact installed.test) fits.2
            rw [executes.context, if_neg zero] at test
            obtain ⟨w, l, ⟨loaded'', executes'⟩, fewer', ends''⟩ := ends'.reach test
            have back : w.cpu.context.pc.toNat = start := by
              rw [executes'.context]
              exact toNat_landed fits.2 (by omega) _
            obtain ⟨trace', c'', rest⟩ :=
              again l (by omega) loaded'' executes'.goes back ends''
            rw [executes'.context] at rest
            exact ⟨_, _, .again leads zero rest⟩
  | skip register target body ih =>
      by_cases zero : readRegisterValue u.cpu.context register = 0
      · have test := loaded.jump goes (by rw [at_start]; exact installed.guard) fits.1
        rw [if_pos zero] at test
        obtain ⟨v, m, ⟨loaded', executes⟩, -, ends'⟩ := ends.reach test
        have inside := installed.guarded.bound
        have inner : v.cpu.context.pc.toNat = start + 1 := by
          rw [executes.context]
          exact toNat_next at_start (by omega)
        obtain ⟨trace, c', leads⟩ :=
          ih fits.2 installed.guarded loaded' executes.goes inner ends' inside
        rw [executes.context] at leads
        exact ⟨_, _, .entered zero leads⟩
      · exact ⟨_, _, .skipped zero⟩

/-! ### Scripts -/

/-- The words of the last line. -/
def exit : List String := ["EXIT"]

/-- What a script executes. -/
def whole (trace : List Word) (context : CpuContext) : List Word := trace ++ [(context.pc, exit)]

/-- The script is executed to its end. -/
theorem Runs.to_end (runs : Runs b c trace c') (small : b.lines.length + 1 < 2 ^ 32)
    (fits : b.Fits 0) (loaded : Loaded decode pid (b.lines ++ [exit]) u) (goes : u.exited = false)
    (context : u.cpu.context = c) (at_start : c.pc.toNat = 0) :
    After (act decode pid) (Others pid)
      (fun v => Executes pid u (whole trace c') (next c') true v) (trace.length + 1) u := by
  have installed : Installed b 0 (b.lines ++ [exit]) := ⟨[], [exit], rfl, rfl⟩
  have at_end := runs.pc_eq fits (by omega) at_start
  rw [Nat.zero_add] at at_end
  refine (runs.sound (by simpa using small) fits installed loaded goes context at_start).trans ?_
  rintro v ⟨loaded', executes⟩
  have fetched : (b.lines ++ [exit])[v.cpu.context.pc.toNat]? = some exit := by
    rw [executes.context, at_end]
    simp
  have ends : ∀ cpu : Execution, cpu.Calm → cpu.context = v.cpu.context → ∀ args,
      ∃ cpu', executeInstruction exit cpu args = some cpu' ∧
        (Threads.advance cpu').context = next v.cpu.context ∧ cpu'.shouldExit = true ∧
          cpu'.syscalls = cpu.syscalls ++ calls args.pid exit := by
    intro cpu calm same args
    refine ⟨_, rfl, ?_, rfl, rfl⟩
    simp [Threads.advance, calm.hasJumped, next, same]
  refine (loaded'.step executes.goes fetched ends).mono ?_
  rintro w ⟨-, executes'⟩
  rw [executes.context] at executes'
  exact executes.trans executes'

/-- What a run adds to the instructions that have been executed. -/
theorem executed_of_run {ok : Uninterrupted → Visible pid → Prop} {bs : List (Visible pid)}
    (run : Lib.Run (uninterrupted decode pid) ok u bs v) :
    ∃ more, v.executed = u.executed ++ more ∧ more.length = bs.countP (own pid) := by
  induction run with
  | refl => exact ⟨[], (List.append_nil _).symm, rfl⟩
  | @snoc v w bs a before guard taken ih =>
      obtain ⟨more, executed, count⟩ := ih
      cases a with
      | elsewhere world =>
          obtain rfl := Option.some.inj taken
          exact ⟨more, executed, by simp [List.countP_append, own, count]⟩
      | instruction =>
          obtain ⟨-, segmentTable, instruction, cpu, -, -, -, rfl⟩ :=
            uninterrupted_instruction taken
          refine ⟨more ++ [(v.cpu.context.pc, decode instruction)], ?_, ?_⟩
          · rw [Uninterrupted.after, executed, List.append_assoc]
          · simp [List.countP_append, own, count]

/-- A process that has ended does nothing more. -/
theorem ended_of_run {ok : Uninterrupted → Visible pid → Prop} {bs : List (Visible pid)}
    (exited : u.exited = true) (run : Lib.Run (uninterrupted decode pid) ok u bs v) :
    v.exited = true ∧ v.cpu = u.cpu ∧ v.executed = u.executed := by
  induction run with
  | refl => exact ⟨exited, rfl, rfl⟩
  | @snoc v w bs a before guard taken ih =>
      cases a with
      | elsewhere world =>
          obtain rfl := Option.some.inj taken
          exact ih
      | instruction => simp [uninterrupted, ih.1] at taken

/-- How far an uninterrupted run of a script is. -/
theorem Runs.progress (runs : Runs b c trace c') (small : b.lines.length + 1 < 2 ^ 32)
    (fits : b.Fits 0) (loaded : Loaded decode pid (b.lines ++ [exit]) u) (goes : u.exited = false)
    (fresh : u.executed = []) (context : u.cpu.context = c) (at_start : c.pc.toNat = 0)
    {ok : Uninterrupted → Visible pid → Prop} {bs : List (Visible pid)}
    (run : Lib.Run (uninterrupted decode pid) ok u bs v) :
    v.exited = false ∧ v.executed <+: whole trace c' ∧ v.executed ≠ whole trace c' ∨
      Executes pid u (whole trace c') (next c') true v := by
  have after := runs.to_end small fits loaded goes context at_start
  rcases after.reached (interleaves decode pid) run with
    ⟨left, count, later⟩ | ⟨first, rest, w, rfl, -, further, -, there⟩
  · left
    obtain ⟨v', taken, -⟩ := later v ⟨rfl, rfl⟩
    obtain ⟨w, steps, done⟩ :=
      later.run (fun _ _ => True) (interleaves decode pid) .instruction rfl fun _ => trivial
    obtain ⟨more, executed, count'⟩ := executed_of_run steps
    have all := done.executed
    rw [fresh, List.nil_append] at all
    rw [executed] at all
    refine ⟨(uninterrupted_instruction taken).1, ⟨more, all⟩, fun same => ?_⟩
    rw [same, List.append_right_eq_self] at all
    rw [all, List.countP_replicate] at count'
    cases count'
  · right
    obtain ⟨exited, cpu, executed⟩ := ended_of_run there.goes further
    exact ⟨exited, by rw [cpu, there.context], by rw [executed, there.executed],
      by rw [cpu, there.syscalls]⟩

/-- A script: the program of a process that has not run yet. -/
structure Script (decode : String → List String) (pcb : Pcb) where
  block : Block
  program : pcb.instructions.map decode = block.lines ++ [exit]
  fits : block.Fits 0
  small : block.lines.length + 1 < 2 ^ 32
  fresh : pcb.context.pc = 0

section Slices

variable {memory : State} {pcb : Pcb} {s : Machine} (script : Script decode pcb)

theorem Script.loaded (found : findPcb memory pid = some pcb) (segmentMaxSize : UInt32) :
    Loaded decode pid (script.block.lines ++ [exit])
      (Slices.start segmentMaxSize memory pcb.context) where
  calm := ⟨rfl, rfl, rfl, rfl⟩
  program := by
    rw [Slices.start, found, ← script.program]
    rfl

theorem Script.at_start (script : Script decode pcb) : pcb.context.pc.toNat = 0 := by
  rw [script.fresh]
  rfl

/-- How far a run in slices is. -/
theorem Script.progress (found : findPcb memory pid = some pcb) (segmentMaxSize : UInt32)
    (runs : Runs script.block pcb.context trace c') {as : List (Action pid)}
    (run : Lib.Run (step decode pid) (fun _ _ => True) (initial segmentMaxSize memory) as s) :
    s.exited = false ∧ s.executed.map Executed.word <+: whole trace c' ∧
        s.executed.map Executed.word ≠ whole trace c' ∨
      s.exited = true ∧ s.executed.map Executed.word = whole trace c' ∧
        s.registers pid = some (next c') ∧
          s.cpu.cpu.syscalls = (whole trace c').flatMap fun word => calls pid word.2 := by
  obtain ⟨u, shown, related⟩ :=
    (simulation decode pid).run (initial_related found segmentMaxSize) run
  have agrees := related.agrees
  rw [agrees.executed, agrees.exited, agrees.registers, agrees.syscalls]
  rcases runs.progress script.small script.fits (script.loaded found segmentMaxSize) rfl rfl rfl
    script.at_start shown with way | done
  · exact .inl way
  · exact .inr ⟨done.goes, done.executed, congrArg some done.context, done.syscalls⟩

/-- A script that is executed to its end comes to an end. -/
theorem Script.ends (found : findPcb memory pid = some pcb) (segmentMaxSize : UInt32)
    {as : List (Action pid)}
    (run : Lib.Run (step decode pid) (fun _ _ => True) (initial segmentMaxSize memory) as s)
    (exited : s.exited = true) : ∃ trace c', Runs script.block pcb.context trace c' := by
  obtain ⟨u, shown, related⟩ :=
    (simulation decode pid).run (initial_related found segmentMaxSize) run
  have done : u.exited = true := related.agrees.exited.symm.trans exited
  have small : (script.block.lines ++ [exit]).length < 2 ^ 32 := by
    simpa using script.small
  exact Block.terminates small script.fits ⟨[], [exit], rfl, rfl⟩
    (script.loaded found segmentMaxSize) rfl script.at_start ⟨_, u, shown, done, Nat.le_refl _⟩

/-- A script that comes to an end can be executed to its end, with interruptions pending at the
ends of the instructions that one likes. -/
theorem Script.exits (found : findPcb memory pid = some pcb) (segmentMaxSize : UInt32)
    (runs : Runs script.block pcb.context trace c') (pending : ℕ → Option InterruptReason) :
    ∃ as s, Lib.Run (step decode pid) (fun _ _ => True) (initial segmentMaxSize memory) as s ∧
      s.exited = true ∧
        s.executed.map Executed.interrupt = (List.range s.executed.length).map pending := by
  have after := runs.to_end script.small script.fits (script.loaded found segmentMaxSize) rfl rfl
    script.at_start
  obtain ⟨u, run, done⟩ :=
    after.run (Apart pending) (interleaves decode pid) .instruction rfl fun _ => trivial
  have ready : Ready decode pid pending (initial segmentMaxSize memory)
      (Slices.start segmentMaxSize memory pcb.context) :=
    ⟨initial_related found segmentMaxSize, .inl ⟨rfl, rfl, rfl, rfl, rfl⟩, rfl⟩
  obtain ⟨as, s, run', -, ready'⟩ := Run.realised way ready run
  exact ⟨as, s, run', ready'.related.agrees.exited.trans done.goes, ready'.pattern⟩

end Slices

/-- **Scripts mean what they say, in whatever slices they are executed**: a process comes to an
end exactly if its script does, with interruptions pending where one likes. Until then it has
executed the first lines of what the script executes, and at its end all of them, to the
registers that they leave and with the syscalls that they make, each of them once. -/
theorem script_in_slices (segmentMaxSize : UInt32) {memory : State} {pcb : Pcb}
    (found : findPcb memory pid = some pcb) (script : Script decode pcb) :
    ((∃ as s, Lib.Run (step decode pid) (fun _ _ => True) (initial segmentMaxSize memory) as s ∧
        s.exited = true) ↔ ∃ trace c', Runs script.block pcb.context trace c') ∧
      ∀ trace c', Runs script.block pcb.context trace c' →
        (∀ as s, Lib.Run (step decode pid) (fun _ _ => True) (initial segmentMaxSize memory) as s →
          s.executed.map Executed.word <+: whole trace c' ∧
            (s.exited = true ↔ s.executed.map Executed.word = whole trace c') ∧
              (s.exited = true → s.registers pid = some (next c') ∧
                s.cpu.cpu.syscalls = (whole trace c').flatMap fun word => calls pid word.2)) ∧
          ∀ pending, ∃ as s,
            Lib.Run (step decode pid) (fun _ _ => True) (initial segmentMaxSize memory) as s ∧
              s.exited = true ∧
                s.executed.map Executed.interrupt = (List.range s.executed.length).map pending := by
  refine ⟨⟨?_, ?_⟩, ?_⟩
  · rintro ⟨as, s, run, exited⟩
    exact script.ends found segmentMaxSize run exited
  · rintro ⟨trace, c', runs⟩
    obtain ⟨as, s, run, exited, -⟩ := script.exits found segmentMaxSize runs fun _ => none
    exact ⟨as, s, run, exited⟩
  · intro trace c' runs
    refine ⟨fun as s run => ?_, script.exits found segmentMaxSize runs⟩
    rcases script.progress found segmentMaxSize runs run with
      ⟨going, before, short⟩ | ⟨exited, executed, registers, syscalls⟩
    · simp [going, before, short]
    · simp [exited, executed, registers, syscalls]

/-! ### A run -/

/-- A process that counts from two to zero. -/
def countdown : Pcb :=
  ⟨1, .zero, ["SET AX 2", "SET BX 1", "SUB AX BX", "JNZ AX 2", "EXIT"], []⟩

/-- Kernel Memory with a process. -/
def memoryOf (pcb : Pcb) : State where
  devices := ⟨[], fun _ _ => 0, [], fun _ => 0⟩
  totalMemorySize := 16
  allocationStrategy := .best
  swapBlockSize := 0
  swapTotalSize := 0
  listProcesses := [pcb]
  listSuspendedProcesses := []
  nextPtr := 1

def countdownScript : Script decodeInstruction countdown where
  block :=
    .seq (.line ["SET", "AX", "2"]) (.seq (.line ["SET", "BX", "1"])
      (.loop (.line ["SUB", "AX", "BX"]) "AX" "2"))
  program := by decide +kernel
  fits := by decide +kernel
  small := by decide +kernel
  fresh := rfl

/-- It comes to an end, interrupted at the end of every instruction, after two rounds. -/
theorem script_in_slices_countdown :
    ∃ as s, Lib.Run (step decodeInstruction 1) (fun _ _ => True)
        (initial 16 (memoryOf countdown)) as s ∧
      s.executed.map Executed.pc = [0, 1, 2, 3, 2, 3, 4] ∧
        s.executed.map Executed.interrupt = List.replicate 7 (some .quantumExpired) := by
  have runs : Runs countdownScript.block .zero _ _ :=
    .seq .line (.seq .line (.again .line (by decide +kernel) (.done .line (by decide +kernel))))
  have found : findPcb (memoryOf countdown) 1 = some countdown := rfl
  obtain ⟨-, behaves⟩ := script_in_slices 16 found countdownScript
  obtain ⟨progress, exits⟩ := behaves _ _ runs
  obtain ⟨as, s, run, exited, interrupts⟩ := exits fun _ => some .quantumExpired
  have executed := (progress as s run).2.1.mp exited
  have pcs : s.executed.map Executed.pc = (s.executed.map Executed.word).map Prod.fst := by
    rw [List.map_map]
    rfl
  have seven : s.executed.length = 7 := by
    rw [← List.length_map Executed.word, executed]
    rfl
  refine ⟨as, s, run, ?_, ?_⟩
  · rw [pcs, executed]
    decide +kernel
  · rw [interrupts, seven]
    rfl

end OsModel.Scripts
