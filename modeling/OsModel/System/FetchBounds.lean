import OsModel.System.Fetches
import OsModel.Cpu.MalformedLines

/-!
Where Kernel Memory reads instructions.

The program counters of a process are in the contexts of the CPUs, in the messages under way and
in `list_processes`. They are inside its program (`Inv`), and stay there with every step but two:
a process is created with nothing to execute, or an instruction leads out of the program.

* `goes_thread`: a step of the execution thread.
* `fetches_inside`: in a run without such steps Kernel Memory reads no instruction that is not
  there.
* `fetch_outside`: a program of one `NOOP`.
-/

namespace OsModel.Fetches

open Lib KernelMemory Cpu

/-! ### The threads of a CPU -/

/-- The execution thread has not looked at `should_exit` yet. -/
def mayExit : Option Threads.ThreadAt → Bool
  | some .head | some (.checkExit _) | some .checkFinishing => true
  | _ => false

/-- The execution thread has not looked at `should_stop` yet. -/
def mayStop : Option Threads.ThreadAt → Bool
  | some .head | some (.checkExit _) | some (.checkStop _) | some .checkFinishing => true
  | _ => false

/-- The flags of the execution thread, by its place. -/
structure Flags (thread : Option Threads.ThreadAt) (cpu : Execution) : Prop where
  jumped : cpu.hasJumped = false
  exits : cpu.shouldExit = true → mayExit thread = true
  stops : cpu.shouldStop = true → mayStop thread = true
  once : cpu.shouldExit = true → cpu.shouldStop = false

/-- The thread has looked at `should_exit` and goes on. -/
theorem Flags.stays {place : Option Threads.ThreadAt} {cpu : Execution} (flags : Flags place cpu)
    (looked : mayExit place = false) : cpu.shouldExit = false := by
  by_contra exits
  rw [flags.exits (by simpa using exits)] at looked
  cases looked

/-- The thread has looked at `should_stop` and goes on. -/
theorem Flags.runs {place : Option Threads.ThreadAt} {cpu : Execution} (flags : Flags place cpu)
    (looked : mayStop place = false) : cpu.shouldStop = false := by
  by_contra stops
  rw [flags.stops (by simpa using stops)] at looked
  cases looked

section Threads

variable {inside : UInt32 × UInt32 → Prop} {t t' : Threads.State}

/-- The program counter of a CPU, if it goes on with it, is inside. -/
def Holds (inside : UInt32 × UInt32 → Prop) (t : Threads.State) : Prop :=
  loaded t.thread = true → t.cpu.shouldExit = false → inside (t.args.pid, t.cpu.context.pc)

theorem holds_iff : Holds inside t ↔ ∀ counter ∈ (counterOf t).toList, inside counter := by
  unfold Holds counterOf
  split
  · rename_i going
    simp [going.1, going.2]
  · rename_i idle
    simp only [Option.toList_none, List.not_mem_nil, false_implies, implies_true, iff_true]
    intro going stays
    exact absurd ⟨going, stays⟩ idle

/-- What a step of the execution thread leaves. -/
structure Goes (inside : UInt32 × UInt32 → Prop) (t t' : Threads.State) : Prop where
  flags : Flags t'.thread t'.cpu
  holds : Holds inside t'
  sent : ∀ sent ∈ t'.cpu.contexts, inside (sent.1, sent.2.pc)
  handler : t'.handler = t.handler
  currentPid : t'.currentPid = t.currentPid

/-- The cycle of an instruction: its program counter is inside, with the context that it sends. -/
theorem goes_execute {decoded : List String} (flags : Flags (some (.execute decoded)) t.cpu)
    (quiet : t.cpu.contexts = [])
    (leads : Ends decoded t.cpu t.args ∨ inside (t.args.pid, nextPc decoded t.cpu t.args))
    (taken : Threads.threadStep t (.execute decoded) = some t') : Goes inside t t' := by
  have stays := flags.stays rfl
  have runs := flags.runs rfl
  have calm : t.cpu.Calm := ⟨flags.jumped, stays, runs, quiet⟩
  rw [Threads.threadStep] at taken
  cases executed : executeInstruction decoded t.cpu t.args with
  | none => simp [executed] at taken
  | some cpu =>
      rw [executed] at taken
      obtain rfl := Option.some.inj taken
      have flow := executeInstruction_flow calm executed
      have next := executeInstruction_nextPc calm executed
      have lands : cpu.shouldExit = false →
          inside (t.args.pid, (Threads.advance cpu).context.pc) := by
        intro stays
        rcases leads with ends | leads
        · rw [← executeInstruction_ends calm executed, stays] at ends
          cases ends
        · rwa [next]
      refine ⟨⟨advance_hasJumped cpu, fun _ => rfl, fun _ => rfl, fun exits => ?_⟩,
        fun _ stays => ?_, ?_, rfl, rfl⟩
      · by_contra stops
        rw [advance_shouldStop, Bool.not_eq_false] at stops
        rw [advance_shouldExit, (flow.stops stops).1] at exits
        cases exits
      · exact lands (by simpa using stays)
      · intro sent mem
        rw [advance_contexts] at mem
        cases stops : cpu.shouldStop with
        | false => simp [flow.stays stops] at mem
        | true =>
            obtain ⟨stays, jumped, sends⟩ := flow.stops stops
            rw [sends] at mem
            obtain rfl := List.mem_singleton.mp mem
            have same : (Threads.advance cpu).context = cpu.context := by
              simp [Threads.advance, jumped]
            exact same ▸ lands stays

theorem Flags.mono {place place' : Option Threads.ThreadAt} {cpu : Execution}
    (flags : Flags place cpu) (exits : mayExit place = true → mayExit place' = true)
    (stops : mayStop place = true → mayStop place' = true) : Flags place' cpu where
  jumped := flags.jumped
  exits exit := exits (flags.exits exit)
  stops stop := stops (flags.stops stop)
  once := flags.once

/-- Flags that have been looked at are not set. -/
theorem Flags.clear {place : Option Threads.ThreadAt} {cpu : Execution}
    (jumped : cpu.hasJumped = false) (stays : cpu.shouldExit = false)
    (runs : cpu.shouldStop = false) : Flags place cpu where
  jumped := jumped
  exits exit := by
    rw [stays] at exit
    cases exit
  stops stop := by
    rw [runs] at stop
    cases stop
  once _ := runs

/-- A step that leaves the execution as it is. -/
theorem Goes.of_move (quiet : t.cpu.contexts = []) (holds : Holds inside t)
    (flags : Flags t'.thread t'.cpu) (cpu : t'.cpu = t.cpu) (args : t'.args = t.args)
    (loads : loaded t'.thread = true → loaded t.thread = true) (handler : t'.handler = t.handler)
    (currentPid : t'.currentPid = t.currentPid) : Goes inside t t' where
  flags := flags
  holds going stays := by
    rw [args, cpu]
    exact holds (loads going) (cpu ▸ stays)
  sent sent mem := by
    rw [cpu, quiet] at mem
    cases mem
  handler := handler
  currentPid := currentPid

/-- A step to a place where the context is not used any more. -/
theorem Goes.of_unloaded (flags : Flags t'.thread t'.cpu) (idle : loaded t'.thread = false)
    (sent : ∀ sent ∈ t'.cpu.contexts, inside (sent.1, sent.2.pc))
    (handler : t'.handler = t.handler) (currentPid : t'.currentPid = t.currentPid) :
    Goes inside t t' where
  flags := flags
  holds going := by
    rw [idle] at going
    cases going
  sent := sent
  handler := handler
  currentPid := currentPid

theorem handler_acknowledge (t : Threads.State) (interrupt : Bool) :
    (t.acknowledge interrupt).handler = t.handler := by
  unfold Threads.State.acknowledge
  split <;> rfl

theorem currentPid_acknowledge (t : Threads.State) (interrupt : Bool) :
    (t.acknowledge interrupt).currentPid = t.currentPid := by
  unfold Threads.State.acknowledge
  split <;> rfl

/-- **A step of the execution thread.** -/
theorem goes_thread (flags : Flags t.thread t.cpu) (quiet : t.cpu.contexts = [])
    (holds : Holds inside t)
    (leads : ∀ decoded, t.thread = some (.execute decoded) →
      Ends decoded t.cpu t.args ∨ inside (t.args.pid, nextPc decoded t.cpu t.args))
    (taken : Threads.step t .thread = some t') : Goes inside t t' := by
  obtain ⟨place, here, taken⟩ := Option.bind_eq_some_iff.mp taken
  have flags := here ▸ flags
  have nothing : ∀ sent ∈ t.cpu.contexts, inside (sent.1, sent.2.pc) := by simp [quiet]
  have going : ∀ place', loaded (some place) = true → loaded place' = true →
      loaded t.thread = true := fun _ loads _ => here ▸ loads
  cases place with
  | execute decoded => exact goes_execute flags quiet (leads decoded here) taken
  | awaitInstruction => cases taken
  | head =>
      cases taken
      exact .of_move quiet holds (flags.mono (fun _ => rfl) fun _ => rfl) rfl rfl
        (going _ rfl) rfl rfl
  | checkExit interrupt =>
      rw [Threads.threadStep] at taken
      split at taken
      · rename_i exits
        cases taken
        exact .of_unloaded (.clear flags.jumped rfl (flags.once exits)) rfl nothing
          (handler_acknowledge t interrupt) (currentPid_acknowledge t interrupt)
      · rename_i stays
        cases taken
        refine .of_move quiet holds ⟨flags.jumped, fun exits => absurd exits stays, fun _ => rfl,
          flags.once⟩ rfl rfl (going _ rfl) rfl rfl
  | checkStop interrupt =>
      have stays := flags.stays rfl
      rw [Threads.threadStep] at taken
      split at taken
      · cases taken
        exact .of_unloaded (.clear flags.jumped stays rfl) rfl nothing
          (handler_acknowledge t interrupt) (currentPid_acknowledge t interrupt)
      · rename_i runs
        cases taken
        exact .of_move quiet holds
          (.clear flags.jumped stays (Bool.eq_false_of_not_eq_true runs)) rfl rfl
          (going _ rfl) rfl rfl
  | sendExit =>
      cases taken
      exact .of_unloaded (flags.mono id id) rfl nothing rfl rfl
  | checkFinishing =>
      cases taken
      refine .of_move quiet holds ?_ rfl rfl (fun _ => here ▸ rfl) rfl rfl
      dsimp only
      split
      · exact flags.mono (fun _ => rfl) fun _ => rfl
      · rename_i goes
        simp only [Bool.or_eq_true, not_or, Bool.not_eq_true] at goes
        exact .clear flags.jumped goes.1 goes.2
  | checkInterrupt =>
      cases taken
      refine .of_move quiet holds ?_ rfl rfl (fun _ => here ▸ rfl) rfl rfl
      exact flags.mono (fun exits => Bool.noConfusion exits) fun stops => Bool.noConfusion stops
  | interrupted =>
      cases taken
      have stays := flags.stays rfl
      refine .of_unloaded ⟨flags.jumped, flags.exits, flags.stops, flags.once⟩ rfl ?_ rfl rfl
      intro sent mem
      rw [quiet, List.nil_append] at mem
      obtain rfl := List.mem_singleton.mp mem
      exact holds (here ▸ rfl) stays
  | postReady =>
      cases taken
      exact .of_unloaded (flags.mono id id) rfl nothing rfl rfl
  | clearInterrupt =>
      cases taken
      exact .of_unloaded (flags.mono id id) rfl nothing rfl rfl
  | finish =>
      cases taken
      exact .of_unloaded (flags.mono id id) rfl nothing rfl rfl
  | postFinished =>
      cases taken
      exact .of_unloaded (flags.mono id id) rfl nothing rfl rfl

end Threads

/-! ### Programs -/

section Programs

variable {memory memory' : State} {pid : UInt32}

/-- What the saved contexts and the programs are. -/
def profile (pcb : Pcb) : UInt32 × CpuContext × List String :=
  (pcb.pid, pcb.context, pcb.instructions)

/-- Every program counter that is saved is inside. -/
def Stored (memory : State) : Prop :=
  ∀ pcb ∈ memory.listProcesses, Inside memory (pcb.pid, pcb.context.pc)

theorem inside_of_subset (fewer : memory'.listProcesses ⊆ memory.listProcesses)
    {counter : UInt32 × UInt32} (inside : Inside memory counter) : Inside memory' counter :=
  fun pcb mem => inside pcb (fewer mem)

theorem inside_congr (same : memory'.listProcesses.map (fun pcb => (pcb.pid, pcb.instructions)) =
    memory.listProcesses.map fun pcb => (pcb.pid, pcb.instructions)) (counter : UInt32 × UInt32) :
    Inside memory' counter ↔ Inside memory counter := by
  have read : ∀ m : State, Inside m counter ↔
      ∀ program ∈ m.listProcesses.map fun pcb => (pcb.pid, pcb.instructions),
        program.1 = counter.1 → counter.2.toNat < program.2.length := by
    intro m
    simp [Inside]
  rw [read, read, same]

theorem stored_congr (same : memory'.listProcesses.map profile = memory.listProcesses.map profile)
    (stored : Stored memory) : Stored memory' := by
  have programs := congrArg (List.map fun p => (p.1, p.2.2)) same
  rw [List.map_map, List.map_map] at programs
  intro pcb mem
  rw [inside_congr programs]
  obtain ⟨old, here, eq⟩ := List.mem_map.mp (same ▸ List.mem_map_of_mem mem)
  obtain ⟨pids, contexts, -⟩ : old.pid = pcb.pid ∧ old.context = pcb.context ∧
      old.instructions = pcb.instructions := by
    simpa [profile] using eq
  rw [← pids, ← contexts]
  exact stored old here

/-- A context that is saved does not change the programs. -/
theorem inside_contextTransfer (memory : State) (pid : UInt32) (context : CpuContext)
    (counter : UInt32 × UInt32) :
    Inside (contextTransfer memory pid context) counter ↔ Inside memory counter :=
  inside_congr (map_updatePcb (f := fun pcb => { pcb with context }) fun _ => rfl) counter

theorem stored_contextTransfer {context : CpuContext} (inside : Inside memory (pid, context.pc))
    (stored : Stored memory) : Stored (contextTransfer memory pid context) := by
  intro pcb mem
  rw [inside_contextTransfer]
  rcases mem_updateFirst mem with old | ⟨old, -, named, rfl⟩
  · exact stored pcb old
  · have same : old.pid = pid := by simpa using named
    exact same ▸ inside

/-- The program of a new process, which no program counter belongs to yet. -/
theorem inside_processCreate {instructions : List String} {counter : UInt32 × UInt32}
    (other : counter.1 ≠ pid) (inside : Inside memory counter) :
    Inside (processCreate memory pid (some instructions)) counter := by
  intro pcb mem same
  rcases List.mem_append.mp mem with old | new
  · exact inside pcb old same
  · obtain rfl := List.mem_singleton.mp new
    exact absurd same.symm other

theorem stored_processCreate {instructions : List String} (some : instructions ≠ [])
    (unused : ∀ pcb ∈ memory.listProcesses, pcb.pid ≠ pid) (stored : Stored memory) :
    Stored (processCreate memory pid (.some instructions)) := by
  intro pcb mem
  rcases List.mem_append.mp mem with old | new
  · exact inside_processCreate (unused pcb old) (stored pcb old)
  · obtain rfl := List.mem_singleton.mp new
    intro pcb mem same
    rcases List.mem_append.mp mem with old | new
    · exact absurd same (unused pcb old)
    · obtain rfl := List.mem_singleton.mp new
      exact List.length_pos_of_ne_nil some

end Programs

/-! ### The invariant -/

/-- The process whose context is sought. -/
def ToMemory.sought : ToMemory → Option UInt32
  | .contextSeek pid => some pid
  | _ => none

/-- The process whose context is answered. -/
def FromMemory.answered : FromMemory → Option UInt32
  | .contextTransfer pid _ _ => some pid
  | .instruction _ => none

/-- The contexts that are under way to a CPU. -/
def Link.asked (link : Link) : List UInt32 :=
  link.toMemory.filterMap ToMemory.sought ++ link.fromMemory.filterMap FromMemory.answered

/-- A CPU and its connection: the flags are in order, the context that is under way is that of the
process that the handler waits for, and the program counters are inside. -/
structure Bounded (inside : UInt32 × UInt32 → Prop) (link : Link) : Prop where
  flags : Flags link.cpu.thread link.cpu.cpu
  quiet : link.cpu.cpu.contexts = []
  asked : link.asked = [] ∨
    link.cpu.handler = .awaitContext ∧ link.asked = [link.cpu.currentPid]
  counters : ∀ counter ∈ link.counters, inside counter

/-- Every program counter is inside. -/
structure Inv {ι : Type} (s : System ι) : Prop where
  bounded : ∀ cpu, Bounded (Inside s.memory) (s.links cpu)
  stored : Stored s.memory

section Links

variable {inside : UInt32 × UInt32 → Prop} {link : Link} {t : Threads.State}

theorem counters_iff : (∀ counter ∈ link.counters, inside counter) ↔
    Holds inside link.cpu ∧ (∀ m ∈ link.toMemory, ∀ counter ∈ m.counter, inside counter) ∧
      ∀ m ∈ link.fromMemory, ∀ counter ∈ m.counter, inside counter := by
  rw [holds_iff]
  simp only [Link.counters, List.mem_append, List.mem_filterMap, or_imp, forall_and, and_assoc]
  constructor
  · rintro ⟨here, requests, answers⟩
    exact ⟨here, fun m mem counter is => requests counter ⟨m, mem, is⟩,
      fun m mem counter is => answers counter ⟨m, mem, is⟩⟩
  · rintro ⟨here, requests, answers⟩
    exact ⟨here, fun counter ⟨m, mem, is⟩ => requests m mem counter is,
      fun counter ⟨m, mem, is⟩ => answers m mem counter is⟩

/-- A context is under way only to a handler that waits for it. -/
theorem Bounded.none_asked (bounded : Bounded inside link)
    (other : link.cpu.handler ≠ .awaitContext) : link.asked = [] :=
  bounded.asked.resolve_right fun waits => other waits.1

/-- The handler goes on, and nothing else. -/
theorem Bounded.ofHandler (bounded : Bounded inside link) (flags : t.cpu = link.cpu.cpu)
    (thread : t.thread = link.cpu.thread) (args : t.args = link.cpu.args)
    (other : link.cpu.handler ≠ .awaitContext) : Bounded inside { link with cpu := t } where
  flags := by
    simp only [flags, thread]
    exact bounded.flags
  quiet := by
    simp only [flags]
    exact bounded.quiet
  asked := .inl (bounded.none_asked other)
  counters := by
    obtain ⟨here, messages⟩ := counters_iff.mp bounded.counters
    refine counters_iff.mpr ⟨?_, messages⟩
    intro going stays
    simp only [flags, thread, args] at going stays ⊢
    exact here going stays

theorem handlerStep_frame {c c' : Threads.State} (taken : Threads.handlerStep c = some c') :
    c'.cpu = c.cpu ∧ c'.thread = c.thread ∧ c'.args = c.args ∧ c.handler ≠ .awaitContext := by
  cases at_handler : c.handler with
  | receiving | awaitContext => simp [Threads.handlerStep, at_handler] at taken
  | awaitFinished | awaitHandled | awaitReady =>
      simp only [Threads.handlerStep, at_handler] at taken
      split at taken
      · obtain rfl := Option.some.inj taken
        exact ⟨rfl, rfl, rfl, by simp⟩
      · simp at taken
  | start | giveUp | postFinished | interrupt | clearInterrupt | postHandled | readInterrupt
    | readExecuting | confirm =>
      simp only [Threads.handlerStep, at_handler] at taken
      obtain rfl := Option.some.inj taken
      exact ⟨rfl, rfl, rfl, by simp⟩

theorem Bounded.afterHandler (bounded : Bounded inside link)
    (taken : Threads.step link.cpu .handler = some t) : Bounded inside (link.afterHandler t) := by
  obtain ⟨cpu, thread, args, other⟩ := handlerStep_frame taken
  have moved := bounded.ofHandler cpu thread args other
  unfold Link.afterHandler
  split
  · rename_i waits
    refine ⟨moved.flags, moved.quiet, .inr ⟨waits, ?_⟩, ?_⟩
    · have nothing := bounded.none_asked other
      rw [Link.asked, List.append_eq_nil_iff] at nothing
      simp [Link.asked, nothing, ToMemory.sought]
    · obtain ⟨here, requests, answers⟩ := counters_iff.mp moved.counters
      refine counters_iff.mpr ⟨here, ?_, answers⟩
      intro m mem counter is
      rcases List.mem_append.mp mem with old | new
      · exact requests m old counter is
      · obtain rfl := List.mem_singleton.mp new
        cases is
  · rw [List.append_nil]
    exact moved

theorem Bounded.afterThread {devices : Devices} (bounded : Bounded inside link)
    (leads : ∀ decoded, link.cpu.thread = some (.execute decoded) →
      Ends decoded (link.linked devices).cpu link.cpu.args ∨
        inside (link.cpu.args.pid, nextPc decoded (link.linked devices).cpu link.cpu.args))
    (taken : Threads.step (link.linked devices) .thread = some t) :
    Bounded inside (link.afterThread t) := by
  obtain ⟨here, requests, answers⟩ := counters_iff.mp bounded.counters
  obtain ⟨flags, holds, sent, handler, currentPid⟩ : Goes inside (link.linked devices) t :=
    goes_thread ⟨bounded.flags.jumped, bounded.flags.exits, bounded.flags.stops,
      bounded.flags.once⟩ bounded.quiet here leads taken
  refine ⟨⟨flags.jumped, flags.exits, flags.stops, flags.once⟩, rfl, ?_, ?_⟩
  · have same : (link.afterThread t).asked = link.asked := by
      have contexts : (t.cpu.contexts.map fun sent =>
          ToMemory.contextTransfer sent.1 sent.2).filterMap ToMemory.sought = [] := by
        simp [List.filterMap_map, ToMemory.sought, Function.comp_def]
      simp only [Link.asked, Link.afterThread, List.filterMap_append, contexts]
      split <;> simp [ToMemory.sought]
    rw [same]
    simpa only [Link.afterThread, handler, currentPid, Link.linked] using bounded.asked
  · refine counters_iff.mpr ⟨holds, ?_, answers⟩
    intro m mem counter is
    simp only [Link.afterThread, List.mem_append] at mem
    rcases mem with (old | saves) | fetch
    · exact requests m old counter is
    · obtain ⟨saved, sends, rfl⟩ := List.mem_map.mp saves
      obtain rfl := Option.some.inj is
      exact sent saved sends
    · split at fetch
      · rename_i waits
        obtain rfl := List.mem_singleton.mp fetch
        obtain rfl := Option.some.inj is
        exact holds (waits ▸ rfl) (flags.stays (waits ▸ rfl))
      · cases fetch

/-- The handler receives an order of the Kernel Scheduler. -/
theorem Bounded.ofOrder {a : Threads.Action} (bounded : Bounded inside link)
    (order : (∃ pid, a = .processExecute pid) ∨ ∃ reason, a = .processEvict reason)
    (taken : Threads.step link.cpu a = some t) : Bounded inside { link with cpu := t } := by
  cases at_handler : link.cpu.handler with
  | receiving =>
      rcases order with ⟨pid, rfl⟩ | ⟨reason, rfl⟩
      · rw [Threads.step, at_handler] at taken
        obtain rfl := Option.some.inj taken
        exact bounded.ofHandler rfl rfl rfl (by simp [at_handler])
      · rw [Threads.step, at_handler] at taken
        obtain rfl := Option.some.inj taken
        exact bounded.ofHandler rfl rfl rfl (by simp [at_handler])
  | _ => rcases order with ⟨pid, rfl⟩ | ⟨reason, rfl⟩ <;> simp [Threads.step, at_handler] at taken

/-- The CPU takes the context that it waits for. -/
theorem Bounded.receiveContext {pid : UInt32} {context : CpuContext} {segmentTable : List Segment}
    {rest : List FromMemory} (bounded : Bounded inside link)
    (head : link.fromMemory = .contextTransfer pid context segmentTable :: rest)
    (taken : Threads.step link.cpu (.contextTransfer (some (context, segmentTable))) = some t) :
    Bounded inside { link with cpu := t, fromMemory := rest } := by
  obtain ⟨-, requests, answers⟩ := counters_iff.mp bounded.counters
  rw [head] at answers
  obtain ⟨none_sought, same, none_answered⟩ : link.toMemory.filterMap ToMemory.sought = [] ∧
      pid = link.cpu.currentPid ∧ rest.filterMap FromMemory.answered = [] := by
    have answered : (FromMemory.contextTransfer pid context segmentTable).answered = some pid := rfl
    have asked := bounded.asked
    rw [Link.asked, head, List.filterMap_cons_some answered] at asked
    rcases asked with nothing | ⟨-, one⟩
    · simp at nothing
    · cases sought : link.toMemory.filterMap ToMemory.sought with
      | nil => simpa [sought] using one
      | cons first more => simp [sought] at one
  cases at_handler : link.cpu.handler with
  | awaitContext =>
      simp only [Threads.step, at_handler] at taken
      obtain rfl := Option.some.inj taken
      refine ⟨⟨rfl, fun _ => rfl, fun _ => rfl, bounded.flags.once⟩, bounded.quiet, .inl ?_, ?_⟩
      · simp [Link.asked, none_sought, none_answered]
      · refine counters_iff.mpr ⟨fun _ _ => ?_, requests, fun m mem =>
          answers m (List.mem_cons_of_mem _ mem)⟩
        exact same ▸ answers _ List.mem_cons_self _ rfl
  | _ => simp [Threads.step, at_handler] at taken

/-- The execution thread takes the instruction that it waits for. -/
theorem Bounded.receiveInstruction {line : String} {decoded : List String}
    {rest : List FromMemory} (bounded : Bounded inside link)
    (head : link.fromMemory = .instruction line :: rest)
    (taken : Threads.step link.cpu (.instruction (some decoded)) = some t) :
    Bounded inside { link with cpu := t, fromMemory := rest } := by
  obtain ⟨here, requests, answers⟩ := counters_iff.mp bounded.counters
  rw [head] at answers
  have asked := bounded.asked
  rw [Link.asked, head, List.filterMap_cons_none rfl] at asked
  cases at_thread : link.cpu.thread with
  | none => simp [Threads.step, at_thread] at taken
  | some place =>
      cases place with
      | awaitInstruction =>
          simp only [Threads.step, at_thread] at taken
          obtain rfl := Option.some.inj taken
          have flags := at_thread ▸ bounded.flags
          refine ⟨flags.mono id id, bounded.quiet, asked, ?_⟩
          refine counters_iff.mpr ⟨fun _ stays => ?_, requests, fun m mem =>
            answers m (List.mem_cons_of_mem _ mem)⟩
          exact here (at_thread ▸ rfl) stays
      | _ => simp [Threads.step, at_thread] at taken

end Links

section Steps

variable {ι : Type} [DecidableEq ι] {s s' : System ι}

/-- A step of one CPU. -/
theorem Inv.setLink {cpu : ι} {link : Link} (inv : Inv s) (memory : State)
    (same : ∀ counter, Inside s.memory counter → Inside memory counter)
    (stored : Stored memory) (bounded : Bounded (Inside memory) link) :
    Inv ({ s with memory }.setLink cpu link) := by
  refine ⟨fun other => ?_, stored⟩
  by_cases own : other = cpu
  · subst own
    simpa [System.setLink] using bounded
  · have before := inv.bounded other
    have there : ({ s with memory }.setLink cpu link).links other = s.links other := by
      simp [System.setLink, own]
    rw [there]
    exact ⟨before.flags, before.quiet, before.asked,
      fun counter mem => same counter (before.counters counter mem)⟩

/-- `cpu_handler` reads a message. -/
theorem Inv.serve {cpu : ι} {message : ToMemory} {rest : List ToMemory} (inv : Inv s)
    (head : (s.links cpu).toMemory = message :: rest)
    (taken : serve s cpu { s.links cpu with toMemory := rest } message = some s') : Inv s' := by
  obtain ⟨flags, quiet, asked, counters⟩ := inv.bounded cpu
  obtain ⟨here, requests, answers⟩ := counters_iff.mp counters
  rw [head] at requests
  rw [Link.asked, head] at asked
  have first := requests message List.mem_cons_self
  have later : ∀ counter ∈ ({ s.links cpu with toMemory := rest } : Link).counters,
      Inside s.memory counter :=
    counters_iff.mpr ⟨here, fun m mem => requests m (List.mem_cons_of_mem _ mem), answers⟩
  cases message with
  | contextTransfer pid context =>
      obtain rfl := Option.some.inj taken
      have same := fun counter => (inside_contextTransfer s.memory pid context counter).mpr
      exact inv.setLink _ same (stored_contextTransfer (first _ rfl) inv.stored)
        ⟨flags, quiet, asked, fun counter mem => same counter (later counter mem)⟩
  | contextSeek pid =>
      have sought : (ToMemory.contextSeek pid).sought = some pid := rfl
      rw [List.filterMap_cons_some sought] at asked
      obtain ⟨waits, same, nothing⟩ : (s.links cpu).cpu.handler = .awaitContext ∧
          pid = (s.links cpu).cpu.currentPid ∧
          rest.filterMap ToMemory.sought ++
            (s.links cpu).fromMemory.filterMap FromMemory.answered = [] := by
        rcases asked with nothing | ⟨waits, one⟩
        · cases nothing
        · exact ⟨waits, (List.cons.inj one).1, (List.cons.inj one).2⟩
      cases found : findPcb s.memory pid with
      | none =>
          simp only [Fetches.serve, contextSeek, found, Option.map_none] at taken
          obtain rfl := Option.some.inj taken
          exact inv.setLink s.memory (fun _ => id) inv.stored ⟨flags, quiet, .inl nothing, later⟩
      | some pcb =>
          simp only [Fetches.serve, contextSeek, found, Option.map_some] at taken
          obtain rfl := Option.some.inj taken
          refine inv.setLink s.memory (fun _ => id) inv.stored
            ⟨flags, quiet, .inr ⟨waits, ?_⟩, ?_⟩
          · rw [List.append_eq_nil_iff] at nothing
            simp [Link.asked, nothing, FromMemory.answered, same]
          · obtain ⟨here, requests, answers⟩ := counters_iff.mp later
            refine counters_iff.mpr ⟨here, requests, ?_⟩
            intro m mem counter is
            rcases List.mem_append.mp mem with old | new
            · exact answers m old counter is
            · obtain rfl := List.mem_singleton.mp new
              obtain rfl := Option.some.inj is
              have named : pcb.pid = pid := by simpa using List.find?_some found
              exact named ▸ inv.stored pcb (List.mem_of_find?_eq_some found)
  | instructionFetch pid pc =>
      have sought : (ToMemory.instructionFetch pid pc).sought = none := rfl
      rw [List.filterMap_cons_none sought] at asked
      cases found : findPcb s.memory pid with
      | none =>
          simp only [Fetches.serve, found] at taken
          obtain rfl := Option.some.inj taken
          exact inv.setLink s.memory (fun _ => id) inv.stored ⟨flags, quiet, asked, later⟩
      | some pcb =>
          simp only [Fetches.serve, found] at taken
          obtain ⟨line, -, rfl⟩ := Option.map_eq_some_iff.mp taken
          refine inv.setLink s.memory (fun _ => id) inv.stored ⟨flags, quiet, ?_, ?_⟩
          · have nothing : [FromMemory.instruction line].filterMap FromMemory.answered = [] := rfl
            simp only [Link.asked, List.filterMap_append, nothing, List.append_nil]
            exact asked
          · obtain ⟨here, requests, answers⟩ := counters_iff.mp later
            refine counters_iff.mpr ⟨here, requests, ?_⟩
            intro m mem counter is
            rcases List.mem_append.mp mem with old | new
            · exact answers m old counter is
            · obtain rfl := List.mem_singleton.mp new
              cases is

omit [DecidableEq ι] in
/-- Kernel Memory does something for the Kernel Scheduler. -/
theorem Inv.kernelMemory {op : Op} {memory : State} (inv : Inv s)
    (leads : Leads s (.kernelMemory op)) (taken : KernelMemory.step s.memory op = some memory) :
    Inv { s with memory } := by
  have keep : ∀ {memory : State}, (∀ cpu, ∀ counter ∈ (s.links cpu).counters,
      Inside s.memory counter → Inside memory counter) → Stored memory → Inv { s with memory } :=
    fun same stored => ⟨fun cpu => ⟨(inv.bounded cpu).flags, (inv.bounded cpu).quiet,
      (inv.bounded cpu).asked, fun counter mem =>
        same cpu counter mem ((inv.bounded cpu).counters counter mem)⟩, stored⟩
  by_cases creates : ∃ pid instructions, op = .processCreate pid instructions
  · obtain ⟨pid, instructions, rfl⟩ := creates
    obtain rfl := Option.some.inj taken
    cases instructions with
    | none => exact inv
    | some instructions =>
        obtain ⟨some, unused, apart⟩ := leads
        exact keep (fun cpu counter mem => inside_processCreate (apart cpu counter mem))
          (stored_processCreate some unused inv.stored)
  · by_cases ends : ∃ pid, op = .processEnd pid
    · obtain ⟨pid, rfl⟩ := ends
      obtain rfl := Option.some.inj taken
      have fewer : (processEnd s.memory pid).listProcesses ⊆ s.memory.listProcesses :=
        List.eraseP_sublist.subset
      exact keep (fun _ _ _ => inside_of_subset fewer) fun pcb mem =>
        inside_of_subset fewer (inv.stored pcb (fewer mem))
    · have other := fun pid i (eq : op = .processCreate pid i) => creates ⟨pid, i, eq⟩
      have lives := fun pid (eq : op = .processEnd pid) => ends ⟨pid, eq⟩
      have programs := step_map (g := fun pcb => (pcb.pid, pcb.instructions)) (fun _ _ => rfl)
        other lives taken
      have profiles := step_map (g := profile) (fun _ _ => rfl) other lives taken
      exact keep (fun _ counter _ => (inside_congr programs counter).mpr)
        (stored_congr profiles inv.stored)

/-- **A step keeps every program counter inside**, if it leads nowhere else. -/
theorem step_inside {decode : String → List String} {a : Action ι} (inv : Inv s)
    (leads : Leads s a) (taken : step decode s a = some s') : Inv s' := by
  cases a with
  | kernelMemory op =>
      obtain ⟨memory, done, rfl⟩ := Option.map_eq_some_iff.mp taken
      exact inv.kernelMemory leads done
  | processExecute cpu pid =>
      obtain ⟨t, done, rfl⟩ := Option.map_eq_some_iff.mp taken
      exact inv.setLink s.memory (fun _ => id) inv.stored
        ((inv.bounded cpu).ofOrder (.inl ⟨pid, rfl⟩) done)
  | processEvict cpu reason =>
      obtain ⟨t, done, rfl⟩ := Option.map_eq_some_iff.mp taken
      exact inv.setLink s.memory (fun _ => id) inv.stored
        ((inv.bounded cpu).ofOrder (.inr ⟨reason, rfl⟩) done)
  | handler cpu =>
      obtain ⟨t, done, rfl⟩ := Option.map_eq_some_iff.mp taken
      exact inv.setLink s.memory (fun _ => id) inv.stored ((inv.bounded cpu).afterHandler done)
  | thread cpu =>
      obtain ⟨t, done, rfl⟩ := Option.map_eq_some_iff.mp taken
      refine inv.setLink _ (fun _ => id) inv.stored ((inv.bounded cpu).afterThread ?_ done)
      intro decoded here
      exact leads decoded (congrArg decodedOf here)
  | serve cpu =>
      rw [step] at taken
      cases head : (s.links cpu).toMemory with
      | nil => simp [head] at taken
      | cons message rest =>
          simp only [head] at taken
          exact inv.serve head taken
  | receive cpu =>
      rw [step] at taken
      cases head : (s.links cpu).fromMemory with
      | nil => simp [head] at taken
      | cons answer rest =>
          simp only [head] at taken
          obtain ⟨t, done, rfl⟩ := Option.map_eq_some_iff.mp taken
          refine inv.setLink s.memory (fun _ => id) inv.stored ?_
          cases answer with
          | contextTransfer pid context segmentTable =>
              exact (inv.bounded cpu).receiveContext head done
          | instruction line => exact (inv.bounded cpu).receiveInstruction head done

end Steps

/-! ### Runs -/

section Runs

variable {ι : Type} {s : System ι}

theorem initial_inv {memory : State} (empty : memory.listProcesses = []) (segmentMaxSize : UInt32) :
    Inv (initial segmentMaxSize memory : System ι) := by
  refine ⟨fun cpu => ⟨.clear rfl rfl rfl, rfl, .inl rfl, ?_⟩, ?_⟩
  · intro counter mem
    cases mem
  · intro pcb mem
    have mem : pcb ∈ memory.listProcesses := mem
    rw [empty] at mem
    cases mem

theorem Inv.fetchesInside (inv : Inv s) : FetchesInside s := by
  intro cpu pid pc rest head pcb found
  obtain ⟨-, requests, -⟩ := counters_iff.mp (inv.bounded cpu).counters
  have inside := requests (.instructionFetch pid pc) (by simp [head]) _ rfl
  exact inside pcb (List.mem_of_find?_eq_some found) (by simpa using List.find?_some found)

variable [DecidableEq ι]

/-- **Where Kernel Memory reads instructions**: inside the program of the process, in a run in
which every process has something to execute and no instruction leads out of its program. -/
theorem fetches_inside {decode : String → List String} {segmentMaxSize : UInt32} {memory : State}
    {as : List (Action ι)} (empty : memory.listProcesses = [])
    (run : Run (step decode) Leads (initial segmentMaxSize memory) as s) : FetchesInside s :=
  (run.invariant step_inside (initial_inv empty segmentMaxSize)).fetchesInside

end Runs

/-! ### A program -/

instance {ι : Type} [Fintype ι] (s : System ι) (pid : UInt32) : Decidable (s.Unused pid) :=
  have (cpu : ι) : Decidable (∀ counter ∈ (s.links cpu).counters, counter.1 ≠ pid) :=
    List.decidableBAll _ _
  inferInstanceAs (Decidable (_ ∧ ∀ cpu, ∀ counter ∈ (s.links cpu).counters, counter.1 ≠ pid))

instance {ι : Type} [Fintype ι] (s : System ι) : (a : Action ι) → Decidable (Leads s a)
  | .kernelMemory (.processCreate pid (some instructions)) =>
      inferInstanceAs (Decidable (instructions ≠ [] ∧ s.Unused pid))
  | .thread _ => Option.decidableForallMem _
  | .kernelMemory (.processCreate _ none) | .kernelMemory (.processEnd _)
  | .kernelMemory (.segmentCreate ..) | .kernelMemory (.segmentDelete ..)
  | .kernelMemory (.processSuspend _) | .kernelMemory (.processDesuspend _)
  | .kernelMemory (.connectStick ..) | .kernelMemory (.ioMemoryWrite ..)
  | .processExecute .. | .processEvict .. | .handler _ | .serve _ | .receive _ => .isTrue trivial

/-- Kernel Memory without sticks and processes. -/
def bare : State := KernelMemory.initial .best 16 64 (fun _ _ => 0) [] fun _ => 0

/-- The only CPU executes the first instruction of a program, and asks for the next one. -/
def firstLine (program : List String) : List (Action Unit) :=
  [.kernelMemory (.processCreate 1 (some program)), .processExecute () 1, .handler (), .handler (),
    .handler (), .serve (), .receive (), .thread (), .thread (), .thread (), .serve (),
    .receive (), .thread (), .thread (), .thread (), .thread (), .thread (), .thread ()]

/-- The CPU asks for the second line of a program. -/
def asksNext (s : System Unit) (length : ℕ) : Bool :=
  decide ((s.links ()).toMemory = [.instructionFetch 1 1]) &&
    (findPcb s.memory 1).any fun pcb => pcb.instructions.length == length

/-- There is one. -/
theorem fetches_inside_of_exit : ∃ s : System Unit, asksNext s 2 = true ∧ FetchesInside s := by
  obtain ⟨s, run, asks⟩ := Run.exists_of_exec (step decodeInstruction) Leads
    (firstLine ["NOOP", "EXIT"]) (initial 16 bare) (asksNext · 2) (by decide +kernel)
  exact ⟨s, asks, fetches_inside rfl run⟩

/-- There is none: Kernel Memory reads behind the program. -/
theorem fetch_outside : ∃ as, ∃ s : System Unit,
    Run (step decodeInstruction) (fun _ _ => True) (initial 16 bare) as s ∧ ¬ FetchesInside s := by
  obtain ⟨s, run, asks⟩ := Run.exists_of_exec (step decodeInstruction) (fun _ _ => True)
    (firstLine ["NOOP"]) (initial 16 bare) (asksNext · 1) (by decide +kernel)
  refine ⟨_, s, run, fun inside => ?_⟩
  simp only [asksNext, Bool.and_eq_true, decide_eq_true_eq, Option.any_eq_true, beq_iff_eq] at asks
  obtain ⟨head, pcb, found, short⟩ := asks
  have late := inside () 1 1 [] head pcb found
  rw [short] at late
  exact absurd late (by decide)

end OsModel.Fetches
