import OsModel.System.Slices

/-!
A process in slices is simulated by its uninterrupted run.

`Related` says where the context of the process is while it is executed in slices: the CPU has
it, or Kernel Memory does. Every step of the CPU and Kernel Memory keeps it, and
`execute_instruction` is a step of the uninterrupted run.

* `simulation`: the steps of the slices are hidden, or steps of the uninterrupted run.
* `inOrder_of_run`: the uninterrupted run neither skips nor repeats an instruction.
-/

namespace OsModel.Slices

open Lib KernelMemory Cpu Machine

variable {decode : String → List String} {pid : UInt32} {s t : Machine} {u v : Uninterrupted}

/-! ### The rest of the system -/

section Elsewhere

variable {memory memory' : State} (world : Elsewhere pid)

theorem Elsewhere.eqUpToContext (same : EqUpToContext pid memory memory') :
    EqUpToContext pid (world.act memory) (world.act memory') := by
  intro context
  rw [← world.context, ← world.context, same context]

/-- The context that is saved stays saved. -/
theorem Elsewhere.saved {context : CpuContext}
    (saved : (findPcb memory pid).map Pcb.context = some context) :
    (findPcb (world.act memory) pid).map Pcb.context = some context := by
  obtain ⟨pcb, found, rfl⟩ := Option.map_eq_some_iff.mp saved
  have fixed : contextTransfer (world.act memory) pid pcb.context = world.act memory := by
    rw [← world.context, contextTransfer_eq_self found]
  have kept := world.program memory
  rw [found] at kept
  obtain ⟨pcb', found', -⟩ := Option.map_eq_some_iff.mp kept
  rw [← fixed, findPcb_contextTransfer_self, found']
  rfl

theorem Elsewhere.instructionFetch_eq (pc : UInt32) :
    instructionFetch (world.act memory) pid pc = instructionFetch memory pid pc := by
  have fetched := congrArg (Option.bind · fun program => program[pc.toNat]?) (world.program memory)
  simpa [instructionFetch, Option.bind_map, Function.comp_def] using fetched

end Elsewhere

/-! ### Where the context is -/

/-- The CPU has the context. -/
structure Live (pid : UInt32) (exited : Bool) (cpu : Execution) (args : ExecutionArgs)
    (memory : State) (context : CpuContext) : Prop where
  goes : exited = false
  stays : cpu.shouldExit = false
  runs : cpu.shouldStop = false
  context : cpu.context = context
  owner : args.pid = pid
  table : table memory pid = some args.segmentTable

/-- Kernel Memory has the context; `stop` is `should_stop`. -/
structure Kept (pid : UInt32) (exited : Bool) (cpu : Execution) (memory : State)
    (context : CpuContext) (stop : Bool) : Prop where
  goes : exited = false
  stays : cpu.shouldExit = false
  stops : cpu.shouldStop = stop
  saved : (findPcb memory pid).map Pcb.context = some context

/-- The process has ended; `exit` is `should_exit`. -/
structure Over (exited : Bool) (cpu : Execution) (context : CpuContext) (exit : Bool) : Prop where
  ends : exited = true
  exits : cpu.shouldExit = exit
  runs : cpu.shouldStop = false
  context : cpu.context = context

section Stage

variable (decode : String → List String) (pid : UInt32)

/-- Where the context is, by the place of the execution thread. -/
def Stage (thread : Option Threads.ThreadAt) (exited : Bool) (cpu : Execution)
    (args : ExecutionArgs) (memory : State) (context : CpuContext) : Prop :=
  match thread with
  | some .awaitInstruction | some .checkInterrupt | some .interrupted =>
      Live pid exited cpu args memory context
  | some (.execute decoded) =>
      Live pid exited cpu args memory context ∧
        (instructionFetch memory pid cpu.context.pc).map decode = some decoded
  | some .head | some (.checkExit _) | some .checkFinishing =>
      Live pid exited cpu args memory context ∨ Kept pid exited cpu memory context true ∨
        Over exited cpu context true
  | some (.checkStop _) =>
      Live pid exited cpu args memory context ∨ Kept pid exited cpu memory context true
  | some .postReady | some .clearInterrupt => Kept pid exited cpu memory context false
  | some .sendExit => Over exited cpu context false
  | some .finish | some .postFinished | none =>
      Kept pid exited cpu memory context false ∨ Over exited cpu context false

end Stage

/-- The two have made the same syscalls and touched the same memory, and differ at most in what
the cycle resets. -/
structure Like (cpu cpu' : Execution) : Prop where
  segmentMaxSize : cpu.segmentMaxSize = cpu'.segmentMaxSize
  hasJumped : cpu.hasJumped = cpu'.hasJumped
  stopReason : cpu.stopReason = cpu'.stopReason
  contexts : cpu.contexts = cpu'.contexts
  syscalls : cpu.syscalls = cpu'.syscalls
  touched : cpu.touched = cpu'.touched

theorem Like.refl (cpu : Execution) : Like cpu cpu := ⟨rfl, rfl, rfl, rfl, rfl, rfl⟩

theorem Like.trans {cpu cpu' cpu'' : Execution} (first : Like cpu cpu') (second : Like cpu' cpu'') :
    Like cpu cpu'' where
  segmentMaxSize := first.segmentMaxSize.trans second.segmentMaxSize
  hasJumped := first.hasJumped.trans second.hasJumped
  stopReason := first.stopReason.trans second.stopReason
  contexts := first.contexts.trans second.contexts
  syscalls := first.syscalls.trans second.syscalls
  touched := first.touched.trans second.touched

/-- With the same context, flags and sticks they are the same. -/
theorem Like.eq {cpu cpu' : Execution} (like : Like cpu cpu') (context : cpu.context = cpu'.context)
    (shouldExit : cpu.shouldExit = cpu'.shouldExit) (shouldStop : cpu.shouldStop = cpu'.shouldStop)
    (devices : Devices) : { cpu with devices } = { cpu' with devices } := by
  obtain ⟨segmentMaxSize, hasJumped, stopReason, contexts, syscalls, touched⟩ := like
  rw [segmentMaxSize, hasJumped, stopReason, contexts, syscalls, touched, context, shouldExit,
    shouldStop]

/-- The handler has taken `sem_execution_finished`. -/
def holds : Threads.HandlerAt → Bool
  | .start | .readInterrupt | .awaitHandled | .awaitContext | .giveUp | .postFinished => true
  | _ => false

/-- The handler is on its way to `CONTEXT_SEEK`. -/
def seeks : Threads.HandlerAt → Bool
  | .awaitFinished | .start | .readInterrupt | .awaitHandled | .awaitContext => true
  | _ => false

/-- One execution thread at a time, and it is for the process. -/
structure Token (pid : UInt32) (t : Threads.State) : Prop where
  once : t.executionFinished + t.thread.isSome.toNat + (holds t.handler).toNat = 1
  current : seeks t.handler = true → t.currentPid = pid

/-- The process in slices, and its uninterrupted run so far. -/
structure Related (decode : String → List String) (pid : UInt32) (s : Machine)
    (u : Uninterrupted) : Prop where
  executed : s.executed.map Executed.word = u.executed
  exited : s.exited = u.exited
  like : Like s.cpu.cpu u.cpu
  calm : u.cpu.Calm
  memory : EqUpToContext pid s.memory u.memory
  token : Token pid s.cpu
  stage : Stage decode pid s.cpu.thread s.exited s.cpu.cpu s.cpu.args s.memory u.cpu.context

/-! ### One execution thread at a time -/

section Token

variable {c c' : Threads.State} {place : Threads.ThreadAt}

theorem Token.threadStep (token : Token pid c) (at_place : c.thread = some place)
    (taken : Threads.threadStep c place = some c') : Token pid c' := by
  obtain ⟨once, current⟩ := token
  rw [at_place] at once
  cases place with
  | awaitInstruction => simp [Threads.threadStep] at taken
  | head | sendExit | checkFinishing | checkInterrupt | interrupted | postReady | clearInterrupt
  | finish =>
      obtain rfl := Option.some.inj taken
      exact ⟨once, current⟩
  | checkExit interrupt =>
      simp only [Threads.threadStep] at taken
      split at taken
      · obtain rfl := Option.some.inj taken
        cases interrupt <;> exact ⟨once, current⟩
      · obtain rfl := Option.some.inj taken
        exact ⟨once, current⟩
  | checkStop interrupt =>
      simp only [Threads.threadStep] at taken
      split at taken
      · obtain rfl := Option.some.inj taken
        cases interrupt <;> exact ⟨once, current⟩
      · obtain rfl := Option.some.inj taken
        exact ⟨once, current⟩
  | execute decoded =>
      simp only [Threads.threadStep] at taken
      split at taken
      · cases taken
      · obtain rfl := Option.some.inj taken
        exact ⟨once, current⟩
  | postFinished =>
      obtain rfl := Option.some.inj taken
      refine ⟨?_, current⟩
      simp only [Option.isSome_some, Option.isSome_none, Bool.toNat_true, Bool.toNat_false]
        at once ⊢
      omega

/-- A step of the handler, and what it leaves to the execution thread. -/
theorem Token.handlerStep (token : Token pid c) (taken : Threads.handlerStep c = some c') :
    Token pid c' ∧ c'.thread = c.thread ∧ c'.cpu = c.cpu ∧ c'.args = c.args := by
  obtain ⟨once, current⟩ := token
  cases at_handler : c.handler with
  | receiving | awaitContext => simp [Threads.handlerStep, at_handler] at taken
  | awaitFinished =>
      simp only [Threads.handlerStep, at_handler] at taken
      split at taken
      · rename_i posted
        obtain rfl := Option.some.inj taken
        rw [at_handler] at once current
        refine ⟨⟨?_, current⟩, rfl, rfl, rfl⟩
        simp only [holds, Bool.toNat_true, Bool.toNat_false] at once ⊢
        omega
      · cases taken
  | awaitHandled | awaitReady =>
      simp only [Threads.handlerStep, at_handler] at taken
      split at taken
      · obtain rfl := Option.some.inj taken
        rw [at_handler] at once current
        exact ⟨⟨once, current⟩, rfl, rfl, rfl⟩
      · cases taken
  | postFinished =>
      simp only [Threads.handlerStep, at_handler] at taken
      obtain rfl := Option.some.inj taken
      rw [at_handler] at once
      refine ⟨⟨?_, fun seeking => by cases seeking⟩, rfl, rfl, rfl⟩
      simp only [holds, Bool.toNat_true, Bool.toNat_false] at once ⊢
      omega
  | readInterrupt =>
      simp only [Threads.handlerStep, at_handler] at taken
      obtain rfl := Option.some.inj taken
      rw [at_handler] at once current
      refine ⟨⟨?_, fun _ => current rfl⟩, rfl, rfl, rfl⟩
      dsimp only
      split <;> exact once
  | readExecuting =>
      simp only [Threads.handlerStep, at_handler] at taken
      obtain rfl := Option.some.inj taken
      rw [at_handler] at once
      refine ⟨⟨?_, fun seeking => ?_⟩, rfl, rfl, rfl⟩
      · dsimp only
        split <;> exact once
      · dsimp only at seeking
        split at seeking <;> cases seeking
  | start | giveUp | interrupt | clearInterrupt | confirm | postHandled =>
      simp only [Threads.handlerStep, at_handler] at taken
      obtain rfl := Option.some.inj taken
      rw [at_handler] at once current
      refine ⟨⟨once, fun seeking => ?_⟩, rfl, rfl, rfl⟩
      first | exact current rfl | cases seeking

end Token

/-! ### The steps that are hidden -/

namespace Related

theorem contexts (related : Related decode pid s u) : s.cpu.cpu.contexts = [] :=
  related.like.contexts.trans related.calm.contexts

theorem hasJumped (related : Related decode pid s u) : s.cpu.cpu.hasJumped = false :=
  related.like.hasJumped.trans related.calm.hasJumped

/-- The CPU goes on. -/
theorem setCpu (related : Related decode pid s u) {cpu : Threads.State}
    (like : Like cpu.cpu s.cpu.cpu) (token : Token pid cpu)
    (stage : Stage decode pid cpu.thread s.exited cpu.cpu cpu.args s.memory u.cpu.context) :
    Related decode pid { s with cpu } u :=
  { related with like := like.trans related.like, token := token, stage := stage }

/-- The handler goes on. -/
theorem handler (related : Related decode pid s u) {cpu : Threads.State}
    (taken : Threads.handlerStep s.cpu = some cpu) : Related decode pid { s with cpu } u := by
  obtain ⟨token, thread, same, args⟩ := related.token.handlerStep taken
  refine related.setCpu (same ▸ .refl _) token ?_
  rw [thread, same, args]
  exact related.stage

end Related

theorem settle_eq {cpu : Threads.State} {memory : State} (sent : cpu.cpu.contexts = []) :
    s.settle cpu memory = { s with cpu, memory } := by
  have same : ({ cpu.cpu with contexts := [] } : Execution) = cpu.cpu := by rw [← sent]
  unfold Machine.settle
  rw [same, sent]
  rfl

/-- The execution thread goes on, and sends nothing. -/
theorem Related.settled (related : Related decode pid s u) {cpu : Threads.State}
    (like : Like cpu.cpu s.cpu.cpu) (token : Token pid cpu)
    (stage : Stage decode pid cpu.thread s.exited cpu.cpu cpu.args s.memory u.cpu.context) :
    Related decode pid (s.settle cpu s.memory) u := by
  rw [settle_eq (like.contexts.trans related.contexts)]
  exact related.setCpu like token stage

/-- The execution thread goes on, between two instructions. -/
theorem Related.thread (related : Related decode pid s u) {place : Threads.ThreadAt}
    (at_place : s.cpu.thread = some place) (quiet : ∀ decoded, place ≠ .execute decoded)
    {cpu : Threads.State} (taken : Threads.threadStep s.cpu place = some cpu) :
    Related decode pid (s.settle cpu s.memory) u := by
  have token := related.token.threadStep at_place taken
  have stage := related.stage
  have sent := related.contexts
  rw [at_place] at stage
  cases place with
  | execute decoded => exact absurd rfl (quiet decoded)
  | awaitInstruction => simp [Threads.threadStep] at taken
  | head | finish | postFinished | postReady =>
      obtain rfl := Option.some.inj taken
      exact related.settled (.refl _) token stage
  | sendExit =>
      obtain rfl := Option.some.inj taken
      exact related.settled (.refl _) token (.inr stage)
  | clearInterrupt =>
      obtain rfl := Option.some.inj taken
      exact related.settled (.refl _) token (.inl stage)
  | checkInterrupt =>
      obtain rfl := Option.some.inj taken
      refine related.settled (.refl _) token ?_
      dsimp only
      split
      · exact stage
      · exact .inl stage
  | checkFinishing =>
      obtain rfl := Option.some.inj taken
      refine related.settled (.refl _) token ?_
      rcases stage with live | kept | ended
      · simp only [live.stays, live.runs, Bool.or_self, Bool.false_eq_true, if_false]
        exact live
      · simp only [kept.stops, Bool.or_true, if_true]
        exact .inr (.inl kept)
      · simp only [ended.exits, Bool.true_or, if_true]
        exact .inr (.inr ended)
  | checkExit interrupt =>
      simp only [Threads.threadStep] at taken
      split at taken
      · rename_i exits
        obtain rfl := Option.some.inj taken
        rcases stage with live | kept | ended
        · simp [live.stays] at exits
        · simp [kept.stays] at exits
        · refine related.settled ⟨rfl, rfl, rfl, rfl, rfl, rfl⟩ token ?_
          exact ⟨ended.ends, rfl, ended.runs, ended.context⟩
      · rename_i stays
        obtain rfl := Option.some.inj taken
        refine related.settled (.refl _) token ?_
        rcases stage with live | kept | ended
        · exact .inl live
        · exact .inr kept
        · exact absurd ended.exits stays
  | checkStop interrupt =>
      simp only [Threads.threadStep] at taken
      split at taken
      · rename_i stops
        obtain rfl := Option.some.inj taken
        rcases stage with live | kept
        · simp [live.runs] at stops
        · refine related.settled ⟨rfl, rfl, rfl, rfl, rfl, rfl⟩ token ?_
          exact .inl ⟨kept.goes, kept.stays, rfl, kept.saved⟩
      · rename_i runs
        obtain rfl := Option.some.inj taken
        refine related.settled (.refl _) token ?_
        rcases stage with live | kept
        · exact live
        · exact absurd kept.stops runs
  | interrupted =>
      -- The context is sent, and Kernel Memory has it from here on.
      obtain rfl := Option.some.inj taken
      have received :
          received s.memory (s.cpu.cpu.contexts ++ [(s.cpu.args.pid, s.cpu.cpu.context)]) =
            contextTransfer s.memory pid u.cpu.context := by
        rw [sent, stage.owner, stage.context]
        rfl
      obtain ⟨answer, found, -⟩ := Option.map_eq_some_iff.mp stage.table
      obtain ⟨pcb, found, -⟩ := Option.map_eq_some_iff.mp found
      refine ⟨related.executed, related.exited, ?_, related.calm, ?_,
        ⟨token.once, token.current⟩, ?_⟩
      · exact { related.like with contexts := related.calm.contexts.symm }
      · show EqUpToContext pid (Machine.received _ _) u.memory
        rw [received]
        exact related.memory.transfer _
      · refine ⟨stage.goes, stage.stays, stage.runs, ?_⟩
        show (findPcb (Machine.received _ _) pid).map Pcb.context = some u.cpu.context
        rw [received, findPcb_contextTransfer_self, found]
        rfl

/-- `PROCESS_EXECUTE` and `PROCESS_EVICT` arrive. -/
theorem Related.arrive (related : Related decode pid s u) {cpu : Threads.State}
    (taken : Threads.step s.cpu (.processExecute pid) = some cpu ∨
      ∃ reason, Threads.step s.cpu (.processEvict reason) = some cpu) :
    Related decode pid { s with cpu } u := by
  obtain ⟨once, current⟩ := related.token
  rcases taken with taken | ⟨reason, taken⟩
  · simp only [Threads.step] at taken
    split at taken
    · rename_i receiving
      obtain rfl := Option.some.inj taken
      rw [receiving] at once
      exact related.setCpu (.refl _) ⟨once, fun _ => rfl⟩ related.stage
    · cases taken
  · simp only [Threads.step] at taken
    split at taken
    · rename_i receiving
      obtain rfl := Option.some.inj taken
      rw [receiving] at once
      exact related.setCpu (.refl _) ⟨once, fun seeking => by cases seeking⟩ related.stage
    · cases taken

/-- **A slice begins** with the context that the last one has saved. -/
theorem Related.load (related : Related decode pid s u) (goes : s.exited = false)
    {answer : CpuContext × List Segment}
    (sought : contextSeek s.memory s.cpu.currentPid = some answer)
    {cpu : Threads.State} (taken : Threads.step s.cpu (.contextTransfer (some answer)) = some cpu) :
    Related decode pid { s with cpu } u := by
  obtain ⟨context, segmentTable⟩ := answer
  obtain ⟨once, current⟩ := related.token
  cases waits : s.cpu.handler <;> simp only [Threads.step, waits] at taken <;> try cases taken
  rw [waits] at once current
  have owner : s.cpu.currentPid = pid := current rfl
  have idle : s.cpu.thread = none := by
    cases thread : s.cpu.thread with
    | none => rfl
    | some place => simp [thread, holds] at once
  have stage := related.stage
  rw [idle] at stage once
  rcases stage with kept | ended
  · rw [owner] at sought
    have saved : context = u.cpu.context := by
      obtain ⟨pcb, found, answered⟩ := Option.map_eq_some_iff.mp sought
      have there := kept.saved
      rw [found] at there
      exact (congrArg Prod.fst answered).symm.trans (Option.some.inj there)
    refine related.setCpu { Like.refl _ with hasJumped := related.hasJumped.symm } ⟨once, ?_⟩ ?_
    · intro seeking
      cases seeking
    · exact .inl ⟨kept.goes, kept.stays, kept.stops, saved, owner, by rw [table, sought]; rfl⟩
  · rw [goes] at ended
    cases ended.ends

/-- An instruction has been fetched. -/
theorem Related.fetch (related : Related decode pid s u) {instruction : String}
    (fetched : instructionFetch s.memory s.cpu.args.pid s.cpu.cpu.context.pc = some instruction)
    {cpu : Threads.State}
    (taken : Threads.step s.cpu (.instruction (some (decode instruction))) = some cpu) :
    Related decode pid { s with cpu } u := by
  have stage := related.stage
  cases thread : s.cpu.thread with
  | none => simp [Threads.step, thread] at taken
  | some place =>
      cases place <;> simp only [Threads.step, thread] at taken <;> try cases taken
      rw [thread] at stage
      have live : Live pid _ _ _ _ _ := stage
      refine related.setCpu (.refl _) ⟨?_, related.token.current⟩ ⟨live, ?_⟩
      · have once := related.token.once
        rw [thread] at once
        exact once
      · rw [← live.owner, fetched]
        rfl

/-- **The rest of the system does something**, as it does to the uninterrupted run. -/
theorem Related.elsewhere (related : Related decode pid s u) (world : Elsewhere pid)
    (apart : s.loaded = true → table (world.act s.memory) pid = table s.memory pid) :
    Related decode pid { s with memory := world.act s.memory }
      { u with memory := world.act u.memory } := by
  refine { related with memory := world.eqUpToContext related.memory, stage := ?_ }
  have live : s.loaded = true → Live pid s.exited s.cpu.cpu s.cpu.args s.memory u.cpu.context →
      Live pid s.exited s.cpu.cpu s.cpu.args (world.act s.memory) u.cpu.context := by
    intro loaded live
    exact { live with table := (apart loaded).trans live.table }
  have kept : ∀ {stop}, Kept pid s.exited s.cpu.cpu s.memory u.cpu.context stop →
      Kept pid s.exited s.cpu.cpu (world.act s.memory) u.cpu.context stop := by
    intro stop kept
    exact { kept with saved := world.saved kept.saved }
  have flagged : Live pid s.exited s.cpu.cpu s.cpu.args s.memory u.cpu.context →
      (!s.cpu.cpu.shouldExit && !s.cpu.cpu.shouldStop) = true := by
    intro live
    rw [live.stays, live.runs]
    rfl
  have stage := related.stage
  unfold Machine.loaded at live
  cases thread : s.cpu.thread with
  | none =>
      rw [thread] at stage
      exact stage.imp_left kept
  | some place =>
      rw [thread] at stage live
      cases place with
      | awaitInstruction | checkInterrupt | interrupted => exact live rfl stage
      | execute decoded =>
          refine ⟨live rfl stage.1, ?_⟩
          rw [world.instructionFetch_eq]
          exact stage.2
      | head | checkExit | checkFinishing =>
          exact stage.imp (fun there => live (flagged there) there) (Or.imp_left kept)
      | checkStop => exact stage.imp (fun there => live (flagged there) there) kept
      | postReady | clearInterrupt => exact kept stage
      | sendExit => exact stage
      | finish | postFinished => exact stage.imp_left kept

/-! ### The instructions -/

/-- The context has been sent, or it is not. -/
theorem received_flow {memory : State} {cpu cpu' : Execution} {args : ExecutionArgs}
    {decoded : List String} (flow : Flow decoded args cpu cpu') :
    received memory cpu'.contexts =
      if cpu'.shouldStop then contextTransfer memory args.pid cpu'.context else memory := by
  cases stop : cpu'.shouldStop with
  | false =>
      rw [flow.stays stop]
      rfl
  | true =>
      rw [(flow.stops stop).2.2]
      rfl

/-- The CPU that executes the process is the one of the uninterrupted run. -/
theorem Related.linked (related : Related decode pid s u)
    (live : Live pid s.exited s.cpu.cpu s.cpu.args s.memory u.cpu.context) :
    s.linked.cpu = { u.cpu with devices := u.memory.devices } ∧
      s.linked.args = ⟨pid, s.cpu.args.segmentTable⟩ ∧
        table u.memory pid = some s.cpu.args.segmentTable := by
  refine ⟨?_, ?_, related.memory.contextSeek_table.symm.trans live.table⟩
  · rw [← related.memory.devices]
    exact related.like.eq live.context (live.stays.trans related.calm.shouldExit.symm)
      (live.runs.trans related.calm.shouldStop.symm) _
  · rw [← live.owner]
    rfl

/-- What the next instruction of the uninterrupted run is, and does. -/
theorem uninterrupted_instruction (taken : uninterrupted decode pid u .instruction = some v) :
    u.exited = false ∧ ∃ segmentTable instruction cpu, table u.memory pid = some segmentTable ∧
      instructionFetch u.memory pid u.cpu.context.pc = some instruction ∧
        executeInstruction (decode instruction) { u.cpu with devices := u.memory.devices }
          ⟨pid, segmentTable⟩ = some cpu ∧ v = u.after (decode instruction) cpu := by
  simp only [uninterrupted] at taken
  split at taken
  · cases taken
  rename_i goes
  obtain ⟨segmentTable, sought, taken⟩ := Option.bind_eq_some_iff.mp taken
  obtain ⟨instruction, fetched, taken⟩ := Option.bind_eq_some_iff.mp taken
  obtain ⟨cpu, executed, rfl⟩ := Option.map_eq_some_iff.mp taken
  exact ⟨Bool.eq_false_of_not_eq_true goes, segmentTable, instruction, cpu, sought, fetched,
    executed, rfl⟩

/-- **`execute_instruction` is a step of the uninterrupted run.** -/
theorem Related.execute (related : Related decode pid s u) {decoded : List String}
    (at_place : s.cpu.thread = some (.execute decoded)) {cpu : Threads.State}
    (taken : Threads.threadStep s.linked (.execute decoded) = some cpu) :
    ∃ v, uninterrupted decode pid u .instruction = some v ∧
      Related decode pid (s.after decoded cpu) v := by
  have stage := related.stage
  rw [at_place] at stage
  obtain ⟨live, fetched⟩ := stage
  obtain ⟨instruction, there, rfl⟩ := Option.map_eq_some_iff.mp fetched
  obtain ⟨same, args, table⟩ := related.linked live
  have calm : ({ u.cpu with devices := u.memory.devices } : Execution).Calm :=
    ⟨related.calm.hasJumped, related.calm.shouldExit, related.calm.shouldStop,
      related.calm.contexts⟩
  rw [related.memory.instructionFetch_eq, live.context] at there
  have token : Token pid cpu :=
    Token.threadStep (c := s.linked) ⟨related.token.once, related.token.current⟩ at_place taken
  simp only [Threads.threadStep] at taken
  split at taken
  · cases taken
  rename_i after executed
  obtain rfl := Option.some.inj taken
  rw [same, args] at executed
  have flow := executeInstruction_flow calm executed
  refine ⟨u.after (decode instruction) after, ?_, ?_⟩
  · simp only [uninterrupted, ← related.exited, live.goes, Bool.false_eq_true, if_false, table,
      Option.bind_some, there, executed, Option.map_some]
  · have memory : received { s.memory with devices := (Threads.advance after).devices }
        (Threads.advance after).contexts =
          if after.shouldStop then
            contextTransfer { s.memory with devices := after.devices } pid after.context
          else { s.memory with devices := after.devices } := by
      rw [advance_devices, advance_contexts, received_flow flow]
    refine ⟨?_, advance_shouldExit after, ⟨rfl, rfl, rfl, rfl, rfl, rfl⟩,
      ⟨advance_hasJumped after, rfl, rfl, rfl⟩, ?_, ⟨token.once, token.current⟩, ?_⟩
    · simp [Machine.after, Executed.word, Uninterrupted.after, related.executed, live.context]
    · show EqUpToContext pid (received _ _) { u.memory with devices := after.devices }
      rw [memory]
      split
      · exact (related.memory.setDevices _).transfer _
      · exact related.memory.setDevices _
    · show Live _ _ _ _ (received _ _) _ ∨ Kept _ _ _ (received _ _) _ true ∨ Over _ _ _ true
      rw [memory]
      obtain ⟨answer, seek, answered⟩ := Option.map_eq_some_iff.mp live.table
      obtain ⟨pcb, found, rfl⟩ := Option.map_eq_some_iff.mp seek
      cases stop : after.shouldStop with
      | true =>
          obtain ⟨stays, jumped, -⟩ := flow.stops stop
          right
          left
          refine ⟨(advance_shouldExit after).trans stays, (advance_shouldExit after).trans stays,
            (advance_shouldStop after).trans stop, ?_⟩
          rw [if_pos rfl, findPcb_contextTransfer_self]
          show ((findPcb s.memory pid).map _).map _ = some (Threads.advance after).context
          rw [found, Threads.advance, if_pos jumped]
          rfl
      | false =>
          rw [if_neg Bool.false_ne_true]
          cases exits : after.shouldExit with
          | true =>
              right
              right
              exact ⟨(advance_shouldExit after).trans exits, (advance_shouldExit after).trans exits,
                (advance_shouldStop after).trans stop, rfl⟩
          | false =>
              left
              exact ⟨(advance_shouldExit after).trans exits, (advance_shouldExit after).trans exits,
                (advance_shouldStop after).trans stop, rfl, live.owner, live.table⟩

/-- **The process in slices shows its uninterrupted run.** -/
theorem simulation (decode : String → List String) (pid : UInt32) :
    Simulation (step decode pid) (fun _ _ => True) (uninterrupted decode pid) Action.visible
      (Related decode pid) where
  hidden := by
    intro s t u a related _ taken hidden
    cases a with
    | processExecute =>
        obtain ⟨cpu, gone, rfl⟩ := Option.map_eq_some_iff.mp taken
        exact related.arrive (.inl gone)
    | processEvict reason =>
        obtain ⟨cpu, gone, rfl⟩ := Option.map_eq_some_iff.mp taken
        exact related.arrive (.inr ⟨reason, gone⟩)
    | handler =>
        obtain ⟨cpu, gone, rfl⟩ := Option.map_eq_some_iff.mp taken
        exact related.handler gone
    | contextTransfer =>
        simp only [step] at taken
        split at taken
        · cases taken
        · rename_i goes
          obtain ⟨answer, sought, taken⟩ := Option.bind_eq_some_iff.mp taken
          obtain ⟨cpu, gone, rfl⟩ := Option.map_eq_some_iff.mp taken
          exact related.load (Bool.eq_false_of_not_eq_true goes) sought gone
    | instruction =>
        obtain ⟨instruction, fetched, taken⟩ := Option.bind_eq_some_iff.mp taken
        obtain ⟨cpu, gone, rfl⟩ := Option.map_eq_some_iff.mp taken
        exact related.fetch fetched gone
    | thread =>
        simp only [step] at taken
        split at taken
        · cases taken
        · rename_i quiet
          obtain ⟨cpu, gone, rfl⟩ := Option.map_eq_some_iff.mp taken
          obtain ⟨place, at_place, went⟩ := Option.bind_eq_some_iff.mp gone
          refine related.thread at_place (fun decoded eq => ?_) went
          exact quiet decoded (eq ▸ at_place)
    | execute | elsewhere => cases hidden
  seen := by
    intro s t u a b related _ taken seen
    cases a with
    | execute =>
        obtain rfl := Option.some.inj seen
        simp only [step] at taken
        split at taken
        · rename_i decoded at_place
          obtain ⟨cpu, gone, rfl⟩ := Option.map_eq_some_iff.mp taken
          obtain ⟨place, at_place', went⟩ := Option.bind_eq_some_iff.mp gone
          obtain rfl : place = .execute decoded :=
            Option.some.inj (at_place'.symm.trans at_place)
          exact related.execute at_place went
        · cases taken
    | elsewhere world =>
        obtain rfl := Option.some.inj seen
        simp only [step] at taken
        split at taken
        · cases taken
        · rename_i apart
          obtain rfl := Option.some.inj taken
          refine ⟨_, rfl, related.elsewhere world fun loaded => ?_⟩
          by_contra changed
          exact apart ⟨loaded, changed⟩
    | processExecute | processEvict | handler | contextTransfer | instruction | thread =>
        cases seen

/-! ### What the slices show -/

theorem registers_of_loaded {context : CpuContext} (here : (s.loaded || s.exited) = true)
    (same : s.cpu.cpu.context = context) : s.registers pid = some context := by
  rw [Machine.registers, if_pos here, same]

theorem registers_of_saved {context : CpuContext} (away : s.loaded = false)
    (goes : s.exited = false)
    (saved : (findPcb s.memory pid).map Pcb.context = some context) :
    s.registers pid = some context := by
  rw [Machine.registers, away, goes]
  exact saved

theorem Related.registers (related : Related decode pid s u) :
    s.registers pid = some u.cpu.context := by
  have stage := related.stage
  cases thread : s.cpu.thread with
  | none =>
      rw [thread] at stage
      rcases stage with kept | ended
      · exact registers_of_saved (by simp [loaded, thread]) kept.goes kept.saved
      · exact registers_of_loaded (by simp [ended.ends]) ended.context
  | some place =>
      rw [thread] at stage
      cases place with
      | awaitInstruction | checkInterrupt | interrupted =>
          exact registers_of_loaded (by simp [loaded, thread]) stage.context
      | execute decoded => exact registers_of_loaded (by simp [loaded, thread]) stage.1.context
      | head | checkExit | checkFinishing =>
          rcases stage with live | kept | ended
          · exact registers_of_loaded (by simp [loaded, thread, live.stays, live.runs]) live.context
          · exact registers_of_saved (by simp [loaded, thread, kept.stops]) kept.goes kept.saved
          · exact registers_of_loaded (by simp [ended.ends]) ended.context
      | checkStop =>
          rcases stage with live | kept
          · exact registers_of_loaded (by simp [loaded, thread, live.stays, live.runs]) live.context
          · exact registers_of_saved (by simp [loaded, thread, kept.stops]) kept.goes kept.saved
      | postReady | clearInterrupt =>
          exact registers_of_saved (by simp [loaded, thread]) stage.goes stage.saved
      | sendExit => exact registers_of_loaded (by simp [stage.ends]) stage.context
      | finish | postFinished =>
          rcases stage with kept | ended
          · exact registers_of_saved (by simp [loaded, thread]) kept.goes kept.saved
          · exact registers_of_loaded (by simp [ended.ends]) ended.context

theorem Related.agrees (related : Related decode pid s u) : Agrees pid s u where
  executed := related.executed
  exited := related.exited
  registers := related.registers
  syscalls := related.like.syscalls
  touched := related.like.touched
  memory := related.memory

theorem initial_related {memory : State} {pcb : Pcb} (found : findPcb memory pid = some pcb)
    (segmentMaxSize : UInt32) :
    Related decode pid (initial segmentMaxSize memory)
      (start segmentMaxSize memory pcb.context) where
  executed := rfl
  exited := rfl
  like := ⟨rfl, rfl, rfl, rfl, rfl, rfl⟩
  calm := ⟨rfl, rfl, rfl, rfl⟩
  memory := .refl memory
  token := ⟨rfl, fun seeking => by cases seeking⟩
  stage := .inl ⟨rfl, rfl, rfl, by rw [initial, found]; rfl⟩

/-! ### The instructions follow one another -/

/-- The instructions so far follow one another, and the next one follows the last. -/
structure Steps (u : Uninterrupted) : Prop where
  inOrder : InOrder u.executed
  next : ∀ last ∈ u.executed.getLast?, u.cpu.context.pc = last.1 + 1 ∨ MayJump last.2
  calm : u.cpu.Calm

theorem Steps.step (steps : Steps u) {b : Visible pid}
    (taken : uninterrupted decode pid u b = some v) : Steps v := by
  cases b with
  | elsewhere world =>
      obtain rfl := Option.some.inj taken
      exact ⟨steps.inOrder, steps.next, steps.calm⟩
  | instruction =>
      obtain ⟨-, segmentTable, instruction, after, -, -, executed, rfl⟩ :=
        uninterrupted_instruction taken
      have calm : ({ u.cpu with devices := u.memory.devices } : Execution).Calm :=
        ⟨steps.calm.hasJumped, steps.calm.shouldExit, steps.calm.shouldStop, steps.calm.contexts⟩
      have flow := executeInstruction_flow calm executed
      refine ⟨?_, ?_, ⟨advance_hasJumped after, rfl, rfl, rfl⟩⟩
      · refine List.isChain_append.mpr ⟨steps.inOrder, .singleton _, ?_⟩
        intro last isLast next isNext
        obtain rfl := Option.some.inj isNext
        exact steps.next last isLast
      · intro last isLast
        rw [Uninterrupted.after, List.getLast?_concat] at isLast
        obtain rfl := Option.some.inj isLast
        exact flow.next

theorem inOrder_of_run {ok : Uninterrupted → Visible pid → Prop} {bs : List (Visible pid)}
    {segmentMaxSize : UInt32} {memory : State} {context : CpuContext}
    (run : Run (uninterrupted decode pid) ok (start segmentMaxSize memory context) bs u) :
    InOrder u.executed := by
  have steps : Steps (start segmentMaxSize memory context) :=
    ⟨.nil, fun last isLast => (by cases isLast), ⟨rfl, rfl, rfl, rfl⟩⟩
  exact (run.invariant (fun steps _ taken => steps.step taken) steps).inOrder

end OsModel.Slices
