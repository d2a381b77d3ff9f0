import OsModel.System.SliceRuns

/-!
Preemption is transparent.

Every run in slices shows the uninterrupted run (`simulation`). For the other direction a slice
is brought to each instruction of that run (`way`), with an interruption pending at the end of
the instructions that one likes: `PROCESS_EVICT` arrives once the instruction has been fetched.

* `preemption_transparent`: both directions.
-/

namespace OsModel.Slices

open Lib KernelMemory Cpu Machine

variable {decode : String → List String} {pid : UInt32} {s t : Machine} {u v : Uninterrupted}
  {pending : ℕ → Option InterruptReason}

/-! ### Parts of a slice -/

/-- Where the two threads are, and what they say to each other. -/
structure At (s : Machine) (handler : Threads.HandlerAt) (thread : Option Threads.ThreadAt)
    (interruptPending : Bool) (evictionReady : ℕ) (isExecuting : Bool) : Prop where
  handler : s.cpu.handler = handler
  thread : s.cpu.thread = thread
  interruptPending : s.cpu.interruptPending = interruptPending
  evictionReady : s.cpu.evictionReady = evictionReady
  isExecuting : s.cpu.isExecuting = isExecuting

/-- A hidden part of a run: it leads to these places, and executes nothing. -/
def Leads (decode : String → List String) (pid : UInt32) (s : Machine) (P : Machine → Prop) :
    Prop :=
  ∃ as t, Run (step decode pid) (fun _ _ => True) s as t ∧ as.filterMap Action.visible = [] ∧
    t.executed = s.executed ∧ P t

theorem Leads.trans {P Q : Machine → Prop} (first : Leads decode pid s P)
    (second : ∀ t, P t → Leads decode pid t Q) : Leads decode pid s Q := by
  obtain ⟨as, t, run, hidden, executed, there⟩ := first
  obtain ⟨bs, t', run', hidden', executed', there'⟩ := second t there
  exact ⟨as ++ bs, t', run.trans run', by rw [List.filterMap_append, hidden, hidden']; rfl,
    executed'.trans executed, there'⟩

theorem leads_load (place : At s .receiving none false 0 false) (goes : s.exited = false)
    (finished : s.cpu.executionFinished = 1) {context : CpuContext} {segmentTable : List Segment}
    (sought : contextSeek s.memory pid = some (context, segmentTable)) :
    Leads decode pid s fun t => At t .receiving (some .head) false 0 true ∧
      t.cpu.cpu.shouldExit = s.cpu.cpu.shouldExit ∧
        t.cpu.cpu.shouldStop = s.cpu.cpu.shouldStop := by
  obtain ⟨handler, thread, interruptPending, evictionReady, isExecuting⟩ := place
  refine ⟨[.processExecute, .handler, .handler, .handler, .contextTransfer],
    { s with cpu := { s.cpu with
      currentPid := pid, executionFinished := 0, isExecuting := true, handler := .receiving
      cpu := { s.cpu.cpu with context, hasJumped := false }
      args := ⟨pid, segmentTable⟩, thread := some .head } }, Run.of_exec ?_, rfl, rfl,
    ⟨rfl, rfl, interruptPending, evictionReady, rfl⟩, rfl, rfl⟩
  simp [exec, step, Threads.step, Threads.handlerStep, handler, thread, interruptPending, goes,
    finished, sought]

/-- An instruction is fetched. -/
theorem leads_fetch (place : At s .receiving (some .head) false 0 true)
    (stays : s.cpu.cpu.shouldExit = false) (runs : s.cpu.cpu.shouldStop = false)
    (sent : s.cpu.cpu.contexts = []) {instruction : String}
    (fetched : instructionFetch s.memory s.cpu.args.pid s.cpu.cpu.context.pc = some instruction) :
    Leads decode pid s fun t =>
      At t .receiving (some (.execute (decode instruction))) false 0 true := by
  obtain ⟨handler, thread, interruptPending, evictionReady, isExecuting⟩ := place
  refine ⟨[.thread, .thread, .thread, .instruction],
    { s with cpu := { s.cpu with thread := some (.execute (decode instruction)) } },
    Run.of_exec ?_, rfl, rfl, ⟨handler, rfl, interruptPending, evictionReady, isExecuting⟩⟩
  simp [exec, step, Threads.step, Threads.threadStep, thread, stays, runs, settle_eq, sent, fetched]

/-- `PROCESS_EVICT` arrives, and the handler waits for the execution thread. -/
theorem leads_evict {place : Option Threads.ThreadAt}
    (at_place : At s .receiving place false 0 true) (reason : InterruptReason) :
    Leads decode pid s fun t =>
      At t .awaitReady place true 0 true ∧ t.cpu.interruptReason = reason := by
  obtain ⟨handler, thread, interruptPending, evictionReady, isExecuting⟩ := at_place
  refine ⟨[.processEvict reason, .handler, .handler],
    { s with cpu := { s.cpu with
      interruptPending := true, interruptReason := reason, handler := .awaitReady
      evictions := s.cpu.evictions + 1 } }, Run.of_exec ?_, rfl, rfl,
    ⟨rfl, thread, rfl, evictionReady, isExecuting⟩, rfl⟩
  simp [exec, step, Threads.step, Threads.handlerStep, handler, isExecuting]

/-- The handler confirms the eviction. -/
theorem leads_confirm (place : At s .awaitReady none false 1 false) :
    Leads decode pid s fun t => At t .receiving none false 0 false := by
  obtain ⟨handler, thread, interruptPending, evictionReady, isExecuting⟩ := place
  refine ⟨[.handler, .handler, .handler],
    { s with cpu := { s.cpu with
      evictionReady := 0, evictionHandled := s.cpu.evictionHandled + 1, handler := .receiving
      replies := s.cpu.replies ++ [.confirmation s.cpu.currentPid] } }, Run.of_exec ?_, rfl, rfl,
    ⟨rfl, thread, interruptPending, rfl, isExecuting⟩⟩
  simp [exec, step, Threads.step, Threads.handlerStep, handler, evictionReady]

/-- The process goes on. -/
theorem leads_head {handler : Threads.HandlerAt}
    (place : At s handler (some .checkFinishing) false 0 true)
    (stays : s.cpu.cpu.shouldExit = false) (runs : s.cpu.cpu.shouldStop = false)
    (sent : s.cpu.cpu.contexts = []) :
    Leads decode pid s fun t => At t handler (some .head) false 0 true ∧
      t.cpu.cpu.shouldExit = false ∧ t.cpu.cpu.shouldStop = false := by
  obtain ⟨handler, thread, interruptPending, evictionReady, isExecuting⟩ := place
  refine ⟨[.thread, .thread], { s with cpu := { s.cpu with thread := some .head } },
    Run.of_exec ?_, rfl, rfl, ⟨handler, rfl, interruptPending, evictionReady, isExecuting⟩, stays,
      runs⟩
  simp [exec, step, Threads.step, Threads.threadStep, thread, stays, runs, settle_eq, sent,
    interruptPending]

/-- The process ends, or stops for a syscall. -/
theorem leads_finish {handler : Threads.HandlerAt} {pend : Bool}
    (place : At s handler (some .checkFinishing) pend 0 true)
    (finishes : s.cpu.cpu.shouldExit = true ∨
      s.cpu.cpu.shouldExit = false ∧ s.cpu.cpu.shouldStop = true) :
    Leads decode pid s fun t => At t handler none false pend.toNat false := by
  obtain ⟨handler, thread, interruptPending, evictionReady, isExecuting⟩ := place
  obtain ⟨t, run, test⟩ := Run.exists_of_exec (step decode pid) (fun _ _ => True)
    (List.replicate 6 .thread) s
    (fun t => decide (t.executed = s.executed ∧ t.cpu.handler = s.cpu.handler ∧
      t.cpu.thread = none ∧ t.cpu.interruptPending = false ∧ t.cpu.evictionReady = pend.toNat ∧
        t.cpu.isExecuting = false)) (by
      rcases finishes with exits | ⟨stays, stops⟩
      · cases pend <;>
          simp [exec, step, Threads.step, Threads.threadStep, thread, exits, settle,
            Threads.State.acknowledge, interruptPending, evictionReady, List.replicate]
      · cases pend <;>
          simp [exec, step, Threads.step, Threads.threadStep, thread, stays, stops, settle,
            Threads.State.acknowledge, interruptPending, evictionReady, List.replicate])
  obtain ⟨executed, handler', thread', pending', ready', executing'⟩ := of_decide_eq_true test
  exact ⟨_, t, run, rfl, executed, handler'.trans handler, thread', pending', ready', executing'⟩

/-- The process is interrupted. -/
theorem leads_interrupt {handler : Threads.HandlerAt}
    (place : At s handler (some .checkFinishing) true 0 true)
    (stays : s.cpu.cpu.shouldExit = false) (runs : s.cpu.cpu.shouldStop = false) :
    Leads decode pid s fun t => At t handler none false 1 false := by
  obtain ⟨handler, thread, interruptPending, evictionReady, isExecuting⟩ := place
  obtain ⟨t, run, test⟩ := Run.exists_of_exec (step decode pid) (fun _ _ => True)
    (List.replicate 7 .thread) s
    (fun t => decide (t.executed = s.executed ∧ t.cpu.handler = s.cpu.handler ∧
      t.cpu.thread = none ∧ t.cpu.interruptPending = false ∧ t.cpu.evictionReady = 1 ∧
        t.cpu.isExecuting = false)) (by
      simp [exec, step, Threads.step, Threads.threadStep, thread, stays, runs, settle,
        interruptPending, evictionReady, List.replicate])
  obtain ⟨executed, handler', thread', pending', ready', executing'⟩ := of_decide_eq_true test
  exact ⟨_, t, run, rfl, executed, handler'.trans handler, thread', pending', ready', executing'⟩

/-- The instruction that has been fetched is executed. -/
theorem execute_taken (related : Related decode pid s u) {handler : Threads.HandlerAt}
    {decoded : List String} {pend : Bool}
    (place : At s handler (some (.execute decoded)) pend 0 true)
    (taken : uninterrupted decode pid u .instruction = some v) :
    ∃ t, step decode pid s .execute = some t ∧ Related decode pid t v ∧
      At t handler (some .checkFinishing) pend 0 true ∧
        t.executed = s.executed ++ [⟨s.cpu.cpu.context.pc, decoded, s.interrupt⟩] ∧
          v.stopped = t.cpu.cpu.shouldStop := by
  have stage := related.stage
  rw [place.thread] at stage
  obtain ⟨live, fetched⟩ := stage
  obtain ⟨same, args, sought⟩ := related.linked live
  obtain ⟨-, segmentTable, instruction, after, sought', fetched', executed, rfl⟩ :=
    uninterrupted_instruction taken
  rw [related.memory.instructionFetch_eq, live.context, fetched'] at fetched
  obtain rfl : decode instruction = decoded := Option.some.inj fetched
  obtain rfl : segmentTable = s.cpu.args.segmentTable :=
    Option.some.inj (sought'.symm.trans sought)
  rw [← same, ← args] at executed
  have steps : step decode pid s .execute = some (s.after (decode instruction)
      { s.linked with cpu := Threads.advance after, thread := some .checkFinishing }) := by
    have there : s.linked.thread = some (.execute (decode instruction)) := place.thread
    simp [step, place.thread, Threads.step, there, Threads.threadStep, executed]
  obtain ⟨v, taken', related'⟩ := (simulation decode pid).seen related trivial steps rfl
  obtain rfl := Option.some.inj (taken.symm.trans taken')
  exact ⟨_, steps, related', ⟨place.handler, rfl, place.interruptPending, place.evictionReady,
    place.isExecuting⟩, rfl, (advance_shouldStop after).symm⟩

/-! ### One instruction after another -/

/-- The process is between two instructions, and interruptions have been pending where `pending`
says. -/
structure Ready (decode : String → List String) (pid : UInt32)
    (pending : ℕ → Option InterruptReason) (s : Machine) (u : Uninterrupted) : Prop where
  related : Related decode pid s u
  place : At s .receiving none false 0 false ∨
    At s .receiving (some .head) false 0 true ∧ s.cpu.cpu.shouldExit = false ∧
      s.cpu.cpu.shouldStop = false ∧ ¬Between pending u
  pattern : s.executed.map Executed.interrupt = (List.range s.executed.length).map pending

/-- Hidden steps keep the relation. -/
theorem Leads.related {P : Machine → Prop} (related : Related decode pid s u)
    (leads : Leads decode pid s P) :
    Leads decode pid s fun t => Related decode pid t u ∧ P t := by
  obtain ⟨as, t, run, hidden, executed, there⟩ := leads
  exact ⟨as, t, run, hidden, executed,
    (simulation decode pid).run_hidden related run hidden, there⟩

/-- The CPU has the context of a process that has not ended. -/
theorem Ready.leads_head (ready : Ready decode pid pending s u) (goes : u.exited = false) :
    Leads decode pid s fun t => Related decode pid t u ∧
      At t .receiving (some .head) false 0 true ∧ t.cpu.cpu.shouldExit = false ∧
        t.cpu.cpu.shouldStop = false := by
  rcases ready.place with place | ⟨place, stays, runs, -⟩
  · have stage := ready.related.stage
    rw [place.thread] at stage
    rcases stage with kept | ended
    · have finished : s.cpu.executionFinished = 1 := by
        have once := ready.related.token.once
        rw [place.thread, place.handler] at once
        simpa [holds] using once
      obtain ⟨pcb, found, -⟩ := Option.map_eq_some_iff.mp kept.saved
      refine Leads.related ready.related ?_
      refine (leads_load place kept.goes finished (by rw [contextSeek, found]; rfl)).trans ?_
      rintro t ⟨there, stays, runs⟩
      exact ⟨[], t, .refl t, rfl, rfl, there, stays.trans kept.stays, runs.trans kept.stops⟩
    · rw [ready.related.exited, goes] at ended
      cases ended.ends
  · exact ⟨[], s, .refl s, rfl, rfl, ready.related, place, stays, runs⟩

/-- The next instruction is fetched, and an interruption arrives or does not. -/
theorem Ready.leads_execute (ready : Ready decode pid pending s u) (goes : u.exited = false)
    {instruction : String}
    (fetched : instructionFetch u.memory pid u.cpu.context.pc = some instruction)
    (reason : Option InterruptReason) :
    Leads decode pid s fun t => Related decode pid t u ∧ t.interrupt = reason ∧
      At t (if reason.isSome then .awaitReady else .receiving)
        (some (.execute (decode instruction))) reason.isSome 0 true := by
  refine (ready.leads_head goes).trans ?_
  rintro t ⟨related, place, stays, runs⟩
  have stage := related.stage
  rw [place.thread] at stage
  have live : Live pid t.exited t.cpu.cpu t.cpu.args t.memory u.cpu.context := by
    rcases stage with live | kept | ended
    · exact live
    · exact absurd (runs.symm.trans kept.stops) Bool.false_ne_true
    · exact absurd (stays.symm.trans ended.exits) Bool.false_ne_true
  rw [← related.memory.instructionFetch_eq, ← live.context, ← live.owner] at fetched
  refine (Leads.related related (leads_fetch place stays runs related.contexts fetched)).trans ?_
  rintro t ⟨related, place⟩
  cases reason with
  | none =>
      refine ⟨[], t, .refl t, rfl, rfl, related, ?_, place⟩
      rw [interrupt, place.interruptPending]
      rfl
  | some reason =>
      refine (Leads.related related (leads_evict place reason)).trans ?_
      rintro t ⟨related, place, same⟩
      refine ⟨[], t, .refl t, rfl, rfl, related, ?_, place⟩
      rw [interrupt, place.interruptPending, same]
      rfl

/-- The execution thread has left the loop, and the eviction is confirmed. -/
theorem leads_confirmed {pend : Bool}
    (place : At s (if pend then .awaitReady else .receiving) none false pend.toNat false) :
    Leads decode pid s fun t => At t .receiving none false 0 false := by
  cases pend with
  | false => exact ⟨[], s, .refl s, rfl, rfl, place⟩
  | true => exact leads_confirm place

/-- After an instruction the process goes on, or its slice ends. -/
theorem leads_next {pend : Bool} (related : Related decode pid s u)
    (place : At s (if pend then .awaitReady else .receiving) (some .checkFinishing) pend 0 true) :
    Leads decode pid s fun t => At t .receiving none false 0 false ∨
      At t .receiving (some .head) false 0 true ∧ t.cpu.cpu.shouldExit = false ∧
        t.cpu.cpu.shouldStop = false ∧ pend = false ∧ s.cpu.cpu.shouldStop = false ∧
          s.exited = false := by
  have left {t : Machine} (place : At t .receiving none false 0 false) :
      At t .receiving none false 0 false ∨
        At t .receiving (some .head) false 0 true ∧ t.cpu.cpu.shouldExit = false ∧
          t.cpu.cpu.shouldStop = false ∧ pend = false ∧ s.cpu.cpu.shouldStop = false ∧
            s.exited = false := .inl place
  have stage := related.stage
  rw [place.thread] at stage
  rcases stage with live | kept | ended
  · cases pend with
    | false =>
        refine (leads_head place live.stays live.runs related.contexts).trans ?_
        rintro t ⟨place, stays, runs⟩
        exact ⟨[], t, .refl t, rfl, rfl, .inr ⟨place, stays, runs, rfl, live.runs, live.goes⟩⟩
    | true =>
        refine (leads_interrupt place live.stays live.runs).trans fun t place => ?_
        refine (leads_confirm place).trans fun t place => ?_
        exact ⟨[], t, .refl t, rfl, rfl, left place⟩
  · refine (leads_finish place (.inr ⟨kept.stays, kept.stops⟩)).trans fun t place => ?_
    refine (leads_confirmed place).trans fun t place => ?_
    exact ⟨[], t, .refl t, rfl, rfl, left place⟩
  · refine (leads_finish place (.inl ended.exits)).trans fun t place => ?_
    refine (leads_confirmed place).trans fun t place => ?_
    exact ⟨[], t, .refl t, rfl, rfl, left place⟩

/-- **Every step of the uninterrupted run is shown by slices**, with an interruption pending at
the end of an instruction if one likes. -/
theorem way {b : Visible pid} (ready : Ready decode pid pending s u) (apart : Apart pending u b)
    (taken : uninterrupted decode pid u b = some v) :
    ∃ as t, Run (step decode pid) (fun _ _ => True) s as t ∧
      as.filterMap Action.visible = [b] ∧ Ready decode pid pending t v := by
  cases b with
  | instruction =>
      obtain ⟨goes, segmentTable, instruction, cpu, -, fetched, -, after⟩ :=
        uninterrupted_instruction taken
      obtain ⟨as, t, run, hidden, executed, related, interrupt, place⟩ :=
        ready.leads_execute goes fetched (pending s.executed.length)
      obtain ⟨t', steps, related', place', executed', stopped⟩ := execute_taken related place taken
      obtain ⟨bs, t'', run', hidden', executed'', related'', place''⟩ :=
        Leads.related related' (leads_next related' place')
      have pattern : t''.executed = s.executed ++
          [⟨t.cpu.cpu.context.pc, decode instruction, pending s.executed.length⟩] := by
        rw [executed'', executed', executed, interrupt]
      refine ⟨as ++ [.execute] ++ bs, t'', (run.trans (.single trivial steps)).trans run', ?_,
        related'', ?_, ?_⟩
      · rw [List.filterMap_append, List.filterMap_append, hidden, hidden']
        rfl
      · rcases place'' with place | ⟨place, stays, runs, calm, notStopped, notExited⟩
        · exact .inl place
        · refine .inr ⟨place, stays, runs, ?_⟩
          have count : v.executed.length - 1 = s.executed.length := by
            rw [← related''.executed, pattern]
            simp
          rintro (empty | stops | exits | interrupts)
          · rw [← related''.executed, pattern] at empty
            simp at empty
          · rw [stopped, notStopped] at stops
            cases stops
          · rw [← related'.exited, notExited] at exits
            cases exits
          · rw [count, calm] at interrupts
            cases interrupts
      · rw [pattern, List.map_append, ready.pattern, List.length_append, List.length_singleton,
          List.range_succ, List.map_append]
        rfl
  | elsewhere world =>
      obtain rfl := Option.some.inj taken
      have same : s.loaded = true → table (world.act s.memory) pid = table s.memory pid := by
        intro loaded
        rcases ready.place with place | ⟨-, -, -, within⟩
        · simp [Machine.loaded, place.thread] at loaded
        · rcases apart with between | apart
          · exact absurd between within
          · have seen := world.eqUpToContext ready.related.memory
            exact seen.contextSeek_table.trans
              (apart.trans ready.related.memory.contextSeek_table.symm)
      have steps : step decode pid s (.elsewhere world) =
          some { s with memory := world.act s.memory } := by
        rw [step, if_neg]
        rintro ⟨loaded, changed⟩
        exact changed (same loaded)
      refine ⟨[.elsewhere world], _, .single trivial steps, rfl,
        ready.related.elsewhere world same, ?_, ready.pattern⟩
      rcases ready.place with place | ⟨place, stays, runs, within⟩
      · exact .inl ⟨place.handler, place.thread, place.interruptPending, place.evictionReady,
          place.isExecuting⟩
      · exact .inr ⟨⟨place.handler, place.thread, place.interruptPending, place.evictionReady,
          place.isExecuting⟩, stays, runs, within⟩

/-! ### Preemption is transparent -/

/-- **Preemption transparency**: a process that is executed in slices, whatever interruptions
arrive and when, executes the instructions of its uninterrupted run, one after another, to the
same registers, memory and syscalls; and it can execute all of that run, with an interruption
pending at the end of whichever instructions one likes. -/
theorem preemption_transparent (decode : String → List String) (segmentMaxSize : UInt32)
    {pid : UInt32} {memory : State} {pcb : Pcb} (found : findPcb memory pid = some pcb) :
    (∀ as s, Run (step decode pid) (fun _ _ => True) (initial segmentMaxSize memory) as s →
      InOrder (s.executed.map Executed.word) ∧
        ∃ u, Run (uninterrupted decode pid) (fun _ _ => True)
          (start segmentMaxSize memory pcb.context) (as.filterMap Action.visible) u ∧
            Agrees pid s u) ∧
    ∀ pending bs u, Run (uninterrupted decode pid) (Apart pending)
        (start segmentMaxSize memory pcb.context) bs u →
      ∃ as s, Run (step decode pid) (fun _ _ => True) (initial segmentMaxSize memory) as s ∧
        as.filterMap Action.visible = bs ∧ Agrees pid s u ∧
          s.executed.map Executed.interrupt = (List.range s.executed.length).map pending := by
  have related : Related decode pid (initial segmentMaxSize memory)
      (start segmentMaxSize memory pcb.context) := initial_related found segmentMaxSize
  constructor
  · intro as s run
    obtain ⟨u, shown, related⟩ := (simulation decode pid).run related run
    refine ⟨?_, u, shown, related.agrees⟩
    rw [related.executed]
    exact inOrder_of_run shown
  · intro pending bs u run
    have ready : Ready decode pid pending (initial segmentMaxSize memory)
        (start segmentMaxSize memory pcb.context) :=
      ⟨related, .inl ⟨rfl, rfl, rfl, rfl, rfl⟩, rfl⟩
    obtain ⟨as, s, run, shown, ready⟩ := Run.realised way ready run
    exact ⟨as, s, run, shown, ready.related.agrees, ready.pattern⟩

/-! ### A run -/

/-- A process of three instructions, one of them a syscall that frees its segment. -/
def threeInstructions : State where
  devices := ⟨[], fun _ _ => 0, [], fun _ => 0⟩
  totalMemorySize := 16
  allocationStrategy := .best
  swapBlockSize := 0
  swapTotalSize := 0
  listProcesses := [⟨1, .zero, ["NOOP", "MEM_FREE 0", "EXIT"], [⟨⟨0, 0, 16⟩, 0⟩]⟩]
  listSuspendedProcesses := []
  nextPtr := 1

/-- `decode_instruction` of these instructions. -/
def words (instruction : String) : List String :=
  if instruction = "MEM_FREE 0" then ["MEM_FREE", "0"] else [instruction]

/-- An interruption is pending at the end of every instruction, and the segment is freed. -/
theorem preemption_transparent_of_three :
    ∃ as s, Run (step words 1) (fun _ _ => True) (initial 16 threeInstructions) as s ∧
      s.executed.map Executed.pc = [0, 1, 2] ∧
        s.executed.map Executed.interrupt = List.replicate 3 (some .quantumExpired) ∧
          s.cpu.cpu.syscalls = [.memFree 1 0, .processEnd 1] := by
  obtain ⟨u, run, test⟩ := Run.exists_of_exec (uninterrupted words 1)
    (Apart fun _ => some .quantumExpired)
    [.instruction, .instruction, .elsewhere (.memFree 1 0), .instruction]
    (start 16 threeInstructions .zero)
    (fun u => decide (u.executed.map Prod.fst = [0, 1, 2] ∧
      u.cpu.syscalls = [.memFree 1 0, .processEnd 1])) (by decide +kernel)
  obtain ⟨pcs, syscalls⟩ := of_decide_eq_true test
  have found : findPcb threeInstructions 1 =
      some ⟨1, .zero, ["NOOP", "MEM_FREE 0", "EXIT"], [⟨⟨0, 0, 16⟩, 0⟩]⟩ := rfl
  obtain ⟨as, s, run', -, agrees, pattern⟩ :=
    (preemption_transparent words 16 found).2 _ _ u run
  have pcs' : s.executed.map Executed.pc = [0, 1, 2] := by
    rw [← pcs, ← agrees.executed, List.map_map]
    rfl
  have three : s.executed.length = 3 := by
    rw [← List.length_map Executed.pc, pcs']
    rfl
  refine ⟨as, s, run', pcs', ?_, agrees.syscalls.trans syscalls⟩
  rw [pattern, three]
  rfl

end OsModel.Slices
