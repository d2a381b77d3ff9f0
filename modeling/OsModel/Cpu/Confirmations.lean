import OsModel.Cpu.Threads

/-!
A CPU answers every order to evict.

`kernel_scheduler_handler` confirms a `PROCESS_EVICT` at once when `is_executing` is false, and
otherwise waits until the execution thread posts `sem_eviction_ready`. `State.WillPost` says
where that thread still sees the interruption; `PostsWithin` is what follows from it.

* `evictions_confirmed`: the handler does not wait in vain when each time that it reads
  `is_executing` as true the execution thread will still post.
* `confirmation_missing`: the order arrives after a thread that ends has read
  `interruptPending`, and is never confirmed.
-/

namespace OsModel.Cpu.Threads

open Lib

/-- The execution thread posts `sem_eviction_ready`: it has seen the interruption, or will
read `interruptPending` again before it leaves the loop. -/
def State.WillPost (s : State) : Prop :=
  match s.thread with
  | some (.checkExit interrupt) =>
      if s.cpu.shouldExit || s.cpu.shouldStop then interrupt = true else s.interruptPending = true
  | some (.checkStop interrupt) =>
      if s.cpu.shouldStop then interrupt = true else s.interruptPending = true
  | some .head | some .awaitInstruction | some (.execute _) | some .checkFinishing
  | some .checkInterrupt => s.interruptPending = true
  | some .interrupted | some .postReady => True
  | some .sendExit | some .clearInterrupt | some .finish | some .postFinished | none => False

/-- The steps of the execution thread, with the instructions that it receives. -/
def Action.ofThread : Action → Bool
  | .thread | .instruction (some _) => true
  | _ => false

/-- Within `n` of its steps the execution thread has posted `sem_eviction_ready`, whatever
instructions it receives. -/
def PostsWithin : ℕ → State → Prop
  | 0, s => 0 < s.evictionReady
  | n + 1, s => 0 < s.evictionReady ∨ s.thread.isSome ∧
      ∀ a s', a.ofThread = true → step s a = some s' → PostsWithin n s'

/-- How many steps the execution thread takes at most until it posts. -/
def State.turns (s : State) : ℕ :=
  match s.thread with
  | some .head => if s.cpu.shouldExit || s.cpu.shouldStop then 5 else 11
  | some (.checkExit _) => if s.cpu.shouldExit || s.cpu.shouldStop then 4 else 10
  | some (.checkStop _) => if s.cpu.shouldStop then 3 else 9
  | some .awaitInstruction => 8
  | some (.execute _) => 7
  | some .checkFinishing => 6
  | some .checkInterrupt => 3
  | some .interrupted => 2
  | some .postReady => 1
  | _ => 0

section Threads

variable {s s' : State} {a : Action}

/-- The thread acknowledges an interruption that it has seen. -/
theorem acknowledge_posts (s : State) : 0 < (s.acknowledge true).evictionReady := by
  simp [State.acknowledge]

/-- The execution thread receives an instruction, or goes on. -/
theorem step_ofThread (thread : a.ofThread = true) (taken : step s a = some s') :
    (∃ decoded, s.thread = some .awaitInstruction ∧
      s' = { s with thread := some (.execute decoded) }) ∨
    ∃ place, s.thread = some place ∧ threadStep s place = some s' := by
  cases a with
  | processExecute | processEvict | contextTransfer | handler => cases thread
  | thread => exact .inr (Option.bind_eq_some_iff.mp taken)
  | instruction decoded =>
      cases decoded with
      | none => cases thread
      | some decoded =>
          simp only [step] at taken
          split at taken
          · simp at *
          · rename_i waits eq
            obtain rfl := Option.some.inj taken
            obtain rfl := Option.some.inj eq
            exact .inl ⟨_, waits, rfl⟩
          · simp at taken

/-- A step of a thread that will post brings it nearer to that. -/
theorem step_willPost (will : s.WillPost) (thread : a.ofThread = true)
    (taken : step s a = some s') :
    0 < s'.evictionReady ∨ s'.WillPost ∧ s'.turns < s.turns := by
  rcases step_ofThread thread taken with ⟨decoded, waits, rfl⟩ | ⟨place, at_place, taken⟩
  · simp only [State.WillPost, waits] at will
    right
    simp [State.WillPost, State.turns, waits, will]
  · simp only [State.WillPost, at_place] at will
    cases place with
    | sendExit | clearInterrupt | finish | postFinished => exact will.elim
    | awaitInstruction => simp [threadStep] at taken
    | head =>
        obtain rfl := Option.some.inj taken
        right
        simp only [State.WillPost, State.turns, at_place, will]
        split <;> simp
    | checkExit interrupt =>
        dsimp only at will
        simp only [threadStep] at taken
        split at taken
        · rename_i exits
          rw [exits, Bool.true_or, if_pos rfl] at will
          obtain rfl := Option.some.inj taken
          left
          rw [will]
          exact acknowledge_posts s
        · rename_i stays
          obtain rfl := Option.some.inj taken
          right
          rw [Bool.eq_false_of_not_eq_true stays, Bool.false_or] at will
          refine ⟨will, ?_⟩
          simp only [State.turns, at_place]
          split <;> split <;> simp_all
    | checkStop interrupt =>
        dsimp only at will
        simp only [threadStep] at taken
        split at taken
        · rename_i stops
          rw [if_pos stops] at will
          obtain rfl := Option.some.inj taken
          left
          rw [will]
          exact acknowledge_posts s
        · rename_i stays
          rw [if_neg stays] at will
          obtain rfl := Option.some.inj taken
          right
          simp [State.WillPost, State.turns, at_place, will, stays]
    | execute decoded =>
        simp only [threadStep] at taken
        split at taken
        · simp at taken
        · obtain rfl := Option.some.inj taken
          right
          simp [State.WillPost, State.turns, at_place, will]
    | checkFinishing =>
        obtain rfl := Option.some.inj taken
        right
        by_cases ends : (s.cpu.shouldExit || s.cpu.shouldStop) = true
        · simp [State.WillPost, State.turns, at_place, will, ends]
        · simp [State.WillPost, State.turns, at_place, will, ends]
    | checkInterrupt =>
        obtain rfl := Option.some.inj taken
        right
        simp [State.WillPost, State.turns, at_place, will]
    | interrupted =>
        obtain rfl := Option.some.inj taken
        right
        simp [State.WillPost, State.turns, at_place]
    | postReady =>
        obtain rfl := Option.some.inj taken
        exact .inl (Nat.succ_pos _)

theorem PostsWithin.of_willPost {n : ℕ} (will : 0 < s.evictionReady ∨ s.WillPost ∧ s.turns ≤ n) :
    PostsWithin n s := by
  induction n generalizing s with
  | zero =>
      rcases will with posted | ⟨will, none⟩
      · exact posted
      · exfalso
        cases at_thread : s.thread with
        | none => simp [State.WillPost, at_thread] at will
        | some place =>
            simp only [State.turns, at_thread] at none
            simp only [State.WillPost, at_thread] at will
            cases place <;> simp at none will <;> split at none <;> omega
  | succ n ih =>
      rcases will with posted | ⟨will, turns⟩
      · exact .inl posted
      · right
        constructor
        · cases at_thread : s.thread with
          | none => simp [State.WillPost, at_thread] at will
          | some place => rfl
        · intro a s' thread taken
          refine ih ?_
          rcases step_willPost will thread taken with posted | ⟨will', fewer⟩
          · exact .inl posted
          · exact .inr ⟨will', by omega⟩

/-! ### Runs -/

def Reply.isConfirmation : Reply → Bool
  | .confirmation _ => true
  | .processInterrupted .. => false

/-- How many `CONFIRMATION`s the CPU has sent. -/
def State.confirmations (s : State) : ℕ := s.replies.countP Reply.isConfirmation

/-- The handler has received a `PROCESS_EVICT` and has not confirmed it. -/
def HandlerAt.unconfirmed : HandlerAt → Bool
  | .interrupt _ | .readExecuting | .clearInterrupt | .awaitReady | .confirm => true
  | _ => false

/-- When the handler reads `is_executing` as true, the execution thread has posted
`sem_eviction_ready` or will; and it receives its instructions while the handler waits. -/
def Seen (s : State) : Action → Prop
  | .handler => s.handler = .readExecuting → s.isExecuting = true →
      0 < s.evictionReady ∨ s.WillPost
  | .instruction none => s.handler = .awaitReady → 0 < s.evictionReady
  | _ => True

/-- What the two threads keep. -/
structure Inv (s : State) : Prop where
  counted : s.confirmations + s.handler.unconfirmed.toNat = s.evictions
  posts : s.handler = .awaitReady → 0 < s.evictionReady ∨ s.WillPost

/-- What the execution thread leaves to the handler. -/
structure Frame (s s' : State) : Prop where
  handler : s'.handler = s.handler
  evictions : s'.evictions = s.evictions
  confirmations : s'.confirmations = s.confirmations
  evictionReady : s.evictionReady ≤ s'.evictionReady

theorem frame_acknowledge (s : State) (interrupt : Bool) : Frame s (s.acknowledge interrupt) := by
  cases interrupt with
  | false => exact ⟨rfl, rfl, rfl, le_rfl⟩
  | true => exact ⟨rfl, rfl, rfl, Nat.le_succ _⟩

theorem frame_threadStep {place : ThreadAt} (taken : threadStep s place = some s') :
    Frame s s' := by
  have replied : ∀ pid reason, List.countP Reply.isConfirmation
      (s.replies ++ [.processInterrupted pid reason]) = s.confirmations := by
    intro pid reason
    simp [State.confirmations, Reply.isConfirmation]
  cases place with
  | awaitInstruction => simp [threadStep] at taken
  | head | checkFinishing | checkInterrupt | clearInterrupt | finish | postFinished =>
      obtain rfl := Option.some.inj taken
      exact ⟨rfl, rfl, rfl, le_rfl⟩
  | sendExit | interrupted =>
      obtain rfl := Option.some.inj taken
      exact ⟨rfl, rfl, replied _ _, le_rfl⟩
  | postReady =>
      obtain rfl := Option.some.inj taken
      exact ⟨rfl, rfl, rfl, Nat.le_succ _⟩
  | checkExit interrupt =>
      obtain ⟨handler, evictions, confirmations, ready⟩ := frame_acknowledge s interrupt
      simp only [threadStep] at taken
      split at taken
      · obtain rfl := Option.some.inj taken
        exact ⟨handler, evictions, confirmations, ready⟩
      · obtain rfl := Option.some.inj taken
        exact ⟨rfl, rfl, rfl, le_rfl⟩
  | checkStop interrupt =>
      obtain ⟨handler, evictions, -, ready⟩ := frame_acknowledge s interrupt
      simp only [threadStep] at taken
      split at taken
      · obtain rfl := Option.some.inj taken
        exact ⟨handler, evictions, replied _ _, ready⟩
      · obtain rfl := Option.some.inj taken
        exact ⟨rfl, rfl, rfl, le_rfl⟩
  | execute decoded =>
      simp only [threadStep] at taken
      split at taken
      · simp at taken
      · obtain rfl := Option.some.inj taken
        exact ⟨rfl, rfl, rfl, le_rfl⟩

/-- The execution thread goes on. -/
theorem Inv.ofThread (inv : Inv s) (thread : a.ofThread = true) (taken : step s a = some s') :
    Inv s' := by
  have frame : Frame s s' := by
    rcases step_ofThread thread taken with ⟨decoded, -, rfl⟩ | ⟨place, -, taken⟩
    · exact ⟨rfl, rfl, rfl, le_rfl⟩
    · exact frame_threadStep taken
  constructor
  · rw [frame.handler, frame.evictions, frame.confirmations]
    exact inv.counted
  · intro waits
    rw [frame.handler] at waits
    rcases inv.posts waits with posted | will
    · exact .inl (posted.trans_le frame.evictionReady)
    · exact (step_willPost will thread taken).imp_right And.left

/-- The handler goes on. -/
theorem Inv.handlerStep (inv : Inv s) (seen : Seen s .handler) (taken : handlerStep s = some s') :
    Inv s' := by
  have counted := inv.counted
  cases at_handler : s.handler with
  | receiving | awaitContext => simp [Threads.handlerStep, at_handler] at taken
  | awaitFinished | awaitHandled | awaitReady =>
      simp only [Threads.handlerStep, at_handler] at taken
      split at taken
      · obtain rfl := Option.some.inj taken
        rw [at_handler] at counted
        exact ⟨counted, by simp⟩
      · simp at taken
  | start | giveUp | postFinished | interrupt | clearInterrupt | postHandled =>
      simp only [Threads.handlerStep, at_handler] at taken
      obtain rfl := Option.some.inj taken
      rw [at_handler] at counted
      exact ⟨counted, by simp⟩
  | readInterrupt =>
      simp only [Threads.handlerStep, at_handler] at taken
      obtain rfl := Option.some.inj taken
      rw [at_handler] at counted
      constructor
      · dsimp only
        split <;> exact counted
      · dsimp only
        split <;> simp
  | readExecuting =>
      simp only [Threads.handlerStep, at_handler] at taken
      obtain rfl := Option.some.inj taken
      rw [at_handler] at counted
      constructor
      · dsimp only
        split <;> exact counted
      · dsimp only
        split
        · rename_i executing
          exact fun _ => seen at_handler executing
        · simp
  | confirm =>
      simp only [Threads.handlerStep, at_handler] at taken
      obtain rfl := Option.some.inj taken
      rw [at_handler] at counted
      constructor
      · simpa [State.confirmations, Reply.isConfirmation, HandlerAt.unconfirmed] using counted
      · simp

/-- A step of the CPU. -/
theorem step_inv (inv : Inv s) (seen : Seen s a) (taken : step s a = some s') : Inv s' := by
  have counted := inv.counted
  cases a with
  | handler => exact inv.handlerStep seen taken
  | thread => exact inv.ofThread rfl taken
  | processExecute pid =>
      simp only [step] at taken
      split at taken
      · rename_i receiving
        obtain rfl := Option.some.inj taken
        rw [receiving] at counted
        exact ⟨counted, by simp⟩
      · simp at taken
  | processEvict reason =>
      simp only [step] at taken
      split at taken
      · rename_i receiving
        obtain rfl := Option.some.inj taken
        rw [receiving] at counted
        exact ⟨congrArg (· + 1) counted, by simp⟩
      · simp at taken
  | contextTransfer context =>
      simp only [step] at taken
      split at taken
      · rename_i waits
        obtain rfl := Option.some.inj taken
        rw [waits] at counted
        exact ⟨counted, by simp⟩
      · rename_i waits
        obtain rfl := Option.some.inj taken
        rw [waits] at counted
        exact ⟨counted, by simp⟩
      · simp at taken
  | instruction decoded =>
      cases decoded with
      | some decoded => exact inv.ofThread rfl taken
      | none =>
          simp only [step] at taken
          split at taken
          · obtain rfl := Option.some.inj taken
            exact ⟨counted, fun waits => .inl (seen waits)⟩
          · simp at *
          · simp at taken

theorem initial_inv (segmentMaxSize : UInt32) (devices : KernelMemory.Devices) :
    Inv (initial segmentMaxSize devices) :=
  ⟨rfl, by simp [initial]⟩

theorem turns_le (s : State) : s.turns ≤ 11 := by
  unfold State.turns
  split <;> first | omega | (split <;> omega)

/-- In every run in which the handler reads `is_executing` as true only while the execution
thread will still post, it confirms each `PROCESS_EVICT` once, and while it waits for the
execution thread, that thread posts within a few steps. -/
theorem evictions_confirmed {segmentMaxSize : UInt32} {devices : KernelMemory.Devices}
    {as : List Action} (run : Run step Seen (initial segmentMaxSize devices) as s) :
    s.confirmations + s.handler.unconfirmed.toNat = s.evictions ∧
      (s.handler = .awaitReady → PostsWithin 11 s) := by
  have inv := run.invariant step_inv (initial_inv segmentMaxSize devices)
  constructor
  · exact inv.counted
  · intro waits
    refine PostsWithin.of_willPost ?_
    exact (inv.posts waits).imp_right fun will => ⟨will, turns_le s⟩

end Threads

/-! ### Two runs -/

instance (s : State) : Decidable s.WillPost := by
  unfold State.WillPost
  split <;> infer_instance

instance (s : State) : (a : Action) → Decidable (Seen s a)
  | .handler => inferInstanceAs (Decidable (_ → _ → _))
  | .instruction none => inferInstanceAs (Decidable (_ → _))
  | .instruction (some _) | .processExecute _ | .processEvict _ | .contextTransfer _ | .thread =>
      .isTrue trivial

/-- A CPU without memory. -/
def bare : KernelMemory.Devices := ⟨[], fun _ _ => 0, [], fun _ => 0⟩

/-- A process is dispatched, and executes an instruction. -/
def executes (decoded : List String) : List Action :=
  [.processExecute 1, .handler, .handler, .handler, .contextTransfer (some (.zero, [])), .thread,
    .thread, .thread, .instruction (some decoded), .thread, .thread]

/-- The order finds the thread before it reads `interruptPending`. -/
theorem evictions_confirmed_of_interruption :
    ∃ s, s.handler = .awaitReady ∧ s.evictionReady = 0 ∧ PostsWithin 11 s := by
  obtain ⟨s, run, test⟩ := Run.exists_of_exec step Seen
    ((executes ["NOOP"]).append [.processEvict .quantumExpired, .handler, .handler])
    (initial 16 bare) (fun s => decide (s.handler = .awaitReady ∧ s.evictionReady = 0))
    (by decide)
  obtain ⟨waits, unposted⟩ := of_decide_eq_true test
  exact ⟨s, waits, unposted, (evictions_confirmed run).2 waits⟩

/-- The process ends, and the order arrives when its thread has read `interruptPending`: the
handler waits for a thread that has ended. -/
theorem confirmation_missing :
    ∃ as s, Run step (fun _ _ => True) (initial 16 bare) as s ∧ s.handler = .awaitReady ∧
      s.evictionReady = 0 ∧ s.thread = none ∧ s.confirmations = 0 ∧ s.evictions = 1 := by
  obtain ⟨s, run, test⟩ := Run.exists_of_exec step (fun _ _ => True)
    ((executes ["EXIT"]).append [.thread, .processEvict .quantumExpired, .handler, .handler,
      .thread, .thread, .thread, .thread]) (initial 16 bare)
    (fun s => decide (s.handler = .awaitReady ∧ s.evictionReady = 0 ∧ s.thread = none ∧
      s.confirmations = 0 ∧ s.evictions = 1)) (by decide)
  exact ⟨_, s, run, of_decide_eq_true test⟩

end OsModel.Cpu.Threads
