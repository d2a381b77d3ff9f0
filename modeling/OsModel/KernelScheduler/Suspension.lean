import OsModel.KernelScheduler.Ownership

/-!
The scheduler and Kernel Memory agree on which processes are swapped out.

`Phase` is how far the suspension of a process is: what both parties know of it, and the
messages about it on the two connections. Each message that is handled leads from one phase
to the next, and everything else leaves the phase as it is.

* `swap_agreement`: a process that is `READY` or `EXEC` is not suspended in Kernel Memory;
  and a process comes into the ready queues at most once from its suspension to its next
  dispatch.
-/

namespace OsModel.KernelScheduler

open Lib

variable {ι : Type}

/-! ### Phases -/

/-- The process is `SUSP_BLOCK` or `SUSP_READY`. -/
def ProcessState.isSuspended : ProcessState → Bool
  | .suspBlock | .suspReady => true
  | .new | .ready | .exec | .block | .exit => false

/-- The message asks for the process to be swapped. -/
def ToMemory.swaps (pid : UInt32) : ToMemory → Bool
  | .swapOut other => other == pid
  | .swapIn pids => pids.contains pid
  | _ => false

/-- The message says that the process is swapped, or is not. -/
def FromMemory.swaps (pid : UInt32) : FromMemory → Bool
  | .swapOut other _ => other == pid
  | .swapIn pids => pids.contains pid
  | _ => false

def ToMemory.IsSwapIn : ToMemory → Prop
  | .swapIn _ => True
  | _ => False

/-- How far the suspension of a process is: whether it is `SUSP_BLOCK` or `SUSP_READY`, the
messages about it to Kernel Memory and from it, and how often it is in
`list_suspended_processes` there and in `suspended_processes` here. A `SWAP_IN` may be
late, and then asks for a process that is back. -/
inductive Phase (pid : UInt32) : Bool → List ToMemory → List FromMemory → ℕ → ℕ → Prop where
  | resident {asked : List ToMemory} (late : ∀ message ∈ asked, message.IsSwapIn) :
      Phase pid false asked [] 0 0
  | leaving {asked : List ToMemory} (late : ∀ message ∈ asked, message.IsSwapIn) :
      Phase pid true (asked ++ [.swapOut pid]) [] 0 0
  | refused : Phase pid true [] [.swapOut pid false] 0 0
  | confirmed : Phase pid true [] [.swapOut pid true] 1 0
  | suspended {asked : List ToMemory} (requests : ∀ message ∈ asked, message.IsSwapIn) :
      Phase pid true asked [] 1 1
  | returning {asked : List ToMemory} {pids : List UInt32}
      (requests : ∀ message ∈ asked, message.IsSwapIn) (once : pids.count pid = 1) :
      Phase pid true asked [.swapIn pids] 0 1

/-- The phase of a process, as the connection to Kernel Memory shows it. -/
def Memory.Phase (m : Memory) (pid : UInt32) (suspended : Bool) (listed : ℕ) : Prop :=
  KernelScheduler.Phase pid suspended (m.toMemory.filter (·.swaps pid))
    (m.fromMemory.filter (·.swaps pid)) (m.listSuspendedProcesses.count pid) listed

def Board.Phase (b : Board ι) (pid : UInt32) : Prop :=
  b.memory.Phase pid (b.process pid).state.isSuspended (b.suspendedProcesses.count pid)

/-- The process is in a phase, unless it has ended. -/
def Board.Agreed (b : Board ι) (pid : UInt32) : Prop :=
  (b.process pid).state = .exit ∧ (b.process pid).cpu = none ∨ b.Phase pid

variable {pid : UInt32} {suspended : Bool} {asked : List ToMemory} {answers : List FromMemory}
  {held listed : ℕ}

/-! ### What Kernel Memory does -/

/-- `desuspend` takes processes out of the list. -/
theorem count_desuspend (pid : UInt32) (pids : List UInt32) (oks : List Bool) (list : List UInt32) :
    (desuspend pids oks list).1.count pid + (desuspend pids oks list).2.count pid =
      list.count pid := by
  induction pids generalizing oks list with
  | nil => simp [desuspend]
  | cons first pids ih =>
      cases oks with
      | nil => simp [desuspend]
      | cons ok oks =>
          simp only [desuspend]
          split
          · rename_i taken
            have rest := ih oks (list.erase first)
            have whole := count_erase_add taken.2 pid
            simp only [count_cons_eq]
            omega
          · exact ih oks list

theorem desuspend_subset (pids : List UInt32) (oks : List Bool) (list : List UInt32) :
    (desuspend pids oks list).1 ⊆ pids := by
  induction pids generalizing oks list with
  | nil => simp [desuspend]
  | cons first pids ih =>
      cases oks with
      | nil => simp [desuspend]
      | cons ok oks =>
          simp only [desuspend]
          split
          · exact List.cons_subset_cons first (ih oks _)
          · exact List.subset_cons_of_subset first (ih oks list)

/-- `SWAP_OUT` is answered. -/
theorem Phase.swappedOut (phase : Phase pid suspended (.swapOut pid :: asked) answers held listed)
    (ok : Bool) :
    Phase pid suspended asked (answers ++ [.swapOut pid ok]) (held + if ok then 1 else 0)
      listed := by
  generalize whole : ToMemory.swapOut pid :: asked = all at phase
  cases phase with
  | resident late | suspended late | returning late =>
      subst whole
      exact absurd (late _ List.mem_cons_self) id
  | refused | confirmed => simp at whole
  | leaving late =>
      rename_i before
      cases before with
      | nil =>
          obtain ⟨-, rfl⟩ := List.cons.inj whole
          cases ok with
          | false => exact .refused
          | true => exact .confirmed
      | cons first rest =>
          obtain ⟨rfl, -⟩ := List.cons.inj whole
          exact absurd (late _ List.mem_cons_self) id

theorem filter_swapIn_of_zero {back : List UInt32} (none : back.count pid = 0) :
    [FromMemory.swapIn back].filter (·.swaps pid) = [] := by
  simp [FromMemory.swaps, List.count_eq_zero.mp none]

theorem filter_swapIn_of_pos {back : List UInt32} (some : 0 < back.count pid) :
    [FromMemory.swapIn back].filter (·.swaps pid) = [.swapIn back] := by
  simp [FromMemory.swaps, List.count_pos_iff.mp some]

/-- `SWAP_IN` is answered: the process is among those that are back, once, or stays where
it is. -/
theorem Phase.swappedIn {pids back : List UInt32} {held' : ℕ}
    (phase : Phase pid suspended (.swapIn pids :: asked) answers held listed)
    (counts : back.count pid + held' = held) :
    Phase pid suspended asked (answers ++ [FromMemory.swapIn back].filter (·.swaps pid)) held'
      listed := by
  generalize whole : ToMemory.swapIn pids :: asked = all at phase
  cases phase with
  | resident late =>
      obtain ⟨none, rfl⟩ : back.count pid = 0 ∧ held' = 0 := by omega
      subst whole
      rw [filter_swapIn_of_zero none]
      exact .resident fun message mem => late message (List.mem_cons_of_mem _ mem)
  | leaving late =>
      rename_i before
      obtain ⟨none, rfl⟩ : back.count pid = 0 ∧ held' = 0 := by omega
      rw [filter_swapIn_of_zero none]
      cases before with
      | nil => simp at whole
      | cons first rest =>
          obtain ⟨-, rfl⟩ := List.cons.inj whole
          exact .leaving fun message mem => late message (List.mem_cons_of_mem _ mem)
  | refused | confirmed => simp at whole
  | suspended requests =>
      subst whole
      have requests : ∀ message ∈ asked, message.IsSwapIn := fun message mem =>
        requests message (List.mem_cons_of_mem _ mem)
      by_cases none : back.count pid = 0
      · obtain rfl : held' = 1 := by omega
        rw [filter_swapIn_of_zero none]
        exact .suspended requests
      · obtain ⟨once, rfl⟩ : back.count pid = 1 ∧ held' = 0 := by omega
        rw [filter_swapIn_of_pos (by omega)]
        exact .returning requests once
  | returning requests once =>
      obtain ⟨none, rfl⟩ : back.count pid = 0 ∧ held' = 0 := by omega
      subst whole
      rw [filter_swapIn_of_zero none]
      exact .returning (fun message mem => requests message (List.mem_cons_of_mem _ mem)) once

/-- A process that `SWAP_IN` does not ask for is not among those that are back. -/
theorem filter_desuspend {pids : List UInt32} (oks : List Bool) (list : List UInt32)
    (absent : pid ∉ pids) :
    [FromMemory.swapIn (desuspend pids oks list).1].filter (·.swaps pid) = [] ∧
      (desuspend pids oks list).2.count pid = list.count pid := by
  have none : (desuspend pids oks list).1.count pid = 0 :=
    List.count_eq_zero.mpr fun mem => absent (desuspend_subset pids oks list mem)
  have counts := count_desuspend pid pids oks list
  exact ⟨filter_swapIn_of_zero none, by omega⟩

/-- A message about something else does not matter. -/
theorem ToMemory.filter_cons_other {message : ToMemory} (other : message.swaps pid = false)
    (rest : List ToMemory) :
    (message :: rest).filter (·.swaps pid) = rest.filter (·.swaps pid) :=
  List.filter_cons_of_neg (by simp [other])

theorem Memory.Phase.send {m : Memory} {message : FromMemory}
    (phase : m.Phase pid suspended listed) (other : message.swaps pid = false) :
    (m.send message).Phase pid suspended listed := by
  unfold Memory.Phase at phase ⊢
  simp only [Memory.send, List.filter_append, List.filter_cons, other, Bool.false_eq_true, if_false,
    List.filter_nil, List.append_nil]
  exact phase

/-- A request for another process is answered. -/
theorem Memory.serve_other {m m' : Memory} {message : ToMemory} {answer : Answer}
    (other : message.swaps pid = false) (taken : m.serve message answer = some m')
    (phase : m.Phase pid suspended listed) : m'.Phase pid suspended listed := by
  cases message with
  | processCreate =>
      cases answer with
      | ok ok =>
          obtain rfl := Option.some.inj taken
          cases ok with
          | true => exact phase.send rfl
          | false => exact phase
      | result | value | desuspended => cases taken
  | processEnd | segmentCreate | compactionReady =>
      obtain rfl := Option.some.inj taken
      exact phase
  | segmentDelete =>
      cases answer with
      | result =>
          obtain rfl := Option.some.inj taken
          exact phase.send rfl
      | ok | value | desuspended => cases taken
  | ioMemoryRead =>
      cases answer with
      | value =>
          obtain rfl := Option.some.inj taken
          exact phase.send rfl
      | ok | result | desuspended => cases taken
  | ioMemoryWrite =>
      cases answer with
      | ok =>
          obtain rfl := Option.some.inj taken
          exact phase.send rfl
      | result | value | desuspended => cases taken
  | swapOut another =>
      cases answer with
      | ok ok =>
          obtain rfl := Option.some.inj taken
          refine Memory.Phase.send ?_ other
          have ne : another ≠ pid := by simpa [ToMemory.swaps] using other
          cases ok with
          | true => simpa [Memory.Phase, List.count_append, ne] using phase
          | false => exact phase
      | result | value | desuspended => cases taken
  | swapIn pids =>
      cases answer with
      | desuspended oks =>
          obtain rfl := Option.some.inj taken
          have absent : pid ∉ pids := by simpa [ToMemory.swaps] using other
          obtain ⟨none, stays⟩ := filter_desuspend oks m.listSuspendedProcesses absent
          unfold Memory.Phase at phase ⊢
          simp only [Memory.send, List.filter_append, none, List.append_nil, stays]
          exact phase
      | ok | result | value => cases taken

theorem Memory.serve_phase {m m' : Memory} {message : ToMemory} {rest : List ToMemory}
    {answer : Answer} (next : m.toMemory = message :: rest)
    (taken : { m with toMemory := rest }.serve message answer = some m')
    (phase : m.Phase pid suspended listed) : m'.Phase pid suspended listed := by
  unfold Memory.Phase at phase
  rw [next] at phase
  cases swaps : message.swaps pid with
  | false =>
      rw [ToMemory.filter_cons_other swaps] at phase
      exact Memory.serve_other swaps taken phase
  | true =>
      rw [List.filter_cons_of_pos swaps] at phase
      cases message with
      | swapOut other =>
          obtain rfl : other = pid := by simpa [ToMemory.swaps] using swaps
          cases answer with
          | ok ok =>
              obtain rfl := Option.some.inj taken
              have answered := phase.swappedOut ok
              have last : [FromMemory.swapOut other ok].filter (·.swaps other) = [.swapOut other ok] :=
                List.filter_cons_of_pos (beq_self_eq_true other)
              unfold Memory.Phase
              simp only [Memory.send, List.filter_append, last]
              cases ok with
              | true => simpa [List.count_append] using answered
              | false => exact answered
          | result | value | desuspended => cases taken
      | swapIn pids =>
          cases answer with
          | desuspended oks =>
              obtain rfl := Option.some.inj taken
              have answered := phase.swappedIn (count_desuspend pid pids oks m.listSuspendedProcesses)
              rw [← List.filter_append] at answered
              exact answered
          | ok | result | value => cases taken
      | processCreate | processEnd | segmentCreate | segmentDelete | ioMemoryRead
      | ioMemoryWrite | compactionReady => simp [ToMemory.swaps] at swaps

/-- Kernel Memory keeps the phases. -/
theorem Memory.step_phase {m m' : Memory} {st : MemoryStep} (taken : m.step st = some m')
    (phase : m.Phase pid suspended listed) : m'.Phase pid suspended listed := by
  cases st with
  | serve answer =>
      simp only [Memory.step] at taken
      split at taken
      · simp at taken
      · rename_i message rest next
        exact Memory.serve_phase next taken phase
  | segmentCreated i result =>
      simp only [Memory.step] at taken
      split at taken
      · simp at taken
      · obtain rfl := Option.some.inj taken
        exact Memory.Phase.send (m := { m with segmentThreads := _ }) phase rfl
  | memoryUpdate | corruptedMemory =>
      obtain rfl := Option.some.inj taken
      exact phase.send rfl
  | compactionRequest =>
      simp only [Memory.step] at taken
      split at taken
      · simp at taken
      · obtain rfl := Option.some.inj taken
        exact phase.send rfl
  | compactionFinished =>
      simp only [Memory.step] at taken
      split at taken
      · obtain rfl := Option.some.inj taken
        exact Memory.Phase.send (m := { m with compactionSem := _ }) phase rfl
      · simp at taken

/-! ### What the other handlers do -/

section Moves

variable [DecidableEq ι] {m : UInt32 → Mode} {about : About ι} {b b' : Board ι}

/-- A message to Kernel Memory about something else does not matter. -/
theorem Memory.Phase.ask {memory : Memory} {message : ToMemory}
    (phase : memory.Phase pid suspended listed) (other : message.swaps pid = false) :
    { memory with toMemory := memory.toMemory ++ [message] }.Phase pid suspended listed := by
  unfold Memory.Phase at phase ⊢
  simp only [List.filter_append, List.filter_cons, other, Bool.false_eq_true, if_false,
    List.filter_nil, List.append_nil]
  exact phase

/-- Reading a message about something else does not matter. -/
theorem Memory.Phase.read {memory : Memory} {message : FromMemory} {rest : List FromMemory}
    (phase : memory.Phase pid suspended listed) (next : memory.fromMemory = message :: rest)
    (other : message.swaps pid = false) :
    { memory with fromMemory := rest }.Phase pid suspended listed := by
  unfold Memory.Phase at phase ⊢
  rw [next, List.filter_cons_of_neg (by simp [other])] at phase
  exact phase

/-- A move that is not about swapping leaves both parties where they are. -/
theorem Move.memory_phase (move : Move m about b b') (quiet : about.swaps = false)
    (phase : b.memory.Phase pid suspended (b.suspendedProcesses.count pid)) :
    b'.memory.Phase pid suspended (b'.suspendedProcesses.count pid) := by
  cases move with
  | send swap ended =>
      rename_i message
      refine phase.ask ?_
      cases message with
      | swapOut | swapIn => simp [quiet, ToMemory.Swaps] at swap
      | processCreate | processEnd | segmentCreate | segmentDelete | ioMemoryRead
      | ioMemoryWrite | compactionReady => rfl
  | read swap next =>
      rename_i message rest
      refine phase.read next ?_
      cases message with
      | swapOut | swapIn => simp [quiet, FromMemory.Swaps] at swap
      | processCreate | segmentResult | ioMemoryRead | ioMemoryWrite | memoryUpdate
      | compactionRequest | compactionFinished | corruptedMemory => rfl
  | answer taken => exact Memory.step_phase taken phase
  | suspended swap => simp [quiet] at swap
  | create | turn | resume | settle | launch | execute | flow | order | release | terminate
  | keep | lose | confirm | evict | gone | goneWith | come => exact phase

/-- Without a swap no process is suspended and none comes back, unless it ends. -/
theorem Move.isSuspended (pid : UInt32) (move : Move m about b b') (quiet : about.swaps = false)
    (fresh : b.Fresh) :
    (b'.process pid).state.isSuspended = (b.process pid).state.isSuspended ∨
      (b'.process pid).state = .exit ∧ (b'.process pid).cpu = none := by
  have := fresh pid
  cases move <;> grind [Turn, ProcessState.isSuspended]

/-- A process that is `READY` stays so until it has a CPU. -/
theorem Move.ready (move : Move m about b b') (subject : about.subject ≠ some pid)
    (fresh : b.Fresh)
    (ready : (b.process pid).state = .ready ∨ (b.process pid).state = .exec) :
    (b'.process pid).state = .ready ∨ (b'.process pid).state = .exec := by
  have := fresh pid
  cases move <;> grind [Turn]

theorem Move.agreed (move : Move m about b b') (quiet : about.swaps = false)
    (strict : (m pid).endsWaiting = false) (fresh : b.Fresh) (agreed : b.Agreed pid) :
    b'.Agreed pid := by
  rcases agreed with ⟨exit, free⟩ | phase
  · exact .inl (move.final strict fresh exit free)
  · rcases move.isSuspended pid quiet fresh with same | ended
    · refine .inr ?_
      unfold Board.Phase
      rw [same]
      exact move.memory_phase quiet phase
    · exact .inl ended

end Moves

/-! ### What the medium-term scheduler does -/

section Swaps

variable {config : Config} {s : State ι}

/-- A process is suspended once in a pass, when it is `BLOCK`. -/
theorem suspensionScan_state (config : Config) (pid : UInt32) (pids : List UInt32) (s : State ι) :
    (suspensionScan config pids s).2.1.count pid = 0 ∧
        ((suspensionScan config pids s).2.2.process pid).state = (s.process pid).state ∨
      (suspensionScan config pids s).2.1.count pid = 1 ∧ (s.process pid).state = .block ∧
        ((suspensionScan config pids s).2.2.process pid).state = .suspBlock := by
  induction pids generalizing s with
  | nil => exact .inl ⟨rfl, rfl⟩
  | cons first rest ih =>
      simp only [suspensionScan]
      split
      · rename_i expired
        have later := ih (processSetState s first .suspBlock)
        by_cases same : first = pid
        · subst same
          simp only [processSetState_self, reduceCtorEq, false_and, and_false, or_false] at later
          exact .inr ⟨by simp [later.1], expired.1, later.2⟩
        · rw [processSetState_of_ne s (Ne.symm same)] at later
          simpa [List.count_cons_of_ne same] using later
      · exact ih s

theorem suspensionScan_frame (config : Config) (pids : List UInt32) (s : State ι) :
    (suspensionScan config pids s).2.2.memory = s.memory ∧
      (suspensionScan config pids s).2.2.suspendedProcesses = s.suspendedProcesses := by
  induction pids generalizing s with
  | nil => exact ⟨rfl, rfl⟩
  | cons first rest ih =>
      simp only [suspensionScan]
      split
      · exact ih (processSetState s first .suspBlock)
      · exact ih s

theorem sendSwapOuts (pids : List UInt32) (s : State ι) :
    pids.foldl (fun s pid => s.sendMemory (.swapOut pid)) s =
      { s with memory.toMemory := s.memory.toMemory ++ pids.map .swapOut } := by
  induction pids generalizing s with
  | nil => simp
  | cons first rest ih =>
      rw [List.foldl_cons, ih]
      simp [State.sendMemory]

theorem filter_swapOuts (pids : List UInt32) :
    (pids.map ToMemory.swapOut).filter (·.swaps pid) =
      List.replicate (pids.count pid) (.swapOut pid) := by
  induction pids with
  | nil => rfl
  | cons first rest ih =>
      by_cases same : first = pid
      · subst same
        have swaps : (ToMemory.swapOut first).swaps first = true := beq_self_eq_true first
        rw [List.map_cons, List.filter_cons_of_pos swaps, ih, List.count_cons_self,
          List.replicate_succ]
      · have other : (ToMemory.swapOut first).swaps pid = false := beq_eq_false_iff_ne.mpr same
        rw [List.map_cons, ToMemory.filter_cons_other other, ih, List.count_cons_of_ne same]

theorem Phase.suspend (phase : Phase pid false asked answers held listed) :
    Phase pid true (asked ++ [.swapOut pid]) answers held listed := by
  cases phase with
  | resident late => exact .leaving late

/-- A process that is suspended leaves. -/
theorem suspensionManager_phase (phase : s.board.Phase pid) :
    (suspensionManager config s).board.Phase pid := by
  unfold suspensionManager
  split
  · obtain ⟨memory, list⟩ := suspensionScan_frame config s.blockProcesses s
    have scanned := suspensionScan_state config pid s.blockProcesses s
    dsimp only
    rw [sendSwapOuts]
    simp only [Board.Phase, Memory.Phase, State.board, Process.holder, memory, list,
      List.filter_append, filter_swapOuts] at phase ⊢
    rcases scanned with ⟨none, same⟩ | ⟨once, blocked, now⟩
    · rw [none, same, List.replicate_zero, List.append_nil]
      exact phase
    · rw [once, now]
      rw [blocked] at phase
      exact phase.suspend
  · exact phase

/-- The answer to the `SWAP_OUT` of another process does not matter. -/
theorem waitConfirmationSwapOut_other (config : Config) {other : UInt32} (ne : pid ≠ other)
    (ok : Bool) :
    ((waitConfirmationSwapOut config s other ok).process pid).state = (s.process pid).state ∧
      (waitConfirmationSwapOut config s other ok).memory = s.memory ∧
      (waitConfirmationSwapOut config s other ok).suspendedProcesses.count pid =
        s.suspendedProcesses.count pid := by
  unfold waitConfirmationSwapOut
  split
  · dsimp only
    split
    · simp [makeReady, addProcessToReadyQueue, State.setReadyQueue, processSetState,
        State.setProcess, State.postShortTerm, ne]
    · simp [State.setProcess, ne]
    · simp [List.count_append, Ne.symm ne]
    · simp [List.count_append, Ne.symm ne]
    · simp
  · simp

/-- The process of an answer to `SWAP_OUT` is suspended, and nothing else is under way. -/
theorem Phase.swapOut_answer {ok : Bool}
    (phase : Phase pid suspended asked (.swapOut pid ok :: answers) held listed) :
    suspended = true ∧ asked = [] ∧ answers = [] ∧ held = (if ok then 1 else 0) ∧ listed = 0 := by
  cases phase with
  | refused | confirmed => simp

/-- The answer to the `SWAP_OUT` of a process is handled: it is suspended, or comes back. -/
theorem waitConfirmationSwapOut_phase {other : UInt32} {ok : Bool} {rest : List FromMemory}
    (fresh : s.board.Fresh) (next : s.memory.fromMemory = .swapOut other ok :: rest)
    (phase : s.board.Phase pid) :
    (waitConfirmationSwapOut config { s with memory.fromMemory := rest } other ok).board.Phase
      pid := by
  by_cases same : other = pid
  · subst same
    have swaps : (FromMemory.swapOut other ok).swaps other = true := beq_self_eq_true other
    simp only [Board.Phase, Memory.Phase, State.board, Process.holder, next,
      List.filter_cons_of_pos swaps] at phase
    obtain ⟨state, asked, answers, held, listed⟩ := phase.swapOut_answer
    have known : other ∈ s.listProcesses := by
      refine known_of_state fresh fun new => ?_
      simp [new, ProcessState.isSuspended] at state
    simp only [Board.Phase, Memory.Phase, State.board, Process.holder, waitConfirmationSwapOut,
      known, if_true]
    cases now : (s.process other).state with
    | suspBlock =>
        cases ok with
        | false =>
            simp only [State.setProcess, Function.update_self, asked, answers, held, listed,
              ProcessState.isSuspended]
            exact .resident (by simp)
        | true =>
            simp only [now, asked, answers, held, listed, List.count_append, List.count_singleton_self,
              ProcessState.isSuspended]
            exact .suspended (by simp)
    | suspReady =>
        cases ok with
        | false =>
            simp only [makeReady, addProcessToReadyQueue, State.setReadyQueue, processSetState,
              State.setProcess, State.postShortTerm, Function.update_self, asked, answers, held,
              listed, ProcessState.isSuspended]
            exact .resident (by simp)
        | true =>
            simp only [now, asked, answers, held, listed, List.count_append, List.count_singleton_self,
              ProcessState.isSuspended]
            exact .suspended (by simp)
    | new | ready | exec | block | exit => simp [now, ProcessState.isSuspended] at state
  · obtain ⟨state, memory, list⟩ := waitConfirmationSwapOut_other config
      (s := { s with memory.fromMemory := rest }) (Ne.symm same) ok
    simp only [Board.Phase, State.board, Process.holder, state, memory, list] at phase ⊢
    exact phase.read next (beq_eq_false_iff_ne.mpr same)

/-- The process of an answer to `SWAP_IN` is suspended, and is named once. -/
theorem Phase.swapIn_answer {pids : List UInt32}
    (phase : Phase pid suspended asked (.swapIn pids :: answers) held listed) :
    suspended = true ∧ (∀ message ∈ asked, message.IsSwapIn) ∧ answers = [] ∧ held = 0 ∧
      listed = 1 ∧ pids.count pid = 1 := by
  cases phase with
  | returning requests once => exact ⟨rfl, requests, rfl, rfl, rfl, once⟩

theorem swappedIn_other (config : Config) (s : State ι) {other : UInt32} (ne : pid ≠ other) :
    ((swappedIn config s other).process pid).state = (s.process pid).state ∧
      (swappedIn config s other).memory = s.memory ∧
      (swappedIn config s other).suspendedProcesses.count pid = s.suspendedProcesses.count pid ∧
      (swappedIn config s other).listProcesses = s.listProcesses := by
  unfold swappedIn
  split
  · dsimp only
    split
    · simp [makeReady, addProcessToReadyQueue, State.setReadyQueue, processSetState,
        State.setProcess, ne, List.count_erase_of_ne ne]
    · simp [State.setProcess, ne, List.count_erase_of_ne ne]
    · simp [List.count_erase_of_ne ne]
  · simp

theorem swappedIn_self (known : pid ∈ s.listProcesses)
    (suspended : (s.process pid).state.isSuspended = true) :
    ((swappedIn config s pid).process pid).state.isSuspended = false ∧
      (swappedIn config s pid).memory = s.memory ∧
      (swappedIn config s pid).suspendedProcesses.count pid =
        s.suspendedProcesses.count pid - 1 := by
  simp only [swappedIn, known, if_true]
  cases now : (s.process pid).state with
  | suspReady =>
      simp [makeReady, addProcessToReadyQueue, State.setReadyQueue, processSetState,
        State.setProcess, ProcessState.isSuspended]
  | suspBlock => simp [State.setProcess, ProcessState.isSuspended]
  | new | ready | exec | block | exit => simp [now, ProcessState.isSuspended] at suspended

theorem swappedIn_others (config : Config) (pids : List UInt32) (absent : pid ∉ pids) (s : State ι) :
    ((pids.foldl (swappedIn config) s).process pid).state = (s.process pid).state ∧
      (pids.foldl (swappedIn config) s).memory = s.memory ∧
      (pids.foldl (swappedIn config) s).suspendedProcesses.count pid =
        s.suspendedProcesses.count pid := by
  induction pids generalizing s with
  | nil => exact ⟨rfl, rfl, rfl⟩
  | cons first rest ih =>
      obtain ⟨ne, absent⟩ := not_or.mp (List.mem_cons.not.mp absent)
      obtain ⟨state, memory, list, -⟩ := swappedIn_other config s ne
      obtain ⟨state', memory', list'⟩ := ih absent (swappedIn config s first)
      exact ⟨state'.trans state, memory'.trans memory, list'.trans list⟩

/-- A process that is named once comes back. -/
theorem swappedIn_named (config : Config) (pids : List UInt32) (once : pids.count pid = 1) (s : State ι)
    (known : pid ∈ s.listProcesses) (suspended : (s.process pid).state.isSuspended = true) :
    ((pids.foldl (swappedIn config) s).process pid).state.isSuspended = false ∧
      (pids.foldl (swappedIn config) s).memory = s.memory ∧
      (pids.foldl (swappedIn config) s).suspendedProcesses.count pid =
        s.suspendedProcesses.count pid - 1 := by
  induction pids generalizing s with
  | nil => simp at once
  | cons first rest ih =>
      rw [List.foldl_cons]
      by_cases same : first = pid
      · subst same
        have absent : first ∉ rest := List.count_eq_zero.mp (by simpa using once)
        obtain ⟨state, memory, list⟩ := swappedIn_others config rest absent
          (swappedIn config s first)
        rw [state, memory, list]
        exact swappedIn_self known suspended
      · obtain ⟨state, memory, list, processes⟩ := swappedIn_other config s
          (Ne.symm same)
        rw [List.count_cons_of_ne same] at once
        obtain ⟨state', memory', list'⟩ := ih once (swappedIn config s first)
          (by rw [processes]; exact known) (by rw [state]; exact suspended)
        exact ⟨state', memory'.trans memory, list'.trans (congrArg (· - 1) list)⟩

/-- The answer to a `SWAP_IN` is handled: the processes that it names come back. -/
theorem waitConfirmationSwapIn_phase {pids : List UInt32} {rest : List FromMemory}
    (fresh : s.board.Fresh) (next : s.memory.fromMemory = .swapIn pids :: rest)
    (phase : s.board.Phase pid) :
    (waitConfirmationSwapIn config { s with memory.fromMemory := rest } pids).board.Phase pid := by
  have folded : (pids.foldl (swappedIn config) { s with memory.fromMemory := rest }).board.Phase
      pid := by
    by_cases mem : pid ∈ pids
    · have swaps : (FromMemory.swapIn pids).swaps pid = true := by simp [FromMemory.swaps, mem]
      simp only [Board.Phase, Memory.Phase, State.board, Process.holder, next,
        List.filter_cons_of_pos swaps] at phase
      obtain ⟨state, requests, answers, held, listed, once⟩ := phase.swapIn_answer
      have known : pid ∈ s.listProcesses := by
        refine known_of_state fresh fun new => ?_
        simp [new, ProcessState.isSuspended] at state
      obtain ⟨back, memory, list⟩ := swappedIn_named config pids once
        { s with memory.fromMemory := rest } known state
      simp only [Board.Phase, Memory.Phase, State.board, Process.holder, back, memory, list, answers,
        held, listed]
      exact .resident requests
    · obtain ⟨state, memory, list⟩ := swappedIn_others config pids mem
        { s with memory.fromMemory := rest }
      have other : (FromMemory.swapIn pids).swaps pid = false := by simp [FromMemory.swaps, mem]
      simp only [Board.Phase, State.board, Process.holder, state, memory, list] at phase ⊢
      exact phase.read next other
  unfold waitConfirmationSwapIn
  dsimp only
  split
  · exact folded
  · exact folded

/-- A process that is suspended, or that comes back, may be asked for again. -/
theorem Phase.request {pids : List UInt32} (some : 0 < listed)
    (phase : Phase pid suspended asked answers held listed) :
    Phase pid suspended (asked ++ [.swapIn pids]) answers held listed := by
  have more : ∀ {asked : List ToMemory}, (∀ message ∈ asked, message.IsSwapIn) →
      ∀ message ∈ asked ++ [.swapIn pids], message.IsSwapIn := by
    intro asked requests message mem
    rcases List.mem_append.mp mem with before | last
    · exact requests message before
    · obtain rfl := List.mem_singleton.mp last
      exact trivial
  cases phase with
  | resident | leaving | refused | confirmed => simp at some
  | suspended requests => exact .suspended (more requests)
  | returning requests once => exact .returning (more requests) once

/-- `MEMORY_UPDATE` asks for processes that are suspended. -/
theorem requestSwapIn_phase (phase : s.board.Phase pid) :
    (requestSwapIn s).board.Phase pid := by
  unfold requestSwapIn
  dsimp only
  split
  · exact phase
  · generalize sorted : sortProcessesByPriority s
      (s.suspendedProcesses.filter fun pid => (s.process pid).state == .suspReady) = pids
    by_cases mem : pid ∈ pids
    · have swaps : (ToMemory.swapIn pids).swaps pid = true := by simp [ToMemory.swaps, mem]
      have some : 0 < s.suspendedProcesses.count pid := by
        rw [← sorted, sortProcessesByPriority, List.mem_insertionSort] at mem
        exact List.count_pos_iff.mpr (List.mem_of_mem_filter mem)
      simp only [Board.Phase, Memory.Phase, board_sendMemory, Board.send, List.filter_append,
        List.filter_cons_of_pos swaps, List.filter_nil] at phase ⊢
      exact phase.request some
    · exact phase.ask (by simp [ToMemory.swaps, mem])

end Swaps

/-! ### Runs -/

section Runs

variable [DecidableEq ι] {config : Config} {m : UInt32 → Mode} {s t : State ι} {a : Action ι}
  {as bs : List (Action ι)}

/-- Every step keeps the phase of a process that does not end while it waits. -/
theorem step_agreed (runs : Runs config m s) (strict : (m pid).endsWaiting = false)
    (allowed : Allowed m s a) (taken : step config s a = some t) (agreed : s.board.Agreed pid) :
    t.board.Agreed pid := by
  obtain ⟨⟨place, inv⟩, fresh⟩ := runs
  have moves := step_moves inv fresh allowed taken
  cases quiet : (a.concerns s).swaps with
  | false =>
      exact (moves.keeps (P := fun b => b.Fresh ∧ b.Agreed pid)
        (fun move both => ⟨move.fresh both.1, move.agreed quiet strict both.1 both.2⟩)
        ⟨fresh, agreed⟩).2
  | true =>
      rcases agreed with ⟨exit, free⟩ | phase
      · refine .inl (moves.keeps (P := fun b => b.Fresh ∧
          (b.process pid).state = .exit ∧ (b.process pid).cpu = none)
          (fun move both => ⟨move.fresh both.1, move.final strict both.1 both.2.1 both.2.2⟩)
          ⟨fresh, exit, free⟩).2
      · refine .inr ?_
        cases a with
        | suspend =>
            obtain rfl := Option.some.inj taken
            exact suspensionManager_phase phase
        | handleMemory =>
            simp only [step, Action.concerns] at taken quiet
            split at taken
            · simp at taken
            · rename_i message rest next
              obtain rfl := Option.some.inj taken
              rw [next] at quiet
              cases message with
              | swapOut other ok => exact waitConfirmationSwapOut_phase fresh next phase
              | swapIn pids => exact waitConfirmationSwapIn_phase fresh next phase
              | memoryUpdate newSize => exact requestSwapIn_phase (phase.read next rfl)
              | processCreate | segmentResult | ioMemoryRead | ioMemoryWrite | compactionRequest
              | compactionFinished | corruptedMemory => simp [FromMemory.concerns] at quiet
        | compaction i st => cases st <;> simp [Action.concerns] at quiet
        | tick | process0 | connectCpu | cpu | handleCpu | disconnectCpu | confirm | wake
        | schedule | quantum | connectIo | handleIo | disconnectIo | written | memory =>
            simp [Action.concerns] at quiet

/-- Everything that is awaited is answered with success: no process ends while it waits. -/
def Mode.completes : Mode := ⟨true, true, false⟩

omit [DecidableEq ι] in
theorem initial_agreed : (initial : State ι).board.Agreed pid := by
  refine .inr ?_
  simp only [Board.Phase, Memory.Phase, State.board, Process.holder, initial, createProcess,
    ProcessState.isSuspended, List.filter_nil, List.count_nil]
  exact .resident (by simp)

theorem agreed_of_run (pid : UInt32)
    (run : Run (step config) (Allowed fun _ => .completes) initial as s) :
    Runs config (fun _ => .completes) s ∧ s.board.Agreed pid := by
  have keeps : ∀ {s : State ι} {a : Action ι} {t : State ι},
      Runs config (fun _ => .completes) s ∧ s.board.Agreed pid →
      Allowed (fun _ => .completes) s a → step config s a = some t →
      Runs config (fun _ => .completes) t ∧ t.board.Agreed pid := by
    intro s a t both allowed taken
    have moved := both.1.keeps (P := fun _ => True) (fun _ _ _ => trivial) trivial
      (.single allowed taken)
    exact ⟨moved.1, step_agreed both.1 rfl allowed taken both.2⟩
  exact run.invariant keeps ⟨initial_runs, initial_agreed⟩

theorem Phase.awake (phase : Phase pid false asked answers held listed) : held = 0 := by
  cases phase with
  | resident => rfl

omit [DecidableEq ι] in
/-- Kernel Memory has a process only while it is suspended. -/
theorem Board.Agreed.resident {b : Board ι} (agreed : b.Agreed pid)
    (here : (b.process pid).state = .ready ∨ (b.process pid).state = .exec) :
    pid ∉ b.memory.listSuspendedProcesses := by
  rcases agreed with ⟨exit, -⟩ | phase
  · rcases here with ready | executing
    · simp [exit] at ready
    · simp [exit] at executing
  · have awake : (b.process pid).state.isSuspended = false := by
      rcases here with state | state
      · rw [state]
        rfl
      · rw [state]
        rfl
    unfold Board.Phase Memory.Phase at phase
    rw [awake] at phase
    exact List.count_eq_zero.mp phase.awake

/-! ### Additions to the ready queues -/

/-- How often a process that was not in the ready queues comes into them. -/
def additions (config : Config) (pid : UInt32) : State ι → List (Action ι) → ℕ
  | _, [] => 0
  | s, a :: rest =>
      match step config s a with
      | none => 0
      | some t =>
          ((t.readyQueues config).count pid - (s.readyQueues config).count pid) +
            additions config pid t rest

theorem additions_append {ok : State ι → Action ι → Prop} (run : Run (step config) ok s as t)
    (bs : List (Action ι)) :
    additions config pid s (as ++ bs) = additions config pid s as + additions config pid t bs := by
  induction run generalizing bs with
  | refl => simp [additions]
  | snoc before guard taken ih =>
      rename_i u v as a
      have last : ∀ bs, additions config pid u (a :: bs) =
          ((v.readyQueues config).count pid - (u.readyQueues config).count pid) +
            additions config pid v bs := by
        intro bs
        simp [additions, taken]
      have whole := ih (a :: bs)
      have first := ih [a]
      rw [last] at whole first
      rw [List.append_assoc, List.singleton_append, whole, first]
      simp only [additions]
      omega

/-- How often a process is in the ready queues. -/
theorem Inv.count_readyQueues {place : UInt32 → Option (Place ι)}
    (inv : Inv config m none s place) (pid : UInt32) :
    (s.readyQueues config).count pid = if (s.process pid).state = .ready then 1 else 0 := by
  unfold State.readyQueues
  rw [inv.count_queues pid config.queueAlgorithmsCount]
  simp [queueIndex_lt]

/-- A process that is `READY` stays so until it is dispatched. -/
theorem step_ready (runs : Runs config m s) (allowed : Allowed m s a)
    (taken : step config s a = some t) (ready : (s.process pid).state = .ready) :
    (t.process pid).state = .ready ∨ (t.process pid).state = .exec := by
  obtain ⟨⟨place, inv⟩, fresh⟩ := runs
  have subject : (a.concerns s).subject ≠ some pid := by
    intro subject
    have executing := inv.executing_of_subject subject
    simp [ready] at executing
  have kept := (step_moves inv fresh allowed taken).keeps
    (P := fun b => b.Fresh ∧ ((b.process pid).state = .ready ∨ (b.process pid).state = .exec))
    (fun move both => ⟨move.fresh both.1, move.ready subject both.1 both.2⟩) ⟨fresh, .inl ready⟩
  exact kept.2

/-- The steps of a run in which the process is not dispatched. -/
def Undispatched (m : UInt32 → Mode) (pid : UInt32) (s : State ι) (a : Action ι) : Prop :=
  Allowed m s a ∧ (s.process pid).state ≠ .exec

instance (a : Action ι) : Decidable (Undispatched m pid s a) :=
  inferInstanceAs (Decidable (Allowed m s a ∧ (s.process pid).state ≠ .exec))

/-- From its suspension to its dispatch a process comes into the ready queues once at
most, and only to stay there. -/
theorem Runs.additions_le (runs : Runs config (fun _ => .completes) s)
    (run : Run (step config) (Undispatched (fun _ => .completes) pid) s as t) :
    Runs config (fun _ => .completes) t ∧
      (additions config pid s as = 0 ∨ additions config pid s as = 1 ∧
        ((t.process pid).state = .ready ∨ (t.process pid).state = .exec)) := by
  induction run with
  | refl => exact ⟨runs, .inl rfl⟩
  | snoc before guard taken ih =>
      rename_i u v as a
      obtain ⟨allowed, waiting⟩ := guard
      obtain ⟨runs, counted⟩ := ih
      have runs' := (runs.keeps (P := fun _ => True) (fun _ _ _ => trivial) trivial
        (.single allowed taken)).1
      obtain ⟨place, inv⟩ := runs.1
      obtain ⟨place', inv'⟩ := runs'.1
      have now := inv.count_readyQueues pid
      have next := inv'.count_readyQueues pid
      have step : additions config pid u [a] =
          (v.readyQueues config).count pid - (u.readyQueues config).count pid := by
        simp [additions, taken]
      refine ⟨runs', ?_⟩
      rw [additions_append before, step, now, next]
      rcases counted with zero | ⟨one, ready | executing⟩
      · by_cases ready : (v.process pid).state = .ready
        · by_cases was : (u.process pid).state = .ready
          · exact .inl (by simp [zero, ready, was])
          · exact .inr ⟨by simp [zero, ready, was], .inl ready⟩
        · exact .inl (by simp [zero, ready])
      · refine .inr ⟨?_, step_ready runs allowed taken ready⟩
        rw [one, if_pos ready]
        split <;> rfl
      · exact absurd executing waiting

/-- While everything that is awaited succeeds, and no CPU disconnects whose process waits
for a segment, a process that is `READY` or `EXEC` is not suspended in Kernel Memory, and
from its suspension to its dispatch it comes into the ready queues at most once. -/
theorem swap_agreement (run : Run (step config) (Allowed fun _ => .completes) initial as s)
    (pid : UInt32) :
    ((s.process pid).state = .ready ∨ (s.process pid).state = .exec →
      pid ∉ s.memory.listSuspendedProcesses) ∧
    ((s.process pid).state = .suspBlock → ∀ bs t,
      Run (step config) (Undispatched (fun _ => .completes) pid) s bs t →
        additions config pid s bs ≤ 1) := by
  obtain ⟨runs, agreed⟩ := agreed_of_run pid run
  refine ⟨fun here => agreed.resident here, fun suspended bs t later => ?_⟩
  rcases (runs.additions_le later).2 with zero | ⟨one, -⟩
  · omega
  · omega

/-- One ready queue, and every process that waits is suspended. -/
def impatient : Config := { fifo with suspensionTimeout := 0 }

/-- A process sleeps, is suspended, wakes up and is swapped in. -/
theorem swap_agreement_of_sleep :
    ∃ (s t : State ℕ) (bs : List (Action ℕ)), (s.process 0).state = .suspBlock ∧
      (t.process 0).state = .ready ∧ 0 ∉ t.memory.listSuspendedProcesses ∧
        additions impatient 0 s bs ≤ 1 := by
  obtain ⟨s, run, found⟩ := Run.exists_of_exec (step impatient) (Allowed fun _ => .completes)
    (started.append [.connectIo 0 .sleep, .cpu 0 (.stop (.sleep 5)), .handleCpu 0, .suspend]) initial
    (fun s : State ℕ => decide ((s.process 0).state = .suspBlock) &&
      (exec (step impatient) (Undispatched (fun _ => .completes) 0) [.memory (.serve (.ok true)),
        .handleMemory, .handleIo 0 "", .memory (.memoryUpdate 64), .handleMemory,
        .memory (.serve (.desuspended [true])), .handleMemory] s).any fun t : State ℕ =>
          decide ((t.process 0).state = .ready)) (by decide)
  obtain ⟨suspended, more⟩ := Bool.and_eq_true_iff.mp found
  have suspended := of_decide_eq_true suspended
  obtain ⟨t, later, ready⟩ := Run.exists_of_exec _ _ _ _ _ more
  have ready := of_decide_eq_true ready
  have whole := run.trans (later.mono fun _ _ ok => ok.1)
  exact ⟨s, t, _, suspended, ready, (swap_agreement whole 0).1 (.inl ready),
    (swap_agreement run 0).2 suspended _ t later⟩

end Runs

end OsModel.KernelScheduler
