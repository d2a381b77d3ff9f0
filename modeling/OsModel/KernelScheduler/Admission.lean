import OsModel.KernelScheduler.Handlers
import OsModel.Lib.Run

/-!
The creation of processes, one critical section at a time
(`kernel_scheduler/src/schedulers/long_term_scheduler.c`).

`long_term_scheduler` sends `PROCESS_CREATE` and puts the process into
`list_processes` in a later section; the thread of Kernel Memory's connection
handles the confirmation in between as well, and drops it when it finds no
process.

* `admitted_iff`: a confirmation admits its process exactly when nobody is
  between sending and inserting it; in a run in which that is always so, every
  process whose creation has been confirmed has left `NEW`.
* `confirmation_dropped`: a process that is inserted too late stays `NEW`.
-/

namespace OsModel.KernelScheduler.Admission

open Lib

/-- Where a thread is in `long_term_scheduler`. -/
inductive Creator where
  /-- Behind `pid_assigner`. -/
  | assigned (pid : UInt32) (path : String) (priority : UInt8)
  /-- Behind `send_process_create_info`. -/
  | sent (pid : UInt32) (priority : UInt8)
  deriving DecidableEq, Repr

def Creator.pid : Creator → UInt32
  | .assigned pid .. | .sent pid _ => pid

/-- The scheduler, the threads in `long_term_scheduler`, and the pids of the
confirmations that have been handled, which nothing reads. -/
structure Admissions (ι : Type) where
  scheduler : State ι
  creators : List Creator
  handled : List UInt32

/-- What can happen next. -/
inductive Action where
  /-- An `INIT_PROC` is given a pid. -/
  | assign (path : String) (priority : UInt8)
  /-- A thread sends `PROCESS_CREATE`. -/
  | send (i : Nat)
  /-- It puts its process into `list_processes`. -/
  | insert (i : Nat)
  /-- Kernel Memory handles the next `PROCESS_CREATE`. -/
  | serve (ok : Bool)
  /-- `kernel_memory_handler` handles the next confirmation. -/
  | confirm
  /-- Anything else that becomes of a process that has been admitted. -/
  | move (pid : UInt32) (state : ProcessState)
  deriving DecidableEq, Repr

section Steps

variable {ι : Type} (config : Config) (s : Admissions ι)

/-- `pid_assigner`; the number of processes does not reach `2 ^ 32`. -/
def assign (path : String) (priority : UInt8) : Option (Admissions ι) :=
  let pid := s.scheduler.currentMaxPid
  if pid ∈ s.scheduler.listProcesses ∨ pid ∈ s.creators.map Creator.pid then none
  else
    some { s with
      scheduler := { s.scheduler with currentMaxPid := pid + 1 }
      creators := s.creators ++ [.assigned pid path priority] }

/-- `send_process_create_info`. -/
def send (i : Nat) (pid : UInt32) (path : String) (priority : UInt8) : Admissions ι :=
  { s with
    scheduler := s.scheduler.sendMemory (.processCreate pid path)
    creators := s.creators.set i (.sent pid priority) }

/-- `create_process` and `add_process_to_list`. -/
def insert (i : Nat) (pid : UInt32) (priority : UInt8) : Admissions ι :=
  let created := s.scheduler.setProcess pid fun _ => createProcess priority
  { s with
    scheduler := { created with listProcesses := s.scheduler.listProcesses ++ [pid] }
    creators := s.creators.eraseIdx i }

/-- A process that has been admitted changes its state, and its queue. -/
def move (pid : UInt32) (state : ProcessState) : State ι :=
  let s' := removeProcessFromReadyQueue config s.scheduler pid
  if state = .ready then makeReady config s' pid else processSetState s' pid state

/-- `kernel_memory_handler` takes a confirmation. -/
def confirm (pid : UInt32) (rest : List FromMemory) : Admissions ι :=
  { s with
    scheduler :=
      waitProcessCreateConfirmation config { s.scheduler with memory.fromMemory := rest } pid
    handled := s.handled ++ [pid] }

def step : Action → Option (Admissions ι)
  | .assign path priority => assign s path priority
  | .send i =>
      match s.creators[i]? with
      | some (.assigned pid path priority) => some (send s i pid path priority)
      | _ => none
  | .insert i =>
      match s.creators[i]? with
      | some (.sent pid priority) => some (insert s i pid priority)
      | _ => none
  | .serve ok =>
      (s.scheduler.memory.step (.serve (.ok ok))).map fun memory =>
        { s with scheduler := { s.scheduler with memory } }
  | .confirm =>
      match s.scheduler.memory.fromMemory with
      | .processCreate pid :: rest => some (confirm config s pid rest)
      | _ => none
  | .move pid state =>
      if pid ∈ s.scheduler.listProcesses ∧ (s.scheduler.process pid).state ≠ .new ∧
          state ≠ .new then
        some { s with scheduler := move config s pid state }
      else none

end Steps

section Frames

variable {ι : Type} {config : Config} {s t : Admissions ι} {pid other : UInt32} {path : String}
  {priority : UInt8} {state : ProcessState} {i : Nat}

/-! What a step of each kind is. -/

theorem assign_eq_some (taken : assign s path priority = some t) :
    (s.scheduler.currentMaxPid ∉ s.scheduler.listProcesses ∧
        s.scheduler.currentMaxPid ∉ s.creators.map Creator.pid) ∧
      t = { s with
        scheduler := { s.scheduler with currentMaxPid := s.scheduler.currentMaxPid + 1 }
        creators := s.creators ++ [.assigned s.scheduler.currentMaxPid path priority] } := by
  unfold assign at taken
  dsimp only at taken
  by_cases used : s.scheduler.currentMaxPid ∈ s.scheduler.listProcesses ∨
      s.scheduler.currentMaxPid ∈ s.creators.map Creator.pid
  · rw [if_pos used] at taken
    simp at taken
  · rw [if_neg used] at taken
    exact ⟨not_or.mp used, (Option.some.inj taken).symm⟩

theorem step_send (taken : step config s (.send i) = some t) : ∃ pid path priority,
    s.creators[i]? = some (.assigned pid path priority) ∧ t = send s i pid path priority := by
  simp only [step] at taken
  cases here : s.creators[i]? with
  | none => simp [here] at taken
  | some c =>
      cases c with
      | sent => simp [here] at taken
      | assigned pid path priority =>
          rw [here] at taken
          exact ⟨pid, path, priority, rfl, (Option.some.inj taken).symm⟩

theorem step_insert (taken : step config s (.insert i) = some t) : ∃ pid priority,
    s.creators[i]? = some (.sent pid priority) ∧ t = insert s i pid priority := by
  simp only [step] at taken
  cases here : s.creators[i]? with
  | none => simp [here] at taken
  | some c =>
      cases c with
      | assigned => simp [here] at taken
      | sent pid priority =>
          rw [here] at taken
          exact ⟨pid, priority, rfl, (Option.some.inj taken).symm⟩

theorem step_confirm (taken : step config s .confirm = some t) : ∃ pid rest,
    s.scheduler.memory.fromMemory = .processCreate pid :: rest ∧ t = confirm config s pid rest := by
  simp only [step] at taken
  cases queue : s.scheduler.memory.fromMemory with
  | nil => simp [queue] at taken
  | cons message rest =>
      rw [queue] at taken
      cases message with
      | processCreate pid => exact ⟨pid, rest, rfl, (Option.some.inj taken).symm⟩
      | _ => simp at taken

theorem step_move (taken : step config s (.move pid state) = some t) :
    pid ∈ s.scheduler.listProcesses ∧ (s.scheduler.process pid).state ≠ .new ∧ state ≠ .new ∧
      t = { s with scheduler := move config s pid state } := by
  simp only [step] at taken
  by_cases may : pid ∈ s.scheduler.listProcesses ∧ (s.scheduler.process pid).state ≠ .new ∧
      state ≠ .new
  · rw [if_pos may] at taken
    obtain ⟨known, admitted, still⟩ := may
    exact ⟨known, admitted, still, (Option.some.inj taken).symm⟩
  · rw [if_neg may] at taken
    simp at taken

/-! What it leaves as it is. -/

theorem process_insert_self :
    (insert s i pid priority).scheduler.process pid = createProcess priority := by
  change (s.scheduler.setProcess pid fun _ => createProcess priority).process pid = _
  rw [setProcess_self]

theorem process_insert_of_ne (ne : other ≠ pid) :
    (insert s i pid priority).scheduler.process other = s.scheduler.process other := by
  change (s.scheduler.setProcess pid fun _ => createProcess priority).process other = _
  rw [setProcess_of_ne _ ne]

variable (config)

/-- What `move` leaves as it is. -/
theorem move_frame (pid : UInt32) (state : ProcessState) :
    (move config s pid state).memory = s.scheduler.memory ∧
      (move config s pid state).listProcesses = s.scheduler.listProcesses ∧
      ∀ other ≠ pid, (move config s pid state).process other = s.scheduler.process other := by
  unfold move
  dsimp only
  split
  · refine ⟨rfl, rfl, fun other ne => ?_⟩
    simp [makeReady, addProcessToReadyQueue, removeProcessFromReadyQueue, State.setReadyQueue, ne]
  · refine ⟨rfl, rfl, fun other ne => ?_⟩
    simp [removeProcessFromReadyQueue, State.setReadyQueue, ne]

theorem state_move (pid : UInt32) (state : ProcessState) :
    ((move config s pid state).process pid).state = state := by
  unfold move
  dsimp only
  split
  · rename_i ready
    simp [makeReady, addProcessToReadyQueue, State.setReadyQueue, ready]
  · simp

/-- What a confirmation leaves as it is. -/
theorem confirm_frame (pid : UInt32) (rest : List FromMemory) :
    (confirm config s pid rest).scheduler.memory =
        { s.scheduler.memory with fromMemory := rest } ∧
      (confirm config s pid rest).scheduler.listProcesses = s.scheduler.listProcesses ∧
      ∀ other ≠ pid,
        (confirm config s pid rest).scheduler.process other = s.scheduler.process other := by
  unfold confirm waitProcessCreateConfirmation
  dsimp only
  split
  · refine ⟨rfl, rfl, fun other ne => ?_⟩
    simp [makeReady, addProcessToReadyQueue, State.setReadyQueue, ne]
  · exact ⟨rfl, rfl, fun _ _ => rfl⟩

/-- A confirmation that finds its process. -/
theorem confirm_of_mem (rest : List FromMemory) (known : pid ∈ s.scheduler.listProcesses) :
    ((confirm config s pid rest).scheduler.process pid).state = .ready ∧
      pid ∈ (confirm config s pid rest).scheduler.readyQueue
        (queueIndex config ((confirm config s pid rest).scheduler.process pid)) := by
  unfold confirm waitProcessCreateConfirmation
  rw [if_pos known]
  simp [makeReady, addProcessToReadyQueue, State.setReadyQueue, State.postShortTerm]

end Frames

/-- What `kernel_memory_connection` leaves when it starts `kernel_memory_handler`:
the first process is in `list_processes` and its `PROCESS_CREATE` is sent. -/
def initial {ι : Type} (path : String) : Admissions ι where
  scheduler :=
    { KernelScheduler.initial with
      currentMaxPid := 1
      listProcesses := [0]
      memory := ⟨[.processCreate 0 path], [], [], 0, []⟩ }
  creators := []
  handled := []

/-! ### What is claimed of a confirmation -/

/-- A confirmation finds its process, and admits it. -/
structure Admits {ι : Type} (config : Config) (s t : Admissions ι) (pid : UInt32) : Prop where
  found : pid ∈ s.scheduler.listProcesses
  before : (s.scheduler.process pid).state = .new
  behind : (t.scheduler.process pid).state = .ready
  queued : pid ∈ t.scheduler.readyQueue (queueIndex config (t.scheduler.process pid))

/-- Nobody is in `long_term_scheduler` with the process whose confirmation is
handled. -/
def Action.Inserted {ι : Type} (s : Admissions ι) : Action → Prop
  | .confirm => ∀ pid ∈ s.creators.map Creator.pid,
      s.scheduler.memory.fromMemory.head? ≠ some (.processCreate pid)
  | _ => True

instance {ι : Type} (s : Admissions ι) : (a : Action) → Decidable (a.Inserted s)
  | .confirm =>
      inferInstanceAs (Decidable (∀ pid ∈ s.creators.map Creator.pid,
        s.scheduler.memory.fromMemory.head? ≠ some (.processCreate pid)))
  | .assign .. | .send _ | .insert _ | .serve _ | .move .. => .isTrue trivial

/-! ### The invariant -/

/-- The process that a request creates. -/
def created : ToMemory → Option UInt32
  | .processCreate pid _ => some pid
  | _ => none

/-- The process that a message confirms. -/
def confirmed : FromMemory → Option UInt32
  | .processCreate pid => some pid
  | _ => none

variable {ι : Type}

/-- The processes whose request or confirmation is under way. -/
def underWay (s : Admissions ι) : List UInt32 :=
  s.scheduler.memory.toMemory.filterMap created ++
    s.scheduler.memory.fromMemory.filterMap confirmed

/-- What the steps keep: who creates a process has a pid of its own; a process
under way is `NEW` in its list, or about to be put there; and so is or was one
whose confirmation has been handled. -/
structure Inv (s : Admissions ι) : Prop where
  once : (s.creators.map Creator.pid).Nodup
  outside : ∀ pid ∈ s.creators.map Creator.pid, pid ∉ s.scheduler.listProcesses
  single : (underWay s).Nodup
  waits : ∀ pid ∈ underWay s,
    (pid ∈ s.scheduler.listProcesses ∧ (s.scheduler.process pid).state = .new) ∨
      ∃ priority, .sent pid priority ∈ s.creators
  unsent : ∀ pid path priority, .assigned pid path priority ∈ s.creators →
    pid ∉ underWay s ∧ pid ∉ s.handled
  finished : ∀ pid ∈ s.handled, pid ∉ underWay s
  known : ∀ pid ∈ s.handled, pid ∈ s.scheduler.listProcesses ∨
    ∃ priority, .sent pid priority ∈ s.creators
  requests : ∀ message ∈ s.scheduler.memory.toMemory, ∃ pid path,
    message = .processCreate pid path

/-- Whose confirmation has been handled is admitted. -/
def Admitted (s : Admissions ι) : Prop :=
  ∀ pid ∈ s.handled,
    pid ∈ s.scheduler.listProcesses ∧ (s.scheduler.process pid).state ≠ .new

section Keeps

variable {config : Config} {s t : Admissions ι} {pid : UInt32} {path : String}
  {priority : UInt8} {i : Nat}

theorem pid_mem {c : Creator} (mem : c ∈ s.creators) : c.pid ∈ s.creators.map Creator.pid :=
  List.mem_map_of_mem mem

/-- A pid is given to one thread only. -/
theorem Inv.assign (inv : Inv s) (taken : assign s path priority = some t) : Inv t := by
  obtain ⟨⟨not_listed, not_created⟩, rfl⟩ := assign_eq_some taken
  have not_sent : ¬ ∃ priority, .sent s.scheduler.currentMaxPid priority ∈ s.creators := by
    rintro ⟨priority, mem⟩
    exact not_created (pid_mem mem)
  refine ⟨?_, ?_, inv.single, ?_, ?_, inv.finished, ?_, inv.requests⟩
  · simp only [List.map_append, List.map_cons, List.map_nil, List.nodup_append]
    refine ⟨inv.once, List.nodup_singleton _, ?_⟩
    rintro pid mem _ new rfl
    obtain rfl := List.mem_singleton.mp new
    exact not_created mem
  · intro pid mem
    simp only [List.map_append, List.map_cons, List.map_nil, List.mem_append,
      List.mem_singleton] at mem
    rcases mem with old | rfl
    · exact inv.outside pid old
    · exact not_listed
  · intro pid mem
    rcases inv.waits pid mem with listed | ⟨priority, sent⟩
    · exact .inl listed
    · exact .inr ⟨priority, List.mem_append_left _ sent⟩
  · intro pid path priority mem
    rcases List.mem_append.mp mem with old | new
    · exact inv.unsent pid path priority old
    · obtain ⟨rfl, -, -⟩ := Creator.assigned.inj (List.mem_singleton.mp new)
      constructor
      · intro way
        rcases inv.waits _ way with listed | sent
        · exact not_listed listed.1
        · exact not_sent sent
      · intro handled
        rcases inv.known _ handled with listed | sent
        · exact not_listed listed
        · exact not_sent sent
  · intro pid handled
    rcases inv.known pid handled with listed | ⟨priority, sent⟩
    · exact .inl listed
    · exact .inr ⟨priority, List.mem_append_left _ sent⟩

/-- The pids of the threads stay when one of them goes on. -/
theorem pids_set {c : Creator} (here : s.creators[i]? = some c) (now : Creator)
    (same : now.pid = c.pid) :
    (s.creators.set i now).map Creator.pid = s.creators.map Creator.pid := by
  rw [List.map_set, same]
  apply List.ext_getElem?
  intro j
  rw [List.getElem?_set]
  by_cases eq : i = j
  · subst eq
    have within : i < s.creators.length := (List.getElem?_eq_some_iff.mp here).1
    rw [if_pos rfl, if_pos (by simpa using within), List.getElem?_map, here]
    rfl
  · rw [if_neg eq]

/-- Who has sent has still sent when another thread sends. -/
theorem sent_mem_set {other : UInt32} {priority' : UInt8}
    (here : s.creators[i]? = some (.assigned pid path priority))
    (sent : .sent other priority' ∈ s.creators) :
    .sent other priority' ∈ s.creators.set i (.sent pid priority) := by
  obtain ⟨j, at_j⟩ := List.getElem?_of_mem sent
  have ne : i ≠ j := by
    rintro rfl
    rw [here] at at_j
    simp at at_j
  apply List.mem_of_getElem?
  rw [List.getElem?_set_ne ne]
  exact at_j

/-- `PROCESS_CREATE` is sent. -/
theorem Inv.send (inv : Inv s) (here : s.creators[i]? = some (.assigned pid path priority)) :
    Inv (send s i pid path priority) := by
  have mem : .assigned pid path priority ∈ s.creators := List.mem_of_getElem? here
  have within : i < s.creators.length := (List.getElem?_eq_some_iff.mp here).1
  obtain ⟨not_way, not_handled⟩ := inv.unsent pid path priority mem
  have way : (underWay (Admission.send s i pid path priority)).Perm (pid :: underWay s) := by
    simp only [underWay, Admission.send, State.sendMemory, List.filterMap_append,
      List.filterMap_cons, List.filterMap_nil, created, List.append_assoc]
    exact List.perm_middle
  have pids := pids_set here (.sent pid priority) rfl
  refine ⟨?_, ?_, ?_, ?_, ?_, ?_, ?_, ?_⟩
  · rw [Admission.send, pids]
    exact inv.once
  · intro other among
    rw [Admission.send, pids] at among
    exact inv.outside other among
  · rw [way.nodup_iff, List.nodup_cons]
    exact ⟨not_way, inv.single⟩
  · intro other among
    rcases List.mem_cons.mp (way.mem_iff.mp among) with rfl | old
    · exact .inr ⟨priority, List.mem_set within _⟩
    · rcases inv.waits other old with listed | ⟨priority', sent⟩
      · exact .inl listed
      · exact .inr ⟨priority', sent_mem_set here sent⟩
  · intro other path' priority' among
    rcases List.mem_or_eq_of_mem_set among with old | new
    · obtain ⟨not_under, not_over⟩ := inv.unsent other path' priority' old
      refine ⟨fun under => ?_, not_over⟩
      rcases List.mem_cons.mp (way.mem_iff.mp under) with rfl | under
      · -- its own thread is at `i`, and has sent
        have once : ((s.creators.set i (.sent other priority)).map Creator.pid).Nodup :=
          pids ▸ inv.once
        have same := List.inj_on_of_nodup_map once among (List.mem_set within _) rfl
        simp at same
      · exact not_under under
    · simp at new
  · intro other handled under
    rcases List.mem_cons.mp (way.mem_iff.mp under) with rfl | under
    · exact not_handled handled
    · exact inv.finished other handled under
  · intro other handled
    rcases inv.known other handled with listed | ⟨priority', sent⟩
    · exact .inl listed
    · exact .inr ⟨priority', sent_mem_set here sent⟩
  · intro message among
    rcases List.mem_append.mp among with old | new
    · exact inv.requests message old
    · exact ⟨pid, path, List.mem_singleton.mp new⟩

/-- The other threads stay when one of them is done. -/
theorem eraseIdx_perm {c : Creator} (here : s.creators[i]? = some c) :
    (c :: s.creators.eraseIdx i).Perm s.creators := by
  obtain ⟨within, rfl⟩ := List.getElem?_eq_some_iff.mp here
  exact List.getElem_cons_eraseIdx_perm within

/-- Who has sent is then listed as `NEW`, or goes on. -/
theorem waits_insert {other : UInt32} {priority' : UInt8}
    (here : s.creators[i]? = some (.sent pid priority))
    (sent : .sent other priority' ∈ s.creators) :
    (other ∈ (insert s i pid priority).scheduler.listProcesses ∧
        ((insert s i pid priority).scheduler.process other).state = .new) ∨
      ∃ priority', .sent other priority' ∈ (insert s i pid priority).creators := by
  rcases List.mem_cons.mp ((eraseIdx_perm here).mem_iff.mpr sent) with now | later
  · obtain ⟨rfl, rfl⟩ := Creator.sent.inj now
    refine .inl ⟨List.mem_append_right _ (List.mem_singleton.mpr rfl), ?_⟩
    rw [process_insert_self]
    rfl
  · exact .inr ⟨priority', later⟩

/-- The process is in `list_processes`. -/
theorem Inv.insert (inv : Inv s) (here : s.creators[i]? = some (.sent pid priority)) :
    Inv (insert s i pid priority) := by
  have mem : .sent pid priority ∈ s.creators := List.mem_of_getElem? here
  have taken := eraseIdx_perm here
  have not_listed := inv.outside pid (pid_mem mem)
  have once := (taken.map Creator.pid).nodup_iff.mpr inv.once
  rw [List.map_cons, List.nodup_cons] at once
  have old : ∀ {c}, c ∈ s.creators.eraseIdx i → c ∈ s.creators := fun among =>
    taken.mem_iff.mp (List.mem_cons_of_mem _ among)
  constructor
  · exact once.2
  · intro other among listed
    rcases List.mem_append.mp listed with before | new
    · obtain ⟨c, mem', rfl⟩ := List.mem_map.mp among
      exact inv.outside _ (pid_mem (old mem')) before
    · obtain rfl := List.mem_singleton.mp new
      exact once.1 among
  · exact inv.single
  · intro other under
    rcases inv.waits other under with ⟨listed, waits⟩ | ⟨priority', sent⟩
    · have ne : other ≠ pid := fun eq => not_listed (eq ▸ listed)
      refine .inl ⟨List.mem_append_left _ listed, ?_⟩
      rw [process_insert_of_ne ne]
      exact waits
    · exact waits_insert here sent
  · intro other path priority' among
    exact inv.unsent other path priority' (old among)
  · exact inv.finished
  · intro other handled
    rcases inv.known other handled with listed | ⟨priority', sent⟩
    · exact .inl (List.mem_append_left _ listed)
    · exact (waits_insert here sent).imp_left And.left
  · exact inv.requests

/-- Nothing but the connection changes, and no process is under way anew. -/
theorem Inv.setMemory {memory : Memory} (inv : Inv s)
    (way : (underWay { s with scheduler := { s.scheduler with memory } }).Subperm (underWay s))
    (requests : memory.toMemory ⊆ s.scheduler.memory.toMemory) :
    Inv { s with scheduler := { s.scheduler with memory } } := by
  constructor
  · exact inv.once
  · exact inv.outside
  · obtain ⟨among, same, sub⟩ := way
    exact same.nodup_iff.mp (inv.single.sublist sub)
  · intro pid under
    exact inv.waits pid (way.subset under)
  · intro pid path priority assigned
    obtain ⟨not_under, not_handled⟩ := inv.unsent pid path priority assigned
    exact ⟨fun under => not_under (way.subset under), not_handled⟩
  · intro pid handled under
    exact inv.finished pid handled (way.subset under)
  · exact inv.known
  · intro message among
    exact inv.requests message (requests among)

/-- Kernel Memory confirms a process, or it cannot create it. -/
theorem Inv.serve {ok : Bool} {memory : Memory} (inv : Inv s)
    (taken : s.scheduler.memory.step (.serve (.ok ok)) = some memory) :
    Inv { s with scheduler := { s.scheduler with memory } } := by
  unfold Memory.step at taken
  dsimp only at taken
  cases queue : s.scheduler.memory.toMemory with
  | nil =>
      rw [queue] at taken
      simp at taken
  | cons message rest =>
      rw [queue] at taken
      obtain ⟨pid, path, rfl⟩ := inv.requests message (by simp [queue])
      have before : underWay s = pid :: (rest.filterMap created ++
          s.scheduler.memory.fromMemory.filterMap confirmed) := by
        simp [underWay, queue, created]
      obtain rfl := Option.some.inj taken
      cases ok with
      | true =>
          apply inv.setMemory
          · rw [before]
            apply List.Perm.subperm
            simp only [if_true, underWay, Memory.send, List.filterMap_append, List.filterMap_cons,
              List.filterMap_nil, confirmed, ← List.append_assoc]
            exact List.perm_append_singleton _ _
          · intro message among
            rw [queue]
            exact List.mem_cons_of_mem _ among
      | false =>
          apply inv.setMemory
          · rw [before]
            exact (List.sublist_cons_self _ _).subperm
          · intro message among
            rw [queue]
            exact List.mem_cons_of_mem _ among

/-- A process that is not `NEW` does not become so. -/
theorem Inv.move {state : ProcessState} (inv : Inv s)
    (admitted : (s.scheduler.process pid).state ≠ .new) :
    Inv { s with scheduler := move config s pid state } := by
  obtain ⟨memory, listed, others⟩ := move_frame (s := s) config pid state
  have way : underWay { s with scheduler := Admission.move config s pid state } = underWay s := by
    rw [underWay, memory]
    rfl
  constructor
  · exact inv.once
  · rw [listed]
    exact inv.outside
  · rw [way]
    exact inv.single
  · intro other under
    rw [way] at under
    rcases inv.waits other under with ⟨known, waits⟩ | sent
    · have ne : other ≠ pid := fun eq => admitted (eq ▸ waits)
      refine .inl ⟨listed ▸ known, ?_⟩
      rw [others other ne]
      exact waits
    · exact .inr sent
  · rw [way]
    exact inv.unsent
  · rw [way]
    exact inv.finished
  · rw [listed]
    exact inv.known
  · rw [memory]
    exact inv.requests

/-- A confirmation is handled. -/
theorem Inv.confirm {rest : List FromMemory} (inv : Inv s)
    (next : s.scheduler.memory.fromMemory = .processCreate pid :: rest) :
    Inv (confirm config s pid rest) := by
  obtain ⟨memory, listed, others⟩ := confirm_frame (s := s) config pid rest
  have way : (underWay s).Perm (pid :: underWay (Admission.confirm config s pid rest)) := by
    simp only [underWay, memory, next, List.filterMap_cons, confirmed]
    exact List.perm_middle
  have single := way.nodup_iff.mp inv.single
  rw [List.nodup_cons] at single
  have old : ∀ {other}, other ∈ underWay (Admission.confirm config s pid rest) →
      other ∈ underWay s := fun under => way.mem_iff.mpr (List.mem_cons_of_mem _ under)
  have under_pid : pid ∈ underWay s := way.mem_iff.mpr List.mem_cons_self
  constructor
  · exact inv.once
  · rw [listed]
    exact inv.outside
  · exact single.2
  · intro other under
    rcases inv.waits other (old under) with ⟨known, waits⟩ | sent
    · have ne : other ≠ pid := fun eq => single.1 (eq ▸ under)
      refine .inl ⟨listed ▸ known, ?_⟩
      rw [others other ne]
      exact waits
    · exact .inr sent
  · intro other path priority assigned
    obtain ⟨not_under, not_handled⟩ := inv.unsent other path priority assigned
    refine ⟨fun under => not_under (old under), fun handled => ?_⟩
    rcases List.mem_append.mp handled with before | now
    · exact not_handled before
    · exact not_under (List.mem_singleton.mp now ▸ under_pid)
  · intro other handled under
    rcases List.mem_append.mp handled with before | now
    · exact inv.finished other before (old under)
    · exact single.1 (List.mem_singleton.mp now ▸ under)
  · intro other handled
    rw [listed]
    rcases List.mem_append.mp handled with before | now
    · exact inv.known other before
    · obtain rfl := List.mem_singleton.mp now
      rcases inv.waits other under_pid with ⟨known, -⟩ | sent
      · exact .inl known
      · exact .inr sent
  · rw [memory]
    exact inv.requests

/-! ### Runs -/

/-- Every step keeps the invariant. -/
theorem step_inv {a : Action} (inv : Inv s) (taken : step config s a = some t) : Inv t := by
  cases a with
  | assign path priority => exact inv.assign taken
  | send i =>
      obtain ⟨pid, path, priority, here, rfl⟩ := step_send taken
      exact inv.send here
  | insert i =>
      obtain ⟨pid, priority, here, rfl⟩ := step_insert taken
      exact inv.insert here
  | serve ok =>
      obtain ⟨memory, served, rfl⟩ := Option.map_eq_some_iff.mp taken
      exact inv.serve served
  | confirm =>
      obtain ⟨pid, rest, next, rfl⟩ := step_confirm taken
      exact inv.confirm next
  | move pid state =>
      obtain ⟨-, admitted, -, rfl⟩ := step_move taken
      exact inv.move admitted

theorem initial_inv (path : String) : Inv (initial (ι := ι) path) := by
  constructor
  · exact List.nodup_nil
  · simp [initial]
  · simp [underWay, initial, created]
  · intro pid under
    obtain rfl : pid = 0 := by simpa [underWay, initial, created] using under
    exact .inl ⟨List.mem_singleton.mpr rfl, rfl⟩
  · simp [initial]
  · simp [initial]
  · simp [initial]
  · intro message among
    exact ⟨0, path, List.mem_singleton.mp among⟩

/-- Where nobody creates its process, a confirmation finds it `NEW`. -/
theorem Inv.waits_for {rest : List FromMemory} (inv : Inv s)
    (next : s.scheduler.memory.fromMemory = .processCreate pid :: rest)
    (inserted : pid ∉ s.creators.map Creator.pid) :
    pid ∈ s.scheduler.listProcesses ∧ (s.scheduler.process pid).state = .new := by
  have under : pid ∈ underWay s := by simp [underWay, next, confirmed]
  rcases inv.waits pid under with waits | ⟨priority, sent⟩
  · exact waits
  · exact absurd (pid_mem sent) inserted

/-- What is listed stays as it is in a step that neither confirms nor moves. -/
theorem Admitted.frame (admitted : Admitted s) (handled : t.handled = s.handled)
    (listed : s.scheduler.listProcesses ⊆ t.scheduler.listProcesses)
    (same : ∀ pid ∈ s.scheduler.listProcesses, t.scheduler.process pid = s.scheduler.process pid) :
    Admitted t := by
  intro pid mem
  rw [handled] at mem
  obtain ⟨known, moved⟩ := admitted pid mem
  refine ⟨listed known, ?_⟩
  rw [same pid known]
  exact moved

/-- A process that is confirmed when nobody creates it is admitted. -/
theorem step_admitted {a : Action} (inv : Inv s) (admitted : Admitted s)
    (inserted : a.Inserted s) (taken : step config s a = some t) : Admitted t := by
  cases a with
  | assign path priority =>
      obtain ⟨-, rfl⟩ := assign_eq_some taken
      exact admitted.frame rfl (List.Subset.refl _) fun _ _ => rfl
  | send i =>
      obtain ⟨pid, path, priority, -, rfl⟩ := step_send taken
      exact admitted.frame rfl (List.Subset.refl _) fun _ _ => rfl
  | insert i =>
      obtain ⟨pid, priority, here, rfl⟩ := step_insert taken
      refine admitted.frame rfl (List.subset_append_left _ _) fun other listed => ?_
      have ne : other ≠ pid := by
        rintro rfl
        exact inv.outside other (pid_mem (List.mem_of_getElem? here)) listed
      exact process_insert_of_ne ne
  | serve ok =>
      obtain ⟨memory, -, rfl⟩ := Option.map_eq_some_iff.mp taken
      exact admitted.frame rfl (List.Subset.refl _) fun _ _ => rfl
  | confirm =>
      obtain ⟨pid, rest, next, rfl⟩ := step_confirm taken
      obtain ⟨-, listed, others⟩ := confirm_frame (s := s) config pid rest
      have free : pid ∉ s.creators.map Creator.pid := by
        intro among
        exact inserted pid among (by rw [next]; rfl)
      obtain ⟨known, -⟩ := inv.waits_for next free
      have ready := (confirm_of_mem config rest known).1
      intro other handled
      rw [listed]
      by_cases eq : other = pid
      · subst eq
        exact ⟨known, by simp [ready]⟩
      · rw [others other eq]
        rcases List.mem_append.mp handled with before | now
        · exact admitted other before
        · exact absurd (List.mem_singleton.mp now) eq
  | move pid state =>
      obtain ⟨known, -, still, rfl⟩ := step_move taken
      obtain ⟨-, listed, others⟩ := move_frame (s := s) config pid state
      intro other handled
      rw [listed]
      by_cases eq : other = pid
      · subst eq
        exact ⟨known, by rw [state_move]; exact still⟩
      · rw [others other eq]
        exact admitted other handled

/-- A confirmation of the process has been handled, and it is `NEW`, or about to be. -/
structure Dropped (s : Admissions ι) (pid : UInt32) : Prop where
  handled : pid ∈ s.handled
  stays : (pid ∈ s.scheduler.listProcesses ∧ (s.scheduler.process pid).state = .new) ∨
    ∃ priority, .sent pid priority ∈ s.creators

/-- There is no second confirmation, and nothing else makes a process `READY` that
is `NEW`. -/
theorem step_dropped {a : Action} (inv : Inv s) (dropped : Dropped s pid)
    (taken : step config s a = some t) : Dropped t pid := by
  obtain ⟨handled, stays⟩ := dropped
  cases a with
  | assign path priority =>
      obtain ⟨-, rfl⟩ := assign_eq_some taken
      refine ⟨handled, stays.imp_right ?_⟩
      rintro ⟨priority', sent⟩
      exact ⟨priority', List.mem_append_left _ sent⟩
  | send i =>
      obtain ⟨other, path, priority, here, rfl⟩ := step_send taken
      refine ⟨handled, stays.imp_right ?_⟩
      rintro ⟨priority', sent⟩
      exact ⟨priority', sent_mem_set here sent⟩
  | insert i =>
      obtain ⟨other, priority, here, rfl⟩ := step_insert taken
      refine ⟨handled, ?_⟩
      rcases stays with ⟨listed, waits⟩ | ⟨priority', sent⟩
      · have ne : pid ≠ other := by
          rintro rfl
          exact inv.outside pid (pid_mem (List.mem_of_getElem? here)) listed
        refine .inl ⟨List.mem_append_left _ listed, ?_⟩
        rw [process_insert_of_ne ne]
        exact waits
      · exact waits_insert here sent
  | serve ok =>
      obtain ⟨memory, -, rfl⟩ := Option.map_eq_some_iff.mp taken
      exact ⟨handled, stays⟩
  | confirm =>
      obtain ⟨other, rest, next, rfl⟩ := step_confirm taken
      obtain ⟨-, listed, others⟩ := confirm_frame (s := s) config other rest
      have ne : pid ≠ other := by
        rintro rfl
        exact inv.finished pid handled (by simp [underWay, next, confirmed])
      refine ⟨List.mem_append_left _ handled, ?_⟩
      rw [listed, others pid ne]
      exact stays
  | move other state =>
      obtain ⟨known, admitted, still, rfl⟩ := step_move taken
      obtain ⟨-, listed, others⟩ := move_frame (s := s) config other state
      refine ⟨handled, stays.imp_left ?_⟩
      rintro ⟨known', waits⟩
      have ne : pid ≠ other := by
        rintro rfl
        exact admitted waits
      rw [listed, others pid ne]
      exact ⟨known', waits⟩

/-- A confirmation that is handled while its process is being created is dropped. -/
theorem Inv.drop {rest : List FromMemory} (inv : Inv s)
    (next : s.scheduler.memory.fromMemory = .processCreate pid :: rest)
    (creating : pid ∈ s.creators.map Creator.pid) :
    Dropped (Admission.confirm config s pid rest) pid := by
  have under : pid ∈ underWay s := by simp [underWay, next, confirmed]
  refine ⟨List.mem_append_right _ (List.mem_singleton.mpr rfl), .inr ?_⟩
  rcases inv.waits pid under with ⟨listed, -⟩ | sent
  · exact absurd listed (inv.outside pid creating)
  · exact sent

/-- A dropped process is never anything but `NEW`. -/
theorem Inv.never_admitted {as : List Action} (inv : Inv s) (dropped : Dropped s pid)
    (run : Run (step config) (fun _ _ => True) s as t) :
    ¬ (pid ∈ t.scheduler.listProcesses ∧ (t.scheduler.process pid).state ≠ .new) := by
  have both : Inv t ∧ Dropped t pid := by
    apply run.invariant (fun both _ taken => ?_) ⟨inv, dropped⟩
    exact ⟨step_inv both.1 taken, step_dropped both.1 both.2 taken⟩
  rintro ⟨listed, moved⟩
  rcases both.2.stays with ⟨-, waits⟩ | ⟨priority, sent⟩
  · exact moved waits
  · exact both.1.outside pid (pid_mem sent) listed

/-- In every state that can be reached, the confirmation that is handled next finds
its process and admits it exactly when no thread is in `long_term_scheduler` with
that process; if one is, the process is `NEW` for ever. In a run in which every
confirmation is handled behind the insertion, every process whose confirmation has
been handled has been admitted. -/
theorem admitted_iff {as : List Action}
    (run : Run (step config) (fun _ _ => True) (initial path) as s) :
    (∀ pid rest, s.scheduler.memory.fromMemory = .processCreate pid :: rest →
      ∃ t, step config s .confirm = some t ∧
        (Admits config s t pid ↔ pid ∉ s.creators.map Creator.pid) ∧
        (pid ∈ s.creators.map Creator.pid → ∀ as u, Run (step config) (fun _ _ => True) t as u →
          ¬ (pid ∈ u.scheduler.listProcesses ∧ (u.scheduler.process pid).state ≠ .new))) ∧
      (Run (step config) Action.Inserted (initial path) as s → Admitted s) := by
  have inv : Inv s := run.invariant (fun inv _ taken => step_inv inv taken) (initial_inv path)
  constructor
  · intro pid rest next
    have taken : step config s .confirm = some (confirm config s pid rest) := by
      simp only [step, next]
    refine ⟨_, taken, ⟨?_, ?_⟩, ?_⟩
    · intro admits creating
      exact inv.outside pid creating admits.found
    · intro inserted
      obtain ⟨found, before⟩ := inv.waits_for next inserted
      obtain ⟨behind, queued⟩ := confirm_of_mem config rest found
      exact ⟨found, before, behind, queued⟩
    · intro creating as u later
      exact (step_inv inv taken).never_admitted (inv.drop next creating) later
  · intro guarded
    have both : Inv s ∧ Admitted s := by
      apply guarded.invariant (fun both inserted taken => ?_)
        ⟨initial_inv path, by simp [Admitted, initial]⟩
      exact ⟨step_inv both.1 taken, step_admitted both.1 both.2 inserted taken⟩
    exact both.2

end Keeps

/-- The first process is confirmed while a second one is being created. -/
theorem admitted_of_first :
    ∃ s t : Admissions ℕ, s.creators = [.assigned 1 "shell" 1] ∧ step fifo s .confirm = some t ∧
      Admits fifo s t 0 ∧ Admitted s := by
  obtain ⟨s, run, test⟩ := Run.exists_of_exec (step fifo) Action.Inserted
    [.assign "shell" 1, .serve true] (initial "init" : Admissions ℕ)
    (fun s : Admissions ℕ => decide (s.scheduler.memory.fromMemory = [.processCreate 0] ∧
      s.creators = [.assigned 1 "shell" 1])) (by decide)
  obtain ⟨next, creators⟩ := of_decide_eq_true test
  obtain ⟨admits, admitted⟩ := admitted_iff (run.mono fun _ _ _ => trivial)
  obtain ⟨t, taken, iff, -⟩ := admits 0 [] next
  refine ⟨s, t, creators, taken, iff.mpr ?_, admitted run⟩
  rw [creators]
  decide

/-- The confirmation of a process is handled between `send_process_create_info` and
`add_process_to_list`: the process stays `NEW`. -/
theorem confirmation_dropped :
    ∃ s : Admissions ℕ, Run (step fifo) (fun _ _ => True) (initial "init")
        [.serve true, .confirm, .assign "shell" 1, .send 0, .serve true, .confirm, .insert 0] s ∧
      s.creators = [] ∧ 1 ∈ s.scheduler.listProcesses ∧ (s.scheduler.process 1).state = .new ∧
      ¬ Admitted s := by
  obtain ⟨s, run, test⟩ := Run.exists_of_exec (step fifo) (fun _ _ => True)
    [.serve true, .confirm, .assign "shell" 1, .send 0, .serve true, .confirm, .insert 0]
    (initial "init" : Admissions ℕ)
    (fun s : Admissions ℕ => decide (s.creators = [] ∧ 1 ∈ s.handled ∧
      1 ∈ s.scheduler.listProcesses ∧ (s.scheduler.process 1).state = .new)) (by decide)
  obtain ⟨creators, handled, listed, waits⟩ := of_decide_eq_true test
  refine ⟨s, run, creators, listed, waits, ?_⟩
  intro admitted
  exact (admitted 1 handled).2 waits

end OsModel.KernelScheduler.Admission
