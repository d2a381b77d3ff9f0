import OsModel.KernelScheduler.IoBooks
import OsModel.KernelScheduler.Ownership
import OsModel.Lib.History

/-!
Where the request of a process that waits for IO is.

* `io_requests_kept`: while no device goes with the request of a process that waits, a
  process that is `BLOCK` or `SUSP_BLOCK` because of `SLEEP`, `STDIN` or `STDOUT` has its
  request in one place: the pending list of its type, a connected device of that type, or,
  for `STDIN` and `STDOUT`, an access that Kernel Memory has.
* `request_lost`: what a device has when it goes is in no place afterwards, and its process
  still waits.
-/

namespace OsModel.KernelScheduler

open Lib

/-! ### Whereabouts -/

/-- Where the request of a process can be. -/
inductive Whereabouts where
  | pending
  | device (io : Nat)
  | memory
  deriving DecidableEq, Repr

namespace IoBooks

variable {b b' b'' : IoBooks} {ioType : IoType} {pid : UInt32} {io : Nat} {r : IoRequest}

/-- The request of the process for an operation of the type is there. -/
def Holds (b : IoBooks) (ioType : IoType) (pid : UInt32) : Whereabouts → Prop
  | .pending => pid ∈ (b.pendingRequestIo ioType).map IoRequest.pid
  | .device io =>
      (b.io io).connection = .connected ∧ (b.io io).ioType = ioType ∧
        pid ∈ (b.io io).requests.map IoRequest.pid
  | .memory => (pid, ioType) ∈ b.accesses ∨ ioType = .stdin ∧ 0 < b.written pid

/-- The request is somewhere; and where the answer to a `STDIN` is to be written is
known, as long as there is no answer. -/
def Served (b : IoBooks) (ioType : IoType) (pid : UInt32) : Prop :=
  ∃ w, b.Holds ioType pid w ∧
    (ioType = .stdin → w ≠ .memory → ∃ e ∈ b.pendingIoStdinReading, e.pid = pid)

/-- The lists of devices have the devices that are connected, and nothing is sent to
another one. -/
structure Wired (b : IoBooks) : Prop where
  nodup : ∀ ioType, (b.listIo ioType).Nodup
  listed : ∀ ioType, ∀ io ∈ b.listIo ioType,
    (b.io io).connection = .connected ∧ (b.io io).ioType = ioType
  busy : ∀ io, (b.io io).requests ≠ [] → (b.io io).connection = .connected

/-! ### What keeps the request of a process where it is -/

/-- Nothing that is of the process is taken away. -/
structure Keeps (pid : UInt32) (b b' : IoBooks) : Prop where
  pending : ∀ ioType, pid ∈ (b.pendingRequestIo ioType).map IoRequest.pid →
    pid ∈ (b'.pendingRequestIo ioType).map IoRequest.pid
  device : ∀ io, (b.io io).connection = .connected → pid ∈ (b.io io).requests.map IoRequest.pid →
    (b'.io io).connection = .connected ∧ (b'.io io).ioType = (b.io io).ioType ∧
      pid ∈ (b'.io io).requests.map IoRequest.pid
  reading : ∀ e ∈ b.pendingIoStdinReading, e.pid = pid → e ∈ b'.pendingIoStdinReading
  access : ∀ ioType, (pid, ioType) ∈ b.accesses → (pid, ioType) ∈ b'.accesses
  written : 0 < b.written pid → 0 < b'.written pid

namespace Keeps

theorem refl (pid : UInt32) (b : IoBooks) : Keeps pid b b where
  pending _ mem := mem
  device _ connected mem := ⟨connected, rfl, mem⟩
  reading _ mem _ := mem
  access _ mem := mem
  written pos := pos

theorem of_eq (same : b' = b) : Keeps pid b b' := by
  rw [same]
  exact refl pid b

theorem trans (first : Keeps pid b b') (second : Keeps pid b' b'') : Keeps pid b b'' where
  pending ioType mem := second.pending ioType (first.pending ioType mem)
  device io connected mem := by
    obtain ⟨connected', type', mem'⟩ := first.device io connected mem
    obtain ⟨connected'', type'', mem''⟩ := second.device io connected' mem'
    exact ⟨connected'', type''.trans type', mem''⟩
  reading e mem own := second.reading e (first.reading e mem own) own
  access ioType mem := second.access ioType (first.access ioType mem)
  written pos := second.written (first.written pos)

/-- A device changes. -/
theorem setIo {f : Io → Io} (connection : (f (b.io io)).connection = (b.io io).connection)
    (type : (f (b.io io)).ioType = (b.io io).ioType)
    (requests : pid ∈ (b.io io).requests.map IoRequest.pid →
      pid ∈ (f (b.io io)).requests.map IoRequest.pid) : Keeps pid b (b.setIo io f) where
  pending _ mem := mem
  device other connected mem := by
    by_cases eq : other = io
    · subst eq
      rw [setIo_self]
      exact ⟨connection.trans connected, type, requests mem⟩
    · rw [setIo_of_ne b eq]
      exact ⟨connected, rfl, mem⟩
  reading _ mem _ := mem
  access _ mem := mem
  written pos := pos

theorem send : Keeps pid b (b.send io r) := by
  apply setIo rfl rfl
  intro mem
  rw [List.map_append]
  exact List.mem_append_left _ mem

/-- The pending requests of a type change. -/
theorem setPending {queue : List IoRequest}
    (kept : pid ∈ (b.pendingRequestIo ioType).map IoRequest.pid → pid ∈ queue.map IoRequest.pid) :
    Keeps pid b
      { b with pendingRequestIo := Function.update b.pendingRequestIo ioType queue } where
  pending other mem := by
    by_cases eq : other = ioType
    · subst eq
      simp only [Function.update_self]
      exact kept mem
    · simp only [Function.update_of_ne eq]
      exact mem
  device _ connected mem := ⟨connected, rfl, mem⟩
  reading _ mem _ := mem
  access _ mem := mem
  written pos := pos

theorem request : Keeps pid b (b.request ioType r) := by
  unfold IoBooks.request
  split
  · exact send
  · apply setPending
    intro mem
    rw [List.map_append]
    exact List.mem_append_left _ mem

/-- The operations that are being read change. -/
theorem setReading {reading : List PendingStdin}
    (kept : ∀ e ∈ b.pendingIoStdinReading, e.pid = pid → e ∈ reading) :
    Keeps pid b { b with pendingIoStdinReading := reading } where
  pending _ mem := mem
  device _ connected mem := ⟨connected, rfl, mem⟩
  reading := kept
  access _ mem := mem
  written pos := pos

/-- The accesses change. -/
theorem setAccesses {accesses : List (UInt32 × IoType)}
    (kept : ∀ ioType, (pid, ioType) ∈ b.accesses → (pid, ioType) ∈ accesses) :
    Keeps pid b { b with accesses } where
  pending _ mem := mem
  device _ connected mem := ⟨connected, rfl, mem⟩
  reading _ mem _ := mem
  access := kept
  written pos := pos

theorem setWritten {other : UInt32} {n : ℕ} (ne : pid ≠ other) :
    Keeps pid b (b.setWritten other n) where
  pending _ mem := mem
  device _ connected mem := ⟨connected, rfl, mem⟩
  reading _ mem _ := mem
  access _ mem := mem
  written pos := by
    simp only [IoBooks.setWritten, Function.update_of_ne ne]
    exact pos

/-- A device that was not connected connects. -/
theorem connect (absent : (b.io io).connection = .absent) : Keeps pid b (b.connect io ioType) where
  pending _ mem := mem
  device other connected mem := by
    have ne : other ≠ io := by
      rintro rfl
      rw [absent] at connected
      cases connected
    have same : (b.connect io ioType).io other = b.io other := Function.update_of_ne ne ..
    rw [same]
    exact ⟨connected, rfl, mem⟩
  reading _ mem _ := mem
  access _ mem := mem
  written pos := pos

/-- A device goes that has nothing of the process. -/
theorem disconnect (free : pid ∉ (b.io io).requests.map IoRequest.pid) :
    Keeps pid b (b.disconnect io) where
  pending _ mem := mem
  device other connected mem := by
    have ne : other ≠ io := by
      rintro rfl
      exact free mem
    have same : (b.disconnect io).io other = b.io other := Function.update_of_ne ne ..
    rw [same]
    exact ⟨connected, rfl, mem⟩
  reading _ mem _ := mem
  access _ mem := mem
  written pos := pos

end Keeps

namespace Served

theorem keep (served : b.Served ioType pid) (keeps : Keeps pid b b') : b'.Served ioType pid := by
  obtain ⟨w, holds, reading⟩ := served
  refine ⟨w, ?_, ?_⟩
  · cases w with
    | pending => exact keeps.pending ioType holds
    | device io =>
        obtain ⟨connected, rfl, mem⟩ := holds
        exact keeps.device io connected mem
    | memory => exact holds.imp (keeps.access ioType) fun ⟨type, pos⟩ => ⟨type, keeps.written pos⟩
  · intro type away
    obtain ⟨e, mem, own⟩ := reading type away
    exact ⟨e, keeps.reading e mem own, own⟩

/-- A request that is sent to a connected device is there. -/
theorem send (connected : (b.io io).connection = .connected) (type : (b.io io).ioType = ioType)
    (reading : ioType = .stdin → ∃ e ∈ b.pendingIoStdinReading, e.pid = r.pid) :
    (b.send io r).Served ioType r.pid := by
  refine ⟨.device io, ?_, fun stdin _ => reading stdin⟩
  have sent : (b.send io r).io io =
      { b.io io with isAvailable := false, requests := (b.io io).requests ++ [r] } :=
    setIo_self b io _
  show ((b.send io r).io io).connection = .connected ∧ _
  rw [sent]
  refine ⟨connected, type, ?_⟩
  rw [List.map_append]
  exact List.mem_append_right _ (List.mem_singleton.mpr rfl)

/-- A new request is sent, or waits. -/
theorem request (wired : b.Wired)
    (reading : ioType = .stdin → ∃ e ∈ b.pendingIoStdinReading, e.pid = r.pid) :
    (b.request ioType r).Served ioType r.pid := by
  unfold IoBooks.request
  cases found : (b.listIo ioType).find? fun io => (b.io io).isAvailable with
  | some io =>
      obtain ⟨connected, type⟩ := wired.listed ioType io (List.mem_of_find?_eq_some found)
      exact send connected type reading
  | none =>
      refine ⟨.pending, ?_, fun stdin _ => reading stdin⟩
      show r.pid ∈ (Function.update b.pendingRequestIo ioType _ ioType).map IoRequest.pid
      rw [Function.update_self, List.map_append]
      exact List.mem_append_right _ (List.mem_singleton.mpr rfl)

/-- The next request goes from the pending list to a connected device of the type. -/
theorem next {other : IoType} (served : b.Served ioType pid)
    (connected : (b.io io).connection = .connected) (type : (b.io io).ioType = other) :
    (b.next io other).Served ioType pid := by
  unfold IoBooks.next
  cases queue : b.pendingRequestIo other with
  | nil => exact served
  | cons r rest =>
      dsimp only
      obtain ⟨w, holds, reading⟩ := served
      by_cases first : w = .pending ∧ ioType = other ∧ pid = r.pid
      · obtain ⟨rfl, rfl, rfl⟩ := first
        exact send connected type fun stdin => reading stdin (by simp)
      · have left : IoBooks.Served
            { b with pendingRequestIo := Function.update b.pendingRequestIo other rest } ioType
            pid := by
          refine ⟨w, ?_, reading⟩
          cases w with
          | pending =>
              show pid ∈ (Function.update b.pendingRequestIo other rest ioType).map IoRequest.pid
              by_cases eq : ioType = other
              · subst eq
                rw [Function.update_self]
                have mem : pid ∈ (b.pendingRequestIo ioType).map IoRequest.pid := holds
                rw [queue, List.map_cons, List.mem_cons] at mem
                exact mem.resolve_left fun same => first ⟨rfl, rfl, same⟩
              · rw [Function.update_of_ne eq]
                exact holds
          | device io => exact holds
          | memory => exact holds
        exact left.keep Keeps.send

end Served

/-! ### What keeps the lists of devices -/

namespace Wired

/-- A device changes, and is as connected as it was. -/
theorem setIo {f : Io → Io} (wired : b.Wired)
    (connection : (f (b.io io)).connection = (b.io io).connection)
    (type : (f (b.io io)).ioType = (b.io io).ioType)
    (busy : (f (b.io io)).requests ≠ [] → (b.io io).connection = .connected) :
    (b.setIo io f).Wired where
  nodup := wired.nodup
  listed ioType other mem := by
    have before := wired.listed ioType other mem
    by_cases eq : other = io
    · subst eq
      rw [setIo_self, connection, type]
      exact before
    · rw [setIo_of_ne b eq]
      exact before
  busy other some := by
    by_cases eq : other = io
    · subst eq
      rw [setIo_self] at some ⊢
      exact connection.trans (busy some)
    · rw [setIo_of_ne b eq] at some ⊢
      exact wired.busy other some

theorem send (wired : b.Wired) (connected : (b.io io).connection = .connected) :
    (b.send io r).Wired :=
  wired.setIo rfl rfl fun _ => connected

/-- The devices and their lists stay as they are. -/
theorem congr (wired : b.Wired) (io : b'.io = b.io) (listIo : b'.listIo = b.listIo) :
    b'.Wired where
  nodup ioType := listIo ▸ wired.nodup ioType
  listed ioType other mem := by
    rw [listIo] at mem
    rw [io]
    exact wired.listed ioType other mem
  busy other some := by
    rw [io] at some ⊢
    exact wired.busy other some

theorem request (wired : b.Wired) : (b.request ioType r).Wired := by
  unfold IoBooks.request
  cases found : (b.listIo ioType).find? fun io => (b.io io).isAvailable with
  | some io => exact wired.send (wired.listed ioType io (List.mem_of_find?_eq_some found)).1
  | none => exact wired.congr rfl rfl

theorem next (wired : b.Wired) (connected : (b.io io).connection = .connected) :
    (b.next io ioType).Wired := by
  unfold IoBooks.next
  split
  · exact wired
  · rename_i r rest _
    have left : IoBooks.Wired
        { b with pendingRequestIo := Function.update b.pendingRequestIo ioType rest } :=
      wired.congr rfl rfl
    exact left.send connected

theorem connect (wired : b.Wired) (absent : (b.io io).connection = .absent) :
    (b.connect io ioType).Wired := by
  have out : ∀ other, io ∉ b.listIo other := by
    intro other mem
    have connected := (wired.listed other io mem).1
    rw [absent] at connected
    cases connected
  have here : (b.connect io ioType).io io = ⟨ioType, .connected, true, []⟩ :=
    Function.update_self ..
  have there : ∀ other ≠ io, (b.connect io ioType).io other = b.io other :=
    fun other ne => Function.update_of_ne ne ..
  constructor
  · intro other
    show (Function.update b.listIo ioType (b.listIo ioType ++ [io]) other).Nodup
    by_cases eq : other = ioType
    · subst eq
      rw [Function.update_self]
      exact List.nodup_append.mpr ⟨wired.nodup other, List.nodup_singleton io, by
        rintro a mem _ last rfl
        exact out other (List.mem_singleton.mp last ▸ mem)⟩
    · rw [Function.update_of_ne eq]
      exact wired.nodup other
  · intro other d mem
    have mem : d ∈ Function.update b.listIo ioType (b.listIo ioType ++ [io]) other := mem
    by_cases eq : d = io
    · subst eq
      rw [here]
      refine ⟨rfl, ?_⟩
      by_contra ne
      rw [Function.update_of_ne (Ne.symm ne)] at mem
      exact out other mem
    · rw [there d eq]
      apply wired.listed
      by_cases same : other = ioType
      · subst same
        rw [Function.update_self] at mem
        exact (List.mem_append.mp mem).resolve_right fun last => eq (List.mem_singleton.mp last)
      · rw [Function.update_of_ne same] at mem
        exact mem
  · intro d some
    by_cases eq : d = io
    · subst eq
      rw [here]
    · rw [there d eq] at some ⊢
      exact wired.busy d some

theorem disconnect (wired : b.Wired) : (b.disconnect io).Wired := by
  have here : (b.disconnect io).io io =
      { b.io io with connection := .closed, requests := [] } := Function.update_self ..
  have there : ∀ other ≠ io, (b.disconnect io).io other = b.io other :=
    fun other ne => Function.update_of_ne ne ..
  constructor
  · intro other
    show (Function.update b.listIo (b.io io).ioType
      ((b.listIo (b.io io).ioType).erase io) other).Nodup
    by_cases eq : other = (b.io io).ioType
    · rw [eq, Function.update_self]
      exact (wired.nodup _).erase io
    · rw [Function.update_of_ne eq]
      exact wired.nodup other
  · intro other d mem
    have mem : d ∈ Function.update b.listIo (b.io io).ioType
        ((b.listIo (b.io io).ioType).erase io) other := mem
    have ne : d ≠ io := by
      rintro rfl
      by_cases eq : other = (b.io d).ioType
      · rw [eq, Function.update_self] at mem
        exact (wired.nodup _).not_mem_erase mem
      · rw [Function.update_of_ne eq] at mem
        exact eq (wired.listed other d mem).2.symm
    rw [there d ne]
    apply wired.listed
    by_cases eq : other = (b.io io).ioType
    · rw [eq, Function.update_self] at mem
      rw [eq]
      exact List.mem_of_mem_erase mem
    · rw [Function.update_of_ne eq] at mem
      exact mem
  · intro d some
    by_cases eq : d = io
    · subst eq
      rw [here] at some
      exact absurd rfl some
    · rw [there d eq] at some ⊢
      exact wired.busy d some

end Wired

end IoBooks

/-! ### Why a process waits -/

/-- `BLOCK` or `SUSP_BLOCK`. -/
def ProcessState.Blocked (state : ProcessState) : Prop := state = .block ∨ state = .suspBlock

instance (state : ProcessState) : Decidable state.Blocked :=
  inferInstanceAs (Decidable (_ ∨ _))

/-- The type of the operation that the syscall asks for. -/
def Syscall.ioType : Syscall → Option IoType
  | .sleep _ => some .sleep
  | .stdin .. => some .stdin
  | .stdout .. => some .stdout
  | _ => none

variable {ι : Type} [DecidableEq ι] {config : Config} {s t : State ι} {pid : UInt32}
  {ioType : IoType} {cpu : ι}

/-- The last syscall of the process that has been handled in a run. -/
def lastSyscall (config : Config) (as : List (Action ι)) (pid : UInt32) : Option Syscall :=
  (((history (step config) (fun s a _ => (a.handles s).toList) initial as).filter
    fun handled => handled.1 == pid).getLast?).map Prod.snd

/-- What a step makes of the types of the operations that processes wait for. -/
def Action.causes (s : State ι) (a : Action ι) (cause : UInt32 → Option IoType) :
    UInt32 → Option IoType :=
  match a.handles s with
  | some (pid, syscall) => Function.update cause pid syscall.ioType
  | none => cause

theorem lastSyscall_snoc {as : List (Action ι)} {a : Action ι}
    {ok : State ι → Action ι → Prop} (run : Run (step config) ok initial as s)
    (taken : step config s a = some t) :
    (fun pid => (lastSyscall config (as ++ [a]) pid).bind Syscall.ioType) =
      a.causes s fun pid => (lastSyscall config as pid).bind Syscall.ioType := by
  funext pid
  simp only [lastSyscall, run.history_snoc taken, List.filter_append, Action.causes]
  cases handled : a.handles s with
  | none => simp
  | some both =>
      obtain ⟨other, syscall⟩ := both
      by_cases eq : pid = other
      · subst eq
        simp
      · have ne : other ≠ pid := Ne.symm eq
        simp [ne, eq]

/-! ### Managers -/

theorem ioBooks_sleepSyscallManager (sleepTime : UInt32) :
    (sleepSyscallManager s pid cpu sleepTime).ioBooks =
      s.ioBooks.request .sleep (.numeric pid sleepTime) := by
  have blocked : (makeAvailable (blockProcess s pid) cpu).ioBooks = s.ioBooks :=
    ioBooks_blockProcess
  unfold sleepSyscallManager
  rw [ioBooks_requestIo, blocked]

theorem ioBooks_stdinSyscallManager {physicalAddress toRead : UInt32} (some : toRead ≠ 0) :
    (stdinSyscallManager s pid cpu physicalAddress toRead).ioBooks =
      (s.ioBooks.readStdin ⟨pid, physicalAddress, toRead⟩).request .stdin
        (.numeric pid toRead) := by
  have blocked : (blockProcess s pid).ioBooks = s.ioBooks := ioBooks_blockProcess
  unfold stdinSyscallManager
  rw [if_neg some]
  dsimp only
  rw [ioBooks_requestIo, ← blocked]
  rfl

theorem ioBooks_stdinSyscallManager_zero {physicalAddress : UInt32} :
    (stdinSyscallManager s pid cpu physicalAddress 0).ioBooks = s.ioBooks := by
  unfold stdinSyscallManager
  rw [if_pos rfl]
  exact (ioBooks_sendMemory rfl).trans (ioBooks_processSetState .exit)

omit [DecidableEq ι] in
/-- A message to Kernel Memory adds its access to those that are under way. -/
theorem ioBooks_sendMemory_access (message : ToMemory) :
    ∃ accesses, (s.sendMemory message).ioBooks = { s.ioBooks with accesses } ∧
      ∀ a, a ∈ accesses ↔ a ∈ s.ioBooks.accesses ∨ message.access = some a := by
  refine ⟨_, rfl, fun a => ?_⟩
  show a ∈ (s.sendMemory message).memory.accesses ↔ a ∈ s.memory.accesses ∨ _
  cases quiet : message.access with
  | none => simp [State.sendMemory, Memory.accesses, quiet]
  | some access =>
      simp only [State.sendMemory, Memory.accesses, List.filterMap_append, List.filterMap_cons,
        quiet, List.filterMap_nil, List.mem_append, List.mem_singleton, Option.some.injEq]
      grind

theorem ioBooks_stdoutSyscallManager (physicalAddress toRead : UInt32) :
    ∃ accesses, (stdoutSyscallManager s pid cpu physicalAddress toRead).ioBooks =
      { s.ioBooks with accesses } ∧
      ∀ a, a ∈ accesses ↔ a ∈ s.ioBooks.accesses ∨ (pid, .stdout) = a := by
  have blocked : (makeAvailable (blockProcess s pid) cpu).ioBooks = s.ioBooks :=
    ioBooks_blockProcess
  obtain ⟨accesses, same, mem⟩ := ioBooks_sendMemory_access
    (s := makeAvailable (blockProcess s pid) cpu) (.ioMemoryRead pid physicalAddress toRead)
  rw [blocked] at same mem
  refine ⟨accesses, same, fun a => ?_⟩
  rw [mem a]
  simp [ToMemory.access]

omit [DecidableEq ι] in
theorem ioBooks_stdoutWaitMemoryRead (value : String) :
    (stdoutWaitMemoryRead s pid value).ioBooks =
      s.ioBooks.request .stdout (.string pid value) := by
  have ended : ((processSetState s pid .exit).sendMemory (.processEnd pid)).ioBooks = s.ioBooks :=
    (ioBooks_sendMemory rfl).trans (ioBooks_processSetState .exit)
  unfold stdoutWaitMemoryRead
  dsimp only
  rw [ioBooks_requestIo]
  split
  · rw [ended]
  · rfl

omit [DecidableEq ι] in
theorem ioBooks_handleIoMemoryWrite (ok : Bool) :
    (handleIoMemoryWrite s pid ok).ioBooks =
      if ok then s.ioBooks.setWritten pid ((s.process pid).memoryRequestSem + 1)
      else s.ioBooks := by
  unfold handleIoMemoryWrite
  split
  · exact ioBooks_setProcess_written
  · exact (ioBooks_sendMemory rfl).trans (ioBooks_processSetState .exit)

omit [DecidableEq ι] in
theorem ioBooks_waitMemoryWriteConfirmation :
    (waitMemoryWriteConfirmation config s pid).ioBooks =
      s.ioBooks.setWritten pid ((s.process pid).memoryRequestSem - 1) :=
  ioBooks_finishBlock.trans ioBooks_setProcess_written

/-- What a syscall makes of the books: it may ask for one operation. -/
inductive IoBooks.Asks (b : IoBooks) : IoBooks → Prop where
  | keep : Asks b b
  | request (ioType : IoType) (r : IoRequest) : Asks b (b.request ioType r)
  | read (e : PendingStdin) (r : IoRequest) : Asks b ((b.readStdin e).request .stdin r)
  | access {accesses : List (UInt32 × IoType)} (more : ∀ a ∈ b.accesses, a ∈ accesses) :
      Asks b { b with accesses }

theorem IoBooks.Asks.of_eq {b b' : IoBooks} (same : b' = b) : b.Asks b' := by
  rw [same]
  exact .keep

theorem IoBooks.Asks.keeps {b b' : IoBooks} (asks : b.Asks b') : b.Keeps pid b' := by
  cases asks with
  | keep => exact .refl pid b
  | request => exact .request
  | read => exact .trans (.setReading fun _ mem _ => List.mem_append_left _ mem) .request
  | access more => exact .setAccesses fun ioType mem => more _ mem

theorem IoBooks.Asks.wired {b b' : IoBooks} (asks : b.Asks b') (wired : b.Wired) : b'.Wired := by
  cases asks with
  | keep => exact wired
  | request => exact wired.request
  | read e =>
      have reading : (b.readStdin e).Wired := wired.congr rfl rfl
      exact reading.request
  | access => exact wired.congr rfl rfl

theorem handleSyscall_asks {other : UInt32} {syscall : Syscall} :
    s.ioBooks.Asks (handleSyscall config s cpu other syscall).ioBooks := by
  cases syscall with
  | processEnd => exact .of_eq (ioBooks_of_records records_endProcess)
  | segmentationFault => exact .of_eq (ioBooks_of_records records_endProcess)
  | mutexCreate name =>
      exact .of_eq ((ioBooks_sendPidToExecute _).trans (ioBooks_mutexCreate name))
  | mutexLock name =>
      simp only [handleSyscall]
      split
      · split
        · exact .of_eq (ioBooks_mutexLock _)
        · exact .of_eq (ioBooks_of_records records_unknownMutex)
      · exact .keep
  | mutexUnlock name =>
      simp only [handleSyscall]
      split
      · split
        · exact .of_eq (ioBooks_mutexUnlock _)
        · exact .of_eq (ioBooks_of_records records_unknownMutex)
      · exact .keep
  | sleep sleepTime =>
      simp only [handleSyscall]
      split
      · rw [ioBooks_sleepSyscallManager]
        exact .request _ _
      · exact .keep
  | stdin physicalAddress toRead =>
      simp only [handleSyscall]
      split
      · by_cases zero : toRead = 0
        · subst zero
          exact .of_eq ioBooks_stdinSyscallManager_zero
        · rw [ioBooks_stdinSyscallManager zero]
          exact .read _ _
      · exact .keep
  | stdout physicalAddress toRead =>
      simp only [handleSyscall]
      split
      · obtain ⟨accesses, same, mem⟩ := @ioBooks_stdoutSyscallManager ι _ s other cpu
          physicalAddress toRead
        rw [same]
        exact .access fun a old => (mem a).mpr (.inl old)
      · exact .keep
  | memAlloc segmentId segmentSize =>
      exact .of_eq (ioBooks_of_records (records_memAllocSyscallManager _ _))
  | memFree segmentId =>
      exact .of_eq (ioBooks_of_records (records_memFreeSyscallManager _))

/-- A process that blocks for IO has its request somewhere. -/
theorem served_handleSyscall {syscall : Syscall} (wired : s.ioBooks.Wired)
    (known : pid ∈ s.listProcesses) (asks : syscall.ioType = some ioType)
    (blocked : ((handleSyscall config s cpu pid syscall).process pid).state.Blocked) :
    (handleSyscall config s cpu pid syscall).ioBooks.Served ioType pid := by
  cases syscall with
  | sleep sleepTime =>
      obtain rfl := Option.some.inj asks
      simp only [handleSyscall, if_pos known]
      rw [ioBooks_sleepSyscallManager]
      exact .request wired fun stdin => absurd stdin (by simp)
  | stdin physicalAddress toRead =>
      obtain rfl := Option.some.inj asks
      simp only [handleSyscall, if_pos known] at blocked ⊢
      by_cases zero : toRead = 0
      · subst zero
        simp [stdinSyscallManager, ProcessState.Blocked] at blocked
      · rw [ioBooks_stdinSyscallManager zero]
        refine .request (wired.congr rfl rfl) fun _ => ?_
        exact ⟨_, List.mem_append_right _ (List.mem_singleton.mpr rfl), rfl⟩
  | stdout physicalAddress toRead =>
      obtain rfl := Option.some.inj asks
      simp only [handleSyscall, if_pos known]
      obtain ⟨accesses, same, mem⟩ := @ioBooks_stdoutSyscallManager ι _ s pid cpu
        physicalAddress toRead
      rw [same]
      exact ⟨.memory, .inl ((mem _).mpr (.inr rfl)), fun stdin => absurd stdin (by simp)⟩
  | processEnd | segmentationFault | mutexCreate | mutexLock | mutexUnlock | memAlloc | memFree =>
      cases asks

/-! ### Answers of the devices -/

omit [DecidableEq ι] in
/-- A process that does not wait any more is not blocked. -/
theorem awake_finishBlock : ¬ ((finishBlock config s pid).process pid).state.Blocked := by
  have woken : ((processSetReady s pid).process pid).state.Blocked → False := by
    simp only [processSetReady, processSetState_self, ProcessState.Blocked]
    split <;> simp
  unfold finishBlock
  dsimp only
  split
  · exact woken
  · exact woken

/-- What an answer of a device for the process makes of the books. -/
inductive Answered (s : State ι) (io : Nat) (pid : UInt32) (t : State ι) : Prop where
  /-- The operation is over, or what was read goes to Kernel Memory; the device takes the
  next request. -/
  | handled {reading : List PendingStdin} {accesses : List (UInt32 × IoType)}
      (same : t.ioBooks =
        ({ s.ioBooks with pendingIoStdinReading := reading, accesses : IoBooks }.setIo io
          fun d => { d with isAvailable := true }).next io (s.io io).ioType)
      (others : ∀ e ∈ s.pendingIoStdinReading, e.pid ≠ pid → e ∈ reading)
      (more : ∀ a ∈ s.ioBooks.accesses, a ∈ accesses)
      (own : ¬ (t.process pid).state.Blocked ∨
        (s.io io).ioType = .stdin ∧ (pid, .stdin) ∈ accesses)
  /-- Nobody has asked for it. -/
  | unknown (type : (s.io io).ioType = .stdin)
      (missing : ∀ e ∈ s.pendingIoStdinReading, e.pid ≠ pid) (same : t = s)

omit [DecidableEq ι] in
/-- `SLEEP` and `STDOUT` are over. -/
theorem finished_answered {io : Nat} (known : pid ∈ s.listProcesses) :
    Answered s io pid
      (handleNextOperation (ioFinishProcess config s pid io) io (s.io io).ioType) := by
  have process : ∀ (s : State ι) ioType, (handleNextOperation s io ioType).process = s.process := by
    intro s ioType
    unfold handleNextOperation
    split <;> rfl
  have finished : ioFinishProcess config s pid io =
      ((finishBlock config s pid).setIo io fun d => { d with isAvailable := true }).postShortTerm := by
    unfold ioFinishProcess
    rw [if_pos known]
  have books : (ioFinishProcess config s pid io).ioBooks =
      s.ioBooks.setIo io fun d => { d with isAvailable := true } := by
    have same : (finishBlock config s pid).ioBooks = s.ioBooks := ioBooks_finishBlock
    rw [finished, ← same]
    rfl
  refine .handled ?_ (fun e mem _ => mem) (fun a mem => mem) (.inl ?_)
  · rw [ioBooks_handleNextOperation, books]
    rfl
  · rw [process, finished]
    exact awake_finishBlock

omit [DecidableEq ι] in
theorem handleIo_answered {io : Nat} {r : IoRequest} {value : String}
    (known : r.pid ∈ s.listProcesses) :
    Answered s io r.pid (handleIo config s io r value) := by
  have finished : Answered s io r.pid
      (handleNextOperation (ioFinishProcess config s r.pid io) io (s.io io).ioType) :=
    finished_answered known
  unfold handleIo
  dsimp only
  cases type : (s.io io).ioType with
  | sleep =>
      rw [type] at finished
      exact finished
  | stdout =>
      rw [type] at finished
      exact finished
  | stdin =>
      dsimp only
      cases found : s.pendingIoStdinReading.find? fun p => p.pid == r.pid with
      | none =>
          refine .unknown type (fun e mem eq => ?_) rfl
          have apart := List.find?_eq_none.mp found e mem
          simp [eq] at apart
      | some pending =>
          obtain ⟨accesses, same, more⟩ := ioBooks_sendMemory_access
            (s := ({ s with
              pendingIoStdinReading := s.pendingIoStdinReading.erase pending
              writeThreads := s.writeThreads ++ [r.pid] } : State ι))
            (.ioMemoryWrite r.pid pending.physicalAddress pending.size value)
          have sent := congrArg (fun b : IoBooks =>
            (b.setIo io fun d => { d with isAvailable := true }).next io .stdin) same
          have own : pending.pid = r.pid := by simpa using List.find?_some found
          have moved : ∀ b : IoBooks, b.next io .stdin = b.next io (s.io io).ioType :=
            fun b => by rw [type]
          refine .handled
            ((ioBooks_handleNextOperation io .stdin).trans (sent.trans (moved _))) ?_ ?_ ?_
          · intro e mem other
            exact (List.mem_erase_of_ne fun same : e = pending => other (same ▸ own)).mpr mem
          · intro a mem
            exact (more a).mpr (.inl mem)
          · exact .inr ⟨type, (more _).mpr (.inr rfl)⟩

/-! ### A request is in one place -/

def Whereabouts.place (ioType : IoType) : Whereabouts → Place ι
  | .pending => .pending ioType
  | .device io => .device io
  | .memory => .memory .access

omit [DecidableEq ι] in
theorem Whereabouts.place_injective : Function.Injective (Whereabouts.place (ι := ι) ioType) := by
  intro w w' eq
  cases w <;> cases w' <;> simp_all [Whereabouts.place]

/-- Every access is a request. -/
theorem Memory.count_accesses (m : Memory) (pid : UInt32) :
    m.requests.count (pid, .access) = (m.accesses.map Prod.fst).count pid := by
  have asked : ∀ l : List ToMemory, (l.filterMap ToMemory.request).count (pid, .access) =
      ((l.filterMap ToMemory.access).map Prod.fst).count pid := by
    intro l
    induction l with
    | nil => rfl
    | cons message rest ih =>
        cases message <;>
          simp [List.filterMap_cons, ToMemory.request, ToMemory.access, count_cons_eq, ih]
  have answered : ∀ l : List FromMemory, (l.filterMap FromMemory.request).count (pid, .access) =
      ((l.filterMap FromMemory.access).map Prod.fst).count pid := by
    intro l
    induction l with
    | nil => rfl
    | cons message rest ih =>
        cases message <;>
          simp [List.filterMap_cons, FromMemory.request, FromMemory.access, count_cons_eq, ih]
  have threads : ∀ l : List (UInt32 × UInt32),
      (l.map fun thread => (thread.1, Request.segment)).count (pid, .access) = 0 := by
    intro l
    apply List.count_eq_zero.mpr
    simp
  simp only [Memory.requests, Memory.accesses, List.count_append, List.map_append, asked, answered,
    threads, Nat.add_zero]

variable {m : UInt32 → Mode} {place : UInt32 → Option (Place ι)} {w : Whereabouts}

omit [DecidableEq ι] in
theorem tokens_access (s : State ι) (pid : UInt32) :
    s.tokens pid (.memory .access) =
      (s.ioBooks.accesses.map Prod.fst).count pid + s.ioBooks.written pid := by
  simp only [State.tokens, if_true, Memory.count_accesses]
  rfl

omit [DecidableEq ι] in
theorem tokens_of_holds (holds : s.ioBooks.Holds ioType pid w) :
    0 < s.tokens pid (w.place ioType) := by
  cases w with
  | pending => exact List.count_pos_iff.mpr holds
  | device io => exact List.count_pos_iff.mpr holds.2.2
  | memory =>
      show 0 < s.tokens pid (.memory .access)
      rw [tokens_access]
      rcases holds with mem | ⟨-, pos⟩
      · have counted := List.count_pos_iff.mpr (List.mem_map_of_mem (f := Prod.fst) mem)
        exact Nat.add_pos_left counted _
      · exact Nat.add_pos_right _ pos

theorem Inv.place_of_holds (inv : Inv config m none s place)
    (holds : s.ioBooks.Holds ioType pid w) : place pid = some (w.place ioType) :=
  inv.located.place_eq (tokens_of_holds holds)

theorem Inv.tokens_le_one (inv : Inv config m none s place) (pid : UInt32) (k : Place ι) :
    s.tokens pid k ≤ 1 := by
  rw [inv.located pid k]
  split
  · exact Nat.le_refl 1
  · exact Nat.zero_le 1

/-- It is in no second place. -/
theorem Inv.holds_unique {w' : Whereabouts} (inv : Inv config m none s place)
    (holds : s.ioBooks.Holds ioType pid w) (holds' : s.ioBooks.Holds ioType pid w') : w' = w := by
  have same := (inv.place_of_holds holds').symm.trans (inv.place_of_holds holds)
  exact Whereabouts.place_injective (Option.some.inj same)

/-- A request that a device has is for an operation of its type. -/
theorem Inv.holds_device {io : Nat} (inv : Inv config m none s place)
    (holds : s.ioBooks.Holds ioType pid w) (mem : pid ∈ (s.io io).requests.map IoRequest.pid) :
    w = .device io ∧ (s.io io).ioType = ioType := by
  have here : place pid = some (.device io) := inv.located.place_eq (List.count_pos_iff.mpr mem)
  have same := Option.some.inj ((inv.place_of_holds holds).symm.trans here)
  cases w with
  | pending => cases same
  | memory => cases same
  | device other =>
      cases same
      exact ⟨rfl, holds.2.1⟩

/-- An access that is under way is for an operation of its type. -/
theorem Inv.holds_access {other : IoType} (inv : Inv config m none s place)
    (holds : s.ioBooks.Holds ioType pid w) (mem : (pid, other) ∈ s.ioBooks.accesses) :
    other = ioType := by
  have counted : 0 < (s.ioBooks.accesses.map Prod.fst).count pid :=
    List.count_pos_iff.mpr (List.mem_map_of_mem (f := Prod.fst) mem)
  have one := inv.tokens_le_one pid (.memory .access)
  have here : place pid = some (.memory .access) := by
    apply inv.located.place_eq
    rw [tokens_access]
    exact Nat.add_pos_left counted _
  rw [tokens_access] at one
  have same := Option.some.inj ((inv.place_of_holds holds).symm.trans here)
  cases w with
  | pending => cases same
  | device io => cases same
  | memory =>
      rcases holds with mem' | ⟨-, pos⟩
      · by_contra ne
        have twice := (List.perm_cons_erase mem).map Prod.fst
        have left : (pid, ioType) ∈ s.ioBooks.accesses.erase (pid, other) :=
          (List.mem_erase_of_ne (by simpa using Ne.symm ne)).mpr mem'
        have again : 0 < ((s.ioBooks.accesses.erase (pid, other)).map Prod.fst).count pid :=
          List.count_pos_iff.mpr (List.mem_map_of_mem (f := Prod.fst) left)
        rw [twice.count_eq, List.map_cons, List.count_cons_self] at one
        omega
      · omega

/-! ### Who comes to wait -/

/-- Only the process that the move is about comes to wait. -/
theorem Move.awake {about : About ι} {b b' : Board ι} (move : Move m about b b')
    (other : about.subject ≠ some pid) (awake : ¬ (b.process pid).state.Blocked) :
    ¬ (b'.process pid).state.Blocked := by
  cases move with
  | turn known free turn =>
      rename_i pid' state
      rw [Board.process_setProcess]
      split
      · rename_i eq
        subst eq
        generalize (b.process pid).state = before at turn awake
        cases turn <;> simp_all [ProcessState.Blocked]
      · exact awake
  | create | resume | settle | launch | execute | flow | order | release | terminate | keep | lose
  | confirm | evict | gone | goneWith | come | send | read | answer | suspended =>
      simp only [ProcessState.Blocked] at awake ⊢
      grind

/-- The result of a process that runs does not make it wait. -/
theorem awake_handleSegmentResult {result : SegmentResult}
    (executing : (s.process pid).state = .exec) :
    ¬ ((handleSegmentResult config s pid result).process pid).state.Blocked := by
  have sent : ∀ (s : State ι) cpu, (sendPidToExecute s pid cpu).process = s.process := by
    intro s cpu
    obtain ⟨cpus, sent⟩ := sendPidToExecute_eq s pid cpu
    rw [sent]
  unfold handleSegmentResult
  by_cases known : pid ∈ s.listProcesses
  · rw [if_pos known]
    cases assigned : (s.process pid).cpu with
    | none =>
        by_cases ok : result = .segmentOk
        · simp [ok, executing, makeReady, addProcessToReadyQueue, State.setReadyQueue,
            ProcessState.Blocked]
        · simp [ok, removeFromExec, ProcessState.Blocked]
    | some cpu =>
        by_cases ok : result = .segmentOk
        · simp [ok, sent, executing, ProcessState.Blocked]
        · simp [ok, terminateProcess, removeFromExec, removeProcessFromReadyQueue,
            State.setReadyQueue, ProcessState.Blocked]
  · rw [if_neg known]
    simp [executing, ProcessState.Blocked]

omit [DecidableEq ι] in
/-- The process that a step is about makes a syscall, or gets a result. -/
theorem Action.subject_cases {a : Action ι} (subject : (a.concerns s).subject = some pid) :
    (∃ syscall, a.handles s = some (pid, syscall)) ∨
      a = .handleMemory ∧ ∃ segmentId result rest,
        s.memory.fromMemory = .segmentResult pid segmentId result :: rest := by
  cases a with
  | handleCpu cpu =>
      left
      simp only [Action.concerns] at subject
      cases queue : (s.cpu cpu).toScheduler with
      | nil => simp [queue] at subject
      | cons message rest =>
          rw [queue] at subject
          cases message with
          | syscall other syscall =>
              obtain rfl : other = pid := by simpa [ToScheduler.subject] using subject
              exact ⟨syscall, by simp [Action.handles, queue]⟩
          | processCreate | confirmation => simp [ToScheduler.subject] at subject
  | handleMemory =>
      right
      simp only [Action.concerns] at subject
      cases queue : s.memory.fromMemory with
      | nil => simp [queue] at subject
      | cons message rest =>
          rw [queue] at subject
          cases message with
          | segmentResult other segmentId result =>
              obtain rfl : other = pid := by simpa [FromMemory.concerns] using subject
              exact ⟨rfl, segmentId, result, rest, rfl⟩
          | processCreate | ioMemoryRead | ioMemoryWrite | swapOut | swapIn | memoryUpdate
          | compactionRequest | compactionFinished | corruptedMemory =>
              simp [FromMemory.concerns] at subject
  | compaction i st => cases st <;> simp [Action.concerns] at subject
  | tick | process0 | connectCpu | cpu | disconnectCpu | confirm | wake | schedule | quantum
  | suspend | connectIo | handleIo | disconnectIo | written | memory =>
      simp [Action.concerns] at subject

/-- Who waits after a step has waited before, unless its syscall is handled. -/
theorem step_blocked {a : Action ι} (inv : Inv config m none s place) (fresh : s.board.Fresh)
    (allowed : Allowed m s a) (taken : step config s a = some t)
    (silent : ∀ syscall, a.handles s ≠ some (pid, syscall))
    (blocked : (t.process pid).state.Blocked) : (s.process pid).state.Blocked := by
  by_cases subject : (a.concerns s).subject = some pid
  · rcases Action.subject_cases subject with ⟨syscall, handled⟩ | ⟨rfl, segmentId, result, rest, next⟩
    · exact absurd handled (silent syscall)
    · have executing := (inv.segmentResult next).2.2
      simp only [step, next] at taken
      obtain rfl := Option.some.inj taken
      have awake := @awake_handleSegmentResult ι _ config { s with memory.fromMemory := rest } pid
        result executing
      exact absurd blocked awake
  · by_contra awake
    have moves := step_moves inv fresh allowed taken
    have kept := moves.keeps (P := fun b => ¬ (b.process pid).state.Blocked)
      (fun move => move.awake subject) awake
    exact kept blocked

/-! ### Steps -/

section Answers

variable {io : Nat} {r : IoRequest} {rest : List IoRequest}

omit [DecidableEq ι] in
/-- An answer keeps the lists of devices. -/
theorem wired_answer (wired : s.ioBooks.Wired) (next : (s.io io).requests = r :: rest)
    (answered : Answered (s.setIo io fun d => { d with requests := rest }) io r.pid t) :
    t.ioBooks.Wired := by
  have busy : (s.ioBooks.io io).requests ≠ [] := by
    show (s.io io).requests ≠ []
    simp [next]
  have connected : (s.io io).connection = .connected := wired.busy io busy
  have taken : (s.setIo io fun d => { d with requests := rest }).ioBooks.Wired :=
    wired.setIo (f := fun d => { d with requests := rest }) rfl rfl fun _ => connected
  have still : ((s.setIo io fun d => { d with requests := rest }).io io).connection =
      .connected := by
    rw [setIo_self]
    exact connected
  cases answered with
  | @handled reading accesses same others more own =>
      have left : IoBooks.Wired
          { (s.setIo io fun d => { d with requests := rest }).ioBooks with
            pendingIoStdinReading := reading
            accesses } := taken.congr rfl rfl
      have available : (IoBooks.setIo _ io fun d => { d with isAvailable := true }).Wired :=
        left.setIo rfl rfl fun _ => still
      rw [same]
      apply available.next
      rw [IoBooks.setIo_self]
      exact still
  | unknown type missing same =>
      rw [same]
      exact taken

/-- An answer keeps the requests of the processes that still wait; the one it is for has
a memory access then. -/
theorem served_answer (inv : Inv config m none s place) (wired : s.ioBooks.Wired)
    (next : (s.io io).requests = r :: rest)
    (answered : Answered (s.setIo io fun d => { d with requests := rest }) io r.pid t)
    (blocked : (t.process pid).state.Blocked) (served : s.ioBooks.Served ioType pid) :
    t.ioBooks.Served ioType pid := by
  have busy : (s.ioBooks.io io).requests ≠ [] := by
    show (s.io io).requests ≠ []
    simp [next]
  have connected : (s.io io).connection = .connected := wired.busy io busy
  have here : (s.setIo io fun d => { d with requests := rest }).io io =
      { s.io io with requests := rest } := setIo_self ..
  have kept : pid ≠ r.pid →
      s.ioBooks.Keeps pid (s.setIo io fun d => { d with requests := rest }).ioBooks := by
    intro ne
    apply IoBooks.Keeps.setIo (f := fun d => { d with requests := rest }) rfl rfl
    intro mem
    have mem : pid ∈ (s.io io).requests.map IoRequest.pid := mem
    rw [next, List.map_cons, List.mem_cons] at mem
    exact mem.resolve_left ne
  obtain ⟨w, holds, reading⟩ := served
  have first : pid = r.pid → w = .device io ∧ (s.io io).ioType = ioType := by
    intro eq
    apply inv.holds_device holds
    rw [next, eq]
    exact List.mem_cons_self
  cases answered with
  | @handled reading' accesses same others more own =>
      have type : ((s.setIo io fun d => { d with requests := rest }).io io).ioType =
          (s.io io).ioType := by rw [here]
      have left : IoBooks.Served
          { (s.setIo io fun d => { d with requests := rest }).ioBooks with
            pendingIoStdinReading := reading'
            accesses } ioType pid := by
        by_cases eq : pid = r.pid
        · obtain ⟨-, same_type⟩ := first eq
          rw [type, ← eq] at own
          obtain ⟨stdin, mem⟩ := own.resolve_left (not_not.mpr blocked)
          obtain rfl : ioType = .stdin := same_type.symm.trans stdin
          exact ⟨.memory, .inl mem, fun _ away => absurd rfl away⟩
        · have served : s.ioBooks.Served ioType pid := ⟨w, holds, reading⟩
          apply (served.keep (kept eq)).keep
          exact .trans (.setReading fun e old own => others e old (own ▸ eq))
            (.setAccesses fun _ old => more _ old)
      rw [same, type]
      apply IoBooks.Served.next
      · exact left.keep (.setIo rfl rfl id)
      · rw [IoBooks.setIo_self]
        show ((s.setIo io fun d => { d with requests := rest }).io io).connection = .connected
        rw [here]
        exact connected
      · rw [IoBooks.setIo_self]
        exact type
  | unknown type missing same =>
      have ne : pid ≠ r.pid := by
        intro eq
        obtain ⟨rfl, same_type⟩ := first eq
        rw [here] at type
        obtain ⟨e, mem, own⟩ := reading (same_type.symm.trans type) (by simp)
        exact missing e mem (own.trans eq)
      have served : s.ioBooks.Served ioType pid := ⟨w, holds, reading⟩
      rw [same]
      exact served.keep (kept ne)

end Answers

/-! ### Kernel Memory -/

theorem Memory.mem_accesses_send {before : Memory} {message : FromMemory} {a : UInt32 × IoType}
    (among : message.access = some a ∨ a ∈ before.accesses) :
    a ∈ (before.send message).accesses := by
  rcases among with own | old
  · apply List.mem_append_right
    exact List.mem_filterMap.mpr ⟨message, by simp [Memory.send], own⟩
  · rcases List.mem_append.mp old with asked | answered
    · exact List.mem_append_left _ asked
    · apply List.mem_append_right
      rw [Memory.send, List.filterMap_append]
      exact List.mem_append_left _ answered

/-- Kernel Memory answers what it is asked. -/
theorem Memory.accesses_serve {before now : Memory} {message : ToMemory} {answer : Answer}
    (taken : before.serve message answer = some now) {a : UInt32 × IoType}
    (among : message.access = some a ∨ a ∈ before.accesses) : a ∈ now.accesses := by
  cases message with
  | processCreate pid path =>
      cases answer with
      | ok ok =>
          have old := among.resolve_left (by simp [ToMemory.access])
          obtain rfl := Option.some.inj taken
          cases ok with
          | true => exact mem_accesses_send (.inr old)
          | false => exact old
      | result | value | desuspended => cases taken
  | processEnd | segmentCreate | compactionReady =>
      have old := among.resolve_left (by simp [ToMemory.access])
      obtain rfl := Option.some.inj taken
      exact old
  | segmentDelete | swapOut | swapIn =>
      have old := among.resolve_left (by simp [ToMemory.access])
      cases answer
      all_goals
        first
        | cases taken; done
        | obtain rfl := Option.some.inj taken
          exact mem_accesses_send (.inr old)
  | ioMemoryRead pid physicalAddress size =>
      cases answer with
      | value value =>
          obtain rfl := Option.some.inj taken
          exact mem_accesses_send among
      | ok | result | desuspended => cases taken
  | ioMemoryWrite pid physicalAddress size data =>
      cases answer with
      | ok ok =>
          obtain rfl := Option.some.inj taken
          exact mem_accesses_send among
      | value | result | desuspended => cases taken

/-- A step of Kernel Memory loses no access. -/
theorem Memory.accesses_step {st : MemoryStep} {before now : Memory}
    (taken : before.step st = some now) {a : UInt32 × IoType} (mem : a ∈ before.accesses) :
    a ∈ now.accesses := by
  cases st with
  | serve answer =>
      simp only [Memory.step] at taken
      cases queue : before.toMemory with
      | nil => simp [queue] at taken
      | cons message rest =>
          rw [queue] at taken
          apply accesses_serve taken
          simp only [Memory.accesses, queue, List.filterMap_cons] at mem
          cases asked : message.access with
          | none =>
              simp only [asked] at mem
              exact .inr mem
          | some b =>
              simp only [asked, List.cons_append, List.mem_cons] at mem
              exact mem.imp (fun eq => congrArg some eq.symm) id
  | segmentCreated i result =>
      simp only [Memory.step] at taken
      split at taken
      · cases taken
      · obtain rfl := Option.some.inj taken
        exact mem_accesses_send (.inr mem)
  | memoryUpdate newSize =>
      obtain rfl := Option.some.inj taken
      exact mem_accesses_send (.inr mem)
  | corruptedMemory =>
      obtain rfl := Option.some.inj taken
      exact mem_accesses_send (.inr mem)
  | compactionRequest =>
      simp only [Memory.step] at taken
      split at taken
      · cases taken
      · obtain rfl := Option.some.inj taken
        exact mem_accesses_send (.inr mem)
  | compactionFinished =>
      simp only [Memory.step] at taken
      split at taken
      · obtain rfl := Option.some.inj taken
        exact mem_accesses_send (.inr mem)
      · cases taken

omit [DecidableEq ι] in
/-- The accesses once an answer is read. -/
theorem mem_accesses_read {message : FromMemory} {rest : List FromMemory} {a : UInt32 × IoType}
    (next : s.memory.fromMemory = message :: rest) :
    a ∈ s.ioBooks.accesses ↔
      message.access = some a ∨
        a ∈ ({ s with memory.fromMemory := rest } : State ι).ioBooks.accesses := by
  show a ∈ s.memory.accesses ↔ _ ∨ a ∈ Memory.accesses { s.memory with fromMemory := rest }
  simp only [Memory.accesses, next, List.filterMap_cons]
  cases asked : message.access with
  | none => simp
  | some b =>
      simp only [List.mem_append, List.mem_cons, Option.some.injEq]
      grind

section Reads

variable {other : UInt32} {rest : List FromMemory}

omit [DecidableEq ι] in
/-- An answer for another process is read. -/
theorem keeps_read {message : FromMemory} {type : IoType}
    (next : s.memory.fromMemory = message :: rest) (own : message.access = some (other, type))
    (ne : pid ≠ other) :
    s.ioBooks.Keeps pid ({ s with memory.fromMemory := rest } : State ι).ioBooks := by
  apply IoBooks.Keeps.setAccesses
  intro ioType mem
  apply ((mem_accesses_read next).mp mem).resolve_left
  intro same
  rw [own] at same
  exact ne (Prod.ext_iff.mp (Option.some.inj same)).1.symm

/-- What a `STDOUT` reads goes to a device, or waits for one. -/
theorem served_read {value : String} (inv : Inv config m none s place) (wired : s.ioBooks.Wired)
    (next : s.memory.fromMemory = .ioMemoryRead other value :: rest)
    (served : s.ioBooks.Served ioType pid) :
    (stdoutWaitMemoryRead { s with memory.fromMemory := rest } other value).ioBooks.Served ioType
      pid := by
  rw [ioBooks_stdoutWaitMemoryRead]
  by_cases eq : pid = other
  · subst eq
    obtain ⟨w, holds, -⟩ := served
    obtain rfl := inv.holds_access holds ((mem_accesses_read next).mpr (.inl rfl))
    have wired' : ({ s with memory.fromMemory := rest } : State ι).ioBooks.Wired :=
      wired.congr rfl rfl
    exact .request wired' fun stdin => absurd stdin (by simp)
  · exact (served.keep (keeps_read next rfl eq)).keep .request

/-- `IO_MEMORY_WRITE` is read. -/
theorem served_wrote {ok : Bool} (inv : Inv config m none s place)
    (next : s.memory.fromMemory = .ioMemoryWrite other ok :: rest)
    (blocked : ((handleIoMemoryWrite { s with memory.fromMemory := rest } other ok).process
      pid).state.Blocked)
    (served : s.ioBooks.Served ioType pid) :
    (handleIoMemoryWrite { s with memory.fromMemory := rest } other ok).ioBooks.Served ioType
      pid := by
  rw [ioBooks_handleIoMemoryWrite]
  by_cases eq : pid = other
  · subst eq
    obtain ⟨w, holds, -⟩ := served
    obtain rfl := inv.holds_access holds ((mem_accesses_read next).mpr (.inl rfl))
    cases ok with
    | true =>
        refine ⟨.memory, .inr ⟨rfl, ?_⟩, fun _ away => absurd rfl away⟩
        simp [IoBooks.setWritten]
    | false => simp [handleIoMemoryWrite, ProcessState.Blocked] at blocked
  · have kept := served.keep (keeps_read next rfl eq)
    cases ok with
    | true => exact kept.keep (.setWritten eq)
    | false => exact kept

end Reads

/-! ### Runs -/

/-- A device does not go with the request of a process that waits. -/
def Action.LosesNothing (s : State ι) : Action ι → Prop
  | .disconnectIo io => ∀ r ∈ (s.io io).requests, ¬ (s.process r.pid).state.Blocked
  | _ => True

instance (s : State ι) : (a : Action ι) → Decidable (a.LosesNothing s)
  | .disconnectIo io =>
      inferInstanceAs (Decidable (∀ r ∈ (s.io io).requests, ¬ (s.process r.pid).state.Blocked))
  | .tick | .process0 _ | .connectCpu _ | .cpu .. | .handleCpu _ | .disconnectCpu _ | .confirm _
  | .wake | .schedule | .quantum _ | .suspend | .connectIo .. | .handleIo .. | .written _
  | .memory _ | .handleMemory | .compaction .. => .isTrue trivial

/-- No device goes with such a request, and no CPU while its process waits for a
segment. -/
def IoSafe (s : State ι) (a : Action ι) : Prop :=
  Allowed (fun _ => .any) s a ∧ a.LosesNothing s

instance (s : State ι) (a : Action ι) : Decidable (IoSafe s a) :=
  inferInstanceAs (Decidable (_ ∧ _))

/-- What the steps keep: every process is in one place, the lists of devices are right,
and the request of a process that waits for IO is somewhere. -/
structure IoInv (config : Config) (s : State ι) (cause : UInt32 → Option IoType) : Prop where
  runs : Runs config (fun _ => .any) s
  wired : s.ioBooks.Wired
  served : ∀ pid ioType, (s.process pid).state.Blocked → cause pid = some ioType →
    s.ioBooks.Served ioType pid

theorem step_runs {a : Action ι} (runs : Runs config m s) (allowed : Allowed m s a)
    (taken : step config s a = some t) : Runs config m t := by
  obtain ⟨⟨place, inv⟩, fresh⟩ := runs
  refine ⟨step_inv inv allowed taken, ?_⟩
  exact (step_moves inv fresh allowed taken).keeps (fun move fresh => move.fresh fresh) fresh

/-- Every step keeps the lists of devices. -/
theorem step_wired {a : Action ι} (inv : Inv config m none s place) (wired : s.ioBooks.Wired)
    (taken : step config s a = some t) : t.ioBooks.Wired := by
  cases step_ioStep taken with
  | keep quiet same =>
      rw [same]
      exact wired
  | create quiet fresh new same =>
      rw [same]
      exact wired.congr rfl rfl
  | @handle cpu pid syscall rest acts next handled =>
      rw [handled]
      have left : (s.setCpu cpu fun c => { c with toScheduler := rest }).ioBooks.Wired := wired
      exact handleSyscall_asks.wired left
  | @connect io ioType quiet absent moved =>
      have connected : (s.ioBooks.connect io ioType).Wired := wired.connect absent
      rw [moved]
      apply connected.next
      show (Function.update s.io io _ io).connection = .connected
      rw [Function.update_self]
  | answer acts next handled =>
      have known := (inv.takeDevice next).2.1
      rw [handled]
      exact wired_answer wired next (handleIo_answered known)
  | disconnect acts moved =>
      rw [moved]
      exact wired.disconnect
  | written acts handled =>
      rw [handled, ioBooks_waitMemoryWriteConfirmation]
      exact wired.congr rfl rfl
  | serve acts taken' handled =>
      rw [handled]
      exact wired.congr rfl rfl
  | read acts next handled =>
      rw [handled, ioBooks_stdoutWaitMemoryRead]
      apply IoBooks.Wired.request
      exact wired.congr rfl rfl
  | wrote acts next handled =>
      rw [handled, ioBooks_handleIoMemoryWrite]
      split
      · exact wired.congr rfl rfl
      · exact wired.congr rfl rfl

/-- Every step keeps the requests of the processes that wait. -/
theorem step_served {a : Action ι} {cause : UInt32 → Option IoType} (inv : IoInv config s cause)
    (safe : IoSafe s a) (taken : step config s a = some t) (blocked : (t.process pid).state.Blocked)
    (asks : a.causes s cause pid = some ioType) : t.ioBooks.Served ioType pid := by
  obtain ⟨⟨⟨place, inplace⟩, fresh⟩, wired, served⟩ := inv
  obtain ⟨allowed, loses⟩ := safe
  have before : (∀ syscall, a.handles s ≠ some (pid, syscall)) →
      (s.process pid).state.Blocked := fun silent =>
    step_blocked inplace fresh allowed taken silent blocked
  have waits : a.handles s = none → s.ioBooks.Served ioType pid := by
    intro quiet
    rw [Action.causes, quiet] at asks
    exact served pid ioType (before (by simp [quiet])) asks
  cases step_ioStep taken with
  | keep quiet same =>
      rw [same]
      exact waits quiet
  | create quiet fresh' new same =>
      rw [same]
      apply (waits quiet).keep
      apply IoBooks.Keeps.setWritten
      rintro rfl
      simp [new, ProcessState.Blocked] at blocked
  | @handle cpu other syscall rest acts next handled =>
      have handles : a.handles s = some (other, syscall) := by
        rw [acts]
        simp [Action.handles, next]
      rw [Action.causes, handles] at asks
      dsimp only at asks
      by_cases eq : pid = other
      · subst eq
        rw [Function.update_self] at asks
        have known : pid ∈ s.listProcesses := by
          have sent : pid ∈ (s.cpu cpu).inFlight := by
            simp [Cpu.inFlight, next, ToScheduler.pid]
          have held : 0 < s.tokens pid (.cpu cpu) := List.count_pos_iff.mpr sent
          have there := inplace.located.place_eq held
          exact inplace.known pid (by simp [there])
        rw [handled] at blocked ⊢
        have left : (s.setCpu cpu fun c => { c with toScheduler := rest }).ioBooks.Wired := wired
        exact served_handleSyscall left known asks blocked
      · rw [Function.update_of_ne eq] at asks
        have waits := served pid ioType (before (by simp [handles, Ne.symm eq])) asks
        have left : (s.setCpu cpu fun c =>
            { c with toScheduler := rest }).ioBooks.Served ioType pid := waits
        rw [handled]
        exact left.keep handleSyscall_asks.keeps
  | @connect io type quiet absent moved =>
      have here : (s.ioBooks.connect io type).io io = ⟨type, .connected, true, []⟩ :=
        Function.update_self ..
      have kept : (s.ioBooks.connect io type).Served ioType pid :=
        (waits quiet).keep (.connect absent)
      rw [moved]
      apply kept.next
      · rw [here]
      · rw [here]
  | @answer io value r rest acts next handled =>
      have known := (inplace.takeDevice next).2.1
      subst acts
      have waits := waits rfl
      rw [handled] at blocked ⊢
      exact served_answer inplace wired next (handleIo_answered known) blocked waits
  | @disconnect io acts moved =>
      subst acts
      have waited := before (by simp [Action.handles])
      rw [moved]
      apply (waits rfl).keep
      apply IoBooks.Keeps.disconnect
      intro mem
      obtain ⟨r, among, rfl⟩ := List.mem_map.mp mem
      exact loses r among waited
  | @written other acts handled =>
      subst acts
      have ne : pid ≠ other := by
        rintro rfl
        rw [handled] at blocked
        exact awake_finishBlock blocked
      rw [handled, ioBooks_waitMemoryWriteConfirmation]
      exact (waits rfl).keep (.setWritten ne)
  | serve acts taken' handled =>
      subst acts
      rw [handled]
      exact (waits rfl).keep (.setAccesses fun _ mem => Memory.accesses_step taken' mem)
  | read acts next handled =>
      subst acts
      rw [handled]
      exact served_read inplace wired next (waits rfl)
  | wrote acts next handled =>
      subst acts
      rw [handled] at blocked ⊢
      exact served_wrote inplace next blocked (waits rfl)

theorem step_ioInv {a : Action ι} {cause : UInt32 → Option IoType} (inv : IoInv config s cause)
    (safe : IoSafe s a) (taken : step config s a = some t) :
    IoInv config t (a.causes s cause) where
  runs := step_runs inv.runs safe.1 taken
  wired := by
    obtain ⟨⟨⟨place, inplace⟩, -⟩, wired, -⟩ := inv
    exact step_wired inplace wired taken
  served _ _ := step_served inv safe taken

theorem initial_ioInv (cause : UInt32 → Option IoType) : IoInv config (initial : State ι) cause where
  runs := initial_runs
  wired := by
    constructor <;> simp [State.ioBooks, initial]
  served pid ioType blocked := by
    simp [initial, createProcess, ProcessState.Blocked] at blocked

/-- In a run, the last syscall of a process is why it waits. -/
theorem IoInv.of_run {as : List (Action ι)} (run : Run (step config) IoSafe initial as s) :
    IoInv config s fun pid => (lastSyscall config as pid).bind Syscall.ioType := by
  induction run with
  | refl => exact initial_ioInv _
  | snoc before safe taken ih =>
      rw [lastSyscall_snoc before taken]
      exact step_ioInv ih safe taken

/-- A device goes that has a request: the request is nowhere. -/
theorem Inv.request_lost {io : Nat} {r : IoRequest} (inv : Inv config m none s place)
    (taken : step config s (.disconnectIo io) = some t) (mem : r ∈ (s.io io).requests) :
    t.process = s.process ∧ ∀ ioType w, ¬ t.ioBooks.Holds ioType r.pid w := by
  have among : r.pid ∈ (s.io io).requests.map IoRequest.pid := List.mem_map_of_mem mem
  simp only [step] at taken
  split at taken
  · obtain rfl := Option.some.inj taken
    refine ⟨rfl, fun ioType w holds => ?_⟩
    have closed : ((s.ioBooks.disconnect io).io io).connection = .closed := by
      show (Function.update s.io io _ io).connection = .closed
      rw [Function.update_self]
    have holds : (s.ioBooks.disconnect io).Holds ioType r.pid w := holds
    by_cases here : w = .device io
    · subst here
      obtain ⟨connected, -⟩ := holds
      rw [closed] at connected
      cases connected
    · have before : s.ioBooks.Holds ioType r.pid w := by
        cases w with
        | pending => exact holds
        | memory => exact holds
        | device other =>
            have ne : other ≠ io := fun eq => here (eq ▸ rfl)
            have same : (s.ioBooks.disconnect io).io other = s.io other :=
              Function.update_of_ne ne ..
            obtain ⟨connected, type, mem⟩ := holds
            rw [same] at connected type mem
            exact ⟨connected, type, mem⟩
      exact here (inv.holds_device before among).1
  · cases taken

/-- While no device goes with the request of a process that waits, and no CPU while its
process waits for a segment, a process that waits for `SLEEP`, `STDIN` or `STDOUT` has its
request in exactly one place, and once. A device that goes with such a request loses it. -/
theorem io_requests_kept {as : List (Action ι)} (run : Run (step config) IoSafe initial as s) :
    (∀ pid ioType, (s.process pid).state.Blocked →
      (lastSyscall config as pid).bind Syscall.ioType = some ioType →
        ∃! w, s.ioBooks.Holds ioType pid w) ∧
      (∀ pid place, s.tokens pid place ≤ 1) ∧
      ∀ io t, step config s (.disconnectIo io) = some t → ∀ r ∈ (s.io io).requests,
        (s.process r.pid).state.Blocked →
          (t.process r.pid).state.Blocked ∧ ∀ ioType w, ¬ t.ioBooks.Holds ioType r.pid w := by
  have inv := IoInv.of_run run
  obtain ⟨place, inplace⟩ := inv.runs.1
  refine ⟨?_, inplace.tokens_le_one, ?_⟩
  · intro pid ioType blocked asks
    obtain ⟨w, holds, -⟩ := inv.served pid ioType blocked asks
    exact ⟨w, holds, fun w' holds' => inplace.holds_unique holds holds'⟩
  · intro io t taken r mem blocked
    obtain ⟨same, lost⟩ := inplace.request_lost taken mem
    rw [same]
    exact ⟨blocked, lost⟩

/-- The first process asks a device for a `SLEEP`. -/
def sleeping : List (Action ℕ) :=
  started ++ [.connectIo 7 .sleep, .cpu 0 (.stop (.sleep 5)), .handleCpu 0]

theorem io_requests_kept_of_sleep :
    ∃ s : State ℕ, (s.process 0).state = .block ∧ ∃! w, s.ioBooks.Holds .sleep 0 w := by
  obtain ⟨s, run, test⟩ := Run.exists_of_exec (step fifo) IoSafe sleeping initial
    (fun s : State ℕ => decide ((s.process 0).state = .block)) (by decide)
  have blocked : (s.process 0).state = .block := of_decide_eq_true test
  have asks : (lastSyscall fifo sleeping 0).bind Syscall.ioType = some .sleep := by decide
  exact ⟨s, blocked, (io_requests_kept run).1 0 .sleep (.inl blocked) asks⟩

/-- The device goes while the process sleeps: the process stays `BLOCK`, and its request
is nowhere. -/
theorem device_lost :
    ∃ s : State ℕ, Run (step fifo) (Allowed fun _ => .any) initial (sleeping ++ [.disconnectIo 7]) s ∧
      (s.process 0).state = .block ∧
      lastSyscall fifo (sleeping ++ [.disconnectIo 7]) 0 = some (.sleep 5) ∧
      ¬ ∃ w, s.ioBooks.Holds .sleep 0 w := by
  obtain ⟨s, run, test⟩ := Run.exists_of_exec (step fifo) (Allowed fun _ => .any) sleeping initial
    (fun s : State ℕ => decide ((s.process 0).state = .block ∧ (s.io 7).connection = .connected ∧
      (s.io 7).requests = [.numeric 0 5])) (by decide)
  obtain ⟨blocked, connected, requests⟩ := of_decide_eq_true test
  have asked : lastSyscall fifo (sleeping ++ [.disconnectIo 7]) 0 = some (.sleep 5) := by decide
  obtain ⟨t, taken⟩ : ∃ t, step fifo s (.disconnectIo 7) = some t := by
    simp only [step, if_pos connected]
    exact ⟨_, rfl⟩
  obtain ⟨place, inplace⟩ := Inv.of_run run
  have mem : IoRequest.numeric 0 5 ∈ (s.io 7).requests := by simp [requests]
  obtain ⟨same, lost⟩ := inplace.request_lost taken mem
  refine ⟨t, .snoc run trivial taken, ?_, asked, ?_⟩
  · rw [same]
    exact blocked
  · rintro ⟨w, holds⟩
    exact lost .sleep w holds

end OsModel.KernelScheduler
