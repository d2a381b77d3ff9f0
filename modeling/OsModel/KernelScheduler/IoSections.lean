import OsModel.KernelScheduler.State
import OsModel.Lib.Run
import OsModel.Lib.Tokens

/-!
The IO devices of one type, one critical section at a time
(`kernel_scheduler/src/managers/io_manager.c`, `module_handlers/io_handler.c`).

A syscall takes a device or joins the pending list under `io_mutex`. The thread
of a device marks it available in a section of its own and takes the next
pending request in a later one; between the two the device can be taken by a
syscall. The types share no list and no device.

* `io_served_in_order`: devices have one request each and the requests keep
  their order, in every run in which nobody comes between these two sections.
* `taken_twice`: a syscall that does come between them gives the device a
  second request, and overtakes the one that waits.
-/

namespace OsModel.KernelScheduler.IoSections

open Lib

/-- Where the thread of a device is. -/
inductive Handler where
  | absent
  /-- Before `handle_next_operation`. -/
  | next
  /-- At `operation_receive`. -/
  | waiting
  /-- Behind the answer for a process, before `io->is_available = true`. -/
  | finishing (pid : UInt32)
  | gone
  deriving DecidableEq, Repr

def Handler.listed : Handler → Bool
  | .absent | .gone => false
  | .next | .waiting | .finishing _ => true

/-- A device: its flag, the requests it has been given and not finished, and its
thread. -/
structure Device where
  isAvailable : Bool
  requests : List IoRequest
  handler : Handler
  deriving DecidableEq, Repr

/-- The lists of one type. `registered` are the threads of `stdin_syscall_manager`
between their entry in `pending_io_stdin_reading` and `io_mutex`. Nothing reads
`issued` and `handed`: the requests in the order in which they came under
`io_mutex`, and in which devices were given them. -/
structure State where
  listProcesses : List UInt32
  device : Nat → Device
  listIo : List Nat
  pendingRequestIo : List IoRequest
  pendingIoStdinReading : List PendingStdin
  registered : List IoRequest
  issued : List IoRequest
  handed : List IoRequest

/-- Before any device or process. -/
def initial : State where
  listProcesses := []
  device := fun _ => ⟨false, [], .absent⟩
  listIo := []
  pendingRequestIo := []
  pendingIoStdinReading := []
  registered := []
  issued := []
  handed := []

/-- What can happen next. -/
inductive Action where
  /-- A process joins `list_processes`, which none leaves. -/
  | create (pid : UInt32)
  /-- `stdin_syscall_manager`, up to its entry in `pending_io_stdin_reading`. -/
  | register (pid physicalAddress toRead : UInt32)
  /-- The section of a syscall manager under `io_mutex`. -/
  | request (request : IoRequest)
  /-- `add_client_to_list`. -/
  | connect (io : Nat)
  /-- The device answers, and its thread reads the answer. -/
  | receive (io : Nat)
  /-- `io->is_available = true`. -/
  | finish (io : Nat)
  /-- `handle_next_operation`. -/
  | handleNext (io : Nat)
  /-- The device goes, and its thread with it. -/
  | disconnect (io : Nat)
  deriving DecidableEq, Repr

/-- `io->is_available = false`, and the request is sent. -/
def Device.give (d : Device) (request : IoRequest) : Device :=
  { d with isAvailable := false, requests := d.requests ++ [request] }

section Sections

variable (ioType : IoType) (s : State)

/-- A device after a step. -/
def State.setDevice (io : Nat) (d : Device) : State :=
  { s with device := Function.update s.device io d }

def getAvailableIoType : Option Nat := s.listIo.find? fun io => (s.device io).isAvailable

/-- A request comes under `io_mutex` and finds no device. -/
def enqueue (request : IoRequest) : State :=
  { s with
    pendingRequestIo := s.pendingRequestIo ++ [request]
    issued := s.issued ++ [request] }

/-- A device gets a request. -/
def assign (io : Nat) (request : IoRequest) : State :=
  { s.setDevice io ((s.device io).give request) with handed := s.handed ++ [request] }

/-- The end of the syscall managers, under `io_mutex`. -/
def requestIo (request : IoRequest) : State :=
  match getAvailableIoType s with
  | some io => assign { s with issued := s.issued ++ [request] } io request
  | none => enqueue s request

/-- The next pending request goes to the device, whatever its flag says. -/
def takeNext (io : Nat) : State :=
  match s.pendingRequestIo with
  | [] => s
  | request :: rest => assign { s with pendingRequestIo := rest } io request

/-- Another place for the thread of a device. -/
def setHandler (io : Nat) (handler : Handler) : State :=
  s.setDevice io { s.device io with handler := handler }

def addClientToList (io : Nat) : State :=
  { s with
    device := Function.update s.device io ⟨true, [], .next⟩
    listIo := s.listIo ++ [io] }

def removeClientFromList (io : Nat) : State :=
  { s with
    device := Function.update s.device io ⟨false, [], .gone⟩
    listIo := s.listIo.erase io }

/-- The answer to a request: `CONFIRMATION`, or `STDIN` with what was read, which
is dropped when nobody waits for it. -/
def receive (io : Nat) (request : IoRequest) : State :=
  match ioType with
  | .sleep | .stdout => setHandler s io (.finishing request.pid)
  | .stdin =>
      match s.pendingIoStdinReading.find? fun pending => pending.pid == request.pid with
      | none => s.setDevice io { s.device io with requests := (s.device io).requests.tail }
      | some _ =>
          setHandler
            { s with
              pendingIoStdinReading :=
                s.pendingIoStdinReading.eraseP fun pending => pending.pid == request.pid }
            io (.finishing request.pid)

/-- The section in which the device becomes available: in `io_finish_process` only
for a process that is found. -/
def finish (io : Nat) (pid : UInt32) : State :=
  let d := s.device io
  s.setDevice io
    { isAvailable := d.isAvailable || ioType = .stdin || pid ∈ s.listProcesses
      requests := d.requests.tail
      handler := .next }

def step : Action → Option State
  | .create pid => some { s with listProcesses := s.listProcesses ++ [pid] }
  | .register pid physicalAddress toRead =>
      if ioType = .stdin ∧ pid ∈ s.listProcesses then
        some { s with
          pendingIoStdinReading := s.pendingIoStdinReading ++ [⟨pid, physicalAddress, toRead⟩]
          registered := s.registered ++ [.numeric pid toRead] }
      else none
  | .request request =>
      if ioType = .stdin then
        if request ∈ s.registered then
          some (requestIo { s with registered := s.registered.erase request } request)
        else none
      else if request.pid ∈ s.listProcesses then some (requestIo s request)
      else none
  | .connect io =>
      if (s.device io).handler = .absent then
        some (addClientToList s io)
      else none
  | .receive io =>
      match (s.device io).handler, (s.device io).requests with
      | .waiting, request :: _ => some (receive ioType s io request)
      | _, _ => none
  | .finish io =>
      match (s.device io).handler with
      | .finishing pid => some (finish ioType s io pid)
      | _ => none
  | .handleNext io =>
      match (s.device io).handler with
      | .next => some (setHandler (takeNext s io) io .waiting)
      | _ => none
  | .disconnect io =>
      match (s.device io).handler with
      | .waiting => some (removeClientFromList s io)
      | _ => none

end Sections

/-! ### What is claimed of the devices -/

/-- Each device has at most one request and is marked exactly while it has one;
what has been given to devices, and then what waits, is what was issued. -/
structure Served (s : State) : Prop where
  exclusive : ∀ io ∈ s.listIo, (s.device io).requests.length ≤ 1
  flag : ∀ io ∈ s.listIo, (s.device io).isAvailable = false ↔ (s.device io).requests ≠ []
  order : s.issued = s.handed ++ s.pendingRequestIo

/-- Nobody has come between `io->is_available = true` and `handle_next_operation`:
a syscall that finds a device finds no request waiting, and a device that takes a
waiting request is still available. -/
def Action.Undisturbed (s : State) : Action → Prop
  | .request _ => (getAvailableIoType s).isSome → s.pendingRequestIo = []
  | .handleNext io => s.pendingRequestIo ≠ [] → (s.device io).isAvailable = true
  | _ => True

instance (s : State) : (a : Action) → Decidable (a.Undisturbed s)
  | .request _ =>
      inferInstanceAs (Decidable ((getAvailableIoType s).isSome → s.pendingRequestIo = []))
  | .handleNext io =>
      inferInstanceAs (Decidable (s.pendingRequestIo ≠ [] → (s.device io).isAvailable = true))
  | .create _ | .register .. | .connect _ | .receive _ | .finish _ | .disconnect _ =>
      .isTrue trivial

/-! ### The invariant -/

/-- The requests that the thread of a device has still to read an answer to. -/
def Device.unread (d : Device) : List IoRequest :=
  match d.handler with
  | .finishing _ => d.requests.tail
  | _ => d.requests

/-- The pids of the requests without an answer, wherever they are. -/
def unreadPids (s : State) : List UInt32 :=
  s.registered.map IoRequest.pid ++ s.pendingRequestIo.map IoRequest.pid ++
    s.listIo.flatMap fun io => (s.device io).unread.map IoRequest.pid

/-- The request is somewhere. -/
def Holds (s : State) (request : IoRequest) : Prop :=
  request ∈ s.registered ∨ request ∈ s.pendingRequestIo ∨
    ∃ io ∈ s.listIo, request ∈ (s.device io).requests

/-- What the sections keep. A thread that is about to mark its device has read the
answer to its only request; whose request is somewhere is a process; and every
unanswered `STDIN` has its entry. -/
structure Inv (ioType : IoType) (s : State) : Prop extends Served s where
  once : s.listIo.Nodup
  listed : ∀ io, io ∈ s.listIo ↔ (s.device io).handler.listed = true
  answered : ∀ io pid, (s.device io).handler = .finishing pid →
    ∃ request, (s.device io).requests = [request] ∧ request.pid = pid
  known : ∀ request, Holds s request → request.pid ∈ s.listProcesses
  entered : ioType = .stdin → ∀ pid,
    (unreadPids s).count pid ≤ (s.pendingIoStdinReading.map PendingStdin.pid).count pid

section Keeps

variable {ioType : IoType} {s s' : State} {io : Nat} {d : Device} {request : IoRequest}

theorem unread_of_unfinished (unfinished : ∀ pid, d.handler ≠ .finishing pid) :
    d.unread = d.requests := by
  unfold Device.unread
  split
  · rename_i pid finishing
    exact absurd finishing (unfinished pid)
  · rfl

/-- One device changes. -/
theorem Inv.change (inv : Inv ioType s) (mem : io ∈ s.listIo)
    (devices : s'.device = Function.update s.device io d) (list : s'.listIo = s.listIo)
    (exclusive : d.requests.length ≤ 1) (flag : d.isAvailable = false ↔ d.requests ≠ [])
    (listed : d.handler.listed = true)
    (answered : ∀ pid, d.handler = .finishing pid →
      ∃ request, d.requests = [request] ∧ request.pid = pid)
    (order : s'.issued = s'.handed ++ s'.pendingRequestIo)
    (known : ∀ request, Holds s' request → request.pid ∈ s'.listProcesses)
    (entered : ioType = .stdin → ∀ pid,
      (unreadPids s').count pid ≤ (s'.pendingIoStdinReading.map PendingStdin.pid).count pid) :
    Inv ioType s' := by
  have here : s'.device io = d := by rw [devices, Function.update_self]
  have other : ∀ {io'}, io' ≠ io → s'.device io' = s.device io' := by
    intro io' ne
    rw [devices, Function.update_of_ne ne]
  refine ⟨⟨?_, ?_, order⟩, ?_, ?_, ?_, known, entered⟩
  · intro io' mem'
    by_cases eq : io' = io
    · rw [eq, here]
      exact exclusive
    · rw [other eq]
      exact inv.exclusive io' (list ▸ mem')
  · intro io' mem'
    by_cases eq : io' = io
    · rw [eq, here]
      exact flag
    · rw [other eq]
      exact inv.flag io' (list ▸ mem')
  · rw [list]
    exact inv.once
  · intro io'
    rw [list]
    by_cases eq : io' = io
    · rw [eq, here, listed]
      simp [mem]
    · rw [other eq]
      exact inv.listed io'
  · intro io' pid finishing
    by_cases eq : io' = io
    · rw [eq, here] at finishing ⊢
      exact answered pid finishing
    · rw [other eq] at finishing ⊢
      exact inv.answered io' pid finishing

/-- What an unread request of the changed device contributes. -/
theorem count_unreadPids (inv : Inv ioType s) (mem : io ∈ s.listIo) (d : Device) (pid : UInt32) :
    (s.listIo.flatMap fun io' =>
        ((Function.update s.device io d) io').unread.map IoRequest.pid).count pid +
        ((s.device io).unread.map IoRequest.pid).count pid =
      (s.listIo.flatMap fun io' => (s.device io').unread.map IoRequest.pid).count pid +
        (d.unread.map IoRequest.pid).count pid := by
  rw [← count_flatMap_update inv.once mem
    (fun io' => (s.device io').unread.map IoRequest.pid)]
  congr 3
  funext io'
  by_cases eq : io' = io
  · rw [eq, Function.update_self, Function.update_self]
  · rw [Function.update_of_ne eq, Function.update_of_ne eq]

theorem holds_update {request : IoRequest}
    (mem : ∃ io' ∈ s'.listIo, request ∈ (s'.device io').requests)
    (devices : s'.device = Function.update s.device io d) (list : s'.listIo = s.listIo) :
    request ∈ d.requests ∨ ∃ io' ∈ s.listIo, request ∈ (s.device io').requests := by
  obtain ⟨io', among, here⟩ := mem
  rw [devices] at here
  by_cases eq : io' = io
  · rw [eq, Function.update_self] at here
    exact .inl here
  · rw [Function.update_of_ne eq] at here
    exact .inr ⟨io', list ▸ among, here⟩

/-- A request that finds no device. -/
theorem Inv.enqueue {registered : List IoRequest} (inv : Inv ioType s)
    (known : request.pid ∈ s.listProcesses) (sub : registered ⊆ s.registered)
    (counted : ioType = .stdin → ∀ pid,
      (registered.map IoRequest.pid).count pid + [request.pid].count pid ≤
        (s.registered.map IoRequest.pid).count pid) :
    Inv ioType (enqueue { s with registered := registered } request) := by
  refine ⟨⟨inv.exclusive, inv.flag, ?_⟩, inv.once, inv.listed, inv.answered, ?_, ?_⟩
  · simp only [IoSections.enqueue, inv.order, List.append_assoc]
  · rintro other (here | here | here)
    · exact inv.known other (.inl (sub here))
    · rcases List.mem_append.mp here with old | new
      · exact inv.known other (.inr (.inl old))
      · obtain rfl := List.mem_singleton.mp new
        exact known
    · exact inv.known other (.inr (.inr here))
  · intro stdin pid
    have before := inv.entered stdin pid
    have fewer := counted stdin pid
    simp only [unreadPids, IoSections.enqueue, List.map_append, List.map_cons, List.map_nil,
      List.count_append] at before fewer ⊢
    omega

/-- An available device has no request. -/
theorem Inv.idle (inv : Inv ioType s) (mem : io ∈ s.listIo)
    (available : (s.device io).isAvailable = true) : (s.device io).requests = [] := by
  by_contra busy
  have taken := (inv.flag io mem).mpr busy
  rw [available] at taken
  simp at taken

/-- A device that is available takes the next request. -/
theorem Inv.takeNext (inv : Inv ioType s) (mem : io ∈ s.listIo)
    (available : s.pendingRequestIo ≠ [] → (s.device io).isAvailable = true) :
    Inv ioType (takeNext s io) := by
  cases waiting : s.pendingRequestIo with
  | nil =>
      rw [IoSections.takeNext, waiting]
      exact inv
  | cons next rest =>
      have idle := inv.idle mem (available (by simp [waiting]))
      have unfinished : ∀ pid, (s.device io).handler ≠ .finishing pid := by
        intro pid finishing
        obtain ⟨request, requests, -⟩ := inv.answered io pid finishing
        simp [idle] at requests
      have given : ((s.device io).give next).requests = [next] := by
        rw [Device.give, idle]
        rfl
      simp only [IoSections.takeNext, waiting]
      refine inv.change mem (d := (s.device io).give next) rfl rfl ?_ ?_ ?_ ?_ ?_ ?_ ?_
      · rw [given]
        exact le_refl _
      · simp [Device.give]
      · exact (inv.listed io).mp mem
      · intro pid finishing
        exact absurd finishing (unfinished pid)
      · simp only [assign, State.setDevice, List.append_assoc, List.singleton_append]
        rw [inv.order, waiting]
      · rintro request (here | here | here)
        · exact inv.known request (.inl here)
        · refine inv.known request (.inr (.inl ?_))
          rw [waiting]
          exact List.mem_cons_of_mem _ here
        · rcases holds_update (s := s) (d := (s.device io).give next) here rfl rfl with new | old
          · rw [given, List.mem_singleton] at new
            subst new
            exact inv.known request (.inr (.inl (by rw [waiting]; exact List.mem_cons_self)))
          · exact inv.known request (.inr (.inr old))
      · intro stdin pid
        have before := inv.entered stdin pid
        have moved := count_unreadPids inv mem ((s.device io).give next) pid
        rw [unread_of_unfinished unfinished, idle,
          unread_of_unfinished (d := (s.device io).give next) unfinished, given] at moved
        simp only [unreadPids, waiting, assign, State.setDevice, List.count_append, List.map_cons,
          List.map_nil, List.count_cons, List.count_nil] at before moved ⊢
        omega

/-- The thread of a listed device goes on; its requests stay. -/
theorem Inv.setHandler {handler : Handler} (inv : Inv ioType s) (mem : io ∈ s.listIo)
    (listed : handler.listed = true)
    (before : ∀ pid, (s.device io).handler ≠ .finishing pid)
    (behind : ∀ pid, handler ≠ .finishing pid) :
    Inv ioType (setHandler s io handler) := by
  refine inv.change mem (d := { s.device io with handler := handler }) rfl rfl
    (inv.exclusive io mem) (inv.flag io mem) listed ?_ inv.order ?_ ?_
  · intro pid finishing
    exact absurd finishing (behind pid)
  · rintro request (here | here | here)
    · exact inv.known request (.inl here)
    · exact inv.known request (.inr (.inl here))
    · rcases holds_update (s := s) (d := { s.device io with handler := handler }) here rfl rfl
        with new | old
      · exact inv.known request (.inr (.inr ⟨io, mem, new⟩))
      · exact inv.known request (.inr (.inr old))
  · intro stdin pid
    have counted := inv.entered stdin pid
    have moved := count_unreadPids inv mem { s.device io with handler := handler } pid
    rw [unread_of_unfinished before,
      unread_of_unfinished (d := { s.device io with handler := handler }) behind] at moved
    simp only [unreadPids, IoSections.setHandler, State.setDevice, List.count_append]
      at counted moved ⊢
    omega

/-- A request under `io_mutex`, when none waits or no device is available. -/
theorem Inv.requestIo {registered : List IoRequest} (inv : Inv ioType s)
    (known : request.pid ∈ s.listProcesses) (sub : registered ⊆ s.registered)
    (counted : ioType = .stdin → ∀ pid,
      (registered.map IoRequest.pid).count pid + [request.pid].count pid ≤
        (s.registered.map IoRequest.pid).count pid)
    (undisturbed : (getAvailableIoType s).isSome → s.pendingRequestIo = []) :
    Inv ioType (requestIo { s with registered := registered } request) := by
  have queued := inv.enqueue known sub counted
  have same : getAvailableIoType { s with registered := registered } = getAvailableIoType s := rfl
  unfold IoSections.requestIo
  rw [same]
  cases found : getAvailableIoType s with
  | none => exact queued
  | some io =>
      have empty := undisturbed (by rw [found]; rfl)
      have mem : io ∈ s.listIo := List.mem_of_find?_eq_some found
      have available : (s.device io).isAvailable = true := by simpa using List.find?_some found
      have taken := queued.takeNext mem fun _ => available
      have next : (IoSections.enqueue { s with registered := registered } request).pendingRequestIo =
          [request] := by
        rw [IoSections.enqueue, empty]
        rfl
      simp only [IoSections.takeNext, next] at taken
      simpa [IoSections.enqueue, empty] using taken

/-- A device connects, under a name that has not been used. -/
theorem Inv.addClientToList (inv : Inv ioType s) (absent : (s.device io).handler = .absent) :
    Inv ioType (addClientToList s io) := by
  have out : io ∉ s.listIo := by
    rw [inv.listed io, absent]
    simp [Handler.listed]
  have here : (IoSections.addClientToList s io).device io = ⟨true, [], .next⟩ :=
    Function.update_self ..
  have other : ∀ {io'}, io' ≠ io →
      (IoSections.addClientToList s io).device io' = s.device io' := by
    intro io' ne
    exact Function.update_of_ne ne ..
  have others : ∀ io' ∈ s.listIo,
      (IoSections.addClientToList s io).device io' = s.device io' := by
    intro io' mem
    apply other
    rintro rfl
    exact out mem
  have split_mem : ∀ {io'}, io' ∈ (IoSections.addClientToList s io).listIo →
      io' ∈ s.listIo ∨ io' = io := by
    intro io' mem
    simpa [IoSections.addClientToList] using mem
  refine ⟨⟨?_, ?_, inv.order⟩, ?_, ?_, ?_, ?_, ?_⟩
  · intro io' mem
    rcases split_mem mem with old | rfl
    · rw [others io' old]
      exact inv.exclusive io' old
    · simp [here]
  · intro io' mem
    rcases split_mem mem with old | rfl
    · rw [others io' old]
      exact inv.flag io' old
    · simp [here]
  · rw [IoSections.addClientToList, List.nodup_append]
    refine ⟨inv.once, List.nodup_singleton _, ?_⟩
    rintro io' mem _ new rfl
    obtain rfl := List.mem_singleton.mp new
    exact out mem
  · intro io'
    by_cases eq : io' = io
    · rw [eq, here]
      simp [IoSections.addClientToList, Handler.listed]
    · rw [other eq, ← inv.listed io']
      simp [IoSections.addClientToList, eq]
  · intro io' pid finishing
    by_cases eq : io' = io
    · rw [eq, here] at finishing
      simp at finishing
    · rw [other eq] at finishing ⊢
      exact inv.answered io' pid finishing
  · rintro request (held | held | ⟨io', mem, held⟩)
    · exact inv.known request (.inl held)
    · exact inv.known request (.inr (.inl held))
    · rcases split_mem mem with old | rfl
      · rw [others io' old] at held
        exact inv.known request (.inr (.inr ⟨io', old, held⟩))
      · simp [here] at held
  · intro stdin pid
    have same : unreadPids (IoSections.addClientToList s io) = unreadPids s := by
      have old : (s.listIo.flatMap fun io' =>
          ((IoSections.addClientToList s io).device io').unread.map IoRequest.pid) =
          s.listIo.flatMap fun io' => (s.device io').unread.map IoRequest.pid := by
        refine List.flatMap_congr fun io' mem => ?_
        rw [others io' mem]
      have list : (IoSections.addClientToList s io).listIo = s.listIo ++ [io] := rfl
      rw [unreadPids, list, List.flatMap_append, old, List.flatMap_cons, here]
      simp only [unreadPids, Device.unread, List.map_nil, List.flatMap_nil, List.append_nil]
      rfl
    rw [same]
    exact inv.entered stdin pid

/-- A device goes, with the request it may have. -/
theorem Inv.removeClientFromList (inv : Inv ioType s) :
    Inv ioType (removeClientFromList s io) := by
  have here : (IoSections.removeClientFromList s io).device io = ⟨false, [], .gone⟩ :=
    Function.update_self ..
  have other : ∀ {io'}, io' ≠ io →
      (IoSections.removeClientFromList s io).device io' = s.device io' := by
    intro io' ne
    exact Function.update_of_ne ne ..
  have stays : ∀ {io'}, io' ∈ (IoSections.removeClientFromList s io).listIo →
      io' ≠ io ∧ io' ∈ s.listIo := fun mem => (inv.once.mem_erase_iff).mp mem
  refine ⟨⟨?_, ?_, inv.order⟩, inv.once.erase io, ?_, ?_, ?_, ?_⟩
  · intro io' mem
    obtain ⟨ne, old⟩ := stays mem
    rw [other ne]
    exact inv.exclusive io' old
  · intro io' mem
    obtain ⟨ne, old⟩ := stays mem
    rw [other ne]
    exact inv.flag io' old
  · intro io'
    by_cases eq : io' = io
    · rw [eq, here]
      have gone : io ∉ (IoSections.removeClientFromList s io).listIo := fun mem => (stays mem).1 rfl
      simp [gone, Handler.listed]
    · rw [other eq, ← inv.listed io']
      exact List.mem_erase_of_ne eq
  · intro io' pid finishing
    by_cases eq : io' = io
    · rw [eq, here] at finishing
      simp at finishing
    · rw [other eq] at finishing ⊢
      exact inv.answered io' pid finishing
  · rintro request (held | held | ⟨io', mem, held⟩)
    · exact inv.known request (.inl held)
    · exact inv.known request (.inr (.inl held))
    · obtain ⟨ne, old⟩ := stays mem
      rw [other ne] at held
      exact inv.known request (.inr (.inr ⟨io', old, held⟩))
  · intro stdin pid
    have fewer : (unreadPids (IoSections.removeClientFromList s io)).Sublist (unreadPids s) := by
      have left : ((IoSections.removeClientFromList s io).listIo.flatMap fun io' =>
          ((IoSections.removeClientFromList s io).device io').unread.map IoRequest.pid) =
          (s.listIo.erase io).flatMap fun io' => (s.device io').unread.map IoRequest.pid := by
        refine List.flatMap_congr fun io' mem => ?_
        rw [other (stays mem).1]
      rw [unreadPids, left]
      exact (List.Sublist.refl _).append (List.erase_sublist.flatMap _)
    exact (fewer.count_le pid).trans (inv.entered stdin pid)

/-- The requests that a change of one device without new ones leaves. -/
theorem Inv.known_update (inv : Inv ioType s) (mem : io ∈ s.listIo)
    (fewer : ∀ request ∈ d.requests, request ∈ (s.device io).requests) (request : IoRequest)
    (here : ∃ io' ∈ (s.setDevice io d).listIo, request ∈ ((s.setDevice io d).device io').requests) :
    request.pid ∈ s.listProcesses := by
  rcases holds_update (s := s) (d := d) here rfl rfl with new | old
  · exact inv.known request (.inr (.inr ⟨io, mem, fewer request new⟩))
  · exact inv.known request (.inr (.inr old))

/-- The answer to the only request of a device. -/
theorem Inv.receive {rest : List IoRequest} (inv : Inv ioType s)
    (waiting : (s.device io).handler = .waiting)
    (requests : (s.device io).requests = request :: rest) :
    Inv ioType (receive ioType s io request) := by
  have mem : io ∈ s.listIo := by
    rw [inv.listed io, waiting]
    rfl
  have only : (s.device io).requests = [request] := by
    have one := inv.exclusive io mem
    rw [requests, List.length_cons] at one
    rw [requests, List.length_eq_zero_iff.mp (Nat.le_zero.mp (Nat.le_of_succ_le_succ one))]
  have unread : (s.device io).unread = [request] := by
    rw [unread_of_unfinished (by simp [waiting]), only]
  have answered : ∀ pid, Handler.finishing request.pid = .finishing pid →
      ∃ other, (s.device io).requests = [other] ∧ other.pid = pid := by
    intro pid eq
    exact ⟨request, only, Handler.finishing.inj eq⟩
  have read : Device.unread { s.device io with handler := .finishing request.pid } = [] := by
    simp [Device.unread, only]
  have moved := count_unreadPids inv mem { s.device io with handler := .finishing request.pid }
  simp only [read, unread] at moved
  -- without entries there is nothing to find
  have plain : ioType ≠ .stdin →
      Inv ioType (IoSections.setHandler s io (.finishing request.pid)) := by
    intro other
    refine inv.change mem (d := { s.device io with handler := .finishing request.pid }) rfl rfl
      (inv.exclusive io mem) (inv.flag io mem) rfl answered inv.order ?_ ?_
    · rintro r (held | held | held)
      · exact inv.known r (.inl held)
      · exact inv.known r (.inr (.inl held))
      · exact inv.known_update mem (d := { s.device io with handler := .finishing request.pid })
          (fun _ here => here) r held
    · intro stdin
      exact absurd stdin other
  cases ioType with
  | sleep => exact plain (by simp)
  | stdout => exact plain (by simp)
  | stdin =>
      -- the request is unanswered, so it has an entry
      have counted := inv.entered rfl
      have some_entry : request.pid ∈ s.pendingIoStdinReading.map PendingStdin.pid := by
        rw [← List.count_pos_iff]
        refine Nat.lt_of_lt_of_le ?_ (counted request.pid)
        rw [List.count_pos_iff]
        refine List.mem_append_right _ (List.mem_flatMap.mpr ⟨io, mem, ?_⟩)
        rw [unread]
        exact List.mem_singleton_self _
      obtain ⟨entry, among, eq⟩ := List.mem_map.mp some_entry
      cases found : s.pendingIoStdinReading.find? fun pending => pending.pid == request.pid with
      | none =>
          have absent := List.find?_eq_none.mp found entry among
          simp [eq] at absent
      | some entry =>
          simp only [IoSections.receive, found]
          have erased : (s.pendingIoStdinReading.eraseP fun pending =>
              pending.pid == request.pid).map PendingStdin.pid =
              (s.pendingIoStdinReading.map PendingStdin.pid).erase request.pid := by
            rw [List.erase_eq_eraseP', List.eraseP_map]
            rfl
          refine inv.change mem (d := { s.device io with handler := .finishing request.pid })
            rfl rfl (inv.exclusive io mem) (inv.flag io mem) rfl answered inv.order ?_ ?_
          · rintro r (held | held | held)
            · exact inv.known r (.inl held)
            · exact inv.known r (.inr (.inl held))
            · exact inv.known_update mem
                (d := { s.device io with handler := .finishing request.pid })
                (fun _ here => here) r held
          · intro stdin pid
            have before := counted pid
            have now := moved pid
            simp only [IoSections.setHandler, State.setDevice, erased, List.count_erase]
            simp only [unreadPids, List.count_append, List.map_cons, List.map_nil,
              List.count_cons, List.count_nil] at before now ⊢
            split at now
            · simp_all
              omega
            · simp_all

/-- The device becomes available: its process is there, or its entry was. -/
theorem Inv.finish {pid : UInt32} (inv : Inv ioType s)
    (finishing : (s.device io).handler = .finishing pid) :
    Inv ioType (finish ioType s io pid) := by
  have mem : io ∈ s.listIo := by
    rw [inv.listed io, finishing]
    rfl
  obtain ⟨request, only, eq⟩ := inv.answered io pid finishing
  have there : pid ∈ s.listProcesses := by
    rw [← eq]
    refine inv.known request (.inr (.inr ⟨io, mem, ?_⟩))
    rw [only]
    exact List.mem_singleton_self _
  have unread : (s.device io).unread = [] := by
    simp [Device.unread, finishing, only]
  have device : IoSections.finish ioType s io pid = s.setDevice io ⟨true, [], .next⟩ := by
    simp [IoSections.finish, only, there]
  rw [device]
  refine inv.change mem (d := ⟨true, [], .next⟩) rfl rfl (by simp) (by simp) rfl ?_ inv.order
    ?_ ?_
  · intro pid next
    simp at next
  · rintro r (held | held | held)
    · exact inv.known r (.inl held)
    · exact inv.known r (.inr (.inl held))
    · exact inv.known_update mem (d := ⟨true, [], .next⟩) (by simp) r held
  · intro stdin pid
    have before := inv.entered stdin pid
    have moved := count_unreadPids inv mem ⟨true, [], .next⟩ pid
    simp only [Device.unread, List.map_nil, List.count_nil, Nat.add_zero] at moved
    simp only [unreadPids, State.setDevice, List.count_append] at before ⊢
    simp only [Device.unread] at before ⊢
    omega

/-- A process joins the list. -/
theorem Inv.create (inv : Inv ioType s) (pid : UInt32) :
    Inv ioType { s with listProcesses := s.listProcesses ++ [pid] } := by
  refine ⟨⟨inv.exclusive, inv.flag, inv.order⟩, inv.once, inv.listed, inv.answered, ?_,
    inv.entered⟩
  intro request held
  exact List.mem_append_left _ (inv.known request held)

/-- A `STDIN` is entered. -/
theorem Inv.register (inv : Inv ioType s) {pid : UInt32} (there : pid ∈ s.listProcesses)
    (physicalAddress toRead : UInt32) :
    Inv ioType { s with
      pendingIoStdinReading := s.pendingIoStdinReading ++ [⟨pid, physicalAddress, toRead⟩]
      registered := s.registered ++ [.numeric pid toRead] } := by
  refine ⟨⟨inv.exclusive, inv.flag, inv.order⟩, inv.once, inv.listed, inv.answered, ?_, ?_⟩
  · rintro request (held | held | held)
    · rcases List.mem_append.mp held with old | new
      · exact inv.known request (.inl old)
      · obtain rfl := List.mem_singleton.mp new
        exact there
    · exact inv.known request (.inr (.inl held))
    · exact inv.known request (.inr (.inr held))
  · intro stdin other
    have before := inv.entered stdin other
    simp only [unreadPids, List.map_append, List.map_cons, List.map_nil, List.count_append,
      IoRequest.pid] at before ⊢
    omega

/-- **One section keeps the invariant**, when nobody is disturbed. -/
theorem step_inv {a : Action} (inv : Inv ioType s) (undisturbed : a.Undisturbed s)
    (taken : step ioType s a = some s') : Inv ioType s' := by
  cases a with
  | create pid =>
      obtain rfl := Option.some.inj taken
      exact inv.create pid
  | register pid physicalAddress toRead =>
      rw [step] at taken
      by_cases guard : ioType = .stdin ∧ pid ∈ s.listProcesses
      · rw [if_pos guard] at taken
        obtain rfl := Option.some.inj taken
        exact inv.register guard.2 physicalAddress toRead
      · rw [if_neg guard] at taken
        simp at taken
  | request request =>
      rw [step] at taken
      by_cases stdin : ioType = .stdin
      · rw [if_pos stdin] at taken
        by_cases mem : request ∈ s.registered
        · rw [if_pos mem] at taken
          obtain rfl := Option.some.inj taken
          refine inv.requestIo (inv.known request (.inl mem)) List.erase_subset ?_ undisturbed
          intro _ pid
          have split := (List.perm_cons_erase mem).map IoRequest.pid
          have counts := split.count_eq pid
          rw [List.map_cons] at counts
          simp only [List.count_cons, List.count_nil] at counts ⊢
          omega
        · rw [if_neg mem] at taken
          simp at taken
      · rw [if_neg stdin] at taken
        by_cases there : request.pid ∈ s.listProcesses
        · rw [if_pos there] at taken
          obtain rfl := Option.some.inj taken
          exact inv.requestIo there (List.Subset.refl _) (fun eq => absurd eq stdin) undisturbed
        · rw [if_neg there] at taken
          simp at taken
  | connect io =>
      rw [step] at taken
      by_cases absent : (s.device io).handler = .absent
      · rw [if_pos absent] at taken
        obtain rfl := Option.some.inj taken
        exact inv.addClientToList absent
      · rw [if_neg absent] at taken
        simp at taken
  | receive io =>
      cases handler : (s.device io).handler with
      | waiting =>
          cases requests : (s.device io).requests with
          | nil => simp [step, handler, requests] at taken
          | cons request rest =>
              simp only [step, handler, requests] at taken
              obtain rfl := Option.some.inj taken
              exact inv.receive handler requests
      | absent => simp [step, handler] at taken
      | next => simp [step, handler] at taken
      | finishing pid => simp [step, handler] at taken
      | gone => simp [step, handler] at taken
  | finish io =>
      cases handler : (s.device io).handler with
      | finishing pid =>
          simp only [step, handler] at taken
          obtain rfl := Option.some.inj taken
          exact inv.finish handler
      | absent => simp [step, handler] at taken
      | next => simp [step, handler] at taken
      | waiting => simp [step, handler] at taken
      | gone => simp [step, handler] at taken
  | handleNext io =>
      cases handler : (s.device io).handler with
      | next =>
          simp only [step, handler] at taken
          obtain rfl := Option.some.inj taken
          have mem : io ∈ s.listIo := by
            rw [inv.listed io, handler]
            rfl
          have kept : ((takeNext s io).device io).handler = .next := by
            unfold takeNext
            split
            · exact handler
            · simp [assign, State.setDevice, Device.give, handler]
          have still : io ∈ (takeNext s io).listIo := by
            unfold takeNext
            split
            · exact mem
            · exact mem
          refine (inv.takeNext mem undisturbed).setHandler still rfl ?_ ?_
          · simp [kept]
          · simp
      | absent => simp [step, handler] at taken
      | waiting => simp [step, handler] at taken
      | finishing pid => simp [step, handler] at taken
      | gone => simp [step, handler] at taken
  | disconnect io =>
      cases handler : (s.device io).handler with
      | waiting =>
          simp only [step, handler] at taken
          obtain rfl := Option.some.inj taken
          exact inv.removeClientFromList
      | absent => simp [step, handler] at taken
      | next => simp [step, handler] at taken
      | finishing pid => simp [step, handler] at taken
      | gone => simp [step, handler] at taken

end Keeps

theorem initial_inv (ioType : IoType) : Inv ioType initial := by
  refine ⟨⟨by simp [initial], by simp [initial], rfl⟩, List.nodup_nil, ?_, ?_, ?_, ?_⟩
  · intro io
    simp [initial, Handler.listed]
  · intro io pid finishing
    simp [initial] at finishing
  · rintro request (held | held | ⟨io, mem, held⟩)
    · simp [initial] at held
    · simp [initial] at held
    · simp [initial] at mem
  · intro stdin pid
    simp [unreadPids, initial]

/-- **The devices are exclusive and served in order**, in every run in which no
syscall comes between a device becoming available and its next request. -/
theorem io_served_in_order {ioType : IoType} {actions : List Action} {s : State}
    (run : Run (step ioType) (fun s a => a.Undisturbed s) initial actions s) : Served s :=
  (run.invariant (fun inv undisturbed taken => step_inv inv undisturbed taken)
    (initial_inv ioType)).toServed

/-- Two processes sleep on one device: the second one waits for the first. -/
theorem io_served_in_order_of_two : ∃ s, Served s ∧
    s.handed = [.numeric 1 10, .numeric 2 20] ∧ (s.device 0).requests = [.numeric 2 20] := by
  obtain ⟨s, run, test⟩ := Run.exists_of_exec (step .sleep) (fun s a => a.Undisturbed s)
    [.create 1, .create 2, .connect 0, .handleNext 0, .request (.numeric 1 10),
      .request (.numeric 2 20), .receive 0, .finish 0, .handleNext 0]
    initial
    (fun s => s.handed == [.numeric 1 10, .numeric 2 20] &&
      (s.device 0).requests == [.numeric 2 20]) (by decide)
  simp only [Bool.and_eq_true, beq_iff_eq] at test
  exact ⟨s, io_served_in_order run, test.1, test.2⟩

/-- A third process comes when the device has been marked available and before it
takes the request that waits: the device gets both, the later one first. -/
theorem taken_twice : ∃ actions s,
    Run (step .sleep) (fun _ _ => True) initial actions s ∧ 0 ∈ s.listIo ∧
      (s.device 0).requests = [.numeric 3 30, .numeric 2 20] ∧
      s.issued = [.numeric 1 10, .numeric 2 20, .numeric 3 30] ∧
      s.handed = [.numeric 1 10, .numeric 3 30, .numeric 2 20] ∧ ¬ Served s := by
  obtain ⟨s, run, test⟩ := Run.exists_of_exec (step .sleep) (fun _ _ => True)
    [.create 1, .create 2, .create 3, .connect 0, .handleNext 0, .request (.numeric 1 10),
      .request (.numeric 2 20), .receive 0, .finish 0, .request (.numeric 3 30), .handleNext 0]
    initial
    (fun s => s.listIo == [0] && (s.device 0).requests == [.numeric 3 30, .numeric 2 20] &&
      s.issued == [.numeric 1 10, .numeric 2 20, .numeric 3 30] &&
      s.handed == [.numeric 1 10, .numeric 3 30, .numeric 2 20]) (by decide)
  simp only [Bool.and_eq_true, beq_iff_eq] at test
  obtain ⟨⟨⟨list, requests⟩, issued⟩, handed⟩ := test
  have mem : 0 ∈ s.listIo := by simp [list]
  refine ⟨_, s, run, mem, requests, issued, handed, fun served => ?_⟩
  have one := served.exclusive 0 mem
  rw [requests] at one
  simp at one

end OsModel.KernelScheduler.IoSections
