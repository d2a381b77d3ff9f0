import OsModel.Utils
import OsModel.Lib.Run

/-!
The address map of Kernel Memory and the one of each CPU.

A stick is appended to `list_memory_stick` and later to `list_memory_stick_credentials`; a
CPU gets the credentials known when it connects as a list and every later stick as an
update. Physical addresses follow the order of the sticks, so the two sides have to agree
on it.

* `InOrder`: the steps that keep the order of the sticks and do not let a handshake and an
  update overlap.
* `maps_agree`: when every step is `InOrder`, a CPU reads its handshake as it was meant and
  has the sticks of Kernel Memory, in their order, once everything is delivered.
* `maps_differ`: two sticks exchange their places between the two lists.
-/

namespace OsModel.AddressMap

open Lib

/-! ### Sticks, credentials and messages -/

/-- `t_memory_stick_info`. `fd` is the stick at the other end of the connection. -/
structure MemoryStickInfo (σ : Type) where
  fd : σ
  id : UInt32
  size : UInt32
  deriving DecidableEq, Repr

/-- `t_memory_stick_credentials`. `fd` is the stick that `ip` and `port` lead to. -/
structure Credentials (σ : Type) where
  fd : σ
  ip : String
  port : String
  id : UInt32
  size : UInt32
  deriving DecidableEq, Repr

/-- What `connect_with_memory_stick` appends to the list of the CPU. -/
def Credentials.stick {σ : Type} (cred : Credentials σ) : MemoryStickInfo σ :=
  ⟨cred.fd, cred.id, cred.size⟩

/-- What Kernel Memory sends to a CPU. -/
inductive Message (σ : Type) where
  /-- `send_credentials_list`: a `PACKAGE`. -/
  | credentialsList (list : List (Credentials σ))
  /-- `uint32_send` of `SEGMENT_MAX_SIZE`: a `PACKAGE`. -/
  | segmentMaxSize (value : UInt32)
  /-- `send_credentials`: a `CREDENTIALS_UPDATE`. -/
  | credentialsUpdate (cred : Credentials σ)
  deriving DecidableEq, Repr

def Message.sticks {σ : Type} : Message σ → List (MemoryStickInfo σ)
  | .credentialsList list => list.map Credentials.stick
  | .segmentMaxSize _ => []
  | .credentialsUpdate cred => [cred.stick]

/-- Where a CPU is in `connect_kernel_memory`. -/
inductive CpuPhase where
  | credentialsList
  | segmentMaxSize
  /-- `kernel_memory_handler`. -/
  | handling
  /-- `receive_credentials_list` has returned `NULL`, which `list_size` reads. -/
  | crashed
  /-- The payload of a message is left in the socket and is read as the next operations. -/
  | misaligned
  deriving DecidableEq, Repr

structure Cpu (σ : Type) where
  phase : CpuPhase
  listMemoryStick : List (MemoryStickInfo σ)
  segmentMaxSize : UInt32
  deriving DecidableEq, Repr

/-- A CPU that has sent its handshake. -/
def Cpu.connecting {σ : Type} : Cpu σ := ⟨.credentialsList, [], 0⟩

/-- What the CPU does with the next message. -/
def Cpu.receive {σ : Type} (cpu : Cpu σ) : Message σ → Cpu σ
  | .credentialsList list =>
      match cpu.phase with
      | .credentialsList =>
          { cpu with
            phase := .segmentMaxSize
            listMemoryStick := cpu.listMemoryStick ++ list.map Credentials.stick }
      | .crashed => cpu
      | .segmentMaxSize | .handling | .misaligned => { cpu with phase := .misaligned }
  | .segmentMaxSize value =>
      match cpu.phase with
      | .segmentMaxSize => { cpu with phase := .handling, segmentMaxSize := value }
      -- the entries of the list are read past the end of the buffer
      | .credentialsList | .crashed => { cpu with phase := .crashed }
      | .handling | .misaligned => { cpu with phase := .misaligned }
  | .credentialsUpdate cred =>
      match cpu.phase with
      | .handling => { cpu with listMemoryStick := cpu.listMemoryStick ++ [cred.stick] }
      | .credentialsList | .crashed => { cpu with phase := .crashed }
      -- `uint32_receive` wants a `PACKAGE`: it returns 0 and does not read the payload
      | .segmentMaxSize => { cpu with phase := .misaligned, segmentMaxSize := 0 }
      | .misaligned => cpu

/-! ### Kernel Memory -/

/-- Where `memory_stick_protocol` is for a stick. -/
inductive StickPhase (σ κ : Type) where
  | off
  /-- The stick has its id; Kernel Memory waits for its size. -/
  | idSent (id : UInt32)
  | sized (id size : UInt32)
  /-- In `list_memory_stick`; Kernel Memory waits for the ip and the port. -/
  | listed (stick : MemoryStickInfo σ)
  | addressed (cred : Credentials σ)
  /-- In `list_memory_stick_credentials`. -/
  | published (cred : Credentials σ)
  /-- `list_cpu` was not empty. -/
  | counted (cred : Credentials σ)
  /-- In the loop of `update_cpu_list`, with the rest of the copy. -/
  | updating (cred : Credentials σ) (cpus : List κ)
  /-- `memory_stick_handler`. -/
  | handling
  deriving DecidableEq, Repr

/-- Where `handle_module` is for a CPU. -/
inductive HandshakePhase where
  | off
  | accepted
  /-- In `list_cpu`. -/
  | listed
  | listSent
  /-- `cpu_handler`. -/
  | handling
  deriving DecidableEq, Repr

/-- Kernel Memory with the sticks and the CPUs that connect to it; `links` are the messages
on their way to a CPU. -/
structure State (σ κ : Type) where
  nextMemoryStickId : UInt32
  totalMemorySize : UInt32
  segmentMaxSize : UInt32
  listMemoryStick : List (MemoryStickInfo σ)
  listMemoryStickCredentials : List (Credentials σ)
  listCpu : List κ
  sticks : σ → StickPhase σ κ
  handshakes : κ → HandshakePhase
  links : κ → List (Message σ)
  cpus : κ → Cpu σ

/-- What can happen next. -/
inductive Action (σ κ : Type) where
  /-- A stick connects, is given its id and is sent it. -/
  | connectStick (t : σ)
  | stickSize (t : σ) (size : UInt32)
  | listStick (t : σ)
  | stickAddress (t : σ) (ip port : String)
  | publish (t : σ)
  /-- The size of `list_cpu` is read. -/
  | countCpus (t : σ)
  | copyCpus (t : σ)
  /-- The head of the loop of `update_cpu_list`. -/
  | sendUpdate (t : σ)
  | connectCpu (c : κ)
  | listCpu (c : κ)
  | sendList (c : κ)
  | sendSegmentMaxSize (c : κ)
  /-- A CPU reads its next message. -/
  | receive (c : κ)
  deriving DecidableEq, Repr

variable {σ κ : Type}

/-- Kernel Memory before the first connection. -/
def initial (segmentMaxSize : UInt32) : State σ κ :=
  ⟨0, 0, segmentMaxSize, [], [], [], fun _ => .off, fun _ => .off, fun _ => [],
    fun _ => .connecting⟩

section Steps

variable [DecidableEq σ] [DecidableEq κ]

/-- The handler of a stick goes on. -/
def State.setStick (s : State σ κ) (t : σ) (phase : StickPhase σ κ) : State σ κ :=
  { s with sticks := Function.update s.sticks t phase }

/-- The handler of a CPU goes on. -/
def State.setHandshake (s : State σ κ) (c : κ) (phase : HandshakePhase) : State σ κ :=
  { s with handshakes := Function.update s.handshakes c phase }

/-- `package_send` to a CPU. -/
def State.send (s : State σ κ) (c : κ) (message : Message σ) : State σ κ :=
  { s with links := Function.update s.links c (s.links c ++ [message]) }

/-- One step of `memory_stick_protocol`, of `handle_module` or of a CPU. -/
def step (s : State σ κ) : Action σ κ → Option (State σ κ)
  | .connectStick t =>
      match s.sticks t with
      | .off => some { s.setStick t (.idSent s.nextMemoryStickId) with
          nextMemoryStickId := s.nextMemoryStickId + 1 }
      | _ => none
  | .stickSize t size =>
      match s.sticks t with
      | .idSent id => some { s.setStick t (.sized id size) with
          totalMemorySize := s.totalMemorySize + size }
      | _ => none
  | .listStick t =>
      match s.sticks t with
      | .sized id size => some { s.setStick t (.listed ⟨t, id, size⟩) with
          listMemoryStick := s.listMemoryStick ++ [⟨t, id, size⟩] }
      | _ => none
  | .stickAddress t ip port =>
      match s.sticks t with
      | .listed stick => some (s.setStick t (.addressed ⟨t, ip, port, stick.id, stick.size⟩))
      | _ => none
  | .publish t =>
      match s.sticks t with
      | .addressed cred => some { s.setStick t (.published cred) with
          listMemoryStickCredentials := s.listMemoryStickCredentials ++ [cred] }
      | _ => none
  | .countCpus t =>
      match s.sticks t with
      | .published cred =>
          some (s.setStick t (if s.listCpu.length = 0 then .handling else .counted cred))
      | _ => none
  | .copyCpus t =>
      match s.sticks t with
      | .counted cred => some (s.setStick t (.updating cred s.listCpu))
      | _ => none
  | .sendUpdate t =>
      match s.sticks t with
      | .updating cred (c :: cpus) =>
          some ((s.setStick t (.updating cred cpus)).send c (.credentialsUpdate cred))
      | .updating _ [] => some (s.setStick t .handling)
      | _ => none
  | .connectCpu c =>
      match s.handshakes c with
      | .off => some (s.setHandshake c .accepted)
      | _ => none
  | .listCpu c =>
      match s.handshakes c with
      | .accepted => some { s.setHandshake c .listed with listCpu := s.listCpu ++ [c] }
      | _ => none
  | .sendList c =>
      match s.handshakes c with
      | .listed => some ((s.setHandshake c .listSent).send c
          (.credentialsList s.listMemoryStickCredentials))
      | _ => none
  | .sendSegmentMaxSize c =>
      match s.handshakes c with
      | .listSent =>
          some ((s.setHandshake c .handling).send c (.segmentMaxSize s.segmentMaxSize))
      | _ => none
  | .receive c =>
      match s.links c with
      | message :: rest => some { s with
          links := Function.update s.links c rest
          cpus := Function.update s.cpus c ((s.cpus c).receive message) }
      | [] => none

end Steps

/-- The sequence of ids and sizes that physical addresses are read with. -/
def addressMap (list : List (MemoryStickInfo σ)) : List (UInt32 × UInt32) :=
  list.map fun ms => (ms.id, ms.size)

/-- No handler is in the middle of a connection and no message is on its way. -/
def Delivered (s : State σ κ) : Prop :=
  (∀ t, s.sticks t = .off ∨ s.sticks t = .handling) ∧
    (∀ c, s.handshakes c = .off ∨ s.handshakes c = .handling) ∧ ∀ c, s.links c = []

/-! ### The condition -/

/-- The stick is known to the CPUs that connect, and its handler has not copied `list_cpu`. -/
@[simp] def StickPhase.Announcing : StickPhase σ κ → Prop
  | .published _ | .counted _ => True
  | .off | .idSent _ | .sized .. | .listed _ | .addressed _ | .updating .. | .handling => False

/-- The handler of a stick in `list_memory_stick` still has to tell a CPU in `list_cpu` of it. -/
@[simp] def StickPhase.Owes (c : κ) : StickPhase σ κ → Prop
  | .listed _ | .addressed _ | .published _ | .counted _ => True
  | .updating _ cpus => c ∈ cpus
  | .off | .idSent _ | .sized .. | .handling => False

/-- An update goes to a CPU that has been sent `SEGMENT_MAX_SIZE` and every stick before. -/
def State.MaySend [DecidableEq σ] (s : State σ κ) : StickPhase σ κ → Prop
  | .updating cred (c :: _) => s.handshakes c = .handling ∧
      ∀ ms ∈ s.listMemoryStick.takeWhile (· ≠ cred.stick), ¬ (s.sticks ms.fd).Owes c
  | .updating _ [] | .off | .idSent _ | .sized .. | .listed _ | .addressed _ | .published _
  | .counted _ | .handling => True

/-- The steps that keep the order of the sticks and do not let a handshake and an update
overlap. -/
def InOrder [DecidableEq σ] (s : State σ κ) : Action σ κ → Prop
  -- no CPU is between `list_cpu` and its list of credentials
  | .publish _ => ∀ c, s.handshakes c ≠ .listed
  -- no stick is between the list of credentials and its copy of `list_cpu`
  | .listCpu _ => ∀ t, ¬ (s.sticks t).Announcing
  -- the sticks reached the list of credentials in the order of `list_memory_stick`
  | .sendList _ =>
      s.listMemoryStickCredentials.map Credentials.stick <+: s.listMemoryStick
  | .sendUpdate t => s.MaySend (s.sticks t)
  | .connectStick _ | .stickSize .. | .listStick _ | .stickAddress .. | .countCpus _
  | .copyCpus _ | .connectCpu _ | .sendSegmentMaxSize _ | .receive _ => True

/-! ### The invariant -/

/-- The stick is not in `list_memory_stick`. -/
@[simp] def StickPhase.Early : StickPhase σ κ → Prop
  | .off | .idSent _ | .sized .. => True
  | .listed _ | .addressed _ | .published _ | .counted _ | .updating .. | .handling => False

/-- The stick is in `list_memory_stick` only. -/
@[simp] def StickPhase.Unpublished : StickPhase σ κ → Prop
  | .listed _ | .addressed _ => True
  | .off | .idSent _ | .sized .. | .published _ | .counted _ | .updating .. | .handling => False

/-- The stick a handler has put in `list_memory_stick`. -/
@[simp] def StickPhase.stick? : StickPhase σ κ → Option (MemoryStickInfo σ)
  | .listed stick => some stick
  | .addressed cred | .published cred | .counted cred | .updating cred _ => some cred.stick
  | .off | .idSent _ | .sized .. | .handling => none

/-- The CPUs that the loop of `update_cpu_list` has not come to. -/
@[simp] def StickPhase.remaining : StickPhase σ κ → List κ
  | .updating _ cpus => cpus
  | .off | .idSent _ | .sized .. | .listed _ | .addressed _ | .published _ | .counted _
  | .handling => []

/-- The sticks a CPU has, and those it has been sent. -/
def State.view (s : State σ κ) (c : κ) : List (MemoryStickInfo σ) :=
  (s.cpus c).listMemoryStick ++ (s.links c).flatMap Message.sticks

/-- The two lists of Kernel Memory and the handlers of the sticks. -/
structure Lists (s : State σ κ) : Prop where
  nodup : (s.listMemoryStick.map MemoryStickInfo.fd).Nodup
  early : ∀ t, (s.sticks t).Early → t ∉ s.listMemoryStick.map MemoryStickInfo.fd
  listed : ∀ t ms, (s.sticks t).stick? = some ms → ms ∈ s.listMemoryStick ∧ ms.fd = t
  credentials : ∀ cred ∈ s.listMemoryStickCredentials, cred.stick ∈ s.listMemoryStick
  published : ∀ ms ∈ s.listMemoryStick,
    ms ∈ s.listMemoryStickCredentials.map Credentials.stick ∨ (s.sticks ms.fd).Unpublished
  unpublished : ∀ t, (s.sticks t).Unpublished →
    ∀ cred ∈ s.listMemoryStickCredentials, cred.fd ≠ t

/-- What a CPU knows after it has been sent its list: the first sticks of Kernel Memory, each
of the others still being owed to it. -/
structure Served (s : State σ κ) (c : κ) : Prop where
  first : s.view c <+: s.listMemoryStick
  owed : ∀ ms ∈ s.listMemoryStick, ms ∈ s.view c ∨ (s.sticks ms.fd).Owes c
  once : ∀ ms ∈ s.view c, ¬ (s.sticks ms.fd).Owes c

/-- A CPU in the middle of its handshake, with the messages on their way to it. -/
inductive Reading (segmentMaxSize : UInt32) :
    HandshakePhase → CpuPhase → UInt32 → List (Message σ) → Prop where
  | list (value : UInt32) (list : List (Credentials σ)) :
      Reading segmentMaxSize .listSent .credentialsList value [.credentialsList list]
  | listRead (value : UInt32) : Reading segmentMaxSize .listSent .segmentMaxSize value []
  | both (value : UInt32) (list updates : List (Credentials σ)) :
      Reading segmentMaxSize .handling .credentialsList value
        (.credentialsList list :: .segmentMaxSize segmentMaxSize ::
          updates.map .credentialsUpdate)
  | size (value : UInt32) (updates : List (Credentials σ)) :
      Reading segmentMaxSize .handling .segmentMaxSize value
        (.segmentMaxSize segmentMaxSize :: updates.map .credentialsUpdate)
  | done (updates : List (Credentials σ)) :
      Reading segmentMaxSize .handling .handling segmentMaxSize
        (updates.map .credentialsUpdate)

/-- What is known of a CPU, by how far Kernel Memory is with its handshake. -/
def State.Consistent (s : State σ κ) (c : κ) : HandshakePhase → Prop
  | .off | .accepted => c ∉ s.listCpu ∧ s.links c = [] ∧ s.cpus c = .connecting
  | .listed => c ∈ s.listCpu ∧ (s.links c = [] ∧ s.cpus c = .connecting) ∧
      ∀ t, ¬ (s.sticks t).Announcing ∧ c ∉ (s.sticks t).remaining
  | .listSent => c ∈ s.listCpu ∧ Served s c ∧
      Reading s.segmentMaxSize .listSent (s.cpus c).phase (s.cpus c).segmentMaxSize (s.links c)
  | .handling => c ∈ s.listCpu ∧ Served s c ∧
      Reading s.segmentMaxSize .handling (s.cpus c).phase (s.cpus c).segmentMaxSize (s.links c)

/-- The invariant of the runs whose steps are in order. -/
structure Inv (segmentMaxSize : UInt32) (s : State σ κ) : Prop where
  size : s.segmentMaxSize = segmentMaxSize
  lists : Lists s
  cpus_nodup : s.listCpu.Nodup
  remaining : ∀ t, (s.sticks t).remaining.Nodup ∧ (s.sticks t).remaining ⊆ s.listCpu
  consistent : ∀ c, s.Consistent c (s.handshakes c)

variable {s : State σ κ} {segmentMaxSize : UInt32} {t : σ} {c : κ}

/-- `SEGMENT_MAX_SIZE` is read after the list. -/
theorem Reading.max {phase : CpuPhase} {value : UInt32} {link : List (Message σ)}
    (reading : Reading segmentMaxSize .listSent phase value link) :
    Reading segmentMaxSize .handling phase value (link ++ [.segmentMaxSize segmentMaxSize]) := by
  cases reading with
  | list _ list => exact .both value list []
  | listRead => exact .size value []

/-- An update is read after what is on its way. -/
theorem Reading.update {phase : CpuPhase} {value : UInt32} {link : List (Message σ)}
    (reading : Reading segmentMaxSize .handling phase value link) (cred : Credentials σ) :
    Reading segmentMaxSize .handling phase value (link ++ [.credentialsUpdate cred]) := by
  cases reading with
  | both _ list updates => simpa using Reading.both value list (updates ++ [cred])
  | size _ updates => simpa using Reading.size value (updates ++ [cred])
  | done updates => simpa using Reading.done (updates ++ [cred])

/-- The invariant of the empty Kernel Memory. -/
theorem initial_inv : Inv segmentMaxSize (initial segmentMaxSize : State σ κ) where
  size := rfl
  lists := by
    constructor <;> simp [initial]
  cpus_nodup := List.nodup_nil
  remaining t := by simp [initial]
  consistent c := by simp [initial, State.Consistent]

/-- Sticks in `list_memory_stick` are told apart by their connection. -/
theorem Lists.eq_of_fd (lists : Lists s) {ms ms' : MemoryStickInfo σ}
    (mem : ms ∈ s.listMemoryStick) (mem' : ms' ∈ s.listMemoryStick) (same : ms.fd = ms'.fd) :
    ms = ms' :=
  List.inj_on_of_nodup_map lists.nodup mem mem' same

/-- `list_memory_stick` has no stick twice. -/
theorem Lists.sticks_nodup (lists : Lists s) : s.listMemoryStick.Nodup :=
  lists.nodup.of_map _

/-- A list that has all of the other one and starts like it is the other one. -/
theorem eq_of_first {α : Type} {view all : List α} (first : view <+: all) (nodup : all.Nodup)
    (complete : ∀ a ∈ all, a ∈ view) : view = all := by
  obtain ⟨rest, rfl⟩ := first
  cases rest with
  | nil => simp
  | cons a rest =>
      have seen : a ∈ view := complete a (by simp)
      exact absurd rfl ((List.nodup_append.mp nodup).2.2 a seen a (by simp))

/-- The next element after those known is the first one that is not known. -/
theorem first_snoc {α : Type} [DecidableEq α] {view all : List α} {a : α} (first : view <+: all)
    (nodup : all.Nodup) (mem : a ∈ all) (new : a ∉ view)
    (before : ∀ b ∈ all.takeWhile (· ≠ a), b ∈ view) : view ++ [a] <+: all := by
  obtain ⟨rest, rfl⟩ := first
  have mem_rest : a ∈ rest := (List.mem_append.mp mem).resolve_left new
  cases rest with
  | nil => simp at mem_rest
  | cons b rest =>
      by_cases same : b = a
      · subst same
        exact ⟨rest, by simp⟩
      · have others : ∀ d ∈ view, decide (d ≠ a) = true := by
          intro d known
          have : d ≠ a := by
            rintro rfl
            exact new known
          simpa using this
        have known : b ∈ view := by
          apply before
          rw [List.takeWhile_append_of_pos others, List.takeWhile_cons_of_pos (by simpa using same)]
          simp
        exact absurd rfl ((List.nodup_append.mp nodup).2.2 b known b (by simp))

section Frames

variable {s' : State σ κ}

/-- What a CPU knows stays known while the handlers owe it the same sticks. -/
theorem Served.of_same (served : Served s c)
    (list : s'.listMemoryStick = s.listMemoryStick) (view : s'.view c = s.view c)
    (same : ∀ t, (s'.sticks t).Owes c ↔ (s.sticks t).Owes c) : Served s' c := by
  constructor
  · rw [list, view]
    exact served.first
  · intro ms listed
    rw [view, same]
    exact served.owed ms (list ▸ listed)
  · intro ms known
    rw [same]
    exact served.once ms (view ▸ known)

/-- What is known of a CPU stays known while nothing is sent to it or read by it and the
handlers owe it the same sticks. -/
theorem State.Consistent.of_same {told : HandshakePhase} (consistent : s.Consistent c told)
    (size : s'.segmentMaxSize = s.segmentMaxSize)
    (list : s'.listMemoryStick = s.listMemoryStick) (cpus : c ∈ s'.listCpu ↔ c ∈ s.listCpu)
    (link : s'.links c = s.links c) (cpu : s'.cpus c = s.cpus c)
    (listed : told = .listed →
      (∀ t, ¬ (s.sticks t).Announcing ∧ c ∉ (s.sticks t).remaining) →
        ∀ t, ¬ (s'.sticks t).Announcing ∧ c ∉ (s'.sticks t).remaining)
    (owes : told ≠ .listed → c ∈ s.listCpu →
      ∀ t, (s'.sticks t).Owes c ↔ (s.sticks t).Owes c) : s'.Consistent c told := by
  have view : s'.view c = s.view c := by rw [State.view, State.view, link, cpu]
  cases told with
  | off | accepted =>
      obtain ⟨new, quiet⟩ := consistent
      exact ⟨fun mem => new (cpus.mp mem), link ▸ quiet.1, cpu ▸ quiet.2⟩
  | listed =>
      obtain ⟨mem, quiet, waiting⟩ := consistent
      exact ⟨cpus.mpr mem, ⟨link ▸ quiet.1, cpu ▸ quiet.2⟩, listed rfl waiting⟩
  | listSent | handling =>
      obtain ⟨mem, served, reading⟩ := consistent
      refine ⟨cpus.mpr mem, served.of_same list view (owes (by simp) mem), ?_⟩
      rw [size, link, cpu]
      exact reading

end Frames

/-! ### The handlers of the sticks -/

section Handlers

variable [DecidableEq σ]

/-- The handler of a stick goes on without appending to a list or sending to a CPU. -/
structure Follows (s : State σ κ) (t : σ) (phase : StickPhase σ κ) : Prop where
  early : phase.Early → (s.sticks t).Early
  stick : ∀ ms, phase.stick? = some ms → (s.sticks t).stick? = some ms
  unpublished : phase.Unpublished ↔ (s.sticks t).Unpublished
  remaining : phase.remaining.Nodup ∧ phase.remaining ⊆ s.listCpu
  listed : ∀ c, s.handshakes c = .listed → ¬ phase.Announcing ∧ c ∉ phase.remaining
  owes : ∀ c ∈ s.listCpu, s.handshakes c ≠ .listed →
    (phase.Owes c ↔ (s.sticks t).Owes c)

/-- A property of all handlers, after one of them has gone on. -/
theorem forall_setStick {P : σ → StickPhase σ κ → Prop} {p : StickPhase σ κ}
    (others : ∀ t', P t' (s.sticks t')) (here : P t p) (t' : σ) :
    P t' ((s.setStick t p).sticks t') := by
  rcases eq_or_ne t' t with rfl | other
  · simpa [State.setStick] using here
  · simpa [State.setStick, other] using others t'

variable {p : StickPhase σ κ}

theorem Lists.setStick (lists : Lists s) (early : p.Early → (s.sticks t).Early)
    (stick : ∀ ms, p.stick? = some ms → (s.sticks t).stick? = some ms)
    (unpublished : p.Unpublished ↔ (s.sticks t).Unpublished) :
    Lists (s.setStick t p) where
  nodup := lists.nodup
  early := forall_setStick (P := fun t' phase => phase.Early →
      t' ∉ s.listMemoryStick.map MemoryStickInfo.fd) lists.early
    fun here => lists.early t (early here)
  listed := forall_setStick (P := fun t' phase => ∀ ms, phase.stick? = some ms →
      ms ∈ s.listMemoryStick ∧ ms.fd = t') lists.listed
    fun ms here => lists.listed t ms (stick ms here)
  credentials := lists.credentials
  published ms mem := by
    rcases lists.published ms mem with known | waiting
    · exact .inl known
    · right
      rcases eq_or_ne ms.fd t with here | other
      · rw [here] at waiting ⊢
        simpa [State.setStick] using unpublished.mpr waiting
      · simpa [State.setStick, other] using waiting
  unpublished := forall_setStick (P := fun t' phase => phase.Unpublished →
      ∀ cred ∈ s.listMemoryStickCredentials, cred.fd ≠ t') lists.unpublished
    fun here => lists.unpublished t (unpublished.mp here)

/-- The handlers owe a CPU the same sticks when the one that goes on does. -/
theorem owes_setStick (here : p.Owes c ↔ (s.sticks t).Owes c) (t' : σ) :
    ((s.setStick t p).sticks t').Owes c ↔ (s.sticks t').Owes c := by
  rcases eq_or_ne t' t with rfl | other
  · simpa [State.setStick] using here
  · simp [State.setStick, other]

/-- What is known of the CPUs is kept when a handler goes on. -/
theorem Inv.setStick (inv : Inv segmentMaxSize s) (follows : Follows s t p)
    (nextMemoryStickId totalMemorySize : UInt32) :
    Inv segmentMaxSize { s.setStick t p with
      nextMemoryStickId := nextMemoryStickId, totalMemorySize := totalMemorySize } where
  size := inv.size
  lists := { inv.lists.setStick follows.early follows.stick follows.unpublished with }
  cpus_nodup := inv.cpus_nodup
  remaining t' := forall_setStick (P := fun _ p =>
    p.remaining.Nodup ∧ p.remaining ⊆ s.listCpu) inv.remaining follows.remaining t'
  consistent c := by
    refine (inv.consistent c).of_same rfl rfl Iff.rfl rfl rfl ?_ ?_
    · intro told waiting t'
      exact forall_setStick (P := fun _ p => ¬ p.Announcing ∧ c ∉ p.remaining)
        waiting (follows.listed c told) t'
    · intro told mem
      exact owes_setStick (follows.owes c mem told)

/-- A stick is appended to `list_memory_stick`. -/
theorem Inv.listStick (inv : Inv segmentMaxSize s) {id size : UInt32}
    (phase : s.sticks t = .sized id size) :
    Inv segmentMaxSize { s.setStick t (.listed ⟨t, id, size⟩) with
      listMemoryStick := s.listMemoryStick ++ [⟨t, id, size⟩] } := by
  have new : t ∉ s.listMemoryStick.map MemoryStickInfo.fd :=
    inv.lists.early t (by simp [phase])
  have other {ms : MemoryStickInfo σ} (mem : ms ∈ s.listMemoryStick) : ms.fd ≠ t := by
    rintro rfl
    exact new (List.mem_map_of_mem mem)
  constructor
  · exact inv.size
  · constructor
    · rw [List.map_append, List.map_cons, List.map_nil, ← List.concat_eq_append]
      exact inv.lists.nodup.concat new
    · intro t' early
      rcases eq_or_ne t' t with rfl | ne
      · simp [State.setStick] at early
      · have old := inv.lists.early t' (by simpa [State.setStick, ne] using early)
        simpa [ne] using old
    · intro t' ms stick
      rcases eq_or_ne t' t with rfl | ne
      · obtain rfl : ⟨t', id, size⟩ = ms := by
          simpa [State.setStick] using stick
        simp
      · obtain ⟨mem, fd⟩ := inv.lists.listed t' ms (by simpa [State.setStick, ne] using stick)
        exact ⟨List.mem_append_left _ mem, fd⟩
    · intro cred mem
      exact List.mem_append_left _ (inv.lists.credentials cred mem)
    · intro ms mem
      rcases List.mem_append.mp mem with old | last
      · have known := inv.lists.published ms old
        simpa [State.setStick, other old] using known
      · obtain rfl := List.mem_singleton.mp last
        simp [State.setStick]
    · intro t' unpublished cred mem
      rcases eq_or_ne t' t with rfl | ne
      · exact other (inv.lists.credentials cred mem)
      · exact inv.lists.unpublished t' (by simpa [State.setStick, ne] using unpublished) cred mem
  · exact inv.cpus_nodup
  · intro t'
    exact forall_setStick (P := fun _ phase =>
      phase.remaining.Nodup ∧ phase.remaining ⊆ s.listCpu) inv.remaining
      (by simp) t'
  · intro c
    have consistent := inv.consistent c
    change State.Consistent _ c (s.handshakes c)
    cases told : s.handshakes c with
    | off | accepted =>
        rw [told] at consistent
        exact consistent
    | listed =>
        rw [told] at consistent
        obtain ⟨mem, quiet, waiting⟩ := consistent
        refine ⟨mem, quiet, fun t' => ?_⟩
        exact forall_setStick (P := fun _ phase => ¬ phase.Announcing ∧ c ∉ phase.remaining)
          waiting (by simp) t'
    | listSent | handling =>
        rw [told] at consistent
        obtain ⟨mem, served, reading⟩ := consistent
        refine ⟨mem, ?_, reading⟩
        constructor
        · exact served.first.trans (List.prefix_append _ _)
        · intro ms mem
          rcases List.mem_append.mp mem with old | last
          · have owed := served.owed ms old
            simpa [State.setStick, State.view, other old] using owed
          · obtain rfl := List.mem_singleton.mp last
            simp [State.setStick]
        · intro ms known
          have old := served.first.subset known
          have once := served.once ms known
          simpa [State.setStick, other old] using once

/-- The credentials of a stick are appended to their list, while no CPU is about to be sent
the list. -/
theorem Inv.publish (inv : Inv segmentMaxSize s) {cred : Credentials σ}
    (phase : s.sticks t = .addressed cred) (ok : ∀ c, s.handshakes c ≠ .listed) :
    Inv segmentMaxSize { s.setStick t (.published cred) with
      listMemoryStickCredentials := s.listMemoryStickCredentials ++ [cred] } := by
  obtain ⟨listed, fd⟩ := inv.lists.listed t cred.stick (by simp [phase])
  constructor
  · exact inv.size
  · constructor
    · exact inv.lists.nodup
    · exact forall_setStick (P := fun t' phase => phase.Early →
        t' ∉ s.listMemoryStick.map MemoryStickInfo.fd) inv.lists.early
        (by simp)
    · refine forall_setStick (P := fun t' phase => ∀ ms, phase.stick? = some ms →
        ms ∈ s.listMemoryStick ∧ ms.fd = t') inv.lists.listed ?_
      intro ms stick
      obtain rfl : cred.stick = ms := by simpa using stick
      exact ⟨listed, fd⟩
    · intro cred' mem
      rcases List.mem_append.mp mem with old | last
      · exact inv.lists.credentials cred' old
      · obtain rfl := List.mem_singleton.mp last
        exact listed
    · intro ms mem
      rcases eq_or_ne ms.fd t with here | ne
      · left
        obtain rfl := inv.lists.eq_of_fd mem listed (here.trans fd.symm)
        simp
      · rcases inv.lists.published ms mem with known | unpublished
        · exact .inl (by simpa using .inl (by simpa using known))
        · exact .inr (by simpa [State.setStick, ne] using unpublished)
    · intro t' unpublished cred' mem
      rcases eq_or_ne t' t with rfl | ne
      · simp [State.setStick] at unpublished
      · rcases List.mem_append.mp mem with old | last
        · exact inv.lists.unpublished t' (by simpa [State.setStick, ne] using unpublished)
            cred' old
        · obtain rfl := List.mem_singleton.mp last
          rintro rfl
          exact ne fd
  · exact inv.cpus_nodup
  · intro t'
    exact forall_setStick (P := fun _ phase =>
      phase.remaining.Nodup ∧ phase.remaining ⊆ s.listCpu) inv.remaining
      (by simp) t'
  · intro c
    refine (inv.consistent c).of_same rfl rfl Iff.rfl rfl rfl ?_ ?_
    · intro told
      exact absurd told (ok c)
    · intro _ _
      exact owes_setStick (p := .published cred) (by simp [phase])

/-- An update is sent to a CPU that has been sent `SEGMENT_MAX_SIZE` and every stick before
this one. -/
theorem Inv.sendUpdate [DecidableEq κ] (inv : Inv segmentMaxSize s) {cred : Credentials σ}
    {cpus : List κ} (phase : s.sticks t = .updating cred (c :: cpus))
    (told : s.handshakes c = .handling)
    (before : ∀ ms ∈ s.listMemoryStick.takeWhile (· ≠ cred.stick),
      ¬ (s.sticks ms.fd).Owes c) :
    Inv segmentMaxSize
      ((s.setStick t (.updating cred cpus)).send c (.credentialsUpdate cred)) := by
  obtain ⟨listed, fd⟩ := inv.lists.listed t cred.stick (by simp [phase])
  obtain ⟨nodup, within⟩ := inv.remaining t
  simp only [phase, StickPhase.remaining, List.nodup_cons, List.cons_subset] at nodup within
  obtain ⟨last, nodup⟩ := nodup
  constructor
  · exact inv.size
  · have lists := inv.lists.setStick (s := s) (t := t) (p := .updating cred cpus)
      (by simp) (by simp [phase])
      (by simp [phase])
    exact { lists with }
  · exact inv.cpus_nodup
  · intro t'
    exact forall_setStick (P := fun _ phase =>
      phase.remaining.Nodup ∧ phase.remaining ⊆ s.listCpu) (p := .updating cred cpus)
      inv.remaining ⟨nodup, within.2⟩ t'
  · intro c'
    have consistent := inv.consistent c'
    change State.Consistent _ c' (s.handshakes c')
    rcases eq_or_ne c' c with rfl | other
    · rw [told] at consistent ⊢
      obtain ⟨mem, served, reading⟩ := consistent
      have new : cred.stick ∉ s.view c' := by
        intro known
        exact served.once cred.stick known (by simp [show cred.stick.fd = t from fd, phase])
      have known (ms : MemoryStickInfo σ) (mem : ms ∈ s.view c') : ms.fd ≠ t := by
        intro here
        have listed' := served.first.subset mem
        obtain rfl := inv.lists.eq_of_fd listed' listed (here.trans fd.symm)
        exact new mem
      have view : (((s.setStick t (.updating cred cpus)).send c'
          (.credentialsUpdate cred)).view c') = s.view c' ++ [cred.stick] := by
        simp [State.view, State.send, State.setStick, Message.sticks]
      refine ⟨mem, ?_, ?_⟩
      · constructor
        · rw [view]
          apply first_snoc served.first inv.lists.sticks_nodup listed new
          intro ms early
          have listed' := List.takeWhile_subset _ early
          exact (served.owed ms listed').resolve_right (before ms early)
        · intro ms listed'
          rw [view]
          rcases served.owed ms listed' with old | owes
          · exact .inl (List.mem_append_left _ old)
          · rcases eq_or_ne ms.fd t with here | ne
            · obtain rfl := inv.lists.eq_of_fd listed' listed (here.trans fd.symm)
              exact .inl (by simp)
            · exact .inr (by simpa [State.send, State.setStick, ne] using owes)
        · intro ms mem
          rw [view] at mem
          rcases List.mem_append.mp mem with old | now
          · have once := served.once ms old
            simpa [State.send, State.setStick, known ms old] using once
          · obtain rfl := List.mem_singleton.mp now
            simpa [State.send, State.setStick, show cred.stick.fd = t from fd] using last
      · have link : ((s.setStick t (.updating cred cpus)).send c'
            (.credentialsUpdate cred)).links c' = s.links c' ++ [.credentialsUpdate cred] := by
          simp [State.send, State.setStick]
        rw [link]
        exact reading.update cred
    · have owes : c' ∈ c :: cpus ↔ c' ∈ cpus := by simp [other]
      refine consistent.of_same rfl rfl Iff.rfl (by simp [State.send, State.setStick, other]) rfl
        ?_ ?_
      · intro _ waiting t'
        have here := waiting t
        simp only [phase, StickPhase.Announcing, StickPhase.remaining, owes] at here
        exact forall_setStick (P := fun _ phase => ¬ phase.Announcing ∧ c' ∉ phase.remaining)
          (p := .updating cred cpus) waiting here t'
      · intro _ _
        exact owes_setStick (p := .updating cred cpus)
          (by simp [phase, other])

end Handlers

/-! ### The handshakes and the CPUs -/

section Handshakes

/-- Only one CPU, its handler and its messages have changed. -/
theorem Inv.of_cpu {s' : State σ κ} (inv : Inv segmentMaxSize s) (c : κ)
    (size : s'.segmentMaxSize = s.segmentMaxSize)
    (list : s'.listMemoryStick = s.listMemoryStick)
    (credentials : s'.listMemoryStickCredentials = s.listMemoryStickCredentials)
    (sticks : s'.sticks = s.sticks) (nodup : s'.listCpu.Nodup) (cpus : s.listCpu ⊆ s'.listCpu)
    (here : s'.Consistent c (s'.handshakes c))
    (others : ∀ c', c' ≠ c → s'.handshakes c' = s.handshakes c' ∧
      (c' ∈ s'.listCpu ↔ c' ∈ s.listCpu) ∧ s'.links c' = s.links c' ∧
        s'.cpus c' = s.cpus c') : Inv segmentMaxSize s' := by
  constructor
  · exact size.trans inv.size
  · obtain ⟨unique, early, listed, known, published, unpublished⟩ := inv.lists
    constructor <;> simp only [list, credentials, sticks] <;> assumption
  · exact nodup
  · intro t
    rw [sticks]
    exact ⟨(inv.remaining t).1, fun c' mem => cpus ((inv.remaining t).2 mem)⟩
  · intro c'
    rcases eq_or_ne c' c with rfl | other
    · exact here
    · obtain ⟨told, mem, link, cpu⟩ := others c' other
      rw [told]
      refine (inv.consistent c').of_same size list mem link cpu ?_ ?_
      · intro _ waiting
        rw [sticks]
        exact waiting
      · intro _ _ t
        rw [sticks]

variable [DecidableEq κ]

theorem Inv.connectCpu (inv : Inv segmentMaxSize s) (told : s.handshakes c = .off) :
    Inv segmentMaxSize (s.setHandshake c .accepted) := by
  have consistent := inv.consistent c
  rw [told] at consistent
  refine inv.of_cpu c rfl rfl rfl rfl inv.cpus_nodup (List.Subset.refl _) ?_ ?_
  · simpa [State.setHandshake, State.Consistent] using consistent
  · intro c' other
    simp [State.setHandshake, other]

/-- A CPU is put in `list_cpu` while no stick is about to copy it. -/
theorem Inv.listCpu (inv : Inv segmentMaxSize s) (told : s.handshakes c = .accepted)
    (ok : ∀ t, ¬ (s.sticks t).Announcing) :
    Inv segmentMaxSize { s.setHandshake c .listed with listCpu := s.listCpu ++ [c] } := by
  have consistent := inv.consistent c
  rw [told] at consistent
  obtain ⟨new, quiet⟩ := consistent
  refine inv.of_cpu c rfl rfl rfl rfl ?_ (List.subset_append_left _ _) ?_ ?_
  · rw [← List.concat_eq_append]
    exact inv.cpus_nodup.concat new
  · have waiting (t : σ) : c ∉ (s.sticks t).remaining := by
      intro mem
      exact new ((inv.remaining t).2 mem)
    simpa [State.setHandshake, State.Consistent, quiet] using fun t => ⟨ok t, waiting t⟩
  · intro c' other
    simp [State.setHandshake, other]

/-- A CPU is sent the credentials, which are those of the first sticks. -/
theorem Inv.sendList (inv : Inv segmentMaxSize s) (told : s.handshakes c = .listed)
    (ok : s.listMemoryStickCredentials.map Credentials.stick <+: s.listMemoryStick) :
    Inv segmentMaxSize ((s.setHandshake c .listSent).send c
      (.credentialsList s.listMemoryStickCredentials)) := by
  have consistent := inv.consistent c
  rw [told] at consistent
  obtain ⟨mem, ⟨link, cpu⟩, waiting⟩ := consistent
  refine inv.of_cpu c rfl rfl rfl rfl inv.cpus_nodup (List.Subset.refl _) ?_ ?_
  · have view : ((s.setHandshake c .listSent).send c
        (.credentialsList s.listMemoryStickCredentials)).view c =
          s.listMemoryStickCredentials.map Credentials.stick := by
      simp [State.view, State.send, State.setHandshake, link, cpu, Cpu.connecting,
        Message.sticks]
    have served : Served ((s.setHandshake c .listSent).send c
        (.credentialsList s.listMemoryStickCredentials)) c := by
      constructor
      · rw [view]
        exact ok
      · intro ms listed
        rw [view]
        refine (inv.lists.published ms listed).imp id fun unpublished => ?_
        change (s.sticks ms.fd).Owes c
        cases phase : s.sticks ms.fd with
        | listed | addressed => trivial
        | off | idSent | sized | published | counted | updating | handling =>
            simp [phase] at unpublished
      · intro ms known
        rw [view] at known
        obtain ⟨cred, mem, rfl⟩ := List.mem_map.mp known
        change ¬ (s.sticks cred.fd).Owes c
        have late := waiting cred.fd
        have early := inv.lists.unpublished cred.fd
        cases phase : s.sticks cred.fd with
        | listed | addressed =>
            exact absurd rfl (early (by simp [phase]) cred mem)
        | published | counted => simp [phase] at late
        | updating => simpa [phase] using late.2
        | off | idSent | sized | handling => exact id
    have reading : Reading s.segmentMaxSize .listSent .credentialsList 0
        [.credentialsList s.listMemoryStickCredentials] := .list 0 _
    rw [show ((s.setHandshake c .listSent).send c
      (.credentialsList s.listMemoryStickCredentials)).handshakes c = .listSent by
        simp [State.send, State.setHandshake]]
    refine ⟨mem, served, ?_⟩
    simpa [State.send, State.setHandshake, link, cpu, Cpu.connecting] using reading
  · intro c' other
    simp [State.setHandshake, State.send, other]

/-- `SEGMENT_MAX_SIZE` follows the list. -/
theorem Inv.sendSegmentMaxSize (inv : Inv segmentMaxSize s)
    (told : s.handshakes c = .listSent) :
    Inv segmentMaxSize ((s.setHandshake c .handling).send c
      (.segmentMaxSize s.segmentMaxSize)) := by
  have consistent := inv.consistent c
  rw [told] at consistent
  obtain ⟨mem, served, reading⟩ := consistent
  refine inv.of_cpu c rfl rfl rfl rfl inv.cpus_nodup (List.Subset.refl _) ?_ ?_
  · have view : ((s.setHandshake c .handling).send c
        (.segmentMaxSize s.segmentMaxSize)).view c = s.view c := by
      simp [State.view, State.send, State.setHandshake, Message.sticks]
    have served' : Served ((s.setHandshake c .handling).send c
        (.segmentMaxSize s.segmentMaxSize)) c := served.of_same rfl view fun t => Iff.rfl
    rw [show ((s.setHandshake c .handling).send c
      (.segmentMaxSize s.segmentMaxSize)).handshakes c = .handling by
        simp [State.send, State.setHandshake]]
    refine ⟨mem, served', ?_⟩
    simpa [State.send, State.setHandshake] using reading.max
  · intro c' other
    simp [State.setHandshake, State.send, other]

/-- A CPU reads a message as it was meant, and what it is told of becomes what it has. -/
theorem Reading.receive {told : HandshakePhase} {cpu : Cpu σ} {message : Message σ}
    {rest : List (Message σ)}
    (reading : Reading segmentMaxSize told cpu.phase cpu.segmentMaxSize (message :: rest)) :
    Reading segmentMaxSize told (cpu.receive message).phase
        (cpu.receive message).segmentMaxSize rest ∧
      (cpu.receive message).listMemoryStick = cpu.listMemoryStick ++ message.sticks := by
  obtain ⟨phase, sticks, value⟩ := cpu
  generalize arrives : message :: rest = link at reading
  cases reading with
  | list _ list =>
      obtain ⟨rfl, rfl⟩ := List.cons.inj arrives
      exact ⟨.listRead _, rfl⟩
  | listRead => cases arrives
  | both _ list updates =>
      obtain ⟨rfl, rfl⟩ := List.cons.inj arrives
      exact ⟨.size _ updates, rfl⟩
  | size _ updates =>
      obtain ⟨rfl, rfl⟩ := List.cons.inj arrives
      exact ⟨.done updates, by simp [Cpu.receive, Message.sticks]⟩
  | done updates =>
      cases updates with
      | nil => cases arrives
      | cons cred updates =>
          obtain ⟨rfl, rfl⟩ := List.cons.inj arrives
          exact ⟨.done updates, rfl⟩

/-- A CPU reads its next message. -/
theorem Inv.receive (inv : Inv segmentMaxSize s) {message : Message σ}
    {rest : List (Message σ)} (link : s.links c = message :: rest) :
    Inv segmentMaxSize { s with
      links := Function.update s.links c rest
      cpus := Function.update s.cpus c ((s.cpus c).receive message) } := by
  refine inv.of_cpu c rfl rfl rfl rfl inv.cpus_nodup (List.Subset.refl _) ?_ ?_
  · have consistent := inv.consistent c
    change State.Consistent _ c (s.handshakes c)
    cases told : s.handshakes c with
    | off | accepted | listed =>
        rw [told] at consistent
        simp [State.Consistent, link] at consistent
    | listSent | handling =>
        rw [told] at consistent
        obtain ⟨mem, served, reading⟩ := consistent
        rw [link] at reading
        obtain ⟨reading', sticks⟩ := reading.receive
        refine ⟨mem, ?_, by simpa using reading'⟩
        refine served.of_same rfl ?_ ?_
        · simp [State.view, link, sticks]
        · intro t
          rfl
  · intro c' other
    simp [other]

end Handshakes

/-! ### Results -/

section Results

variable [DecidableEq σ] [DecidableEq κ]

omit [DecidableEq σ] [DecidableEq κ] in
/-- No stick is being announced while a CPU waits for its list. -/
theorem Inv.announcing (inv : Inv segmentMaxSize s) (told : s.handshakes c = .listed) (t : σ) :
    ¬ (s.sticks t).Announcing := by
  have consistent := inv.consistent c
  rw [told] at consistent
  exact (consistent.2.2 t).1

omit [DecidableEq σ] [DecidableEq κ] in
/-- What a CPU in the middle of its handshake has read. -/
theorem Reading.phase {told : HandshakePhase} {cpu : Cpu σ} {link : List (Message σ)}
    (reading : Reading segmentMaxSize told cpu.phase cpu.segmentMaxSize link) :
    cpu.phase ≠ .crashed ∧ cpu.phase ≠ .misaligned ∧
      (cpu.phase = .handling → cpu.segmentMaxSize = segmentMaxSize) := by
  obtain ⟨phase, sticks, value⟩ := cpu
  cases reading <;> simp

omit [DecidableEq σ] [DecidableEq κ] in
/-- A CPU that has read everything has read its handshake. -/
theorem Reading.delivered {phase : CpuPhase} {value : UInt32}
    (reading : Reading segmentMaxSize .handling phase value ([] : List (Message σ))) :
    phase = .handling := by
  generalize empty : ([] : List (Message σ)) = link at reading
  cases reading with
  | both | size => cases empty
  | done updates => rfl

/-- Every step in order keeps the invariant. -/
theorem step_inv {s' : State σ κ} {a : Action σ κ} (inv : Inv segmentMaxSize s)
    (ok : InOrder s a) (taken : step s a = some s') : Inv segmentMaxSize s' := by
  cases a with
  | connectStick t =>
      simp only [step] at taken
      split at taken
      case h_1 phase =>
          obtain rfl := Option.some.inj taken
          refine inv.setStick ?_ _ s.totalMemorySize
          constructor <;> simp [phase]
      case h_2 => cases taken
  | stickSize t size =>
      simp only [step] at taken
      split at taken
      case h_1 id phase =>
          obtain rfl := Option.some.inj taken
          refine inv.setStick ?_ s.nextMemoryStickId _
          constructor <;> simp [phase]
      case h_2 => cases taken
  | listStick t =>
      simp only [step] at taken
      split at taken
      case h_1 id size phase =>
          obtain rfl := Option.some.inj taken
          exact inv.listStick phase
      case h_2 => cases taken
  | stickAddress t ip port =>
      simp only [step] at taken
      split at taken
      case h_1 stick phase =>
          obtain rfl := Option.some.inj taken
          obtain ⟨-, rfl⟩ := inv.lists.listed t stick (by simp [phase])
          refine inv.setStick ?_ s.nextMemoryStickId s.totalMemorySize
          constructor <;> simp [phase, Credentials.stick]
      case h_2 => cases taken
  | publish t =>
      simp only [step] at taken
      split at taken
      case h_1 cred phase =>
          obtain rfl := Option.some.inj taken
          exact inv.publish phase ok
      case h_2 => cases taken
  | countCpus t =>
      simp only [step] at taken
      split at taken
      case h_1 cred phase =>
          obtain rfl := Option.some.inj taken
          refine inv.setStick ?_ s.nextMemoryStickId s.totalMemorySize
          split
          · rename_i empty
            have none : s.listCpu = [] := List.length_eq_zero_iff.mp empty
            constructor <;> simp [phase, none]
          · have waiting (c : κ) (told : s.handshakes c = .listed) := inv.announcing told t
            constructor <;> simp [phase]
            exact fun c told => by simpa [phase] using waiting c told
      case h_2 => cases taken
  | copyCpus t =>
      simp only [step] at taken
      split at taken
      case h_1 cred phase =>
          obtain rfl := Option.some.inj taken
          have waiting (c : κ) (told : s.handshakes c = .listed) := inv.announcing told t
          refine inv.setStick ?_ s.nextMemoryStickId s.totalMemorySize
          constructor
          · simp
          · simp [phase]
          · simp [phase]
          · simpa using inv.cpus_nodup
          · intro c told
            simpa [phase] using waiting c told
          · intro c mem _
            simpa [phase] using mem
      case h_2 => cases taken
  | sendUpdate t =>
      simp only [step] at taken
      split at taken
      case h_1 cred c cpus phase =>
          obtain rfl := Option.some.inj taken
          simp only [InOrder, phase] at ok
          exact inv.sendUpdate phase ok.1 ok.2
      case h_2 cred phase =>
          obtain rfl := Option.some.inj taken
          refine inv.setStick ?_ s.nextMemoryStickId s.totalMemorySize
          constructor <;> simp [phase]
      case h_3 => cases taken
  | connectCpu c =>
      simp only [step] at taken
      split at taken
      case h_1 told =>
          obtain rfl := Option.some.inj taken
          exact inv.connectCpu told
      case h_2 => cases taken
  | listCpu c =>
      simp only [step] at taken
      split at taken
      case h_1 told =>
          obtain rfl := Option.some.inj taken
          exact inv.listCpu told ok
      case h_2 => cases taken
  | sendList c =>
      simp only [step] at taken
      split at taken
      case h_1 told =>
          obtain rfl := Option.some.inj taken
          exact inv.sendList told ok
      case h_2 => cases taken
  | sendSegmentMaxSize c =>
      simp only [step] at taken
      split at taken
      case h_1 told =>
          obtain rfl := Option.some.inj taken
          exact inv.sendSegmentMaxSize told
      case h_2 => cases taken
  | receive c =>
      simp only [step] at taken
      split at taken
      case h_1 message rest link =>
          obtain rfl := Option.some.inj taken
          exact inv.receive link
      case h_2 => cases taken

omit [DecidableEq σ] [DecidableEq κ] in
/-- A CPU has the first sticks of Kernel Memory. -/
theorem Served.known (served : Served s c) :
    addressMap (s.cpus c).listMemoryStick <+: addressMap s.listMemoryStick := by
  have known : (s.cpus c).listMemoryStick <+: s.view c := List.prefix_append _ _
  exact (known.trans served.first).map _

omit [DecidableEq σ] [DecidableEq κ] in
/-- A CPU that nothing is owed to and on its way to has the sticks of Kernel Memory, in their
order. -/
theorem Served.complete (served : Served s c) (lists : Lists s) (link : s.links c = [])
    (idle : ∀ t, s.sticks t = .off ∨ s.sticks t = .handling) :
    (s.cpus c).listMemoryStick = s.listMemoryStick := by
  have view : s.view c = (s.cpus c).listMemoryStick := by simp [State.view, link]
  rw [← view]
  apply eq_of_first served.first lists.sticks_nodup
  intro ms listed
  refine (served.owed ms listed).resolve_right ?_
  rcases idle ms.fd with off | handling
  · simp [off]
  · simp [handling]

/-- In every run in which the credentials reach the CPUs in the order of `list_memory_stick`
and no handshake overlaps the announcement of a stick, a CPU reads its list of credentials
and `SEGMENT_MAX_SIZE` as they were meant, has the first sticks of Kernel Memory, and has
all of them once everything is delivered. -/
theorem maps_agree {as : List (Action σ κ)}
    (run : Run step InOrder (initial segmentMaxSize) as s) (c : κ) :
    ((s.cpus c).phase ≠ .crashed ∧ (s.cpus c).phase ≠ .misaligned ∧
      ((s.cpus c).phase = .handling → (s.cpus c).segmentMaxSize = segmentMaxSize)) ∧
    addressMap (s.cpus c).listMemoryStick <+: addressMap s.listMemoryStick ∧
    (Delivered s → s.handshakes c = .handling → (s.cpus c).phase = .handling ∧
      addressMap (s.cpus c).listMemoryStick = addressMap s.listMemoryStick) := by
  have inv := run.invariant step_inv initial_inv
  have consistent := inv.consistent c
  cases told : s.handshakes c with
  | off | accepted =>
      rw [told] at consistent
      simp [consistent.2.2, Cpu.connecting, addressMap]
  | listed =>
      rw [told] at consistent
      simp [consistent.2.1.2, Cpu.connecting, addressMap]
  | listSent =>
      rw [told, State.Consistent, inv.size] at consistent
      obtain ⟨-, served, reading⟩ := consistent
      refine ⟨reading.phase, served.known, ?_⟩
      rintro - ⟨⟩
  | handling =>
      rw [told, State.Consistent, inv.size] at consistent
      obtain ⟨-, served, reading⟩ := consistent
      refine ⟨reading.phase, served.known, ?_⟩
      intro delivered _
      constructor
      · rw [delivered.2.2 c] at reading
        exact reading.delivered
      · rw [served.complete inv.lists (delivered.2.2 c) delivered.1]

end Results

/-! ### Two runs -/

instance [Fintype σ] [Fintype κ] [DecidableEq σ] [DecidableEq κ] (s : State σ κ) :
    Decidable (Delivered s) :=
  inferInstanceAs (Decidable (_ ∧ _))

instance : (phase : StickPhase σ κ) → Decidable phase.Announcing
  | .published _ | .counted _ => .isTrue trivial
  | .off | .idSent _ | .sized .. | .listed _ | .addressed _ | .updating .. | .handling =>
      .isFalse id

instance [DecidableEq κ] (c : κ) : (phase : StickPhase σ κ) → Decidable (phase.Owes c)
  | .listed _ | .addressed _ | .published _ | .counted _ => .isTrue trivial
  | .updating _ cpus => inferInstanceAs (Decidable (c ∈ cpus))
  | .off | .idSent _ | .sized .. | .handling => .isFalse id

instance [DecidableEq σ] [DecidableEq κ] (s : State σ κ) :
    (phase : StickPhase σ κ) → Decidable (s.MaySend phase)
  | .updating cred (c :: _) => inferInstanceAs (Decidable (s.handshakes c = .handling ∧
      ∀ ms ∈ s.listMemoryStick.takeWhile (· ≠ cred.stick), ¬ (s.sticks ms.fd).Owes c))
  | .updating _ [] | .off | .idSent _ | .sized .. | .listed _ | .addressed _ | .published _
  | .counted _ | .handling => .isTrue trivial

instance [Fintype σ] [Fintype κ] [DecidableEq σ] [DecidableEq κ] (s : State σ κ) :
    (a : Action σ κ) → Decidable (InOrder s a)
  | .publish _ => Fintype.decidableForallFintype
  | .listCpu _ => Fintype.decidableForallFintype
  | .sendList _ => inferInstanceAs (Decidable (_ <+: _))
  | .sendUpdate t => inferInstanceAs (Decidable (s.MaySend (s.sticks t)))
  | .connectStick _ | .stickSize .. | .listStick _ | .stickAddress .. | .countCpus _
  | .copyCpus _ | .connectCpu _ | .sendSegmentMaxSize _ | .receive _ => .isTrue trivial

/-- A stick connects, up to `list_memory_stick`. -/
def toList (t : Bool) (size : UInt32) : List (Action Bool Unit) :=
  [.connectStick t, .stickSize t size, .listStick t]

/-- A CPU connects and reads what it is sent. -/
def handshake : List (Action Bool Unit) :=
  [.connectCpu (), .listCpu (), .sendList (), .sendSegmentMaxSize (), .receive (), .receive ()]

/-- A stick connects, then a CPU, then another stick. -/
theorem maps_agree_of_update :
    ∃ s : State Bool Unit, Delivered s ∧
      addressMap (s.cpus ()).listMemoryStick = [(0, 4), (1, 8)] ∧
        addressMap (s.cpus ()).listMemoryStick = addressMap s.listMemoryStick := by
  obtain ⟨s, run, test⟩ := Run.exists_of_exec step InOrder
    (toList false 4 ++
      ([.stickAddress false "a" "1", .publish false, .countCpus false] :
        List (Action Bool Unit)) ++ handshake ++ toList true 8 ++
      ([.stickAddress true "b" "2", .publish true, .countCpus true, .copyCpus true,
        .sendUpdate true, .sendUpdate true, .receive ()] : List (Action Bool Unit))) (initial 16)
    (fun s => decide (Delivered s ∧ s.handshakes () = .handling ∧
      addressMap (s.cpus ()).listMemoryStick = [(0, 4), (1, 8)])) (by decide +kernel)
  obtain ⟨delivered, told, sticks⟩ := of_decide_eq_true test
  exact ⟨s, delivered, sticks, ((maps_agree run ()).2.2 delivered told).2⟩

/-- Two sticks connect, and the second one is the first to send its address; the CPU that
connects next has them the other way round. -/
theorem maps_differ :
    ∃ as s, Run step (fun _ _ => True) (initial 16 : State Bool Unit) as s ∧ Delivered s ∧
      s.handshakes () = .handling ∧
        addressMap (s.cpus ()).listMemoryStick ≠ addressMap s.listMemoryStick := by
  obtain ⟨s, run, test⟩ := Run.exists_of_exec step (fun _ _ => True)
    (toList false 4 ++ toList true 8 ++
      ([.stickAddress true "b" "2", .publish true, .countCpus true, .stickAddress false "a" "1",
        .publish false, .countCpus false] : List (Action Bool Unit)) ++ handshake)
    (initial 16 : State Bool Unit)
    (fun s => decide (Delivered s ∧ s.handshakes () = .handling ∧
      addressMap (s.cpus ()).listMemoryStick ≠ addressMap s.listMemoryStick)) (by decide +kernel)
  exact ⟨_, s, run, of_decide_eq_true test⟩

/-- A stick that connects while a CPU is in `list_cpu` and waits for its list makes the CPU
misread the handshake. -/
theorem handshake_misread :
    ∃ as s, Run step (fun _ _ => True) (initial 16 : State Bool Unit) as s ∧
      (s.cpus ()).phase = .crashed := by
  obtain ⟨s, run, test⟩ := Run.exists_of_exec step (fun _ _ => True)
    (([.connectCpu (), .listCpu ()] : List (Action Bool Unit)) ++ toList false 4 ++
      ([.stickAddress false "a" "1", .publish false, .countCpus false, .copyCpus false,
        .sendUpdate false, .sendList (), .receive ()] : List (Action Bool Unit)))
    (initial 16 : State Bool Unit)
    (fun s => decide ((s.cpus ()).phase = .crashed)) (by decide +kernel)
  exact ⟨_, s, run, of_decide_eq_true test⟩

end OsModel.AddressMap
