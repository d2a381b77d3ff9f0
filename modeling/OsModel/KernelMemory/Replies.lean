import OsModel.KernelMemory.ChunkRequests
import OsModel.Lib.Run

/-!
The answers of the sticks to the threads of Kernel Memory.

`t_memory_stick_info` has room for one answer of each kind and one semaphore for all the
threads that wait for the stick, so an answer finds its request only by its turn.

* `Link.Stage`: where a request and its answer can be while one thread waits for the stick.
* `replies_matched`: when no thread sends a request to a stick for which another one waits,
  every access returns what the sticks answered to its own requests.
* `reply_taken`: two threads read from one stick; one gets the bytes of the other, which
  finds nothing there and ends the program.
-/

namespace OsModel.KernelMemory.Replies

open Lib

/-! ### Accesses and their answers -/

/-- A call of `memory_read`, or of `memory_write` with the data. -/
structure Access where
  physicalAddress : UInt32
  size : UInt32
  data : Option (List UInt8)
  length_data : ∀ bytes ∈ data, bytes.length = size.toNat
  deriving DecidableEq

/-- What a call returns: `none` is `NULL`. -/
inductive Value where
  | read (result : Option (List UInt8))
  | write (ok : Bool)
  deriving DecidableEq, Repr

/-- `MS_READ_RESPONSE` and `MS_WRITE_RESPONSE`. -/
inductive Response where
  | read (data : List UInt8)
  | write (ok : Bool)
  deriving DecidableEq, Repr

/-- `MS_READ`, or `MS_WRITE` with the data. Its thread and `request.bytesDone` are not sent. -/
structure Message (τ : Type) where
  thread : τ
  request : ChunkRequest
  data : Option (List UInt8)
  deriving DecidableEq, Repr

/-- `t_memory_stick_info` with the connection and its `memory_stick_handler`: `stored` says
that the handler has stored a response and has not posted `response_sem`. -/
structure Link (τ : Type) where
  requests : List (Message τ)
  responses : List Response
  stored : Bool
  lastReadBuffer : Option (List UInt8)
  lastOpResult : Bool
  responseSem : Nat
  deriving DecidableEq, Repr

/-- A link without a request, as it starts. -/
def Link.quiet {τ : Type} : Link τ := ⟨[], [], false, none, false, 0⟩

/-- What the handler stores of a response. -/
def Link.store {τ : Type} (link : Link τ) : Response → Link τ
  | .read data => { link with lastReadBuffer := some data }
  | .write ok => { link with lastOpResult := ok }

/-- Where the loop of an access is. -/
inductive Phase where
  /-- Before it sends its next request, or returns. -/
  | sending
  /-- At `sem_wait`. -/
  | waiting (request : ChunkRequest)
  /-- Past `sem_wait`, before it takes the answer. -/
  | taking (request : ChunkRequest)
  deriving DecidableEq, Repr

/-- An access that a thread is in the middle of. -/
structure Job where
  access : Access
  bytesDone : UInt32
  result : List UInt8
  phase : Phase
  deriving DecidableEq

/-- What a thread does. -/
inductive Activity where
  | idle
  | calling (job : Job)
  | returned (access : Access) (value : Value)
  deriving DecidableEq

/-- The sticks and the threads of Kernel Memory. `log` are the requests of the last access of
a thread that have been answered, with what the sticks answered: it is read by no step. -/
structure State (τ : Type) where
  sticks : List MemoryStick
  links : ℕ → Link τ
  threads : τ → Activity
  log : τ → List (ChunkRequest × Response)

/-- What can happen next. -/
inductive Action (τ : Type) where
  /-- A thread calls `memory_read` or `memory_write`. -/
  | call (t : τ) (access : Access)
  /-- The head of the loop: the thread sends a request, or returns. -/
  | send (t : τ)
  /-- A stick serves a request. -/
  | serve (i : ℕ)
  /-- `memory_stick_handler` stores a response. -/
  | store (i : ℕ)
  /-- It posts `response_sem`. -/
  | post (i : ℕ)
  /-- A thread passes `sem_wait`. -/
  | wait (t : τ)
  /-- It takes the answer. -/
  | take (t : τ)
  /-- A stick serves an `MS_WRITE` of a CPU. -/
  | cpuWrite (i : ℕ) (localOffset writeSize : UInt32) (data : List UInt8)

variable {τ : Type}

def Access.nextRequest (access : Access) (sticks : List MemoryStick) (bytesDone : UInt32) :
    Option ChunkRequest :=
  match getMemoryStickByAddress sticks (access.physicalAddress + bytesDone) with
  | none => none
  | some (i, localOffset) =>
      match sticks[i]? with
      | none => none
      | some ms => some ⟨i, localOffset, chunkSize ms localOffset access.size bytesDone, bytesDone⟩

/-- The data of a request: `data + bytes_done`. -/
def Access.chunkData (access : Access) (request : ChunkRequest) : Option (List UInt8) :=
  access.data.map fun data => slice data request.bytesDone.toNat request.chunk.toNat

/-- What a call returns: `result` is `none` when it fails. -/
def Access.value (access : Access) (result : Option (List UInt8)) : Value :=
  match access.data with
  | none => .read result
  | some _ => .write result.isSome

/-- The link of a stick after a step. -/
def State.setLink (s : State τ) (i : ℕ) (now : Link τ) : State τ :=
  { s with links := Function.update s.links i now }

@[simp] theorem links_setLink_self (s : State τ) (i : ℕ) (now : Link τ) :
    (s.setLink i now).links i = now := Function.update_self ..

variable [DecidableEq τ]

/-- What a thread does after a step. -/
def State.setThread (s : State τ) (t : τ) (now : Activity) : State τ :=
  { s with threads := Function.update s.threads t now }

/-- A stick sends its answer to a request. -/
def State.answer (s : State τ) (i : ℕ) (message : Message τ) (rest : List (Message τ))
    (response : Response) : State τ :=
  let link := s.links i
  { s.setLink i { link with requests := rest, responses := link.responses ++ [response] } with
    log := Function.update s.log message.thread
      (s.log message.thread ++ [(message.request, response)]) }

/-- What a thread does with the answer it takes. `bytes_to_safe_string` and `memcpy` read
`chunk` bytes of a buffer before anything asks if there is one: `none` is a program that dies
of it. -/
def State.taken (s : State τ) (t : τ) (job : Job) (request : ChunkRequest) : Option (State τ) :=
  let link := s.links request.stick
  let next := { job with bytesDone := job.bytesDone + request.chunk, phase := .sending }
  match job.access.data with
  | none =>
      let s' := s.setLink request.stick { link with lastReadBuffer := none }
      match link.lastReadBuffer with
      | none => none
      | some data =>
          if request.chunk.toNat ≤ data.length then
            s'.setThread t
              (.calling { next with result := job.result ++ data.take request.chunk.toNat })
          else none
  | some _ =>
      let s' := s.setLink request.stick { link with lastOpResult := false }
      if link.lastOpResult then s'.setThread t (.calling next)
      else s'.setThread t (.returned job.access (job.access.value none))

/-- One step of a thread, a stick or a handler. -/
def step (s : State τ) : Action τ → Option (State τ)
  | .call t access =>
      match s.threads t with
      | .calling _ => none
      | _ =>
          some { s.setThread t (.calling ⟨access, 0, [], .sending⟩) with
            log := Function.update s.log t [] }
  | .send t =>
      match s.threads t with
      | .calling ⟨access, bytesDone, result, .sending⟩ =>
          if bytesDone < access.size then
            match access.nextRequest s.sticks bytesDone with
            | none => some (s.setThread t (.returned access (access.value none)))
            | some request =>
                let link := s.links request.stick
                some ((s.setLink request.stick
                  { link with
                    requests := link.requests ++ [⟨t, request, access.chunkData request⟩] }).setThread
                      t (.calling ⟨access, bytesDone, result, .waiting request⟩))
          else some (s.setThread t (.returned access (access.value (some result))))
      | _ => none
  | .serve i =>
      match (s.links i).requests, s.sticks[i]? with
      | message :: rest, some ms =>
          match message.data with
          | none =>
              match ms.handleRead message.request.localOffset message.request.chunk with
              | .answered data => some (s.answer i message rest (.read data))
              | .unanswered => some (s.setLink i { s.links i with requests := rest })
              | .overrun => none
          | some data =>
              match ms.handleWrite message.request.localOffset message.request.chunk data with
              | .answered ok ms' =>
                  some ({ s with sticks := s.sticks.set i ms' }.answer i message rest (.write ok))
              | .overrun => none
      | _, _ => none
  | .store i =>
      match (s.links i).stored, (s.links i).responses with
      | false, response :: rest =>
          some (s.setLink i
            ({ s.links i with responses := rest, stored := true }.store response))
      | _, _ => none
  | .post i =>
      let link := s.links i
      if link.stored then
        some (s.setLink i { link with stored := false, responseSem := link.responseSem + 1 })
      else none
  | .wait t =>
      match s.threads t with
      | .calling ⟨access, bytesDone, result, .waiting request⟩ =>
          let link := s.links request.stick
          if 0 < link.responseSem then
            some ((s.setLink request.stick
              { link with responseSem := link.responseSem - 1 }).setThread
                t (.calling ⟨access, bytesDone, result, .taking request⟩))
          else none
      | _ => none
  | .take t =>
      match s.threads t with
      | .calling ⟨access, bytesDone, result, .taking request⟩ =>
          s.taken t ⟨access, bytesDone, result, .taking request⟩ request
      | _ => none
  | .cpuWrite i localOffset writeSize data =>
      match s.sticks[i]? with
      | none => none
      | some ms =>
          match ms.handleWrite localOffset writeSize data with
          | .answered _ ms' => some { s with sticks := s.sticks.set i ms' }
          | .overrun => none

/-- Kernel Memory with its sticks, before any access. -/
def initial (sticks : List MemoryStick) : State τ :=
  ⟨sticks, fun _ => .quiet, fun _ => .idle, fun _ => []⟩

/-! ### What an access returns -/

/-- The requests of an access, and whether they cover it. -/
def Access.requests (access : Access) (sticks : List MemoryStick) : List ChunkRequest × Bool :=
  chunkRequests sticks access.physicalAddress access.size (access.size.toNat + 1) 0

def Response.bytes : Response → List UInt8
  | .read data => data
  | .write _ => []

/-- It is the answer to such a request: the bytes asked for, or a successful write. -/
def Response.Answers (response : Response) (request : ChunkRequest) (data : Option (List UInt8)) :
    Prop :=
  match data with
  | none => ∃ bytes, response = .read bytes ∧ bytes.length = request.chunk.toNat
  | some _ => response = .write true

/-- The sticks have answered each request of the access once, in order, and the call returns
what they answered. -/
structure Matches (sticks : List MemoryStick) (access : Access)
    (log : List (ChunkRequest × Response)) (value : Value) : Prop where
  requests : log.map Prod.fst = (access.requests sticks).1
  answers : ∀ entry ∈ log, entry.2.Answers entry.1 access.data
  value : value = access.value
    (if (access.requests sticks).2 then some (log.flatMap fun entry => entry.2.bytes) else none)

/-- The loop has made the requests of the log. -/
structure Progress (sticks : List MemoryStick) (access : Access) (bytesDone : UInt32)
    (result : List UInt8) (log : List (ChunkRequest × Response)) : Prop where
  started : bytesDone ≤ access.size
  requests : ∃ fuel, access.size.toNat < fuel + bytesDone.toNat ∧
    (access.requests sticks).1 = log.map Prod.fst ++
      (chunkRequests sticks access.physicalAddress access.size fuel bytesDone).1 ∧
    (access.requests sticks).2 =
      (chunkRequests sticks access.physicalAddress access.size fuel bytesDone).2
  answers : ∀ entry ∈ log, entry.2.Answers entry.1 access.data
  result : result = log.flatMap fun entry => entry.2.bytes

section Accesses

variable {sticks sticks' : List MemoryStick} {access : Access} {bytesDone : UInt32}
  {result : List UInt8} {log : List (ChunkRequest × Response)} {request : ChunkRequest}
  {response : Response}

theorem Access.requests_congr (same : sticks'.map MemoryStick.size = sticks.map MemoryStick.size)
    (access : Access) : access.requests sticks' = access.requests sticks :=
  chunkRequests_congr same ..

theorem Matches.congr (same : sticks'.map MemoryStick.size = sticks.map MemoryStick.size)
    {value : Value} (whole : Matches sticks access log value) : Matches sticks' access log value := by
  obtain ⟨requests, answers, value⟩ := whole
  rw [← access.requests_congr same] at requests value
  exact ⟨requests, answers, value⟩

theorem Progress.congr (same : sticks'.map MemoryStick.size = sticks.map MemoryStick.size)
    (progress : Progress sticks access bytesDone result log) :
    Progress sticks' access bytesDone result log := by
  obtain ⟨started, ⟨fuel, enough, requests⟩, answers, result⟩ := progress
  rw [← access.requests_congr same, ← chunkRequests_congr same] at requests
  exact ⟨started, ⟨fuel, enough, requests⟩, answers, result⟩

theorem Progress.start (sticks : List MemoryStick) (access : Access) :
    Progress sticks access 0 [] [] where
  started := by simp
  requests := ⟨access.size.toNat + 1, by simp, rfl, rfl⟩
  answers := by simp
  result := rfl

/-- A stick that is found has the address, whatever the sizes are. -/
theorem getMemoryStickFrom_within {physicalAddress cursor : UInt32} {i j : ℕ}
    {localOffset : UInt32} (reached : cursor ≤ physicalAddress)
    (found : getMemoryStickFrom physicalAddress cursor i sticks = some (j, localOffset)) :
    ∃ k ms, j = i + k ∧ sticks[k]? = some ms ∧ localOffset < ms.size := by
  induction sticks generalizing cursor i with
  | nil => simp [getMemoryStickFrom] at found
  | cons ms rest ih =>
      unfold getMemoryStickFrom at found
      split at found
      · rename_i here
        obtain ⟨rfl, rfl⟩ := Prod.mk.inj (Option.some.inj found)
        refine ⟨0, ms, rfl, rfl, ?_⟩
        have sub := UInt32.toNat_sub_of_le _ _ reached
        rw [UInt32.le_iff_toNat_le] at reached
        rw [UInt32.lt_iff_toNat_lt, UInt32.toNat_add] at here
        rw [UInt32.lt_iff_toNat_lt, sub]
        have := cursor.toNat_lt
        have := ms.size.toNat_lt
        omega
      · rename_i later
        obtain ⟨k, ms', eq, at_k, inside⟩ := ih (UInt32.not_lt.mp later) found
        exact ⟨k + 1, ms', by omega, at_k, inside⟩

/-- A request is for bytes that its stick has and the access has not. -/
theorem Access.nextRequest_within (next : access.nextRequest sticks bytesDone = some request)
    (more : bytesDone < access.size) :
    request.bytesDone = bytesDone ∧ 0 < request.chunk.toNat ∧
      bytesDone.toNat + request.chunk.toNat ≤ access.size.toNat ∧
      ∃ ms, sticks[request.stick]? = some ms ∧
        request.localOffset.toNat + request.chunk.toNat ≤ ms.size.toNat := by
  unfold nextRequest at next
  split at next
  · simp at next
  · rename_i i localOffset found
    split at next
    · simp at next
    · rename_i ms here
      obtain rfl := Option.some.inj next
      obtain ⟨k, ms', eq, at_k, inside⟩ := getMemoryStickFrom_within (by simp) found
      rw [Nat.zero_add] at eq
      subst eq
      obtain rfl := Option.some.inj (at_k.symm.trans here)
      obtain ⟨positive, within, progress⟩ := chunkSize_spec inside more
      exact ⟨rfl, positive, progress, ms', here, within⟩

/-- The loop makes its next request. -/
theorem chunkRequests_next (next : access.nextRequest sticks bytesDone = some request)
    (more : bytesDone < access.size) (fuel : ℕ) :
    chunkRequests sticks access.physicalAddress access.size (fuel + 1) bytesDone =
      (request :: (chunkRequests sticks access.physicalAddress access.size fuel
          (bytesDone + request.chunk)).1,
        (chunkRequests sticks access.physicalAddress access.size fuel
          (bytesDone + request.chunk)).2) := by
  unfold Access.nextRequest at next
  rw [chunkRequests, if_pos more]
  cases found : getMemoryStickByAddress sticks (access.physicalAddress + bytesDone) with
  | none => simp [found] at next
  | some place =>
      obtain ⟨i, localOffset⟩ := place
      rw [found] at next
      cases here : sticks[i]? with
      | none => simp [here] at next
      | some ms =>
          simp only [here, Option.some.injEq] at next
          subst next
          simp only [here]

/-- The loop stops where no stick has the next address. -/
theorem chunkRequests_stop (next : access.nextRequest sticks bytesDone = none)
    (more : bytesDone < access.size) (fuel : ℕ) :
    chunkRequests sticks access.physicalAddress access.size fuel bytesDone = ([], false) := by
  unfold Access.nextRequest at next
  cases fuel with
  | zero => rfl
  | succ fuel =>
      rw [chunkRequests, if_pos more]
      cases found : getMemoryStickByAddress sticks (access.physicalAddress + bytesDone) with
      | none => rfl
      | some place =>
          obtain ⟨i, localOffset⟩ := place
          rw [found] at next
          cases here : sticks[i]? with
          | none => simp only [here]
          | some ms => simp [here] at next

/-- An answer is taken. -/
theorem Progress.take (progress : Progress sticks access bytesDone result log)
    (more : bytesDone < access.size)
    (next : access.nextRequest sticks bytesDone = some request)
    (answers : response.Answers request access.data) :
    Progress sticks access (bytesDone + request.chunk) (result ++ response.bytes)
      (log ++ [(request, response)]) := by
  obtain ⟨rfl, positive, bound, -⟩ := access.nextRequest_within next more
  have sum : (request.bytesDone + request.chunk).toNat =
      request.bytesDone.toNat + request.chunk.toNat := by
    have := access.size.toNat_lt
    rw [UInt32.toNat_add]
    omega
  obtain ⟨fuel, enough, requests, covers⟩ := progress.requests
  obtain _ | fuel := fuel
  · rw [UInt32.lt_iff_toNat_lt] at more
    omega
  rw [chunkRequests_next next more] at requests covers
  constructor
  · rw [UInt32.le_iff_toNat_le, sum]
    exact bound
  · refine ⟨fuel, by omega, ?_, covers⟩
    rw [requests]
    simp
  · intro entry mem
    rcases List.mem_append.mp mem with before | last
    · exact progress.answers entry before
    · obtain rfl := List.mem_singleton.mp last
      exact answers
  · rw [progress.result]
    simp

/-- The loop ends at the size of the access. -/
theorem Progress.finish (progress : Progress sticks access bytesDone result log)
    (done : ¬ bytesDone < access.size) :
    Matches sticks access log (access.value (some result)) := by
  obtain ⟨fuel, enough, requests, covers⟩ := progress.requests
  have ended : chunkRequests sticks access.physicalAddress access.size fuel bytesDone =
      ([], true) := by
    obtain _ | fuel := fuel
    · have started := UInt32.le_iff_toNat_le.mp progress.started
      omega
    · rw [chunkRequests, if_neg done]
  rw [ended] at requests covers
  rw [List.append_nil] at requests
  refine ⟨requests.symm, progress.answers, ?_⟩
  rw [covers, if_pos rfl, progress.result]

/-- It ends at an address that no stick has. -/
theorem Progress.fail (progress : Progress sticks access bytesDone result log)
    (more : bytesDone < access.size) (next : access.nextRequest sticks bytesDone = none) :
    Matches sticks access log (access.value none) := by
  obtain ⟨fuel, enough, requests, covers⟩ := progress.requests
  rw [chunkRequests_stop next more] at requests covers
  rw [List.append_nil] at requests
  refine ⟨requests.symm, progress.answers, ?_⟩
  rw [covers, if_neg Bool.false_ne_true]

end Accesses

/-! ### One thread at a stick -/

/-- The request that a thread waits for. -/
def Activity.awaits : Activity → Option ChunkRequest
  | .calling ⟨_, _, _, .waiting request⟩ | .calling ⟨_, _, _, .taking request⟩ => some request
  | _ => none

/-- Where a request and its answer are while nobody else waits for the stick: `answer` is what
the stick has answered, and `woken` says that the thread is past `sem_wait`. -/
inductive Link.Stage (message : Message τ) :
    (link : Link τ) → (answer : Option Response) → (woken : Bool) → Prop where
  | sent : Stage message { Link.quiet with requests := [message] } none false
  | answered (response : Response) (answers : response.Answers message.request message.data) :
      Stage message { Link.quiet with responses := [response] } (some response) false
  | stored (response : Response) (answers : response.Answers message.request message.data) :
      Stage message { Link.quiet.store response with stored := true } (some response) false
  | posted (response : Response) (answers : response.Answers message.request message.data) :
      Stage message { Link.quiet.store response with responseSem := 1 } (some response) false
  | woken (response : Response) (answers : response.Answers message.request message.data) :
      Stage message (Link.quiet.store response) (some response) true

/-- The two places where a thread waits. -/
def Phase.awaiting : (woken : Bool) → ChunkRequest → Phase
  | false, request => .waiting request
  | true, request => .taking request

/-- The thread waits for the answer to the next request of its access, and has the stick for
itself. -/
def Awaits (s : State τ) (t : τ) (access : Access) (bytesDone : UInt32) (result : List UInt8)
    (request : ChunkRequest) (woken : Bool) : Prop :=
  bytesDone < access.size ∧ access.nextRequest s.sticks bytesDone = some request ∧
    ∃ log answer, Progress s.sticks access bytesDone result log ∧
      s.log t = log ++ (answer.map fun response => (request, response)).toList ∧
      Link.Stage ⟨t, request, access.chunkData request⟩ (s.links request.stick) answer woken

/-- What a thread does fits what the sticks have answered. -/
def Consistent (s : State τ) (t : τ) : Activity → Prop
  | .idle => True
  | .returned access value => Matches s.sticks access (s.log t) value
  | .calling ⟨access, bytesDone, result, .sending⟩ =>
      Progress s.sticks access bytesDone result (s.log t)
  | .calling ⟨access, bytesDone, result, .waiting request⟩ =>
      Awaits s t access bytesDone result request false
  | .calling ⟨access, bytesDone, result, .taking request⟩ =>
      Awaits s t access bytesDone result request true

/-- What the threads, the sticks and the handlers keep. -/
structure Inv (s : State τ) : Prop where
  single : ∀ t t' request request', (s.threads t).awaits = some request →
    (s.threads t').awaits = some request' → request.stick = request'.stick → t = t'
  free : ∀ i, (∀ t, ∀ request ∈ (s.threads t).awaits, request.stick ≠ i) → s.links i = .quiet
  consistent : ∀ t, Consistent s t (s.threads t)

/-- The request that a thread is about to send. -/
def State.sends (s : State τ) (t : τ) : Option ChunkRequest :=
  match s.threads t with
  | .calling ⟨access, bytesDone, _, .sending⟩ =>
      if bytesDone < access.size then access.nextRequest s.sticks bytesDone else none
  | _ => none

/-- No thread sends a request to a stick for which another one waits. -/
def Alone (s : State τ) : Action τ → Prop
  | .send t => ∀ request ∈ s.sends t, ∀ other, other ≠ t →
      ∀ awaited ∈ (s.threads other).awaits, awaited.stick ≠ request.stick
  | _ => True

section Steps

variable {s s' : State τ} {t : τ} {i : ℕ} {request : ChunkRequest}

omit [DecidableEq τ] in
/-- The stick has the request of a thread that waits for it. -/
theorem Inv.owner (inv : Inv s) (busy : s.links i ≠ .quiet) :
    ∃ t request, (s.threads t).awaits = some request ∧ request.stick = i := by
  by_contra none
  refine busy (inv.free i fun t request awaits eq => ?_)
  exact none ⟨t, request, awaits, eq⟩

theorem Access.nextRequest_congr {sticks sticks' : List MemoryStick} (access : Access)
    (same : sticks'.map MemoryStick.size = sticks.map MemoryStick.size) (bytesDone : UInt32) :
    access.nextRequest sticks' bytesDone = access.nextRequest sticks bytesDone := by
  unfold nextRequest getMemoryStickByAddress
  rw [getMemoryStickFrom_congr same]
  split
  · rfl
  · rename_i i localOffset found
    cases here : sticks[i]? with
    | none => rw [getElem?_none_of_sizes same here]
    | some ms =>
        obtain ⟨ms', here', size_eq⟩ := getElem?_some_of_sizes same here
        rw [here']
        simp only [chunkSize, size_eq]

omit [DecidableEq τ] in
theorem Awaits.congr {access : Access} {bytesDone : UInt32} {result : List UInt8} {woken : Bool}
    (awaits : Awaits s t access bytesDone result request woken)
    (sizes : s'.sticks.map MemoryStick.size = s.sticks.map MemoryStick.size)
    (log : s'.log t = s.log t) (link : s'.links request.stick = s.links request.stick) :
    Awaits s' t access bytesDone result request woken := by
  obtain ⟨more, next, taken, answer, progress, logged, stage⟩ := awaits
  refine ⟨more, ?_, taken, answer, progress.congr sizes, log.trans logged, ?_⟩
  · rwa [access.nextRequest_congr sizes]
  · rwa [link]

omit [DecidableEq τ] in
/-- A thread that sees nothing of a step. -/
theorem Consistent.congr {now : Activity} (consistent : Consistent s t now)
    (sizes : s'.sticks.map MemoryStick.size = s.sticks.map MemoryStick.size)
    (log : s'.log t = s.log t)
    (links : ∀ request ∈ now.awaits, s'.links request.stick = s.links request.stick) :
    Consistent s' t now := by
  cases now with
  | idle => trivial
  | returned access value =>
      have whole : Matches s.sticks access (s.log t) value := consistent
      rw [← log] at whole
      exact whole.congr sizes
  | calling job =>
      obtain ⟨access, bytesDone, result, phase⟩ := job
      cases phase with
      | sending =>
          have progress : Progress s.sticks access bytesDone result (s.log t) := consistent
          rw [← log] at progress
          exact progress.congr sizes
      | waiting request | taking request =>
          exact Awaits.congr consistent sizes log (links request rfl)

omit [DecidableEq τ] in
/-- A thread that waits for nothing goes on. -/
theorem Inv.act (inv : Inv s) (t : τ) (sticks : s'.sticks = s.sticks) (links : s'.links = s.links)
    (others : ∀ other, other ≠ t → s'.threads other = s.threads other ∧ s'.log other = s.log other)
    (before : (s.threads t).awaits = none) (after : (s'.threads t).awaits = none)
    (consistent : Consistent s' t (s'.threads t)) : Inv s' := by
  have same : ∀ other, (s'.threads other).awaits = (s.threads other).awaits := by
    intro other
    by_cases eq : other = t
    · rw [eq, before, after]
    · rw [(others other eq).1]
  constructor
  · intro a b request request' first second
    rw [same] at first second
    exact inv.single a b request request' first second
  · intro i none
    rw [links]
    refine inv.free i fun other request awaits => none other request ?_
    rwa [same]
  · intro other
    by_cases eq : other = t
    · rwa [eq]
    · obtain ⟨threads, log⟩ := others other eq
      rw [threads]
      refine (inv.consistent other).congr (by rw [sticks]) log fun request _ => ?_
      rw [links]

omit [DecidableEq τ] in
/-- Something happens at a stick that no other thread waits for. -/
theorem Inv.move (inv : Inv s) (t : τ) (i : ℕ)
    (alone : ∀ other, other ≠ t → ∀ request ∈ (s.threads other).awaits, request.stick ≠ i)
    (before : ∀ request ∈ (s.threads t).awaits, request.stick = i)
    (after : ∀ request ∈ (s'.threads t).awaits, request.stick = i)
    (sizes : s'.sticks.map MemoryStick.size = s.sticks.map MemoryStick.size)
    (links : ∀ j, j ≠ i → s'.links j = s.links j)
    (others : ∀ other, other ≠ t → s'.threads other = s.threads other ∧ s'.log other = s.log other)
    (free : (s'.threads t).awaits = none → s'.links i = .quiet)
    (consistent : Consistent s' t (s'.threads t)) : Inv s' := by
  constructor
  · intro a b request request' first second eq
    by_cases at_a : a = t
    · by_cases at_b : b = t
      · rw [at_a, at_b]
      · subst at_a
        rw [(others b at_b).1] at second
        exact absurd (eq.symm.trans (after request first)) (alone b at_b request' second)
    · rw [(others a at_a).1] at first
      by_cases at_b : b = t
      · subst at_b
        exact absurd (eq.trans (after request' second)) (alone a at_a request first)
      · rw [(others b at_b).1] at second
        exact inv.single a b request request' first second eq
  · intro j none
    by_cases eq : j = i
    · subst eq
      refine free (Option.eq_none_iff_forall_not_mem.mpr fun request awaits => ?_)
      exact none t request awaits (after request awaits)
    · rw [links j eq]
      refine inv.free j fun other request awaits same => ?_
      by_cases at_t : other = t
      · subst at_t
        exact eq (same.symm.trans (before request awaits))
      · rw [← (others other at_t).1] at awaits
        exact none other request awaits same
  · intro other
    by_cases eq : other = t
    · rwa [eq]
    · obtain ⟨threads, log⟩ := others other eq
      rw [threads]
      refine (inv.consistent other).congr sizes log fun request awaits => ?_
      exact links request.stick (alone other eq request awaits)

omit [DecidableEq τ] in
/-- A thread that waits has the stick for itself. -/
theorem Inv.waits (inv : Inv s) (awaits : (s.threads t).awaits = some request) :
    ∃ access bytesDone result woken,
      s.threads t = .calling ⟨access, bytesDone, result, .awaiting woken request⟩ ∧
        Awaits s t access bytesDone result request woken := by
  have consistent := inv.consistent t
  cases doing : s.threads t with
  | idle | returned => simp [doing, Activity.awaits] at awaits
  | calling job =>
      obtain ⟨access, bytesDone, result, phase⟩ := job
      rw [doing] at awaits consistent
      cases phase with
      | sending => simp [Activity.awaits] at awaits
      | waiting awaited =>
          obtain rfl := Option.some.inj awaits
          exact ⟨access, bytesDone, result, false, rfl, consistent⟩
      | taking awaited =>
          obtain rfl := Option.some.inj awaits
          exact ⟨access, bytesDone, result, true, rfl, consistent⟩

omit [DecidableEq τ] in
/-- A stick or its handler goes on. -/
theorem Inv.handle {access : Access} {bytesDone : UInt32} {result : List UInt8} {woken : Bool}
    (inv : Inv s)
    (calling : s.threads t = .calling ⟨access, bytesDone, result, .awaiting woken request⟩)
    (threads : s'.threads = s.threads)
    (sizes : s'.sticks.map MemoryStick.size = s.sticks.map MemoryStick.size)
    (links : ∀ j, j ≠ request.stick → s'.links j = s.links j)
    (log : ∀ other, other ≠ t → s'.log other = s.log other)
    (awaits : Awaits s' t access bytesDone result request woken) : Inv s' := by
  have awaited : (s.threads t).awaits = some request := by
    rw [calling]
    cases woken <;> rfl
  refine inv.move t request.stick ?_ ?_ ?_ sizes links ?_ ?_ ?_
  · intro other ne request' awaits' eq
    exact ne (inv.single other t request' request awaits' awaited eq)
  · intro request' awaits'
    obtain rfl := Option.some.inj (awaited.symm.trans awaits')
    rfl
  · intro request' awaits'
    rw [threads] at awaits'
    obtain rfl := Option.some.inj (awaited.symm.trans awaits')
    rfl
  · intro other ne
    exact ⟨congrFun threads other, log other ne⟩
  · intro none
    rw [threads, awaited] at none
    simp at none
  · rw [threads, calling]
    cases woken <;> exact awaits

theorem Response.answers_chunkData {response : Response} {access : Access} :
    response.Answers request (access.chunkData request) ↔
      response.Answers request access.data := by
  unfold Access.chunkData
  cases access.data <;> exact Iff.rfl

/-- The stick answers. -/
theorem Awaits.answer {access : Access} {bytesDone : UInt32} {result : List UInt8}
    {log : List (ChunkRequest × Response)} {response : Response} (more : bytesDone < access.size)
    (next : access.nextRequest s.sticks bytesDone = some request)
    (progress : Progress s.sticks access bytesDone result log) (logged : s.log t = log)
    (link : s.links request.stick =
      { (Link.quiet : Link τ) with requests := [⟨t, request, access.chunkData request⟩] })
    (answers : response.Answers request access.data) :
    Awaits (s.answer request.stick ⟨t, request, access.chunkData request⟩ [] response) t access
      bytesDone result request false := by
  refine ⟨more, next, log, some response, progress, ?_, ?_⟩
  · simp [State.answer, logged]
  · have after : (s.answer request.stick ⟨t, request, access.chunkData request⟩ [] response).links
        request.stick = { (Link.quiet : Link τ) with responses := [response] } := by
      simp only [State.answer, State.setLink, link]
      rw [Function.update_self]
      rfl
    rw [after]
    exact .answered response (Response.answers_chunkData.mpr answers)

/-- A stick serves the request of the thread that waits for it. -/
theorem Inv.serve (inv : Inv s) (taken : step s (.serve i) = some s') : Inv s' := by
  simp only [step] at taken
  split at taken
  · rename_i message rest ms requests here
    have busy : s.links i ≠ .quiet := by
      intro eq
      rw [eq] at requests
      simp [Link.quiet] at requests
    obtain ⟨t, request, awaits, rfl⟩ := inv.owner busy
    obtain ⟨access, bytesDone, result, woken, calling, more, next, log, answer, progress, logged,
      stage⟩ := inv.waits awaits
    generalize at_link : s.links request.stick = link at stage requests
    cases stage with
    | answered response | stored response | posted response | woken response =>
        cases response <;> simp [Link.quiet, Link.store] at requests
    | sent =>
        obtain ⟨rfl, rfl⟩ := List.cons.inj requests
        rw [Option.map_none, Option.toList_none, List.append_nil] at logged
        obtain ⟨same, -, bound, ms', here', within⟩ := access.nextRequest_within next more
        obtain rfl := Option.some.inj (here.symm.trans here')
        cases data : access.data with
        | none =>
            simp only [Access.chunkData, data, Option.map_none,
              MemoryStick.handleRead_inside within] at taken
            obtain rfl := Option.some.inj taken
            refine inv.handle calling rfl rfl ?_ ?_ ?_
            · intro j ne
              exact Function.update_of_ne ne ..
            · intro other ne
              exact Function.update_of_ne ne ..
            · have answers : (Response.read (slice ms.memory request.localOffset.toNat
                  request.chunk.toNat)).Answers request access.data := by
                rw [data]
                refine ⟨_, rfl, length_slice ?_⟩
                rwa [ms.length_memory]
              have answered := Awaits.answer more next progress logged at_link answers
              simpa only [Access.chunkData, data, Option.map_none] using answered
        | some bytes =>
            have length : (slice bytes request.bytesDone.toNat request.chunk.toNat).length =
                request.chunk.toNat := by
              refine length_slice ?_
              rw [access.length_data bytes data, same]
              exact bound
            obtain ⟨ms', handled, -⟩ := MemoryStick.handleWrite_inside within length
            simp only [Access.chunkData, data, Option.map_some, handled] at taken
            obtain rfl := Option.some.inj taken
            have sizes := sizes_set here handled
            refine inv.handle calling rfl sizes ?_ ?_ ?_
            · intro j ne
              exact Function.update_of_ne ne ..
            · intro other ne
              exact Function.update_of_ne ne ..
            · have answers : (Response.write true).Answers request access.data := by
                rw [data]
                rfl
              rw [← access.nextRequest_congr sizes] at next
              have answered := Awaits.answer
                (s := { s with sticks := s.sticks.set request.stick ms' }) more next
                (progress.congr sizes) logged at_link answers
              simpa only [Access.chunkData, data, Option.map_some] using answered
  · simp at taken

omit [DecidableEq τ] in
/-- The answer moves on. -/
theorem Awaits.move {access : Access} {bytesDone : UInt32} {result : List UInt8}
    {log : List (ChunkRequest × Response)} {response : Response} {woken : Bool}
    (more : bytesDone < access.size)
    (next : access.nextRequest s.sticks bytesDone = some request)
    (progress : Progress s.sticks access bytesDone result log)
    (logged : s.log t = log ++ [(request, response)]) (sticks : s'.sticks = s.sticks)
    (log' : s'.log = s.log)
    (stage : Link.Stage ⟨t, request, access.chunkData request⟩ (s'.links request.stick)
      (some response) woken) : Awaits s' t access bytesDone result request woken := by
  refine ⟨more, ?_, log, some response, ?_, ?_, stage⟩
  · rwa [sticks]
  · rwa [sticks]
  · rw [log', logged]
    rfl

/-- The handler stores the answer. -/
theorem Inv.store (inv : Inv s) (taken : step s (.store i) = some s') : Inv s' := by
  simp only [step] at taken
  split at taken
  · rename_i response rest unstored responses
    obtain rfl := Option.some.inj taken
    have busy : s.links i ≠ .quiet := by
      intro eq
      rw [eq] at responses
      simp [Link.quiet] at responses
    obtain ⟨t, request, awaits, rfl⟩ := inv.owner busy
    obtain ⟨access, bytesDone, result, woken, calling, more, next, log, answer, progress, logged,
      stage⟩ := inv.waits awaits
    generalize at_link : s.links request.stick = link at stage responses unstored
    cases stage with
    | sent => simp [Link.quiet] at responses
    | stored response | posted response | woken response =>
        cases response <;> simp [Link.quiet, Link.store] at responses
    | answered response answers =>
        obtain ⟨rfl, rfl⟩ := List.cons.inj responses
        refine inv.handle calling rfl rfl ?_ (fun _ _ => rfl) ?_
        · intro j ne
          exact Function.update_of_ne ne ..
        · refine Awaits.move more next progress logged rfl rfl ?_
          rw [links_setLink_self]
          cases response with
          | read data | write ok => exact .stored _ answers
  · simp at taken

/-- It posts the semaphore. -/
theorem Inv.post (inv : Inv s) (taken : step s (.post i) = some s') : Inv s' := by
  simp only [step] at taken
  split at taken
  · rename_i isStored
    obtain rfl := Option.some.inj taken
    have busy : s.links i ≠ .quiet := by
      intro eq
      rw [eq] at isStored
      simp [Link.quiet] at isStored
    obtain ⟨t, request, awaits, rfl⟩ := inv.owner busy
    obtain ⟨access, bytesDone, result, woken, calling, more, next, log, answer, progress, logged,
      stage⟩ := inv.waits awaits
    generalize at_link : s.links request.stick = link at stage isStored
    cases stage with
    | sent | answered => simp [Link.quiet] at isStored
    | posted response | woken response =>
        cases response <;> simp [Link.quiet, Link.store] at isStored
    | stored response answers =>
        refine inv.handle calling rfl rfl ?_ (fun _ _ => rfl) ?_
        · intro j ne
          exact Function.update_of_ne ne ..
        · refine Awaits.move more next progress logged rfl rfl ?_
          rw [links_setLink_self]
          cases response with
          | read data | write ok => exact .posted _ answers
  · simp at taken

/-- A thread that waits for a stick, or begins to, goes on. -/
theorem Inv.goOn (inv : Inv s) {link : Link τ} {now : Activity}
    (alone : ∀ other, other ≠ t → ∀ awaited ∈ (s.threads other).awaits,
      awaited.stick ≠ request.stick)
    (before : ∀ awaited ∈ (s.threads t).awaits, awaited = request)
    (after : ∀ awaited ∈ now.awaits, awaited = request) (free : now.awaits = none → link = .quiet)
    (consistent : Consistent ((s.setLink request.stick link).setThread t now) t now) :
    Inv ((s.setLink request.stick link).setThread t now) := by
  have doing : ((s.setLink request.stick link).setThread t now).threads t = now :=
    Function.update_self ..
  refine inv.move t request.stick alone ?_ ?_ rfl ?_ ?_ ?_ ?_
  · intro awaited awaits
    rw [before awaited awaits]
  · intro awaited awaits
    rw [doing] at awaits
    rw [after awaited awaits]
  · intro j ne
    exact Function.update_of_ne ne ..
  · intro other ne
    exact ⟨Function.update_of_ne ne .., rfl⟩
  · intro none
    rw [doing] at none
    exact (links_setLink_self ..).trans (free none)
  · rwa [doing]

omit [DecidableEq τ] in
/-- Nobody else waits for the stick of a thread that waits. -/
theorem Inv.alone (inv : Inv s) (awaits : (s.threads t).awaits = some request) :
    (∀ other, other ≠ t → ∀ awaited ∈ (s.threads other).awaits,
      awaited.stick ≠ request.stick) ∧ ∀ awaited ∈ (s.threads t).awaits, awaited = request := by
  constructor
  · intro other ne awaited awaits' eq
    exact ne (inv.single other t awaited request awaits' awaits eq)
  · intro awaited awaits'
    exact Option.some.inj (awaits'.symm.trans awaits)

/-- A thread passes `sem_wait`. -/
theorem Inv.wait (inv : Inv s) (taken : step s (.wait t) = some s') : Inv s' := by
  simp only [step] at taken
  split at taken
  · rename_i access bytesDone result request calling
    split at taken
    · rename_i posted
      obtain rfl := Option.some.inj taken
      have awaits : (s.threads t).awaits = some request := by rw [calling]; rfl
      have consistent := inv.consistent t
      rw [calling] at consistent
      obtain ⟨more, next, log, answer, progress, logged, stage⟩ := consistent
      obtain ⟨alone, only⟩ := inv.alone awaits
      refine inv.goOn alone only (fun _ mem => (Option.some.inj mem).symm)
        (fun none => by simp [Activity.awaits] at none) ?_
      generalize at_link : s.links request.stick = link at stage posted
      cases stage with
      | sent | answered => simp [Link.quiet] at posted
      | stored response => cases response <;> simp [Link.quiet, Link.store] at posted
      | posted response answers =>
          refine Awaits.move more next progress logged rfl rfl ?_
          change Link.Stage _ ((s.setLink request.stick _).links request.stick) _ _
          rw [links_setLink_self]
          cases response with
          | read data | write ok => exact .woken _ answers
    · simp at taken
  · simp at taken

/-- It takes the answer to its request. -/
theorem Inv.take (inv : Inv s) (taken : step s (.take t) = some s') : Inv s' := by
  simp only [step] at taken
  split at taken
  · rename_i access bytesDone result request calling
    have awaits : (s.threads t).awaits = some request := by rw [calling]; rfl
    have consistent := inv.consistent t
    rw [calling] at consistent
    obtain ⟨more, next, log, answer, progress, logged, stage⟩ := consistent
    obtain ⟨alone, only⟩ := inv.alone awaits
    generalize at_link : s.links request.stick = link at stage
    cases stage with
    | woken response answers =>
        have answers : response.Answers request access.data :=
          Response.answers_chunkData.mp answers
        have progress' := progress.take more next answers
        change s.log t = log ++ [(request, response)] at logged
        rw [← logged] at progress'
        unfold State.taken at taken
        cases data : access.data with
        | none =>
            rw [data] at answers
            obtain ⟨bytes, rfl, length⟩ := answers
            simp only [data, at_link, Link.store, if_pos length.ge, Option.some.injEq] at taken
            subst taken
            refine inv.goOn alone only (fun _ mem => by simp [Activity.awaits] at mem)
              (fun _ => rfl) ?_
            rw [← length, List.take_length]
            exact progress'
        | some bytes =>
            rw [data] at answers
            obtain rfl : response = .write true := answers
            simp only [data, at_link, Link.store, if_true, Option.some.injEq] at taken
            subst taken
            refine inv.goOn alone only (fun _ mem => by simp [Activity.awaits] at mem)
              (fun _ => rfl) ?_
            rw [Response.bytes, List.append_nil] at progress'
            exact progress'
  · simp at taken

/-- A thread sends its next request to a stick that is free, or returns. -/
theorem Inv.send (inv : Inv s) (alone : Alone s (.send t)) (taken : step s (.send t) = some s') :
    Inv s' := by
  have returns : ∀ access value, (s.threads t).awaits = none →
      Matches s.sticks access (s.log t) value → Inv (s.setThread t (.returned access value)) := by
    intro access value idle whole
    have doing : (s.setThread t (.returned access value)).threads t = .returned access value :=
      Function.update_self ..
    refine inv.act t rfl rfl ?_ idle ?_ ?_
    · intro other ne
      exact ⟨Function.update_of_ne ne .., rfl⟩
    · rw [doing]
      rfl
    · rw [doing]
      exact whole
  simp only [step] at taken
  split at taken
  · rename_i access bytesDone result calling
    have idle : (s.threads t).awaits = none := by rw [calling]; rfl
    have progress := inv.consistent t
    rw [calling] at progress
    split at taken
    · rename_i more
      split at taken
      · rename_i nowhere
        obtain rfl := Option.some.inj taken
        exact returns _ _ idle (Progress.fail progress more nowhere)
      · rename_i request next
        obtain rfl := Option.some.inj taken
        have sends : s.sends t = some request := by
          simp only [State.sends, calling, if_pos more, next]
        have free : s.links request.stick = .quiet := by
          refine inv.free request.stick fun other awaited awaits => ?_
          by_cases eq : other = t
          · rw [eq, idle] at awaits
            cases awaits
          · exact alone request sends other eq awaited awaits
        refine inv.goOn (alone request sends) ?_ ?_ ?_ ?_
        · intro awaited awaits
          rw [idle] at awaits
          cases awaits
        · intro awaited awaits
          exact (Option.some.inj awaits).symm
        · intro none
          simp [Activity.awaits] at none
        · refine ⟨more, next, s.log t, none, progress, (List.append_nil _).symm, ?_⟩
          change Link.Stage _ ((s.setLink request.stick _).links request.stick) _ _
          rw [links_setLink_self, free]
          exact .sent
    · rename_i done
      obtain rfl := Option.some.inj taken
      exact returns _ _ idle (Progress.finish progress done)
  · simp at taken

/-- A thread begins an access. -/
theorem Inv.call {access : Access} (inv : Inv s) (taken : step s (.call t access) = some s') :
    Inv s' := by
  have calls : (s.threads t).awaits = none →
      Inv { s.setThread t (.calling ⟨access, 0, [], .sending⟩) with
        log := Function.update s.log t [] } := by
    intro idle
    have doing : (Function.update s.threads t (.calling ⟨access, 0, [], .sending⟩)) t =
        .calling ⟨access, 0, [], .sending⟩ := Function.update_self ..
    refine inv.act t rfl rfl ?_ idle ?_ ?_
    · intro other ne
      exact ⟨Function.update_of_ne ne .., Function.update_of_ne ne ..⟩
    · exact congrArg Activity.awaits doing
    · simp only [State.setThread]
      rw [doing]
      change Progress s.sticks access 0 [] (Function.update s.log t [] t)
      rw [Function.update_self]
      exact Progress.start s.sticks access
  simp only [step] at taken
  split at taken
  · simp at taken
  · rename_i resting
    obtain rfl := Option.some.inj taken
    refine calls ?_
    cases doing : s.threads t with
    | idle | returned => rfl
    | calling job => exact absurd doing (resting job)

/-- A step of a run in which no two threads wait for one stick. -/
theorem step_inv {a : Action τ} (inv : Inv s) (alone : Alone s a) (taken : step s a = some s') :
    Inv s' := by
  cases a with
  | call t access => exact inv.call taken
  | send t => exact inv.send alone taken
  | serve i => exact inv.serve taken
  | store i => exact inv.store taken
  | post i => exact inv.post taken
  | wait t => exact inv.wait taken
  | take t => exact inv.take taken
  | cpuWrite i localOffset writeSize data =>
      simp only [step] at taken
      split at taken
      · simp at taken
      · rename_i ms here
        split at taken
        · rename_i ok ms' answered
          obtain rfl := Option.some.inj taken
          refine ⟨inv.single, inv.free, fun t => ?_⟩
          exact (inv.consistent t).congr (sizes_set here answered) rfl fun _ _ => rfl
        · simp at taken

omit [DecidableEq τ] in
theorem initial_inv (sticks : List MemoryStick) : Inv (initial sticks : State τ) where
  single t t' request request' awaits := by cases awaits
  free i none := rfl
  consistent t := trivial

/-! ### Results -/

/-- While a thread waits, its stick, the handler of the stick or the thread can go on. -/
theorem Awaits.enabled {access : Access} {bytesDone : UInt32} {result : List UInt8} {woken : Bool}
    (calling : s.threads t = .calling ⟨access, bytesDone, result, .awaiting woken request⟩)
    (awaits : Awaits s t access bytesDone result request woken) :
    ∃ a ∈ [Action.serve request.stick, .store request.stick, .post request.stick, .wait t,
      .take t], (step s a).isSome := by
  obtain ⟨more, next, log, answer, progress, logged, stage⟩ := awaits
  generalize at_link : s.links request.stick = link at stage
  cases stage with
  | sent =>
      refine ⟨.serve request.stick, by simp, ?_⟩
      obtain ⟨same, -, bound, ms, here, within⟩ := access.nextRequest_within next more
      cases data : access.data with
      | none =>
          simp [step, at_link, here, Access.chunkData, data,
            MemoryStick.handleRead_inside within]
      | some bytes =>
          have length : (slice bytes request.bytesDone.toNat request.chunk.toNat).length =
              request.chunk.toNat := by
            refine length_slice ?_
            rw [access.length_data bytes data, same]
            exact bound
          obtain ⟨ms', handled, -⟩ := MemoryStick.handleWrite_inside within length
          simp [step, at_link, here, Access.chunkData, data, handled]
  | answered response answers =>
      refine ⟨.store request.stick, by simp, ?_⟩
      simp [step, at_link, Link.quiet]
  | stored response answers =>
      refine ⟨.post request.stick, by simp, ?_⟩
      simp [step, at_link]
  | posted response answers =>
      refine ⟨.wait t, by simp, ?_⟩
      simp [step, calling, Phase.awaiting, at_link]
  | woken response answers =>
      refine ⟨.take t, by simp, ?_⟩
      have answers : response.Answers request access.data :=
        Response.answers_chunkData.mp answers
      cases data : access.data with
      | none =>
          rw [data] at answers
          obtain ⟨bytes, rfl, length⟩ := answers
          simp [step, calling, Phase.awaiting, State.taken, data, at_link, Link.store, length]
      | some bytes =>
          rw [data] at answers
          obtain rfl : response = .write true := answers
          simp [step, calling, Phase.awaiting, State.taken, data, at_link, Link.store]

/-- In every run in which no thread sends a request to a stick for which another one waits, an
access that has returned has returned what the sticks answered to its own requests, and the
answer to a request is on its way to the thread that waits for it until the thread takes it;
so the thread, its stick or the handler can always go on. -/
theorem replies_matched {sticks : List MemoryStick} {as : List (Action τ)}
    (run : Run step Alone (initial sticks) as s) (t : τ) :
    (∀ access value, s.threads t = .returned access value →
      Matches s.sticks access (s.log t) value) ∧
    ∀ access bytesDone result request woken,
      s.threads t = .calling ⟨access, bytesDone, result, .awaiting woken request⟩ →
        Awaits s t access bytesDone result request woken ∧
          ∃ a ∈ [Action.serve request.stick, .store request.stick, .post request.stick, .wait t,
            .take t], (step s a).isSome := by
  have inv := run.invariant step_inv (initial_inv sticks)
  have consistent := inv.consistent t
  constructor
  · intro access value returned
    rw [returned] at consistent
    exact consistent
  · intro access bytesDone result request woken calling
    have awaits : Awaits s t access bytesDone result request woken := by
      rw [calling] at consistent
      cases woken <;> exact consistent
    exact ⟨awaits, awaits.enabled calling⟩

end Steps

/-! ### Two runs -/

variable [Fintype τ]

instance (s : State τ) : (a : Action τ) → Decidable (Alone s a)
  | .send _ => Option.decidableForallMem _
  | .call .. | .serve _ | .store _ | .post _ | .wait _ | .take _ | .cpuWrite .. => .isTrue trivial

/-- The answer to a request goes to the link and to the thread. -/
def served (t : Bool) : List (Action Bool) := [.serve 0, .store 0, .post 0, .wait t, .take t]

/-- A stick of two bytes. -/
def stick : MemoryStick := ⟨0, 2, [7, 9], rfl⟩

def readByte (physicalAddress : UInt32) : Access := ⟨physicalAddress, 1, none, by simp⟩

def writeByte (physicalAddress : UInt32) : Access :=
  ⟨physicalAddress, 1, some [5], by rintro bytes ⟨⟩; rfl⟩

/-- Two threads access the stick in turns. -/
theorem replies_matched_of_turns :
    ∃ s : State Bool, s.threads false = .returned (readByte 0) (.read (some [7])) ∧
      Matches s.sticks (readByte 0) (s.log false) (.read (some [7])) := by
  obtain ⟨s, run, test⟩ := Run.exists_of_exec step Alone
    ([.call false (readByte 0), .call true (writeByte 0), .send false] ++ served false ++
      [.send true] ++ served true ++ [.send false, .send true]) (initial [stick])
    (fun s => decide (s.threads false = .returned (readByte 0) (.read (some [7])))) (by decide)
  have returned := of_decide_eq_true test
  exact ⟨s, returned, (replies_matched run false).1 _ _ returned⟩

/-- Two threads read from the stick at the same time: the answer to the first is overwritten
by the answer to the second, which the first takes. The second has been answered too, finds no
buffer, and the program dies with it. -/
theorem reply_taken :
    ∃ as s, Run step (fun _ _ => True) (initial [stick] : State Bool) as s ∧
      s.log false = [(⟨0, 0, 1, 0⟩, .read [7])] ∧ s.log true = [(⟨0, 1, 1, 0⟩, .read [9])] ∧
        s.threads false = .returned (readByte 0) (.read (some [9])) ∧
          s.threads true = .calling ⟨readByte 1, 0, [], .taking ⟨0, 1, 1, 0⟩⟩ ∧
            (s.links 0).lastReadBuffer = none ∧ (step s (.take true)).isNone := by
  obtain ⟨s, run, test⟩ := Run.exists_of_exec step (fun _ _ => True)
    [.call false (readByte 0), .call true (readByte 1), .send false, .send true, .serve 0,
      .serve 0, .store 0, .post 0, .store 0, .post 0, .wait false, .take false, .wait true,
      .send false] (initial [stick] : State Bool)
    (fun s => decide (s.log false = [(⟨0, 0, 1, 0⟩, .read [7])] ∧
      s.log true = [(⟨0, 1, 1, 0⟩, .read [9])] ∧
        s.threads false = .returned (readByte 0) (.read (some [9])) ∧
          s.threads true = .calling ⟨readByte 1, 0, [], .taking ⟨0, 1, 1, 0⟩⟩ ∧
            (s.links 0).lastReadBuffer = none ∧ (step s (.take true)).isNone)) (by decide)
  exact ⟨_, s, run, of_decide_eq_true test⟩

end OsModel.KernelMemory.Replies
