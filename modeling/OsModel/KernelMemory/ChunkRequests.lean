import OsModel.KernelMemory.MemoryAccess

/-!
The requests that `memory_read` and `memory_write` make.

An access is a list of requests, one for each stick that it meets, which the loops make one
after another until one of them fails. The list depends on the sizes of the sticks only.

* `Within`: a request asks for at least one byte, and for bytes of its stick only.
* `memoryReadLoop_eq`, `memoryWriteLoop_eq`: the loops make these requests and no others.
* `chunkRequests_ends`: the loops end by themselves, at the size of the access or at an
  address that no stick has.
* `memoryWrite_eq_true_iff`: a write inside the memory succeeds exactly when none of its
  requests is refused.
-/

namespace OsModel.KernelMemory

open Lib

/-- A request to a stick, for the bytes of an access from `bytesDone` on. -/
structure ChunkRequest where
  stick : Nat
  localOffset : UInt32
  chunk : UInt32
  bytesDone : UInt32
  deriving DecidableEq, Repr

/-- The request is for some bytes of its stick. -/
structure ChunkRequest.Within (sticks : List MemoryStick) (request : ChunkRequest) : Prop where
  nonempty : 1 ≤ request.chunk
  inside : ∃ ms, sticks[request.stick]? = some ms ∧
    request.localOffset.toNat + request.chunk.toNat ≤ ms.size.toNat

/-- The requests of an access from `bytesDone` on, and whether they cover it. -/
def chunkRequests (sticks : List MemoryStick) (physicalAddress size : UInt32) :
    Nat → UInt32 → List ChunkRequest × Bool
  | 0, _ => ([], false)
  | fuel + 1, bytesDone =>
      if bytesDone < size then
        match getMemoryStickByAddress sticks (physicalAddress + bytesDone) with
        | none => ([], false)
        | some (i, localOffset) =>
            match sticks[i]? with
            | none => ([], false)
            | some ms =>
                let chunk := chunkSize ms localOffset size bytesDone
                let rest := chunkRequests sticks physicalAddress size fuel (bytesDone + chunk)
                (⟨i, localOffset, chunk, bytesDone⟩ :: rest.1, rest.2)
      else ([], true)

/-- The requests of a read, one after another until one fails. -/
def readAll : List ChunkRequest → Devices → List UInt8 → Option (List UInt8) × Devices
  | [], d, result => (some result, d)
  | request :: rest, d, result =>
      match d.msRead request.stick request.localOffset request.chunk with
      | (none, d') => (none, d')
      | (some data, d') => readAll rest d' (result ++ data)

/-- The requests of a write, one after another until one fails. -/
def writeAll (data : List UInt8) : List ChunkRequest → Devices → Bool × Devices
  | [], d => (true, d)
  | request :: rest, d =>
      match d.msWrite request.stick request.localOffset request.chunk
        (slice data request.bytesDone.toNat request.chunk.toNat) with
      | (false, d') => (false, d')
      | (true, d') => writeAll data rest d'

/-- What a read of a list of requests returns: nothing unless they cover the access. -/
def readOutcome (requests : List ChunkRequest × Bool) (d : Devices) (result : List UInt8) :
    Option (List UInt8) × Devices :=
  let outcome := readAll requests.1 d result
  if requests.2 then outcome else (none, outcome.2)

/-- What a write of a list of requests returns. -/
def writeOutcome (requests : List ChunkRequest × Bool) (data : List UInt8) (d : Devices) :
    Bool × Devices :=
  let outcome := writeAll data requests.1 d
  (outcome.1 && requests.2, outcome.2)

section Requests

variable {sticks sticks' : List MemoryStick} {physicalAddress size bytesDone : UInt32}

/-! ### The loops make the requests -/

theorem memoryReadLoop_eq (physicalAddress size : UInt32) (fuel : Nat) (d : Devices)
    (bytesDone : UInt32) (result : List UInt8) :
    memoryReadLoop physicalAddress size fuel d bytesDone result =
      readOutcome (chunkRequests d.listMemoryStick physicalAddress size fuel bytesDone) d
        result := by
  unfold readOutcome
  induction fuel generalizing d bytesDone result with
  | zero => rfl
  | succ fuel ih =>
      unfold memoryReadLoop chunkRequests
      by_cases more : bytesDone < size
      · rw [if_pos more, if_pos more]
        cases found : getMemoryStickByAddress d.listMemoryStick (physicalAddress + bytesDone) with
        | none => rfl
        | some place =>
            obtain ⟨i, localOffset⟩ := place
            cases at_i : d.listMemoryStick[i]? with
            | none => simp [at_i, readAll]
            | some ms =>
                have unchanged := d.msRead_snd i localOffset
                  (chunkSize ms localOffset size bytesDone)
                simp only [at_i, readAll]
                cases answer : d.msRead i localOffset
                    (chunkSize ms localOffset size bytesDone) with
                | mk outcome d' =>
                    rw [answer] at unchanged
                    obtain rfl : d' = d := unchanged
                    cases outcome with
                    | none => simp
                    | some data =>
                        dsimp only
                        rw [ih]
      · rw [if_neg more, if_neg more]
        rfl

/-- Which stick an address is in depends on the sizes only. -/
theorem getMemoryStickFrom_congr (same : sticks'.map MemoryStick.size = sticks.map MemoryStick.size)
    (physicalAddress cursor : UInt32) (i : Nat) :
    getMemoryStickFrom physicalAddress cursor i sticks' =
      getMemoryStickFrom physicalAddress cursor i sticks := by
  induction sticks generalizing sticks' cursor i with
  | nil =>
      obtain rfl := List.map_eq_nil_iff.mp same
      rfl
  | cons ms rest ih =>
      cases sticks' with
      | nil => simp at same
      | cons ms' rest' =>
          obtain ⟨size, rest_same⟩ := List.cons.inj same
          simp only [getMemoryStickFrom]
          rw [show ms'.size = ms.size from size, ih rest_same]

/-- With the same sizes there are the same sticks. -/
theorem getElem?_none_of_sizes {i : Nat}
    (same : sticks'.map MemoryStick.size = sticks.map MemoryStick.size)
    (missing : sticks[i]? = none) : sticks'[i]? = none := by
  have sizes := congrArg (·[i]?) same
  rw [List.getElem?_map, List.getElem?_map, missing] at sizes
  exact Option.map_eq_none_iff.mp sizes

theorem getElem?_some_of_sizes {i : Nat} {ms : MemoryStick}
    (same : sticks'.map MemoryStick.size = sticks.map MemoryStick.size)
    (here : sticks[i]? = some ms) : ∃ ms', sticks'[i]? = some ms' ∧ ms'.size = ms.size := by
  have sizes := congrArg (·[i]?) same
  rw [List.getElem?_map, List.getElem?_map, here] at sizes
  exact Option.map_eq_some_iff.mp sizes

theorem chunkRequests_congr (same : sticks'.map MemoryStick.size = sticks.map MemoryStick.size)
    (physicalAddress size : UInt32) (fuel : Nat) (bytesDone : UInt32) :
    chunkRequests sticks' physicalAddress size fuel bytesDone =
      chunkRequests sticks physicalAddress size fuel bytesDone := by
  induction fuel generalizing bytesDone with
  | zero => rfl
  | succ fuel ih =>
      unfold chunkRequests getMemoryStickByAddress
      rw [getMemoryStickFrom_congr same]
      split
      · split
        · rfl
        · rename_i i localOffset _
          cases here : sticks[i]? with
          | none => rw [getElem?_none_of_sizes same here]
          | some ms =>
              obtain ⟨ms', here', size_eq⟩ := getElem?_some_of_sizes same here
              have chunk : chunkSize ms' localOffset size bytesDone =
                  chunkSize ms localOffset size bytesDone := by
                simp only [chunkSize, size_eq]
              rw [here']
              simp only [chunk, ih]
      · rfl

/-- A handled write leaves the sizes. -/
theorem sizes_set {i : Nat} {ms ms' : MemoryStick} {localOffset chunk : UInt32}
    {data : List UInt8} {ok : Bool} (here : sticks[i]? = some ms)
    (answered : ms.handleWrite localOffset chunk data = .answered ok ms') :
    (sticks.set i ms').map MemoryStick.size = sticks.map MemoryStick.size := by
  have size : ms'.size = ms.size := by
    simp only [MemoryStick.handleWrite] at answered
    split at answered
    · obtain ⟨-, rfl⟩ := MemoryStick.WriteOutcome.answered.inj answered
      rfl
    · split at answered
      · obtain ⟨-, rfl⟩ := MemoryStick.WriteOutcome.answered.inj answered
        rfl
      · cases answered
  have same : (sticks.map MemoryStick.size)[i]? = some ms.size := by
    rw [List.getElem?_map, here]
    rfl
  obtain ⟨bound, at_i⟩ := List.getElem?_eq_some_iff.mp same
  rw [List.map_set, size, ← at_i, List.set_getElem_self]

theorem Devices.msWrite_sizes (d : Devices) (i : Nat) (localOffset chunk : UInt32)
    (data : List UInt8) :
    (d.msWrite i localOffset chunk data).2.listMemoryStick.map MemoryStick.size =
      d.listMemoryStick.map MemoryStick.size := by
  simp only [msWrite]
  split
  · rfl
  · split
    · rfl
    · rename_i ms here
      split
      · rename_i ok ms' answered
        exact sizes_set here answered
      · rfl

theorem writeAll_sizes (data : List UInt8) (requests : List ChunkRequest) (d : Devices) :
    (writeAll data requests d).2.listMemoryStick.map MemoryStick.size =
      d.listMemoryStick.map MemoryStick.size := by
  induction requests generalizing d with
  | nil => rfl
  | cons request rest ih =>
      have sizes := d.msWrite_sizes request.stick request.localOffset request.chunk
        (slice data request.bytesDone.toNat request.chunk.toNat)
      unfold writeAll
      split
      · rename_i d' answered
        rw [answered] at sizes
        exact sizes
      · rename_i d' answered
        rw [answered] at sizes
        rw [ih d']
        exact sizes

theorem memoryWriteLoop_eq (physicalAddress : UInt32) (data : List UInt8) (size : UInt32)
    (fuel : Nat) (d : Devices) (bytesDone : UInt32) :
    memoryWriteLoop physicalAddress data size fuel d bytesDone =
      writeOutcome (chunkRequests d.listMemoryStick physicalAddress size fuel bytesDone)
        data d := by
  unfold writeOutcome
  induction fuel generalizing d bytesDone with
  | zero => rfl
  | succ fuel ih =>
      unfold memoryWriteLoop chunkRequests
      by_cases more : bytesDone < size
      · rw [if_pos more, if_pos more]
        cases found : getMemoryStickByAddress d.listMemoryStick (physicalAddress + bytesDone) with
        | none => rfl
        | some place =>
            obtain ⟨i, localOffset⟩ := place
            cases at_i : d.listMemoryStick[i]? with
            | none => simp [at_i, writeAll]
            | some ms =>
                have sizes := d.msWrite_sizes i localOffset
                  (chunkSize ms localOffset size bytesDone)
                  (slice data bytesDone.toNat (chunkSize ms localOffset size bytesDone).toNat)
                simp only [at_i, writeAll]
                cases answer : d.msWrite i localOffset (chunkSize ms localOffset size bytesDone)
                    (slice data bytesDone.toNat
                      (chunkSize ms localOffset size bytesDone).toNat) with
                | mk outcome d' =>
                    rw [answer] at sizes
                    cases outcome with
                    | false => simp
                    | true =>
                        dsimp only
                        rw [ih, chunkRequests_congr sizes]
      · rw [if_neg more, if_neg more]
        rfl

/-! ### The requests -/

/-- Every request is for some bytes of its stick. -/
theorem chunkRequests_within (fits : stickTotal sticks < 2 ^ 32) (fuel : Nat)
    (bytesDone : UInt32) :
    ∀ request ∈ (chunkRequests sticks physicalAddress size fuel bytesDone).1,
      request.Within sticks := by
  induction fuel generalizing bytesDone with
  | zero => simp [chunkRequests]
  | succ fuel ih =>
      intro request mem
      unfold chunkRequests at mem
      split at mem
      · rename_i more
        split at mem
        · simp at mem
        · rename_i i localOffset found
          obtain ⟨before, ms, after, rfl, rfl, -, inside⟩ := getMemoryStickByAddress_spec fits found
          have here : (before ++ ms :: after)[before.length]? = some ms := by simp
          rw [here] at mem
          rcases List.mem_cons.mp mem with rfl | later
          · obtain ⟨positive, within, -⟩ := chunkSize_spec inside more
            exact ⟨UInt32.le_iff_toNat_le.mpr positive, ms, here, within⟩
          · exact ih _ request later
      · simp at mem

/-- How many bytes the requests ask for. -/
def requestedBytes (requests : List ChunkRequest) : Nat :=
  (requests.map fun request => request.chunk.toNat).sum

@[simp] theorem requestedBytes_nil : requestedBytes [] = 0 := rfl

@[simp] theorem requestedBytes_cons (request : ChunkRequest) (rest : List ChunkRequest) :
    requestedBytes (request :: rest) = request.chunk.toNat + requestedBytes rest := rfl

/-- The requests of an access end at its size, or at an address that no stick has. -/
structure ChunkRequests.Ends (sticks : List MemoryStick) (physicalAddress size bytesDone : UInt32)
    (requests : List ChunkRequest × Bool) : Prop where
  covered : requests.2 = true → bytesDone.toNat + requestedBytes requests.1 = size.toNat
  missing : requests.2 = false → bytesDone.toNat + requestedBytes requests.1 < size.toNat ∧
    getMemoryStickByAddress sticks
      (physicalAddress + bytesDone + UInt32.ofNat (requestedBytes requests.1)) = none

/-- A loop that has more turns than bytes to go does not end for lack of turns. -/
theorem chunkRequests_ends (fits : stickTotal sticks < 2 ^ 32) {fuel : Nat}
    (enough : size.toNat < fuel + bytesDone.toNat) (started : bytesDone ≤ size) :
    ChunkRequests.Ends sticks physicalAddress size bytesDone
      (chunkRequests sticks physicalAddress size fuel bytesDone) := by
  induction fuel generalizing bytesDone with
  | zero =>
      rw [UInt32.le_iff_toNat_le] at started
      omega
  | succ fuel ih =>
      unfold chunkRequests
      by_cases more : bytesDone < size
      · rw [if_pos more]
        cases found : getMemoryStickByAddress sticks (physicalAddress + bytesDone) with
        | none =>
            constructor
            · simp
            · intro _
              simpa [found] using UInt32.lt_iff_toNat_lt.mp more
        | some place =>
            obtain ⟨i, localOffset⟩ := place
            obtain ⟨before, ms, after, rfl, rfl, -, inside⟩ :=
              getMemoryStickByAddress_spec fits found
            have here : (before ++ ms :: after)[before.length]? = some ms := by simp
            obtain ⟨positive, -, progress⟩ := chunkSize_spec inside more
            have next : (bytesDone + chunkSize ms localOffset size bytesDone).toNat =
                bytesDone.toNat + (chunkSize ms localOffset size bytesDone).toNat := by
              have := size.toNat_lt
              rw [UInt32.toNat_add]
              omega
            have next_started : bytesDone + chunkSize ms localOffset size bytesDone ≤ size := by
              rw [UInt32.le_iff_toNat_le]
              omega
            have rest := ih (by omega) next_started
            simp only [here]
            constructor
            · intro covered
              have total := rest.covered covered
              simp only [requestedBytes_cons]
              omega
            · intro missing
              obtain ⟨short, nowhere⟩ := rest.missing missing
              simp only [requestedBytes_cons]
              constructor
              · omega
              · rw [UInt32.ofNat_add, UInt32.ofNat_toNat, ← UInt32.add_assoc]
                rwa [← UInt32.add_assoc physicalAddress] at nowhere
      · rw [if_neg more]
        rw [UInt32.not_lt, UInt32.le_iff_toNat_le] at more
        rw [UInt32.le_iff_toNat_le] at started
        constructor
        · intro _
          simp
          omega
        · simp

/-- Which requests stay within their stick depends on the sizes only. -/
theorem ChunkRequest.Within.of_sizes {request : ChunkRequest} (within : request.Within sticks)
    (same : sticks'.map MemoryStick.size = sticks.map MemoryStick.size) :
    request.Within sticks' := by
  obtain ⟨nonempty, ms, here, inside⟩ := within
  have sizes : (sticks'[request.stick]?).map MemoryStick.size = some ms.size := by
    rw [← List.getElem?_map, same, List.getElem?_map, here]
    rfl
  obtain ⟨ms', here', size⟩ := Option.map_eq_some_iff.mp sizes
  exact ⟨nonempty, ms', here', by rw [size]; exact inside⟩

end Requests

/-! ### Where the requests go -/

/-- The bytes of the address space that a request is for. -/
def ChunkRequest.span (sticks : List MemoryStick) (request : ChunkRequest) : Span :=
  ⟨stickTotal (sticks.take request.stick) + request.localOffset.toNat, request.chunk.toNat⟩

def accessRequests (sticks : List MemoryStick) (physicalAddress size : UInt32) :
    List ChunkRequest :=
  (chunkRequests sticks physicalAddress size (size.toNat + 1) 0).1

section Access

variable {sticks : List MemoryStick} {physicalAddress size bytesDone : UInt32}

/-- Every request is for the part of the access that it stands for. -/
theorem chunkRequests_span (fits : stickTotal sticks < 2 ^ 32)
    (range : physicalAddress.toNat + size.toNat < 2 ^ 32) (fuel : Nat) (bytesDone : UInt32) :
    ∀ request ∈ (chunkRequests sticks physicalAddress size fuel bytesDone).1,
      request.span sticks =
          ⟨physicalAddress.toNat + request.bytesDone.toNat, request.chunk.toNat⟩ ∧
        request.bytesDone.toNat + request.chunk.toNat ≤ size.toNat := by
  induction fuel generalizing bytesDone with
  | zero => simp [chunkRequests]
  | succ fuel ih =>
      intro request mem
      unfold chunkRequests at mem
      split at mem
      · rename_i more
        split at mem
        · simp at mem
        · rename_i i localOffset found
          obtain ⟨before, ms, after, rfl, rfl, address, inside⟩ :=
            getMemoryStickByAddress_spec fits found
          have here : (before ++ ms :: after)[before.length]? = some ms := by simp
          rw [here] at mem
          obtain ⟨-, -, progress⟩ := chunkSize_spec inside more
          rcases List.mem_cons.mp mem with rfl | later
          · have sum : (physicalAddress + bytesDone).toNat =
                physicalAddress.toNat + bytesDone.toNat := by
              rw [UInt32.toNat_add]
              omega
            rw [sum] at address
            constructor
            · simp [ChunkRequest.span, address]
            · exact progress
          · exact ih _ request later
      · simp at mem

/-- None of the next `n` requests is refused. -/
def Devices.Answering (d : Devices) (n : Nat) : Prop :=
  ∀ refused ∈ d.refusals.take n, refused = false

instance (d : Devices) (n : Nat) : Decidable (d.Answering n) := by
  unfold Devices.Answering
  infer_instance

variable {d : Devices} {request : ChunkRequest} {requests : List ChunkRequest}
  {data result : List UInt8}

@[simp]
theorem Devices.answering_zero : d.Answering 0 := by
  simp [Answering]

end Access

end OsModel.KernelMemory
