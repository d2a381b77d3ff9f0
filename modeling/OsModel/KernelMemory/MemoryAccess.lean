import OsModel.KernelMemory.State

/-!
`memory_read` and `memory_write` (`kernel_memory/src/memory_manage.c`): a
request for a range of the address space is split into one chunk request per
stick it meets.

The sticks refine one flat array. `memoryRead_spec` and `memoryWrite_spec` say
so for every stick list, address and size: a read that returns data returns the
slice, a write that returns `true` stores the data at the address, and a write
that fails half way has changed nothing outside the range.

Requests and answers get through here, whatever their size. For which chunks they
do, and that an access with others does not return, is said in
`StickAccesses.memoryRead_eq` and `StickAccesses.memoryWrite_eq`.
-/

namespace OsModel.KernelMemory

open Lib

/-- The loop of `get_memory_stick_by_address` over the sticks from position `i`
on; `cursor` is the address where stick `i` starts. -/
def getMemoryStickFrom (physicalAddress cursor : UInt32) (i : Nat) :
    List MemoryStick → Option (Nat × UInt32)
  | [] => none
  | ms :: rest =>
      if physicalAddress < cursor + ms.size then some (i, physicalAddress - cursor)
      else getMemoryStickFrom physicalAddress (cursor + ms.size) (i + 1) rest

/-- `get_memory_stick_by_address`: the position of the stick and the offset
within it. -/
def getMemoryStickByAddress (sticks : List MemoryStick) (physicalAddress : UInt32) :
    Option (Nat × UInt32) :=
  getMemoryStickFrom physicalAddress 0 0 sticks

namespace Devices

/-- Whether the next request fails, and the devices after it. -/
def takeRefusal (d : Devices) : Bool × Devices :=
  (d.refusals.headD false, { d with refusals := d.refusals.tail })

/-- One `MS_READ` request and the wait for its answer. No stick refuses to read
bytes that it has. A request outside the stick would wait forever; `memory_read`
never makes one (`getMemoryStickByAddress_spec`). -/
def msRead (d : Devices) (i : Nat) (localOffset chunk : UInt32) : Option (List UInt8) × Devices :=
  match d.listMemoryStick[i]? with
  | none => (none, d)
  | some ms =>
      match ms.handleRead localOffset chunk with
      | .answered data => (some data, d)
      | .unanswered | .overrun => (none, d)

/-- One `MS_WRITE` request and the wait for its answer. -/
def msWrite (d : Devices) (i : Nat) (localOffset chunk : UInt32) (data : List UInt8) :
    Bool × Devices :=
  let (refused, d') := d.takeRefusal
  if refused then (false, d')
  else
    match d.listMemoryStick[i]? with
    | none => (false, d')
    | some ms =>
        match ms.handleWrite localOffset chunk data with
        | .answered ok ms' => (ok, { d' with listMemoryStick := d.listMemoryStick.set i ms' })
        | .overrun => (false, d')

end Devices

/-- The chunk of an access that the stick at hand can serve. -/
def chunkSize (ms : MemoryStick) (localOffset size bytesDone : UInt32) : UInt32 :=
  let availableInStick := ms.size - localOffset
  let remaining := size - bytesDone
  if remaining < availableInStick then remaining else availableInStick

/-- The loop of `memory_read`; `fuel` bounds its iterations. -/
def memoryReadLoop (physicalAddress size : UInt32) :
    Nat → Devices → UInt32 → List UInt8 → Option (List UInt8) × Devices
  | 0, d, _, _ => (none, d)
  | fuel + 1, d, bytesDone, result =>
      if bytesDone < size then
        match getMemoryStickByAddress d.listMemoryStick (physicalAddress + bytesDone) with
        | none => (none, d)
        | some (i, localOffset) =>
            match d.listMemoryStick[i]? with
            | none => (none, d)
            | some ms =>
                let chunk := chunkSize ms localOffset size bytesDone
                match d.msRead i localOffset chunk with
                | (none, d') => (none, d')
                | (some data, d') =>
                    memoryReadLoop physicalAddress size fuel d' (bytesDone + chunk)
                      (result ++ data)
      else (some result, d)

/-- `memory_read`: `none` is `NULL`. -/
def memoryRead (d : Devices) (physicalAddress size : UInt32) : Option (List UInt8) × Devices :=
  memoryReadLoop physicalAddress size (size.toNat + 1) d 0 []

def memoryWriteLoop (physicalAddress : UInt32) (data : List UInt8) (size : UInt32) :
    Nat → Devices → UInt32 → Bool × Devices
  | 0, d, _ => (false, d)
  | fuel + 1, d, bytesDone =>
      if bytesDone < size then
        match getMemoryStickByAddress d.listMemoryStick (physicalAddress + bytesDone) with
        | none => (false, d)
        | some (i, localOffset) =>
            match d.listMemoryStick[i]? with
            | none => (false, d)
            | some ms =>
                let chunk := chunkSize ms localOffset size bytesDone
                match d.msWrite i localOffset chunk (slice data bytesDone.toNat chunk.toNat) with
                | (false, d') => (false, d')
                | (true, d') =>
                    memoryWriteLoop physicalAddress data size fuel d' (bytesDone + chunk)
      else (true, d)

def memoryWrite (d : Devices) (physicalAddress : UInt32) (data : List UInt8) (size : UInt32) :
    Bool × Devices :=
  memoryWriteLoop physicalAddress data size (size.toNat + 1) d 0

/-! ### Translation -/

theorem getMemoryStickFrom_some {sticks : List MemoryStick} {physicalAddress cursor : UInt32}
    {i j : Nat} {localOffset : UInt32} (fits : cursor.toNat + stickTotal sticks < 2 ^ 32)
    (reached : cursor ≤ physicalAddress)
    (found : getMemoryStickFrom physicalAddress cursor i sticks = some (j, localOffset)) :
    ∃ before ms after, sticks = before ++ ms :: after ∧ j = i + before.length ∧
      physicalAddress.toNat = cursor.toNat + stickTotal before + localOffset.toNat ∧
      localOffset < ms.size := by
  induction sticks generalizing cursor i with
  | nil => simp [getMemoryStickFrom] at found
  | cons ms rest ih =>
      rw [stickTotal_cons] at fits
      have next : (cursor + ms.size).toNat = cursor.toNat + ms.size.toNat := by
        rw [UInt32.toNat_add]
        omega
      unfold getMemoryStickFrom at found
      split at found
      · rename_i here
        obtain ⟨rfl, rfl⟩ := Prod.mk.inj (Option.some.inj found)
        rw [UInt32.lt_iff_toNat_lt, next] at here
        rw [UInt32.le_iff_toNat_le] at reached
        have sub := UInt32.toNat_sub_of_le _ _ (UInt32.le_iff_toNat_le.mpr reached)
        refine ⟨[], ms, rest, rfl, by simp, ?_, ?_⟩
        · simp [stickTotal, sub]
          omega
        · rw [UInt32.lt_iff_toNat_lt, sub]
          omega
      · rename_i later
        rw [UInt32.not_lt] at later
        obtain ⟨before, ms', after, rfl, rfl, address, inside⟩ := ih (by omega) later found
        refine ⟨ms :: before, ms', after, rfl, by simp; omega, ?_, inside⟩
        rw [stickTotal_cons]
        omega

/-- Which addresses translate. -/
theorem getMemoryStickFrom_none {sticks : List MemoryStick} {physicalAddress cursor : UInt32}
    {i : Nat} (fits : cursor.toNat + stickTotal sticks < 2 ^ 32)
    (reached : cursor ≤ physicalAddress) :
    getMemoryStickFrom physicalAddress cursor i sticks = none ↔
      cursor.toNat + stickTotal sticks ≤ physicalAddress.toNat := by
  induction sticks generalizing cursor i with
  | nil => simpa [getMemoryStickFrom, stickTotal] using UInt32.le_iff_toNat_le.mp reached
  | cons ms rest ih =>
      rw [stickTotal_cons] at fits ⊢
      have next : (cursor + ms.size).toNat = cursor.toNat + ms.size.toNat := by
        rw [UInt32.toNat_add]
        omega
      unfold getMemoryStickFrom
      split
      · rename_i here
        rw [UInt32.lt_iff_toNat_lt, next] at here
        simp
        omega
      · rename_i later
        rw [UInt32.not_lt] at later
        rw [ih (by omega) later, next]
        omega

/-- A translated address lies in the stick it names, at the local offset. -/
theorem getMemoryStickByAddress_spec {sticks : List MemoryStick} {physicalAddress : UInt32}
    {i : Nat} {localOffset : UInt32} (fits : stickTotal sticks < 2 ^ 32)
    (found : getMemoryStickByAddress sticks physicalAddress = some (i, localOffset)) :
    ∃ before ms after, sticks = before ++ ms :: after ∧ i = before.length ∧
      physicalAddress.toNat = stickTotal before + localOffset.toNat ∧ localOffset < ms.size := by
  obtain ⟨before, ms, after, rfl, rfl, address, inside⟩ :=
    getMemoryStickFrom_some (by simpa using fits) (by simp) found
  exact ⟨before, ms, after, rfl, by simp, by simpa using address, inside⟩

theorem getMemoryStickByAddress_eq_none {sticks : List MemoryStick} {physicalAddress : UInt32}
    (fits : stickTotal sticks < 2 ^ 32) :
    getMemoryStickByAddress sticks physicalAddress = none ↔
      stickTotal sticks ≤ physicalAddress.toNat := by
  have translated : getMemoryStickFrom physicalAddress 0 0 sticks = none ↔
      (0 : UInt32).toNat + stickTotal sticks ≤ physicalAddress.toNat :=
    getMemoryStickFrom_none (by simpa using fits) (by simp)
  simpa [getMemoryStickByAddress] using translated

/-- The chunk is what is left of the access or of the stick, and never empty. -/
theorem chunkSize_spec {ms : MemoryStick} {localOffset size bytesDone : UInt32}
    (inside : localOffset < ms.size) (more : bytesDone < size) :
    0 < (chunkSize ms localOffset size bytesDone).toNat ∧
      localOffset.toNat + (chunkSize ms localOffset size bytesDone).toNat ≤ ms.size.toNat ∧
      bytesDone.toNat + (chunkSize ms localOffset size bytesDone).toNat ≤ size.toNat := by
  rw [UInt32.lt_iff_toNat_lt] at inside more
  have available := UInt32.toNat_sub_of_le ms.size localOffset
    (UInt32.le_iff_toNat_le.mpr inside.le)
  have remaining := UInt32.toNat_sub_of_le size bytesDone (UInt32.le_iff_toNat_le.mpr more.le)
  simp only [chunkSize]
  split
  · rename_i lt
    rw [UInt32.lt_iff_toNat_lt] at lt
    omega
  · rename_i ge
    rw [UInt32.not_lt, UInt32.le_iff_toNat_le] at ge
    omega

/-! ### One chunk -/

/-- The devices after some requests that changed no data. -/
def Devices.Advanced (d d' : Devices) : Prop :=
  ∃ k, d' = { d with refusals := d.refusals.drop k }

namespace Devices.Advanced

theorem refl (d : Devices) : d.Advanced d := ⟨0, by simp⟩

theorem trans {d d' d'' : Devices} (h : d.Advanced d') (h' : d'.Advanced d'') :
    d.Advanced d'' := by
  obtain ⟨k, rfl⟩ := h
  obtain ⟨k', rfl⟩ := h'
  exact ⟨k + k', by simp [List.drop_drop]⟩

theorem sticks_eq {d d' : Devices} (h : d.Advanced d') :
    d'.listMemoryStick = d.listMemoryStick := by
  obtain ⟨k, rfl⟩ := h
  rfl

theorem swapFile_eq {d d' : Devices} (h : d.Advanced d') : d'.swapFile = d.swapFile := by
  obtain ⟨k, rfl⟩ := h
  rfl

end Devices.Advanced

/-- The devices after some writes to the sticks inside `[i, i + n)`. -/
structure Devices.Wrote (i n : Nat) (d d' : Devices) : Prop where
  bytes : SameOutside i n (flat d.listMemoryStick) (flat d'.listMemoryStick)
  rest : ∃ k sticks, d' = { d with refusals := d.refusals.drop k, listMemoryStick := sticks }

namespace Devices.Wrote

theorem refl (i n : Nat) (d : Devices) : Wrote i n d d :=
  ⟨.refl .., 0, d.listMemoryStick, by simp⟩

theorem trans {i n : Nat} {d d' d'' : Devices} (h : Wrote i n d d') (h' : Wrote i n d' d'') :
    Wrote i n d d'' := by
  obtain ⟨bytes, k, sticks, rfl⟩ := h
  obtain ⟨bytes', k', sticks', rfl⟩ := h'
  exact ⟨bytes.trans bytes', k + k', sticks', by simp [List.drop_drop]⟩

theorem widen {i n i' n' : Nat} {d d' : Devices} (h : Wrote i n d d') (low : i' ≤ i)
    (high : i + n ≤ i' + n') : Wrote i' n' d d' :=
  ⟨h.bytes.widen low high, h.rest⟩

theorem of_advanced {i n : Nat} {d d' : Devices} (h : d.Advanced d') : Wrote i n d d' := by
  obtain ⟨k, rfl⟩ := h
  exact ⟨.refl .., k, d.listMemoryStick, rfl⟩

theorem stickTotal_eq {i n : Nat} {d d' : Devices} (h : Wrote i n d d') :
    stickTotal d'.listMemoryStick = stickTotal d.listMemoryStick := by
  rw [← length_flat, ← length_flat, h.bytes.length_eq]

theorem swapFile_eq {i n : Nat} {d d' : Devices} (h : Wrote i n d d') :
    d'.swapFile = d.swapFile := by
  obtain ⟨-, k, sticks, rfl⟩ := h
  rfl

theorem refusals_nil {i n : Nat} {d d' : Devices} (h : Wrote i n d d')
    (none : d.refusals = []) : d'.refusals = [] := by
  obtain ⟨-, k, sticks, rfl⟩ := h
  simp [none]

end Devices.Wrote

theorem Devices.Advanced.refusals_nil {d d' : Devices} (h : d.Advanced d')
    (none : d.refusals = []) : d'.refusals = [] := by
  obtain ⟨k, rfl⟩ := h
  simp [none]

theorem Devices.takeRefusal_advanced (d : Devices) : d.Advanced d.takeRefusal.2 :=
  ⟨1, by simp [Devices.takeRefusal]⟩

section Chunk

variable {d : Devices} {before after : List MemoryStick} {ms : MemoryStick}
  {localOffset chunk : UInt32}

/-- Reading changes nothing. -/
theorem Devices.msRead_snd (d : Devices) (i : Nat) (localOffset chunk : UInt32) :
    (d.msRead i localOffset chunk).2 = d := by
  unfold msRead
  split
  · rfl
  · split <;> rfl

/-- A chunk read inside a stick is a slice of the address space. -/
theorem Devices.msRead_spec (sticks : d.listMemoryStick = before ++ ms :: after)
    (inside : localOffset.toNat + chunk.toNat ≤ ms.size.toNat) :
    d.msRead before.length localOffset chunk =
      (some (slice (flat d.listMemoryStick) (stickTotal before + localOffset.toNat)
        chunk.toNat), d) := by
  have found : d.listMemoryStick[before.length]? = some ms := by simp [sticks]
  have piece : slice ms.memory localOffset.toNat chunk.toNat =
      slice (flat d.listMemoryStick) (stickTotal before + localOffset.toNat) chunk.toNat := by
    rw [sticks, flat_append, slice_append_right (by rw [length_flat]; omega), length_flat,
      Nat.add_sub_cancel_left, flat_cons, slice_append_left (by rw [ms.length_memory]; exact inside)]
  simp only [msRead, found, MemoryStick.handleRead_inside inside, piece]

/-- A chunk write inside a stick stores the data in the address space. -/
theorem Devices.msWrite_spec {data : List UInt8}
    (sticks : d.listMemoryStick = before ++ ms :: after)
    (inside : localOffset.toNat + chunk.toNat ≤ ms.size.toNat)
    (exact_size : data.length = chunk.toNat) :
    Wrote (stickTotal before + localOffset.toNat) chunk.toNat d
        (d.msWrite before.length localOffset chunk data).2 ∧
      ((d.msWrite before.length localOffset chunk data).1 = true →
        flat (d.msWrite before.length localOffset chunk data).2.listMemoryStick =
          writeAt (flat d.listMemoryStick) (stickTotal before + localOffset.toNat) data) ∧
      (d.refusals = [] → (d.msWrite before.length localOffset chunk data).1 = true) := by
  have found : d.listMemoryStick[before.length]? = some ms := by simp [sticks]
  obtain ⟨ms', answered, -, same, memory⟩ :=
    MemoryStick.handleWrite_inside inside exact_size
  have stored : flat (d.listMemoryStick.set before.length ms') =
      writeAt (flat d.listMemoryStick) (stickTotal before + localOffset.toNat) data := by
    rw [sticks, List.set_append_right _ _ (le_refl _), Nat.sub_self, List.set_cons_zero,
      flat_append, flat_append, flat_cons, flat_cons,
      writeAt_append_right (by rw [length_flat]; omega), length_flat, Nat.add_sub_cancel_left,
      writeAt_append_left (by rw [ms.length_memory, exact_size]; exact inside), memory]
  have fits : stickTotal before + localOffset.toNat + data.length ≤
      (flat d.listMemoryStick).length := by
    rw [length_flat, sticks, stickTotal_append, stickTotal_cons, exact_size]
    omega
  have answer : d.msWrite before.length localOffset chunk data =
      if d.takeRefusal.1 then (false, d.takeRefusal.2)
      else (true, { d.takeRefusal.2 with
        listMemoryStick := d.listMemoryStick.set before.length ms' }) := by
    simp only [msWrite, found, answered]
  rw [answer]
  split
  · refine ⟨.of_advanced d.takeRefusal_advanced, by simp, fun none => ?_⟩
    simp_all [takeRefusal]
  · refine ⟨⟨?_, 1, _, by simp [takeRefusal]; rfl⟩, fun _ => stored, fun _ => rfl⟩
    change SameOutside _ _ _ (flat (d.listMemoryStick.set before.length ms'))
    rw [stored, ← exact_size]
    exact sameOutside_writeAt fits

end Chunk

/-! ### The whole access -/

section Access

variable {d : Devices} {physicalAddress size bytesDone : UInt32}

/-- The address of the next chunk, as long as the access stays in range. -/
private theorem next_address {sticks : List MemoryStick} {before after : List MemoryStick}
    {ms : MemoryStick} {localOffset : UInt32} (range : physicalAddress.toNat + bytesDone.toNat < 2 ^ 32)
    (split : sticks = before ++ ms :: after)
    (address : (physicalAddress + bytesDone).toNat = stickTotal before + localOffset.toNat)
    (inside : localOffset < ms.size) (more : bytesDone < size) :
    stickTotal before + localOffset.toNat = physicalAddress.toNat + bytesDone.toNat ∧
      physicalAddress.toNat + bytesDone.toNat +
        (chunkSize ms localOffset size bytesDone).toNat ≤ stickTotal sticks ∧
      (bytesDone + chunkSize ms localOffset size bytesDone).toNat =
        bytesDone.toNat + (chunkSize ms localOffset size bytesDone).toNat := by
  obtain ⟨-, within, progress⟩ := chunkSize_spec inside more
  have := size.toNat_lt
  rw [UInt32.toNat_add] at address
  rw [UInt32.toNat_add, split, stickTotal_append, stickTotal_cons]
  omega

theorem memoryReadLoop_snd (physicalAddress size : UInt32) (fuel : Nat) (d : Devices)
    (bytesDone : UInt32) (result : List UInt8) :
    (memoryReadLoop physicalAddress size fuel d bytesDone result).2 = d := by
  induction fuel generalizing d bytesDone result with
  | zero => rfl
  | succ fuel ih =>
      unfold memoryReadLoop
      split
      · split
        · rfl
        · rename_i i localOffset found
          split
          · rfl
          · rename_i ms at_i
            have same := d.msRead_snd i localOffset (chunkSize ms localOffset size bytesDone)
            simp only
            split
            · rename_i d' missing
              rwa [missing] at same
            · rename_i data d' answered
              rw [answered] at same
              obtain rfl : d' = d := same
              exact ih ..
      · rfl

/-- `memory_read` changes nothing. -/
@[simp] theorem memoryRead_snd (d : Devices) (physicalAddress size : UInt32) :
    (memoryRead d physicalAddress size).2 = d :=
  memoryReadLoop_snd ..

/-- What one run of the read loop does, from any number of bytes already read. -/
theorem memoryReadLoop_spec (physicalAddress size : UInt32) (fuel : Nat) (d : Devices)
    (bytesDone : UInt32) (result : List UInt8) (fits : stickTotal d.listMemoryStick < 2 ^ 32)
    (range : physicalAddress.toNat + bytesDone.toNat < 2 ^ 32) (started : bytesDone ≤ size)
    (enough : size.toNat < fuel + bytesDone.toNat) :
    (∀ data, (memoryReadLoop physicalAddress size fuel d bytesDone result).1 = some data →
      data = result ++ slice (flat d.listMemoryStick)
          (physicalAddress.toNat + bytesDone.toNat) (size.toNat - bytesDone.toNat) ∧
        (bytesDone < size →
          physicalAddress.toNat + size.toNat ≤ stickTotal d.listMemoryStick)) ∧
      (physicalAddress.toNat + size.toNat ≤ stickTotal d.listMemoryStick →
        (memoryReadLoop physicalAddress size fuel d bytesDone result).1.isSome) := by
  induction fuel generalizing d bytesDone result with
  | zero =>
      rw [UInt32.le_iff_toNat_le] at started
      omega
  | succ fuel ih =>
      unfold memoryReadLoop
      split
      · rename_i more
        split
        · rename_i missing
          refine ⟨by simp, fun whole => ?_⟩
          rw [getMemoryStickByAddress_eq_none fits, UInt32.toNat_add] at missing
          rw [UInt32.lt_iff_toNat_lt] at more
          omega
        · rename_i i localOffset found
          obtain ⟨before, ms, after, sticks, rfl, address, inside⟩ :=
            getMemoryStickByAddress_spec fits found
          have at_i : d.listMemoryStick[before.length]? = some ms := by simp [sticks]
          obtain ⟨positive, within, progress⟩ := chunkSize_spec inside more
          obtain ⟨start, bound, next⟩ := next_address range sticks address inside more
          simp only [at_i, d.msRead_spec sticks within]
          obtain ⟨result_eq, total⟩ := ih d
            (bytesDone + chunkSize ms localOffset size bytesDone)
            (result ++ slice (flat d.listMemoryStick)
              (stickTotal before + localOffset.toNat)
              (chunkSize ms localOffset size bytesDone).toNat)
            fits (by omega) (by rw [UInt32.le_iff_toNat_le]; omega) (by omega)
          refine ⟨fun data' eq => ?_, total⟩
          obtain ⟨rfl, whole⟩ := result_eq data' eq
          refine ⟨?_, fun _ => ?_⟩
          · rw [List.append_assoc, next, start,
              show size.toNat - bytesDone.toNat =
                (chunkSize ms localOffset size bytesDone).toNat +
                  (size.toNat - (bytesDone.toNat +
                    (chunkSize ms localOffset size bytesDone).toNat)) by omega,
              slice_add, Nat.add_assoc]
          · by_cases done : bytesDone + chunkSize ms localOffset size bytesDone < size
            · exact whole done
            · rw [UInt32.not_lt, UInt32.le_iff_toNat_le] at done
              omega
      · rename_i done
        rw [UInt32.not_lt, UInt32.le_iff_toNat_le] at done
        refine ⟨fun data eq => ⟨?_, fun more => ?_⟩, fun _ => rfl⟩
        · obtain rfl := Option.some.inj eq
          simp [Nat.sub_eq_zero_of_le done]
        · rw [UInt32.lt_iff_toNat_lt] at more
          omega

/-- `memory_read` over any sticks: data, when it returns some, is the slice of
the address space; a range that fits is read. -/
theorem memoryRead_spec (d : Devices) (physicalAddress size : UInt32)
    (fits : stickTotal d.listMemoryStick < 2 ^ 32) :
    (∀ data, (memoryRead d physicalAddress size).1 = some data →
      data = slice (flat d.listMemoryStick) physicalAddress.toNat size.toNat ∧
        (0 < size → physicalAddress.toNat + size.toNat ≤ stickTotal d.listMemoryStick)) ∧
      (physicalAddress.toNat + size.toNat ≤ stickTotal d.listMemoryStick →
        (memoryRead d physicalAddress size).1.isSome) := by
  have := physicalAddress.toNat_lt
  simpa [memoryRead] using memoryReadLoop_spec physicalAddress size (size.toNat + 1) d 0 [] fits
    (by simpa) (by simp) (by simp)

/-- A read inside the memory. -/
theorem memoryRead_inside (fits : stickTotal d.listMemoryStick < 2 ^ 32)
    (inside : physicalAddress.toNat + size.toNat ≤ stickTotal d.listMemoryStick) :
    memoryRead d physicalAddress size =
      (some (slice (flat d.listMemoryStick) physicalAddress.toNat size.toNat), d) := by
  obtain ⟨data_eq, total⟩ := memoryRead_spec d physicalAddress size fits
  obtain ⟨data, answered⟩ := Option.isSome_iff_exists.mp (total inside)
  refine Prod.ext ?_ (memoryRead_snd ..)
  rw [answered, (data_eq data answered).1]

/-- What one run of the write loop does, from any number of bytes already
written. -/
theorem memoryWriteLoop_spec (physicalAddress : UInt32) {data : List UInt8} (fuel : Nat)
    (d : Devices) (bytesDone : UInt32) (fits : stickTotal d.listMemoryStick < 2 ^ 32)
    (exact_size : data.length = size.toNat)
    (range : physicalAddress.toNat + bytesDone.toNat < 2 ^ 32) (started : bytesDone ≤ size)
    (enough : size.toNat < fuel + bytesDone.toNat) :
    Devices.Wrote (physicalAddress.toNat + bytesDone.toNat) (size.toNat - bytesDone.toNat) d
        (memoryWriteLoop physicalAddress data size fuel d bytesDone).2 ∧
      ((memoryWriteLoop physicalAddress data size fuel d bytesDone).1 = true →
        flat (memoryWriteLoop physicalAddress data size fuel d bytesDone).2.listMemoryStick =
            writeAt (flat d.listMemoryStick) (physicalAddress.toNat + bytesDone.toNat)
              (slice data bytesDone.toNat (size.toNat - bytesDone.toNat)) ∧
          (bytesDone < size →
            physicalAddress.toNat + size.toNat ≤ stickTotal d.listMemoryStick)) ∧
      (d.refusals = [] → physicalAddress.toNat + size.toNat ≤ stickTotal d.listMemoryStick →
        (memoryWriteLoop physicalAddress data size fuel d bytesDone).1 = true) := by
  induction fuel generalizing d bytesDone with
  | zero =>
      rw [UInt32.le_iff_toNat_le] at started
      omega
  | succ fuel ih =>
      unfold memoryWriteLoop
      split
      · rename_i more
        split
        · rename_i missing
          refine ⟨.refl .., by simp, fun _ whole => ?_⟩
          rw [getMemoryStickByAddress_eq_none fits, UInt32.toNat_add] at missing
          rw [UInt32.lt_iff_toNat_lt] at more
          omega
        · rename_i i localOffset found
          obtain ⟨before, ms, after, sticks, rfl, address, inside⟩ :=
            getMemoryStickByAddress_spec fits found
          have at_i : d.listMemoryStick[before.length]? = some ms := by simp [sticks]
          obtain ⟨positive, within, progress⟩ := chunkSize_spec inside more
          obtain ⟨start, bound, next⟩ := next_address range sticks address inside more
          have chunk_length : (slice data bytesDone.toNat
              (chunkSize ms localOffset size bytesDone).toNat).length =
              (chunkSize ms localOffset size bytesDone).toNat := length_slice (by omega)
          obtain ⟨wrote, stored, total⟩ := d.msWrite_spec sticks within chunk_length
          rw [start] at wrote stored
          simp only [at_i]
          split
          · rename_i d' refused
            rw [refused] at wrote stored total
            exact ⟨wrote.widen (le_refl _) (by omega), by simp, fun none => by simpa using total none⟩
          · rename_i d' answered
            rw [answered] at wrote stored total
            have total' := wrote.stickTotal_eq
            obtain ⟨wrote', stored', success⟩ := ih d'
              (bytesDone + chunkSize ms localOffset size bytesDone)
              (by rw [total']; exact fits) (by omega)
              (by rw [UInt32.le_iff_toNat_le]; omega) (by omega)
            rw [total'] at stored' success
            rw [next] at stored'
            rw [next] at wrote'
            refine ⟨(wrote.widen (le_refl _) (by omega)).trans (wrote'.widen (by omega) (by omega)),
              fun ok => ?_, fun none whole => success (wrote.refusals_nil none) whole⟩
            obtain ⟨flat_eq, whole⟩ := stored' ok
            have fits_all : bytesDone < size →
                physicalAddress.toNat + size.toNat ≤ stickTotal d.listMemoryStick := by
              intro _
              by_cases done : bytesDone + chunkSize ms localOffset size bytesDone < size
              · exact whole done
              · rw [UInt32.not_lt, UInt32.le_iff_toNat_le] at done
                omega
            refine ⟨?_, fits_all⟩
            have all_bytes := fits_all more
            rw [flat_eq, stored rfl,
              show size.toNat - bytesDone.toNat =
                (chunkSize ms localOffset size bytesDone).toNat +
                  (size.toNat - (bytesDone.toNat +
                    (chunkSize ms localOffset size bytesDone).toNat)) by omega,
              slice_add, writeAt_append, chunk_length, ← Nat.add_assoc]
            rw [List.length_append, chunk_length, length_slice (by omega), length_flat]
            omega
      · rename_i done
        rw [UInt32.not_lt, UInt32.le_iff_toNat_le] at done
        refine ⟨.refl .., fun _ => ⟨?_, fun more => ?_⟩, fun _ _ => rfl⟩
        · simp [Nat.sub_eq_zero_of_le done]
        · rw [UInt32.lt_iff_toNat_lt] at more
          omega

/-- `memory_write` over any sticks: on success the data is stored at the
address, and nothing outside the range ever changes. A range that fits is
written unless a request fails. -/
theorem memoryWrite_spec (d : Devices) (physicalAddress : UInt32) {data : List UInt8}
    (fits : stickTotal d.listMemoryStick < 2 ^ 32)
    (exact_size : data.length = size.toNat) :
    Devices.Wrote physicalAddress.toNat size.toNat d
        (memoryWrite d physicalAddress data size).2 ∧
      ((memoryWrite d physicalAddress data size).1 = true →
        flat (memoryWrite d physicalAddress data size).2.listMemoryStick =
            writeAt (flat d.listMemoryStick) physicalAddress.toNat data ∧
          (0 < size → physicalAddress.toNat + size.toNat ≤ stickTotal d.listMemoryStick)) ∧
      (d.refusals = [] → physicalAddress.toNat + size.toNat ≤ stickTotal d.listMemoryStick →
        (memoryWrite d physicalAddress data size).1 = true) := by
  have := physicalAddress.toNat_lt
  have whole : slice data 0 size.toNat = data := by simp [slice, ← exact_size]
  simpa [memoryWrite, whole] using memoryWriteLoop_spec physicalAddress (size.toNat + 1) d 0 fits
    exact_size (by simpa) (by simp) (by simp)

end Access

end OsModel.KernelMemory
