import Mathlib

/-!
Data shared by the modules (`utils/src/utils`): segments and holes of the user
memory, the CPU context, and the list operations of the commons library that
the sources call.
-/

namespace OsModel

/-- `t_segment`: the segment table entry as it is sent from Kernel Memory to a
CPU. -/
structure Segment where
  segmentId : UInt32
  base : UInt32
  size : UInt32
  deriving DecidableEq, Repr

structure Hole where
  base : UInt32
  size : UInt32
  deriving DecidableEq, Repr

inductive SegmentResult where
  | segmentOk
  | segmentNoSpace
  | segmentError
  deriving DecidableEq, Repr

inductive InterruptReason where
  | quantumExpired
  | priorityPreemption
  | bsod
  | memoryRequest
  | mutexRequest
  | mutexLocked
  | ioRequest
  | processExit
  | compaction
  deriving DecidableEq, Repr

structure CpuContext where
  pc : UInt32
  ax : UInt8
  bx : UInt8
  cx : UInt8
  dx : UInt8
  eax : UInt32
  ebx : UInt32
  ecx : UInt32
  edx : UInt32
  si : UInt32
  di : UInt32
  deriving DecidableEq, Repr

/-- The context of a process that has not run. -/
def CpuContext.zero : CpuContext := ⟨0, 0, 0, 0, 0, 0, 0, 0, 0, 0, 0⟩

/-! ### Lists of the commons library

`list_find`, `list_add` and `list_remove_element` are `List.find?`, appending
one element and erasing the first match. A `list_find` followed by an update
through the pointer it returned is `updateFirst`; `list_sort` with a comparator
on bases is a sort by base. -/

/-- Apply `f` to the first element that satisfies `p`: `list_find` and a write
through the pointer found. -/
def updateFirst {α : Type} (p : α → Bool) (f : α → α) : List α → List α
  | [] => []
  | a :: rest => if p a then f a :: rest else a :: updateFirst p f rest

section UpdateFirst

variable {α : Type} {p : α → Bool} {f : α → α}

theorem updateFirst_none {l : List α} (h : l.find? p = none) : updateFirst p f l = l := by
  induction l with
  | nil => rfl
  | cons a rest ih =>
      rw [List.find?_cons] at h
      cases hp : p a with
      | true => simp [hp] at h
      | false => simp [updateFirst, hp, ih (by simpa [hp] using h)]

/-- Where the update happens: the first match is replaced, the rest stays. -/
theorem updateFirst_split {l : List α} {a : α} (h : l.find? p = some a) :
    ∃ before after, l = before ++ a :: after ∧ (∀ b ∈ before, p b = false) ∧ p a = true ∧
      updateFirst p f l = before ++ f a :: after := by
  induction l with
  | nil => simp at h
  | cons b rest ih =>
      rw [List.find?_cons] at h
      cases hp : p b with
      | true =>
          obtain rfl : b = a := by simpa [hp] using h
          exact ⟨[], rest, rfl, by simp, hp, by simp [updateFirst, hp]⟩
      | false =>
          obtain ⟨before, after, rfl, none, found, eq⟩ := ih (by simpa [hp] using h)
          exact ⟨b :: before, after, rfl, by simpa [hp] using none, found,
            by simp [updateFirst, hp, eq]⟩

/-- An update that keeps a field keeps the list of its values. -/
theorem map_updateFirst {β : Type} {g : α → β} (keeps : ∀ a, g (f a) = g a) (l : List α) :
    (updateFirst p f l).map g = l.map g := by
  induction l with
  | nil => rfl
  | cons a rest ih =>
      unfold updateFirst
      split <;> simp [keeps, ih]

theorem mem_updateFirst {l : List α} {b : α} (h : b ∈ updateFirst p f l) :
    b ∈ l ∨ ∃ a ∈ l, p a = true ∧ b = f a := by
  induction l with
  | nil => simp [updateFirst] at h
  | cons a rest ih =>
      unfold updateFirst at h
      split at h
      · rename_i hp
        rcases List.mem_cons.mp h with rfl | mem
        · exact Or.inr ⟨a, List.mem_cons_self, hp, rfl⟩
        · exact Or.inl (List.mem_cons_of_mem _ mem)
      · rcases List.mem_cons.mp h with rfl | mem
        · exact Or.inl List.mem_cons_self
        · rcases ih mem with mem | ⟨c, mem, hc, eq⟩
          · exact Or.inl (List.mem_cons_of_mem _ mem)
          · exact Or.inr ⟨c, List.mem_cons_of_mem _ mem, hc, eq⟩

/-- A search finds the element updated under the same test. -/
theorem find?_updateFirst (keeps : ∀ a, p (f a) = p a) (l : List α) :
    (updateFirst p f l).find? p = (l.find? p).map f := by
  induction l with
  | nil => rfl
  | cons a rest ih =>
      cases hp : p a with
      | true => simp [updateFirst, hp, keeps]
      | false => simp [updateFirst, hp, ih]

/-- A search for something else does not see the update. -/
theorem find?_updateFirst_other {q : α → Bool} (other : ∀ a, p a = true → q a = false)
    (keeps : ∀ a, q (f a) = q a) (l : List α) :
    (updateFirst p f l).find? q = l.find? q := by
  induction l with
  | nil => rfl
  | cons a rest ih =>
      cases hp : p a with
      | true => simp [updateFirst, hp, keeps, other a hp]
      | false => simp only [updateFirst, hp, Bool.false_eq_true, if_false, List.find?_cons, ih]

/-- The elements that fail the test are where they were. -/
theorem filter_updateFirst (keeps : ∀ a, p (f a) = p a) (l : List α) :
    (updateFirst p f l).filter (fun a => !p a) = l.filter fun a => !p a := by
  induction l with
  | nil => rfl
  | cons a rest ih =>
      cases hp : p a with
      | true => simp [updateFirst, hp, keeps]
      | false => simp [updateFirst, hp, ih]

/-- Two updates under one test. -/
theorem updateFirst_updateFirst {g : α → α} (keeps : ∀ a, p (f a) = p a) (l : List α) :
    updateFirst p g (updateFirst p f l) = updateFirst p (g ∘ f) l := by
  induction l with
  | nil => rfl
  | cons a rest ih =>
      cases hp : p a with
      | true => simp [updateFirst, hp, keeps]
      | false => simp [updateFirst, hp, ih]

/-- An update that does not change the element found changes nothing. -/
theorem updateFirst_eq_self {l : List α} {a : α} (found : l.find? p = some a) (fixed : f a = a) :
    updateFirst p f l = l := by
  obtain ⟨before, after, rfl, -, -, updated⟩ := updateFirst_split (f := f) found
  rw [updated, fixed]

end UpdateFirst

section EraseFirst

variable {α : Type} {p q : α → Bool}

/-- The element removed is the one a search finds. -/
theorem eraseP_split {l : List α} {a : α} (h : l.find? p = some a) :
    ∃ before after, l = before ++ a :: after ∧ l.eraseP p = before ++ after := by
  obtain ⟨found, before, after, rfl, none⟩ := List.find?_eq_some_iff_append.mp h
  refine ⟨before, after, rfl, ?_⟩
  rw [List.eraseP_append_right _ (by simpa using none), List.eraseP_cons_of_pos found]

theorem perm_eraseP {l : List α} {a : α} (h : l.find? p = some a) : l.Perm (a :: l.eraseP p) := by
  obtain ⟨before, after, list_eq, erased⟩ := eraseP_split h
  rw [erased, list_eq]
  exact List.perm_middle

/-- A search for something else does not miss what was removed. -/
theorem find?_eraseP_other (other : ∀ a, p a = true → q a = false) (l : List α) :
    (l.eraseP p).find? q = l.find? q := by
  induction l with
  | nil => rfl
  | cons a rest ih =>
      cases hp : p a with
      | true => simp [List.eraseP_cons_of_pos hp, other a hp]
      | false =>
          rw [List.eraseP_cons_of_neg (by simp [hp]), List.find?_cons, List.find?_cons, ih]

/-- A filter for something else does not miss what was removed. -/
theorem filter_eraseP_other (other : ∀ a, p a = true → q a = false) (l : List α) :
    (l.eraseP p).filter q = l.filter q := by
  induction l with
  | nil => rfl
  | cons a rest ih =>
      cases hp : p a with
      | true => simp [List.eraseP_cons_of_pos hp, other a hp]
      | false =>
          rw [List.eraseP_cons_of_neg (by simp [hp]), List.filter_cons, List.filter_cons, ih]

/-- What was removed is the first that passes the filter. -/
theorem filter_eraseP_self (l : List α) : (l.eraseP p).filter p = (l.filter p).tail := by
  induction l with
  | nil => rfl
  | cons a rest ih =>
      cases hp : p a with
      | true => simp [List.eraseP_cons_of_pos hp, hp]
      | false => simp [List.eraseP_cons_of_neg, hp, ih]

end EraseFirst

/-- Among elements with different keys, the first one with a key is the only one. -/
theorem find?_of_nodup {α κ : Type} [BEq κ] [LawfulBEq κ] {key : α → κ} {l : List α}
    (distinct : (l.map key).Nodup) {a : α} (mem : a ∈ l) :
    l.find? (fun b => key b == key a) = some a := by
  cases found : l.find? fun b => key b == key a with
  | none =>
      have absent := List.find?_eq_none.mp found a mem
      simp at absent
  | some b =>
      have among := List.mem_of_find?_eq_some found
      have same : key b = key a := by simpa using List.find?_some found
      rw [List.inj_on_of_nodup_map distinct among mem same]

/-! ### Lists built in step -/

section InStep

variable {α β : Type} {R : α → β → Prop} {l : List α} {l' : List β}

/-- Every element of the second list comes from one of the first. -/
theorem exists_of_mem_forall₂ (h : List.Forall₂ R l l') {b : β} (mem : b ∈ l') :
    ∃ a ∈ l, R a b := by
  induction h with
  | nil => simp at mem
  | cons head _ ih =>
      rcases List.mem_cons.mp mem with rfl | later
      · exact ⟨_, List.mem_cons_self, head⟩
      · obtain ⟨a, among, rel⟩ := ih later
        exact ⟨a, List.mem_cons_of_mem _ among, rel⟩

/-- What pairs of related elements agree on, the lists agree on pairwise. -/
theorem pairwise_iff_of_forall₂ {P : α → α → Prop} {Q : β → β → Prop}
    (agree : ∀ {a b a' b'}, R a b → R a' b' → (P a a' ↔ Q b b')) (h : List.Forall₂ R l l') :
    l.Pairwise P ↔ l'.Pairwise Q := by
  induction h with
  | nil => simp
  | cons head tail ih =>
      rw [List.pairwise_cons, List.pairwise_cons, ih]
      refine and_congr_left fun _ => ⟨fun all b mem => ?_, fun all a mem => ?_⟩
      · obtain ⟨a, among, rel⟩ := exists_of_mem_forall₂ tail mem
        exact (agree head rel).mp (all a among)
      · obtain ⟨b, among, rel⟩ := exists_of_mem_forall₂ tail.flip mem
        exact (agree head rel).mpr (all b among)

end InStep

/-- Up to the order, replacing an element is replacing the first one. -/
theorem perm_set {α : Type} {l : List α} {i : Nat} {a : α} (found : l[i]? = some a) (b : α) :
    ∃ rest, l.Perm (a :: rest) ∧ (l.set i b).Perm (b :: rest) := by
  obtain ⟨bound, rfl⟩ := List.getElem?_eq_some_iff.mp found
  exact ⟨l.eraseIdx i, (List.getElem_cons_eraseIdx_perm bound).symm,
    List.set_perm_cons_eraseIdx bound b⟩

end OsModel
