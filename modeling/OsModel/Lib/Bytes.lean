import Mathlib.Data.List.Basic

/-!
Ranges of a flat array, kept as a list.

* `slice l i n`: the `n` elements from position `i`.
* `writeAt l i d`: `d` stored from position `i` on.
* `SameOutside i n l l'`: two arrays of one length that agree outside
  `[i, i + n)`. It is the frame of a write, whether the write completed or
  stopped half way.
-/

namespace OsModel.Lib

variable {α : Type}

/-- The `n` elements from position `i` (fewer when the array ends before). -/
def slice (l : List α) (i n : Nat) : List α := (l.drop i).take n

/-- The array with `d` stored from position `i` on. -/
def writeAt (l : List α) (i : Nat) (d : List α) : List α :=
  l.take i ++ d ++ l.drop (i + d.length)

theorem getElem?_slice (l : List α) (i n j : Nat) :
    (slice l i n)[j]? = if j < n then l[i + j]? else none := by
  unfold slice
  rw [List.getElem?_take, List.getElem?_drop]

theorem length_slice {l : List α} {i n : Nat} (fits : i + n ≤ l.length) :
    (slice l i n).length = n := by
  simp [slice]
  omega

@[simp] theorem slice_zero (l : List α) (i : Nat) : slice l i 0 = [] := by simp [slice]

theorem slice_add (l : List α) (i m n : Nat) :
    slice l i (m + n) = slice l i m ++ slice l (i + m) n := by
  simp [slice, List.take_add, List.drop_drop]

/-- A slice of a slice. -/
theorem slice_slice {l : List α} {i n j m : Nat} (fits : j + m ≤ n) :
    slice (slice l i n) j m = slice l (i + j) m := by
  apply List.ext_getElem?
  intro k
  simp only [getElem?_slice, Nat.add_assoc]
  split
  · rw [if_pos (by omega)]
  · rfl

theorem slice_append_left {a b : List α} {i n : Nat} (fits : i + n ≤ a.length) :
    slice (a ++ b) i n = slice a i n := by
  apply List.ext_getElem?
  intro k
  simp only [getElem?_slice]
  split
  · rw [List.getElem?_append_left (by omega)]
  · rfl

theorem slice_append_right {a b : List α} {i n : Nat} (after : a.length ≤ i) :
    slice (a ++ b) i n = slice b (i - a.length) n := by
  simp only [slice, List.drop_append, List.drop_eq_nil_of_le after, List.nil_append]

theorem length_writeAt {l d : List α} {i : Nat} (fits : i + d.length ≤ l.length) :
    (writeAt l i d).length = l.length := by
  simp [writeAt]
  omega

theorem getElem?_writeAt {l d : List α} {i : Nat} (fits : i + d.length ≤ l.length) (j : Nat) :
    (writeAt l i d)[j]? = if i ≤ j ∧ j < i + d.length then d[j - i]? else l[j]? := by
  have before : (l.take i).length = i := by simp; omega
  unfold writeAt
  by_cases low : j < i
  · rw [if_neg (by omega), List.append_assoc, List.getElem?_append_left (by omega),
      List.getElem?_take, if_pos low]
  · by_cases high : j < i + d.length
    · rw [if_pos (by omega), List.append_assoc, List.getElem?_append_right (by omega),
        List.getElem?_append_left (by omega), before]
    · rw [if_neg (by omega), List.getElem?_append_right (by simp; omega), List.getElem?_drop]
      congr 1
      simp
      omega

@[simp] theorem writeAt_nil (l : List α) (i : Nat) : writeAt l i [] = l := by simp [writeAt]

/-- Writing in two pieces. -/
theorem writeAt_append {l d e : List α} {i : Nat} (fits : i + (d ++ e).length ≤ l.length) :
    writeAt l i (d ++ e) = writeAt (writeAt l i d) (i + d.length) e := by
  rw [List.length_append] at fits
  apply List.ext_getElem?
  intro j
  rw [getElem?_writeAt (by simp; omega), getElem?_writeAt (by rw [length_writeAt] <;> omega),
    getElem?_writeAt (by omega), List.length_append]
  by_cases first : i ≤ j ∧ j < i + d.length
  · rw [if_pos (by omega), if_neg (by omega), if_pos first,
      List.getElem?_append_left (by omega)]
  · by_cases second : i + d.length ≤ j ∧ j < i + d.length + e.length
    · rw [if_pos (by omega), if_pos second, List.getElem?_append_right (by omega)]
      congr 1
      omega
    · rw [if_neg (by omega), if_neg second, if_neg first]

theorem writeAt_append_left {a b d : List α} {i : Nat} (fits : i + d.length ≤ a.length) :
    writeAt (a ++ b) i d = writeAt a i d ++ b := by
  unfold writeAt
  rw [List.take_append_of_le_length (by omega), List.drop_append_of_le_length fits]
  simp

theorem writeAt_append_right {a b d : List α} {i : Nat} (after : a.length ≤ i) :
    writeAt (a ++ b) i d = a ++ writeAt b (i - a.length) d := by
  unfold writeAt
  rw [List.take_append, List.take_of_length_le after, List.drop_append,
    List.drop_eq_nil_of_le (by omega)]
  simp only [List.append_assoc, List.nil_append]
  congr 4
  omega

/-- What was written is read back. -/
theorem slice_writeAt {l d : List α} {i : Nat} (fits : i + d.length ≤ l.length) :
    slice (writeAt l i d) i d.length = d := by
  apply List.ext_getElem?
  intro j
  rw [getElem?_slice]
  split
  · rename_i lt
    rw [getElem?_writeAt fits, if_pos (by omega)]
    congr 1
    omega
  · rw [List.getElem?_eq_none (by omega)]

/-! ### Frames -/

/-- Two arrays of one length that agree outside `[i, i + n)`. -/
structure SameOutside (i n : Nat) (l l' : List α) : Prop where
  length_eq : l'.length = l.length
  agree : ∀ j, j < i ∨ i + n ≤ j → l'[j]? = l[j]?

namespace SameOutside

theorem refl (i n : Nat) (l : List α) : SameOutside i n l l := ⟨rfl, fun _ _ => rfl⟩

theorem trans {i n : Nat} {l l' l'' : List α} (h : SameOutside i n l l')
    (h' : SameOutside i n l' l'') : SameOutside i n l l'' :=
  ⟨h'.length_eq.trans h.length_eq, fun j out => (h'.agree j out).trans (h.agree j out)⟩

/-- A larger range frames what a smaller one frames. -/
theorem widen {i n i' n' : Nat} {l l' : List α} (h : SameOutside i n l l')
    (low : i' ≤ i) (high : i + n ≤ i' + n') : SameOutside i' n' l l' :=
  ⟨h.length_eq, fun j out => h.agree j (by omega)⟩

/-- A slice that does not meet the range is unchanged. -/
theorem slice_eq {i n j m : Nat} {l l' : List α} (h : SameOutside i n l l')
    (apart : j + m ≤ i ∨ i + n ≤ j) : slice l' j m = slice l j m := by
  apply List.ext_getElem?
  intro k
  rw [getElem?_slice, getElem?_slice]
  split
  · exact h.agree _ (by omega)
  · rfl

end SameOutside

theorem sameOutside_writeAt {l d : List α} {i : Nat} (fits : i + d.length ≤ l.length) :
    SameOutside i d.length l (writeAt l i d) := by
  refine ⟨length_writeAt fits, fun j out => ?_⟩
  rw [getElem?_writeAt fits, if_neg (by omega)]

end OsModel.Lib
