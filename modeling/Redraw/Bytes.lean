/-!
# Byte buffers

Pictures and memory regions are byte buffers of a fixed size. The view of a buffer is `at?`: the byte at an
index, or nothing past the end. Every operation is described by what it does to that view.
-/

namespace Redraw.Bytes

instance decidableEqByteArray : DecidableEq ByteArray := ByteArray.instDecidableEq

/-- The byte at index `i`, nothing past the end. -/
def at? (b : ByteArray) (i : Nat) : Option UInt8 :=
  if _h : i < b.size then some b[i] else none

/-- Stores `v` at index `i`; a buffer that ends before `i` is unchanged. -/
def put (b : ByteArray) (i : Nat) (v : UInt8) : ByteArray := b.set! i v

/-- Stores `v` at the `n` indices from `i` on. -/
def fill (b : ByteArray) (i : Nat) : Nat → UInt8 → ByteArray
  | 0, _ => b
  | n + 1, v => fill (put b i v) (i + 1) n v

/-- Stores `f k, f (k + 1), …` at the `n` indices from `i` on. -/
def paint (b : ByteArray) (i : Nat) (f : Nat → UInt8) (k : Nat) : Nat → ByteArray
  | 0 => b
  | n + 1 => paint (put b i (f k)) (i + 1) f (k + 1) n

/-- The buffer followed by `n` zeros. -/
def appendZeros (b : ByteArray) : Nat → ByteArray
  | 0 => b
  | n + 1 => appendZeros (b.push 0) n

/-- A buffer of `n` zeros. -/
def zeros (n : Nat) : ByteArray := appendZeros (ByteArray.emptyWithCapacity n) n

/-- The buffer, lengthened with zeros to at least `n` bytes. -/
def padTo (b : ByteArray) (n : Nat) : ByteArray := appendZeros b (n - b.size)

/-- Stores all of `data` from index `i` on, or nothing when it does not fit. -/
def store (b : ByteArray) (i : Nat) (data : ByteArray) : ByteArray :=
  if i + data.size ≤ b.size then data.copySlice 0 b i data.size else b

/-- The `n` bytes from index `i` on, when the buffer has them all. -/
def slice? (b : ByteArray) (i n : Nat) : Option ByteArray :=
  if i + n ≤ b.size then some (b.extract i (i + n)) else none

/-! ## Sizes -/

@[simp]
theorem size_put (b : ByteArray) (i : Nat) (v : UInt8) : (put b i v).size = b.size := by
  simp [put]

@[simp]
theorem size_fill (b : ByteArray) (i n : Nat) (v : UInt8) : (fill b i n v).size = b.size := by
  induction n generalizing b i with
  | zero => rfl
  | succ n ih => simp [fill, ih]

@[simp]
theorem size_paint (b : ByteArray) (i : Nat) (f : Nat → UInt8) (k n : Nat) :
    (paint b i f k n).size = b.size := by
  induction n generalizing b i k with
  | zero => rfl
  | succ n ih => simp [paint, ih]

@[simp]
theorem size_appendZeros (b : ByteArray) (n : Nat) : (appendZeros b n).size = b.size + n := by
  induction n generalizing b with
  | zero => rfl
  | succ n ih => simp [appendZeros, ih]; omega

@[simp]
theorem size_zeros (n : Nat) : (zeros n).size = n := by
  simp only [zeros, size_appendZeros]
  exact Nat.zero_add n

@[simp]
theorem size_padTo (b : ByteArray) (n : Nat) : (padTo b n).size = max b.size n := by
  simp only [padTo, size_appendZeros]
  omega

@[simp]
theorem size_store (b : ByteArray) (i : Nat) (data : ByteArray) : (store b i data).size = b.size := by
  unfold store
  split
  · simp only [ByteArray.copySlice_eq_append, ByteArray.size_append, ByteArray.size_extract]
    simp only [ByteArray.size_data]
    omega
  · rfl

theorem slice?_eq_some_iff {b s : ByteArray} {i n : Nat} :
    slice? b i n = some s ↔ i + n ≤ b.size ∧ b.extract i (i + n) = s := by
  unfold slice?
  split <;> simp [*]

theorem size_of_slice? {b s : ByteArray} {i n : Nat} (h : slice? b i n = some s) : s.size = n := by
  obtain ⟨fits, rfl⟩ := slice?_eq_some_iff.1 h
  simp only [ByteArray.size_extract]
  omega

/-! ## The view -/

theorem at?_eq_none_iff {b : ByteArray} {i : Nat} : at? b i = none ↔ b.size ≤ i := by
  simp [at?]

theorem at?_eq_data (b : ByteArray) (i : Nat) : at? b i = b.data[i]? := by
  unfold at?
  split
  · rename_i h
    rw [Array.getElem?_eq_getElem (by simpa using h)]
    rfl
  · rename_i h
    rw [Array.getElem?_eq_none (by simpa using h)]

theorem at?_push (b : ByteArray) (v : UInt8) (j : Nat) :
    at? (b.push v) j = if j = b.size then some v else at? b j := by
  simp only [at?_eq_data, ByteArray.data_push, Array.getElem?_push, ByteArray.size_data]

theorem at?_append (a b : ByteArray) (i : Nat) :
    at? (a ++ b) i = if i < a.size then at? a i else at? b (i - a.size) := by
  simp only [at?_eq_data, ByteArray.data_append, Array.getElem?_append, ByteArray.size_data]

theorem at?_extract (b : ByteArray) (start stop i : Nat) :
    at? (b.extract start stop) i = if i < min stop b.size - start then at? b (start + i) else none := by
  simp only [at?_eq_data, ByteArray.data_extract, Array.getElem?_extract, ByteArray.size_data]

theorem at?_put (b : ByteArray) (i j : Nat) (v : UInt8) :
    at? (put b i v) j = if i = j ∧ i < b.size then some v else at? b j := by
  by_cases hj : j < b.size
  · by_cases hij : i = j
    · subst hij
      simp [at?, put, hj]
    · simp [at?, put, hj, hij, ByteArray.getElem_set!_ne]
  · have : ¬(i = j ∧ i < b.size) := by omega
    simp [at?, hj, this]

theorem at?_fill (b : ByteArray) (i n : Nat) (v : UInt8) (j : Nat) :
    at? (fill b i n v) j = if i ≤ j ∧ j < i + n ∧ j < b.size then some v else at? b j := by
  induction n generalizing b i with
  | zero =>
    rw [if_neg (by omega)]
    rfl
  | succ n ih =>
    rw [fill, ih, at?_put, size_put]
    grind

theorem at?_paint (b : ByteArray) (i : Nat) (f : Nat → UInt8) (k n j : Nat) :
    at? (paint b i f k n) j =
      if i ≤ j ∧ j < i + n ∧ j < b.size then some (f (k + (j - i))) else at? b j := by
  induction n generalizing b i k with
  | zero =>
    rw [if_neg (by omega)]
    rfl
  | succ n ih =>
    rw [paint, ih, at?_put, size_put]
    by_cases h : i = j
    · subst h
      grind
    · have : i + 1 ≤ j → k + 1 + (j - (i + 1)) = k + (j - i) := by omega
      grind

/-- Filling is painting with one value. -/
theorem fill_eq_paint (b : ByteArray) (i n : Nat) (v : UInt8) (k : Nat) :
    fill b i n v = paint b i (fun _ => v) k n := by
  induction n generalizing b i k with
  | zero => rfl
  | succ n ih => exact ih _ _ _

theorem at?_appendZeros (b : ByteArray) (n j : Nat) :
    at? (appendZeros b n) j =
      if b.size ≤ j ∧ j < b.size + n then some 0 else at? b j := by
  induction n generalizing b with
  | zero =>
    rw [if_neg (by omega)]
    rfl
  | succ n ih =>
    rw [appendZeros, ih, at?_push, ByteArray.size_push]
    grind

theorem at?_zeros (n j : Nat) : at? (zeros n) j = if j < n then some 0 else none := by
  have size : (ByteArray.emptyWithCapacity n).size = 0 := rfl
  have rest : at? (ByteArray.emptyWithCapacity n) j = none := at?_eq_none_iff.2 (size ▸ Nat.zero_le j)
  rw [zeros, at?_appendZeros, size, rest]
  simp

theorem at?_padTo (b : ByteArray) (n j : Nat) :
    at? (padTo b n) j = if b.size ≤ j ∧ j < n then some 0 else at? b j := by
  rw [padTo, at?_appendZeros]
  by_cases h : b.size ≤ n
  · rw [show b.size + (n - b.size) = n by omega]
  · rw [if_neg (by omega), if_neg (by omega)]

theorem at?_store (b : ByteArray) (i : Nat) (data : ByteArray) (j : Nat) :
    at? (store b i data) j =
      if i + data.size ≤ b.size ∧ i ≤ j ∧ j < i + data.size then at? data (j - i) else at? b j := by
  unfold store
  split
  · rename_i fits
    have none_past : b.size ≤ j → at? b j = none := at?_eq_none_iff.2
    simp only [ByteArray.copySlice_eq_append, at?_append, at?_extract, ByteArray.size_append,
      ByteArray.size_extract, ByteArray.size_data]
    by_cases before : j < i
    · have : ¬(i ≤ j) := by omega
      grind
    · by_cases inside : j < i + data.size
      · have : 0 + (j - i) = j - i := by omega
        grind
      · have : i + data.size + (j - (i + data.size)) = j := by omega
        grind
  · rw [if_neg (by omega)]

theorem at?_slice? {b s : ByteArray} {i n : Nat} (h : slice? b i n = some s) (j : Nat) :
    at? s j = if j < n then at? b (i + j) else none := by
  obtain ⟨fits, rfl⟩ := slice?_eq_some_iff.1 h
  rw [at?_extract, show min (i + n) b.size - i = n by omega]

end Redraw.Bytes
