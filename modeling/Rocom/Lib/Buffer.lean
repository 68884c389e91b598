import Rocom.Lib.CString

/-! A character array that is written through offsets, with the number of bytes the writes
need. Whether the array has them is the caller's business. -/
namespace CString

/-- `extent` is one past the highest offset that was written. -/
structure Buffer where
  bytes : List UInt8
  extent : Nat
deriving DecidableEq

def Buffer.of (memory : List UInt8) : Buffer := ⟨memory, 0⟩

def Buffer.put (m : Buffer) (i : Nat) (b : UInt8) : Buffer :=
  ⟨m.bytes.takeD i 0 ++ b :: m.bytes.drop (i + 1), max m.extent (i + 1)⟩

def Buffer.puts (m : Buffer) (i : Nat) : List UInt8 → Buffer
  | [] => m
  | b :: bs => (m.put i b).puts (i + 1) bs

/-- The memory after `snprintf`, for the bytes that its format gives. -/
def snprintf (memory : List UInt8) (size : Nat) (formatted : List UInt8) : List UInt8 :=
  let written := formatted.take (size - 1) ++ [0]
  written ++ memory.drop written.length

@[simp] theorem Buffer.extent_put (m : Buffer) (i : Nat) (b : UInt8) :
    (m.put i b).extent = max m.extent (i + 1) := rfl

theorem Buffer.extent_puts (m : Buffer) (i : Nat) {bs : List UInt8} (h : bs ≠ []) :
    (m.puts i bs).extent = max m.extent (i + bs.length) := by
  induction bs generalizing m i with
  | nil => exact absurd rfl h
  | cons b bs ih =>
    cases bs with
    | nil => rfl
    | cons c bs =>
      rw [puts, ih _ _ (List.cons_ne_nil _ _), extent_put]
      simp only [List.length_cons]
      omega

theorem Buffer.length_put {m : Buffer} {i : Nat} (inside : i < m.bytes.length) (b : UInt8) :
    (m.put i b).bytes.length = m.bytes.length := by
  simp only [put, List.length_append, List.takeD_length, List.length_cons, List.length_drop]
  omega

theorem Buffer.length_puts {m : Buffer} {i : Nat} {bs : List UInt8}
    (inside : i + bs.length ≤ m.bytes.length) :
    (m.puts i bs).bytes.length = m.bytes.length := by
  induction bs generalizing m i with
  | nil => rfl
  | cons b bs ih =>
    rw [List.length_cons] at inside
    have same := length_put (m := m) (i := i) (by omega) b
    rw [puts, ih (by omega), same]

theorem Buffer.put_next {m : Buffer} {done : List UInt8} (h : done <+: m.bytes) (b : UInt8) :
    done ++ [b] <+: (m.put done.length b).bytes := by
  obtain ⟨rest, whole⟩ := h
  have kept : m.bytes.takeD done.length 0 = done := by
    rw [← whole, List.takeD_eq_take _ (by simp), List.take_left]
  rw [put, kept]
  exact ⟨m.bytes.drop (done.length + 1), by simp⟩

theorem Buffer.puts_next {m : Buffer} {done : List UInt8} (h : done <+: m.bytes)
    (bs : List UInt8) : done ++ bs <+: (m.puts done.length bs).bytes := by
  induction bs generalizing m done with
  | nil => simpa [puts] using h
  | cons b bs ih =>
    have next := ih (put_next h b)
    rw [List.length_append, List.length_singleton, List.append_assoc] at next
    exact next

theorem text_of_prefix {s bs : List UInt8} (noNul : 0 ∉ s) (h : s ++ [0] <+: bs) : text bs = s := by
  obtain ⟨rest, rfl⟩ := h
  rw [List.append_assoc, List.singleton_append, text_append_nul, text_of_notMem noNul]

theorem text_snprintf (memory : List UInt8) {size : Nat} {formatted : List UInt8}
    (fits : formatted.length < size) : text (snprintf memory size formatted) = text formatted := by
  have whole : formatted.take (size - 1) = formatted := List.take_of_length_le (by omega)
  simp only [snprintf, whole, List.append_assoc, List.singleton_append]
  exact text_append_nul _ _

end CString
