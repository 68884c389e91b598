import Mathlib.Data.List.Basic

/-! A byte ring buffer of fixed size. Bytes leave it in two steps: they are lent to the reader,
and their room is free when the reader has given them back. -/

structure ByteRing (α : Type*) where
  size : Nat
  stored : List α
  lent : List α
  fits : stored.length + lent.length ≤ size
deriving DecidableEq

namespace ByteRing

variable {α : Type*}

def empty (size : Nat) : ByteRing α := ⟨size, [], [], Nat.zero_le size⟩

def room (r : ByteRing α) : Nat := r.size - (r.stored.length + r.lent.length)

/-- Store the data at the end, or nothing when there is no room for all of it. -/
def send (r : ByteRing α) (data : List α) : Option (ByteRing α) :=
  if h : data.length ≤ r.room then
    some { r with
      stored := r.stored ++ data
      fits := by
        have fits := r.fits
        unfold room at h
        rw [List.length_append]
        omega }
  else none

/-- Lend the first `n` bytes. -/
def receive (r : ByteRing α) (n : Nat) : ByteRing α where
  size := r.size
  stored := r.stored.drop n
  lent := r.lent ++ r.stored.take n
  fits := by
    have fits := r.fits
    rw [List.length_drop, List.length_append, List.length_take]
    omega

def giveBack (r : ByteRing α) : ByteRing α where
  size := r.size
  stored := r.stored
  lent := []
  fits := Nat.le_trans (Nat.add_le_add_left (Nat.zero_le _) _) r.fits

@[simp] theorem stored_receive (r : ByteRing α) (n : Nat) :
    (r.receive n).stored = r.stored.drop n := rfl

theorem stored_send {r r' : ByteRing α} {data : List α} (h : r.send data = some r') :
    r'.stored = r.stored ++ data := by
  unfold send at h
  split at h
  · cases h
    rfl
  · cases h

theorem send_eq_none_iff (r : ByteRing α) (data : List α) :
    r.send data = none ↔ r.room < data.length := by
  unfold send
  split
  · rename_i fits
    exact iff_of_false nofun (Nat.not_lt.mpr fits)
  · rename_i full
    exact iff_of_true rfl (Nat.lt_of_not_le full)

end ByteRing
