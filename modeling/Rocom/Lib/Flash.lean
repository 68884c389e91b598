import Mathlib.Data.List.Basic

/-! Flash memory with its two operations. An erase resets a range of cells, a write programs the
cells one by one, and what a cell then holds may depend on what it held before. -/
namespace Flash

variable {α : Type*}

structure Cell (α : Type*) where
  erased : α
  program : α → α → α
  program_erased : ∀ a, program erased a = a

/-- `erase none` resets every cell. -/
inductive Op (α : Type*) where
  | erase (below : Option Nat)
  | write (offs : Nat) (data : List α)
deriving DecidableEq

def Op.apply (c : Cell α) (mem : Nat → α) : Op α → Nat → α
  | .erase below => fun i => if ∀ n ∈ below, i < n then c.erased else mem i
  | .write offs data => fun i =>
    if offs ≤ i then (data[i - offs]?).elim (mem i) (c.program (mem i)) else mem i

def read (mem : Nat → α) (len : Nat) : List α := (List.range len).map mem

namespace Op
variable {c : Cell α} {mem : Nat → α}

/-- The first `len` cells hold what they held. -/
def Keeps (c : Cell α) (mem : Nat → α) (op : Op α) (len : Nat) : Prop :=
  ∀ i < len, op.apply c mem i = mem i

/-- What is written can be read back. -/
def Takes (c : Cell α) (mem : Nat → α) : Op α → Prop
  | .erase _ => True
  | .write offs data =>
    ∀ i, (h : i < data.length) → (Op.write offs data).apply c mem (offs + i) = data[i]

instance [DecidableEq α] (op : Op α) (len : Nat) : Decidable (op.Keeps c mem len) :=
  inferInstanceAs (Decidable (∀ i < len, _))

instance [DecidableEq α] : (op : Op α) → Decidable (op.Takes c mem)
  | .erase _ => isTrue trivial
  | .write offs data =>
    inferInstanceAs (Decidable (∀ i, (h : i < data.length) →
      (Op.write offs data).apply c mem (offs + i) = data[i]))

theorem keeps_zero (op : Op α) : op.Keeps c mem 0 := nofun

theorem write_below (offs : Nat) (data : List α) {i : Nat} (h : i < offs) :
    (write offs data).apply c mem i = mem i := if_neg (Nat.not_le_of_lt h)

theorem write_above (offs : Nat) (data : List α) {i : Nat} (h : offs + data.length ≤ i) :
    (write offs data).apply c mem i = mem i := by
  have outside : data[i - offs]? = none := List.getElem?_eq_none (by omega)
  simp [apply, outside]

theorem erase_inside {below : Option Nat} {i : Nat} (h : ∀ n ∈ below, i < n) :
    (erase below).apply c mem i = c.erased := if_pos h

/-- Erased cells take what is written. -/
theorem takes_of_erased (offs : Nat) (data : List α)
    (fresh : ∀ i < data.length, mem (offs + i) = c.erased) : (write offs data).Takes c mem := by
  intro i inside
  simp [apply, fresh i inside, c.program_erased, inside]

theorem Keeps.read {op : Op α} {len : Nat} (h : op.Keeps c mem len) :
    read (op.apply c mem) len = read mem len :=
  List.map_congr_left fun i mem => h i (List.mem_range.mp mem)

theorem Takes.read {offs : Nat} {data : List α} (h : (write offs data).Takes c mem) :
    Flash.read ((write offs data).apply c mem) (offs + data.length) =
      Flash.read mem offs ++ data := by
  have before : ∀ i ∈ List.range offs, (write offs data).apply c mem i = mem i :=
    fun i below => write_below offs data (List.mem_range.mp below)
  have behind : (List.range data.length).map
      (fun i => (write offs data).apply c mem (offs + i)) = data := by
    apply List.ext_getElem
    · simp
    · intro i _ inside
      simpa using h i inside
  rw [Flash.read, List.range_add, List.map_append, List.map_map, List.map_congr_left before]
  exact congrArg (Flash.read mem offs ++ ·) behind

end Op

end Flash
