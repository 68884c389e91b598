import Mathlib.Data.List.TakeDrop
import Mathlib.Data.List.TakeWhile

/-! C strings and the byte fields of fixed size they are copied into. A list of bytes stands
for memory that holds these bytes and zeros behind them. -/
namespace CString

/-- What a string function reads of the memory: the bytes before the first NUL. -/
def text (bs : List UInt8) : List UInt8 := bs.takeWhile (· ≠ 0)

/-- A NUL-terminated string. -/
structure Str where
  chars : List UInt8
  noNul : 0 ∉ chars
deriving DecidableEq

def Str.strlen (s : Str) : Nat := s.chars.length

def Str.empty : Str := ⟨[], nofun⟩

theorem Str.chars_eq_nil {s : Str} (h : s.strlen = 0) : s.chars = [] := List.length_eq_zero_iff.mp h

structure Field (n : Nat) where
  bytes : List UInt8
  size : bytes.length = n
deriving DecidableEq

/-- A cleared field with the bytes copied to its start, as far as they fit. -/
def pad (n : Nat) (bs : List UInt8) : Field n := ⟨bs.takeD n 0, List.takeD_length n bs 0⟩

def Field.zero (n : Nat) : Field n := pad n []

/-- `memcpy` of `min (strlen s) limit` bytes into a cleared field. -/
def Field.copy (n : Nat) (s : Str) (limit : Nat) : Field n :=
  pad n (s.chars.take (min s.strlen limit))

/-- `memcpy` from the start of a larger object. -/
def Field.prefixOf {m : Nat} (f : Field m) (n : Nat) : Field n := pad n f.bytes

def strncmp : Nat → List UInt8 → List UInt8 → Int
  | 0, _, _ => 0
  | n + 1, as, bs =>
    let a := as.headD 0
    let b := bs.headD 0
    if a ≠ b then (a.toNat : Int) - b.toNat
    else if a = 0 then 0
    else strncmp n as.tail bs.tail

def strcmp (as bs : List UInt8) : Int := strncmp (as.length + 1) as bs

@[simp] theorem text_nil : text [] = [] := rfl

@[simp] theorem text_cons (b : UInt8) (bs : List UInt8) :
    text (b :: bs) = if b = 0 then [] else b :: text bs := by
  by_cases h : b = 0 <;> simp [text, h]

theorem nul_notMem_text (bs : List UInt8) : 0 ∉ text bs := by
  intro h
  simpa using List.mem_takeWhile_imp h

theorem text_of_notMem {bs : List UInt8} (h : 0 ∉ bs) : text bs = bs := by
  apply List.takeWhile_eq_self_iff.mpr
  intro b hb
  have ne : b ≠ 0 := fun h0 => h (h0 ▸ hb)
  simpa using ne

/-- The first NUL ends the string, whatever is behind. -/
theorem text_append_nul (bs rest : List UInt8) : text (bs ++ 0 :: rest) = text bs := by
  induction bs with
  | nil => simp
  | cons b bs ih => by_cases nul : b = 0 <;> simp [nul, ih]

@[simp] theorem text_chars (s : Str) : text s.chars = s.chars := text_of_notMem s.noNul

theorem text_take (n : Nat) (bs : List UInt8) : text (bs.take n) = (text bs).take n := by
  induction bs generalizing n with
  | nil => simp
  | cons b bs ih =>
    cases n with
    | zero => simp
    | succ n => by_cases h : b = 0 <;> simp [h, ih]

theorem text_takeD (n : Nat) (bs : List UInt8) : text (bs.takeD n 0) = (text bs).take n := by
  induction n generalizing bs with
  | zero => simp
  | succ n ih =>
    cases bs with
    | nil => simp
    | cons b bs => by_cases h : b = 0 <;> simp [h, ih]

theorem takeD_take (n : Nat) (bs : List UInt8) : (bs.take n).takeD n 0 = bs.takeD n 0 := by
  induction n generalizing bs with
  | zero => rfl
  | succ n ih =>
    cases bs with
    | nil => rfl
    | cons b bs => simp [ih]

theorem Field.ext {n : Nat} {f g : Field n} (h : f.bytes = g.bytes) : f = g := by
  cases f
  cases g
  cases h
  rfl

theorem pad_take (n : Nat) (bs : List UInt8) : pad n (bs.take n) = pad n bs :=
  Field.ext (takeD_take n bs)

theorem copy_whole (n : Nat) (s : Str) : Field.copy n s n = pad n s.chars := by
  have cut : s.chars.take (min s.strlen n) = s.chars.take n := by
    rw [Nat.min_comm, ← List.take_take, Str.strlen, List.take_length]
  rw [Field.copy, cut, pad_take]

theorem text_pad (n : Nat) (bs : List UInt8) : text (pad n bs).bytes = (text bs).take n :=
  text_takeD n bs

theorem text_copy (n : Nat) (s : Str) (limit : Nat) :
    text (Field.copy n s limit).bytes = (s.chars.take limit).take n := by
  have cut : s.chars.take (min s.strlen limit) = s.chars.take limit := by
    rw [Nat.min_comm, ← List.take_take, Str.strlen, List.take_length]
  have noNul : 0 ∉ s.chars.take limit := fun h => s.noNul (List.mem_of_mem_take h)
  rw [Field.copy, cut, text_pad, text_of_notMem noNul]

/-- A copy with a limit below the size of the field is the whole string only if it is short. -/
theorem copy_eq_copy_iff {n limit : Nat} (less : limit < n) (s : Str) :
    Field.copy n s limit = Field.copy n s n ↔ s.strlen ≤ limit := by
  constructor
  · intro same
    have texts := congrArg (fun f => (text f.bytes).length) same
    simp only [text_copy, List.length_take] at texts
    unfold Str.strlen
    omega
  · intro short
    rw [Field.copy, Field.copy, Nat.min_eq_left short, Nat.min_eq_left (by omega)]

theorem headD_text (bs : List UInt8) : (text bs).headD 0 = bs.headD 0 := by
  cases bs with
  | nil => rfl
  | cons b bs => by_cases h : b = 0 <;> simp [h]

theorem toNat_sub_ne_zero {a b : UInt8} (ne : a ≠ b) : (a.toNat : Int) - b.toNat ≠ 0 := by
  intro same
  exact ne (UInt8.toNat_inj.mp (by omega))

/-- `strncmp` sees the two texts, cut to its bound. -/
theorem strncmp_eq_zero_iff (n : Nat) (as bs : List UInt8) :
    strncmp n as bs = 0 ↔ text (as.take n) = text (bs.take n) := by
  induction n generalizing as bs with
  | zero => simp [strncmp]
  | succ n ih =>
    by_cases heads : as.headD 0 = bs.headD 0
    · cases as with
      | nil =>
        cases bs with
        | nil => simp [strncmp]
        | cons b bs => simp [strncmp, show b = 0 from heads.symm]
      | cons a as =>
        cases bs with
        | nil => simp [strncmp, show a = 0 from heads]
        | cons b bs =>
          obtain rfl : a = b := heads
          by_cases ha : a = 0 <;> simp [strncmp, ha, ih]
    · have apart : text (as.take (n + 1)) ≠ text (bs.take (n + 1)) := by
        intro h
        have first : ∀ cs : List UInt8, (text (cs.take (n + 1))).headD 0 = cs.headD 0 := by
          intro cs
          rw [headD_text]
          cases cs <;> rfl
        exact heads (by rw [← first as, h, first bs])
      have nonzero : strncmp (n + 1) as bs ≠ 0 := by
        rw [strncmp, if_pos heads]
        exact toNat_sub_ne_zero heads
      exact iff_of_false nonzero apart

theorem text_eq (bs : List UInt8) :
    text bs = if bs.headD 0 = 0 then [] else bs.headD 0 :: text bs.tail := by
  cases bs with
  | nil => rfl
  | cons b bs => exact text_cons b bs

/-- `strncmp` orders texts as lists of bytes, when its bound is behind the first string. -/
theorem strncmp_nonpos_iff {n : Nat} {as : List UInt8} (beyond : as.length < n) (bs : List UInt8) :
    strncmp n as bs ≤ 0 ↔ text as ≤ text bs := by
  induction n generalizing as bs with
  | zero => exact absurd beyond (Nat.not_lt_zero _)
  | succ n ih =>
    have rest : strncmp n as.tail bs.tail ≤ 0 ↔ text as.tail ≤ text bs.tail := by
      cases as with
      | nil =>
        cases n with
        | zero => simp [strncmp]
        | succ n => exact ih (show ([] : List UInt8).length < n + 1 from Nat.succ_pos n) _
      | cons a as => exact ih (Nat.lt_of_succ_lt_succ beyond) _
    rw [strncmp, text_eq as, text_eq bs]
    generalize as.headD 0 = a, bs.headD 0 = b
    by_cases heads : a = b
    · subst heads
      by_cases ha : a = 0
      · simp [ha]
      · simp [ha, rest, List.cons_le_cons_iff]
    · have apart : a.toNat ≠ b.toNat := fun h => heads (UInt8.toNat_inj.mp h)
      have order : (a.toNat : Int) - b.toNat ≤ 0 ↔ a < b := by
        rw [UInt8.lt_iff_toNat_lt]
        omega
      rw [if_pos heads, order]
      by_cases ha : a = 0
      · have hb : b ≠ 0 := fun h => heads (ha.trans h.symm)
        have positive : 0 < b.toNat := Nat.pos_of_ne_zero fun h => hb (UInt8.toNat_inj.mp h)
        simp [ha, UInt8.lt_iff_toNat_lt, positive]
      · by_cases hb : b = 0
        · simp [ha, hb]
        · simp [ha, hb, heads, List.cons_le_cons_iff]

theorem strcmp_nonpos_iff (as bs : List UInt8) : strcmp as bs ≤ 0 ↔ text as ≤ text bs :=
  strncmp_nonpos_iff (Nat.lt_succ_self _) bs

theorem length_text_le (bs : List UInt8) : (text bs).length ≤ bs.length :=
  (List.takeWhile_prefix _).length_le

/-- `strcmp` sees the two texts. -/
theorem strcmp_eq_zero_iff (as bs : List UInt8) : strcmp as bs = 0 ↔ text as = text bs := by
  have long := length_text_le as
  rw [strcmp, strncmp_eq_zero_iff, text_take, text_take, List.take_of_length_le (by omega)]
  constructor
  · intro same
    have cut := congrArg List.length same
    rw [List.length_take] at cut
    rw [same, List.take_of_length_le (by omega)]
  · intro same
    rw [← same, List.take_of_length_le (by omega)]

/-- Zeros only behind the text. -/
def Field.Padded {n : Nat} (f : Field n) : Prop := pad n (text f.bytes) = f

theorem pad_text_pad (n : Nat) (bs : List UInt8) :
    pad n (text (pad n bs).bytes) = pad n (text bs) := by
  rw [text_pad, pad_take]

theorem padded_pad (n : Nat) {bs : List UInt8} (h : 0 ∉ bs) : (pad n bs).Padded := by
  rw [Field.Padded, pad_text_pad, text_of_notMem h]

theorem padded_copy (n : Nat) (s : Str) (limit : Nat) : (Field.copy n s limit).Padded :=
  padded_pad n fun h => s.noNul (List.mem_of_mem_take h)

/-- On a padded field the bounded string comparison is equality with the padded string. -/
theorem Field.Padded.strncmp_iff {n : Nat} {f : Field n} (hf : f.Padded) (bs : List UInt8) :
    strncmp n f.bytes bs = 0 ↔ f = pad n (text bs) := by
  have whole : f.bytes.take n = f.bytes := List.take_of_length_le (Nat.le_of_eq f.size)
  rw [strncmp_eq_zero_iff, whole, text_take]
  constructor
  · intro same
    rw [← hf, same, pad_take]
  · intro same
    rw [same, text_pad, text_of_notMem (nul_notMem_text bs)]

end CString
