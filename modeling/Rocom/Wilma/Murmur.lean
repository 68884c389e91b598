import Rocom.Lib.Mixing

/-! MurmurHash3_x86_32 of components/wilma/murmur3.c on a little-endian target. Every block of the
key goes through steps that lose nothing, so keys of one length that differ in one block, or behind
the last one, have different hashes. -/
namespace Rocom.Wilma

open Mixing

def rotl32 (x : BitVec 32) (r : Nat) : BitVec 32 := x <<< r ||| x >>> (32 - r)

def fmix32 (h : BitVec 32) : BitVec 32 :=
  let h := h ^^^ h >>> 16
  let h := h * 0x85ebca6b
  let h := h ^^^ h >>> 13
  let h := h * 0xc2b2ae35
  h ^^^ h >>> 16

/-- Four bytes of memory, read as one word. -/
def getblock (b₀ b₁ b₂ b₃ : UInt8) : BitVec 32 :=
  b₃.toBitVec ++ b₂.toBitVec ++ b₁.toBitVec ++ b₀.toBitVec

/-- What is done to a block, and to the tail, before it is taken in. -/
def scramble (k1 : BitVec 32) : BitVec 32 := rotl32 (k1 * 0xcc9e2d51) 15 * 0x1b873593

def takeBlock (h1 k1 : BitVec 32) : BitVec 32 :=
  rotl32 (h1 ^^^ scramble k1) 13 * 5 + 0xe6546b64

def blocks : List UInt8 → List (BitVec 32)
  | b₀ :: b₁ :: b₂ :: b₃ :: rest => getblock b₀ b₁ b₂ b₃ :: blocks rest
  | _ => []

def tail (key : List UInt8) : List UInt8 := key.drop (key.length / 4 * 4)

def tailByte (b : UInt8) (shift : Nat) : BitVec 32 := b.toBitVec.setWidth 32 <<< shift

/-- The cases of the `switch` fall through. -/
def tailWord : List UInt8 → BitVec 32
  | [] => 0
  | [t₀] => tailByte t₀ 0
  | [t₀, t₁] => tailByte t₁ 8 ^^^ tailByte t₀ 0
  | t₀ :: t₁ :: t₂ :: _ => tailByte t₂ 16 ^^^ tailByte t₁ 8 ^^^ tailByte t₀ 0

def takeTail (h1 : BitVec 32) (tail : List UInt8) : BitVec 32 :=
  if tail = [] then h1 else h1 ^^^ scramble (tailWord tail)

def murmurHash3X86_32 (key : List UInt8) (seed : BitVec 32) : BitVec 32 :=
  let h1 := (blocks key).foldl takeBlock seed
  let h1 := takeTail h1 (tail key)
  fmix32 (h1 ^^^ BitVec.ofNat 32 key.length)

/-! ### Nothing is lost -/

theorem rotl32_injective {r : Nat} (inside : r < 32) :
    Function.Injective fun x => rotl32 x r := by
  have same : (fun x => rotl32 x r) = fun x : BitVec 32 => x.rotateLeft r := by
    funext x
    rw [rotl32, BitVec.rotateLeft_def, Nat.mod_eq_of_lt inside]
  rw [same]
  exact rotateLeft_injective inside

theorem fmix32_injective : Function.Injective fmix32 := by
  have first := xorShift_injective (w := 32) (r := 16) (by decide)
  have second : Function.Injective fun x : BitVec 32 => x * 0x85ebca6b :=
    mul_injective (d := 0xa5cb9243) (by decide)
  have third := xorShift_injective (w := 32) (r := 13) (by decide)
  have fourth : Function.Injective fun x : BitVec 32 => x * 0xc2b2ae35 :=
    mul_injective (d := 0x7ed1b41d) (by decide)
  exact first.comp (fourth.comp (third.comp (second.comp first)))

theorem scramble_injective : Function.Injective scramble := by
  have first : Function.Injective fun x : BitVec 32 => x * 0xcc9e2d51 :=
    mul_injective (d := 0xdee13bb1) (by decide)
  have last : Function.Injective fun x : BitVec 32 => x * 0x1b873593 :=
    mul_injective (d := 0x56ed309b) (by decide)
  exact last.comp ((rotl32_injective (by decide)).comp first)

theorem xor_right_injective (k : BitVec 32) : Function.Injective fun x => k ^^^ x :=
  fun _ _ same => (BitVec.xor_right_inj k).mp same

theorem xor_left_injective (k : BitVec 32) : Function.Injective fun x => x ^^^ k :=
  fun _ _ same => (BitVec.xor_left_inj k).mp same

theorem turn_injective :
    Function.Injective fun x : BitVec 32 => rotl32 x 13 * 5 + 0xe6546b64 := by
  have affine : Function.Injective fun x : BitVec 32 => x * 5 + 0xe6546b64 :=
    affine_injective (d := 0xcccccccd) (by decide) _
  exact affine.comp (rotl32_injective (by decide))

theorem takeBlock_injective_block (h1 : BitVec 32) : Function.Injective (takeBlock h1) :=
  turn_injective.comp ((xor_right_injective h1).comp scramble_injective)

theorem takeBlock_injective_hash (k1 : BitVec 32) :
    Function.Injective fun h1 => takeBlock h1 k1 :=
  turn_injective.comp (xor_left_injective (scramble k1))

theorem getblock_injective {a₀ a₁ a₂ a₃ b₀ b₁ b₂ b₃ : UInt8}
    (same : getblock a₀ a₁ a₂ a₃ = getblock b₀ b₁ b₂ b₃) :
    [a₀, a₁, a₂, a₃] = [b₀, b₁, b₂, b₃] := by
  have bytes : a₃.toBitVec = b₃.toBitVec ∧ a₂.toBitVec = b₂.toBitVec ∧
      a₁.toBitVec = b₁.toBitVec ∧ a₀.toBitVec = b₀.toBitVec := by
    unfold getblock at same
    obtain ⟨same, low⟩ := append_inj same
    obtain ⟨same, second⟩ := append_inj same
    obtain ⟨same, third⟩ := append_inj same
    exact ⟨same, third, second, low⟩
  simp only [UInt8.toBitVec_inj] at bytes
  obtain ⟨rfl, rfl, rfl, rfl⟩ := bytes
  rfl

/-- The tail is a block whose missing bytes are zero. -/
theorem tail_eq_block (t₀ t₁ t₂ : UInt8) :
    tailByte t₂ 16 ^^^ tailByte t₁ 8 ^^^ tailByte t₀ 0 = getblock t₀ t₁ t₂ 0 := by
  apply BitVec.eq_of_getLsbD_eq
  intro i inside
  have beyond : ∀ (b : UInt8) (j : Nat), 8 ≤ j → b.toBitVec.getLsbD j = false :=
    fun b j above => BitVec.getLsbD_of_ge _ _ above
  simp only [getblock, tailByte, BitVec.getLsbD_xor, BitVec.getLsbD_shiftLeft,
    BitVec.getLsbD_setWidth, BitVec.getLsbD_append]
  by_cases first : i < 8
  · simp [first, inside, show i < 16 by omega]
  · by_cases second : i < 16
    · have low : i - 8 < 8 := by omega
      have within : i - 8 < 32 := by omega
      simp [first, second, low, within, inside, beyond t₀ i (by omega)]
    · have high : ¬ i - 8 < 8 := by omega
      have same : i - 8 - 8 = i - 16 := by omega
      by_cases third : i < 24
      · have low : i - 16 < 8 := by omega
        have within : i - 16 < 32 := by omega
        simp [first, second, high, low, within, inside, same, beyond t₀ i (by omega),
          beyond t₁ (i - 8) (by omega)]
      · simp [first, second, high, inside, same, beyond t₀ i (by omega),
          beyond t₁ (i - 8) (by omega), beyond t₂ (i - 16) (by omega)]

theorem tailWord_eq (tail : List UInt8) :
    tailWord tail = getblock (tail.getD 0 0) (tail.getD 1 0) (tail.getD 2 0) 0 := by
  have zero : ∀ shift, tailByte 0 shift = 0 := by
    intro shift
    simp [tailByte]
  rw [← tail_eq_block]
  match tail with
  | [] | [_] | [_, _] => simp [tailWord, zero]
  | _ :: _ :: _ :: _ => rfl

theorem tailWord_injective {s t : List UInt8} (lengths : s.length = t.length)
    (short : s.length < 4) (same : tailWord s = tailWord t) : s = t := by
  rw [tailWord_eq, tailWord_eq] at same
  obtain ⟨first, second, third⟩ : s.getD 0 0 = t.getD 0 0 ∧ s.getD 1 0 = t.getD 1 0 ∧
      s.getD 2 0 = t.getD 2 0 := by
    simpa using getblock_injective same
  apply List.ext_getElem lengths
  intro i inS inT
  have equal : s.getD i 0 = t.getD i 0 := by
    match i with
    | 0 => exact first
    | 1 => exact second
    | 2 => exact third
    | i + 3 => omega
  simpa [List.getD_eq_getElem?_getD, inS, inT] using equal

/-! ### Keys -/

theorem blocks_append (front rest : List UInt8) (whole : front.length % 4 = 0) :
    blocks (front ++ rest) = blocks front ++ blocks rest := by
  match front with
  | [] => rfl
  | [_] | [_, _] | [_, _, _] => simp at whole
  | b₀ :: b₁ :: b₂ :: b₃ :: front =>
    have fewer : front.length % 4 = 0 := by
      simp only [List.length_cons] at whole
      omega
    simp only [List.cons_append, blocks]
    exact congrArg _ (blocks_append front rest fewer)

theorem tail_append (front rest : List UInt8) (whole : front.length % 4 = 0) :
    tail (front ++ rest) = tail rest := by
  have split : (front ++ rest).length / 4 * 4 = front.length + rest.length / 4 * 4 := by
    rw [List.length_append]
    omega
  rw [tail, split, List.drop_append, List.drop_of_length_le (Nat.le_add_right _ _), List.nil_append,
    Nat.add_sub_cancel_left, tail]

theorem foldl_injective (ks : List (BitVec 32)) :
    Function.Injective fun h1 => ks.foldl takeBlock h1 := by
  induction ks with
  | nil => exact fun _ _ same => same
  | cons k ks ih => exact ih.comp (takeBlock_injective_hash k)

theorem takeTail_injective (tail : List UInt8) :
    Function.Injective fun h1 => takeTail h1 tail := by
  intro g h same
  have same : takeTail g tail = takeTail h tail := same
  unfold takeTail at same
  split at same
  · exact same
  · exact (BitVec.xor_left_inj _).mp same

/-- The hash of a key of this length, from the hash of its first blocks. -/
def finish (length : Nat) (rest : List UInt8) (h1 : BitVec 32) : BitVec 32 :=
  fmix32 (takeTail ((blocks rest).foldl takeBlock h1) (tail rest) ^^^ BitVec.ofNat 32 length)

theorem finish_injective (length : Nat) (rest : List UInt8) :
    Function.Injective (finish length rest) :=
  fmix32_injective.comp ((xor_left_injective _).comp
    ((takeTail_injective (tail rest)).comp (foldl_injective (blocks rest))))

theorem murmur_append (seed : BitVec 32) (front rest : List UInt8) (whole : front.length % 4 = 0) :
    murmurHash3X86_32 (front ++ rest) seed =
      finish (front.length + rest.length) rest ((blocks front).foldl takeBlock seed) := by
  unfold murmurHash3X86_32 finish
  rw [blocks_append front rest whole, tail_append front rest whole, List.foldl_append,
    List.length_append]

theorem takeTail_eq_iff (h1 : BitVec 32) {s t : List UInt8} (lengths : s.length = t.length)
    (short : s.length < 4) : takeTail h1 s = takeTail h1 t ↔ s = t := by
  unfold takeTail
  by_cases empty : s = []
  · have none_left : t = [] := List.length_eq_zero_iff.mp (by rw [← lengths, empty, List.length_nil])
    simp [empty, none_left]
  · have filled : t ≠ [] := by
      rintro rfl
      exact empty (List.length_eq_zero_iff.mp lengths)
    rw [if_neg empty, if_neg filled, BitVec.xor_right_inj, scramble_injective.eq_iff]
    exact ⟨tailWord_injective lengths short, congrArg tailWord⟩

section Keys
variable (seed : BitVec 32) (front : List UInt8) {other : List UInt8} (whole : front.length % 4 = 0)
include whole

theorem murmur_front_iff (lengths : front.length = other.length) (rest : List UInt8) :
    murmurHash3X86_32 (front ++ rest) seed = murmurHash3X86_32 (other ++ rest) seed ↔
      (blocks front).foldl takeBlock seed = (blocks other).foldl takeBlock seed := by
  rw [murmur_append seed front rest whole, murmur_append seed other rest (lengths ▸ whole), lengths]
  exact (finish_injective _ rest).eq_iff

theorem murmur_block_iff {b c : List UInt8} (sizeB : b.length = 4) (sizeC : c.length = 4)
    (rest : List UInt8) :
    murmurHash3X86_32 (front ++ b ++ rest) seed = murmurHash3X86_32 (front ++ c ++ rest) seed ↔
      b = c := by
  have size : (front ++ b).length = (front ++ c).length := by
    rw [List.length_append, List.length_append, sizeB, sizeC]
  have full : (front ++ b).length % 4 = 0 := by
    rw [List.length_append, sizeB]
    omega
  rw [murmur_front_iff seed _ full size, blocks_append front b whole, blocks_append front c whole,
    List.foldl_append, List.foldl_append]
  match b, c, sizeB, sizeC with
  | [b₀, b₁, b₂, b₃], [c₀, c₁, c₂, c₃], _, _ =>
    refine ⟨fun same => ?_, fun same => by rw [same]⟩
    exact getblock_injective (takeBlock_injective_block _ same)

theorem murmur_tail_iff {s t : List UInt8} (lengths : s.length = t.length) (short : s.length < 4) :
    murmurHash3X86_32 (front ++ s) seed = murmurHash3X86_32 (front ++ t) seed ↔ s = t := by
  have last : ∀ u : List UInt8, u.length < 4 → blocks u = [] ∧ tail u = u := by
    intro u few
    have none_whole : u.length / 4 = 0 := by omega
    refine ⟨?_, by rw [tail, none_whole, Nat.zero_mul, List.drop_zero]⟩
    match u with
    | [] | [_] | [_, _] | [_, _, _] => rfl
    | _ :: _ :: _ :: _ :: _ =>
      simp only [List.length_cons] at few
      omega
  obtain ⟨blocksS, tailS⟩ := last s short
  obtain ⟨blocksT, tailT⟩ := last t (lengths ▸ short)
  rw [murmur_append seed front s whole, murmur_append seed front t whole, lengths]
  unfold finish
  rw [blocksS, blocksT, tailS, tailT, fmix32_injective.eq_iff, BitVec.xor_left_inj]
  exact takeTail_eq_iff _ lengths short

end Keys

/-- Two keys of one length collide over a common rest exactly if they collide before it; so two
different blocks, and two different tails, are always told apart. -/
theorem murmur_separates (seed : BitVec 32) (front other rest : List UInt8)
    (whole : front.length % 4 = 0) (lengths : front.length = other.length) :
    (murmurHash3X86_32 (front ++ rest) seed = murmurHash3X86_32 (other ++ rest) seed ↔
        (blocks front).foldl takeBlock seed = (blocks other).foldl takeBlock seed) ∧
      (∀ b c : List UInt8, b.length = 4 → c.length = 4 →
        (murmurHash3X86_32 (front ++ b ++ rest) seed = murmurHash3X86_32 (front ++ c ++ rest) seed ↔
          b = c)) ∧
      ∀ s t : List UInt8, s.length = t.length → s.length < 4 →
        (murmurHash3X86_32 (front ++ s) seed = murmurHash3X86_32 (front ++ t) seed ↔ s = t) :=
  ⟨murmur_front_iff seed front whole lengths rest,
    fun _ _ sizeB sizeC => murmur_block_iff seed front whole sizeB sizeC rest,
    fun _ _ lengths short => murmur_tail_iff seed front whole lengths short⟩

/-- Two addresses of one vendor. -/
theorem murmur_separates_vendor :
    murmurHash3X86_32 [0x7c, 0xdf, 0xa1, 0x01, 0x02, 0x03] 0 ≠
        murmurHash3X86_32 [0x7c, 0xdf, 0xa1, 0x05, 0x02, 0x03] 0 ∧
      murmurHash3X86_32 [0x7c, 0xdf, 0xa1, 0x01, 0x02, 0x03] 0 ≠
        murmurHash3X86_32 [0x7c, 0xdf, 0xa1, 0x01, 0x02, 0x04] 0 := by
  have blocks := (murmur_separates 0 [] [] [0x02, 0x03] rfl rfl).2.1
    [0x7c, 0xdf, 0xa1, 0x01] [0x7c, 0xdf, 0xa1, 0x05] rfl rfl
  have tails := (murmur_separates 0 [0x7c, 0xdf, 0xa1, 0x01] [0x7c, 0xdf, 0xa1, 0x01] [] rfl rfl).2.2
    [0x02, 0x03] [0x02, 0x04] rfl (by decide)
  exact ⟨mt blocks.mp (by decide), mt tails.mp (by decide)⟩

end Rocom.Wilma
