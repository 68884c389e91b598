import Mathlib.Data.Nat.Digits.Lemmas

/-! JSON over bytes. The reader takes a part of the format: no blanks, whole numbers, and `\u`
only for ASCII. A text stands for a value when the reader gives it in every context. -/
namespace Json

inductive Value where
  | null
  | bool (b : Bool)
  | number (n : Int)
  | string (s : List UInt8)
  | array (items : List Value)
  | object (members : List (List UInt8 × Value))

/-- What was read, and the rest. -/
abbrev Reader (α : Type) := List UInt8 → Option (α × List UInt8)

abbrev quote : UInt8 := 0x22
abbrev backslash : UInt8 := 0x5c
abbrev comma : UInt8 := 0x2c
abbrev colon : UInt8 := 0x3a
abbrev minus : UInt8 := 0x2d
abbrev bracketOpen : UInt8 := 0x5b
abbrev bracketClose : UInt8 := 0x5d
abbrev braceOpen : UInt8 := 0x7b
abbrev braceClose : UInt8 := 0x7d

/-! Numbers. -/

def isDigit (b : UInt8) : Bool := 0x30 ≤ b && b ≤ 0x39

/-- No leading zeros. -/
def natural : Reader Nat := fun bs =>
  let ds := bs.takeWhile isDigit
  if ds = [] ∨ ds.headD 0 = 0x30 ∧ 1 < ds.length then none
  else some (Nat.ofDigits 10 (ds.reverse.map fun d => d.toNat - 0x30), bs.dropWhile isDigit)

def digit (d : Nat) : UInt8 := UInt8.ofNat (0x30 + d)

def decimal (n : Nat) : List UInt8 :=
  if n = 0 then [0x30] else (Nat.digits 10 n).reverse.map digit

def signed (n : Int) : List UInt8 :=
  if n < 0 then minus :: decimal n.natAbs else decimal n.natAbs

/-! Strings. -/

def hexValue (b : UInt8) : Option Nat :=
  if 0x30 ≤ b ∧ b ≤ 0x39 then some (b.toNat - 0x30)
  else if 0x61 ≤ b ∧ b ≤ 0x66 then some (b.toNat - 0x57)
  else if 0x41 ≤ b ∧ b ≤ 0x46 then some (b.toNat - 0x37)
  else none

def hexDigit (n : Nat) : UInt8 := if n < 10 then UInt8.ofNat (0x30 + n) else UInt8.ofNat (0x57 + n)

def hexNumber (bs : List UInt8) : Option Nat :=
  bs.foldl (fun n b => n.bind fun n => (hexValue b).map (16 * n + ·)) (some 0)

/-- The letter of a byte that has an escape of two bytes. -/
def shortEscape (b : UInt8) : Option UInt8 :=
  [(quote, quote), (backslash, backslash), (0x08, 0x62), (0x0c, 0x66), (0x0a, 0x6e), (0x0d, 0x72),
    (0x09, 0x74)].lookup b

def unescape (e : UInt8) : Option UInt8 :=
  [(quote, quote), (backslash, backslash), (0x2f, 0x2f), (0x62, 0x08), (0x66, 0x0c), (0x6e, 0x0a),
    (0x72, 0x0d), (0x74, 0x09)].lookup e

def escape (b : UInt8) : List UInt8 :=
  match shortEscape b with
  | some e => [backslash, e]
  | none =>
    if b < 0x20 then
      [backslash, 0x75, 0x30, 0x30, hexDigit (b.toNat / 16), hexDigit (b.toNat % 16)]
    else [b]

def prepend (b : UInt8) (r : Option (List UInt8 × List UInt8)) : Option (List UInt8 × List UInt8) :=
  r.map fun (s, rest) => (b :: s, rest)

/-- The bytes of a string, behind its first quote. -/
def string : Reader (List UInt8)
  | [] => none
  | b :: rest =>
    if b = quote then some ([], rest)
    else if b < 0x20 then none
    else if b ≠ backslash then prepend b (string rest)
    else
      match rest with
      | [] => none
      | e :: rest =>
        if e = 0x75 then
          match rest with
          | h₃ :: h₂ :: h₁ :: h₀ :: rest =>
            match hexNumber [h₃, h₂, h₁, h₀] with
            | some n => if n < 0x80 then prepend (UInt8.ofNat n) (string rest) else none
            | none => none
          | _ => none
        else
          match unescape e with
          | some b => prepend b (string rest)
          | none => none

def quoted (s : List UInt8) : List UInt8 := quote :: s.flatMap escape ++ [quote]

/-! Values. -/

def word {α : Type} (letters : List UInt8) (a : α) : Reader α := fun bs =>
  if letters <+: bs then some (a, bs.drop letters.length) else none

/-- At most `n` items, and the bracket that closes them. -/
def listed {α : Type} (item : Reader α) (close : UInt8) : Nat → Reader (List α)
  | 0, _ => none
  | n + 1, bs =>
    match item bs with
    | some (a, b :: rest) =>
      if b = close then some ([a], rest)
      else if b = comma then (listed item close n rest).map fun (as, rest) => (a :: as, rest)
      else none
    | _ => none

def collection {α : Type} (item : Reader α) (close : UInt8) (n : Nat) : Reader (List α)
  | [] => none
  | b :: rest => if b = close then some ([], rest) else listed item close n (b :: rest)

def member {α : Type} (item : Reader α) : Reader (List UInt8 × α)
  | [] => none
  | b :: rest =>
    if b = quote then
      match string rest with
      | some (key, c :: rest) =>
        if c = colon then (item rest).map fun (a, rest) => ((key, a), rest) else none
      | _ => none
    else none

/-- Values nested at most `n` deep. -/
def value : Nat → Reader Value
  | 0, _ => none
  | _, [] => none
  | n + 1, b :: rest =>
    if b = quote then (string rest).map fun (s, rest) => (.string s, rest)
    else if b = bracketOpen then
      (collection (value n) bracketClose n rest).map fun (items, rest) => (.array items, rest)
    else if b = braceOpen then
      (collection (member (value n)) braceClose n rest).map fun (ms, rest) => (.object ms, rest)
    else if b = minus then (natural rest).map fun (k, rest) => (.number (-k), rest)
    else if b = 0x74 then word [0x72, 0x75, 0x65] (.bool true) rest
    else if b = 0x66 then word [0x61, 0x6c, 0x73, 0x65] (.bool false) rest
    else if b = 0x6e then word [0x75, 0x6c, 0x6c] .null rest
    else (natural (b :: rest)).map fun (k, rest) => (.number k, rest)

/-- A text with nothing behind it. -/
def read (bs : List UInt8) : Option Value :=
  match value bs.length bs with
  | some (v, []) => some v
  | _ => none

/-! Digits. -/

theorem isDigit_digit : ∀ d < 10, isDigit (digit d) = true := by decide

theorem toNat_digit : ∀ d < 10, (digit d).toNat - 0x30 = d := by decide

theorem digit_ne_zero : ∀ d < 10, d ≠ 0 → digit d ≠ 0x30 := by decide

/-- What may follow a number. -/
def Ends (rest : List UInt8) : Prop := isDigit (rest.headD 0) = false

theorem takeWhile_isDigit {ds rest : List UInt8} (digits : ∀ d ∈ ds, isDigit d = true)
    (ends : Ends rest) : (ds ++ rest).takeWhile isDigit = ds := by
  rw [List.takeWhile_append_of_pos digits]
  cases rest with
  | nil => simp
  | cons b rest => simp [show isDigit b = false from ends]

theorem dropWhile_isDigit {ds rest : List UInt8} (digits : ∀ d ∈ ds, isDigit d = true)
    (ends : Ends rest) : (ds ++ rest).dropWhile isDigit = rest := by
  rw [List.dropWhile_append_of_pos digits]
  cases rest with
  | nil => rfl
  | cons b rest => simp [show isDigit b = false from ends]

theorem isDigit_of_mem_decimal {n : Nat} {b : UInt8} (h : b ∈ decimal n) : isDigit b = true := by
  unfold decimal at h
  split at h
  · rw [List.mem_singleton.mp h]
    rfl
  · obtain ⟨d, hd, rfl⟩ := List.mem_map.mp h
    exact isDigit_digit d (Nat.digits_lt_base (by decide) (List.mem_reverse.mp hd))

theorem decimal_ne_nil (n : Nat) : decimal n ≠ [] := by
  unfold decimal
  split
  · simp
  · rename_i nonzero
    simp [Nat.digits_eq_nil_iff_eq_zero, nonzero]

theorem natural_decimal (n : Nat) {rest : List UInt8} (ends : Ends rest) :
    natural (decimal n ++ rest) = some (n, rest) := by
  have digits : ∀ d ∈ decimal n, isDigit d = true := fun d hd => isDigit_of_mem_decimal hd
  have leading : ¬ ((decimal n).headD 0 = 0x30 ∧ 1 < (decimal n).length) := by
    unfold decimal
    split
    · simp
    · rename_i nonzero
      rintro ⟨zero, _⟩
      have some_digit : Nat.digits 10 n ≠ [] := Nat.digits_ne_nil_iff_ne_zero.mpr nonzero
      have last := Nat.getLast_digit_ne_zero 10 nonzero
      have small := Nat.digits_lt_base (by decide) (List.getLast_mem some_digit)
      rw [← List.dropLast_append_getLast some_digit] at zero
      simp only [List.reverse_append, List.reverse_singleton, List.singleton_append, List.map_cons,
        List.headD_cons] at zero
      exact digit_ne_zero _ small last zero
  have number : Nat.ofDigits 10 ((decimal n).reverse.map fun d => d.toNat - 0x30) = n := by
    unfold decimal
    split
    · rename_i zero
      rw [zero]
      rfl
    · rw [← List.map_reverse, List.reverse_reverse, List.map_map]
      have back : (Nat.digits 10 n).map ((fun d => d.toNat - 0x30) ∘ digit) = Nat.digits 10 n := by
        refine (List.map_congr_left fun d hd => ?_).trans (List.map_id _)
        exact toNat_digit d (Nat.digits_lt_base (by decide) hd)
      rw [back, Nat.ofDigits_digits]
  rw [natural, takeWhile_isDigit digits ends, dropWhile_isDigit digits ends,
    if_neg (not_or.mpr ⟨decimal_ne_nil n, leading⟩), number]

/-- `n` digits are enough below `10 ^ n`. -/
theorem length_decimal_le {n k : Nat} (positive : 0 < k) (small : n < 10 ^ k) :
    (decimal n).length ≤ k := by
  unfold decimal
  split
  · exact positive
  · rw [List.length_map, List.length_reverse]
    exact (Nat.digits_length_le_iff (by decide) n).mpr small

/-! Escapes. -/

theorem hexValue_hexDigit : ∀ n < 16, hexValue (hexDigit n) = some n := by decide

theorem hexNumber_control {n : Nat} (small : n < 0x100) :
    hexNumber [0x30, 0x30, hexDigit (n / 16), hexDigit (n % 16)] = some n := by
  have high := hexValue_hexDigit (n / 16) (by omega)
  have low := hexValue_hexDigit (n % 16) (by omega)
  have zero : hexValue 0x30 = some 0 := rfl
  simp only [hexNumber, List.foldl_cons, List.foldl_nil, Option.bind_some, zero, high, low,
    Option.map_some]
  congr 1
  omega

theorem shortEscape_eq_none_iff (b : UInt8) :
    shortEscape b = none ↔ b ∉ [quote, backslash, 0x08, 0x0c, 0x0a, 0x0d, 0x09] := by
  simp [shortEscape, List.lookup_eq_none_iff]

theorem mem_of_shortEscape {b e : UInt8} (short : shortEscape b = some e) :
    b ∈ [quote, backslash, 0x08, 0x0c, 0x0a, 0x0d, 0x09] := by
  by_contra other
  rw [(shortEscape_eq_none_iff b).mpr other] at short
  cases short

theorem unescape_shortEscape {b e : UInt8} (short : shortEscape b = some e) :
    unescape e = some b ∧ e ≠ 0x75 := by
  have listed := mem_of_shortEscape short
  simp only [List.mem_cons, List.not_mem_nil, or_false] at listed
  rcases listed with rfl | rfl | rfl | rfl | rfl | rfl | rfl <;> cases short <;> decide

theorem string_quote (rest : List UInt8) : string (quote :: rest) = some ([], rest) := by
  rw [string.eq_def]
  simp

theorem string_plain {b : UInt8} (ne_quote : b ≠ quote) (printed : ¬ b < 0x20)
    (ne_backslash : b ≠ backslash) (rest : List UInt8) :
    string (b :: rest) = prepend b (string rest) := by
  rw [string.eq_def]
  simp [ne_quote, printed, ne_backslash]

theorem string_short {b e : UInt8} (letter : e ≠ 0x75) (back : unescape e = some b)
    (rest : List UInt8) : string (backslash :: e :: rest) = prepend b (string rest) := by
  rw [string.eq_def]
  simp [quote, backslash, letter, back]

theorem string_control {b : UInt8} (ascii : b.toNat < 0x80) (rest : List UInt8) :
    string (backslash :: 0x75 :: 0x30 :: 0x30 :: hexDigit (b.toNat / 16) :: hexDigit (b.toNat % 16)
      :: rest) = prepend b (string rest) := by
  rw [string.eq_def]
  simp [quote, backslash, hexNumber_control (show b.toNat < 0x100 by omega), ascii]

theorem string_escape (b : UInt8) (rest : List UInt8) :
    string (escape b ++ rest) = prepend b (string rest) := by
  unfold escape
  cases short : shortEscape b with
  | some e =>
    obtain ⟨back, letter⟩ := unescape_shortEscape short
    exact string_short letter back rest
  | none =>
    have other := (shortEscape_eq_none_iff b).mp short
    simp only [List.mem_cons, not_or] at other
    dsimp only
    split
    · rename_i control
      have small : b.toNat < 0x20 := UInt8.lt_iff_toNat_lt.mp control
      exact string_control (by omega) rest
    · rename_i printed
      exact string_plain other.1 printed other.2.1 rest

theorem string_quoted (s rest : List UInt8) :
    string (s.flatMap escape ++ quote :: rest) = some (s, rest) := by
  induction s with
  | nil => exact string_quote rest
  | cons b s ih => rw [List.flatMap_cons, List.append_assoc, string_escape, ih]; rfl

theorem hexDigit_ne_zero : ∀ n < 16, hexDigit n ≠ 0 := by decide

theorem nul_notMem_escape (b : UInt8) : 0 ∉ escape b := by
  unfold escape
  cases short : shortEscape b with
  | some e =>
    have ne : e ≠ 0 := by
      rintro rfl
      cases (unescape_shortEscape short).1
    simp [backslash, ne.symm]
  | none =>
    dsimp only
    split
    · have high := hexDigit_ne_zero (b.toNat / 16) (by have := b.toNat_lt; omega)
      have low := hexDigit_ne_zero (b.toNat % 16) (by omega)
      simp [backslash, high.symm, low.symm]
    · rename_i printed
      rintro h
      rw [← List.mem_singleton.mp h] at printed
      exact printed (by decide)

/-- A quoted string can be handed on as a C string. -/
theorem nul_notMem_quoted (s : List UInt8) : 0 ∉ quoted s := by
  simp [quoted, quote, nul_notMem_escape]

/-- Between the quotes of a string: printed bytes other than quote and backslash, and escapes. -/
inductive Body : List UInt8 → Prop where
  | nil : Body []
  | plain {b : UInt8} {rest : List UInt8} :
      ¬ b < 0x20 → b ≠ quote → b ≠ backslash → Body rest → Body (b :: rest)
  | short {e b : UInt8} {rest : List UInt8} :
      unescape e = some b → Body rest → Body (backslash :: e :: rest)
  | number {h₃ h₂ h₁ h₀ : UInt8} {n : Nat} {rest : List UInt8} :
      hexNumber [h₃, h₂, h₁, h₀] = some n → Body rest →
      Body (backslash :: 0x75 :: h₃ :: h₂ :: h₁ :: h₀ :: rest)

theorem Body.escape {rest : List UInt8} (h : Body rest) (b : UInt8) :
    Body (Json.escape b ++ rest) := by
  unfold Json.escape
  cases short : shortEscape b with
  | some e => exact .short (unescape_shortEscape short).1 h
  | none =>
    have other := (shortEscape_eq_none_iff b).mp short
    simp only [List.mem_cons, not_or] at other
    dsimp only
    split
    · exact .number (hexNumber_control b.toNat_lt) h
    · rename_i printed
      exact .plain printed other.1 other.2.1 h

theorem body_flatMap_escape (s : List UInt8) : Body (s.flatMap escape) := by
  induction s with
  | nil => exact .nil
  | cons b s ih => exact ih.escape b

theorem hexDigit_printed : ∀ n < 16, ¬ hexDigit n < 0x20 := by decide

theorem shortEscape_printed {b e : UInt8} (short : shortEscape b = some e) : ¬ e < 0x20 := by
  have listed := mem_of_shortEscape short
  simp only [List.mem_cons, List.not_mem_nil, or_false] at listed
  rcases listed with rfl | rfl | rfl | rfl | rfl | rfl | rfl <;> cases short <;> decide

/-- An escape is made of printed bytes. -/
theorem escape_printed (b : UInt8) : ∀ c ∈ escape b, ¬ c < 0x20 := by
  unfold escape
  cases short : shortEscape b with
  | some e =>
    have letter := shortEscape_printed short
    simp only [List.mem_cons, List.not_mem_nil, or_false]
    rintro c (rfl | rfl)
    · decide
    · exact letter
  | none =>
    dsimp only
    split
    · have high := hexDigit_printed (b.toNat / 16) (by have := b.toNat_lt; omega)
      have low := hexDigit_printed (b.toNat % 16) (by omega)
      simp only [List.mem_cons, List.not_mem_nil, or_false]
      rintro c (rfl | rfl | rfl | rfl | rfl | rfl)
      · decide
      · decide
      · decide
      · decide
      · exact high
      · exact low
    · rename_i printed
      intro c hc
      rwa [List.mem_singleton.mp hc]

/-! Texts. -/

/-- `bs` stands for `v` wherever it is read. -/
def Reads (bs : List UInt8) (v : Value) : Prop :=
  ∀ n rest, bs.length ≤ n → Ends rest → value n (bs ++ rest) = some (v, rest)

theorem Reads.read {bs : List UInt8} {v : Value} (h : Reads bs v) : read bs = some v := by
  have whole := h bs.length [] (Nat.le_refl _) rfl
  rw [List.append_nil] at whole
  rw [Json.read, whole]

theorem Reads.ne_nil {bs : List UInt8} {v : Value} (h : Reads bs v) : bs ≠ [] := by
  rintro rfl
  cases h 0 [] (Nat.le_refl _) rfl

theorem reads_string (s : List UInt8) : Reads (quoted s) (.string s) := by
  intro n rest long _
  cases n with
  | zero => simp [quoted] at long
  | succ n => simp [quoted, value, string_quoted]

theorem reads_bool (b : Bool) :
    Reads (if b then [0x74, 0x72, 0x75, 0x65] else [0x66, 0x61, 0x6c, 0x73, 0x65]) (.bool b) := by
  intro n rest long _
  cases n with
  | zero => cases b <;> simp at long
  | succ n => cases b <;> simp [value, word, quote, bracketOpen, braceOpen, minus]

theorem decimal_head (n : Nat) : ∃ b ds, decimal n = b :: ds ∧ isDigit b = true := by
  cases text : decimal n with
  | nil => exact absurd text (decimal_ne_nil n)
  | cons b ds => exact ⟨b, ds, rfl, isDigit_of_mem_decimal (text ▸ List.mem_cons_self)⟩

theorem reads_signed (k : Int) : Reads (signed k) (.number k) := by
  intro n rest long ends
  have number := natural_decimal k.natAbs ends
  unfold signed at long ⊢
  cases n with
  | zero =>
    have some_digit := List.length_pos_iff.mpr (decimal_ne_nil k.natAbs)
    split at long
    · simp at long
    · omega
  | succ n =>
    split
    · rename_i negative
      have back : -|k| = k := by rw [abs_of_neg negative, neg_neg]
      simp [value, quote, bracketOpen, braceOpen, minus, number, back]
    · rename_i nonnegative
      have back : |k| = k := abs_of_nonneg (not_lt.mp nonnegative)
      obtain ⟨b, ds, text, isdigit⟩ := decimal_head k.natAbs
      have other : ∀ c, isDigit c = false → b ≠ c := fun c no same => by simp [same, no] at isdigit
      rw [text] at number ⊢
      rw [List.cons_append] at number
      simp [value, number, back, other _ (show isDigit quote = false from rfl),
        other _ (show isDigit bracketOpen = false from rfl),
        other _ (show isDigit braceOpen = false from rfl),
        other _ (show isDigit minus = false from rfl), other 0x74 rfl, other 0x66 rfl,
        other 0x6e rfl]

/-- `item` reads `a` from `bs`, whatever is behind. -/
def ItemReads {α : Type} (item : Reader α) (bs : List UInt8) (a : α) : Prop :=
  ∀ rest, Ends rest → item (bs ++ rest) = some (a, rest)

def separated (texts : List (List UInt8)) : List UInt8 := [comma].intercalate texts

theorem separated_singleton (t : List UInt8) : separated [t] = t := List.intercalate_singleton

theorem separated_cons_cons (t u : List UInt8) (texts : List (List UInt8)) :
    separated (t :: u :: texts) = t ++ comma :: separated (u :: texts) := by
  simp [separated, List.intercalate_cons_cons]

theorem separated_concat (texts : List (List UInt8)) (t : List UInt8) :
    separated (texts ++ [t]) = texts.flatMap (· ++ [comma]) ++ t := by
  induction texts with
  | nil => exact separated_singleton t
  | cons u texts ih =>
    have rest : texts ++ [t] ≠ [] := by simp
    rw [List.cons_append, separated, List.intercalate_cons_of_ne_nil rest, List.flatMap_cons]
    rw [separated] at ih
    rw [ih, List.append_assoc, List.append_assoc, List.append_assoc]

/-- Texts by index, with a comma behind each but the last. -/
theorem separated_range (text : Nat → List UInt8) (n : Nat) :
    ((List.range n).flatMap fun i => text i ++ if i = n - 1 then [] else [comma]) =
      separated ((List.range n).map text) := by
  cases n with
  | zero => rfl
  | succ n =>
    have earlier : ((List.range n).flatMap fun i => text i ++ if i = n then [] else [comma]) =
        (List.range n).flatMap fun i => text i ++ [comma] := by
      apply List.flatMap_congr
      intro i hi
      rw [if_neg (Nat.ne_of_lt (List.mem_range.mp hi))]
    rw [Nat.add_sub_cancel, List.range_succ, List.flatMap_append, earlier, List.map_append,
      List.map_singleton, separated_concat, List.flatMap_map]
    simp

theorem ends_cons {b : UInt8} (other : isDigit b = false) (rest : List UInt8) : Ends (b :: rest) :=
  other

section Collections
variable {α β : Type} {item : Reader β} {text : α → List UInt8} {result : α → β} {close : UInt8}
  {n : Nat}

theorem listed_separated (ne_comma : close ≠ comma) (ends : isDigit close = false) {xs : List α}
    (items : ∀ x ∈ xs, ItemReads item (text x) (result x)) (some_item : xs ≠ [])
    (long : xs.length ≤ n) (rest : List UInt8) :
    listed item close n (separated (xs.map text) ++ close :: rest) =
      some (xs.map result, rest) := by
  induction xs generalizing n with
  | nil => exact absurd rfl some_item
  | cons x xs ih =>
    have first := items x List.mem_cons_self
    cases n with
    | zero => simp at long
    | succ n =>
      cases xs with
      | nil =>
        rw [List.map_singleton, separated_singleton, listed, first _ (ends_cons ends rest)]
        simp
      | cons y xs =>
        have tail := ih (fun z hz => items z (List.mem_cons_of_mem _ hz)) (List.cons_ne_nil _ _)
          (Nat.le_of_succ_le_succ long)
        rw [List.map_cons] at tail
        rw [List.map_cons, List.map_cons, separated_cons_cons, List.append_assoc, List.cons_append,
          listed, first _ (ends_cons rfl _)]
        simp [ne_comma.symm, tail]

/-- Every item has a first byte, and it does not close the collection. -/
theorem collection_separated (ne_comma : close ≠ comma) (ends : isDigit close = false)
    {xs : List α} (items : ∀ x ∈ xs, ItemReads item (text x) (result x))
    (opens : ∀ x ∈ xs, ∃ b bs, text x = b :: bs ∧ b ≠ close) (long : xs.length ≤ n)
    (rest : List UInt8) :
    collection item close n (separated (xs.map text) ++ close :: rest) =
      some (xs.map result, rest) := by
  cases xs with
  | nil => simp [separated, collection]
  | cons x xs =>
    have whole := listed_separated ne_comma ends items (List.cons_ne_nil _ _) long rest
    obtain ⟨b, bs, first, ne_close⟩ := opens x List.mem_cons_self
    have head : ∃ cs, separated ((x :: xs).map text) = b :: cs := by
      rw [List.map_cons, first]
      cases xs with
      | nil => exact ⟨bs, separated_singleton _⟩
      | cons y xs => exact ⟨_, separated_cons_cons _ _ _⟩
    obtain ⟨cs, head⟩ := head
    rw [head, List.cons_append] at whole ⊢
    rw [collection, if_neg ne_close, whole]

/-- The separated texts have room for each of them and a comma for the others. -/
theorem length_separated {xs : List α} (filled : ∀ x ∈ xs, text x ≠ []) :
    xs.length ≤ (separated (xs.map text)).length ∧
      ∀ x ∈ xs, (text x).length ≤ (separated (xs.map text)).length := by
  induction xs with
  | nil => exact ⟨Nat.zero_le _, fun x hx => absurd hx List.not_mem_nil⟩
  | cons x xs ih =>
    have own := List.length_pos_iff.mpr (filled x List.mem_cons_self)
    obtain ⟨count, each⟩ := ih fun y hy => filled y (List.mem_cons_of_mem _ hy)
    cases xs with
    | nil =>
      rw [List.map_singleton, separated_singleton]
      refine ⟨own, fun y hy => ?_⟩
      rw [List.mem_singleton.mp hy]
    | cons y xs =>
      have size : (separated ((x :: y :: xs).map text)).length =
          (text x).length + 1 + (separated ((y :: xs).map text)).length := by
        simp only [List.map_cons, separated_cons_cons, List.length_append, List.length_cons]
        omega
      rw [size]
      constructor
      · rw [List.length_cons]
        omega
      · intro z hz
        rcases List.mem_cons.mp hz with rfl | later
        · omega
        · have := each z later
          omega

end Collections

def arrayText (texts : List (List UInt8)) : List UInt8 :=
  bracketOpen :: separated texts ++ [bracketClose]

def memberText (key text : List UInt8) : List UInt8 := quoted key ++ colon :: text

def objectText (members : List (List UInt8)) : List UInt8 :=
  braceOpen :: separated members ++ [braceClose]

/-- A value does not begin like the end of an array. -/
theorem Reads.opens {bs : List UInt8} {v : Value} (h : Reads bs v) :
    ∃ b rest, bs = b :: rest ∧ b ≠ bracketClose := by
  cases bs with
  | nil => exact absurd rfl h.ne_nil
  | cons b rest =>
    refine ⟨b, rest, rfl, ?_⟩
    rintro rfl
    have whole := h (rest.length + 1) [] (Nat.le_refl _) rfl
    simp [value, quote, bracketOpen, braceOpen, minus, bracketClose, natural, isDigit] at whole

theorem reads_array {α : Type} {text : α → List UInt8} {result : α → Value} {xs : List α}
    (each : ∀ x ∈ xs, Reads (text x) (result x)) :
    Reads (arrayText (xs.map text)) (.array (xs.map result)) := by
  intro n rest long _
  obtain ⟨count, sizes⟩ := length_separated fun x hx => (each x hx).ne_nil
  cases n with
  | zero => simp [arrayText] at long
  | succ n =>
    have size : (separated (xs.map text)).length ≤ n := by
      simp only [arrayText, List.cons_append, List.length_cons, List.length_append] at long
      omega
    have items : ∀ x ∈ xs, ItemReads (value n) (text x) (result x) :=
      fun x hx rest ends => each x hx n rest ((sizes x hx).trans size) ends
    have list := collection_separated (by decide) rfl items (fun x hx => (each x hx).opens)
      (count.trans size) rest
    rw [arrayText, List.append_assoc, List.cons_append, List.singleton_append, value, list]
    rfl

theorem member_memberText {key text : List UInt8} {v : Value} {item : Reader Value}
    (reads : ItemReads item text v) : ItemReads (member item) (memberText key text) (key, v) := by
  intro rest ends
  have name := string_quoted key (colon :: (text ++ rest))
  simp [memberText, quoted, member, name, reads rest ends]

/-- The members as key, text and value. -/
theorem reads_object {members : List (List UInt8 × List UInt8 × Value)}
    (each : ∀ m ∈ members, Reads m.2.1 m.2.2) :
    Reads (objectText (members.map fun m => memberText m.1 m.2.1))
      (.object (members.map fun m => (m.1, m.2.2))) := by
  intro n rest long _
  have opens : ∀ m ∈ members, ∃ b bs, memberText m.1 m.2.1 = b :: bs ∧ b ≠ braceClose :=
    fun m _ => ⟨quote, _, rfl, by decide⟩
  have filled : ∀ m ∈ members, memberText m.1 m.2.1 ≠ [] := fun m _ => List.cons_ne_nil _ _
  obtain ⟨count, sizes⟩ := length_separated filled
  cases n with
  | zero => simp [objectText] at long
  | succ n =>
    have size : (separated (members.map fun m => memberText m.1 m.2.1)).length ≤ n := by
      simp only [objectText, List.cons_append, List.length_cons, List.length_append] at long
      omega
    have items : ∀ m ∈ members,
        ItemReads (member (value n)) (memberText m.1 m.2.1) (m.1, m.2.2) := by
      intro m hm
      have whole := (sizes m hm).trans size
      simp only [memberText, List.length_append, List.length_cons] at whole
      exact member_memberText fun rest ends => each m hm n rest (by omega) ends
    have list := collection_separated (by decide) rfl items opens (count.trans size) rest
    rw [objectText, List.append_assoc, List.cons_append, List.singleton_append, value, list]
    rfl

end Json
