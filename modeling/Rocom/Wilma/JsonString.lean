import Rocom.Lib.Buffer
import Rocom.Lib.Json

/-! `wilma_json_print_string` of components/wilma/utils.c, with every byte it writes. -/
namespace Rocom.Wilma

open CString Json

/-- The string of the first pass. -/
def oneCharacter : List UInt8 := [0x22, 0x5c, 0x08, 0x0c, 0x0a, 0x0d, 0x09]

/-- The first pass: additional characters needed for escaping. -/
def escapeCharacters (input : Str) : Nat :=
  input.chars.foldl (fun n c => if c ∈ oneCharacter then n + 1 else if c < 32 then n + 5 else n) 0

/-- The cases of the switch, `none` for its default. -/
def escapeLetter (c : UInt8) : Option UInt8 :=
  if c = 0x5c then some 0x5c
  else if c = 0x22 then some 0x22
  else if c = 0x08 then some 0x62
  else if c = 0x0c then some 0x66
  else if c = 0x0a then some 0x6e
  else if c = 0x0d then some 0x72
  else if c = 0x09 then some 0x74
  else none

/-- `output_buffer`, and the offset of `output_pointer`. -/
structure Printing where
  output : Buffer
  pointer : Nat

/-- `sprintf` with `u%04x`, and the NUL it leaves. -/
def hexEscape (c : UInt8) : List UInt8 :=
  [0x75, 0x30, 0x30, hexDigit (c.toNat / 16), hexDigit (c.toNat % 16), 0]

/-- The second pass, for one character. -/
def printCharacter (s : Printing) (c : UInt8) : Printing :=
  if 31 < c ∧ c ≠ 0x22 ∧ c ≠ 0x5c then ⟨s.output.put s.pointer c, s.pointer + 1⟩
  else
    let output := s.output.put s.pointer 0x5c
    let pointer := s.pointer + 1
    match escapeLetter c with
    | some letter => ⟨output.put pointer letter, pointer + 1⟩
    | none => ⟨output.puts pointer (hexEscape c), pointer + 4 + 1⟩

/-- The last two lines of both paths. -/
def closeString (output : Buffer) (outputLength : Nat) : Buffer :=
  (output.put (outputLength + 1) 0x22).put (outputLength + 2) 0

/-- No characters have to be escaped. -/
def copyString (input : Str) (output : Buffer) : Buffer :=
  closeString ((output.put 0 0x22).puts 1 input.chars) (input.strlen + escapeCharacters input)

/-- Copy the string, and escape characters on the way. -/
def escapeString (input : Str) (output : Buffer) : Buffer :=
  closeString (input.chars.foldl printCharacter ⟨output.put 0 0x22, 1⟩).output
    (input.strlen + escapeCharacters input)

def printText (input : Str) (output : Buffer) : Buffer :=
  if escapeCharacters input = 0 then copyString input output else escapeString input output

/-- `none` for the result false. The pointer `output` is still NULL where it is tested for a
missing input. -/
def wilmaJsonPrintString (input : Option Str) (outputBuffer : Option (List UInt8)) :
    Option Buffer :=
  match outputBuffer, input with
  | none, _ => none
  | some _, none => none
  | some memory, some input => some (printText input (Buffer.of memory))

/-! The two passes against the escapes of the format. -/

theorem shortEscape_none_iff (c : UInt8) : shortEscape c = none ↔ c ∉ oneCharacter :=
  shortEscape_eq_none_iff c

theorem mem_of_shortEscape {c e : UInt8} (short : shortEscape c = some e) : c ∈ oneCharacter :=
  Json.mem_of_shortEscape short

theorem escapeLetter_eq (c : UInt8) : escapeLetter c = shortEscape c := by
  cases short : shortEscape c with
  | none =>
    have other := (shortEscape_none_iff c).mp short
    simp only [oneCharacter, List.mem_cons, List.not_mem_nil, or_false, not_or] at other
    obtain ⟨h₁, h₂, h₃, h₄, h₅, h₆, h₇⟩ := other
    simp [escapeLetter, h₁, h₂, h₃, h₄, h₅, h₆, h₇]
  | some e =>
    have listed := mem_of_shortEscape short
    simp only [oneCharacter, List.mem_cons, List.not_mem_nil, or_false] at listed
    rcases listed with rfl | rfl | rfl | rfl | rfl | rfl | rfl <;> exact short

/-- The additional characters of one byte. -/
def extra (c : UInt8) : Nat := if c ∈ oneCharacter then 1 else if c < 32 then 5 else 0

theorem escapeCharacters_eq (input : Str) :
    escapeCharacters input = (input.chars.map extra).sum := by
  have run : ∀ (cs : List UInt8) (n : Nat),
      cs.foldl (fun n c => if c ∈ oneCharacter then n + 1 else if c < 32 then n + 5 else n) n =
        n + (cs.map extra).sum := by
    intro cs
    induction cs with
    | nil => exact fun n => rfl
    | cons c cs ih =>
      intro n
      rw [List.foldl_cons, ih, List.map_cons, List.sum_cons, extra]
      split
      · omega
      · split <;> omega
  rw [escapeCharacters, run, Nat.zero_add]

theorem length_escape (c : UInt8) : (escape c).length = 1 + extra c := by
  unfold escape extra
  cases short : shortEscape c with
  | none =>
    rw [if_neg ((shortEscape_none_iff c).mp short)]
    dsimp only
    split <;> rfl
  | some e =>
    rw [if_pos (mem_of_shortEscape short)]
    rfl

theorem length_quoted (input : Str) :
    (quoted input.chars).length = input.strlen + escapeCharacters input + 2 := by
  have run : ∀ cs : List UInt8, (cs.flatMap escape).length = cs.length + (cs.map extra).sum := by
    intro cs
    induction cs with
    | nil => rfl
    | cons c cs ih =>
      rw [List.flatMap_cons, List.length_append, length_escape, ih, List.length_cons, List.map_cons,
        List.sum_cons]
      omega
  rw [escapeCharacters_eq, quoted, List.length_append, List.length_cons, run, Str.strlen,
    List.length_singleton]

/-! The second pass. -/

/-- `done` is written; the NUL of a `sprintf` may be behind it. -/
structure Printing.Done (s : Printing) (done : List UInt8) : Prop where
  pointer : s.pointer = done.length
  filled : done <+: s.output.bytes
  extent : s.output.extent ≤ done.length + 1

/-- The comparisons of the second pass agree with the classes of the first. -/
theorem copied_iff (c : UInt8) :
    (31 < c ∧ c ≠ 0x22 ∧ c ≠ 0x5c) ↔ c ∉ oneCharacter ∧ ¬ c < 32 := by
  have border : 31 < c ↔ ¬ c < 32 := by
    simp only [UInt8.lt_iff_toNat_lt, UInt8.reduceToNat]
    omega
  constructor
  · rintro ⟨printed, ne_quote, ne_backslash⟩
    refine ⟨?_, border.mp printed⟩
    intro listed
    simp only [oneCharacter, List.mem_cons, List.not_mem_nil, or_false] at listed
    revert printed ne_quote ne_backslash
    rcases listed with rfl | rfl | rfl | rfl | rfl | rfl | rfl <;> decide
  · rintro ⟨other, printed⟩
    refine ⟨border.mpr printed, ?_, ?_⟩
    · rintro rfl
      exact other (by decide)
    · rintro rfl
      exact other (by decide)

theorem escape_plain {c : UInt8} (other : c ∉ oneCharacter) (printed : ¬ c < 32) :
    escape c = [c] := by
  simp only [escape, (shortEscape_none_iff c).mpr other, if_neg printed]

theorem Printing.Done.character {s : Printing} {done : List UInt8} (h : s.Done done) (c : UInt8) :
    (printCharacter s c).Done (done ++ escape c) := by
  have extent := h.extent
  by_cases copied : 31 < c ∧ c ≠ 0x22 ∧ c ≠ 0x5c
  · obtain ⟨other, printed⟩ := (copied_iff c).mp copied
    rw [printCharacter, if_pos copied, escape_plain other printed, h.pointer]
    refine ⟨by simp, Buffer.put_next h.filled c, ?_⟩
    rw [Buffer.extent_put]
    simp only [List.length_append, List.length_singleton]
    omega
  · have mark := Buffer.put_next h.filled 0x5c
    have behind : (done ++ [(0x5c : UInt8)]).length = done.length + 1 := by simp
    rw [printCharacter, if_neg copied, h.pointer, escapeLetter_eq]
    cases short : shortEscape c with
    | some letter =>
      have text : done ++ escape c = done ++ [0x5c] ++ [letter] := by simp [escape, short]
      have next := Buffer.put_next mark letter
      rw [behind, ← text] at next
      refine ⟨by simp [text], next, ?_⟩
      simp only [text, Buffer.extent_put, List.length_append, List.length_singleton]
      omega
    | none =>
      have control : c < 32 := by
        by_contra printed
        exact copied ((copied_iff c).mpr ⟨(shortEscape_none_iff c).mp short, printed⟩)
      have text : done ++ [0x5c] ++ hexEscape c = done ++ escape c ++ [0] := by
        simp [escape, short, control, hexEscape]
      have size : (escape c).length = 6 := by simp [escape, short, control]
      have next := Buffer.puts_next mark (hexEscape c)
      rw [behind, text] at next
      refine ⟨by simp [size], (List.prefix_append _ _).trans next, ?_⟩
      have filled : hexEscape c ≠ [] := List.cons_ne_nil _ _
      have hex : (hexEscape c).length = 6 := rfl
      simp only [Buffer.extent_puts _ _ filled, Buffer.extent_put, List.length_append, size, hex]
      omega

theorem Printing.Done.characters {s : Printing} {done : List UInt8} (h : s.Done done)
    (cs : List UInt8) : (cs.foldl printCharacter s).Done (done ++ cs.flatMap escape) := by
  induction cs generalizing s done with
  | nil => simpa using h
  | cons c cs ih =>
    rw [List.foldl_cons, List.flatMap_cons, ← List.append_assoc]
    exact ih (h.character c)

theorem flatMap_escape_of_plain {cs : List UInt8} (plain : ∀ c ∈ cs, escape c = [c]) :
    cs.flatMap escape = cs := by
  induction cs with
  | nil => rfl
  | cons c cs ih =>
    rw [List.flatMap_cons, plain c List.mem_cons_self,
      ih fun d hd => plain d (List.mem_cons_of_mem _ hd), List.singleton_append]

theorem copied_of_extra {c : UInt8} (nothing : extra c = 0) : 31 < c ∧ c ≠ 0x22 ∧ c ≠ 0x5c := by
  unfold extra at nothing
  rw [copied_iff]
  split at nothing
  · cases nothing
  · rename_i other
    split at nothing
    · cases nothing
    · rename_i printed
      exact ⟨other, printed⟩

theorem escape_of_extra {c : UInt8} (nothing : extra c = 0) : escape c = [c] := by
  obtain ⟨other, printed⟩ := (copied_iff c).mp (copied_of_extra nothing)
  exact escape_plain other printed

theorem closeString_filled {output : Buffer} {done : List UInt8} {outputLength : Nat}
    (filled : done <+: output.bytes) (length : done.length = outputLength + 1)
    (extent : output.extent ≤ done.length + 1) :
    done ++ [0x22, 0] <+: (closeString output outputLength).bytes ∧
      (closeString output outputLength).extent = done.length + 2 := by
  have mark := Buffer.put_next filled 0x22
  have last := Buffer.put_next mark 0
  rw [List.length_append, List.length_singleton, List.append_assoc, length] at last
  refine ⟨last, ?_⟩
  simp only [closeString, Buffer.extent_put, length] at extent ⊢
  omega

/-- The whole string stands in the buffer, and its NUL is the last byte that was written. -/
theorem printText_filled (input : Str) (memory : List UInt8) :
    quoted input.chars ++ [0] <+: (printText input (Buffer.of memory)).bytes ∧
      (printText input (Buffer.of memory)).extent = (quoted input.chars).length + 1 := by
  have start : Printing.Done ⟨(Buffer.of memory).put 0 0x22, 1⟩ [0x22] :=
    ⟨rfl, Buffer.put_next (List.nil_prefix) 0x22, Nat.le_succ _⟩
  have size := length_quoted input
  have text : quoted input.chars = [0x22] ++ input.chars.flatMap escape ++ [0x22] := rfl
  have length : ([0x22] ++ input.chars.flatMap escape).length =
      input.strlen + escapeCharacters input + 1 := by
    rw [text, List.length_append, List.length_singleton] at size
    omega
  have closed : ∀ output : Buffer, [0x22] ++ input.chars.flatMap escape <+: output.bytes →
      output.extent ≤ ([0x22] ++ input.chars.flatMap escape).length + 1 →
      quoted input.chars ++ [0] <+:
          (closeString output (input.strlen + escapeCharacters input)).bytes ∧
        (closeString output (input.strlen + escapeCharacters input)).extent =
          (quoted input.chars).length + 1 := by
    intro output filled extent
    have done := closeString_filled filled length extent
    rw [text, List.append_assoc _ [0x22] [0]]
    refine ⟨done.1, done.2.trans ?_⟩
    simp only [List.length_append, List.length_singleton]
  unfold printText copyString escapeString
  split
  · rename_i none
    have same : input.chars.flatMap escape = input.chars := by
      rw [escapeCharacters_eq, List.sum_eq_zero_iff_forall_eq_nat] at none
      apply flatMap_escape_of_plain
      intro c hc
      exact escape_of_extra (none _ (List.mem_map_of_mem hc))
    have next := Buffer.puts_next start.filled input.chars
    apply closed
    · rw [same]
      exact next
    · cases chars : input.chars with
      | nil => simp [Buffer.puts, Buffer.of]
      | cons c cs =>
        rw [chars] at same
        rw [Buffer.extent_puts _ _ (List.cons_ne_nil _ _), same]
        simp only [Buffer.extent_put, Buffer.of, List.length_append, List.length_cons,
          List.length_nil]
        omega
  · have done := start.characters input.chars
    exact closed _ done.filled done.extent

/-- A string function reads the quoted string back. -/
theorem text_printText (input : Str) (memory : List UInt8) :
    text (printText input (Buffer.of memory)).bytes = quoted input.chars :=
  text_of_prefix (nul_notMem_quoted input.chars) (printText_filled input memory).1

theorem extent_printText (input : Str) (memory : List UInt8) :
    (printText input (Buffer.of memory)).extent = input.strlen + escapeCharacters input + 3 := by
  rw [(printText_filled input memory).2, length_quoted]

/-! The two paths. -/

/-- Without escapes the loop copies. -/
theorem foldl_printCharacter {cs : List UInt8} (nothing : ∀ c ∈ cs, extra c = 0) (s : Printing) :
    (cs.foldl printCharacter s).output = s.output.puts s.pointer cs := by
  induction cs generalizing s with
  | nil => rfl
  | cons c cs ih =>
    have copied := copied_of_extra (nothing c List.mem_cons_self)
    rw [List.foldl_cons, ih fun d hd => nothing d (List.mem_cons_of_mem c hd), printCharacter,
      if_pos copied]
    rfl

theorem copyString_eq (input : Str) (output : Buffer) (none : escapeCharacters input = 0) :
    copyString input output = escapeString input output := by
  rw [escapeCharacters_eq, List.sum_eq_zero_iff_forall_eq_nat] at none
  have loop := foldl_printCharacter (fun c hc => none _ (List.mem_map_of_mem hc))
    ⟨output.put 0 0x22, 1⟩
  rw [copyString, escapeString, loop]

/-- What is written is a string of the format for the input; its NUL is two behind the length that
was counted, and the path without escapes does what the loop would do. -/
theorem printString_round_trip (input : Str) (memory : List UInt8) :
    ∃ output body, wilmaJsonPrintString (some input) (some memory) = some output ∧
      text output.bytes = quote :: body ++ [quote] ∧
      string (body ++ [quote]) = some (input.chars, []) ∧
      Body body ∧ (∀ c ∈ body, ¬ c < 0x20) ∧
      output.bytes[input.strlen + escapeCharacters input + 2]? = some 0 ∧
      (text output.bytes).length = input.strlen + escapeCharacters input + 2 ∧
      output.extent = input.strlen + escapeCharacters input + 3 ∧
      (escapeCharacters input = 0 →
        copyString input (Buffer.of memory) = escapeString input (Buffer.of memory)) := by
  have length := length_quoted input
  obtain ⟨rest, filled⟩ := (printText_filled input memory).1
  refine ⟨printText input (Buffer.of memory), input.chars.flatMap escape, rfl,
    text_printText input memory, string_quoted input.chars [], body_flatMap_escape input.chars,
    ?_, ?_, ?_, extent_printText input memory, copyString_eq input (Buffer.of memory)⟩
  · intro c hc
    obtain ⟨b, _, hb⟩ := List.mem_flatMap.mp hc
    exact escape_printed b c hb
  · rw [← filled, ← length]
    simp
  · rw [text_printText, length]

end Rocom.Wilma
