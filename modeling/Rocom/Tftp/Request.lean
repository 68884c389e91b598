import Rocom.Lib.Buffer
import Rocom.Lib.Fields
import Rocom.Tftp.Task

/-! The fields of a request: `tftp_get_field` with the offsets it reads, and the packet that
`tftp_send_rrq` builds. -/
namespace Rocom.Tftp

open CString (Buffer IsField Str first_field)

/-! The loop over the bytes behind the opcode. -/

namespace FieldScan

@[simp] theorem next_offs (s : FieldScan) (c : UInt8) : (s.next c).offs = s.offs + 1 := by
  unfold next
  dsimp only
  split <;> split <;> (try split) <;> rfl

theorem loop_cons {s : FieldScan} (open_field : 0 ≤ s.field) (c : UInt8) (cs : List UInt8) :
    s.loop (c :: cs) = (s.next c).loop cs :=
  if_pos open_field

theorem loop_done {s : FieldScan} (done : s.field < 0) (cs : List UInt8) : s.loop cs = s := by
  cases cs with
  | nil => rfl
  | cons c cs => exact if_neg (by omega)

/-- The bytes of a field that is not the wanted one. -/
theorem loop_skip {s : FieldScan} (before : 0 < s.field) {chars : List UInt8} (noNul : 0 ∉ chars)
    (cs : List UInt8) :
    s.loop (chars ++ cs) = FieldScan.loop { s with offs := s.offs + chars.length } cs := by
  induction chars generalizing s with
  | nil => rfl
  | cons c chars ih =>
    have ne : c ≠ 0 := fun same => noNul (same ▸ List.mem_cons_self)
    have step : s.next c = { s with offs := s.offs + 1 } := by
      simp [next, ne, (Int.ne_of_lt before).symm]
    rw [List.cons_append, loop_cons (Int.le_of_lt before), step,
      ih (by exact before) fun mem => noNul (List.mem_cons_of_mem c mem), List.length_cons]
    simp only [Nat.add_assoc, Nat.add_comm 1]

/-- The bytes of the wanted field. -/
theorem loop_own {s : FieldScan} (own : s.field = 0) {chars : List UInt8} (noNul : 0 ∉ chars)
    (cs : List UInt8) :
    s.loop (chars ++ cs) = FieldScan.loop
      { s with offs := s.offs + chars.length, fieldLen := s.fieldLen + chars.length } cs := by
  induction chars generalizing s with
  | nil => rfl
  | cons c chars ih =>
    have ne : c ≠ 0 := fun same => noNul (same ▸ List.mem_cons_self)
    have step : s.next c = { s with offs := s.offs + 1, fieldLen := s.fieldLen + 1 } := by
      simp [next, ne, own]
    rw [List.cons_append, loop_cons (by omega), step,
      ih (by exact own) fun mem => noNul (List.mem_cons_of_mem c mem), List.length_cons]
    simp only [Nat.add_assoc, Nat.add_comm 1]

theorem next_nul_own {s : FieldScan} (own : s.field = 0) :
    s.next 0 = { s with field := -1, offs := s.offs + 1, fieldLen := s.fieldLen + 1 } := by
  simp [next, own]

theorem next_nul_skip {s : FieldScan} {k : Nat} (before : s.field = (k + 1 : Nat)) :
    s.next 0 =
      { s with
        field := k
        offs := s.offs + 1
        fieldOffs := if k = 0 then s.offs + 1 else s.fieldOffs } := by
  have other : s.field ≠ 0 := by omega
  have less : s.field - 1 = k := by omega
  by_cases last : k = 0
  · simp [next, other, less, last]
  · simp [next, other, less, last]

/-- At the start of a field, with `k` whole fields to skip. -/
structure At (s : FieldScan) (k : Nat) : Prop where
  field : s.field = k
  fresh : s.fieldLen = 0
  start : k = 0 → s.fieldOffs = s.offs

theorem At.next {s : FieldScan} {k : Nat} (h : s.At (k + 1)) {chars : List UInt8}
    (noNul : 0 ∉ chars) (cs : List UInt8) :
    ∃ s' : FieldScan, s'.At k ∧ s'.offs = s.offs + (chars.length + 1) ∧
      s.loop (chars ++ 0 :: cs) = s'.loop cs := by
  have positive : 0 < s.field := by
    rw [h.field]
    omega
  refine ⟨⟨k, s.offs + (chars.length + 1),
    if k = 0 then s.offs + (chars.length + 1) else s.fieldOffs, s.fieldLen⟩,
    ⟨rfl, h.fresh, fun zero => if_pos zero⟩, rfl, ?_⟩
  rw [loop_skip positive noNul, loop_cons (by exact Int.le_of_lt positive),
    next_nul_skip (by exact h.field)]
  simp only [Nat.add_assoc]

theorem loop_none {s : FieldScan} {k : Nat} (h : s.At k) {cs : List UInt8}
    (missing : CString.field k cs = none) : 0 ≤ (s.loop cs).field := by
  induction k generalizing s cs with
  | zero =>
    rcases first_field cs with unterminated | ⟨chars, rest, rfl, noNul⟩
    · have all := loop_own h.field unterminated []
      rw [List.append_nil] at all
      rw [all]
      exact Int.le_of_eq h.field.symm
    · rw [CString.field_zero_append noNul] at missing
      cases missing
  | succ k ih =>
    rcases first_field cs with unterminated | ⟨chars, rest, rfl, noNul⟩
    · have positive : 0 < s.field := by
        rw [h.field]
        omega
      have all := loop_skip positive unterminated []
      rw [List.append_nil] at all
      rw [all]
      exact Int.le_of_lt positive
    · rw [CString.field_succ_append noNul] at missing
      obtain ⟨s', later, -, same⟩ := h.next noNul rest
      rw [same]
      exact ih later missing

theorem loop_some {s : FieldScan} {k : Nat} (h : s.At k) {cs f : List UInt8}
    (found : CString.field k cs = some f) :
    ∃ before rest, cs = before ++ f ++ rest ∧ s.loop cs =
      ⟨-1, s.offs + before.length + f.length, s.offs + before.length, f.length⟩ := by
  induction k generalizing s cs with
  | zero =>
    rcases first_field cs with unterminated | ⟨chars, rest, rfl, noNul⟩
    · rw [CString.field_of_notMem unterminated] at found
      cases found
    · rw [CString.field_zero_append noNul] at found
      obtain rfl := Option.some.inj found
      refine ⟨[], rest, by simp, ?_⟩
      rw [loop_own h.field noNul, loop_cons (by exact Int.le_of_eq h.field.symm),
        next_nul_own (by exact h.field),
        loop_done (show (-1 : Int) < 0 by decide)]
      simp [h.fresh, h.start rfl, Nat.add_assoc]
  | succ k ih =>
    rcases first_field cs with unterminated | ⟨chars, rest, rfl, noNul⟩
    · rw [CString.field_of_notMem unterminated] at found
      cases found
    · rw [CString.field_succ_append noNul] at found
      obtain ⟨s', later, offs, same⟩ := h.next noNul rest
      obtain ⟨before, rest, rfl, ended⟩ := ih later found
      refine ⟨chars ++ 0 :: before, rest, by simp, ?_⟩
      rw [same, ended, offs]
      simp [Nat.add_comm, Nat.add_left_comm]

/-- `netbuf_read_u8` and `netbuf_copy_partial` of one byte. `raw` is what the memory holds that is
copied to. -/
def read (n : Netbuf) (raw : Nat → UInt8) (offs : Nat) : UInt8 := n.bytes.getD offs (raw offs)

/-- The loop of the source, with the offsets it reads. -/
def scan (n : Netbuf) (raw : Nat → UInt8) (s : FieldScan) : FieldScan × List Nat :=
  if 0 ≤ s.field ∧ s.offs < netbufLen n then
    let (t, offsets) := scan n raw (s.next (read n raw s.offs))
    (t, s.offs :: offsets)
  else (s, [])
termination_by netbufLen n - s.offs
decreasing_by
  rw [next_offs]
  omega

theorem scan_inside (n : Netbuf) (raw : Nat → UInt8) (s : FieldScan) :
    ∀ offs ∈ (scan n raw s).2, offs < netbufLen n := by
  fun_induction scan n raw s with
  | case1 s inside t offsets next ih =>
    rw [next] at ih
    exact List.forall_mem_cons.mpr ⟨inside.2, ih⟩
  | case2 => exact nofun

theorem scan_loop (n : Netbuf) (raw : Nat → UInt8) (s : FieldScan) :
    (scan n raw s).1 = s.loop (n.bytes.drop s.offs) := by
  fun_induction scan n raw s with
  | case1 s inside t offsets next ih =>
    obtain ⟨open_field, more⟩ := inside
    rw [next] at ih
    have byte : read n raw s.offs = n.bytes[s.offs] := by
      rw [read, List.getD_eq_getElem?_getD, List.getElem?_eq_getElem more, Option.getD_some]
    rw [List.drop_eq_getElem_cons more, loop_cons open_field, ← byte, ← next_offs s, ← ih]
  | case2 s ended =>
    rcases not_and_or.mp ended with done | behind
    · rw [loop_done (Int.not_le.mp done)]
    · rw [List.drop_eq_nil_of_le (Nat.not_lt.mp behind)]
      rfl

end FieldScan

/-- `tftp_get_field` with the offsets that the loop reads and the last call copies. -/
def tftpGetFieldReads (field : Int) (n : Netbuf) (raw : Nat → UInt8) :
    Option (List UInt8) × List Nat :=
  let (s, offsets) := FieldScan.scan n raw ⟨field, 2, 2, 0⟩
  if s.field ≠ -1 then (none, offsets)
  else
    let copied := List.range' s.fieldOffs s.fieldLen
    (some (copied.map (FieldScan.read n raw)), offsets ++ copied)

theorem map_read {n : Netbuf} (raw : Nat → UInt8) {offs len : Nat}
    (inside : offs + len ≤ n.bytes.length) :
    (List.range' offs len).map (FieldScan.read n raw) = (n.bytes.drop offs).take len := by
  apply List.ext_getElem
  · simp only [List.length_map, List.length_range', List.length_take, List.length_drop]
    omega
  · intro i here there
    rw [List.length_map, List.length_range'] at here
    have bound : offs + i < n.bytes.length := by omega
    have byte : n.bytes[offs + i]? = some n.bytes[offs + i] := List.getElem?_eq_getElem bound
    simp [FieldScan.read, List.getD_eq_getElem?_getD, byte]

theorem at_start (k : Nat) : FieldScan.At ⟨k, 2, 2, 0⟩ k := ⟨rfl, rfl, fun _ => rfl⟩

theorem loop_located {k : Nat} {n : Netbuf} {f : List UInt8}
    (found : CString.field k (n.bytes.drop 2) = some f) :
    ∃ offs, offs + f.length ≤ n.bytes.length ∧ (n.bytes.drop offs).take f.length = f ∧
      FieldScan.loop ⟨k, 2, 2, 0⟩ (n.bytes.drop 2) = ⟨-1, offs + f.length, offs, f.length⟩ := by
  obtain ⟨before, rest, split, ended⟩ := FieldScan.loop_some (at_start k) found
  refine ⟨2 + before.length, ?_, ?_, ended⟩
  · obtain ⟨_, chars, _, -, rfl, -⟩ := (CString.isField_of_field found).split
    have total := congrArg List.length split
    simp only [List.length_drop, List.length_append, List.length_singleton] at total ⊢
    omega
  · rw [← List.drop_drop, split, List.append_assoc, List.drop_left, List.take_left]

theorem tftpGetField_eq (k : Nat) (n : Netbuf) :
    tftpGetField k n = CString.field k (n.bytes.drop 2) := by
  unfold tftpGetField
  dsimp only
  cases located : CString.field k (n.bytes.drop 2) with
  | none =>
    have missing := FieldScan.loop_none (at_start k) located
    exact if_pos (by omega)
  | some f =>
    obtain ⟨offs, -, own, ended⟩ := loop_located located
    rw [ended]
    exact (if_neg (not_not.mpr rfl)).trans (congrArg some own)

/-- The field is found in the packet, whatever the memory holds that it is copied to. -/
theorem tftpGetFieldReads_eq (k : Nat) (n : Netbuf) (raw : Nat → UInt8) :
    (tftpGetFieldReads k n raw).1 = tftpGetField k n ∧
      ∀ offs ∈ (tftpGetFieldReads k n raw).2, offs < netbufLen n := by
  have inside := FieldScan.scan_inside n raw ⟨k, 2, 2, 0⟩
  have loop := FieldScan.scan_loop n raw ⟨k, 2, 2, 0⟩
  rw [tftpGetField_eq]
  unfold tftpGetFieldReads
  dsimp only at loop ⊢
  rw [loop]
  cases located : CString.field k (n.bytes.drop 2) with
  | none =>
    have missing := FieldScan.loop_none (at_start k) located
    rw [if_pos (by omega)]
    exact ⟨rfl, inside⟩
  | some f =>
    obtain ⟨offs, fits, own, ended⟩ := loop_located located
    rw [ended, if_neg (not_not.mpr rfl)]
    refine ⟨congrArg some ((map_read raw fits).trans own), ?_⟩
    intro i mem
    rcases List.mem_append.mp mem with mem | mem
    · exact inside i mem
    · rw [List.mem_range'_1] at mem
      exact Nat.lt_of_lt_of_le mem.2 fits

/-! The packet of a read request. -/

abbrev tftpOpRrq : UInt16 := 1

/-- The size that is passed to `netbuf_alloc`. -/
def rrqSize (filename : Str) : UInt16 :=
  UInt16.ofNat (4 + filename.strlen + tftpOctetMode.length)

/-- What `netbuf_alloc` returns. -/
structure RrqData (filename : Str) where
  memory : List UInt8
  size : memory.length = (rrqSize filename).toNat

/-- The opcode and the two calls of `strcpy`. -/
def tftpSendRrq (filename : Str) (data : RrqData filename) : Buffer :=
  let rrq := (Buffer.of data.memory).puts 0 [(tftpOpRrq >>> 8).toUInt8, tftpOpRrq.toUInt8]
  let rrq := rrq.puts 2 (filename.chars ++ [0])
  rrq.puts (2 + filename.strlen + 1) (tftpOctetMode ++ [0])

def rrqPacket (filename : Str) : List UInt8 :=
  [0, 1] ++ (filename.chars ++ 0 :: (tftpOctetMode ++ 0 :: []))

theorem length_rrqPacket (filename : Str) :
    (rrqPacket filename).length = 4 + filename.strlen + tftpOctetMode.length := by
  simp only [rrqPacket, List.length_append, List.length_cons, List.length_nil, Str.strlen]
  omega

/-- The packet fills its memory, and no byte is written behind it. -/
theorem tftpSendRrq_eq {filename : Str} (data : RrqData filename)
    (fits : 4 + filename.strlen + tftpOctetMode.length < 2 ^ 16) :
    tftpSendRrq filename data = ⟨rrqPacket filename, data.memory.length⟩ := by
  have size : data.memory.length = 4 + filename.strlen + tftpOctetMode.length :=
    data.size.trans (UInt16.toNat_ofNat_of_lt' fits)
  have mode : (tftpOctetMode ++ [0]).length = 6 := rfl
  have name : (filename.chars ++ [0]).length = filename.strlen + 1 := List.length_append
  have behind : ([0, 1] ++ (filename.chars ++ [0])).length = 2 + filename.strlen + 1 := by
    rw [List.length_append, name]
    exact (Nat.add_assoc 2 filename.strlen 1).symm
  have five : tftpOctetMode.length = 5 := rfl
  let opcode := (Buffer.of data.memory).puts 0 [0, 1]
  let named := opcode.puts 2 (filename.chars ++ [0])
  have opcode_length : opcode.bytes.length = data.memory.length :=
    Buffer.length_puts (show 0 + 2 ≤ data.memory.length by omega)
  have named_length : named.bytes.length = data.memory.length :=
    (Buffer.length_puts (by omega)).trans opcode_length
  have opcode_prefix : [0, 1] <+: opcode.bytes := Buffer.puts_next List.nil_prefix [0, 1]
  have named_prefix : [0, 1] ++ (filename.chars ++ [0]) <+: named.bytes :=
    Buffer.puts_next opcode_prefix _
  have whole := Buffer.puts_next named_prefix (tftpOctetMode ++ [0])
  rw [behind] at whole
  have sent : tftpSendRrq filename data =
      named.puts (2 + filename.strlen + 1) (tftpOctetMode ++ [0]) := rfl
  have length : (tftpSendRrq filename data).bytes.length = data.memory.length := by
    rw [sent, Buffer.length_puts (by omega), named_length]
  have bytes : (tftpSendRrq filename data).bytes = rrqPacket filename := by
    have same : [0, 1] ++ (filename.chars ++ [0]) ++ (tftpOctetMode ++ [0]) =
        rrqPacket filename := by simp [rrqPacket]
    rw [same] at whole
    exact (whole.eq_of_length (by rw [length_rrqPacket, ← size]; exact length.symm)).symm
  have extent : (tftpSendRrq filename data).extent = data.memory.length := by
    have last := Buffer.extent_puts named (2 + filename.strlen + 1)
      (show tftpOctetMode ++ [0] ≠ [] by decide)
    have middle := Buffer.extent_puts opcode 2 (show filename.chars ++ [0] ≠ [] by simp)
    have first := Buffer.extent_puts (Buffer.of data.memory) 0 (show [0, 1] ≠ [] by decide)
    have zero : (Buffer.of data.memory).extent = 0 := rfl
    rw [mode] at last
    rw [name] at middle
    rw [zero] at first
    simp only [List.length_cons, List.length_nil] at first
    rw [sent, last, middle, first]
    omega
  rw [← bytes, ← extent]

/-! Both directions. -/

/-- `tftp_get_field` for field `k` of a packet. -/
structure FieldRead (k : Nat) (n : Netbuf) (raw : Nat → UInt8) : Prop where
  null : (tftpGetFieldReads k n raw).1 = none ↔ (n.bytes.drop 2).count 0 < k + 1
  found : ∀ f, (tftpGetFieldReads k n raw).1 = some f → IsField k (n.bytes.drop 2) f
  inside : ∀ offs ∈ (tftpGetFieldReads k n raw).2, offs < netbufLen n

theorem field_read (k : Nat) (n : Netbuf) (raw : Nat → UInt8) : FieldRead k n raw := by
  obtain ⟨same, inside⟩ := tftpGetFieldReads_eq k n raw
  rw [tftpGetField_eq] at same
  refine ⟨?_, ?_, inside⟩
  · rw [same]
    exact CString.field_eq_none_iff k (n.bytes.drop 2)
  · intro f found
    rw [same] at found
    exact CString.isField_of_field found

/-- The packet that `tftp_send_rrq` builds, and its fields when it is received. -/
structure RequestSent (filename : Str) (data : RrqData filename) : Prop where
  bytes : (tftpSendRrq filename data).bytes = rrqPacket filename
  length : (rrqPacket filename).length = data.memory.length
  extent : (tftpSendRrq filename data).extent = data.memory.length
  fields : ∀ (k : Nat) (n : Netbuf) raw, n.bytes = (tftpSendRrq filename data).bytes →
    (tftpGetFieldReads k n raw).1 = [filename.chars ++ [0], tftpOctetMode ++ [0]][k]?

theorem field_rrqPacket (filename : Str) (k : Nat) :
    CString.field k ((rrqPacket filename).drop 2) =
      [filename.chars ++ [0], tftpOctetMode ++ [0]][k]? := by
  have octet : 0 ∉ tftpOctetMode := by decide
  have behind : (rrqPacket filename).drop 2 =
      filename.chars ++ 0 :: (tftpOctetMode ++ 0 :: []) := rfl
  rw [behind]
  cases k with
  | zero => exact CString.field_zero_append filename.noNul _
  | succ k =>
    rw [CString.field_succ_append filename.noNul]
    cases k with
    | zero => exact CString.field_zero_append octet []
    | succ k =>
      rw [CString.field_succ_append octet]
      exact CString.field_of_notMem (List.not_mem_nil) k

theorem request_sent {filename : Str} (data : RrqData filename)
    (fits : 4 + filename.strlen + tftpOctetMode.length < 2 ^ 16) : RequestSent filename data := by
  have built := tftpSendRrq_eq data fits
  refine ⟨?_, ?_, ?_, ?_⟩
  · rw [built]
  · rw [length_rrqPacket]
    exact (data.size.trans (UInt16.toNat_ofNat_of_lt' fits)).symm
  · rw [built]
  · intro k n raw packet
    rw [(tftpGetFieldReads_eq k n raw).1, tftpGetField_eq, packet, built]
    exact field_rrqPacket filename k

/-- What `tftp_get_field` returns for any packet and any field, and that it reads back what
`tftp_send_rrq` has built. -/
theorem fields_round_trip :
    (∀ (k : Nat) (n : Netbuf) (raw : Nat → UInt8), FieldRead k n raw) ∧
      ∀ (filename : Str) (data : RrqData filename),
        4 + filename.strlen + tftpOctetMode.length < 2 ^ 16 → RequestSent filename data :=
  ⟨field_read, fun _ data fits => request_sent data fits⟩

theorem fields_round_trip_oneLetter :
    RequestSent ⟨[0x61], by decide⟩ ⟨List.replicate 10 0xff, by decide⟩ :=
  fields_round_trip.2 ⟨[0x61], by decide⟩ ⟨List.replicate 10 0xff, by decide⟩ (by decide)

end Rocom.Tftp
