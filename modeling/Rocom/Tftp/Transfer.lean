import Mathlib.Logic.Relation
import Rocom.Lib.Slices
import Rocom.Tftp.Receiver

/-! One transfer over a network that loses, duplicates and delays datagrams. The sender is
any machine that sends DATA n with the n-th slice of the file; the receiver is the loop of
the source. What is acknowledged has been written, in order and once. -/
namespace Rocom.Tftp

open Slices (slice upTo)

def Event.written : Event → List UInt8
  | .otaWrite segment len err => if err = errOk then segment.take len.toNat else []
  | _ => []

/-- The bytes that went to the flash. -/
def written (t : List Event) : List UInt8 := t.flatMap Event.written

@[simp] theorem written_append (t u : List Event) : written (t ++ u) = written t ++ written u :=
  List.flatMap_append

def Event.isWrite : Event → Bool
  | .otaWrite _ _ _ => true
  | _ => false

/-! The datagrams of the sender. -/

abbrev blockSize : Nat := 512

def blockCount (file : List UInt8) : Nat := Slices.count blockSize file

def dataHeader (n : UInt16) : List UInt8 := [0, 3, (n >>> 8).toUInt8, n.toUInt8]

def dataPacket (file : List UInt8) (n : Nat) : List UInt8 :=
  dataHeader (UInt16.ofNat n) ++ slice blockSize file (n - 1)

/-- DATA n, in any segmentation whose first segment holds the header. -/
structure IsData (file : List UInt8) (n : Nat) (nb : Netbuf) : Prop where
  bytes : nb.bytes = dataPacket file n
  header : 4 ≤ nb.head.length

theorem isData_opcode {file : List UInt8} {n : Nat} {nb : Netbuf} (h : IsData file n nb)
    (raw : UInt8 × UInt8) : netbufReadU16N nb 0 raw = tftpOpData := by
  rw [netbufReadU16N, h.bytes]
  have first : (dataPacket file n).getD 0 raw.1 = 0 := rfl
  have second : (dataPacket file n).getD 1 raw.2 = 3 := rfl
  rw [first, second]
  rfl

theorem toNat_ofNat_word {k : Nat} (h : k < 2 ^ 16) : (UInt16.ofNat k).toNat = k :=
  UInt16.toNat_ofNat_of_lt' h

theorem word_bytes (x : UInt16) :
    ((x >>> 8).toUInt8.toUInt16 <<< 8) ||| x.toUInt8.toUInt16 = x := by
  apply UInt16.toBitVec_inj.mp
  ext i hi
  simp only [UInt16.toBitVec_or, UInt16.toBitVec_shiftLeft, UInt8.toBitVec_toUInt16,
    UInt16.toBitVec_toUInt8, UInt16.toBitVec_shiftRight, BitVec.getElem_or]
  rcases Nat.lt_or_ge i 8 with low | high
  · simp [BitVec.getElem_setWidth, low, BitVec.getLsbD_eq_getElem hi]
  · have below : i - 8 < 8 := by omega
    simp [BitVec.getElem_setWidth, high, below, Nat.not_lt.mpr high,
      BitVec.getLsbD_eq_getElem hi]

theorem isData_block {file : List UInt8} {n : Nat} {nb : Netbuf} (h : IsData file n nb)
    (raw : UInt8 × UInt8) : netbufReadU16N nb 2 raw = UInt16.ofNat n := by
  rw [netbufReadU16N, h.bytes]
  exact word_bytes (UInt16.ofNat n)

theorem isData_payload {file : List UInt8} {n : Nat} {nb : Netbuf} (h : IsData file n nb) :
    nb.head.drop 4 ++ nb.tail.flatten = slice blockSize file (n - 1) := by
  have cut : nb.bytes.drop 4 = slice blockSize file (n - 1) := by rw [h.bytes]; rfl
  rw [← cut, Netbuf.bytes, List.drop_append_of_le_length h.header]

theorem isData_length {file : List UInt8} {n : Nat} {nb : Netbuf} (h : IsData file n nb) :
    netbufLen nb = 4 + (slice blockSize file (n - 1)).length := by
  rw [netbufLen, h.bytes, dataPacket, List.length_append]
  rfl

/-! What one pass writes. -/

theorem writeChunks_spec (otaErr : Nat → Int) (s : Receiver) (i : Nat)
    (cs : List (List UInt8 × UInt16)) :
    ∃ es, (writeChunks otaErr s i cs).1 = { s with trace := s.trace ++ es } ∧
      (∀ e ∈ es, e.isWrite = true) ∧
      ((writeChunks otaErr s i cs).2 = true → es = cs.map fun c => .otaWrite c.1 c.2 errOk) := by
  induction cs generalizing s i with
  | nil => exact ⟨[], by simp [writeChunks], by simp, fun _ => rfl⟩
  | cons c cs ih =>
    obtain ⟨chunk, chunkLen⟩ := c
    by_cases ok : otaErr i = errOk
    · obtain ⟨es, state, writes, all⟩ := ih (s.log (.otaWrite chunk chunkLen (otaErr i))) (i + 1)
      refine ⟨.otaWrite chunk chunkLen (otaErr i) :: es, ?_, ?_, ?_⟩
      · simp only [writeChunks, ne_eq, ok, not_true, if_false]
        rw [← ok, state]
        simp [Receiver.log]
      · intro e he
        rcases List.mem_cons.mp he with rfl | he
        · rfl
        · exact writes e he
      · intro done
        have rest := all (by simpa [writeChunks, ok] using done)
        rw [rest, ok]
        rfl
    · refine ⟨[.otaWrite chunk chunkLen (otaErr i)], ?_, by simp [Event.isWrite], ?_⟩
      · simp [writeChunks, ok, Receiver.log]
      · intro done
        simp [writeChunks, ok] at done

theorem written_writes (cs : List (List UInt8 × UInt16)) :
    written (cs.map fun c => .otaWrite c.1 c.2 errOk) = cs.flatMap fun c => c.1.take c.2.toNat := by
  rw [written, List.flatMap_map]
  rfl

/-- With the header in the first segment, `chunk_len -= 4` does not wrap. -/
theorem header_skipped (nb : Netbuf) (header : 4 ≤ nb.head.length) :
    (UInt16.ofNat nb.head.length - 4).toNat = (nb.head.drop 4).length := by
  have total := nb.totLen
  rw [List.length_append] at total
  have four : (4 : UInt16) ≤ UInt16.ofNat nb.head.length := by
    rw [UInt16.le_iff_toNat_le, toNat_ofNat_word (by omega)]
    exact header
  rw [UInt16.toNat_sub_of_le _ _ four, toNat_ofNat_word (by omega), List.length_drop]
  rfl

section Chunks
variable {out : List UInt8 → Nat → List UInt8}
  (whole : ∀ segment, out segment segment.length = segment)
include whole

/-- The segments behind the first one are given with their own lengths. -/
theorem tail_bytes (segments : List (List UInt8)) (small : segments.flatten.length < 2 ^ 16) :
    (segments.map fun segment => (segment, UInt16.ofNat segment.length)).flatMap
      (fun c => out c.1 c.2.toNat) = segments.flatten := by
  induction segments with
  | nil => rfl
  | cons segment segments ih =>
    rw [List.flatten_cons, List.length_append] at small
    rw [List.map_cons, List.flatMap_cons, ih (by omega), List.flatten_cons,
      toNat_ofNat_word (by omega), whole]

theorem chunks_bytes (nb : Netbuf) :
    ((chunks nb).flatMap fun c => out c.1 c.2.toNat) =
      out (nb.head.drop 4) (UInt16.ofNat nb.head.length - 4).toNat ++ nb.tail.flatten := by
  have total := nb.totLen
  rw [List.length_append] at total
  rw [chunks, List.flatMap_cons, tail_bytes whole nb.tail (by omega)]

theorem chunks_payload (nb : Netbuf) (header : 4 ≤ nb.head.length) :
    ((chunks nb).flatMap fun c => out c.1 c.2.toNat) = nb.head.drop 4 ++ nb.tail.flatten := by
  rw [chunks_bytes whole, header_skipped nb header, whole]

end Chunks

/-! The invariant of a session. -/

/-- In the loop: the blocks before `block` are full and written, and only they may have been
acknowledged. -/
structure Progress (file : List UInt8) (s : Receiver) : Prop where
  positive : 1 ≤ s.block
  within : blockSize * (s.block - 1) ≤ file.length
  bytes : written s.trace = upTo blockSize file (s.block - 1)
  received : s.receivedLen.toNat = blockSize * (s.block - 1)
  acked : ∀ k, .ack k ∈ s.trace → k.toNat < s.block

/-- What an acknowledgement promises. -/
def Acknowledged (file : List UInt8) (t : List Event) : Prop :=
  ∀ k, .ack k ∈ t → k.toNat ≤ blockCount file ∧ upTo blockSize file k.toNat <+: written t

structure Safe (file : List UInt8) (s : Session) : Prop where
  acked : Acknowledged file s.receiver.trace
  complete : s.result = some errOk →
    written s.receiver.trace = file ∧ s.receiver.receivedLen.toNat = file.length

theorem Progress.acknowledged {file : List UInt8} {s : Receiver} (h : Progress file s) :
    Acknowledged file s.trace := by
  intro k hk
  have below := h.acked k hk
  have counted := Slices.lt_count_of_le (by decide : 0 < blockSize) file _ h.within
  refine ⟨?_, ?_⟩
  · rw [blockCount]
    omega
  · rw [h.bytes]
    exact Slices.upTo_prefix blockSize file (by omega)

/-- Calls that neither write nor acknowledge anything new. -/
theorem Progress.append {file : List UInt8} {s s' : Receiver} (h : Progress file s)
    (es : List Event) (trace : s'.trace = s.trace ++ es) (block : s'.block = s.block)
    (len : s'.receivedLen = s.receivedLen) (quiet : written es = [])
    (acks : ∀ k, .ack k ∈ es → k.toNat < s.block) : Progress file s' := by
  refine ⟨?_, ?_, ?_, ?_, ?_⟩
  · rw [block]
    exact h.positive
  · rw [block]
    exact h.within
  · rw [trace, written_append, quiet, List.append_nil, block]
    exact h.bytes
  · rw [len, block]
    exact h.received
  · intro k hk
    rw [trace] at hk
    rw [block]
    rcases List.mem_append.mp hk with hk | hk
    · exact h.acked k hk
    · exact acks k hk

/-- The outcome of one pass, in either case. -/
def PassSafe (file : List UInt8) (p : Receiver × Option Int) : Prop :=
  match p.2 with
  | none => Progress file p.1
  | some err => Safe file ⟨p.1, some err⟩

theorem Progress.returns {file : List UInt8} {s : Receiver} (h : Progress file s) {err : Int}
    (failed : err ≠ errOk) : PassSafe file (s, some err) :=
  ⟨h.acknowledged, fun ok => absurd (Option.some.inj ok) failed⟩

/-! One pass keeps the invariant, or returns with what it promises. -/

theorem progress_ack {file : List UInt8} {s : Receiver} (h : Progress file s) :
    Progress file (tftpSendAck s (s.block - 1)) := by
  refine h.append [.ack (UInt16.ofNat (s.block - 1))] rfl rfl rfl rfl ?_
  intro k hk
  have positive := h.positive
  have number : k = UInt16.ofNat (s.block - 1) := by simpa using hk
  rw [number, UInt16.toNat_ofNat']
  have cut := Nat.mod_le (s.block - 1) (2 ^ 16)
  omega

theorem progress_error {file : List UInt8} {s : Receiver} (h : Progress file s) (code : UInt16)
    (msg : String) : Progress file (tftpSendError s code msg) :=
  h.append [.error code msg] rfl rfl rfl rfl fun k hk => by simp at hk

theorem progress_retries {file : List UInt8} {s : Receiver} (h : Progress file s) (retries : Int) :
    Progress file { s with retries := retries } :=
  ⟨h.positive, h.within, h.bytes, h.received, h.acked⟩

theorem progress_reconnect {file : List UInt8} {s : Receiver} (h : Progress file s)
    (result : RecvResult) : Progress file (reconnect s result) := by
  unfold reconnect
  cases s.peerAddr with
  | none => exact h
  | some peer =>
    cases result with
    | datagram n =>
      exact h.append [.disconnect, .connect n.peer] (List.append_assoc _ _ _) rfl rfl rfl
        fun k hk => by simp at hk
    | timeout | failed e =>
      exact h.append [.disconnect, .connect peer] (List.append_assoc _ _ _) rfl rfl rfl
        fun k hk => by simp at hk

theorem Acknowledged.append {file : List UInt8} {t es : List Event} (h : Acknowledged file t)
    (writes : ∀ e ∈ es, e.isWrite = true) : Acknowledged file (t ++ es) := by
  intro k hk
  rcases List.mem_append.mp hk with hk | hk
  · refine ⟨(h k hk).1, (h k hk).2.trans ?_⟩
    rw [written_append]
    exact List.prefix_append _ _
  · have write := writes _ hk
    cases write

/-- A block that has been written but not yet acknowledged. -/
structure Stored (file : List UInt8) (s : Receiver) : Prop where
  positive : 1 ≤ s.block
  counted : s.block ≤ blockCount file
  bytes : written s.trace = upTo blockSize file s.block
  received : s.receivedLen.toNat = (upTo blockSize file s.block).length
  acked : ∀ k, .ack k ∈ s.trace → k.toNat < s.block

theorem stored_ack {file : List UInt8} {s : Receiver} (h : Stored file s) :
    ∀ k, .ack k ∈ (tftpSendAck s s.block).trace → k.toNat ≤ s.block := by
  intro k hk
  rcases List.mem_append.mp hk with hk | hk
  · exact Nat.le_of_lt (h.acked k hk)
  · have number : k = UInt16.ofNat s.block := by simpa using hk
    rw [number, UInt16.toNat_ofNat']
    exact Nat.mod_le _ _

theorem stored_acknowledged {file : List UInt8} {s : Receiver} {t : List Event}
    (h : Stored file s) (bytes : written t = written s.trace)
    (acks : ∀ k, .ack k ∈ t → k.toNat ≤ s.block) : Acknowledged file t := by
  intro k hk
  refine ⟨Nat.le_trans (acks k hk) h.counted, ?_⟩
  rw [bytes, h.bytes]
  exact Slices.upTo_prefix blockSize file (acks k hk)

/-- After the acknowledgement: the last block ends the call, any other one goes on. -/
theorem stored_returns {file : List UInt8} {s : Receiver} (h : Stored file s) {t : List Event}
    (bytes : written t = written s.trace) (acks : ∀ k, .ack k ∈ t → k.toNat ≤ s.block)
    {len : Nat} (whole : len = 4 + (slice blockSize file (s.block - 1)).length) :
    PassSafe file (if len < dataPacketSz then ({ s with trace := t }, some errOk)
      else ({ s with trace := t, block := s.block + 1 }, none)) := by
  have positive := h.positive
  have last : s.block - 1 + 1 = s.block := by omega
  have size : blockSize = 512 := rfl
  have packet : dataPacketSz = 516 := rfl
  split
  · rename_i final
    have short : (slice blockSize file (s.block - 1)).length < blockSize := by omega
    have file_eq := Slices.upTo_of_short blockSize file (s.block - 1) short
    rw [last] at file_eq
    refine ⟨stored_acknowledged h bytes acks, fun _ => ⟨?_, ?_⟩⟩
    · exact bytes.trans (h.bytes.trans file_eq)
    · exact h.received.trans (congrArg List.length file_eq)
  · rename_i more
    have within : blockSize * s.block ≤ file.length := by
      have length := Slices.length_slice blockSize file (s.block - 1)
      have split : blockSize * s.block = blockSize * (s.block - 1) + blockSize := by
        rw [← Nat.mul_succ, Nat.succ_eq_add_one, last]
      omega
    refine ⟨Nat.le_add_left _ _, within, bytes.trans h.bytes, ?_, ?_⟩
    · have received := h.received
      rw [Slices.upTo_eq_take, List.length_take_of_le within] at received
      exact received
    · intro k hk
      exact Nat.lt_succ_of_le (acks k hk)

theorem acknowledgeBlock_eq (s : Receiver) (ackErr : Int) (len : Nat) (sent : ackErr = errOk) :
    acknowledgeBlock s ackErr len =
      let t := (tftpSendAck s s.block).trace ++
        if s.receiveCb then [.progress s.receivedLen] else []
      if len < dataPacketSz then ({ s with trace := t }, some errOk)
      else ({ s with trace := t, block := s.block + 1 }, none) := by
  cases called : s.receiveCb <;>
    simp [acknowledgeBlock, sent, called, tftpSendAck, Receiver.log]

theorem acknowledgeBlock_safe {file : List UInt8} {s : Receiver} (h : Stored file s)
    (ackErr : Int) {len : Nat}
    (whole : len = 4 + (slice blockSize file (s.block - 1)).length) :
    PassSafe file (acknowledgeBlock s ackErr len) := by
  have bytes : written (tftpSendAck s s.block).trace = written s.trace :=
    (written_append _ _).trans (List.append_nil _)
  have acks := stored_ack h
  by_cases sent : ackErr = errOk
  · rw [acknowledgeBlock_eq s ackErr len sent]
    refine stored_returns h ?_ ?_ whole
    · rw [written_append, bytes]
      cases s.receiveCb <;> exact List.append_nil _
    · intro k hk
      rcases List.mem_append.mp hk with hk | hk
      · exact acks k hk
      · cases called : s.receiveCb <;> simp [called] at hk
  · have stops : acknowledgeBlock s ackErr len = (tftpSendAck s s.block, some ackErr) := by
      simp [acknowledgeBlock, sent]
    rw [stops]
    exact ⟨stored_acknowledged h bytes acks, fun ok => absurd (Option.some.inj ok) sent⟩

/-- The length of a block is added without wrapping. -/
theorem received_add {received : UInt32} {size more : Nat} (before : received.toNat = size)
    (small : size + more + 4 < 2 ^ 32) :
    (received + (UInt32.ofNat (4 + more) - 4)).toNat = size + more := by
  have block : (UInt32.ofNat (4 + more) - 4) = UInt32.ofNat more := by
    rw [UInt32.ofNat_add, UInt32.add_comm]
    exact UInt32.add_sub_cancel _ _
  rw [block, UInt32.toNat_add, before, UInt32.toNat_ofNat']
  omega

theorem acceptBlock_safe {file : List UInt8} (short : file.length < 65535 * 512) {s : Receiver}
    (h : Progress file s) (r : Reception) (nb : Netbuf) (data : IsData file s.block nb)
    (counted : s.block ≤ blockCount file) : PassSafe file (acceptBlock s r nb) := by
  obtain ⟨es, state, writes, all⟩ := writeChunks_spec r.otaErr
    { s with retries := tftpTimeoutRetransmits } 0 (chunks nb)
  have length := isData_length data
  have positive := h.positive
  have last : s.block - 1 + 1 = s.block := by omega
  have upToBlock : upTo blockSize file s.block =
      upTo blockSize file (s.block - 1) ++ slice blockSize file (s.block - 1) := by
    rw [Slices.upTo_eq_take, Slices.upTo_eq_take, ← Slices.take_succ, last]
  unfold acceptBlock
  simp only [state]
  split
  · rename_i ok
    have payload := congrArg written (all ok)
    have pieces := @chunks_payload (fun segment len => segment.take len)
      (fun _ => List.take_length) nb data.header
    rw [written_writes, pieces, isData_payload data] at payload
    have stored : Stored file
        { s with
          retries := tftpTimeoutRetransmits
          trace := s.trace ++ es
          receivedLen := s.receivedLen + (UInt32.ofNat (netbufLen nb) - 4) } := by
      refine ⟨positive, counted, ?_, ?_, ?_⟩
      · rw [written_append, payload, upToBlock, h.bytes]
      · have before := congrArg List.length (Slices.upTo_eq_take blockSize file (s.block - 1))
        rw [List.length_take_of_le h.within] at before
        have sliceLength := Slices.length_slice blockSize file (s.block - 1)
        have within := h.within
        have size : blockSize = 512 := rfl
        rw [upToBlock, List.length_append, before, length]
        exact received_add h.received (by omega)
      · intro k hk
        rcases List.mem_append.mp hk with hk | hk
        · exact h.acked k hk
        · have write := writes _ hk
          cases write
    exact acknowledgeBlock_safe stored r.ackErr length
  · exact ⟨h.acknowledged.append writes, fun ok => by cases ok⟩

theorem receiveDatagram_safe {file : List UInt8} (short : file.length < 65535 * 512)
    {s : Receiver} (h : Progress file s) (r : Reception) (nb : Netbuf) (n : Nat)
    (sent : 1 ≤ n ∧ n ≤ blockCount file) (data : IsData file n nb) :
    PassSafe file (receiveDatagram s r nb) := by
  have small : n < 2 ^ 16 := by
    have bound := sent.2
    have size : blockSize = 512 := rfl
    rw [blockCount, Slices.count, size] at bound
    omega
  have block : (netbufReadU16N nb 2 r.rawBlock).toNat = n := by
    rw [isData_block data, toNat_ofNat_word small]
  unfold receiveDatagram
  rw [if_neg (not_not.mpr (isData_opcode data r.rawOpcode))]
  simp only [block]
  split
  · split
    · exact progress_ack h
    · exact (progress_error h _ _).returns (by decide)
  · rename_i expected
    have same : n = s.block := not_not.mp expected
    subst same
    exact acceptBlock_safe short h r nb data sent.2

/-- The results of `netconn_recv` in a transfer of `file`. -/
def FromTransfer (file : List UInt8) (result : RecvResult) : Prop :=
  ∀ nb, result = .datagram nb → ∃ n, (1 ≤ n ∧ n ≤ blockCount file) ∧ IsData file n nb

theorem receivePass_safe {file : List UInt8} (short : file.length < 65535 * 512)
    {s : Receiver} (h : Progress file s) (r : Reception) (fromTransfer : FromTransfer file r.result) :
    PassSafe file (receivePass s r) := by
  have again := progress_reconnect h r.result
  unfold receivePass
  cases result : r.result with
  | timeout =>
    rw [result] at again
    have less := progress_retries again ((reconnect s .timeout).retries - 1)
    simp only
    split
    · exact progress_ack less
    · exact (progress_error less _ _).returns (by decide)
  | failed e =>
    rw [result] at again
    exact (progress_error again _ _).returns e.ne_ok
  | datagram nb =>
    rw [result] at again
    obtain ⟨n, sent, data⟩ := fromTransfer nb result
    exact receiveDatagram_safe short again r nb n sent data

/-- A session in the loop makes progress; one that has returned is safe. -/
def SessionInv (file : List UInt8) (s : Session) : Prop := PassSafe file (s.receiver, s.result)

theorem sessionInv_start (file : List UInt8) (peerAddr : Option Peer) (receiveCb : Bool) :
    SessionInv file (Session.start peerAddr receiveCb) :=
  ⟨Nat.le_refl 1, Nat.zero_le _, rfl, rfl, nofun⟩

theorem sessionInv_step {file : List UInt8} (short : file.length < 65535 * 512) (s : Session)
    (r : Reception) (h : SessionInv file s) (fromTransfer : FromTransfer file r.result) :
    SessionInv file (s.step r) := by
  obtain ⟨receiver, result⟩ := s
  cases result with
  | some err => exact h
  | none => exact receivePass_safe short h r fromTransfer

theorem SessionInv.safe {file : List UInt8} {s : Session} (h : SessionInv file s) :
    Safe file s := by
  obtain ⟨receiver, result⟩ := s
  cases result with
  | some err => exact h
  | none => exact ⟨Progress.acknowledged h, nofun⟩

/-! The network: both directions lose, duplicate and delay, and datagrams overtake each
other. The sender is a parameter: what it may send and how it hears an acknowledgement. -/

structure Sender (Q : Type) where
  sends : Q → Nat → Q → Prop
  hears : Q → UInt16 → Q → Prop

structure World (Q : Type) where
  sender : Q
  data : List Nat
  acks : List UInt16
  session : Session

variable {Q : Type}

def World.start (q : Q) (peerAddr : Option Peer) (receiveCb : Bool) : World Q :=
  ⟨q, [], [], Session.start peerAddr receiveCb⟩

def Event.ackNumber : Event → Option UInt16
  | .ack k => some k
  | _ => none

/-- The acknowledgements of one pass. -/
def newAcks (s : Session) (r : Reception) : List UInt16 :=
  ((s.step r).receiver.trace.drop s.receiver.trace.length).filterMap Event.ackNumber

inductive Step (file : List UInt8) (p : Sender Q) : World Q → World Q → Prop where
  | send {w : World Q} {n : Nat} {q : Q} (may : p.sends w.sender n q)
      (slice : 1 ≤ n ∧ n ≤ blockCount file) :
      Step file p w { w with sender := q, data := n :: w.data }
  | hear {w : World Q} {k : UInt16} {q : Q} (flying : k ∈ w.acks) (may : p.hears w.sender k q) :
      Step file p w { w with sender := q, acks := w.acks.erase k }
  | loseData {w : World Q} {n : Nat} (flying : n ∈ w.data) :
      Step file p w { w with data := w.data.erase n }
  | duplicateData {w : World Q} {n : Nat} (flying : n ∈ w.data) :
      Step file p w { w with data := n :: w.data }
  | loseAck {w : World Q} {k : UInt16} (flying : k ∈ w.acks) :
      Step file p w { w with acks := w.acks.erase k }
  | duplicateAck {w : World Q} {k : UInt16} (flying : k ∈ w.acks) :
      Step file p w { w with acks := k :: w.acks }
  | deliver {w : World Q} {n : Nat} {r : Reception} {nb : Netbuf} (flying : n ∈ w.data)
      (result : r.result = .datagram nb) (data : IsData file n nb) :
      Step file p w
        { w with
          data := w.data.erase n
          session := w.session.step r
          acks := newAcks w.session r ++ w.acks }
  | silence {w : World Q} {r : Reception} (result : ∀ nb, r.result ≠ .datagram nb) :
      Step file p w
        { w with session := w.session.step r, acks := newAcks w.session r ++ w.acks }

abbrev Reachable (file : List UInt8) (p : Sender Q) (w : World Q) : Prop :=
  ∃ q peerAddr receiveCb, Relation.ReflTransGen (Step file p) (.start q peerAddr receiveCb) w

structure WorldInv (file : List UInt8) (w : World Q) : Prop where
  data : ∀ n ∈ w.data, 1 ≤ n ∧ n ≤ blockCount file
  acks : ∀ k ∈ w.acks, .ack k ∈ w.session.receiver.trace
  session : SessionInv file w.session

/-! A session only adds to its trace. -/

theorem log_extends (s : Receiver) (e : Event) : s.trace <+: (s.log e).trace :=
  List.prefix_append _ _

theorem reconnect_extends (s : Receiver) (result : RecvResult) :
    s.trace <+: (reconnect s result).trace := by
  unfold reconnect
  cases s.peerAddr with
  | none => exact List.prefix_rfl
  | some peer =>
    cases result with
    | datagram n => exact (log_extends s _).trans (log_extends _ (.connect n.peer))
    | timeout | failed e => exact (log_extends s _).trans (log_extends _ (.connect peer))

theorem acknowledgeBlock_extends (s : Receiver) (ackErr : Int) (len : Nat) :
    s.trace <+: (acknowledgeBlock s ackErr len).1.trace := by
  have acked := log_extends s (.ack (UInt16.ofNat s.block))
  by_cases sent : ackErr = errOk
  · rw [acknowledgeBlock_eq s ackErr len sent]
    have more := acked.trans (List.prefix_append _
      (if s.receiveCb then [.progress s.receivedLen] else []))
    simp only
    split
    · exact more
    · exact more
  · have stops : acknowledgeBlock s ackErr len = (tftpSendAck s s.block, some ackErr) := by
      simp [acknowledgeBlock, sent]
    rw [stops]
    exact acked

theorem acceptBlock_extends (s : Receiver) (r : Reception) (nb : Netbuf) :
    s.trace <+: (acceptBlock s r nb).1.trace := by
  obtain ⟨es, state, _, _⟩ := writeChunks_spec r.otaErr
    { s with retries := tftpTimeoutRetransmits } 0 (chunks nb)
  have wrote : s.trace <+: s.trace ++ es := List.prefix_append _ _
  unfold acceptBlock
  simp only [state]
  split
  · exact wrote.trans (acknowledgeBlock_extends
      { s with
        retries := tftpTimeoutRetransmits
        trace := s.trace ++ es
        receivedLen := s.receivedLen + (UInt32.ofNat (netbufLen nb) - 4) } r.ackErr _)
  · exact wrote

theorem receivePass_extends (s : Receiver) (r : Reception) :
    s.trace <+: (receivePass s r).1.trace := by
  refine (reconnect_extends s r.result).trans ?_
  unfold receivePass
  cases r.result with
  | timeout =>
    simp only
    split
    · exact log_extends _ (.ack _)
    · exact log_extends _ (.error _ _)
  | failed e => exact log_extends _ (.error _ _)
  | datagram nb =>
    simp only [receiveDatagram]
    split
    · exact log_extends _ (.error _ _)
    split
    · split
      · exact log_extends _ (.ack _)
      · exact log_extends _ (.error _ _)
    · exact acceptBlock_extends _ _ _

theorem step_extends (s : Session) (r : Reception) :
    s.receiver.trace <+: (s.step r).receiver.trace := by
  obtain ⟨receiver, result⟩ := s
  cases result with
  | some err => exact List.prefix_rfl
  | none => exact receivePass_extends receiver r

theorem newAcks_sent (s : Session) (r : Reception) {k : UInt16} (h : k ∈ newAcks s r) :
    .ack k ∈ (s.step r).receiver.trace := by
  obtain ⟨e, he, number⟩ := List.mem_filterMap.mp h
  have ack : e = .ack k := by
    cases e with
    | ack block => exact congrArg Event.ack (Option.some.inj number)
    | disconnect | connect | error | otaWrite | progress => cases number
  subst ack
  exact List.mem_of_mem_drop he

theorem worldInv_pass {file : List UInt8} (short : file.length < 65535 * 512) {w : World Q}
    (h : WorldInv file w) (r : Reception) (fromTransfer : FromTransfer file r.result)
    {data : List Nat} (flying : ∀ n ∈ data, n ∈ w.data) :
    WorldInv file
      { w with
        data := data
        session := w.session.step r
        acks := newAcks w.session r ++ w.acks } := by
  refine ⟨fun n hn => h.data n (flying n hn), ?_, ?_⟩
  · intro k hk
    rcases List.mem_append.mp hk with hk | hk
    · exact newAcks_sent w.session r hk
    · exact (step_extends w.session r).subset (h.acks k hk)
  · exact sessionInv_step short w.session r h.session fromTransfer

/-- Every step of the network keeps the invariant. -/
theorem worldInv_step {file : List UInt8} (short : file.length < 65535 * 512) (p : Sender Q)
    {w w' : World Q} (h : WorldInv file w) (step : Step file p w w') : WorldInv file w' := by
  cases step with
  | @send n q may slice =>
    refine ⟨?_, h.acks, h.session⟩
    intro m hm
    rcases List.mem_cons.mp hm with rfl | hm
    · exact slice
    · exact h.data m hm
  | hear flying may => exact ⟨h.data, fun k hk => h.acks k (List.mem_of_mem_erase hk), h.session⟩
  | loseData flying => exact ⟨fun n hn => h.data n (List.mem_of_mem_erase hn), h.acks, h.session⟩
  | @duplicateData n flying =>
    refine ⟨?_, h.acks, h.session⟩
    intro m hm
    rcases List.mem_cons.mp hm with rfl | hm
    · exact h.data m flying
    · exact h.data m hm
  | loseAck flying => exact ⟨h.data, fun k hk => h.acks k (List.mem_of_mem_erase hk), h.session⟩
  | @duplicateAck k flying =>
    refine ⟨h.data, ?_, h.session⟩
    intro j hj
    rcases List.mem_cons.mp hj with rfl | hj
    · exact h.acks j flying
    · exact h.acks j hj
  | @deliver n r nb flying result data =>
    refine worldInv_pass short h r ?_ fun m hm => List.mem_of_mem_erase hm
    intro nb' same
    rw [result] at same
    cases same
    exact ⟨n, h.data n flying, data⟩
  | @silence r result =>
    exact worldInv_pass short h r (fun nb same => absurd same (result nb)) fun _ hm => hm

theorem worldInv_reachable {file : List UInt8} (short : file.length < 65535 * 512)
    (p : Sender Q) (w : World Q) (reachable : Reachable file p w) : WorldInv file w := by
  obtain ⟨q, peerAddr, receiveCb, run⟩ := reachable
  induction run with
  | refl => exact ⟨nofun, nofun, sessionInv_start file peerAddr receiveCb⟩
  | tail _ step ih => exact worldInv_step short p ih step

/-- In every state of every transfer: what has been acknowledged, in flight or not, has been
written in order and once, and a call that returns ERR_OK has written the file. -/
theorem transfer_safe {file : List UInt8} (short : file.length < 65535 * 512) (p : Sender Q)
    (w : World Q) (reachable : Reachable file p w) :
    Safe file w.session ∧
      ∀ k ∈ w.acks, k.toNat ≤ blockCount file ∧
        upTo blockSize file k.toNat <+: written w.session.receiver.trace := by
  have h := worldInv_reachable short p w reachable
  exact ⟨h.session.safe, fun k hk => h.session.safe.acked k (h.acks k hk)⟩

/-- A sender that may send any block at any time. -/
def freeSender : Sender Unit := ⟨fun _ _ _ => True, fun _ _ _ => True⟩

/-- DATA 1 with three bytes, in two segments. -/
def smallData : Netbuf := ⟨[0, 3, 0, 1, 7], [[8, 9]], ⟨1, 1069⟩, by decide⟩

def smallReception : Reception := ⟨.datagram smallData, (0, 0), (0, 0), fun _ => errOk, errOk⟩

def smallWorld : World Unit where
  sender := ()
  data := []
  acks := [1]
  session := (Session.start none false).step smallReception

theorem transfer_safe_small :
    smallWorld.session.result = some errOk ∧ Safe [7, 8, 9] smallWorld.session ∧
      ∀ k ∈ smallWorld.acks, k.toNat ≤ blockCount [7, 8, 9] ∧
        upTo blockSize [7, 8, 9] k.toNat <+: written smallWorld.session.receiver.trace := by
  refine ⟨by decide, transfer_safe (by decide) freeSender smallWorld ⟨(), none, false, ?_⟩⟩
  have sent : Step [7, 8, 9] freeSender (World.start () none false)
      { World.start () none false with data := [1] } := Step.send trivial (by decide)
  refine (Relation.ReflTransGen.single sent).tail ?_
  have data : IsData [7, 8, 9] 1 smallData := ⟨by decide, by decide⟩
  exact Step.deliver (r := smallReception) List.mem_cons_self rfl data

end Rocom.Tftp
