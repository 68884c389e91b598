import Rocom.Tftp.Image

/-! What one pass of the loop of `tftp_receive_data` can do, after `netconn_recv` and the calls
around it. -/
namespace Rocom.Tftp

/-- The writes of a loop over the segments that stops at the first failure. -/
structure Writes (cs : List (List UInt8 × UInt16)) (es : List Event) : Prop where
  taken : ∀ e ∈ es, ∃ c ∈ cs, ∃ err, e = .otaWrite c.1 c.2 err
  first : ∀ c ∈ cs.head?, ∃ err, .otaWrite c.1 c.2 err ∈ es

theorem writeChunks_writes (otaErr : Nat → Int) (s : Receiver) (i : Nat)
    (cs : List (List UInt8 × UInt16)) :
    ∃ es, (writeChunks otaErr s i cs).1 = { s with trace := s.trace ++ es } ∧ Writes cs es ∧
      ((writeChunks otaErr s i cs).2 = false →
        ∃ segment len err, .otaWrite segment len err ∈ es ∧ err ≠ errOk) := by
  induction cs generalizing s i with
  | nil => exact ⟨[], by simp [writeChunks], ⟨nofun, nofun⟩, nofun⟩
  | cons c cs ih =>
    obtain ⟨chunk, chunkLen⟩ := c
    by_cases ok : otaErr i = errOk
    · obtain ⟨es, state, writes, fails⟩ :=
        ih (s.log (.otaWrite chunk chunkLen (otaErr i))) (i + 1)
      refine ⟨.otaWrite chunk chunkLen (otaErr i) :: es, ?_, ⟨?_, ?_⟩, ?_⟩
      · simp only [writeChunks, ne_eq, ok, not_true, if_false]
        rw [← ok, state]
        simp [Receiver.log]
      · intro e mem
        rcases List.mem_cons.mp mem with rfl | mem
        · exact ⟨(chunk, chunkLen), List.mem_cons_self, otaErr i, rfl⟩
        · obtain ⟨c, listed, err, same⟩ := writes.taken e mem
          exact ⟨c, List.mem_cons_of_mem _ listed, err, same⟩
      · intro c head
        obtain rfl := Option.some.inj head
        exact ⟨otaErr i, List.mem_cons_self⟩
      · intro failed
        obtain ⟨segment, len, err, mem, error⟩ := fails (by simpa [writeChunks, ok] using failed)
        exact ⟨segment, len, err, List.mem_cons_of_mem _ mem, error⟩
    · refine ⟨[.otaWrite chunk chunkLen (otaErr i)], by simp [writeChunks, ok, Receiver.log],
        ⟨?_, ?_⟩, ?_⟩
      · intro e mem
        obtain rfl := List.mem_singleton.mp mem
        exact ⟨(chunk, chunkLen), List.mem_cons_self, otaErr i, rfl⟩
      · intro c head
        obtain rfl := Option.some.inj head
        exact ⟨otaErr i, List.mem_cons_self⟩
      · exact fun _ => ⟨chunk, chunkLen, otaErr i, List.mem_cons_self, ok⟩

def allWritten (n : Netbuf) : List Event := (chunks n).map fun c => .otaWrite c.1 c.2 errOk

def Receiver.stored (s : Receiver) (n : Netbuf) : Receiver :=
  { s with
    retries := tftpTimeoutRetransmits
    receivedLen := s.receivedLen + (UInt32.ofNat (netbufLen n) - 4)
    trace := s.trace ++ allWritten n }

def Receiver.reported (s : Receiver) : Receiver :=
  let s := tftpSendAck s s.block
  if s.receiveCb then s.log (.progress s.receivedLen) else s

/-- A pass from `s`, connected as it is after `netconn_recv`. -/
inductive Pass (s : Receiver) (r : Reception) : Receiver → Option Int → Prop
  | retransmits (timeout : r.result = .timeout) (retry : 0 < s.retries ∧ 1 < s.block) :
      Pass s r (tftpSendAck { s with retries := s.retries - 1 } (s.block - 1)) none
  | givesUp (timeout : r.result = .timeout) (enough : ¬ (0 < s.retries ∧ 1 < s.block)) :
      Pass s r
        (tftpSendError { s with retries := s.retries - 1 } tftpErrIllegal "Timeout")
        (some errTimeout)
  | fails (e : RecvError) (failed : r.result = .failed e) :
      Pass s r (tftpSendError s tftpErrIllegal "Failed to receive packet") (some e.code)
  | unknown (n : Netbuf) (received : r.result = .datagram n)
      (other : netbufReadU16N n 0 r.rawOpcode ≠ tftpOpData) :
      Pass s r (tftpSendError s tftpErrIllegal "Unknown opcode") (some errVal)
  | duplicate (n : Netbuf) (received : r.result = .datagram n)
      (data : netbufReadU16N n 0 r.rawOpcode = tftpOpData)
      (old : (netbufReadU16N n 2 r.rawBlock).toNat ≠ s.block)
      (last : (netbufReadU16N n 2 r.rawBlock).toNat = s.block - 1) :
      Pass s r (tftpSendAck s (s.block - 1)) none
  | outOfOrder (n : Netbuf) (received : r.result = .datagram n)
      (data : netbufReadU16N n 0 r.rawOpcode = tftpOpData)
      (other : (netbufReadU16N n 2 r.rawBlock).toNat ≠ s.block)
      (later : (netbufReadU16N n 2 r.rawBlock).toNat ≠ s.block - 1) :
      Pass s r (tftpSendError s tftpErrIllegal "Block# out of order") (some errVal)
  | unwritten (n : Netbuf) (accepted : acceptedDatagram s r = some n) (es : List Event)
      (writes : Writes (chunks n) es)
      (failed : ∃ segment len err, .otaWrite segment len err ∈ es ∧ err ≠ errOk) :
      Pass s r { s with retries := tftpTimeoutRetransmits, trace := s.trace ++ es } (some errVal)
  | unacknowledged (n : Netbuf) (accepted : acceptedDatagram s r = some n)
      (failed : r.ackErr ≠ errOk) : Pass s r (tftpSendAck (s.stored n) s.block) (some r.ackErr)
  | last (n : Netbuf) (accepted : acceptedDatagram s r = some n)
      (short : netbufLen n < dataPacketSz) : Pass s r (s.stored n).reported (some errOk)
  | next (n : Netbuf) (accepted : acceptedDatagram s r = some n)
      (full : ¬ netbufLen n < dataPacketSz) :
      Pass s r { (s.stored n).reported with block := s.block + 1 } none

theorem acknowledgeBlock_pass {s : Receiver} {r : Reception} {n : Netbuf}
    (accepted : acceptedDatagram s r = some n) :
    Pass s r (acknowledgeBlock (s.stored n) r.ackErr (netbufLen n)).1
      (acknowledgeBlock (s.stored n) r.ackErr (netbufLen n)).2 := by
  unfold acknowledgeBlock
  dsimp only
  split
  · rename_i failed
    exact .unacknowledged n accepted failed
  · have reported : (if (tftpSendAck (s.stored n) (s.stored n).block).receiveCb = true then
          (tftpSendAck (s.stored n) (s.stored n).block).log
            (.progress (tftpSendAck (s.stored n) (s.stored n).block).receivedLen)
        else tftpSendAck (s.stored n) (s.stored n).block) = (s.stored n).reported := rfl
    rw [reported]
    split
    · rename_i short
      exact .last n accepted short
    · rename_i full
      have block : (s.stored n).reported.block = s.block := by
        unfold Receiver.reported
        dsimp only
        split <;> rfl
      rw [block]
      exact .next n accepted full

theorem acceptBlock_pass {s : Receiver} {r : Reception} {n : Netbuf}
    (accepted : acceptedDatagram s r = some n) :
    Pass s r (acceptBlock s r n).1 (acceptBlock s r n).2 := by
  unfold acceptBlock
  dsimp only
  cases done : (writeChunks r.otaErr { s with retries := tftpTimeoutRetransmits } 0
      (chunks n)).2 with
  | true =>
    rw [writeChunks_done r.otaErr _ 0 (chunks n) done]
    exact acknowledgeBlock_pass accepted
  | false =>
    obtain ⟨es, state, writes, fails⟩ := writeChunks_writes r.otaErr
      { s with retries := tftpTimeoutRetransmits } 0 (chunks n)
    rw [state]
    exact .unwritten n accepted es writes (fails done)

theorem receivePass_pass (s : Receiver) (r : Reception) :
    Pass (reconnect s r.result) r (receivePass s r).1 (receivePass s r).2 := by
  unfold receivePass
  dsimp only
  generalize reconnect s r.result = s
  cases received : r.result with
  | timeout =>
    dsimp only
    split
    · rename_i retry
      exact .retransmits received retry
    · rename_i enough
      exact .givesUp received enough
  | failed e => exact .fails e received
  | datagram n =>
    dsimp only [receiveDatagram]
    split
    · rename_i other
      exact .unknown n received other
    rename_i data
    split
    · rename_i other
      split
      · rename_i last
        exact .duplicate n received (not_not.mp data) other last
      · rename_i later
        exact .outOfOrder n received (not_not.mp data) other later
    · rename_i expected
      refine acceptBlock_pass ?_
      rw [acceptedDatagram, received]
      exact if_pos ⟨not_not.mp data, not_not.mp expected⟩

/-! How a pass ends, from what it gets. -/

/-- All calls for an accepted datagram succeed. -/
def Stores (r : Reception) (n : Netbuf) : Prop :=
  (∀ i < (chunks n).length, r.otaErr i = errOk) ∧ r.ackErr = errOk

/-- The block is written and acknowledged, and it is the last one. -/
def Completes (s : Receiver) (r : Reception) : Prop :=
  ∃ n, acceptedDatagram s r = some n ∧ Stores r n ∧ netbufLen n < dataPacketSz

/-- The loop waits for another datagram. -/
def GoesOn (s : Receiver) (r : Reception) : Prop :=
  match r.result with
  | .timeout => 0 < s.retries ∧ 1 < s.block
  | .failed _ => False
  | .datagram n =>
    netbufReadU16N n 0 r.rawOpcode = tftpOpData ∧
      if (netbufReadU16N n 2 r.rawBlock).toNat = s.block then
        Stores r n ∧ ¬ netbufLen n < dataPacketSz
      else (netbufReadU16N n 2 r.rawBlock).toNat = s.block - 1

theorem writeChunks_all_iff (otaErr : Nat → Int) (s : Receiver) (i : Nat)
    (cs : List (List UInt8 × UInt16)) :
    (writeChunks otaErr s i cs).2 = true ↔ ∀ j < cs.length, otaErr (i + j) = errOk := by
  induction cs generalizing s i with
  | nil => exact iff_of_true rfl fun j less => absurd less (Nat.not_lt_zero j)
  | cons c cs ih =>
    obtain ⟨chunk, chunkLen⟩ := c
    by_cases ok : otaErr i = errOk
    · simp only [writeChunks, ne_eq, ok, not_true, if_false]
      rw [ih]
      constructor
      · intro rest j less
        cases j with
        | zero => exact ok
        | succ j =>
          rw [← Nat.succ_add_eq_add_succ]
          exact rest j (Nat.lt_of_succ_lt_succ less)
      · intro all j less
        rw [Nat.succ_add_eq_add_succ]
        exact all (j + 1) (Nat.succ_lt_succ less)
    · refine iff_of_false ?_ fun all => ok (all 0 (Nat.succ_pos _))
      simp [writeChunks, ok]

theorem acceptBlock_result (s : Receiver) (r : Reception) (n : Netbuf) :
    ((acceptBlock s r n).2 = none ↔ Stores r n ∧ ¬ netbufLen n < dataPacketSz) ∧
      ((acceptBlock s r n).2 = some errOk ↔ Stores r n ∧ netbufLen n < dataPacketSz) := by
  have all := writeChunks_all_iff r.otaErr { s with retries := tftpTimeoutRetransmits } 0 (chunks n)
  simp only [Nat.zero_add] at all
  unfold acceptBlock Stores
  dsimp only
  rw [← all]
  cases (writeChunks r.otaErr { s with retries := tftpTimeoutRetransmits } 0 (chunks n)).2 with
  | false => simp [errVal]
  | true =>
    rw [if_pos rfl]
    unfold acknowledgeBlock
    dsimp only
    by_cases sent : r.ackErr = errOk
    · by_cases short : netbufLen n < dataPacketSz
      · simp [sent, short]
      · simp [sent, short]
    · simp [sent]

theorem receivePass_result (s : Receiver) (r : Reception) :
    ((receivePass s r).2 = none ↔ GoesOn s r) ∧
      ((receivePass s r).2 = some errOk ↔ Completes s r) := by
  obtain ⟨es, peerAddr, -, same⟩ := reconnect_quiet s r.result
  unfold receivePass GoesOn Completes acceptedDatagram
  dsimp only
  rw [same]
  cases r.result with
  | timeout =>
    dsimp only
    by_cases retry : 0 < s.retries ∧ 1 < s.block
    · simp [retry]
    · simp [retry, errTimeout]
  | failed e => simp [e.ne_ok]
  | datagram n =>
    dsimp only [receiveDatagram]
    by_cases data : netbufReadU16N n 0 r.rawOpcode = tftpOpData
    · by_cases next : (netbufReadU16N n 2 r.rawBlock).toNat = s.block
      · simp only [data, next, ne_eq, not_true, if_false, true_and, and_self, if_true,
          Option.some.injEq, exists_eq_left']
        exact acceptBlock_result _ r n
      · by_cases last : (netbufReadU16N n 2 r.rawBlock).toNat = s.block - 1
        · simp only [data, next, not_false_iff, ne_eq, not_true, if_false, if_true, and_false]
          simp [last]
        · simp [data, next, last, errVal]
    · simp [data, errVal]

end Rocom.Tftp
