import Rocom.Lib.StopAndWait
import Rocom.Tftp.Retransmission

/-! When a transfer completes. The loop of `tftp_receive_data` is a stop-and-wait receiver, so it
returns `ERR_OK` exactly when all the blocks come in order, each before eleven timeouts. -/
namespace Rocom.Tftp

open Slices (slice)
open StopAndWait (Arrival Served schedule scheduleAnswers)

/-- What a reception in a transfer of `file` is to the receiver. -/
def Brings (file : List UInt8) (r : Reception) : Arrival → Prop
  | .timeout => r.result = .timeout
  | .data n =>
    (1 ≤ n ∧ n ≤ blockCount file) ∧ ∃ nb, r.result = .datagram nb ∧ IsData file n nb

/-- The calls of the pass succeed. -/
def Smooth (r : Reception) : Prop := (∀ i, r.otaErr i = errOk) ∧ r.ackErr = errOk

abbrev patience : ℕ := 10

/-- A session as a stop-and-wait receiver. -/
inductive Shows (file : List UInt8) (s : Session) : StopAndWait.State → Prop
  | waiting (running : s.result = none) (positive : 1 ≤ s.receiver.block)
      (within : s.receiver.block ≤ blockCount file) (left : ℕ)
      (retries : s.receiver.retries = left) : Shows file s (.waiting s.receiver.block left)
  | done (completed : s.result = some errOk) : Shows file s .done
  | failed (e : Int) (error : e ≠ errOk) (returned : s.result = some e) : Shows file s .failed

theorem shows_start (file : List UInt8) (peerAddr : Option Peer) (receiveCb : Bool) :
    Shows file (Session.start peerAddr receiveCb) (.waiting 1 patience) :=
  .waiting rfl (Nat.le_refl 1) (Nat.le_add_left 1 _) patience rfl

theorem Shows.done_iff {file : List UInt8} {s : Session} {state : StopAndWait.State}
    (h : Shows file s state) : s.result = some errOk ↔ state = .done := by
  cases h with
  | waiting running => simp [running]
  | done completed => simp [completed]
  | failed e error returned => simp [returned, error]

theorem Session.acks_of_returned {s : Session} {result : Int} (returned : s.result = some result)
    (r : Reception) : s.acks r = [] := by
  rw [acks, calls, Session.step_of_returned returned, List.drop_length]
  rfl

section Data
variable {file : List UInt8} {n : ℕ} {nb : Netbuf}

theorem blockCount_eq (file : List UInt8) : blockCount file = file.length / 512 + 1 := rfl

theorem block_of_data (short : file.length < 65535 * 512) (within : n ≤ blockCount file)
    (data : IsData file n nb) (raw : UInt8 × UInt8) : (netbufReadU16N nb 2 raw).toNat = n := by
  rw [blockCount_eq] at within
  rw [isData_block data, toNat_ofNat_word (by omega)]

/-- Only the last block is short. -/
theorem short_iff_last (positive : 1 ≤ n) (within : n ≤ blockCount file) (data : IsData file n nb) :
    netbufLen nb < dataPacketSz ↔ n = blockCount file := by
  have size : blockSize = 512 := rfl
  have packet : dataPacketSz = 516 := rfl
  rw [blockCount_eq] at within ⊢
  rw [isData_length data, Slices.length_slice, packet, size]
  omega

end Data

/-- A pass that takes its datagram and has no failed call. -/
theorem Pass.taken {s s' : Receiver} {r : Reception} {result : Option Int}
    (pass : Pass s r s' result) {n : Netbuf} (accepted : acceptedDatagram s r = some n)
    (fine : result = none ∨ result = some errOk) (sent : r.ackErr = errOk) :
    ∃ es, s'.trace = s.trace ++ es ∧ acked es = [UInt16.ofNat s.block] ∧
      s'.retries = tftpTimeoutRetransmits ∧ (result = none → s'.block = s.block + 1) := by
  cases pass with
  | retransmits timeout | givesUp timeout => simp [ignored_of_timeout timeout] at accepted
  | fails e failed => simp [ignored_of_failed failed] at accepted
  | unknown m received other =>
    simp [ignored_of_other received fun data => absurd data other] at accepted
  | duplicate m received data old => simp [ignored_of_other received fun _ => old] at accepted
  | outOfOrder m received data other => simp [ignored_of_other received fun _ => other] at accepted
  | unwritten => rcases fine with none | some <;> simp_all [errVal]
  | unacknowledged m taken failed => exact absurd sent failed
  | last m taken short =>
    obtain ⟨es, sent, -, same⟩ := reported_calls (s.stored m)
    refine ⟨allWritten m ++ es, ?_, ?_, ?_, nofun⟩
    · rw [same]
      exact List.append_assoc _ _ _
    · rw [acked_append, acked_allWritten, sent]
      rfl
    · rw [same]
      rfl
  | next m taken full =>
    obtain ⟨es, sent, -, same⟩ := reported_calls (s.stored m)
    refine ⟨allWritten m ++ es, ?_, ?_, ?_, fun _ => rfl⟩
    · rw [same]
      exact List.append_assoc _ _ _
    · rw [acked_append, acked_allWritten, sent]
      rfl
    · rw [same]
      rfl

/-- The next block, with no failed call. -/
theorem step_block {s : Session} {r : Reception} {nb : Netbuf}
    (running : s.result = none) (accepted : acceptedDatagram s.receiver r = some nb)
    (smooth : Smooth r) :
    (s.step r).result = (if netbufLen nb < dataPacketSz then some errOk else none) ∧
      s.acks r = [UInt16.ofNat s.receiver.block] ∧
      (s.step r).receiver.retries = tftpTimeoutRetransmits ∧
      ((s.step r).result = none → (s.step r).receiver.block = s.receiver.block + 1) := by
  obtain ⟨goes_on, completes⟩ := receivePass_result s.receiver r
  have stores : Stores r nb := ⟨fun i _ => smooth.1 i, smooth.2⟩
  have result : (receivePass s.receiver r).2 =
      if netbufLen nb < dataPacketSz then some errOk else none := by
    split_ifs with short
    · exact completes.mpr ⟨nb, accepted, stores, short⟩
    · refine goes_on.mpr ?_
      unfold acceptedDatagram at accepted
      unfold GoesOn
      cases received : r.result with
      | timeout | failed => simp [received] at accepted
      | datagram m =>
        simp only [received] at accepted ⊢
        split_ifs at accepted with next
        cases accepted
        exact ⟨next.1, by rw [if_pos next.2]; exact ⟨stores, short⟩⟩
  have fine : (receivePass s.receiver r).2 = none ∨ (receivePass s.receiver r).2 = some errOk := by
    rw [result]
    split_ifs
    · exact .inr rfl
    · exact .inl rfl
  have pass := receivePass_pass s.receiver r
  obtain ⟨before, peerAddr, silent, -, same⟩ := reconnect_calls s.receiver r.result
  have step := Session.step_of_running running r
  rw [same] at pass
  obtain ⟨es, trace, sent, retries, block⟩ := pass.taken (n := nb) accepted fine smooth.2
  rw [step]
  refine ⟨result, ?_, retries, block⟩
  rw [Session.acks, Session.calls_of_step step (trace.trans (List.append_assoc _ _ _)),
    acked_append, silent, sent]
  rfl

theorem step_timeout {s : Session} {r : Reception} (running : s.result = none)
    (timeout : r.result = .timeout) :
    (0 < s.receiver.retries ∧ 1 < s.receiver.block ∧ (s.step r).result = none ∧
      s.acks r = [UInt16.ofNat (s.receiver.block - 1)] ∧
      (s.step r).receiver.retries = s.receiver.retries - 1 ∧
      (s.step r).receiver.block = s.receiver.block) ∨
    (¬ (0 < s.receiver.retries ∧ 1 < s.receiver.block) ∧ (s.step r).result = some errTimeout ∧
      s.acks r = []) := by
  have timed : r.timedOut = true := by rw [Reception.timedOut, timeout]
  have runs := Session.running_of_none running
  cases s.turn r with
  | finished returned => simp [runs] at returned
  | accepted _ _ untimed | repeated _ _ untimed => simp [timed] at untimed
  | tolerated _ _ retry acks retries block goes_on =>
    exact .inl ⟨retry.1, retry.2, Option.isNone_iff_eq_none.mp goes_on, acks, retries, block⟩
  | ended _ _ acks _ gave_up => exact .inr ⟨(gave_up timed).1, (gave_up timed).2, acks⟩

/-- A block that is not the next one: the block before is acknowledged again, any other one ends
the session. -/
theorem step_other {s : Session} {r : Reception} (running : s.result = none) {nb : Netbuf}
    (received : r.result = .datagram nb) (data : netbufReadU16N nb 0 r.rawOpcode = tftpOpData)
    (other : (netbufReadU16N nb 2 r.rawBlock).toNat ≠ s.receiver.block) :
    if (netbufReadU16N nb 2 r.rawBlock).toNat = s.receiver.block - 1 then
      (s.step r).result = none ∧ s.acks r = [UInt16.ofNat (s.receiver.block - 1)] ∧
        (s.step r).receiver.retries = s.receiver.retries ∧
        (s.step r).receiver.block = s.receiver.block
    else (∃ e, e ≠ errOk ∧ (s.step r).result = some e) ∧ s.acks r = [] := by
  obtain ⟨goes_on, completes⟩ := receivePass_result s.receiver r
  have ignored := ignored_of_other (s := s.receiver) received fun _ => other
  have untimed := timedOut_of_datagram received
  have step := Session.step_of_running running r
  have waits : (s.step r).result = none ↔
      (netbufReadU16N nb 2 r.rawBlock).toNat = s.receiver.block - 1 := by
    rw [step, goes_on, GoesOn, received]
    simp [data, other]
  have incomplete : (s.step r).result ≠ some errOk := by
    rw [step]
    intro done
    obtain ⟨m, accepted, -⟩ := completes.mp done
    simp [ignored] at accepted
  cases s.turn r with
  | finished returned => simp [Session.running_of_none running] at returned
  | accepted _ counted =>
    have accepts := counted.accepts
    simp [Session.accepts, ignored] at accepts
  | tolerated _ counted =>
    have tolerates := counted.tolerates
    simp [Session.tolerates, untimed] at tolerates
  | repeated _ _ _ acks retries block goes_on =>
    have stays := Option.isNone_iff_eq_none.mp goes_on
    rw [if_pos (waits.mp stays)]
    exact ⟨stays, acks, retries, block⟩
  | ended _ _ acks stopped =>
    have returns : (s.step r).result ≠ none := fun none => by
      simp [Session.running, none] at stopped
    obtain ⟨e, result⟩ := Option.ne_none_iff_exists'.mp returns
    rw [if_neg fun last => returns (waits.mpr last)]
    exact ⟨⟨e, fun ok => incomplete (ok ▸ result), result⟩, acks⟩

/-- The receiver of the source takes the step of the stop-and-wait receiver, and acknowledges what
that one does. -/
theorem shows_step {file : List UInt8} (short : file.length < 65535 * 512) {s : Session}
    {state : StopAndWait.State} (h : Shows file s state) {r : Reception} {a : Arrival}
    (brings : Brings file r a) (smooth : Smooth r) :
    Shows file (s.step r) (StopAndWait.step patience (blockCount file) state a) ∧
      s.acks r = (StopAndWait.answer state a).map UInt16.ofNat := by
  cases h with
  | done completed =>
    exact ⟨.done (by rw [Session.step_of_returned completed, completed]),
      Session.acks_of_returned completed r⟩
  | failed e error returned =>
    exact ⟨.failed e error (by rw [Session.step_of_returned returned, returned]),
      Session.acks_of_returned returned r⟩
  | waiting running positive within left retries =>
    cases a with
    | timeout =>
      rw [StopAndWait.step, StopAndWait.answer]
      rcases step_timeout running brings with ⟨more, later, goes_on, acks, less, block⟩ |
        ⟨enough, result, acks⟩
      · have borne : 1 < s.receiver.block ∧ 0 < left := ⟨later, by omega⟩
        rw [if_pos borne, if_pos borne, ← block]
        refine ⟨.waiting goes_on (block ▸ positive) (block ▸ within) _ ?_, acks.trans ?_⟩
        · rw [less, retries]
          omega
        · rw [block]
          rfl
      · have lost : ¬ (1 < s.receiver.block ∧ 0 < left) := by omega
        rw [if_neg lost, if_neg lost]
        exact ⟨.failed _ (by decide) result, acks⟩
    | data n =>
      obtain ⟨⟨numbered, counted⟩, nb, received, data⟩ := brings
      have opcode := isData_opcode data r.rawOpcode
      have block := block_of_data short counted data r.rawBlock
      rw [StopAndWait.step, StopAndWait.answer]
      by_cases next : n = s.receiver.block
      · have accepted : acceptedDatagram s.receiver r = some nb := by
          rw [acceptedDatagram, received]
          exact if_pos ⟨opcode, block.trans next⟩
        obtain ⟨result, acks, refilled, more⟩ := step_block running accepted smooth
        simp only [short_iff_last numbered counted data, next] at result
        rw [if_pos next, if_pos next]
        refine ⟨?_, acks⟩
        split_ifs at result ⊢ with last
        · exact .done result
        · have following := more result
          rw [← following]
          exact .waiting result (by omega) (by omega) _ refilled
      · have outcome := step_other running received opcode (block ▸ next)
        rw [block] at outcome
        rw [if_neg next, if_neg next]
        by_cases before : n + 1 = s.receiver.block
        · rw [if_pos before, if_pos before]
          rw [if_pos (by omega)] at outcome
          obtain ⟨goes_on, acks, same, stays⟩ := outcome
          refine ⟨?_, acks⟩
          rw [← stays]
          exact .waiting goes_on (stays ▸ positive) (stays ▸ within) left (same.trans retries)
        · rw [if_neg before, if_neg before]
          rw [if_neg (by omega)] at outcome
          obtain ⟨⟨e, error, result⟩, acks⟩ := outcome
          exact ⟨.failed e error result, acks⟩

/-- A transfer, as the stop-and-wait receiver sees it. -/
theorem shows_run {file : List UInt8} (short : file.length < 65535 * 512) {rs : List Reception}
    {as : List Arrival} (brings : List.Forall₂ (Brings file) rs as) (smooth : ∀ r ∈ rs, Smooth r)
    {s : Session} {state : StopAndWait.State} (h : Shows file s state) :
    Shows file (rs.foldl Session.step s)
        (as.foldl (StopAndWait.step patience (blockCount file)) state) ∧
      acked (rs.foldl Session.step s).receiver.trace = acked s.receiver.trace ++
        (StopAndWait.answers patience (blockCount file) state as).map UInt16.ofNat := by
  induction brings generalizing s state with
  | nil => exact ⟨h, (List.append_nil _).symm⟩
  | @cons r a rs as first rest ih =>
    obtain ⟨now, later⟩ := List.forall_mem_cons.mp smooth
    obtain ⟨shows, acks⟩ := shows_step short h first now
    obtain ⟨shows', acks'⟩ := ih later shows
    refine ⟨shows', acks'.trans ?_⟩
    rw [Session.trace_step, acked_append, ← Session.acks, acks, StopAndWait.answers,
      List.map_append, List.append_assoc]

theorem Brings.fromTransfer {file : List UInt8} {r : Reception} {a : Arrival}
    (brings : Brings file r a) : FromTransfer file r.result := by
  intro nb received
  cases a with
  | timeout =>
    have timeout : r.result = .timeout := brings
    rw [timeout] at received
    cases received
  | data n =>
    obtain ⟨counted, m, same, data⟩ := brings
    rw [same] at received
    cases received
    exact ⟨n, counted, data⟩

theorem sessionInv_run {file : List UInt8} (short : file.length < 65535 * 512)
    {rs : List Reception} {as : List Arrival} (brings : List.Forall₂ (Brings file) rs as)
    {s : Session} (h : SessionInv file s) : SessionInv file (rs.foldl Session.step s) := by
  induction brings generalizing s with
  | nil => exact h
  | @cons r _ _ _ first rest ih => exact ih (sessionInv_step short s r h first.fromTransfer)

theorem session_done_iff {file : List UInt8} (short : file.length < 65535 * 512)
    (peerAddr : Option Peer) (receiveCb : Bool) {rs : List Reception} {as : List Arrival}
    (brings : List.Forall₂ (Brings file) rs as) (smooth : ∀ r ∈ rs, Smooth r) :
    (tftpReceiveData peerAddr receiveCb rs).result = some errOk ↔
      ∃ rounds, Served patience (blockCount file) rounds ∧ schedule 1 rounds <+: as := by
  have counted : 1 ≤ blockCount file := Nat.le_add_left 1 _
  obtain ⟨shows, -⟩ := shows_run short brings smooth (shows_start file peerAddr receiveCb)
  exact shows.done_iff.trans (StopAndWait.done_iff counted as)

theorem session_complete {file : List UInt8} (short : file.length < 65535 * 512)
    (peerAddr : Option Peer) (receiveCb : Bool) {rs : List Reception} {as : List Arrival}
    (brings : List.Forall₂ (Brings file) rs as)
    (done : (tftpReceiveData peerAddr receiveCb rs).result = some errOk) :
    written (tftpReceiveData peerAddr receiveCb rs).receiver.trace = file ∧
      (tftpReceiveData peerAddr receiveCb rs).receiver.receivedLen.toNat = file.length :=
  (sessionInv_run short brings (sessionInv_start file peerAddr receiveCb)).safe.complete done

/-- A transfer without failed calls returns `ERR_OK` exactly after a schedule of all the blocks,
and has then written the file and acknowledged each wait and each block. -/
theorem transfer_completes_iff {file : List UInt8} (short : file.length < 65535 * 512)
    (peerAddr : Option Peer) (receiveCb : Bool) {rs : List Reception} {as : List Arrival}
    (brings : List.Forall₂ (Brings file) rs as) (smooth : ∀ r ∈ rs, Smooth r) :
    let s := tftpReceiveData peerAddr receiveCb rs
    (s.result = some errOk ↔
      ∃ rounds, Served patience (blockCount file) rounds ∧ schedule 1 rounds <+: as) ∧
    ∀ rounds, Served patience (blockCount file) rounds → schedule 1 rounds <+: as →
      written s.receiver.trace = file ∧ s.receiver.receivedLen.toNat = file.length ∧
      acked s.receiver.trace = (scheduleAnswers 1 rounds).map UInt16.ofNat := by
  intro s
  have counted : 1 ≤ blockCount file := Nat.le_add_left 1 _
  have completes := session_done_iff short peerAddr receiveCb brings smooth
  refine ⟨completes, ?_⟩
  intro rounds served whole
  obtain ⟨bytes, received⟩ :=
    session_complete short peerAddr receiveCb brings (completes.mpr ⟨rounds, served, whole⟩)
  refine ⟨bytes, received, ?_⟩
  obtain ⟨-, acks⟩ := shows_run short brings smooth (shows_start file peerAddr receiveCb)
  rw [StopAndWait.answers_served counted served whole] at acks
  exact acks

/-! Two blocks, the first one twice, and a timeout before the second. -/

def twoBlocks : List UInt8 := List.replicate 513 0x5a

theorem length_dataPacket (file : List UInt8) (n : ℕ) :
    (dataPacket file n).length = 4 + min 512 (file.length - 512 * (n - 1)) := by
  rw [dataPacket, List.length_append, Slices.length_slice]
  rfl

def dataNetbuf (file : List UInt8) (n : ℕ) : Netbuf :=
  ⟨dataPacket file n, [], ⟨0x0a000002, 69⟩, by
    rw [List.flatten_nil, List.append_nil, length_dataPacket]
    omega⟩

theorem dataNetbuf_isData (file : List UInt8) (n : ℕ) : IsData file n (dataNetbuf file n) where
  bytes := List.append_nil _
  header := by
    rw [dataNetbuf, length_dataPacket]
    exact Nat.le_add_right 4 _

def smoothly (result : RecvResult) : Reception := ⟨result, (0, 0), (0, 0), fun _ => errOk, errOk⟩

def twoBlocksSent : List Reception :=
  [smoothly (.datagram (dataNetbuf twoBlocks 1)), smoothly (.datagram (dataNetbuf twoBlocks 1)),
    smoothly .timeout, smoothly (.datagram (dataNetbuf twoBlocks 2))]

def twoBlocksRounds : List (List StopAndWait.Wait) := [[], [.repeated, .timeout]]

theorem twoBlocks_short : twoBlocks.length < 65535 * 512 := by
  rw [twoBlocks, List.length_replicate]
  decide

theorem twoBlocks_count : blockCount twoBlocks = 2 := by
  rw [blockCount_eq, twoBlocks, List.length_replicate]

theorem twoBlocks_served : Served patience (blockCount twoBlocks) twoBlocksRounds := by
  rw [twoBlocks_count]
  exact ⟨rfl, by decide, by decide⟩

theorem twoBlocks_brings :
    List.Forall₂ (Brings twoBlocks) twoBlocksSent (schedule 1 twoBlocksRounds) := by
  have data (n : ℕ) (counted : 1 ≤ n ∧ n ≤ 2) :
      Brings twoBlocks (smoothly (.datagram (dataNetbuf twoBlocks n))) (.data n) :=
    ⟨⟨counted.1, twoBlocks_count ▸ counted.2⟩, _, rfl, dataNetbuf_isData _ _⟩
  exact .cons (data 1 (by decide)) (.cons (data 1 (by decide)) (.cons rfl
    (.cons (data 2 (by decide)) .nil)))

theorem twoBlocks_smooth : ∀ r ∈ twoBlocksSent, Smooth r := by
  simp [twoBlocksSent, Smooth, smoothly]

theorem transfer_completes_iff_twice :
    (tftpReceiveData none false twoBlocksSent).result = some errOk ∧
      written (tftpReceiveData none false twoBlocksSent).receiver.trace = twoBlocks ∧
      acked (tftpReceiveData none false twoBlocksSent).receiver.trace = [1, 1, 1, 2] := by
  obtain ⟨completes, whole⟩ :=
    transfer_completes_iff twoBlocks_short none false twoBlocks_brings twoBlocks_smooth
  obtain ⟨bytes, -, acks⟩ := whole _ twoBlocks_served List.prefix_rfl
  exact ⟨completes.mpr ⟨_, twoBlocks_served, List.prefix_rfl⟩, bytes, acks⟩

end Rocom.Tftp
