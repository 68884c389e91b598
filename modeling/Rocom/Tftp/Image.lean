import Rocom.Lib.Runs
import Rocom.Tftp.Task
import Rocom.Tftp.Transfer

/-! What is in the image when `tftp_task` switches the boot partition. The handle survives a
session, and `ota_tftp_init` may fail after the request was acknowledged. -/
namespace Rocom.Tftp

def Netbuf.payload (n : Netbuf) : List UInt8 := n.bytes.drop 4

/-- The first segment holds the header. -/
def Netbuf.Whole (n : Netbuf) : Prop := 4 ≤ n.head.length

instance (n : Netbuf) : Decidable n.Whole := inferInstanceAs (Decidable (4 ≤ n.head.length))

/-- What the loop over the segments writes. -/
def Netbuf.stored (behind : Nat → UInt8) (n : Netbuf) : List UInt8 :=
  (chunks n).flatMap fun c => otaBytes behind c.1 c.2.toNat

theorem length_otaBytes (behind : Nat → UInt8) (segment : List UInt8) (len : Nat) :
    (otaBytes behind segment len).length = len := by
  rw [otaBytes, List.length_append, List.length_take, List.length_map, List.length_range]
  omega

theorem otaBytes_length (behind : Nat → UInt8) (segment : List UInt8) :
    otaBytes behind segment segment.length = segment := by
  rw [otaBytes, List.take_length, Nat.sub_self]
  exact List.append_nil _

theorem stored_of_whole (behind : Nat → UInt8) {n : Netbuf} (h : n.Whole) :
    n.stored behind = n.payload := by
  rw [Netbuf.stored, chunks_payload (otaBytes_length behind) n h, Netbuf.payload, Netbuf.bytes,
    List.drop_append_of_le_length h]

/-- With a shorter first segment the length wraps. -/
theorem header_wraps {n : Netbuf} (h : ¬ n.Whole) :
    (UInt16.ofNat n.head.length - 4).toNat = 65532 + n.head.length := by
  have short : n.head.length < 4 := Nat.lt_of_not_le h
  rw [UInt16.toNat_sub, toNat_ofNat_word (by omega)]
  have four : (4 : UInt16).toNat = 4 := rfl
  omega

/-- More is written then than was sent. -/
theorem stored_of_short (behind : Nat → UInt8) {n : Netbuf} (h : ¬ n.Whole) :
    n.payload.length < (n.stored behind).length := by
  have short : n.head.length < 4 := Nat.lt_of_not_le h
  rw [Netbuf.stored, chunks_bytes (otaBytes_length behind), List.length_append, length_otaBytes,
    header_wraps h, Netbuf.payload, List.length_drop, Netbuf.bytes, List.length_append]
  omega

theorem writeChunks_done (otaErr : Nat → Int) (s : Receiver) (i : Nat)
    (cs : List (List UInt8 × UInt16)) (done : (writeChunks otaErr s i cs).2 = true) :
    (writeChunks otaErr s i cs).1 =
      { s with trace := s.trace ++ cs.map fun c => .otaWrite c.1 c.2 errOk } := by
  obtain ⟨es, state, -, all⟩ := writeChunks_spec otaErr s i cs
  rw [state, all done]

theorem stored_writes (behind : Nat → UInt8) (cs : List (List UInt8 × UInt16)) :
    (cs.map fun c => Event.otaWrite c.1 c.2 errOk).flatMap (Event.stored behind) =
      cs.flatMap fun c => otaBytes behind c.1 c.2.toNat := by
  rw [List.flatMap_map]
  rfl

/-- Messages that are not writes. -/
def Quiet (es : List Event) : Prop := ∀ e ∈ es, e.isWrite = false

theorem Quiet.stored (behind : Nat → UInt8) {es : List Event} (h : Quiet es) :
    es.flatMap (Event.stored behind) = [] := by
  rw [List.flatMap_eq_nil_iff]
  intro e mem
  cases e with
  | otaWrite segment len err => cases h _ mem
  | disconnect | connect | ack | error | progress => rfl

theorem reconnect_quiet (s : Receiver) (result : RecvResult) :
    ∃ es peerAddr, Quiet es ∧
      reconnect s result = { s with trace := s.trace ++ es, peerAddr := peerAddr } := by
  unfold reconnect
  cases s.peerAddr with
  | none => exact ⟨[], s.peerAddr, nofun, by simp⟩
  | some peer =>
    cases result with
    | datagram n =>
      exact ⟨[.disconnect, .connect n.peer], none, by simp [Quiet, Event.isWrite],
        by simp [Receiver.log]⟩
    | timeout | failed =>
      exact ⟨[.disconnect, .connect peer], s.peerAddr, by simp [Quiet, Event.isWrite],
        by simp [Receiver.log]⟩

/-- The pass goes on or ends the transfer well. -/
def Fine (result : Option Int) : Prop := result = none ∨ result = some errOk

theorem acknowledgeBlock_quiet (s : Receiver) (ackErr : Int) (len : Nat) :
    ∃ es, Quiet es ∧ (acknowledgeBlock s ackErr len).1.trace = s.trace ++ es := by
  cases sent : decide (ackErr = errOk) with
  | false =>
    have failed := of_decide_eq_false sent
    exact ⟨[.ack (UInt16.ofNat s.block)], by simp [Quiet, Event.isWrite],
      by simp [acknowledgeBlock, failed, tftpSendAck, Receiver.log]⟩
  | true =>
    have ok := of_decide_eq_true sent
    rw [acknowledgeBlock_eq s ackErr len ok]
    refine ⟨.ack (UInt16.ofNat s.block) ::
      if s.receiveCb then [.progress s.receivedLen] else [], ?_, ?_⟩
    · cases s.receiveCb <;> simp [Quiet, Event.isWrite]
    · by_cases last : len < dataPacketSz
      · simp [last, tftpSendAck, Receiver.log]
      · simp [last, tftpSendAck, Receiver.log]

theorem acceptBlock_stored (s : Receiver) (r : Reception) (n : Netbuf) (behind : Nat → UInt8)
    (fine : Fine (acceptBlock s r n).2) :
    ∃ es, (acceptBlock s r n).1.trace = s.trace ++ es ∧
      es.flatMap (Event.stored behind) = n.stored behind := by
  unfold acceptBlock at fine ⊢
  simp only at fine ⊢
  cases done : (writeChunks r.otaErr { s with retries := tftpTimeoutRetransmits } 0 (chunks n)).2 with
  | false =>
    simp only [done, Bool.false_eq_true, if_false] at fine
    rcases fine with going | ended
    · cases going
    · exact absurd (Option.some.inj ended) (by decide)
  | true =>
    have writes := writeChunks_done r.otaErr _ 0 (chunks n) done
    simp only [if_true, writes]
    obtain ⟨es, quiet, trace⟩ := acknowledgeBlock_quiet
      { s with
        retries := tftpTimeoutRetransmits
        trace := s.trace ++ (chunks n).map fun c => .otaWrite c.1 c.2 errOk
        receivedLen := s.receivedLen + (UInt32.ofNat (netbufLen n) - 4) } r.ackErr (netbufLen n)
    refine ⟨((chunks n).map fun c => .otaWrite c.1 c.2 errOk) ++ es, ?_, ?_⟩
    · rw [trace, List.append_assoc]
    · rw [List.flatMap_append, stored_writes, quiet.stored, List.append_nil, Netbuf.stored]

theorem receivePass_stored (s : Receiver) (r : Reception) (behind : Nat → UInt8)
    (fine : Fine (receivePass s r).2) :
    ∃ es, (receivePass s r).1.trace = s.trace ++ es ∧
      es.flatMap (Event.stored behind) =
        (acceptedDatagram s r).toList.flatMap (Netbuf.stored behind) := by
  obtain ⟨es, peerAddr, quiet, same⟩ := reconnect_quiet s r.result
  unfold receivePass acceptedDatagram at *
  rw [same] at fine ⊢
  cases received : r.result with
  | timeout =>
    simp only [received] at fine ⊢
    split
    · refine ⟨es ++ [.ack (UInt16.ofNat (s.block - 1))], ?_, ?_⟩
      · simp [tftpSendAck, Receiver.log]
      · simp [quiet.stored, Event.stored]
    · rename_i given_up
      rw [if_neg given_up] at fine
      rcases fine with going | ended
      · cases going
      · exact absurd (Option.some.inj ended) (by decide)
  | failed e =>
    simp only [received] at fine
    rcases fine with going | ended
    · cases going
    · exact absurd (Option.some.inj ended) e.ne_ok
  | datagram n =>
    simp only [received, receiveDatagram] at fine ⊢
    split
    · rename_i other
      rw [if_pos other] at fine
      rcases fine with going | ended
      · cases going
      · exact absurd (Option.some.inj ended) (by decide)
    · rename_i data
      rw [if_neg data] at fine
      split
      · rename_i out_of_order
        rw [if_pos out_of_order] at fine
        split
        · refine ⟨es ++ [.ack (UInt16.ofNat (s.block - 1))], ?_, ?_⟩
          · simp [tftpSendAck, Receiver.log]
          · simp [quiet.stored, Event.stored, out_of_order]
        · rename_i unknown
          rw [if_neg unknown] at fine
          rcases fine with going | ended
          · cases going
          · exact absurd (Option.some.inj ended) (by decide)
      · rename_i next
        rw [if_neg next] at fine
        obtain ⟨more, trace, stored⟩ := acceptBlock_stored _ r n behind fine
        refine ⟨es ++ more, ?_, ?_⟩
        · rw [trace, List.append_assoc]
        · rw [List.flatMap_append, quiet.stored, List.nil_append, stored]
          simp [not_not.mp data, not_not.mp next]

theorem Session.step_of_running {s : Session} (running : s.result = none) (r : Reception) :
    s.step r = ⟨(receivePass s.receiver r).1, (receivePass s.receiver r).2⟩ := by
  simp only [Session.step, running]

theorem Session.step_of_returned {s : Session} {result : Int} (returned : s.result = some result)
    (r : Reception) : s.step r = s := by
  simp only [Session.step, returned]

theorem stepped_stored {s : Session} (running : s.result = none) (r : Reception)
    (behind : Nat → UInt8) (fine : Fine (s.step r).result) :
    ((s.step r).receiver.trace.drop s.receiver.trace.length).flatMap (Event.stored behind) =
      (acceptedDatagram s.receiver r).toList.flatMap (Netbuf.stored behind) := by
  rw [Session.step_of_running running] at fine ⊢
  obtain ⟨es, trace, stored⟩ := receivePass_stored s.receiver r behind fine
  simp only [trace, List.drop_left, stored]

/-! What a session has put into the image, next to what was there before it. -/

def payloads (ns : List Netbuf) : List UInt8 := ns.flatMap Netbuf.payload

def AllWhole (ns : List Netbuf) : Prop := ∀ n ∈ ns, n.Whole

/-- Datagrams whose headers are whole are written as sent, and with any other more is written. -/
structure Body (ns : List Netbuf) (body : List UInt8) : Prop where
  whole : AllWhole ns → body = payloads ns
  short : ¬ AllWhole ns → (payloads ns).length < body.length

theorem body_nil : Body [] [] := ⟨fun _ => rfl, fun h => absurd nofun h⟩

theorem Body.length_le {ns : List Netbuf} {body : List UInt8} (h : Body ns body) :
    (payloads ns).length ≤ body.length := by
  by_cases whole : AllWhole ns
  · rw [h.whole whole]
  · exact Nat.le_of_lt (h.short whole)

theorem Body.snoc {ns : List Netbuf} {body : List UInt8} (h : Body ns body) (n : Netbuf)
    (behind : Nat → UInt8) : Body (ns ++ [n]) (body ++ n.stored behind) := by
  have split : payloads (ns ++ [n]) = payloads ns ++ n.payload := by
    simp [payloads]
  have all : AllWhole (ns ++ [n]) ↔ AllWhole ns ∧ n.Whole := by
    simp [AllWhole, or_imp, forall_and]
  by_cases whole : n.Whole
  · rw [stored_of_whole behind whole]
    constructor
    · intro every
      rw [split, h.whole (all.mp every).1]
    · intro some_short
      have before : ¬ AllWhole ns := fun every => some_short (all.mpr ⟨every, whole⟩)
      have longer := h.short before
      rw [split, List.length_append, List.length_append]
      omega
  · constructor
    · exact fun every => absurd (all.mp every).2 whole
    · intro _
      have longer := stored_of_short behind whole
      have before := h.length_le
      rw [split, List.length_append, List.length_append]
      omega

theorem Body.append {ns : List Netbuf} {body : List UInt8} (h : Body ns body)
    (next : Option Netbuf) (behind : Nat → UInt8) :
    Body (ns ++ next.toList) (body ++ next.toList.flatMap (Netbuf.stored behind)) := by
  cases next with
  | none => simpa using h
  | some n => simpa using h.snoc n behind

def Boot.payload (b : Boot) : List UInt8 := payloads b.accepted

namespace Task

/-- The image is what was there before the session and what the session wrote. -/
def Extends (w : Task) : Prop := ∃ body, w.image = w.before ++ body ∧ Body w.accepted body

/-- Between the steps of a session it goes on. -/
def Tracked (w : Task) : Prop := ∀ s ∈ w.session, s.result = none ∧ w.Extends

/-- At every switch of the boot partition the image is the payload of the session. -/
def Right (w : Task) : Prop := ∀ b ∈ w.boots, b.image = b.payload

/-- A step with which `tftp_receive_data` returns `ERR_OK`. -/
def Completes (w : Task) : TaskInput → Prop
  | .request _ _ _ => False
  | .receive r _ _ => ∃ s ∈ w.session, (s.step r).result = some errOk

/-- The datagrams of the session, with the one of this step. -/
def acceptedWith (w : Task) : TaskInput → List Netbuf
  | .request _ _ _ => w.accepted
  | .receive r _ _ =>
    match w.session with
    | none => w.accepted
    | some s => w.accepted ++ (acceptedDatagram s.receiver r).toList

/-- The session began with nothing in the image, and no datagram of it is cut before byte 4. -/
def Own (w : Task) (a : TaskInput) : Prop := w.before = [] ∧ AllWhole (w.acceptedWith a)

theorem Extends.right_iff {w : Task} (h : w.Extends) :
    w.image = payloads w.accepted ↔ w.before = [] ∧ AllWhole w.accepted := by
  obtain ⟨body, image, content⟩ := h
  rw [image]
  constructor
  · intro same
    have lengths := congrArg List.length same
    rw [List.length_append] at lengths
    have whole : AllWhole w.accepted := by
      by_contra cut
      have longer := content.short cut
      omega
    rw [content.whole whole] at lengths
    exact ⟨List.length_eq_zero_iff.mp (by omega), whole⟩
  · rintro ⟨empty, whole⟩
    rw [empty, content.whole whole, List.nil_append]

theorem receive_extends {w : Task} {s : Session} (running : s.result = none) (h : w.Extends)
    (r : Reception) (behind : Nat → UInt8) (fine : Fine (s.step r).result) :
    (w.receive s r behind).Extends := by
  obtain ⟨body, image, content⟩ := h
  refine ⟨body ++ (acceptedDatagram s.receiver r).toList.flatMap (Netbuf.stored behind), ?_,
    content.append (acceptedDatagram s.receiver r) behind⟩
  have new := stepped_stored running r behind fine
  simp only [receive, new, image, List.append_assoc]

theorem request_tracked (w : Task) (n : Netbuf) (ackErr : Int) (i : OtaInit)
    (idle : w.session = none) : (w.request n ackErr i).Tracked := by
  unfold request
  split
  · simp [Tracked, idle]
  · simp [Tracked, log, idle]
  · simp only
    split
    · simp [Tracked, log, idle]
    · intro s hs
      cases hs
      exact ⟨rfl, [], by simp, body_nil⟩

theorem finish_tracked (w : Task) (recvErr bootErr : Int) : (w.finish recvErr bootErr).Tracked := by
  unfold finish
  simp only
  split
  · split
    · simp [Tracked, log]
    · simp [Tracked, restart]
  · simp [Tracked, log]

theorem step_tracked (w : Task) (a : TaskInput) (h : w.Tracked) : (w.step a).Tracked := by
  cases a with
  | request n ackErr i =>
    simp only [step]
    cases idle : w.session with
    | none => exact request_tracked w n ackErr i idle
    | some s => exact h
  | receive r behind bootErr =>
    simp only [step]
    cases running : w.session with
    | none => exact h
    | some s =>
      obtain ⟨going, extended⟩ := h s running
      simp only
      split
      · rename_i goes_on
        intro t ht
        cases ht
        exact ⟨goes_on, receive_extends going extended r behind (Or.inl goes_on)⟩
      · exact finish_tracked _ _ _

theorem request_boots (w : Task) (n : Netbuf) (ackErr : Int) (i : OtaInit) :
    (w.request n ackErr i).boots = w.boots := by
  unfold request
  split
  · rfl
  · rfl
  · simp only
    split
    · rfl
    · obtain ⟨updatePart, image, same⟩ :=
        otaTftpInit_eq ((w.log (.connect n.peer)).log (.ack 0)) i
      rw [same]
      rfl

theorem finish_boots (w : Task) (recvErr bootErr : Int) :
    (w.finish recvErr bootErr).boots =
      w.boots ++ if recvErr = errOk then [⟨w.updatePart, w.image, w.accepted⟩] else [] := by
  unfold finish
  simp only
  split
  · split <;> rfl
  · simp [log]

/-- A step keeps the switches right exactly if it completes no session, or one whose image is
its own. -/
theorem step_right_iff {w : Task} (tracked : w.Tracked) (right : w.Right) (a : TaskInput) :
    (w.step a).Right ↔ (w.Completes a → w.Own a) := by
  have idle {n : Task} (same : n.boots = w.boots) (none_done : ¬ w.Completes a) :
      n.Right ↔ (w.Completes a → w.Own a) := by
    refine iff_of_true ?_ fun done => absurd done none_done
    unfold Right
    rw [same]
    exact right
  cases a with
  | request n ackErr i =>
    refine idle ?_ id
    simp only [step]
    split
    · exact request_boots w n ackErr i
    · rfl
  | receive r behind bootErr =>
    simp only [step]
    cases running : w.session with
    | none => exact idle rfl fun ⟨s, hs, _⟩ => by simp [running] at hs
    | some s =>
      obtain ⟨going, extended⟩ := tracked s running
      simp only
      cases result : (s.step r).result with
      | none =>
        refine idle rfl ?_
        rintro ⟨t, ht, done⟩
        rw [running] at ht
        cases ht
        rw [result] at done
        cases done
      | some recvErr =>
        by_cases good : recvErr = errOk
        · subst good
          have fine : Fine (s.step r).result := Or.inr result
          have after := (receive_extends going extended r behind fine).right_iff
          have completes : w.Completes (.receive r behind bootErr) := ⟨s, running, result⟩
          have own : w.Own (.receive r behind bootErr) ↔
              (w.receive s r behind).before = [] ∧ AllWhole (w.receive s r behind).accepted := by
            simp only [Own, acceptedWith, running, receive]
          rw [forall_prop_of_true completes, own, ← after]
          simp only [Right, finish_boots, if_true]
          constructor
          · intro all
            exact all _ (List.mem_append_right _ List.mem_cons_self)
          · intro own_image b hb
            rcases List.mem_append.mp hb with old | new
            · exact right b old
            · rw [List.mem_singleton.mp new]
              exact own_image
        · refine idle ?_ ?_
          · rw [finish_boots, if_neg good]
            exact List.append_nil _
          · rintro ⟨t, ht, done⟩
            rw [running] at ht
            cases ht
            rw [result] at done
            exact good (Option.some.inj done)

/-- Every boot image is the payload of the session that has just finished exactly in the runs
whose completed sessions began with an empty image and cut no header. -/
theorem image_own_iff (as : List TaskInput) :
    Runs.Throughout step Right start as ↔
      Runs.Along step (fun w a => w.Completes a → w.Own a) start as := by
  apply Runs.throughout_iff_along (I := Tracked) step_tracked
  · exact fun w a tracked right => step_right_iff tracked right a
  · exact nofun
  · exact nofun

def client : Peer := ⟨1, 1069⟩

def writeRequest : Netbuf where
  head := [0, 2] ++ tftpFirmwareFile ++ [0] ++ tftpOctetMode ++ [0]
  tail := []
  peer := client
  totLen := by decide

/-- DATA 1 with one byte, and what sending the acknowledgement returns. -/
def lastBlock (byte : UInt8) (ackErr : Int) : TaskInput :=
  .receive ⟨.datagram ⟨[0, 3, 0, 1, byte], [], client, by simp⟩, (0, 0), (0, 0), fun _ => errOk,
    ackErr⟩ (fun _ => 0) errOk

/-- A session that wrote one byte ends with a failed acknowledgement, and the next one runs
without an `esp_ota_begin`. -/
def failedBegin : List TaskInput :=
  [.request writeRequest 0 ⟨some 0, some 0, some 1, errOk⟩, lastBlock 0x41 (-1),
    .request writeRequest 0 ⟨some 0, some 0, some 1, 0x101⟩, lastBlock 0x42 errOk]

theorem two_uploads_in_image : ¬ Runs.Throughout step Right start failedBegin := by
  intro right
  have last := (Runs.throughout_iff_prefix _ _).mp right _ (List.prefix_refl _)
  have images : ((failedBegin.foldl step start).boots.map (·.image)) = [[0x41, 0x42]] := by decide
  have sent : ((failedBegin.foldl step start).boots.map (·.payload)) = [[0x42]] := by decide
  have same : (failedBegin.foldl step start).boots.map (·.image) =
      (failedBegin.foldl step start).boots.map (·.payload) := List.map_congr_left last
  rw [images, sent] at same
  exact absurd same (by decide)

end Task

end Rocom.Tftp
