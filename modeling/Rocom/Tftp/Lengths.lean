import Mathlib.Algebra.GroupWithZero.Nat
import Rocom.Tftp.Passes

/-! The lengths in the loop of `tftp_receive_data`: of each segment in 16 bits, of a datagram in
an `int`, and of the image in a `size_t` of 32 bits. -/
namespace Rocom.Tftp

def Event.writeLen : Event → Option Nat
  | .otaWrite _ len _ => some len.toNat
  | _ => none

/-- What a pass calls. -/
def Session.calls (s : Session) (r : Reception) : List Event :=
  (s.step r).receiver.trace.drop s.receiver.trace.length

/-- The loop is running and takes the datagram for its next block. -/
def Session.Takes (s : Session) (r : Reception) (n : Netbuf) : Prop :=
  s.result = none ∧ acceptedDatagram s.receiver r = some n

/-- No `esp_ota_write` of a pass failed. -/
def NoneFailed (es : List Event) : Prop :=
  ∀ segment len err, .otaWrite segment len err ∈ es → err = errOk

/-- A pass writes no more than is there, and counts what it has written without wrapping. -/
structure Session.Sound (s : Session) (r : Reception) : Prop where
  within : ∀ segment len err, .otaWrite segment len err ∈ s.calls r → len.toNat ≤ segment.length
  total : ∀ n, s.Takes r n → NoneFailed (s.calls r) →
    (((s.calls r).filterMap Event.writeLen).sum : Int) = netbufLen n - 4
  counted : ∀ n, s.Takes r n → NoneFailed (s.calls r) →
    ((s.step r).receiver.receivedLen.toNat : Int) =
      s.receiver.receivedLen.toNat + (netbufLen n - 4)
  kept : (∀ n, s.Takes r n → ¬ NoneFailed (s.calls r)) →
    (s.step r).receiver.receivedLen = s.receiver.receivedLen

/-! The calls and the counter of a pass, in the three ways it can go. -/

inductive Outcome (s : Receiver) (r : Reception) (s' : Receiver) : Prop
  | idle (es : List Event) (ignored : acceptedDatagram s r = none) (quiet : Quiet es)
      (trace : s'.trace = s.trace ++ es) (len : s'.receivedLen = s.receivedLen)
  | unwritten (n : Netbuf) (before es : List Event) (accepted : acceptedDatagram s r = some n)
      (quiet : Quiet before) (writes : Writes (chunks n) es)
      (failed : ∃ segment len err, .otaWrite segment len err ∈ es ∧ err ≠ errOk)
      (trace : s'.trace = s.trace ++ (before ++ es)) (len : s'.receivedLen = s.receivedLen)
  | stored (n : Netbuf) (before after : List Event) (accepted : acceptedDatagram s r = some n)
      (quiet : Quiet before) (quiet' : Quiet after)
      (trace : s'.trace = s.trace ++ (before ++ (allWritten n ++ after)))
      (len : s'.receivedLen = s.receivedLen + (UInt32.ofNat (netbufLen n) - 4))

theorem ignored_of_timeout {s : Receiver} {r : Reception} (timeout : r.result = .timeout) :
    acceptedDatagram s r = none := by
  rw [acceptedDatagram, timeout]

theorem ignored_of_failed {s : Receiver} {r : Reception} {e : RecvError}
    (failed : r.result = .failed e) : acceptedDatagram s r = none := by
  rw [acceptedDatagram, failed]

theorem ignored_of_other {s : Receiver} {r : Reception} {n : Netbuf}
    (received : r.result = .datagram n)
    (other : netbufReadU16N n 0 r.rawOpcode = tftpOpData →
      (netbufReadU16N n 2 r.rawBlock).toNat ≠ s.block) : acceptedDatagram s r = none := by
  rw [acceptedDatagram, received]
  exact if_neg fun both => other both.1 both.2

theorem reported_eq (s : Receiver) :
    ∃ es, Quiet es ∧ s.reported = { s with trace := s.trace ++ es } := by
  unfold Receiver.reported
  dsimp only
  split
  · exact ⟨[.ack (UInt16.ofNat s.block), .progress s.receivedLen],
      by simp [Quiet, Event.isWrite], by simp [tftpSendAck, Receiver.log]⟩
  · exact ⟨[.ack (UInt16.ofNat s.block)], by simp [Quiet, Event.isWrite],
      by simp [tftpSendAck, Receiver.log]⟩

theorem quiet_singleton {e : Event} (h : e.isWrite = false) : Quiet [e] := by
  intro e' mem
  obtain rfl := List.mem_singleton.mp mem
  exact h

theorem Pass.outcome {s s' : Receiver} {r : Reception} {result : Option Int}
    (h : Pass s r s' result) : Outcome s r s' := by
  cases h with
  | retransmits timeout =>
    exact .idle _ (ignored_of_timeout timeout) (quiet_singleton rfl) rfl rfl
  | givesUp timeout => exact .idle _ (ignored_of_timeout timeout) (quiet_singleton rfl) rfl rfl
  | fails e failed => exact .idle _ (ignored_of_failed failed) (quiet_singleton rfl) rfl rfl
  | unknown n received other =>
    exact .idle _ (ignored_of_other received fun data => absurd data other)
      (quiet_singleton rfl) rfl rfl
  | duplicate n received data old last =>
    exact .idle _ (ignored_of_other received fun _ => old) (quiet_singleton rfl) rfl rfl
  | outOfOrder n received data other later =>
    exact .idle _ (ignored_of_other received fun _ => other) (quiet_singleton rfl) rfl rfl
  | unwritten n accepted es writes failed =>
    exact .unwritten n [] es accepted nofun writes failed rfl rfl
  | unacknowledged n accepted failed =>
    exact .stored n [] _ accepted nofun (quiet_singleton rfl) (List.append_assoc ..) rfl
  | last n accepted short =>
    obtain ⟨es, quiet, same⟩ := reported_eq (s.stored n)
    rw [same]
    exact .stored n [] es accepted nofun quiet (List.append_assoc ..) rfl
  | next n accepted full =>
    obtain ⟨es, quiet, same⟩ := reported_eq (s.stored n)
    rw [same]
    exact .stored n [] es accepted nofun quiet (List.append_assoc ..) rfl

theorem reconnect_accepted (s : Receiver) (r : Reception) :
    acceptedDatagram (reconnect s r.result) r = acceptedDatagram s r := by
  obtain ⟨es, peerAddr, -, same⟩ := reconnect_quiet s r.result
  rw [same]
  rfl

theorem Quiet.append {es fs : List Event} (h : Quiet es) (h' : Quiet fs) : Quiet (es ++ fs) := by
  intro e mem
  rcases List.mem_append.mp mem with mem | mem
  · exact h e mem
  · exact h' e mem

theorem receivePass_outcome (s : Receiver) (r : Reception) :
    Outcome s r (receivePass s r).1 := by
  have outcome := (receivePass_pass s r).outcome
  obtain ⟨es, peerAddr, quiet, same⟩ := reconnect_quiet s r.result
  have accepted := reconnect_accepted s r
  rw [same] at outcome accepted
  cases outcome with
  | idle fs ignored quiet' trace len =>
    refine .idle (es ++ fs) (accepted ▸ ignored) (quiet.append quiet') ?_ len
    rw [trace, List.append_assoc]
  | unwritten n before fs taken quiet' writes failed trace len =>
    refine .unwritten n (es ++ before) fs (accepted ▸ taken) (quiet.append quiet') writes failed
      ?_ len
    rw [trace]
    simp only [List.append_assoc]
  | stored n before after taken quiet' quiet'' trace len =>
    refine .stored n (es ++ before) after (accepted ▸ taken) (quiet.append quiet') quiet'' ?_ len
    rw [trace]
    simp only [List.append_assoc]

/-! The lengths of the segments. -/

theorem length_of_chunk {n : Netbuf} (whole : n.Whole) :
    ∀ c ∈ chunks n, c.2.toNat = c.1.length := by
  have total := n.totLen
  rw [List.length_append] at total
  intro c mem
  rcases List.mem_cons.mp mem with rfl | mem
  · exact header_skipped n whole
  · obtain ⟨segment, listed, rfl⟩ := List.mem_map.mp mem
    have part : segment.length ≤ n.tail.flatten.length :=
      (List.sublist_flatten_of_mem listed).length_le
    exact toNat_ofNat_word (by omega)

theorem writeLens_allWritten {n : Netbuf} (whole : n.Whole) :
    ((allWritten n).filterMap Event.writeLen).sum = netbufLen n - 4 := by
  have lens : (allWritten n).filterMap Event.writeLen = (chunks n).map fun c => c.1.length := by
    rw [allWritten, List.filterMap_map, ← List.filterMap_eq_map]
    apply List.filterMap_congr
    intro c mem
    exact congrArg some (length_of_chunk whole c mem)
  have payload : (chunks n).flatMap (fun c => c.1) = n.payload := by
    rw [chunks, List.flatMap_cons, List.flatMap_map, Netbuf.payload, Netbuf.bytes,
      List.drop_append_of_le_length whole, List.flatMap_id']
  rw [lens, ← List.length_flatMap, payload, Netbuf.payload, List.length_drop, netbufLen]

theorem Quiet.writeLens {es : List Event} (h : Quiet es) : es.filterMap Event.writeLen = [] := by
  rw [List.filterMap_eq_nil_iff]
  intro e mem
  cases e with
  | otaWrite segment len err => cases h _ mem
  | disconnect | connect | ack | error | progress => rfl

theorem Quiet.no_write {es : List Event} (h : Quiet es) {segment : List UInt8} {len : UInt16}
    {err : Int} : .otaWrite segment len err ∉ es :=
  fun mem => nomatch h _ mem

/-- `*received_len += len - 4`. -/
theorem toNat_counted {receivedLen : UInt32} {len : Nat} (four : 4 ≤ len) (small : len < 2 ^ 16)
    (fits : receivedLen.toNat + (len - 4) < 2 ^ 32) :
    (receivedLen + (UInt32.ofNat len - 4)).toNat = receivedLen.toNat + (len - 4) := by
  have value : (UInt32.ofNat len).toNat = len :=
    UInt32.toNat_ofNat_of_lt' (show len < 2 ^ 32 by omega)
  have more : (4 : UInt32) ≤ UInt32.ofNat len := by
    rw [UInt32.le_iff_toNat_le, value]
    exact four
  have rest : (UInt32.ofNat len - 4).toNat = len - 4 := by
    rw [UInt32.toNat_sub_of_le _ _ more, value]
    rfl
  rw [UInt32.toNat_add, rest]
  exact Nat.mod_eq_of_lt fits

/-! One pass. -/

def SegmentsWithin (es : List Event) : Prop :=
  ∀ segment len err, .otaWrite segment len err ∈ es → len.toNat ≤ segment.length

theorem Quiet.within {es : List Event} (h : Quiet es) : SegmentsWithin es :=
  fun _ _ _ mem => absurd mem h.no_write

theorem SegmentsWithin.append {es fs : List Event} (h : SegmentsWithin es)
    (h' : SegmentsWithin fs) : SegmentsWithin (es ++ fs) := by
  intro segment len err mem
  rcases List.mem_append.mp mem with mem | mem
  · exact h segment len err mem
  · exact h' segment len err mem

theorem Writes.within {n : Netbuf} (whole : n.Whole) {es : List Event}
    (h : Writes (chunks n) es) : SegmentsWithin es := by
  intro segment len err mem
  obtain ⟨c, listed, err', same⟩ := h.taken _ mem
  cases same
  exact (length_of_chunk whole c listed).le

theorem allWritten_writes (n : Netbuf) : Writes (chunks n) (allWritten n) where
  taken e mem := by
    obtain ⟨c, listed, rfl⟩ := List.mem_map.mp mem
    exact ⟨c, listed, errOk, rfl⟩
  first c head := ⟨errOk, List.mem_map_of_mem (List.mem_of_mem_head? head)⟩

/-- The length of a cut header is passed with the first write, whatever comes of it. -/
theorem Writes.whole_of_within {n : Netbuf} {es : List Event} (h : Writes (chunks n) es)
    (within : SegmentsWithin es) : n.Whole := by
  by_contra short
  obtain ⟨err, mem⟩ := h.first _ rfl
  have fits := within _ _ _ mem
  have cut : n.head.length < 4 := Nat.lt_of_not_le short
  rw [header_wraps short, List.length_drop] at fits
  omega

theorem noneFailed_allWritten (n : Netbuf) {before after : List Event} (quiet : Quiet before)
    (quiet' : Quiet after) : NoneFailed (before ++ (allWritten n ++ after)) := by
  intro segment len err mem
  simp only [List.mem_append, quiet.no_write, quiet'.no_write, false_or, or_false] at mem
  obtain ⟨c, -, same⟩ := List.mem_map.mp mem
  cases same
  rfl

/-- Every block before this one had at most 65531 bytes. -/
structure Counting (s : Receiver) : Prop where
  positive : 1 ≤ s.block
  bounded : s.receivedLen.toNat ≤ (s.block - 1) * 65531

theorem accepted_block {s : Receiver} {r : Reception} {n : Netbuf}
    (accepted : acceptedDatagram s r = some n) : s.block < 2 ^ 16 := by
  unfold acceptedDatagram at accepted
  split at accepted
  · split at accepted
    · rename_i both
      rw [← both.2]
      exact UInt16.toNat_lt _
    · cases accepted
  · cases accepted
  · cases accepted

theorem Netbuf.Whole.header_fits {n : Netbuf} (whole : n.Whole) : 4 ≤ netbufLen n := by
  rw [netbufLen, Netbuf.bytes, List.length_append]
  exact Nat.le_add_right_of_le whole

theorem Counting.stored {s : Receiver} (h : Counting s) {r : Reception} {n : Netbuf}
    (accepted : acceptedDatagram s r = some n) (whole : n.Whole) :
    (s.receivedLen + (UInt32.ofNat (netbufLen n) - 4)).toNat =
      s.receivedLen.toNat + (netbufLen n - 4) := by
  have block := accepted_block accepted
  have total : netbufLen n < 2 ^ 16 := n.totLen
  have four := whole.header_fits
  have positive := h.positive
  have before := h.bounded
  apply toNat_counted four total
  omega

theorem Pass.continues {s s' : Receiver} {r : Reception} (h : Pass s r s' none) :
    s'.block = s.block ∧ s'.receivedLen = s.receivedLen ∨
      ∃ n, acceptedDatagram s r = some n ∧ s'.block = s.block + 1 ∧
        s'.receivedLen = s.receivedLen + (UInt32.ofNat (netbufLen n) - 4) := by
  generalize ended : (none : Option Int) = result at h
  cases h with
  | retransmits => exact .inl ⟨rfl, rfl⟩
  | duplicate => exact .inl ⟨rfl, rfl⟩
  | next n accepted full =>
    obtain ⟨es, -, same⟩ := reported_eq (s.stored n)
    rw [same]
    exact .inr ⟨n, accepted, rfl, rfl⟩
  | givesUp | fails | unknown | outOfOrder | unwritten | unacknowledged | last => cases ended

theorem Counting.pass {s s' : Receiver} (h : Counting s) {r : Reception} (pass : Pass s r s' none)
    (whole : ∀ n, acceptedDatagram s r = some n → n.Whole) : Counting s' := by
  have positive := h.positive
  have before := h.bounded
  rcases pass.continues with ⟨block, len⟩ | ⟨n, accepted, block, len⟩
  · exact ⟨by omega, by rw [block, len]; exact before⟩
  · have counted := h.stored accepted (whole n accepted)
    have total : netbufLen n < 2 ^ 16 := n.totLen
    refine ⟨by omega, ?_⟩
    rw [block, len, counted]
    omega

/-! The calls of `tftp_receive_data`. -/

/-- The headers of the datagrams that are taken are in their first segments. -/
def Session.HeaderWhole (s : Session) (r : Reception) : Prop := ∀ n, s.Takes r n → n.Whole

def Session.Counts (s : Session) : Prop := s.result = none → Counting s.receiver

theorem Session.start_counts (peerAddr : Option Peer) (receiveCb : Bool) :
    (Session.start peerAddr receiveCb).Counts :=
  fun _ => ⟨Nat.le_refl 1, Nat.zero_le _⟩

theorem Session.step_counts {s : Session} {r : Reception} (h : s.Counts)
    (whole : s.HeaderWhole r) : (s.step r).Counts := by
  cases returned : s.result with
  | some result =>
    rw [Session.step_of_returned returned]
    exact h
  | none =>
    rw [Session.step_of_running returned]
    intro goes_on
    have pass := receivePass_pass s.receiver r
    rw [show (receivePass s.receiver r).2 = none from goes_on] at pass
    have counting : Counting (reconnect s.receiver r.result) := by
      obtain ⟨es, peerAddr, -, same⟩ := reconnect_quiet s.receiver r.result
      rw [same]
      exact ⟨(h returned).positive, (h returned).bounded⟩
    refine counting.pass pass fun n accepted => whole n ⟨returned, ?_⟩
    rw [← reconnect_accepted]
    exact accepted

theorem Session.Takes.unique {s : Session} {r : Reception} {n n' : Netbuf} (h : s.Takes r n)
    (h' : s.Takes r n') : n' = n :=
  Option.some.inj (h'.2.symm.trans h.2)

theorem Session.sound_of_untaken {s : Session} {r : Reception} (untaken : ∀ n, ¬ s.Takes r n)
    (quiet : Quiet (s.calls r)) (len : (s.step r).receiver.receivedLen = s.receiver.receivedLen) :
    s.Sound r ↔ s.HeaderWhole r := by
  refine iff_of_true ⟨quiet.within, ?_, ?_, fun _ => len⟩ fun n taken => absurd taken (untaken n)
  · exact fun n taken => absurd taken (untaken n)
  · exact fun n taken => absurd taken (untaken n)

/-- A pass that takes a datagram and stops at a failed write. -/
theorem Session.sound_iff_of_unwritten {s : Session} {r : Reception} {n : Netbuf}
    {before es : List Event} (taken : s.Takes r n) (quiet : Quiet before)
    (writes : Writes (chunks n) es)
    (failed : ∃ segment len err, .otaWrite segment len err ∈ es ∧ err ≠ errOk)
    (calls : s.calls r = before ++ es)
    (len : (s.step r).receiver.receivedLen = s.receiver.receivedLen) :
    s.Sound r ↔ s.HeaderWhole r := by
  have some_failed : ¬ NoneFailed (s.calls r) := by
    rw [calls]
    obtain ⟨segment, length, err, mem, error⟩ := failed
    exact fun all => error (all segment length err (List.mem_append_right _ mem))
  constructor
  · intro sound n' taken'
    rw [taken.unique taken']
    apply writes.whole_of_within
    intro segment length err mem
    exact sound.within segment length err (calls ▸ List.mem_append_right _ mem)
  · intro whole
    refine ⟨?_, ?_, ?_, fun _ => len⟩
    · rw [calls]
      exact quiet.within.append (writes.within (whole n taken))
    · exact fun _ _ all => absurd all some_failed
    · exact fun _ _ all => absurd all some_failed

theorem Session.sound_iff_of_stored {s : Session} {r : Reception} {n : Netbuf}
    {before after : List Event} (counting : Counting s.receiver) (taken : s.Takes r n)
    (quiet : Quiet before) (quiet' : Quiet after)
    (calls : s.calls r = before ++ (allWritten n ++ after))
    (len : (s.step r).receiver.receivedLen =
      s.receiver.receivedLen + (UInt32.ofNat (netbufLen n) - 4)) :
    s.Sound r ↔ s.HeaderWhole r := by
  have none_failed : NoneFailed (s.calls r) := calls ▸ noneFailed_allWritten n quiet quiet'
  constructor
  · intro sound n' taken'
    rw [taken.unique taken']
    apply (allWritten_writes n).whole_of_within
    intro segment length err mem
    refine sound.within segment length err (calls ▸ ?_)
    exact List.mem_append_right _ (List.mem_append_left _ mem)
  · intro whole
    have own := whole n taken
    have four := own.header_fits
    refine ⟨?_, ?_, ?_, fun none_taken => absurd none_failed (none_taken n taken)⟩
    · rw [calls]
      exact quiet.within.append (((allWritten_writes n).within own).append quiet'.within)
    · intro n' taken' _
      rw [taken.unique taken', calls, List.filterMap_append, List.filterMap_append,
        quiet.writeLens, quiet'.writeLens, List.nil_append, List.append_nil,
        writeLens_allWritten own]
      omega
    · intro n' taken' _
      rw [taken.unique taken', len, counting.stored taken.2 own]
      omega

theorem Session.sound_iff {s : Session} (r : Reception) (h : s.Counts) :
    s.Sound r ↔ s.HeaderWhole r := by
  cases returned : s.result with
  | some result =>
    have same := Session.step_of_returned returned r
    refine Session.sound_of_untaken (fun n taken => ?_) ?_ (by rw [same])
    · simp [Takes, returned] at taken
    · rw [Session.calls, same, List.drop_length]
      exact nofun
  | none =>
    have step := Session.step_of_running returned r
    have calls {es : List Event}
        (trace : (receivePass s.receiver r).1.trace = s.receiver.trace ++ es) :
        s.calls r = es := by
      rw [Session.calls, step, trace, List.drop_left]
    have len : (s.step r).receiver.receivedLen = (receivePass s.receiver r).1.receivedLen := by
      rw [step]
    cases receivePass_outcome s.receiver r with
    | idle es ignored quiet trace same =>
      refine Session.sound_of_untaken (fun n taken => ?_) (calls trace ▸ quiet) (len.trans same)
      rw [Takes, ignored] at taken
      cases taken.2
    | unwritten n before es accepted quiet writes failed trace same =>
      exact Session.sound_iff_of_unwritten ⟨returned, accepted⟩ quiet writes failed (calls trace)
        (len.trans same)
    | stored n before after accepted quiet quiet' trace counted =>
      exact Session.sound_iff_of_stored (h returned) ⟨returned, accepted⟩ quiet quiet'
        (calls trace) (len.trans counted)

/-- Whatever is received, all lengths are right exactly in the runs that take no datagram whose
first segment is shorter than the header. -/
theorem lengths_sound_iff (peerAddr : Option Peer) (receiveCb : Bool) (rs : List Reception) :
    Runs.Along Session.step Session.Sound (Session.start peerAddr receiveCb) rs ↔
      Runs.Along Session.step Session.HeaderWhole (Session.start peerAddr receiveCb) rs :=
  Runs.along_congr_of_invariant (I := Session.Counts) (fun _ _ => Session.step_counts)
    (fun _ r => Session.sound_iff r) _ (Session.start_counts peerAddr receiveCb) rs

/-- A datagram of two bytes, the opcode of DATA, with 1 in the variable of the block number. -/
def opcodeOnly : Reception where
  result := .datagram ⟨[0, 3], [], ⟨1, 1069⟩, by decide⟩
  rawOpcode := (0, 0)
  rawBlock := (0, 1)
  otaErr := fun _ => errOk
  ackErr := errOk

/-- `esp_ota_write` is called with 65534 for the length of no byte, and -2 bytes are counted. -/
theorem opcode_only_underflows :
    ¬ Runs.Along Session.step Session.Sound (Session.start none false) [opcodeOnly] := by
  rintro ⟨sound, -⟩
  have called : Event.otaWrite [] 65534 errOk ∈
      (Session.start none false).calls opcodeOnly := by decide
  exact absurd (sound.within _ _ _ called) (by decide)

end Rocom.Tftp
