import Rocom.Lib.Costs
import Rocom.Tftp.Lengths

/-! How often the loop of `tftp_receive_data` runs, and which ACKs it sends. A timeout is answered
from a counter that only an accepted block refills; a duplicate leaves it alone. `acked` has every
ACK that is passed to `netconn_send`. -/
namespace Rocom.Tftp

def Event.ackBlock : Event → Option UInt16
  | .ack block => some block
  | _ => none

/-- The block numbers of the ACKs. -/
def acked (t : List Event) : List UInt16 := t.filterMap Event.ackBlock

def Event.failedWrite : Event → Bool
  | .otaWrite _ _ err => err ≠ errOk
  | _ => false

@[simp] theorem acked_append (t u : List Event) : acked (t ++ u) = acked t ++ acked u :=
  List.filterMap_append

/-! What a reception is to the loop. -/

def Session.running (s : Session) : Bool := s.result.isNone

/-- The next block, and it is written. -/
def Session.accepts (s : Session) (r : Reception) : Bool :=
  s.running && (acceptedDatagram s.receiver r).isSome && !(s.calls r).any Event.failedWrite

def Reception.timedOut (r : Reception) : Bool :=
  match r.result with
  | .timeout => true
  | .failed _ | .datagram _ => false

/-- A timeout, and the loop goes on. -/
def Session.tolerates (s : Session) (r : Reception) : Bool :=
  s.running && r.timedOut && (s.step r).running

/-- The block before the expected one. -/
def Session.repeats (s : Session) (r : Reception) : Bool :=
  s.running &&
    match r.result with
    | .datagram n =>
      netbufReadU16N n 0 r.rawOpcode = tftpOpData &&
        ((netbufReadU16N n 2 r.rawBlock).toNat ≠ s.receiver.block &&
          (netbufReadU16N n 2 r.rawBlock).toNat = s.receiver.block - 1)
    | .timeout | .failed _ => false

def Session.acks (s : Session) (r : Reception) : List UInt16 := acked (s.calls r)

structure Session.Counted (s : Session) (r : Reception) (accepts tolerates repeats : Bool) :
    Prop where
  accepts : s.accepts r = accepts
  tolerates : s.tolerates r = tolerates
  repeats : s.repeats r = repeats

/-- The ways a reception can go, each with its ACK and what it leaves of the counter. -/
inductive Session.Turn (s : Session) (r : Reception) : Prop
  | finished (returned : s.running = false) (counted : s.Counted r false false false)
      (same : s.step r = s)
  | accepted (running : s.running = true) (counted : s.Counted r true false false)
      (timeout : r.timedOut = false)
      (acks : s.acks r = [UInt16.ofNat s.receiver.block])
      (retries : (s.step r).receiver.retries = tftpTimeoutRetransmits)
      (block : (s.step r).running = true → (s.step r).receiver.block = s.receiver.block + 1)
  | tolerated (running : s.running = true) (counted : s.Counted r false true false)
      (retry : 0 < s.receiver.retries ∧ 1 < s.receiver.block)
      (acks : s.acks r = [UInt16.ofNat (s.receiver.block - 1)])
      (retries : (s.step r).receiver.retries = s.receiver.retries - 1)
      (block : (s.step r).receiver.block = s.receiver.block)
      (goes_on : (s.step r).running = true)
  | repeated (running : s.running = true) (counted : s.Counted r false false true)
      (timeout : r.timedOut = false)
      (acks : s.acks r = [UInt16.ofNat (s.receiver.block - 1)])
      (retries : (s.step r).receiver.retries = s.receiver.retries)
      (block : (s.step r).receiver.block = s.receiver.block)
      (goes_on : (s.step r).running = true)
  | ended (running : s.running = true) (counted : s.Counted r false false false)
      (acks : s.acks r = [])
      (stopped : (s.step r).running = false)
      (timeout : r.timedOut = true → ¬ (0 < s.receiver.retries ∧ 1 < s.receiver.block) ∧
        (s.step r).result = some errTimeout)

/-- The calls around `netconn_recv` send no ACK and write nothing. -/
theorem reconnect_calls (s : Receiver) (result : RecvResult) :
    ∃ es peerAddr, acked es = [] ∧ es.any Event.failedWrite = false ∧
      reconnect s result = { s with trace := s.trace ++ es, peerAddr := peerAddr } := by
  unfold reconnect
  cases s.peerAddr with
  | none => exact ⟨[], s.peerAddr, rfl, rfl, by simp⟩
  | some peer =>
    cases result with
    | datagram n => exact ⟨[.disconnect, .connect n.peer], none, rfl, rfl, by simp [Receiver.log]⟩
    | timeout | failed =>
      exact ⟨[.disconnect, .connect peer], s.peerAddr, rfl, rfl, by simp [Receiver.log]⟩

section Running
variable {s : Session} {r : Reception}

theorem Session.running_of_none (running : s.result = none) : s.running = true := by
  rw [Session.running, running]
  rfl

theorem Session.counted_timeout (running : s.result = none) (timeout : r.result = .timeout) :
    s.Counted r false (s.step r).running false where
  accepts := by simp [accepts, ignored_of_timeout timeout]
  tolerates := by simp [tolerates, running_of_none running, Reception.timedOut, timeout]
  repeats := by simp [repeats, timeout]

theorem Session.counted_ignored (untimed : r.timedOut = false)
    (ignored : acceptedDatagram s.receiver r = none) : s.Counted r false false (s.repeats r) where
  accepts := by simp [accepts, ignored]
  tolerates := by simp [tolerates, untimed]
  repeats := rfl

theorem Session.counted_taken (running : s.result = none) {n : Netbuf}
    (taken : acceptedDatagram s.receiver r = some n) :
    s.Counted r (!(s.calls r).any Event.failedWrite) false false := by
  unfold acceptedDatagram at taken
  cases received : r.result with
  | timeout | failed =>
    rw [received] at taken
    cases taken
  | datagram m =>
    rw [received] at taken
    dsimp only at taken
    split at taken
    · rename_i next
      refine ⟨?_, ?_, ?_⟩
      · simp [Session.accepts, Session.running_of_none running, acceptedDatagram, received, next]
      · simp [Session.tolerates, Reception.timedOut, received]
      · simp [Session.repeats, received, next.2]
    · cases taken

variable {s' : Receiver} {result : Option Int} {es : List Event}

theorem Session.calls_of_step (step : s.step r = ⟨s', result⟩)
    (trace : s'.trace = s.receiver.trace ++ es) : s.calls r = es := by
  rw [calls, step, trace, List.drop_left]

end Running

theorem acked_allWritten (n : Netbuf) : acked (allWritten n) = [] := by
  rw [acked, List.filterMap_eq_nil_iff]
  intro e mem
  obtain ⟨c, -, rfl⟩ := List.mem_map.mp mem
  rfl

theorem allWritten_written (n : Netbuf) : (allWritten n).any Event.failedWrite = false := by
  rw [List.any_eq_false]
  intro e mem
  obtain ⟨c, -, rfl⟩ := List.mem_map.mp mem
  simp [Event.failedWrite]

theorem Writes.acked {n : Netbuf} {es : List Event} (h : Writes (chunks n) es) :
    acked es = [] := by
  rw [Tftp.acked, List.filterMap_eq_nil_iff]
  intro e mem
  obtain ⟨c, -, err, rfl⟩ := h.taken e mem
  rfl

theorem any_failedWrite {es : List Event}
    (failed : ∃ segment len err, .otaWrite segment len err ∈ es ∧ err ≠ errOk) :
    es.any Event.failedWrite = true := by
  obtain ⟨segment, len, err, mem, error⟩ := failed
  rw [List.any_eq_true]
  exact ⟨_, mem, decide_eq_true error⟩

theorem reported_calls (s : Receiver) :
    ∃ es, acked es = [UInt16.ofNat s.block] ∧ es.any Event.failedWrite = false ∧
      s.reported = { s with trace := s.trace ++ es } := by
  unfold Receiver.reported
  dsimp only
  split
  · exact ⟨[.ack (UInt16.ofNat s.block), .progress s.receivedLen], rfl, rfl,
      by simp [tftpSendAck, Receiver.log]⟩
  · exact ⟨[.ack (UInt16.ofNat s.block)], rfl, rfl, by simp [tftpSendAck, Receiver.log]⟩

theorem timedOut_of_datagram {r : Reception} {n : Netbuf} (received : r.result = .datagram n) :
    r.timedOut = false := by
  rw [Reception.timedOut, received]

theorem timedOut_of_taken {s : Receiver} {r : Reception} {n : Netbuf}
    (taken : acceptedDatagram s r = some n) : r.timedOut = false := by
  unfold acceptedDatagram at taken
  unfold Reception.timedOut
  cases received : r.result with
  | timeout =>
    rw [received] at taken
    cases taken
  | failed | datagram => rfl

/-- A pass whose block was written. -/
theorem Session.turn_accepted {s : Session} {r : Reception} {s' : Receiver} {result : Option Int}
    (running : s.result = none) (step : s.step r = ⟨s', result⟩) {n : Netbuf}
    (taken : acceptedDatagram s.receiver r = some n) {before after : List Event}
    (silent : acked before = []) (wrote : before.any Event.failedWrite = false)
    (sent : acked after = [UInt16.ofNat s.receiver.block])
    (wrote' : after.any Event.failedWrite = false)
    (trace : s'.trace = s.receiver.trace ++ (before ++ (allWritten n ++ after)))
    (retries : s'.retries = tftpTimeoutRetransmits)
    (block : result = none → s'.block = s.receiver.block + 1) : s.Turn r := by
  have calls := Session.calls_of_step step trace
  have counted := Session.counted_taken running taken
  have written : (s.calls r).any Event.failedWrite = false := by
    rw [calls, List.any_append, List.any_append, wrote, allWritten_written, wrote']
    rfl
  rw [written] at counted
  refine .accepted (running_of_none running) counted (timedOut_of_taken taken) ?_ ?_ ?_
  · rw [acks, calls, acked_append, acked_append, silent, acked_allWritten, sent]
    rfl
  · rw [step]
    exact retries
  · rw [step]
    intro goes_on
    exact block (Option.isNone_iff_eq_none.mp goes_on)

/-- A pass that takes nothing and returns. -/
theorem Session.turn_ended {s : Session} {r : Reception} (running : s.result = none)
    (untimed : r.timedOut = false) (ignored : acceptedDatagram s.receiver r = none)
    (fresh : s.repeats r = false) (acks : s.acks r = []) (stopped : (s.step r).running = false) :
    s.Turn r := by
  have counted := Session.counted_ignored untimed ignored
  rw [fresh] at counted
  exact .ended (running_of_none running) counted acks stopped fun timeout => by
    simp [untimed] at timeout

/-- The pass of a running session, from the state that `netconn_recv` leaves. -/
theorem Pass.turn {s : Session} {r : Reception} {s' : Receiver} {result : Option Int}
    (running : s.result = none) (step : s.step r = ⟨s', result⟩) {before : List Event}
    {peerAddr : Option Peer} (silent : acked before = [])
    (wrote : before.any Event.failedWrite = false)
    (pass : Pass { s.receiver with trace := s.receiver.trace ++ before, peerAddr := peerAddr } r s'
      result) : s.Turn r := by
  have runs := Session.running_of_none running
  have goes_on : (s.step r).running = result.isNone := by
    rw [step]
    rfl
  have acks {es : List Event} (trace : s'.trace = s.receiver.trace ++ before ++ es) :
      s.acks r = acked es := by
    rw [List.append_assoc] at trace
    rw [Session.acks, Session.calls_of_step step trace, acked_append, silent]
    rfl
  cases pass with
  | retransmits timeout retry =>
    have counted := Session.counted_timeout running timeout
    rw [goes_on] at counted
    exact .tolerated runs counted retry (acks rfl) (by rw [step]; rfl) (by rw [step]; rfl) goes_on
  | givesUp timeout enough =>
    have counted := Session.counted_timeout running timeout
    rw [goes_on] at counted
    refine .ended runs counted (acks rfl) goes_on fun _ => ⟨enough, ?_⟩
    rw [step]
  | fails e failed =>
    have untimed : r.timedOut = false := by rw [Reception.timedOut, failed]
    have fresh : s.repeats r = false := by simp [Session.repeats, failed]
    exact Session.turn_ended running untimed (ignored_of_failed failed) fresh (acks rfl) goes_on
  | unknown n received other =>
    have untimed := timedOut_of_datagram received
    have ignored := ignored_of_other (s := s.receiver) received fun data => absurd data other
    have fresh : s.repeats r = false := by simp [Session.repeats, received, other]
    exact Session.turn_ended running untimed ignored fresh (acks rfl) goes_on
  | duplicate n received data old last =>
    have untimed := timedOut_of_datagram received
    have ignored := ignored_of_other (s := s.receiver) received fun _ => old
    have counted := Session.counted_ignored untimed ignored
    have repeated : s.repeats r = true := by
      simp only [Session.repeats, runs, received, data, decide_true, Bool.true_and,
        Bool.and_eq_true, decide_eq_true_eq]
      exact ⟨old, last⟩
    rw [repeated] at counted
    exact .repeated runs counted untimed (acks rfl) (by rw [step]; rfl) (by rw [step]; rfl) goes_on
  | outOfOrder n received data other later =>
    have untimed := timedOut_of_datagram received
    have ignored := ignored_of_other (s := s.receiver) received fun _ => other
    have apart : (netbufReadU16N n 2 r.rawBlock).toNat ≠ s.receiver.block - 1 := later
    have fresh : s.repeats r = false := by simp [Session.repeats, received, apart]
    exact Session.turn_ended running untimed ignored fresh (acks rfl) goes_on
  | unwritten n accepted es writes failed =>
    have untimed := timedOut_of_taken accepted
    have counted := Session.counted_taken running (n := n) accepted
    have calls := Session.calls_of_step step (List.append_assoc ..)
    have missed : (s.calls r).any Event.failedWrite = true := by
      rw [calls, List.any_append, any_failedWrite failed, Bool.or_true]
    rw [missed] at counted
    exact .ended runs counted ((acks rfl).trans writes.acked) goes_on fun timeout => by
      simp [untimed] at timeout
  | unacknowledged n accepted failed =>
    have sent : acked [.ack (UInt16.ofNat s.receiver.block)] = [UInt16.ofNat s.receiver.block] :=
      rfl
    exact Session.turn_accepted running step accepted silent wrote sent rfl
      (by simp [tftpSendAck, Receiver.log, Receiver.stored]) rfl (fun goes_on => by cases goes_on)
  | last n accepted short =>
    obtain ⟨es, sent, wrote', same⟩ := reported_calls
      (Receiver.stored { s.receiver with
        trace := s.receiver.trace ++ before, peerAddr := peerAddr } n)
    rw [same] at step
    exact Session.turn_accepted running step accepted silent wrote sent wrote'
      (by simp [Receiver.stored]) rfl (fun goes_on => by cases goes_on)
  | next n accepted full =>
    obtain ⟨es, sent, wrote', same⟩ := reported_calls
      (Receiver.stored { s.receiver with
        trace := s.receiver.trace ++ before, peerAddr := peerAddr } n)
    rw [same] at step
    exact Session.turn_accepted running step accepted silent wrote sent wrote'
      (by simp [Receiver.stored]) rfl fun _ => rfl

theorem Session.turn (s : Session) (r : Reception) : s.Turn r := by
  cases returned : s.result with
  | some result =>
    have stopped : s.running = false := by
      rw [running, returned]
      rfl
    have same := Session.step_of_returned returned r
    refine .finished stopped ⟨?_, ?_, ?_⟩ same
    · simp [accepts, stopped]
    · simp [tolerates, stopped]
    · simp [repeats, stopped]
  | none =>
    have pass := receivePass_pass s.receiver r
    obtain ⟨es, peerAddr, silent, wrote, same⟩ := reconnect_calls s.receiver r.result
    rw [same] at pass
    exact pass.turn returned (Session.step_of_running returned r) silent wrote

/-! Over a session. -/

/-- A pass of the loop. -/
def Session.passes (s : Session) (_ : Reception) : Bool := s.running

theorem Session.back_running (s : Session) (r : Reception) (h : (s.step r).running = true) :
    s.running = true := by
  cases s.turn r with
  | finished returned counted same => rwa [same] at h
  | accepted running | tolerated running | repeated running | ended running => exact running

/-- While the loop is running. -/
def Session.Supplied (s : Session) : Prop :=
  s.running = true → s.receiver.retries ≤ tftpTimeoutRetransmits ∧ 1 ≤ s.receiver.block

theorem Session.start_supplied (peerAddr : Option Peer) (receiveCb : Bool) :
    (Session.start peerAddr receiveCb).Supplied :=
  fun _ => ⟨Int.le_refl _, Nat.le_refl 1⟩

theorem Session.step_supplied (s : Session) (r : Reception) (h : s.Supplied) :
    (s.step r).Supplied := by
  intro goes_on
  have supplied := h (s.back_running r goes_on)
  cases s.turn r with
  | finished returned counted same =>
    rw [same]
    exact supplied
  | accepted running counted timeout acks retries block =>
    rw [retries, block goes_on]
    exact ⟨Int.le_refl _, Nat.le_add_left 1 _⟩
  | tolerated running counted retry acks retries block =>
    rw [retries, block]
    exact ⟨by omega, supplied.2⟩
  | repeated running counted timeout acks retries block =>
    rw [retries, block]
    exact supplied
  | ended running counted acks stopped =>
    rw [stopped] at goes_on
    cases goes_on

theorem Session.supplied_run (peerAddr : Option Peer) (receiveCb : Bool) (rs : List Reception) :
    (rs.foldl Session.step (Session.start peerAddr receiveCb)).Supplied := by
  apply Runs.invariant _ _ (Session.start_supplied peerAddr receiveCb)
  exact Session.step_supplied

/-! The timeouts that can still be tolerated. -/

def Session.patience (s : Session) : Nat :=
  if s.running ∧ 1 < s.receiver.block then s.receiver.retries.toNat else 0

theorem Session.patience_le {s : Session} (h : s.Supplied) : s.patience ≤ 10 := by
  unfold patience
  split
  · rename_i waiting
    have bounded : s.receiver.retries ≤ 10 := (h waiting.1).1
    omega
  · omega

theorem Session.tolerates_pays (s : Session) (r : Reception) (h : s.Supplied) :
    (s.tolerates r).toNat + (s.step r).patience ≤ s.patience + 10 * (s.accepts r).toNat := by
  have refilled := Session.patience_le (s.step_supplied r h)
  cases s.turn r with
  | finished returned counted same =>
    rw [counted.tolerates, counted.accepts, same]
    simp
  | accepted running counted =>
    rw [counted.tolerates, counted.accepts]
    simp only [Bool.toNat_false, Bool.toNat_true]
    omega
  | tolerated running counted retry acks retries block goes_on =>
    rw [counted.tolerates, counted.accepts]
    simp only [patience, running, goes_on, retries, block, retry.2, Bool.toNat_true,
      Bool.toNat_false, and_self, if_true]
    omega
  | repeated running counted timeout acks retries block goes_on =>
    rw [counted.tolerates, counted.accepts]
    simp [patience, running, goes_on, retries, block]
  | ended running counted acks stopped =>
    rw [counted.tolerates, counted.accepts]
    simp [patience, stopped]

/-! The ACKs. -/

theorem Session.trace_step (s : Session) (r : Reception) :
    (s.step r).receiver.trace = s.receiver.trace ++ s.calls r := by
  cases returned : s.result with
  | some result =>
    rw [calls, Session.step_of_returned returned, List.drop_length, List.append_nil]
  | none =>
    have step := Session.step_of_running returned r
    rw [calls, step]
    cases receivePass_outcome s.receiver r with
    | idle es ignored quiet trace => rw [trace, List.drop_left]
    | unwritten n before es accepted quiet writes failed trace => rw [trace, List.drop_left]
    | stored n before after accepted quiet quiet' trace => rw [trace, List.drop_left]

theorem Session.acks_length (s : Session) (r : Reception) :
    (s.acks r).length = (s.accepts r).toNat + (s.tolerates r).toNat + (s.repeats r).toNat := by
  cases s.turn r with
  | finished returned counted same =>
    rw [counted.accepts, counted.tolerates, counted.repeats, acks, calls, same, List.drop_length]
    rfl
  | accepted running counted timeout acks | tolerated running counted retry acks
  | repeated running counted timeout acks | ended running counted acks =>
    rw [counted.accepts, counted.tolerates, counted.repeats, acks]
    rfl

/-- A pass that is not the last one sends an ACK. -/
theorem Session.answers (s : Session) (r : Reception) :
    (s.step r).running.toNat ≤ (s.acks r).length := by
  cases s.turn r with
  | finished returned counted same =>
    rw [same, returned]
    exact Nat.zero_le _
  | accepted running counted timeout acks | tolerated running counted retry acks
  | repeated running counted timeout acks =>
    rw [acks]
    exact Bool.toNat_le _
  | ended running counted acks stopped =>
    rw [stopped]
    exact Nat.zero_le _

/-- The number of steps of a run that a test holds of. -/
abbrev Session.count (test : Session → Reception → Bool) (s : Session) (rs : List Reception) :
    Nat := Runs.count Session.step test s rs

theorem Session.total_acks (s : Session) (rs : List Reception) :
    Runs.total Session.step (fun s r => (s.acks r).length) s rs =
      s.count accepts rs + s.count tolerates rs + s.count repeats rs := by
  simp only [Session.acks_length, Runs.total_add]
  rfl

theorem Session.acked_run (s : Session) (rs : List Reception) :
    ((acked (rs.foldl Session.step s).receiver.trace).length : Int) =
      (acked s.receiver.trace).length + (s.count accepts rs + s.count tolerates rs +
        s.count repeats rs : Nat) := by
  rw [← Session.total_acks]
  have gains (s : Session) (r : Reception) (_ : True) :
      ((acked (s.step r).receiver.trace).length : Int) =
        (acked s.receiver.trace).length + ((s.acks r).length : Nat) := by
    rw [s.trace_step r, acked_append, List.length_append]
    exact Int.natCast_add _ _
  exact Runs.gain_eq_total _ (fun s => ((acked s.receiver.trace).length : Int)) gains s rs
    (Runs.along_of_forall s rs fun _ _ _ => trivial)

theorem Session.passes_run (s : Session) (rs : List Reception) :
    s.count passes rs ≤
      s.running.toNat + (s.count accepts rs + s.count tolerates rs + s.count repeats rs) := by
  have pays (s : Session) (r : Reception) (_ : True) :
      (s.passes r).toNat + (s.step r).running.toNat ≤ s.running.toNat + (s.acks r).length :=
    Nat.add_le_add_left (s.answers r) _
  have paid := Runs.total_le_of_potential (fun s => s.running.toNat) (fun _ _ _ => trivial) pays s
    trivial rs
  rw [Session.total_acks] at paid
  exact Nat.le_of_add_right_le paid

theorem Session.tolerated_run (s : Session) (h : s.Supplied) (rs : List Reception) :
    s.count tolerates rs ≤ s.patience + 10 * s.count accepts rs := by
  have paid := Runs.total_le_of_potential Session.patience Session.step_supplied
    Session.tolerates_pays s h rs
  rw [Runs.total_mul] at paid
  exact Nat.le_of_add_right_le paid

/-! The wait for a block. -/

/-- A step that the loop waits through keeps the expected block and pays with the counter. -/
theorem Session.waits {s : Session} {r : Reception}
    (waiting : s.accepts r = false ∧ (s.step r).running = true) :
    (s.step r).receiver.block = s.receiver.block ∧
      -(s.step r).receiver.retries = -s.receiver.retries + (s.tolerates r).toNat := by
  obtain ⟨untaken, goes_on⟩ := waiting
  cases s.turn r with
  | finished returned counted same =>
    rw [same, returned] at goes_on
    cases goes_on
  | accepted running counted =>
    rw [counted.accepts] at untaken
    cases untaken
  | tolerated running counted retry acks retries block =>
    rw [counted.tolerates, retries, Bool.toNat_true]
    exact ⟨block, by omega⟩
  | repeated running counted timeout acks retries block =>
    rw [counted.tolerates, retries, Bool.toNat_false]
    exact ⟨block, by omega⟩
  | ended running counted acks stopped =>
    rw [stopped] at goes_on
    cases goes_on

theorem Session.waited {s : Session} {rs : List Reception} (none_accepted : s.count accepts rs = 0)
    (goes_on : (rs.foldl Session.step s).running = true) :
    s.running = true ∧ (rs.foldl Session.step s).receiver.block = s.receiver.block ∧
      (rs.foldl Session.step s).receiver.retries =
        s.receiver.retries - s.count tolerates rs := by
  obtain ⟨running, waiting⟩ := Runs.along_of_end (P := fun s => s.running = true)
    Session.back_running s rs goes_on none_accepted
  have spent := Runs.gain_eq_total _ (fun s => -s.receiver.retries)
    (fun s r h => (Session.waits h).2) s rs waiting
  refine ⟨running, ?_, ?_⟩
  · apply Runs.guarded_invariant (P := fun t => t.receiver.block = s.receiver.block) _ s rfl rs
      waiting
    intro t r same h
    rw [(Session.waits h).1, same]
  · rw [count, Runs.count]
    omega

/-- What comes of a timeout. -/
theorem Session.turn_timeout {s : Session} {r : Reception} (running : s.running = true)
    (timeout : r.timedOut = true) :
    if 0 < s.receiver.retries ∧ 1 < s.receiver.block then
      (s.step r).running = true ∧ s.acks r = [UInt16.ofNat (s.receiver.block - 1)]
    else (s.step r).result = some errTimeout ∧ s.acks r = [] := by
  cases s.turn r with
  | finished returned =>
    rw [returned] at running
    cases running
  | accepted running counted untimed | repeated running counted untimed =>
    rw [untimed] at timeout
    cases timeout
  | tolerated running counted retry acks retries block goes_on =>
    rw [if_pos retry]
    exact ⟨goes_on, acks⟩
  | ended running counted acks stopped ends =>
    rw [if_neg (ends timeout).1]
    exact ⟨(ends timeout).2, acks⟩

theorem Session.accepted_block {s : Session} {r : Reception} {n : Netbuf}
    (accepted : s.accepts r = true) (received : r.result = .datagram n) :
    UInt16.ofNat s.receiver.block = netbufReadU16N n 2 r.rawBlock := by
  simp only [accepts, acceptedDatagram, received, Bool.and_eq_true] at accepted
  have next := accepted.1.2
  split at next
  · rename_i expected
    rw [← expected.2]
    exact UInt16.ofNat_toNat
  · cases next

/-- After an accepted block. -/
theorem Session.refilled {s : Session} {r : Reception} (accepted : s.accepts r = true)
    (goes_on : (s.step r).running = true) :
    (s.step r).receiver.retries = 10 ∧ (s.step r).receiver.block = s.receiver.block + 1 := by
  cases s.turn r with
  | accepted running counted timeout acks retries block => exact ⟨retries, block goes_on⟩
  | finished returned counted | tolerated running counted | repeated running counted
  | ended running counted =>
    rw [counted.accepts] at accepted
    cases accepted

section Waiting
variable {s : Session}

theorem Session.tolerated_between (h : s.Supplied) {rs : List Reception}
    (none_accepted : s.count accepts rs = 0) : s.count tolerates rs ≤ 10 := by
  have refilled : s.patience ≤ 10 := Session.patience_le h
  have spent := s.tolerated_run h rs
  omega

variable {waited : List Reception} {t : Session} {r : Reception}

/-- The expected block is still the first one. -/
theorem Session.timeout_first (first : s.receiver.block = 1)
    (reached : waited.foldl Session.step s = t) (none_accepted : s.count accepts waited = 0)
    (running : t.running = true) (timeout : r.timedOut = true) :
    (t.step r).result = some errTimeout ∧ t.acks r = [] := by
  subst reached
  obtain ⟨-, same, -⟩ := Session.waited none_accepted running
  have turn := Session.turn_timeout running timeout
  rwa [if_neg (by omega)] at turn

/-- `d` was the last block. -/
theorem Session.timeout_later (h : s.Supplied) {d : Reception} {n : Netbuf}
    (reached : waited.foldl Session.step (s.step d) = t) (accepted : s.accepts d = true)
    (received : d.result = .datagram n) (none_accepted : (s.step d).count accepts waited = 0)
    (running : t.running = true) (timeout : r.timedOut = true) :
    if (s.step d).count tolerates waited < 10 then
      (t.step r).running = true ∧ t.acks r = [netbufReadU16N n 2 d.rawBlock]
    else (t.step r).result = some errTimeout ∧ t.acks r = [] := by
  subst reached
  obtain ⟨goes_on, block, retries⟩ := Session.waited none_accepted running
  obtain ⟨refilled, next⟩ := Session.refilled accepted goes_on
  have number := Session.accepted_block accepted received
  have some_block := (h (s.back_running d goes_on)).2
  have left : (0 < (10 : Int) - (s.step d).count tolerates waited ∧ 1 < s.receiver.block + 1) ↔
      (s.step d).count tolerates waited < 10 := by omega
  have turn := Session.turn_timeout running timeout
  rw [block, next, Nat.add_sub_cancel, number, retries, refilled] at turn
  simpa only [left] using turn

end Waiting

/-- From `start`: at most ten timeouts without a new block, none before the first one, each
answered with the number of the last one; then `ERR_TIMEOUT`. -/
structure Session.Bounded (start : Session) : Prop where
  between : ∀ before rs : List Reception,
    let s := before.foldl Session.step start
    s.count accepts rs = 0 → s.count tolerates rs ≤ 10
  before_first : ∀ (before : List Reception) (r : Reception),
    let s := before.foldl Session.step start
    start.count accepts before = 0 → s.running = true → r.timedOut = true →
      (s.step r).result = some errTimeout ∧ s.acks r = []
  after_block : ∀ (before : List Reception) (d : Reception) (n : Netbuf)
      (waited : List Reception) (r : Reception),
    let s := before.foldl Session.step start
    let t := waited.foldl Session.step (s.step d)
    s.accepts d = true → d.result = .datagram n → (s.step d).count accepts waited = 0 →
      t.running = true → r.timedOut = true →
      if (s.step d).count tolerates waited < 10 then
        (t.step r).running = true ∧ t.acks r = [netbufReadU16N n 2 d.rawBlock]
      else (t.step r).result = some errTimeout ∧ t.acks r = []
  passes : ∀ rs : List Reception,
    start.count passes rs ≤ 11 * (start.count accepts rs + 1) + start.count repeats rs
  acks : ∀ rs : List Reception,
    (acked (rs.foldl Session.step start).receiver.trace).length =
      start.count accepts rs + start.count tolerates rs + start.count repeats rs

/-- Whatever is received, and whether or not the ACKs can be sent. -/
theorem retransmission_bounded (peerAddr : Option Peer) (receiveCb : Bool) :
    (Session.start peerAddr receiveCb).Bounded where
  between before rs := Session.tolerated_between (Session.supplied_run peerAddr receiveCb before)
  before_first before r := Session.timeout_first rfl rfl
  after_block before d n waited r := by
    intro s t
    exact Session.timeout_later (Session.supplied_run peerAddr receiveCb before) rfl
  passes rs := by
    have passes := Session.passes_run (Session.start peerAddr receiveCb) rs
    have tolerated := Session.tolerated_run _ (Session.start_supplied peerAddr receiveCb) rs
    have once : (Session.start peerAddr receiveCb).running.toNat ≤ 1 := Bool.toNat_le _
    have unfilled : (Session.start peerAddr receiveCb).patience = 0 := rfl
    omega
  acks rs := by
    have acks := Session.acked_run (Session.start peerAddr receiveCb) rs
    have silent : (acked (Session.start peerAddr receiveCb).receiver.trace).length = 0 := rfl
    omega

end Rocom.Tftp
