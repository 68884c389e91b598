import Rocom.Rfc2217.Unfinished
import Rocom.SerialPort.InTurn

/-! What the client reads of the socket that the drain task and the receive thread share, and
that nothing stays behind once both have gone on. -/
namespace Rocom.SerialPort

open Rfc2217

variable {τ : Type}

namespace SharedSocket

variable {socket : Int} {before : List UInt8} {pending turns os : List Output}
  {s n : SharedSocket}

/-- All that the client is to read. -/
def toRead (before : List UInt8) (os : List Output) (s : SharedSocket) : Decoded :=
  ⟨before ++ s.relay.received, (meanings os).negotiations, (meanings os).bodies⟩

/-- The answers so far, the pending ones first. -/
structure Answers (pending os : List Output) (s : SharedSocket) : Prop where
  valid : ∀ o ∈ os, o.Valid
  frames : pending.map Output.frame ++ s.answered = os.map Output.frame

/-- The answers that were begun and those that were not say what all of them say. -/
theorem InTurn.meant (turn : s.InTurn socket pending turns) (h : s.Sound socket)
    (all : s.Answers pending os) : ∃ left : List Output, s.answersLeft = left.map Output.frame ∧
      meanings os = (meanings (turns.filter fun o => !o.isData)).append (meanings left) := by
  obtain ⟨left, waiting, whole⟩ := exists_outputs h.framed
  refine ⟨left, waiting, ?_⟩
  rw [← meanings_append]
  refine meanings_of_frames all.valid ?_ ?_
  · intro o mem
    rcases List.mem_append.mp mem with begun | later
    · exact turn.valid o (List.mem_filter.mp begun).1
    · exact (whole o later).1
  · rw [List.map_append, ← waiting, turn.answers, all.frames]

theorem serialBegun_within (socket : Int) (s : SharedSocket) :
    s.serialBegun socket <+: s.relay.drained socket ++ s.relay.unwritten := by
  rw [Relay.unwritten, ← List.append_assoc]
  by_cases locked : s.mutex = some .relay
  · rw [serialBegun_of_relay locked]
    exact List.prefix_append _ _
  · rw [serialBegun_of_other locked, List.append_assoc]
    exact List.prefix_append _ _

theorem InTurn.isPrefix (turn : s.InTurn socket pending turns) (h : s.Sound socket)
    (d : s.relay.Delivers socket before) (all : s.Answers pending os) :
    (meanings turns).IsPrefix (s.toRead before os) := by
  obtain ⟨left, -, meant⟩ := turn.meant h all
  obtain ⟨-, negotiations, bodies⟩ := meanings_parts turns
  refine ⟨Stuffing.prefix_of_doubled (x := tIac) ?_, ?_, ?_⟩
  · have begun := serialBegun_within socket s
    rw [← turn.serial, d.2] at begun
    exact begun
  · rw [negotiations, toRead, meant]
    exact List.prefix_append _ _
  · rw [bodies, toRead, meant]
    exact List.prefix_append _ _

/-- Neither thread has anything left to write. -/
structure Done (s : SharedSocket) : Prop where
  relay : s.relay.stepsLeft = 0
  answers : s.answers = []
  storing : s.relay.storing = none

theorem Done.free (done : s.Done) (h : s.Sound socket) : s.mutex = none := by
  cases locked : s.mutex with
  | none => rfl
  | some who =>
    cases who with
    | receive => exact absurd done.answers (h.receiveWrites locked)
    | relay =>
      obtain ⟨toWrite, at_send⟩ := h.relayWrites locked
      have none_left := (Nat.add_eq_zero_iff.mp done.relay).2
      rw [at_send] at none_left
      cases toWrite <;> cases none_left

theorem InTurn.all (turn : s.InTurn socket pending turns) (h : s.Sound socket) (done : s.Done)
    (d : s.relay.Delivers socket before) (all : s.Answers pending os) :
    meanings turns = s.toRead before os := by
  have free := done.free h
  obtain ⟨left, waiting, meant⟩ := turn.meant h all
  obtain ⟨-, negotiations, bodies⟩ := meanings_parts turns
  rw [answersLeft_of_other (unlocked_of_free free _), done.answers] at waiting
  obtain rfl := List.map_eq_nil_iff.mp waiting.symm
  have serial : escapeIac (meanings turns).data = escapeIac (before ++ s.relay.received) := by
    rw [turn.serial, serialBegun_of_other (unlocked_of_free free _), ← d.2,
      Relay.unwritten_of_done done.relay done.storing, List.append_nil]
  have same : meanings os = meanings (turns.filter fun o => !o.isData) :=
    meant.trans (Decoded.append_empty _)
  ext1
  · exact Stuffing.double_injective tIac serial
  · rw [negotiations, toRead, same]
  · rw [bodies, toRead, same]

section Reads
variable (client : Config τ) (reports : client.onDataReceived.isSome = true) (r : Session τ)
  (idle : Idle r.server)
include reports idle

/-- What the client has read is the beginning of what it is to read. -/
theorem reads_isPrefix (h : s.Sound socket) (d : s.Delivers socket before pending)
    (all : s.Answers pending os) : ∃ read, read.IsPrefix (s.toRead before os) ∧
      decoded (parse client r s.wire).trace = (decoded r.trace).append read := by
  obtain ⟨delivers, turns, turn⟩ := d
  have written : s.wire <+: turns.flatMap Output.frame := turn.wire ▸ List.prefix_append _ _
  obtain ⟨read, within, same⟩ := frames_unfinished client r reports idle turns turn.valid written
  exact ⟨read, within.trans (turn.isPrefix h delivers all), same⟩

theorem reads_all (h : s.Sound socket) (d : s.Delivers socket before pending)
    (all : s.Answers pending os) (done : s.Done) :
    decoded (parse client r s.wire).trace = (decoded r.trace).append (s.toRead before os) := by
  obtain ⟨delivers, turns, turn⟩ := d
  have written := turn.wire
  rw [inHand_of_free (done.free h), List.append_nil] at written
  rw [written, ← turn.all h done delivers all]
  exact (parse_frames client reports r idle turns turn.valid).2

end Reads

/-! ### Nothing stays behind -/

/-- The steps of the receive thread before it calls `recv` again: it gets the mutex, writes a
buffer and leaves. -/
def answerSteps (s : SharedSocket) : Nat :=
  match s.mutex, s.answers with
  | some .receive, [] :: rest => 3 * rest.length + 1
  | some .receive, (_ :: _) :: rest => 3 * rest.length + 2
  | _, answers => 3 * answers.length

/-- A step of the drain task counts twice, since it may have to get the mutex first. -/
def stepsLeft (s : SharedSocket) : Nat :=
  2 * s.relay.stepsLeft + s.answerSteps + if s.mutex = some .relay then 0 else 1

/-- A step that loses nothing in any state. -/
def Harmless (a : SharedInput) : Prop := ∀ s : SharedSocket, ¬ s.Loses a

/-- A step forward of one of the two threads that leaves the rest alone. -/
structure Forward (s : SharedSocket) (a : SharedInput) : Prop where
  harmless : Harmless a
  fewer : (s.handle a).stepsLeft < s.stepsLeft
  storing : (s.handle a).relay.storing = s.relay.storing
  received : (s.handle a).relay.received = s.relay.received
  answered : (s.handle a).answered = s.answered

theorem answerSteps_of_other (other : s.mutex ≠ some .receive) :
    s.answerSteps = 3 * s.answers.length := by
  unfold answerSteps
  split
  · rename_i locked _
    exact absurd locked other
  · rename_i locked _
    exact absurd locked other
  · rfl

theorem forward_answer {toWrite : List UInt8} {rest : List (List UInt8)}
    (locked : s.mutex = some .receive) (due : s.answers = toWrite :: rest) :
    s.Forward (.answer toWrite.length) := by
  have positive : ¬ (toWrite.length : Int) < 0 := Int.not_lt.mpr (Int.natCast_nonneg _)
  have harmless : Harmless (.answer toWrite.length) := fun _ loses => positive loses.1
  by_cases done : toWrite = []
  · subst done
    have ended : s.handle (.answer ([] : List UInt8).length) =
        { s with answers := rest, mutex := none } := by
      simp only [handle, answerSend, locked, due]
      rfl
    refine ⟨harmless, ?_, by rw [ended], by rw [ended], by rw [ended]; rfl⟩
    rw [ended, stepsLeft, stepsLeft, answerSteps_of_other (by simp)]
    simp only [answerSteps, locked, due]
    simp
  · have wrote : s.handle (.answer toWrite.length) =
        { s with answers := [] :: rest, wire := s.wire ++ toWrite } := by
      simp only [handle, answerSend, locked, due, if_neg (not_or.mpr ⟨done, positive⟩),
        Int.toNat_natCast, List.drop_length, List.take_length]
    refine ⟨harmless, ?_, by rw [wrote], by rw [wrote], by rw [wrote]; rfl⟩
    rw [wrote, stepsLeft, stepsLeft]
    obtain ⟨b, bytes, rfl⟩ := List.exists_cons_of_ne_nil done
    simp only [answerSteps, locked, due]
    simp

theorem forward_lockReceive {buf : List UInt8} {rest : List (List UInt8)} (free : s.mutex = none)
    (due : s.answers = buf :: rest) : s.Forward (.lock .receive) := by
  have taken : s.handle (.lock .receive) = { s with mutex := some .receive } := by
    simp only [handle, lock, free, due]
  refine ⟨fun _ => id, ?_, by rw [taken], by rw [taken], by rw [taken]; rfl⟩
  rw [taken, stepsLeft, stepsLeft, answerSteps_of_other (s := s) (by simp [free])]
  cases buf with
  | nil | cons =>
    simp only [answerSteps, due, free, List.length_cons, reduceCtorEq, if_false]
    simp
    omega

theorem forward_lockRelay {toWrite : List SerialByte} (free : s.mutex = none)
    (at_send : s.relay.drain = .send toWrite) : s.Forward (.lock .relay) := by
  have taken : s.handle (.lock .relay) = { s with mutex := some .relay } := by
    simp only [handle, lock, free, at_send]
  refine ⟨fun _ => id, ?_, by rw [taken], by rw [taken], by rw [taken]; rfl⟩
  rw [taken, stepsLeft, stepsLeft, answerSteps_of_other (by simp),
    answerSteps_of_other (s := s) (by simp [free])]
  simp [free]

theorem forward_drainSend (running : s.relay.aborted = false)
    {toWrite : List SerialByte} (locked : s.mutex = some .relay)
    (at_send : s.relay.drain = .send toWrite) :
    s.Forward (.task ⟨.drainSend toWrite.length, nofun⟩) := by
  have positive : ¬ (toWrite.length : Int) < 0 := Int.not_lt.mpr (Int.natCast_nonneg _)
  obtain ⟨-, fewer, storing, received⟩ := Relay.forward_send running at_send
  simp only [Relay.stayStep, Relay.step_of_running _ running] at fewer storing received
  have moved : s.handle (.task ⟨.drainSend toWrite.length, nofun⟩) =
      { s with
        relay := s.relay.handle (.drainSend toWrite.length)
        mutex := if toWrite = [] ∨ (toWrite.length : Int) < 0 then none else some .relay
        wire := s.wire ++ values (toWrite.take (toWrite.length : Int).toNat) } := by
    simp only [handle, drainSend, locked, at_send]
    rfl
  refine ⟨fun _ loses => positive loses.1, ?_, ?_, ?_, ?_⟩
  · rw [moved, stepsLeft, stepsLeft, answerSteps_of_other (by dsimp only; split_ifs <;> simp),
      answerSteps_of_other (s := s) (by simp [locked]), if_pos locked]
    simp only
    split_ifs <;> omega
  · rw [moved]
    exact storing
  · rw [moved]
    exact received
  · rw [moved]
    exact congrArg (answersOf ·.trace) (Relay.drainSend_session s.relay _)

/-- A step forward away from the loop of `tcp_send`. -/
theorem plain_of_forward {w : Relay} {a : Relay.StayInput} (running : w.aborted = false)
    (forward : w.Forward a) (elsewhere : ∀ toWrite, w.drain ≠ .send toWrite) :
    a.1.isPlain = true := by
  have fewer := forward.fewer
  obtain ⟨a, stays⟩ := a
  rw [Relay.stayStep, Relay.step_of_running _ running] at fewer
  cases a with
  | recv chunk =>
    have kept := Relay.handle_usbSide w (.recv chunk) rfl
    simp only [Relay.usbSide, UsbSide.mk.injEq] at kept
    rw [Relay.stepsLeft, Relay.stepsLeft, kept.2.1, kept.2.2.1] at fewer
    exact absurd fewer (Nat.lt_irrefl _)
  | drainSend written =>
    have idle : w.handle (.drainSend written) = w := by
      simp only [Relay.handle, Relay.tcpSendTurn]
    rw [idle] at fewer
    exact absurd fewer (Nat.lt_irrefl _)
  | recvEnds => exact absurd rfl stays
  | usbReceive | usbStore | drainReceive | drainCheckSocket | drainCheckThread | drainReturn
  | accept | createThread | close | stop => rfl

theorem forward_plain {a : Relay.StayInput} (h : s.Sound socket) (running : s.relay.aborted = false)
    (plain : a.1.isPlain = true) (forward : s.relay.Forward a) : s.Forward (.task a) := by
  obtain ⟨harmless, fewer, storing, received⟩ := forward
  simp only [Relay.stayStep, Relay.step_of_running _ running] at fewer storing received
  have moved : s.handle (.task a) = { s with relay := s.relay.handle a.1 } := by
    obtain ⟨a, stays⟩ := a
    cases a <;> first | rfl | cases plain
  refine ⟨fun n loses => harmless n.relay ((loses_plain plain).mp loses), ?_, ?_, ?_, ?_⟩
  · have kept : ({ s with relay := s.relay.handle a.1 } : SharedSocket).answerSteps =
        s.answerSteps := rfl
    rw [moved, stepsLeft, stepsLeft, kept]
    simp only
    omega
  · rw [moved]
    exact storing
  · rw [moved]
    exact received
  · rw [moved]
    exact congrArg (answersOf ·.trace) (Relay.plain_session h.attached.serving plain a.2)

/-- One of the two threads always has a step, as long as something is left. -/
theorem exists_forward (h : s.Sound socket) (running : s.relay.aborted = false)
    (left : s.relay.stepsLeft ≠ 0 ∨ s.answers ≠ []) : ∃ a, s.Forward a := by
  cases locked : s.mutex with
  | some who =>
    cases who with
    | relay =>
      obtain ⟨toWrite, at_send⟩ := h.relayWrites locked
      exact ⟨_, forward_drainSend running locked at_send⟩
    | receive =>
      obtain ⟨toWrite, rest, due⟩ := List.exists_cons_of_ne_nil (h.receiveWrites locked)
      exact ⟨_, forward_answer locked due⟩
  | none =>
    cases due : s.answers with
    | cons buf rest => exact ⟨_, forward_lockReceive locked due⟩
    | nil =>
      by_cases at_send : ∃ toWrite, s.relay.drain = .send toWrite
      · obtain ⟨toWrite, at_send⟩ := at_send
        exact ⟨_, forward_lockRelay locked at_send⟩
      · have some_left := left.resolve_right (fun waiting => waiting due)
        obtain ⟨a, forward⟩ := Relay.exists_forward h.attached running some_left
        have elsewhere : ∀ toWrite, s.relay.drain ≠ .send toWrite :=
          fun toWrite there => at_send ⟨toWrite, there⟩
        have plain := plain_of_forward running forward elsewhere
        exact ⟨_, forward_plain h running plain forward⟩

/-- The two threads alone can bring everything to the wire. -/
theorem exists_done (h : s.Sound socket) (d : s.Delivers socket before pending)
    (idle : s.relay.storing = none) :
    ∃ more : List SharedInput, (∀ a ∈ more, Harmless a) ∧
      (more.foldl step s).Delivers socket before pending ∧ (more.foldl step s).Done ∧
      (more.foldl step s).relay.received = s.relay.received ∧
      (more.foldl step s).answered = s.answered := by
  induction bound : s.stepsLeft using Nat.strong_induction_on generalizing s with
  | _ bound ih =>
    by_cases done : s.relay.stepsLeft = 0 ∧ s.answers = []
    · exact ⟨[], nofun, d, ⟨done.1, done.2, idle⟩, rfl, rfl⟩
    · have running : s.relay.aborted = false := d.1.1
      obtain ⟨a, forward⟩ := exists_forward h running (Classical.not_and_iff_not_or_not.mp done)
      have taken := step_of_running running a
      have sound := step_sound h a
      rw [taken] at sound
      obtain ⟨more, harmless, delivers, all, received, answered⟩ :=
        ih _ (bound ▸ forward.fewer) sound
          ((handle_delivers_iff h d a).mpr (forward.harmless s))
          (forward.storing.trans idle) rfl
      refine ⟨a :: more, ?_, ?_⟩
      · intro b member
        rcases List.mem_cons.mp member with rfl | later
        · exact forward.harmless
        · exact harmless b later
      · rw [List.foldl_cons, taken]
        exact ⟨delivers, all, received.trans forward.received, answered.trans forward.answered⟩

theorem exists_answers (h : s.Sound socket) (valid : ∀ o ∈ pending, o.Valid) :
    ∃ answers : List Output, s.answered = answers.map Output.frame ∧
      s.Answers pending (pending ++ answers) := by
  obtain ⟨answers, frames, whole⟩ := exists_outputs (framed_of_answering h.answering)
  refine ⟨answers, frames, fun o mem => ?_, ?_⟩
  · rcases List.mem_append.mp mem with earlier | later
    · exact valid o earlier
    · exact (whole o later).1
  · rw [List.map_append, ← frames]
    rfl

/-- While one client stays, the bytes from USB and the answers to what it asked come to it on its
one socket, each kind in its order and in whole frames, exactly in the runs in which every packet
finds room and no `send` fails with bytes left. What it has read at any time is then the beginning
of the two, and all of both once the two threads, which can always go on, have nothing left. -/
theorem client_reads_serial {w : Relay} {item : List UInt8} (h : w.Begins item)
    (pending : List Output) (valid : ∀ o ∈ pending, o.Valid ∧ o.isData = false)
    (run : List SharedInput) :
    let s := resume w pending
    let before := item ++ w.held
    (Runs.Throughout step (Delivers w.session.server.clientSocket before pending) s run ↔
      Runs.Along step (fun s a => ¬ s.Loses a) s run) ∧
    (Runs.Along step (fun s a => ¬ s.Loses a) s run →
      let n := run.foldl step s
      ∃ answers : List Output, n.answered = answers.map Output.frame ∧
        ∀ (client : Config τ) (r : Session τ), client.onDataReceived.isSome = true →
          Idle r.server →
          (∃ read, read.IsPrefix (n.toRead before (pending ++ answers)) ∧
            decoded (parse client r n.wire).trace = (decoded r.trace).append read) ∧
          (n.relay.storing = none → ∃ more : List SharedInput, (∀ a ∈ more, Harmless a) ∧
            decoded (parse client r (more.foldl step n).wire).trace =
              (decoded r.trace).append (n.toRead before (pending ++ answers)))) := by
  intro s before
  have sound : s.Sound w.session.server.clientSocket := resume_sound h valid
  have exactly := delivers_iff_along sound (resume_delivers h) run
  refine ⟨exactly, fun kept => ?_⟩
  intro n
  have stays : n.Sound w.session.server.clientSocket := run_sound sound run
  have delivers : n.Delivers w.session.server.clientSocket before pending :=
    (Runs.throughout_iff_prefix s run).mp (exactly.mpr kept) run (List.prefix_refl run)
  obtain ⟨answers, frames, all⟩ := exists_answers stays fun o mem => (valid o mem).1
  refine ⟨answers, frames, fun client r reports idle => ⟨?_, fun returned => ?_⟩⟩
  · exact reads_isPrefix client reports r idle stays delivers all
  · obtain ⟨more, harmless, delivered, done, received, answered⟩ :=
      exists_done stays delivers returned
    refine ⟨more, harmless, ?_⟩
    have still := run_sound stays more
    have whole : (more.foldl step n).Answers pending (pending ++ answers) :=
      ⟨all.valid, answered ▸ all.frames⟩
    have same : (more.foldl step n).toRead before (pending ++ answers) =
        n.toRead before (pending ++ answers) := by
      rw [toRead, received, toRead]
    rw [← same]
    exact reads_all client reports r idle still delivered whole done

def tasks (as : List Input) (stay : ∀ a ∈ as, a ≠ .recvEnds) : List SharedInput :=
  (as.attachWith (· ≠ .recvEnds) stay).map .task

/-- A packet with an IAC on its way to the client, and a request of the client. -/
def packetSteps : List Input :=
  [.usbReceive [0x41, 0xff], .usbStore, .drainReceive 2, .drainCheckSocket, .drainCheckThread,
    .recv [tIac, tSb, tComPortOption, tSetControl, 8, tIac, tSe]]

theorem packetSteps_stay : ∀ a ∈ packetSteps, a ≠ .recvEnds := by decide

theorem halfIac_stay : ∀ a ∈ [Input.drainSend 2], a ≠ .recvEnds := by decide

theorem otherHalf_stay : ∀ a ∈ [Input.drainSend 1, Input.drainSend 0], a ≠ .recvEnds := by decide

/-- The receive thread asks for the mutex between the two halves of the doubled IAC, and has
written half of its second answer at the end. -/
def contended : List SharedInput :=
  [.lock .receive, .answer 3, .answer 0] ++ tasks packetSteps packetSteps_stay ++ [.lock .relay] ++
    tasks [.drainSend 2] halfIac_stay ++ [.lock .receive, .answer 4] ++
    tasks [.drainSend 1, .drainSend 0] otherHalf_stay ++ [.lock .receive, .answer 4]

theorem negotiated_begins : Relay.negotiated.Begins [] where
  connected := Relay.negotiated_connected
  live := ⟨by decide, by decide⟩
  sized := Nat.zero_le _
  whole := rfl

/-- The answer to the client's DO. -/
def will : List Output := [.option tWill tComPortOption]

theorem will_answers : ∀ o ∈ will, o.Valid ∧ o.isData = false := by
  simp [will, Output.Valid, Output.isData, isOptionAction]

theorem contended_kept :
    Runs.Along step (fun s a => ¬ s.Loses a) (resume Relay.negotiated will) contended := by
  have positive {k : Int} {rest : Prop} (h : 0 ≤ k) : ¬ (k < 0 ∧ rest) :=
    fun loses => absurd loses.1 (Int.not_lt.mpr h)
  refine ⟨id, positive (by decide), positive (by decide), id, ?_, id, id, id, id, id,
    positive (by decide), id, positive (by decide), positive (by decide), positive (by decide),
    id, positive (by decide), trivial⟩
  rintro ⟨data, storing, full⟩
  cases storing
  exact absurd full (by decide)

theorem client_reads_serial_contended :
    let n := contended.foldl step (resume Relay.negotiated will)
    Runs.Throughout step (Delivers 54 [] will) (resume Relay.negotiated will) contended ∧
      n.wire = [tIac, tWill, tComPortOption, 0x41, tIac, tIac, tIac, tSb, tComPortOption, 105] ∧
      ∃ answers : List Output, n.answered = answers.map Output.frame ∧
        (∃ read, read.IsPrefix (n.toRead [] (will ++ answers)) ∧
          decoded (parse relayConfig (newConnection (rfc2217ServerCreate ())) n.wire).trace =
            Decoded.empty.append read) ∧
        ∃ more : List SharedInput, (∀ a ∈ more, Harmless a) ∧
          decoded (parse relayConfig (newConnection (rfc2217ServerCreate ()))
            (more.foldl step n).wire).trace =
              Decoded.empty.append (n.toRead [] (will ++ answers)) := by
  have reads := client_reads_serial (τ := Unit) negotiated_begins will will_answers contended
  have held : [] ++ Relay.negotiated.held = [] := by decide
  have socket : Relay.negotiated.session.server.clientSocket = 54 := by decide
  have returned : (contended.foldl step (resume Relay.negotiated will)).relay.storing = none := by
    decide +kernel
  have wire : (contended.foldl step (resume Relay.negotiated will)).wire =
      [tIac, tWill, tComPortOption, 0x41, tIac, tIac, tIac, tSb, tComPortOption, 105] := by
    decide +kernel
  rw [held, socket] at reads
  have kept := reads.1.mpr contended_kept
  obtain ⟨answers, frames, both⟩ := reads.2 contended_kept
  obtain ⟨part, all⟩ := both relayConfig (newConnection (rfc2217ServerCreate ())) rfl ⟨rfl, rfl⟩
  have whole := all returned
  exact ⟨kept, wire, answers, frames, part, whole⟩

end SharedSocket

end Rocom.SerialPort
