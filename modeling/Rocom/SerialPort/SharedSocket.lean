import Rocom.Rfc2217.SharedWire
import Rocom.Rfc2217.TcpSend
import Rocom.SerialPort.Delivery

/-! The socket of a client, which the drain task and the receive thread share. Both call
`tcp_send`, which writes a buffer under the mutex. The answers to what `recv` returned are written
one after the other, and then the receive thread calls `recv` again. -/
namespace Rocom.SerialPort

open Rfc2217

/-- The buffers that a session gave to `tcp_send`. -/
def answersOf (t : List Event) : List (List UInt8) := (sends t).map Event.sent

/-- `answers` are the buffers of the receive thread that are still to write, `mutex` is the thread
in the loop of `tcp_send`, and `wire` what the client has been sent. -/
structure SharedSocket where
  relay : Relay
  answers : List (List UInt8)
  mutex : Option Sender
  wire : List UInt8

inductive SharedInput where
  | task (a : Relay.StayInput)
  | lock (who : Sender)
  | answer (written : Int)

namespace SharedSocket

/-- A thread that is to write a buffer gets the mutex when it is free. -/
def lock (s : SharedSocket) : Sender → SharedSocket
  | .relay =>
    match s.mutex, s.relay.drain with
    | none, .send _ => { s with mutex := some .relay }
    | _, _ => s
  | .receive =>
    match s.mutex, s.answers with
    | none, _ :: _ => { s with mutex := some .receive }
    | _, _ => s

/-- A turn of the loop of the drain task. -/
def drainSend (s : SharedSocket) (written : Int) : SharedSocket :=
  match s.mutex, s.relay.drain with
  | some .relay, .send toWrite =>
    { s with
      relay := s.relay.tcpSendTurn written
      mutex := if toWrite = [] ∨ written < 0 then none else some .relay
      wire := s.wire ++ values (toWrite.take written.toNat) }
  | _, _ => s

/-- A turn of the loop of the receive thread. An error gives up the rest of the buffer. -/
def answerSend (s : SharedSocket) (written : Int) : SharedSocket :=
  match s.mutex, s.answers with
  | some .receive, toWrite :: rest =>
    if toWrite = [] ∨ written < 0 then { s with answers := rest, mutex := none }
    else
      { s with
        answers := toWrite.drop written.toNat :: rest
        wire := s.wire ++ toWrite.take written.toNat }
  | _, _ => s

def recv (s : SharedSocket) (chunk : List UInt8) : SharedSocket :=
  match s.answers with
  | [] =>
    let relay := s.relay.recv chunk
    { s with
      relay := relay
      answers := answersOf (relay.session.trace.drop s.relay.session.trace.length) }
  | _ :: _ => s

def handle (s : SharedSocket) : SharedInput → SharedSocket
  | .task a =>
    match a.1 with
    | .drainSend written => s.drainSend written
    | .recv chunk => s.recv chunk
    | other => { s with relay := s.relay.handle other }
  | .lock who => s.lock who
  | .answer written => s.answerSend written

def step (s : SharedSocket) (a : SharedInput) : SharedSocket :=
  if s.relay.aborted then s else s.handle a

/-- The relay in some state, and a receive thread that has still to send these answers. The history
starts here. -/
def resume (w : Relay) (pending : List Output) : SharedSocket where
  relay := { w.fresh with session := { w.session with trace := [] } }
  answers := pending.map Output.frame
  mutex := none
  wire := []

/-- What the thread in the loop of `tcp_send` has still to write. -/
def inHand (s : SharedSocket) : List UInt8 :=
  match s.mutex with
  | none => []
  | some .relay => s.relay.drain.onTheWay
  | some .receive => s.answers.headD []

/-- The answers that were not begun. -/
def answersLeft (s : SharedSocket) : List (List UInt8) :=
  if s.mutex = some .receive then s.answers.tail else s.answers

/-- The answers of the receive thread so far. -/
def answered (s : SharedSocket) : List (List UInt8) := answersOf s.relay.session.trace

/-- A packet without room, or a `send` that fails with bytes in hand. -/
def Loses (s : SharedSocket) : SharedInput → Prop
  | .task a =>
    match a.1 with
    | .usbStore => s.relay.Overflows .usbStore
    | .drainSend written => written < 0 ∧ s.mutex = some .relay ∧ s.inHand ≠ []
    | _ => False
  | .lock _ => False
  | .answer written => written < 0 ∧ s.mutex = some .receive ∧ s.inHand ≠ []

/-- What holds while the client stays. The thread in the loop of `tcp_send` has a buffer, and the
buffers that nobody has begun are whole frames. -/
structure Sound (socket : Int) (s : SharedSocket) : Prop where
  attached : s.relay.Attached socket
  answering : Answering s.relay.session
  relayWrites : s.mutex = some .relay → ∃ toWrite, s.relay.drain = .send toWrite
  receiveWrites : s.mutex = some .receive → s.answers ≠ []
  escaped : s.mutex ≠ some .relay → ∀ toWrite, s.relay.drain = .send toWrite →
    ∃ item : List UInt8, item.length ≤ lengthMax ∧ values toWrite = escapeIac item
  framed : ∀ buf ∈ s.answersLeft, ∃ o : Output, o.Valid ∧ o.isData = false ∧ buf = o.frame

end SharedSocket

/-! ### What the other steps leave alone -/

/-- Neither the loop of `tcp_send` nor the handling of what `recv` returned. -/
def Input.isPlain : Input → Bool
  | .drainSend _ | .recv _ => false
  | _ => true

namespace Relay

variable {socket : Int} {w n : Relay} {a : Input}

theorem plain_session (serving : w.Serving) (plain : a.isPlain = true) (stays : a ≠ .recvEnds) :
    (w.handle a).session = w.session := by
  cases server : a.isServer with
  | false => exact congrArg ServerSide.session (handle_serverSide w a server)
  | true =>
    cases a with
    | recv chunk => cases plain
    | recvEnds => exact absurd rfl stays
    | accept | createThread | close | stop =>
      simp only [handle, accept, createThread, close, stop, serving.joining]
    | usbReceive | usbStore | drainReceive | drainCheckSocket | drainCheckThread | drainSend
    | drainReturn => cases server

theorem plain_drained (plain : a.isPlain = true) :
    (w.handle a).drained socket = w.drained socket := by
  cases server : a.isServer with
  | true =>
    have kept := congrArg UsbSide.log (handle_usbSide w a server)
    exact congrArg (List.flatMap (Record.writtenTo socket)) kept
  | false =>
    have move := w.usbMove a server
    generalize w.handle a = n at move
    cases move with
    | waits | overflows | stores | socket | asserts | givesBack => rfl
    | drops | takes | receives | noSocket | noThread | copies =>
      exact (drained_note _ _).trans (List.append_nil _)
    | sent | fails | writes => cases plain

/-- The drain task stays where it is in the loop of `tcp_send`, and comes to it with a whole
frame. -/
theorem plain_drain (serving : w.Serving) (plain : a.isPlain = true) :
    (w.handle a).drain = w.drain ∨ (∀ toWrite, w.drain ≠ .send toWrite) ∧
      ∀ toWrite, (w.handle a).drain = .send toWrite →
        ∃ item : List UInt8, item.length ≤ lengthMax ∧ values toWrite = escapeIac item := by
  cases server : a.isServer with
  | true => exact .inl (congrArg UsbSide.drain (handle_usbSide w a server))
  | false =>
    have sized := serving.sized
    have move := w.usbMove a server
    generalize w.handle a = n at move
    cases move with
    | waits | drops | takes | overflows | stores | asserts => exact .inl rfl
    | receives waiting => exact .inr ⟨by simp [waiting], by simp [note]⟩
    | noSocket at_check | noThread at_check =>
      exact .inr ⟨by simp [at_check], by simp [sendDataReturns, note]⟩
    | socket at_check => exact .inr ⟨by simp [at_check], by simp⟩
    | @copies item at_check =>
      rw [ItemSized, at_check] at sized
      refine .inr ⟨by simp [at_check], fun toWrite at_send => ⟨values item, ?_, ?_⟩⟩
      · exact (List.length_map _).trans_le sized.2
      · rw [← DrainTask.send.inj at_send]
        exact values_escapeItem item
    | givesBack at_return => exact .inr ⟨by simp [at_return], by simp⟩
    | sent | fails | writes => cases plain

theorem handle_attached (running : w.aborted = false) (stays : a ≠ .recvEnds)
    (h : w.Attached socket) : (w.handle a).Attached socket := by
  rw [← step_of_running a running]
  exact step_attached stays h

theorem drainSend_session (w : Relay) (written : Int) :
    (w.handle (.drainSend written)).session = w.session :=
  congrArg ServerSide.session (handle_serverSide w (.drainSend written) rfl)

theorem recv_drain (w : Relay) (chunk : List UInt8) : (w.handle (.recv chunk)).drain = w.drain :=
  congrArg UsbSide.drain (handle_usbSide w (.recv chunk) rfl)

theorem drainSend_drain {toWrite : List SerialByte} (at_send : w.drain = .send toWrite)
    (written : Int) : (w.handle (.drainSend written)).drain =
      if toWrite = [] ∨ written < 0 then .returnItem else .send (toWrite.drop written.toNat) := by
  simp only [handle, tcpSendTurn, at_send]
  by_cases done : toWrite = []
  · rw [if_pos done, if_pos (.inl done)]
    rfl
  · by_cases error : written < 0
    · rw [if_neg done, if_pos error, if_pos (.inr error)]
      rfl
    · rw [if_neg done, if_neg error, if_neg (not_or.mpr ⟨done, error⟩)]

theorem recv_session (joining : w.serverThread = .join) (chunk : List UInt8) :
    (w.recv chunk).session = processReceivedOverTcp serialConfig w.session chunk := by
  simp only [recv, joining]

theorem drainSend_drained {toWrite : List SerialByte} (own : w.session.server.clientSocket = socket)
    (at_send : w.drain = .send toWrite) (written : Int) :
    (w.handle (.drainSend written)).drained socket =
      w.drained socket ++ values (toWrite.take written.toNat) := by
  have sent (n : Relay) (item : List SerialByte) :
      (n.note (.sent w.session.server.clientSocket w.liveSocket w.clients item)).drained socket =
        n.drained socket ++ values item := by
    rw [drained_note, Record.writtenTo, if_pos own]
  have returned (n : Relay) : (n.sendDataReturns 0).drained socket = n.drained socket :=
    (drained_note _ _).trans (List.append_nil _)
  simp only [handle, tcpSendTurn, at_send]
  by_cases done : toWrite = []
  · rw [if_pos done, done, returned, List.take_nil]
    exact (List.append_nil _).symm
  · rw [if_neg done]
    split
    · rw [returned, sent]
    · exact sent w _

end Relay

/-! ### The invariant -/

theorem answersOf_append (t u : List Event) : answersOf (t ++ u) = answersOf t ++ answersOf u := by
  rw [answersOf, sends_append, List.map_append, answersOf, answersOf]

theorem framed_of_answering {s : Session Bool} (h : Answering s) :
    ∀ buf ∈ answersOf s.trace, ∃ o : Output, o.Valid ∧ o.isData = false ∧ buf = o.frame := by
  intro buf mem
  obtain ⟨e, sent, rfl⟩ := List.mem_map.mp mem
  obtain ⟨o, valid, answer, rfl⟩ := h.answers e sent
  exact ⟨o, valid, answer, rfl⟩

namespace SharedSocket

variable {socket : Int} {before : List UInt8} {pending : List Output} {s : SharedSocket}

/-- The new answers are those of the bytes that came. -/
theorem answersOf_recv (joining : s.relay.serverThread = .join) (chunk : List UInt8) :
    answersOf (s.relay.recv chunk).session.trace = s.answered ++
      answersOf ((s.relay.recv chunk).session.trace.drop s.relay.session.trace.length) := by
  obtain ⟨new, extended⟩ := process_extends serialConfig s.relay.session chunk
  rw [Relay.recv_session joining, ← extended, List.drop_left, answersOf_append]
  rfl

theorem unlocked_of_free (free : s.mutex = none) (who : Sender) : s.mutex ≠ some who := by
  rw [free]
  exact nofun

theorem other_of_relay (locked : s.mutex = some .relay) : s.mutex ≠ some .receive := by
  rw [locked]
  exact nofun

theorem other_of_receive (locked : s.mutex = some .receive) : s.mutex ≠ some .relay := by
  rw [locked]
  exact nofun

theorem inHand_of_free (free : s.mutex = none) : s.inHand = [] := by rw [inHand, free]

theorem inHand_of_relay (locked : s.mutex = some .relay) :
    s.inHand = s.relay.drain.onTheWay := by
  rw [inHand, locked]

theorem inHand_of_receive (locked : s.mutex = some .receive) : s.inHand = s.answers.headD [] := by
  rw [inHand, locked]

theorem answersLeft_of_receive (locked : s.mutex = some .receive) :
    s.answersLeft = s.answers.tail := if_pos locked

theorem answersLeft_of_other (free : s.mutex ≠ some .receive) : s.answersLeft = s.answers :=
  if_neg free

/-- Everything that a step can do. -/
inductive Moves (s : SharedSocket) : SharedInput → SharedSocket → Prop
  | waits {a : SharedInput} (quiet : ¬ s.Loses a) : Moves s a s
  | task {a : Relay.StayInput} (plain : a.1.isPlain = true) :
      Moves s (.task a) { s with relay := s.relay.handle a.1 }
  | receives {chunk : List UInt8} {stays : Input.recv chunk ≠ .recvEnds} (free : s.answers = []) :
      Moves s (.task ⟨.recv chunk, stays⟩)
        { s with
          relay := s.relay.handle (.recv chunk)
          answers := answersOf
            ((s.relay.recv chunk).session.trace.drop s.relay.session.trace.length) }
  | drains {written : Int} {stays : Input.drainSend written ≠ .recvEnds}
      {toWrite : List SerialByte} (locked : s.mutex = some .relay)
      (at_send : s.relay.drain = .send toWrite) :
      Moves s (.task ⟨.drainSend written, stays⟩)
        { s with
          relay := s.relay.handle (.drainSend written)
          mutex := if toWrite = [] ∨ written < 0 then none else some .relay
          wire := s.wire ++ values (toWrite.take written.toNat) }
  | locksRelay {toWrite : List SerialByte} (free : s.mutex = none)
      (at_send : s.relay.drain = .send toWrite) :
      Moves s (.lock .relay) { s with mutex := some .relay }
  | locksReceive {buf : List UInt8} {rest : List (List UInt8)} (free : s.mutex = none)
      (due : s.answers = buf :: rest) : Moves s (.lock .receive) { s with mutex := some .receive }
  | ends {written : Int} {toWrite : List UInt8} {rest : List (List UInt8)}
      (locked : s.mutex = some .receive) (due : s.answers = toWrite :: rest)
      (ended : toWrite = [] ∨ written < 0) :
      Moves s (.answer written) { s with answers := rest, mutex := none }
  | writes {written : Int} {toWrite : List UInt8} {rest : List (List UInt8)}
      (locked : s.mutex = some .receive) (due : s.answers = toWrite :: rest)
      (some_written : ¬ (toWrite = [] ∨ written < 0)) :
      Moves s (.answer written)
        { s with
          answers := toWrite.drop written.toNat :: rest
          wire := s.wire ++ toWrite.take written.toNat }

theorem handle_moves (h : s.Sound socket) (a : SharedInput) : s.Moves a (s.handle a) := by
  cases a with
  | task a =>
    obtain ⟨a, stays⟩ := a
    cases a with
    | drainSend written =>
      simp only [handle, drainSend]
      split
      · rename_i locked at_send
        exact .drains locked at_send
      · rename_i idle
        refine .waits fun loses => ?_
        obtain ⟨-, locked, -⟩ := loses
        obtain ⟨toWrite, at_send⟩ := h.relayWrites locked
        exact idle toWrite locked at_send
    | recv chunk =>
      simp only [handle, recv]
      split
      · rename_i free
        exact .receives free
      · exact .waits id
    | usbReceive | usbStore | drainReceive | drainCheckSocket | drainCheckThread | drainReturn
    | accept | createThread | recvEnds | close | stop => exact .task rfl
  | lock who =>
    cases who with
    | relay =>
      simp only [handle, lock]
      split
      · rename_i free at_send
        exact .locksRelay free at_send
      · exact .waits id
    | receive =>
      simp only [handle, lock]
      split
      · rename_i free due
        exact .locksReceive free due
      · exact .waits id
  | answer written =>
    simp only [handle, answerSend]
    split
    · rename_i locked due
      split
      · rename_i ended
        exact .ends locked due ended
      · rename_i some_written
        exact .writes locked due some_written
    · rename_i idle
      refine .waits fun loses => ?_
      obtain ⟨-, locked, left⟩ := loses
      cases due : s.answers with
      | nil => exact left (by rw [inHand, locked, due]; rfl)
      | cons toWrite rest => exact idle toWrite rest locked due

theorem moves_sound {n : SharedSocket} {a : SharedInput} (running : s.relay.aborted = false)
    (h : s.Sound socket) (move : s.Moves a n) : n.Sound socket := by
  cases move with
  | waits => exact h
  | @task a plain =>
    have session := Relay.plain_session h.attached.serving plain a.2
    refine ⟨Relay.handle_attached running a.2 h.attached, ?_, ?_, h.receiveWrites, ?_, h.framed⟩
    · rw [session]
      exact h.answering
    · intro locked
      obtain ⟨toWrite, at_send⟩ := h.relayWrites locked
      rcases Relay.plain_drain h.attached.serving plain with same | ⟨elsewhere, -⟩
      · exact ⟨toWrite, same.trans at_send⟩
      · exact absurd at_send (elsewhere toWrite)
    · intro free toWrite at_send
      rcases Relay.plain_drain h.attached.serving plain with same | ⟨-, whole⟩
      · exact h.escaped free toWrite (same.symm.trans at_send)
      · exact whole toWrite at_send
  | @receives chunk stays free =>
    have session := Relay.recv_session h.attached.serving.joining chunk
    have answering : Answering (s.relay.recv chunk).session := by
      rw [session]
      exact answering_process serialConfig s.relay.session chunk h.answering
    have unlocked : s.mutex ≠ some .receive := fun locked => h.receiveWrites locked free
    refine ⟨Relay.handle_attached running stays h.attached, answering, ?_, ?_, ?_, ?_⟩
    · rw [Relay.recv_drain]
      exact h.relayWrites
    · exact fun locked => absurd locked unlocked
    · rw [Relay.recv_drain]
      exact h.escaped
    · intro buf mem
      apply framed_of_answering answering
      rw [answersOf_recv h.attached.serving.joining]
      rw [answersLeft, if_neg unlocked] at mem
      exact List.mem_append_right _ mem
  | @drains written stays toWrite locked at_send =>
    have left : s.answersLeft = s.answers := answersLeft_of_other (other_of_relay locked)
    refine ⟨Relay.handle_attached running stays h.attached, ?_, ?_, ?_, ?_, ?_⟩
    · rw [Relay.drainSend_session]
      exact h.answering
    · intro still
      rw [Relay.drainSend_drain at_send]
      split_ifs at still ⊢
      exact ⟨_, rfl⟩
    · intro receiving
      split_ifs at receiving
      cases receiving
    · intro free rest behind
      rw [Relay.drainSend_drain at_send] at behind
      split_ifs at free behind
      exact absurd rfl free
    · intro buf mem
      rw [answersLeft_of_other (by dsimp only; split_ifs <;> nofun)] at mem
      exact h.framed buf (left ▸ mem)
  | @locksRelay toWrite free at_send =>
    have left : s.answersLeft = s.answers := answersLeft_of_other (unlocked_of_free free _)
    refine ⟨h.attached, h.answering, fun _ => ⟨toWrite, at_send⟩, nofun, fun free => ?_, ?_⟩
    · exact absurd rfl free
    · exact fun buf mem => h.framed buf (left ▸ mem)
  | @locksReceive buf rest free due =>
    have left : s.answersLeft = s.answers := answersLeft_of_other (unlocked_of_free free _)
    refine ⟨h.attached, h.answering, nofun, fun _ => by rw [due]; nofun, fun _ => ?_, ?_⟩
    · exact h.escaped (unlocked_of_free free _)
    · intro other mem
      exact h.framed other (left ▸ List.mem_of_mem_tail mem)
  | ends locked due ended =>
    refine ⟨h.attached, h.answering, nofun, nofun, fun _ => h.escaped (other_of_receive locked), ?_⟩
    intro buf mem
    apply h.framed buf
    rw [answersLeft, if_pos locked, due]
    exact mem
  | writes locked due some_written =>
    have other : s.mutex ≠ some .relay := other_of_receive locked
    refine ⟨h.attached, h.answering, ?_, fun _ => nofun, fun _ => h.escaped other, ?_⟩
    · intro relay
      exact h.relayWrites relay
    · intro buf mem
      apply h.framed buf
      rw [answersLeft, if_pos locked, due]
      rw [answersLeft, if_pos locked] at mem
      exact mem

end SharedSocket

end Rocom.SerialPort
