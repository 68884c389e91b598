import Rocom.SerialPort.SharedSocket

/-! The frames of the drain task and of the receive thread in the order in which they got the
mutex. The wire is always these frames but for what is in hand, as long as no `send` fails. -/
namespace Rocom.SerialPort

open Rfc2217

namespace SharedSocket

variable {socket : Int} {before : List UInt8} {pending turns : List Output} {s n : SharedSocket}

/-- The bytes of the drain task in the frames that were begun. -/
def serialBegun (socket : Int) (s : SharedSocket) : List UInt8 :=
  s.relay.drained socket ++ if s.mutex = some .relay then s.relay.drain.onTheWay else []

/-- The frames of the two threads that were begun, in their order: all of them are written but for
what is in hand, and they are the data and the answers that are no longer waiting. -/
structure InTurn (socket : Int) (pending turns : List Output) (s : SharedSocket) : Prop where
  valid : ∀ o ∈ turns, o.Valid
  wire : s.wire ++ s.inHand = turns.flatMap Output.frame
  serial : escapeIac (meanings turns).data = s.serialBegun socket
  answers : (turns.filter fun o => !o.isData).map Output.frame ++ s.answersLeft =
    pending.map Output.frame ++ s.answered

/-- The bytes from USB and the answers are on the wire or still to come, each kind in its order and
in whole frames. -/
def Delivers (socket : Int) (before : List UInt8) (pending : List Output) (s : SharedSocket) :
    Prop :=
  s.relay.Delivers socket before ∧ ∃ turns, s.InTurn socket pending turns

theorem serialBegun_of_relay (locked : s.mutex = some .relay) :
    s.serialBegun socket = s.relay.drained socket ++ s.relay.drain.onTheWay := by
  rw [serialBegun, if_pos locked]

theorem serialBegun_of_other (free : s.mutex ≠ some .relay) :
    s.serialBegun socket = s.relay.drained socket := by
  rw [serialBegun, if_neg free, List.append_nil]

theorem InTurn.same (turn : s.InTurn socket pending turns)
    (wire : n.wire ++ n.inHand = s.wire ++ s.inHand)
    (serial : n.serialBegun socket = s.serialBegun socket) (left : n.answersLeft = s.answersLeft)
    (answered : n.answered = s.answered) : n.InTurn socket pending turns := by
  refine ⟨turn.valid, wire.trans turn.wire, turn.serial.trans serial.symm, ?_⟩
  rw [left, answered]
  exact turn.answers

theorem escaped_append (a b : Decoded) :
    escapeIac (a.append b).data = escapeIac a.data ++ escapeIac b.data :=
  Stuffing.double_append a.data b.data

theorem inHand_congr (mutex : n.mutex = s.mutex)
    (drain : s.mutex = some .relay → n.relay.drain = s.relay.drain)
    (answers : s.mutex = some .receive → n.answers = s.answers) : n.inHand = s.inHand := by
  cases locked : s.mutex with
  | none => rw [inHand_of_free locked, inHand_of_free (mutex.trans locked)]
  | some who =>
    cases who with
    | relay => rw [inHand_of_relay locked, inHand_of_relay (mutex.trans locked), drain locked]
    | receive =>
      rw [inHand_of_receive locked, inHand_of_receive (mutex.trans locked), answers locked]

theorem serialBegun_congr (mutex : n.mutex = s.mutex)
    (drained : n.relay.drained socket = s.relay.drained socket)
    (drain : s.mutex = some .relay → n.relay.drain = s.relay.drain) :
    n.serialBegun socket = s.serialBegun socket := by
  by_cases locked : s.mutex = some .relay
  · rw [serialBegun_of_relay locked, serialBegun_of_relay (mutex.trans locked), drained,
      drain locked]
  · rw [serialBegun_of_other locked, serialBegun_of_other (mutex ▸ locked), drained]

theorem turns_plain {a : Input} (h : s.Sound socket) (turn : s.InTurn socket pending turns)
    (plain : a.isPlain = true) (stays : a ≠ .recvEnds) :
    ({ s with relay := s.relay.handle a } : SharedSocket).InTurn socket pending turns := by
  have still : s.mutex = some .relay → (s.relay.handle a).drain = s.relay.drain := by
    intro locked
    obtain ⟨toWrite, at_send⟩ := h.relayWrites locked
    rcases Relay.plain_drain h.attached.serving plain with same | ⟨elsewhere, -⟩
    · exact same
    · exact absurd at_send (elsewhere toWrite)
  apply turn.same
  · exact congrArg (s.wire ++ ·) (inHand_congr rfl still fun _ => rfl)
  · exact serialBegun_congr rfl (Relay.plain_drained plain) still
  · rfl
  · exact congrArg (answersOf ·.trace) (Relay.plain_session h.attached.serving plain stays)

theorem turns_receives (h : s.Sound socket) (turn : s.InTurn socket pending turns)
    (chunk : List UInt8) (free : s.answers = []) :
    ({ s with
      relay := s.relay.handle (.recv chunk)
      answers := answersOf
        ((s.relay.recv chunk).session.trace.drop s.relay.session.trace.length) } :
      SharedSocket).InTurn socket pending turns := by
  have unlocked : s.mutex ≠ some .receive := fun locked => h.receiveWrites locked free
  have log := congrArg UsbSide.log (Relay.handle_usbSide s.relay (.recv chunk) rfl)
  have waiting := turn.answers
  rw [answersLeft_of_other unlocked, free, List.append_nil] at waiting
  have drain := Relay.recv_drain s.relay chunk
  refine ⟨turn.valid, ?_, ?_, ?_⟩
  · rw [← turn.wire]
    refine congrArg (s.wire ++ ·) (inHand_congr rfl (fun _ => drain) ?_)
    exact fun locked => absurd locked unlocked
  · rw [turn.serial]
    symm
    refine serialBegun_congr ?_ ?_ fun _ => drain
    · rfl
    · exact congrArg (List.flatMap (Record.writtenTo socket)) log
  · rw [waiting, answersLeft, if_neg unlocked, List.append_assoc]
    exact congrArg (_ ++ ·) (answersOf_recv h.attached.serving.joining chunk).symm

/-- A turn of the drain task that does not fail moves bytes from its hand to the wire. -/
theorem turns_drains (h : s.Sound socket) (turn : s.InTurn socket pending turns) {written : Int}
    {toWrite : List SerialByte} (locked : s.mutex = some .relay)
    (at_send : s.relay.drain = .send toWrite) (kept : written < 0 → toWrite = []) :
    ({ s with
      relay := s.relay.handle (.drainSend written)
      mutex := if toWrite = [] ∨ written < 0 then none else some .relay
      wire := s.wire ++ values (toWrite.take written.toNat) } :
      SharedSocket).InTurn socket pending turns := by
  have session := Relay.drainSend_session s.relay written
  have drained := Relay.drainSend_drained h.attached.own at_send written
  have drain := Relay.drainSend_drain at_send written
  have hand : s.inHand = values toWrite := by
    rw [inHand_of_relay locked, at_send]
    rfl
  have begun : s.serialBegun socket = s.relay.drained socket ++ values toWrite := by
    rw [serialBegun_of_relay locked, at_send]
    rfl
  have left : s.answersLeft = s.answers := answersLeft_of_other (other_of_relay locked)
  have parts : values (toWrite.take written.toNat) ++ values (toWrite.drop written.toNat) =
      values toWrite := by
    rw [values, values, values, ← List.map_append, List.take_append_drop]
  by_cases ended : toWrite = [] ∨ written < 0
  · have done : toWrite = [] := ended.elim id kept
    subst done
    rw [List.take_nil] at drained ⊢
    rw [if_pos ended]
    apply turn.same
    · rw [inHand_of_free rfl, hand]
      exact congrArg (· ++ _) (List.append_nil _)
    · rw [serialBegun_of_other (by simp), begun]
      exact drained
    · rw [answersLeft_of_other (by simp), left]
    · exact congrArg (answersOf ·.trace) session
  · rw [if_neg ended] at drain ⊢
    apply turn.same
    · rw [inHand_of_relay rfl, hand, ← parts, ← List.append_assoc]
      exact congrArg (_ ++ DrainTask.onTheWay ·) drain
    · rw [serialBegun_of_relay rfl, begun, ← parts, ← List.append_assoc, ← drained]
      exact congrArg (_ ++ DrainTask.onTheWay ·) drain
    · rw [answersLeft_of_other (by simp), left]
    · exact congrArg (answersOf ·.trace) session

/-- The drain task begins a frame of data. -/
theorem turns_locksRelay (h : s.Sound socket) (turn : s.InTurn socket pending turns)
    {toWrite : List SerialByte} (free : s.mutex = none) (at_send : s.relay.drain = .send toWrite) :
    ∃ more, ({ s with mutex := some .relay } : SharedSocket).InTurn socket pending more := by
  obtain ⟨item, sized, escaped⟩ := h.escaped (unlocked_of_free free _) toWrite at_send
  have frame : s.relay.drain.onTheWay = (Output.data item).frame := by
    rw [at_send]
    exact escaped
  have wire := turn.wire
  rw [inHand_of_free free, List.append_nil] at wire
  have serial := turn.serial
  rw [serialBegun_of_other (unlocked_of_free free _)] at serial
  have answers := turn.answers
  rw [answersLeft_of_other (unlocked_of_free free _)] at answers
  refine ⟨turns ++ [.data item], ?_, ?_, ?_, ?_⟩
  · intro o mem
    rcases List.mem_append.mp mem with earlier | last
    · exact turn.valid o earlier
    · obtain rfl := List.mem_singleton.mp last
      exact sized
  · rw [inHand_of_relay rfl, frame, wire, List.flatMap_append, List.flatMap_singleton]
  · rw [serialBegun_of_relay rfl, frame, ← serial, meanings_append, escaped_append,
      meanings_single]
    rfl
  · rw [answersLeft_of_other (by simp), List.filter_append, List.map_append]
    exact (congrArg (· ++ _) (List.append_nil _)).trans answers

/-- The receive thread begins an answer. -/
theorem turns_locksReceive (h : s.Sound socket) (turn : s.InTurn socket pending turns)
    {buf : List UInt8} {rest : List (List UInt8)} (free : s.mutex = none)
    (due : s.answers = buf :: rest) :
    ∃ more, ({ s with mutex := some .receive } : SharedSocket).InTurn socket pending more := by
  have left : s.answersLeft = buf :: rest :=
    (answersLeft_of_other (unlocked_of_free free _)).trans due
  obtain ⟨o, valid, answer, rfl⟩ := h.framed buf (left ▸ List.mem_cons_self)
  have wire := turn.wire
  rw [inHand_of_free free, List.append_nil] at wire
  have serial := turn.serial
  rw [serialBegun_of_other (unlocked_of_free free _)] at serial
  have answers := turn.answers
  rw [left] at answers
  refine ⟨turns ++ [o], ?_, ?_, ?_, ?_⟩
  · intro p mem
    rcases List.mem_append.mp mem with earlier | last
    · exact turn.valid p earlier
    · obtain rfl := List.mem_singleton.mp last
      exact valid
  · rw [inHand_of_receive rfl, due, wire, List.flatMap_append, List.flatMap_singleton]
    rfl
  · have silent : (meanings [o]).data = [] := by
      cases o with
      | data => cases answer
      | option | subnegotiation => rfl
    rw [serialBegun_of_other (by simp), ← serial, meanings_append, Decoded.append, silent,
      List.append_nil]
  · rw [answersLeft_of_receive rfl, due, List.filter_append, List.map_append, List.append_assoc]
    have begun : [o].filter (fun o => !o.isData) = [o] := by simp [answer]
    rw [begun]
    exact answers

/-- A turn of the receive thread. -/
theorem turns_writes (turn : s.InTurn socket pending turns) {toWrite : List UInt8}
    {rest : List (List UInt8)} (locked : s.mutex = some .receive)
    (due : s.answers = toWrite :: rest) (k : Nat) :
    ({ s with answers := toWrite.drop k :: rest, wire := s.wire ++ toWrite.take k } :
      SharedSocket).InTurn socket pending turns := by
  have hand : s.inHand = toWrite := by rw [inHand_of_receive locked, due, List.headD_cons]
  have left : s.answersLeft = rest := by rw [answersLeft_of_receive locked, due, List.tail_cons]
  apply turn.same
  · rw [hand]
    simp only [inHand, locked, List.headD_cons, List.append_assoc, List.take_append_drop]
  · rfl
  · rw [left]
    exact answersLeft_of_receive locked
  · rfl

theorem turns_ends (turn : s.InTurn socket pending turns) {rest : List (List UInt8)}
    (locked : s.mutex = some .receive) (due : s.answers = [] :: rest) :
    ({ s with answers := rest, mutex := none } : SharedSocket).InTurn socket pending turns := by
  apply turn.same
  · rw [inHand_of_free rfl, inHand_of_receive locked, due]
    rfl
  · rw [serialBegun_of_other (by simp), serialBegun_of_other (other_of_receive locked)]
  · rw [answersLeft_of_other (by simp), answersLeft_of_receive locked, due]
    rfl
  · rfl

/-! ### Exactly without a loss -/

theorem frames_length (os : List Output) :
    (os.flatMap Output.frame).length = (escapeIac (meanings os).data).length +
      ((os.filter fun o => !o.isData).map Output.frame).flatten.length := by
  induction os with
  | nil => rfl
  | cons o os ih =>
    rw [List.flatMap_cons, List.length_append, ih, meanings_cons, escaped_append,
      List.length_append]
    cases o with
    | data payload => exact (Nat.add_assoc _ _ _).symm
    | option | subnegotiation =>
      have silent : escapeIac [] = [] := rfl
      rw [List.filter_cons_of_pos rfl, List.map_cons, List.flatten_cons, List.length_append,
        Output.meaning, silent, List.length_nil, Nat.zero_add, Nat.add_left_comm]

/-- What is written and in hand is as long as the data and the answers that were begun. -/
theorem InTurn.count (turn : s.InTurn socket pending turns) :
    s.wire.length + s.inHand.length = (s.serialBegun socket).length +
      ((turns.filter fun o => !o.isData).map Output.frame).flatten.length := by
  rw [← List.length_append, turn.wire, frames_length, turn.serial]

/-- After an error the answer is begun, but not all of it is on the wire or in hand. -/
theorem not_inTurn_gives_up {more : List Output} (turn : s.InTurn socket pending turns)
    {toWrite : List UInt8} {rest : List (List UInt8)} (locked : s.mutex = some .receive)
    (due : s.answers = toWrite :: rest) (left : toWrite ≠ []) :
    ¬ ({ s with answers := rest, mutex := none } : SharedSocket).InTurn socket pending more := by
  intro turn'
  have hand : s.inHand = toWrite := by rw [inHand_of_receive locked, due, List.headD_cons]
  have serial : s.serialBegun socket = s.relay.drained socket :=
    serialBegun_of_other (other_of_receive locked)
  have waiting : s.answersLeft = rest := by rw [answersLeft_of_receive locked, due, List.tail_cons]
  have same : (more.filter fun o => !o.isData).map Output.frame =
      (turns.filter fun o => !o.isData).map Output.frame := by
    have answers := turn'.answers
    rw [answersLeft_of_other (by simp)] at answers
    exact List.append_cancel_right (answers.trans (waiting ▸ turn.answers.symm))
  have before := turn.count
  have after := turn'.count
  rw [hand, serial] at before
  rw [inHand_of_free rfl, serialBegun_of_other (by simp), same] at after
  simp only [List.length_nil] at after
  exact left (List.length_eq_zero_iff.mp (by omega))

theorem loses_plain {a : Relay.StayInput} (plain : a.1.isPlain = true) :
    s.Loses (.task a) ↔ s.relay.Loses a.1 := by
  obtain ⟨a, stays⟩ := a
  cases a with
  | drainSend | recv => cases plain
  | recvEnds => exact absurd rfl stays
  | usbReceive | usbStore | drainReceive | drainCheckSocket | drainCheckThread | drainReturn
  | accept | createThread | close | stop => exact Iff.rfl

theorem handle_delivers_iff (h : s.Sound socket) (d : s.Delivers socket before pending)
    (a : SharedInput) : (s.handle a).Delivers socket before pending ↔ ¬ s.Loses a := by
  obtain ⟨delivers, turns, turn⟩ := d
  have relay := Relay.handle_delivers_iff h.attached delivers
  have move := handle_moves h a
  generalize s.handle a = n at move
  cases move with
  | waits quiet => exact iff_of_true ⟨delivers, turns, turn⟩ quiet
  | @task a plain =>
    rw [loses_plain plain, ← relay a.1]
    exact ⟨And.left, fun kept => ⟨kept, turns, turns_plain h turn plain a.2⟩⟩
  | @receives chunk stays free =>
    have kept := (relay (.recv chunk)).mpr id
    exact iff_of_true ⟨kept, turns, turns_receives h turn chunk free⟩ id
  | @drains written stays toWrite locked at_send =>
    have hand : s.inHand = [] ↔ toWrite = [] := by
      rw [inHand_of_relay locked, at_send]
      exact List.map_eq_nil_iff
    have same : s.relay.Loses (.drainSend written) ↔
        s.Loses (.task ⟨.drainSend written, stays⟩) := by
      constructor
      · rintro ⟨error, left, some_left, behind⟩
        rw [at_send] at behind
        cases behind
        exact ⟨error, locked, fun empty => some_left (hand.mp empty)⟩
      · rintro ⟨error, -, left⟩
        exact ⟨error, toWrite, fun empty => left (hand.mpr empty), at_send⟩
    rw [← same, ← relay (.drainSend written)]
    refine ⟨And.left, fun kept => ⟨kept, turns, turns_drains h turn locked at_send fun error => ?_⟩⟩
    by_contra left
    exact (relay (.drainSend written)).mp kept ⟨error, toWrite, left, at_send⟩
  | locksRelay free at_send =>
    exact iff_of_true ⟨delivers, turns_locksRelay h turn free at_send⟩ id
  | locksReceive free due =>
    exact iff_of_true ⟨delivers, turns_locksReceive h turn free due⟩ id
  | @ends written toWrite rest locked due ended =>
    have hand : s.inHand = toWrite := by rw [inHand_of_receive locked, due, List.headD_cons]
    by_cases done : toWrite = []
    · subst done
      exact iff_of_true ⟨delivers, turns, turns_ends turn locked due⟩ fun loses => loses.2.2 hand
    · have error : written < 0 := ended.resolve_left done
      refine iff_of_false ?_ fun keeps => keeps ⟨error, locked, hand ▸ done⟩
      rintro ⟨-, more, turn'⟩
      exact not_inTurn_gives_up turn locked due done turn'
  | @writes written toWrite rest locked due some_written =>
    refine iff_of_true ⟨delivers, turns, turns_writes turn locked due written.toNat⟩ fun loses => ?_
    exact some_written (.inr loses.1)

/-! ### Every run -/

theorem step_of_running (running : s.relay.aborted = false) (a : SharedInput) :
    s.step a = s.handle a := by
  rw [step, running]
  rfl

theorem step_sound (h : s.Sound socket) (a : SharedInput) : (s.step a).Sound socket := by
  cases running : s.relay.aborted with
  | true =>
    have same : s.step a = s := by rw [step, if_pos running]
    rw [same]
    exact h
  | false =>
    rw [step_of_running running]
    exact moves_sound running h (handle_moves h a)

theorem run_sound (h : s.Sound socket) (run : List SharedInput) :
    (run.foldl step s).Sound socket := by
  have keeps : ∀ (s : SharedSocket) (a : SharedInput), s.Sound socket → (s.step a).Sound socket :=
    fun _ a h => step_sound h a
  exact Runs.invariant keeps s h run

/-- No step loses anything exactly when every step delivers. -/
theorem delivers_iff_along (h : s.Sound socket) (d : s.Delivers socket before pending)
    (run : List SharedInput) :
    Runs.Throughout step (Delivers socket before pending) s run ↔
      Runs.Along step (fun s a => ¬ s.Loses a) s run := by
  refine Runs.throughout_iff_along (I := Sound socket) (fun _ a h => step_sound h a) ?_ s h d run
  intro s a h d
  rw [step_of_running d.1.1]
  exact handle_delivers_iff h d a

end SharedSocket

/-! ### A client that has come -/

namespace Relay

variable {w : Relay} {item : List UInt8} {pending : List Output}

/-- A client has negotiated, and of the item in the hand of the drain task nothing is written. -/
structure Begins (w : Relay) (item : List UInt8) : Prop where
  connected : w.Connected
  live : Live w.session.server
  sized : item.length ≤ lengthMax
  whole : w.drain.onTheWay = escapeIac item

/-- While a receive thread runs it has the option table of `server_receive_thread`. -/
theorem handle_listed (a : Input)
    (h : w.serverThread = .join → definitions w.session.server = optionDefs)
    (joining : (w.handle a).serverThread = .join) :
    definitions (w.handle a).session.server = optionDefs := by
  cases server : a.isServer with
  | false =>
    have kept := handle_serverSide w a server
    simp only [serverSide, ServerSide.mk.injEq] at kept
    rw [kept.1]
    exact h (kept.2.1 ▸ joining)
  | true =>
    cases a with
    | accept socket =>
      simp only [handle, accept] at joining ⊢
      split at joining
      · split_ifs at joining
      · exact h joining
    | createThread thread =>
      simp only [handle, createThread] at joining ⊢
      split at joining
      · cases thread with
        | none => cases joining
        | some thread => rfl
      · exact h joining
    | recv chunk =>
      simp only [handle, recv] at joining ⊢
      split at joining
      · rename_i at_join
        exact (definitions_process serialConfig w.session chunk).trans (h at_join)
      · exact h joining
    | recvEnds | close =>
      simp only [handle, recvEnds, close] at joining ⊢
      split at joining
      · cases joining
      · exact h joining
    | stop =>
      simp only [handle, stop] at joining ⊢
      split at joining
      · exact h joining
      · exact h joining
    | usbReceive | usbStore | drainReceive | drainCheckSocket | drainCheckThread | drainSend
    | drainReturn => cases server

theorem Connected.listed (h : w.Connected) : definitions w.session.server = optionDefs := by
  have kept : ∀ (n : Relay) (a : Input),
      (n.serverThread = .join → definitions n.session.server = optionDefs) →
      (n.step a).serverThread = .join → definitions (n.step a).session.server = optionDefs := by
    intro n a listed
    rcases step_cases n a with same | handled
    · rw [same]
      exact listed
    · rw [handled]
      exact handle_listed a listed
  obtain ⟨before, rfl⟩ := h.reached
  exact Runs.invariant (P := fun n : Relay => n.serverThread = .join →
    definitions n.session.server = optionDefs) kept start nofun before h.joining

end Relay

namespace SharedSocket

variable {w : Relay} {item : List UInt8} {pending : List Output}

theorem resume_sound (h : w.Begins item)
    (valid : ∀ o ∈ pending, o.Valid ∧ o.isData = false) :
    (resume w pending).Sound w.session.server.clientSocket where
  attached :=
    { serving := ⟨h.connected.serving.joining, h.connected.serving.flag, h.connected.serving.sized⟩
      own := rfl
      live := h.live }
  answering := ⟨h.connected.listed, by simp [resume, sends]⟩
  relayWrites := nofun
  receiveWrites := nofun
  escaped _ toWrite at_send := by
    refine ⟨item, h.sized, ?_⟩
    have whole := h.whole
    rw [show w.drain = .send toWrite from at_send] at whole
    exact whole
  framed buf mem := by
    obtain ⟨o, listed, rfl⟩ := List.mem_map.mp mem
    exact ⟨o, (valid o listed).1, (valid o listed).2, rfl⟩

theorem resume_delivers (h : w.Begins item) :
    (resume w pending).Delivers w.session.server.clientSocket (item ++ w.held) pending := by
  refine ⟨⟨h.connected.running, ?_⟩, [], ⟨nofun, rfl, rfl, ?_⟩⟩
  · have wire : (resume w pending).relay.unwritten = escapeIac (item ++ w.held) := by
      rw [escapeIac, Stuffing.double_append, ← escapeIac, ← h.whole]
      rfl
    have given : (resume w pending).relay.received = [] := rfl
    rw [wire, given, List.append_nil]
    rfl
  · rw [answersLeft_of_other (by simp [resume])]
    exact (List.append_nil _).symm

end SharedSocket

end Rocom.SerialPort
