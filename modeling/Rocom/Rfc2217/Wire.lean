import Rocom.Rfc2217.Reachable
import Rocom.Rfc2217.Suboption

/-! The outgoing wire format. Each encoder writes one frame that takes the byte machine
from its idle state back to it, so a stream of frames is decoded frame by frame. -/
namespace Rocom.Rfc2217

variable {σ τ : Type}

def Event.negotiated : Event → List (UInt8 × UInt8)
  | .negotiate command option => [(command, option)]
  | _ => []

def Event.body : Event → List (List UInt8)
  | .subnegotiation body => [body]
  | _ => []

def Event.sent : Event → List UInt8
  | .send buf => buf
  | _ => []

def sentBytes (t : List Event) : List UInt8 := t.flatMap Event.sent

@[simp] theorem sentBytes_append (t u : List Event) :
    sentBytes (t ++ u) = sentBytes t ++ sentBytes u := List.flatMap_append

@[simp] theorem sentBytes_send (buf : List UInt8) : sentBytes [.send buf] = buf := by
  simp [sentBytes, Event.sent]

/-- What the byte machine made of a stream: data, negotiations, subnegotiation bodies. -/
@[ext] structure Decoded where
  data : List UInt8
  negotiations : List (UInt8 × UInt8)
  bodies : List (List UInt8)
deriving DecidableEq

def Decoded.append (a b : Decoded) : Decoded :=
  ⟨a.data ++ b.data, a.negotiations ++ b.negotiations, a.bodies ++ b.bodies⟩

def Decoded.empty : Decoded := ⟨[], [], []⟩

@[simp] theorem Decoded.append_empty (a : Decoded) : a.append .empty = a := by
  simp [append, empty]

theorem Decoded.append_assoc (a b c : Decoded) :
    (a.append b).append c = a.append (b.append c) := by
  simp [append]

def decoded (t : List Event) : Decoded :=
  ⟨receivedBytes t, (calls t).flatMap Event.negotiated, (calls t).flatMap Event.body⟩

@[simp] theorem decoded_append (t u : List Event) :
    decoded (t ++ u) = (decoded t).append (decoded u) := by
  simp [decoded, Decoded.append]

/-- Callbacks and sends are not part of what was decoded. -/
theorem decoded_replies {es : List Event} (h : ∀ e ∈ es, e.isReply = true) :
    decoded es = .empty := by
  induction es with
  | nil => rfl
  | cons e es ih =>
    have he := h e List.mem_cons_self
    have rest := ih fun e he => h e (List.mem_cons_of_mem _ he)
    have one : decoded [e] = .empty := by cases e <;> first | rfl | cases he
    rw [← List.singleton_append, decoded_append, one, rest]
    rfl

/-- A handler that logs its entry `e` and then only replies. -/
theorem decoded_handler {f : Session σ → Session σ} (hf : Appends Event.isReply f)
    (s : Session σ) (e : Event) :
    decoded (f (s.log e)).trace = (decoded s.trace).append (decoded [e]) := by
  obtain ⟨es, hes, htrace⟩ := hf.trace (s.log e)
  rw [htrace, decoded_append, decoded_replies hes, Decoded.append_empty]
  exact decoded_append s.trace [e]

/-! One frame of each encoder. -/

theorem decoded_data (cfg : Config σ) (reports : cfg.onDataReceived.isSome = true) (s : Session σ)
    (idle : Idle s.server) (payload : List UInt8) :
    Idle (parse cfg s (escapeIac payload)).server ∧
      decoded (parse cfg s (escapeIac payload)).trace =
        (decoded s.trace).append ⟨payload, [], []⟩ := by
  have h := store_idle cfg s idle.collecting payload
  rw [parse_escaped cfg s idle.mode payload]
  simp only [outcome, Outcome.receive, reports, if_true, Outcome.mk.injEq] at h
  obtain ⟨hserver, _, hreceived, hcalls⟩ := h
  refine ⟨hserver ▸ idle, ?_⟩
  simp [decoded, Decoded.append, hreceived, hcalls]

def isOptionAction (action : UInt8) : Prop :=
  action = tWill ∨ action = tWont ∨ action = tDo ∨ action = tDont

theorem parse_option (cfg : Config σ) (s : Session σ) (mode : s.server.telnetMode = .normal)
    {action : UInt8} (valid : isOptionAction action) (option : UInt8) :
    parse cfg s [tIac, action, option] =
      (telnetNegotiateOption cfg
        (s.modify fun server => { server with telnetCommand := action, telnetMode := .negotiate })
        action option).setMode .normal := by
  have first : parseByte cfg s tIac = s.setMode .gotIac := by simp only [parseByte, mode, if_true]
  have second : parseByte cfg (s.setMode .gotIac) action =
      s.modify fun server => { server with telnetCommand := action, telnetMode := .negotiate } := by
    rcases valid with rfl | rfl | rfl | rfl <;> rfl
  simp only [parse, List.foldl_cons, List.foldl_nil, first, second]
  rfl

theorem decoded_option (cfg : Config σ) (s : Session σ) (idle : Idle s.server)
    {action : UInt8} (valid : isOptionAction action) (option : UInt8) :
    Idle (parse cfg s [tIac, action, option]).server ∧
      decoded (parse cfg s [tIac, action, option]).trace =
        (decoded s.trace).append ⟨[], [(action, option)], []⟩ := by
  rw [parse_option cfg s idle.mode valid]
  constructor
  · obtain ⟨_, _, h⟩ := telnetNegotiateOption_server cfg
      (s.modify fun server => { server with telnetCommand := action, telnetMode := .negotiate })
      action option
    refine ⟨rfl, ?_⟩
    simp only [Session.setMode, Session.modify] at h ⊢
    rw [h]
    exact idle.collecting
  · rw [telnetNegotiateOption_eq]
    exact decoded_handler ((appends_negotiateOn cfg action option _).mono
      Event.isReply_of_isNotice) _ (.negotiate action option)

theorem decoded_subnegotiation (cfg : Config σ) (s : Session σ) (idle : Idle s.server)
    (body : List UInt8) (fits : body.length ≤ suboptionCapacity) :
    Idle (parse cfg s ([tIac, tSb] ++ escapeIac body ++ [tIac, tSe])).server ∧
      decoded (parse cfg s ([tIac, tSb] ++ escapeIac body ++ [tIac, tSe])).trace =
        (decoded s.trace).append ⟨[], [], [body]⟩ := by
  obtain ⟨v, _, h⟩ := parse_fitting cfg s idle.mode body fits
  rw [h]
  refine ⟨⟨rfl, rfl⟩, ?_⟩
  rw [decoded_append, decoded_append, decoded_replies (answer_replies cfg s.ctx v),
    Decoded.append_empty]
  rfl

/-! The copy loop of `rfc2217_server_send_data`. -/

theorem storeSendData_ok (stored : List UInt8) (c : UInt8)
    (room : stored.length < sendDataCapacity) :
    storeSendData stored c = .ok (stored ++ [c]) := if_pos room

theorem copyEscaped_ok (stored data : List UInt8)
    (room : stored.length + 2 * data.length ≤ sendDataCapacity) :
    copyEscaped stored data = .ok (stored ++ escapeIac data) := by
  induction data generalizing stored with
  | nil => simp [copyEscaped, escapeIac]
  | cons c data ih =>
    rw [List.length_cons] at room
    have first := storeSendData_ok stored c (by omega)
    by_cases hc : c = tIac
    · subst hc
      have second := storeSendData_ok (stored ++ [tIac]) tIac
        (by rw [List.length_append, List.length_singleton]; omega)
      have rest := ih (stored ++ [tIac] ++ [tIac])
        (by simp only [List.length_append, List.length_singleton]; omega)
      rw [escapeIac, Stuffing.double_cons_self]
      simp only [copyEscaped, first, second, if_true, bind, Except.bind]
      rw [rest]
      simp [escapeIac]
    · have rest := ih (stored ++ [c])
        (by rw [List.length_append, List.length_singleton]; omega)
      rw [escapeIac, Stuffing.double_cons_of_ne hc]
      simp only [copyEscaped, first, if_neg hc, bind, Except.bind]
      rw [rest]
      simp [escapeIac]

/-! The server's outputs. -/

inductive Output where
  | data (payload : List UInt8)
  | option (action opt : UInt8)
  | subnegotiation (command : UInt8) (value : List UInt8)
deriving DecidableEq, Repr

def Output.Valid : Output → Prop
  | .data payload => payload.length ≤ 1024
  | .option action _ => isOptionAction action
  | .subnegotiation command value => command ≠ tIac ∧ value.length ≤ 4

def Output.emit (s : Session σ) : Output → Except Fault (Session σ)
  | .data payload => do
    let (s, _) ← rfc2217ServerSendData s payload
    .ok s
  | .option action opt => .ok (telnetSendOption s action opt)
  | .subnegotiation command value => .ok (rfc2217SendSubnegotiation s command value)

def emitAll (s : Session σ) : List Output → Except Fault (Session σ)
  | [] => .ok s
  | o :: os => do
    let s ← o.emit s
    emitAll s os

/-- What the client should read from one output. -/
def Output.meaning : Output → Decoded
  | .data payload => ⟨payload, [], []⟩
  | .option action opt => ⟨[], [(action, opt)], []⟩
  | .subnegotiation command value => ⟨[], [], [[tComPortOption, command] ++ value]⟩

def meanings (os : List Output) : Decoded := (os.map Output.meaning).foldr Decoded.append .empty

/-- A client is connected and its receive thread runs. -/
structure Live (server : Server) : Prop where
  socket : 0 ≤ server.clientSocket
  thread : server.tcpReceiveThread ≠ 0

def Output.frame : Output → List UInt8
  | .data payload => escapeIac payload
  | .option action opt => [tIac, action, opt]
  | .subnegotiation command value => subnegotiationBuf command value

theorem emit_frame (s : Session σ) (live : Live s.server) (o : Output) (valid : o.Valid) :
    o.emit s = .ok (tcpSend s o.frame) := by
  cases o with
  | data payload =>
    simp only [Output.Valid] at valid
    have room : 0 + 2 * payload.length ≤ sendDataCapacity := by
      simp only [sendDataCapacity]
      omega
    have copied := copyEscaped_ok [] payload room
    have small : ¬ sendDataCapacity / 2 < payload.length := Nat.not_lt.mpr valid
    simp only [Output.emit, rfc2217ServerSendData, if_neg (Int.not_lt.mpr live.socket),
      if_neg live.thread, if_neg small, copied, bind, Except.bind, List.nil_append]
    rfl
  | option action opt => rfl
  | subnegotiation command value => rfl

theorem emitAll_frames (s : Session σ) (live : Live s.server) (os : List Output)
    (valid : ∀ o ∈ os, o.Valid) :
    emitAll s os = .ok (os.foldl (fun s o => tcpSend s o.frame) s) := by
  induction os generalizing s with
  | nil => rfl
  | cons o os ih =>
    simp only [emitAll, emit_frame s live o (valid o List.mem_cons_self), bind, Except.bind]
    exact ih (tcpSend s o.frame) live fun o ho => valid o (List.mem_cons_of_mem _ ho)

theorem sentBytes_frames (s : Session σ) (os : List Output) :
    sentBytes (os.foldl (fun s o => tcpSend s o.frame) s).trace =
      sentBytes s.trace ++ os.flatMap Output.frame := by
  induction os generalizing s with
  | nil => simp
  | cons o os ih =>
    rw [List.foldl_cons, ih]
    simp [tcpSend, Session.log]

theorem subnegotiationBuf_eq {command : UInt8} (other : command ≠ tIac) (value : List UInt8) :
    subnegotiationBuf command value =
      [tIac, tSb] ++ escapeIac ([tComPortOption, command] ++ value) ++ [tIac, tSe] := by
  simp only [subnegotiationBuf, escapeIac, Stuffing.double_append]
  rw [Stuffing.double_cons_of_ne (by decide), Stuffing.double_cons_of_ne other]
  rfl

theorem parse_frame (cfg : Config σ) (reports : cfg.onDataReceived.isSome = true) (s : Session σ)
    (idle : Idle s.server) (o : Output) (valid : o.Valid) :
    Idle (parse cfg s o.frame).server ∧
      decoded (parse cfg s o.frame).trace = (decoded s.trace).append o.meaning := by
  cases o with
  | data payload => exact decoded_data cfg reports s idle payload
  | option action opt => exact decoded_option cfg s idle valid opt
  | subnegotiation command value =>
    have h := valid.2
    rw [Output.frame, subnegotiationBuf_eq valid.1]
    exact decoded_subnegotiation cfg s idle _ (by
      simp only [List.length_append, List.length_cons, List.length_nil, suboptionCapacity]
      omega)

theorem parse_frames (cfg : Config σ) (reports : cfg.onDataReceived.isSome = true) (s : Session σ)
    (idle : Idle s.server) (os : List Output) (valid : ∀ o ∈ os, o.Valid) :
    Idle (parse cfg s (os.flatMap Output.frame)).server ∧
      decoded (parse cfg s (os.flatMap Output.frame)).trace =
        (decoded s.trace).append (meanings os) := by
  induction os generalizing s with
  | nil => exact ⟨idle, (Decoded.append_empty _).symm⟩
  | cons o os ih =>
    obtain ⟨hidle, hone⟩ := parse_frame cfg reports s idle o (valid o List.mem_cons_self)
    obtain ⟨hend, hrest⟩ := ih _ hidle fun o ho => valid o (List.mem_cons_of_mem _ ho)
    rw [List.flatMap_cons, parse_append]
    refine ⟨hend, ?_⟩
    rw [hrest, hone, Decoded.append_assoc]
    rfl

/-- Whatever the server sends to a live client decodes to what was sent, and the copy of
`send_data` stays inside its buffer: no fault is raised. -/
theorem wire_decodes (s : Session σ) (live : Live s.server) (os : List Output)
    (valid : ∀ o ∈ os, o.Valid) (cfg : Config τ) (reports : cfg.onDataReceived.isSome = true)
    (r : Session τ) :
    ∃ s' wire, emitAll s os = .ok s' ∧ sentBytes s'.trace = sentBytes s.trace ++ wire ∧
      decoded (processReceivedOverTcp cfg (newConnection r) wire).trace = meanings os ∧
      Idle (processReceivedOverTcp cfg (newConnection r) wire).server := by
  refine ⟨_, os.flatMap Output.frame, emitAll_frames s live os valid, sentBytes_frames s os, ?_⟩
  have start : Idle (newConnection r).server := ⟨rfl, rfl⟩
  obtain ⟨hidle, hdecoded⟩ := parse_frames cfg reports (newConnection r) start os valid
  have direct : ¬ Diverted (newConnection r).server (os.flatMap Output.frame) :=
    fun h => Bool.false_ne_true h.2
  have same := process_outcome cfg (rfl : outcome (newConnection r) = _) direct
  simp only [outcome, Outcome.mk.injEq] at same
  obtain ⟨hserver, _, hreceived, hcalls⟩ := same
  refine ⟨?_, hserver ▸ hidle⟩
  rw [decoded, hreceived, hcalls]
  exact hdecoded

/-- A session whose client is connected. -/
def liveSession : Session Unit :=
  (rfc2217ServerCreate ()).modify fun server =>
    { server with clientSocket := 3, tcpReceiveThread := 1 }

theorem wire_decodes_mixed :
    ∃ s' wire, emitAll liveSession [.data [0xff, 1], .option tWill tComPortOption,
        .subnegotiation tServerSetBaudrate [0xff, 0, 0, 1]] = .ok s' ∧
      sentBytes s'.trace = sentBytes liveSession.trace ++ wire ∧
      decoded (processReceivedOverTcp relayConfig (newConnection liveSession) wire).trace =
        ⟨[0xff, 1], [(tWill, tComPortOption)], [[tComPortOption, tServerSetBaudrate, 0xff, 0, 0, 1]]⟩ ∧
      Idle (processReceivedOverTcp relayConfig (newConnection liveSession) wire).server :=
  wire_decodes liveSession ⟨by decide, by decide⟩ _
    (by simp [Output.Valid, isOptionAction]; decide) relayConfig rfl liveSession

end Rocom.Rfc2217
