import Rocom.Rfc2217.Options
import Rocom.Rfc2217.Wire

/-! The wire that two tasks share. Whatever a client sends, the receive thread only answers with
whole frames that are not data; the relay task sends data. In any order of their turns the client
reads the serial bytes as data and the answers as answers. -/
namespace Rocom.Rfc2217

variable {σ τ : Type}

def Output.isData : Output → Bool
  | .data _ => true
  | _ => false

/-- A buffer that the receive thread may give to `tcp_send`. -/
def IsAnswer (e : Event) : Prop := ∃ o : Output, o.Valid ∧ o.isData = false ∧ e = .send o.frame

theorem isAnswer_option {action : UInt8} (valid : isOptionAction action) (option : UInt8) :
    IsAnswer (.send [tIac, action, option]) := ⟨.option action option, valid, rfl, rfl⟩

theorem isAnswer_subnegotiation {command : UInt8} (other : command ≠ tIac) {value : List UInt8}
    (short : value.length ≤ 4) : IsAnswer (.send (subnegotiationBuf command value)) :=
  ⟨.subnegotiation command value, ⟨other, short⟩, rfl, rfl⟩

/-! ### The answers of the receive thread -/

theorem optionSends_answers {o : TelnetOption} (listed : o.defn ∈ optionDefs) (command : UInt8) :
    ∀ e ∈ optionSends o command, IsAnswer e := by
  have actions : ∀ d ∈ optionDefs, (d.sendYes = tWill ∨ d.sendYes = tDo) ∧
      (d.sendNo = tWont ∨ d.sendNo = tDont) := by decide
  obtain ⟨yes, no⟩ := actions o.defn listed
  intro e mem
  unfold optionSends at mem
  split at mem
  · rename_i action asked
    unfold sendIfAble at mem
    split at mem
    · rw [List.mem_singleton] at mem
      subst mem
      apply isAnswer_option
      rcases transitionAction_cases asked with rfl | rfl
      · rcases yes with h | h
        · exact .inl h
        · exact .inr (.inr (.inl h))
      · rcases no with h | h
        · exact .inr (.inl h)
        · exact .inr (.inr (.inr h))
    · cases mem
  · cases mem

theorem refusal_answers (command option : UInt8) : ∀ e ∈ refusal command option, IsAnswer e := by
  unfold refusal
  split
  · simpa using isAnswer_option (.inr (.inr (.inr rfl))) option
  split
  · simpa using isAnswer_option (.inr (.inl rfl)) option
  · simp

theorem negotiate_answers (cfg : Config σ) (s : Session σ) (command option : UInt8)
    (listed : definitions s.server = optionDefs) :
    ∃ es, sends (telnetNegotiateOption cfg s command option).trace = sends s.trace ++ es ∧
      ∀ e ∈ es, IsAnswer e := by
  refine ⟨_, sends_negotiateOne cfg s (command, option), ?_⟩
  split
  · intro e mem
    obtain ⟨o, ho, mem⟩ := List.mem_flatMap.mp mem
    have own : o.defn ∈ optionDefs := by
      rw [← listed]
      exact List.mem_map_of_mem ho
    split at mem
    · exact optionSends_answers own command e mem
    · cases mem
  · exact refusal_answers command option

theorem called_sends {f : Option (σ → UInt32 → UInt32 × σ)} {e : Event} (call : e.isSend = false) :
    sends (called f e) = [] := by
  unfold called
  split
  · simp [sends, call]
  · rfl

theorem sends_send (buf : List UInt8) : sends [.send buf] = [.send buf] := rfl

theorem baudrateAnswer_answers (cfg : Config σ) (ctx : σ) (rate : UInt32) :
    ∀ e ∈ sends (baudrateAnswer cfg ctx rate).events, IsAnswer e := by
  simp only [baudrateAnswer, sends_append, called_sends (rfl : (Event.baudrate rate).isSend = false),
    sends_send, List.nil_append, List.mem_singleton, forall_eq]
  exact isAnswer_subnegotiation (by decide) (by simp [baudrateBytes])

theorem controlAnswer_answers (cfg : Config σ) (ctx : σ) (value : UInt8) :
    ∀ e ∈ sends (controlAnswer cfg ctx value).events, IsAnswer e := by
  simp only [controlAnswer, sends_append,
    called_sends (rfl : (Event.control value.toUInt32).isSend = false), sends_send, List.nil_append,
    List.mem_singleton, forall_eq]
  exact isAnswer_subnegotiation (by decide) (by simp)

theorem purgeAnswer_answers (cfg : Config σ) (ctx : σ) (value : UInt8) :
    ∀ e ∈ sends (purgeAnswer cfg ctx value).events, IsAnswer e := by
  intro e mem
  simp only [purgeAnswer, sends_append,
    called_sends (rfl : (Event.purge value.toUInt32).isSend = false), sends_send, List.append_nil,
    List.mem_append, List.mem_singleton, or_self] at mem
  subst mem
  exact isAnswer_subnegotiation (by decide) (by simp)

theorem echoAnswer_answers (ctx : σ) {reply : UInt8} (other : reply ≠ tIac) (value : UInt8) :
    ∀ e ∈ sends (echoAnswer ctx reply value).events, IsAnswer e := by
  simp only [echoAnswer, sends_send, List.mem_singleton, forall_eq]
  exact isAnswer_subnegotiation other (by simp)

theorem answer_answers (cfg : Config σ) (ctx : σ) (sub : Vector UInt8 suboptionCapacity) :
    ∀ e ∈ sends (answer cfg ctx sub).events, IsAnswer e := by
  have nothing : ∀ e ∈ sends (⟨[], ctx⟩ : Answer σ).events, IsAnswer e := by simp [sends]
  unfold answer
  dsimp only
  split
  · exact nothing
  split
  · exact baudrateAnswer_answers cfg ctx _
  split
  · exact echoAnswer_answers ctx (by decide) _
  split
  · exact echoAnswer_answers ctx (by decide) _
  split
  · exact echoAnswer_answers ctx (by decide) _
  split
  · exact controlAnswer_answers cfg ctx _
  split
  · exact echoAnswer_answers ctx (by decide) _
  split
  · exact echoAnswer_answers ctx (by decide) _
  split
  · exact purgeAnswer_answers cfg ctx _
  · exact nothing

theorem parseStore_sends (cfg : Config σ) (s : Session σ) (c : UInt8) :
    sends (parseStore cfg s c).trace = sends s.trace := by
  unfold parseStore
  rw [onDataReceived_eq]
  split
  · rfl
  split
  · exact (sends_append _ _).trans (List.append_nil _)
  · rfl

theorem afterIac_sends (cfg : Config σ) (s : Session σ) (c : UInt8) :
    ∃ es, sends (afterIac cfg s c).trace = sends s.trace ++ es ∧ ∀ e ∈ es, IsAnswer e := by
  have quiet : ∀ t : List Event, sends t = sends t ++ [] := fun t => (List.append_nil _).symm
  unfold afterIac
  split
  · exact ⟨[], quiet _, by simp⟩
  split
  · refine ⟨_, ?_, answer_answers cfg s.ctx s.server.suboption⟩
    rw [processSubnegotiation_eq]
    simp only [Session.modify, Session.perform, Session.log, sends_append]
    exact congrArg (· ++ _) (List.append_nil _)
  split
  · exact ⟨[], quiet _, by simp⟩
  · exact ⟨[], sends_append s.trace [.telnetCommand c], by simp⟩

/-- One byte makes the receive thread send answers only. -/
theorem parseByte_sends (cfg : Config σ) (s : Session σ) (c : UInt8)
    (listed : definitions s.server = optionDefs) :
    ∃ es, sends (parseByte cfg s c).trace = sends s.trace ++ es ∧ ∀ e ∈ es, IsAnswer e := by
  have quiet : ∀ t : List Event, sends t = sends t ++ [] := fun t => (List.append_nil _).symm
  unfold parseByte
  cases s.server.telnetMode with
  | normal =>
    simp only
    split
    · exact ⟨[], quiet _, by simp⟩
    · exact ⟨[], (parseStore_sends cfg s c).trans (quiet _), by simp⟩
  | gotIac =>
    simp only
    split
    · exact ⟨[], (parseStore_sends cfg s c).trans (quiet _), by simp⟩
    · exact afterIac_sends cfg s c
  | negotiate => exact negotiate_answers cfg s s.server.telnetCommand c listed

/-- What holds of a session while it is fed: the table keeps its definitions and all that was
sent are answers. -/
structure Answering (s : Session σ) : Prop where
  listed : definitions s.server = optionDefs
  answers : ∀ e ∈ sends s.trace, IsAnswer e

theorem answering_parseByte (cfg : Config σ) (s : Session σ) (c : UInt8) (h : Answering s) :
    Answering (parseByte cfg s c) := by
  obtain ⟨es, sent, new⟩ := parseByte_sends cfg s c h.listed
  refine ⟨(definitions_parseByte cfg s c).trans h.listed, fun e mem => ?_⟩
  rw [sent] at mem
  rcases List.mem_append.mp mem with old | fresh
  · exact h.answers e old
  · exact new e fresh

theorem sends_replies (t : List Event) : sends (replies t) = sends t := by
  rw [sends, replies, List.filter_filter, sends]
  apply List.filter_congr
  intro e _
  cases e <;> rfl

theorem answering_process (cfg : Config σ) (s : Session σ) (chunk : List UInt8)
    (h : Answering s) : Answering (processReceivedOverTcp cfg s chunk) := by
  refine ⟨(definitions_process cfg s chunk).trans h.listed, ?_⟩
  by_cases fast : fastPath s.server chunk
  · rw [processReceivedOverTcp, if_pos fast]
    have same : sends (onDataReceived cfg s chunk).trace = sends s.trace := by
      rw [onDataReceived_eq]
      split
      · exact (sends_append _ _).trans (List.append_nil _)
      · rfl
    rw [same]
    exact h.answers
  · have same := process_outcome cfg (rfl : outcome s = outcome s) fun diverted => fast diverted.1
    have parsed : Answering (parse cfg s chunk) :=
      Runs.invariant (answering_parseByte cfg) s h chunk
    rw [← sends_replies, replies_of_outcome same, sends_replies]
    exact parsed.answers

/-- On every connection, whatever the client sends. -/
theorem receive_answers (cfg : Config σ) (s : Session σ) (chunks : List (List UInt8)) :
    ∀ e ∈ sends (receive cfg (newConnection s) chunks).trace, IsAnswer e := by
  have start : Answering (startConnection (newConnection s)) :=
    ⟨rfl, by simp [sends, newConnection, startConnection, Session.modify]⟩
  exact (Runs.invariant (answering_process cfg) _ start chunks).answers

/-! ### Both tasks -/

theorem meanings_cons (o : Output) (os : List Output) :
    meanings (o :: os) = o.meaning.append (meanings os) := rfl

theorem meanings_single (o : Output) : meanings [o] = o.meaning := Decoded.append_empty _

theorem meanings_append (os ps : List Output) :
    meanings (os ++ ps) = (meanings os).append (meanings ps) := by
  induction os with
  | nil => rfl
  | cons o os ih => rw [List.cons_append, meanings_cons, meanings_cons, ih, Decoded.append_assoc]

/-- A frame says what its bytes say, whichever output it is the frame of. -/
theorem meaning_of_frame {o p : Output} (valid : o.Valid) (valid' : p.Valid)
    (same : o.frame = p.frame) : o.meaning = p.meaning := by
  have reads (q : Output) (hq : q.Valid) :
      decoded (parse relayConfig (newConnection (rfc2217ServerCreate ())) q.frame).trace =
        q.meaning :=
    (parse_frame relayConfig rfl (newConnection (rfc2217ServerCreate ())) ⟨rfl, rfl⟩ q hq).2
  rw [← reads o valid, ← reads p valid', same]

theorem meanings_of_frames {os ps : List Output} (valid : ∀ o ∈ os, o.Valid)
    (valid' : ∀ p ∈ ps, p.Valid) (same : os.map Output.frame = ps.map Output.frame) :
    meanings os = meanings ps := by
  induction os generalizing ps with
  | nil => rw [List.map_eq_nil_iff.mp same.symm]
  | cons o os ih =>
    obtain ⟨p, rest, rfl, first, others⟩ := List.map_eq_cons_iff.mp same.symm
    rw [meanings_cons, meanings_cons, ih (fun o ho => valid o (List.mem_cons_of_mem _ ho))
      (fun p hp => valid' p (List.mem_cons_of_mem _ hp)) others.symm,
      meaning_of_frame (valid o List.mem_cons_self) (valid' p List.mem_cons_self) first.symm]

/-- What is read of data is what was sent as data, and of answers what was sent as answers. -/
theorem meanings_parts (os : List Output) :
    (meanings os).data = (meanings (os.filter (·.isData))).data ∧
      (meanings os).negotiations = (meanings (os.filter fun o => !o.isData)).negotiations ∧
      (meanings os).bodies = (meanings (os.filter fun o => !o.isData)).bodies := by
  induction os with
  | nil => exact ⟨rfl, rfl, rfl⟩
  | cons o os ih =>
    obtain ⟨data, negotiations, bodies⟩ := ih
    cases o <;>
      simp [meanings_cons, Output.isData, Output.meaning, Decoded.append, data, negotiations, bodies]

theorem meanings_data (payloads : List (List UInt8)) :
    (meanings (payloads.map .data)).data = payloads.flatten := by
  induction payloads with
  | nil => rfl
  | cons payload payloads ih =>
    rw [List.map_cons, meanings_cons, List.flatten_cons, ← ih]
    rfl

theorem exists_outputs {β : Type} {f : Output → β} {xs : List β}
    (each : ∀ x ∈ xs, ∃ o : Output, o.Valid ∧ o.isData = false ∧ x = f o) :
    ∃ os : List Output, xs = os.map f ∧ ∀ o ∈ os, o.Valid ∧ o.isData = false := by
  induction xs with
  | nil => exact ⟨[], rfl, by simp⟩
  | cons x xs ih =>
    obtain ⟨o, valid, answer, rfl⟩ := each x List.mem_cons_self
    obtain ⟨os, rfl, rest⟩ := ih fun y mem => each y (List.mem_cons_of_mem _ mem)
    refine ⟨o :: os, rfl, ?_⟩
    intro p mem
    rcases List.mem_cons.mp mem with rfl | mem
    · exact ⟨valid, answer⟩
    · exact rest p mem

/-- The frames of the two tasks in the order in which they got the mutex. -/
structure Turns (serial : List (List UInt8)) (answers turns : List Output) : Prop where
  serial : turns.filter (·.isData) = serial.map .data
  answers : turns.filter (fun o => !o.isData) = answers

theorem sendData_frame (s : Session σ) (live : Live s.server) {payload : List UInt8}
    (short : payload.length ≤ 1024) :
    rfc2217ServerSendData s payload = .ok (tcpSend s (Output.data payload).frame, 0) := by
  have room : ([] : List UInt8).length + 2 * payload.length ≤ sendDataCapacity := by
    simp only [List.length_nil, sendDataCapacity]
    omega
  have small : ¬ sendDataCapacity / 2 < payload.length := Nat.not_lt.mpr short
  rw [rfc2217ServerSendData, if_neg (Int.not_lt.mpr live.socket), if_neg live.thread, if_neg small,
    copyEscaped_ok [] payload room]
  rfl

/-- A client may send anything and the two tasks may take turns in any order: what the server puts
on the wire are whole frames, the client reads the serial payloads as its data, complete and in
order, and everything else it reads are the answers of the receive thread. -/
theorem shared_wire (cfg : Config σ) (s : Session σ) (live : Live s.server)
    (chunks serial : List (List UInt8)) (short : ∀ payload ∈ serial, payload.length ≤ 1024)
    (client : Config τ) (reports : client.onDataReceived.isSome = true) (r : Session τ) :
    (∀ payload ∈ serial, rfc2217ServerSendData s payload =
      .ok (tcpSend s (Output.data payload).frame, 0)) ∧
    ∃ answers : List Output,
      sends (receive cfg (newConnection s) chunks).trace = answers.map (fun o => .send o.frame) ∧
      ∀ turns, Turns serial answers turns →
        let read := parse client (newConnection r) (turns.flatMap Output.frame)
        Idle read.server ∧
          decoded read.trace =
            ⟨serial.flatten, (meanings answers).negotiations, (meanings answers).bodies⟩ := by
  obtain ⟨answers, sent, valid⟩ :=
    exists_outputs (f := fun o => Event.send o.frame) (receive_answers cfg s chunks)
  refine ⟨fun payload mem => sendData_frame s live (short payload mem), answers, sent, ?_⟩
  intro turns h read
  have whole : ∀ o ∈ turns, o.Valid := by
    intro o mem
    cases kind : o.isData with
    | true =>
      have mine : o ∈ serial.map .data := by
        rw [← h.serial]
        exact List.mem_filter.mpr ⟨mem, kind⟩
      obtain ⟨payload, listed, rfl⟩ := List.mem_map.mp mine
      exact short payload listed
    | false =>
      have mine : o ∈ answers := by
        rw [← h.answers]
        exact List.mem_filter.mpr ⟨mem, by rw [kind]; rfl⟩
      exact (valid o mine).1
  obtain ⟨idle, decodes⟩ := parse_frames client reports (newConnection r) ⟨rfl, rfl⟩ turns whole
  obtain ⟨data, negotiations, bodies⟩ := meanings_parts turns
  rw [h.serial, meanings_data] at data
  rw [h.answers] at negotiations bodies
  refine ⟨idle, decodes.trans ?_⟩
  ext1
  · exact data
  · exact negotiations
  · exact bodies

/-- A serial payload with an IAC between the two frames that answer a client's WILL and its
request. -/
theorem shared_wire_between :
    (∀ payload ∈ [[0xff, 1]], rfc2217ServerSendData liveSession payload =
      .ok (tcpSend liveSession (Output.data payload).frame, 0)) ∧
    ∃ answers : List Output,
      sends (receive relayConfig (newConnection liveSession)
          [[tIac, tWill, tComPortOption],
            [tIac, tSb, tComPortOption, tSetControl, 8, tIac, tSe]]).trace =
        answers.map (fun o => .send o.frame) ∧
      ∀ turns, Turns [[0xff, 1]] answers turns →
        let read := parse relayConfig (newConnection liveSession) (turns.flatMap Output.frame)
        Idle read.server ∧
          decoded read.trace =
            ⟨[[0xff, 1]].flatten, (meanings answers).negotiations, (meanings answers).bodies⟩ :=
  shared_wire relayConfig liveSession ⟨by decide, by decide⟩
    [[tIac, tWill, tComPortOption], [tIac, tSb, tComPortOption, tSetControl, 8, tIac, tSe]]
    [[0xff, 1]] (by simp) relayConfig rfl liveSession

end Rocom.Rfc2217
