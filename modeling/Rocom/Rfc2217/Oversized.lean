import Rocom.Rfc2217.Reachable
import Rocom.Rfc2217.Suboption

/-! Frames whose body is longer than the suboption buffer. The seventeenth byte ends the
collection but not the frame: the rest is read as data and IAC SE as a complete request. -/
namespace Rocom.Rfc2217

variable {σ : Type}

/-- `s'` is idle and has received `data` and made the replies `es` since `s`. -/
structure Adds (cfg : Config σ) (s s' : Session σ) (data : List UInt8) (es : List Event) :
    Prop where
  received : receivedBytes s'.trace =
    receivedBytes s.trace ++ if cfg.onDataReceived.isSome then data else []
  replied : replies s'.trace = replies s.trace ++ es
  idle : Idle s'.server

theorem Adds.trans {cfg : Config σ} {s s' s'' : Session σ} {data data' : List UInt8}
    {es es' : List Event} (h : Adds cfg s s' data es) (h' : Adds cfg s' s'' data' es') :
    Adds cfg s s'' (data ++ data') (es ++ es') := by
  refine ⟨?_, ?_, h'.idle⟩
  · rw [h'.received, h.received, List.append_assoc]
    cases cfg.onDataReceived.isSome <;> rfl
  · rw [h'.replied, h.replied, List.append_assoc]

theorem Adds.of_outcome {cfg : Config σ} {s s' s'' : Session σ} {data : List UInt8}
    {es : List Event} (h : Adds cfg s s' data es) (same : outcome s'' = outcome s') :
    Adds cfg s s'' data es := by
  have server : s''.server = s'.server := congrArg Outcome.server same
  have received : receivedBytes s''.trace = receivedBytes s'.trace :=
    congrArg Outcome.received same
  exact ⟨received.trans h.received, (replies_of_outcome same).trans h.replied, server ▸ h.idle⟩

/-- Outside a subnegotiation IAC SE answers whatever the buffer holds. -/
theorem adds_unopened (cfg : Config σ) (s : Session σ) (idle : Idle s.server)
    (data : List UInt8) :
    Adds cfg s (parse cfg s (escapeIac data ++ [tIac, tSe])) data
      (answer cfg s.ctx s.server.suboption).events := by
  have stored := store_idle cfg s idle.collecting data
  rw [parse_append, parse_escaped cfg s idle.mode]
  generalize data.foldl (parseStore cfg) s = t at stored ⊢
  simp only [outcome, Outcome.receive, Outcome.mk.injEq] at stored
  obtain ⟨hserver, hctx, hreceived, hcalls⟩ := stored
  have answered := answer_replies cfg t.ctx t.server.suboption
  have silent := receivedBytes_of_calls fun e he => Event.isCall_of_isReply (answered e he)
  have replied : replies t.trace = replies s.trace := by
    rw [← replies_calls t.trace, hcalls, replies_calls]
  rw [parse_iacSe cfg t (hserver ▸ idle.mode), ← hctx, ← hserver]
  refine ⟨?_, ?_, rfl, rfl⟩
  · simp only [endSubnegotiation, receivedBytes_append, hreceived, silent, List.append_nil]
    exact List.append_nil _
  · simp only [endSubnegotiation, replies_append, replied, replies_of_replies answered]
    exact congrArg (· ++ _) (List.append_nil _)

/-- The seventeenth byte is dropped and leaves the first sixteen in the buffer. -/
theorem adds_oversized (cfg : Config σ) (s : Session σ) (idle : Idle s.server)
    (first : List UInt8) (full : first.length = suboptionCapacity) (c : UInt8)
    (rest : List UInt8) :
    ∃ es, (es = [] ↔ ¬ IsRequest first) ∧
      Adds cfg s (parse cfg s ([tIac, tSb] ++ escapeIac (first ++ c :: rest) ++ [tIac, tSe]))
        rest es := by
  obtain ⟨v, hfold, hbody⟩ := store_fits cfg (beginSubnegotiation s) first rfl
    (by simp [beginSubnegotiation, Session.modify, full])
  have held : v.toList = first := by
    have h : v.toList.take first.length = first := by
      simpa [beginSubnegotiation, Session.modify, bodyOf] using hbody
    rwa [List.take_of_length_le (by rw [Vector.length_toList, full])] at h
  let t : Session σ :=
    ⟨{ s.server with
        suboption := v, suboptionSize := 0, collectingSuboption := false, telnetMode := .normal },
      s.ctx, s.trace⟩
  have opened : parse cfg s ([tIac, tSb] ++ escapeIac (first ++ [c])) = t := by
    rw [parse_append, parse_iacSb cfg s idle.mode, parse_escaped _ _ rfl, List.foldl_append, hfold]
    simp [beginSubnegotiation, Session.modify, full, parseStore, collectSuboption, t]
  have split : [tIac, tSb] ++ escapeIac (first ++ c :: rest) ++ [tIac, tSe] =
      ([tIac, tSb] ++ escapeIac (first ++ [c])) ++ (escapeIac rest ++ [tIac, tSe]) := by
    have cut : first ++ c :: rest = (first ++ [c]) ++ rest := by simp
    rw [cut, escapeIac, Stuffing.double_append]
    simp [escapeIac]
  have closed := adds_unopened cfg t ⟨rfl, rfl⟩ rest
  refine ⟨(answer cfg s.ctx v).events, held ▸ answer_nothing cfg s.ctx v, ?_⟩
  rw [split, parse_append, opened]
  exact ⟨closed.received, closed.replied, closed.idle⟩

/-! In the other two modes the first IAC ends the pending command, and what follows is data. -/

theorem adds_escaped_iac (cfg : Config σ) (s : Session σ)
    (mode : s.server.telnetMode = .gotIac) (outside : s.server.collectingSuboption = false) :
    Adds cfg s (parseByte cfg s tIac) [tIac] [] ∧
      (parseByte cfg s tIac).server.suboption = s.server.suboption := by
  have step : parseByte cfg s tIac = (onDataReceived cfg s [tIac]).setMode .normal := by
    simp only [parseByte, mode, if_true, parseStore, outside, Bool.false_eq_true, if_false]
  rw [step]
  cases h : cfg.onDataReceived.isSome <;>
    exact ⟨⟨by simp [onDataReceived_eq, h, Session.setMode, Session.modify, Session.log],
      by simp [onDataReceived_eq, h, Session.setMode, Session.modify, Session.log, replies,
        Event.isReply],
      ⟨rfl, by simp [onDataReceived_eq, h, Session.setMode, Session.modify, Session.log, outside]⟩⟩,
      by simp [onDataReceived_eq, h, Session.setMode, Session.modify, Session.log]⟩

theorem adds_negotiated_iac (cfg : Config σ) (s : Session σ) (reached : Reached cfg s)
    (mode : s.server.telnetMode = .negotiate) (outside : s.server.collectingSuboption = false) :
    Adds cfg s (parseByte cfg s tIac) [] (refusal s.server.telnetCommand tIac) ∧
      (parseByte cfg s tIac).server.suboption = s.server.suboption := by
  have unknown : ∀ o ∈ s.server.telnetOptions, forOption tIac o = false := by
    have defined : ∀ d ∈ optionDefs, d.option ≠ tIac := by decide
    intro o ho
    have listed : o.defn ∈ optionDefs := by
      rw [← reached_definitions cfg s reached]
      exact List.mem_map_of_mem ho
    simpa [forOption] using defined o.defn listed
  have step : parseByte cfg s tIac =
      ⟨{ s.server with telnetMode := .normal }, s.ctx,
        s.trace ++ [.negotiate s.server.telnetCommand tIac] ++
          refusal s.server.telnetCommand tIac⟩ := by
    simp only [parseByte, mode]
    rw [telnetNegotiateOption_unknown cfg s _ _ unknown, refuseUnknown_refusal]
    rfl
  have sent := refusal_replies s.server.telnetCommand tIac
  have silent := receivedBytes_of_calls fun e he => Event.isCall_of_isReply (sent e he)
  rw [step]
  refine ⟨⟨?_, ?_, rfl, outside⟩, rfl⟩
  · rw [receivedBytes_append, receivedBytes_append, silent, ite_self, List.append_nil]
    rfl
  · rw [replies_append, replies_append, replies_of_replies sent]
    exact congrArg (· ++ _) (List.append_nil _)

/-- A frame whose first IAC belongs to a pending command. -/
theorem adds_misread (cfg : Config σ) (s : Session σ) {d : List UInt8} {es : List Event}
    (first : Adds cfg s (parseByte cfg s tIac) d es)
    (same : (parseByte cfg s tIac).server.suboption = s.server.suboption) (body : List UInt8) :
    ∃ fs, (fs = [] ↔ ¬ IsRequest s.server.suboption.toList) ∧
      Adds cfg s (parse cfg s ([tIac, tSb] ++ escapeIac body ++ [tIac, tSe]))
        (d ++ tSb :: body) (es ++ fs) := by
  refine ⟨_, answer_nothing cfg (parseByte cfg s tIac).ctx s.server.suboption, ?_⟩
  have plain : [tIac, tSb] ++ escapeIac body ++ [tIac, tSe] =
      tIac :: (escapeIac (tSb :: body) ++ [tIac, tSe]) := by
    rw [escapeIac, escapeIac, Stuffing.double_cons_of_ne (by decide)]
    rfl
  have rest := adds_unopened cfg (parseByte cfg s tIac) first.idle (tSb :: body)
  rw [same] at rest
  rw [plain, parse, List.foldl_cons]
  exact first.trans rest

/-- Nothing of the frame reaches a callback or the client, and it leaves the parser idle. -/
structure Discards (cfg : Config σ) (s : Session σ) (frame : List UInt8) : Prop where
  noData : receivedBytes (processReceivedOverTcp cfg s frame).trace = receivedBytes s.trace
  noReply : replies (processReceivedOverTcp cfg s frame).trace = replies s.trace
  idle : Idle (processReceivedOverTcp cfg s frame).server

theorem discards_iff {cfg : Config σ} {s : Session σ} {frame data : List UInt8}
    {es : List Event} (outside : s.server.collectingSuboption = false)
    (h : Adds cfg s (parse cfg s frame) data es) :
    Discards cfg s frame ↔ (cfg.onDataReceived.isSome = false ∨ data = []) ∧ es = [] := by
  have direct : ¬ Diverted s.server frame := fun h => Bool.eq_false_iff.mp outside h.2
  have done := h.of_outcome (process_outcome cfg rfl direct)
  constructor
  · intro quiet
    have data := quiet.noData
    have reply := quiet.noReply
    rw [done.received, List.append_right_eq_self] at data
    rw [done.replied, List.append_right_eq_self] at reply
    refine ⟨?_, reply⟩
    cases on : cfg.onDataReceived.isSome with
    | false => exact .inl rfl
    | true => exact .inr (by simpa [on] using data)
  · rintro ⟨silent, rfl⟩
    refine ⟨?_, ?_, done.idle⟩
    · rw [done.received, List.append_right_eq_self]
      rcases silent with off | rfl
      · rw [off]; rfl
      · exact ite_self _
    · rw [done.replied, List.append_nil]

/-- When an oversized frame is discarded. In the last two modes its first IAC ends the
pending command, so that no subnegotiation is opened. -/
def Discardable (cfg : Config σ) (server : Server) (body : List UInt8) : Prop :=
  match server.telnetMode with
  | .normal =>
    (cfg.onDataReceived.isSome = false ∨ body.length = suboptionCapacity + 1) ∧ ¬ IsRequest body
  | .gotIac => cfg.onDataReceived.isSome = false ∧ ¬ IsRequest server.suboption.toList
  | .negotiate =>
    cfg.onDataReceived.isSome = false ∧ (server.telnetCommand ≠ tWill ∧ server.telnetCommand ≠ tDo) ∧
      ¬ IsRequest server.suboption.toList

theorem oversized_discarded (cfg : Config σ) (s : Session σ) (reached : Reached cfg s)
    (outside : s.server.collectingSuboption = false) (body : List UInt8)
    (long : suboptionCapacity < body.length) :
    Discards cfg s ([tIac, tSb] ++ escapeIac body ++ [tIac, tSe]) ↔
      Discardable cfg s.server body := by
  unfold Discardable
  cases mode : s.server.telnetMode with
  | normal =>
    obtain ⟨c, rest, hbody⟩ : ∃ c rest, body = body.take suboptionCapacity ++ c :: rest := by
      cases h : body.drop suboptionCapacity with
      | nil =>
        have short := List.drop_eq_nil_iff.mp h
        omega
      | cons c rest => exact ⟨c, rest, by rw [← h, List.take_append_drop]⟩
    have full : (body.take suboptionCapacity).length = suboptionCapacity :=
      List.length_take_of_le (Nat.le_of_lt long)
    obtain ⟨es, hes, h⟩ := adds_oversized cfg s ⟨mode, outside⟩ _ full c rest
    have last : rest = [] ↔ body.length = suboptionCapacity + 1 := by
      have hlength := congrArg List.length hbody
      rw [List.length_append, full, List.length_cons] at hlength
      rw [← List.length_eq_zero_iff]
      omega
    rw [← hbody] at h
    rw [discards_iff outside h, hes, last, isRequest_take body 14]
  | gotIac =>
    obtain ⟨first, same⟩ := adds_escaped_iac cfg s mode outside
    obtain ⟨fs, hfs, h⟩ := adds_misread cfg s first same body
    rw [discards_iff outside h, List.nil_append, hfs]
    simp
  | negotiate =>
    obtain ⟨first, same⟩ := adds_negotiated_iac cfg s reached mode outside
    obtain ⟨fs, hfs, h⟩ := adds_misread cfg s first same body
    rw [discards_iff outside h, List.nil_append]
    simp [refusal_nothing, hfs]

/-- A frame with eighteen bytes that open like SET_CONTROL. -/
def oversizedControl : List UInt8 :=
  [tIac, tSb] ++ escapeIac ([tComPortOption, tSetControl, 8] ++ List.replicate 15 0x41) ++
    [tIac, tSe]

theorem oversized_answered :
    receivedBytes (processReceivedOverTcp relayConfig
        (receive relayConfig (rfc2217ServerCreate ()) []) oversizedControl).trace = [0x41] ∧
      Event.control 8 ∈ (processReceivedOverTcp relayConfig
        (receive relayConfig (rfc2217ServerCreate ()) []) oversizedControl).trace ∧
      ¬ Discards relayConfig (receive relayConfig (rfc2217ServerCreate ()) [])
        oversizedControl := by
  refine ⟨by decide, by decide, fun h => ?_⟩
  exact absurd h.noData (by decide)

theorem oversized_discarded_control :
    Discards relayConfig (receive relayConfig (rfc2217ServerCreate ()) []) oversizedControl ↔
      Discardable relayConfig (startConnection (rfc2217ServerCreate ())).server
        ([tComPortOption, tSetControl, 8] ++ List.replicate 15 0x41) :=
  oversized_discarded relayConfig _ ⟨rfc2217ServerCreate (), [], rfl⟩ rfl _ (by decide)

end Rocom.Rfc2217
