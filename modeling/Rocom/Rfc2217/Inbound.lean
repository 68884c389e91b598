import Rocom.Rfc2217.Stream

/-! Data from the client. A payload whose IAC bytes are doubled comes through as it is, wherever
TCP cuts the stream. -/
namespace Rocom.Rfc2217

variable {σ : Type}

/-- Reading an escaped body changes nothing but what was received. -/
theorem parse_data (cfg : Config σ) (s : Session σ) (mode : s.server.telnetMode = .normal)
    (idle : s.server.collectingSuboption = false) (body : List UInt8) :
    outcome (parse cfg s (Stuffing.double tIac body)) = (outcome s).receive cfg body := by
  have escaped := parse_escaped cfg s mode body
  rw [escapeIac] at escaped
  rw [escaped, store_idle cfg s idle]

/-- No part of the stream starts a subnegotiation, also when it ends inside of a doubled IAC. -/
theorem parse_part_idle (cfg : Config σ) (s : Session σ) (mode : s.server.telnetMode = .normal)
    (idle : s.server.collectingSuboption = false) {part payload : List UInt8}
    (within : part <+: Stuffing.double tIac payload) :
    (parse cfg s part).server.collectingSuboption = false := by
  obtain ⟨body, _, cut⟩ := Stuffing.prefix_double within
  have server : (parse cfg s (Stuffing.double tIac body)).server = s.server :=
    congrArg Outcome.server (parse_data cfg s mode idle body)
  rcases cut with rfl | rfl
  · rw [server]
    exact idle
  · have still : (parse cfg s (Stuffing.double tIac body)).server.telnetMode = .normal :=
      (congrArg Server.telnetMode server).trans mode
    have marked : parse cfg s (Stuffing.double tIac body ++ [tIac]) =
        (parse cfg s (Stuffing.double tIac body)).setMode .gotIac := by
      rw [parse_append]
      show parseByte cfg (parse cfg s (Stuffing.double tIac body)) tIac = _
      simp only [parseByte, still, if_true]
    rw [marked]
    exact (congrArg Server.collectingSuboption server).trans idle

/-- The fast path is never taken in the wrong place. -/
theorem data_undiverted (cfg : Config σ) (s : Session σ) {payload : List UInt8}
    {chunks : List (List UInt8)} (cut : chunks.flatten = Stuffing.double tIac payload) :
    Undiverted cfg s chunks := by
  by_contra diverted
  obtain ⟨before, chunk, rest, rfl, direct, taken⟩ := Runs.exists_first_violation _ _ diverted
  have within : before.flatten <+: Stuffing.double tIac payload := by
    rw [← cut, List.flatten_append]
    exact List.prefix_append _ _
  have idle := parse_part_idle cfg (startConnection s) rfl rfl within
  have server : (receive cfg s before).server =
      (parse cfg (startConnection s) before.flatten).server :=
    congrArg Outcome.server (receive_outcome cfg s before direct)
  have collecting : (receive cfg s before).server.collectingSuboption = true :=
    (not_not.mp taken).2
  rw [server, idle] at collecting
  cases collecting

theorem events_of_no_calls {es : List Event} (none : calls es = []) :
    ∃ deliveries : List (List UInt8), es = deliveries.map .dataReceived ∧
      deliveries.flatten = receivedBytes es := by
  induction es with
  | nil => exact ⟨[], rfl, rfl⟩
  | cons e es ih =>
    cases e with
    | dataReceived data =>
      obtain ⟨deliveries, events, bytes⟩ := ih none
      refine ⟨data :: deliveries, by rw [events]; rfl, ?_⟩
      rw [List.flatten_cons, bytes]
      rfl
    | _ => cases none

/-- However the escaped payload is cut, `on_data_received` is given the payload and nothing else
happens. -/
theorem data_transparent (cfg : Config σ) (s : Session σ) (payload : List UInt8)
    (chunks : List (List UInt8)) (cut : chunks.flatten = Stuffing.double tIac payload) :
    ∃ deliveries : List (List UInt8),
      (receive cfg s chunks).trace = s.trace ++ deliveries.map .dataReceived ∧
      deliveries.flatten = (if cfg.onDataReceived.isSome then payload else []) ∧
      (receive cfg s chunks).server = (startConnection s).server ∧
      (receive cfg s chunks).server.telnetMode = .normal ∧
      (receive cfg s chunks).ctx = s.ctx := by
  have whole : outcome (receive cfg s chunks) =
      (outcome (startConnection s)).receive cfg payload := by
    rw [receive_outcome cfg s chunks (data_undiverted cfg s cut), cut]
    exact parse_data cfg (startConnection s) rfl rfl payload
  have server : (receive cfg s chunks).server = (startConnection s).server :=
    congrArg Outcome.server whole
  obtain ⟨es, trace⟩ := chunks_extend cfg (startConnection s) chunks
  have traced : (receive cfg s chunks).trace = s.trace ++ es := trace.symm
  have called : calls (receive cfg s chunks).trace = calls s.trace := congrArg Outcome.calls whole
  have received : receivedBytes (receive cfg s chunks).trace =
      receivedBytes s.trace ++ if cfg.onDataReceived.isSome then payload else [] :=
    congrArg Outcome.received whole
  rw [traced, calls_append, List.append_right_eq_self] at called
  rw [traced, receivedBytes_append, List.append_cancel_left_eq] at received
  obtain ⟨deliveries, events, bytes⟩ := events_of_no_calls called
  refine ⟨deliveries, ?_, bytes.trans received, server, ?_, congrArg Outcome.ctx whole⟩
  · rw [traced, events]
  · rw [server]
    rfl

/-- A doubled IAC that is cut in two. -/
theorem data_transparent_cut :
    ∃ deliveries : List (List UInt8),
      (receive relayConfig (rfc2217ServerCreate ()) [[1, 0xff], [0xff, 2]]).trace =
        [] ++ deliveries.map .dataReceived ∧
      deliveries.flatten = (if relayConfig.onDataReceived.isSome then [1, 0xff, 2] else []) ∧
      (receive relayConfig (rfc2217ServerCreate ()) [[1, 0xff], [0xff, 2]]).server =
        (startConnection (rfc2217ServerCreate ())).server ∧
      (receive relayConfig (rfc2217ServerCreate ()) [[1, 0xff], [0xff, 2]]).server.telnetMode =
        .normal ∧
      (receive relayConfig (rfc2217ServerCreate ()) [[1, 0xff], [0xff, 2]]).ctx = () :=
  data_transparent relayConfig (rfc2217ServerCreate ()) [1, 0xff, 2] [[1, 0xff], [0xff, 2]]
    (by decide)

end Rocom.Rfc2217
