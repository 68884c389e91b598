import Rocom.Rfc2217.Answer

/-! One reply for each request: which requests `process_subnegotiation` answers with a single
frame, after its callback and with the callback's value. -/
namespace Rocom.Rfc2217

variable {σ : Type}

/-- What becomes of a requested value: the calls made for it, the bytes that are granted, and the
context that is left. -/
structure Granted (σ : Type) where
  calls : List Event
  value : List UInt8
  ctx : σ

/-- A callback decides about its value; without one, and for the other requests, the value is
granted as requested. -/
def granted (cfg : Config σ) (ctx : σ) (sub : Vector UInt8 suboptionCapacity) : Granted σ :=
  have h1 : 1 < suboptionCapacity := one_lt_capacity
  have h2 : 2 < suboptionCapacity := two_lt_capacity
  if sub[1] = tSetBaudrate then
    let r := callback cfg.onBaudrate ctx (baudrateOf sub)
    ⟨called cfg.onBaudrate (.baudrate (baudrateOf sub)), baudrateBytes r.1, r.2⟩
  else if sub[1] = tSetControl then
    let r := callback cfg.onControl ctx sub[2].toUInt32
    ⟨called cfg.onControl (.control sub[2].toUInt32), [r.1.toUInt8], r.2⟩
  else if sub[1] = tPurgeData then
    let r := callback cfg.onPurge ctx sub[2].toUInt32
    ⟨called cfg.onPurge (.purge sub[2].toUInt32), [r.1.toUInt8], r.2⟩
  else ⟨[], [sub[2]], ctx⟩

/-- The answer that a request calls for: its callback, then one frame with the code of the request
and 100. -/
def oneReply (cfg : Config σ) (ctx : σ) (sub : Vector UInt8 suboptionCapacity) : Answer σ :=
  have h1 : 1 < suboptionCapacity := one_lt_capacity
  let r := granted cfg ctx sub
  ⟨r.calls ++ [.send (subnegotiationBuf (sub[1] + 100) r.value)], r.ctx⟩

theorem perform_inj (s : Session σ) (a b : Answer σ) : s.perform a = s.perform b ↔ a = b := by
  constructor
  · intro same
    obtain ⟨_, ctx, trace⟩ := Session.mk.inj same
    obtain ⟨events, _⟩ := a
    obtain ⟨events', _⟩ := b
    obtain rfl : events = events' := List.append_cancel_left trace
    obtain rfl := ctx
    rfl
  · intro same
    rw [same]

section Requests
variable {sub : Vector UInt8 suboptionCapacity}

/-- Every request but PURGE_DATA is answered as it should be. -/
theorem answer_oneReply (cfg : Config σ) (ctx : σ) (option : sub[0] = tComPortOption)
    (request : sub[1] ∈ requestCommands) (other : sub[1] ≠ tPurgeData) :
    answer cfg ctx sub = oneReply cfg ctx sub := by
  simp only [requestCommands, List.mem_cons, List.not_mem_nil, or_false] at request
  unfold answer oneReply granted
  rcases request with h | h | h | h | h | h | h | h
  · simp only [option, h]
    rfl
  · simp only [option, h]
    rfl
  · simp only [option, h]
    rfl
  · simp only [option, h]
    rfl
  · simp only [option, h]
    rfl
  · simp only [option, h]
    rfl
  · simp only [option, h]
    rfl
  · exact absurd h other

/-- PURGE_DATA is answered twice. -/
theorem answer_purge (cfg : Config σ) (ctx : σ) (option : sub[0] = tComPortOption)
    (purge : sub[1] = tPurgeData) : answer cfg ctx sub ≠ oneReply cfg ctx sub := by
  have replies : (answer cfg ctx sub).events.length =
      (called cfg.onPurge (.purge sub[2].toUInt32)).length + 2 := by
    have twice : (purgeAnswer cfg ctx sub[2]).events.length =
        (called cfg.onPurge (.purge sub[2].toUInt32)).length + 2 := by
      simp [purgeAnswer]
    rw [← twice]
    unfold answer
    simp only [option, purge]
    rfl
  have once : (oneReply cfg ctx sub).events.length =
      (called cfg.onPurge (.purge sub[2].toUInt32)).length + 1 := by
    unfold oneReply granted
    simp only [purge]
    exact List.length_append
  intro same
  rw [same, once] at replies
  omega

end Requests

/-- A recognised request gets exactly one frame, behind its callback and with its value, unless it
is PURGE_DATA. -/
theorem one_reply_iff (cfg : Config σ) (s : Session σ)
    (option : s.server.suboption[0] = tComPortOption)
    (request : s.server.suboption[1] ∈ requestCommands) :
    processSubnegotiation cfg s =
        (s.log (.subnegotiation (bodyOf s.server))).perform
          (oneReply cfg s.ctx s.server.suboption) ↔
      s.server.suboption[1] ≠ tPurgeData := by
  rw [processSubnegotiation_eq, perform_inj]
  constructor
  · intro same purge
    exact answer_purge cfg s.ctx option purge same
  · exact answer_oneReply cfg s.ctx option request

/-- A client of the relay has sent IAC SB COM-PORT-OPTION, these bytes and IAC SE, and the body is
about to be processed. -/
def halfSent (request : List UInt8) : Session Unit :=
  processReceivedOverTcp relayConfig (startConnection (rfc2217ServerCreate ()))
    ([tIac, tSb, tComPortOption] ++ request)

theorem one_reply_iff_control :
    processSubnegotiation relayConfig (halfSent [tSetControl, 8]) =
        ((halfSent [tSetControl, 8]).log
            (.subnegotiation (bodyOf (halfSent [tSetControl, 8]).server))).perform
          (oneReply relayConfig () (halfSent [tSetControl, 8]).server.suboption) ↔
      (halfSent [tSetControl, 8]).server.suboption[1] ≠ tPurgeData :=
  one_reply_iff relayConfig (halfSent [tSetControl, 8]) (by decide) (by decide)

theorem purge_replied_twice :
    processSubnegotiation relayConfig (halfSent [tPurgeData, 1]) ≠
      ((halfSent [tPurgeData, 1]).log
          (.subnegotiation (bodyOf (halfSent [tPurgeData, 1]).server))).perform
        (oneReply relayConfig () (halfSent [tPurgeData, 1]).server.suboption) := by
  decide

end Rocom.Rfc2217
