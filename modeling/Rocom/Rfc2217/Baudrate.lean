import Mathlib.Algebra.Group.Nat.Defs
import Rocom.Rfc2217.Buffering
import Rocom.Rfc2217.Wire

/-! The way of a baud rate: four escaped bytes of a request, the callback's argument, its result
and four escaped bytes of the reply. -/
namespace Rocom.Rfc2217

variable {σ τ : Type}

/-- The bytes of a rate, the most significant one first. -/
def bigEndian (b : UInt32) : List UInt8 :=
  [3, 2, 1, 0].map fun i => UInt8.ofNat (b.toNat / 256 ^ i)

/-! ### Shifts -/

theorem toNat_shift_in (b : UInt8) {k : Nat} (inside : k ≤ 24) :
    (b.toUInt32 <<< UInt32.ofNat k).toNat = b.toNat <<< k := by
  have small := b.toNat_lt
  have count : (UInt32.ofNat k).toNat % 32 = k := by
    rw [UInt32.toNat_ofNat']
    omega
  have room : b.toNat * 2 ^ k < 2 ^ 32 := by
    calc b.toNat * 2 ^ k
        ≤ b.toNat * 2 ^ 24 := Nat.mul_le_mul_left _ (Nat.pow_le_pow_right (by decide) inside)
      _ < 2 ^ 8 * 2 ^ 24 := Nat.mul_lt_mul_of_pos_right small (by decide)
      _ = 2 ^ 32 := by decide
  rw [UInt32.toNat_shiftLeft, count, UInt8.toNat_toUInt32, Nat.shiftLeft_eq, Nat.mod_eq_of_lt room]

/-- The shifted bytes do not overlap. -/
theorem toNat_bigEndian32 (b0 b1 b2 b3 : UInt8) :
    (bigEndian32 b0 b1 b2 b3).toNat =
      b0.toNat * 2 ^ 24 + (b1.toNat * 2 ^ 16 + (b2.toNat * 2 ^ 8 + b3.toNat)) := by
  have h0 := toNat_shift_in b0 (k := 24) (by decide)
  have h1 := toNat_shift_in b1 (k := 16) (by decide)
  have h2 := toNat_shift_in b2 (k := 8) (by decide)
  have l1 := b1.toNat_lt
  have l2 := b2.toNat_lt
  have l3 := b3.toNat_lt
  have word : (bigEndian32 b0 b1 b2 b3).toNat =
      b0.toNat <<< 24 ||| (b1.toNat <<< 16 ||| (b2.toNat <<< 8 ||| b3.toNat)) := by
    rw [← h0, ← h1, ← h2, ← Nat.or_assoc, ← Nat.or_assoc]
    simp only [bigEndian32, UInt32.toNat_or, UInt8.toNat_toUInt32]
    rfl
  rw [word, ← Nat.shiftLeft_add_eq_or_of_lt l3, ← Nat.shiftLeft_add_eq_or_of_lt (i := 16),
    ← Nat.shiftLeft_add_eq_or_of_lt (i := 24)]
  · simp only [Nat.shiftLeft_eq]
  · simp only [Nat.shiftLeft_eq]
    omega
  · simp only [Nat.shiftLeft_eq]
    omega

theorem bigEndian32_bigEndian (b : UInt32) :
    bigEndian32 (UInt8.ofNat (b.toNat / 256 ^ 3)) (UInt8.ofNat (b.toNat / 256 ^ 2))
      (UInt8.ofNat (b.toNat / 256 ^ 1)) (UInt8.ofNat (b.toNat / 256 ^ 0)) = b := by
  apply UInt32.toNat_inj.mp
  have small := b.toNat_lt
  simp only [toNat_bigEndian32, UInt8.toNat_ofNat']
  omega

theorem shift_out (b : UInt32) {k : Nat} (inside : k < 32) :
    (b >>> UInt32.ofNat k).toUInt8 = UInt8.ofNat (b.toNat / 2 ^ k) := by
  apply UInt8.toNat_inj.mp
  have count : (UInt32.ofNat k).toNat % 32 = k := by
    rw [UInt32.toNat_ofNat']
    omega
  rw [UInt32.toNat_toUInt8, UInt32.toNat_shiftRight, count, UInt8.toNat_ofNat',
    Nat.shiftRight_eq_div_pow]

theorem baudrateBytes_eq (b : UInt32) : baudrateBytes b = bigEndian b := by
  have first : (b >>> 24).toUInt8 = _ := shift_out b (k := 24) (by decide)
  have second : (b >>> 16).toUInt8 = _ := shift_out b (k := 16) (by decide)
  have third : (b >>> 8).toUInt8 = _ := shift_out b (k := 8) (by decide)
  have last : b.toUInt8 = UInt8.ofNat b.toNat := by simp
  rw [baudrateBytes, first, second, third, last]
  simp [bigEndian]

/-! ### A request -/

def baudrateBody (b : UInt32) : List UInt8 := [tComPortOption, tSetBaudrate] ++ bigEndian b

def baudrateRequest (b : UInt32) : List UInt8 :=
  [tIac, tSb, tComPortOption, tSetBaudrate] ++ Stuffing.double tIac (bigEndian b) ++ [tIac, tSe]

theorem baudrateRequest_eq (b : UInt32) :
    baudrateRequest b = [tIac, tSb] ++ escapeIac (baudrateBody b) ++ [tIac, tSe] := by
  have head : escapeIac [tComPortOption, tSetBaudrate] = [tComPortOption, tSetBaudrate] := by decide
  have whole : escapeIac (baudrateBody b) =
      escapeIac [tComPortOption, tSetBaudrate] ++ escapeIac (bigEndian b) :=
    Stuffing.double_append _ _
  rw [whole, head]
  rfl

/-- The bytes in front of a buffer that holds a body. -/
theorem byte_of_body {v : Vector UInt8 suboptionCapacity} {body : List UInt8}
    (held : v.toList.take body.length = body) {i : Nat} {c : UInt8} (byte : body[i]? = some c)
    (inside : i < suboptionCapacity) : v[i] = c := by
  have short : i < body.length := (List.getElem?_eq_some_iff.mp byte).1
  have shown : v.toList[i]? = some c := by
    have cut : (v.toList.take body.length)[i]? = v.toList[i]? := List.getElem?_take_of_lt short
    rw [← cut, held, byte]
  have here : v.toList[i]? = some v[i] := by
    rw [List.getElem?_eq_getElem (by rwa [Vector.length_toList]), Vector.getElem_toList]
  exact Option.some.inj (here.symm.trans shown)

theorem answer_baudrateBody (cfg : Config σ) (ctx : σ) {v : Vector UInt8 suboptionCapacity}
    {b : UInt32} (held : v.toList.take (baudrateBody b).length = baudrateBody b) :
    answer cfg ctx v = baudrateAnswer cfg ctx b := by
  have option := byte_of_body held (i := 0) rfl (by decide)
  have command := byte_of_body held (i := 1) rfl (by decide)
  have b2 := byte_of_body held (i := 2) rfl (by decide)
  have b3 := byte_of_body held (i := 3) rfl (by decide)
  have b4 := byte_of_body held (i := 4) rfl (by decide)
  have b5 := byte_of_body held (i := 5) rfl (by decide)
  have rate : baudrateOf v = b := by
    rw [baudrateOf, b2, b3, b4, b5, bigEndian32_bigEndian]
  simp only [answer, option, command, rate, ne_eq, not_true, if_false, if_true]

/-- A trace whose batches all have bytes, and no byte in them, has no batch. -/
theorem calls_of_no_bytes {limit : Nat} {es : List Event} (batches : BatchesWithin limit es)
    (none_received : receivedBytes es = []) : calls es = es := by
  refine List.filter_eq_self.mpr ?_
  intro e mem
  cases e with
  | dataReceived data =>
    have empty : data = [] := by
      have each := List.flatMap_eq_nil_iff.mp none_received
      exact each _ mem
    have some_byte := (batches data mem).1
    rw [empty] at some_byte
    exact absurd some_byte (by decide)
  | _ => rfl

/-- Where the parser only makes calls, a chunk makes them in their order. -/
theorem process_calls (cfg : Config σ) (s t : Session σ) {chunk : List UInt8}
    (nonempty : chunk ≠ [])
    (same : outcome (processReceivedOverTcp cfg s chunk) = outcome t) {made : List Event}
    (trace : t.trace = s.trace ++ made) (only : ∀ e ∈ made, e.isCall = true) :
    (processReceivedOverTcp cfg s chunk).trace = s.trace ++ made := by
  obtain ⟨es, extended, batches, _⟩ := process_batches cfg s nonempty
  have received := congrArg Outcome.received same
  have called := congrArg Outcome.calls same
  simp only [outcome, extended, trace, receivedBytes_append, calls_append,
    List.append_cancel_left_eq] at received called
  rw [receivedBytes_of_calls only] at received
  rw [calls_of_no_bytes batches received] at called
  rw [extended, called, calls, List.filter_eq_self.mpr only]

/-- The answer to a request for a baud rate. -/
def baudrateReply (b : UInt32) : List UInt8 :=
  [tIac, tSb, tComPortOption, tSetBaudrate + 100] ++ Stuffing.double tIac (bigEndian b) ++
    [tIac, tSe]

theorem baudrateReply_eq (b : UInt32) :
    baudrateReply b =
      [tIac, tSb] ++ escapeIac ([tComPortOption, tSetBaudrate + 100] ++ bigEndian b) ++
        [tIac, tSe] := by
  have head : escapeIac [tComPortOption, tSetBaudrate + 100] =
      [tComPortOption, tSetBaudrate + 100] := by decide
  have whole : escapeIac ([tComPortOption, tSetBaudrate + 100] ++ bigEndian b) =
      escapeIac [tComPortOption, tSetBaudrate + 100] ++ escapeIac (bigEndian b) :=
    Stuffing.double_append _ _
  rw [whole, head]
  rfl

/-- A client that reads the answer with a telnet reader gets the four bytes of the rate. -/
theorem decoded_baudrateReply (client : Config τ) (r : Session τ) (b : UInt32) :
    decoded (parse client (newConnection r) (baudrateReply b)).trace =
      ⟨[], [], [[tComPortOption, tSetBaudrate + 100] ++ bigEndian b]⟩ := by
  have six_fit : ([tComPortOption, tSetBaudrate + 100] ++ bigEndian b).length ≤
      suboptionCapacity := (by decide : 6 ≤ 16)
  rw [baudrateReply_eq]
  exact (decoded_subnegotiation client (newConnection r) ⟨rfl, rfl⟩ _ six_fit).2

/-- A rate comes to the callback as it was sent. The reply has the bytes of what it returned, with
every IAC doubled, and a client reads them from it. -/
theorem baudrate_faithful (cfg : Config σ) (f : σ → UInt32 → UInt32 × σ)
    (set : cfg.onBaudrate = some f) (s : Session σ) (mode : s.server.telnetMode = .normal)
    (b : UInt32) :
    (processReceivedOverTcp cfg s (baudrateRequest b)).trace = s.trace ++
        [.subnegotiation (baudrateBody b), .baudrate b, .send (baudrateReply (f s.ctx b).1)] ∧
      (processReceivedOverTcp cfg s (baudrateRequest b)).ctx = (f s.ctx b).2 ∧
      ∀ (client : Config τ) (r : Session τ),
        decoded (parse client (newConnection r) (baudrateReply (f s.ctx b).1)).trace =
          ⟨[], [], [[tComPortOption, tSetBaudrate + 100] ++ bigEndian (f s.ctx b).1]⟩ := by
  have six_fit : (baudrateBody b).length ≤ suboptionCapacity := (by decide : 6 ≤ 16)
  have slow : ¬ fastPath s.server (baudrateRequest b) := fun fast => fast.2 List.mem_cons_self
  obtain ⟨v, held, parsed⟩ := parse_fitting cfg s mode (baudrateBody b) six_fit
  have events : baudrateAnswer cfg s.ctx b =
      ⟨[.baudrate b, .send (baudrateReply (f s.ctx b).1)], (f s.ctx b).2⟩ := by
    simp only [baudrateAnswer, callback, called, set, baudrateBytes_eq]
    rfl
  rw [← baudrateRequest_eq, answer_baudrateBody cfg s.ctx held, events] at parsed
  have same : outcome (processReceivedOverTcp cfg s (baudrateRequest b)) = outcome _ :=
    (process_outcome cfg rfl fun diverted => slow diverted.1).trans (congrArg outcome parsed)
  refine ⟨?_, congrArg Outcome.ctx same, fun client r => decoded_baudrateReply client r _⟩
  refine process_calls cfg s _ (List.cons_ne_nil _ _) same (List.append_assoc _ _ _) ?_
  intro e mem
  simp only [List.mem_cons, List.not_mem_nil, or_false] at mem
  rcases mem with rfl | rfl | rfl <;> rfl

/-- A device that runs at no less than 0xff00 baud. -/
def slowest : Config Unit :=
  { relayConfig with onBaudrate := some fun ctx b => (max b 0xff00, ctx) }

/-- It is asked for 255, and both rates have an IAC in them. -/
theorem baudrate_faithful_corrected :
    (processReceivedOverTcp slowest (startConnection (rfc2217ServerCreate ()))
        (baudrateRequest 255)).trace =
        [] ++ [.subnegotiation (baudrateBody 255), .baudrate 255,
          .send (baudrateReply (max 255 0xff00))] ∧
      (processReceivedOverTcp slowest (startConnection (rfc2217ServerCreate ()))
        (baudrateRequest 255)).ctx = () ∧
      ∀ (client : Config Unit) (r : Session Unit),
        decoded (parse client (newConnection r) (baudrateReply (max 255 0xff00))).trace =
          ⟨[], [], [[tComPortOption, tSetBaudrate + 100] ++ bigEndian (max 255 0xff00)]⟩ :=
  baudrate_faithful slowest (fun ctx b => (max b 0xff00, ctx)) rfl
    (startConnection (rfc2217ServerCreate ())) rfl 255

example : baudrateReply 0xff00 = [255, 250, 44, 101, 0, 0, 255, 255, 0, 255, 240] := by decide

end Rocom.Rfc2217
