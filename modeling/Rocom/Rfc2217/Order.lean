import Rocom.Rfc2217.Stream

/-! The order of effects within a chunk. Data bytes wait in the buffer until it is full or the
chunk ends, while a completed subnegotiation calls back at once; so a callback overtakes the
data bytes that are still waiting. -/
namespace Rocom.Rfc2217

variable {σ : Type}

/-- What reaches the serial port, in the order in which it does. -/
inductive Effect where
  | byte (c : UInt8)
  | baudrate (requested : UInt32)
  | control (requested : UInt32)
  | purge (requested : UInt32)
deriving DecidableEq, Repr

def Event.effects : Event → List Effect
  | .dataReceived d => d.map .byte
  | .baudrate v => [.baudrate v]
  | .control v => [.control v]
  | .purge v => [.purge v]
  | _ => []

def effects (t : List Event) : List Effect := t.flatMap Event.effects

@[simp] theorem effects_append (t u : List Event) : effects (t ++ u) = effects t ++ effects u :=
  List.flatMap_append

theorem effects_of_none {es : List Event} (h : ∀ e ∈ es, e.effects = []) : effects es = [] := by
  rw [effects, List.flatMap_eq_nil_iff]
  exact h

/-- The callback that a request makes. -/
def requested (cfg : Config σ) (sub : Vector UInt8 suboptionCapacity) : List Effect :=
  have h0 : 0 < suboptionCapacity := zero_lt_capacity
  have h1 : 1 < suboptionCapacity := one_lt_capacity
  have h2 : 2 < suboptionCapacity := two_lt_capacity
  if sub[0] ≠ tComPortOption then []
  else if sub[1] = tSetBaudrate then
    if cfg.onBaudrate.isSome then [.baudrate (baudrateOf sub)] else []
  else if sub[1] = tSetControl then
    if cfg.onControl.isSome then [.control sub[2].toUInt32] else []
  else if sub[1] = tPurgeData then
    if cfg.onPurge.isSome then [.purge sub[2].toUInt32] else []
  else []

theorem effects_called (f : Option (σ → UInt32 → UInt32 × σ)) (e : Event) :
    effects (called f e) = if f.isSome then e.effects else [] := by
  cases f <;> simp [called, effects]

theorem effects_send (buf : List UInt8) : effects [.send buf] = [] := rfl

theorem effects_answer (cfg : Config σ) (ctx : σ) (sub : Vector UInt8 suboptionCapacity) :
    effects (answer cfg ctx sub).events = requested cfg sub := by
  have baudrate : ∀ b, effects (baudrateAnswer cfg ctx b).events =
      if cfg.onBaudrate.isSome then [.baudrate b] else [] := by
    intro b
    rw [baudrateAnswer, effects_append, effects_called, effects_send, List.append_nil]
    rfl
  have control : ∀ v, effects (controlAnswer cfg ctx v).events =
      if cfg.onControl.isSome then [.control v.toUInt32] else [] := by
    intro v
    rw [controlAnswer, effects_append, effects_called, effects_send, List.append_nil]
    rfl
  have purge : ∀ v, effects (purgeAnswer cfg ctx v).events =
      if cfg.onPurge.isSome then [.purge v.toUInt32] else [] := by
    intro v
    simp only [purgeAnswer, effects_append, effects_called, effects_send, List.append_nil,
      List.nil_append]
    rfl
  have echo : ∀ r v, effects (echoAnswer ctx r v).events = [] := fun _ _ => rfl
  have push : effects (answer cfg ctx sub).events =
      if sub[0] ≠ tComPortOption then []
      else if sub[1] = tSetBaudrate then
        if cfg.onBaudrate.isSome then [.baudrate (baudrateOf sub)] else []
      else if sub[1] = tSetDatasize then [] else if sub[1] = tSetParity then []
      else if sub[1] = tSetStopsize then []
      else if sub[1] = tSetControl then
        if cfg.onControl.isSome then [.control sub[2].toUInt32] else []
      else if sub[1] = tNotifyLinestate then [] else if sub[1] = tNotifyModemstate then []
      else if sub[1] = tPurgeData then
        if cfg.onPurge.isSome then [.purge sub[2].toUInt32] else []
      else [] := by
    simp only [answer, apply_ite (fun a : Answer σ => effects a.events), baudrate, control, purge,
      echo]
    rfl
  rw [push]
  unfold requested
  dsimp only
  by_cases first : sub[1] = tSetBaudrate
  · simp only [if_pos first]
  by_cases second : sub[1] = tSetControl
  · simp +decide only [second, if_true, if_false]
  by_cases third : sub[1] = tPurgeData
  · simp +decide only [third, if_true, if_false]
  · simp only [if_neg first, if_neg second, if_neg third, ite_self]

/-- A request whose callback is set. -/
def CallsBack (cfg : Config σ) (sub : Vector UInt8 suboptionCapacity) : Prop :=
  have h0 : 0 < suboptionCapacity := zero_lt_capacity
  have h1 : 1 < suboptionCapacity := one_lt_capacity
  sub[0] = tComPortOption ∧
    (sub[1] = tSetBaudrate ∧ cfg.onBaudrate.isSome ∨
      sub[1] = tSetControl ∧ cfg.onControl.isSome ∨
      sub[1] = tPurgeData ∧ cfg.onPurge.isSome)

theorem requested_nothing (cfg : Config σ) (sub : Vector UInt8 suboptionCapacity)
    (silent : ¬ CallsBack cfg sub) : requested cfg sub = [] := by
  unfold requested
  dsimp only
  split
  · rfl
  rename_i option
  have option := not_not.mp option
  split
  · rename_i h
    exact if_neg fun some => silent ⟨option, .inl ⟨h, some⟩⟩
  split
  · rename_i h
    exact if_neg fun some => silent ⟨option, .inr (.inl ⟨h, some⟩)⟩
  split
  · rename_i h
    exact if_neg fun some => silent ⟨option, .inr (.inr ⟨h, some⟩)⟩
  · rfl

theorem requested_call (cfg : Config σ) (sub : Vector UInt8 suboptionCapacity)
    (calls : CallsBack cfg sub) : ∃ e, requested cfg sub = [e] ∧ ∀ c, e ≠ .byte c := by
  obtain ⟨option, ⟨h, some⟩ | ⟨h, some⟩ | ⟨h, some⟩⟩ := calls
  · exact ⟨.baudrate (baudrateOf sub), by simp [requested, option, h, some], by simp⟩
  · exact ⟨.control sub[2].toUInt32, by simp +decide [requested, option, h, some], by simp⟩
  · exact ⟨.purge sub[2].toUInt32, by simp +decide [requested, option, h, some], by simp⟩

/-! What the handlers add. -/

theorem Appends.effects_eq {ok : Event → Bool} {f : Session σ → Session σ} (hf : Appends ok f)
    (silent : ∀ e, ok e = true → e.effects = []) (s : Session σ) :
    effects (f s).trace = effects s.trace := by
  obtain ⟨es, hes, h⟩ := hf.trace s
  rw [h, effects_append, effects_of_none fun e he => silent e (hes e he), List.append_nil]

theorem effects_negotiate (cfg : Config σ) (s : Session σ) (command option : UInt8) :
    effects (telnetNegotiateOption cfg s command option).trace = effects s.trace := by
  have silent : ∀ e : Event, e.isNotice = true → e.effects = [] := by
    intro e h
    cases e <;> first | rfl | cases h
  have logged : effects (s.log (.negotiate command option)).trace = effects s.trace := by
    rw [Session.log, effects_append]
    exact List.append_nil _
  rw [telnetNegotiateOption_eq, (appends_negotiateOn cfg command option _).effects_eq silent, logged]

theorem effects_processSubnegotiation (cfg : Config σ) (s : Session σ) :
    effects (processSubnegotiation cfg s).trace =
      effects s.trace ++ requested cfg s.server.suboption := by
  have logged : effects (s.log (.subnegotiation (bodyOf s.server))).trace = effects s.trace := by
    rw [Session.log, effects_append]
    exact List.append_nil _
  rw [processSubnegotiation_eq, Session.perform, effects_append, logged, effects_answer]

theorem effects_afterIac (cfg : Config σ) (s : Session σ) (c : UInt8) :
    effects (afterIac cfg s c).trace =
      effects s.trace ++ if c = tSe then requested cfg s.server.suboption else [] := by
  unfold afterIac
  by_cases opens : c = tSb
  · rw [if_pos opens, if_neg (by rw [opens]; decide), List.append_nil]
    rfl
  rw [if_neg opens]
  by_cases closes : c = tSe
  · rw [if_pos closes, if_pos closes]
    exact effects_processSubnegotiation cfg s
  rw [if_neg closes, if_neg closes, List.append_nil]
  split
  · rfl
  · exact (effects_append _ _).trans (List.append_nil _)

def delivered (cfg : Config σ) (data : List UInt8) : List Effect :=
  if cfg.onDataReceived.isSome then data.map .byte else []

theorem delivered_append (cfg : Config σ) (xs ys : List UInt8) :
    delivered cfg (xs ++ ys) = delivered cfg xs ++ delivered cfg ys := by
  cases h : cfg.onDataReceived.isSome <;> simp [delivered, h]

theorem effects_onDataReceived (cfg : Config σ) (s : Session σ) (data : List UInt8) :
    effects (onDataReceived cfg s data).trace = effects s.trace ++ delivered cfg data := by
  cases h : cfg.onDataReceived.isSome <;>
    simp [onDataReceived_eq, delivered, h, Session.log, effects, Event.effects]

/-! The data bytes of a chunk are counted, and with them the bytes that wait. -/

def isData (server : Server) (c : UInt8) : Bool :=
  !server.collectingSuboption &&
    match server.telnetMode with
    | .normal => c != tIac
    | .gotIac => c == tIac
    | .negotiate => false

def countData (cfg : Config σ) (x : Session σ × Nat) (c : UInt8) : Session σ × Nat :=
  (parseByte cfg x.1 c, if isData x.1.server c then x.2 + 1 else x.2)

/-- An IAC SE that calls back comes when the buffer has just been handed over. -/
def OnTime (cfg : Config σ) (server : Server) (n : Nat) (c : UInt8) : Prop :=
  cfg.onDataReceived.isSome = true → server.telnetMode = .gotIac → c = tSe →
    CallsBack cfg server.suboption → n % cfg.dataBufferSize = 0

/-- The loop `l` against the unbuffered parser after `x.2` data bytes of the chunk. -/
structure Lined (cfg : Config σ) (x : Session σ × Nat) (l : Loop σ) : Prop where
  same : l.outcome cfg = outcome x.1
  waiting : effects l.session.trace ++ delivered cfg l.buffer = effects x.1.trace
  count : l.buffer.length = x.2 % cfg.dataBufferSize

theorem storeByte_waiting (cfg : Config σ) (l : Loop σ) (p : Session σ) (c : UInt8)
    (server : l.session.server = p.server)
    (waiting : effects l.session.trace ++ delivered cfg l.buffer = effects p.trace) :
    effects (storeByte cfg l c).session.trace ++ delivered cfg (storeByte cfg l c).buffer =
      effects (parseStore cfg p c).trace := by
  unfold storeByte parseStore
  rw [server]
  split
  · exact waiting
  · rw [effects_onDataReceived, ← waiting, List.append_assoc, ← delivered_append]
    simp only [bufferData]
    split
    · rw [effects_onDataReceived]
      simp [delivered]
    · rfl

theorem succ_mod_eq (n : Nat) {size : Nat} (positive : 0 < size) :
    (n + 1) % size = if size ≤ n % size + 1 then 0 else n % size + 1 := by
  have below := Nat.mod_lt n positive
  have whole := Nat.div_add_mod n size
  split_ifs with full
  · have next : n + 1 = size * (n / size + 1) := by rw [Nat.mul_add]; omega
    rw [next, Nat.mul_mod_right]
  · have next : n + 1 = size * (n / size) + (n % size + 1) := by omega
    rw [next, Nat.mul_add_mod, Nat.mod_eq_of_lt (by omega)]

theorem storeByte_count (cfg : Config σ) (l : Loop σ) (c : UInt8) (n : Nat)
    (count : l.buffer.length = n % cfg.dataBufferSize) :
    (storeByte cfg l c).buffer.length =
      (if l.session.server.collectingSuboption then n else n + 1) % cfg.dataBufferSize := by
  unfold storeByte
  split
  · exact count
  · rw [succ_mod_eq n cfg.dataBufferSize_pos, ← count]
    simp only [bufferData, List.length_append, List.length_singleton]
    split
    · rfl
    · simp

theorem afterIac_waiting (cfg : Config σ) (l : Loop σ) (p : Session σ) (n : Nat) (c : UInt8)
    (server : l.session.server = p.server) (mode : p.server.telnetMode = .gotIac)
    (waiting : effects l.session.trace ++ delivered cfg l.buffer = effects p.trace)
    (count : l.buffer.length = n % cfg.dataBufferSize) (timely : OnTime cfg p.server n c) :
    effects (afterIac cfg l.session c).trace ++ delivered cfg l.buffer =
      effects (afterIac cfg p c).trace := by
  rw [effects_afterIac, effects_afterIac, server, ← waiting, List.append_assoc, List.append_assoc,
    List.append_cancel_left_eq]
  by_cases closes : c = tSe
  · rw [if_pos closes]
    by_cases calls : CallsBack cfg p.server.suboption
    · cases on : cfg.onDataReceived.isSome with
      | false => simp [delivered, on]
      | true =>
        rw [timely on mode closes calls] at count
        rw [List.length_eq_zero_iff.mp count]
        simp [delivered]
    · rw [requested_nothing cfg _ calls, List.append_nil]
      rfl
  · rw [if_neg closes, List.append_nil]
    rfl

theorem processByte_waiting (cfg : Config σ) (l : Loop σ) (p : Session σ) (n : Nat) (c : UInt8)
    (server : l.session.server = p.server)
    (waiting : effects l.session.trace ++ delivered cfg l.buffer = effects p.trace)
    (count : l.buffer.length = n % cfg.dataBufferSize) (timely : OnTime cfg p.server n c) :
    effects (processByte cfg l c).session.trace ++ delivered cfg (processByte cfg l c).buffer =
      effects (parseByte cfg p c).trace := by
  have stored := storeByte_waiting cfg l p c server waiting
  unfold processByte parseByte
  rw [server]
  cases mode : p.server.telnetMode with
  | normal =>
    simp only
    split
    · exact waiting
    · exact stored
  | gotIac =>
    simp only
    split
    · exact stored
    · exact afterIac_waiting cfg l p n c server mode waiting count timely
  | negotiate =>
    simp only [Session.setMode, Session.modify, effects_negotiate]
    exact waiting

theorem processByte_count (cfg : Config σ) (l : Loop σ) (n : Nat) (c : UInt8)
    (count : l.buffer.length = n % cfg.dataBufferSize) :
    (processByte cfg l c).buffer.length =
      (if isData l.session.server c then n + 1 else n) % cfg.dataBufferSize := by
  have counted := storeByte_count cfg l c n count
  have data : ∀ collecting : Bool,
      (if collecting then n else n + 1) = if (!collecting) = true then n + 1 else n := by
    intro collecting
    cases collecting <;> rfl
  rw [data] at counted
  cases mode : l.session.server.telnetMode with
  | normal =>
    simp only [processByte, isData, mode]
    by_cases escape : c = tIac
    · simpa [escape] using count
    · simpa [escape] using counted
  | gotIac =>
    simp only [processByte, isData, mode]
    by_cases escape : c = tIac
    · subst escape
      simpa using counted
    · simpa [escape] using count
  | negotiate =>
    simp only [processByte, isData, mode, Bool.and_false, Bool.false_eq_true, if_false]
    exact count

theorem lined_byte (cfg : Config σ) (x : Session σ × Nat) (l : Loop σ) (c : UInt8)
    (h : Lined cfg x l) (timely : OnTime cfg x.1.server x.2 c) :
    Lined cfg (countData cfg x c) (processByte cfg l c) := by
  have server := loop_server h.same
  refine ⟨processByte_outcome cfg l x.1 c h.same, ?_, ?_⟩
  · exact processByte_waiting cfg l x.1 x.2 c server h.waiting h.count timely
  · have counted := processByte_count cfg l x.2 c h.count
    rw [server] at counted
    exact counted

/-- The stream order: the data bytes of the chunk handed over one by one. -/
def inStreamOrder (cfg : Config σ) (s : Session σ) (chunk : List UInt8) : Session σ :=
  if fastPath s.server chunk then onDataReceived cfg s chunk else parse cfg s chunk

def Timely (cfg : Config σ) (s : Session σ) (chunk : List UInt8) : Prop :=
  fastPath s.server chunk ∨
    Runs.Along (countData cfg) (fun x c => OnTime cfg x.1.server x.2 c) (s, 0) chunk

theorem effects_prefix {t u : List Event} (h : t <+: u) : effects t <+: effects u := by
  obtain ⟨rest, rfl⟩ := h
  exact ⟨effects rest, (effects_append t rest).symm⟩

theorem countData_session (cfg : Config σ) (x : Session σ × Nat) (bytes : List UInt8) :
    (bytes.foldl (countData cfg) x).1 = parse cfg x.1 bytes :=
  Runs.simulation (R := fun (x : Session σ × Nat) p => x.1 = p)
    (fun _ _ _ same => same ▸ rfl) rfl bytes

theorem effects_flush (cfg : Config σ) (l : Loop σ) :
    effects (flush cfg l).trace = effects l.session.trace ++ delivered cfg l.buffer := by
  unfold flush
  split
  · exact effects_onDataReceived cfg l.session l.buffer
  · rename_i h
    have empty : l.buffer = [] := List.length_eq_zero_iff.mp (by omega)
    rw [empty]
    simp [delivered]

/-- A callback that comes while bytes wait overtakes the first of them. -/
theorem overtaken (cfg : Config σ) (s : Session σ) {x : Session σ × Nat} {l : Loop σ}
    {bs es : List UInt8} (lined : Lined cfg x l)
    (loop : bs.foldl (processByte cfg) ⟨s, []⟩ = l) (parsed : parse cfg s bs = x.1)
    (late : ¬ OnTime cfg x.1.server x.2 tSe) :
    effects (processBytes cfg s (bs ++ tSe :: es)).trace ≠
      effects (parse cfg s (bs ++ tSe :: es)).trace := by
  simp only [OnTime, Classical.not_imp, true_and] at late
  obtain ⟨on, mode, calls, waits⟩ := late
  have server := loop_server lined.same
  obtain ⟨d, rest, buffer⟩ : ∃ d rest, l.buffer = d :: rest := by
    cases h : l.buffer with
    | nil =>
      have empty := lined.count
      rw [h] at empty
      exact absurd empty.symm waits
    | cons d rest => exact ⟨d, rest, rfl⟩
  obtain ⟨e, requested, notByte⟩ := requested_call cfg x.1.server.suboption calls
  have called : effects (processByte cfg l tSe).session.trace =
      effects l.session.trace ++ [e] := by
    have closes : processByte cfg l tSe = ⟨afterIac cfg l.session tSe, l.buffer⟩ := by
      simp only [processByte, server, mode]
      rfl
    rw [closes, effects_afterIac, if_pos rfl, server, requested]
  have actual : effects l.session.trace ++ e :: [] <+:
      effects (processBytes cfg s (bs ++ tSe :: es)).trace := by
    rw [processBytes, List.foldl_append, loop, List.foldl_cons, ← called]
    exact effects_prefix ((bytes_extend cfg _ es).trans (flush_extends cfg _))
  have ordered : effects l.session.trace ++ .byte d :: rest.map .byte <+:
      effects (parse cfg s (bs ++ tSe :: es)).trace := by
    have waiting := lined.waiting
    rw [buffer, delivered, if_pos on, List.map_cons] at waiting
    rw [waiting, parse_append, parsed]
    exact effects_prefix (parse_extends cfg x.1 _)
  intro same
  rw [same] at actual
  exact notByte d (prefixes_same_first actual ordered)

/-- Exactly the timely chunks take effect in stream order. -/
theorem effects_in_order (cfg : Config σ) (s : Session σ) (chunk : List UInt8) :
    effects (processReceivedOverTcp cfg s chunk).trace =
        effects (inStreamOrder cfg s chunk).trace ↔
      Timely cfg s chunk := by
  unfold processReceivedOverTcp inStreamOrder Timely
  by_cases fast : fastPath s.server chunk
  · rw [if_pos fast, if_pos fast]
    exact iff_of_true rfl (.inl fast)
  rw [if_neg fast, if_neg fast, or_iff_right fast]
  have start : Lined cfg (s, 0) ⟨s, []⟩ := by
    refine ⟨Outcome.receive_nil cfg _, ?_, (Nat.zero_mod _).symm⟩
    simp [delivered]
  constructor
  · intro same
    by_contra late
    obtain ⟨bs, c, es, rfl, before, late⟩ := Runs.exists_first_violation _ _ late
    have lined := Runs.guarded_simulation (lined_byte cfg) start bs before
    have closes : c = tSe := by
      by_contra other
      exact late fun _ _ closes => absurd closes other
    subst closes
    exact overtaken cfg s lined rfl (countData_session cfg (s, 0) bs).symm late same
  · intro timely
    have lined := Runs.guarded_simulation (lined_byte cfg) start chunk timely
    rw [effects_flush, lined.waiting, countData_session]

/-- A SET_CONTROL request between two data bytes. -/
def controlBetween : List UInt8 :=
  [0x41, tIac, tSb, tComPortOption, tSetControl, 8, tIac, tSe, 0x42]

theorem control_overtakes :
    effects (processReceivedOverTcp relayConfig
        (receive relayConfig (rfc2217ServerCreate ()) []) controlBetween).trace =
      [.control 8, .byte 0x41, .byte 0x42] ∧
    effects (inStreamOrder relayConfig
        (receive relayConfig (rfc2217ServerCreate ()) []) controlBetween).trace =
      [.byte 0x41, .control 8, .byte 0x42] := by
  decide

end Rocom.Rfc2217
