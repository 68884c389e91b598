import Rocom.Rfc2217.Reachable
import Rocom.Rfc2217.Suboption

/-! The two arrays of the byte loop, `suboption` and `data_buffer`, with every store checked: none
is out of range, and the size of `data_buffer` only decides how the data bytes are batched. -/
namespace Rocom.Rfc2217

variable {σ : Type}

/-- `array[i] = c`. -/
def storeAt {n : Nat} (array : Vector UInt8 n) (i : Nat) (c : UInt8) :
    Except Fault (Vector UInt8 n) :=
  if inside : i < n then .ok (array.set i c inside) else .error .storeOutOfRange

/-- The loop with the whole of `data_buffer`. -/
structure ArrayLoop (σ : Type) (size : Nat) where
  session : Session σ
  dataBuffer : Vector UInt8 size
  bufferContents : Nat

/-- `suboption[suboption_size++] = c`, or the overflow branch. -/
def storeSuboption (s : Session σ) (c : UInt8) : Except Fault (Session σ) :=
  if s.server.suboptionSize < suboptionCapacity then do
    let suboption ← storeAt s.server.suboption s.server.suboptionSize c
    return s.modify fun server =>
      { server with suboption := suboption, suboptionSize := server.suboptionSize + 1 }
  else
    return s.modify fun server => { server with collectingSuboption := false, suboptionSize := 0 }

namespace ArrayLoop

def storeData (cfg : Config σ) (l : ArrayLoop σ cfg.dataBufferSize) (c : UInt8) :
    Except Fault (ArrayLoop σ cfg.dataBufferSize) := do
  let dataBuffer ← storeAt l.dataBuffer l.bufferContents c
  let bufferContents := l.bufferContents + 1
  if cfg.dataBufferSize ≤ bufferContents then
    return ⟨onDataReceived cfg l.session (dataBuffer.toList.take bufferContents), dataBuffer, 0⟩
  else return ⟨l.session, dataBuffer, bufferContents⟩

def store (cfg : Config σ) (l : ArrayLoop σ cfg.dataBufferSize) (c : UInt8) :
    Except Fault (ArrayLoop σ cfg.dataBufferSize) :=
  if l.session.server.collectingSuboption then do
    let session ← storeSuboption l.session c
    return { l with session := session }
  else l.storeData cfg c

def processByte (cfg : Config σ) (l : ArrayLoop σ cfg.dataBufferSize) (c : UInt8) :
    Except Fault (ArrayLoop σ cfg.dataBufferSize) :=
  match l.session.server.telnetMode with
  | .normal =>
    if c = tIac then return { l with session := l.session.setMode .gotIac } else l.store cfg c
  | .gotIac =>
    if c = tIac then do
      let l ← l.store cfg c
      return { l with session := l.session.setMode .normal }
    else return { l with session := afterIac cfg l.session c }
  | .negotiate =>
    return { l with
      session := (telnetNegotiateOption cfg l.session l.session.server.telnetCommand c).setMode
        .normal }

/-- The call behind the loop. -/
def flush (cfg : Config σ) (l : ArrayLoop σ cfg.dataBufferSize) : Session σ :=
  if 0 < l.bufferContents then
    onDataReceived cfg l.session (l.dataBuffer.toList.take l.bufferContents)
  else l.session

end ArrayLoop

/-- `process_received_over_tcp` with the memory of `data_buffer`. -/
def processReceivedInArrays (cfg : Config σ) (dataBuffer : Vector UInt8 cfg.dataBufferSize)
    (s : Session σ) (chunk : List UInt8) :
    Except Fault (Session σ × Vector UInt8 cfg.dataBufferSize) :=
  if fastPath s.server chunk then return (onDataReceived cfg s chunk, dataBuffer)
  else do
    let l ← chunk.foldlM (ArrayLoop.processByte cfg) ⟨s, dataBuffer, 0⟩
    return (l.flush cfg, l.dataBuffer)

/-! ### The stores -/

theorem storeAt_inside {n : Nat} (array : Vector UInt8 n) {i : Nat} (inside : i < n) (c : UInt8) :
    storeAt array i c = .ok (array.set i c inside) := dif_pos inside

theorem storeSuboption_ok (s : Session σ) (c : UInt8) :
    storeSuboption s c = .ok (collectSuboption s c) := by
  unfold storeSuboption collectSuboption
  by_cases room : s.server.suboptionSize < suboptionCapacity
  · rw [if_pos room, storeAt_inside _ room]
    simp only [Session.modify, dif_pos room]
    rfl
  · rw [if_neg room]
    simp only [Session.modify, dif_neg room]
    rfl

/-- The array shows the bytes of `l` at its front and has room for one more. -/
structure ArrayLoop.Holds {cfg : Config σ} (a : ArrayLoop σ cfg.dataBufferSize) (l : Loop σ) :
    Prop where
  session : a.session = l.session
  room : a.bufferContents < cfg.dataBufferSize
  bytes : a.dataBuffer.toList.take a.bufferContents = l.buffer

section Stores
variable {cfg : Config σ} {a : ArrayLoop σ cfg.dataBufferSize} {l : Loop σ}

theorem ArrayLoop.Holds.length (h : a.Holds l) : l.buffer.length = a.bufferContents := by
  have room := h.room
  rw [← h.bytes, List.length_take, Vector.length_toList]
  omega

/-- A handler that leaves the buffer alone. -/
theorem ArrayLoop.Holds.handled (h : a.Holds l) {s t : Session σ} (same : s = t) :
    ({ a with session := s } : ArrayLoop σ cfg.dataBufferSize).Holds ⟨t, l.buffer⟩ :=
  ⟨same, h.room, h.bytes⟩

theorem storeData_ok (h : a.Holds l) (c : UInt8) :
    ∃ b, a.storeData cfg c = .ok b ∧ b.Holds (bufferData cfg l c) := by
  have length := h.length
  have inside : a.bufferContents < a.dataBuffer.toList.length := by
    rw [Vector.length_toList]
    exact h.room
  have shown : (a.dataBuffer.set a.bufferContents c h.room).toList.take (a.bufferContents + 1) =
      l.buffer ++ [c] := by
    rw [Vector.toList_set, take_succ_set c _ _ inside, h.bytes]
  have long : (l.buffer ++ [c]).length = a.bufferContents + 1 := by
    rw [List.length_append, length]
    rfl
  unfold ArrayLoop.storeData bufferData
  rw [storeAt_inside _ h.room]
  dsimp only
  rw [long]
  by_cases full : cfg.dataBufferSize ≤ a.bufferContents + 1
  · rw [if_pos full]
    refine ⟨_, if_pos full, ?_⟩
    exact ⟨by rw [shown, h.session], cfg.dataBufferSize_pos, rfl⟩
  · rw [if_neg full]
    refine ⟨_, if_neg full, ?_⟩
    exact ⟨h.session, Nat.lt_of_not_le full, shown⟩

theorem store_ok (h : a.Holds l) (c : UInt8) :
    ∃ b, a.store cfg c = .ok b ∧ b.Holds (storeByte cfg l c) := by
  unfold ArrayLoop.store storeByte
  rw [h.session]
  split
  · rw [storeSuboption_ok]
    exact ⟨_, rfl, h.handled rfl⟩
  · exact storeData_ok h c

theorem arrayByte_ok (h : a.Holds l) (c : UInt8) :
    ∃ b, a.processByte cfg c = .ok b ∧ b.Holds (processByte cfg l c) := by
  unfold ArrayLoop.processByte processByte
  rw [h.session]
  cases l.session.server.telnetMode with
  | normal =>
    dsimp only
    by_cases iac : c = tIac
    · rw [if_pos iac, if_pos iac]
      exact ⟨_, rfl, h.handled rfl⟩
    · rw [if_neg iac, if_neg iac]
      exact store_ok h c
  | gotIac =>
    dsimp only
    by_cases iac : c = tIac
    · obtain ⟨b, stored, holds⟩ := store_ok h c
      rw [if_pos iac, if_pos iac, stored]
      exact ⟨_, rfl, holds.handled (congrArg (Session.setMode · .normal) holds.session)⟩
    · rw [if_neg iac, if_neg iac]
      exact ⟨_, rfl, h.handled rfl⟩
  | negotiate => exact ⟨_, rfl, h.handled rfl⟩

theorem arrayBytes_ok (h : a.Holds l) (bytes : List UInt8) :
    ∃ b, bytes.foldlM (ArrayLoop.processByte cfg) a = .ok b ∧
      b.Holds (bytes.foldl (processByte cfg) l) := by
  induction bytes generalizing a l with
  | nil => exact ⟨a, rfl, h⟩
  | cons c bytes ih =>
    obtain ⟨next, stepped, holds⟩ := arrayByte_ok h c
    obtain ⟨b, run, final⟩ := ih holds
    refine ⟨b, ?_, final⟩
    rw [List.foldlM_cons, stepped]
    exact run

theorem arrayFlush_eq (h : a.Holds l) : a.flush cfg = flush cfg l := by
  unfold ArrayLoop.flush flush
  rw [h.length, h.bytes, h.session]

end Stores

/-- Whatever the buffer holds, no store is out of range. -/
theorem inArrays_ok (cfg : Config σ) (dataBuffer : Vector UInt8 cfg.dataBufferSize)
    (s : Session σ) (chunk : List UInt8) :
    ∃ after, processReceivedInArrays cfg dataBuffer s chunk =
      .ok (processReceivedOverTcp cfg s chunk, after) := by
  unfold processReceivedInArrays processReceivedOverTcp
  by_cases fast : fastPath s.server chunk
  · rw [if_pos fast, if_pos fast]
    exact ⟨dataBuffer, rfl⟩
  · have start : (⟨s, dataBuffer, 0⟩ : ArrayLoop σ cfg.dataBufferSize).Holds ⟨s, []⟩ :=
      ⟨rfl, cfg.dataBufferSize_pos, rfl⟩
    obtain ⟨b, run, holds⟩ := arrayBytes_ok start chunk
    rw [if_neg fast, if_neg fast, run, ← arrayFlush_eq holds]
    exact ⟨b.dataBuffer, rfl⟩

/-! ### The batches -/

/-- Every batch of data in `es` has a byte, and at most `limit`. -/
def BatchesWithin (limit : Nat) (es : List Event) : Prop :=
  ∀ data, .dataReceived data ∈ es → 1 ≤ data.length ∧ data.length ≤ limit

theorem BatchesWithin.append {limit : Nat} {es fs : List Event} (hes : BatchesWithin limit es)
    (hfs : BatchesWithin limit fs) : BatchesWithin limit (es ++ fs) := by
  intro data mem
  rcases List.mem_append.mp mem with mem | mem
  · exact hes data mem
  · exact hfs data mem

theorem BatchesWithin.mono {limit limit' : Nat} {es : List Event} (h : BatchesWithin limit es)
    (more : limit ≤ limit') : BatchesWithin limit' es :=
  fun data mem => ⟨(h data mem).1, (h data mem).2.trans more⟩

theorem batchesWithin_of_calls {es : List Event} (only : ∀ e ∈ es, e.isCall = true)
    (limit : Nat) : BatchesWithin limit es := by
  intro data mem
  cases only _ mem

theorem onDataReceived_batch (cfg : Config σ) (s : Session σ) (data : List UInt8) (limit : Nat)
    (some_data : 1 ≤ data.length) (short : data.length ≤ limit) :
    ∃ es, (onDataReceived cfg s data).trace = s.trace ++ es ∧ BatchesWithin limit es := by
  rw [onDataReceived_eq]
  split
  · refine ⟨[.dataReceived data], rfl, ?_⟩
    intro data' mem
    obtain rfl : data' = data := by simpa using mem
    exact ⟨some_data, short⟩
  · exact ⟨[], (List.append_nil _).symm, nofun⟩

/-- After `n` bytes of a chunk: the trace since its start, and the bytes in hand. -/
structure Batching (cfg : Config σ) (before : List Event) (n : Nat) (l : Loop σ) : Prop where
  batches : ∃ es, l.session.trace = before ++ es ∧ BatchesWithin (min n cfg.dataBufferSize) es
  room : l.buffer.length < cfg.dataBufferSize
  inHand : l.buffer.length ≤ n

section Batches
variable {cfg : Config σ} {before : List Event} {n : Nat} {l : Loop σ}

/-- A handler that only makes calls. -/
theorem Batching.handled (h : Batching cfg before n l) {f : Session σ → Session σ}
    (appends : Appends Event.isCall f) : Batching cfg before (n + 1) ⟨f l.session, l.buffer⟩ := by
  obtain ⟨es, trace, within⟩ := h.batches
  obtain ⟨more, only, extended⟩ := appends.trace l.session
  refine ⟨⟨es ++ more, ?_, ?_⟩, h.room, Nat.le_succ_of_le h.inHand⟩
  · rw [extended, trace, List.append_assoc]
  · exact (within.mono (by omega)).append (batchesWithin_of_calls only _)

theorem Batching.buffered (h : Batching cfg before n l) (c : UInt8) :
    Batching cfg before (n + 1) (bufferData cfg l c) := by
  obtain ⟨es, trace, within⟩ := h.batches
  have room := h.room
  have inHand := h.inHand
  have length : (l.buffer ++ [c]).length = l.buffer.length + 1 := List.length_append
  unfold bufferData
  dsimp only
  by_cases full : cfg.dataBufferSize ≤ (l.buffer ++ [c]).length
  · obtain ⟨more, extended, batch⟩ := onDataReceived_batch cfg l.session (l.buffer ++ [c])
      (min (n + 1) cfg.dataBufferSize) (by omega) (by omega)
    rw [if_pos full]
    refine ⟨⟨es ++ more, ?_, ?_⟩, cfg.dataBufferSize_pos, Nat.zero_le _⟩
    · rw [extended, trace, List.append_assoc]
    · exact (within.mono (by omega)).append batch
  · rw [if_neg full]
    refine ⟨⟨es, trace, within.mono (by omega)⟩, Nat.lt_of_not_le full, ?_⟩
    rw [length]
    omega

theorem Batching.stored (h : Batching cfg before n l) (c : UInt8) :
    Batching cfg before (n + 1) (storeByte cfg l c) := by
  unfold storeByte
  split
  · exact h.handled (appends_collectSuboption c)
  · exact h.buffered c

/-- Setting the mode is no byte of its own. -/
theorem Batching.setMode (h : Batching cfg before n l) (mode : TelnetMode) :
    Batching cfg before n ⟨l.session.setMode mode, l.buffer⟩ := ⟨h.batches, h.room, h.inHand⟩

theorem Batching.byte (h : Batching cfg before n l) (c : UInt8) :
    Batching cfg before (n + 1) (processByte cfg l c) := by
  unfold processByte
  cases l.session.server.telnetMode with
  | normal =>
    dsimp only
    split
    · exact h.handled (appends_modify _)
    · exact h.stored c
  | gotIac =>
    dsimp only
    split
    · exact (h.stored c).setMode .normal
    · exact h.handled (appends_afterIac cfg c)
  | negotiate =>
    exact h.handled ((appends_telnetNegotiateOption cfg _ c).comp (appends_modify _))

theorem Batching.bytes (h : Batching cfg before n l) (bytes : List UInt8) :
    Batching cfg before (n + bytes.length) (bytes.foldl (processByte cfg) l) := by
  induction bytes generalizing n l with
  | nil => exact h
  | cons c bytes ih =>
    have rest := ih (h.byte c)
    rwa [Nat.add_assoc, Nat.add_comm 1] at rest

theorem Batching.flushed (h : Batching cfg before n l) :
    ∃ es, (flush cfg l).trace = before ++ es ∧ BatchesWithin (min n cfg.dataBufferSize) es := by
  obtain ⟨es, trace, within⟩ := h.batches
  have room := h.room
  have inHand := h.inHand
  unfold flush
  by_cases some_left : 0 < l.buffer.length
  · obtain ⟨more, extended, batch⟩ := onDataReceived_batch cfg l.session l.buffer
      (min n cfg.dataBufferSize) some_left (by omega)
    rw [if_pos some_left]
    refine ⟨es ++ more, ?_, within.append batch⟩
    rw [extended, trace, List.append_assoc]
  · rw [if_neg some_left]
    exact ⟨es, trace, within⟩

end Batches

theorem process_batches (cfg : Config σ) (s : Session σ) {chunk : List UInt8}
    (nonempty : chunk ≠ []) :
    ∃ es, (processReceivedOverTcp cfg s chunk).trace = s.trace ++ es ∧
      BatchesWithin chunk.length es ∧
      (¬ fastPath s.server chunk → BatchesWithin cfg.dataBufferSize es) := by
  unfold processReceivedOverTcp
  by_cases fast : fastPath s.server chunk
  · obtain ⟨es, trace, within⟩ := onDataReceived_batch cfg s chunk chunk.length
      (List.length_pos_iff.mpr nonempty) (Nat.le_refl chunk.length)
    rw [if_pos fast]
    exact ⟨es, trace, within, fun slow => absurd fast slow⟩
  · have start : Batching cfg s.trace 0 ⟨s, []⟩ :=
      ⟨⟨[], (List.append_nil _).symm, nofun⟩, cfg.dataBufferSize_pos, Nat.le_refl 0⟩
    obtain ⟨es, trace, within⟩ := (start.bytes chunk).flushed
    rw [if_neg fast]
    exact ⟨es, trace, within.mono (by omega), fun _ => within.mono (Nat.min_le_right _ _)⟩

/-! ### Another buffer -/

def Config.withBuffer (cfg : Config σ) (size : Nat) (pos : 0 < size) : Config σ :=
  { cfg with dataBufferSize := size, dataBufferSize_pos := pos }

section Sizes
variable (cfg : Config σ) (size : Nat) (pos : 0 < size)

theorem telnetNegotiateOption_withBuffer (s : Session σ) (command option : UInt8) :
    telnetNegotiateOption (cfg.withBuffer size pos) s command option =
      telnetNegotiateOption cfg s command option := by
  rw [telnetNegotiateOption_eq, telnetNegotiateOption_eq]
  rfl

/-- The parser without a data buffer does not look at its size. -/
theorem parse_withBuffer : parse (cfg.withBuffer size pos) = parse cfg := by
  have byte : parseByte (cfg.withBuffer size pos) = parseByte cfg := by
    funext s c
    unfold parseByte
    rw [telnetNegotiateOption_withBuffer]
    rfl
  funext s bytes
  rw [parse, parse, byte]

theorem process_withBuffer {s t : Session σ} (same : outcome s = outcome t) (chunk : List UInt8) :
    outcome (processReceivedOverTcp (cfg.withBuffer size pos) s chunk) =
      outcome (processReceivedOverTcp cfg t chunk) := by
  have server : s.server = t.server := congrArg Outcome.server same
  unfold processReceivedOverTcp
  rw [server]
  by_cases fast : fastPath t.server chunk
  · rw [if_pos fast, if_pos fast, outcome_onDataReceived, outcome_onDataReceived, same]
    rfl
  · rw [if_neg fast, if_neg fast]
    calc outcome (processBytes (cfg.withBuffer size pos) s chunk)
        = outcome (parse (cfg.withBuffer size pos) t chunk) := processBytes_outcome _ same chunk
      _ = outcome (parse cfg t chunk) := by rw [parse_withBuffer]
      _ = outcome (processBytes cfg t chunk) := (processBytes_outcome cfg rfl chunk).symm

theorem receive_withBuffer (s : Session σ) (chunks : List (List UInt8)) :
    outcome (receive (cfg.withBuffer size pos) s chunks) = outcome (receive cfg s chunks) := by
  have keeps : ∀ (a b : Session σ) (chunk : List UInt8), outcome a = outcome b →
      outcome (processReceivedOverTcp (cfg.withBuffer size pos) a chunk) =
        outcome (processReceivedOverTcp cfg b chunk) :=
    fun _ _ chunk same => process_withBuffer cfg size pos same chunk
  exact Runs.simulation keeps rfl chunks

end Sizes

theorem parseStore_suboptionSize (cfg : Config σ) (s : Session σ) (c : UInt8)
    (fits : s.server.suboptionSize ≤ suboptionCapacity) :
    (parseStore cfg s c).server.suboptionSize ≤ suboptionCapacity := by
  unfold parseStore
  split
  · by_cases room : s.server.suboptionSize < suboptionCapacity
    · rw [collectSuboption_room s c room]
      exact room
    · rw [collectSuboption_full s c room]
      exact Nat.zero_le _
  · rwa [onDataReceived_server]

theorem parseByte_suboptionSize (cfg : Config σ) (s : Session σ) (c : UInt8)
    (fits : s.server.suboptionSize ≤ suboptionCapacity) :
    (parseByte cfg s c).server.suboptionSize ≤ suboptionCapacity := by
  have stored := parseStore_suboptionSize cfg s c fits
  unfold parseByte
  cases s.server.telnetMode with
  | normal =>
    dsimp only
    split
    · exact fits
    · exact stored
  | gotIac =>
    dsimp only
    split
    · exact stored
    · unfold afterIac
      split
      · exact Nat.zero_le _
      split
      · exact Nat.zero_le _
      split
      · exact fits
      · exact fits
  | negotiate =>
    obtain ⟨options, known, same⟩ :=
      telnetNegotiateOption_server cfg s s.server.telnetCommand c
    have kept := congrArg Server.suboptionSize same
    exact kept.trans_le fits

theorem suboptionSize_le (cfg : Config σ) (s : Session σ) (reached : Reached cfg s) :
    s.server.suboptionSize ≤ suboptionCapacity :=
  reached_invariant (P := fun server => server.suboptionSize ≤ suboptionCapacity) cfg
    (fun _ => Nat.zero_le _) (parseByte_suboptionSize cfg) s reached

/-- After any chunks of a connection, with any buffer: the stores of the next chunk are in range,
every batch of data has a byte and is no longer than the chunk and, out of the byte loop, than the
buffer; and another buffer changes nothing but the batches. -/
theorem buffers_in_range (cfg : Config σ) (before : Session σ) (chunks : List (List UInt8))
    (chunk : List UInt8) (nonempty : chunk ≠ []) :
    (∀ dataBuffer, ∃ after,
      processReceivedInArrays cfg dataBuffer (receive cfg before chunks) chunk =
        .ok (receive cfg before (chunks ++ [chunk]), after)) ∧
    (receive cfg before (chunks ++ [chunk])).server.suboptionSize ≤ suboptionCapacity ∧
    (∃ es,
      (receive cfg before (chunks ++ [chunk])).trace = (receive cfg before chunks).trace ++ es ∧
      BatchesWithin chunk.length es ∧
      (¬ fastPath (receive cfg before chunks).server chunk →
        BatchesWithin cfg.dataBufferSize es)) ∧
    ∀ size pos,
      outcome (receive (cfg.withBuffer size pos) before (chunks ++ [chunk])) =
        outcome (receive cfg before (chunks ++ [chunk])) := by
  have next : receive cfg before (chunks ++ [chunk]) =
      processReceivedOverTcp cfg (receive cfg before chunks) chunk := by
    rw [receive, List.foldl_append]
    rfl
  refine ⟨?_, suboptionSize_le cfg _ ⟨before, chunks ++ [chunk], rfl⟩, ?_, ?_⟩
  · rw [next]
    exact fun dataBuffer => inArrays_ok cfg dataBuffer _ chunk
  · rw [next]
    exact process_batches cfg _ nonempty
  · exact fun size pos => receive_withBuffer cfg size pos before (chunks ++ [chunk])

/-- An escaped IAC that is cut in two. -/
theorem buffers_in_range_relay :
    (∀ dataBuffer, ∃ after,
      processReceivedInArrays relayConfig dataBuffer
          (receive relayConfig (rfc2217ServerCreate ()) [[tIac]]) [tIac, 7] =
        .ok (receive relayConfig (rfc2217ServerCreate ()) ([[tIac]] ++ [[tIac, 7]]), after)) ∧
    (receive relayConfig (rfc2217ServerCreate ()) ([[tIac]] ++ [[tIac, 7]])).server.suboptionSize ≤
      suboptionCapacity ∧
    (∃ es,
      (receive relayConfig (rfc2217ServerCreate ()) ([[tIac]] ++ [[tIac, 7]])).trace =
        (receive relayConfig (rfc2217ServerCreate ()) [[tIac]]).trace ++ es ∧
      BatchesWithin [tIac, 7].length es ∧
      (¬ fastPath (receive relayConfig (rfc2217ServerCreate ()) [[tIac]]).server [tIac, 7] →
        BatchesWithin relayConfig.dataBufferSize es)) ∧
    ∀ size pos,
      outcome (receive (relayConfig.withBuffer size pos) (rfc2217ServerCreate ())
          ([[tIac]] ++ [[tIac, 7]])) =
        outcome (receive relayConfig (rfc2217ServerCreate ()) ([[tIac]] ++ [[tIac, 7]])) :=
  buffers_in_range relayConfig (rfc2217ServerCreate ()) [[tIac]] [tIac, 7] (List.cons_ne_nil _ _)

end Rocom.Rfc2217
