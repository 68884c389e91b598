import Rocom.Lib.Runs
import Rocom.Rfc2217.Answer

/-! The parser without its data buffer. `parseByte` is `processByte` that hands every data
byte over at once, so a stream has one meaning, however it is cut. The buffered loop is
related to it, and the fast path agrees with it outside a subnegotiation only. -/
namespace Rocom.Rfc2217

variable {σ : Type}

def parseStore (cfg : Config σ) (s : Session σ) (c : UInt8) : Session σ :=
  if s.server.collectingSuboption then collectSuboption s c else onDataReceived cfg s [c]

def parseByte (cfg : Config σ) (s : Session σ) (c : UInt8) : Session σ :=
  match s.server.telnetMode with
  | .normal => if c = tIac then s.setMode .gotIac else parseStore cfg s c
  | .gotIac =>
    if c = tIac then (parseStore cfg s c).setMode .normal else afterIac cfg s c
  | .negotiate =>
    (telnetNegotiateOption cfg s s.server.telnetCommand c).setMode .normal

def parse (cfg : Config σ) (s : Session σ) (bytes : List UInt8) : Session σ :=
  bytes.foldl (parseByte cfg) s

theorem parse_append (cfg : Config σ) (s : Session σ) (xs ys : List UInt8) :
    parse cfg s (xs ++ ys) = parse cfg (parse cfg s xs) ys := List.foldl_append

/-- What a session shows, apart from how the data bytes were batched. -/
structure Outcome (σ : Type) where
  server : Server
  ctx : σ
  received : List UInt8
  calls : List Event

def outcome (s : Session σ) : Outcome σ :=
  ⟨s.server, s.ctx, receivedBytes s.trace, calls s.trace⟩

/-- Sessions with one outcome have made the same replies. -/
theorem replies_of_outcome {a b : Session σ} (h : outcome a = outcome b) :
    replies a.trace = replies b.trace := by
  rw [← replies_calls a.trace, ← replies_calls b.trace]
  exact congrArg (fun o => replies o.calls) h

def Outcome.receive (cfg : Config σ) (o : Outcome σ) (data : List UInt8) : Outcome σ :=
  { o with received := o.received ++ if cfg.onDataReceived.isSome then data else [] }

@[simp] theorem Outcome.receive_nil (cfg : Config σ) (o : Outcome σ) : o.receive cfg [] = o := by
  simp [Outcome.receive]

@[simp] theorem Outcome.receive_append (cfg : Config σ) (o : Outcome σ) (xs ys : List UInt8) :
    o.receive cfg (xs ++ ys) = (o.receive cfg xs).receive cfg ys := by
  cases h : cfg.onDataReceived.isSome <;> simp [Outcome.receive, h]

theorem outcome_onDataReceived (cfg : Config σ) (s : Session σ) (data : List UInt8) :
    outcome (onDataReceived cfg s data) = (outcome s).receive cfg data := by
  cases h : cfg.onDataReceived.isSome <;>
    simp [onDataReceived_eq, outcome, Outcome.receive, Session.log, h]

/-- The loop with its buffered bytes counted as received. -/
def Loop.outcome (cfg : Config σ) (l : Loop σ) : Outcome σ :=
  (Rfc2217.outcome l.session).receive cfg l.buffer

theorem flush_outcome (cfg : Config σ) (l : Loop σ) :
    outcome (flush cfg l) = l.outcome cfg := by
  unfold flush
  split
  · exact outcome_onDataReceived cfg l.session l.buffer
  · rename_i h
    have empty : l.buffer = [] := List.length_eq_zero_iff.mp (by omega)
    rw [Loop.outcome, empty, Outcome.receive_nil]

/-- A handler that leaves the buffer alone. -/
theorem Appends.loop_congr {f : Session σ → Session σ} (hf : Appends Event.isCall f) {cfg : Config σ}
    {l : Loop σ} {p : Session σ} (h : l.outcome cfg = outcome p) :
    Loop.outcome cfg ⟨f l.session, l.buffer⟩ = outcome (f p) := by
  obtain ⟨⟨server, ctx, t⟩, buffer⟩ := l
  obtain ⟨server₂, ctx₂, u⟩ := p
  simp only [Loop.outcome, Outcome.receive, outcome, Outcome.mk.injEq] at h
  obtain ⟨rfl, rfl, hr, hc⟩ := h
  obtain ⟨server', ctx', es, hes, hfe⟩ := hf server ctx
  simp only [hfe, Loop.outcome, Outcome.receive, outcome, receivedBytes_append, calls_append,
    receivedBytes_of_calls hes, hc, List.append_nil, hr]

theorem loop_server {cfg : Config σ} {l : Loop σ} {p : Session σ}
    (h : l.outcome cfg = outcome p) : l.session.server = p.server :=
  congrArg Outcome.server h

theorem bufferData_outcome (cfg : Config σ) {l : Loop σ} {p : Session σ}
    (h : l.outcome cfg = outcome p) (c : UInt8) :
    (bufferData cfg l c).outcome cfg = outcome (onDataReceived cfg p [c]) := by
  rw [outcome_onDataReceived, ← h]
  by_cases full : cfg.dataBufferSize ≤ (l.buffer ++ [c]).length
  · simp only [bufferData, if_pos full, Loop.outcome, outcome_onDataReceived,
      Outcome.receive_append, Outcome.receive_nil]
  · simp only [bufferData, if_neg full, Loop.outcome, Outcome.receive_append]

theorem storeByte_outcome (cfg : Config σ) {l : Loop σ} {p : Session σ}
    (h : l.outcome cfg = outcome p) (c : UInt8) :
    (storeByte cfg l c).outcome cfg = outcome (parseStore cfg p c) := by
  unfold storeByte parseStore
  rw [loop_server h]
  split
  · exact (appends_collectSuboption c).loop_congr h
  · exact bufferData_outcome cfg h c

/-- One byte of the buffered loop is one byte of the unbuffered parser. -/
theorem processByte_outcome (cfg : Config σ) (l : Loop σ) (p : Session σ) (c : UInt8)
    (h : l.outcome cfg = outcome p) :
    (processByte cfg l c).outcome cfg = outcome (parseByte cfg p c) := by
  unfold processByte parseByte
  rw [loop_server h]
  cases p.server.telnetMode with
  | normal =>
    by_cases hc : c = tIac
    · simp only [if_pos hc]
      exact (appends_modify _).loop_congr h
    · simp only [if_neg hc]
      exact storeByte_outcome cfg h c
  | gotIac =>
    by_cases hc : c = tIac
    · simp only [if_pos hc]
      exact (appends_modify _).loop_congr (storeByte_outcome cfg h c)
    · simp only [if_neg hc]
      exact (appends_afterIac cfg c).loop_congr h
  | negotiate =>
    exact ((appends_telnetNegotiateOption cfg _ c).comp (appends_modify _)).loop_congr h

/-- The slow path taken for every chunk. -/
def processBytes (cfg : Config σ) (s : Session σ) (chunk : List UInt8) : Session σ :=
  flush cfg (chunk.foldl (processByte cfg) ⟨s, []⟩)

theorem processBytes_outcome (cfg : Config σ) {s p : Session σ} (h : outcome s = outcome p)
    (chunk : List UInt8) : outcome (processBytes cfg s chunk) = outcome (parse cfg p chunk) := by
  have start : Loop.outcome cfg ⟨s, []⟩ = outcome p := by
    rw [Loop.outcome, Outcome.receive_nil, h]
  rw [processBytes, flush_outcome]
  exact Runs.simulation (processByte_outcome cfg) start chunk

theorem onDataReceived_server (cfg : Config σ) (s : Session σ) (data : List UInt8) :
    (onDataReceived cfg s data).server = s.server := by
  rw [onDataReceived_eq]
  split <;> rfl

theorem flush_server (cfg : Config σ) (l : Loop σ) :
    (flush cfg l).server = l.session.server := by
  unfold flush
  split
  · exact onDataReceived_server cfg l.session l.buffer
  · rfl

/-! A run only adds to the trace. -/

theorem onDataReceived_extends (cfg : Config σ) (s : Session σ) (data : List UInt8) :
    s.trace <+: (onDataReceived cfg s data).trace := by
  rw [onDataReceived_eq]
  split
  · exact List.prefix_append _ _
  · exact List.prefix_rfl

theorem Appends.extends {ok : Event → Bool} {f : Session σ → Session σ} (hf : Appends ok f)
    (s : Session σ) : s.trace <+: (f s).trace := by
  obtain ⟨es, _, h⟩ := hf.trace s
  exact ⟨es, h.symm⟩

theorem processByte_extends (cfg : Config σ) (l : Loop σ) (c : UInt8) :
    l.session.trace <+: (processByte cfg l c).session.trace := by
  have store : l.session.trace <+: (storeByte cfg l c).session.trace := by
    unfold storeByte
    split
    · exact List.prefix_rfl
    · simp only [bufferData]
      split
      · exact onDataReceived_extends cfg l.session _
      · exact List.prefix_rfl
  unfold processByte
  cases l.session.server.telnetMode with
  | normal =>
    simp only
    split
    · exact List.prefix_rfl
    · exact store
  | gotIac =>
    simp only
    split
    · exact store
    · exact (appends_afterIac cfg c).extends l.session
  | negotiate => exact (appends_telnetNegotiateOption cfg _ c).extends l.session

theorem flush_extends (cfg : Config σ) (l : Loop σ) :
    l.session.trace <+: (flush cfg l).trace := by
  unfold flush
  split
  · exact onDataReceived_extends cfg l.session l.buffer
  · exact List.prefix_rfl

theorem bytes_extend (cfg : Config σ) (l : Loop σ) (bytes : List UInt8) :
    l.session.trace <+: (bytes.foldl (processByte cfg) l).session.trace :=
  Runs.invariant (P := fun k : Loop σ => l.session.trace <+: k.session.trace)
    (fun k c h => h.trans (processByte_extends cfg k c)) l List.prefix_rfl bytes

theorem process_extends (cfg : Config σ) (s : Session σ) (chunk : List UInt8) :
    s.trace <+: (processReceivedOverTcp cfg s chunk).trace := by
  unfold processReceivedOverTcp
  split
  · exact onDataReceived_extends cfg s chunk
  · exact (bytes_extend cfg ⟨s, []⟩ chunk).trans (flush_extends cfg _)

theorem chunks_extend (cfg : Config σ) (s : Session σ) (chunks : List (List UInt8)) :
    s.trace <+: (chunks.foldl (processReceivedOverTcp cfg) s).trace :=
  Runs.invariant (P := fun r : Session σ => s.trace <+: r.trace)
    (fun r chunk h => h.trans (process_extends cfg r chunk)) s List.prefix_rfl chunks

theorem parseByte_extends (cfg : Config σ) (s : Session σ) (c : UInt8) :
    s.trace <+: (parseByte cfg s c).trace := by
  have store : s.trace <+: (parseStore cfg s c).trace := by
    unfold parseStore
    split
    · exact List.prefix_rfl
    · exact onDataReceived_extends cfg s [c]
  unfold parseByte
  cases s.server.telnetMode with
  | normal =>
    simp only
    split
    · exact List.prefix_rfl
    · exact store
  | gotIac =>
    simp only
    split
    · exact store
    · exact (appends_afterIac cfg c).extends s
  | negotiate => exact (appends_telnetNegotiateOption cfg _ c).extends s

theorem parse_extends (cfg : Config σ) (s : Session σ) (bytes : List UInt8) :
    s.trace <+: (parse cfg s bytes).trace :=
  Runs.invariant (P := fun p : Session σ => s.trace <+: p.trace)
    (fun p c h => h.trans (parseByte_extends cfg p c)) s List.prefix_rfl bytes

theorem prefixes_same_first {α : Type} {xs rest es fs : List α} {x y : α}
    (hx : xs ++ x :: es <+: rest) (hy : xs ++ y :: fs <+: rest) : x = y := by
  obtain ⟨t, rfl⟩ := hx
  obtain ⟨u, h⟩ := hy
  simp only [List.append_assoc, List.append_cancel_left_eq, List.cons_append,
    List.cons.injEq] at h
  exact h.1.symm

/-- The defect of the fast path: it is taken although suboption bytes are collected. -/
def Diverted (server : Server) (chunk : List UInt8) : Prop :=
  fastPath server chunk ∧ server.collectingSuboption = true

instance (server : Server) (chunk : List UInt8) : Decidable (Diverted server chunk) :=
  inferInstanceAs (Decidable (_ ∧ _))

theorem parseByte_plain (cfg : Config σ) (s : Session σ) {c : UInt8}
    (mode : s.server.telnetMode = .normal) (hc : c ≠ tIac) :
    parseByte cfg s c = parseStore cfg s c := by
  simp only [parseByte, mode, if_neg hc]

theorem setMode_self (s : Session σ) {mode : TelnetMode} (h : s.server.telnetMode = mode) :
    s.setMode mode = s := by
  subst h
  rfl

theorem parseStore_setMode (cfg : Config σ) (s : Session σ) (mode : TelnetMode) (c : UInt8) :
    parseStore cfg (s.setMode mode) c = (parseStore cfg s c).setMode mode := by
  have same : (s.setMode mode).server.collectingSuboption = s.server.collectingSuboption := rfl
  unfold parseStore
  rw [same]
  split
  · by_cases room : s.server.suboptionSize < suboptionCapacity <;>
      simp [collectSuboption, Session.setMode, Session.modify, room]
  · rw [onDataReceived_eq, onDataReceived_eq]
    split <;> rfl

theorem parseStore_mode (cfg : Config σ) (s : Session σ) (c : UInt8) :
    (parseStore cfg s c).server.telnetMode = s.server.telnetMode := by
  have h := parseStore_setMode cfg s s.server.telnetMode c
  rw [setMode_self s rfl] at h
  exact congrArg (fun s => s.server.telnetMode) h

/-- Outside commands the parser reads an escaped body as the body. -/
theorem parse_escaped (cfg : Config σ) (s : Session σ) (mode : s.server.telnetMode = .normal)
    (body : List UInt8) : parse cfg s (escapeIac body) = body.foldl (parseStore cfg) s := by
  refine Stuffing.foldl_double (fun s c mode hc => parseByte_plain cfg s mode hc) ?_
    (fun s c mode => (parseStore_mode cfg s c).trans mode) s mode body
  intro s mode
  have first : parseByte cfg s tIac = s.setMode .gotIac := by simp only [parseByte, mode, if_true]
  have second : parseByte cfg (s.setMode .gotIac) tIac =
      (parseStore cfg (s.setMode .gotIac) tIac).setMode .normal := rfl
  rw [first, second, parseStore_setMode]
  exact setMode_self _ ((parseStore_mode cfg s tIac).trans mode)

/-- Outside a subnegotiation a body only adds to the received data. -/
theorem store_idle (cfg : Config σ) (s : Session σ) (idle : s.server.collectingSuboption = false)
    (body : List UInt8) :
    outcome (body.foldl (parseStore cfg) s) = (outcome s).receive cfg body := by
  induction body generalizing s with
  | nil => rw [Outcome.receive_nil]; rfl
  | cons c body ih =>
    have hs : parseStore cfg s c = onDataReceived cfg s [c] := by
      rw [parseStore, idle]
      rfl
    rw [List.foldl_cons, hs]
    refine (ih _ (onDataReceived_server cfg s [c] ▸ idle)).trans ?_
    rw [outcome_onDataReceived, ← Outcome.receive_append, List.singleton_append]

theorem parse_plain (cfg : Config σ) (s : Session σ) (chunk : List UInt8)
    (fast : fastPath s.server chunk) (idle : s.server.collectingSuboption = false) :
    outcome (parse cfg s chunk) = (outcome s).receive cfg chunk := by
  have h := parse_escaped cfg s fast.1 chunk
  rw [escapeIac, Stuffing.double_of_not_mem fast.2] at h
  rw [h, store_idle cfg s idle]

theorem collectSuboption_room (s : Session σ) (c : UInt8)
    (room : s.server.suboptionSize < suboptionCapacity) :
    (collectSuboption s c).server =
      { s.server with
        suboption := s.server.suboption.set s.server.suboptionSize c room
        suboptionSize := s.server.suboptionSize + 1 } := by
  simp only [collectSuboption, Session.modify, dif_pos room]

theorem collectSuboption_full (s : Session σ) (c : UInt8)
    (full : ¬ s.server.suboptionSize < suboptionCapacity) :
    (collectSuboption s c).server =
      { s.server with collectingSuboption := false, suboptionSize := 0 } := by
  simp only [collectSuboption, Session.modify, dif_neg full]

/-- Inside one it is collected, or the buffer overflows. -/
theorem store_collecting (cfg : Config σ) (s : Session σ) (body : List UInt8) :
    (body.foldl (parseStore cfg) s).server.collectingSuboption = false ∨
      (body.foldl (parseStore cfg) s).server.suboptionSize =
        s.server.suboptionSize + body.length := by
  induction body generalizing s with
  | nil => exact .inr rfl
  | cons c body ih =>
    by_cases collecting : s.server.collectingSuboption
    · have first : parseStore cfg s c = collectSuboption s c := by
        rw [parseStore, if_pos collecting]
      rw [List.foldl_cons, first]
      by_cases room : s.server.suboptionSize < suboptionCapacity
      · have h := ih (collectSuboption s c)
        rw [collectSuboption_room s c room] at h
        rw [List.length_cons, Nat.add_comm body.length, ← Nat.add_assoc]
        exact h
      · have idle : (collectSuboption s c).server.collectingSuboption = false := by
          rw [collectSuboption_full s c room]
        exact .inl ((congrArg (fun o => o.server.collectingSuboption)
          (store_idle cfg _ idle body)).trans idle)
    · have idle := Bool.eq_false_iff.mpr collecting
      exact .inl ((congrArg (fun o => o.server.collectingSuboption)
        (store_idle cfg s idle (c :: body))).trans idle)

theorem parse_collecting (cfg : Config σ) (s : Session σ) (chunk : List UInt8)
    (fast : fastPath s.server chunk) :
    (parse cfg s chunk).server.collectingSuboption = false ∨
      (parse cfg s chunk).server.suboptionSize = s.server.suboptionSize + chunk.length := by
  have h := parse_escaped cfg s fast.1 chunk
  rw [escapeIac, Stuffing.double_of_not_mem fast.2] at h
  rw [h]
  exact store_collecting cfg s chunk

theorem process_outcome (cfg : Config σ) {s p : Session σ} (h : outcome s = outcome p)
    {chunk : List UInt8} (direct : ¬ Diverted s.server chunk) :
    outcome (processReceivedOverTcp cfg s chunk) = outcome (parse cfg p chunk) := by
  unfold processReceivedOverTcp
  split
  · rename_i fast
    have idle : s.server.collectingSuboption = false :=
      Bool.eq_false_iff.mpr fun hc => direct ⟨fast, hc⟩
    have hserver : s.server = p.server := congrArg Outcome.server h
    rw [parse_plain cfg p chunk (hserver ▸ fast) (hserver ▸ idle), outcome_onDataReceived, h]
  · exact processBytes_outcome cfg h chunk

/-- A diverted chunk leaves a state that the byte loop cannot leave. -/
theorem diverted_server_ne (cfg : Config σ) {s p : Session σ} (h : s.server = p.server)
    {chunk : List UInt8} (nonempty : chunk ≠ []) (diverted : Diverted s.server chunk) :
    (processReceivedOverTcp cfg s chunk).server ≠ (parse cfg p chunk).server := by
  intro same
  have kept : (processReceivedOverTcp cfg s chunk).server = s.server := by
    rw [processReceivedOverTcp, if_pos diverted.1, onDataReceived_server]
  have positive := List.length_pos_iff.mpr nonempty
  rcases parse_collecting cfg p chunk (h ▸ diverted.1) with idle | grown
  · rw [← same, kept, diverted.2] at idle
    cases idle
  · rw [← same, kept, h] at grown
    omega

/-- The session after some chunks of a new connection. -/
def receive (cfg : Config σ) (s : Session σ) (chunks : List (List UInt8)) : Session σ :=
  chunks.foldl (processReceivedOverTcp cfg) (startConnection s)

/-- No chunk is handed over while suboption bytes are collected, unless it has an IAC
or the parser is in the middle of a command. -/
def Undiverted (cfg : Config σ) (s : Session σ) (chunks : List (List UInt8)) : Prop :=
  Runs.Along (processReceivedOverTcp cfg) (fun s chunk => ¬ Diverted s.server chunk)
    (startConnection s) chunks

theorem receive_outcome (cfg : Config σ) (s : Session σ) (chunks : List (List UInt8))
    (direct : Undiverted cfg s chunks) :
    outcome (receive cfg s chunks) = outcome (parse cfg (startConnection s) chunks.flatten) := by
  have keeps : ∀ (a b : Session σ) (chunk : List UInt8), outcome a = outcome b →
      ¬ Diverted a.server chunk →
      outcome (processReceivedOverTcp cfg a chunk) = outcome (parse cfg b chunk) :=
    fun _ _ _ same hd => process_outcome cfg same hd
  have start : outcome (startConnection s) = outcome (startConnection s) := rfl
  rw [receive, Runs.guarded_simulation keeps start chunks direct, parse, List.foldl_flatten]
  rfl

theorem undiverted_single (cfg : Config σ) (s : Session σ) (chunk : List UInt8) :
    Undiverted cfg s [chunk] :=
  ⟨fun h => Bool.false_ne_true h.2, trivial⟩

/-- Cuttings without a diverted chunk agree, and a diverted chunk shows at its own end,
against the same bytes handed over at once. For one chunk the test is exact as well. -/
theorem chunking_independence (cfg : Config σ) (s : Session σ) :
    (∀ cs : List (List UInt8), (∀ c ∈ cs, c ≠ []) →
      (Undiverted cfg s cs ↔
        ∀ p, p <+: cs → ∀ ds : List (List UInt8), (∀ d ∈ ds, d ≠ []) →
          ds.flatten = p.flatten → Undiverted cfg s ds →
          outcome (receive cfg s p) = outcome (receive cfg s ds))) ∧
    (∀ (s : Session σ) (chunk : List UInt8), chunk ≠ [] →
      (¬ Diverted s.server chunk ↔
        outcome (processReceivedOverTcp cfg s chunk) = outcome (processBytes cfg s chunk))) := by
  refine ⟨fun cs nonempty => ⟨?_, ?_⟩, fun s chunk nonempty => ⟨?_, ?_⟩⟩
  · intro direct p hp ds _ same hds
    rw [receive_outcome cfg s p (Runs.along_of_prefix direct hp), receive_outcome cfg s ds hds, same]
  · intro agree
    by_contra hdiv
    obtain ⟨bs, b, rest, rfl, hbs, hb⟩ := Runs.exists_first_violation _ _ hdiv
    have hne : b ≠ [] := nonempty b (by simp)
    have hprefix : bs ++ [b] <+: bs ++ b :: rest := ⟨rest, by simp⟩
    have h := agree (bs ++ [b]) hprefix [(bs ++ [b]).flatten] (by simp [hne]) (by simp)
      (undiverted_single cfg s _)
    have before := receive_outcome cfg s bs hbs
    rw [receive_outcome cfg s _ (undiverted_single cfg s _), receive, List.foldl_append] at h
    simp only [List.flatten_append, List.flatten_cons, List.flatten_nil, List.append_nil,
      parse_append] at h
    exact diverted_server_ne cfg (congrArg Outcome.server before) hne (not_not.mp hb)
      (congrArg Outcome.server h)
  · intro direct
    rw [process_outcome cfg rfl direct, processBytes_outcome cfg rfl]
  · intro same diverted
    rw [processBytes_outcome cfg (rfl : outcome s = outcome s)] at same
    exact diverted_server_ne cfg rfl nonempty diverted (congrArg Outcome.server same)

/-- A SET_CONTROL request that TCP cut after its third byte. -/
theorem cut_request_lost : ∃ cs ds : List (List UInt8),
    (∀ c ∈ cs, c ≠ []) ∧ (∀ d ∈ ds, d ≠ []) ∧ cs.flatten = ds.flatten ∧
    (outcome (receive relayConfig (rfc2217ServerCreate ()) cs)).received ≠
      (outcome (receive relayConfig (rfc2217ServerCreate ()) ds)).received :=
  ⟨[[tIac, tSb, tComPortOption], [tSetControl, 8], [tIac, tSe]],
    [[tIac, tSb, tComPortOption, tSetControl, 8, tIac, tSe]], by decide⟩

end Rocom.Rfc2217
