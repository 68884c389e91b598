import Rocom.Rfc2217.Stream

/-! Stale suboption bytes. `process_subnegotiation` reads up to six cells of a buffer that is
never cleared and does not look at how many of them were collected. Two runs that share the
first cells of the buffer stay together as long as no answer reads past the shared ones. -/
namespace Rocom.Rfc2217

variable {σ : Type}

abbrev Suboption := Vector UInt8 suboptionCapacity

/-- The number of cells that the answer depends on. -/
def readBytes (sub : Suboption) : Nat :=
  have h0 : 0 < suboptionCapacity := zero_lt_capacity
  have h1 : 1 < suboptionCapacity := one_lt_capacity
  if sub[0] ≠ tComPortOption then 1
  else if sub[1] = tSetBaudrate then 6
  else if sub[1] ∈ requestCommands then 3
  else 2

theorem answer_congr (cfg : Config σ) (ctx : σ) (a b : Suboption)
    (same : ∀ i, (h : i < suboptionCapacity) → i < readBytes a → b[i] = a[i]) :
    answer cfg ctx b = answer cfg ctx a := by
  unfold readBytes at same
  dsimp only at same
  by_cases option : a[0] = tComPortOption
  · rw [if_neg (not_not.mpr option)] at same
    have h0 : b[0] = a[0] := same 0 (by decide) (by split <;> (try split) <;> decide)
    have h1 : b[1] = a[1] := same 1 (by decide) (by split <;> (try split) <;> decide)
    by_cases baudrate : a[1] = tSetBaudrate
    · rw [if_pos baudrate] at same
      have h2 : b[2] = a[2] := same 2 (by decide) (by decide)
      have h3 : b[3] = a[3] := same 3 (by decide) (by decide)
      have h4 : b[4] = a[4] := same 4 (by decide) (by decide)
      have h5 : b[5] = a[5] := same 5 (by decide) (by decide)
      simp only [answer, baudrateOf, h0, h1, h2, h3, h4, h5]
    · rw [if_neg baudrate] at same
      by_cases listed : a[1] ∈ requestCommands
      · rw [if_pos listed] at same
        have h2 : b[2] = a[2] := same 2 (by decide) (by decide)
        simp only [answer, h0, h1, h2, if_neg baudrate]
      · simp only [requestCommands, List.mem_cons, List.not_mem_nil, or_false, not_or] at listed
        simp only [answer, h0, h1, listed, if_false]
  · rw [if_pos option] at same
    have h0 : b[0] = a[0] := same 0 (by decide) (by decide)
    simp only [answer, h0, if_pos option]

theorem octet_beyond (b : UInt8) {i : Nat} (h : 8 ≤ i) : b.toBitVec.getLsbD i = false :=
  BitVec.getLsbD_of_ge _ _ h

theorem baudrateBytes_bigEndian32 (b0 b1 b2 b3 : UInt8) :
    baudrateBytes (bigEndian32 b0 b1 b2 b3) = [b0, b1, b2, b3] := by
  simp only [baudrateBytes, bigEndian32, List.cons.injEq, and_true]
  refine ⟨?_, ?_, ?_, ?_⟩ <;>
  · apply UInt8.toBitVec_inj.mp
    ext i hi
    simp <;> grind [octet_beyond]

theorem subnegotiationBuf_inj {command : UInt8} {xs ys : List UInt8}
    (h : subnegotiationBuf command xs = subnegotiationBuf command ys) : xs = ys := by
  simp only [subnegotiationBuf, List.append_assoc] at h
  exact Stuffing.double_injective tIac
    (List.append_cancel_right (List.append_cancel_left h))

theorem send_ne {command : UInt8} {xs ys : List UInt8} (h : xs ≠ ys) :
    Event.send (subnegotiationBuf command xs) ≠ .send (subnegotiationBuf command ys) :=
  fun same => h (subnegotiationBuf_inj (Event.send.inj same))

/-- Two answers that no later call can make equal. -/
def FirstDiffer (a b : Answer σ) : Prop :=
  ∃ x y es fs, a.events = x :: es ∧ b.events = y :: fs ∧ x ≠ y

theorem baudrate_first (cfg : Config σ) (ctx : σ) (a b : Suboption)
    (differ : [a[2], a[3], a[4], a[5]] ≠ [b[2], b[3], b[4], b[5]]) :
    FirstDiffer (baudrateAnswer cfg ctx (baudrateOf a)) (baudrateAnswer cfg ctx (baudrateOf b)) := by
  have bytes : baudrateBytes (baudrateOf a) ≠ baudrateBytes (baudrateOf b) := by
    simpa only [baudrateOf, baudrateBytes_bigEndian32] using differ
  cases h : cfg.onBaudrate with
  | none =>
    have sent : ∀ b, (baudrateAnswer cfg ctx b).events =
        [.send (subnegotiationBuf tServerSetBaudrate (baudrateBytes b))] := by
      simp [baudrateAnswer, called, callback, h]
    exact ⟨_, _, [], [], sent _, sent _, send_ne bytes⟩
  | some f =>
    have asked : ∀ b, ∃ es, (baudrateAnswer cfg ctx b).events = .baudrate b :: es := by
      simp [baudrateAnswer, called, h]
    obtain ⟨es, ha⟩ := asked (baudrateOf a)
    obtain ⟨fs, hb⟩ := asked (baudrateOf b)
    refine ⟨_, _, es, fs, ha, hb, ?_⟩
    intro same
    exact bytes (congrArg baudrateBytes (Event.baudrate.inj same))

theorem control_first (cfg : Config σ) (ctx : σ) {x y : UInt8} (differ : x ≠ y) :
    FirstDiffer (controlAnswer cfg ctx x) (controlAnswer cfg ctx y) := by
  cases h : cfg.onControl with
  | none =>
    have sent : ∀ v, (controlAnswer cfg ctx v).events =
        [.send (subnegotiationBuf tServerSetControl [v])] := by
      simp [controlAnswer, called, callback, h]
    exact ⟨_, _, [], [], sent _, sent _, send_ne (by simpa using differ)⟩
  | some f =>
    have asked : ∀ v, ∃ es, (controlAnswer cfg ctx v).events = .control v.toUInt32 :: es := by
      simp [controlAnswer, called, h]
    obtain ⟨es, hx⟩ := asked x
    obtain ⟨fs, hy⟩ := asked y
    refine ⟨_, _, es, fs, hx, hy, ?_⟩
    intro same
    have values := congrArg UInt32.toUInt8 (Event.control.inj same)
    simp only [UInt8.toUInt8_toUInt32] at values
    exact differ values

theorem purge_first (cfg : Config σ) (ctx : σ) {x y : UInt8} (differ : x ≠ y) :
    FirstDiffer (purgeAnswer cfg ctx x) (purgeAnswer cfg ctx y) :=
  ⟨_, _, _, _, rfl, rfl, send_ne (by simpa using differ)⟩

theorem echo_first (ctx : σ) (reply : UInt8) {x y : UInt8} (differ : x ≠ y) :
    FirstDiffer (echoAnswer ctx reply x) (echoAnswer ctx reply y) :=
  ⟨_, _, _, _, rfl, rfl, send_ne (by simpa using differ)⟩

/-- The first call of an answer shows the value bytes. -/
theorem answer_first (cfg : Config σ) (ctx : σ) (a b : Suboption)
    (option_a : a[0] = tComPortOption) (option_b : b[0] = tComPortOption)
    (command : b[1] = a[1]) (listed : a[1] ∈ requestCommands)
    (baudrate : a[1] = tSetBaudrate → [a[2], a[3], a[4], a[5]] ≠ [b[2], b[3], b[4], b[5]])
    (value : a[1] ≠ tSetBaudrate → a[2] ≠ b[2]) :
    FirstDiffer (answer cfg ctx a) (answer cfg ctx b) := by
  simp only [requestCommands, List.mem_cons, List.not_mem_nil, or_false] at listed
  rcases listed with h | h | h | h | h | h | h | h <;> rw [h] at command baudrate value
  · simpa +decide [answer, option_a, option_b, h, command] using baudrate_first cfg ctx a b (baudrate rfl)
  · simpa +decide [answer, option_a, option_b, h, command] using echo_first ctx _ (value (by decide))
  · simpa +decide [answer, option_a, option_b, h, command] using echo_first ctx _ (value (by decide))
  · simpa +decide [answer, option_a, option_b, h, command] using echo_first ctx _ (value (by decide))
  · simpa +decide [answer, option_a, option_b, h, command] using control_first cfg ctx (value (by decide))
  · simpa +decide [answer, option_a, option_b, h, command] using echo_first ctx _ (value (by decide))
  · simpa +decide [answer, option_a, option_b, h, command] using echo_first ctx _ (value (by decide))
  · simpa +decide [answer, option_a, option_b, h, command] using purge_first cfg ctx (value (by decide))

/-! Handlers that neither read nor write the buffer. -/

def Session.withSub (s : Session σ) (v : Suboption) : Session σ :=
  s.modify fun server => { server with suboption := v }

def IgnoresSuboption (f : Session σ → Session σ) : Prop :=
  ∀ s v, f (s.withSub v) = (f s).withSub v

theorem ignores_id : IgnoresSuboption (fun s : Session σ => s) := fun _ _ => rfl

theorem IgnoresSuboption.comp {f g : Session σ → Session σ} (hf : IgnoresSuboption f)
    (hg : IgnoresSuboption g) : IgnoresSuboption (fun s => g (f s)) :=
  fun s v => (congrArg g (hf s v)).trans (hg (f s) v)

theorem IgnoresSuboption.ite {p : Prop} [Decidable p] {f g : Session σ → Session σ}
    (hf : IgnoresSuboption f) (hg : IgnoresSuboption g) :
    IgnoresSuboption (fun s => if p then f s else g s) := by
  intro s v
  by_cases h : p
  · simpa only [h, if_true] using hf s v
  · simpa only [h, if_false] using hg s v

theorem ignores_onClientOk (cfg : Config σ) : IgnoresSuboption (onClientOk cfg) := by
  intro s v
  have same : (s.withSub v).server.clientIsRfc2217 = s.server.clientIsRfc2217 := rfl
  unfold onClientOk
  rw [same]
  split
  · rfl
  · cases cfg.onClientConnected <;> rfl

theorem ignores_optionSend (d : TelnetOptionDef) (action : UInt8) :
    IgnoresSuboption (fun s : Session σ => optionSend d s action) :=
  IgnoresSuboption.ite (fun _ _ => rfl) ignores_id

theorem ignores_optionActivated (cfg : Config σ) (d : TelnetOptionDef) :
    IgnoresSuboption (optionActivated cfg d) :=
  IgnoresSuboption.ite (ignores_onClientOk cfg) ignores_id

theorem ignores_telnetOptionProcessIncoming (cfg : Config σ) (o : TelnetOption)
    (command : UInt8) :
    IgnoresSuboption (fun s => (telnetOptionProcessIncoming cfg s o command).1) := by
  unfold telnetOptionProcessIncoming
  by_cases hy : command = o.defn.ackYes
  · simp only [if_pos hy]
    cases o.state with
    | requested => exact ignores_optionActivated cfg o.defn
    | active => exact ignores_id
    | inactive => exact (ignores_optionSend _ _).comp (ignores_optionActivated cfg o.defn)
    | reallyInactive => exact ignores_optionSend _ _
  · by_cases hn : command = o.defn.ackNo
    · simp only [if_neg hy, if_pos hn]
      cases o.state with
      | active => exact ignores_optionSend _ _
      | requested | inactive | reallyInactive => exact ignores_id
    · simpa only [if_neg hy, if_neg hn] using ignores_id

theorem ignores_negotiateSends (cfg : Config σ) (command option : UInt8)
    (os : List TelnetOption) :
    IgnoresSuboption (fun s => negotiateSends cfg command option s os) := by
  induction os with
  | nil => exact ignores_id
  | cons o os ih =>
    simp only [negotiateSends, List.foldl_cons]
    exact IgnoresSuboption.comp
      (IgnoresSuboption.ite (ignores_telnetOptionProcessIncoming cfg o command) ignores_id) ih

theorem ignores_refuseUnknown (command option : UInt8) (known : Bool) :
    IgnoresSuboption (refuseUnknown command option known : Session σ → Session σ) :=
  IgnoresSuboption.ite ignores_id
    (IgnoresSuboption.ite (fun _ _ => rfl) (IgnoresSuboption.ite (fun _ _ => rfl) ignores_id))

theorem ignores_telnetNegotiateOption (cfg : Config σ) (command option : UInt8) :
    IgnoresSuboption (fun s => telnetNegotiateOption cfg s command option) := by
  intro s v
  have sends := ignores_negotiateSends cfg command option s.server.telnetOptions
    (s.log (.negotiate command option)) v
  simp only [telnetNegotiateOption_eq, negotiateOn]
  rw [← ignores_refuseUnknown]
  exact congrArg (fun s => refuseUnknown _ _ _ (Session.modify s _)) sends

/-! Two buffers that share their first `m` cells. -/

@[irreducible] def mix (a v : Suboption) (m : Nat) : Suboption :=
  Vector.ofFn fun i => if i.val < m then a[i] else v[i]

@[simp] theorem getElem_mix (a v : Suboption) (m i : Nat) (h : i < suboptionCapacity) :
    (mix a v m)[i] = if i < m then a[i] else v[i] := by
  simp [mix]

theorem mix_of_agrees {a v : Suboption} {m : Nat}
    (h : ∀ i, (hi : i < suboptionCapacity) → i < m → v[i] = a[i]) : mix a v m = v := by
  apply Vector.ext
  intro i hi
  rw [getElem_mix]
  split
  · rename_i hm
    exact (h i hi hm).symm
  · rfl

theorem mix_set (a v : Suboption) {m n : Nat} (c : UInt8) (hn : n < suboptionCapacity)
    (h : n ≤ m) : (mix a v m).set n c = mix (a.set n c) v (max m (n + 1)) := by
  apply Vector.ext
  intro i hi
  rw [getElem_mix, Vector.getElem_set, Vector.getElem_set, getElem_mix]
  by_cases here : n = i
  · rw [if_pos here, if_pos here, if_pos (by omega)]
  · have below : i < max m (n + 1) ↔ i < m := by omega
    simp only [if_neg here, below]

theorem bodyOf_mix (server : Server) (v : Suboption) {m : Nat} (fits : server.suboptionSize ≤ m) :
    bodyOf { server with suboption := mix server.suboption v m } = bodyOf server := by
  apply List.ext_getElem
  · simp [bodyOf]
  · intro i hi hi'
    have below : i < m := by
      simp only [bodyOf, List.length_take] at hi
      omega
    simp [bodyOf, below]

/-! The count of shared cells. -/

def knownStore (server : Server) (m : Nat) : Nat :=
  if server.collectingSuboption ∧ server.suboptionSize < suboptionCapacity then
    max m (server.suboptionSize + 1)
  else m

/-- The cells that both runs have written alike, after one more byte. -/
def known (server : Server) (m : Nat) (c : UInt8) : Nat :=
  match server.telnetMode with
  | .normal => if c = tIac then m else knownStore server m
  | .gotIac => if c = tIac then knownStore server m else m
  | .negotiate => m

/-- The cells written since the last IAC SB. -/
def written (server : Server) (w : Nat) (c : UInt8) : Nat :=
  if server.telnetMode = .gotIac ∧ c = tSb then 0 else known server w c

/-- An IAC SE whose answer reads no further than the shared cells. -/
def OwnBytes (server : Server) (m : Nat) (c : UInt8) : Prop :=
  server.telnetMode = .gotIac → c = tSe → readBytes server.suboption ≤ m

def Session.share (s : Session σ) (v : Suboption) (m : Nat) : Session σ :=
  s.withSub (mix s.server.suboption v m)

def Loop.share (l : Loop σ) (v : Suboption) (m : Nat) : Loop σ :=
  ⟨l.session.share v m, l.buffer⟩

theorem Session.share_collecting (s : Session σ) (v : Suboption) (m : Nat) :
    (s.share v m).server.collectingSuboption = s.server.collectingSuboption := rfl

theorem IgnoresSuboption.share {f : Session σ → Session σ} (hf : IgnoresSuboption f)
    (keeps : ∀ s, (f s).server.suboption = s.server.suboption) (s : Session σ) (v : Suboption)
    (m : Nat) : f (s.share v m) = (f s).share v m := by
  rw [Session.share, hf, Session.share, keeps]

theorem collectSuboption_share (s : Session σ) (v : Suboption) {m : Nat} (c : UInt8)
    (fits : s.server.suboptionSize ≤ m) (collecting : s.server.collectingSuboption = true) :
    collectSuboption (s.share v m) c =
      (collectSuboption s c).share v (knownStore s.server m) := by
  by_cases room : s.server.suboptionSize < suboptionCapacity
  · simp [collectSuboption, Session.share, Session.withSub, Session.modify, knownStore, room,
      collecting, mix_set _ _ c room fits]
  · simp [collectSuboption, Session.share, Session.withSub, Session.modify, knownStore, room]

theorem onDataReceived_share (cfg : Config σ) (s : Session σ) (v : Suboption) (m : Nat)
    (data : List UInt8) :
    onDataReceived cfg (s.share v m) data = (onDataReceived cfg s data).share v m := by
  rw [onDataReceived_eq, onDataReceived_eq]
  cases cfg.onDataReceived.isSome <;> rfl

theorem bufferData_share (cfg : Config σ) (s : Session σ) (buffer : List UInt8) (v : Suboption)
    (m : Nat) (c : UInt8) :
    bufferData cfg ⟨s.share v m, buffer⟩ c = (bufferData cfg ⟨s, buffer⟩ c).share v m := by
  by_cases full : cfg.dataBufferSize ≤ (buffer ++ [c]).length
  · simp only [bufferData, if_pos full, onDataReceived_share, Loop.share]
  · simp only [bufferData, if_neg full, Loop.share]

theorem storeByte_share (cfg : Config σ) (s : Session σ) (buffer : List UInt8) (v : Suboption)
    {m : Nat} (c : UInt8) (fits : s.server.suboptionSize ≤ m) :
    storeByte cfg ⟨s.share v m, buffer⟩ c =
      (storeByte cfg ⟨s, buffer⟩ c).share v (knownStore s.server m) := by
  by_cases collecting : s.server.collectingSuboption = true
  · simp only [storeByte, Session.share_collecting, if_pos collecting,
      collectSuboption_share s v c fits collecting, Loop.share]
  · have stays : knownStore s.server m = m := if_neg fun h => collecting h.1
    simp only [storeByte, Session.share_collecting, if_neg collecting, stays, bufferData_share]

theorem afterIac_share (cfg : Config σ) (s : Session σ) (v : Suboption) {m : Nat} (c : UInt8)
    (fits : s.server.suboptionSize ≤ m) (own : c = tSe → readBytes s.server.suboption ≤ m) :
    afterIac cfg (s.share v m) c = (afterIac cfg s c).share v m := by
  unfold afterIac
  split
  · rfl
  split
  · rename_i closes
    have same : answer cfg s.ctx (mix s.server.suboption v m) =
        answer cfg s.ctx s.server.suboption := by
      refine answer_congr cfg s.ctx _ _ fun i hi read => ?_
      rw [getElem_mix, if_pos (Nat.lt_of_lt_of_le read (own closes))]
    have body := bodyOf_mix s.server v fits
    simp only [processSubnegotiation_eq]
    simp only [Session.share, Session.withSub, Session.modify, Session.perform, Session.log, same,
      body]
  split
  · rfl
  · rfl

theorem negotiate_share (cfg : Config σ) (s : Session σ) (v : Suboption) (m : Nat)
    (command option : UInt8) :
    telnetNegotiateOption cfg (s.share v m) command option =
      (telnetNegotiateOption cfg s command option).share v m := by
  apply (ignores_telnetNegotiateOption cfg command option).share
  intro s
  obtain ⟨_, _, h⟩ := telnetNegotiateOption_server cfg s command option
  rw [h]

/-- Two runs that share `m` cells before a byte share `known` cells after it. -/
theorem processByte_share (cfg : Config σ) (s : Session σ) (buffer : List UInt8)
    (v : Suboption) {m : Nat} (c : UInt8) (fits : s.server.suboptionSize ≤ m)
    (own : OwnBytes s.server m c) :
    processByte cfg ⟨s.share v m, buffer⟩ c =
      (processByte cfg ⟨s, buffer⟩ c).share v (known s.server m c) := by
  have mode : (s.share v m).server.telnetMode = s.server.telnetMode := rfl
  have command : (s.share v m).server.telnetCommand = s.server.telnetCommand := rfl
  cases h : s.server.telnetMode with
  | normal =>
    simp only [processByte, known, mode, h]
    split
    · rfl
    · exact storeByte_share cfg s buffer v c fits
  | gotIac =>
    simp only [processByte, known, mode, h]
    split
    · rw [storeByte_share cfg s buffer v c fits]
      rfl
    · rw [afterIac_share cfg s v c fits (own h)]
      rfl
  | negotiate =>
    simp only [processByte, known, mode, h, command, negotiate_share]
    rfl

theorem collectSuboption_size (s : Session σ) (c : UInt8) {m : Nat}
    (collecting : s.server.collectingSuboption = true) :
    (collectSuboption s c).server.suboptionSize ≤ knownStore s.server m := by
  by_cases room : s.server.suboptionSize < suboptionCapacity
  · rw [collectSuboption_room s c room, knownStore, if_pos ⟨collecting, room⟩]
    exact Nat.le_max_right _ _
  · rw [collectSuboption_full s c room]
    exact Nat.zero_le _

theorem storeByte_size (cfg : Config σ) (l : Loop σ) (c : UInt8) {m : Nat}
    (fits : l.session.server.suboptionSize ≤ m) :
    (storeByte cfg l c).session.server.suboptionSize ≤ knownStore l.session.server m := by
  unfold storeByte
  split
  · rename_i collecting
    exact collectSuboption_size l.session c collecting
  · rename_i collecting
    rw [knownStore, if_neg fun h => collecting h.1]
    simp only [bufferData]
    split
    · rw [onDataReceived_server]
      exact fits
    · exact fits

theorem afterIac_size (cfg : Config σ) (s : Session σ) (c : UInt8) {m : Nat}
    (fits : s.server.suboptionSize ≤ m) :
    (afterIac cfg s c).server.suboptionSize ≤ if c = tSb then 0 else m := by
  unfold afterIac
  by_cases opens : c = tSb
  · rw [if_pos opens, if_pos opens]
    exact Nat.le_refl 0
  · rw [if_neg opens, if_neg opens]
    split
    · exact Nat.zero_le m
    split
    · exact fits
    · exact fits

theorem processByte_size (cfg : Config σ) (l : Loop σ) (c : UInt8) {m : Nat}
    (fits : l.session.server.suboptionSize ≤ m) :
    (processByte cfg l c).session.server.suboptionSize ≤ written l.session.server m c ∧
      (processByte cfg l c).session.server.suboptionSize ≤ known l.session.server m c := by
  have store := storeByte_size cfg l c fits
  have after := afterIac_size cfg l.session c fits
  unfold processByte written known
  cases h : l.session.server.telnetMode with
  | normal =>
    simp only [reduceCtorEq, false_and, if_false, and_self]
    split
    · exact fits
    · exact store
  | gotIac =>
    simp only [true_and]
    by_cases escaped : c = tIac
    · have plain : c ≠ tSb := by rw [escaped]; decide
      simp only [if_pos escaped, if_neg plain, and_self]
      exact store
    · simp only [if_neg escaped]
      refine ⟨after, Nat.le_trans after ?_⟩
      split
      · exact Nat.zero_le m
      · exact Nat.le_refl m
  | negotiate =>
    simp only [reduceCtorEq, false_and, if_false, and_self]
    obtain ⟨_, _, same⟩ :=
      telnetNegotiateOption_server cfg l.session l.session.server.telnetCommand c
    simp only [Session.setMode, Session.modify, same]
    exact fits

/-! A count that runs beside the loop. -/

section Counted

variable (g : Server → Nat → UInt8 → Nat) (cfg : Config σ)

def countByte (x : Loop σ × Nat) (c : UInt8) : Loop σ × Nat :=
  (processByte cfg x.1 c, g x.1.session.server x.2 c)

def countBytes (x : Session σ × Nat) (chunk : List UInt8) : Loop σ × Nat :=
  chunk.foldl (countByte g cfg) (⟨x.1, []⟩, x.2)

def countChunk (x : Session σ × Nat) (chunk : List UInt8) : Session σ × Nat :=
  if fastPath x.1.server chunk then (onDataReceived cfg x.1 chunk, x.2)
  else (flush cfg (countBytes g cfg x chunk).1, (countBytes g cfg x chunk).2)

/-- The count does not disturb the run. -/
theorem countChunk_session (x : Session σ × Nat) (chunk : List UInt8) :
    (countChunk g cfg x chunk).1 = processReceivedOverTcp cfg x.1 chunk := by
  have loops : ∀ y : Loop σ × Nat,
      (chunk.foldl (countByte g cfg) y).1 = chunk.foldl (processByte cfg) y.1 := fun y =>
    Runs.simulation (R := fun (y : Loop σ × Nat) l => y.1 = l)
      (fun y l c same => same ▸ rfl) rfl chunk
  unfold countChunk processReceivedOverTcp
  split
  · rfl
  · exact congrArg (flush cfg) (loops _)

end Counted

/-- `w` cells were written since the last IAC SB of the current connection of `s`. -/
def ReachedWritten (cfg : Config σ) (s : Session σ) (w : Nat) : Prop :=
  ∃ (before : Session σ) (chunks : List (List UInt8)),
    (s, w) = chunks.foldl (countChunk written cfg) (startConnection before, 0)

theorem countChunk_size {g : Server → Nat → UInt8 → Nat} (cfg : Config σ)
    (byte : ∀ (l : Loop σ) (c : UInt8) (m : Nat), l.session.server.suboptionSize ≤ m →
      (processByte cfg l c).session.server.suboptionSize ≤ g l.session.server m c)
    (x : Session σ × Nat) (chunk : List UInt8) (fits : x.1.server.suboptionSize ≤ x.2) :
    (countChunk g cfg x chunk).1.server.suboptionSize ≤ (countChunk g cfg x chunk).2 := by
  have loops : (countBytes g cfg x chunk).1.session.server.suboptionSize ≤
      (countBytes g cfg x chunk).2 :=
    Runs.invariant (P := fun y : Loop σ × Nat => y.1.session.server.suboptionSize ≤ y.2)
      (fun y c h => byte y.1 c y.2 h) _ fits chunk
  unfold countChunk
  split
  · simp only [onDataReceived_server]
    exact fits
  · simp only [flush_server]
    exact loops

theorem reachedWritten_size (cfg : Config σ) (s : Session σ) (w : Nat)
    (reached : ReachedWritten cfg s w) : s.server.suboptionSize ≤ w := by
  obtain ⟨before, chunks, h⟩ := reached
  have fits := Runs.invariant
    (P := fun x : Session σ × Nat => x.1.server.suboptionSize ≤ x.2)
    (countChunk_size cfg fun l c m h => (processByte_size cfg l c h).1)
    (startConnection before, 0) (Nat.zero_le 0) chunks
  rw [← h] at fits
  exact fits

/-- Every answer of the run reads own bytes only: the cells that were shared at its start and
those it has collected itself. -/
def ReadsOwn (cfg : Config σ) (s : Session σ) (m : Nat) (chunks : List (List UInt8)) : Prop :=
  Runs.Along (countChunk known cfg)
    (fun x chunk => fastPath x.1.server chunk ∨
      Runs.Along (countByte known cfg)
        (fun y c => OwnBytes y.1.session.server y.2 c) (⟨x.1, []⟩, x.2) chunk)
    (s, m) chunks

/-! Runs whose answers read own bytes stay together. -/

def SharedLoops (v : Suboption) (y : Loop σ × Nat) (l : Loop σ) : Prop :=
  l = y.1.share v y.2 ∧ y.1.session.server.suboptionSize ≤ y.2

theorem sharedLoops_byte (cfg : Config σ) (v : Suboption) (y : Loop σ × Nat) (l : Loop σ)
    (c : UInt8) (h : SharedLoops v y l) (own : OwnBytes y.1.session.server y.2 c) :
    SharedLoops v (countByte known cfg y c) (processByte cfg l c) := by
  obtain ⟨⟨s, buffer⟩, m⟩ := y
  obtain ⟨rfl, fits⟩ := h
  exact ⟨processByte_share cfg s buffer v c fits own, (processByte_size cfg _ c fits).2⟩

def Shared (v : Suboption) (x : Session σ × Nat) (s : Session σ) : Prop :=
  s = x.1.share v x.2 ∧ x.1.server.suboptionSize ≤ x.2

theorem Shared.loops {v : Suboption} {x : Session σ × Nat} {s : Session σ} (h : Shared v x s) :
    SharedLoops v (⟨x.1, []⟩, x.2) ⟨s, []⟩ := by
  obtain ⟨rfl, fits⟩ := h
  exact ⟨rfl, fits⟩

theorem flush_share (cfg : Config σ) (l : Loop σ) (v : Suboption) (m : Nat) :
    flush cfg (l.share v m) = (flush cfg l).share v m := by
  simp only [flush, Loop.share, onDataReceived_share]
  split <;> rfl

theorem shared_chunk (cfg : Config σ) (v : Suboption) (x : Session σ × Nat) (s : Session σ)
    (chunk : List UInt8) (h : Shared v x s)
    (own : fastPath x.1.server chunk ∨
      Runs.Along (countByte known cfg) (fun y c => OwnBytes y.1.session.server y.2 c)
        (⟨x.1, []⟩, x.2) chunk) :
    Shared v (countChunk known cfg x chunk) (processReceivedOverTcp cfg s chunk) := by
  have same : fastPath s.server chunk ↔ fastPath x.1.server chunk := by rw [h.1]; rfl
  unfold countChunk processReceivedOverTcp
  by_cases fast : fastPath x.1.server chunk
  · rw [if_pos fast, if_pos (same.mpr fast), h.1, onDataReceived_share]
    refine ⟨rfl, ?_⟩
    rw [onDataReceived_server]
    exact h.2
  · rw [if_neg fast, if_neg (mt same.mp fast)]
    have along := own.resolve_left fast
    obtain ⟨loops, fits⟩ := Runs.guarded_simulation (sharedLoops_byte cfg v) h.loops chunk along
    rw [loops, flush_share]
    refine ⟨rfl, ?_⟩
    rw [flush_server]
    exact fits

/-! An answer that reads too far shows it: two fillings of the other cells differ. -/

def filler (m : Nat) (value : UInt8) : Suboption :=
  (Vector.ofFn fun i : Fin suboptionCapacity =>
    if i.val = max m 2 then value
    else if i.val = 0 then tComPortOption else if i.val = 1 then tSetDatasize else 0)

theorem getElem_filler (m : Nat) (value : UInt8) (i : Nat) (h : i < suboptionCapacity) :
    (filler m value)[i] = if i = max m 2 then value
      else if i = 0 then tComPortOption else if i = 1 then tSetDatasize else 0 := by
  simp [filler]

theorem overread_shows (cfg : Config σ) (ctx : σ) (sub : Suboption) (m : Nat)
    (reads : m < readBytes sub) :
    FirstDiffer (answer cfg ctx (mix sub (filler m 0) m))
      (answer cfg ctx (mix sub (filler m 1) m)) := by
  have bound : readBytes sub ≤ 6 := by
    unfold readBytes
    dsimp only
    split_ifs <;> decide
  have option : 0 < m → sub[0] = tComPortOption := by
    intro positive
    by_contra other
    simp only [readBytes, if_pos other] at reads
    omega
  have command : 1 < m → sub[1] ∈ requestCommands := by
    intro large
    by_contra other
    have plain : sub[1] ≠ tSetBaudrate := fun h => other (h ▸ by decide)
    simp only [readBytes, if_neg (not_not.mpr (option (by omega))), if_neg plain,
      if_neg other] at reads
    omega
  have short : 1 < m → sub[1] ≠ tSetBaudrate → m = 2 := by
    intro large plain
    simp only [readBytes, if_neg (not_not.mpr (option (by omega))), if_neg plain,
      if_pos (command large)] at reads
    omega
  rcases Nat.lt_or_ge 1 m with large | small
  · have positive : 0 < m := by omega
    apply answer_first
    · simpa [positive] using option positive
    · simpa [positive] using option positive
    · simp [large]
    · simpa [large] using command large
    · intro _ same
      simp only [List.cons.injEq, getElem_mix, getElem_filler] at same
      obtain ⟨h2, h3, h4, h5, _⟩ := same
      have cells : m = 2 ∨ m = 3 ∨ m = 4 ∨ m = 5 := by omega
      rcases cells with rfl | rfl | rfl | rfl
      · simp at h2
      · simp at h3
      · simp at h4
      · simp at h5
    · intro plain
      have two : m = 2 := short large (by simpa [large] using plain)
      subst two
      simp [getElem_filler]
  · have filled : ∀ value, (mix sub (filler m value) m)[0] = tComPortOption ∧
        (mix sub (filler m value) m)[1] = tSetDatasize ∧
        (mix sub (filler m value) m)[2] = value := by
      intro value
      have two : max m 2 = 2 := by omega
      have one : ¬ 1 < m := by omega
      have high : ¬ 2 < m := by omega
      rcases Nat.eq_zero_or_pos m with rfl | positive
      · simp [getElem_filler]
      · simp [getElem_filler, positive, option positive, one, high, two]
    obtain ⟨a0, a1, a2⟩ := filled 0
    obtain ⟨b0, b1, b2⟩ := filled 1
    apply answer_first cfg ctx _ _ a0 b0 (b1.trans a1.symm)
    · rw [a1]
      decide
    · intro baudrate
      rw [a1] at baudrate
      exact absurd baudrate (by decide)
    · intro _
      rw [a2, b2]
      decide

theorem processByte_se_replies (cfg : Config σ) (l : Loop σ)
    (mode : l.session.server.telnetMode = .gotIac) :
    replies (processByte cfg l tSe).session.trace =
      replies l.session.trace ++
        (answer cfg l.session.ctx l.session.server.suboption).events := by
  have closes : processByte cfg l tSe = ⟨afterIac cfg l.session tSe, l.buffer⟩ := by
    simp only [processByte, mode]
    rfl
  have answered : (afterIac cfg l.session tSe).trace =
      l.session.trace ++ [.subnegotiation (bodyOf l.session.server)] ++
        (answer cfg l.session.ctx l.session.server.suboption).events :=
    congrArg Session.trace (processSubnegotiation_eq cfg l.session)
  rw [closes, answered, replies_append, replies_append, replies_of_replies (answer_replies _ _ _)]
  exact congrArg (· ++ _) (List.append_nil _)

/-- What a run that shares `y` replies up to the answer at an IAC SE. -/
theorem shared_replies (cfg : Config σ) (v : Suboption) {x : Session σ × Nat} {s : Session σ}
    (shared : Shared v x s) {bs es : List UInt8} (slow : ¬ fastPath x.1.server (bs ++ tSe :: es))
    (inside : Runs.Along (countByte known cfg)
      (fun y c => OwnBytes y.1.session.server y.2 c) (⟨x.1, []⟩, x.2) bs)
    {y : Loop σ × Nat} (hy : bs.foldl (countByte known cfg) (⟨x.1, []⟩, x.2) = y)
    (mode : y.1.session.server.telnetMode = .gotIac) (ds : List (List UInt8)) :
    replies y.1.session.trace ++
        (answer cfg y.1.session.ctx (mix y.1.session.server.suboption v y.2)).events <+:
      replies (((bs ++ tSe :: es) :: ds).foldl (processReceivedOverTcp cfg) s).trace := by
  have loops := Runs.guarded_simulation (sharedLoops_byte cfg v) shared.loops bs inside
  rw [hy] at loops
  have slow' : ¬ fastPath s.server (bs ++ tSe :: es) := by rw [shared.1]; exact slow
  have chunk : processReceivedOverTcp cfg s (bs ++ tSe :: es) =
      flush cfg (es.foldl (processByte cfg) (processByte cfg (y.1.share v y.2) tSe)) := by
    rw [processReceivedOverTcp, if_neg slow', List.foldl_append, loops.1, List.foldl_cons]
  have answered := processByte_se_replies cfg (y.1.share v y.2) mode
  have more := ((bytes_extend cfg (processByte cfg (y.1.share v y.2) tSe) es).trans
    (flush_extends cfg _)).trans (chunks_extend cfg _ ds)
  rw [List.foldl_cons, chunk]
  refine List.IsPrefix.trans ?_ (more.filter Event.isReply)
  exact answered ▸ List.prefix_rfl

/-- From a reachable session, the unwritten cells do not show exactly when no answer of the
run reads one of them. -/
theorem own_bytes_decide (cfg : Config σ) (s : Session σ) (w : Nat)
    (reached : ReachedWritten cfg s w) (chunks : List (List UInt8)) :
    (∀ v : Suboption,
      (∀ i, (hi : i < suboptionCapacity) → i < w → v[i] = s.server.suboption[i]) →
      replies (chunks.foldl (processReceivedOverTcp cfg) (s.withSub v)).trace =
        replies (chunks.foldl (processReceivedOverTcp cfg) s).trace) ↔
    ReadsOwn cfg s w chunks := by
  have fits := reachedWritten_size cfg s w reached
  have start : ∀ v, Shared v (s, w) (s.share v w) := fun v => ⟨rfl, fits⟩
  have real : ∀ (x : Session σ × Nat) (cs : List (List UInt8)),
      (cs.foldl (countChunk known cfg) x).1 = cs.foldl (processReceivedOverTcp cfg) x.1 := by
    intro x cs
    exact Runs.simulation (R := fun (x : Session σ × Nat) r => x.1 = r)
      (fun x r chunk same => same ▸ countChunk_session known cfg x chunk) rfl cs
  constructor
  · intro same
    by_contra notOwn
    obtain ⟨cs, c, ds, rfl, before, overread⟩ := Runs.exists_first_violation _ _ notOwn
    obtain ⟨slow, overread⟩ := not_or.mp overread
    obtain ⟨bs, b, es, rfl, inside, reads⟩ := Runs.exists_first_violation _ _ overread
    generalize hx : cs.foldl (countChunk known cfg) (s, w) = x at slow inside reads
    generalize hy : bs.foldl (countByte known cfg) (⟨x.1, []⟩, x.2) = y at reads
    simp only [OwnBytes, Classical.not_imp, Nat.not_le] at reads
    obtain ⟨mode, rfl, reads⟩ := reads
    have reply : ∀ v, replies y.1.session.trace ++
        (answer cfg y.1.session.ctx (mix y.1.session.server.suboption v y.2)).events <+:
          replies ((cs ++ (bs ++ tSe :: es) :: ds).foldl (processReceivedOverTcp cfg) s).trace := by
      intro v
      have prefixRun := Runs.guarded_simulation (shared_chunk cfg v) (start v) cs before
      rw [hx] at prefixRun
      have agree : ∀ i, (hi : i < suboptionCapacity) → i < w →
          (mix s.server.suboption v w)[i] = s.server.suboption[i] := by
        intro i hi hw
        rw [getElem_mix, if_pos hw]
      have run := shared_replies cfg v prefixRun slow inside hy mode ds
      rw [← List.foldl_append] at run
      rw [← same _ agree]
      exact run
    obtain ⟨a, b, es, fs, ha, hb, differ⟩ := overread_shows cfg y.1.session.ctx
      y.1.session.server.suboption y.2 reads
    have first := reply (filler y.2 0)
    have second := reply (filler y.2 1)
    rw [ha] at first
    rw [hb] at second
    exact differ (prefixes_same_first first second)
  · intro own v agree
    have shared := Runs.guarded_simulation (shared_chunk cfg v) (start v) chunks own
    have filled : s.withSub v = s.share v w := by rw [Session.share, mix_of_agrees agree]
    rw [filled, shared.1, ← real (s, w) chunks]
    rfl

def freshConnection : Session Unit := startConnection (rfc2217ServerCreate ())

/-- What the last connection may have left in the buffer. -/
def staleControl : Suboption :=
  #v[tComPortOption, tSetControl, 8, 0, 0, 0, 0, 0, 0, 0, 0, 0, 0, 0, 0, 0]

theorem stale_control_answered :
    ReachedWritten relayConfig freshConnection 0 ∧
      replies ([[tIac, tSe]].foldl (processReceivedOverTcp relayConfig) freshConnection).trace =
        [] ∧
      replies ([[tIac, tSe]].foldl (processReceivedOverTcp relayConfig)
          (freshConnection.withSub staleControl)).trace =
        [.control 8, .send [tIac, tSb, tComPortOption, tServerSetControl, 8, tIac, tSe]] :=
  ⟨⟨rfc2217ServerCreate (), [], rfl⟩, by decide, by decide⟩

theorem own_bytes_decide_fresh :
    (∀ v : Suboption,
      (∀ i, (hi : i < suboptionCapacity) → i < 0 → v[i] = freshConnection.server.suboption[i]) →
      replies ([[tIac, tSe]].foldl (processReceivedOverTcp relayConfig)
          (freshConnection.withSub v)).trace =
        replies ([[tIac, tSe]].foldl (processReceivedOverTcp relayConfig)
          freshConnection).trace) ↔
    ReadsOwn relayConfig freshConnection 0 [[tIac, tSe]] :=
  own_bytes_decide relayConfig freshConnection 0 ⟨rfc2217ServerCreate (), [], rfl⟩ _

end Rocom.Rfc2217
