import Rocom.Rfc2217.Options

/-! What a negotiation comes to: each entry of the table stands as its last acknowledgement left
it, and only changes of the entries for RFC2217 and requests for unknown options are answered. -/
namespace Rocom.Rfc2217

variable {σ : Type}

def TelnetOptionDef.acknowledges (d : TelnetOptionDef) (c : UInt8 × UInt8) : Bool :=
  c.2 = d.option && (c.1 = d.ackYes || c.1 = d.ackNo)

/-- The last `ack_yes` or `ack_no` for the entry. -/
def lastAck (d : TelnetOptionDef) (cs : List (UInt8 × UInt8)) : Option UInt8 :=
  (cs.filter d.acknowledges).getLast?.map Prod.fst

/-- The entry after these commands. -/
def TelnetOptionDef.after (d : TelnetOptionDef) (cs : List (UInt8 × UInt8)) : TelnetOption :=
  match lastAck d cs with
  | none => d.init
  | some command => if command = d.ackYes then d.init.on else d.init.off

def tableAfter (cs : List (UInt8 × UInt8)) : List TelnetOption := optionDefs.map (·.after cs)

def knownOption (option : UInt8) : Bool := optionDefs.any (·.option = option)

/-- The frame that tells the client of a change. -/
def changeReply (before after : TelnetOption) : List Event :=
  if before.state = .inactive ∧ after.state = .active then
    [.send [tIac, before.defn.sendYes, before.defn.option]]
  else if before.state = .active ∧ after.state = .inactive then
    [.send [tIac, before.defn.sendNo, before.defn.option]]
  else []

/-- What is sent for a command that comes after others. -/
def replyTo (before : List (UInt8 × UInt8)) (c : UInt8 × UInt8) : List Event :=
  if knownOption c.2 then
    optionDefs.flatMap fun d =>
      if d.option = tComPortOption then changeReply (d.after before) (d.after (before ++ [c]))
      else []
  else refusal c.1 c.2

def repliesTo (before : List (UInt8 × UInt8)) : List (UInt8 × UInt8) → List Event
  | [] => []
  | c :: cs => replyTo before c ++ repliesTo (before ++ [c]) cs

theorem repliesTo_concat (before cs : List (UInt8 × UInt8)) (c : UInt8 × UInt8) :
    repliesTo before (cs ++ [c]) = repliesTo before cs ++ replyTo (before ++ cs) c := by
  induction cs generalizing before with
  | nil => simp [repliesTo]
  | cons e cs ih => simp [repliesTo, ih]

@[simp] theorem after_defn (d : TelnetOptionDef) (cs : List (UInt8 × UInt8)) :
    (d.after cs).defn = d := by
  unfold TelnetOptionDef.after
  split
  · rfl
  · split <;> rfl

theorem after_concat_other {d : TelnetOptionDef} (cs : List (UInt8 × UInt8)) {c : UInt8 × UInt8}
    (other : d.acknowledges c = false) : d.after (cs ++ [c]) = d.after cs := by
  simp [TelnetOptionDef.after, lastAck, List.filter_append, other]

theorem after_concat_ack {d : TelnetOptionDef} (cs : List (UInt8 × UInt8)) {c : UInt8 × UInt8}
    (ack : d.acknowledges c = true) :
    d.after (cs ++ [c]) = if c.1 = d.ackYes then d.init.on else d.init.off := by
  simp [TelnetOptionDef.after, lastAck, List.filter_append, ack]

/-- The three ways an entry may stand. -/
theorem after_cases {d : TelnetOptionDef} (cs : List (UInt8 × UInt8)) :
    d.after cs = d.init ∨ d.after cs = d.init.on ∨ d.after cs = d.init.off := by
  unfold TelnetOptionDef.after
  split
  · exact .inl rfl
  · split
    · exact .inr (.inl rfl)
    · exact .inr (.inr rfl)

theorem changeReply_self (o : TelnetOption) : changeReply o o = [] := by
  unfold changeReply
  cases o.state <;> rfl

/-- The states an entry is in before an acknowledgement. -/
theorem after_states {d : TelnetOptionDef} (listed : d ∈ optionDefs) (cs : List (UInt8 × UInt8)) :
    d.after cs = ⟨d, false, .requested⟩ ∨ d.after cs = ⟨d, true, .active⟩ ∨
      d.after cs = ⟨d, false, .inactive⟩ := by
  have initial : ∀ d ∈ optionDefs,
      d.init = ⟨d, false, .requested⟩ ∨ d.init = ⟨d, false, .inactive⟩ := by decide
  rcases after_cases (d := d) cs with first | on | off
  · rw [first]
    rcases initial d listed with requested | inactive
    · exact .inl requested
    · exact .inr (.inr inactive)
  · exact .inr (.inl on)
  · exact .inr (.inr off)

/-- One command for one entry: where it leaves it, and what it sends. -/
theorem after_step {d : TelnetOptionDef} (listed : d ∈ optionDefs) (cs : List (UInt8 × UInt8))
    (c : UInt8 × UInt8) :
    stepFor c (d.after cs) = d.after (cs ++ [c]) ∧
      (if forOption c.2 (d.after cs) then optionSends (d.after cs) c.1 else []) =
        if d.sendOptionCb then changeReply (d.after cs) (d.after (cs ++ [c])) else [] := by
  have differ := ackNo_ne_ackYes d listed
  cases ack : d.acknowledges c with
  | false =>
    have same := after_concat_other cs ack
    have quiet : stepFor c (d.after cs) = d.after cs ∧
        (if forOption c.2 (d.after cs) then optionSends (d.after cs) c.1 else []) = [] := by
      by_cases matched : d.option = c.2
      · have others : c.1 ≠ d.ackYes ∧ c.1 ≠ d.ackNo := by
          simpa [TelnetOptionDef.acknowledges, matched] using ack
        simp [stepFor, forOption, stepOption, optionSends, transitionAction, others]
      · simp [stepFor, forOption, matched]
    rw [same, changeReply_self, ite_self]
    exact quiet
  | true =>
    have matched : c.2 = d.option ∧ (c.1 = d.ackYes ∨ c.1 = d.ackNo) := by
      simpa [TelnetOptionDef.acknowledges] using ack
    have applies : forOption c.2 (d.after cs) = true := by simp [forOption, matched.1]
    rw [stepFor, applies, if_pos rfl, if_pos rfl, after_concat_ack cs ack]
    rcases matched.2 with yes | no
    · rw [if_pos yes]
      rcases after_states listed cs with held | held | held <;> rw [held]
      · simp [stepOption, optionSends, transitionAction, yes, changeReply, TelnetOption.on,
          TelnetOptionDef.init]
      · simp [stepOption, optionSends, transitionAction, yes, changeReply, TelnetOption.on,
          TelnetOptionDef.init]
      · simp [stepOption, optionSends, transitionAction, yes, changeReply, TelnetOption.on,
          TelnetOptionDef.init, sendIfAble]
    · rw [if_neg (no ▸ differ)]
      rcases after_states listed cs with held | held | held <;> rw [held]
      · simp [stepOption, optionSends, transitionAction, no, differ, changeReply, TelnetOption.off,
          TelnetOptionDef.init]
      · simp [stepOption, optionSends, transitionAction, no, differ, changeReply, TelnetOption.off,
          TelnetOptionDef.init, sendIfAble]
      · simp [stepOption, optionSends, transitionAction, no, differ, changeReply, TelnetOption.off,
          TelnetOptionDef.init]

theorem able_iff : ∀ d ∈ optionDefs, d.sendOptionCb = true ↔ d.option = tComPortOption := by decide

/-- One command for the whole table. -/
theorem table_step (cs : List (UInt8 × UInt8)) (c : UInt8 × UInt8) :
    (tableAfter cs).map (stepFor c) = tableAfter (cs ++ [c]) ∧
      (if (tableAfter cs).any (forOption c.2) then
        (tableAfter cs).flatMap fun o => if forOption c.2 o then optionSends o c.1 else []
      else refusal c.1 c.2) = replyTo cs c := by
  constructor
  · rw [tableAfter, List.map_map]
    exact List.map_congr_left fun d listed => (after_step listed cs c).1
  · have listed : (tableAfter cs).any (forOption c.2) = knownOption c.2 := by
      simp [tableAfter, knownOption, List.any_map, Function.comp_def, forOption]
    rw [listed, replyTo, tableAfter, List.flatMap_map]
    congr 1
    apply List.flatMap_congr
    intro d hd
    rw [(after_step hd cs c).2]
    exact if_congr (able_iff d hd) rfl rfl

/-! The client is announced once. -/

/-- What is announced of the client, and what still may be. -/
def Once (s : Session σ) : Prop :=
  s.trace.count .clientConnected + (!s.server.clientIsRfc2217).toNat ≤ 1

theorem once_log {s : Session σ} (h : Once s) {e : Event} (other : e ≠ .clientConnected) :
    Once (s.log e) := by
  simpa [Once, Session.log, other] using h

theorem once_onClientOk (cfg : Config σ) {s : Session σ} (h : Once s) :
    Once (onClientOk cfg s) := by
  unfold onClientOk
  split
  · exact h
  · rename_i fresh
    have unannounced : s.trace.count .clientConnected = 0 := by
      rw [Once, Bool.eq_false_iff.mpr fresh] at h
      exact Nat.le_zero.mp (Nat.le_of_succ_le_succ h)
    cases cfg.onClientConnected with
    | none =>
      show s.trace.count .clientConnected + 0 ≤ 1
      omega
    | some f =>
      show (s.trace ++ [Event.clientConnected]).count Event.clientConnected + 0 ≤ 1
      rw [List.count_append, unannounced]
      decide

theorem once_optionSend (d : TelnetOptionDef) {s : Session σ} (h : Once s) (action : UInt8) :
    Once (optionSend d s action) := by
  unfold optionSend
  split
  · exact once_log h fun same => by cases same
  · exact h

theorem once_optionActivated (cfg : Config σ) (d : TelnetOptionDef) {s : Session σ} (h : Once s) :
    Once (optionActivated cfg d s) := by
  unfold optionActivated
  split
  · exact once_onClientOk cfg h
  · exact h

theorem once_processIncoming (cfg : Config σ) {s : Session σ} (h : Once s) (o : TelnetOption)
    (command : UInt8) : Once (telnetOptionProcessIncoming cfg s o command).1 := by
  unfold telnetOptionProcessIncoming
  split
  · cases o.state with
    | requested => exact once_optionActivated cfg _ h
    | active => exact h
    | inactive => exact once_optionActivated cfg _ (once_optionSend _ h _)
    | reallyInactive => exact once_optionSend _ h _
  · split
    · cases o.state with
      | active => exact once_optionSend _ h _
      | requested | inactive | reallyInactive => exact h
    · exact h

theorem once_negotiateSends (cfg : Config σ) (command option : UInt8) (os : List TelnetOption)
    {s : Session σ} (h : Once s) : Once (negotiateSends cfg command option s os) := by
  induction os generalizing s with
  | nil => exact h
  | cons o os ih =>
    rw [negotiateSends, List.foldl_cons]
    split
    · exact ih (once_processIncoming cfg h o command)
    · exact ih h

theorem once_negotiateOne (cfg : Config σ) {s : Session σ} (h : Once s) (c : UInt8 × UInt8) :
    Once (negotiateOne cfg s c) := by
  have logged : Once (s.log (.negotiate c.1 c.2)) := once_log h fun same => by cases same
  have sent := once_negotiateSends cfg c.1 c.2 s.server.telnetOptions logged
  rw [negotiateOne, telnetNegotiateOption_eq, negotiateOn]
  unfold refuseUnknown
  split
  · exact sent
  split
  · exact once_log sent fun same => by cases same
  split
  · exact once_log sent fun same => by cases same
  · exact sent

/-- A repeated command changes nothing, so it is not answered. -/
theorem replyTo_repeated (cs : List (UInt8 × UInt8)) {c : UInt8 × UInt8}
    (listed : knownOption c.2 = true) : replyTo (cs ++ [c]) c = [] := by
  rw [replyTo, if_pos listed, List.flatMap_eq_nil_iff]
  intro d _
  have same : d.after (cs ++ [c] ++ [c]) = d.after (cs ++ [c]) := by
    cases ack : d.acknowledges c with
    | false => exact after_concat_other _ ack
    | true => rw [after_concat_ack _ ack, after_concat_ack _ ack]
  rw [same, changeReply_self, ite_self]

/-- After any commands on a new connection. -/
theorem negotiation_run (cfg : Config σ) (s : Session σ) (cs : List (UInt8 × UInt8)) :
    let n := cs.foldl (negotiateOne cfg) (newConnection s)
    n.server.telnetOptions = tableAfter cs ∧ sends n.trace = repliesTo [] cs ∧ Once n := by
  induction cs using List.reverseRecOn with
  | nil => exact ⟨rfl, rfl, Nat.le_refl 1⟩
  | append_singleton cs c ih =>
    obtain ⟨table, sent, once⟩ := ih
    obtain ⟨stepped, replied⟩ := table_step cs c
    rw [List.foldl_concat]
    refine ⟨?_, ?_, once_negotiateOne cfg once c⟩
    · rw [negotiateOne, telnetNegotiateOption_options, table]
      exact stepped
    · rw [sends_negotiateOne, table, replied, sent, repliesTo_concat, List.nil_append]

/-- The outcome of a negotiation: each entry stands as its last acknowledgement says, and what
was sent is one frame for each change of an entry for RFC2217 and one for each refusal. -/
theorem negotiation_outcome (cfg : Config σ) (s : Session σ) (cs : List (UInt8 × UInt8)) :
    let n := cs.foldl (negotiateOne cfg) (newConnection s)
    n.server.telnetOptions = tableAfter cs ∧
      (∀ o ∈ n.server.telnetOptions, o.active = true ↔ o.state = .active) ∧
      (∀ c, ∀ o ∈ n.server.telnetOptions, o.defn.option ≠ c.2 →
        o ∈ (negotiateOne cfg n c).server.telnetOptions) ∧
      sends n.trace = repliesTo [] cs ∧
      (∀ c, knownOption c.2 = true → replyTo (cs ++ [c]) c = []) ∧
      n.trace.count .clientConnected ≤ 1 := by
  intro n
  obtain ⟨table, sent, once⟩ := negotiation_run cfg s cs
  refine ⟨table, ?_, ?_, sent, fun c listed => replyTo_repeated cs listed,
    Nat.le_of_add_right_le once⟩
  · intro o ho
    rw [table] at ho
    obtain ⟨d, listed, rfl⟩ := List.mem_map.mp ho
    rcases after_states listed cs with held | held | held <;> simp [held]
  · intro c o ho other
    have kept : stepFor c o = o := by simp [stepFor, forOption, other]
    rw [negotiateOne, telnetNegotiateOption_options, ← kept]
    exact List.mem_map_of_mem ho

example :
    repliesTo []
        [(tWill, tComPortOption), (tWill, tComPortOption), (tDo, 24), (tWont, tComPortOption)] =
      [.send [tIac, tDo, tComPortOption], .send [tIac, tWont, 24],
        .send [tIac, tDont, tComPortOption]] := by
  decide

end Rocom.Rfc2217
