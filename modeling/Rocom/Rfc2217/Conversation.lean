import Rocom.Rfc2217.Baudrate
import Rocom.Rfc2217.Replies
import Rocom.Rfc2217.Grammar

/-! What a connection is for. A client sends messages: data, telnet commands, negotiations and
requests; a port keeps what was asked, hands the data on and answers, without any parser, buffer
or option table. The server refines the port. -/
namespace Rocom.Rfc2217

variable {σ : Type}

/-! ### The port -/

/-- The requests that are answered with their own value. -/
inductive Setting where
  | datasize | parity | stopsize | linestate | modemstate
deriving DecidableEq, Repr

def Setting.command : Setting → UInt8
  | .datasize => tSetDatasize
  | .parity => tSetParity
  | .stopsize => tSetStopsize
  | .linestate => tNotifyLinestate
  | .modemstate => tNotifyModemstate

def Setting.reply : Setting → UInt8
  | .datasize => tServerSetDatasize
  | .parity => tServerSetParity
  | .stopsize => tServerSetStopsize
  | .linestate => tServerNotifyLinestate
  | .modemstate => tServerNotifyModemstate

inductive Request where
  | baudrate (rate : UInt32)
  | control (value : UInt8)
  | purge (value : UInt8)
  | setting (kind : Setting) (value : UInt8)

def Request.body : Request → List UInt8
  | .baudrate rate => baudrateBody rate
  | .control value => [tComPortOption, tSetControl, value]
  | .purge value => [tComPortOption, tPurgeData, value]
  | .setting kind value => [tComPortOption, kind.command, value]

def Request.answer (cfg : Config σ) (ctx : σ) : Request → Answer σ
  | .baudrate rate => baudrateAnswer cfg ctx rate
  | .control value => controlAnswer cfg ctx value
  | .purge value => purgeAnswer cfg ctx value
  | .setting kind value => echoAnswer ctx kind.reply value

/-- A command that neither opens nor closes a subnegotiation. -/
def isBareCommand (c : UInt8) : Prop := isPlainCommand c ∧ c ≠ tSb ∧ c ≠ tSe

inductive Message where
  | data (payload : List UInt8)
  | command (c : UInt8) (bare : isBareCommand c)
  | negotiate (action option : UInt8) (valid : isOptionAction action)
  | request (r : Request)

def Message.bytes : Message → List UInt8
  | .data payload => escapeIac payload
  | .command c _ => [tIac, c]
  | .negotiate action option _ => [tIac, action, option]
  | .request r => [tIac, tSb] ++ escapeIac r.body ++ [tIac, tSe]

/-- What a connection has come to: the commands asked so far, the context of the callbacks, the
data handed on and the replies. -/
structure Port (σ : Type) where
  asked : List (UInt8 × UInt8)
  ctx : σ
  received : List UInt8
  replies : List Event

/-- The client has agreed to RFC2217 in one of the two directions. -/
def announced (asked : List (UInt8 × UInt8)) : Bool :=
  asked.contains (tWill, tComPortOption) || asked.contains (tDo, tComPortOption)

def greeting (cfg : Config σ) (ctx : σ) : Answer σ :=
  match cfg.onClientConnected with
  | some f => ⟨[.clientConnected], f ctx⟩
  | none => ⟨[], ctx⟩

/-- The first agreement is announced to the user. -/
def announcement (cfg : Config σ) (asked : List (UInt8 × UInt8)) (c : UInt8 × UInt8) (ctx : σ) :
    Answer σ :=
  if announced asked = false ∧ announced (asked ++ [c]) = true then greeting cfg ctx else ⟨[], ctx⟩

def Port.negotiate (cfg : Config σ) (p : Port σ) (c : UInt8 × UInt8) : Port σ :=
  let a := announcement cfg p.asked c p.ctx
  { p with
    asked := p.asked ++ [c]
    ctx := a.ctx
    replies := p.replies ++ replyTo p.asked c ++ a.events }

def Port.serve (cfg : Config σ) (p : Port σ) : Message → Port σ
  | .data payload =>
    { p with received := p.received ++ if cfg.onDataReceived.isSome then payload else [] }
  | .command _ _ => p
  | .negotiate action option _ => p.negotiate cfg (action, option)
  | .request r =>
    let a := r.answer cfg p.ctx
    { p with ctx := a.ctx, replies := p.replies ++ a.events }

/-- The port at the start of a connection. -/
def Port.start (s : Session σ) : Port σ :=
  ⟨[], s.ctx, receivedBytes s.trace, Rfc2217.replies s.trace⟩

/-! ### One negotiation -/

def Session.say (s : Session σ) (es : List Event) : Session σ := { s with trace := s.trace ++ es }

@[simp] theorem say_nil (s : Session σ) : s.say [] = s := by simp [Session.say]

theorem processIncoming_quiet (cfg : Config σ) (s : Session σ) (o : TelnetOption) (command : UInt8)
    (no_cb : o.defn.cb = false) (unable : o.defn.sendOptionCb = false) :
    (telnetOptionProcessIncoming cfg s o command).1 = s := by
  unfold telnetOptionProcessIncoming
  split
  · cases o.state <;> simp [optionActivated, optionSend, no_cb, unable]
  · split
    · cases o.state <;> simp [optionSend, unable]
    · rfl

/-- The entry goes from another state to active. -/
def activates (o : TelnetOption) (command : UInt8) : Bool :=
  command = o.defn.ackYes && (o.state = .requested || o.state = .inactive)

/-- An entry with both callbacks: its frame goes out before the client is announced. -/
theorem processIncoming_able (cfg : Config σ) (s : Session σ) (o : TelnetOption) (command : UInt8)
    (cb : o.defn.cb = true) (able : o.defn.sendOptionCb = true) :
    (telnetOptionProcessIncoming cfg s o command).1 =
      if activates o command then onClientOk cfg (s.say (optionSends o command))
      else s.say (optionSends o command) := by
  unfold telnetOptionProcessIncoming
  by_cases yes : command = o.defn.ackYes
  · cases held : o.state <;>
      simp [activates, yes, held, optionSends, transitionAction, optionActivated, optionSend, cb,
        able, sendIfAble, telnetSendOption, tcpSend, Session.log, Session.say]
  · by_cases no : command = o.defn.ackNo
    · have differ : o.defn.ackNo ≠ o.defn.ackYes := fun same => yes (no.trans same)
      cases held : o.state <;>
        simp [activates, differ, no, held, optionSends, transitionAction, optionSend,
          able, sendIfAble, telnetSendOption, tcpSend, Session.log, Session.say]
    · simp [activates, yes, no, optionSends, transitionAction]

def weDef : TelnetOptionDef := ⟨tComPortOption, .requested, tWill, tWont, tDo, tDont, true, true⟩

def theyDef : TelnetOptionDef := ⟨tComPortOption, .inactive, tDo, tDont, tWill, tWont, true, true⟩

/-- The entries for other options come before the two for RFC2217. -/
def otherDefs : List TelnetOptionDef := optionDefs.take 5

theorem optionDefs_split : optionDefs = otherDefs ++ [weDef, theyDef] := rfl

theorem other_quiet : ∀ d ∈ otherDefs,
    d.option ≠ tComPortOption ∧ d.cb = false ∧ d.sendOptionCb = false := by decide

theorem tableAfter_split (asked : List (UInt8 × UInt8)) :
    tableAfter asked = otherDefs.map (·.after asked) ++ [weDef.after asked, theyDef.after asked] := by
  rw [tableAfter, optionDefs_split, List.map_append]
  rfl

theorem negotiateSends_quiet (cfg : Config σ) (command option : UInt8) (os : List TelnetOption)
    (quiet : ∀ o ∈ os, forOption option o → o.defn.cb = false ∧ o.defn.sendOptionCb = false)
    (s : Session σ) : negotiateSends cfg command option s os = s := by
  induction os with
  | nil => rfl
  | cons o os ih =>
    have first := quiet o List.mem_cons_self
    have rest := ih fun o ho => quiet o (List.mem_cons_of_mem _ ho)
    rw [negotiateSends, List.foldl_cons]
    split
    · rename_i applies
      rw [processIncoming_quiet cfg s o command (first applies).1 (first applies).2]
      exact rest
    · exact rest

theorem negotiateSends_append (cfg : Config σ) (command option : UInt8) (s : Session σ)
    (os os' : List TelnetOption) :
    negotiateSends cfg command option s (os ++ os') =
      negotiateSends cfg command option (negotiateSends cfg command option s os) os' :=
  List.foldl_append

/-- Only the entries for RFC2217 call anything. -/
theorem negotiateSends_other (cfg : Config σ) (asked : List (UInt8 × UInt8)) (command option : UInt8)
    (s : Session σ) :
    negotiateSends cfg command option s (otherDefs.map (·.after asked)) = s := by
  apply negotiateSends_quiet
  intro o ho _
  obtain ⟨d, listed, rfl⟩ := List.mem_map.mp ho
  rw [after_defn]
  exact (other_quiet d listed).2

/-- Before the first agreement no entry for RFC2217 is active. -/
theorem not_active_of_unannounced {asked : List (UInt8 × UInt8)} (fresh : announced asked = false)
    {d : TelnetOptionDef} (listed : d = weDef ∨ d = theyDef) : (d.after asked).state ≠ .active := by
  have unasked : (d.ackYes, d.option) ∉ asked := by
    simp only [announced, Bool.or_eq_false_iff, List.contains_eq_mem, decide_eq_false_iff_not]
      at fresh
    rcases listed with rfl | rfl
    · exact fresh.2
    · exact fresh.1
  unfold TelnetOptionDef.after
  cases last : lastAck d asked with
  | none => rcases listed with rfl | rfl <;> decide
  | some command =>
    have no : command ≠ d.ackYes := by
      intro yes
      obtain ⟨c, found, rfl⟩ := Option.map_eq_some_iff.mp last
      have mem := List.mem_of_getLast? found
      obtain ⟨mem, ack⟩ := List.mem_filter.mp mem
      simp only [TelnetOptionDef.acknowledges, Bool.and_eq_true, decide_eq_true_eq] at ack
      exact unasked (by rw [← yes, ← ack.1]; exact mem)
    simp [if_neg no, TelnetOption.off]

theorem announced_concat (asked : List (UInt8 × UInt8)) (c : UInt8 × UInt8) :
    announced (asked ++ [c]) =
      (announced asked || (c = (tWill, tComPortOption) || c = (tDo, tComPortOption))) := by
  have swap : ∀ a b x y : Bool, ((a || x) || (b || y)) = ((a || b) || (x || y)) := by decide
  simp only [announced, List.contains_eq_mem, List.mem_append, List.mem_singleton,
    Bool.decide_or, eq_comm, swap]

/-- The entry that a command is for is activated by it when the client is announced. -/
theorem activates_unannounced {asked : List (UInt8 × UInt8)} (fresh : announced asked = false)
    {d : TelnetOptionDef} (listed : d = weDef ∨ d = theyDef) (command : UInt8) :
    activates (d.after asked) command = (command = d.ackYes : Bool) := by
  have member : d ∈ optionDefs := by rcases listed with rfl | rfl <;> decide
  have idle := not_active_of_unannounced fresh listed
  rcases after_states member asked with held | held | held
  · simp [activates, held]
  · exact absurd (by rw [held]) idle
  · simp [activates, held]

theorem onClientOk_announced (cfg : Config σ) (s : Session σ)
    (known : s.server.clientIsRfc2217 = true) : onClientOk cfg s = s := if_pos known

theorem onClientOk_unannounced (cfg : Config σ) (s : Session σ)
    (unknown : s.server.clientIsRfc2217 = false) :
    onClientOk cfg s = ⟨{ s.server with clientIsRfc2217 := true }, (greeting cfg s.ctx).ctx,
      s.trace ++ (greeting cfg s.ctx).events⟩ := by
  cases set : cfg.onClientConnected <;>
    simp [onClientOk, unknown, greeting, set, Session.modify, Session.log]

/-- The effect of a command on the entry it is for. -/
theorem processIncoming_announces (cfg : Config σ) (s : Session σ) (asked : List (UInt8 × UInt8))
    (known : s.server.clientIsRfc2217 = announced asked) {d : TelnetOptionDef}
    (listed : d = weDef ∨ d = theyDef) (command : UInt8)
    (own : announced (asked ++ [(command, tComPortOption)]) =
      (announced asked || command = d.ackYes)) :
    (telnetOptionProcessIncoming cfg s (d.after asked) command).1 =
      ⟨{ s.server with clientIsRfc2217 := announced (asked ++ [(command, tComPortOption)]) },
        (announcement cfg asked (command, tComPortOption) s.ctx).ctx,
        s.trace ++ optionSends (d.after asked) command ++
          (announcement cfg asked (command, tComPortOption) s.ctx).events⟩ := by
  have able : (d.after asked).defn.cb = true ∧ (d.after asked).defn.sendOptionCb = true := by
    rw [after_defn]
    rcases listed with rfl | rfl <;> decide
  rw [processIncoming_able cfg s _ command able.1 able.2]
  cases fresh : announced asked with
  | true =>
    have said : (s.say (optionSends (d.after asked) command)).server.clientIsRfc2217 = true :=
      known.trans fresh
    have kept : s.server = { s.server with clientIsRfc2217 := true } := by
      rw [← fresh, ← known]
    have old : announcement cfg asked (command, tComPortOption) s.ctx = ⟨[], s.ctx⟩ :=
      if_neg fun new => Bool.false_ne_true (new.1.symm.trans fresh)
    rw [onClientOk_announced cfg _ said, ite_self, own, fresh, Bool.true_or, old, ← kept,
      List.append_nil]
    rfl
  | false =>
    rw [activates_unannounced fresh listed, own, fresh, Bool.false_or]
    by_cases yes : command = d.ackYes
    · have unknown : (s.say (optionSends (d.after asked) command)).server.clientIsRfc2217 = false :=
        known.trans fresh
      have new : announcement cfg asked (command, tComPortOption) s.ctx = greeting cfg s.ctx :=
        if_pos ⟨fresh, by rw [own, yes]; simp⟩
      rw [new, decide_eq_true yes, if_pos rfl, onClientOk_unannounced cfg _ unknown]
      rfl
    · have kept : s.server = { s.server with clientIsRfc2217 := false } := by
        rw [← fresh, ← known]
      have old : announcement cfg asked (command, tComPortOption) s.ctx = ⟨[], s.ctx⟩ :=
        if_neg fun new => by simp [own, fresh, yes] at new
      rw [old, decide_eq_false yes, if_neg Bool.false_ne_true, ← kept, List.append_nil]
      rfl

/-- A command that acknowledges nothing of an entry leaves the session alone. -/
theorem processIncoming_other (cfg : Config σ) (s : Session σ) (o : TelnetOption) (command : UInt8)
    (yes : command ≠ o.defn.ackYes) (no : command ≠ o.defn.ackNo) :
    (telnetOptionProcessIncoming cfg s o command).1 = s ∧ optionSends o command = [] := by
  constructor
  · unfold telnetOptionProcessIncoming
    rw [if_neg yes, if_neg no]
  · simp [optionSends, transitionAction, yes, no]

/-- A command for RFC2217: WILL and WONT are for one entry, the others for the other one. -/
theorem negotiateSends_comport (cfg : Config σ) (s : Session σ) (asked : List (UInt8 × UInt8))
    (known : s.server.clientIsRfc2217 = announced asked) (command : UInt8) :
    negotiateSends cfg command tComPortOption s (tableAfter asked) =
      ⟨{ s.server with clientIsRfc2217 := announced (asked ++ [(command, tComPortOption)]) },
        (announcement cfg asked (command, tComPortOption) s.ctx).ctx,
        s.trace ++ replyTo asked (command, tComPortOption) ++
          (announcement cfg asked (command, tComPortOption) s.ctx).events⟩ := by
  have ours : forOption tComPortOption (weDef.after asked) = true := by simp [forOption, weDef]
  have theirs : forOption tComPortOption (theyDef.after asked) = true := by
    simp [forOption, theyDef]
  have others : ∀ os : List TelnetOptionDef, (∀ d ∈ os, d.option ≠ tComPortOption) →
      ((os.map (·.after asked)).flatMap fun o =>
        if forOption tComPortOption o then optionSends o command else []) = [] := by
    intro os foreign
    rw [List.flatMap_eq_nil_iff]
    intro o ho
    obtain ⟨d, listed, rfl⟩ := List.mem_map.mp ho
    simp [forOption, foreign d listed]
  have sent : replyTo asked (command, tComPortOption) =
      optionSends (weDef.after asked) command ++ optionSends (theyDef.after asked) command := by
    have listed : (tableAfter asked).any (forOption tComPortOption) = true := by
      rw [tableAfter_split, List.any_append]
      simp [ours]
    rw [← (table_step asked (command, tComPortOption)).2]
    simp only
    rw [if_pos listed, tableAfter_split, List.flatMap_append,
      others otherDefs fun d hd => (other_quiet d hd).1]
    simp [ours, theirs]
  have two : negotiateSends cfg command tComPortOption s (tableAfter asked) =
      (telnetOptionProcessIncoming cfg
        (telnetOptionProcessIncoming cfg s (weDef.after asked) command).1
        (theyDef.after asked) command).1 := by
    rw [tableAfter_split, negotiateSends_append, negotiateSends_other]
    simp [negotiateSends, ours, theirs]
  rw [two, sent]
  by_cases theirs : command = tWill ∨ command = tWont
  · have skipped := processIncoming_other cfg s (weDef.after asked) command
      (by rw [after_defn]; rcases theirs with rfl | rfl <;> decide)
      (by rw [after_defn]; rcases theirs with rfl | rfl <;> decide)
    rw [skipped.1, skipped.2, List.nil_append]
    refine processIncoming_announces cfg s asked known (.inr rfl) command ?_
    rw [announced_concat]
    rcases theirs with rfl | rfl <;> simp +decide
  · have skipped := fun t => processIncoming_other cfg t (theyDef.after asked) command
      (by rw [after_defn]; exact fun h => theirs (.inl h))
      (by rw [after_defn]; exact fun h => theirs (.inr h))
    rw [(skipped _).1, (skipped s).2, List.append_nil]
    refine processIncoming_announces cfg s asked known (.inl rfl) command ?_
    rw [announced_concat]
    have not_will : command ≠ tWill := fun h => theirs (.inl h)
    simp [not_will]
    rfl

/-- A command for another option. -/
theorem negotiateSends_foreign (cfg : Config σ) (s : Session σ) (asked : List (UInt8 × UInt8))
    (command : UInt8) {option : UInt8} (foreign : option ≠ tComPortOption) :
    negotiateSends cfg command option s (tableAfter asked) = s := by
  apply negotiateSends_quiet
  intro o ho applies
  obtain ⟨d, listed, rfl⟩ := List.mem_map.mp ho
  have own : d.option = option := by simpa [forOption] using applies
  rw [after_defn]
  have quiet : ∀ d ∈ optionDefs, d.option ≠ tComPortOption →
      d.cb = false ∧ d.sendOptionCb = false := by decide
  exact quiet d listed (own ▸ foreign)

/-! ### One message -/

/-- The session behind a port between two messages. -/
structure Behind (p : Port σ) (s : Session σ) : Prop where
  idle : Idle s.server
  table : s.server.telnetOptions = tableAfter p.asked
  known : s.server.clientIsRfc2217 = announced p.asked
  ctx : s.ctx = p.ctx
  received : receivedBytes s.trace = p.received
  replies : Rfc2217.replies s.trace = p.replies

theorem behind_start (s : Session σ) : Behind (Port.start s) (startConnection s) :=
  ⟨⟨rfl, rfl⟩, rfl, rfl, rfl, rfl, rfl⟩

/-- What a handler that logs its entry `e` and makes the replies `es` adds. -/
theorem Behind.said {p : Port σ} {s : Session σ} (h : Behind p s) {t : List Event} {e : Event}
    {es : List Event} (trace : t = s.trace ++ [e] ++ es)
    (quiet : receivedBytes [e] = [] ∧ Rfc2217.replies [e] = [])
    (answers : ∀ e ∈ es, e.isReply = true) :
    receivedBytes t = p.received ∧ Rfc2217.replies t = p.replies ++ es := by
  have silent := receivedBytes_of_calls fun e mem => Event.isCall_of_isReply (answers e mem)
  rw [trace, receivedBytes_append, receivedBytes_append, replies_append, replies_append, quiet.1,
    quiet.2, silent, replies_of_replies answers, h.received, h.replies, List.append_nil,
    List.append_nil, List.append_nil]
  exact ⟨rfl, rfl⟩

theorem behind_data (cfg : Config σ) {p : Port σ} {s : Session σ} (h : Behind p s)
    (payload : List UInt8) :
    Behind (p.serve cfg (.data payload)) (parse cfg s (escapeIac payload)) := by
  have stored := store_idle cfg s h.idle.collecting payload
  rw [← parse_escaped cfg s h.idle.mode payload] at stored
  generalize parse cfg s (escapeIac payload) = t at stored
  have server : t.server = s.server := congrArg Outcome.server stored
  have ctx : t.ctx = s.ctx := congrArg Outcome.ctx stored
  have received : receivedBytes t.trace = _ := congrArg Outcome.received stored
  have called : calls t.trace = calls s.trace := congrArg Outcome.calls stored
  refine ⟨server ▸ h.idle, server ▸ h.table, server ▸ h.known, ctx.trans h.ctx, ?_, ?_⟩
  · rw [received]
    exact congrArg (· ++ _) h.received
  · rw [← replies_calls, called, replies_calls]
    exact h.replies

theorem afterIac_bare (cfg : Config σ) (s : Session σ) {c : UInt8} (bare : isBareCommand c) :
    afterIac cfg s c = (processTelnetCommand s c).setMode .normal := by
  unfold afterIac
  rw [if_neg bare.2.1, if_neg bare.2.2]
  exact if_neg bare.1.2

theorem behind_command (cfg : Config σ) {p : Port σ} {s : Session σ} (h : Behind p s) {c : UInt8}
    (bare : isBareCommand c) :
    Behind (p.serve cfg (.command c bare)) (parse cfg s [tIac, c]) := by
  have logged : parse cfg s [tIac, c] = (processTelnetCommand s c).setMode .normal :=
    (parse_code cfg s (.command c bare.1) h.idle.mode).trans (afterIac_bare cfg s bare)
  obtain ⟨received, replied⟩ := h.said (t := (s.log (.telnetCommand c)).trace)
    (List.append_nil _).symm ⟨rfl, rfl⟩ (by simp)
  rw [logged]
  exact ⟨⟨rfl, h.idle.collecting⟩, h.table, h.known, h.ctx, received,
    replied.trans (List.append_nil _)⟩

/-- A negotiation on a table that stands as the commands before left it. -/
theorem negotiateOn_port (cfg : Config σ) (s : Session σ) (asked : List (UInt8 × UInt8))
    (known : s.server.clientIsRfc2217 = announced asked) (command option : UInt8) :
    negotiateOn cfg command option (tableAfter asked) s =
      ⟨{ s.server with
          telnetOptions := tableAfter (asked ++ [(command, option)])
          clientIsRfc2217 := announced (asked ++ [(command, option)]) },
        (announcement cfg asked (command, option) s.ctx).ctx,
        s.trace ++ replyTo asked (command, option) ++
          (announcement cfg asked (command, option) s.ctx).events⟩ := by
  obtain ⟨stepped, sent⟩ := table_step asked (command, option)
  have listed : (tableAfter asked).any (forOption option) = knownOption option := by
    simp [tableAfter, knownOption, List.any_map, Function.comp_def, forOption]
  by_cases comport : option = tComPortOption
  · subst comport
    have found : (tableAfter asked).any (forOption tComPortOption) = true := listed.trans rfl
    simp only [negotiateOn, found, refuseUnknown, if_true,
      negotiateSends_comport cfg s asked known command, Session.modify, ← stepped]
    rfl
  · have old : announced (asked ++ [(command, option)]) = announced asked := by
      rw [announced_concat]
      simp [comport]
    have quiet : announcement cfg asked (command, option) s.ctx = ⟨[], s.ctx⟩ :=
      if_neg fun new => Bool.false_ne_true (new.1.symm.trans (old.symm.trans new.2))
    have kept : s.server.clientIsRfc2217 = announced (asked ++ [(command, option)]) :=
      known.trans old.symm
    rw [negotiateOn, negotiateSends_foreign cfg s asked command comport, quiet, ← kept, ← stepped]
    cases found : knownOption option with
    | true =>
      have nothing : replyTo asked (command, option) = [] := by
        rw [replyTo, if_pos found, List.flatMap_eq_nil_iff]
        intro d _
        split
        · rename_i ours
          have other : d.acknowledges (command, option) = false := by
            simp [TelnetOptionDef.acknowledges, ours, comport]
          rw [after_concat_other asked other, changeReply_self]
        · rfl
      rw [listed.trans found, nothing]
      simp [refuseUnknown, Session.modify, stepFor]
    | false =>
      have refused : replyTo asked (command, option) = refusal command option := by
        rw [replyTo, if_neg (by simp [found])]
      rw [listed.trans found, refused, refuseUnknown_refusal]
      simp [Session.modify, stepFor]

theorem changeReply_notices (before after : TelnetOption) :
    ∀ e ∈ changeReply before after, e.isNotice = true := by
  unfold changeReply
  split
  · simp [Event.isNotice]
  split
  · simp [Event.isNotice]
  · simp

theorem refusal_notices (command option : UInt8) :
    ∀ e ∈ refusal command option, e.isNotice = true := by
  unfold refusal
  split
  · simp [Event.isNotice]
  split
  · simp [Event.isNotice]
  · simp

theorem replyTo_notices (asked : List (UInt8 × UInt8)) (c : UInt8 × UInt8) :
    ∀ e ∈ replyTo asked c, e.isNotice = true := by
  unfold replyTo
  split
  · intro e mem
    obtain ⟨d, _, mem⟩ := List.mem_flatMap.mp mem
    split at mem
    · exact changeReply_notices _ _ e mem
    · cases mem
  · exact refusal_notices c.1 c.2

theorem announcement_notices (cfg : Config σ) (asked : List (UInt8 × UInt8)) (c : UInt8 × UInt8)
    (ctx : σ) : ∀ e ∈ (announcement cfg asked c ctx).events, e.isNotice = true := by
  unfold announcement greeting
  split
  · cases cfg.onClientConnected <;> simp [Event.isNotice]
  · simp

/-- A negotiation calls nothing but the announcement. -/
theorem negotiation_notices (cfg : Config σ) (asked : List (UInt8 × UInt8)) (c : UInt8 × UInt8)
    (ctx : σ) :
    ∀ e ∈ replyTo asked c ++ (announcement cfg asked c ctx).events, e.isNotice = true := by
  intro e mem
  rcases List.mem_append.mp mem with mem | mem
  · exact replyTo_notices asked c e mem
  · exact announcement_notices cfg asked c ctx e mem

theorem behind_negotiate (cfg : Config σ) {p : Port σ} {s : Session σ} (h : Behind p s)
    {action option : UInt8} (valid : isOptionAction action) :
    Behind (p.serve cfg (.negotiate action option valid))
      (parse cfg s [tIac, action, option]) := by
  obtain ⟨asked, ctx, received, replied⟩ := p
  have same : s.ctx = ctx := h.ctx
  subst same
  have negotiated := negotiateOn_port cfg
    ((s.modify fun server =>
      { server with telnetCommand := action, telnetMode := .negotiate }).log
        (.negotiate action option)) asked h.known action option
  have answers : ∀ e ∈ replyTo asked (action, option) ++
      (announcement cfg asked (action, option) s.ctx).events, e.isReply = true :=
    fun e mem => Event.isReply_of_isNotice (negotiation_notices cfg asked _ s.ctx e mem)
  obtain ⟨read, said⟩ := h.said (e := .negotiate action option)
    (List.append_assoc _ _ _) ⟨rfl, rfl⟩ answers
  rw [← List.append_assoc] at said
  rw [parse_option cfg s h.idle.mode valid, telnetNegotiateOption_eq]
  rw [← h.table] at negotiated
  exact negotiated.symm ▸ ⟨⟨rfl, h.idle.collecting⟩, rfl, rfl, rfl, read, said⟩

theorem answer_request (cfg : Config σ) (ctx : σ) (r : Request) {v : Vector UInt8 suboptionCapacity}
    (held : v.toList.take r.body.length = r.body) : answer cfg ctx v = r.answer cfg ctx := by
  cases r with
  | baudrate rate => exact answer_baudrateBody cfg ctx held
  | control value =>
    have option := byte_of_body held (i := 0) rfl (by decide)
    have command := byte_of_body held (i := 1) rfl (by decide)
    have byte := byte_of_body held (i := 2) rfl (by decide)
    simp +decide [answer, option, command, byte, Request.answer]
  | purge value =>
    have option := byte_of_body held (i := 0) rfl (by decide)
    have command := byte_of_body held (i := 1) rfl (by decide)
    have byte := byte_of_body held (i := 2) rfl (by decide)
    simp +decide [answer, option, command, byte, Request.answer]
  | setting kind value =>
    have option := byte_of_body held (i := 0) rfl (by decide)
    have command := byte_of_body held (i := 1) rfl (by decide)
    have byte := byte_of_body held (i := 2) rfl (by decide)
    cases kind <;>
      simp +decide [answer, option, command, byte, Request.answer, Setting.command, Setting.reply]

theorem request_fits (r : Request) : r.body.length ≤ suboptionCapacity := by
  cases r with
  | baudrate rate => exact (by decide : 6 ≤ 16)
  | control value | purge value | setting kind value => exact (by decide : 3 ≤ 16)

theorem behind_request (cfg : Config σ) {p : Port σ} {s : Session σ} (h : Behind p s)
    (r : Request) :
    Behind (p.serve cfg (.request r))
      (parse cfg s ([tIac, tSb] ++ escapeIac r.body ++ [tIac, tSe])) := by
  obtain ⟨asked, ctx, received, replied⟩ := p
  have same : s.ctx = ctx := h.ctx
  subst same
  obtain ⟨v, held, parsed⟩ := parse_fitting cfg s h.idle.mode r.body (request_fits r)
  have answers := answer_replies cfg s.ctx v
  obtain ⟨read, said⟩ := h.said (e := .subnegotiation r.body) rfl ⟨rfl, rfl⟩ answers
  rw [answer_request cfg s.ctx r held] at parsed said read
  rw [parsed]
  exact ⟨⟨rfl, rfl⟩, h.table, h.known, rfl, read, said⟩

theorem behind_message (cfg : Config σ) {p : Port σ} {s : Session σ} (h : Behind p s)
    (m : Message) : Behind (p.serve cfg m) (parse cfg s m.bytes) := by
  cases m with
  | data payload => exact behind_data cfg h payload
  | command c bare => exact behind_command cfg h bare
  | negotiate action option valid => exact behind_negotiate cfg h valid
  | request r => exact behind_request cfg h r

/-! ### A connection -/

theorem behind_messages (cfg : Config σ) {p : Port σ} {s : Session σ} (h : Behind p s)
    (ms : List Message) :
    Behind (ms.foldl (Port.serve cfg) p) (parse cfg s (ms.flatMap Message.bytes)) := by
  induction ms generalizing p s with
  | nil => exact h
  | cons m ms ih =>
    rw [List.flatMap_cons, parse_append]
    exact ih (behind_message cfg h m)

theorem Behind.of_outcome {p : Port σ} {s t : Session σ} (same : outcome t = outcome s)
    (h : Behind p s) : Behind p t := by
  have server : t.server = s.server := congrArg Outcome.server same
  have ctx : t.ctx = s.ctx := congrArg Outcome.ctx same
  have received : receivedBytes t.trace = receivedBytes s.trace := congrArg Outcome.received same
  exact ⟨server ▸ h.idle, server ▸ h.table, server ▸ h.known, ctx.trans h.ctx,
    received.trans h.received, (replies_of_outcome same).trans h.replies⟩

/-- Chunks of whole messages are never handed over inside of a subnegotiation. -/
theorem undiverted_messages (cfg : Config σ) {p : Port σ} {s : Session σ} (h : Behind p s)
    (groups : List (List Message)) :
    Runs.Along (processReceivedOverTcp cfg) (fun s chunk => ¬ Diverted s.server chunk) s
      (groups.map fun ms => ms.flatMap Message.bytes) := by
  induction groups generalizing p s with
  | nil => trivial
  | cons ms groups ih =>
    have direct : ¬ Diverted s.server (ms.flatMap Message.bytes) := fun diverted =>
      Bool.false_ne_true (h.idle.collecting.symm.trans diverted.2)
    have next := (behind_messages cfg h ms).of_outcome (process_outcome cfg rfl direct)
    exact ⟨direct, ih next⟩

/-- The callback at the end of a connection. -/
def hangUp (cfg : Config σ) (ctx : σ) : σ :=
  match cfg.onClientDisconnected with
  | some f => f ctx
  | none => ctx

theorem tcpReceiveThreadFn_hangUp (cfg : Config σ) (s : Session σ) (chunks : List (List UInt8)) :
    (tcpReceiveThreadFn cfg s chunks).server = (receive cfg s chunks).server ∧
      (tcpReceiveThreadFn cfg s chunks).ctx = hangUp cfg (receive cfg s chunks).ctx ∧
      receivedBytes (tcpReceiveThreadFn cfg s chunks).trace =
        receivedBytes (receive cfg s chunks).trace ∧
      replies (tcpReceiveThreadFn cfg s chunks).trace = replies (receive cfg s chunks).trace := by
  unfold tcpReceiveThreadFn hangUp
  cases cfg.onClientDisconnected with
  | none => exact ⟨rfl, rfl, rfl, rfl⟩
  | some f =>
    refine ⟨rfl, rfl, ?_, ?_⟩
    · exact (receivedBytes_append _ _).trans (List.append_nil _)
    · exact (replies_append _ _).trans (List.append_nil _)

/-- A connection on which messages arrive comes to what the port makes of them, however the bytes
are cut outside of the requests; whole messages may be cut anywhere between them. -/
theorem conversation (cfg : Config σ) (s : Session σ) (ms : List Message) :
    (∀ chunks : List (List UInt8), chunks.flatten = ms.flatMap Message.bytes →
      Undiverted cfg s chunks →
      let served := ms.foldl (Port.serve cfg) (Port.start s)
      let left := tcpReceiveThreadFn cfg s chunks
      receivedBytes left.trace = served.received ∧ replies left.trace = served.replies ∧
        left.ctx = hangUp cfg served.ctx ∧
        left.server.telnetOptions = tableAfter served.asked ∧
        left.server.clientIsRfc2217 = announced served.asked) ∧
    ∀ groups : List (List Message), groups.flatten = ms →
      Undiverted cfg s (groups.map fun ms => ms.flatMap Message.bytes) := by
  constructor
  · intro chunks cut direct served left
    have behind : Behind served (receive cfg s chunks) := by
      refine Behind.of_outcome (receive_outcome cfg s chunks direct) ?_
      rw [cut]
      exact behind_messages cfg (behind_start s) ms
    obtain ⟨server, ctx, received, replied⟩ := tcpReceiveThreadFn_hangUp cfg s chunks
    refine ⟨received.trans behind.received, replied.trans behind.replies, ?_, ?_, ?_⟩
    · rw [ctx, behind.ctx]
    · rw [server, behind.table]
    · rw [server, behind.known]
  · intro groups _
    exact undiverted_messages cfg (behind_start s) groups

/-- An escaped IAC cut in two, the agreement on RFC2217 and a baud rate. -/
theorem conversation_cut :
    let ms : List Message := [.data [97, tIac], .negotiate tWill tComPortOption (.inl rfl),
      .request (.baudrate 9600)]
    let served := ms.foldl (Port.serve relayConfig) (Port.start (rfc2217ServerCreate ()))
    let left := tcpReceiveThreadFn relayConfig (rfc2217ServerCreate ())
      [[97, tIac], [tIac, tIac, tWill], tComPortOption :: baudrateRequest 9600]
    receivedBytes left.trace = served.received ∧ replies left.trace = served.replies ∧
      left.ctx = hangUp relayConfig served.ctx ∧
      left.server.telnetOptions = tableAfter served.asked ∧
      left.server.clientIsRfc2217 = announced served.asked :=
  (conversation relayConfig (rfc2217ServerCreate ())
    [.data [97, tIac], .negotiate tWill tComPortOption (.inl rfl), .request (.baudrate 9600)]).1
    [[97, tIac], [tIac, tIac, tWill], tComPortOption :: baudrateRequest 9600]
    (by decide) (by unfold Undiverted; decide)

end Rocom.Rfc2217
