import Rocom.Rfc2217.Trace

/-! The answer to a request as a value: `process_subnegotiation` logs the body it was given,
performs the answer to the buffer and leaves the server alone. -/
namespace Rocom.Rfc2217

variable {σ : Type}

/-- An optional callback that may correct the requested value. -/
def callback (f : Option (σ → UInt32 → UInt32 × σ)) (ctx : σ) (value : UInt32) : UInt32 × σ :=
  match f with
  | some f => f ctx value
  | none => (value, ctx)

def called (f : Option (σ → UInt32 → UInt32 × σ)) (e : Event) : List Event :=
  if f.isSome then [e] else []

/-- The calls that answer one request, in order, and the context they leave. -/
structure Answer (σ : Type) where
  events : List Event
  ctx : σ

def baudrateOf (sub : Vector UInt8 suboptionCapacity) : UInt32 :=
  have h2 : 2 < suboptionCapacity := two_lt_capacity
  have h3 : 3 < suboptionCapacity := three_lt_capacity
  have h4 : 4 < suboptionCapacity := four_lt_capacity
  have h5 : 5 < suboptionCapacity := five_lt_capacity
  bigEndian32 sub[2] sub[3] sub[4] sub[5]

def baudrateAnswer (cfg : Config σ) (ctx : σ) (baudrate : UInt32) : Answer σ :=
  let r := callback cfg.onBaudrate ctx baudrate
  ⟨called cfg.onBaudrate (.baudrate baudrate) ++
    [.send (subnegotiationBuf tServerSetBaudrate (baudrateBytes r.1))], r.2⟩

def controlAnswer (cfg : Config σ) (ctx : σ) (value : UInt8) : Answer σ :=
  let r := callback cfg.onControl ctx value.toUInt32
  ⟨called cfg.onControl (.control value.toUInt32) ++
    [.send (subnegotiationBuf tServerSetControl [r.1.toUInt8])], r.2⟩

def purgeAnswer (cfg : Config σ) (ctx : σ) (value : UInt8) : Answer σ :=
  let r := callback cfg.onPurge ctx value.toUInt32
  ⟨[.send (subnegotiationBuf tServerPurgeData [value])] ++
    called cfg.onPurge (.purge value.toUInt32) ++
    [.send (subnegotiationBuf tServerPurgeData [value])], r.2⟩

def echoAnswer (ctx : σ) (reply value : UInt8) : Answer σ :=
  ⟨[.send (subnegotiationBuf reply [value])], ctx⟩

def answer (cfg : Config σ) (ctx : σ) (sub : Vector UInt8 suboptionCapacity) : Answer σ :=
  have h0 : 0 < suboptionCapacity := zero_lt_capacity
  have h1 : 1 < suboptionCapacity := one_lt_capacity
  have h2 : 2 < suboptionCapacity := two_lt_capacity
  if sub[0] ≠ tComPortOption then ⟨[], ctx⟩
  else if sub[1] = tSetBaudrate then baudrateAnswer cfg ctx (baudrateOf sub)
  else if sub[1] = tSetDatasize then echoAnswer ctx tServerSetDatasize sub[2]
  else if sub[1] = tSetParity then echoAnswer ctx tServerSetParity sub[2]
  else if sub[1] = tSetStopsize then echoAnswer ctx tServerSetStopsize sub[2]
  else if sub[1] = tSetControl then controlAnswer cfg ctx sub[2]
  else if sub[1] = tNotifyLinestate then echoAnswer ctx tServerNotifyLinestate sub[2]
  else if sub[1] = tNotifyModemstate then echoAnswer ctx tServerNotifyModemstate sub[2]
  else if sub[1] = tPurgeData then purgeAnswer cfg ctx sub[2]
  else ⟨[], ctx⟩

/-- The chain of comparisons in `process_subnegotiation`. -/
def answerRequest (cfg : Config σ) (sub : Vector UInt8 suboptionCapacity) (s : Session σ) :
    Session σ :=
  have h0 : 0 < suboptionCapacity := zero_lt_capacity
  have h1 : 1 < suboptionCapacity := one_lt_capacity
  if sub[0] ≠ tComPortOption then s
  else if sub[1] = tSetBaudrate then setBaudrate cfg s
  else if sub[1] = tSetDatasize then echoValue s tServerSetDatasize
  else if sub[1] = tSetParity then echoValue s tServerSetParity
  else if sub[1] = tSetStopsize then echoValue s tServerSetStopsize
  else if sub[1] = tSetControl then setControl cfg s
  else if sub[1] = tNotifyLinestate then echoValue s tServerNotifyLinestate
  else if sub[1] = tNotifyModemstate then echoValue s tServerNotifyModemstate
  else if sub[1] = tPurgeData then purgeData cfg s
  else s

/-- The session after the calls of an answer. -/
def Session.perform (s : Session σ) (a : Answer σ) : Session σ :=
  ⟨s.server, a.ctx, s.trace ++ a.events⟩

theorem setBaudrate_eq (cfg : Config σ) (s : Session σ) :
    setBaudrate cfg s = s.perform (baudrateAnswer cfg s.ctx (baudrateOf s.server.suboption)) := by
  cases h : cfg.onBaudrate <;>
    simp [setBaudrate, h, baudrateAnswer, callback, called, Session.perform, baudrateOf,
      Session.log, rfc2217SendSubnegotiation, tcpSend]

theorem setControl_eq (cfg : Config σ) (s : Session σ) :
    setControl cfg s = s.perform (controlAnswer cfg s.ctx s.server.suboption[2]) := by
  cases h : cfg.onControl <;>
    simp [setControl, h, controlAnswer, callback, called, Session.perform, Session.log,
      rfc2217SendSubnegotiation, tcpSend]

theorem purgeData_eq (cfg : Config σ) (s : Session σ) :
    purgeData cfg s = s.perform (purgeAnswer cfg s.ctx s.server.suboption[2]) := by
  cases h : cfg.onPurge <;>
    simp [purgeData, h, purgeAnswer, callback, called, Session.perform, Session.log,
      rfc2217SendSubnegotiation, tcpSend]

theorem echoValue_eq (s : Session σ) (reply : UInt8) :
    echoValue s reply = s.perform (echoAnswer s.ctx reply s.server.suboption[2]) :=
  rfl

theorem perform_nothing (s : Session σ) : s.perform ⟨[], s.ctx⟩ = s := by
  simp [Session.perform]

theorem answerRequest_eq (cfg : Config σ) (s : Session σ) :
    answerRequest cfg s.server.suboption s =
      s.perform (answer cfg s.ctx s.server.suboption) := by
  simp only [answerRequest, answer, apply_ite s.perform, setBaudrate_eq, setControl_eq,
    purgeData_eq, echoValue_eq, perform_nothing]

def requestCommands : List UInt8 :=
  [tSetBaudrate, tSetDatasize, tSetParity, tSetStopsize, tSetControl, tNotifyLinestate,
    tNotifyModemstate, tPurgeData]

/-- The bytes that `process_subnegotiation` answers. -/
def IsRequest : List UInt8 → Prop
  | option :: command :: _ => option = tComPortOption ∧ command ∈ requestCommands
  | _ => False

theorem isRequest_take (body : List UInt8) (n : Nat) :
    IsRequest (body.take (n + 2)) ↔ IsRequest body := by
  cases body with
  | nil => simp
  | cons option body =>
    cases body with
    | nil => simp
    | cons command body => simp [IsRequest]

theorem isRequest_toList (sub : Vector UInt8 suboptionCapacity) :
    IsRequest sub.toList ↔ sub[0] = tComPortOption ∧ sub[1] ∈ requestCommands := by
  have bytes : ∀ bytes : List UInt8, (h : 2 ≤ bytes.length) →
      (IsRequest bytes ↔ bytes[0] = tComPortOption ∧ bytes[1] ∈ requestCommands) := by
    intro bytes h
    match bytes, h with
    | option :: command :: _, _ => rfl
  have h := bytes sub.toList (by rw [Vector.length_toList]; decide)
  simpa only [Vector.getElem_toList] using h

/-- The answers there are, and which of them are answers to a request. -/
inductive AnswerTo (cfg : Config σ) (ctx : σ) (request : Prop) : Answer σ → Prop
  | nothing (unknown : ¬ request) : AnswerTo cfg ctx request ⟨[], ctx⟩
  | baudrate (known : request) (value : UInt32) :
      AnswerTo cfg ctx request (baudrateAnswer cfg ctx value)
  | control (known : request) (value : UInt8) :
      AnswerTo cfg ctx request (controlAnswer cfg ctx value)
  | purge (known : request) (value : UInt8) : AnswerTo cfg ctx request (purgeAnswer cfg ctx value)
  | echo (known : request) (reply value : UInt8) :
      AnswerTo cfg ctx request (echoAnswer ctx reply value)

theorem answer_cases (cfg : Config σ) (ctx : σ) (sub : Vector UInt8 suboptionCapacity) :
    AnswerTo cfg ctx (IsRequest sub.toList) (answer cfg ctx sub) := by
  rw [isRequest_toList]
  by_cases option : sub[0] = tComPortOption
  · have known {command : UInt8} (h : sub[1] = command) (listed : command ∈ requestCommands) :
        sub[0] = tComPortOption ∧ sub[1] ∈ requestCommands := ⟨option, h ▸ listed⟩
    unfold answer
    dsimp only
    rw [if_neg (not_not.mpr option)]
    split
    · rename_i h
      exact .baudrate (known h (by decide)) _
    split
    · rename_i h
      exact .echo (known h (by decide)) _ _
    split
    · rename_i h
      exact .echo (known h (by decide)) _ _
    split
    · rename_i h
      exact .echo (known h (by decide)) _ _
    split
    · rename_i h
      exact .control (known h (by decide)) _
    split
    · rename_i h
      exact .echo (known h (by decide)) _ _
    split
    · rename_i h
      exact .echo (known h (by decide)) _ _
    split
    · rename_i h
      exact .purge (known h (by decide)) _
    · apply AnswerTo.nothing
      rintro ⟨_, listed⟩
      simp_all [requestCommands]
  · simp only [answer, if_pos option]
    exact .nothing fun h => option h.1

theorem answer_replies (cfg : Config σ) (ctx : σ) (sub : Vector UInt8 suboptionCapacity) :
    ∀ e ∈ (answer cfg ctx sub).events, e.isReply = true := by
  have given := answer_cases cfg ctx sub
  generalize answer cfg ctx sub = a at given ⊢
  cases given with
  | nothing => simp
  | baudrate => cases h : cfg.onBaudrate <;> simp [baudrateAnswer, called, h, Event.isReply]
  | control => cases h : cfg.onControl <;> simp [controlAnswer, called, h, Event.isReply]
  | purge => cases h : cfg.onPurge <;> simp [purgeAnswer, called, h, Event.isReply]
  | echo => simp [echoAnswer, Event.isReply]

/-- The part of `suboption` in use. -/
def bodyOf (server : Server) : List UInt8 := server.suboption.toList.take server.suboptionSize

theorem processSubnegotiation_eq (cfg : Config σ) (s : Session σ) :
    processSubnegotiation cfg s =
      (s.log (.subnegotiation (bodyOf s.server))).perform
        (answer cfg s.ctx s.server.suboption) :=
  answerRequest_eq cfg (s.log (.subnegotiation (bodyOf s.server)))

theorem appends_perform {ok : Event → Bool} (a : σ → Answer σ)
    (h : ∀ ctx, ∀ e ∈ (a ctx).events, ok e = true) :
    Appends ok (fun s : Session σ => s.perform (a s.ctx)) :=
  fun server ctx => ⟨server, (a ctx).ctx, (a ctx).events, h ctx, fun _ => rfl⟩

theorem appends_processSubnegotiation (cfg : Config σ) :
    Appends Event.isCall (processSubnegotiation cfg) :=
  Appends.of_reads
    (fun server _ s => (s.log (.subnegotiation (bodyOf server))).perform
      (answer cfg s.ctx server.suboption))
    (fun server ctx t => processSubnegotiation_eq cfg ⟨server, ctx, t⟩)
    fun server _ => Appends.comp (appends_log rfl)
      ((appends_perform (fun ctx => answer cfg ctx server.suboption)
        fun ctx => answer_replies cfg ctx server.suboption).mono Event.isCall_of_isReply)

theorem appends_collectSuboption (c : UInt8) :
    Appends Event.isCall (fun s : Session σ => collectSuboption s c) :=
  appends_modify _

theorem appends_afterIac (cfg : Config σ) (c : UInt8) :
    Appends Event.isCall (fun s => afterIac cfg s c) :=
  Appends.ite (appends_modify _) <|
    Appends.ite (Appends.comp (appends_processSubnegotiation cfg) (appends_modify _)) <|
    Appends.ite (appends_modify _) (Appends.comp (appends_log rfl) (appends_modify _))

theorem processSubnegotiation_server (cfg : Config σ) (s : Session σ) :
    (processSubnegotiation cfg s).server = s.server := by
  rw [processSubnegotiation_eq]
  rfl

theorem answer_nothing (cfg : Config σ) (ctx : σ) (sub : Vector UInt8 suboptionCapacity) :
    (answer cfg ctx sub).events = [] ↔ ¬ IsRequest sub.toList := by
  have given := answer_cases cfg ctx sub
  generalize answer cfg ctx sub = a at given ⊢
  cases given with
  | nothing unknown => exact iff_of_true rfl unknown
  | baudrate known => exact iff_of_false (by simp [baudrateAnswer]) (not_not.mpr known)
  | control known => exact iff_of_false (by simp [controlAnswer]) (not_not.mpr known)
  | purge known => exact iff_of_false (by simp [purgeAnswer]) (not_not.mpr known)
  | echo known => exact iff_of_false (by simp [echoAnswer]) (not_not.mpr known)

end Rocom.Rfc2217
