import Rocom.Rfc2217.Server

/-! Traces of the server. The data bytes and the other calls are two projections of a
trace; every handler appends calls to it and reads nothing of it. -/
namespace Rocom.Rfc2217

variable {σ : Type}

def Event.data : Event → List UInt8
  | .dataReceived d => d
  | _ => []

def Event.isCall : Event → Bool
  | .dataReceived _ => false
  | _ => true

/-- The callbacks of a request and the bytes sent to the client. -/
def Event.isReply : Event → Bool
  | .clientConnected | .baudrate _ | .control _ | .purge _ | .send _ => true
  | _ => false

/-- Notices: the replies that carry out no request. -/
def Event.isNotice : Event → Bool
  | .clientConnected | .send _ => true
  | _ => false

theorem Event.isReply_of_isNotice {e : Event} (h : e.isNotice = true) : e.isReply = true := by
  cases e <;> first | rfl | cases h

theorem Event.isCall_of_isReply {e : Event} (h : e.isReply = true) : e.isCall = true := by
  cases e <;> first | rfl | cases h

def receivedBytes (t : List Event) : List UInt8 := t.flatMap Event.data

def calls (t : List Event) : List Event := t.filter Event.isCall

@[simp] theorem receivedBytes_nil : receivedBytes [] = [] := rfl

@[simp] theorem calls_nil : calls [] = [] := rfl

@[simp] theorem receivedBytes_append (t u : List Event) :
    receivedBytes (t ++ u) = receivedBytes t ++ receivedBytes u := List.flatMap_append

@[simp] theorem calls_append (t u : List Event) : calls (t ++ u) = calls t ++ calls u :=
  List.filter_append t u

@[simp] theorem receivedBytes_data (d : List UInt8) :
    receivedBytes [.dataReceived d] = d := by simp [receivedBytes, Event.data]

@[simp] theorem calls_data (d : List UInt8) : calls [.dataReceived d] = [] := rfl

theorem receivedBytes_of_calls {es : List Event} (h : ∀ e ∈ es, e.isCall = true) :
    receivedBytes es = [] := by
  induction es with
  | nil => rfl
  | cons e es ih =>
    have he := h e List.mem_cons_self
    have hrest := ih fun e he => h e (List.mem_cons_of_mem _ he)
    cases e <;> simp_all [receivedBytes, Event.data, Event.isCall]

def replies (t : List Event) : List Event := t.filter Event.isReply

@[simp] theorem replies_append (t u : List Event) : replies (t ++ u) = replies t ++ replies u :=
  List.filter_append t u

theorem replies_of_replies {es : List Event} (h : ∀ e ∈ es, e.isReply = true) :
    replies es = es := List.filter_eq_self.mpr h

theorem replies_calls (t : List Event) : replies (calls t) = replies t := by
  rw [replies, calls, List.filter_filter, replies]
  apply List.filter_congr
  intro e _
  cases e <;> rfl

/-! Every handler appends to the trace and reads nothing of it. -/

/-- What `f` does to server and context, and the calls of kind `ok` it makes, are the
same whatever the trace was before. -/
def Appends (ok : Event → Bool) (f : Session σ → Session σ) : Prop :=
  ∀ server ctx, ∃ server' ctx' es, (∀ e ∈ es, ok e = true) ∧
    ∀ t, f ⟨server, ctx, t⟩ = ⟨server', ctx', t ++ es⟩

theorem appends_id {ok : Event → Bool} : Appends ok (fun s : Session σ => s) :=
  fun server ctx => ⟨server, ctx, [], by simp, by simp⟩

theorem appends_modify {ok : Event → Bool} (f : Server → Server) :
    Appends ok (fun s : Session σ => s.modify f) :=
  fun server ctx => ⟨f server, ctx, [], by simp, fun t => by simp [Session.modify]⟩

theorem appends_log {ok : Event → Bool} {e : Event} (he : ok e = true) :
    Appends ok (fun s : Session σ => s.log e) :=
  fun server ctx => ⟨server, ctx, [e], by simpa using he, fun _ => rfl⟩

theorem Appends.mono {ok ok' : Event → Bool} {f : Session σ → Session σ} (hf : Appends ok f)
    (h : ∀ {e}, ok e = true → ok' e = true) : Appends ok' f := by
  intro server ctx
  obtain ⟨server', ctx', es, hes, hfe⟩ := hf server ctx
  exact ⟨server', ctx', es, fun e he => h (hes e he), hfe⟩

theorem Appends.comp {ok : Event → Bool} {f g : Session σ → Session σ} (hf : Appends ok f)
    (hg : Appends ok g) : Appends ok (fun s => g (f s)) := by
  intro server ctx
  obtain ⟨server', ctx', es, hes, hfe⟩ := hf server ctx
  obtain ⟨server'', ctx'', fs, hfs, hge⟩ := hg server' ctx'
  refine ⟨server'', ctx'', es ++ fs, ?_, fun t => ?_⟩
  · intro e he
    rcases List.mem_append.mp he with he | he
    · exact hes e he
    · exact hfs e he
  · simp only [hfe, hge, List.append_assoc]

theorem Appends.ite {ok : Event → Bool} {p : Prop} [Decidable p] {f g : Session σ → Session σ}
    (hf : Appends ok f) (hg : Appends ok g) : Appends ok (fun s => if p then f s else g s) := by
  by_cases h : p
  · simpa only [h, if_true] using hf
  · simpa only [h, if_false] using hg

/-- `f` may look at server and context before it acts. -/
theorem Appends.of_reads {ok : Event → Bool} {f : Session σ → Session σ}
    (g : Server → σ → Session σ → Session σ)
    (hf : ∀ server ctx t, f ⟨server, ctx, t⟩ = g server ctx ⟨server, ctx, t⟩)
    (hg : ∀ server ctx, Appends ok (g server ctx)) : Appends ok f := by
  intro server ctx
  obtain ⟨server', ctx', es, hes, hge⟩ := hg server ctx server ctx
  exact ⟨server', ctx', es, hes, fun t => (hf server ctx t).trans (hge t)⟩

theorem Appends.trace {ok : Event → Bool} {f : Session σ → Session σ} (hf : Appends ok f)
    (s : Session σ) : ∃ es, (∀ e ∈ es, ok e = true) ∧ (f s).trace = s.trace ++ es := by
  obtain ⟨server', ctx', es, hes, hfe⟩ := hf s.server s.ctx
  exact ⟨es, hes, congrArg Session.trace (hfe s.trace)⟩

theorem appends_tcpSend (buf : List UInt8) :
    Appends Event.isNotice (fun s : Session σ => tcpSend s buf) :=
  appends_log rfl

theorem appends_onClientOk (cfg : Config σ) : Appends Event.isNotice (onClientOk cfg) := by
  intro server ctx
  unfold onClientOk
  by_cases h : server.clientIsRfc2217
  · exact ⟨server, ctx, [], by simp, fun t => by simp [h]⟩
  · cases hc : cfg.onClientConnected with
    | none => exact ⟨_, _, [], by simp, fun t => by simp [h, Session.modify]; exact ⟨rfl, rfl⟩⟩
    | some f =>
      exact ⟨_, _, [.clientConnected], by simp [Event.isNotice],
        fun t => by simp [h, Session.modify, Session.log]; exact ⟨rfl, rfl⟩⟩

theorem appends_optionSend (d : TelnetOptionDef) (action : UInt8) :
    Appends Event.isNotice (fun s : Session σ => optionSend d s action) :=
  Appends.ite (appends_tcpSend _) appends_id

theorem appends_optionActivated (cfg : Config σ) (d : TelnetOptionDef) :
    Appends Event.isNotice (optionActivated cfg d) :=
  Appends.ite (appends_onClientOk cfg) appends_id

/-- The entry's part of `telnet_option_process_incoming`. -/
def stepOption (o : TelnetOption) (command : UInt8) : TelnetOption :=
  if command = o.defn.ackYes then
    match o.state with
    | .requested | .inactive => { o with state := .active, active := true }
    | .active | .reallyInactive => o
  else if command = o.defn.ackNo then
    match o.state with
    | .requested | .active => { o with state := .inactive, active := false }
    | .inactive | .reallyInactive => o
  else o

theorem telnetOptionProcessIncoming_snd (cfg : Config σ) (s : Session σ) (o : TelnetOption)
    (command : UInt8) : (telnetOptionProcessIncoming cfg s o command).2 = stepOption o command := by
  unfold telnetOptionProcessIncoming stepOption
  split
  · cases o.state <;> rfl
  · split
    · cases o.state <;> rfl
    · rfl

theorem appends_telnetOptionProcessIncoming (cfg : Config σ) (o : TelnetOption)
    (command : UInt8) :
    Appends Event.isNotice (fun s => (telnetOptionProcessIncoming cfg s o command).1) := by
  unfold telnetOptionProcessIncoming
  by_cases hy : command = o.defn.ackYes
  · simp only [if_pos hy]
    cases o.state with
    | requested => exact appends_optionActivated cfg o.defn
    | active => exact appends_id
    | inactive => exact (appends_optionSend _ _).comp (appends_optionActivated cfg o.defn)
    | reallyInactive => exact appends_optionSend _ _
  · by_cases hn : command = o.defn.ackNo
    · simp only [if_neg hy, if_pos hn]
      cases o.state with
      | active => exact appends_optionSend _ _
      | requested | inactive | reallyInactive => exact appends_id
    · simpa only [if_neg hy, if_neg hn] using appends_id

def forOption (option : UInt8) (o : TelnetOption) : Bool := o.defn.option = option

/-- The session after the entries of a table, without the table itself. -/
def negotiateSends (cfg : Config σ) (command option : UInt8) (s : Session σ)
    (os : List TelnetOption) : Session σ :=
  os.foldl (fun s o =>
    if forOption option o then (telnetOptionProcessIncoming cfg s o command).1 else s) s

theorem negotiateEntries_eq (cfg : Config σ) (command option : UInt8) (s : Session σ)
    (os : List TelnetOption) :
    negotiateEntries cfg command option s os =
      (negotiateSends cfg command option s os,
        os.map (fun o => if forOption option o then stepOption o command else o),
        os.any (forOption option)) := by
  induction os generalizing s with
  | nil => rfl
  | cons o os ih =>
    by_cases h : o.defn.option = option
    · simp [negotiateEntries, negotiateSends, forOption, h, ih,
        telnetOptionProcessIncoming_snd]
    · simp [negotiateEntries, negotiateSends, forOption, h, ih]

theorem appends_negotiateSends (cfg : Config σ) (command option : UInt8)
    (os : List TelnetOption) :
    Appends Event.isNotice (fun s => negotiateSends cfg command option s os) := by
  induction os with
  | nil => exact appends_id
  | cons o os ih =>
    simp only [negotiateSends, List.foldl_cons]
    exact Appends.comp
      (Appends.ite (appends_telnetOptionProcessIncoming cfg o command) appends_id) ih

/-- The last answer of `telnet_negotiate_option`, to an option that is not in the table. -/
def refuseUnknown (command option : UInt8) (known : Bool) (s : Session σ) : Session σ :=
  if known then s
  else if command = tWill then telnetSendOption s tDont option
  else if command = tDo then telnetSendOption s tWont option
  else s

theorem appends_refuseUnknown (command option : UInt8) (known : Bool) :
    Appends Event.isNotice (refuseUnknown command option known : Session σ → Session σ) :=
  Appends.ite appends_id
    (Appends.ite (appends_tcpSend _) (Appends.ite (appends_tcpSend _) appends_id))

def refusal (command option : UInt8) : List Event :=
  if command = tWill then [.send [tIac, tDont, option]]
  else if command = tDo then [.send [tIac, tWont, option]]
  else []

theorem refuseUnknown_refusal (command option : UInt8) (s : Session σ) :
    refuseUnknown command option false s =
      ⟨s.server, s.ctx, s.trace ++ refusal command option⟩ := by
  unfold refuseUnknown refusal
  split
  · contradiction
  split
  · rfl
  split
  · rfl
  · rw [List.append_nil]

theorem refusal_replies (command option : UInt8) :
    ∀ e ∈ refusal command option, e.isReply = true := by
  unfold refusal
  split
  · simp [Event.isReply]
  split
  · simp [Event.isReply]
  · simp

theorem refusal_nothing (command option : UInt8) :
    refusal command option = [] ↔ command ≠ tWill ∧ command ≠ tDo := by
  unfold refusal
  split
  · rename_i h
    simp [h]
  split
  · rename_i h
    simp [h]
  · rename_i will ask
    simp [will, ask]

/-- `telnet_negotiate_option` after its entry is logged, on the table it found. -/
def negotiateOn (cfg : Config σ) (command option : UInt8) (table : List TelnetOption)
    (s : Session σ) : Session σ :=
  refuseUnknown command option (table.any (forOption option))
    ((negotiateSends cfg command option s table).modify fun server => { server with
      telnetOptions := table.map fun o => if forOption option o then stepOption o command else o })

theorem telnetNegotiateOption_eq (cfg : Config σ) (s : Session σ) (command option : UInt8) :
    telnetNegotiateOption cfg s command option =
      negotiateOn cfg command option s.server.telnetOptions (s.log (.negotiate command option)) := by
  simp only [telnetNegotiateOption, Session.log, negotiateEntries_eq, negotiateOn, refuseUnknown]

theorem appends_negotiateOn (cfg : Config σ) (command option : UInt8)
    (table : List TelnetOption) :
    Appends Event.isNotice (negotiateOn cfg command option table) :=
  ((appends_negotiateSends cfg command option table).comp (appends_modify _)).comp
    (appends_refuseUnknown _ _ _)

theorem appends_telnetNegotiateOption (cfg : Config σ) (command option : UInt8) :
    Appends Event.isCall (fun s => telnetNegotiateOption cfg s command option) :=
  Appends.of_reads
    (fun server _ s => negotiateOn cfg command option server.telnetOptions
      (s.log (.negotiate command option)))
    (fun server ctx t => telnetNegotiateOption_eq cfg ⟨server, ctx, t⟩ command option)
    fun _ _ => Appends.comp (appends_log rfl)
      ((appends_negotiateOn cfg command option _).mono
        fun h => Event.isCall_of_isReply (Event.isReply_of_isNotice h))

/-! The server fields that the handlers change. -/

/-- A negotiation touches the option table and `client_is_rfc2217` only. -/
def SameParser (a b : Server) : Prop :=
  ∃ options known, b = { a with telnetOptions := options, clientIsRfc2217 := known }

theorem sameParser_refl (a : Server) : SameParser a a := ⟨_, _, rfl⟩

theorem SameParser.trans {a b c : Server} (hab : SameParser a b) (hbc : SameParser b c) :
    SameParser a c := by
  obtain ⟨_, _, rfl⟩ := hab
  obtain ⟨_, _, rfl⟩ := hbc
  exact ⟨_, _, rfl⟩

theorem optionSend_server (d : TelnetOptionDef) (s : Session σ) (action : UInt8) :
    (optionSend d s action).server = s.server := by
  unfold optionSend
  split <;> rfl

theorem onClientOk_server (cfg : Config σ) (s : Session σ) :
    (onClientOk cfg s).server = { s.server with clientIsRfc2217 := true } := by
  unfold onClientOk
  split
  · rename_i h
    simp [← h]
  · cases cfg.onClientConnected <;> rfl

theorem optionActivated_server (cfg : Config σ) (d : TelnetOptionDef) (s : Session σ) :
    SameParser s.server (optionActivated cfg d s).server := by
  unfold optionActivated
  split
  · exact ⟨_, _, onClientOk_server cfg s⟩
  · exact sameParser_refl _

theorem telnetOptionProcessIncoming_server (cfg : Config σ) (s : Session σ)
    (o : TelnetOption) (command : UInt8) :
    SameParser s.server (telnetOptionProcessIncoming cfg s o command).1.server := by
  unfold telnetOptionProcessIncoming
  split
  · cases o.state with
    | requested => exact optionActivated_server cfg _ s
    | active => exact sameParser_refl _
    | inactive =>
      have h := optionActivated_server cfg o.defn (optionSend o.defn s o.defn.sendYes)
      rwa [optionSend_server] at h
    | reallyInactive => rw [optionSend_server]; exact sameParser_refl _
  · split
    · cases o.state with
      | active => rw [optionSend_server]; exact sameParser_refl _
      | requested | inactive | reallyInactive => exact sameParser_refl _
    · exact sameParser_refl _

theorem negotiateSends_server (cfg : Config σ) (command option : UInt8)
    (os : List TelnetOption) (s : Session σ) :
    SameParser s.server (negotiateSends cfg command option s os).server := by
  induction os generalizing s with
  | nil => exact sameParser_refl _
  | cons o os ih =>
    rw [negotiateSends, List.foldl_cons]
    split
    · exact (telnetOptionProcessIncoming_server cfg s o command).trans (ih _)
    · exact ih s

theorem refuseUnknown_server (command option : UInt8) (known : Bool) (s : Session σ) :
    (refuseUnknown command option known s).server = s.server := by
  have send : ∀ action, (telnetSendOption s action option).server = s.server := fun _ => rfl
  simp only [refuseUnknown, apply_ite Session.server, send, ite_self]

theorem telnetNegotiateOption_server (cfg : Config σ) (s : Session σ) (command option : UInt8) :
    SameParser s.server (telnetNegotiateOption cfg s command option).server := by
  rw [telnetNegotiateOption_eq, negotiateOn, refuseUnknown_server]
  exact (negotiateSends_server cfg command option _ (s.log (.negotiate command option))).trans
    ⟨_, _, rfl⟩

end Rocom.Rfc2217
