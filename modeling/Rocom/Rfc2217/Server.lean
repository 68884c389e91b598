import Rocom.Lib.Stuffing

/-! The RFC2217 server of main/rfc2217_server.c: the telnet byte machine, the option
table, the COM-PORT-OPTION requests and the encoders. A session is one server with the
user's callback context and the list of calls made so far; nothing reads that list. -/
namespace Rocom.Rfc2217

abbrev tSe : UInt8 := 0xf0
abbrev tSb : UInt8 := 0xfa
abbrev tWill : UInt8 := 0xfb
abbrev tWont : UInt8 := 0xfc
abbrev tDo : UInt8 := 0xfd
abbrev tDont : UInt8 := 0xfe
abbrev tIac : UInt8 := 0xff

abbrev tBinary : UInt8 := 0x00
abbrev tEcho : UInt8 := 0x01
abbrev tSga : UInt8 := 0x03
abbrev tComPortOption : UInt8 := 0x2c

abbrev tSetBaudrate : UInt8 := 0x01
abbrev tSetDatasize : UInt8 := 0x02
abbrev tSetParity : UInt8 := 0x03
abbrev tSetStopsize : UInt8 := 0x04
abbrev tSetControl : UInt8 := 0x05
abbrev tNotifyLinestate : UInt8 := 0x06
abbrev tNotifyModemstate : UInt8 := 0x07
abbrev tPurgeData : UInt8 := 0x0c

abbrev tServerSetBaudrate : UInt8 := 0x65
abbrev tServerSetDatasize : UInt8 := 0x66
abbrev tServerSetParity : UInt8 := 0x67
abbrev tServerSetStopsize : UInt8 := 0x68
abbrev tServerSetControl : UInt8 := 0x69
abbrev tServerNotifyLinestate : UInt8 := 0x6a
abbrev tServerNotifyModemstate : UInt8 := 0x6b
abbrev tServerPurgeData : UInt8 := 0x70

inductive TelnetMode where
  | normal | gotIac | negotiate
deriving DecidableEq, Repr

inductive TelnetOptionState where
  | requested | active | inactive | reallyInactive
deriving DecidableEq, Repr

/-- `cb` and `sendOptionCb` tell whether the pointer is set: the only functions the
table ever stores there are `on_client_ok` and `telnet_send_option`. -/
structure TelnetOptionDef where
  option : UInt8
  initialState : TelnetOptionState
  sendYes : UInt8
  sendNo : UInt8
  ackYes : UInt8
  ackNo : UInt8
  cb : Bool
  sendOptionCb : Bool
deriving DecidableEq, Repr

structure TelnetOption where
  defn : TelnetOptionDef
  active : Bool
  state : TelnetOptionState
deriving DecidableEq, Repr

/-- The calls of one session in the order they are made: the user's callbacks, the
buffers given to `tcp_send`, and the entries into the three handlers of the byte loop. -/
inductive Event where
  | dataReceived (data : List UInt8)
  | clientConnected
  | clientDisconnected
  | baudrate (requested : UInt32)
  | control (requested : UInt32)
  | purge (requested : UInt32)
  | send (buf : List UInt8)
  | telnetCommand (c : UInt8)
  | negotiate (command option : UInt8)
  | subnegotiation (body : List UInt8)
deriving DecidableEq, Repr

/-- A callback is given the context and updates it; `none` stands for NULL. What `on_data_received`
does with the data is its own affair, as long as the context of the others stays as it is.
Enumerations of the header are the unsigned they convert to. -/
structure Config (σ : Type) where
  onClientConnected : Option (σ → σ)
  onClientDisconnected : Option (σ → σ)
  onBaudrate : Option (σ → UInt32 → UInt32 × σ)
  onControl : Option (σ → UInt32 → UInt32 × σ)
  onPurge : Option (σ → UInt32 → UInt32 × σ)
  onDataReceived : Option (σ → List UInt8 → σ)
  onDataReceived_keeps : ∀ f ∈ onDataReceived, ∀ ctx data, f ctx data = ctx
  dataBufferSize : Nat
  dataBufferSize_pos : 0 < dataBufferSize

abbrev suboptionCapacity : Nat := 16

/-! The octets of a request lie inside of the buffer. -/

theorem zero_lt_capacity : 0 < suboptionCapacity := by decide

theorem one_lt_capacity : 1 < suboptionCapacity := by decide

theorem two_lt_capacity : 2 < suboptionCapacity := by decide

theorem three_lt_capacity : 3 < suboptionCapacity := by decide

theorem four_lt_capacity : 4 < suboptionCapacity := by decide

theorem five_lt_capacity : 5 < suboptionCapacity := by decide

structure Server where
  telnetMode : TelnetMode
  clientSocket : Int
  tcpReceiveThread : Nat
  clientIsRfc2217 : Bool
  suboption : Vector UInt8 suboptionCapacity
  suboptionSize : Nat
  telnetOptions : List TelnetOption
  collectingSuboption : Bool
  telnetCommand : UInt8
deriving DecidableEq

structure Session (σ : Type) where
  server : Server
  ctx : σ
  trace : List Event
deriving DecidableEq

variable {σ : Type}

def Session.log (s : Session σ) (e : Event) : Session σ :=
  { s with trace := s.trace ++ [e] }

def Session.modify (s : Session σ) (f : Server → Server) : Session σ :=
  { s with server := f s.server }

def Session.setMode (s : Session σ) (mode : TelnetMode) : Session σ :=
  s.modify fun server => { server with telnetMode := mode }

/-- The whole buffer is written under the mutex; `send` itself is not part of this file. -/
def tcpSend (s : Session σ) (buf : List UInt8) : Session σ :=
  s.log (.send buf)

def telnetSendOption (s : Session σ) (action option : UInt8) : Session σ :=
  tcpSend s [tIac, action, option]

def onClientOk (cfg : Config σ) (s : Session σ) : Session σ :=
  if s.server.clientIsRfc2217 then s
  else
    let s := s.modify fun server => { server with clientIsRfc2217 := true }
    match cfg.onClientConnected with
    | some f => { s.log .clientConnected with ctx := f s.ctx }
    | none => s

/-- The two optional calls at the end of an option's transition. -/
def optionSend (d : TelnetOptionDef) (s : Session σ) (action : UInt8) : Session σ :=
  if d.sendOptionCb then telnetSendOption s action d.option else s

def optionActivated (cfg : Config σ) (d : TelnetOptionDef) (s : Session σ) : Session σ :=
  if d.cb then onClientOk cfg s else s

def telnetOptionProcessIncoming (cfg : Config σ) (s : Session σ) (o : TelnetOption)
    (command : UInt8) : Session σ × TelnetOption :=
  if command = o.defn.ackYes then
    match o.state with
    | .requested =>
      (optionActivated cfg o.defn s, { o with state := .active, active := true })
    | .active => (s, o)
    | .inactive =>
      (optionActivated cfg o.defn (optionSend o.defn s o.defn.sendYes),
        { o with state := .active, active := true })
    | .reallyInactive => (optionSend o.defn s o.defn.sendNo, o)
  else if command = o.defn.ackNo then
    match o.state with
    | .requested => (s, { o with state := .inactive, active := false })
    | .active =>
      (optionSend o.defn s o.defn.sendNo, { o with state := .inactive, active := false })
    | .inactive => (s, o)
    | .reallyInactive => (s, o)
  else (s, o)

/-- ECHO, we-SGA, they-SGA, we-BINARY, they-BINARY, we-RFC2217, they-RFC2217. -/
def optionDefs : List TelnetOptionDef :=
  [⟨tEcho, .requested, tWill, tWont, tDo, tDont, false, false⟩,
   ⟨tSga, .requested, tWill, tWont, tDo, tDont, false, false⟩,
   ⟨tSga, .inactive, tDo, tDont, tWill, tWont, false, false⟩,
   ⟨tBinary, .inactive, tWill, tWont, tDo, tDont, false, false⟩,
   ⟨tBinary, .requested, tDo, tDont, tWill, tWont, false, false⟩,
   ⟨tComPortOption, .requested, tWill, tWont, tDo, tDont, true, true⟩,
   ⟨tComPortOption, .inactive, tDo, tDont, tWill, tWont, true, true⟩]

def TelnetOptionDef.init (d : TelnetOptionDef) : TelnetOption :=
  ⟨d, false, d.initialState⟩

def telnetOptionsInit : List TelnetOption :=
  optionDefs.map TelnetOptionDef.init

/-- The loop of `telnet_negotiate_option` over the table, with the flag `known`. -/
def negotiateEntries (cfg : Config σ) (command option : UInt8) :
    Session σ → List TelnetOption → Session σ × List TelnetOption × Bool
  | s, [] => (s, [], false)
  | s, o :: os =>
    if o.defn.option = option then
      let (s, o) := telnetOptionProcessIncoming cfg s o command
      let (s, os, _) := negotiateEntries cfg command option s os
      (s, o :: os, true)
    else
      let (s, os, known) := negotiateEntries cfg command option s os
      (s, o :: os, known)

def telnetNegotiateOption (cfg : Config σ) (s : Session σ) (command option : UInt8) :
    Session σ :=
  let s := s.log (.negotiate command option)
  let (s, options, known) := negotiateEntries cfg command option s s.server.telnetOptions
  let s := s.modify fun server => { server with telnetOptions := options }
  if known then s
  else if command = tWill then telnetSendOption s tDont option
  else if command = tDo then telnetSendOption s tWont option
  else s

def processTelnetCommand (s : Session σ) (c : UInt8) : Session σ :=
  s.log (.telnetCommand c)

/-- `if (data[i] == T_IAC) buf[buf_index++] = T_IAC; buf[buf_index++] = data[i];` -/
def escapeIac (data : List UInt8) : List UInt8 := Stuffing.double tIac data

/-- Every caller passes one or four bytes, so `buf[256]` is never filled. -/
def subnegotiationBuf (command : UInt8) (data : List UInt8) : List UInt8 :=
  [tIac, tSb, tComPortOption, command] ++ escapeIac data ++ [tIac, tSe]

def rfc2217SendSubnegotiation (s : Session σ) (command : UInt8) (data : List UInt8) :
    Session σ :=
  tcpSend s (subnegotiationBuf command data)

def bigEndian32 (b0 b1 b2 b3 : UInt8) : UInt32 :=
  (b0.toUInt32 <<< 24) ||| (b1.toUInt32 <<< 16) ||| (b2.toUInt32 <<< 8) ||| b3.toUInt32

def baudrateBytes (b : UInt32) : List UInt8 :=
  [(b >>> 24).toUInt8, (b >>> 16).toUInt8, (b >>> 8).toUInt8, b.toUInt8]

def setBaudrate (cfg : Config σ) (s : Session σ) : Session σ :=
  let sub := s.server.suboption
  let baudrate := bigEndian32 sub[2] sub[3] sub[4] sub[5]
  match cfg.onBaudrate with
  | some f =>
    let (newBaudrate, ctx) := f s.ctx baudrate
    rfc2217SendSubnegotiation { s.log (.baudrate baudrate) with ctx := ctx }
      tServerSetBaudrate (baudrateBytes newBaudrate)
  | none => rfc2217SendSubnegotiation s tServerSetBaudrate (baudrateBytes baudrate)

def setControl (cfg : Config σ) (s : Session σ) : Session σ :=
  let control := s.server.suboption[2].toUInt32
  match cfg.onControl with
  | some f =>
    let (newControl, ctx) := f s.ctx control
    rfc2217SendSubnegotiation { s.log (.control control) with ctx := ctx }
      tServerSetControl [newControl.toUInt8]
  | none => rfc2217SendSubnegotiation s tServerSetControl [control.toUInt8]

/-- The reply goes out before and after the callback, whose result is dropped. -/
def purgeData (cfg : Config σ) (s : Session σ) : Session σ :=
  let purge := s.server.suboption[2]
  let s := rfc2217SendSubnegotiation s tServerPurgeData [purge]
  match cfg.onPurge with
  | some f =>
    let (_, ctx) := f s.ctx purge.toUInt32
    rfc2217SendSubnegotiation { s.log (.purge purge.toUInt32) with ctx := ctx }
      tServerPurgeData [purge]
  | none => rfc2217SendSubnegotiation s tServerPurgeData [purge]

/-- The requests that are answered with their own value byte. -/
def echoValue (s : Session σ) (reply : UInt8) : Session σ :=
  rfc2217SendSubnegotiation s reply [s.server.suboption[2]]

def processSubnegotiation (cfg : Config σ) (s : Session σ) : Session σ :=
  let sub := s.server.suboption
  let s := s.log (.subnegotiation (sub.toList.take s.server.suboptionSize))
  if sub[0] ≠ tComPortOption then s
  else if sub[1] = tSetBaudrate then setBaudrate cfg s
  else if sub[1] = tSetDatasize then echoValue s tServerSetDatasize
  else if sub[1] = tSetParity then echoValue s tServerSetParity
  else if sub[1] = tSetStopsize then echoValue s tServerSetStopsize
  else if sub[1] = tSetControl then setControl cfg s
  else if sub[1] = tNotifyLinestate then echoValue s tServerNotifyLinestate
  else if sub[1] = tNotifyModemstate then echoValue s tServerNotifyModemstate
  else if sub[1] = tPurgeData then purgeData cfg s
  else s

inductive Fault where
  | assertFailed | storeOutOfRange
deriving DecidableEq, Repr

abbrev sendDataCapacity : Nat := 2048

/-- `send_data[copied_size++] = c`, where `stored` is the part of the buffer in use. -/
def storeSendData (stored : List UInt8) (c : UInt8) : Except Fault (List UInt8) :=
  if stored.length < sendDataCapacity then .ok (stored ++ [c]) else .error .storeOutOfRange

def copyEscaped (stored : List UInt8) : List UInt8 → Except Fault (List UInt8)
  | [] => .ok stored
  | c :: data => do
    let stored ← storeSendData stored c
    let stored ← if c = 0xff then storeSendData stored 0xff else .ok stored
    copyEscaped stored data

def rfc2217ServerSendData (s : Session σ) (data : List UInt8) :
    Except Fault (Session σ × Int) :=
  if s.server.clientSocket < 0 then .ok (s, -1)
  else if s.server.tcpReceiveThread = 0 then .ok (s, -1)
  else if sendDataCapacity / 2 < data.length then .error .assertFailed
  else do
    let buf ← copyEscaped [] data
    .ok (tcpSend s buf, 0)

def onDataReceived (cfg : Config σ) (s : Session σ) (data : List UInt8) : Session σ :=
  match cfg.onDataReceived with
  | some f => { s.log (.dataReceived data) with ctx := f s.ctx data }
  | none => s

theorem onDataReceived_eq (cfg : Config σ) (s : Session σ) (data : List UInt8) :
    onDataReceived cfg s data =
      if cfg.onDataReceived.isSome then s.log (.dataReceived data) else s := by
  unfold onDataReceived
  split
  · rename_i f set
    have keeps := cfg.onDataReceived_keeps f set s.ctx data
    rw [set, keeps]
    rfl
  · rename_i unset
    rw [unset]
    rfl

/-- `suboption[suboption_size++] = c`, or the overflow branch. -/
def collectSuboption (s : Session σ) (c : UInt8) : Session σ :=
  s.modify fun server =>
    if h : server.suboptionSize < suboptionCapacity then
      { server with
        suboption := server.suboption.set server.suboptionSize c h
        suboptionSize := server.suboptionSize + 1 }
    else { server with collectingSuboption := false, suboptionSize := 0 }

/-- The loop of `process_received_over_tcp`: `buffer` is the part of
`config.data_buffer` in use, so `buffer_contents` is its length. -/
structure Loop (σ : Type) where
  session : Session σ
  buffer : List UInt8

def bufferData (cfg : Config σ) (l : Loop σ) (c : UInt8) : Loop σ :=
  let buffer := l.buffer ++ [c]
  if cfg.dataBufferSize ≤ buffer.length then ⟨onDataReceived cfg l.session buffer, []⟩
  else ⟨l.session, buffer⟩

/-- A byte that is neither IAC nor part of a command, or an escaped IAC. -/
def storeByte (cfg : Config σ) (l : Loop σ) (c : UInt8) : Loop σ :=
  if l.session.server.collectingSuboption then ⟨collectSuboption l.session c, l.buffer⟩
  else bufferData cfg l c

/-- What a byte other than an escaped IAC does after IAC. -/
def afterIac (cfg : Config σ) (s : Session σ) (c : UInt8) : Session σ :=
  if c = tSb then
    s.modify fun server =>
      { server with suboptionSize := 0, collectingSuboption := true, telnetMode := .normal }
  else if c = tSe then
    (processSubnegotiation cfg s).modify fun server =>
      { server with suboptionSize := 0, collectingSuboption := false, telnetMode := .normal }
  else if c = tWill ∨ c = tWont ∨ c = tDo ∨ c = tDont then
    s.modify fun server => { server with telnetCommand := c, telnetMode := .negotiate }
  else (processTelnetCommand s c).setMode .normal

def processByte (cfg : Config σ) (l : Loop σ) (c : UInt8) : Loop σ :=
  match l.session.server.telnetMode with
  | .normal =>
    if c = tIac then ⟨l.session.setMode .gotIac, l.buffer⟩ else storeByte cfg l c
  | .gotIac =>
    if c = tIac then
      let l := storeByte cfg l c
      ⟨l.session.setMode .normal, l.buffer⟩
    else ⟨afterIac cfg l.session c, l.buffer⟩
  | .negotiate =>
    ⟨(telnetNegotiateOption cfg l.session l.session.server.telnetCommand c).setMode .normal,
      l.buffer⟩

def flush (cfg : Config σ) (l : Loop σ) : Session σ :=
  if 0 < l.buffer.length then onDataReceived cfg l.session l.buffer else l.session

/-- The guard of the fast path: `memchr(buf, T_IAC, size) == NULL` in T_NORMAL. -/
def fastPath (server : Server) (chunk : List UInt8) : Prop :=
  server.telnetMode = .normal ∧ tIac ∉ chunk

instance (server : Server) (chunk : List UInt8) : Decidable (fastPath server chunk) :=
  inferInstanceAs (Decidable (_ ∧ _))

def processReceivedOverTcp (cfg : Config σ) (s : Session σ) (chunk : List UInt8) : Session σ :=
  if fastPath s.server chunk then onDataReceived cfg s chunk
  else flush cfg (chunk.foldl (processByte cfg) ⟨s, []⟩)

/-- What `tcp_receive_thread_fn` sets up before its receive loop. `suboption` and
`telnet_command` keep what the previous connection left there. -/
def startConnection (s : Session σ) : Session σ :=
  s.modify fun server =>
    { server with
      telnetOptions := telnetOptionsInit
      clientIsRfc2217 := false
      collectingSuboption := false
      suboptionSize := 0
      telnetMode := .normal }

/-- The chunks are the results of `recv` before it returns 0 or an error. -/
def tcpReceiveThreadFn (cfg : Config σ) (s : Session σ) (chunks : List (List UInt8)) :
    Session σ :=
  let s := chunks.foldl (processReceivedOverTcp cfg) (startConnection s)
  match cfg.onClientDisconnected with
  | some f => { s.log .clientDisconnected with ctx := f s.ctx }
  | none => s

/-- `rfc2217_server_create`: the structure is calloc'ed. -/
def rfc2217ServerCreate (ctx : σ) : Session σ where
  server :=
    { telnetMode := .normal
      clientSocket := 0
      tcpReceiveThread := 0
      clientIsRfc2217 := false
      suboption := Vector.replicate suboptionCapacity 0
      suboptionSize := 0
      telnetOptions := []
      collectingSuboption := false
      telnetCommand := 0 }
  ctx := ctx
  trace := []

theorem keeps_context (f : σ → List UInt8 → σ) (set : f ∈ some fun ctx _ => ctx) (ctx : σ)
    (data : List UInt8) : f ctx data = ctx := by
  cases set
  rfl

/-- What serial_port_relay.c passes: `on_baudrate` and `on_control` return the requested
value, and there is no `on_purge`. -/
def relayConfig : Config Unit where
  onClientConnected := some id
  onClientDisconnected := some id
  onBaudrate := some fun ctx baudrate => (baudrate, ctx)
  onControl := some fun ctx control => (control, ctx)
  onPurge := none
  onDataReceived := some fun ctx _ => ctx
  onDataReceived_keeps := keeps_context
  dataBufferSize := 2048
  dataBufferSize_pos := by decide

end Rocom.Rfc2217
