import Mathlib.Algebra.Group.Nat.Defs
import Mathlib.Data.List.Basic

/-! The receive loop of main/ota-tftp.c. One value of `Reception` is everything one pass of
the loop gets from outside: the result of `netconn_recv`, the bytes that uninitialised
variables hold, and the results of the calls it makes. -/
namespace Rocom.Tftp

abbrev errOk : Int := 0
abbrev errTimeout : Int := -3
abbrev errVal : Int := -6

abbrev tftpOpData : UInt16 := 3
abbrev tftpErrIllegal : UInt16 := 4

abbrev tftpTimeoutRetransmits : Int := 10

/-- Packet size plus header. -/
abbrev dataPacketSz : Nat := 512 + 4

structure Peer where
  addr : UInt32
  port : UInt16
deriving DecidableEq, Repr

/-- A chain of segments. Its total length is a 16-bit field. -/
structure Netbuf where
  head : List UInt8
  tail : List (List UInt8)
  peer : Peer
  totLen : (head ++ tail.flatten).length < 2 ^ 16

def Netbuf.bytes (n : Netbuf) : List UInt8 := n.head ++ n.tail.flatten

def netbufLen (n : Netbuf) : Nat := n.bytes.length

/-- `raw` is what the variable holds where `netbuf_copy_partial` finds no byte to copy. -/
def netbufReadU16N (n : Netbuf) (offs : Nat) (raw : UInt8 × UInt8) : UInt16 :=
  ((n.bytes.getD offs raw.1).toUInt16 <<< 8) ||| (n.bytes.getD (offs + 1) raw.2).toUInt16

/-- An error of `netconn_recv` other than a timeout. -/
structure RecvError where
  code : Int
  ne_ok : code ≠ errOk
  ne_timeout : code ≠ errTimeout

inductive RecvResult where
  | datagram (n : Netbuf)
  | timeout
  | failed (e : RecvError)

structure Reception where
  result : RecvResult
  rawOpcode : UInt8 × UInt8
  rawBlock : UInt8 × UInt8
  otaErr : Nat → Int
  ackErr : Int

/-- The calls of the loop. `otaWrite` has the bytes of the segment from the pointer on and
the length that is passed with it. -/
inductive Event where
  | disconnect
  | connect (peer : Peer)
  | ack (block : UInt16)
  | error (code : UInt16) (msg : String)
  | otaWrite (segment : List UInt8) (len : UInt16) (err : Int)
  | progress (receivedLen : UInt32)
deriving DecidableEq, Repr

structure Receiver where
  receivedLen : UInt32
  block : Nat
  retries : Int
  peerAddr : Option Peer
  receiveCb : Bool
  trace : List Event
deriving DecidableEq

def Receiver.log (s : Receiver) (e : Event) : Receiver := { s with trace := s.trace ++ [e] }

/-- The block number is cut to 16 bits by `htons`. -/
def tftpSendAck (s : Receiver) (block : Nat) : Receiver := s.log (.ack (UInt16.ofNat block))

def tftpSendError (s : Receiver) (code : UInt16) (msg : String) : Receiver :=
  s.log (.error code msg)

/-- `netconn_disconnect` and `netconn_connect` around the receive call. -/
def reconnect (s : Receiver) (result : RecvResult) : Receiver :=
  match s.peerAddr with
  | none => s
  | some peer =>
    let s := s.log .disconnect
    match result with
    | .datagram n => { s.log (.connect n.peer) with peerAddr := none }
    | .timeout | .failed _ => s.log (.connect peer)

/-- The pointer and the length that each segment is written with: `chunk++` skips the four
bytes of the header, `chunk_len -= 4` is 16-bit arithmetic. -/
def chunks (n : Netbuf) : List (List UInt8 × UInt16) :=
  (n.head.drop 4, UInt16.ofNat n.head.length - 4) ::
    n.tail.map fun segment => (segment, UInt16.ofNat segment.length)

/-- The loop over the segments, with `false` for the return after a failed write. -/
def writeChunks (otaErr : Nat → Int) :
    Receiver → Nat → List (List UInt8 × UInt16) → Receiver × Bool
  | s, _, [] => (s, true)
  | s, i, (chunk, chunkLen) :: rest =>
    let s := s.log (.otaWrite chunk chunkLen (otaErr i))
    if otaErr i ≠ errOk then (s, false) else writeChunks otaErr s (i + 1) rest

/-- The end of a pass that has written its block. -/
def acknowledgeBlock (s : Receiver) (ackErr : Int) (len : Nat) : Receiver × Option Int :=
  let s := tftpSendAck s s.block
  if ackErr ≠ errOk then (s, some ackErr)
  else
    let s := if s.receiveCb then s.log (.progress s.receivedLen) else s
    if len < dataPacketSz then (s, some errOk) else ({ s with block := s.block + 1 }, none)

/-- A datagram with the expected block number. -/
def acceptBlock (s : Receiver) (r : Reception) (n : Netbuf) : Receiver × Option Int :=
  let s := { s with retries := tftpTimeoutRetransmits }
  let len := netbufLen n
  let (s, ok) := writeChunks r.otaErr s 0 (chunks n)
  if ok then
    acknowledgeBlock { s with receivedLen := s.receivedLen + (UInt32.ofNat len - 4) } r.ackErr len
  else (s, some errVal)

def receiveDatagram (s : Receiver) (r : Reception) (n : Netbuf) : Receiver × Option Int :=
  if netbufReadU16N n 0 r.rawOpcode ≠ tftpOpData then
    (tftpSendError s tftpErrIllegal "Unknown opcode", some errVal)
  else
    let clientBlock := netbufReadU16N n 2 r.rawBlock
    if clientBlock.toNat ≠ s.block then
      if clientBlock.toNat = s.block - 1 then (tftpSendAck s (s.block - 1), none)
      else (tftpSendError s tftpErrIllegal "Block# out of order", some errVal)
    else acceptBlock s r n

/-- One pass of the loop: the next state, and the result if the function returns. -/
def receivePass (s : Receiver) (r : Reception) : Receiver × Option Int :=
  let s := reconnect s r.result
  match r.result with
  | .timeout =>
    let retry := 0 < s.retries
    let s := { s with retries := s.retries - 1 }
    if retry ∧ 1 < s.block then (tftpSendAck s (s.block - 1), none)
    else (tftpSendError s tftpErrIllegal "Timeout", some errTimeout)
  | .failed e => (tftpSendError s tftpErrIllegal "Failed to receive packet", some e.code)
  | .datagram n => receiveDatagram s r n

/-- A call of `tftp_receive_data`: `result` is set when it has returned. -/
structure Session where
  receiver : Receiver
  result : Option Int
deriving DecidableEq

def Session.start (peerAddr : Option Peer) (receiveCb : Bool) : Session where
  receiver :=
    { receivedLen := 0
      block := 1
      retries := tftpTimeoutRetransmits
      peerAddr := peerAddr
      receiveCb := receiveCb
      trace := [] }
  result := none

def Session.step (s : Session) (r : Reception) : Session :=
  match s.result with
  | some _ => s
  | none => ⟨(receivePass s.receiver r).1, (receivePass s.receiver r).2⟩

def tftpReceiveData (peerAddr : Option Peer) (receiveCb : Bool) (rs : List Reception) : Session :=
  rs.foldl Session.step (Session.start peerAddr receiveCb)

end Rocom.Tftp
