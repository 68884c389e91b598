import Rocom.Lib.Flash
import Rocom.Ota.Http
import Rocom.Tftp.Image

/-! One upload by HTTP and one by TFTP. Both write the partition that
`esp_ota_get_next_update_partition` returns, each through a handle of its own and in its own task,
and neither looks for the other. -/
namespace Rocom.Ota

open Tftp

abbrev espErrInvalidArg : Int := 0x102
abbrev flashSectorSize : Nat := 4096

/-- What `esp_ota_begin` erases. -/
def eraseBelow (imageSize : UInt32) : Option Nat :=
  if imageSize = 0 ∨ imageSize = otaSizeUnknown then none
  else some ((imageSize.toNat + (flashSectorSize - 1)) / flashSectorSize * flashSectorSize)

namespace HttpCall

def received : HttpCall → List UInt8
  | .reqRecv _ (.data bytes) => bytes
  | _ => []

def stored : HttpCall → List UInt8
  | .otaWrite data err => if err = espOk then data else []
  | _ => []

/-- What the call does to the partition, with the offset of its handle. -/
def op (offs : Nat) : HttpCall → Option (Flash.Op UInt8)
  | .otaBegin imageSize err => if err = espOk then some (.erase (eraseBelow imageSize)) else none
  | .otaWrite data err => if err = espOk then some (.write offs data) else none
  | _ => none

end HttpCall

namespace HttpUpload

def received (u : HttpUpload) : List UInt8 := u.calls.flatMap HttpCall.received

def written (u : HttpUpload) : List UInt8 := u.calls.flatMap HttpCall.stored

/-- The calls of a step. -/
def newCalls (u : HttpUpload) (a : HttpInput) : List HttpCall :=
  (u.step a).calls.drop u.calls.length

end HttpUpload

/-- A switch of the boot partition: the bytes that its path received, and what the partition holds
over this length. -/
structure Switch where
  received : List UInt8
  contents : List UInt8
deriving DecidableEq

/-- `handle` tells whether `update_handle` is open and `stored` is what was written through it.
`writes` are the calls of `esp_ota_write` that the last datagram still leads to, each with what it
stores. After the upload by TFTP `ended` is set. -/
structure Uploads where
  flash : Nat → UInt8
  http : HttpUpload
  tftp : Task
  handle : Bool
  writes : List (List UInt8)
  stored : List UInt8
  ended : Bool
  switches : List Switch
  restarted : Bool

inductive UploadsInput where
  | http (a : HttpInput)
  | request (n : Netbuf) (ackErr : Int) (i : OtaInit)
  | receive (r : Reception) (behind : Nat → UInt8)
  | tftpWrite
  | tftpFinish (bootErr : Int)

/-- The request is served, and its `esp_ota_begin` succeeds. -/
def opens (t : Task) (n : Netbuf) (ackErr : Int) (i : OtaInit) : Bool :=
  (t.request n ackErr i).session.isSome && (t.otaTftpInit i).2 = errOk

/-- Every write through a handle that is not open fails. -/
def throughHandle (handle : Bool) (r : Reception) : Reception :=
  if handle then r else { r with otaErr := fun _ => espErrInvalidArg }

namespace Uploads

def switched (w : Uploads) (received : List UInt8) : Switch :=
  ⟨received, Flash.read w.flash received.length⟩

def httpStep (w : Uploads) (a : HttpInput) : Uploads :=
  { w with
    http := w.http.step a
    switches := w.switches ++
      if .setBootPartition espOk ∈ w.http.newCalls a then [w.switched w.http.received] else [] }

/-- `tftp_task` serves its request. -/
def request (w : Uploads) (n : Netbuf) (ackErr : Int) (i : OtaInit) : Uploads :=
  { w with
    tftp := w.tftp.request n ackErr i
    handle := opens w.tftp n ackErr i
    writes := []
    stored := [] }

/-- A pass of the loop of `tftp_receive_data`, up to its writes. -/
def receive (w : Uploads) (s : Session) (r : Reception) (behind : Nat → UInt8) : Uploads :=
  let r := throughHandle w.handle r
  let new := (s.step r).receiver.trace.drop s.receiver.trace.length
  { w with
    tftp := w.tftp.receive s r behind
    writes := (new.filter Event.isWrite).map (Event.stored behind) }

def tftpWrite (w : Uploads) : Uploads :=
  match w.writes with
  | [] => w
  | data :: rest => { w with writes := rest, stored := w.stored ++ data }

def tftpFinish (w : Uploads) (recvErr bootErr : Int) : Uploads :=
  let boots := recvErr = errOk ∧ bootErr = espOk
  { w with
    tftp := w.tftp.finish recvErr bootErr
    ended := true
    switches := w.switches ++ if boots then [w.switched (payloads w.tftp.accepted)] else []
    restarted := boots }

def handleInput (w : Uploads) : UploadsInput → Uploads
  | .http a => w.httpStep a
  | .request n ackErr i => if w.tftp.session.isNone ∧ ¬ w.ended then w.request n ackErr i else w
  | .receive r behind =>
    match w.tftp.session with
    | some s => if s.result = none ∧ w.writes = [] then w.receive s r behind else w
    | none => w
  | .tftpWrite => w.tftpWrite
  | .tftpFinish bootErr =>
    match w.tftp.session.bind Session.result with
    | some recvErr => if w.writes = [] then w.tftpFinish recvErr bootErr else w
    | none => w

/-- What the step does to the partition. -/
def op (w : Uploads) : UploadsInput → Option (Flash.Op UInt8)
  | .http a => (w.http.newCalls a).findSome? (HttpCall.op w.http.written.length)
  | .request n ackErr i =>
    if w.tftp.session.isNone ∧ ¬ w.ended ∧ opens w.tftp n ackErr i then some (.erase none) else none
  | .tftpWrite => w.writes.head?.map (.write w.stored.length)
  | .receive _ _ | .tftpFinish _ => none

/-- After the upload by TFTP `esp_restart` ends both tasks. -/
def step (c : Flash.Cell UInt8) (w : Uploads) (a : UploadsInput) : Uploads :=
  if w.restarted then w
  else
    { w.handleInput a with
      flash := (w.op a).elim w.flash fun op => op.apply c w.flash }

def start (flash : Nat → UInt8) (contentLen total remaining : UInt32) : Uploads where
  flash := flash
  http := .start contentLen total remaining
  tftp := .start
  handle := false
  writes := []
  stored := []
  ended := false
  switches := []
  restarted := false

end Uploads

end Rocom.Ota
