import Rocom.Lib.CString
import Rocom.Tftp.Receiver

/-! The server of main/ota-tftp.c: `tftp_task` with `tftp_get_field` and `ota_tftp_init`. A step
is one received datagram or timeout, with the results of the calls it leads to. -/
namespace Rocom.Tftp

open CString (strcmp)

abbrev tftpOpWrq : UInt16 := 2
abbrev tftpErrFileNotFound : UInt16 := 1

/-- The text "rocom.bin". -/
def tftpFirmwareFile : List UInt8 := [0x72, 0x6f, 0x63, 0x6f, 0x6d, 0x2e, 0x62, 0x69, 0x6e]

/-- The text "octet". -/
def tftpOctetMode : List UInt8 := [0x6f, 0x63, 0x74, 0x65, 0x74]

/-- The variables of the loop of `tftp_get_field`. -/
structure FieldScan where
  field : Int
  offs : Nat
  fieldOffs : Nat
  fieldLen : Nat
deriving DecidableEq, Repr

def FieldScan.next (s : FieldScan) (c : UInt8) : FieldScan :=
  let s := { s with offs := s.offs + 1 }
  let s := if s.field = 0 then { s with fieldLen := s.fieldLen + 1 } else s
  if c = 0 then
    let s := { s with field := s.field - 1 }
    if s.field = 0 then { s with fieldOffs := s.offs } else s
  else s

def FieldScan.loop : FieldScan → List UInt8 → FieldScan
  | s, [] => s
  | s, c :: cs => if 0 ≤ s.field then (s.next c).loop cs else s

def tftpGetField (field : Int) (n : Netbuf) : Option (List UInt8) :=
  let s := FieldScan.loop ⟨field, 2, 2, 0⟩ (n.bytes.drop 2)
  if s.field ≠ -1 then none else some ((n.bytes.drop s.fieldOffs).take s.fieldLen)

/-- The checks of a write request, with the error that is sent for a refused one. -/
def checkRequest (n : Netbuf) : Except (Option Event) Unit :=
  if netbufLen n < 6 then .error none
  else if netbufReadU16N n 0 (0, 0) ≠ tftpOpWrq then .error none
  else if (tftpGetField 0 n).all fun filename => strcmp filename tftpFirmwareFile ≠ 0 then
    .error (some (.error tftpErrFileNotFound "File must be rocom.bin"))
  else if (tftpGetField 1 n).all fun mode => strcmp tftpOctetMode mode ≠ 0 then
    .error (some (.error tftpErrIllegal "Mode must be octet/binary"))
  else .ok ()

/-- The address of a partition. -/
abbrev Partition := Nat

/-- What `ota_tftp_init` gets from the OTA functions. -/
structure OtaInit where
  configuredPart : Option Partition
  runningPart : Option Partition
  updatePart : Option Partition
  beginErr : Int

/-- A call of `esp_ota_set_boot_partition`: the partition, the bytes written through the handle
since its `esp_ota_begin`, and the datagrams the finished session accepted. -/
structure Boot where
  part : Option Partition
  image : List UInt8
  accepted : List Netbuf

/-- `image` is what was written through `update_handle` since its `esp_ota_begin`. The last four
fields are history: the image when the session began and the datagrams it accepted, the calls that
switched the partition, and the messages of the task outside `tftp_receive_data`. -/
structure Task where
  updatePart : Option Partition
  image : List UInt8
  session : Option Session
  before : List UInt8
  accepted : List Netbuf
  boots : List Boot
  trace : List Event

/-- What `esp_ota_write` finds at the pointer: the segment, and then the memory behind it. -/
def otaBytes (behind : Nat → UInt8) (segment : List UInt8) (len : Nat) : List UInt8 :=
  segment.take len ++ (List.range (len - segment.length)).map behind

/-- What a call appends to the image. -/
def Event.stored (behind : Nat → UInt8) : Event → List UInt8
  | .otaWrite segment len err => if err = errOk then otaBytes behind segment len.toNat else []
  | _ => []

/-- The datagram that a pass of the loop takes for the next block. -/
def acceptedDatagram (s : Receiver) (r : Reception) : Option Netbuf :=
  match r.result with
  | .datagram n =>
    if netbufReadU16N n 0 r.rawOpcode = tftpOpData ∧
        (netbufReadU16N n 2 r.rawBlock).toNat = s.block then some n
    else none
  | .timeout | .failed _ => none

namespace Task

/-- Where both partitions are known and there is one to update, `esp_ota_begin` decides. -/
def otaTftpInit (w : Task) (i : OtaInit) : Task × Int :=
  if i.configuredPart = none ∨ i.runningPart = none then (w, errVal)
  else
    let w := { w with updatePart := i.updatePart }
    if i.updatePart = none then (w, errVal)
    else if i.beginErr ≠ errOk then (w, errVal)
    else ({ w with image := [] }, errOk)

/-- Only the partition and the image can change. -/
theorem otaTftpInit_eq (w : Task) (i : OtaInit) :
    ∃ updatePart image,
      (w.otaTftpInit i).1 = { w with updatePart := updatePart, image := image } := by
  unfold otaTftpInit
  split
  · exact ⟨w.updatePart, w.image, rfl⟩
  · dsimp only
    split
    · exact ⟨i.updatePart, w.image, rfl⟩
    · split
      · exact ⟨i.updatePart, w.image, rfl⟩
      · exact ⟨i.updatePart, [], rfl⟩

def log (w : Task) (e : Event) : Task := { w with trace := w.trace ++ [e] }

/-- A datagram outside a session. The result of `ota_tftp_init` is not looked at. -/
def request (w : Task) (n : Netbuf) (ackErr : Int) (i : OtaInit) : Task :=
  match checkRequest n with
  | .error none => w
  | .error (some e) => w.log e
  | .ok () =>
    let w := (w.log (.connect n.peer)).log (.ack 0)
    if ackErr ≠ 0 then w.log .disconnect
    else
      let w := (w.otaTftpInit i).1
      { w with session := some (Session.start none false), before := w.image, accepted := [] }

/-- The variables of a task that has just been started. -/
def restart (w : Task) : Task :=
  { w with updatePart := none, image := [], session := none, before := [], accepted := [] }

/-- `tftp_receive_data` has returned. -/
def finish (w : Task) (recvErr bootErr : Int) : Task :=
  let w := { w with session := none }.log .disconnect
  if recvErr = errOk then
    let w := { w with boots := w.boots ++ [⟨w.updatePart, w.image, w.accepted⟩] }
    if bootErr ≠ 0 then w else w.restart
  else w

/-- One pass of the loop of `tftp_receive_data`. -/
def receive (w : Task) (s : Session) (r : Reception) (behind : Nat → UInt8) : Task :=
  let new := (s.step r).receiver.trace.drop s.receiver.trace.length
  { w with
    session := some (s.step r)
    image := w.image ++ new.flatMap (Event.stored behind)
    accepted := w.accepted ++ (acceptedDatagram s.receiver r).toList }

end Task

inductive TaskInput where
  | request (n : Netbuf) (ackErr : Int) (i : OtaInit)
  | receive (r : Reception) (behind : Nat → UInt8) (bootErr : Int)

namespace Task

def step (w : Task) : TaskInput → Task
  | .request n ackErr i =>
    match w.session with
    | none => w.request n ackErr i
    | some _ => w
  | .receive r behind bootErr =>
    match w.session with
    | none => w
    | some s =>
      match (s.step r).result with
      | none => w.receive s r behind
      | some recvErr => (w.receive s r behind).finish recvErr bootErr

def start : Task where
  updatePart := none
  image := []
  session := none
  before := []
  accepted := []
  boots := []
  trace := []

end Task

end Rocom.Tftp
