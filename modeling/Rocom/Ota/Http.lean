import Mathlib.Data.List.Basic

/-! `cgi_flash_upload` of main/ota-http.c. Each step is one call of an OTA function or of
`httpd_req_recv`, with what it returns. -/
namespace Rocom.Ota

abbrev espOk : Int := 0
abbrev otaSizeUnknown : UInt32 := 0xffffffff
abbrev httpdSockErrTimeout : Int := -3

/-- The size of `buff`. -/
abbrev buffSize : UInt32 := 256

/-- An error of `httpd_req_recv`, or 0 for a closed connection. -/
structure RecvError where
  code : Int
  nonpos : code ≤ 0
deriving DecidableEq, Repr

inductive HttpRecv where
  | data (bytes : List UInt8)
  | failed (e : RecvError)
deriving DecidableEq, Repr

/-- What the call of a step returns. -/
inductive HttpInput where
  | err (e : Int)
  | recv (r : HttpRecv)
deriving DecidableEq, Repr

inductive HttpCall where
  | respSetType (type : String)
  | otaBegin (imageSize : UInt32) (err : Int)
  | respSetHdr (field value : String)
  | reqRecv (size : UInt32) (r : HttpRecv)
  | otaWrite (data : List UInt8) (err : Int)
  | otaAbort
  | otaEnd (err : Int)
  | setBootPartition (err : Int)
  | respSend (msg : String)
deriving DecidableEq, Repr

/-- The next call. -/
inductive HttpPoint where
  | begin
  | recv
  | write (buff : List UInt8)
  | finish
  | setBoot
  | returned
deriving DecidableEq, Repr

/-- `contentLen` is from the request, `err` the local variable, and `total` and `remaining` are
static. -/
structure HttpUpload where
  point : HttpPoint
  contentLen : UInt32
  err : Int
  total : UInt32
  remaining : UInt32
  calls : List HttpCall
deriving DecidableEq, Repr

namespace HttpUpload

def log (u : HttpUpload) (c : HttpCall) : HttpUpload := { u with calls := u.calls ++ [c] }

def respond (u : HttpUpload) (msg : String) : HttpUpload :=
  { u.log (.respSend msg) with point := .returned }

/-- The condition of the loop. -/
def loop (u : HttpUpload) : HttpUpload :=
  { u with point := if 0 < u.remaining then .recv else .finish }

def imageSize (u : HttpUpload) : UInt32 := if 0 < u.contentLen then u.contentLen else otaSizeUnknown

def otaBegin (u : HttpUpload) (err : Int) : HttpUpload :=
  let u := { u.log (.otaBegin u.imageSize err) with err := err }
  if err ≠ espOk then u.respond "\x7b\"error\": \"Failed to begin the update\"\x7d"
  else
    { u.log (.respSetHdr "Connection" "close") with
        remaining := u.contentLen
        total := u.contentLen }.loop

/-- `MIN(remaining, sizeof(buff))`. -/
def recvSize (u : HttpUpload) : UInt32 := if u.remaining < buffSize then u.remaining else buffSize

def recvFailed (u : HttpUpload) : HttpUpload :=
  (u.log .otaAbort).respond "\x7b\"error\": \"Failed to receive file\"\x7d"

/-- `httpd_req_recv` stores as many bytes as it is asked for at most. -/
def reqRecv (u : HttpUpload) : HttpRecv → HttpUpload
  | .data bytes =>
    let buff := bytes.take u.recvSize.toNat
    let u := u.log (.reqRecv u.recvSize (.data buff))
    if buff = [] then u.recvFailed else { u with point := .write buff }
  | .failed e =>
    let u := u.log (.reqRecv u.recvSize (.failed e))
    if e.code = httpdSockErrTimeout then u else u.recvFailed

def otaWrite (u : HttpUpload) (buff : List UInt8) (err : Int) : HttpUpload :=
  let u := { u.log (.otaWrite buff err) with err := err }
  if err ≠ espOk then
    (u.respond "\x7b\"error\": \"Failed to write OTA\"\x7d").log .otaAbort
  else { u with remaining := u.remaining - UInt32.ofNat buff.length }.loop

def otaEnd (u : HttpUpload) (err : Int) : HttpUpload :=
  let u := { u.log (.otaEnd err) with err := err }
  if err ≠ espOk then u.respond "\x7b\"error\": \"Failed to complete OTA\"\x7d"
  else { u with point := .setBoot }

/-- The result of the call is not kept. -/
def setBootPartition (u : HttpUpload) (result : Int) : HttpUpload :=
  let u := u.log (.setBootPartition result)
  if u.err ≠ espOk then u.respond "\x7b\"error\": \"Failed to set new boot partition\"\x7d"
  else u.respond "\x7b\"success\": true\x7d"

def step (u : HttpUpload) : HttpInput → HttpUpload
  | .err e =>
    match u.point with
    | .begin => u.otaBegin e
    | .write buff => u.otaWrite buff e
    | .finish => u.otaEnd e
    | .setBoot => u.setBootPartition e
    | .recv | .returned => u
  | .recv r =>
    match u.point with
    | .recv => u.reqRecv r
    | _ => u

/-- The handler is called. `total` and `remaining` are those of the upload before. -/
def start (contentLen total remaining : UInt32) : HttpUpload where
  point := .begin
  contentLen := contentLen
  err := espOk
  total := total
  remaining := remaining
  calls := [.respSetType "application/json"]

end HttpUpload

end Rocom.Ota
