import Rocom.Lib.Runs
import Rocom.Lib.StopAndWait
import Rocom.Lib.Costs
import Rocom.Lib.Stuffing
import Rocom.Lib.PrefixCode
import Rocom.Lib.Mixing
import Rocom.Lib.Slices
import Rocom.Lib.CString
import Rocom.Lib.Buffer
import Rocom.Lib.Fields
import Rocom.Lib.KeyedList
import Rocom.Lib.Json
import Rocom.Lib.ByteRing
import Rocom.Lib.Flash
import Rocom.Rfc2217.Server
import Rocom.Rfc2217.Trace
import Rocom.Rfc2217.Answer
import Rocom.Rfc2217.Stream
import Rocom.Rfc2217.Inbound
import Rocom.Rfc2217.OneReply
import Rocom.Rfc2217.Reachable
import Rocom.Rfc2217.Suboption
import Rocom.Rfc2217.Buffering
import Rocom.Rfc2217.Baudrate
import Rocom.Rfc2217.Oversized
import Rocom.Rfc2217.Stale
import Rocom.Rfc2217.Options
import Rocom.Rfc2217.Replies
import Rocom.Rfc2217.Order
import Rocom.Rfc2217.Wire
import Rocom.Rfc2217.Grammar
import Rocom.Rfc2217.Conversation
import Rocom.Rfc2217.SharedWire
import Rocom.Rfc2217.TcpSend
import Rocom.Rfc2217.Unfinished
import Rocom.Rfc2217.Context
import Rocom.Usb.ClassDriver
import Rocom.Usb.Slots
import Rocom.Usb.Safety
import Rocom.Usb.Shutdown
import Rocom.SerialPort.Tasks
import Rocom.SerialPort.Steps
import Rocom.SerialPort.Sockets
import Rocom.SerialPort.Clients
import Rocom.SerialPort.Lossless
import Rocom.SerialPort.Device
import Rocom.SerialPort.Moves
import Rocom.SerialPort.Handles
import Rocom.SerialPort.Lines
import Rocom.SerialPort.Rate
import Rocom.SerialPort.Delivery
import Rocom.SerialPort.SharedSocket
import Rocom.SerialPort.InTurn
import Rocom.SerialPort.ClientReads
import Rocom.SerialPort.Remote
import Rocom.Tftp.Receiver
import Rocom.Tftp.Transfer
import Rocom.Tftp.Task
import Rocom.Tftp.Image
import Rocom.Tftp.Passes
import Rocom.Tftp.Lengths
import Rocom.Tftp.Request
import Rocom.Tftp.WriteRequest
import Rocom.Tftp.Handles
import Rocom.Tftp.Retransmission
import Rocom.Tftp.Completion
import Rocom.Tftp.Upload
import Rocom.Ota.Http
import Rocom.Ota.Turns
import Rocom.Ota.Answer
import Rocom.Ota.Uploads
import Rocom.Ota.Mixing
import Rocom.Ota.InTurn
import Rocom.Ota.Body
import Rocom.Wilma.Store
import Rocom.Wilma.Directory
import Rocom.Wilma.AccessPoint
import Rocom.Wilma.ApRequest
import Rocom.Wilma.Scan
import Rocom.Wilma.JsonString
import Rocom.Wilma.JsonPages
import Rocom.Wilma.Manager
import Rocom.Wilma.Forgotten
import Rocom.Wilma.Alive
import Rocom.Wilma.Radio
import Rocom.Wilma.Told
import Rocom.Wilma.Parked
import Rocom.Wilma.Adding
import Rocom.Wilma.Joining
import Rocom.Wilma.StationApi
import Rocom.Wilma.Failover
import Rocom.Wilma.CleanUp
import Rocom.Wilma.Candidates
import Rocom.Wilma.Rescans
import Rocom.Wilma.ApKeys
import Rocom.Wilma.Matching
import Rocom.Wilma.Murmur
import Rocom.Wilma.DeviceName
import Rocom.Http.SystemStatus
import Rocom.Http.Shares
