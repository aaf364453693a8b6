import Theyos.Core.Bytes.Framing
import Theyos.Core.Machine.Guard

/-!
# Tunnel frames

A frame is a kind byte and a payload. The reason of an error frame is read with every
invalid sequence replaced, so that reading never fails on it; what was written as a text is
read back as that text.
-/

namespace Theyos.TunnelWire

open Machine

/-- A failure of the wire itself. -/
inductive WireError where
  | io (message : String)
  | frameTooLarge (bytes : ℕ)
  | closed (during : String)
  | cbor (message : String)
  | unexpectedAck
  | invalidFrame (message : String)
  | targetUnavailable (message : String)
  deriving DecidableEq, Repr

/-- How an interactive target ended. -/
inductive TargetExit where
  | code (code : Int32)
  | signal (signal : Int32)
  | lost
  deriving DecidableEq, Repr

/-- The frames of a tunnel. -/
inductive TunnelFrame where
  | health (body : List UInt8)
  | openTarget
  | openPersistent
  | data (bytes : List UInt8)
  | close
  | error (reason : String)
  | window (credit : UInt32)
  | resize (cols rows : UInt16)
  | exit (status : TargetExit)
  | networkSettings (body : List UInt8)
  deriving DecidableEq, Repr

/-- How bytes that need not be a text are read as one. -/
structure LossyText where
  read : List UInt8 → String
  read_textBytes : ∀ s, read (textBytes s) = s

def frameHealth : UInt8 := 0x01
def frameOpen : UInt8 := 0x10
def frameData : UInt8 := 0x11
def frameClose : UInt8 := 0x12
def frameError : UInt8 := 0x13
def frameWindow : UInt8 := 0x14
def frameResize : UInt8 := 0x15
def frameExit : UInt8 := 0x16
def frameNetworkSettings : UInt8 := 0x17
def frameOpenPersistent : UInt8 := 0x18

namespace TargetExit

def tagCode : UInt8 := 0x01
def tagSignal : UInt8 := 0x02
def tagLost : UInt8 := 0x03

/-- The tag and the value of an exit. -/
def encode : TargetExit → List UInt8
  | code c => tagCode :: beBytes 4 c.toUInt32.toNat
  | signal s => tagSignal :: beBytes 4 s.toUInt32.toNat
  | lost => tagLost :: beBytes 4 0

/-- Read an exit. -/
def decode (payload : List UInt8) : Except WireError TargetExit :=
  match payload with
  | [tag, a, b, c, d] =>
    let value := (UInt32.ofNat (beNat [a, b, c, d])).toInt32
    if tag = tagCode then .ok (code value)
    else if tag = tagSignal then .ok (signal value)
    else if tag = tagLost then .ok lost
    else .error (.invalidFrame s!"unknown exit tag 0x{hexText [tag]}")
  | _ => .error (.invalidFrame "bad exit frame")

end TargetExit

namespace TunnelFrame

/-- The bytes of a frame. -/
def encode : TunnelFrame → List UInt8
  | health body => frameHealth :: body
  | openTarget => [frameOpen]
  | openPersistent => [frameOpenPersistent]
  | data bytes => frameData :: bytes
  | close => [frameClose]
  | error reason => frameError :: textBytes reason
  | window credit => frameWindow :: beBytes 4 credit.toNat
  | resize cols rows => frameResize :: (beBytes 2 cols.toNat ++ beBytes 2 rows.toNat)
  | exit status => frameExit :: status.encode
  | networkSettings body => frameNetworkSettings :: body

/-- The payload of a window frame. -/
def decodeWindow : List UInt8 → Except WireError TunnelFrame
  | [a, b, c, d] => .ok (window (.ofNat (beNat [a, b, c, d])))
  | _ => .error (.invalidFrame "bad window frame")

/-- The payload of a resize frame. -/
def decodeResize : List UInt8 → Except WireError TunnelFrame
  | [a, b, c, d] => .ok (resize (.ofNat (beNat [a, b])) (.ofNat (beNat [c, d])))
  | _ => .error (.invalidFrame "bad resize frame")

/-- Read a frame. -/
def decode (text : LossyText) (bytes : List UInt8) : Except WireError TunnelFrame :=
  match bytes with
  | [] => .error (.invalidFrame "empty frame")
  | kind :: payload =>
    if kind = frameHealth then .ok (health payload)
    else if kind = frameOpen then .ok openTarget
    else if kind = frameOpenPersistent then .ok openPersistent
    else if kind = frameData then .ok (data payload)
    else if kind = frameClose then .ok close
    else if kind = frameError then .ok (error (text.read payload))
    else if kind = frameWindow then decodeWindow payload
    else if kind = frameResize then decodeResize payload
    else if kind = frameExit then (TargetExit.decode payload).map exit
    else if kind = frameNetworkSettings then .ok (networkSettings payload)
    else .error (.invalidFrame s!"unknown frame kind 0x{hexText [kind]}")

end TunnelFrame

/-- The number of a four-byte word. -/
theorem ofNat_beNat_beBytes (a : UInt32) : UInt32.ofNat (beNat (beBytes 4 a.toNat)) = a := by
  rw [beNat_beBytes a.toNat_lt, UInt32.ofNat_toNat]

/-- The number of a two-byte word. -/
theorem ofNat_beNat_beBytes_two (a : UInt16) : UInt16.ofNat (beNat (beBytes 2 a.toNat)) = a := by
  rw [beNat_beBytes a.toNat_lt, UInt16.ofNat_toNat]

theorem TargetExit.decode_encode (status : TargetExit) : decode status.encode = .ok status := by
  cases status with
  | code c =>
    exact congrArg (fun n : UInt32 => Except.ok (code n.toInt32)) (ofNat_beNat_beBytes c.toUInt32)
  | signal s =>
    exact congrArg (fun n : UInt32 => Except.ok (signal n.toInt32))
      (ofNat_beNat_beBytes s.toUInt32)
  | lost => rfl

/-- What was written is read back. -/
theorem TunnelFrame.decode_encode (text : LossyText) (frame : TunnelFrame) :
    decode text frame.encode = .ok frame := by
  cases frame with
  | window credit =>
    exact congrArg (fun n => Except.ok (window n)) (ofNat_beNat_beBytes credit)
  | resize cols rows =>
    exact congrArg₂ (fun m n => Except.ok (resize m n)) (ofNat_beNat_beBytes_two cols)
      (ofNat_beNat_beBytes_two rows)
  | exit status =>
    have h : decode text (encode (exit status)) = (TargetExit.decode status.encode).map exit := rfl
    rw [h, TargetExit.decode_encode]
    rfl
  | error reason =>
    exact congrArg (fun s => Except.ok (error s)) (text.read_textBytes reason)
  | _ => rfl

end Theyos.TunnelWire
