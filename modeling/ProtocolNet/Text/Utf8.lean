import ProtocolNet.Text.Quoted

namespace ProtocolNet.Text.Utf8

abbrev Bytes := List UInt8

def encode (s : String) : Bytes := s.toUTF8.data.toList

inductive Reason where
  | start | continuation | endOfData
deriving DecidableEq, Repr

structure Fault where
  reason : Reason
  position : Nat
  length : Nat
  byte : UInt8
deriving DecidableEq, Repr

def Reason.text : Reason → String
  | .start => "invalid start byte"
  | .continuation => "invalid continuation byte"
  | .endOfData => "unexpected end of data"

def Fault.message (fault : Fault) : String :=
  let place :=
    if fault.length = 1 then
      "byte 0x" ++ .ofList (hexText 2 fault.byte.toNat) ++ s!" in position {fault.position}"
    else s!"bytes in position {fault.position}-{fault.position + fault.length - 1}"
  "'utf-8' codec can't decode " ++ place ++ ": " ++ fault.reason.text

def isContinuation (b : UInt8) : Bool := 0x80 ≤ b && b < 0xC0

def low6 (b : UInt8) : Nat := b.toNat % 64

def secondOfThree (lead second : UInt8) : Bool :=
  isContinuation second && (if second < 0xA0 then lead != 0xE0 else lead != 0xED)

def secondOfFour (lead second : UInt8) : Bool :=
  isContinuation second && (if second < 0x90 then lead != 0xF0 else lead != 0xF4)

def decodeFrom (position : Nat) : Bytes → Except Fault (List Char)
  | [] => .ok []
  | lead :: rest =>
    let fault (reason : Reason) (length : Nat) : Except Fault (List Char) :=
      .error ⟨reason,position,length,lead⟩
    if lead < 0x80 then
      (decodeFrom (position + 1) rest).map (Char.ofNat lead.toNat :: ·)
    else if lead < 0xC2 then fault .start 1
    else if lead < 0xE0 then
      match rest with
      | [] => fault .endOfData 1
      | b :: rest =>
        if isContinuation b then
          (decodeFrom (position + 2) rest).map (Char.ofNat (lead.toNat % 32 * 64 + low6 b) :: ·)
        else fault .continuation 1
    else if lead < 0xF0 then
      match rest with
      | [] => fault .endOfData 1
      | b :: rest =>
        if secondOfThree lead b then
          match rest with
          | [] => fault .endOfData 2
          | c :: rest =>
            if isContinuation c then
              (decodeFrom (position + 3) rest).map
                (Char.ofNat ((lead.toNat % 16 * 64 + low6 b) * 64 + low6 c) :: ·)
            else fault .continuation 2
        else fault .continuation 1
    else if lead < 0xF5 then
      match rest with
      | [] => fault .endOfData 1
      | b :: rest =>
        if secondOfFour lead b then
          match rest with
          | [] => fault .endOfData 2
          | c :: rest =>
            if isContinuation c then
              match rest with
              | [] => fault .endOfData 3
              | d :: rest =>
                if isContinuation d then
                  (decodeFrom (position + 4) rest).map
                    (Char.ofNat (((lead.toNat % 8 * 64 + low6 b) * 64 + low6 c) * 64 + low6 d) :: ·)
                else fault .continuation 3
            else fault .continuation 2
        else fault .continuation 1
    else fault .start 1

def decode (bytes : Bytes) : Except Fault (List Char) := decodeFrom 0 bytes

end ProtocolNet.Text.Utf8
