import ProtocolNet.Marking
import ProtocolNet.Hash.Blake2b
import ProtocolNet.Text.Utf8

namespace ProtocolNet.Marking

def fourBytes (n : Nat) : List UInt8 :=
  [.ofNat (n / 0x1000000),.ofNat (n / 0x10000),.ofNat (n / 0x100),.ofNat n]

def field (s : String) : List UInt8 :=
  let bytes := Text.Utf8.encode s
  fourBytes bytes.length ++ bytes

def entryStream (entry : Token × Nat) : List UInt8 :=
  field entry.1.text ++ field (Nat.repr entry.2)

-- A place, how many different tokens it holds, and each of them with its count.
def placeStream (place : Str × Bag) : Except TextFault (List UInt8) :=
  match place.1.encode with
  | .error fault => .error fault
  | .ok name =>
    TextFault.gated place.2.isWritable
      (field name ++ field (Nat.repr place.2.size) ++ place.2.entries.flatMap entryStream)

def stream (marking : Marking) : Except TextFault (List UInt8) :=
  (marking.contents.mapM placeStream).map List.flatten

def bigEndian (bytes : List UInt8) : Nat := bytes.foldl (fun n b => n * 256 + b.toNat) 0

def digest (marking : Marking) : Except TextFault Nat :=
  marking.stream.map fun stream => bigEndian (Blake2b.hash 8 stream)

end ProtocolNet.Marking
