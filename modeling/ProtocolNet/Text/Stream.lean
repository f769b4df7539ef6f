import ProtocolNet.Text.Line
import ProtocolNet.Text.Utf8

namespace ProtocolNet.Text

open Utf8 (Bytes)

def blockSize : Nat := 8192

def blocks (bytes : Bytes) : List Bytes :=
  match bytes with
  | [] => []
  | b :: rest => (b :: rest).take blockSize :: blocks ((b :: rest).drop blockSize)
termination_by bytes.length
decreasing_by
  rw [List.length_drop]
  exact Nat.sub_lt (Nat.succ_pos _) (by decide)

def decodeBlock (bytes : Bytes) : Except Utf8.Fault (List Char × Bytes) :=
  match Utf8.decode bytes with
  | .ok s => .ok (s,[])
  | .error fault =>
    if fault.reason = .endOfData then
      (Utf8.decode (bytes.take fault.position)).map (·,bytes.drop fault.position)
    else .error fault

def decodeBlocks (kept : Bytes) : List Bytes → List Char × Option Utf8.Fault
  | [] =>
    match Utf8.decode kept with
    | .ok s => (s,none)
    | .error fault => ([],some fault)
  | block :: rest =>
    match decodeBlock (kept ++ block) with
    | .error fault => ([],some fault)
    | .ok (s,kept) =>
      let (more,fault) := decodeBlocks kept rest
      (s ++ more,fault)

def wholeLines (s : List Char) : List Char :=
  let s := if s.getLast? = some '\r' then s.dropLast else s
  ((unifyLineEnds s).reverse.dropWhile (· ≠ '\n')).reverse

structure Stream where
  lines : List (List Char)
  fault : Option Utf8.Fault

def Stream.ofBytes (bytes : Bytes) : Stream :=
  match decodeBlocks [] (blocks bytes) with
  | (s,none) => ⟨Text.lines (unifyLineEnds s),none⟩
  | (s,some fault) => ⟨Text.lines (wholeLines s),some fault⟩

end ProtocolNet.Text
