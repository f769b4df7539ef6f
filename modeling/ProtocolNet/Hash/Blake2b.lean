namespace ProtocolNet.Blake2b

abbrev Work := Vector UInt64 16
abbrev Chain := Vector UInt64 8

def initial : Chain := #v[
  0x6a09e667f3bcc908,0xbb67ae8584caa73b,0x3c6ef372fe94f82b,0xa54ff53a5f1d36f1,
  0x510e527fade682d1,0x9b05688c2b3e6c1f,0x1f83d9abfb41bd6b,0x5be0cd19137e2179]

def schedule : List (Vector (Fin 16) 16) := [
  #v[0,1,2,3,4,5,6,7,8,9,10,11,12,13,14,15],
  #v[14,10,4,8,9,15,13,6,1,12,0,2,11,7,5,3],
  #v[11,8,12,0,5,2,15,13,10,14,3,6,7,1,9,4],
  #v[7,9,3,1,13,12,11,14,2,6,5,10,4,0,15,8],
  #v[9,0,5,7,2,4,10,15,14,1,11,12,6,8,3,13],
  #v[2,12,6,10,0,11,8,3,4,13,7,5,15,14,1,9],
  #v[12,5,1,15,14,13,4,10,0,7,6,3,9,2,8,11],
  #v[13,11,7,14,12,1,3,9,5,0,15,4,8,6,2,10],
  #v[6,15,14,9,11,3,0,8,12,2,13,7,1,4,10,5],
  #v[10,2,8,4,7,6,1,5,15,11,9,14,3,12,13,0],
  #v[0,1,2,3,4,5,6,7,8,9,10,11,12,13,14,15],
  #v[14,10,4,8,9,15,13,6,1,12,0,2,11,7,5,3]]

def quarters : List (Fin 16 × Fin 16 × Fin 16 × Fin 16) := [
  (0,4,8,12),(1,5,9,13),(2,6,10,14),(3,7,11,15),
  (0,5,10,15),(1,6,11,12),(2,7,8,13),(3,4,9,14)]

def rotateRight (x : UInt64) (n : UInt64) : UInt64 := (x >>> n) ||| (x <<< (64 - n))

def mix (v : Work) (place : Fin 16 × Fin 16 × Fin 16 × Fin 16) (x y : UInt64) : Work :=
  let (a,b,c,d) := place
  let v := v.set a (v[a] + v[b] + x)
  let v := v.set d (rotateRight (v[d] ^^^ v[a]) 32)
  let v := v.set c (v[c] + v[d])
  let v := v.set b (rotateRight (v[b] ^^^ v[c]) 24)
  let v := v.set a (v[a] + v[b] + y)
  let v := v.set d (rotateRight (v[d] ^^^ v[a]) 16)
  let v := v.set c (v[c] + v[d])
  v.set b (rotateRight (v[b] ^^^ v[c]) 63)

def pairs : List UInt64 → List (UInt64 × UInt64)
  | x :: y :: rest => (x,y) :: pairs rest
  | _ => []

def round (block : Work) (v : Work) (order : Vector (Fin 16) 16) : Work :=
  let words := order.toList.map fun i => block[i]
  (quarters.zip (pairs words)).foldl (fun v (place,x,y) => mix v place x y) v

def littleEndian (bytes : List UInt8) : UInt64 :=
  bytes.foldr (fun b word => (word <<< 8) ||| b.toUInt64) 0

def blockWords (bytes : List UInt8) : Work :=
  Vector.ofFn fun i => littleEndian ((bytes.drop (8 * i.val)).take 8)

def compress (h : Chain) (bytes : List UInt8) (count : Nat) (last : Bool) : Chain :=
  let v : Work := h ++ initial
  let v := v.set 12 (v[12] ^^^ UInt64.ofNat count)
  let v := v.set 13 (v[13] ^^^ UInt64.ofNat (count >>> 64))
  let v := if last then v.set 14 (~~~v[14]) else v
  let v := schedule.foldl (round (blockWords bytes)) v
  Vector.ofFn fun i => h[i] ^^^ v[i.val] ^^^ v[i.val + 8]

def blockLength : Nat := 128

def absorb (h : Chain) (count : Nat) (input : List UInt8) : Chain :=
  if input.length ≤ blockLength then compress h input (count + input.length) true
  else
    absorb (compress h (input.take blockLength) (count + blockLength) false) (count + blockLength)
      (input.drop blockLength)
termination_by input.length
decreasing_by simp only [List.length_drop,blockLength] at *; omega

def start (length : Nat) : Chain :=
  initial.set 0 (initial[0] ^^^ 0x01010000 ^^^ UInt64.ofNat length)

def wordBytes (word : UInt64) : List UInt8 :=
  (List.range 8).map fun i => (word >>> UInt64.ofNat (8 * i)).toUInt8

def hash (length : Nat) (input : List UInt8) : List UInt8 :=
  ((absorb (start length) 0 input).toList.flatMap wordBytes).take length

end ProtocolNet.Blake2b
