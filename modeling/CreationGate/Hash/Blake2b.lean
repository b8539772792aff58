import CreationGate.Bytes.Fixed

/-!
# BLAKE2b

Unkeyed BLAKE2b.  The digest length enters the initial state, so a 16-byte digest is not the
start of a 32-byte one.
-/

namespace CreationGate

namespace Blake2b

/-- The eight words of the chain value. -/
abbrev Chain := Vector UInt64 8

/-- The sixteen words that the rounds work on. -/
abbrev Working := Vector UInt64 16

/-- The initial words. -/
def iv : Chain :=
  #v[0x6a09e667f3bcc908, 0xbb67ae8584caa73b, 0x3c6ef372fe94f82b, 0xa54ff53a5f1d36f1,
     0x510e527fade682d1, 0x9b05688c2b3e6c1f, 0x1f83d9abfb41bd6b, 0x5be0cd19137e2179]

/-- The order in which each round reads the words of a block. -/
def schedule : List (Vector (Fin 16) 16) :=
  [#v[0, 1, 2, 3, 4, 5, 6, 7, 8, 9, 10, 11, 12, 13, 14, 15],
   #v[14, 10, 4, 8, 9, 15, 13, 6, 1, 12, 0, 2, 11, 7, 5, 3],
   #v[11, 8, 12, 0, 5, 2, 15, 13, 10, 14, 3, 6, 7, 1, 9, 4],
   #v[7, 9, 3, 1, 13, 12, 11, 14, 2, 6, 5, 10, 4, 0, 15, 8],
   #v[9, 0, 5, 7, 2, 4, 10, 15, 14, 1, 11, 12, 6, 8, 3, 13],
   #v[2, 12, 6, 10, 0, 11, 8, 3, 4, 13, 7, 5, 15, 14, 1, 9],
   #v[12, 5, 1, 15, 14, 13, 4, 10, 0, 7, 6, 3, 9, 2, 8, 11],
   #v[13, 11, 7, 14, 12, 1, 3, 9, 5, 0, 15, 4, 8, 6, 2, 10],
   #v[6, 15, 14, 9, 11, 3, 0, 8, 12, 2, 13, 7, 1, 4, 10, 5],
   #v[10, 2, 8, 4, 7, 6, 1, 5, 15, 11, 9, 14, 3, 12, 13, 0],
   #v[0, 1, 2, 3, 4, 5, 6, 7, 8, 9, 10, 11, 12, 13, 14, 15],
   #v[14, 10, 4, 8, 9, 15, 13, 6, 1, 12, 0, 2, 11, 7, 5, 3]]

/-- Rotation of a word towards its low end, by 1 to 63 bits. -/
def rotr (w : UInt64) (n : UInt64) : UInt64 :=
  (w >>> n) ||| (w <<< (64 - n))

/-- Mixes two words of a block into four words of the working state. -/
def mix (v : Working) (a b c d : Fin 16) (x y : UInt64) : Working :=
  let va := v[a] + v[b] + x
  let vd := rotr (v[d] ^^^ va) 32
  let vc := v[c] + vd
  let vb := rotr (v[b] ^^^ vc) 24
  let va := va + vb + y
  let vd := rotr (vd ^^^ va) 16
  let vc := vc + vd
  let vb := rotr (vb ^^^ vc) 63
  (((v.set a va).set b vb).set c vc).set d vd

/-- One round: the columns, then the diagonals. -/
def round (m : Vector UInt64 16) (v : Working) (s : Vector (Fin 16) 16) : Working :=
  let v := mix v 0 4 8 12 m[s[0]] m[s[1]]
  let v := mix v 1 5 9 13 m[s[2]] m[s[3]]
  let v := mix v 2 6 10 14 m[s[4]] m[s[5]]
  let v := mix v 3 7 11 15 m[s[6]] m[s[7]]
  let v := mix v 0 5 10 15 m[s[8]] m[s[9]]
  let v := mix v 1 6 11 12 m[s[10]] m[s[11]]
  let v := mix v 2 7 8 13 m[s[12]] m[s[13]]
  mix v 3 4 9 14 m[s[14]] m[s[15]]

/-- Takes one block of at most 128 bytes into the chain value.  `taken` counts the message
bytes up to and including this block. -/
def compress (h : Chain) (block : Bytes) (taken : Nat) (last : Bool) : Chain :=
  let lanes := (Bytes.chunks 8 block).map Bytes.toLane
  let m : Vector UInt64 16 := .ofFn fun i => lanes[i.val]?.getD 0
  let v : Working := (h ++ iv).cast rfl
  let v := v.set 12 (v[12] ^^^ UInt64.ofNat taken)
  let v := v.set 13 (v[13] ^^^ UInt64.ofNat (taken >>> 64))
  let v := if last then v.set 14 (~~~ v[14]) else v
  let v := schedule.foldl (round m) v
  .ofFn fun i => h[i] ^^^ v[i.val] ^^^ v[i.val + 8]

/-- Takes in blocks, the last one flagged. -/
def compressAll (h : Chain) (taken : Nat) : List Bytes → Chain
  | [] => compress h [] taken true
  | [block] => compress h block (taken + block.length) true
  | block :: rest =>
    compressAll (compress h block (taken + block.length) false) (taken + block.length) rest

/-- The chain value after a whole message, for a digest of `length` bytes. -/
def chain (length : Nat) (message : Bytes) : Chain :=
  let h := iv.set 0 (iv[0] ^^^ 0x01010000 ^^^ UInt64.ofNat length)
  compressAll h 0 (Bytes.chunks 128 message)

end Blake2b

/-- The 32-byte BLAKE2b digest of a byte string. -/
def blake2b256 (message : Bytes) : FixedBytes 32 :=
  let h := Blake2b.chain 32 message
  ⟨Bytes.ofLane h[0] ++ Bytes.ofLane h[1] ++ Bytes.ofLane h[2] ++ Bytes.ofLane h[3], by simp⟩

/-- The 16-byte BLAKE2b digest of a byte string. -/
def blake2b128 (message : Bytes) : FixedBytes 16 :=
  let h := Blake2b.chain 16 message
  ⟨Bytes.ofLane h[0] ++ Bytes.ofLane h[1], by simp⟩

end CreationGate
