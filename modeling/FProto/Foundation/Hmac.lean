import FProto.Foundation.Bytes

/-!
Owns HMAC and HKDF over a hash function with blocks of 64 bytes and digests of
32 bytes.

A key shorter than a block is padded with zeros, so keys that differ by trailing
zeros are one key: `hmac_append_zeros`.
-/

namespace FProto.Foundation

/-- A hash function with digests of 32 bytes. -/
structure HashFunction where
  hash : Bytes → Bytes
  length_hash : ∀ message, (hash message).length = 32

namespace HashFunction

variable (function : HashFunction)

/-- The block of a key: a long key is hashed, a short one padded with zeros. -/
def keyBlock (key : Bytes) : Bytes :=
  let key := if 64 < key.length then function.hash key else key
  key ++ List.replicate (64 - key.length) 0

def hmac (key message : Bytes) : Bytes :=
  let block := function.keyBlock key
  function.hash (block.map (· ^^^ 0x5c) ++ function.hash (block.map (· ^^^ 0x36) ++ message))

@[simp] theorem length_hmac (key message : Bytes) : (function.hmac key message).length = 32 :=
  function.length_hash _

theorem keyBlock_of_short {key : Bytes} (short : key.length ≤ 64) :
    function.keyBlock key = key ++ List.replicate (64 - key.length) 0 := by
  rw [keyBlock, if_neg (Nat.not_lt.mpr short)]

theorem keyBlock_append_zeros {key : Bytes} {count : Nat} (short : key.length + count ≤ 64) :
    function.keyBlock (key ++ List.replicate count 0) = function.keyBlock key := by
  have length : (key ++ List.replicate count (0 : UInt8)).length = key.length + count := by
    rw [List.length_append, List.length_replicate]
  have zeros : count + (64 - (key.length + count)) = 64 - key.length := by omega
  rw [function.keyBlock_of_short (length ▸ short), function.keyBlock_of_short (by omega), length,
    List.append_assoc, List.replicate_append_replicate, zeros]

theorem hmac_append_zeros {key : Bytes} {count : Nat} (short : key.length + count ≤ 64)
    (message : Bytes) :
    function.hmac (key ++ List.replicate count 0) message = function.hmac key message := by
  rw [hmac, function.keyBlock_append_zeros short, ← hmac]

/-! ### HKDF -/

/-- The extraction step. Without a salt it uses as many zeros as a digest has
bytes. -/
def hkdfExtract (salt : Option Bytes) (secret : Bytes) : Bytes :=
  function.hmac (salt.getD (List.replicate 32 0)) secret

/-- Without a salt the extraction is HMAC with the empty key. -/
theorem hkdfExtract_none (secret : Bytes) :
    function.hkdfExtract none secret = function.hmac [] secret := by
  show function.hmac ([] ++ List.replicate 32 0) secret = _
  exact function.hmac_append_zeros (by decide) secret

/-- The blocks of the expansion from a counter on. -/
def hkdfBlocks (key info : Bytes) (previous : Bytes) (counter : UInt8) : Nat → Bytes
  | 0 => []
  | blocks + 1 =>
      let block := function.hmac key (previous ++ info ++ [counter])
      block ++ hkdfBlocks key info block (counter + 1) blocks

/-- The expansion step, of at most 255 blocks. -/
def hkdfExpand (key info : Bytes) (length : Nat) : Option Bytes :=
  if 255 * 32 < length then none
  else some ((function.hkdfBlocks key info [] 1 ((length + 31) / 32)).take length)

/-- One block is one application of HMAC. -/
theorem hkdfExpand_block (key info : Bytes) :
    function.hkdfExpand key info 32 = some (function.hmac key (info ++ [1])) := by
  show some ((function.hmac key ([] ++ info ++ [1]) ++ []).take 32) = _
  rw [List.nil_append, List.append_nil, List.take_of_length_le (by simp)]

end HashFunction

end FProto.Foundation
