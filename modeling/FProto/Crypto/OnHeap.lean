import FProto.Crypto.Rekey
import FProto.Crypto.Service
import FProto.Foundation.Heap

/-!
Owns `Encrypt`, `Decrypt` and `Rekey` of `server/internal/cryptogrpc/server.go` with
`aead.go`, `rekey.go` and `zeroize.go` of proto-core, over arrays in memory: every
slice expression, `copy` and indexed write of the source is an operation that
panics when it leaves its bounds.

The cipher allocates what it returns and panics on a nonce of another size. Its
limit of 256 GiB on a text is out of reach of a request and is not modelled.

**Main results.** The handlers compute what the functions on byte strings say
(`encrypt_refines`, `decrypt_refines`, `rekey_of_long`), and they panic on a state
whose array has no room for a key, except for the one that looks at the length:
`serve_returns_iff`.
-/

namespace FProto.Crypto

open FProto.Foundation
open FProto.Protocol

namespace OnHeap

open FProto.Foundation.Heap

/-! ### Helpers of proto-core -/

/-- `NewAEAD`. The cipher keeps a copy of the key. -/
def newAEAD (key : SliceRef) : HeapCode (Except String AeadKey) := do
  return Crypto.newAEAD (← load key)

/-- `BuildNonce`. -/
def buildNonce (seq : UInt64) : HeapCode SliceRef := do
  let nonce ← make 12
  putUint64 (← cut nonce 4 nonce.len) seq
  return nonce

/-- `BuildAAD`. -/
def buildAAD (sessionId : SliceRef) (seq : UInt64) : HeapCode SliceRef := do
  let aad ← make (sessionId.len + 8)
  copy aad sessionId
  putUint64 (← cut aad sessionId.len aad.len) seq
  return aad

/-- `aead.Seal(nil, nonce, plaintext, aad)`. -/
def sealInto (aead : Aead) (key : AeadKey) (nonce plaintext aad : SliceRef) :
    HeapCode SliceRef := do
  if nonce.len ≠ 12 then throw "chacha20poly1305: bad nonce length passed to Seal" else
  fresh (aead.sealWith key (← load nonce) (← load plaintext) (← load aad))

/-- `aead.Open(nil, nonce, ciphertext, aad)`. -/
def openInto (aead : Aead) (key : AeadKey) (nonce ciphertext aad : SliceRef) :
    HeapCode (Except String SliceRef) := do
  if nonce.len ≠ 12 then throw "chacha20poly1305: bad nonce length passed to Open" else
  match aead.openWith key (← load nonce) (← load ciphertext) (← load aad) with
  | .error error => return .error error
  | .ok plaintext => return .ok (← fresh plaintext)

/-- `EncryptAEAD`. -/
def encryptAEAD (aead : Aead) (key : AeadKey) (sessionId : SliceRef) (seq : UInt64)
    (plaintext : SliceRef) : HeapCode SliceRef := do
  let nonce ← buildNonce seq
  let aad ← buildAAD sessionId seq
  sealInto aead key nonce plaintext aad

/-- `DecryptAEAD`. -/
def decryptAEAD (aead : Aead) (key : AeadKey) (sessionId : SliceRef) (seq : UInt64)
    (ciphertext : SliceRef) : HeapCode (Except String SliceRef) := do
  let nonce ← buildNonce seq
  let aad ← buildAAD sessionId seq
  match ← openInto aead key nonce ciphertext aad with
  | .error error => return .error ("aead decrypt: " ++ error)
  | .ok plaintext => return .ok plaintext

/-- `Rekey` of proto-core. -/
def rekey (sha256 : HashFunction) (currentKey : SliceRef) : HeapCode (Except String SliceRef) := do
  if currentKey.len = 0 then return .error "rekey: empty current key" else
  let prk := sha256.hkdfExtract none (← load currentKey)
  let newKey ← make 32
  match sha256.hkdfExpand prk (utf8 "proto-rekey") newKey.len with
  | none => return .error "rekey hkdf: hkdf: entropy limit reached"
  | some stream =>
      readFull newKey stream
      return .ok newKey

/-- The rest of the loop of `Zeroize`. -/
def zeroizeFrom (ref : SliceRef) (index : Nat) : Nat → HeapCode Unit
  | 0 => return ()
  | left + 1 => do
      setByte ref index 0
      zeroizeFrom ref (index + 1) left

/-- `Zeroize`. -/
def zeroize (ref : SliceRef) : HeapCode Unit :=
  zeroizeFrom ref 0 ref.len

/-! ### Handlers -/

/-- A text and the state, as `EncryptResponse` and `DecryptResponse` have them. -/
structure TextResponse where
  text : SliceRef
  updatedCryptoState : SliceRef

/-- `Server.Encrypt`. -/
def serverEncrypt (aead : Aead) (sessionId cryptoState : SliceRef) (seq : UInt64)
    (plaintext : SliceRef) : HeapCode (Handled TextResponse) := do
  match ← newAEAD (← cut cryptoState 0 32) with
  | .error error => return .error (.status .invalidArgument ("invalid crypto state: " ++ error))
  | .ok key =>
      let ciphertext ← encryptAEAD aead key sessionId seq plaintext
      return .ok ⟨ciphertext, cryptoState⟩

/-- `Server.Decrypt`. -/
def serverDecrypt (aead : Aead) (sessionId cryptoState : SliceRef) (seq : UInt64)
    (ciphertext : SliceRef) : HeapCode (Handled TextResponse) := do
  match ← newAEAD (← cut cryptoState 0 32) with
  | .error error => return .error (.status .invalidArgument ("invalid crypto state: " ++ error))
  | .ok key =>
      match ← decryptAEAD aead key sessionId seq ciphertext with
      | .error error => return .error (.status .invalidArgument ("decrypt: " ++ error))
      | .ok plaintext => return .ok ⟨plaintext, cryptoState⟩

/-- `Server.Rekey`, the only one that looks at the length of the state. -/
def serverRekey (sha256 : HashFunction) (cryptoState : SliceRef) :
    HeapCode (Handled SliceRef) := do
  if cryptoState.len < 32 then
    return .error (.status .invalidArgument "crypto state too short")
  else
  match ← rekey sha256 (← cut cryptoState 0 32) with
  | .error error => return .error (.status .internal ("rekey: " ++ error))
  | .ok newKey =>
      let newState ← make cryptoState.len
      copy newState cryptoState
      copy (← cut newState 0 32) newKey
      zeroize newKey
      return .ok newState

/-! ### Requests -/

/-- The header of a buffer that is the whole of an array. -/
def bufferRef (number : Nat) (buffer : Buffer) : SliceRef :=
  ⟨number, 0, buffer.content.length, buffer.content.length + buffer.spare.length⟩

/-- The array of a buffer. -/
def bufferArray (buffer : Buffer) : Bytes :=
  buffer.content ++ buffer.spare

/-- The response as it is sent, or how the call ended without one. -/
def respond {Response Sent : Type} (send : Heap → Response → Sent)
    (code : HeapCode (Handled Response)) (heap : Heap) : Handled Sent :=
  match code heap with
  | .error text => .error (.panicked text)
  | .ok (.error failure, _) => .error failure
  | .ok (.ok response, after) => .ok (send after response)

/-- Both slices of a response. -/
def sendText (heap : Heap) (response : TextResponse) : Bytes × Bytes :=
  (heap.content response.text, heap.content response.updatedCryptoState)

/-- A request of the crypto service, with its slices as they were decoded. -/
inductive Request where
  | encrypt (sessionId cryptoState : Buffer) (seq : UInt64) (plaintext : Buffer)
  | decrypt (sessionId cryptoState : Buffer) (seq : UInt64) (ciphertext : Buffer)
  | rekey (cryptoState : Buffer)

/-- What the service sends: a text with the state, or a new state. -/
inductive Response where
  | text (text updatedCryptoState : Bytes)
  | state (updatedCryptoState : Bytes)
deriving DecidableEq

def encrypt (aead : Aead) (sessionId cryptoState : Buffer) (seq : UInt64) (plaintext : Buffer) :
    Handled (Bytes × Bytes) :=
  respond sendText
    (serverEncrypt aead (bufferRef 0 sessionId) (bufferRef 1 cryptoState) seq
      (bufferRef 2 plaintext))
    [bufferArray sessionId, bufferArray cryptoState, bufferArray plaintext]

def decrypt (aead : Aead) (sessionId cryptoState : Buffer) (seq : UInt64) (ciphertext : Buffer) :
    Handled (Bytes × Bytes) :=
  respond sendText
    (serverDecrypt aead (bufferRef 0 sessionId) (bufferRef 1 cryptoState) seq
      (bufferRef 2 ciphertext))
    [bufferArray sessionId, bufferArray cryptoState, bufferArray ciphertext]

end OnHeap

/-- `Server.Rekey`: the new state. -/
def Server.rekey (sha256 : HashFunction) (cryptoState : Buffer) : Handled Bytes :=
  OnHeap.respond Heap.content (OnHeap.serverRekey sha256 (OnHeap.bufferRef 0 cryptoState))
    [OnHeap.bufferArray cryptoState]

namespace OnHeap

open FProto.Foundation.Heap

/-- The service answers a request. -/
def serve (aead : Aead) (sha256 : HashFunction) : Request → Handled Response
  | .encrypt sessionId cryptoState seq plaintext =>
      (encrypt aead sessionId cryptoState seq plaintext).map fun sent => .text sent.1 sent.2
  | .decrypt sessionId cryptoState seq ciphertext =>
      (decrypt aead sessionId cryptoState seq ciphertext).map fun sent => .text sent.1 sent.2
  | .rekey cryptoState => (Server.rekey sha256 cryptoState).map .state

/-! ### What the helpers compute -/

section Helpers

variable (heap : Heap) (seq : UInt64)

theorem buildNonce_eq :
    buildNonce seq heap = .ok (⟨heap.length, 0, 12, 12⟩, heap ++ [Crypto.buildNonce seq]) := by
  have zeros : (List.replicate 12 0 : Bytes) = List.replicate 4 0 ++ List.replicate 8 0 := rfl
  have spliced : splice (List.replicate 12 0) (0 + 4) (littleEndian64 seq) =
      Crypto.buildNonce seq := by
    rw [zeros]
    exact splice_append (List.replicate 4 0) (List.replicate 8 0) _ rfl
  rw [buildNonce, bind_of_ok rfl, bind_of_ok (cut_of_le _ (show 4 ≤ 12 by decide) (Nat.le_refl 12)),
    bind_of_ok (putUint64_made heap _ [] _ _ seq (show 8 ≤ 12 - 4 by decide)), spliced]
  rfl

theorem buildAAD_eq {sessionId : SliceRef} (valid : heap.Valid sessionId) :
    buildAAD sessionId seq heap =
      .ok (⟨heap.length, 0, sessionId.len + 8, sessionId.len + 8⟩,
        heap ++ [Crypto.buildAAD (heap.content sessionId) seq]) := by
  have length := length_content valid
  have zeros : (List.replicate (sessionId.len + 8) 0 : Bytes) =
      List.replicate sessionId.len 0 ++ List.replicate 8 0 :=
    List.replicate_append_replicate.symm
  have copied : splice (List.replicate (sessionId.len + 8) 0) 0
      (((heap ++ [List.replicate (sessionId.len + 8) 0]).content sessionId).take
        (sessionId.len + 8)) = heap.content sessionId ++ List.replicate 8 0 := by
    rw [content_append heap _ valid.made, List.take_of_length_le (by omega), zeros]
    exact splice_zero _ _ _ (by rw [length, List.length_replicate])
  have spliced : splice (heap.content sessionId ++ List.replicate 8 0) (0 + sessionId.len)
      (littleEndian64 seq) = Crypto.buildAAD (heap.content sessionId) seq := by
    rw [Nat.zero_add, ← length]
    exact splice_append _ _ _ rfl
  rw [buildAAD, bind_of_ok rfl, bind_of_ok (copy_made heap _ [] _ _ _ sessionId), copied,
    bind_of_ok (cut_of_le _ (Nat.le_add_right _ _) (Nat.le_refl _)),
    bind_of_ok (putUint64_made heap _ [] _ _ seq (by omega)), spliced]
  rfl

/-- The heap once nonce and additional data are built. -/
def prepared (sessionId : SliceRef) : Heap :=
  heap ++ [Crypto.buildNonce seq] ++ [Crypto.buildAAD (heap.content sessionId) seq]

section Prepared

variable {heap} {sessionId text : SliceRef}

theorem buildAAD_after_nonce (valid : heap.Valid sessionId) :
    buildAAD sessionId seq (heap ++ [Crypto.buildNonce seq]) =
      .ok (⟨(heap ++ [Crypto.buildNonce seq]).length, 0, sessionId.len + 8, sessionId.len + 8⟩,
        prepared heap seq sessionId) := by
  rw [buildAAD_eq _ seq (valid.append _), content_append heap _ valid.made]
  rfl

theorem prepared_nonce :
    (prepared heap seq sessionId).content ⟨heap.length, 0, 12, 12⟩ = Crypto.buildNonce seq := by
  rw [prepared, List.append_assoc]
  exact content_whole heap (Crypto.buildNonce seq) _ 12

theorem prepared_aad (valid : heap.Valid sessionId) :
    (prepared heap seq sessionId).content
        ⟨(heap ++ [Crypto.buildNonce seq]).length, 0, sessionId.len + 8, sessionId.len + 8⟩ =
      Crypto.buildAAD (heap.content sessionId) seq := by
  have length : sessionId.len + 8 = (Crypto.buildAAD (heap.content sessionId) seq).length := by
    rw [Crypto.buildAAD, List.length_append, length_content valid, length_littleEndian64]
  rw [length]
  exact content_whole _ (Crypto.buildAAD (heap.content sessionId) seq) [] _

theorem prepared_content (valid : heap.Valid text) :
    (prepared heap seq sessionId).content text = heap.content text := by
  rw [prepared, List.append_assoc, content_append heap _ valid.made]

variable (aead : Aead) (key : AeadKey)

theorem encryptAEAD_eq (valid : heap.Valid sessionId) (validText : heap.Valid text) :
    encryptAEAD aead key sessionId seq text heap =
      fresh (Crypto.encryptAEAD aead key (heap.content sessionId) seq (heap.content text))
        (prepared heap seq sessionId) := by
  rw [encryptAEAD, bind_of_ok (buildNonce_eq heap seq),
    bind_of_ok (buildAAD_after_nonce seq valid), sealInto, if_neg (fun unequal => unequal rfl),
    bind_of_ok rfl, bind_of_ok rfl, bind_of_ok rfl, prepared_nonce, prepared_content seq validText,
    prepared_aad seq valid]
  rfl

theorem openInto_eq (valid : heap.Valid sessionId) (validText : heap.Valid text) :
    openInto aead key ⟨heap.length, 0, 12, 12⟩ text
        ⟨(heap ++ [Crypto.buildNonce seq]).length, 0, sessionId.len + 8, sessionId.len + 8⟩
        (prepared heap seq sessionId) =
      match aead.openWith key (Crypto.buildNonce seq) (heap.content text)
          (Crypto.buildAAD (heap.content sessionId) seq) with
      | .error error => .ok (.error error, prepared heap seq sessionId)
      | .ok plaintext =>
          .ok (.ok ⟨(prepared heap seq sessionId).length, 0, plaintext.length, plaintext.length⟩,
            prepared heap seq sessionId ++ [plaintext]) := by
  rw [openInto, if_neg (fun unequal => unequal rfl), bind_of_ok rfl, bind_of_ok rfl,
    bind_of_ok rfl, prepared_nonce, prepared_content seq validText, prepared_aad seq valid]
  cases aead.openWith key (Crypto.buildNonce seq) (heap.content text)
      (Crypto.buildAAD (heap.content sessionId) seq) with
  | error error => rfl
  | ok plaintext => rfl

theorem decryptAEAD_eq (valid : heap.Valid sessionId) (validText : heap.Valid text) :
    decryptAEAD aead key sessionId seq text heap =
      match Crypto.decryptAEAD aead key (heap.content sessionId) seq (heap.content text) with
      | .error error => .ok (.error error, prepared heap seq sessionId)
      | .ok plaintext =>
          .ok (.ok ⟨(prepared heap seq sessionId).length, 0, plaintext.length, plaintext.length⟩,
            prepared heap seq sessionId ++ [plaintext]) := by
  have opening := openInto_eq seq aead key valid validText
  rw [decryptAEAD, bind_of_ok (buildNonce_eq heap seq),
    bind_of_ok (buildAAD_after_nonce seq valid), Crypto.decryptAEAD]
  cases opened : aead.openWith key (Crypto.buildNonce seq) (heap.content text)
      (Crypto.buildAAD (heap.content sessionId) seq) with
  | error error =>
      rw [opened] at opening
      rw [bind_of_ok opening]
      rfl
  | ok plaintext =>
      rw [opened] at opening
      rw [bind_of_ok opening]
      rfl

end Prepared

/-- **The loop of `Zeroize`.** After `index` turns, the first `index` bytes are
zero. -/
theorem zeroizeFrom_eq (rest : Heap) (len cap : Nat) {index left : Nat} {old : Bytes}
    (remaining : old.length = left) (inside : index + left ≤ len) :
    zeroizeFrom ⟨heap.length, 0, len, cap⟩ index left
        (heap ++ (List.replicate index 0 ++ old) :: rest) =
      .ok ((), heap ++ List.replicate (index + left) 0 :: rest) := by
  induction left generalizing index old with
  | zero =>
      rw [List.length_eq_zero_iff.mp remaining, List.append_nil]
      rfl
  | succ left inductionHypothesis =>
      obtain ⟨byte, old, rfl⟩ := List.exists_cons_of_length_eq_add_one remaining
      have turned : splice (List.replicate index 0 ++ byte :: old) (0 + index) [0] =
          List.replicate (index + 1) 0 ++ old := by
        have spliced := splice_singleton (List.replicate index 0) old byte 0
        rw [List.length_replicate] at spliced
        rw [Nat.zero_add, spliced, List.replicate_succ', List.append_assoc]
        rfl
      rw [zeroizeFrom, bind_of_ok (setByte_made heap _ rest 0 cap 0 (by omega)), turned,
        inductionHypothesis (by simpa using remaining) (by omega), Nat.add_right_comm]
      rfl

theorem zeroize_eq (rest : Heap) (bytes : Bytes) (cap : Nat) :
    zeroize ⟨heap.length, 0, bytes.length, cap⟩ (heap ++ bytes :: rest) =
      .ok ((), heap ++ List.replicate bytes.length 0 :: rest) := by
  have cleared : zeroizeFrom ⟨heap.length, 0, bytes.length, cap⟩ 0 bytes.length
      (heap ++ (List.replicate 0 0 ++ bytes) :: rest) = _ :=
    zeroizeFrom_eq heap rest bytes.length cap rfl (Nat.le_of_eq (Nat.zero_add _))
  rwa [Nat.zero_add] at cleared

/-- A key that is not empty is rotated into a new array. -/
theorem rekey_eq (sha256 : HashFunction) {currentKey : SliceRef} (named : currentKey.len ≠ 0) :
    rekey sha256 currentKey heap =
      .ok (.ok ⟨heap.length, 0, 32, 32⟩,
        heap ++ [rotated sha256 "proto-rekey" (heap.content currentKey)]) := by
  have filled : splice (List.replicate 32 0) 0
      ((rotated sha256 "proto-rekey" (heap.content currentKey)).take 32) =
        rotated sha256 "proto-rekey" (heap.content currentKey) := by
    have length : (rotated sha256 "proto-rekey" (heap.content currentKey)).length = 32 :=
      sha256.length_hmac _ _
    rw [List.take_of_length_le (Nat.le_of_eq length)]
    exact splice_all (by rw [length, List.length_replicate])
  rw [rekey, if_neg named, bind_of_ok rfl, bind_of_ok rfl, sha256.hkdfExpand_block,
    sha256.hkdfExtract_none]
  show (readFull _ (rotated sha256 "proto-rekey" (heap.content currentKey)) >>= _) _ = _
  rw [bind_of_ok (readFull_made heap _ [] _ _ _ _), filled]
  rfl

end Helpers

/-! ### What the handlers compute -/

/-- The first 32 bytes of a slice. -/
theorem content_cut {heap : Heap} {ref : SliceRef} (long : 32 ≤ ref.len) :
    heap.content ⟨ref.array, ref.offset + 0, 32 - 0, ref.cap - 0⟩ =
      (heap.content ref).take 32 := by
  rw [content, content, List.take_take, Nat.min_eq_left long]
  rfl

/-- The state that `Rekey` returns stands in an array of its own, and the key that
went into it is cleared. -/
theorem serverRekey_eq (sha256 : HashFunction) {heap : Heap} {cryptoState : SliceRef}
    (valid : heap.Valid cryptoState) (long : 32 ≤ cryptoState.len) :
    serverRekey sha256 cryptoState heap =
      .ok (.ok ⟨heap.length + 1, 0, cryptoState.len, cryptoState.len⟩,
        heap ++ [List.replicate 32 0,
          rotated sha256 "proto-rekey" ((heap.content cryptoState).take 32) ++
            (heap.content cryptoState).drop 32]) := by
  have length := length_content valid
  have room : 32 ≤ cryptoState.cap := Nat.le_trans long valid.fits
  generalize isKey : rotated sha256 "proto-rekey" ((heap.content cryptoState).take 32) = newKey
  have keyLength : newKey.length = 32 := by
    rw [← isKey]
    exact sha256.length_hmac _ _
  have derived : rekey sha256 ⟨cryptoState.array, cryptoState.offset + 0, 32 - 0,
      cryptoState.cap - 0⟩ heap = .ok (.ok ⟨heap.length, 0, 32, 32⟩, heap ++ [newKey]) := by
    rw [rekey_eq heap sha256 (show 32 - 0 ≠ 0 by decide), content_cut long, isKey]
  have copied : splice (List.replicate cryptoState.len 0) 0
      (((heap ++ [newKey] ++ [List.replicate cryptoState.len 0]).content cryptoState).take
        cryptoState.len) = heap.content cryptoState := by
    rw [List.append_assoc, content_append heap _ valid.made,
      List.take_of_length_le (Nat.le_of_eq length)]
    exact splice_all (by rw [length, List.length_replicate])
  have replaced : splice (heap.content cryptoState) (0 + 0)
      (((heap ++ [newKey] ++ [heap.content cryptoState]).content ⟨heap.length, 0, 32, 32⟩).take
        (32 - 0)) = newKey ++ (heap.content cryptoState).drop 32 := by
    have source : (heap ++ [newKey] ++ [heap.content cryptoState]).content
        ⟨heap.length, 0, 32, 32⟩ = newKey := by
      rw [List.append_assoc, ← keyLength]
      exact content_whole heap newKey _ _
    rw [source, List.take_of_length_le (Nat.le_of_eq keyLength), splice, keyLength]
    rfl
  have cleared := zeroize_eq heap [newKey ++ (heap.content cryptoState).drop 32] newKey 32
  rw [keyLength] at cleared
  rw [serverRekey, if_neg (Nat.not_lt.mpr long), bind_of_ok (cut_of_le _ (Nat.zero_le 32) room),
    bind_of_ok derived]
  show (make cryptoState.len >>= _) (heap ++ [newKey]) = _
  rw [bind_of_ok rfl, bind_of_ok (copy_made (heap ++ [newKey]) _ [] _ _ _ cryptoState), copied,
    bind_of_ok (cut_of_le _ (Nat.zero_le 32) long),
    bind_of_ok (copy_made (heap ++ [newKey]) _ [] _ _ _ _), replaced, List.append_assoc,
    List.singleton_append, bind_of_ok cleared, List.length_append]
  rfl

section Buffers

variable {heap : Heap} {number : Nat} {buffer : Buffer}

theorem bufferRef_valid (made : number < heap.length)
    (isArray : heap.array number = bufferArray buffer) : heap.Valid (bufferRef number buffer) where
  made := made
  fits := Nat.le_add_right _ _
  inside := by
    have size : 0 + (buffer.content.length + buffer.spare.length) =
        (heap.array number).length := by
      rw [isArray, bufferArray, List.length_append, Nat.zero_add]
    exact Nat.le_of_eq size

theorem bufferRef_content (isArray : heap.array number = bufferArray buffer) :
    heap.content (bufferRef number buffer) = buffer.content := by
  show ((heap.array number).drop 0).take buffer.content.length = _
  rw [isArray, List.drop_zero, bufferArray, List.take_left]

/-- `NewAEAD(cryptoState[:32])` of a request. -/
theorem newAEAD_bufferRef (isArray : heap.array number = bufferArray buffer) :
    newAEAD ⟨(bufferRef number buffer).array, (bufferRef number buffer).offset + 0, 32 - 0,
        (bufferRef number buffer).cap - 0⟩ heap =
      .ok (Crypto.newAEAD ((buffer.content ++ buffer.spare).take 32), heap) := by
  show Except.ok (Crypto.newAEAD (((heap.array number).drop 0).take 32), heap) = _
  rw [isArray]
  rfl

end Buffers

/-! ### Requests and their answers -/

section Texts

variable (aead : Aead) (sessionId cryptoState : Buffer) (seq : UInt64) (text : Buffer)

/-- The slices of a request are the arrays before those that its handler makes. -/
abbrev requestHeap : Heap :=
  [bufferArray sessionId, bufferArray cryptoState, bufferArray text]

theorem sessionId_valid :
    (requestHeap sessionId cryptoState text).Valid (bufferRef 0 sessionId) :=
  bufferRef_valid (Nat.succ_pos 2) rfl

theorem text_valid :
    (requestHeap sessionId cryptoState text).Valid (bufferRef 2 text) :=
  bufferRef_valid (Nat.lt_succ_self 2) rfl

theorem cryptoState_content (seq : UInt64) (rest : Heap) :
    (prepared (requestHeap sessionId cryptoState text) seq (bufferRef 0 sessionId) ++ rest).content
      (bufferRef 1 cryptoState) = cryptoState.content := by
  exact bufferRef_content rfl

/-- The cipher of a request whose state has room for a key. -/
theorem newAEAD_of_room (room : 32 ≤ cryptoState.content.length + cryptoState.spare.length) :
    ∃ key, Crypto.newAEAD ((cryptoState.content ++ cryptoState.spare).take 32) = .ok key := by
  have length : ((cryptoState.content ++ cryptoState.spare).take 32).length = 32 :=
    List.length_take_of_le (by rwa [List.length_append])
  exact ⟨_, newAEAD_of_length length⟩

/-- `Encrypt` returns what the function on byte strings returns, and the state as it
came. -/
theorem encrypt_refines :
    encrypt aead sessionId cryptoState seq text =
      (Crypto.Server.encrypt aead sessionId.content cryptoState seq text.content).map
        fun ciphertext => (ciphertext, cryptoState.content) := by
  rw [encrypt, Crypto.Server.encrypt, Buffer.upTo, respond, serverEncrypt]
  by_cases room : 32 ≤ cryptoState.content.length + cryptoState.spare.length
  · obtain ⟨key, isKey⟩ := newAEAD_of_room cryptoState room
    have encrypted := encryptAEAD_eq seq aead key (sessionId_valid sessionId cryptoState text)
      (text_valid sessionId cryptoState text)
    rw [bufferRef_content rfl, bufferRef_content rfl] at encrypted
    rw [if_pos room, bind_of_ok (cut_of_le _ (Nat.zero_le 32) room),
      bind_of_ok (newAEAD_bufferRef rfl), isKey]
    dsimp only
    rw [bind_of_ok encrypted]
    show Except.ok (_, _) = Except.map _ (match Crypto.newAEAD _ with | .error _ => _ | .ok _ => _)
    rw [isKey, content_whole, cryptoState_content]
    rfl
  · rw [if_neg room, bind_of_panic (cut_of_lt _ (Nat.lt_of_not_le room))]
    rfl

/-- `Decrypt` returns what the function on byte strings returns, and the state as it
came. -/
theorem decrypt_refines :
    decrypt aead sessionId cryptoState seq text =
      (Crypto.Server.decrypt aead sessionId.content cryptoState seq text.content).map
        fun plaintext => (plaintext, cryptoState.content) := by
  rw [decrypt, Crypto.Server.decrypt, Buffer.upTo, respond, serverDecrypt]
  by_cases room : 32 ≤ cryptoState.content.length + cryptoState.spare.length
  · obtain ⟨key, isKey⟩ := newAEAD_of_room cryptoState room
    have decrypted := decryptAEAD_eq seq aead key (sessionId_valid sessionId cryptoState text)
      (text_valid sessionId cryptoState text)
    rw [bufferRef_content rfl, bufferRef_content rfl] at decrypted
    rw [if_pos room, bind_of_ok (cut_of_le _ (Nat.zero_le 32) room),
      bind_of_ok (newAEAD_bufferRef rfl), isKey]
    show _ = Except.map _ (match Crypto.newAEAD _ with | .error _ => _ | .ok _ => _)
    rw [isKey]
    dsimp only
    cases opened : Crypto.decryptAEAD aead key sessionId.content seq text.content with
    | error error =>
        rw [opened] at decrypted
        rw [bind_of_ok decrypted]
        rfl
    | ok plaintext =>
        rw [opened] at decrypted
        rw [bind_of_ok decrypted]
        show Except.ok (_, _) = Except.ok (_, _)
        rw [content_whole, cryptoState_content]
  · rw [if_neg room, bind_of_panic (cut_of_lt _ (Nat.lt_of_not_le room))]
    rfl

end Texts

section Rekeying

variable (sha256 : HashFunction) {cryptoState : Buffer}

/-- A long state keeps its length and everything behind the key. -/
theorem rekey_of_long (long : 32 ≤ cryptoState.content.length) :
    Server.rekey sha256 cryptoState =
      .ok (rotated sha256 "proto-rekey" (cryptoState.content.take 32) ++
        cryptoState.content.drop 32) := by
  have isArray : Heap.array [bufferArray cryptoState] 0 = bufferArray cryptoState := rfl
  have rekeyed := serverRekey_eq sha256 (bufferRef_valid Nat.one_pos isArray) long
  rw [bufferRef_content isArray] at rekeyed
  generalize isState : rotated sha256 "proto-rekey" (cryptoState.content.take 32) ++
    cryptoState.content.drop 32 = newState at rekeyed ⊢
  have length : cryptoState.content.length = newState.length := by
    have keyLength : (rotated sha256 "proto-rekey" (cryptoState.content.take 32)).length = 32 :=
      sha256.length_hmac _ _
    rw [← isState, List.length_append, keyLength, List.length_drop]
    omega
  rw [Server.rekey, respond, rekeyed]
  show Except.ok (newState.take cryptoState.content.length) = _
  rw [length, List.take_length]

theorem rekey_of_short (short : cryptoState.content.length < 32) :
    Server.rekey sha256 cryptoState =
      .error (.status .invalidArgument "crypto state too short") := by
  have refused : serverRekey sha256 (bufferRef 0 cryptoState) [bufferArray cryptoState] =
      .ok (.error (.status .invalidArgument "crypto state too short"),
        [bufferArray cryptoState]) := by
    rw [serverRekey, if_pos (show (bufferRef 0 cryptoState).len < 32 from short)]
    rfl
  rw [Server.rekey, respond, refused]

end Rekeying

/-! ### Panics -/

/-- The handler answered or returned an error. -/
def Returns {Result : Type} (answer : Handled Result) : Prop :=
  ∀ text, answer ≠ .error (.panicked text)

/-- The state of the request has room for a key where the handler cuts one out
without looking at the length. -/
def Request.HasRoom : Request → Prop
  | .encrypt _ cryptoState _ _ => 32 ≤ cryptoState.content.length + cryptoState.spare.length
  | .decrypt _ cryptoState _ _ => 32 ≤ cryptoState.content.length + cryptoState.spare.length
  | .rekey _ => True

theorem returns_map {Result Mapped : Type} (function : Result → Mapped) {answer : Handled Result} :
    Returns (answer.map function) ↔ Returns answer := by
  cases answer with
  | error failure =>
      show (∀ text, Except.error failure ≠ _) ↔ ∀ text, Except.error failure ≠ _
      simp only [ne_eq, Except.error.injEq]
  | ok result =>
      constructor
      · intro _ text impossible
        cases impossible
      · intro _ text impossible
        cases impossible

section Panics

variable (aead : Aead) (sessionId : Bytes) (cryptoState : Buffer) (seq : UInt64) (text : Bytes)

theorem upTo_panics (short : cryptoState.content.length + cryptoState.spare.length < 32) :
    cryptoState.upTo 32 = .error (.panicked "runtime error: slice bounds out of range") :=
  if_neg (Nat.not_le.mpr short)

/-- What is done under the key does not decide. -/
theorem returns_with_key_iff {Result : Type} {next : AeadKey → Handled Result}
    (returns : ∀ key, Returns (next key)) :
    Returns (do
      match Crypto.newAEAD (← cryptoState.upTo 32) with
      | .error error => .error (.status .invalidArgument ("invalid crypto state: " ++ error))
      | .ok key => next key) ↔
      32 ≤ cryptoState.content.length + cryptoState.spare.length := by
  constructor
  · intro returned
    by_contra short
    apply returned
    rw [upTo_panics cryptoState (Nat.lt_of_not_le short)]
    rfl
  · intro room
    obtain ⟨key, isKey⟩ := newAEAD_of_room cryptoState room
    rw [Buffer.upTo, if_pos room]
    show Returns (match Crypto.newAEAD _ with | .error _ => _ | .ok _ => _)
    rw [isKey]
    exact returns key

theorem encrypt_returns_iff :
    Returns (Crypto.Server.encrypt aead sessionId cryptoState seq text) ↔
      32 ≤ cryptoState.content.length + cryptoState.spare.length :=
  returns_with_key_iff cryptoState fun _ _ impossible => by cases impossible

theorem decrypt_returns_iff :
    Returns (Crypto.Server.decrypt aead sessionId cryptoState seq text) ↔
      32 ≤ cryptoState.content.length + cryptoState.spare.length := by
  apply returns_with_key_iff cryptoState
  intro key panic isPanic
  split at isPanic
  · cases isPanic
  · cases isPanic

theorem rekey_returns (sha256 : HashFunction) : Returns (Server.rekey sha256 cryptoState) := by
  intro panic isPanic
  by_cases long : 32 ≤ cryptoState.content.length
  · rw [rekey_of_long sha256 long] at isPanic
    cases isPanic
  · rw [rekey_of_short sha256 (Nat.lt_of_not_le long)] at isPanic
    cases isPanic

end Panics

/-- **A request makes the service panic exactly when it asks to encrypt or decrypt
under a state whose array has no room for a key.** -/
theorem serve_returns_iff (aead : Aead) (sha256 : HashFunction) (request : Request) :
    Returns (serve aead sha256 request) ↔ request.HasRoom := by
  cases request with
  | encrypt sessionId cryptoState seq plaintext =>
      rw [serve, returns_map, encrypt_refines, returns_map, encrypt_returns_iff]
      rfl
  | decrypt sessionId cryptoState seq ciphertext =>
      rw [serve, returns_map, decrypt_refines, returns_map, decrypt_returns_iff]
      rfl
  | rekey cryptoState =>
      rw [serve, returns_map]
      exact iff_of_true (rekey_returns cryptoState sha256) trivial

/-- Without a state, encryption and decryption panic, and `Rekey` does not. -/
theorem empty_state_panics :
    serve sampleAead sampleHash (.encrypt ⟨[1], []⟩ ⟨[], []⟩ 5 ⟨[2, 3], []⟩) =
        .error (.panicked "runtime error: slice bounds out of range") ∧
      serve sampleAead sampleHash (.decrypt ⟨[1], []⟩ ⟨[], []⟩ 5 ⟨[2, 3], []⟩) =
        .error (.panicked "runtime error: slice bounds out of range") ∧
      serve sampleAead sampleHash (.rekey ⟨[], []⟩) =
        .error (.status .invalidArgument "crypto state too short") :=
  ⟨rfl, rfl, rfl⟩

end OnHeap

end FProto.Crypto
