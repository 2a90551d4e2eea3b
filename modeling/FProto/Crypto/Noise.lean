import FProto.Foundation.Bytes
import FProto.Foundation.Execution

/-!
Owns `proto-core/crypto/noise.go` and the handshake and session of
`sdk/go/crypto.go` and `sdk/go/client.go`, over any implementation of the Noise
library they call.

A handshake is a program that reads and writes messages on a connection. The
library is a parameter; a cipher state of it is a key with a counter. Randomness
is an argument of the handshake.
-/

namespace FProto.Crypto

open FProto.Foundation

/-- `KeyPair`. -/
structure KeyPair where
  privateKey : Bytes
  publicKey : Bytes
deriving DecidableEq

/-- `noise.CipherState`: the counter is the nonce of the next message. -/
structure CipherState (Key : Type) where
  key : Key
  counter : Nat
deriving DecidableEq

/-- What `WriteMessage` and `ReadMessage` return: the message or its payload, and
two cipher states when the handshake is complete. -/
structure HandshakeOutput (Key : Type) where
  content : Bytes
  first : Option (CipherState Key) := none
  second : Option (CipherState Key) := none
deriving DecidableEq

/-- The Noise library with its suite and the pattern XX. A handshake state
carries the randomness it will use; the flag is `Initiator`. -/
structure Noise where
  Handshake : Type
  Random : Type
  Key : Type
  newHandshakeState : Random → Bool → KeyPair → Except String Handshake
  writeMessage : Handshake → Bytes → Except String (HandshakeOutput Key) × Handshake
  readMessage : Handshake → Bytes → Except String (HandshakeOutput Key) × Handshake
  /-- The cipher under a key and a nonce, without additional data. -/
  sealWith : Key → Nat → Bytes → Bytes
  openWith : Key → Nat → Bytes → Except String Bytes

/-- `noise.MaxNonce`. -/
def maxNonce : Nat := 18446744073709551614

namespace CipherState

variable {noise : Noise}

/-- `CipherState.Encrypt`. -/
def encrypt (cipher : CipherState noise.Key) (plaintext : Bytes) :
    Except String Bytes × CipherState noise.Key :=
  if maxNonce < cipher.counter then
    (.error "noise: cipherstate has reached maximum n, a new handshake must be performed", cipher)
  else
    (.ok (noise.sealWith cipher.key cipher.counter plaintext),
      { cipher with counter := cipher.counter + 1 })

/-- `CipherState.Decrypt`. A failure keeps the counter. -/
def decrypt (cipher : CipherState noise.Key) (ciphertext : Bytes) :
    Except String Bytes × CipherState noise.Key :=
  if maxNonce < cipher.counter then
    (.error "noise: cipherstate has reached maximum n, a new handshake must be performed", cipher)
  else
    match noise.openWith cipher.key cipher.counter ciphertext with
    | .error error => (.error error, cipher)
    | .ok plaintext => (.ok plaintext, { cipher with counter := cipher.counter + 1 })

end CipherState

/-! ### Sessions -/

/-- The packages with a client. -/
inductive Package where
  | protoCore
  | sdk
deriving DecidableEq

/-- `fmt.Errorf` with a label and `%w`. The SDK returns errors as they are. -/
def Package.labelled : Package → String → String → String
  | .protoCore, label, error => label ++ ": " ++ error
  | .sdk, _, error => error

/-- The error for a handshake without cipher states. -/
def Package.incomplete : Package → String
  | .protoCore => "handshake incomplete: cipher states are nil"
  | .sdk => "handshake incomplete"

/-- `NoiseSession`, and `noiseSession` of the SDK. -/
structure NoiseSession (noise : Noise) where
  send : CipherState noise.Key
  recv : CipherState noise.Key

namespace NoiseSession

variable {noise : Noise}

/-- `NoiseSession.Encrypt`. -/
def encrypt (session : NoiseSession noise) (plaintext : Bytes) :
    Except String Bytes × NoiseSession noise :=
  let (result, send) := session.send.encrypt plaintext
  (result, { session with send })

/-- `NoiseSession.Decrypt`. -/
def decrypt (package : Package) (session : NoiseSession noise) (ciphertext : Bytes) :
    Except String Bytes × NoiseSession noise :=
  match session.recv.decrypt ciphertext with
  | (.error error, recv) => (.error (package.labelled "noise decrypt" error), { session with recv })
  | (.ok plaintext, recv) => (.ok plaintext, { session with recv })

end NoiseSession

/-! ### Handshakes -/

/-- The functions a handshake gets to reach its peer. -/
inductive ConnCommand where
  | read
  | write (message : Bytes)

abbrev ConnReply : ConnCommand → Type
  | .read => Except String Bytes
  | .write _ => Except String Unit

abbrev ConnCode (Result : Type) := Program ConnCommand ConnReply Result

def Conn.read : ConnCode (Except String Bytes) := Program.issue ConnCommand.read

def Conn.write (message : Bytes) : ConnCode (Except String Unit) :=
  Program.issue (ConnCommand.write message)

/-- Return the error under its label, or go on. -/
def Package.orFail {Value Result : Type} (package : Package) (label : String)
    (result : Except String Value) (rest : Value → ConnCode (Except String Result)) :
    ConnCode (Except String Result) :=
  match result with
  | .error error => return .error (package.labelled label error)
  | .ok value => rest value

/-- `ServerHandshake`. -/
def serverHandshake (noise : Noise) (random : noise.Random) (serverKey : KeyPair) :
    ConnCode (Except String (NoiseSession noise)) :=
  let package := Package.protoCore
  package.orFail "new handshake state" (noise.newHandshakeState random false serverKey)
    fun hs => do
  package.orFail "read init" (← Conn.read) fun msg1 => do
  let (init, hs) := noise.readMessage hs msg1
  package.orFail "process init" init fun _ => do
  let (response, hs) := noise.writeMessage hs []
  package.orFail "write response" response fun msg2 => do
  package.orFail "send response" (← Conn.write msg2.content) fun _ => do
  package.orFail "read finish" (← Conn.read) fun msg3 => do
  let (finish, _) := noise.readMessage hs msg3
  package.orFail "process finish" finish fun output =>
    match output.first, output.second with
    | some csRecv, some csSend => return .ok { send := csSend, recv := csRecv }
    | _, _ => return .error package.incomplete

/-- `ClientHandshake`, and `clientHandshake` of the SDK. -/
def clientHandshake (package : Package) (noise : Noise) (random : noise.Random)
    (clientKey : KeyPair) : ConnCode (Except String (NoiseSession noise)) :=
  package.orFail "new handshake state" (noise.newHandshakeState random true clientKey)
    fun hs => do
  let (init, hs) := noise.writeMessage hs []
  package.orFail "write init" init fun msg1 => do
  package.orFail "send init" (← Conn.write msg1.content) fun _ => do
  package.orFail "read response" (← Conn.read) fun msg2 => do
  let (response, hs) := noise.readMessage hs msg2
  package.orFail "process response" response fun _ => do
  let (finish, _) := noise.writeMessage hs []
  package.orFail "write finish" finish fun msg3 => do
  package.orFail "send finish" (← Conn.write msg3.content) fun _ =>
    match msg3.first, msg3.second with
    | some csSend, some csRecv => return .ok { send := csSend, recv := csRecv }
    | _, _ => return .error package.incomplete

end FProto.Crypto
