import LatteRs.Concurrent.Schedule
import LatteRs.Sdk
import LatteRs.Acceptance

/-!
# An Sdk and its clones as a system of threads

The state that the clones of an `Sdk` share, what each effect may answer and
what it does to that state.  Only this Sdk writes the cache file; a write or a
delete either happens or leaves the file alone, and a read may fail.  The clock
and the server answer as they like; the world records the date of the newest
token the server has issued.

* `Shared`, `Sdk.admits`, `Shared.write`: the state, the answers and the effects;
* `Sdk.system`, `Sdk.start`;
* `sampleSdk`, `sampleOracle`: an Sdk and a server over the sample chain.
-/

namespace LatteRs

open Concurrent Act Program

/-- What the clones share. -/
structure Shared where
  /-- What the cache file decodes to, `none` when it is absent or is not an activation. -/
  cache : Option (String × CertChain)
  renewal : Renewal
  renewalFailed : Bool
  /-- The number of the latest background renewal whose thread was started, which the Sdk itself
  does not record. -/
  spawned : ℕ
  deriving DecidableEq

/-- The state that `Sdk::new` starts with, on a given cache file. -/
def Shared.new (cache : Option (String × CertChain)) : Shared :=
  ⟨cache, ⟨0, none, none⟩, false, 0⟩

/-- What an effect with its answer does to the shared state. -/
def Shared.write : (e : Effect) → Answer e → Shared → Shared
  | .save token chain, true, s => { s with cache := some (token, chain) }
  | .clear, true, s => { s with cache := none }
  | .setRenewal state, _, s => { s with renewal := state }
  | .storeFlag failed, _, s => { s with renewalFailed := failed }
  | .noteFlag _ _ failed, _, s => { s with renewalFailed := failed }
  | _, _, s => s

/-- What starting a thread leaves in the shared state. -/
def Shared.forked : Task → Shared → Shared
  | .background attempt _ _, s => { s with spawned := attempt }
  | _, s => s

/-- The date of a token, the number of seconds in its `iat`. -/
def tokenDate (P : Platform) (token : String) : Option ℤ :=
  (payloadClaims P.toCrypto token).map issuedSecs

/-- The date of the token that a reply carries. -/
def replyDate (P : Platform) : Reply → Option ℤ
  | .ok (status, .ok bytes) =>
    if isSuccess status then
      match P.tokenResponse bytes with
      | .ok result => tokenDate P result.token
      | .error _ => none
    else none
  | _ => none

variable {P : Platform}

/-- The answers an effect may get; `newest` is the date of the newest token the server has
issued. -/
def Sdk.admits (_ : Sdk P) : (e : Effect) → Shared → ℤ → Answer e → Prop
  | .request .., _, newest, answered => answered.stamp = (replyDate P answered.reply).getD newest
  | .load, s, _, cached => cached = s.cache ∨ cached = none
  | .getRenewal, s, _, state => state = s.renewal
  | .loadFlag, s, _, failed => failed = s.renewalFailed
  | _, _, _, _ => True

instance (sdk : Sdk P) (e : Effect) (s : Shared) (newest : ℤ) (r : Answer e) :
    Decidable (sdk.admits e s newest r) := by
  cases e <;> unfold Sdk.admits <;> infer_instance

/-- The server's newest token after an effect. -/
def advance : (e : Effect) → Answer e → ℤ → ℤ
  | .request .., answered, _ => answered.stamp
  | _, _, newest => newest

/-- What a thread does while it unwinds from a panic: a background renewal drops its mark. -/
def handler : Task → Act Outcome
  | .background attempt _ _ => do
    dropInFlight attempt
    .ret .panicked
  | _ => .ret .panicked

/-- A background renewal runs on a thread of its own, which nobody calls. -/
def Task.isBackground : Task → Bool
  | .background .. => true
  | _ => false

/-- An Sdk and its clones. -/
@[reducible] def Sdk.system (sdk : Sdk P) : System signature where
  Shared := Shared
  World := ℤ
  admits := sdk.admits
  write := Shared.write
  advance := advance
  forked := Shared.forked
  body := sdk.body
  handler := handler
  callable t := t.isBackground = false
  -- a panic outside the arithmetic is looked at only on the detached thread
  mayPanic t := t.isBackground = true

/-- A new Sdk on a given cache file, before any call; `newest` is the date of the newest token
that the server has issued. -/
def Sdk.start (sdk : Sdk P) (cache : Option (String × CertChain)) (newest : ℤ) :
    Config sdk.system := Config.init (Shared.new cache) newest

/-! ### A sample Sdk

The bodies `t`, `u` and `v` of a 2xx answer carry the sample tokens of these names. -/

def samplePlatform : Platform where
  toCrypto := sampleCrypto
  toUppercase := id
  displayStatus status := toString status
  tokenResponse
    | [116] => .ok ⟨"h.t.4t", sampleChain⟩
    | [117] => .ok ⟨"h.u.4u", sampleChain⟩
    | [118] => .ok ⟨"h.v.4v", sampleChain⟩
    | _ => .error "expected value"
  deactivateResult _ := .ok ⟨true, none⟩
  machinesResponse _ := .ok []
  renameResponse _ := .ok ""
  errorResponse _ := .error "expected value"

def sampleSdk : Sdk samplePlatform where
  baseUrl := ""
  appId := "p"
  machineId := "m"
  machineName := none
  masterPubs := sampleKeys
  cachePath := some "cache"

/-- A clock that reads `secs`, a server that sends `reply`, and a file system that works. -/
def sampleOracle (secs : ℕ) (reply : Reply) : Oracle sampleSdk.system
  | .clock, _, _ => sampleAt secs
  | .request .., _, newest => ⟨(replyDate samplePlatform reply).getD newest, reply⟩
  | .load, s, _ => s.cache
  | .save .., _, _ => true
  | .clear, _, _ => true
  | .getRenewal, s, _ => s.renewal
  | .setRenewal _, _, _ => ()
  | .loadFlag, s, _ => s.renewalFailed
  | .storeFlag _, _, _ => ()
  | .noteFlag .., _, _ => ()

/-- A 2xx answer with a body of one byte. -/
def sampleReply (byte : UInt8) : Reply := .ok (200, .ok [byte])

/-- `n` moves of thread `i`, at one time and with one reply. -/
def sampleMoves (n i secs : ℕ) (reply : Reply) : List (Move sampleSdk.system) :=
  List.replicate n (.go i (sampleOracle secs reply))

end LatteRs
