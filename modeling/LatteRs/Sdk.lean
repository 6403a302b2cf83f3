import LatteRs.Concurrent.Pool
import LatteRs.Http
import LatteRs.Key

/-!
# The methods of the Sdk

`Sdk` of `http.rs` as programs over the effects it has: the clock, the network,
the cache file, and the renewal state and the flag that its clones share.  The
lock of the programs is the mutex of the renewal state, which also guards every
write to the cache and to the flag.

* `Effect`, `Answer`, `Task`, `Outcome`;
* `noteRenewal`, `holdsActivation`, `saveToCache`, `clearCache`;
* `activate`, `renew`, `deactivate`, `machines`, `renameMachine`, `check`;
* `renewInBackground` and `renewAndStore`, the thread that `check` starts;
* `Sdk.body`, what a thread runs.
-/

namespace LatteRs

open Concurrent

/-! ### State and effects -/

/-- The fields of `Sdk` that its clones copy. -/
structure Sdk (P : Platform) where
  baseUrl : String
  appId : String
  machineId : String
  machineName : Option String
  masterPubs : List P.VerifyingKey
  cachePath : Option String

/-- Background-renewal bookkeeping.  `attempt` is a `u64`. -/
structure Renewal where
  attempt : ℕ
  inFlight : Option SystemTime
  lastAttempt : Option SystemTime
  deriving DecidableEq

/-- The two clients: one for calls, one for background renewals. -/
inductive Client
  | http
  | backgroundHttp
  deriving DecidableEq

inductive Effect
  | clock
  | request (client : Client) (url : String) (body : Body)
  | load
  | save (token : String) (chain : CertChain)
  | clear
  | getRenewal
  | setRenewal (state : Renewal)
  | loadFlag
  | storeFlag (failed : Bool)
  /-- The store to the flag in `note_renewal`, with what it records: the outcome, a failure to
  reach the server or not, of a renewal of `activationId`. -/
  | noteFlag (activationId : String) (network : Bool) (failed : Bool)
  deriving DecidableEq

/-- What a request gets.  `stamp`, which the Sdk does not see, is the date of the newest token
that the server had issued when it had handled the request. -/
structure Answered where
  stamp : ℤ
  reply : Reply

/-- The answers.  Those of `save` and `clear` say whether the file operation succeeded. -/
@[reducible] def Answer : Effect → Type
  | .clock => SystemTime
  | .request .. => Answered
  | .load => Option (String × CertChain)
  | .save .. => Bool
  | .clear => Bool
  | .getRenewal => Renewal
  | .setRenewal _ => Unit
  | .loadFlag => Bool
  | .storeFlag _ => Unit
  | .noteFlag .. => Unit

/-- The methods with their arguments, and the background renewals with their number. -/
inductive Task
  | activate (licenseKey : String)
  | renew (activationId licenseKey : String)
  | deactivate (activationId licenseKey : String)
  | machines (activationId licenseKey : String)
  | renameMachine (activationId licenseKey name : String)
  | check
  | background (attempt : ℕ) (activationId licenseKey : String)
  deriving DecidableEq

inductive Outcome
  | license (result : Except LatteError PublicLicense)
  | deactivated (result : Except LatteError DeactivateResult)
  | machines (result : Except LatteError (List Machine))
  | renamed (result : Except LatteError String)
  /-- A background renewal has no result. -/
  | renewed
  | panicked
  deriving DecidableEq

@[reducible] def signature : Signature := ⟨Effect, Answer, Task, Outcome⟩

abbrev Act (α : Type) := Program signature α

namespace Act

def clock : Act SystemTime := Program.perform (S := signature) Effect.clock
def request (client : Client) (url : String) (body : Body) : Act Answered :=
  Program.perform (S := signature) (Effect.request client url body)
def load : Act (Option (String × CertChain)) := Program.perform (S := signature) Effect.load
def save (token : String) (chain : CertChain) : Act Bool :=
  Program.perform (S := signature) (Effect.save token chain)
def clear : Act Bool := Program.perform (S := signature) Effect.clear
def getRenewal : Act Renewal := Program.perform (S := signature) Effect.getRenewal
def setRenewal (state : Renewal) : Act Unit :=
  Program.perform (S := signature) (Effect.setRenewal state)
def loadFlag : Act Bool := Program.perform (S := signature) Effect.loadFlag
def storeFlag (failed : Bool) : Act Unit :=
  Program.perform (S := signature) (Effect.storeFlag failed)
def noteFlag (activationId : String) (network failed : Bool) : Act Unit :=
  Program.perform (S := signature) (Effect.noteFlag activationId network failed)

/-- A computation in a method; where it panics, the method does. -/
def orAbort {ε α : Type} : Checked ε α → Act (Except ε α)
  | .ok a => .ret (.ok a)
  | .error (.err e) => .ret (.error e)
  | .error .panic => .abort

end Act

open Act Program

variable {P : Platform} (sdk : Sdk P)

/-! ### The cache and the flag -/

/-- `cache_path.and_then(storage::load)`. -/
def loadCache : Act (Option (String × CertChain)) :=
  match sdk.cachePath with
  | none => .ret none
  | some _ => load

def saveToCache (token : String) (chain : CertChain) : Act Unit := do
  acquire
  storeFlag false
  match sdk.cachePath with
  | none => release
  | some _ => do
    -- best-effort: whether the write succeeds is not looked at
    let _ ← save token chain
    release

def clearCache : Act Unit := do
  acquire
  storeFlag false
  match sdk.cachePath with
  | none => release
  | some _ => do
    let _ ← clear
    release

/-- Whether the cache holds a verifiable token for `activationId`. -/
def holdsActivation (activationId : String) : Act Bool := do
  match ← loadCache sdk with
  | none => .ret false
  | some (token, chain) => do
    let now ← clock
    match ← orAbort (verifyActivationAnyAt P.toCrypto sdk.masterPubs token chain now) with
    | .error _ => .ret false
    | .ok license => .ret (license.activationId = activationId)

/-- `matches!(outcome, Err(LatteError::Network(_)))`. -/
def isNetwork {T : Type} : Except LatteError T → Bool
  | .error (.network _) => true
  | _ => false

/-- Records how a renewal of `activationId` ended and returns whether the cache still holds that
activation. -/
def noteRenewal {T : Type} (activationId : String) (outcome : Except LatteError T) :
    Act Bool := do
  let holds ← holdsActivation sdk activationId
  noteFlag activationId (isNetwork outcome) (isNetwork outcome && holds)
  .ret holds

/-! ### The network -/

def credentials (activationId licenseKey : String) (machineName : Option String) : Body :=
  .credentials ⟨activationId, licenseKey, sdk.machineId, machineName, sdkInfo⟩

/-- Posts `body` to `path` and decodes a 2xx answer. -/
def call {T : Type} (client : Client) (path : String) (body : Body)
    (decode : Bytes → Except String T) : Act (Except LatteError T) := do
  let answered ← request client (sdk.baseUrl ++ path) body
  .ret (readReply P path decode answered.reply)

/-- Token-returning POST for `activate` and `renew`. -/
def post (client : Client) (path : String) (body : Body) :
    Act (Except LatteError (String × CertChain)) := do
  match ← call sdk client path body P.tokenResponse with
  | .error e => .ret (.error e)
  | .ok result => .ret (checkTokenResponse result)

/-- `post`, and on an answer that means that this activation no longer exists, drops any cached
token. -/
def postAndHandleInvalidation (path : String) (body : Body) :
    Act (Except LatteError (String × CertChain)) := do
  match ← post sdk .http path body with
  | .ok tc => .ret (.ok tc)
  | .error e =>
    if e.invalidates then do
      clearCache sdk
      .ret (.error e)
    else .ret (.error e)

def verifyAndValidate (token : String) (chain : CertChain) :
    Act (Except LatteError PublicLicense) := do
  let now ← clock
  match ← orAbort (checkLicenseAnyAtWithRenewalFailed P.toCrypto sdk.masterPubs token chain
      sdk.machineId now false) with
  | .error e => .ret (.error (.server s!"server returned invalid token: {e.display}"))
  | .ok lic => .ret (.ok lic)

/-! ### The methods -/

/-- A minimal local sanity check, not a format check. -/
def validateLicenseKey (normalized : String) : Except LatteError Unit :=
  if normalized = "" ∨ normalized.utf8ByteSize > 256 then .error .invalidKey else .ok ()

/-- The cached licence with its alias, if it verifies and validates. -/
def cachedLicense : Act (Option (PublicLicense × String)) := do
  match ← loadCache sdk with
  | none => .ret none
  | some (token, chain) => do
    let now ← clock
    match ← orAbort (verifyActivationAnyAt P.toCrypto sdk.masterPubs token chain now) with
    | .error _ => .ret none
    | .ok license => do
      match ← orAbort (validateAt license sdk.machineId now) with
      | .error _ => .ret none
      | .ok () => do
        let failed ← loadFlag
        .ret (some (toPublicLicense license (inGracePeriod license now failed), license.aliasKey))

/-- The part of `activate` after the fast path. -/
def activateOnline (normalized : String) : Act (Except LatteError PublicLicense) := do
  let body := Body.activate ⟨sdk.appId, normalized, sdk.machineId, sdk.machineName, sdkInfo⟩
  match ← postAndHandleInvalidation sdk "/v1/activate" body with
  | .error e => .ret (.error e)
  | .ok (token, chain) => do
    match ← verifyAndValidate sdk token chain with
    | .error e => .ret (.error e)
    | .ok lic => do
      saveToCache sdk token chain
      .ret (.ok lic)

def activate (licenseKey : String) : Act (Except LatteError PublicLicense) :=
  let sanitized := sanitizeKey P.toUppercase licenseKey
  let normalized := normalizeKey P.toUppercase licenseKey
  match validateLicenseKey normalized with
  | .error e => .ret (.error e)
  | .ok () => do
    match ← cachedLicense sdk with
    | none => activateOnline sdk normalized
    | some (lic, aliasKey) =>
      if lic.key = sanitized ∨ (aliasKey ≠ "" ∧ aliasKey = normalized) then .ret (.ok lic)
      else activateOnline sdk normalized

def renew (activationId licenseKey : String) : Act (Except LatteError PublicLicense) := do
  let now ← clock
  acquire
  let state ← getRenewal
  setRenewal { state with lastAttempt := some now }
  release
  let renewed ← postAndHandleInvalidation sdk "/v1/renew"
    (credentials sdk activationId licenseKey none)
  acquire
  let _ ← noteRenewal sdk activationId renewed
  release
  match renewed with
  | .error e => .ret (.error e)
  | .ok (token, chain) => do
    match ← verifyAndValidate sdk token chain with
    | .error e => .ret (.error e)
    | .ok lic => do
      saveToCache sdk token chain
      .ret (.ok lic)

def deactivate (activationId licenseKey : String) : Act (Except LatteError DeactivateResult) := do
  match ← call sdk .http "/v1/deactivate" (credentials sdk activationId licenseKey none)
      P.deactivateResult with
  | .error e => .ret (.error e)
  | .ok result => do
    clearCache sdk
    .ret (.ok result)

def machines (activationId licenseKey : String) : Act (Except LatteError (List Machine)) :=
  call sdk .http "/v1/machines" (credentials sdk activationId licenseKey none) P.machinesResponse

def renameMachine (activationId licenseKey name : String) : Act (Except LatteError String) :=
  call sdk .http "/v1/machines/rename" (credentials sdk activationId licenseKey (some name))
    P.renameResponse

/-! ### Background renewal -/

def renewAfter : Duration := Duration.fromSecs (60 * 60)
def renewRetry : Duration := Duration.fromSecs (5 * 60)

/-- `now.duration_since(t).unwrap_or(ZERO)`. -/
def since (now t : SystemTime) : Duration := (now.durationSince t).getD 0

/-- Starts a background renewal of `lic` if it is due.  Never blocks. -/
def renewInBackground (lic : License) : Act Unit := do
  let now ← clock
  if since now lic.issuedAt < renewAfter then .ret ()
  else do
    match ← tryAcquire with
    | false => .ret ()
    | true => do
      let state ← getRenewal
      -- a renewal running longer than this is taken to be stuck
      let running := state.inFlight.any fun t => since now t ≤ 2 * renewRetry
      let retriedRecently := state.lastAttempt.any fun t => since now t < renewRetry
      if running || retriedRecently then release
      else if state.attempt + 1 < 2 ^ 64 then do
        let started : Renewal := ⟨state.attempt + 1, some now, some now⟩
        setRenewal started
        match ← start (Task.background started.attempt lic.activationId lic.key) with
        | true => release
        | false => do
          setRenewal { started with inFlight := none }
          release
      else .abort

/-- `InFlight::drop`. -/
def dropInFlight (attempt : ℕ) : Act Unit := do
  acquire
  let state ← getRenewal
  if state.attempt = attempt then do
    setRenewal { state with inFlight := none }
    release
  else release

/-- The request of a background renewal, with the verification of the token it returns. -/
def postVerified (activationId licenseKey : String) :
    Act (Except LatteError (String × CertChain)) := do
  match ← post sdk .backgroundHttp "/v1/renew"
      (credentials sdk activationId licenseKey none) with
  | .error e => .ret (.error e)
  | .ok (token, chain) => do
    match ← verifyAndValidate sdk token chain with
    | .error e => .ret (.error e)
    | .ok _ => .ret (.ok (token, chain))

/-- The write of a background renewal, under the lock. -/
def storeRenewed (renewed : Except LatteError (String × CertChain)) : Act Unit := do
  match renewed with
  | .ok (token, chain) => do
    let _ ← save token chain
    release
  | .error e =>
    if e.invalidates then do
      let _ ← clear
      release
    else release

/-- Background renewal number `attempt`. -/
def renewAndStore (attempt : ℕ) (activationId licenseKey : String) : Act Unit := do
  let renewed ← postVerified sdk activationId licenseKey
  acquire
  let state ← getRenewal
  if state.attempt ≠ attempt then do
    release
    dropInFlight attempt
  else do
    let holds ← noteRenewal sdk activationId renewed
    if holds && sdk.cachePath.isSome then do
      storeRenewed renewed
      dropInFlight attempt
    else do
      release
      dropInFlight attempt

/-- Reads the cached activation without a network call, and renews it in the background. -/
def check : Act (Except LatteError PublicLicense) := do
  match ← loadCache sdk with
  | none => .ret (.error .notActivated)
  | some (token, chain) => do
    let now ← clock
    match ← orAbort (verifyActivationAnyAt P.toCrypto sdk.masterPubs token chain now) with
    | .error _ => .ret (.error .notActivated)
    | .ok license => do
      let verdict ← orAbort (validateAt license sdk.machineId now)
      -- a token past its grace window still names an activation that can be renewed
      (if license.machineId = sdk.machineId ∧ license.activationId ≠ "" ∧ license.key ≠ "" then
        renewInBackground license
      else .ret ())
      match verdict with
      | .ok () => do
        let failed ← loadFlag
        .ret (.ok (toPublicLicense license (inGracePeriod license now failed)))
      | .error .hardExpired => .ret (.error .licenseExpired)
      | .error _ => .ret (.error .notActivated)

/-! ### Tasks -/

/-- What a thread with a task runs. -/
def Sdk.body : Task → Act Outcome
  | .activate licenseKey => do .ret (.license (← activate sdk licenseKey))
  | .renew activationId licenseKey => do .ret (.license (← renew sdk activationId licenseKey))
  | .deactivate activationId licenseKey => do
    .ret (.deactivated (← deactivate sdk activationId licenseKey))
  | .machines activationId licenseKey => do
    .ret (.machines (← machines sdk activationId licenseKey))
  | .renameMachine activationId licenseKey name => do
    .ret (.renamed (← renameMachine sdk activationId licenseKey name))
  | .check => do .ret (.license (← check sdk))
  | .background attempt activationId licenseKey => do
    renewAndStore sdk attempt activationId licenseKey
    .ret .renewed

end LatteRs
