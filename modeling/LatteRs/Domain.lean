import LatteRs.Json
import LatteRs.Time

/-!
# Licences, certificate chains and errors

The data of `domain.rs`, `entitlements.rs` and `error.rs`, with the texts of
the errors a verification can end in, and the narrowing of a raw `ent` claim.
`LatteError.invalidates` is the match on three variants that two writers of the
cache make.
-/

namespace LatteRs

/-! ### Entitlements -/

/-- One entitlement's value: a boolean, or a 64-bit signed integer. -/
inductive EntitlementValue
  | bool (b : Bool)
  | int (i : ℤ)
  deriving DecidableEq

/-- One value of a raw `ent` claim.  A whole-valued number is an integer (`25.0` is 25);
whatever is neither that nor a boolean is dropped. -/
def decodeEntitlement : Value → Option EntitlementValue
  | .bool b => some (.bool b)
  | .number n =>
    match n.asI64 with
    | some i => some (.int i)
    | none =>
      if n.asF64.isInteger ∧ Checked.InI64 n.asF64.trunc then some (.int n.asF64.trunc) else none
  | _ => none

/-- Narrows a raw `ent` claim to booleans and integers; `none` when the claim is absent or
is not an object. -/
def decodeEntitlements (claims : Map) : Option (HashMap EntitlementValue) := do
  let raw ← (← claims.get "ent").asObject
  some <| raw.foldl
    (fun out entry =>
      match decodeEntitlement entry.2 with
      | some decoded => out.insert entry.1 decoded
      | none => out) ∅

/-! ### Licences -/

/-- The policy type of a licence, from the token's `ltype` claim. -/
inductive LicenseType
  | perpetual
  | expiring
  | other (s : String)
  deriving DecidableEq

def LicenseType.fromClaim (s : String) : LicenseType :=
  if s = "perpetual" then .perpetual else if s = "expiring" then .expiring else .other s

/-- A licence whose chain verified and whose grace window is not validated yet. -/
@[ext] structure License where
  key : String
  /-- The `alias` claim: the legacy key this licence was resolved from, or empty. -/
  aliasKey : String
  activationId : String
  projectId : String
  machineId : String
  issuedAt : SystemTime
  expiresAt : SystemTime
  gracePeriod : Duration
  licenseType : LicenseType
  metadata : HashMap String
  entitlements : Option (HashMap EntitlementValue)
  deriving DecidableEq

/-- The three certificates under a master key that was agreed on beforehand. -/
structure CertChain where
  submaster : String
  project : String
  daily : String
  deriving DecidableEq

/-! ### Errors -/

inductive VerifyError
  | malformed (s : String)
  | invalidSignature
  | missingClaim (claim : String)
  | invalidClaim (claim why : String)
  | wrongIssuer
  | notYetValid
  | expired
  | chainInconsistent (s : String)
  deriving DecidableEq

/-- The text of a `VerifyError`. -/
def VerifyError.display : VerifyError → String
  | malformed s => s!"malformed token: {s}"
  | invalidSignature => "invalid signature"
  | missingClaim c => s!"missing claim: {c}"
  | invalidClaim c why => s!"invalid claim {c}: {why}"
  | wrongIssuer => "unexpected issuer"
  | notYetValid => "token used before issued"
  | expired => "token is expired"
  | chainInconsistent s => s!"chain inconsistent: {s}"

inductive ValidateError
  | hardExpired
  | graceExpired
  | licenseTooOld
  | machineIdMismatch
  | invalidFields (s : String)
  deriving DecidableEq

/-- The text of a `ValidateError`. -/
def ValidateError.display : ValidateError → String
  | hardExpired => "license expired"
  | graceExpired => "grace period expired"
  | licenseTooOld => "license too old"
  | machineIdMismatch => "machine ID does not match"
  | invalidFields s => s!"invalid license: {s}"

/-- Everything that can go wrong checking a cached activation. -/
inductive CheckError
  | verify (e : VerifyError)
  | validate (e : ValidateError)
  deriving DecidableEq

/-- The text of a `CheckError`. -/
def CheckError.display : CheckError → String
  | verify e => e.display
  | validate e => e.display

inductive AppIdError
  | invalidFormat
  | unknownEnvironment (env : String)
  | invalidKeySegment
  | invalidChecksum
  deriving DecidableEq

/-- The error of the `Sdk` methods. -/
inductive LatteError
  | invalidKey
  | licenseExpired
  | notActivated
  | seatLimit
  | licenseNotFound
  | invalidProjectKey
  | deactivationBlocked (message reason : String) (availableAt : Option SystemTime)
  | invalidAppId (e : AppIdError)
  | machineIdUnavailable
  | storage (s : String)
  | network (s : String)
  | server (s : String)
  deriving DecidableEq

/-- The three errors that say that an activation no longer exists. -/
def LatteError.invalidates : LatteError → Bool
  | licenseNotFound | licenseExpired | invalidProjectKey => true
  | _ => false

end LatteRs
