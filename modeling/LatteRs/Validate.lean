import LatteRs.Verify

/-!
# Offline validation and the whole check

`validate.rs`, with the boundary semantics of its comparisons (`>`, never
`>=`), and the pipeline of `lib.rs` that verifies the chain, validates the
licence and projects it onto its public shape.

* `validateAt`, `inGracePeriod`, `PublicLicense`,
  `checkLicenseAnyAtWithRenewalFailed`, `checkLicenseAnyAt`;
* `validateAt_eq_ok`: the window in which a licence validates.
-/

namespace LatteRs

open Checked

def maxAge : Duration := Duration.fromSecs (365 * 24 * 60 * 60)

/-- Validates `license` against `machineId` as of `now`. -/
def validateAt (license : License) (machineId : String) (now : SystemTime) :
    Checked ValidateError Unit := do
  ensure (license.issuedAt ≠ SystemTime.unixEpoch) (.invalidFields "issued_at is zero")
  ensure (license.expiresAt ≠ SystemTime.unixEpoch) (.invalidFields "expires_at is zero")
  ensure (license.gracePeriod ≠ 0) (.invalidFields "grace_period is zero or negative")
  ensure (license.machineId = machineId) .machineIdMismatch
  ensure (¬ license.expiresAt < license.issuedAt)
    (.invalidFields "expires_at is before issued_at")
  let offlineDeadline ← license.issuedAt.add license.gracePeriod
  ensure (¬ now > license.expiresAt) .hardExpired
  ensure (¬ now > offlineDeadline) .graceExpired
  ensure (¬ (now.durationSince license.issuedAt).getD 0 > maxAge) .licenseTooOld

/-- `true` while a failed renewal is known and more than 60 minutes and less than the grace
period have passed since `issuedAt`. -/
def inGracePeriod (license : License) (now : SystemTime) (renewalFailed : Bool) : Bool :=
  if renewalFailed then
    match now.durationSince license.issuedAt with
    | some sinceActivation =>
      decide (sinceActivation > Duration.fromSecs (60 * 60) ∧
        sinceActivation < license.gracePeriod)
    | none => false
  else false

/-- The verified and validated view of a licence. -/
@[ext] structure PublicLicense where
  key : String
  activationId : String
  projectId : String
  issuedAt : SystemTime
  expiresAt : SystemTime
  gracePeriod : Duration
  inGracePeriod : Bool
  licenseType : LicenseType
  metadata : HashMap String
  entitlements : Option (HashMap EntitlementValue)
  deriving DecidableEq

def toPublicLicense (license : License) (inGrace : Bool) : PublicLicense where
  key := license.key
  activationId := license.activationId
  projectId := license.projectId
  issuedAt := license.issuedAt
  expiresAt := license.expiresAt
  gracePeriod := license.gracePeriod
  inGracePeriod := inGrace
  licenseType := license.licenseType
  metadata := license.metadata
  entitlements := license.entitlements

/-- Chain verification, then validation, then the `in_grace_period` computation. -/
def checkLicenseAnyAtWithRenewalFailed (C : Crypto) (masterPubs : List C.VerifyingKey)
    (token : String) (chain : CertChain) (machineId : String) (now : SystemTime)
    (renewalFailed : Bool) : Checked CheckError PublicLicense := do
  let license ← mapErr .verify (verifyActivationAnyAt C masterPubs token chain now)
  mapErr .validate (validateAt license machineId now)
  .ok (toPublicLicense license (inGracePeriod license now renewalFailed))

/-- The check of a caller that knows of no failed renewal. -/
def checkLicenseAnyAt (C : Crypto) (masterPubs : List C.VerifyingKey) (token : String)
    (chain : CertChain) (machineId : String) (now : SystemTime) :
    Checked CheckError PublicLicense :=
  checkLicenseAnyAtWithRenewalFailed C masterPubs token chain machineId now false

/-! ### When a licence validates -/

/-- The part of `validate_at` that does not look at the clock. -/
structure ValidFields (license : License) (machineId : String) : Prop where
  issued : license.issuedAt ≠ SystemTime.unixEpoch
  expires : license.expiresAt ≠ SystemTime.unixEpoch
  grace_pos : 0 < license.gracePeriod
  machine : license.machineId = machineId
  issued_le : license.issuedAt ≤ license.expiresAt
  deadline_lt : license.issuedAt.nanos + license.gracePeriod < 2 ^ 63 * 10 ^ 9

/-- The last moment at which `validate_at` does not reject a licence for its end or its
grace period, in nanoseconds. -/
def License.deadline (license : License) : ℤ :=
  min license.expiresAt.nanos (license.issuedAt.nanos + license.gracePeriod)

theorem validateAt_eq_ok {license : License} {machineId : String} {now : SystemTime} {u : Unit} :
    validateAt license machineId now = .ok u ↔
      ValidFields license machineId ∧ now.nanos ≤ license.deadline ∧
        now.nanos - license.issuedAt.nanos ≤ maxAge := by
  have hlow := license.issuedAt.le_nanos
  have hage : ¬ (now.durationSince license.issuedAt).getD 0 > maxAge ↔
      now.nanos - license.issuedAt.nanos ≤ maxAge := by
    rw [SystemTime.durationSince_getD, gt_iff_lt, not_lt, Int.toNat_le]
  unfold validateAt SystemTime.add License.deadline
  simp only [bind_eq_ok, ensure_eq_ok, SystemTime.ofNanos_eq_ok, hage, gt_iff_lt, not_lt,
    SystemTime.le_def, le_min_iff]
  constructor
  · rintro ⟨-, hi, -, he, -, hg, -, hm, -, hie, d, hd, -, hexp, -, hdead, hmax⟩
    have hlt := d.nanos_lt
    exact ⟨⟨hi, he, Nat.pos_of_ne_zero hg, hm, hie, by omega⟩, ⟨hexp, by omega⟩, hmax⟩
  · rintro ⟨⟨hi, he, hg, hm, hie, hlt⟩, ⟨hexp, hdead⟩, hmax⟩
    exact ⟨(), hi, (), he, (), hg.ne', (), hm, (), hie,
      ⟨license.issuedAt.nanos + license.gracePeriod, by omega, hlt⟩, rfl, (), hexp, (), hdead,
      hmax⟩

theorem inGracePeriod_false (license : License) (now : SystemTime) :
    inGracePeriod license now false = false := rfl

/-- The check succeeds exactly when the chain verifies and the licence validates. -/
theorem checkLicenseAnyAtWithRenewalFailed_eq_ok {C : Crypto} {masterPubs : List C.VerifyingKey}
    {token : String} {chain : CertChain} {machineId : String} {now : SystemTime} {failed : Bool}
    {lic : PublicLicense} :
    checkLicenseAnyAtWithRenewalFailed C masterPubs token chain machineId now failed = .ok lic ↔
      ∃ license, verifyActivationAnyAt C masterPubs token chain now = .ok license ∧
        validateAt license machineId now = .ok () ∧
        toPublicLicense license (inGracePeriod license now failed) = lic := by
  unfold checkLicenseAnyAtWithRenewalFailed
  simp only [bind_eq_ok, mapErr_eq_ok, Except.ok.injEq]
  constructor
  · rintro ⟨l, hl, _, hv, h⟩
    exact ⟨l, hl, hv, h⟩
  · rintro ⟨l, hl, hv, h⟩
    exact ⟨l, hl, (), hv, h⟩

end LatteRs
