import LatteRs.Window

/-!
# What the check of a stored token answers

The answer for a list of master keys is that of one of them, and for a token that
verifies it depends on the time as follows: first the licence, then `GraceExpired`
or `HardExpired`, and never `LicenseTooOld`.

* `verifyActivationAt`, `checkLicenseAtWithRenewalFailed`, `checkLicenseAt`,
  `isValid`;
* `KeyFor`, `master_keys_agree`: lists of master keys;
* `validateFields`, `verdict_over_time`: the answers over time.
-/

namespace LatteRs

open Checked

variable {C : Crypto} {masterPubs : List C.VerifyingKey} {token : String} {chain : CertChain}
  {machineId : String} {now : SystemTime} {renewalFailed : Bool}

/-! ### One master key -/

/-- `verifyActivationAnyAt`, trusting one key. -/
def verifyActivationAt (C : Crypto) (masterPub : C.VerifyingKey) (token : String)
    (chain : CertChain) (now : SystemTime) : Checked VerifyError License :=
  verifyActivationAnyAt C [masterPub] token chain now

/-- The check with one master key. -/
def checkLicenseAtWithRenewalFailed (C : Crypto) (masterPub : C.VerifyingKey) (token : String)
    (chain : CertChain) (machineId : String) (now : SystemTime) (renewalFailed : Bool) :
    Checked CheckError PublicLicense :=
  checkLicenseAnyAtWithRenewalFailed C [masterPub] token chain machineId now renewalFailed

def checkLicenseAt (C : Crypto) (masterPub : C.VerifyingKey) (token : String)
    (chain : CertChain) (machineId : String) (now : SystemTime) :
    Checked CheckError PublicLicense :=
  checkLicenseAtWithRenewalFailed C masterPub token chain machineId now false

/-- The key verifies the submaster certificate of the chain. -/
def KeyFor (C : Crypto) (chain : CertChain) (now : SystemTime) (m : C.VerifyingKey) : Prop :=
  ∃ sub, parseAndVerify C chain.submaster m issuer now = .ok sub

/-- The check depends on the keys only through the submaster certificate. -/
theorem check_congr {masterPubs' : List C.VerifyingKey}
    (h : verifySubmaster C chain.submaster now masterPubs (fail .invalidSignature) =
      verifySubmaster C chain.submaster now masterPubs' (fail .invalidSignature)) :
    checkLicenseAnyAtWithRenewalFailed C masterPubs token chain machineId now renewalFailed =
      checkLicenseAnyAtWithRenewalFailed C masterPubs' token chain machineId now
        renewalFailed := by
  unfold checkLicenseAnyAtWithRenewalFailed verifyActivationAnyAt verifyChain verifyCerts
  rw [h]

theorem verifySubmaster_single (m : C.VerifyingKey) (e : VerifyError) :
    verifySubmaster C chain.submaster now [m] (fail e) =
      parseAndVerify C chain.submaster m issuer now := by
  unfold verifySubmaster
  cases hm : parseAndVerify C chain.submaster m issuer now with
  | ok sub => rfl
  | error halt => cases halt <;> rfl

/-- When no key verifies the certificate, the answer is the last one's. -/
theorem verifySubmaster_last {front : List C.VerifyingKey} {m : C.VerifyingKey} {e : VerifyError}
    (h : ∀ k ∈ front, ¬ KeyFor C chain now k) :
    verifySubmaster C chain.submaster now (front ++ [m]) (fail e) =
      parseAndVerify C chain.submaster m issuer now := by
  induction front generalizing e with
  | nil => exact verifySubmaster_single m e
  | cons k front ih =>
    have hrest : ∀ k ∈ front, ¬ KeyFor C chain now k := fun k hk =>
      h k (List.mem_cons_of_mem _ hk)
    rw [List.cons_append, verifySubmaster]
    cases hk : parseAndVerify C chain.submaster k issuer now with
    | ok sub => exact absurd ⟨sub, hk⟩ (h k List.mem_cons_self)
    | error halt =>
      cases halt with
      | panic => exact absurd hk (parseAndVerify_ne_panic C _ k now)
      | err e' => exact ih hrest

/-- The answer of a key that verifies the certificate is that of the list. -/
theorem check_of_keyFor {m : C.VerifyingKey} (hm : m ∈ masterPubs) (h : KeyFor C chain now m) :
    checkLicenseAnyAtWithRenewalFailed C masterPubs token chain machineId now renewalFailed =
      checkLicenseAtWithRenewalFailed C m token chain machineId now renewalFailed := by
  obtain ⟨sub, hsub⟩ := h
  refine check_congr ?_
  rw [verifySubmaster_single, hsub]
  exact verifySubmaster_eq_ok.2 ⟨m, hm, hsub⟩

theorem keyFor_of_check {lic : PublicLicense}
    (h : checkLicenseAnyAtWithRenewalFailed C masterPubs token chain machineId now renewalFailed =
      .ok lic) : ∃ m ∈ masterPubs, KeyFor C chain now m := by
  obtain ⟨license, hverify, -⟩ := checkLicenseAnyAtWithRenewalFailed_eq_ok.1 h
  obtain ⟨links, hlinks, -⟩ := bind_eq_ok.1 hverify
  obtain ⟨certs, hcerts, -⟩ := bind_eq_ok.1 hlinks
  obtain ⟨sub, hsub, -⟩ := bind_eq_ok.1 hcerts
  obtain ⟨m, hm, hparse⟩ := verifySubmaster_eq_ok.1 hsub
  exact ⟨m, hm, sub, hparse⟩

/-- **Lists of master keys.**  The answer of the check, licence, error or panic, is that of each
key of the list that verifies the submaster certificate, and when there is none that of the last
key.  So further keys, another order and repetitions change no answer of a chain that one of the
keys is for, and no licence. -/
theorem master_keys_agree (C : Crypto) (masterPubs : List C.VerifyingKey) (token : String)
    (chain : CertChain) (machineId : String) (now : SystemTime) (renewalFailed : Bool) :
    (∀ m ∈ masterPubs, KeyFor C chain now m →
      checkLicenseAnyAtWithRenewalFailed C masterPubs token chain machineId now renewalFailed =
        checkLicenseAtWithRenewalFailed C m token chain machineId now renewalFailed) ∧
    (∀ m ∈ masterPubs.getLast?, (∀ k ∈ masterPubs, ¬ KeyFor C chain now k) →
      checkLicenseAnyAtWithRenewalFailed C masterPubs token chain machineId now renewalFailed =
        checkLicenseAtWithRenewalFailed C m token chain machineId now renewalFailed) ∧
    ∀ masterPubs', masterPubs ⊆ masterPubs' →
      ((∃ m ∈ masterPubs, KeyFor C chain now m) →
        checkLicenseAnyAtWithRenewalFailed C masterPubs' token chain machineId now renewalFailed =
          checkLicenseAnyAtWithRenewalFailed C masterPubs token chain machineId now
            renewalFailed) ∧
      ∀ lic, checkLicenseAnyAtWithRenewalFailed C masterPubs token chain machineId now
          renewalFailed = .ok lic →
        checkLicenseAnyAtWithRenewalFailed C masterPubs' token chain machineId now renewalFailed =
          .ok lic := by
  have hmore : ∀ masterPubs', masterPubs ⊆ masterPubs' →
      (∃ m ∈ masterPubs, KeyFor C chain now m) →
      checkLicenseAnyAtWithRenewalFailed C masterPubs' token chain machineId now renewalFailed =
        checkLicenseAnyAtWithRenewalFailed C masterPubs token chain machineId now
          renewalFailed := by
    rintro masterPubs' hsub ⟨m, hm, hkey⟩
    rw [check_of_keyFor hm hkey, check_of_keyFor (hsub hm) hkey]
  refine ⟨fun m hm hkey => check_of_keyFor hm hkey, ?_, fun masterPubs' hsub =>
    ⟨hmore masterPubs' hsub, fun lic hlic => ?_⟩⟩
  · intro m hm hnone
    obtain ⟨front, hfront⟩ := List.getLast?_eq_some_iff.1 hm
    refine check_congr ?_
    rw [verifySubmaster_single, hfront]
    exact verifySubmaster_last fun k hk => hnone k (by rw [hfront]; exact List.mem_append_left _ hk)
  · rw [hmore masterPubs' hsub (keyFor_of_check hlic), hlic]

/-- The second key is the one for the sample chain; the first comes again behind it. -/
theorem master_keys_agree_sample :
    checkLicenseAnyAtWithRenewalFailed sampleCrypto ([9, 1, 9] : List UInt8) "h.t.4t" sampleChain
        "m" (sampleAt sampleNow) false =
      checkLicenseAt sampleCrypto (1 : UInt8) "h.t.4t" sampleChain "m" (sampleAt sampleNow) := by
  refine (master_keys_agree sampleCrypto ([9, 1, 9] : List UInt8) "h.t.4t" sampleChain "m"
    (sampleAt sampleNow) false).1 (1 : UInt8)
    (List.mem_cons_of_mem _ List.mem_cons_self) ?_
  unfold KeyFor
  exact ⟨_, by rfl⟩

/-! ### Over time -/

/-- Whether no more than the grace period has passed since `issuedAt`. -/
def isValid (license : License) (now : SystemTime) : Bool :=
  match now.durationSince license.issuedAt with
  | some d => decide (d ≤ license.gracePeriod)
  | none => true

variable {license : License}

theorem isValid_iff :
    isValid license now = true ↔ now.nanos ≤ license.issuedAt.nanos + license.gracePeriod := by
  unfold isValid SystemTime.durationSince
  by_cases h : license.issuedAt ≤ now
  · rw [if_pos h]
    show decide (_ ≤ _) = true ↔ _
    rw [decide_eq_true_iff, Int.toNat_le, sub_le_iff_le_add']
  · rw [if_neg h]
    rw [SystemTime.le_def] at h
    exact iff_of_true rfl (by omega)

/-- A licence in its grace period is valid. -/
theorem isValid_of_inGracePeriod (h : inGracePeriod license now renewalFailed = true) :
    isValid license now = true := by
  unfold inGracePeriod at h
  unfold isValid
  cases renewalFailed with
  | false => cases h
  | true =>
    cases hd : now.durationSince license.issuedAt with
    | none => rfl
    | some d =>
      simp only [hd, if_true, decide_eq_true_eq] at h
      exact decide_eq_true h.2.le

/-- The part of `validate_at` before the deadline is known, and the deadline. -/
def validateFields (license : License) (machineId : String) :
    Checked ValidateError SystemTime := do
  ensure (license.issuedAt ≠ SystemTime.unixEpoch) (.invalidFields "issued_at is zero")
  ensure (license.expiresAt ≠ SystemTime.unixEpoch) (.invalidFields "expires_at is zero")
  ensure (license.gracePeriod ≠ 0) (.invalidFields "grace_period is zero or negative")
  ensure (license.machineId = machineId) .machineIdMismatch
  ensure (¬ license.expiresAt < license.issuedAt)
    (.invalidFields "expires_at is before issued_at")
  license.issuedAt.add license.gracePeriod

/-- The part that looks at the clock. -/
def validateClock (license : License) (now offlineDeadline : SystemTime) :
    Checked ValidateError Unit := do
  ensure (¬ now > license.expiresAt) .hardExpired
  ensure (¬ now > offlineDeadline) .graceExpired
  ensure (¬ (now.durationSince license.issuedAt).getD 0 > maxAge) .licenseTooOld

theorem validateAt_eq_bind (license : License) (machineId : String) (now : SystemTime) :
    validateAt license machineId now =
      validateFields license machineId >>= fun deadline => validateClock license now deadline := by
  unfold validateAt validateFields validateClock
  simp only [bind_assoc]

theorem validateFields_eq_ok {deadline : SystemTime} :
    validateFields license machineId = .ok deadline ↔
      ValidFields license machineId ∧
        deadline.nanos = license.issuedAt.nanos + license.gracePeriod := by
  unfold validateFields SystemTime.add
  simp only [bind_eq_ok, ensure_eq_ok, SystemTime.ofNanos_eq_ok, not_lt]
  constructor
  · rintro ⟨-, hi, -, he, -, hg, -, hm, -, hie, hd⟩
    have hlt := deadline.nanos_lt
    exact ⟨⟨hi, he, Nat.pos_of_ne_zero hg, hm, hie, by omega⟩, hd⟩
  · rintro ⟨⟨hi, he, hg, hm, hie, -⟩, hd⟩
    exact ⟨(), hi, (), he, (), hg.ne', (), hm, (), hie, hd⟩

/-- The errors that do not depend on the clock. -/
theorem validateFields_eq_error {halt : Halt ValidateError}
    (h : validateFields license machineId = .error halt) :
    halt = .panic ∨ halt = .err .machineIdMismatch ∨ ∃ what, halt = .err (.invalidFields what) := by
  unfold validateFields at h
  simp only [bind_eq_error, ensure_eq_error, ensure_eq_ok] at h
  rcases h with ⟨-, rfl⟩ | ⟨-, -, ⟨-, rfl⟩ | ⟨-, -, ⟨-, rfl⟩ | ⟨-, -, ⟨-, rfl⟩ | ⟨-, -, ⟨-, rfl⟩ |
    ⟨-, -, hadd⟩⟩⟩⟩⟩
  · exact Or.inr (Or.inr ⟨_, rfl⟩)
  · exact Or.inr (Or.inr ⟨_, rfl⟩)
  · exact Or.inr (Or.inr ⟨_, rfl⟩)
  · exact Or.inr (Or.inl rfl)
  · exact Or.inr (Or.inr ⟨_, rfl⟩)
  · unfold SystemTime.add SystemTime.ofNanos at hadd
    split_ifs at hadd
    exact Or.inl (Except.error.inj hadd).symm

/-- The verdict on a verified licence whose fields are valid: by the end of the licence and by the
grace period, and not by its age. -/
theorem validateAt_verified
    (hverify : verifyActivationAnyAt C masterPubs token chain now = .ok license)
    (hfields : ValidFields license machineId) :
    validateAt license machineId now =
      if license.expiresAt < now then fail .hardExpired
      else if isValid license now then .ok () else fail .graceExpired := by
  have hgrace := gracePeriod_le hverify
  have hlow := license.issuedAt.le_nanos
  have hlt := hfields.deadline_lt
  obtain ⟨deadline, hdeadline⟩ : ∃ deadline : SystemTime,
      deadline.nanos = license.issuedAt.nanos + license.gracePeriod :=
    ⟨⟨license.issuedAt.nanos + license.gracePeriod, by omega, hlt⟩, rfl⟩
  have hvalid : isValid license now = true ↔ ¬ now > deadline := by
    rw [isValid_iff, gt_iff_lt, not_lt, SystemTime.le_def, hdeadline]
  rw [validateAt_eq_bind, validateFields_eq_ok.2 ⟨hfields, hdeadline⟩, ok_bind]
  unfold validateClock ensure
  by_cases hend : license.expiresAt < now
  · rw [if_neg (not_not_intro hend), if_pos hend]
    rfl
  · rw [if_pos hend, if_neg hend, ok_bind]
    by_cases hover : now > deadline
    · rw [if_neg (not_not_intro hover), if_neg (mt hvalid.1 (not_not_intro hover))]
      rfl
    · -- the age is at most the grace period, which is below a year
      have hage : ¬ (now.durationSince license.issuedAt).getD 0 > maxAge := by
        rw [gt_iff_lt, not_lt, SystemTime.le_def, hdeadline] at hover
        rw [SystemTime.durationSince_getD, gt_iff_lt, not_lt, Int.toNat_le]
        rw [maxAge_eq]
        omega
      rw [if_pos hover, ok_bind, if_pos hage, if_pos (hvalid.2 hover)]

/-- The check of a token that verifies is the validation of its licence. -/
theorem check_verified (hverify : verifyActivationAnyAt C masterPubs token chain now =
    .ok license) :
    checkLicenseAnyAtWithRenewalFailed C masterPubs token chain machineId now renewalFailed =
      (mapErr .validate (validateAt license machineId now) >>= fun _ =>
        .ok (toPublicLicense license (inGracePeriod license now renewalFailed))) := by
  unfold checkLicenseAnyAtWithRenewalFailed
  rw [hverify]
  rfl

/-- **The verdict over time.**  For a licence that verifies and whose fields are valid for this
machine, the check answers with the licence while it is valid and has not ended, with
`GraceExpired` when it is no longer valid and has not ended, and with `HardExpired` once it has
ended; a licence reported in its grace period is valid.  When the fields are not valid,
validation ends in the same way at all times.  The check never answers with `LicenseTooOld`. -/
theorem verdict_over_time (C : Crypto) (masterPubs : List C.VerifyingKey) (token : String)
    (chain : CertChain) (machineId : String) (now : SystemTime) (renewalFailed : Bool) :
    (∀ license, verifyActivationAnyAt C masterPubs token chain now = .ok license →
      (ValidFields license machineId →
        checkLicenseAnyAtWithRenewalFailed C masterPubs token chain machineId now renewalFailed =
          if license.expiresAt < now then fail (.validate .hardExpired)
          else if isValid license now then
            .ok (toPublicLicense license (inGracePeriod license now renewalFailed))
          else fail (.validate .graceExpired)) ∧
      (¬ ValidFields license machineId → ∃ halt,
        (∀ now', validateAt license machineId now' = .error halt) ∧
          (halt = .panic ∨ halt = .err .machineIdMismatch ∨
            ∃ what, halt = .err (.invalidFields what))) ∧
      (inGracePeriod license now renewalFailed = true → isValid license now = true)) ∧
    checkLicenseAnyAtWithRenewalFailed C masterPubs token chain machineId now renewalFailed ≠
      fail (.validate .licenseTooOld) := by
  have hinvalid : ∀ license, ¬ ValidFields license machineId → ∃ halt,
      (∀ now', validateAt license machineId now' = .error halt) ∧
        (halt = .panic ∨ halt = .err .machineIdMismatch ∨
          ∃ what, halt = .err (.invalidFields what)) := by
    intro license hfields
    cases hprefix : validateFields license machineId with
    | ok deadline => exact absurd (validateFields_eq_ok.1 hprefix).1 hfields
    | error halt =>
      refine ⟨halt, fun now' => ?_, validateFields_eq_error hprefix⟩
      rw [validateAt_eq_bind, hprefix, error_bind]
  have hvalid : ∀ license, verifyActivationAnyAt C masterPubs token chain now = .ok license →
      ValidFields license machineId →
      checkLicenseAnyAtWithRenewalFailed C masterPubs token chain machineId now renewalFailed =
        if license.expiresAt < now then fail (.validate .hardExpired)
        else if isValid license now then
          .ok (toPublicLicense license (inGracePeriod license now renewalFailed))
        else fail (.validate .graceExpired) := by
    intro license hverify hfields
    rw [check_verified hverify, validateAt_verified hverify hfields]
    split_ifs <;> rfl
  refine ⟨fun license hverify => ⟨hvalid license hverify, hinvalid license,
    isValid_of_inGracePeriod⟩, ?_⟩
  cases hverify : verifyActivationAnyAt C masterPubs token chain now with
  | error halt =>
    unfold checkLicenseAnyAtWithRenewalFailed
    rw [hverify]
    cases halt with
    | panic => exact fun h => by cases h
    | err e => exact fun h => by cases h
  | ok license =>
    by_cases hfields : ValidFields license machineId
    · rw [hvalid license hverify hfields]
      split_ifs <;> exact fun h => by cases h
    · obtain ⟨halt, hhalt, hcases⟩ := hinvalid license hfields
      rw [check_verified hverify, hhalt now]
      rcases hcases with rfl | rfl | ⟨what, rfl⟩ <;> exact fun h => by cases h

/-- The sample token a minute after it was issued. -/
theorem verdict_over_time_sample :
    checkLicenseAnyAtWithRenewalFailed sampleCrypto sampleKeys "h.t.4t" sampleChain "m"
        (sampleAt sampleNow) false =
      .ok (toPublicLicense (sampleLicense "KEY" "a" (sampleAt (sampleNow - 60))) false) := by
  have hvalidate : validateAt (sampleLicense "KEY" "a" (sampleAt (sampleNow - 60))) "m"
      (sampleAt sampleNow) = .ok () := by decide +kernel
  have hverdict := ((verdict_over_time sampleCrypto sampleKeys "h.t.4t" sampleChain "m"
    (sampleAt sampleNow) false).1 _ verify_sample).1 (validateAt_eq_ok.1 hvalidate).1
  rw [hverdict, if_neg (by decide +kernel), if_pos (by decide +kernel)]
  rfl

end LatteRs
