import LatteRs.Acceptance

/-!
# When a stored token is accepted

Time enters the check of a stored token in seven comparisons: the start and the
end of the certificates in whole seconds, and the grace period, the end and the
age of the licence at exact instants.  Together they are one interval.

* `current_iff`: the certificates are current from `notBefore` to `notAfter`;
* `accepted_iff`: once accepted, a token is accepted exactly in that interval,
  up to the deadline of its licence, and with the same licence;
* `acceptance_window`, `offline_ceiling` and `verifies_offline`: what follows
  for a device that is offline.
-/

namespace LatteRs

open Checked

/-- The numeric values among the claims `keys` of a certificate. -/
def certTimes (C : Crypto) (keys : List String) (cert : String) : List ℤ :=
  match payloadClaims C cert with
  | some claims => keys.filterMap (claimI64 claims)
  | none => []

/-- The largest `iat` or `nbf` of the three certificates, if there is any. -/
def notBefore (C : Crypto) (chain : CertChain) : Option ℤ :=
  ([chain.submaster, chain.project, chain.daily].flatMap (certTimes C ["iat", "nbf"])).max?

/-- The smallest `exp` of the submaster and project certificates, if there is any. -/
def notAfter (C : Crypto) (chain : CertChain) : Option ℤ :=
  ([chain.submaster, chain.project].flatMap (certTimes C ["exp"])).min?

/-- Whole second `secs` lies between the two bounds, where they exist. -/
def InWindow (C : Crypto) (chain : CertChain) (secs : ℤ) : Prop :=
  (∀ start ∈ notBefore C chain, start ≤ secs) ∧ ∀ stop ∈ notAfter C chain, secs ≤ stop

theorem mem_certTimes {C : Crypto} {keys : List String} {cert : String} {claims : Map}
    (h : payloadClaims C cert = some claims) {v : ℤ} :
    v ∈ certTimes C keys cert ↔ ∃ key ∈ keys, claimI64 claims key = some v := by
  unfold certTimes
  rw [h]
  simp

theorem max?_le {xs : List ℤ} {b : ℤ} : (∀ v ∈ xs.max?, v ≤ b) ↔ ∀ v ∈ xs, v ≤ b := by
  cases h : xs.max? with
  | none =>
    rw [List.max?_eq_none_iff] at h
    simp [h]
  | some top => simpa using List.max?_le_iff h

theorem le_min? {xs : List ℤ} {b : ℤ} : (∀ v ∈ xs.min?, b ≤ v) ↔ ∀ v ∈ xs, b ≤ v := by
  cases h : xs.min? with
  | none =>
    rw [List.min?_eq_none_iff] at h
    simp [h]
  | some low => simpa using List.le_min?_iff h

/-- The certificates are current exactly from `notBefore` to `notAfter`. -/
theorem current_iff {C : Crypto} {m : C.VerifyingKey} {token : String} {chain : CertChain}
    {l : ChainClaims} (hsig : ChainSigned C m token chain l) {now : SystemTime} :
    l.Current now ↔ InWindow C chain now.unixSecs := by
  obtain ⟨hs, hp, hd, -⟩ := hsig.payloads
  have hstart : (∀ start ∈ notBefore C chain, start ≤ now.unixSecs) ↔
      ∀ cert ∈ [l.submaster, l.project, l.daily], ∀ key ∈ ["iat", "nbf"], ∀ v,
        claimI64 cert key = some v → v ≤ now.unixSecs := by
    unfold notBefore
    rw [max?_le]
    simp only [List.flatMap_cons, List.flatMap_nil, List.mem_append, mem_certTimes hs,
      mem_certTimes hp, mem_certTimes hd]
    simp only [List.mem_cons, List.not_mem_nil, or_false, forall_eq, exists_eq_or_imp,
      exists_eq_left, or_imp, forall_and]
    exact ⟨fun ⟨⟨si, sn⟩, ⟨pi, pn⟩, di, dn⟩ => ⟨⟨si, pi, di⟩, sn, pn, dn⟩,
      fun ⟨⟨si, pi, di⟩, sn, pn, dn⟩ => ⟨⟨si, sn⟩, ⟨pi, pn⟩, di, dn⟩⟩
  have hstop : (∀ stop ∈ notAfter C chain, now.unixSecs ≤ stop) ↔
      ∀ cert ∈ [l.submaster, l.project], ∀ v,
        claimI64 cert "exp" = some v → now.unixSecs ≤ v := by
    unfold notAfter
    rw [le_min?]
    simp only [List.flatMap_cons, List.flatMap_nil, List.mem_append, mem_certTimes hs,
      mem_certTimes hp]
    simp only [List.mem_cons, List.not_mem_nil, or_false, forall_eq, exists_eq_left, or_imp,
      forall_and]
  unfold InWindow
  rw [hstart, hstop]
  exact ⟨fun h => ⟨h.started, h.unexpired⟩, fun h => ⟨h.1, h.2⟩⟩

/-! ### The interval -/

/-- Accepted at one time, a token is accepted by the verification exactly while its
certificates are current, and describes the same licence then. -/
theorem verified_iff {C : Crypto} {masterPubs : List C.VerifyingKey} {token : String}
    {chain : CertChain} {t₀ : SystemTime} {license : License}
    (h : verifyActivationAnyAt C masterPubs token chain t₀ = .ok license) {now : SystemTime}
    {license' : License} :
    verifyActivationAnyAt C masterPubs token chain now = .ok license' ↔
      InWindow C chain now.unixSecs ∧ license' = license := by
  obtain ⟨m, hm, l, hsig, hiss, -, hfit, hcons, hdesc⟩ := verifyActivationAnyAt_eq_ok.1 h
  rw [← current_iff hsig, verifyActivationAnyAt_eq_ok]
  constructor
  · rintro ⟨m', -, l', hsig', -, hcur, -, -, hdesc'⟩
    cases hsig.unique hsig'
    exact ⟨hcur, hdesc'.unique hdesc⟩
  · rintro ⟨hcur, rfl⟩
    exact ⟨m, hm, l, hsig, hiss, hcur, hfit, hcons, hdesc⟩

/-- The grace period of a verified licence is at most 90 days. -/
theorem gracePeriod_le {C : Crypto} {masterPubs : List C.VerifyingKey} {token : String}
    {chain : CertChain} {now : SystemTime} {license : License}
    (h : verifyActivationAnyAt C masterPubs token chain now = .ok license) :
    (license.gracePeriod : ℤ) ≤ 90 * 24 * 60 * 60 * 10 ^ 9 := by
  obtain ⟨m, -, l, -, -, -, -, hcons, hdesc⟩ := verifyActivationAnyAt_eq_ok.1 h
  have := hdesc.gracePeriod
  have := hcons.grace
  omega

theorem maxAge_eq : (maxAge : ℤ) = 365 * 24 * 60 * 60 * 10 ^ 9 := by decide

theorem issued_add_grace {license : License} {t : ℤ} (h : t ≤ license.deadline) :
    t ≤ license.expiresAt.nanos ∧ t ≤ license.issuedAt.nanos + license.gracePeriod :=
  le_min_iff.1 h

/-- **The acceptance window.**  Once a token is accepted, it is accepted exactly from
`notBefore` to `notAfter` and up to the deadline of its licence, always as the same licence. -/
theorem accepted_iff {C : Crypto} {masterPubs : List C.VerifyingKey} {token : String}
    {chain : CertChain} {machineId : String} {t₀ : SystemTime} {lic : PublicLicense}
    (h : checkLicenseAnyAt C masterPubs token chain machineId t₀ = .ok lic) {now : SystemTime}
    {lic' : PublicLicense} :
    checkLicenseAnyAt C masterPubs token chain machineId now = .ok lic' ↔
      (InWindow C chain now.unixSecs ∧
        now.nanos ≤ min lic.expiresAt.nanos (lic.issuedAt.nanos + lic.gracePeriod)) ∧
        lic' = lic := by
  obtain ⟨license, hver, hval, rfl⟩ := checkLicenseAnyAtWithRenewalFailed_eq_ok.1 h
  obtain ⟨hfields, -, -⟩ := validateAt_eq_ok.1 hval
  have hdeadline : min (toPublicLicense license (inGracePeriod license t₀ false)).expiresAt.nanos
      ((toPublicLicense license (inGracePeriod license t₀ false)).issuedAt.nanos +
        (toPublicLicense license (inGracePeriod license t₀ false)).gracePeriod) =
      license.deadline := rfl
  have hgrace := gracePeriod_le hver
  have hage := maxAge_eq
  unfold checkLicenseAnyAt
  rw [hdeadline, checkLicenseAnyAtWithRenewalFailed_eq_ok]
  simp only [verified_iff hver, inGracePeriod_false]
  constructor
  · rintro ⟨_, ⟨hwin, rfl⟩, hval', rfl⟩
    exact ⟨⟨hwin, (validateAt_eq_ok.1 hval').2.1⟩, rfl⟩
  · rintro ⟨⟨hwin, hdead⟩, rfl⟩
    refine ⟨license, ⟨hwin, rfl⟩, validateAt_eq_ok.2 ⟨hfields, hdead, ?_⟩, rfl⟩
    -- a grace period of at most 90 days ends before the licence is too old
    have := (issued_add_grace hdead).2
    omega

/-- A check whose result is a licence. -/
def Accepted (C : Crypto) (masterPubs : List C.VerifyingKey) (token : String)
    (chain : CertChain) (machineId : String) (now : SystemTime) : Prop :=
  ∃ lic, checkLicenseAnyAt C masterPubs token chain machineId now = .ok lic

/-- The times at which a token is accepted have no gap. -/
theorem Accepted.between {C : Crypto} {masterPubs : List C.VerifyingKey} {token : String}
    {chain : CertChain} {machineId : String} {t₁ t t₂ : SystemTime}
    (h₁ : Accepted C masterPubs token chain machineId t₁)
    (h₂ : Accepted C masterPubs token chain machineId t₂) (h1 : t₁ ≤ t) (h2 : t ≤ t₂) :
    Accepted C masterPubs token chain machineId t := by
  obtain ⟨lic, hlic⟩ := h₁
  obtain ⟨lic₂, hlic₂⟩ := h₂
  obtain ⟨⟨⟨hstart, -⟩, -⟩, -⟩ := (accepted_iff hlic).1 hlic
  obtain ⟨⟨⟨-, hstop⟩, hdead⟩, -⟩ := (accepted_iff hlic).1 hlic₂
  have hs1 := SystemTime.unixSecs_mono h1
  have hs2 := SystemTime.unixSecs_mono h2
  rw [SystemTime.le_def] at h2
  refine ⟨lic, (accepted_iff hlic).2 ⟨⟨⟨?_, ?_⟩, h2.trans hdead⟩, rfl⟩⟩
  · intro start hmem
    exact (hstart start hmem).trans hs1
  · intro stop hmem
    exact hs2.trans (hstop stop hmem)

/-- **The acceptance window is one interval.**  Once a token is accepted as `lic`, it is
accepted exactly from `notBefore` to `notAfter` and up to the deadline of `lic`, always as
`lic`; so time never brings back what it rejected, and between two acceptances there is no
rejection. -/
theorem acceptance_window {C : Crypto} {masterPubs : List C.VerifyingKey} {token : String}
    {chain : CertChain} {machineId : String} {t₀ : SystemTime} {lic : PublicLicense}
    (h : checkLicenseAnyAt C masterPubs token chain machineId t₀ = .ok lic) :
    (∀ now lic', checkLicenseAnyAt C masterPubs token chain machineId now = .ok lic' ↔
      (InWindow C chain now.unixSecs ∧
        now.nanos ≤ min lic.expiresAt.nanos (lic.issuedAt.nanos + lic.gracePeriod)) ∧
        lic' = lic) ∧
    (∀ t₁ t₂ t₃, Accepted C masterPubs token chain machineId t₁ → t₁ ≤ t₂ →
      ¬ Accepted C masterPubs token chain machineId t₂ → t₂ ≤ t₃ →
      ¬ Accepted C masterPubs token chain machineId t₃) ∧
    ∀ t₁ t t₂, Accepted C masterPubs token chain machineId t₁ →
      Accepted C masterPubs token chain machineId t₂ → t₁ ≤ t → t ≤ t₂ →
      Accepted C masterPubs token chain machineId t := by
  refine ⟨fun now lic' => accepted_iff h, ?_, fun t₁ t t₂ h₁ h₂ => h₁.between h₂⟩
  intro t₁ t₂ t₃ h₁ h12 hnot h23 h₃
  exact hnot (h₁.between h₃ h12 h23)

/-- What a check of the sample token returns while it is accepted. -/
def samplePublic : PublicLicense :=
  toPublicLicense (sampleLicense "KEY" "a" (sampleAt (sampleNow - 60))) false

theorem check_sample : checkLicenseAnyAt sampleCrypto sampleKeys "h.t.4t" sampleChain "m"
    (sampleAt sampleNow) = .ok samplePublic := by
  decide +kernel

/-- It is still accepted in the last second of its certificates. -/
theorem check_sample_last_second : checkLicenseAnyAt sampleCrypto sampleKeys "h.t.4t"
    sampleChain "m" (sampleAt (sampleNow + 3600)) = .ok samplePublic :=
  ((acceptance_window check_sample).1 _ _).2
    ⟨⟨⟨by decide +kernel, by decide +kernel⟩, by decide +kernel⟩, rfl⟩

/-! ### The ceiling on offline use -/

/-- A licence that is rejected as too old lived on within its grace period. -/
theorem validateAt_licenseTooOld {license : License} {machineId : String} {now : SystemTime}
    (h : validateAt license machineId now = .error (.err .licenseTooOld)) :
    now.nanos ≤ license.issuedAt.nanos + license.gracePeriod ∧
      (maxAge : ℤ) < now.nanos - license.issuedAt.nanos := by
  unfold validateAt SystemTime.add at h
  simp only [bind_eq_error, ensure_eq_error, ensure_eq_ok, SystemTime.ofNanos_eq_ok,
    Halt.err.injEq, reduceCtorEq, and_false, false_or, not_not, gt_iff_lt, not_lt,
    SystemTime.durationSince_getD, SystemTime.lt_def] at h
  obtain ⟨-, -, -, -, -, -, -, -, -, -, hadd | ⟨d, hd, -, -, -, hdead, hage, -⟩⟩ := h
  · unfold SystemTime.ofNanos at hadd
    split_ifs at hadd
    simp [Checked.panic] at hadd
  · rw [Int.toNat_le, not_le] at hage
    exact ⟨by omega, hage⟩

/-- **The ceiling on what a daily key can mint.**  Whatever it signs is accepted only when
dated within its own day, for at most 90 days from there and no longer than the licence
lasts; the check for tokens that are too old is never reached. -/
theorem offline_ceiling (C : Crypto) (masterPubs : List C.VerifyingKey) (token : String)
    (chain : CertChain) (machineId : String) (now : SystemTime) :
    (∀ lic, checkLicenseAnyAt C masterPubs token chain machineId now = .ok lic →
      ∃ daily start stop, payloadClaims C chain.daily = some daily ∧
        claimI64 daily "iat" = some start ∧ claimI64 daily "exp" = some stop ∧
        start * 10 ^ 9 ≤ lic.issuedAt.nanos ∧ lic.issuedAt.nanos ≤ stop * 10 ^ 9 ∧
        0 < lic.gracePeriod ∧ (lic.gracePeriod : ℤ) ≤ 90 * 24 * 60 * 60 * 10 ^ 9 ∧
        lic.issuedAt ≤ lic.expiresAt ∧ now ≤ lic.expiresAt ∧
        now.nanos ≤ lic.issuedAt.nanos + lic.gracePeriod ∧
        lic.issuedAt.nanos + lic.gracePeriod ≤ (stop + 90 * 24 * 60 * 60) * 10 ^ 9) ∧
    checkLicenseAnyAt C masterPubs token chain machineId now ≠
      .error (.err (.validate .licenseTooOld)) := by
  constructor
  · intro lic h
    obtain ⟨license, hver, hval, rfl⟩ := checkLicenseAnyAtWithRenewalFailed_eq_ok.1 h
    obtain ⟨hfields, hdead, -⟩ := validateAt_eq_ok.1 hval
    obtain ⟨m, -, l, hsig, -, -, -, hcons, hdesc⟩ := verifyActivationAnyAt_eq_ok.1 hver
    obtain ⟨start, stop, hstart, hstop, hle, hle'⟩ := hcons.daily
    obtain ⟨-, -, hdaily, -⟩ := hsig.payloads
    obtain ⟨hexp, hgrace⟩ := issued_add_grace hdead
    have hissued := hdesc.issuedAt
    have hg := gracePeriod_le hver
    exact ⟨l.daily, start, stop, hdaily, hstart, hstop, by simp only [toPublicLicense]; omega,
      by simp only [toPublicLicense]; omega, hfields.grace_pos, hg, hfields.issued_le, hexp,
      hgrace, by simp only [toPublicLicense]; omega⟩
  · intro h
    unfold checkLicenseAnyAt checkLicenseAnyAtWithRenewalFailed at h
    rw [bind_eq_error] at h
    obtain h | ⟨license, hver, h⟩ := h
    · cases hv : verifyActivationAnyAt C masterPubs token chain now with
      | ok license => simp [hv, mapErr] at h
      | error e => cases e <;> simp [hv, mapErr, fail, Checked.panic] at h
    · rw [mapErr_eq_ok] at hver
      have hold : validateAt license machineId now = .error (.err .licenseTooOld) := by
        cases hv : validateAt license machineId now with
        | ok u => simp [hv, mapErr] at h
        | error e =>
          cases e with
          | panic => simp [hv, mapErr, Checked.panic] at h
          | err e => simpa [hv, mapErr, fail] using h
      obtain ⟨hdead, hage⟩ := validateAt_licenseTooOld hold
      have hg := gracePeriod_le hver
      have := maxAge_eq
      omega

theorem offline_ceiling_sample : ∃ daily start stop,
    payloadClaims sampleCrypto sampleChain.daily = some daily ∧
      claimI64 daily "iat" = some start ∧ claimI64 daily "exp" = some stop ∧
      start * 10 ^ 9 ≤ samplePublic.issuedAt.nanos ∧
      samplePublic.issuedAt.nanos ≤ stop * 10 ^ 9 :=
  have ⟨daily, start, stop, hd, hi, he, h1, h2, _⟩ :=
    (offline_ceiling sampleCrypto sampleKeys "h.t.4t" sampleChain "m" (sampleAt sampleNow)).1 _
      check_sample
  ⟨daily, start, stop, hd, hi, he, h1, h2⟩

/-- **A token verifies offline while its certificates last.**  From an acceptance on and up
to the deadline of the licence, the token is accepted exactly as long as the submaster and
project certificates have not expired; the daily certificate may have. -/
theorem verifies_offline {C : Crypto} {masterPubs : List C.VerifyingKey} {token : String}
    {chain : CertChain} {machineId : String} {t₀ t : SystemTime} {lic : PublicLicense}
    (h : checkLicenseAnyAt C masterPubs token chain machineId t₀ = .ok lic) (h0 : t₀ ≤ t)
    (ht : t.nanos ≤ min lic.expiresAt.nanos (lic.issuedAt.nanos + lic.gracePeriod)) :
    Accepted C masterPubs token chain machineId t ↔
      ∀ stop ∈ notAfter C chain, t.unixSecs ≤ stop := by
  obtain ⟨⟨⟨hstart, -⟩, -⟩, -⟩ := (accepted_iff h).1 h
  have hs := SystemTime.unixSecs_mono h0
  constructor
  · rintro ⟨lic', hlic'⟩
    exact ((accepted_iff h).1 hlic').1.1.2
  · intro hstop
    refine ⟨lic, (accepted_iff h).2 ⟨⟨⟨?_, hstop⟩, ht⟩, rfl⟩⟩
    intro start hmem
    exact (hstart start hmem).trans hs

theorem verifies_offline_sample : Accepted sampleCrypto sampleKeys "h.t.4t" sampleChain "m"
    (sampleAt (sampleNow + 1800)) :=
  (verifies_offline check_sample (by decide +kernel) (by decide +kernel)).2 (by decide +kernel)

/-- The certificates of the sample end an hour after `sampleNow`, its grace period a day
after: in between the token is rejected. -/
theorem expired_within_grace :
    checkLicenseAnyAt sampleCrypto sampleKeys "h.t.4t" sampleChain "m" (sampleAt sampleNow) =
      .ok samplePublic ∧
    sampleAt sampleNow ≤ sampleAt (sampleNow + 3601) ∧
    (sampleAt (sampleNow + 3601)).nanos ≤
      min samplePublic.expiresAt.nanos
        (samplePublic.issuedAt.nanos + samplePublic.gracePeriod) ∧
    checkLicenseAnyAt sampleCrypto sampleKeys "h.t.4t" sampleChain "m"
      (sampleAt (sampleNow + 3601)) = .error (.err (.verify .expired)) := by
  refine ⟨?_, ?_, ?_, ?_⟩ <;> decide +kernel

end LatteRs
