import LatteRs.Steady

/-!
# The fast path of `activate` and `check`

`activate` tries the cached licence before it asks the server.  It returns that
licence exactly when the token in the cache passes the whole check for this
machine and names the key that was entered, and then `check` returns the same
licence.  What `activate` does depends on the normalized key only.

* `sanitizeKey_eq`: the fold of a key is a function of its normal form;
* `Sdk.Hit`: the cached licence is one of this key;
* `exec_check`: what `check` returns on a cached token that validates;
* `fast_path_agrees_with_check`.
-/

namespace LatteRs

open Concurrent Act Program

/-! ### Keys -/

theorem sanitizeKey_eq (toUppercase : String → String) (input : String) :
    sanitizeKey toUppercase input =
      String.ofList ((normalizeKey toUppercase input).toList.map foldAmbiguous) := by
  unfold sanitizeKey normalizeKey
  rw [String.toList_ofList]

variable {P : Platform} {sdk : Sdk P}

/-- `activate` treats two spellings of one key alike, whatever runs at the same time. -/
theorem activate_spelling {licenseKey licenseKey' : String}
    (h : normalizeKey P.toUppercase licenseKey = normalizeKey P.toUppercase licenseKey') :
    sdk.body (.activate licenseKey) = sdk.body (.activate licenseKey') := by
  have hsame : activate sdk licenseKey = activate sdk licenseKey' := by
    unfold activate
    simp only [sanitizeKey_eq, h]
  show (activate sdk licenseKey >>= fun result => ret (Outcome.license result)) = _
  rw [hsame]
  rfl

/-! ### The decision of `activate` -/

/-- The token in the cache passes the check for this machine at `now` with the flag, which gives
`lic`, and it names the key `licenseKey`: by its subject or by its alias. -/
def Sdk.Hit (sdk : Sdk P) (s : Shared) (now : SystemTime) (licenseKey : String)
    (lic : PublicLicense) : Prop :=
  ∃ token chain license, sdk.cached s = some (token, chain) ∧
    verifyActivationAnyAt P.toCrypto sdk.masterPubs token chain now = .ok license ∧
    checkLicenseAnyAtWithRenewalFailed P.toCrypto sdk.masterPubs token chain sdk.machineId now
      s.renewalFailed = .ok lic ∧
    (license.key = sanitizeKey P.toUppercase licenseKey ∨
      license.aliasKey ≠ "" ∧ license.aliasKey = normalizeKey P.toUppercase licenseKey)

variable {now : SystemTime} {reply : Reply} {starts : Bool} {licenseKey : String}

theorem hit_iff {s : Shared} {lic : PublicLicense} :
    sdk.Hit s now licenseKey lic ↔ ∃ aliasKey, sdk.Finds s now lic aliasKey ∧
      (lic.key = sanitizeKey P.toUppercase licenseKey ∨
        aliasKey ≠ "" ∧ aliasKey = normalizeKey P.toUppercase licenseKey) := by
  unfold Sdk.Hit Sdk.Finds
  constructor
  · rintro ⟨token, chain, license, hcached, hverify, hcheck, hkey⟩
    obtain ⟨license', hverify', hvalidate, rfl⟩ :=
      checkLicenseAnyAtWithRenewalFailed_eq_ok.1 hcheck
    cases Except.ok.inj (hverify.symm.trans hverify')
    exact ⟨license.aliasKey, ⟨token, chain, license, hcached, hverify, hvalidate, rfl, rfl⟩, hkey⟩
  · rintro ⟨aliasKey, ⟨token, chain, license, hcached, hverify, hvalidate, rfl, rfl⟩, hkey⟩
    exact ⟨token, chain, license, hcached, hverify,
      checkLicenseAnyAtWithRenewalFailed_eq_ok.2 ⟨license, hverify, hvalidate, rfl⟩, hkey⟩

/-- A licence that is found is the only one. -/
theorem Sdk.Finds.unique {s : Shared} {lic lic' : PublicLicense} {aliasKey aliasKey' : String}
    (h : sdk.Finds s now lic aliasKey) (h' : sdk.Finds s now lic' aliasKey') :
    lic = lic' ∧ aliasKey = aliasKey' := by
  obtain ⟨token, chain, license, hcached, hverify, -, rfl, rfl⟩ := h
  obtain ⟨token', chain', license', hcached', hverify', -, rfl, rfl⟩ := h'
  cases Option.some.inj (hcached.symm.trans hcached')
  cases Except.ok.inj (hverify.symm.trans hverify')
  exact ⟨rfl, rfl⟩

/-- The cached licence of a key is the only one. -/
theorem Sdk.Hit.unique {s : Shared} {lic lic' : PublicLicense}
    (h : sdk.Hit s now licenseKey lic) (h' : sdk.Hit s now licenseKey lic') : lic = lic' := by
  obtain ⟨aliasKey, hfinds, -⟩ := hit_iff.1 h
  obtain ⟨aliasKey', hfinds', -⟩ := hit_iff.1 h'
  exact (hfinds.unique hfinds').1

variable (now reply starts) in
/-- `activate` either returns the cached licence of this key and sends nothing, or panics before
it has sent anything, or sends a request. -/
theorem exec_activate (hne : normalizeKey P.toUppercase licenseKey ≠ "")
    (hlen : (normalizeKey P.toUppercase licenseKey).utf8ByteSize ≤ 256) {z : Solo sdk.system} :
    (∃ lic z', (activate sdk licenseKey).exec (sdk.steady now reply starts) z =
        (some (.ok lic), z') ∧ Untouched z z' ∧ sdk.Hit z.shared now licenseKey lic) ∨
      (¬ ∃ lic, sdk.Hit z.shared now licenseKey lic) ∧
        (((activate sdk licenseKey).exec (sdk.steady now reply starts) z).1 = none ∨
          sent ((activate sdk licenseKey).exec (sdk.steady now reply starts) z).2.past ≠ none) := by
  have hkey : validateLicenseKey (normalizeKey P.toUppercase licenseKey) = .ok () := by
    unfold validateLicenseKey
    rw [if_neg]
    simp [hne, hlen]
  obtain ⟨found, z₁, hexec, hq, hfound⟩ := exec_cachedLicense now reply starts z
  unfold activate
  simp only [hkey]
  rcases found with _ | _ | ⟨lic, aliasKey⟩
  · -- the verification of the cached token panics
    refine Or.inr ⟨?_, Or.inl ?_⟩
    · rintro ⟨lic, hhit⟩
      obtain ⟨aliasKey, hfinds, -⟩ := hit_iff.1 hhit
      cases (hfound lic aliasKey).2 hfinds
    · rw [exec_bind_of_none hexec]
  · refine Or.inr ⟨?_, Or.inr ?_⟩
    · rintro ⟨lic, hhit⟩
      obtain ⟨aliasKey, hfinds, -⟩ := hit_iff.1 hhit
      cases (hfound lic aliasKey).2 hfinds
    · rw [exec_bind_of_some hexec]
      exact sent_activateOnline _ _ z₁
  · have hfinds := (hfound lic aliasKey).1 rfl
    rw [exec_bind_of_some hexec]
    by_cases hmatch : lic.key = sanitizeKey P.toUppercase licenseKey ∨
        aliasKey ≠ "" ∧ aliasKey = normalizeKey P.toUppercase licenseKey
    · refine Or.inl ⟨lic, z₁, ?_, hq, hit_iff.2 ⟨aliasKey, hfinds, hmatch⟩⟩
      simp only [hmatch, if_true]
      rfl
    · refine Or.inr ⟨?_, Or.inr ?_⟩
      · rintro ⟨lic', hhit⟩
        obtain ⟨aliasKey', hfinds', hmatch'⟩ := hit_iff.1 hhit
        obtain ⟨rfl, rfl⟩ := hfinds.unique hfinds'
        exact hmatch hmatch'
      · simp only [hmatch, if_false]
        exact sent_activateOnline _ _ z₁

/-! ### What `check` returns -/

variable (now reply starts) in
/-- Starting a background renewal leaves the flag alone.  It panics only when the number of
attempts overflows. -/
theorem exec_renewInBackground (license : License) (z : Solo sdk.system) :
    2 ^ 64 ≤ z.shared.renewal.attempt + 1 ∨ ∃ z',
      (renewInBackground license).exec (sdk.steady now reply starts) z = (some (), z') ∧
        z'.shared.renewalFailed = z.shared.renewalFailed := by
  refine (Nat.lt_or_ge (z.shared.renewal.attempt + 1) (2 ^ 64)).symm.imp id fun hcount => ?_
  unfold renewInBackground
  rw [exec_bind_of_some (exec_clock z)]
  by_cases hdue : since now license.issuedAt < renewAfter
  · rw [if_pos hdue]
    exact ⟨_, rfl, rfl⟩
  rw [if_neg hdue, exec_bind_of_some (exec_tryAcquire _)]
  simp only
  rw [exec_bind_of_some (exec_getRenewal _),
    show ((z.did .clock now).saw (.triedLock true)).shared.renewal = z.shared.renewal from rfl]
  by_cases hwait : (z.shared.renewal.inFlight.any fun t => since now t ≤ 2 * renewRetry) ||
      z.shared.renewal.lastAttempt.any fun t => since now t < renewRetry
  · rw [if_pos hwait]
    exact ⟨_, rfl, rfl⟩
  · rw [if_neg hwait, if_pos hcount, exec_bind_of_some (exec_setRenewal _ _),
      exec_bind_of_some (exec_start _ _)]
    cases starts with
    | true => exact ⟨_, rfl, rfl⟩
    | false => exact ⟨_, rfl, rfl⟩

variable (reply starts) in
/-- What `check` returns on a cached token that verifies and validates. -/
theorem exec_check {token : String} {chain : CertChain} {license : License}
    {z : Solo sdk.system} (hcached : sdk.cached z.shared = some (token, chain))
    (hverify : verifyActivationAnyAt P.toCrypto sdk.masterPubs token chain now = .ok license)
    (hvalidate : validateAt license sdk.machineId now = .ok ()) :
    2 ^ 64 ≤ z.shared.renewal.attempt + 1 ∨
      ((check sdk).exec (sdk.steady now reply starts) z).1 = some (.ok (toPublicLicense license
        (inGracePeriod license now z.shared.renewalFailed))) := by
  obtain ⟨z₁, hload, hq₁⟩ := exec_loadCache now reply starts z
  rw [hcached] at hload
  unfold check
  rw [exec_bind_of_some hload]
  simp only
  rw [exec_bind_of_some (exec_clock z₁), exec_orAbort_bind (settle_eq_ok.2 hverify)]
  simp only
  rw [exec_orAbort_bind (settle_eq_ok.2 hvalidate)]
  have hflag : ∀ z', z'.shared.renewalFailed = z.shared.renewalFailed →
      ((loadFlag >>= fun failed => ret (Except.ok (ε := LatteError) (toPublicLicense license
        (inGracePeriod license now failed)))).exec (sdk.steady now reply starts) z').1 =
        some (.ok (toPublicLicense license
          (inGracePeriod license now z.shared.renewalFailed))) := by
    intro z' hz'
    rw [exec_bind_of_some (exec_loadFlag z'), hz']
    rfl
  by_cases hnames : license.machineId = sdk.machineId ∧ license.activationId ≠ "" ∧
      license.key ≠ ""
  · rw [if_pos hnames]
    have hrenew := exec_renewInBackground now reply starts license
      (z₁.did .clock now)
    rw [show (z₁.did .clock now).shared = z.shared from hq₁.shared] at hrenew
    refine hrenew.imp id ?_
    rintro ⟨z₂, hexec, hz₂⟩
    rw [exec_bind_of_some hexec]
    exact hflag z₂ hz₂
  · rw [if_neg hnames]
    exact Or.inr (hflag _ (congrArg Shared.renewalFailed hq₁.shared))

/-! ### The two agree -/

/-- **The fast path of `activate` agrees with `check`.**  With the clock at `now`, `activate`
returns without a request exactly when the token in the cache passes the check for this machine
with the flag and names the key.  It then returns the licence that `check` returns from the same
cache and flag, whatever the other state, and changes nothing.  Two spellings with one normal
form run the same program. -/
theorem fast_path_agrees_with_check (sdk : Sdk P) (licenseKey : String)
    (hne : normalizeKey P.toUppercase licenseKey ≠ "")
    (hlen : (normalizeKey P.toUppercase licenseKey).utf8ByteSize ≤ 256) (s : Shared) (newest : ℤ)
    (now : SystemTime) (reply : Reply) (starts : Bool) :
    ((∃ result, (sdk.alone now reply starts (.activate licenseKey) s newest).1 =
        some (.license result)) ∧
      sent (sdk.alone now reply starts (.activate licenseKey) s newest).2.past = none ↔
        ∃ lic, sdk.Hit s now licenseKey lic) ∧
    (∀ lic, sdk.Hit s now licenseKey lic →
      (sdk.alone now reply starts (.activate licenseKey) s newest).1 = some (.license (.ok lic)) ∧
      (sdk.alone now reply starts (.activate licenseKey) s newest).2.shared = s ∧
      ∀ s' : Shared, s'.cache = s.cache → s'.renewalFailed = s.renewalFailed →
        2 ^ 64 ≤ s'.renewal.attempt + 1 ∨
          (sdk.alone now reply starts .check s' newest).1 = some (.license (.ok lic))) ∧
    ∀ licenseKey', normalizeKey P.toUppercase licenseKey' = normalizeKey P.toUppercase licenseKey →
      sdk.body (.activate licenseKey') = sdk.body (.activate licenseKey) := by
  have hhits : ∀ lic, sdk.Hit s now licenseKey lic → ∃ z' : Solo sdk.system,
      sdk.alone now reply starts (.activate licenseKey) s newest =
        (some (.license (.ok lic)), z') ∧ z'.shared = s ∧ sent z'.past = none := by
    intro lic hhit
    obtain ⟨lic', z', hexec, hq, hhit'⟩ | ⟨hmiss, -⟩ :=
      exec_activate now reply starts hne hlen (z := ⟨[], s, newest⟩)
    · cases hhit.unique hhit'
      exact ⟨z', alone_returns Outcome.license rfl hexec, hq.shared, hq.sent⟩
    · exact absurd ⟨lic, hhit⟩ hmiss
  refine ⟨⟨?_, ?_⟩, ?_, fun licenseKey' h => activate_spelling h⟩
  · rintro ⟨⟨result, hreturns⟩, hsent⟩
    obtain ⟨lic, -, -, -, hhit⟩ | ⟨-, hmiss⟩ :=
      exec_activate now reply starts hne hlen (z := ⟨[], s, newest⟩)
    · exact ⟨lic, hhit⟩
    rcases hexec : (activate sdk licenseKey).exec (sdk.steady now reply starts) ⟨[], s, newest⟩
      with ⟨_ | a, z'⟩
    · rw [alone_panics Outcome.license rfl hexec] at hreturns
      cases hreturns
    · rw [alone_returns Outcome.license rfl hexec] at hsent
      rw [hexec] at hmiss
      exact absurd hsent (hmiss.resolve_left (Option.some_ne_none a))
  · rintro ⟨lic, hhit⟩
    obtain ⟨z', halone, -, hsent⟩ := hhits lic hhit
    rw [halone]
    exact ⟨⟨_, rfl⟩, hsent⟩
  · intro lic hhit
    obtain ⟨z', halone, hshared, -⟩ := hhits lic hhit
    rw [halone]
    refine ⟨rfl, hshared, fun s' hcache hfailed => ?_⟩
    obtain ⟨token, chain, license, hcached, hverify, hcheck, -⟩ := hhit
    obtain ⟨license', hverify', hvalidate, rfl⟩ :=
      checkLicenseAnyAtWithRenewalFailed_eq_ok.1 hcheck
    cases Except.ok.inj (hverify.symm.trans hverify')
    have hcached' : sdk.cached s' = some (token, chain) := by
      rw [cached_eq_some] at hcached ⊢
      rwa [hcache]
    refine (exec_check reply starts hcached' hverify hvalidate
      (z := ⟨[], s', newest⟩)).imp id fun hexec => ?_
    rcases hcheck' : (check sdk).exec (sdk.steady now reply starts) ⟨[], s', newest⟩ with ⟨r, z'⟩
    rw [hcheck'] at hexec
    cases hexec
    rw [alone_returns Outcome.license rfl hcheck', hfailed]

/-- The sample token names the key `KEY`, here entered with a hyphen and a space. -/
theorem fast_path_agrees_with_check_sample : ∃ lic,
    (sampleSdk.alone (sampleAt sampleNow) (sampleReply 117) true (.activate "K-E Y")
      (Shared.new (some ("h.t.4t", sampleChain))) 0).1 = some (.license (.ok lic)) ∧
    sent (sampleSdk.alone (sampleAt sampleNow) (sampleReply 117) true (.activate "K-E Y")
      (Shared.new (some ("h.t.4t", sampleChain))) 0).2.past = none := by
  have hcheck : checkLicenseAnyAtWithRenewalFailed sampleCrypto sampleKeys "h.t.4t" sampleChain "m"
      (sampleAt sampleNow) false = .ok (toPublicLicense
        (sampleLicense "KEY" "a" (sampleAt (sampleNow - 60))) false) := by decide +kernel
  have hkey : "KEY" = sanitizeKey id "K-E Y" := by decide +kernel
  have hhit : sampleSdk.Hit (Shared.new (some ("h.t.4t", sampleChain))) (sampleAt sampleNow)
      "K-E Y" (toPublicLicense (sampleLicense "KEY" "a" (sampleAt (sampleNow - 60))) false) :=
    ⟨_, _, _, rfl, verify_sample, hcheck, Or.inl hkey⟩
  obtain ⟨hiff, hhits, -⟩ := fast_path_agrees_with_check sampleSdk "K-E Y" (by decide +kernel)
    (by decide +kernel) (Shared.new (some ("h.t.4t", sampleChain))) 0 (sampleAt sampleNow)
    (sampleReply 117) true
  exact ⟨_, (hhits _ hhit).1, (hiff.2 ⟨_, hhit⟩).2⟩

end LatteRs
