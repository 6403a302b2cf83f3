import LatteRs.Tokens

/-!
# Where the check of a stored token panics

What can go out of range in a check is the arithmetic on the time claims of a
chain whose signatures hold: the negation in `unix_to_system_time`, the
difference `exp - iat` of a token without `grc`, and the offline deadline of
`validate_at`.

* `verifyChain_ne_panic`: nothing before the claims are read panics;
* `readLicense_eq_panic`, `validateAt_eq_panic`: where the rest does;
* `ChainClaims.InRange` and `check_ne_panic_iff`: the claims on which the whole
  check returns.
-/

namespace LatteRs

open Checked

/-! ### The chain -/

theorem verifySubmaster_ne_panic (C : Crypto) (submaster : String) (now : SystemTime)
    (masterPubs : List C.VerifyingKey) {sub : Checked VerifyError ParsedJwt}
    (hsub : sub ≠ .error .panic) :
    verifySubmaster C submaster now masterPubs sub ≠ .error .panic := by
  induction masterPubs generalizing sub with
  | nil => exact hsub
  | cons m ms ih =>
    unfold verifySubmaster
    cases hm : parseAndVerify C submaster m issuer now with
    | ok sub' => simp
    | error halt =>
      cases halt with
      | panic => exact absurd hm (parseAndVerify_ne_panic C submaster m now)
      | err e => exact ih (fail_ne_panic e)

/-- Walking the chain never panics, whatever the certificates and the token hold. -/
theorem verifyChain_ne_panic (C : Crypto) (masterPubs : List C.VerifyingKey) (token : String)
    (chain : CertChain) (now : SystemTime) :
    verifyChain C masterPubs token chain now ≠ .error .panic := by
  unfold verifyChain verifyCerts
  simp only [bind_assoc, ok_bind]
  refine bind_ne_panic (verifySubmaster_ne_panic C _ now _ (fail_ne_panic _)) fun sub => ?_
  refine bind_ne_panic (pubKeyFromCert_ne_panic C _ _) fun submasterPub => ?_
  refine bind_ne_panic (parseAndVerify_ne_panic C _ _ now) fun proj => ?_
  refine bind_ne_panic (pubKeyFromCert_ne_panic C _ _) fun projectPub => ?_
  refine bind_ne_panic (parseAndVerifyInner_ne_panic C _ _ _ now _ (Or.inl rfl)) fun daily => ?_
  refine bind_ne_panic (pubKeyFromCert_ne_panic C _ _) fun dailyPub => ?_
  refine bind_ne_panic (parseAndVerifyInner_ne_panic C _ _ _ _ _ (Or.inr rfl)) fun _ => ?_
  exact ok_ne_panic _

/-! ### Reading the licence -/

theorem expiryAndGrace_eq_panic {token : Map} :
    expiryAndGrace token (issuedSecs token) ((claimI64 token "exp").getD 0) = .error .panic ↔
      ¬ InI64 (graceSecs token) := by
  unfold expiryAndGrace graceSecs i64Sub
  cases hg : claimI64 token "grc" with
  | some grc => simpa using claimI64_inI64 hg
  | none => simp [bind_eq_error]

theorem checkProject_ne_panic (project : Map) (projectId : String) :
    checkProject project projectId ≠ .error .panic := by
  unfold checkProject
  cases claimStr project "pid" with
  | none => simp
  | some pid => exact ensure_ne_panic _ _

theorem requiredTime_eq_panic {claims : Map} {key : String} :
    requiredTime claims key = .error .panic ↔ claimI64 claims key = some Binary64.i64Min := by
  unfold requiredTime
  cases h : claimI64 claims key with
  | none => simp
  | some v => simp [unixToSystemTime_eq_panic (claimI64_inI64 h)]

/-- The project certificate names the token's project, or none. -/
def ChainClaims.ProjectAgrees (l : ChainClaims) : Prop :=
  ∀ pid, claimStr l.project "pid" = some pid → pid ≠ "" → pid = claimOrEmpty l.token "pid"

/-- The times of the daily certificate are read one after the other: the second one only where
the first one is there. -/
def ChainClaims.DailyInRange (l : ChainClaims) : Prop :=
  claimI64 l.daily "iat" ≠ some Binary64.i64Min ∧
    (claimI64 l.daily "iat" ≠ none → claimI64 l.daily "exp" ≠ some Binary64.i64Min)

/-- Reading the daily times panics exactly when they are out of range. -/
theorem dailyTimes_eq_panic {l : ChainClaims} {rest : SystemTime → SystemTime →
      Checked VerifyError License} (hrest : ∀ a b, rest a b ≠ .error .panic) :
    (requiredTime l.daily "iat" >>= fun dailyIat =>
        requiredTime l.daily "exp" >>= fun dailyExp => rest dailyIat dailyExp) = .error .panic ↔
      ¬ l.DailyInRange := by
  unfold ChainClaims.DailyInRange
  rw [bind_eq_error, requiredTime_eq_panic]
  have hexp : ∀ dailyIat, (requiredTime l.daily "exp" >>= fun dailyExp => rest dailyIat dailyExp) =
      .error .panic ↔ claimI64 l.daily "exp" = some Binary64.i64Min := by
    intro dailyIat
    rw [bind_eq_error, requiredTime_eq_panic]
    constructor
    · rintro (h | ⟨dailyExp, -, h⟩)
      · exact h
      · exact absurd h (hrest _ _)
    · exact Or.inl
  simp only [hexp, requiredTime_eq_ok]
  constructor
  · rintro (hiat | ⟨dailyIat, ⟨v, hv, -⟩, hmin⟩) ⟨hne, himp⟩
    · exact hne hiat
    · exact himp (by simp [hv]) hmin
  · intro h
    by_cases hiat : claimI64 l.daily "iat" = some Binary64.i64Min
    · exact Or.inl hiat
    · have h' : ¬ (claimI64 l.daily "iat" ≠ none →
          claimI64 l.daily "exp" ≠ some Binary64.i64Min) := fun himp => h ⟨hiat, himp⟩
      push Not at h'
      obtain ⟨hsome, hmin⟩ := h'
      obtain ⟨v, hv⟩ := Option.ne_none_iff_exists'.1 hsome
      obtain ⟨t, ht⟩ := exists_at (claimI64_inI64 hv)
      exact Or.inr ⟨t, ⟨v, hv, fun hvmin => hiat (hvmin ▸ hv), ht⟩, hmin⟩

/-- Nothing overflows while the licence is read: the token's own times and its grace period
first, and those of the daily certificate once the projects agree. -/
structure ChainClaims.ReadsInRange (l : ChainClaims) : Prop where
  grace : InI64 (graceSecs l.token)
  issued : issuedSecs l.token ≠ Binary64.i64Min
  expires : expiresSecs l.token ≠ Binary64.i64Min
  daily : l.ProjectAgrees → l.DailyInRange

theorem readLicense_eq_panic {l : ChainClaims} :
    readLicense l = .error .panic ↔ ¬ l.ReadsInRange := by
  have hissued := unixToSystemTime_eq_panic (ε := VerifyError) (inI64_issuedSecs l.token)
  have hexpires := unixToSystemTime_eq_panic (ε := VerifyError) (inI64_expiresSecs l.token)
  unfold readLicense
  constructor
  · intro h hin
    obtain ⟨hgrace, hiat, hexp, hdaily⟩ := hin
    obtain h | ⟨⟨e, g⟩, heg, h⟩ := bind_eq_error.1 h
    · exact expiryAndGrace_eq_panic.1 h hgrace
    obtain ⟨-, heq⟩ := expiryAndGrace_eq_ok.1 heg
    obtain ⟨rfl, rfl⟩ := Prod.mk.inj heq
    obtain h | ⟨iat, -, h⟩ := bind_eq_error.1 h
    · exact hiat (hissued.1 h)
    obtain h | ⟨exp, -, h⟩ := bind_eq_error.1 h
    · exact hexp (hexpires.1 h)
    obtain h | ⟨u, hproj, h⟩ := bind_eq_error.1 h
    · exact checkProject_ne_panic _ _ h
    refine (dailyTimes_eq_panic fun a b => ?_).1 h (hdaily (checkProject_eq_ok.1 hproj))
    exact bind_ne_panic (ensure_ne_panic _ _) fun _ => bind_ne_panic (ensure_ne_panic _ _) fun _ =>
      bind_ne_panic (ensure_ne_panic _ _) fun _ => ok_ne_panic _
  · intro hout
    rw [bind_eq_error]
    by_cases hgrace : InI64 (graceSecs l.token)
    swap
    · exact Or.inl (expiryAndGrace_eq_panic.2 hgrace)
    refine Or.inr ⟨_, expiryAndGrace_eq_ok.2 ⟨hgrace, rfl⟩, ?_⟩
    rw [bind_eq_error]
    by_cases hiat : issuedSecs l.token = Binary64.i64Min
    · exact Or.inl (hissued.2 hiat)
    obtain ⟨iat, hiatn⟩ := exists_at (inI64_issuedSecs l.token)
    refine Or.inr ⟨iat, (unixToSystemTime_eq_ok (inI64_issuedSecs l.token)).2 ⟨hiat, hiatn⟩, ?_⟩
    rw [bind_eq_error]
    by_cases hexp : expiresSecs l.token = Binary64.i64Min
    · exact Or.inl (hexpires.2 hexp)
    obtain ⟨exp, hexpn⟩ := exists_at (inI64_expiresSecs l.token)
    refine Or.inr ⟨exp, (unixToSystemTime_eq_ok (inI64_expiresSecs l.token)).2 ⟨hexp, hexpn⟩, ?_⟩
    have hdaily : ¬ (l.ProjectAgrees → l.DailyInRange) := fun hdaily =>
      hout ⟨hgrace, hiat, hexp, hdaily⟩
    obtain ⟨hproj, hrange⟩ := Classical.not_imp.1 hdaily
    refine bind_eq_error.2 (Or.inr ⟨(), checkProject_eq_ok.2 hproj, ?_⟩)
    refine (dailyTimes_eq_panic fun a b => ?_).2 hrange
    exact bind_ne_panic (ensure_ne_panic _ _) fun _ => bind_ne_panic (ensure_ne_panic _ _) fun _ =>
      bind_ne_panic (ensure_ne_panic _ _) fun _ => ok_ne_panic _

/-! ### The whole check -/

/-- The fields on which `validate_at` gets as far as the offline deadline. -/
structure ReachesDeadline (token : Map) (machineId : String) : Prop where
  issued : issuedSecs token ≠ 0
  expires : expiresSecs token ≠ 0
  grace_pos : 0 < graceSecs token
  machine : claimOrEmpty token "mid" = machineId
  issued_le : issuedSecs token ≤ expiresSecs token

theorem validateAt_eq_panic {license : License} {machineId : String} {now : SystemTime} :
    validateAt license machineId now = .error .panic ↔
      license.issuedAt ≠ SystemTime.unixEpoch ∧ license.expiresAt ≠ SystemTime.unixEpoch ∧
        license.gracePeriod ≠ 0 ∧ license.machineId = machineId ∧
        ¬ license.expiresAt < license.issuedAt ∧
        2 ^ 63 * 10 ^ 9 ≤ license.issuedAt.nanos + license.gracePeriod := by
  have hlow := license.issuedAt.le_nanos
  have hadd : (license.issuedAt.add license.gracePeriod : Checked ValidateError _) =
      .error .panic ↔ 2 ^ 63 * 10 ^ 9 ≤ license.issuedAt.nanos + license.gracePeriod := by
    unfold SystemTime.add
    rw [SystemTime.ofNanos_eq_panic]
    omega
  unfold validateAt
  simp only [bind_eq_error, ensure_ne_panic, ensure_eq_ok, false_or, exists_const, hadd,
    and_false, exists_false, or_false]

/-- The same on the licence that a token describes. -/
theorem Describes.validateAt_eq_panic {token : Map} {lic : License} (h : Describes token lic)
    {machineId : String} {now : SystemTime} :
    validateAt lic machineId now = .error .panic ↔
      ReachesDeadline token machineId ∧ 2 ^ 63 ≤ issuedSecs token + graceSecs token := by
  have hissued := h.issuedAt
  have hexpires := h.expiresAt
  have hgrace := h.gracePeriod
  have hne : ∀ {t : SystemTime}, t ≠ SystemTime.unixEpoch ↔ t.nanos ≠ 0 := fun {t} =>
    not_congr SystemTime.ext_iff
  rw [LatteRs.validateAt_eq_panic, hne, hne, h.machineId, SystemTime.lt_def]
  constructor
  · rintro ⟨hi, he, hg, hm, hle, hout⟩
    have hpos : (0 : ℤ) < lic.gracePeriod := Int.natCast_pos.2 (Nat.pos_of_ne_zero hg)
    exact ⟨⟨by omega, by omega, by omega, hm, by omega⟩, by omega⟩
  · rintro ⟨⟨hi, he, hg, hm, hle⟩, hout⟩
    have hpos : (0 : ℤ) < lic.gracePeriod := by omega
    exact ⟨by omega, by omega, (Int.natCast_pos.1 hpos).ne', hm, by omega, by omega⟩

/-- Every token describes a licence. -/
theorem exists_describes (token : Map) : ∃ lic, Describes token lic := by
  obtain ⟨issuedAt, hissued⟩ := exists_at (inI64_issuedSecs token)
  obtain ⟨expiresAt, hexpires⟩ := exists_at (inI64_expiresSecs token)
  exact ⟨⟨_, _, _, _, _, issuedAt, expiresAt, Duration.fromSecs (max (graceSecs token) 0).toNat,
    _, _, _⟩, rfl, rfl, rfl, rfl, rfl, hissued, hexpires, fromSecs_toNat _, rfl, rfl, rfl⟩

/-- Nothing overflows in the whole check: not while the licence is read, and not when the
offline deadline of a consistent one is computed. -/
structure ChainClaims.InRange (l : ChainClaims) (machineId : String) : Prop
    extends l.ReadsInRange where
  deadline : l.Consistent → ReachesDeadline l.token machineId →
    issuedSecs l.token + graceSecs l.token < 2 ^ 63

/-- **When the check of a token returns.**  It panics exactly on a chain that some trusted key
signed, with its links issued by the right issuer and current, whose time claims take the
arithmetic out of range. -/
theorem check_ne_panic_iff (C : Crypto) (masterPubs : List C.VerifyingKey) (token : String)
    (chain : CertChain) (machineId : String) (now : SystemTime) (failed : Bool) :
    checkLicenseAnyAtWithRenewalFailed C masterPubs token chain machineId now failed ≠
        .error .panic ↔
      ∀ m ∈ masterPubs, ∀ l, ChainSigned C m token chain l → l.Issued → l.Current now →
        l.InRange machineId := by
  unfold checkLicenseAnyAtWithRenewalFailed
  rw [Ne, bind_eq_error, mapErr_eq_panic, not_or]
  constructor
  · rintro ⟨hverify, hvalidate⟩ m hm l hsig hiss hcur
    have hchain := verifyChain_eq_ok.2 ⟨m, hm, hsig, hiss, hcur⟩
    have hread : l.ReadsInRange := by
      by_contra hout
      exact hverify (bind_eq_error.2 (Or.inr ⟨l, hchain, readLicense_eq_panic.2 hout⟩))
    refine ⟨hread, fun hcons hreach => ?_⟩
    obtain ⟨start, stop, hstart, -⟩ := hcons.daily
    obtain ⟨hiat, hexp⟩ := hread.daily hcons.project
    have hfits : l.Fits := ⟨hread.issued, hread.expires, hread.grace, hiat, hexp (by simp [hstart])⟩
    obtain ⟨lic, hdesc⟩ := exists_describes l.token
    have hver : verifyActivationAnyAt C masterPubs token chain now = .ok lic :=
      verifyActivationAnyAt_eq_ok.2 ⟨m, hm, l, hsig, hiss, hcur, hfits, hcons, hdesc⟩
    by_contra hout
    refine hvalidate ⟨lic, mapErr_eq_ok.2 hver, bind_eq_error.2 (Or.inl ?_)⟩
    rw [mapErr_eq_panic, hdesc.validateAt_eq_panic]
    exact ⟨hreach, not_lt.1 hout⟩
  · intro h
    constructor
    · intro hpanic
      obtain hpanic | ⟨l, hchain, hpanic⟩ := bind_eq_error.1 hpanic
      · exact verifyChain_ne_panic C masterPubs token chain now hpanic
      · obtain ⟨m, hm, hsig, hiss, hcur⟩ := verifyChain_eq_ok.1 hchain
        exact readLicense_eq_panic.1 hpanic (h m hm l hsig hiss hcur).toReadsInRange
    · rintro ⟨license, hver, hpanic⟩
      rw [mapErr_eq_ok] at hver
      obtain ⟨m, hm, l, hsig, hiss, hcur, hfits, hcons, hdesc⟩ := verifyActivationAnyAt_eq_ok.1 hver
      obtain hpanic | ⟨u, -, hpanic⟩ := bind_eq_error.1 hpanic
      · rw [mapErr_eq_panic, hdesc.validateAt_eq_panic] at hpanic
        have := (h m hm l hsig hiss hcur).deadline hcons hpanic.1
        omega
      · cases hpanic

/-- A daily certificate `e` that lasts to the end of an `i64`, and a token `f` issued there,
with one second of grace. -/
def endlessTexts : Bytes → Option Map
  | [101] => some
      [("iss", .string "licenselatte"), ("iat", sampleSecs (sampleNow - 3600)),
        ("exp", sampleSecs (2 ^ 63 - 1)), ("dpk", .string "04")]
  | [102] => some
      [("iss", .string "licenselatte"), ("mid", .string "m"), ("pid", .string "p"),
        ("iat", sampleSecs (2 ^ 63 - 1)), ("exp", sampleSecs (2 ^ 63 - 1)), ("grc", sampleSecs 1)]
  | _ => none

/-- The offline deadline of the token is one second past the last `SystemTime`. -/
theorem endless_token_panics :
    checkLicenseAnyAtWithRenewalFailed (sampleWith endlessTexts) sampleKeys "h.f.4f"
      ⟨"h.s.1s", "h.p.2p", "h.e.3e"⟩ "m" (sampleAt sampleNow) false = .error .panic := by
  decide +kernel

end LatteRs
