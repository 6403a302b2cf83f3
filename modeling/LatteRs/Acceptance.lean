import LatteRs.Validate

/-!
# What the chain verification accepts

The meaning of a verified activation, stated without the order of the checks:
who signed what (`ChainSigned`), who issued it (`Issued`), when it may be used
(`Current`), how the links agree (`Consistent`), and which licence the token
describes (`Describes`).  `Fits` is the condition under which no arithmetic on
the time claims overflows.

* `verifyActivationAnyAt_eq_ok`: the verification returns a licence exactly
  when all of these hold, for some trusted master key;
* `verifyActivationAnyAt_eq_ok_iff`: the same for tokens and chains whose time
  claims fit.
-/

namespace LatteRs

open Checked

/-! ### The two token formats -/

/-- `issued_at` in seconds. -/
def issuedSecs (token : Map) : ℤ := (claimI64 token "iat").getD 0

/-- `expires_at` in seconds: `exp` next to a `grc`, and else `lex` or the end of 2098. -/
def expiresSecs (token : Map) : ℤ :=
  match claimI64 token "grc" with
  | some _ => (claimI64 token "exp").getD 0
  | none => (claimI64 token "lex").getD noLicenceEnd

/-- The grace period in seconds: `grc`, and else `exp - iat`. -/
def graceSecs (token : Map) : ℤ :=
  match claimI64 token "grc" with
  | some grc => grc
  | none => (claimI64 token "exp").getD 0 - issuedSecs token

/-! ### The parts of an acceptance -/

/-- `m` signed the submaster certificate, and every further link is signed by the key that
the link above it names. -/
def ChainSigned (C : Crypto) (m : C.VerifyingKey) (token : String) (chain : CertChain)
    (l : ChainClaims) : Prop :=
  ∃ submasterPub projectPub dailyPub : C.VerifyingKey,
    Signed C m chain.submaster l.submaster ∧ NamesKey C l.submaster "spk" submasterPub ∧
    Signed C submasterPub chain.project l.project ∧ NamesKey C l.project "ppk" projectPub ∧
    Signed C projectPub chain.daily l.daily ∧ NamesKey C l.daily "dpk" dailyPub ∧
    Signed C dailyPub token l.token

namespace ChainClaims

/-- All four links name the issuer. -/
def Issued (l : ChainClaims) : Prop :=
  ∀ claims ∈ [l.submaster, l.project, l.daily, l.token], claimStr claims "iss" = some issuer

/-- The certificates have started, and the two upper ones have not expired. -/
structure Current (l : ChainClaims) (now : SystemTime) : Prop where
  started : ∀ cert ∈ [l.submaster, l.project, l.daily], ∀ key ∈ ["iat", "nbf"], ∀ v,
    claimI64 cert key = some v → v ≤ now.unixSecs
  unexpired : ∀ cert ∈ [l.submaster, l.project], ∀ v,
    claimI64 cert "exp" = some v → now.unixSecs ≤ v

/-- The links agree with each other. -/
structure Consistent (l : ChainClaims) : Prop where
  project : ∀ pid, claimStr l.project "pid" = some pid → pid ≠ "" →
    pid = claimOrEmpty l.token "pid"
  daily : ∃ start stop, claimI64 l.daily "iat" = some start ∧
    claimI64 l.daily "exp" = some stop ∧ start ≤ issuedSecs l.token ∧ issuedSecs l.token ≤ stop
  grace : graceSecs l.token ≤ 90 * 24 * 60 * 60

/-- No arithmetic on the time claims overflows: none is the least `i64`, whose negation
does not fit, and the grace period fits. -/
structure Fits (l : ChainClaims) : Prop where
  issued : issuedSecs l.token ≠ Binary64.i64Min
  expires : expiresSecs l.token ≠ Binary64.i64Min
  grace : InI64 (graceSecs l.token)
  daily_iat : claimI64 l.daily "iat" ≠ some Binary64.i64Min
  daily_exp : claimI64 l.daily "exp" ≠ some Binary64.i64Min

end ChainClaims

/-- The licence that a token describes. -/
structure Describes (token : Map) (lic : License) : Prop where
  key : lic.key = claimOrEmpty token "sub"
  aliasKey : lic.aliasKey = claimOrEmpty token "alias"
  activationId : lic.activationId = claimOrEmpty token "aid"
  projectId : lic.projectId = claimOrEmpty token "pid"
  machineId : lic.machineId = claimOrEmpty token "mid"
  issuedAt : lic.issuedAt.nanos = issuedSecs token * 10 ^ 9
  expiresAt : lic.expiresAt.nanos = expiresSecs token * 10 ^ 9
  gracePeriod : (lic.gracePeriod : ℤ) = max (graceSecs token) 0 * 10 ^ 9
  licenseType : lic.licenseType = LicenseType.fromClaim (claimOrEmpty token "ltype")
  metadata : lic.metadata = readMetadata token
  entitlements : lic.entitlements = decodeEntitlements token

/-- A token describes one licence. -/
theorem Describes.unique {token : Map} {lic lic' : License} (h : Describes token lic)
    (h' : Describes token lic') : lic = lic' := by
  refine License.ext (h.key.trans h'.key.symm) (h.aliasKey.trans h'.aliasKey.symm)
    (h.activationId.trans h'.activationId.symm) (h.projectId.trans h'.projectId.symm)
    (h.machineId.trans h'.machineId.symm) ?_ ?_ ?_ (h.licenseType.trans h'.licenseType.symm)
    (h.metadata.trans h'.metadata.symm) (h.entitlements.trans h'.entitlements.symm)
  · exact SystemTime.ext (h.issuedAt.trans h'.issuedAt.symm)
  · exact SystemTime.ext (h.expiresAt.trans h'.expiresAt.symm)
  · exact_mod_cast h.gracePeriod.trans h'.gracePeriod.symm

/-! ### The two halves of the verification -/

theorem verifyChain_eq_ok {C : Crypto} {masterPubs : List C.VerifyingKey} {token : String}
    {chain : CertChain} {now : SystemTime} {l : ChainClaims} :
    verifyChain C masterPubs token chain now = .ok l ↔
      ∃ m ∈ masterPubs, ChainSigned C m token chain l ∧ l.Issued ∧ l.Current now := by
  unfold verifyChain verifyCerts
  simp only [bind_assoc, ok_bind, Certs.links]
  simp only [bind_eq_ok, verifySubmaster_eq_ok, parseAndVerify_eq_ok, pubKeyFromCert_eq_ok,
    parseAndVerifyIgnoringExpiry_eq_ok, parseAndVerifyWithInfiniteLeeway_eq_ok,
    Except.ok.injEq]
  constructor
  · rintro ⟨⟨sub⟩, ⟨m, hm, hs, hsi, hs1, hs2, hs3⟩, sk, hsk, ⟨proj⟩, ⟨hp, hpi, hp1, hp2, hp3⟩,
      pk, hpk, ⟨daily⟩, ⟨hd, hdi, hd1, hd2⟩, dk, hdk, ⟨act⟩, ⟨ha, hai⟩, rfl⟩
    refine ⟨m, hm, ⟨sk, pk, dk, hs, hsk, hp, hpk, hd, hdk, ha⟩, ?_, ?_, ?_⟩
    · simpa [ChainClaims.Issued] using ⟨hsi, hpi, hdi, hai⟩
    · simpa using ⟨⟨hs1, hs2⟩, ⟨hp1, hp2⟩, hd1, hd2⟩
    · simpa using ⟨hs3, hp3⟩
  · rintro ⟨m, hm, ⟨sk, pk, dk, hs, hsk, hp, hpk, hd, hdk, ha⟩, hiss, hcur⟩
    have hiss' := hiss
    have hst := hcur.started
    have hex := hcur.unexpired
    simp only [ChainClaims.Issued, List.mem_cons, List.not_mem_nil, or_false, forall_eq_or_imp,
      forall_eq] at hiss' hst hex
    obtain ⟨hsi, hpi, hdi, hai⟩ := hiss'
    obtain ⟨⟨hs1, hs2⟩, ⟨hp1, hp2⟩, hd1, hd2⟩ := hst
    exact ⟨⟨l.submaster⟩, ⟨m, hm, hs, hsi, hs1, hs2, hex.1⟩, sk, hsk, ⟨l.project⟩,
      ⟨hp, hpi, hp1, hp2, hex.2⟩, pk, hpk, ⟨l.daily⟩, ⟨hd, hdi, hd1, hd2⟩, dk, hdk, ⟨l.token⟩,
      ⟨ha, hai⟩, rfl⟩

theorem expiryAndGrace_eq_ok {token : Map} {r : ℤ × ℤ} :
    expiryAndGrace token (issuedSecs token) ((claimI64 token "exp").getD 0) = .ok r ↔
      InI64 (graceSecs token) ∧ r = (expiresSecs token, graceSecs token) := by
  unfold expiryAndGrace graceSecs expiresSecs i64Sub
  cases hg : claimI64 token "grc" with
  | some grc =>
    simp only [Except.ok.injEq]
    exact ⟨fun h => ⟨claimI64_inI64 hg, h.symm⟩, fun h => h.2.symm⟩
  | none =>
    simp only [bind_eq_ok, i64Result_eq_ok, Except.ok.injEq]
    constructor
    · rintro ⟨g, ⟨hin, rfl⟩, h⟩
      exact ⟨hin, h.symm⟩
    · rintro ⟨hin, rfl⟩
      exact ⟨_, ⟨hin, rfl⟩, rfl⟩

theorem checkProject_eq_ok {project : Map} {projectId : String} {u : Unit} :
    checkProject project projectId = .ok u ↔
      ∀ pid, claimStr project "pid" = some pid → pid ≠ "" → pid = projectId := by
  unfold checkProject
  cases claimStr project "pid" with
  | none => simp
  | some pid => simp

theorem inI64_zero : InI64 0 := by decide

theorem inI64_getD {o : Option ℤ} {d : ℤ} (hd : InI64 d) (h : ∀ v, o = some v → InI64 v) :
    InI64 (o.getD d) := by
  cases o with
  | none => exact hd
  | some v => exact h v rfl

theorem inI64_issuedSecs (token : Map) : InI64 (issuedSecs token) :=
  inI64_getD inI64_zero fun _ => claimI64_inI64

theorem inI64_expiresSecs (token : Map) : InI64 (expiresSecs token) := by
  unfold expiresSecs
  split
  · exact inI64_getD inI64_zero fun _ => claimI64_inI64
  · exact inI64_getD (by decide) fun _ => claimI64_inI64

theorem requiredTime_eq_ok {claims : Map} {key : String} {t : SystemTime} :
    requiredTime claims key = .ok t ↔
      ∃ v, claimI64 claims key = some v ∧ v ≠ Binary64.i64Min ∧ t.nanos = v * 10 ^ 9 := by
  unfold requiredTime
  cases h : claimI64 claims key with
  | none => simp
  | some v => simp [unixToSystemTime_eq_ok (claimI64_inI64 h)]

theorem grace_le_maxGracePeriod {g : ℤ} :
    ¬ Duration.fromSecs (max g 0).toNat > maxGracePeriod ↔ g ≤ 90 * 24 * 60 * 60 := by
  have : ¬ (max g 0).toNat * 10 ^ 9 > 90 * 24 * 60 * 60 * 10 ^ 9 ↔ g ≤ 90 * 24 * 60 * 60 := by
    omega
  exact this

theorem fromSecs_toNat (g : ℤ) :
    ((Duration.fromSecs (max g 0).toNat : ℕ) : ℤ) = max g 0 * 10 ^ 9 := by
  unfold Duration.fromSecs
  omega

/-- Every `i64` number of seconds is a point in time. -/
theorem exists_at {v : ℤ} (h : InI64 v) : ∃ t : SystemTime, t.nanos = v * 10 ^ 9 := by
  obtain ⟨h1, h2⟩ := h
  unfold Binary64.i64Min at h1
  unfold Binary64.i64Max at h2
  exact ⟨⟨v * 10 ^ 9, by omega, by omega⟩, rfl⟩

/-- Reading the licence succeeds exactly on links that fit and agree. -/
theorem readLicense_eq_ok {l : ChainClaims} {lic : License} :
    readLicense l = .ok lic ↔ l.Fits ∧ l.Consistent ∧ Describes l.token lic := by
  unfold readLicense
  simp only [bind_eq_ok]
  constructor
  · rintro ⟨⟨e, g⟩, heg, iat, hiat, exp, hexp, _, hproj, di, hdi, de, hde, _, h1, _, h2, _, h3,
      hlic⟩
    obtain ⟨hg, heq⟩ := expiryAndGrace_eq_ok.1 heg
    obtain ⟨rfl, rfl⟩ := Prod.mk.inj heq
    obtain ⟨hi, hin⟩ := (unixToSystemTime_eq_ok (inI64_issuedSecs l.token)).1 hiat
    obtain ⟨he, hen⟩ := (unixToSystemTime_eq_ok (inI64_expiresSecs l.token)).1 hexp
    obtain ⟨a, ha, hamin, han⟩ := requiredTime_eq_ok.1 hdi
    obtain ⟨b, hb, hbmin, hbn⟩ := requiredTime_eq_ok.1 hde
    simp only [ensure_eq_ok, gt_iff_lt, not_lt, SystemTime.le_def] at h1 h2
    rw [ensure_eq_ok, grace_le_maxGracePeriod] at h3
    cases hlic
    refine ⟨⟨hi, he, hg, ?_, ?_⟩, ⟨checkProject_eq_ok.1 hproj, ⟨a, b, ha, hb, ?_, ?_⟩, h3⟩,
      ⟨rfl, rfl, rfl, rfl, rfl, hin, hen, ?_, rfl, rfl, rfl⟩⟩
    · simpa [ha] using hamin
    · simpa [hb] using hbmin
    · omega
    · omega
    · exact fromSecs_toNat _
  · rintro ⟨⟨hi, he, hg, hda, hdb⟩, ⟨hproj, ⟨a, b, ha, hb, h1, h2⟩, h3⟩, hlic⟩
    have hamin : a ≠ Binary64.i64Min := fun h => hda (h ▸ ha)
    have hbmin : b ≠ Binary64.i64Min := fun h => hdb (h ▸ hb)
    obtain ⟨di, hdi⟩ := exists_at (claimI64_inI64 ha)
    obtain ⟨de, hde⟩ := exists_at (claimI64_inI64 hb)
    refine ⟨_, expiryAndGrace_eq_ok.2 ⟨hg, rfl⟩, lic.issuedAt,
      (unixToSystemTime_eq_ok (inI64_issuedSecs l.token)).2 ⟨hi, hlic.issuedAt⟩, lic.expiresAt,
      (unixToSystemTime_eq_ok (inI64_expiresSecs l.token)).2 ⟨he, hlic.expiresAt⟩, (),
      checkProject_eq_ok.2 hproj, di, requiredTime_eq_ok.2 ⟨a, ha, hamin, hdi⟩, de,
      requiredTime_eq_ok.2 ⟨b, hb, hbmin, hde⟩, (), ?_, (), ?_, (), ?_, ?_⟩
    · have := hlic.issuedAt
      simp only [ensure_eq_ok, not_lt, SystemTime.le_def]
      omega
    · have := hlic.issuedAt
      simp only [ensure_eq_ok, gt_iff_lt, not_lt, SystemTime.le_def]
      omega
    · rw [ensure_eq_ok, grace_le_maxGracePeriod]
      exact h3
    · refine congrArg Except.ok (Describes.unique ?_ hlic)
      refine ⟨rfl, rfl, rfl, rfl, rfl, hlic.issuedAt, hlic.expiresAt, ?_, rfl, rfl, rfl⟩
      exact fromSecs_toNat _

/-! ### The whole verification -/

/-- What an accepted activation is, when the arithmetic is accounted for. -/
theorem verifyActivationAnyAt_eq_ok {C : Crypto} {masterPubs : List C.VerifyingKey}
    {token : String} {chain : CertChain} {now : SystemTime} {lic : License} :
    verifyActivationAnyAt C masterPubs token chain now = .ok lic ↔
      ∃ m ∈ masterPubs, ∃ l, ChainSigned C m token chain l ∧ l.Issued ∧ l.Current now ∧
        l.Fits ∧ l.Consistent ∧ Describes l.token lic := by
  unfold verifyActivationAnyAt
  simp only [bind_eq_ok, verifyChain_eq_ok, readLicense_eq_ok]
  constructor
  · rintro ⟨l, ⟨m, hm, hsig, hiss, hcur⟩, hfit, hcons, hdesc⟩
    exact ⟨m, hm, l, hsig, hiss, hcur, hfit, hcons, hdesc⟩
  · rintro ⟨m, hm, l, hsig, hiss, hcur, hfit, hcons, hdesc⟩
    exact ⟨l, ⟨m, hm, hsig, hiss, hcur⟩, hfit, hcons, hdesc⟩

/-- The claims of an accepted chain are those in its payloads. -/
theorem ChainSigned.payloads {C : Crypto} {m : C.VerifyingKey} {token : String}
    {chain : CertChain} {l : ChainClaims} (h : ChainSigned C m token chain l) :
    payloadClaims C chain.submaster = some l.submaster ∧
      payloadClaims C chain.project = some l.project ∧
      payloadClaims C chain.daily = some l.daily ∧ payloadClaims C token = some l.token := by
  obtain ⟨sk, pk, dk, hs, -, hp, -, hd, -, ht⟩ := h
  exact ⟨hs.payloadClaims_eq, hp.payloadClaims_eq, hd.payloadClaims_eq, ht.payloadClaims_eq⟩

/-- Two readings of one token and chain have the same claims. -/
theorem ChainSigned.unique {C : Crypto} {m m' : C.VerifyingKey} {token : String}
    {chain : CertChain} {l l' : ChainClaims} (h : ChainSigned C m token chain l)
    (h' : ChainSigned C m' token chain l') : l = l' := by
  obtain ⟨hs, hp, hd, ht⟩ := h.payloads
  obtain ⟨hs', hp', hd', ht'⟩ := h'.payloads
  rw [hs] at hs'
  rw [hp] at hp'
  rw [hd] at hd'
  rw [ht] at ht'
  cases l
  cases l'
  simp_all

/-- No arithmetic on the time claims in the payloads of this token and chain overflows. -/
def TimesFit (C : Crypto) (token : String) (chain : CertChain) : Prop :=
  ∀ l : ChainClaims, payloadClaims C token = some l.token →
    payloadClaims C chain.daily = some l.daily → l.Fits

/-- **What the chain verification accepts.**  On time claims whose arithmetic does not
overflow, the verification returns `lic` exactly when some trusted master key signed the
chain, the links are issued by the right issuer, current and consistent, and the token
describes `lic`. -/
theorem verifyActivationAnyAt_eq_ok_iff {C : Crypto} {masterPubs : List C.VerifyingKey}
    {token : String} {chain : CertChain} {now : SystemTime} {lic : License}
    (hfit : TimesFit C token chain) :
    verifyActivationAnyAt C masterPubs token chain now = .ok lic ↔
      ∃ m ∈ masterPubs, ∃ l, ChainSigned C m token chain l ∧ l.Issued ∧ l.Current now ∧
        l.Consistent ∧ Describes l.token lic := by
  rw [verifyActivationAnyAt_eq_ok]
  constructor
  · rintro ⟨m, hm, l, hsig, hiss, hcur, -, hcons, hdesc⟩
    exact ⟨m, hm, l, hsig, hiss, hcur, hcons, hdesc⟩
  · rintro ⟨m, hm, l, hsig, hiss, hcur, hcons, hdesc⟩
    obtain ⟨-, -, hd, ht⟩ := hsig.payloads
    exact ⟨m, hm, l, hsig, hiss, hcur, hfit l ht hd, hcons, hdesc⟩

/-! ### A sample chain

A toy signature scheme under which the byte `k` signs a message by 63 copies of itself and
the last byte of the message.  The segments `s`, `p` and `d` are the certificates; `t` is a
token, `u` a newer one of the same activation, and `v` one of another activation. -/

def sampleNow : ℕ := 1791400000

/-- The point `secs` seconds after the epoch. -/
def sampleAt (secs : ℕ) : SystemTime :=
  if h : secs < 2 ^ 63 then ⟨secs * 10 ^ 9, by omega, by omega⟩ else SystemTime.unixEpoch

def sampleSecs (secs : ℕ) : Value := .number (.posInt (UInt64.ofNat secs))

def sampleCert (key hex : String) : Map :=
  [("iss", .string "licenselatte"), ("iat", sampleSecs (sampleNow - 3600)),
    ("exp", sampleSecs (sampleNow + 3600)), ("pid", .string "p"), (key, .string hex)]

def sampleToken (key activationId : String) (iat : ℕ) : Map :=
  [("iss", .string "licenselatte"), ("sub", .string key), ("aid", .string activationId),
    ("pid", .string "p"), ("mid", .string "m"), ("ltype", .string "perpetual"),
    ("iat", sampleSecs iat), ("exp", sampleSecs (sampleNow + 86400)), ("grc", sampleSecs 86400)]

def sampleJson : Bytes → Except String Value
  | [104] => .ok (.object [("alg", .string "EdDSA")])
  | [115] => .ok (.object (sampleCert "spk" "02"))
  | [112] => .ok (.object (sampleCert "ppk" "03"))
  | [100] => .ok (.object (sampleCert "dpk" "04"))
  | [116] => .ok (.object (sampleToken "KEY" "a" (sampleNow - 60)))
  | [117] => .ok (.object (sampleToken "KEY" "a" (sampleNow - 30)))
  | [118] => .ok (.object (sampleToken "OTHER" "b" (sampleNow - 60)))
  | _ => .error "expected value"

/-- A segment of a digit and a byte decodes to the signature under that digit; every other
segment to its own bytes. -/
def sampleCrypto : Crypto where
  VerifyingKey := UInt8
  keyFromBytes bytes := .ok (bytes.val.headD 0)
  verifyStrict key message signature :=
    signature.val = List.replicate 63 key ++ message.getLast?.toList
  base64Decode segment :=
    match asBytes segment with
    | [digit, last] => .ok (List.replicate 63 (digit - 48) ++ [last])
    | bytes => .ok bytes
  jsonFromSlice := sampleJson
  hexDecode s := .ok (List.replicate 32 ((asBytes s).getLastD 48 - 48))

/-- The trusted keys: the second one signed the chain. -/
def sampleKeys : List sampleCrypto.VerifyingKey := ([9, 1] : List UInt8)

def sampleChain : CertChain := ⟨"h.s.1s", "h.p.2p", "h.d.3d"⟩

def sampleLicense (key activationId : String) (issuedAt : SystemTime) : License where
  key := key
  aliasKey := ""
  activationId := activationId
  projectId := "p"
  machineId := "m"
  issuedAt := issuedAt
  expiresAt := sampleAt (sampleNow + 86400)
  gracePeriod := Duration.fromSecs 86400
  licenseType := .perpetual
  metadata := ∅
  entitlements := none

theorem verify_sample : verifyActivationAnyAt sampleCrypto sampleKeys "h.t.4t" sampleChain
    (sampleAt sampleNow) = .ok (sampleLicense "KEY" "a" (sampleAt (sampleNow - 60))) := by
  decide +kernel

theorem timesFit_sample : TimesFit sampleCrypto "h.t.4t" sampleChain := by
  rintro ⟨sub, proj, daily, token⟩ ht hd
  have ht' : payloadClaims sampleCrypto "h.t.4t" =
      some (sampleToken "KEY" "a" (sampleNow - 60)) := by rfl
  have hd' : payloadClaims sampleCrypto sampleChain.daily = some (sampleCert "dpk" "04") := by
    rfl
  cases Option.some.inj (ht.symm.trans ht')
  cases Option.some.inj (hd.symm.trans hd')
  have hiat : claimI64 (sampleCert "dpk" "04") "iat" ≠ some Binary64.i64Min := by decide +kernel
  have hexp : claimI64 (sampleCert "dpk" "04") "exp" ≠ some Binary64.i64Min := by decide +kernel
  have hissued : issuedSecs (sampleToken "KEY" "a" (sampleNow - 60)) ≠ Binary64.i64Min := by
    decide +kernel
  have hexpires : expiresSecs (sampleToken "KEY" "a" (sampleNow - 60)) ≠ Binary64.i64Min := by
    decide +kernel
  have hgrace : InI64 (graceSecs (sampleToken "KEY" "a" (sampleNow - 60))) := by decide +kernel
  exact ⟨hissued, hexpires, hgrace, hiat, hexp⟩

theorem verify_sample_iff : ∃ m ∈ sampleKeys, ∃ l,
    ChainSigned sampleCrypto m "h.t.4t" sampleChain l ∧ l.Issued ∧
      l.Current (sampleAt sampleNow) ∧ l.Consistent ∧
      Describes l.token (sampleLicense "KEY" "a" (sampleAt (sampleNow - 60))) :=
  (verifyActivationAnyAt_eq_ok_iff timesFit_sample).1 verify_sample

end LatteRs
