import LatteRs.Jwt

/-!
# The certificate chain: master → submaster → project → daily → token

The module `verify.rs`.  `verifyActivationAnyAt` walks the chain under any of
several master keys, reads the activation token in either of its two formats,
and makes the cross-checks between the links.

* `pubKeyFromCert`, `verifySubmaster` (the loop over the master keys),
  `verifyCerts`, `verifyChain`, `readLicense`, `verifyActivationAnyAt`;
* `verifySubmaster_eq_ok`: the loop succeeds exactly when some master key
  verifies the submaster certificate, whatever the others answer.
-/

namespace LatteRs

open Checked

def issuer : String := "licenselatte"

/-- The `expires_at` of a licence that never ends: 2099-01-01T00:00:00Z. -/
def noLicenceEnd : ℤ := 4070908800

def maxGracePeriod : Duration := Duration.fromSecs (90 * 24 * 60 * 60)

/-! ### Keys in certificates -/

def pubKeyFromBytes (C : Crypto) (bytes : Bytes) : Checked VerifyError C.VerifyingKey :=
  if h : bytes.length = 32 then
    ofExcept (fun e => .invalidClaim "pubkey" e) (C.keyFromBytes ⟨bytes, h⟩)
  else fail (.invalidClaim "pubkey" "must be 32 bytes")

def pubKeyFromCert (C : Crypto) (claims : Map) (field : String) :
    Checked VerifyError C.VerifyingKey := do
  let hexStr ← okOr (.missingClaim field) (claimStr claims field)
  let bytes ← ofExcept (fun e => .invalidClaim field s!"not valid hex: {e}") (C.hexDecode hexStr)
  pubKeyFromBytes C bytes

/-- The claim `field` holds, in hex, the 32 bytes of `key`. -/
def NamesKey (C : Crypto) (claims : Map) (field : String) (key : C.VerifyingKey) : Prop :=
  ∃ (hexStr : String) (bytes : BytesOf 32), claimStr claims field = some hexStr ∧
    C.hexDecode hexStr = .ok bytes.val ∧ C.keyFromBytes bytes = .ok key

theorem pubKeyFromCert_eq_ok {C : Crypto} {claims : Map} {field : String}
    {key : C.VerifyingKey} :
    pubKeyFromCert C claims field = .ok key ↔ NamesKey C claims field key := by
  unfold pubKeyFromCert pubKeyFromBytes NamesKey
  simp only [bind_eq_ok, okOr_eq_ok, ofExcept_eq_ok]
  constructor
  · rintro ⟨hexStr, hs, bytes, hb, h⟩
    split_ifs at h with hlen
    · exact ⟨hexStr, ⟨bytes, hlen⟩, hs, hb, by simpa using h⟩
    · simp at h
  · rintro ⟨hexStr, bytes, hs, hb, hk⟩
    exact ⟨hexStr, hs, bytes.val, hb, by rw [dif_pos bytes.property]; simpa using hk⟩

/-! ### The walk down the chain -/

/-- The loop over the master keys: the first one that verifies the submaster certificate
ends it; `sub` is the answer of the keys tried so far. -/
def verifySubmaster (C : Crypto) (submaster : String) (now : SystemTime) :
    List C.VerifyingKey → Checked VerifyError ParsedJwt → Checked VerifyError ParsedJwt
  | [], sub => sub
  | masterPub :: masterPubs, _ =>
    match parseAndVerify C submaster masterPub issuer now with
    | .ok sub => .ok sub
    | .error .panic => .error .panic
    | .error (.err e) => verifySubmaster C submaster now masterPubs (fail e)

/-- The claims of the four links, in the order in which they are verified. -/
structure ChainClaims where
  submaster : Map
  project : Map
  daily : Map
  token : Map

/-- The claims of the three certificates, and the key that the last one names. -/
structure Certs (C : Crypto) where
  submaster : Map
  project : Map
  daily : Map
  dailyPub : C.VerifyingKey

/-- Steps 1 to 3 of `verify_activation_any_at`. -/
def verifyCerts (C : Crypto) (masterPubs : List C.VerifyingKey) (chain : CertChain)
    (now : SystemTime) : Checked VerifyError (Certs C) := do
  let sub ← verifySubmaster C chain.submaster now masterPubs (fail .invalidSignature)
  let submasterPub ← pubKeyFromCert C sub.claims "spk"
  let proj ← parseAndVerify C chain.project submasterPub issuer now
  let projectPub ← pubKeyFromCert C proj.claims "ppk"
  -- the daily certificate's `exp` bounds the token's `iat` instead of `now`
  let daily ← parseAndVerifyIgnoringExpiry C chain.daily projectPub issuer now
  let dailyPub ← pubKeyFromCert C daily.claims "dpk"
  .ok ⟨sub.claims, proj.claims, daily.claims, dailyPub⟩

/-- The links of a token under verified certificates. -/
def Certs.links {C : Crypto} (certs : Certs C) (token : Map) : ChainClaims :=
  ⟨certs.submaster, certs.project, certs.daily, token⟩

/-- Steps 1 to 4 of `verify_activation_any_at`. -/
def verifyChain (C : Crypto) (masterPubs : List C.VerifyingKey) (token : String)
    (chain : CertChain) (now : SystemTime) : Checked VerifyError ChainClaims := do
  let certs ← verifyCerts C masterPubs chain now
  let activation ← parseAndVerifyWithInfiniteLeeway C token certs.dailyPub issuer
  .ok (certs.links activation.claims)

/-! ### Reading the token -/

/-- A string claim, `""` when it is absent or not a string. -/
def claimOrEmpty (claims : Map) (key : String) : String := (claimStr claims key).getD ""

/-- The end of the licence and the length of its grace period, in seconds.  The two token
formats are told apart by `grc` alone: with it `exp` is the licence's end, without it `exp`
is the offline deadline and `lex`, if present, the licence's end. -/
def expiryAndGrace (claims : Map) (iatSecs expSecs : ℤ) : Checked VerifyError (ℤ × ℤ) :=
  match claimI64 claims "grc" with
  | some grc => .ok (expSecs, grc)
  | none => do
    let graceSecs ← i64Sub expSecs iatSecs
    .ok ((claimI64 claims "lex").getD noLicenceEnd, graceSecs)

/-- The string entries of the `pmd` claim. -/
def readMetadata (claims : Map) : HashMap String :=
  match (claims.get "pmd").bind Value.asObject with
  | some pmd =>
    pmd.foldl
      (fun out entry =>
        match entry.2.asStr with
        | some s => out.insert entry.1 s
        | none => out) ∅
  | none => ∅

/-- The project certificate's own `pid`, if there is one that is not empty, is the token's. -/
def checkProject (project : Map) (projectId : String) : Checked VerifyError Unit :=
  match claimStr project "pid" with
  | some pid =>
    ensure (¬ (pid ≠ "" ∧ pid ≠ projectId)) (.chainInconsistent
      s!"project_id mismatch between activation JWT ({projectId}) and project cert ({pid})")
  | none => .ok ()

/-- A time claim that the daily certificate must have. -/
def requiredTime (claims : Map) (key : String) : Checked VerifyError SystemTime :=
  match claimI64 claims key with
  | some secs => unixToSystemTime secs
  | none => fail (.missingClaim key)

/-- The second half of `verify_activation_any_at`: the licence in the token, cross-checked
with the project and the daily certificate. -/
def readLicense (links : ChainClaims) : Checked VerifyError License := do
  let claims := links.token
  let iatSecs := (claimI64 claims "iat").getD 0
  let expSecs := (claimI64 claims "exp").getD 0
  let (expiresSecs, graceSecs) ← expiryAndGrace claims iatSecs expSecs
  let gracePeriod := Duration.fromSecs (max graceSecs 0).toNat
  let iat ← unixToSystemTime iatSecs
  let expiresAt ← unixToSystemTime expiresSecs
  checkProject links.project (claimOrEmpty claims "pid")
  let dailyIat ← requiredTime links.daily "iat"
  let dailyExp ← requiredTime links.daily "exp"
  ensure (¬ iat < dailyIat) (.chainInconsistent "activation JWT iat is before daily cert iat")
  ensure (¬ iat > dailyExp) (.chainInconsistent "activation JWT iat is after daily cert exp")
  ensure (¬ gracePeriod > maxGracePeriod)
    (.chainInconsistent s!"grace period too long: {gracePeriod.debug}")
  .ok {
    key := claimOrEmpty claims "sub"
    aliasKey := claimOrEmpty claims "alias"
    activationId := claimOrEmpty claims "aid"
    projectId := claimOrEmpty claims "pid"
    machineId := claimOrEmpty claims "mid"
    issuedAt := iat
    expiresAt := expiresAt
    gracePeriod := gracePeriod
    licenseType := LicenseType.fromClaim (claimOrEmpty claims "ltype")
    metadata := readMetadata claims
    entitlements := decodeEntitlements claims }

/-- Verifies the full chain and the activation token, trusting any one of `masterPubs`. -/
def verifyActivationAnyAt (C : Crypto) (masterPubs : List C.VerifyingKey) (token : String)
    (chain : CertChain) (now : SystemTime) : Checked VerifyError License := do
  let links ← verifyChain C masterPubs token chain now
  readLicense links

/-! ### The loop over the master keys -/

/-- The claims in the payload of a token, whoever signed it. -/
def payloadClaims (C : Crypto) (token : String) : Option Map :=
  match splitDots token with
  | [_, payload, _] =>
    match decodeJson C "payload" payload with
    | .ok v => v.asObject
    | .error _ => none
  | _ => none

theorem Signed.payloadClaims_eq {C : Crypto} {key : C.VerifyingKey} {token : String}
    {claims : Map} (h : Signed C key token claims) : payloadClaims C token = some claims := by
  obtain ⟨hd, pl, sg, htok, h1, h2, h3, -, ⟨bytes, hb, hv⟩, -⟩ := h
  unfold payloadClaims
  rw [splitDots_eq.2 ⟨htok, h1, h2, h3⟩]
  simp only
  rw [decodeJson_eq_ok.2 ⟨bytes, hb, hv⟩]
  rfl

theorem issuer_ne_empty : issuer ≠ "" := by decide

/-- What the submaster and project certificates have to pass. -/
theorem parseAndVerify_eq_ok {C : Crypto} {token : String} {key : C.VerifyingKey}
    {now : SystemTime} {jwt : ParsedJwt} :
    parseAndVerify C token key issuer now = .ok jwt ↔
      Signed C key token jwt.claims ∧ claimStr jwt.claims "iss" = some issuer ∧
      (∀ v, claimI64 jwt.claims "iat" = some v → v ≤ now.unixSecs) ∧
      (∀ v, claimI64 jwt.claims "nbf" = some v → v ≤ now.unixSecs) ∧
      (∀ v, claimI64 jwt.claims "exp" = some v → now.unixSecs ≤ v) := by
  unfold parseAndVerify
  rw [parseAndVerifyInner_eq_ok issuer_ne_empty, timesOk, checkTimeClaims_eq_ok]
  simp

/-- What the daily certificate has to pass. -/
theorem parseAndVerifyIgnoringExpiry_eq_ok {C : Crypto} {token : String}
    {key : C.VerifyingKey} {now : SystemTime} {jwt : ParsedJwt} :
    parseAndVerifyIgnoringExpiry C token key issuer now = .ok jwt ↔
      Signed C key token jwt.claims ∧ claimStr jwt.claims "iss" = some issuer ∧
      (∀ v, claimI64 jwt.claims "iat" = some v → v ≤ now.unixSecs) ∧
      (∀ v, claimI64 jwt.claims "nbf" = some v → v ≤ now.unixSecs) := by
  unfold parseAndVerifyIgnoringExpiry
  rw [parseAndVerifyInner_eq_ok issuer_ne_empty, timesOk, checkTimeClaims_eq_ok]
  simp

/-- What the activation token has to pass. -/
theorem parseAndVerifyWithInfiniteLeeway_eq_ok {C : Crypto} {token : String}
    {key : C.VerifyingKey} {jwt : ParsedJwt} :
    parseAndVerifyWithInfiniteLeeway C token key issuer = .ok jwt ↔
      Signed C key token jwt.claims ∧ claimStr jwt.claims "iss" = some issuer := by
  unfold parseAndVerifyWithInfiniteLeeway
  rw [parseAndVerifyInner_eq_ok issuer_ne_empty, timesOk]
  simp

/-- At zero leeway no time check overflows. -/
theorem checkTimeClaims_ne_panic (claims : Map) (now : SystemTime) (checkExp : Bool) :
    checkTimeClaims claims now 0 checkExp ≠ .error .panic := by
  have h0 : u64AsI64 0 = 0 := rfl
  have before : ∀ key, checkNotBefore claims key now.unixSecs 0 ≠ .error .panic := by
    intro key
    unfold checkNotBefore
    cases claimAsI64 claims key with
    | none => simp
    | some v => simp [i64Add, i64Result_of now.unixSecs_inI64]
  unfold checkTimeClaims
  rw [h0]
  refine bind_ne_panic (before "iat") fun _ => bind_ne_panic (before "nbf") fun _ => ?_
  unfold checkNotAfter
  cases (claimAsI64 claims "exp").filter fun _ => checkExp with
  | none => simp
  | some v => simp [i64Sub, i64Result_of now.unixSecs_inI64]

/-- At zero leeway and at an infinite one, no token panics. -/
theorem parseAndVerifyInner_ne_panic (C : Crypto) (token : String) (key : C.VerifyingKey)
    (expectedIssuer : String) (now : SystemTime) {leewaySecs : ℕ} (checkExp : Bool)
    (hleeway : leewaySecs = 0 ∨ leewaySecs = 2 ^ 64 - 1) :
    parseAndVerifyInner C token key expectedIssuer now leewaySecs checkExp ≠ .error .panic := by
  have json : ∀ what segment, decodeJson C what segment ≠ .error .panic := fun what segment =>
    bind_ne_panic (ofExcept_ne_panic _ _) fun _ => ofExcept_ne_panic _ _
  have sig : ∀ segment, decodeSignature C segment ≠ .error .panic := by
    intro segment
    refine bind_ne_panic (ofExcept_ne_panic _ _) fun bytes => ?_
    split_ifs <;> simp
  unfold parseAndVerifyInner
  split
  · refine bind_ne_panic (json _ _) fun header => ?_
    refine bind_ne_panic (ensure_ne_panic _ _) fun _ => ?_
    refine bind_ne_panic (json _ _) fun payload => ?_
    refine bind_ne_panic (okOr_ne_panic _ _) fun claims => ?_
    refine bind_ne_panic (sig _) fun signature => ?_
    refine bind_ne_panic (ensure_ne_panic _ _) fun _ => ?_
    refine bind_ne_panic (ensure_ne_panic _ _) fun _ => ?_
    refine bind_ne_panic ?_ fun _ => ok_ne_panic _
    rcases hleeway with rfl | rfl
    · rw [if_pos (by norm_num)]
      exact checkTimeClaims_ne_panic claims now checkExp
    · rw [if_neg (by norm_num)]
      simp
  · simp

theorem parseAndVerify_ne_panic (C : Crypto) (token : String) (key : C.VerifyingKey)
    (now : SystemTime) : parseAndVerify C token key issuer now ≠ .error .panic :=
  parseAndVerifyInner_ne_panic C token key issuer now true (Or.inl rfl)

theorem pubKeyFromCert_ne_panic (C : Crypto) (claims : Map) (field : String) :
    pubKeyFromCert C claims field ≠ .error .panic := by
  unfold pubKeyFromCert
  refine bind_ne_panic (okOr_ne_panic _ _) fun hexStr => ?_
  refine bind_ne_panic (ofExcept_ne_panic _ _) fun bytes => ?_
  unfold pubKeyFromBytes
  split_ifs <;> simp

/-- The loop over the master keys succeeds exactly when one of them verifies the submaster
certificate.  The claims it returns are the payload's, so it does not matter which. -/
theorem verifySubmaster_eq_ok {C : Crypto} {submaster : String} {now : SystemTime}
    {masterPubs : List C.VerifyingKey} {e : VerifyError} {sub : ParsedJwt} :
    verifySubmaster C submaster now masterPubs (fail e) = .ok sub ↔
      ∃ m ∈ masterPubs, parseAndVerify C submaster m issuer now = .ok sub := by
  induction masterPubs generalizing e with
  | nil => simp [verifySubmaster]
  | cons m ms ih =>
    unfold verifySubmaster
    cases hm : parseAndVerify C submaster m issuer now with
    | error halt =>
      cases halt with
      | panic => exact absurd hm (parseAndVerify_ne_panic C submaster m now)
      | err e' => simp [ih, hm]
    | ok sub' =>
      simp only [Except.ok.injEq, List.mem_cons, exists_eq_or_imp, hm]
      refine ⟨Or.inl, ?_⟩
      rintro (h | ⟨m', -, hm'⟩)
      · exact h
      · have h1 := (parseAndVerify_eq_ok.1 hm).1.payloadClaims_eq
        have h2 := (parseAndVerify_eq_ok.1 hm').1.payloadClaims_eq
        rw [h1] at h2
        cases sub; cases sub'
        simpa using h2

end LatteRs
