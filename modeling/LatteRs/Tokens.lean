import LatteRs.Acceptance

/-!
# Tokens that read alike

Once the certificates are verified, `verify_activation_any_at` looks at a token
only through the claims that the daily key signed.  So two such tokens whose
claims are read to related licences verify to related results, with the same
errors.

* `verifyActivationAnyAt_eq`: the walk down to the daily key, apart from the
  token;
* `SignedByDaily`: the daily key of a chain signed a token with these claims;
* `verify_of_read`: the comparison of two tokens;
* `readLicense_of_same`: what the claims have to share for the licences to be
  equal outside their entitlements and their metadata.
-/

namespace LatteRs

open Checked

/-! ### The certificates -/

variable {C : Crypto} {masterPubs : List C.VerifyingKey} {chain : CertChain} {now : SystemTime}

/-- The verification is the walk down to the daily key and then the token. -/
theorem verifyActivationAnyAt_eq (token : String) :
    verifyActivationAnyAt C masterPubs token chain now =
      verifyCerts C masterPubs chain now >>= fun certs =>
        parseAndVerifyWithInfiniteLeeway C token certs.dailyPub issuer >>= fun activation =>
          readLicense (certs.links activation.claims) := by
  unfold verifyActivationAnyAt verifyChain
  simp only [bind_assoc, ok_bind]

/-- The payload of the daily certificate names `key`. -/
def DailyKey (C : Crypto) (chain : CertChain) (key : C.VerifyingKey) : Prop :=
  ∃ daily, payloadClaims C chain.daily = some daily ∧ NamesKey C daily "dpk" key

theorem verifyCerts_dailyKey {certs : Certs C}
    (h : verifyCerts C masterPubs chain now = .ok certs) :
    DailyKey C chain certs.dailyPub := by
  unfold verifyCerts at h
  simp only [bind_eq_ok, parseAndVerifyIgnoringExpiry_eq_ok, pubKeyFromCert_eq_ok,
    Except.ok.injEq] at h
  obtain ⟨sub, -, submasterPub, -, proj, -, projectPub, -, daily, ⟨hsigned, -⟩, dailyPub, hkey,
    rfl⟩ := h
  exact ⟨daily.claims, hsigned.payloadClaims_eq, hkey⟩

/-! ### Signed tokens -/

/-- The daily key of the chain signed a token with these claims. -/
def SignedByDaily (C : Crypto) (chain : CertChain) (token : String) (claims : Map) : Prop :=
  ∀ key, DailyKey C chain key → Signed C key token claims

/-- A signed token is accepted unless it names another issuer. -/
theorem Signed.parse {key : C.VerifyingKey} {token : String} {claims : Map}
    (h : Signed C key token claims) :
    parseAndVerifyWithInfiniteLeeway C token key issuer =
      if claimStr claims "iss" = some issuer then .ok ⟨claims⟩ else fail .wrongIssuer := by
  split_ifs with hiss
  · exact parseAndVerifyWithInfiniteLeeway_eq_ok.2 ⟨h, hiss⟩
  · obtain ⟨hd, pl, sg, htok, h1, h2, h3, ⟨hb, header, hhb, hhv, halg⟩, ⟨pb, hpb, hpv⟩, sig, hsig,
      hver⟩ := h
    have hsplit := splitDots_eq.2 ⟨htok, h1, h2, h3⟩
    have hheader : decodeJson C "header" hd = .ok header := decodeJson_eq_ok.2 ⟨hb, hhb, hhv⟩
    have hpayload : decodeJson C "payload" pl = .ok (.object claims) :=
      decodeJson_eq_ok.2 ⟨pb, hpb, hpv⟩
    have hiss' : ¬ (claimStr claims "iss").getD "" = issuer := by
      rwa [getD_eq_iff issuer_ne_empty]
    unfold parseAndVerifyWithInfiniteLeeway parseAndVerifyInner
    rw [hsplit]
    simp only
    rw [hheader, ok_bind, halg, hpayload, ok_bind, decodeSignature_eq_ok.2 hsig]
    simp [ensure, okOr, Value.asObject, hver, hiss', fail]

/-- **Two tokens of one daily key.**  If their claims name the same issuer, and the second one
always reads as the first one does with `f` applied, then they verify so. -/
theorem verify_of_read {token token' : String} {claims claims' : Map} {f : License → License}
    (h : SignedByDaily C chain token claims) (h' : SignedByDaily C chain token' claims')
    (hiss : claimStr claims' "iss" = claimStr claims "iss")
    (hread : ∀ certs : Certs C,
      readLicense (certs.links claims') = (readLicense (certs.links claims)).map f) :
    verifyActivationAnyAt C masterPubs token' chain now =
      (verifyActivationAnyAt C masterPubs token chain now).map f := by
  rw [verifyActivationAnyAt_eq, verifyActivationAnyAt_eq]
  cases hcerts : verifyCerts C masterPubs chain now with
  | error e => rfl
  | ok certs =>
    have hkey := verifyCerts_dailyKey hcerts
    simp only [ok_bind]
    rw [(h _ hkey).parse, (h' _ hkey).parse, hiss]
    split_ifs
    · exact hread certs
    · rfl

/-! ### Reading the same -/

/-- The claims that are read as strings. -/
def stringClaims : List String := ["sub", "alias", "aid", "pid", "mid", "ltype"]

/-- A verified licence with the entitlements and the metadata of other claims. -/
def License.withExtras (lic : License) (claims : Map) : License :=
  { lic with metadata := readMetadata claims, entitlements := decodeEntitlements claims }

/-- Two tokens with the same strings, whose time claims mean the same, are read alike but for
their entitlements and their metadata. -/
theorem readLicense_of_same {l : ChainClaims} {claims : Map}
    (hstr : ∀ key ∈ stringClaims, claimStr claims key = claimStr l.token key)
    (hissued : issuedSecs claims = issuedSecs l.token)
    (htimes : expiryAndGrace claims (issuedSecs claims) ((claimI64 claims "exp").getD 0) =
      expiryAndGrace l.token (issuedSecs l.token) ((claimI64 l.token "exp").getD 0)) :
    readLicense { l with token := claims } = (readLicense l).map (·.withExtras claims) := by
  have hempty : ∀ key ∈ stringClaims, claimOrEmpty claims key = claimOrEmpty l.token key := by
    intro key hkey
    unfold claimOrEmpty
    rw [hstr key hkey]
  simp only [stringClaims, List.mem_cons, List.not_mem_nil, or_false, forall_eq_or_imp,
    forall_eq] at hempty
  obtain ⟨hsub, halias, haid, hpid, hmid, hltype⟩ := hempty
  rw [hissued] at htimes
  unfold issuedSecs at hissued htimes
  unfold readLicense
  simp only [htimes, hissued, hsub, halias, haid, hpid, hmid, hltype, map_bind]
  rfl

/-- A licence that was read has the entitlements and the metadata of its token. -/
theorem map_withExtras {l : ChainClaims} {claims : Map}
    (hent : claims.get "ent" = l.token.get "ent") (hpmd : claims.get "pmd" = l.token.get "pmd") :
    (readLicense l).map (·.withExtras claims) = readLicense l := by
  have hmeta : readMetadata claims = readMetadata l.token := by
    unfold readMetadata
    rw [hpmd]
  have hents : decodeEntitlements claims = decodeEntitlements l.token := by
    unfold decodeEntitlements
    rw [hent]
  cases hread : readLicense l with
  | error e => rfl
  | ok lic =>
    obtain ⟨-, -, hlic⟩ := readLicense_eq_ok.1 hread
    show Except.ok (lic.withExtras claims) = Except.ok lic
    unfold License.withExtras
    rw [hmeta, hents, ← hlic.metadata, ← hlic.entitlements]

/-! ### More samples -/

/-- The sample scheme with more texts than those of the sample chain. -/
def sampleWith (more : Bytes → Option Map) : Crypto where
  VerifyingKey := UInt8
  keyFromBytes := sampleCrypto.keyFromBytes
  verifyStrict := sampleCrypto.verifyStrict
  base64Decode := sampleCrypto.base64Decode
  jsonFromSlice bytes := (more bytes).elim (sampleJson bytes) fun claims => .ok (.object claims)
  hexDecode := sampleCrypto.hexDecode

section
variable {more : Bytes → Option Map}

theorem dailyKey_sampleWith (hmore : more [100] = none) {key : (sampleWith more).VerifyingKey}
    (h : DailyKey (sampleWith more) sampleChain key) : key = (4 : UInt8) := by
  obtain ⟨daily, hd, hexStr, bytes, hs, hb, hk⟩ := h
  have hjson : (sampleWith more).jsonFromSlice [100] = .ok (.object (sampleCert "dpk" "04")) := by
    show (more [100]).elim _ _ = _
    rw [hmore]
    rfl
  have hd' : payloadClaims (sampleWith more) sampleChain.daily =
      some (sampleCert "dpk" "04") := by
    unfold payloadClaims
    rw [show splitDots sampleChain.daily = ["h", "d", "3d"] by rfl]
    simp only
    rw [decodeJson_eq_ok.2 ⟨[100], by rfl, hjson⟩]
    rfl
  cases Option.some.inj (hd'.symm.trans hd)
  have hs' : claimStr (sampleCert "dpk" "04") "dpk" = some "04" := by decide
  cases Option.some.inj (hs'.symm.trans hs)
  have hb' : (sampleWith more).hexDecode "04" = .ok (List.replicate 32 4) := by rfl
  rw [hb'] at hb
  obtain ⟨bytes, hlen⟩ := bytes
  cases hb
  cases hk
  rfl

/-- The daily key of the sample chain signs the tokens whose bodies are one of these letters. -/
theorem signedByDaily_sampleWith (hdaily : more [100] = none) (hheader : more [104] = none)
    {segment : String} (hs : segment = "t" ∨ segment = "e" ∨ segment = "f") {claims : Map}
    (hclaims : (sampleWith more).jsonFromSlice (asBytes segment) = .ok (.object claims)) :
    SignedByDaily (sampleWith more) sampleChain ("h." ++ segment ++ ".4" ++ segment) claims := by
  intro key hkey
  cases dailyKey_sampleWith hdaily hkey
  have halg : (sampleWith more).jsonFromSlice [104] =
      .ok (.object [("alg", .string "EdDSA")]) := by
    show (more [104]).elim _ _ = _
    rw [hheader]
    rfl
  rcases hs with rfl | rfl | rfl
  · exact ⟨"h", "t", "4t", by decide, by decide, by decide, by decide,
      ⟨[104], _, by rfl, halg, rfl⟩, ⟨[116], by rfl, hclaims⟩, ⟨_, rfl⟩, rfl, by rfl⟩
  · exact ⟨"h", "e", "4e", by decide, by decide, by decide, by decide,
      ⟨[104], _, by rfl, halg, rfl⟩, ⟨[101], by rfl, hclaims⟩, ⟨_, rfl⟩, rfl, by rfl⟩
  · exact ⟨"h", "f", "4f", by decide, by decide, by decide, by decide,
      ⟨[104], _, by rfl, halg, rfl⟩, ⟨[102], by rfl, hclaims⟩, ⟨_, rfl⟩, rfl, by rfl⟩

end

end LatteRs
