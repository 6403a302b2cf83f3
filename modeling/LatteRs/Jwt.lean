import LatteRs.Domain
import LatteRs.Segments

/-!
# EdDSA tokens in compact serialization

The module `jwt.rs`: three dot-separated base64url segments, an Ed25519
signature over the first two with their dot, an issuer, and time claims that
are compared with a clock at zero leeway or not at all.

The functions of other crates are the fields of `Crypto`; nothing is assumed
about them.

* `parseAndVerifyInner` and the three entry points that fix its policy;
* `checkTimeClaims`, `claimStr`, `claimI64`;
* `Signed`, what it means that a token carries claims under a key, and
  `parseAndVerifyInner_eq_ok`, which takes an accepted token apart into it.
-/

namespace LatteRs

open Checked

/-- Exactly `n` bytes. -/
abbrev BytesOf (n : ℕ) := {b : Bytes // b.length = n}

/-- The functions of other crates that the verification calls, with their error texts. -/
structure Crypto where
  /-- `ed25519_dalek::VerifyingKey`. -/
  VerifyingKey : Type
  /-- `VerifyingKey::from_bytes`. -/
  keyFromBytes : BytesOf 32 → Except String VerifyingKey
  /-- `VerifyingKey::verify_strict`, on a message and the bytes of a signature. -/
  verifyStrict : VerifyingKey → Bytes → BytesOf 64 → Bool
  /-- `URL_SAFE_NO_PAD.decode`. -/
  base64Decode : String → Except String Bytes
  /-- `serde_json::from_slice::<Value>`. -/
  jsonFromSlice : Bytes → Except String Value
  /-- `hex::decode`. -/
  hexDecode : String → Except String Bytes

/-- The claims of a token that was parsed and verified. -/
structure ParsedJwt where
  claims : Map

/-! ### Claims -/

/-- `claim_as_i64`: the binary64 value of a numeric claim, truncated to an `i64`. -/
def claimAsI64 (claims : Map) (key : String) : Option ℤ :=
  ((claims.get key).bind Value.asF64).map Binary64.Finite.toI64

def claimStr (claims : Map) (key : String) : Option String :=
  (claims.get key).bind Value.asStr

def claimI64 (claims : Map) (key : String) : Option ℤ := claimAsI64 claims key

theorem claimI64_inI64 {claims : Map} {key : String} {v : ℤ}
    (h : claimI64 claims key = some v) : InI64 v := by
  obtain ⟨f, -, rfl⟩ := Option.map_eq_some_iff.1 h
  exact ⟨f.i64Min_le_toI64, f.toI64_le_i64Max⟩

/-! ### The time claims -/

/-- The cast `n as i64` of a `u64`. -/
def u64AsI64 (n : ℕ) : ℤ := if n < 2 ^ 63 then n else n - 2 ^ 64

/-- One of the checks on `iat` and `nbf`: the claim, if numeric, is not past
`now_unix + leeway`. -/
def checkNotBefore (claims : Map) (key : String) (nowUnix leeway : ℤ) :
    Checked VerifyError Unit :=
  match claimAsI64 claims key with
  | some v => do
    let bound ← i64Add nowUnix leeway
    ensure (¬ v > bound) .notYetValid
  | none => .ok ()

/-- The check on `exp`, made only under `check_exp`: the claim, if numeric, is not before
`now_unix - leeway`. -/
def checkNotAfter (claims : Map) (nowUnix leeway : ℤ) (checkExp : Bool) :
    Checked VerifyError Unit :=
  match (claimAsI64 claims "exp").filter fun _ => checkExp with
  | some v => do
    let bound ← i64Sub nowUnix leeway
    ensure (¬ v < bound) .expired
  | none => .ok ()

def checkTimeClaims (claims : Map) (now : SystemTime) (leewaySecs : ℕ) (checkExp : Bool) :
    Checked VerifyError Unit := do
  checkNotBefore claims "iat" now.unixSecs (u64AsI64 leewaySecs)
  checkNotBefore claims "nbf" now.unixSecs (u64AsI64 leewaySecs)
  checkNotAfter claims now.unixSecs (u64AsI64 leewaySecs) checkExp

theorem checkNotBefore_eq_ok {claims : Map} {key : String} {now : SystemTime} {u : Unit} :
    checkNotBefore claims key now.unixSecs 0 = .ok u ↔
      ∀ v, claimI64 claims key = some v → v ≤ now.unixSecs := by
  unfold checkNotBefore claimI64
  cases claimAsI64 claims key with
  | none => simp
  | some v => simp [i64Add, i64Result_of now.unixSecs_inI64]

theorem checkNotAfter_eq_ok {claims : Map} {now : SystemTime} {checkExp : Bool} {u : Unit} :
    checkNotAfter claims now.unixSecs 0 checkExp = .ok u ↔
      (checkExp = true → ∀ v, claimI64 claims "exp" = some v → now.unixSecs ≤ v) := by
  unfold checkNotAfter claimI64
  cases claimAsI64 claims "exp" with
  | none => simp
  | some v => cases checkExp <;> simp [i64Sub, i64Result_of now.unixSecs_inI64, Option.filter]

/-- The time checks at zero leeway, as the certificates get them. -/
theorem checkTimeClaims_eq_ok {claims : Map} {now : SystemTime} {checkExp : Bool} {u : Unit} :
    checkTimeClaims claims now 0 checkExp = .ok u ↔
      (∀ v, claimI64 claims "iat" = some v → v ≤ now.unixSecs) ∧
      (∀ v, claimI64 claims "nbf" = some v → v ≤ now.unixSecs) ∧
      (checkExp = true → ∀ v, claimI64 claims "exp" = some v → now.unixSecs ≤ v) := by
  have h0 : u64AsI64 0 = 0 := rfl
  unfold checkTimeClaims
  simp only [bind_eq_ok, h0, checkNotBefore_eq_ok, checkNotAfter_eq_ok]
  exact ⟨fun ⟨_, hi, _, hn, he⟩ => ⟨hi, hn, he⟩, fun ⟨hi, hn, he⟩ => ⟨(), hi, (), hn, he⟩⟩

/-! ### Parsing and verifying -/

/-- `s.split('.')`. -/
def splitDots (s : String) : List String := (s.toList.splitOn '.').map String.ofList

/-- A base64url segment that holds a JSON text; `what` names it in the errors. -/
def decodeJson (C : Crypto) (what segment : String) : Checked VerifyError Value := do
  let bytes ← ofExcept (fun e => .malformed s!"{what} base64: {e}") (C.base64Decode segment)
  ofExcept (fun e => .malformed s!"{what} json: {e}") (C.jsonFromSlice bytes)

/-- The signature segment. -/
def decodeSignature (C : Crypto) (segment : String) : Checked VerifyError (BytesOf 64) := do
  let bytes ← ofExcept (fun e => .malformed s!"signature base64: {e}") (C.base64Decode segment)
  if h : bytes.length = 64 then .ok ⟨bytes, h⟩
  else fail (.malformed "signature is not 64 bytes")

def parseAndVerifyInner (C : Crypto) (token : String) (pubKey : C.VerifyingKey)
    (expectedIssuer : String) (now : SystemTime) (leewaySecs : ℕ) (checkExp : Bool) :
    Checked VerifyError ParsedJwt :=
  match splitDots token with
  | [headerB64, payloadB64, sigB64] => do
    let header ← decodeJson C "header" headerB64
    let alg := ((header.get "alg").bind Value.asStr).getD ""
    ensure (alg = "EdDSA") (.malformed s!"unexpected alg: {alg}")
    let payload ← decodeJson C "payload" payloadB64
    let claims ← okOr (.malformed "payload is not a JSON object") payload.asObject
    let signature ← decodeSignature C sigB64
    let signingInput := headerB64 ++ "." ++ payloadB64
    ensure (C.verifyStrict pubKey (asBytes signingInput) signature = true) .invalidSignature
    let iss := (claimStr claims "iss").getD ""
    ensure (iss = expectedIssuer) .wrongIssuer
    -- `u64::MAX` stands for an infinite leeway and skips the time checks
    (if leewaySecs ≠ 2 ^ 64 - 1 then checkTimeClaims claims now leewaySecs checkExp else .ok ())
    .ok ⟨claims⟩
  | parts => fail (.malformed s!"expected 3 dot-separated parts, got {parts.length}")

/-- Zero leeway on `iat`, `nbf` and `exp`: the submaster and project certificates. -/
def parseAndVerify (C : Crypto) (token : String) (pubKey : C.VerifyingKey)
    (expectedIssuer : String) (now : SystemTime) : Checked VerifyError ParsedJwt :=
  parseAndVerifyInner C token pubKey expectedIssuer now 0 true

/-- The same without the check on `exp`: the daily certificate. -/
def parseAndVerifyIgnoringExpiry (C : Crypto) (token : String) (pubKey : C.VerifyingKey)
    (expectedIssuer : String) (now : SystemTime) : Checked VerifyError ParsedJwt :=
  parseAndVerifyInner C token pubKey expectedIssuer now 0 false

/-- No time check at all: the activation token. -/
def parseAndVerifyWithInfiniteLeeway (C : Crypto) (token : String) (pubKey : C.VerifyingKey)
    (expectedIssuer : String) : Checked VerifyError ParsedJwt :=
  parseAndVerifyInner C token pubKey expectedIssuer SystemTime.unixEpoch (2 ^ 64 - 1) false

/-! ### What an accepted token is -/

/-- A token of three segments without dots, a header that names `EdDSA`, `claims` as its
payload, and a signature by `key` over everything before the last dot. -/
def Signed (C : Crypto) (key : C.VerifyingKey) (token : String) (claims : Map) : Prop :=
  ∃ header payload signature : String,
    token = header ++ "." ++ payload ++ "." ++ signature ∧
    '.' ∉ header.toList ∧ '.' ∉ payload.toList ∧ '.' ∉ signature.toList ∧
    (∃ bytes value, C.base64Decode header = .ok bytes ∧ C.jsonFromSlice bytes = .ok value ∧
      (value.get "alg").bind Value.asStr = some "EdDSA") ∧
    (∃ bytes, C.base64Decode payload = .ok bytes ∧ C.jsonFromSlice bytes = .ok (.object claims)) ∧
    ∃ sig : BytesOf 64, C.base64Decode signature = .ok sig.val ∧
      C.verifyStrict key (asBytes (header ++ "." ++ payload)) sig = true

/-- The three segments are the ones that contain no dot. -/
theorem splitDots_eq {token h p s : String} :
    splitDots token = [h, p, s] ↔
      token = h ++ "." ++ p ++ "." ++ s ∧
        '.' ∉ h.toList ∧ '.' ∉ p.toList ∧ '.' ∉ s.toList := by
  have hcat : (h ++ "." ++ p ++ "." ++ s).toList =
      h.toList ++ '.' :: (p.toList ++ '.' :: s.toList) := by simp
  rw [splitDots, Segments.map_splitOn_eq_three, ← hcat, String.toList_inj]

theorem decodeJson_eq_ok {C : Crypto} {what segment : String} {v : Value} :
    decodeJson C what segment = .ok v ↔
      ∃ bytes, C.base64Decode segment = .ok bytes ∧ C.jsonFromSlice bytes = .ok v := by
  simp [decodeJson, bind_eq_ok]

theorem decodeSignature_eq_ok {C : Crypto} {segment : String} {sig : BytesOf 64} :
    decodeSignature C segment = .ok sig ↔ C.base64Decode segment = .ok sig.val := by
  unfold decodeSignature
  simp only [bind_eq_ok, ofExcept_eq_ok]
  constructor
  · rintro ⟨bytes, hb, h⟩
    split_ifs at h with hlen
    · cases h
      exact hb
    · simp at h
  · intro h
    exact ⟨sig.val, h, by rw [dif_pos sig.property]⟩

theorem asObject_eq_some {v : Value} {claims : Map} :
    v.asObject = some claims ↔ v = .object claims := by
  cases v <;> simp [Value.asObject]

/-- Reading an absent string as `""` is harmless where a non-empty one is expected. -/
theorem getD_eq_iff {o : Option String} {s : String} (hs : s ≠ "") :
    o.getD "" = s ↔ o = some s := by
  cases o with
  | none => simp [hs.symm]
  | some t => simp

/-- The time policy of `parseAndVerifyInner`: the checks at the given leeway, or none when
it is infinite. -/
def timesOk (claims : Map) (now : SystemTime) (leewaySecs : ℕ) (checkExp : Bool) : Prop :=
  leewaySecs ≠ 2 ^ 64 - 1 → checkTimeClaims claims now leewaySecs checkExp = .ok ()

/-- **What `parse_and_verify_inner` accepts.** -/
theorem parseAndVerifyInner_eq_ok {C : Crypto} {token : String} {key : C.VerifyingKey}
    {issuer : String} (hissuer : issuer ≠ "") {now : SystemTime} {leewaySecs : ℕ}
    {checkExp : Bool} {jwt : ParsedJwt} :
    parseAndVerifyInner C token key issuer now leewaySecs checkExp = .ok jwt ↔
      Signed C key token jwt.claims ∧ claimStr jwt.claims "iss" = some issuer ∧
        timesOk jwt.claims now leewaySecs checkExp := by
  unfold parseAndVerifyInner
  constructor
  · intro h
    split at h
    · rename_i hd pl sg hsplit
      obtain ⟨htok, h1, h2, h3⟩ := splitDots_eq.1 hsplit
      simp only [bind_eq_ok, decodeJson_eq_ok, ensure_eq_ok, okOr_eq_ok, asObject_eq_some,
        decodeSignature_eq_ok, getD_eq_iff (show ("EdDSA" : String) ≠ "" by decide),
        getD_eq_iff hissuer] at h
      obtain ⟨header, ⟨hb, hhb, hhv⟩, -, halg, payload, ⟨pb, hpb, hpv⟩, claims, rfl, sig, hsig,
        -, hver, -, hiss, u, htimes, hok⟩ := h
      cases hok
      refine ⟨⟨hd, pl, sg, htok, h1, h2, h3, ⟨hb, header, hhb, hhv, halg⟩, ⟨pb, hpb, hpv⟩,
        sig, hsig, hver⟩, hiss, fun hl => ?_⟩
      rwa [if_pos hl] at htimes
    · simp at h
  · rintro ⟨⟨hd, pl, sg, htok, h1, h2, h3, ⟨hb, header, hhb, hhv, halg⟩, ⟨pb, hpb, hpv⟩, sig,
      hsig, hver⟩, hiss, htimes⟩
    have hsplit := splitDots_eq.2 ⟨htok, h1, h2, h3⟩
    rw [hsplit]
    simp only [bind_eq_ok, decodeJson_eq_ok, ensure_eq_ok, okOr_eq_ok, asObject_eq_some,
      decodeSignature_eq_ok, getD_eq_iff (show ("EdDSA" : String) ≠ "" by decide),
      getD_eq_iff hissuer]
    refine ⟨header, ⟨hb, hhb, hhv⟩, (), halg, _, ⟨pb, hpb, hpv⟩, jwt.claims, rfl, sig, hsig, (),
      hver, (), hiss, (), ?_, rfl⟩
    by_cases hl : leewaySecs ≠ 2 ^ 64 - 1
    · rw [if_pos hl]; exact htimes hl
    · rw [if_neg hl]

end LatteRs
