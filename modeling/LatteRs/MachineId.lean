import LatteRs.Hmac
import LatteRs.Jwt

/-!
# Machine ids

The module `machine_id.rs`: lowercase hex of HMAC-SHA256 of the app id under the
raw machine id.  SHA-256 is an arbitrary function to 32 bytes, and the
platform's machine id is a parameter, `none` where it cannot be read.

* `hmacSha256`, `protect`, `derive`;
* `hexEncode_injective`, `derive_eq`: what equal machine ids mean.
-/

namespace LatteRs

/-- A hash function to 32 bytes. -/
abbrev Sha256 := Bytes → BytesOf 32

/-- The digits of `hex::encode`. -/
def hexDigits : List Char := "0123456789abcdef".toList

def hexDigit (n : ℕ) : Char := hexDigits.getD n '0'

/-- `hex::encode`. -/
def hexEncode (bytes : Bytes) : String :=
  String.ofList (bytes.flatMap fun b => [hexDigit (b.toNat / 16), hexDigit (b.toNat % 16)])

/-- HMAC over SHA-256. -/
def hmacSha256 (sha256 : Sha256) (key msg : Bytes) : BytesOf 32 :=
  let start := if key.length > 64 then (sha256 key).1 else key
  let k := start ++ List.replicate (64 - start.length) 0
  let ipad := k.map fun b => b ^^^ 0x36
  let opad := k.map fun b => b ^^^ 0x5c
  let inner := sha256 (ipad ++ msg)
  sha256 (opad ++ inner.1)

/-- The message of the HMAC. -/
def appMessage (appId : String) : Bytes := asBytes ("licenselatte_" ++ appId)

def protect (sha256 : Sha256) (raw appId : String) : String :=
  hexEncode (hmacSha256 sha256 (asBytes raw) (appMessage appId)).1

/-- The machine id of a product; an absent or empty raw id stands for the platform's. -/
def derive (sha256 : Sha256) (platformId : Option String) (appId : String)
    (raw : Option String) : Option String := do
  let raw ← match raw with
    | some r => if r ≠ "" then some r else platformId
    | none => platformId
  some (protect sha256 raw appId)

/-- The 64 bytes that the masks of the HMAC are applied to. -/
def keyBlock (sha256 : Sha256) (raw : String) : Bytes :=
  Hmac.keyBlock (fun bytes => (sha256 bytes).1) 64 (asBytes raw)

/-- The byte strings that `derive` hashes for a supplied raw id. -/
def hashedFor (sha256 : Sha256) (appId raw : String) : List Bytes :=
  Hmac.hashed (fun bytes => (sha256 bytes).1) 64 0x36 0x5c (asBytes raw) (appMessage appId)

/-- Two different byte strings, hashed for the one machine id and for the other, have the same
hash. -/
def HashCollision (sha256 : Sha256) (appId raw appId' raw' : String) : Prop :=
  Hmac.Collision (fun bytes => (sha256 bytes).1) (hashedFor sha256 appId raw)
    (hashedFor sha256 appId' raw')

theorem hmacSha256_eq_tag (sha256 : Sha256) (key msg : Bytes) :
    (hmacSha256 sha256 key msg).1 =
      Hmac.tag (fun bytes => (sha256 bytes).1) 64 0x36 0x5c key msg := rfl

theorem asBytes_injective : Function.Injective asBytes := by
  intro s t h
  unfold asBytes at h
  rw [String.toUTF8_eq_toByteArray, String.toUTF8_eq_toByteArray] at h
  exact String.toByteArray_inj.1 (ByteArray.ext (Array.toList_inj.1 h))

theorem appMessage_injective : Function.Injective appMessage := by
  intro a a' h
  have hs := String.toList_inj.2 (asBytes_injective h)
  rw [String.toList_append, String.toList_append] at hs
  exact String.toList_inj.1 (List.append_cancel_left hs)

theorem hexDigit_injective {m n : ℕ} (hm : m < 16) (hn : n < 16)
    (h : hexDigit m = hexDigit n) : m = n := by
  have hall : ∀ i j : Fin 16, hexDigit i = hexDigit j → i = j := by decide
  have := hall ⟨m, hm⟩ ⟨n, hn⟩ h
  simpa using this

theorem hexEncode_injective : Function.Injective hexEncode := by
  intro bs
  induction bs with
  | nil =>
    intro cs h
    cases cs with
    | nil => rfl
    | cons c cs => simp [hexEncode, ← String.toList_inj] at h
  | cons b bs ih =>
    intro cs h
    have hlist := String.toList_inj.2 h
    simp only [hexEncode, String.toList_ofList] at hlist
    cases cs with
    | nil => simp at hlist
    | cons c cs =>
      simp only [List.flatMap_cons, List.cons_append, List.nil_append, List.cons.injEq] at hlist
      obtain ⟨hhigh, hlow, hrest⟩ := hlist
      have hb := b.toNat_lt
      have hc := c.toNat_lt
      have hdiv := hexDigit_injective (by omega) (by omega) hhigh
      have hmod := hexDigit_injective (by omega) (by omega) hlow
      have hbc : b = c := UInt8.toNat_inj.1 (by omega)
      rw [hbc, ih (congrArg String.ofList hrest)]

/-- For a supplied raw id the platform is not asked. -/
theorem derive_some {sha256 : Sha256} {platformId : Option String} {appId raw : String}
    (hraw : raw ≠ "") :
    derive sha256 platformId appId (some raw) = some (protect sha256 raw appId) := by
  simp [derive, hraw]

/-- Equal protected ids come from equal products and key blocks, or from a collision. -/
theorem protect_eq {sha256 : Sha256} {raw raw' appId appId' : String}
    (h : protect sha256 raw appId = protect sha256 raw' appId') :
    appId = appId' ∧ keyBlock sha256 raw = keyBlock sha256 raw' ∨
      HashCollision sha256 appId raw appId' raw' := by
  have htag := hexEncode_injective h
  rw [hmacSha256_eq_tag, hmacSha256_eq_tag] at htag
  have hlen : ∀ x : Bytes, (sha256 x).1.length ≤ 64 := by
    intro x
    rw [(sha256 x).2]
    decide
  rcases Hmac.tag_eq hlen htag with ⟨hkey, hmsg⟩ | hcoll
  · exact Or.inl ⟨appMessage_injective hmsg, hkey⟩
  · exact Or.inr hcoll

end LatteRs
