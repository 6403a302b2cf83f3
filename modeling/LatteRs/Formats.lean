import LatteRs.Tokens

/-!
# The two token formats

A token with `grc` gives the licence's end and the length of the grace period; a
token without it gives the offline deadline, and the licence's end apart, in
`lex`.  Tokens that say the same in either format are read to the same licence.

* `IntClaim`: a claim that is an integer, however the number is written;
* `Reformats`: the claims of the second format for those of a token of the first;
* `formats_agree`: the verification and the whole check do not tell them apart.
-/

namespace LatteRs

open Checked

/-! ### Integer claims -/

/-- The claim `key` is a number whose exact value is the integer `z`. -/
def IntClaim (claims : Map) (key : String) (z : ℤ) : Prop :=
  ∃ n : Number, claims.get key = some (.number n) ∧ n.value = z

/-- Integers of at most 53 bits are read exactly. -/
theorem IntClaim.claimI64_eq {claims : Map} {key : String} {z : ℤ} (h : IntClaim claims key z)
    (hz : |z| ≤ 2 ^ 53) : claimI64 claims key = some z := by
  obtain ⟨n, hn, hval⟩ := h
  unfold claimI64 claimAsI64
  rw [hn]
  simp [Value.asF64, Number.toI64_asF64 hval hz]

/-! ### The second format -/

/-- `claims'` says in the second format what `claims` says in the first: it has no `grc`, its
`exp` is the offline deadline, and its `lex` is the licence's end or, for a licence that never
ends, left out.  Nothing else differs. -/
structure Reformats (claims claims' : Map) (deadline stop : ℤ) : Prop where
  grc : claims'.get "grc" = none
  exp : IntClaim claims' "exp" deadline
  lex : IntClaim claims' "lex" stop ∨ stop = noLicenceEnd ∧ claims'.get "lex" = none
  other : ∀ key, key ≠ "grc" → key ≠ "exp" → key ≠ "lex" → claims'.get key = claims.get key

/-- What the time claims of a token of the first format mean. -/
theorem expiryAndGrace_first {claims : Map} {g i e : ℤ} (hg : IntClaim claims "grc" g)
    (hgb : |g| ≤ 2 ^ 52) :
    expiryAndGrace claims i e = .ok (e, g) := by
  unfold expiryAndGrace
  rw [hg.claimI64_eq (by omega)]

/-- What the time claims of a token of the second format mean. -/
theorem expiryAndGrace_second {claims claims' : Map} {g i e : ℤ}
    (hre : Reformats claims claims' (i + g) e) (hgb : |g| ≤ 2 ^ 52) (heb : |e| ≤ 2 ^ 52) :
    expiryAndGrace claims' i (i + g) = .ok (e, g) := by
  have hgrc : claimI64 claims' "grc" = none := by
    unfold claimI64 claimAsI64
    rw [hre.grc]
    rfl
  have hlex : (claimI64 claims' "lex").getD noLicenceEnd = e := by
    rcases hre.lex with hlex | ⟨rfl, hnone⟩
    · rw [hlex.claimI64_eq (by omega)]
      rfl
    · unfold claimI64 claimAsI64
      rw [hnone]
      rfl
  have hfits : InI64 g := by
    have := abs_le.1 hgb
    unfold InI64 Binary64.i64Min Binary64.i64Max
    omega
  unfold expiryAndGrace i64Sub
  rw [hgrc]
  simp only
  rw [show i + g - i = g by omega, i64Result_of hfits, ok_bind, hlex]

/-- The two formats are read alike under the same certificates. -/
theorem readLicense_reformats {l : ChainClaims} {claims : Map} {g i e : ℤ}
    (hg : IntClaim l.token "grc" g) (hi : IntClaim l.token "iat" i)
    (he : IntClaim l.token "exp" e) (hgb : |g| ≤ 2 ^ 52) (hib : |i| ≤ 2 ^ 52)
    (heb : |e| ≤ 2 ^ 52) (hre : Reformats l.token claims (i + g) e) :
    readLicense { l with token := claims } = readLicense l := by
  have hother : ∀ key, key ≠ "grc" → key ≠ "exp" → key ≠ "lex" →
      claimStr claims key = claimStr l.token key := by
    intro key h1 h2 h3
    unfold claimStr
    rw [hre.other key h1 h2 h3]
  have hi' : IntClaim claims "iat" i := by
    unfold IntClaim
    rw [hre.other "iat" (by decide) (by decide) (by decide)]
    exact hi
  have hissued : issuedSecs l.token = i := by
    unfold issuedSecs
    rw [hi.claimI64_eq (by omega)]
    rfl
  have hissued' : issuedSecs claims = i := by
    unfold issuedSecs
    rw [hi'.claimI64_eq (by omega)]
    rfl
  have hsum : |i + g| ≤ 2 ^ 53 := by
    have := abs_add_le i g
    omega
  rw [← map_withExtras (hre.other "ent" (by decide) (by decide) (by decide))
    (hre.other "pmd" (by decide) (by decide) (by decide))]
  refine readLicense_of_same ?_ (hissued'.trans hissued.symm) ?_
  · intro key hkey
    simp only [stringClaims, List.mem_cons, List.not_mem_nil, or_false] at hkey
    rcases hkey with rfl | rfl | rfl | rfl | rfl | rfl <;>
      exact hother _ (by decide) (by decide) (by decide)
  · rw [hissued, hissued', hre.exp.claimI64_eq hsum, he.claimI64_eq (by omega)]
    exact (expiryAndGrace_second hre hgb heb).trans (expiryAndGrace_first hg hgb).symm

/-- **The two token formats mean the same.**  Two tokens of one daily key, of which the second
says in the second format what the first says in the first, verify to the same licence or the
same error, and so get the same verdict and the same public licence. -/
theorem formats_agree {C : Crypto} {masterPubs : List C.VerifyingKey} {chain : CertChain}
    {token token' : String} {claims claims' : Map} {g i e : ℤ}
    (h : SignedByDaily C chain token claims) (h' : SignedByDaily C chain token' claims')
    (hg : IntClaim claims "grc" g) (hi : IntClaim claims "iat" i) (he : IntClaim claims "exp" e)
    (hgb : |g| ≤ 2 ^ 52) (hib : |i| ≤ 2 ^ 52) (heb : |e| ≤ 2 ^ 52)
    (hre : Reformats claims claims' (i + g) e) (machineId : String) (now : SystemTime)
    (failed : Bool) :
    verifyActivationAnyAt C masterPubs token' chain now =
        verifyActivationAnyAt C masterPubs token chain now ∧
      checkLicenseAnyAtWithRenewalFailed C masterPubs token' chain machineId now failed =
        checkLicenseAnyAtWithRenewalFailed C masterPubs token chain machineId now failed := by
  have hiss : claimStr claims' "iss" = claimStr claims "iss" := by
    unfold claimStr
    rw [hre.other "iss" (by decide) (by decide) (by decide)]
  have hverify : verifyActivationAnyAt C masterPubs token' chain now =
      verifyActivationAnyAt C masterPubs token chain now := by
    have hread : verifyActivationAnyAt C masterPubs token' chain now =
        (verifyActivationAnyAt C masterPubs token chain now).map id := by
      refine verify_of_read h h' hiss fun certs => ?_
      change readLicense { certs.links claims with token := claims' } = _
      rw [readLicense_reformats (l := certs.links claims) hg hi he hgb hib heb hre]
      cases readLicense (certs.links claims) <;> rfl
    rw [hread]
    cases verifyActivationAnyAt C masterPubs token chain now <;> rfl
  refine ⟨hverify, ?_⟩
  unfold checkLicenseAnyAtWithRenewalFailed
  rw [hverify]

/-! ### A sample in both formats -/

/-- What the sample token says, in the second format. -/
def sampleDeadline : Map :=
  [("iss", .string "licenselatte"), ("sub", .string "KEY"), ("aid", .string "a"),
    ("pid", .string "p"), ("mid", .string "m"), ("ltype", .string "perpetual"),
    ("iat", sampleSecs (sampleNow - 60)), ("exp", sampleSecs (sampleNow - 60 + 86400)),
    ("lex", sampleSecs (sampleNow + 86400))]

/-- The sample scheme with one more token, `f`. -/
def sampleFormats : Crypto := sampleWith fun bytes => if bytes = [102] then sampleDeadline else none

theorem intClaim_sampleSecs {claims : Map} {key : String} {secs : ℕ}
    (h : claims.get key = some (sampleSecs secs)) (hs : secs < 2 ^ 64) :
    IntClaim claims key secs := by
  refine ⟨.posInt (UInt64.ofNat secs), h, ?_⟩
  show (((UInt64.ofNat secs).toNat : ℕ) : ℚ) = ((secs : ℤ) : ℚ)
  rw [UInt64.toNat_ofNat_of_lt' hs]
  norm_cast

theorem reformats_sample : Reformats (sampleToken "KEY" "a" (sampleNow - 60)) sampleDeadline
    ((sampleNow - 60 : ℕ) + (86400 : ℕ)) (sampleNow + 86400 : ℕ) where
  grc := by decide
  exp := by exact_mod_cast intClaim_sampleSecs (by rfl) (by decide)
  lex := Or.inl (intClaim_sampleSecs (by rfl) (by decide))
  other key h1 h2 h3 := by
    simp only [sampleDeadline, sampleToken, Map.get, List.lookup_cons, List.lookup_nil,
      beq_eq_false_iff_ne.2 h1, beq_eq_false_iff_ne.2 h2, beq_eq_false_iff_ne.2 h3]

/-- The sample token and its second format verify to the same licence. -/
theorem formats_agree_sample :
    verifyActivationAnyAt sampleFormats ([9, 1] : List UInt8) "h.f.4f" sampleChain
        (sampleAt sampleNow) =
      verifyActivationAnyAt sampleFormats ([9, 1] : List UInt8) "h.t.4t" sampleChain
        (sampleAt sampleNow) :=
  (formats_agree (signedByDaily_sampleWith (by decide) (by decide) (Or.inl rfl) (by rfl))
    (signedByDaily_sampleWith (by decide) (by decide) (Or.inr (Or.inr rfl)) (by rfl))
    (intClaim_sampleSecs (by rfl) (by decide)) (intClaim_sampleSecs (by rfl) (by decide))
    (intClaim_sampleSecs (by rfl) (by decide)) (by decide) (by decide) (by decide)
    reformats_sample "m" (sampleAt sampleNow) false).1

end LatteRs
