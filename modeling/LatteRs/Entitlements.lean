import LatteRs.Tokens

/-!
# Reading entitlements

The accessors of `PublicLicense` for what a seller signed into a licence, and
what the decoder of the `ent` claim makes of its entries: each by itself, and
none of them part of the verdict.

* `PublicLicense.can`, `PublicLicense.limit`, `PublicLicense.hasEntitlements`;
* `decodeEntitlement_eq_int`: the narrowing of a number to an `i64` is exact;
* `lookup_foldl_insert`: the loop over the entries;
* `entitlements_entry_by_entry`: the accessors by the exact values in the claim,
  and two runs of the check on claims that differ in `ent` and `pmd` only.
-/

namespace LatteRs

open Checked

/-! ### The accessors -/

namespace EntitlementValue

/-- The boolean value; an integer is not coerced. -/
def asBool : EntitlementValue → Option Bool
  | bool b => some b
  | int _ => none

/-- The integer value; a boolean is not coerced. -/
def asInt : EntitlementValue → Option ℤ
  | int i => some i
  | bool _ => none

theorem asInt_eq_some {v : EntitlementValue} {i : ℤ} : v.asInt = some i ↔ v = .int i := by
  cases v <;> simp [asInt]

end EntitlementValue

namespace PublicLicense

/-- The entitlement named by `key`. -/
def entitlement (lic : PublicLicense) (key : String) : Option EntitlementValue :=
  lic.entitlements.bind fun e => e.lookup key

/-- Whether the boolean entitlement named by `key` is present and true. -/
def can (lic : PublicLicense) (key : String) : Bool :=
  ((lic.entitlement key).bind EntitlementValue.asBool).getD false

/-- The integer entitlement named by `key`. -/
def limit (lic : PublicLicense) (key : String) : Option ℤ :=
  (lic.entitlement key).bind EntitlementValue.asInt

/-- Whether the activation token carried an `ent` claim at all. -/
def hasEntitlements (lic : PublicLicense) : Bool := lic.entitlements.isSome

theorem can_eq_true {lic : PublicLicense} {key : String} :
    lic.can key = true ↔ lic.entitlement key = some (.bool true) := by
  unfold can
  cases lic.entitlement key with
  | none => simp
  | some v => cases v <;> simp [EntitlementValue.asBool]

theorem limit_eq_some {lic : PublicLicense} {key : String} {n : ℤ} :
    lic.limit key = some n ↔ lic.entitlement key = some (.int n) := by
  unfold limit
  cases lic.entitlement key with
  | none => simp
  | some v => simp [EntitlementValue.asInt_eq_some]

end PublicLicense

/-! ### One entry -/

theorem decodeEntitlement_eq_bool {v : Value} {b : Bool} :
    decodeEntitlement v = some (.bool b) ↔ v = .bool b := by
  cases v with
  | bool b' => simp [decodeEntitlement]
  | number n =>
    simp only [decodeEntitlement, reduceCtorEq, iff_false]
    cases n.asI64 with
    | some i => simp
    | none =>
      dsimp only
      split_ifs <;> simp
  | _ => simp [decodeEntitlement]

/-- A number is narrowed to an integer exactly when its value is that integer and fits an
`i64`. -/
theorem decodeEntitlement_number {n : Number} {i : ℤ} :
    decodeEntitlement (.number n) = some (.int i) ↔ n.value = i ∧ -2 ^ 63 ≤ i ∧ i < 2 ^ 63 := by
  have hmin : Binary64.i64Min = -2 ^ 63 := rfl
  have hmax : Binary64.i64Max = 2 ^ 63 - 1 := rfl
  -- what is left of a number that is not an integer of the parser
  have hfloat : ∀ f : Binary64.Finite,
      (if f.isInteger ∧ InI64 f.trunc then some (EntitlementValue.int f.trunc) else none) =
        some (.int i) ↔ f.value = i ∧ -2 ^ 63 ≤ i ∧ i < 2 ^ 63 := by
    intro f
    unfold InI64
    rw [f.value_eq_intCast]
    split_ifs with hf
    · simp only [Option.some.injEq, EntitlementValue.int.injEq]
      constructor
      · rintro rfl
        exact ⟨⟨hf.1, rfl⟩, by omega, by omega⟩
      · exact fun h => h.1.2
    · simp only [false_iff]
      rintro ⟨⟨hint, rfl⟩, hlow, hhigh⟩
      exact hf ⟨hint, by omega, by omega⟩
  cases n with
  | posInt n =>
    have hval : (Number.posInt n).value = i ↔ (n.toNat : ℤ) = i := by
      show ((n.toNat : ℕ) : ℚ) = i ↔ _
      exact_mod_cast Iff.rfl
    rw [hval]
    unfold decodeEntitlement Number.asI64
    by_cases hn : (n.toNat : ℤ) ≤ Binary64.i64Max
    · simp only [hn, if_true, Option.some.injEq, EntitlementValue.int.injEq]
      omega
    · -- rounding does not bring it below `2 ^ 63`
      have htrunc := Binary64.le_trunc_ofNat64 n.toNat_lt (by omega)
      have hbig : ¬ ((Number.posInt n).asF64.isInteger ∧ InI64 (Number.posInt n).asF64.trunc) := by
        rintro ⟨-, -, hle⟩
        have hle' : (Binary64.ofNat64 n.toNat n.toNat_lt).trunc ≤ Binary64.i64Max := hle
        omega
      simp only [hn, if_false, if_neg hbig, reduceCtorEq, false_iff]
      omega
  | negInt n =>
    have hval : (Number.negInt n).value = i ↔ n.toInt = i := by
      show (n.toInt : ℚ) = i ↔ _
      exact_mod_cast Iff.rfl
    rw [hval]
    have hlow := n.le_toInt
    have hhigh := n.toInt_lt
    simp only [decodeEntitlement, Number.asI64, Option.some.injEq, EntitlementValue.int.injEq]
    omega
  | float f => exact hfloat f

theorem decodeEntitlement_eq_int {v : Value} {i : ℤ} :
    decodeEntitlement v = some (.int i) ↔
      ∃ n : Number, v = .number n ∧ n.value = i ∧ -2 ^ 63 ≤ i ∧ i < 2 ^ 63 := by
  cases v with
  | number n =>
    rw [decodeEntitlement_number]
    simp
  | _ => simp [decodeEntitlement]

/-! ### The loop over the entries -/

/-- A loop that inserts the entries that decode, and drops the others, finds at a key what its
own entry decodes to. -/
theorem lookup_foldl_insert {V W : Type} (decode : V → Option W)
    {step : HashMap W → String × V → HashMap W}
    (hstep : ∀ out entry, step out entry = (decode entry.2).elim out (out.insert entry.1))
    {entries : List (String × V)} (hkeys : (entries.map Prod.fst).Nodup) (out : HashMap W)
    (key : String) :
    (entries.foldl step out).lookup key =
      ((entries.lookup key).bind decode).or (out.lookup key) := by
  induction entries generalizing out with
  | nil => simp
  | cons entry entries ih =>
    obtain ⟨name, v⟩ := entry
    obtain ⟨hnew, hkeys⟩ := List.nodup_cons.1 hkeys
    rw [List.foldl_cons, ih hkeys, hstep, List.lookup_cons]
    by_cases hname : key = name
    · subst hname
      have habsent : entries.lookup key = none := by
        rw [List.lookup_eq_none_iff]
        intro entry hmem
        have hne : key ≠ entry.1 := by
          rintro rfl
          exact hnew (List.mem_map.2 ⟨entry, hmem, rfl⟩)
        simpa using hne
      rw [habsent, beq_self_eq_true]
      cases hdec : decode v with
      | none => simp [hdec]
      | some w => simp [hdec, Finmap.lookup_insert]
    · rw [beq_eq_false_iff_ne.2 hname]
      cases decode v with
      | none => rfl
      | some w => simp [Finmap.lookup_insert_of_ne _ hname]

/-- `claims["ent"][key]`, if there is such an entry. -/
def entValue (claims : Map) (key : String) : Option Value :=
  ((claims.get "ent").bind Value.asObject).bind fun ent => ent.get key

/-- The `ent` claim, if it is an object, holds every key once. -/
def DistinctEnt (claims : Map) : Prop :=
  ∀ ent, claims.get "ent" = some (.object ent) → (ent.map Prod.fst).Nodup

theorem decodeEntitlements_isSome {claims : Map} :
    (decodeEntitlements claims).isSome = true ↔ ∃ ent, claims.get "ent" = some (.object ent) := by
  unfold decodeEntitlements
  cases claims.get "ent" with
  | none => simp
  | some v => cases v <;> simp [Value.asObject]

/-- What the decoded entitlements hold at a key is what the entry of that key decodes to. -/
theorem lookup_decodeEntitlements {claims : Map} (hkeys : DistinctEnt claims) (key : String) :
    ((decodeEntitlements claims).bind fun e => e.lookup key) =
      (entValue claims key).bind decodeEntitlement := by
  unfold decodeEntitlements entValue
  cases hent : claims.get "ent" with
  | none => rfl
  | some v =>
    cases hv : v.asObject with
    | none => simp [hv]
    | some ent =>
      have hdistinct := hkeys ent (by rw [hent, asObject_eq_some.1 hv])
      simp only [Option.bind_eq_bind, Option.bind_some, hv]
      rw [lookup_foldl_insert decodeEntitlement _ hdistinct, Finmap.lookup_empty, Option.or_none]
      · rfl
      · intro out entry
        cases decodeEntitlement entry.2 <;> rfl

/-! ### Entry by entry -/

/-- What the accessors of a licence answer at a key, by the claims that it was built from. -/
structure EntryDecoded (claims : Map) (lic : PublicLicense) (key : String) : Prop where
  entitlements : lic.hasEntitlements = true ↔ ∃ ent, claims.get "ent" = some (.object ent)
  can : lic.can key = true ↔ entValue claims key = some (.bool true)
  limit : ∀ i, lic.limit key = some i ↔ ∃ n : Number, entValue claims key = some (.number n) ∧
    n.value = i ∧ -2 ^ 63 ≤ i ∧ i < 2 ^ 63
  apart : ¬ (lic.can key = true ∧ (lic.limit key).isSome = true)

section
variable {claims : Map} {lic : PublicLicense}

theorem entitlement_eq (hlic : lic.entitlements = decodeEntitlements claims)
    (hkeys : DistinctEnt claims) (key : String) :
    lic.entitlement key = (entValue claims key).bind decodeEntitlement := by
  unfold PublicLicense.entitlement
  rw [hlic, lookup_decodeEntitlements hkeys]

theorem entryDecoded (hlic : lic.entitlements = decodeEntitlements claims)
    (hkeys : DistinctEnt claims) (key : String) : EntryDecoded claims lic key where
  entitlements := by
    unfold PublicLicense.hasEntitlements
    rw [hlic, decodeEntitlements_isSome]
  can := by
    rw [PublicLicense.can_eq_true, entitlement_eq hlic hkeys, Option.bind_eq_some_iff]
    simp [decodeEntitlement_eq_bool]
  limit i := by
    rw [PublicLicense.limit_eq_some, entitlement_eq hlic hkeys, Option.bind_eq_some_iff]
    simp only [decodeEntitlement_eq_int]
    constructor
    · rintro ⟨v, hv, n, rfl, hn⟩
      exact ⟨n, hv, hn⟩
    · rintro ⟨n, hv, hn⟩
      exact ⟨_, hv, n, rfl, hn⟩
  apart := by
    rintro ⟨hcan, hlimit⟩
    obtain ⟨i, hi⟩ := Option.isSome_iff_exists.1 hlimit
    rw [PublicLicense.can_eq_true] at hcan
    rw [PublicLicense.limit_eq_some, hcan] at hi
    cases hi

end

/-! ### Outside the verdict -/

/-- What `License.withExtras` is to a verified licence, for the one that the application gets. -/
def PublicLicense.withExtras (lic : PublicLicense) (claims : Map) : PublicLicense :=
  { lic with metadata := readMetadata claims, entitlements := decodeEntitlements claims }

/-- Claims that differ in `ent` and `pmd` only. -/
def SameButExtras (claims claims' : Map) : Prop :=
  ∀ key, key ≠ "ent" → key ≠ "pmd" → claims'.get key = claims.get key

/-- Claims that differ in `ent` and `pmd` only are read alike but for those. -/
theorem readLicense_of_sameButExtras {l : ChainClaims} {claims : Map}
    (hsame : SameButExtras l.token claims) :
    readLicense { l with token := claims } = (readLicense l).map (·.withExtras claims) := by
  have hnum : ∀ key, key ≠ "ent" → key ≠ "pmd" → claimI64 claims key = claimI64 l.token key := by
    intro key h1 h2
    unfold claimI64 claimAsI64
    rw [hsame key h1 h2]
  have hissued : issuedSecs claims = issuedSecs l.token := by
    unfold issuedSecs
    rw [hnum "iat" (by decide) (by decide)]
  refine readLicense_of_same ?_ hissued ?_
  · intro key hkey
    simp only [stringClaims, List.mem_cons, List.not_mem_nil, or_false] at hkey
    unfold claimStr
    rcases hkey with rfl | rfl | rfl | rfl | rfl | rfl <;>
      rw [hsame _ (by decide) (by decide)]
  · unfold expiryAndGrace
    rw [hissued, hnum "exp" (by decide) (by decide), hnum "grc" (by decide) (by decide),
      hnum "lex" (by decide) (by decide)]

section
variable {C : Crypto} {masterPubs : List C.VerifyingKey} {chain : CertChain}
  {token token' : String} {claims claims' : Map}

theorem verify_of_sameButExtras (h : SignedByDaily C chain token claims)
    (h' : SignedByDaily C chain token' claims') (hsame : SameButExtras claims claims')
    (now : SystemTime) :
    verifyActivationAnyAt C masterPubs token' chain now =
      (verifyActivationAnyAt C masterPubs token chain now).map (·.withExtras claims') := by
  refine verify_of_read h h' ?_ fun certs => ?_
  · unfold claimStr
    rw [hsame "iss" (by decide) (by decide)]
  · exact readLicense_of_sameButExtras (l := certs.links claims) hsame

/-- Validation looks at neither. -/
theorem check_of_sameButExtras (h : SignedByDaily C chain token claims)
    (h' : SignedByDaily C chain token' claims') (hsame : SameButExtras claims claims')
    (machineId : String) (now : SystemTime) (failed : Bool) :
    checkLicenseAnyAtWithRenewalFailed C masterPubs token' chain machineId now failed =
      (checkLicenseAnyAtWithRenewalFailed C masterPubs token chain machineId now failed).map
        (·.withExtras claims') := by
  unfold checkLicenseAnyAtWithRenewalFailed
  rw [verify_of_sameButExtras h h' hsame]
  cases verifyActivationAnyAt C masterPubs token chain now with
  | error halt => cases halt <;> rfl
  | ok license =>
    have hvalid : validateAt (license.withExtras claims') machineId now =
        validateAt license machineId now := rfl
    show (mapErr CheckError.validate
        (validateAt (license.withExtras claims') machineId now) >>= _) =
      Except.map _ (mapErr CheckError.validate (validateAt license machineId now) >>= _)
    rw [hvalid, map_bind]
    rfl

end

/-- **Entitlements are decoded entry by entry and never decide the verdict.**  The accessors of a
licence answer by the exact value of the entry they name, and nothing else in the claims changes
their answer.  Tokens of one daily key whose claims differ in `ent` and `pmd` only get the same
verdict, and licences that differ in the entitlements, which depend on `ent`, and in the metadata,
which depend on `pmd`. -/
theorem entitlements_entry_by_entry :
    (∀ (claims : Map) (license : License), Describes claims license → DistinctEnt claims →
      ∀ (inGrace : Bool) (key : String),
        EntryDecoded claims (toPublicLicense license inGrace) key) ∧
    (∀ (claims claims' : Map) (license license' : License), Describes claims license →
      Describes claims' license' → DistinctEnt claims → DistinctEnt claims' →
      ∀ key, entValue claims' key = entValue claims key → ∀ inGrace inGrace',
        (toPublicLicense license' inGrace').can key = (toPublicLicense license inGrace).can key ∧
          (toPublicLicense license' inGrace').limit key =
            (toPublicLicense license inGrace).limit key) ∧
    (∀ (C : Crypto) (masterPubs : List C.VerifyingKey) (chain : CertChain)
      (token token' : String) (claims claims' : Map), SignedByDaily C chain token claims →
      SignedByDaily C chain token' claims' → SameButExtras claims claims' →
      ∀ (machineId : String) (now : SystemTime) (failed : Bool),
        verifyActivationAnyAt C masterPubs token' chain now =
          (verifyActivationAnyAt C masterPubs token chain now).map (·.withExtras claims') ∧
        checkLicenseAnyAtWithRenewalFailed C masterPubs token' chain machineId now failed =
          (checkLicenseAnyAtWithRenewalFailed C masterPubs token chain machineId now failed).map
            (·.withExtras claims')) ∧
    ∀ claims claims' : Map,
      (claims'.get "ent" = claims.get "ent" →
        decodeEntitlements claims' = decodeEntitlements claims) ∧
      (claims'.get "pmd" = claims.get "pmd" → readMetadata claims' = readMetadata claims) := by
  refine ⟨?_, ?_, ?_, ?_⟩
  · intro claims license hdesc hkeys inGrace key
    exact entryDecoded hdesc.entitlements hkeys key
  · intro claims claims' license license' hdesc hdesc' hkeys hkeys' key hsame inGrace inGrace'
    have hentry : (toPublicLicense license' inGrace').entitlement key =
        (toPublicLicense license inGrace).entitlement key := by
      rw [entitlement_eq hdesc'.entitlements hkeys', entitlement_eq hdesc.entitlements hkeys,
        hsame]
    unfold PublicLicense.can PublicLicense.limit
    rw [hentry]
    exact ⟨rfl, rfl⟩
  · intro C masterPubs chain token token' claims claims' h h' hsame machineId now failed
    exact ⟨verify_of_sameButExtras h h' hsame now,
      check_of_sameButExtras h h' hsame machineId now failed⟩
  · intro claims claims'
    refine ⟨fun hent => ?_, fun hpmd => ?_⟩
    · unfold decodeEntitlements
      rw [hent]
    · unfold readMetadata
      rw [hpmd]

/-! ### A sample with features -/

/-- `25.0`. -/
def sampleSeats : Number := .float ⟨false, 50, -1, by norm_num, by norm_num, by norm_num⟩

/-- The sample token with an `ent` and a `pmd` claim. -/
def sampleFeatures : Map :=
  sampleToken "KEY" "a" (sampleNow - 60) ++
    [("ent", .object [("export", .bool true), ("seats", .number sampleSeats),
      ("tier", .string "gold")]), ("pmd", .object [("name", .string "n")])]

/-- The sample scheme with one more token, `e`. -/
def sampleFeatured : Crypto :=
  sampleWith fun bytes => if bytes = [101] then sampleFeatures else none

theorem sameButExtras_sample :
    SameButExtras (sampleToken "KEY" "a" (sampleNow - 60)) sampleFeatures := by
  intro key h1 h2
  simp only [sampleFeatures, sampleToken, Map.get, List.cons_append, List.nil_append,
    List.lookup_cons, List.lookup_nil, beq_eq_false_iff_ne.2 h1, beq_eq_false_iff_ne.2 h2]

theorem distinctEnt_sample : DistinctEnt sampleFeatures := by
  intro ent hent
  have hent' : sampleFeatures.get "ent" = some (.object [("export", .bool true),
      ("seats", .number sampleSeats), ("tier", .string "gold")]) := by rfl
  cases Option.some.inj (hent'.symm.trans hent)
  decide

/-- The licence in the token `e`. -/
def sampleFeaturedLicense : License :=
  (sampleLicense "KEY" "a" (sampleAt (sampleNow - 60))).withExtras sampleFeatures

theorem describes_sample : Describes sampleFeatures sampleFeaturedLicense := by
  refine ⟨by rfl, by rfl, by rfl, by rfl, by rfl, ?_, ?_, ?_, by rfl, rfl, rfl⟩ <;>
    decide +kernel

/-- The accessors on the sample: `25.0` is 25, and a string is neither granted nor a limit. -/
theorem entitlements_entry_by_entry_sample :
    (toPublicLicense sampleFeaturedLicense false).can "export" = true ∧
      (toPublicLicense sampleFeaturedLicense false).limit "seats" = some 25 ∧
      (toPublicLicense sampleFeaturedLicense true).limit "seats" = some 25 ∧
      (verifyActivationAnyAt sampleFeatured ([9, 1] : List UInt8) "h.e.4e" sampleChain
          (sampleAt sampleNow) =
        (verifyActivationAnyAt sampleFeatured ([9, 1] : List UInt8) "h.t.4t" sampleChain
          (sampleAt sampleNow)).map (·.withExtras sampleFeatures)) := by
  obtain ⟨hentry, hother, hverdict, -⟩ := entitlements_entry_by_entry
  have hlimit : (toPublicLicense sampleFeaturedLicense false).limit "seats" = some 25 := by
    refine ((hentry _ _ describes_sample distinctEnt_sample false "seats").limit 25).2
      ⟨sampleSeats, by rfl, ?_, by norm_num, by norm_num⟩
    show sampleSeats.value = ((25 : ℤ) : ℚ)
    exact (Binary64.Finite.value_eq_intCast _).2 (by decide +kernel)
  refine ⟨(hentry _ _ describes_sample distinctEnt_sample false "export").can.2 (by rfl), hlimit,
    ?_, ?_⟩
  · rw [← hlimit]
    exact (hother _ _ _ _ describes_sample describes_sample distinctEnt_sample distinctEnt_sample
      "seats" rfl false true).2
  · exact (hverdict sampleFeatured ([9, 1] : List UInt8) sampleChain "h.t.4t" "h.e.4e" _ _
      (signedByDaily_sampleWith (by decide) (by decide) (Or.inl rfl) (by rfl))
      (signedByDaily_sampleWith (by decide) (by decide) (Or.inr (Or.inl rfl)) (by rfl))
      sameButExtras_sample "m" (sampleAt sampleNow) false).1

end LatteRs
