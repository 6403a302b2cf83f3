import LatteRs.FastPath
import LatteRs.Renewals
import LatteRs.Setup

/-!
# What separates machines and products

A token unlocks an Sdk only if its `mid` claim is the machine id, which
`Sdk::new` derives from the app id and the raw id; the `pid` claim is compared
with the project certificate of the same chain and with nothing else.

* `Sdk.ChecksOk`: in some run `check` returns a licence from a cache content;
* `ChecksOk.unlocks`: what the token in it says;
* `project_of_chain`: the licences of two chains of one project have one project
  id, and `two_products_unlock`: those of two projects need not;
* `machine_ids_separate`: one machine id or one token for two app ids gives a
  collision of SHA-256.
-/

namespace LatteRs

open Concurrent Act Program

variable {P : Platform} {sdk : Sdk P}

/-! ### Accepted cache contents -/

/-- In some run of the Sdk, on some cache file, a `check` that loaded this token and chain returned
`lic`. -/
def Sdk.ChecksOk (sdk : Sdk P) (token : String) (chain : CertChain) (lic : PublicLicense) :
    Prop :=
  ∃ (cache : Option (String × CertChain)) (newest : ℤ) (c : Config sdk.system) (i : ℕ)
    (th : Thread signature), AnyRun (sdk.start cache newest) c ∧ c.threads[i]? = some th ∧
      th.task = .check ∧ Event.did Effect.load (some (token, chain)) ∈ th.past ∧
      th.prog.result? = some (.license (.ok lic))

/-- A claim of the payload of a token, empty when it is missing. -/
def payloadClaim (C : Crypto) (token key : String) : String :=
  ((payloadClaims C token).map fun claims => claimOrEmpty claims key).getD ""

/-- What a token and a chain that `check` accepted say. -/
structure Unlocks (sdk : Sdk P) (token : String) (chain : CertChain) (lic : PublicLicense) :
    Prop where
  machineId : payloadClaim P.toCrypto token "mid" = sdk.machineId
  projectId : lic.projectId = payloadClaim P.toCrypto token "pid"
  project : payloadClaim P.toCrypto chain.project "pid" ≠ "" →
    lic.projectId = payloadClaim P.toCrypto chain.project "pid"

theorem claimStr_of_ne_empty {claims : Map} {key : String} (h : claimOrEmpty claims key ≠ "") :
    claimStr claims key = some (claimOrEmpty claims key) := by
  unfold claimOrEmpty at h ⊢
  cases hclaim : claimStr claims key with
  | none => simp [hclaim] at h
  | some v => rfl

theorem Sdk.ChecksOk.unlocks {token : String} {chain : CertChain} {lic : PublicLicense}
    (h : sdk.ChecksOk token chain lic) : Unlocks sdk token chain lic := by
  obtain ⟨cache, newest, c, i, th, hrun, hi, htask, hload, hret⟩ := h
  have hhabits : sdk.habits.Kept c := (Habits.Kept.init _ _).run sdk.habits_sound hrun
  obtain ⟨token', chain', now, license, failed, hloads, -, hverify, hvalidate, rfl⟩ :=
    (hhabits.returns hi hret).1 lic htask rfl
  cases (hloads _).1 hload
  obtain ⟨m, -, l, hsigned, -, -, -, hcons, hdesc⟩ := verifyActivationAnyAt_eq_ok.1 hverify
  obtain ⟨-, hproject, -, htoken⟩ := hsigned.payloads
  have hmachine := (validateAt_eq_ok.1 hvalidate).1.machine
  have hpid : license.projectId = payloadClaim P.toCrypto token "pid" := by
    unfold payloadClaim
    rw [htoken]
    exact hdesc.projectId
  refine ⟨?_, hpid, fun hne => ?_⟩
  · unfold payloadClaim
    rw [htoken, ← hmachine, hdesc.machineId]
    rfl
  · unfold payloadClaim at hne ⊢
    rw [hproject] at hne ⊢
    have hclaim := claimStr_of_ne_empty hne
    show license.projectId = _
    rw [hdesc.projectId]
    exact (hcons.project _ hclaim hne).symm

/-! ### Every accepted content is met -/

theorem mem_exec {α : Type} {env : Surroundings sdk.system} {ev : Event signature} (p : Act α)
    {z : Solo sdk.system} (hz : ev ∈ z.past) : ev ∈ (p.exec env z).2.past := by
  induction p generalizing z with
  | ret a => exact hz
  | act e next ih => exact ih _ (List.mem_cons_of_mem _ hz)
  | lock next ih => exact ih (List.mem_cons_of_mem _ hz)
  | tryLock next ih => exact ih true (List.mem_cons_of_mem _ hz)
  | unlock next ih => exact ih (List.mem_cons_of_mem _ hz)
  | fork t next ih => exact ih _ (List.mem_cons_of_mem _ hz)
  | abort => exact hz

/-- A token and chain that verify and validate at some time are accepted: a new Sdk finds them in
its cache file. -/
theorem checksOk_of_valid {path token : String} {chain : CertChain} {license : License}
    (now : SystemTime) (hpath : sdk.cachePath = some path)
    (hverify : verifyActivationAnyAt P.toCrypto sdk.masterPubs token chain now = .ok license)
    (hvalidate : validateAt license sdk.machineId now = .ok ()) :
    sdk.ChecksOk token chain (toPublicLicense license false) := by
  have hcached : sdk.cached (Shared.new (some (token, chain))) = some (token, chain) := by
    unfold Sdk.cached
    rw [hpath]
    rfl
  have hexec := (exec_check (.error "") true hcached hverify hvalidate
    (z := ⟨[], Shared.new (some (token, chain)), 0⟩)).resolve_left (by simp [Shared.new])
  rcases hcheck : (check sdk).exec (sdk.steady now (.error "") true)
    ⟨[], Shared.new (some (token, chain)), 0⟩ with ⟨r, z⟩
  have hload : Event.did Effect.load (some (token, chain)) ∈ z.past := by
    rw [show z = ((check sdk).exec (sdk.steady now (.error "") true)
      ⟨[], Shared.new (some (token, chain)), 0⟩).2 by rw [hcheck]]
    unfold check loadCache
    rw [hpath]
    simp only [load, perform, act_bind, ret_bind, exec]
    exact mem_exec _ List.mem_cons_self
  rw [hcheck] at hexec
  cases hexec
  have halone := alone_returns (t := .check) Outcome.license rfl hcheck
  obtain ⟨c, th, hrun, hi, hret, rfl⟩ :=
    (steady_iff (.refl (sdk.start (some (token, chain)) 0)) rfl).2 halone
  obtain ⟨th', hi', htask⟩ := hrun.persists (Config.spawn_threads.2 (Or.inr ⟨rfl, rfl⟩))
  cases Option.some.inj (hi.symm.trans hi')
  have hcall : Step (sdk.start (some (token, chain)) 0) (.call Task.check)
      ((sdk.start (some (token, chain)) 0).spawn Task.check) := .call rfl
  refine ⟨_, _, c, _, th, .head hcall trivial (hrun.mono fun _ _ _ _ => trivial), hi, htask,
    hload, ?_⟩
  rw [hret]
  rfl

/-! ### Projects -/

/-- **The project of a licence is that of its chain.**  On any two cache contents from which
`check` returns a licence, at any times, each token names this machine, and each licence has the
project id of its token, which is that of the project certificate in its own chain when the
certificate has one.  Two licences of certificates that have one are of one project exactly when
the certificates are. -/
theorem project_of_chain (sdk : Sdk P) {token token' : String} {chain chain' : CertChain}
    {lic lic' : PublicLicense} (h : sdk.ChecksOk token chain lic)
    (h' : sdk.ChecksOk token' chain' lic') :
    Unlocks sdk token chain lic ∧ Unlocks sdk token' chain' lic' ∧
      (payloadClaim P.toCrypto chain.project "pid" ≠ "" →
        payloadClaim P.toCrypto chain'.project "pid" ≠ "" →
        (lic.projectId = lic'.projectId ↔ payloadClaim P.toCrypto chain.project "pid" =
          payloadClaim P.toCrypto chain'.project "pid")) := by
  refine ⟨h.unlocks, h'.unlocks, fun hne hne' => ?_⟩
  rw [h.unlocks.project hne, h'.unlocks.project hne']

/-! The project certificate `r`, the daily certificate `x` and the token `y` are of a second
project, whose keys are its own; the token names the machine `m`. -/

def otherJson : Bytes → Except String Value
  | [114] => .ok (.object
      [("iss", .string "licenselatte"), ("iat", sampleSecs (sampleNow - 3600)),
        ("exp", sampleSecs (sampleNow + 3600)), ("pid", .string "q"), ("ppk", .string "05")])
  | [120] => .ok (.object
      [("iss", .string "licenselatte"), ("iat", sampleSecs (sampleNow - 3600)),
        ("exp", sampleSecs (sampleNow + 3600)), ("pid", .string "q"), ("dpk", .string "06")])
  | [121] => .ok (.object
      [("iss", .string "licenselatte"), ("sub", .string "KEY"), ("aid", .string "c"),
        ("pid", .string "q"), ("mid", .string "m"), ("ltype", .string "perpetual"),
        ("iat", sampleSecs (sampleNow - 60)), ("exp", sampleSecs (sampleNow + 86400)),
        ("grc", sampleSecs 86400)])
  | bytes => sampleJson bytes

def otherPlatform : Platform := { samplePlatform with jsonFromSlice := otherJson }

def otherSdk : Sdk otherPlatform where
  baseUrl := ""
  appId := "p"
  machineId := "m"
  machineName := none
  masterPubs := ([9, 1] : List UInt8)
  cachePath := some "cache"

def otherChain : CertChain := ⟨"h.s.1s", "h.r.2r", "h.x.5x"⟩

def otherLicense : License :=
  { sampleLicense "KEY" "c" (sampleAt (sampleNow - 60)) with projectId := "q" }

theorem otherSdk_checksOk : otherSdk.ChecksOk "h.t.4t" sampleChain
    (toPublicLicense (sampleLicense "KEY" "a" (sampleAt (sampleNow - 60))) false) := by
  refine checksOk_of_valid (sampleAt sampleNow) rfl ?_ ?_
  · decide +kernel
  · decide +kernel

theorem otherSdk_checksOther :
    otherSdk.ChecksOk "h.y.6y" otherChain (toPublicLicense otherLicense false) := by
  refine checksOk_of_valid (sampleAt sampleNow) rfl ?_ ?_
  · decide +kernel
  · decide +kernel

theorem project_of_chain_sample :
    Unlocks otherSdk "h.y.6y" otherChain (toPublicLicense otherLicense false) ∧
      payloadClaim otherPlatform.toCrypto "h.p.2p" "pid" ≠
        payloadClaim otherPlatform.toCrypto "h.r.2r" "pid" := by
  obtain ⟨-, hother, hiff⟩ := project_of_chain otherSdk otherSdk_checksOk otherSdk_checksOther
  have hne : payloadClaim otherPlatform.toCrypto "h.p.2p" "pid" ≠ "" := by decide +kernel
  have hne' : payloadClaim otherPlatform.toCrypto "h.r.2r" "pid" ≠ "" := by decide +kernel
  exact ⟨hother, fun hsame => absurd ((hiff hne hne').2 hsame) (by decide)⟩

/-- One Sdk returns licences of two projects. -/
theorem two_products_unlock :
    ¬ ∀ (P : Platform) (sdk : Sdk P) (token token' : String) (chain chain' : CertChain)
      (lic lic' : PublicLicense), sdk.ChecksOk token chain lic → sdk.ChecksOk token' chain' lic' →
        lic.projectId = lic'.projectId := by
  intro hone
  have hsame := hone otherPlatform otherSdk _ _ _ _ _ _ otherSdk_checksOk otherSdk_checksOther
  exact absurd hsame (by decide)

/-! ### Machine ids -/

/-- **Machine ids separate machines and products up to a collision.**  Two supplied raw ids with
one machine id are of one app id and one HMAC key block, or a collision of SHA-256 is among the
byte strings hashed for the two.  So is one when Sdks of different app ids accept the same
token. -/
theorem machine_ids_separate (sha256 : Sha256) :
    (∀ (platformId platformId' : Option String) (appId appId' raw raw' : String),
      raw ≠ "" → raw' ≠ "" →
      derive sha256 platformId appId (some raw) = derive sha256 platformId' appId' (some raw') →
      appId = appId' ∧ keyBlock sha256 raw = keyBlock sha256 raw' ∨
        HashCollision sha256 appId raw appId' raw') ∧
    ∀ (P : Platform) (host host' : Host) (config config' : SdkConfig) (sdk sdk' : Sdk P)
      (raw raw' token : String) (chain chain' : CertChain) (lic lic' : PublicLicense),
      host.sha256 = sha256 → host'.sha256 = sha256 →
      Sdk.new P host config = .ok sdk → Sdk.new P host' config' = .ok sdk' →
      config.machineId = some raw → config'.machineId = some raw' → raw ≠ "" → raw' ≠ "" →
      config.appId ≠ config'.appId →
      sdk.ChecksOk token chain lic → sdk'.ChecksOk token chain' lic' →
      HashCollision sha256 config.appId raw config'.appId raw' := by
  have hderive : ∀ (platformId platformId' : Option String) (appId appId' raw raw' : String),
      raw ≠ "" → raw' ≠ "" →
      derive sha256 platformId appId (some raw) = derive sha256 platformId' appId' (some raw') →
      appId = appId' ∧ keyBlock sha256 raw = keyBlock sha256 raw' ∨
        HashCollision sha256 appId raw appId' raw' := by
    intro platformId platformId' appId appId' raw raw' hraw hraw' h
    rw [derive_some hraw, derive_some hraw'] at h
    exact protect_eq (Option.some.inj h)
  refine ⟨hderive, ?_⟩
  intro P host host' config config' sdk sdk' raw raw' token chain chain' lic lic' hsha hsha'
    hnew hnew' hid hid' hraw hraw' hne hok hok'
  -- both Sdks compare the same claim with their machine ids
  have hsame : sdk.machineId = sdk'.machineId :=
    hok.unlocks.machineId.symm.trans hok'.unlocks.machineId
  have hid₁ := (Sdk.new_eq_ok hnew).2.1
  have hid₂ := (Sdk.new_eq_ok hnew').2.1
  rw [hid, hsha] at hid₁
  rw [hid', hsha', ← hsame] at hid₂
  rcases hderive _ _ _ _ _ _ hraw hraw' (hid₁.trans hid₂.symm) with ⟨happ, -⟩ | hcoll
  · exact absurd happ hne
  · exact hcoll

/-! Two Sdks whose hash function is constant.  Keys are their bytes, the last embedded master key
signed the submaster certificate, and the machine id of every product is that of 32 zeros. -/

def sharedJson : Bytes → Except String Value
  | [115] => .ok (.object
      (sampleCert "spk" "0202020202020202020202020202020202020202020202020202020202020202"))
  | [112] => .ok (.object
      (sampleCert "ppk" "0303030303030303030303030303030303030303030303030303030303030303"))
  | [100] => .ok (.object
      (sampleCert "dpk" "0404040404040404040404040404040404040404040404040404040404040404"))
  | [116] => .ok (.object
      [("iss", .string "licenselatte"), ("sub", .string "KEY"), ("aid", .string "a"),
        ("pid", .string "p"),
        ("mid", .string "0000000000000000000000000000000000000000000000000000000000000000"),
        ("ltype", .string "perpetual"), ("iat", sampleSecs (sampleNow - 60)),
        ("exp", sampleSecs (sampleNow + 86400)), ("grc", sampleSecs 86400)])
  | bytes => sampleJson bytes

/-- Two lowercase hex digits a byte. -/
def hexPairs : Bytes → Bytes
  | high :: low :: rest => (16 * hexValue high + hexValue low) :: hexPairs rest
  | _ => []
where
  hexValue (digit : UInt8) : UInt8 := if digit < 58 then digit - 48 else digit - 87

def sharedPlatform : Platform := { sampleSetup with
  hexDecode := fun s => .ok (hexPairs (asBytes s))
  verifyStrict := fun key message signature =>
    signature.val = List.replicate 63 (key.val.headD 0) ++ message.getLast?.toList
  jsonFromSlice := sharedJson }

def sharedKeys : List (BytesOf 32) :=
  (masterPublicKeys (ε := LatteError) sharedPlatform.toCrypto).toOption.getD []

def sharedChain : CertChain := ⟨"h.s.vs", "h.p.2p", "h.d.3d"⟩

def sharedLicense : License := { sampleLicense "KEY" "a" (sampleAt (sampleNow - 60)) with
  machineId := "0000000000000000000000000000000000000000000000000000000000000000" }

def sharedConfig (appId : String) : SdkConfig := ⟨appId, none, some "cache", some "raw", none⟩

theorem protect_constant (raw appId : String) :
    protect sampleHost.sha256 raw appId = hexEncode (List.replicate 32 0) := rfl

theorem shared_checksOk {appId : String} {sdk : Sdk sharedPlatform}
    (hnew : Sdk.new sharedPlatform sampleHost (sharedConfig appId) = .ok sdk) :
    sdk.ChecksOk "h.t.4t" sharedChain (toPublicLicense sharedLicense false) := by
  obtain ⟨-, hderive, hpubs, hpath⟩ := Sdk.new_eq_ok hnew
  have hkeys : sdk.masterPubs = sharedKeys := by
    unfold sharedKeys
    rw [hpubs]
    rfl
  have hmachine : sdk.machineId = sharedLicense.machineId := by
    rw [show (sharedConfig appId).machineId = some "raw" from rfl, derive_some (by decide)]
      at hderive
    rw [← Option.some.inj hderive, protect_constant]
    decide +kernel
  refine checksOk_of_valid (sampleAt sampleNow) (hpath "cache" rfl) ?_ ?_
  · rw [hkeys]
    decide +kernel
  · rw [hmachine]
    decide +kernel

theorem shared_new (appId : String)
    (h : (Sdk.new sharedPlatform sampleHost (sharedConfig appId)).isOk = true) :
    ∃ sdk, Sdk.new sharedPlatform sampleHost (sharedConfig appId) = .ok sdk := by
  cases hnew : Sdk.new sharedPlatform sampleHost (sharedConfig appId) with
  | ok sdk => exact ⟨sdk, rfl⟩
  | error halt =>
    rw [hnew] at h
    cases h

/-- The two products share their machine ids and tokens, and the hash function is constant. -/
theorem machine_ids_separate_sample :
    ("a" = "b" ∧ keyBlock sampleHost.sha256 "r" = keyBlock sampleHost.sha256 "s" ∨
      HashCollision sampleHost.sha256 "a" "r" "b" "s") ∧
    HashCollision sampleHost.sha256 "pk_live_AHAK85389VQYXYB6S4BW66SKE53TWVTS" "raw"
      "pk_test_AHAK85389VQYXYB6S4BW66SKE53TWVTS" "raw" := by
  obtain ⟨hderive, hcheck⟩ := machine_ids_separate sampleHost.sha256
  obtain ⟨live, hlive⟩ := shared_new "pk_live_AHAK85389VQYXYB6S4BW66SKE53TWVTS"
    (by decide +kernel)
  obtain ⟨test, htest⟩ := shared_new "pk_test_AHAK85389VQYXYB6S4BW66SKE53TWVTS"
    (by decide +kernel)
  refine ⟨hderive none none "a" "b" "r" "s" (by decide) (by decide) (by decide +kernel), ?_⟩
  exact hcheck sharedPlatform sampleHost sampleHost
    (sharedConfig "pk_live_AHAK85389VQYXYB6S4BW66SKE53TWVTS")
    (sharedConfig "pk_test_AHAK85389VQYXYB6S4BW66SKE53TWVTS") live test "raw" "raw" _ _ _ _ _
    rfl rfl hlive htest rfl rfl (by decide) (by decide) (by decide +kernel)
    (shared_checksOk hlive) (shared_checksOk htest)

end LatteRs
