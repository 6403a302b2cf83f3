import LatteRs.AppId
import LatteRs.MachineId
import LatteRs.Runtime

/-!
# Setting up an Sdk

The `Config` of an Sdk, `Sdk::new` and what it takes from the machine it runs on.

* `Host`, `masterPublicKeys`, `defaultPath`, `Sdk.new`;
* `Sdk.new_eq_ok`: what the fields of a new Sdk are;
* `app_id_parsing_returns`: the app ids and keys on which parsing panics.
-/

namespace LatteRs

open Checked

/-- The fields of the `Config` of an Sdk that `Sdk::new` reads. -/
structure SdkConfig where
  appId : String
  baseUrl : Option String
  cachePath : Option String
  machineId : Option String
  machineName : Option String

/-- What `Sdk::new` takes from other crates and from the machine. -/
structure Host where
  sha256 : Sha256
  /-- The platform's machine id, if it can be read. -/
  platformId : Option String
  /-- `dirs::config_dir`. -/
  configDir : Option String

/-- `PathBuf::push`: an absolute component replaces the path. -/
def pushPath (path component : String) : String :=
  if component.toList.head? = some '/' then component
  else if path = "" ∨ path.toList.getLast? = some '/' then path ++ component
  else path ++ "/" ++ component

/-- `storage::default_path`. -/
def defaultPath (configDir : Option String) (projectKey : String) : Option String :=
  configDir.map fun dir => pushPath (pushPath dir "LicenseLatte") (projectKey ++ ".json")

/-- `MASTER_PUBLIC_KEYS_HEX`. -/
def masterPublicKeysHex : List String :=
  ["6773cdfdfb7fc44f13f097449b715e7147a2d73f525d9f09a8d25229e458a2fb",
    "73358e45a5c77b7f7236d26f5a1756011b522d277bb19ac4869d2e88952705cd",
    "4f9369b8a4a0fd9be67cd403e4ed92e0d45609772659be4a066c1a9c4eff43fe",
    "46d45bbc3280df763fcaf7a37055888eeefbb5781784c1f471f4f413d72b123f"]

/-- A master key; one that does not decode is a panic. -/
def masterPublicKey {ε : Type} (C : Crypto) (hexStr : String) : Checked ε C.VerifyingKey :=
  match C.hexDecode hexStr with
  | .error _ => Checked.panic
  | .ok bytes =>
    match pubKeyFromBytes C bytes with
    | .error _ => Checked.panic
    | .ok key => .ok key

def masterPublicKeys {ε : Type} (C : Crypto) : Checked ε (List C.VerifyingKey) :=
  masterPublicKeysHex.mapM (masterPublicKey C)

/-- The embedded master keys are hex of Ed25519 keys. -/
def MasterKeysDecode (C : Crypto) : Prop :=
  ∀ hexStr ∈ masterPublicKeysHex, ∃ (bytes : BytesOf 32) (key : C.VerifyingKey),
    C.hexDecode hexStr = .ok bytes.val ∧ C.keyFromBytes bytes = .ok key

variable {P : Platform}

def Sdk.new (P : Platform) (host : Host) (config : SdkConfig) : Checked LatteError (Sdk P) := do
  let parsed ← mapErr .invalidAppId (parseAppId config.appId)
  let machineId ← okOr .machineIdUnavailable
    (derive host.sha256 host.platformId config.appId config.machineId)
  let masterPubs ← masterPublicKeys P.toCrypto
  .ok {
    baseUrl := config.baseUrl.getD parsed.env.baseUrl
    appId := config.appId
    machineId := machineId
    machineName := config.machineName.filter fun n => n ≠ ""
    masterPubs := masterPubs
    cachePath := config.cachePath <|> defaultPath host.configDir parsed.key }

theorem masterPublicKey_of_decodes {ε : Type} {C : Crypto} {hexStr : String} {bytes : BytesOf 32}
    {key : C.VerifyingKey} (hhex : C.hexDecode hexStr = .ok bytes.val)
    (hkey : C.keyFromBytes bytes = .ok key) :
    (masterPublicKey C hexStr : Checked ε C.VerifyingKey) = .ok key := by
  have hpub : pubKeyFromBytes C bytes.val = .ok key := by
    unfold pubKeyFromBytes
    rw [dif_pos bytes.property]
    simpa using hkey
  unfold masterPublicKey
  simp only [hhex, hpub]

theorem mapM_ne_panic {ε α β : Type} {f : α → Checked ε β} {xs : List α}
    (h : ∀ x ∈ xs, ∃ y, f x = .ok y) : xs.mapM f ≠ .error .panic := by
  induction xs with
  | nil => simp [pure, Except.pure]
  | cons x xs ih =>
    rw [List.mapM_cons]
    obtain ⟨y, hy⟩ := h x List.mem_cons_self
    rw [hy, ok_bind]
    refine bind_ne_panic (ih fun x' hx' => h x' (List.mem_cons_of_mem _ hx')) fun ys => ?_
    simp [pure, Except.pure]

theorem masterPublicKeys_ne_panic {ε : Type} {C : Crypto} (h : MasterKeysDecode C) :
    (masterPublicKeys C : Checked ε _) ≠ .error .panic := by
  refine mapM_ne_panic fun hexStr hmem => ?_
  obtain ⟨bytes, key, hhex, hkey⟩ := h hexStr hmem
  exact ⟨key, masterPublicKey_of_decodes hhex hkey⟩

/-- `Sdk::new` panics exactly when parsing its app id does. -/
theorem Sdk.new_eq_panic (hkeys : MasterKeysDecode P.toCrypto) (host : Host) (config : SdkConfig) :
    Sdk.new P host config = .error .panic ↔ CutsCharacter config.appId := by
  rw [← parseAppId_eq_panic]
  unfold Sdk.new
  rw [bind_eq_error, mapErr_eq_panic]
  refine or_iff_left ?_
  rintro ⟨parsed, -, hrest⟩
  refine bind_ne_panic (okOr_ne_panic _ _) (fun machineId => ?_) hrest
  exact bind_ne_panic (masterPublicKeys_ne_panic hkeys) fun masterPubs => ok_ne_panic _

/-- Where the fields of a new Sdk come from. -/
theorem Sdk.new_eq_ok {host : Host} {config : SdkConfig} {sdk : Sdk P}
    (h : Sdk.new P host config = .ok sdk) :
    sdk.appId = config.appId ∧
      derive host.sha256 host.platformId config.appId config.machineId = some sdk.machineId ∧
      (masterPublicKeys P.toCrypto : Checked LatteError _) = .ok sdk.masterPubs ∧
      ∀ path, config.cachePath = some path → sdk.cachePath = some path := by
  obtain ⟨parsed, -, hrest⟩ := bind_eq_ok.1 h
  obtain ⟨machineId, hderive, hrest⟩ := bind_eq_ok.1 hrest
  obtain ⟨masterPubs, hpubs, hret⟩ := bind_eq_ok.1 hrest
  cases hret
  refine ⟨rfl, okOr_eq_ok.1 hderive, hpubs, fun path hpath => ?_⟩
  show (config.cachePath <|> _) = _
  rw [hpath]
  rfl

/-- **App id parsing panics exactly when it splits inside a character.**  `parse_app_id`, and
`Sdk::new` on any configuration, returns if and only if the app id is not one whose 32-byte key
segment has a character across its byte 28, and `validate_key` if and only if the checksum starts
where a character does. -/
theorem app_id_parsing_returns (P : Platform) (hkeys : MasterKeysDecode P.toCrypto) :
    (∀ appId, parseAppId appId ≠ .error .panic ↔ ¬ CutsCharacter appId) ∧
      (∀ host config, Sdk.new P host config ≠ .error .panic ↔ ¬ CutsCharacter config.appId) ∧
      ∀ (key : String) (checksumLen : ℕ),
        (∃ valid, (validateKey key checksumLen : Checked Empty Bool) = .ok valid) ↔
          key.utf8ByteSize < checksumLen ∨
            IsCharBoundary key (key.utf8ByteSize - checksumLen) := by
  refine ⟨fun appId => not_congr parseAppId_eq_panic,
    fun host config => not_congr (Sdk.new_eq_panic hkeys host config), ?_⟩
  intro key checksumLen
  have hpanic := @validateKey_eq_panic Empty key checksumLen
  constructor
  · rintro ⟨valid, hvalid⟩
    by_contra hcut
    rw [not_or, Nat.not_lt] at hcut
    rw [hpanic.2 hcut] at hvalid
    cases hvalid
  · intro hok
    match hret : (validateKey key checksumLen : Checked Empty Bool) with
    | .ok valid => exact ⟨valid, rfl⟩
    | .error .panic =>
      obtain ⟨hle, hcut⟩ := hpanic.1 hret
      exact absurd hok (not_or.2 ⟨Nat.not_lt.2 hle, hcut⟩)

/-! ### A sample host -/

/-- `hex::decode` on lowercase digits. -/
def sampleHexChars : List Char → Except String Bytes
  | [] => .ok []
  | [_] => .error "Odd number of digits"
  | high :: low :: rest =>
    match hexDigits.idxOf? high, hexDigits.idxOf? low, sampleHexChars rest with
    | some h, some l, .ok bytes => .ok (UInt8.ofNat (16 * h + l) :: bytes)
    | _, _, _ => .error "Invalid character"

/-- Keys are their bytes, and nothing is signed. -/
def sampleSetup : Platform := { samplePlatform with
  VerifyingKey := BytesOf 32
  keyFromBytes := .ok
  verifyStrict := fun _ _ _ => false
  hexDecode := fun s => sampleHexChars s.toList }

theorem masterKeysDecode_sample : MasterKeysDecode sampleSetup.toCrypto := by
  have hall : ∀ hexStr ∈ masterPublicKeysHex,
      (sampleHexChars hexStr.toList).toOption.map List.length = some 32 := by decide +kernel
  intro hexStr hmem
  obtain ⟨bytes, hdec, hlen⟩ := Option.map_eq_some_iff.1 (hall hexStr hmem)
  cases hsample : sampleHexChars hexStr.toList with
  | error e => simp [hsample, Except.toOption] at hdec
  | ok decoded =>
    simp only [hsample, Except.toOption, Option.some.injEq] at hdec
    subst hdec
    exact ⟨⟨decoded, hlen⟩, ⟨decoded, hlen⟩, hsample, rfl⟩

def sampleHost : Host where
  sha256 _ := ⟨List.replicate 32 0, by simp⟩
  platformId := none
  configDir := some "/home/u/.config"

theorem app_id_parsing_returns_sample : MasterKeysDecode sampleSetup.toCrypto ∧
    (Sdk.new sampleSetup sampleHost
        ⟨"pk_live_000000000000000000000000000é000", none, none, some "raw", none⟩ ≠ .error .panic ↔
      ¬ CutsCharacter "pk_live_000000000000000000000000000é000") :=
  ⟨masterKeysDecode_sample,
    (app_id_parsing_returns sampleSetup masterKeysDecode_sample).2.1 sampleHost _⟩

/-- An `é` as the fourth character from the end leaves 32 bytes, and byte 28 is its second. -/
theorem app_id_parsing_panics :
    ¬ ((∀ appId, parseAppId appId ≠ .error .panic) ∧
      ∀ (key : String) (checksumLen : ℕ),
        (validateKey key checksumLen : Checked Empty Bool) ≠ .error .panic) ∧
    parseAppId "pk_live_000000000000000000000000000é000" = .error .panic ∧
      (validateKey "é" 1 : Checked Empty Bool) = .error .panic := by
  have hparse : parseAppId "pk_live_000000000000000000000000000é000" = .error .panic := by
    decide +kernel
  exact ⟨fun h => h.1 _ hparse, hparse, by decide +kernel⟩

end LatteRs
