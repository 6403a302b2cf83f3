import LatteRs.Domain
import LatteRs.Key
import LatteRs.Segments

/-!
# App ids

The module `appid.rs`: app ids of the form `pk_{env}_{32-character key}`.

* `Environment`, `AppId`, `parseAppId`;
* `CutsCharacter`, `parseAppId_eq_panic`: the app ids on which it panics.
-/

namespace LatteRs

open Checked

inductive Environment
  | live
  | test
  | local_
  deriving DecidableEq

/-- The base URL of the API that the environment talks to. -/
def Environment.baseUrl : Environment → String
  | live => "https://api.licenselatte.com"
  | test => "https://api.licenselatte.com"
  | local_ => "http://localhost:8080"

def Environment.ofSegment (s : String) : Checked AppIdError Environment :=
  if s = "live" then .ok .live
  else if s = "test" then .ok .test
  else if s = "local" then .ok .local_
  else fail (.unknownEnvironment s)

structure AppId where
  env : Environment
  /-- The key segment, with its checksum of four characters. -/
  key : String
  deriving DecidableEq

/-- `app_id.split('_')`. -/
def splitUnderscores (s : String) : List String := (s.toList.splitOn '_').map String.ofList

/-- The checks on the key segment. -/
def checkKeySegment (key : String) : Checked AppIdError Unit := do
  ensure (key.utf8ByteSize = 32) .invalidKeySegment
  let valid ← validateKey key 4
  ensure (valid = true) .invalidChecksum

def parseAppId (appId : String) : Checked AppIdError AppId :=
  match splitUnderscores appId with
  | [pk, env, key] => do
    ensure (pk = "pk") .invalidFormat
    let env ← Environment.ofSegment env
    checkKeySegment key
    .ok ⟨env, key⟩
  | _ => fail .invalidFormat

/-- The app id has a known environment and a key segment of 32 bytes, the last four of which
begin inside a character. -/
def CutsCharacter (appId : String) : Prop :=
  ∃ env key, splitUnderscores appId = ["pk", env, key] ∧ env ∈ ["live", "test", "local"] ∧
    key.utf8ByteSize = 32 ∧ ¬ IsCharBoundary key 28

theorem Environment.ofSegment_ne_panic (s : String) :
    Environment.ofSegment s ≠ .error .panic := by
  unfold ofSegment
  split_ifs <;> simp

theorem Environment.ofSegment_eq_ok {s : String} :
    (∃ env, Environment.ofSegment s = .ok env) ↔ s ∈ ["live", "test", "local"] := by
  unfold ofSegment
  split_ifs <;> simp_all

theorem splitUnderscores_eq {appId pk env key : String} :
    splitUnderscores appId = [pk, env, key] ↔
      appId = pk ++ "_" ++ env ++ "_" ++ key ∧
        '_' ∉ pk.toList ∧ '_' ∉ env.toList ∧ '_' ∉ key.toList := by
  have hcat : (pk ++ "_" ++ env ++ "_" ++ key).toList =
      pk.toList ++ '_' :: (env.toList ++ '_' :: key.toList) := by simp
  rw [splitUnderscores, Segments.map_splitOn_eq_three, ← hcat, String.toList_inj]

theorem checkKeySegment_eq_panic {key : String} :
    checkKeySegment key = .error .panic ↔ key.utf8ByteSize = 32 ∧ ¬ IsCharBoundary key 28 := by
  unfold checkKeySegment
  rw [bind_eq_error]
  simp only [ensure_ne_panic, ensure_eq_ok, false_or, exists_const]
  refine and_congr_right fun hsize => ?_
  rw [bind_eq_error, validateKey_eq_panic, hsize]
  constructor
  · rintro (⟨-, hcut⟩ | ⟨valid, -, hrest⟩)
    · exact hcut
    · exact absurd hrest (ensure_ne_panic _ _)
  · intro hcut
    exact Or.inl ⟨by decide, hcut⟩

/-- What `parse_app_id` accepts. -/
theorem parseAppId_eq_ok {appId : String} {parsed : AppId} :
    parseAppId appId = .ok parsed ↔
      ∃ env, splitUnderscores appId = ["pk", env, parsed.key] ∧
        Environment.ofSegment env = .ok parsed.env ∧ parsed.key.utf8ByteSize = 32 ∧
        (validateKey parsed.key 4 : Checked AppIdError Bool) = .ok true := by
  unfold parseAppId
  split
  · next pk env key hparts =>
    simp only [checkKeySegment, bind_eq_ok, ensure_eq_ok, exists_const, Except.ok.injEq]
    constructor
    · rintro ⟨rfl, env', hseg, ⟨hsize, valid, hvalid, rfl⟩, rfl⟩
      exact ⟨env, hparts, hseg, hsize, hvalid⟩
    · rintro ⟨env', hparts', hseg, hsize, hvalid⟩
      rw [hparts] at hparts'
      cases hparts'
      exact ⟨rfl, _, hseg, ⟨hsize, _, hvalid, rfl⟩, rfl⟩
  · next parts hparts =>
    simp only [fail_ne_ok, false_iff]
    rintro ⟨env, hsplit, -⟩
    exact hparts _ _ _ hsplit

example : parseAppId ("pk_live_AHAK85389VQYXYB6S4BW66SKE53T" ++
    calculateChecksum "AHAK85389VQYXYB6S4BW66SKE53T" 4) =
      .ok ⟨.live, "AHAK85389VQYXYB6S4BW66SKE53TWVTS"⟩ := by decide +kernel

/-- `parse_app_id` panics exactly when it splits the key segment inside a character. -/
theorem parseAppId_eq_panic {appId : String} :
    parseAppId appId = .error .panic ↔ CutsCharacter appId := by
  unfold parseAppId
  split
  · next pk env key hparts =>
    rw [bind_eq_error]
    simp only [ensure_ne_panic, ensure_eq_ok, false_or, exists_const]
    rw [bind_eq_error]
    simp only [Environment.ofSegment_ne_panic, false_or]
    constructor
    · rintro ⟨rfl, env', hseg, hrest⟩
      rcases bind_eq_error.1 hrest with hkey | ⟨u, -, hret⟩
      · exact ⟨env, key, hparts, Environment.ofSegment_eq_ok.1 ⟨env', hseg⟩,
          checkKeySegment_eq_panic.1 hkey⟩
      · cases hret
    · rintro ⟨env'', key', hparts', henv, hcut⟩
      rw [hparts] at hparts'
      cases hparts'
      obtain ⟨env', hseg⟩ := Environment.ofSegment_eq_ok.2 henv
      exact ⟨rfl, env', hseg, bind_eq_error.2 (Or.inl (checkKeySegment_eq_panic.2 hcut))⟩
  · next parts hparts =>
    simp only [fail_ne_panic, false_iff]
    rintro ⟨env, key, hsplit, -⟩
    exact hparts _ _ _ hsplit

end LatteRs
