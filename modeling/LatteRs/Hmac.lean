import Mathlib.Data.List.Basic
import Mathlib.Data.Nat.Notation

/-!
# Keyed hashing by two nested hashes

HMAC over an arbitrary hash function `H` of byte strings, with a block of
`block` bytes and two masks.

* `Hmac.keyBlock`, `Hmac.tag`;
* `Hmac.hashed`, the byte strings that computing a tag hashes, and
  `Hmac.Collision` between two such lists;
* `Hmac.tag_eq`: equal tags come from equal key blocks and messages, or from a
  collision of `H`.
-/

namespace Hmac

variable (H : List UInt8 → List UInt8) (block : ℕ) (ipad opad : UInt8)

/-- A key as it is masked: hashed when it is longer than a block, and filled with zeros. -/
def keyBlock (key : List UInt8) : List UInt8 :=
  let k := if key.length > block then H key else key
  k ++ List.replicate (block - k.length) 0

def mask (m : UInt8) (bytes : List UInt8) : List UInt8 := bytes.map fun b => b ^^^ m

def innerInput (key msg : List UInt8) : List UInt8 := mask ipad (keyBlock H block key) ++ msg

def outerInput (key msg : List UInt8) : List UInt8 :=
  mask opad (keyBlock H block key) ++ H (innerInput H block ipad key msg)

def tag (key msg : List UInt8) : List UInt8 := H (outerInput H block ipad opad key msg)

/-- The byte strings that computing the tag hashes. -/
def hashed (key msg : List UInt8) : List (List UInt8) :=
  (if key.length > block then [key] else []) ++
    [innerInput H block ipad key msg, outerInput H block ipad opad key msg]

/-- Two different byte strings, one of each list, with the same hash. -/
def Collision (xs ys : List (List UInt8)) : Prop := ∃ x ∈ xs, ∃ y ∈ ys, x ≠ y ∧ H x = H y

variable {H block ipad opad}

theorem keyBlock_length (hH : ∀ x, (H x).length ≤ block) (key : List UInt8) :
    (keyBlock H block key).length = block := by
  have hk : (if key.length > block then H key else key).length ≤ block := by
    split_ifs with hlong
    · exact hH key
    · omega
  simp only [keyBlock, List.length_append, List.length_replicate]
  omega

theorem mask_injective (m : UInt8) : Function.Injective (mask m) := by
  refine List.map_injective_iff.2 fun b b' h => ?_
  have hm : (b ^^^ m) ^^^ m = (b' ^^^ m) ^^^ m := congrArg (· ^^^ m) h
  simpa [UInt8.xor_assoc] using hm

/-- Masked key blocks have one length, so what follows them can be read off. -/
theorem masked_append_inj (hH : ∀ x, (H x).length ≤ block) {m : UInt8}
    {key key' rest rest' : List UInt8}
    (h : mask m (keyBlock H block key) ++ rest = mask m (keyBlock H block key') ++ rest') :
    keyBlock H block key = keyBlock H block key' ∧ rest = rest' := by
  have hlen : (mask m (keyBlock H block key)).length = (mask m (keyBlock H block key')).length := by
    simp [mask, keyBlock_length hH]
  obtain ⟨hmask, hrest⟩ := List.append_inj h hlen
  exact ⟨mask_injective m hmask, hrest⟩

/-- **Equal tags come from equal key blocks and messages, or from a collision.** -/
theorem tag_eq (hH : ∀ x, (H x).length ≤ block) {key key' msg msg' : List UInt8}
    (h : tag H block ipad opad key msg = tag H block ipad opad key' msg') :
    keyBlock H block key = keyBlock H block key' ∧ msg = msg' ∨
      Collision H (hashed H block ipad opad key msg) (hashed H block ipad opad key' msg') := by
  by_cases houter : outerInput H block ipad opad key msg = outerInput H block ipad opad key' msg'
  · obtain ⟨hkey, hinner⟩ := masked_append_inj hH houter
    by_cases hin : innerInput H block ipad key msg = innerInput H block ipad key' msg'
    · exact Or.inl ⟨hkey, (masked_append_inj hH hin).2⟩
    · exact Or.inr ⟨_, by simp [hashed], _, by simp [hashed], hin, hinner⟩
  · exact Or.inr ⟨_, by simp [hashed], _, by simp [hashed], houter, h⟩

end Hmac
