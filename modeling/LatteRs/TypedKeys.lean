import LatteRs.Checksums
import LatteRs.FastPath

/-!
# Keys as they are typed

A native key may be typed in either case, with hyphens and spaces anywhere, with
`O` for `0` and with `I` or `L` for `1`; an alias in either case and with hyphens
and spaces.  `sanitize_key` and `normalize_key` undo exactly that, and so
`activate` finds a cached licence under every way to type its key and no other.

* `Spells`, `AnyCase`, `Native`;
* `sanitizeKey_eq_iff`, `normalizeKey_eq_iff`: what is read as a key;
* `typed_keys`: under what `activate` finds a cached licence.
-/

namespace LatteRs

open Concurrent Act Program

/-! ### Ways to type a key -/

/-- What may stand anywhere in a typed key. -/
def IsSeparator (c : Char) : Prop := c = '-' ∨ c = ' '

instance (c : Char) : Decidable (IsSeparator c) := inferInstanceAs (Decidable (_ ∨ _))

/-- A typed text and the key it stands for, of which `R` says how one character may be typed. -/
inductive Spells (R : Char → Char → Prop) : List Char → List Char → Prop
  | nil : Spells R [] []
  | separator {c : Char} {typed key : List Char} (hc : IsSeparator c) (h : Spells R typed key) :
      Spells R (c :: typed) key
  | char {c k : Char} {typed key : List Char} (hc : ¬ IsSeparator c) (hck : R c k)
      (h : Spells R typed key) : Spells R (c :: typed) (k :: key)

/-- Upper or lower case. -/
def AnyCase (c k : Char) : Prop := c.toUpper = k

/-- Upper or lower case, or one of the letters that a native key does not have. -/
def Native (c k : Char) : Prop :=
  AnyCase c k ∨ k = '0' ∧ AnyCase c 'O' ∨ k = '1' ∧ (AnyCase c 'I' ∨ AnyCase c 'L')

instance (c k : Char) : Decidable (AnyCase c k) := inferInstanceAs (Decidable (_ = _))

instance (c k : Char) : Decidable (Native c k) := inferInstanceAs (Decidable (_ ∨ _))

/-- The conversion in Rust's standard library, on ASCII. -/
def UppercasesAscii (toUppercase : String → String) : Prop :=
  ∀ s : String, (∀ c ∈ s.toList, IsAscii c) →
    toUppercase s = String.ofList (s.toList.map Char.toUpper)

theorem Spells.mono {R R' : Char → Char → Prop} {typed key : List Char} (h : Spells R typed key)
    (hR : ∀ c, ∀ k ∈ key, R c k → R' c k) : Spells R' typed key := by
  induction h with
  | nil => exact .nil
  | separator hc _ ih => exact .separator hc (ih hR)
  | char hc hck _ ih =>
    refine .char hc (hR _ _ List.mem_cons_self hck) (ih fun c k hk => hR c k ?_)
    exact List.mem_cons_of_mem _ hk

/-- What the separators are dropped from and each character of which is read by `f`. -/
theorem spells_iff {f : Char → Char} {typed key : List Char} :
    (typed.filter fun c => ¬ IsSeparator c).map f = key ↔
      Spells (fun c k => f c = k) typed key := by
  induction typed generalizing key with
  | nil =>
    constructor
    · rintro rfl
      exact .nil
    · rintro ⟨⟩
      rfl
  | cons c typed ih =>
    by_cases hc : IsSeparator c
    · rw [List.filter_cons_of_neg (by simpa using hc), ih]
      constructor
      · exact Spells.separator hc
      · intro h
        cases h with
        | separator _ h => exact h
        | char hne => exact absurd hc hne
    · rw [List.filter_cons_of_pos (by simpa using hc), List.map_cons]
      constructor
      · rintro rfl
        exact .char hc rfl (ih.1 rfl)
      · intro h
        cases h with
        | separator hsep => exact absurd hsep hc
        | char _ hck h => rw [hck, ih.2 h]

/-! ### One character -/

/-- What holds of the 128 characters of ASCII. -/
theorem ascii_chars {p : Char → Prop} [∀ c, Decidable (p c)]
    (h : ∀ n : Fin 128, p (Char.ofNat n)) {c : Char} (hc : IsAscii c) : p c := by
  have hchar := h ⟨c.toNat, hc⟩
  rwa [Char.ofNat_toNat] at hchar

theorem isAscii_toUpper {c : Char} (hc : IsAscii c) : IsAscii c.toUpper :=
  ascii_chars (p := fun c => IsAscii c.toUpper) (by decide +kernel) hc

theorem isSeparator_toUpper {c : Char} (hc : IsAscii c) :
    IsSeparator c.toUpper ↔ IsSeparator c :=
  ascii_chars (p := fun c => IsSeparator c.toUpper ↔ IsSeparator c) (by decide +kernel) hc

/-- The characters that are folded to a character of a native key. -/
theorem foldAmbiguous_eq_iff {d k : Char} (hk : k ∈ alphabetChars) :
    foldAmbiguous d = k ↔ d = k ∨ k = '0' ∧ d = 'O' ∨ k = '1' ∧ (d = 'I' ∨ d = 'L') := by
  have hnot : k ≠ 'O' ∧ k ≠ 'I' ∧ k ≠ 'L' := by
    refine ⟨?_, ?_, ?_⟩ <;> rintro rfl <;> exact absurd hk (by decide +kernel)
  unfold foldAmbiguous
  split_ifs with hO hI hL
  · subst hO
    simp [hnot.1.symm, eq_comm]
  · subst hI
    simp [hnot.2.1.symm, eq_comm]
  · subst hL
    simp [hnot.2.2.symm, eq_comm]
  · simp [hO, hI, hL]

/-! ### What is read as a key -/

section
variable {toUppercase : String → String} {typed : String}

/-- The characters of a typed key without its separators, in upper case. -/
theorem normalizeKey_toList (hupper : UppercasesAscii toUppercase)
    (htyped : ∀ c ∈ typed.toList, IsAscii c) :
    (normalizeKey toUppercase typed).toList =
      (typed.toList.filter fun c => ¬ IsSeparator c).map Char.toUpper := by
  have hfilter : typed.toList.filter (fun c => decide (c.toUpper ≠ '-' ∧ c.toUpper ≠ ' ')) =
      typed.toList.filter fun c => ¬ IsSeparator c := by
    refine List.filter_congr fun c hc => ?_
    have hsep := isSeparator_toUpper (htyped c hc)
    rw [decide_eq_decide, ← not_or]
    exact not_congr hsep
  rw [normalizeKey, hupper typed htyped, String.toList_ofList, String.toList_ofList,
    List.filter_map]
  exact congrArg (List.map Char.toUpper) hfilter

theorem normalizeKey_ascii (hupper : UppercasesAscii toUppercase)
    (htyped : ∀ c ∈ typed.toList, IsAscii c) :
    ∀ c ∈ (normalizeKey toUppercase typed).toList, IsAscii c := by
  intro c hc
  rw [normalizeKey_toList hupper htyped, List.mem_map] at hc
  obtain ⟨c', hc', rfl⟩ := hc
  exact isAscii_toUpper (htyped c' (List.mem_of_mem_filter hc'))

/-- An alias is what is typed in either case with separators. -/
theorem normalizeKey_eq_iff (hupper : UppercasesAscii toUppercase)
    (htyped : ∀ c ∈ typed.toList, IsAscii c) {key : String} :
    normalizeKey toUppercase typed = key ↔ Spells AnyCase typed.toList key.toList := by
  rw [← String.toList_inj, normalizeKey_toList hupper htyped]
  exact spells_iff

/-- A native key is what is typed in either case with separators and look-alikes. -/
theorem sanitizeKey_eq_iff (hupper : UppercasesAscii toUppercase)
    (htyped : ∀ c ∈ typed.toList, IsAscii c) {key : String}
    (hkey : ∀ k ∈ key.toList, k ∈ alphabetChars) :
    sanitizeKey toUppercase typed = key ↔ Spells Native typed.toList key.toList := by
  have hchar : ∀ c, ∀ k ∈ key.toList, foldAmbiguous c.toUpper = k ↔ Native c k :=
    fun c k hk => foldAmbiguous_eq_iff (hkey k hk)
  rw [sanitizeKey_eq, ← String.toList_inj, String.toList_ofList,
    normalizeKey_toList hupper htyped, List.map_map, spells_iff]
  constructor
  · exact fun h => h.mono fun c k hk => (hchar c k hk).1
  · exact fun h => h.mono fun c k hk => (hchar c k hk).2

/-- A typed native key has as many bytes as the key once it is normalized. -/
theorem normalizeKey_size (hupper : UppercasesAscii toUppercase)
    (htyped : ∀ c ∈ typed.toList, IsAscii c) {key : String}
    (hkey : ∀ k ∈ key.toList, k ∈ alphabetChars) (h : sanitizeKey toUppercase typed = key) :
    (normalizeKey toUppercase typed).utf8ByteSize = key.utf8ByteSize := by
  have hlength : (normalizeKey toUppercase typed).toList.length = key.toList.length := by
    rw [← h, sanitizeKey_eq, String.toList_ofList, List.length_map]
  have hsize : ∀ s : String, (∀ c ∈ s.toList, IsAscii c) → s.utf8ByteSize = s.toList.length := by
    intro s hs
    have hbytes := utf8ByteSize_ascii hs
    rwa [String.ofList_toList] at hbytes
  rw [hsize _ (normalizeKey_ascii hupper htyped), hlength,
    hsize _ fun k hk => isAscii_of_mem_alphabet (hkey k hk)]

end

/-! ### What `activate` finds -/

variable {P : Platform} {sdk : Sdk P} {now : SystemTime} {reply : Reply} {starts : Bool}
  {licenseKey : String}

theorem validateLicenseKey_eq_ok {normalized : String} :
    validateLicenseKey normalized = .ok () ↔ normalized ≠ "" ∧ normalized.utf8ByteSize ≤ 256 := by
  unfold validateLicenseKey
  rw [ne_eq, ← Nat.not_lt, ← not_or]
  by_cases h : normalized = "" ∨ normalized.utf8ByteSize > 256
  · rw [if_pos h]
    exact iff_of_false (fun hok => by cases hok) (not_not_intro h)
  · rw [if_neg h]
    exact iff_of_true rfl h

/-- `activate` returns the cached licence without a request exactly when it names the key. -/
theorem alone_activate_hit {s : Shared} {newest : ℤ} {lic : PublicLicense} :
    (sdk.alone now reply starts (.activate licenseKey) s newest).1 = some (.license (.ok lic)) ∧
        sent (sdk.alone now reply starts (.activate licenseKey) s newest).2.past = none ↔
      validateLicenseKey (normalizeKey P.toUppercase licenseKey) = .ok () ∧
        sdk.Hit s now licenseKey lic := by
  constructor
  · rintro ⟨hreturns, hsent⟩
    cases hvalid : validateLicenseKey (normalizeKey P.toUppercase licenseKey) with
    | error e =>
      have hexec : (activate sdk licenseKey).exec (sdk.steady now reply starts) ⟨[], s, newest⟩ =
          (some (.error e), ⟨[], s, newest⟩) := by
        unfold activate
        simp only [hvalid]
        rfl
      rw [alone_returns Outcome.license rfl hexec] at hreturns
      cases hreturns
    | ok =>
      obtain ⟨hne, hlen⟩ := validateLicenseKey_eq_ok.1 hvalid
      refine ⟨rfl, ?_⟩
      obtain ⟨lic', z', hexec, -, hhit⟩ | ⟨-, hmiss⟩ :=
        exec_activate now reply starts hne hlen (z := ⟨[], s, newest⟩)
      · rw [alone_returns Outcome.license rfl hexec] at hreturns
        cases hreturns
        exact hhit
      · rcases hexec : (activate sdk licenseKey).exec (sdk.steady now reply starts)
          ⟨[], s, newest⟩ with ⟨_ | a, z'⟩
        · rw [alone_panics Outcome.license rfl hexec] at hreturns
          cases hreturns
        · rw [alone_returns Outcome.license rfl hexec] at hsent
          rw [hexec] at hmiss
          exact absurd hsent (hmiss.resolve_left (Option.some_ne_none a))
  · rintro ⟨hvalid, hhit⟩
    obtain ⟨hne, hlen⟩ := validateLicenseKey_eq_ok.1 hvalid
    obtain ⟨lic', z', hexec, hq, hhit'⟩ | ⟨hmiss, -⟩ :=
      exec_activate now reply starts hne hlen (z := ⟨[], s, newest⟩)
    · cases hhit.unique hhit'
      rw [alone_returns Outcome.license rfl hexec]
      exact ⟨rfl, hq.sent⟩
    · exact absurd ⟨lic, hhit⟩ hmiss

/-- **A cached licence is found under every way to type its key.**  An ASCII text is read as a
native key exactly when it spells it: in either case, with hyphens and spaces anywhere, with `O`
for `0` and with `I` or `L` for `1`.  When the cache holds a token that passes the check for this
machine, for a native key that is not empty and perhaps an alias, both of at most 256 bytes,
`activate` returns its licence without a request under the texts that spell the one or, in either
case and with hyphens and spaces, the other, and under no other ASCII text. -/
theorem typed_keys (sdk : Sdk P) (hupper : UppercasesAscii P.toUppercase) (typed : String)
    (htyped : ∀ c ∈ typed.toList, IsAscii c) :
    (∀ key : String, (∀ k ∈ key.toList, k ∈ alphabetChars) →
      (sanitizeKey P.toUppercase typed = key ↔ Spells Native typed.toList key.toList)) ∧
    ∀ s newest now reply starts lic aliasKey, sdk.Finds s now lic aliasKey →
      (∀ k ∈ lic.key.toList, k ∈ alphabetChars) → lic.key ≠ "" → lic.key.utf8ByteSize ≤ 256 →
      aliasKey.utf8ByteSize ≤ 256 →
      ((sdk.alone now reply starts (.activate typed) s newest).1 = some (.license (.ok lic)) ∧
          sent (sdk.alone now reply starts (.activate typed) s newest).2.past = none ↔
        Spells Native typed.toList lic.key.toList ∨
          aliasKey ≠ "" ∧ Spells AnyCase typed.toList aliasKey.toList) := by
  refine ⟨fun key hkey => sanitizeKey_eq_iff hupper htyped hkey, ?_⟩
  intro s newest now reply starts lic aliasKey hfinds hkey hne hsize hsize'
  rw [alone_activate_hit, hit_iff, validateLicenseKey_eq_ok,
    ← sanitizeKey_eq_iff hupper htyped hkey, ← normalizeKey_eq_iff hupper htyped]
  constructor
  · rintro ⟨-, aliasKey', hfinds', hnames⟩
    obtain ⟨-, rfl⟩ := hfinds.unique hfinds'
    exact hnames.imp Eq.symm (And.imp id Eq.symm)
  · intro hnames
    refine ⟨?_, aliasKey, hfinds, hnames.imp Eq.symm (And.imp id Eq.symm)⟩
    rcases hnames with hnative | ⟨halias, hnormal⟩
    · have hbytes := normalizeKey_size hupper htyped hkey hnative
      refine ⟨fun hempty => hne ?_, by omega⟩
      rw [hempty, String.utf8ByteSize_empty] at hbytes
      exact String.utf8ByteSize_eq_zero_iff.1 hbytes.symm
    · rw [hnormal]
      exact ⟨halias, hsize'⟩

def typedPlatform : Platform :=
  { samplePlatform with toUppercase := fun s => String.ofList (s.toList.map Char.toUpper) }

def typedSdk : Sdk typedPlatform where
  baseUrl := ""
  appId := "p"
  machineId := "m"
  machineName := none
  masterPubs := sampleKeys
  cachePath := some "cache"

def typedLicense : PublicLicense :=
  toPublicLicense (sampleLicense "KEY" "a" (sampleAt (sampleNow - 60))) false

theorem typedSdk_finds : typedSdk.Finds (Shared.new (some ("h.t.4t", sampleChain)))
    (sampleAt sampleNow) typedLicense "" :=
  ⟨_, _, _, rfl, verify_sample, by decide +kernel, rfl, rfl⟩

theorem forall_of_all {p : Char → Prop} [∀ c, Decidable (p c)] {s : String}
    (h : (s.toList.all fun c => decide (p c)) = true) : ∀ c ∈ s.toList, p c :=
  fun c hc => of_decide_eq_true (List.all_eq_true.1 h c hc)

/-- The sample token names the key `KEY`. -/
theorem typed_keys_sample :
    (typedSdk.alone (sampleAt sampleNow) (sampleReply 117) true (.activate "k-E y")
      (Shared.new (some ("h.t.4t", sampleChain))) 0).1 = some (.license (.ok typedLicense)) ∧
    sanitizeKey typedPlatform.toUppercase "lO-o" = "100" := by
  have hspells : Spells Native ['k', '-', 'E', ' ', 'y'] ['K', 'E', 'Y'] :=
    .char (by decide) (by decide) (.separator (by decide) (.char (by decide) (by decide)
      (.separator (by decide) (.char (by decide) (by decide) .nil))))
  have hread : Spells Native ['l', 'O', '-', 'o'] ['1', '0', '0'] :=
    .char (by decide) (by decide) (.char (by decide) (by decide)
      (.separator (by decide) (.char (by decide) (by decide) .nil)))
  have hupper : UppercasesAscii typedPlatform.toUppercase := fun _ _ => rfl
  refine ⟨?_, ((typed_keys typedSdk hupper "lO-o" (forall_of_all (by decide))).1 "100"
    (forall_of_all (by decide))).2 hread⟩
  have hfound := (typed_keys typedSdk hupper "k-E y" (forall_of_all (by decide))).2 _ 0 _
    (sampleReply 117) true _ _ typedSdk_finds (forall_of_all (s := "KEY") (by decide))
    (by decide) (by decide) (by decide)
  exact (hfound.2 (Or.inl hspells)).1

end LatteRs
