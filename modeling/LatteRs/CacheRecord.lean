import LatteRs.Statements
import LatteRs.Storage

/-!
# The format of the cache file

The record in the cache file as a JSON document: the decoder and the encoder that
`serde` derives for `CachedActivation`, with the numerals of an `i64`.

* `deI64`, `deI64_numeral`: the numerals that are read, and those that are written;
* `cachedActivation`, `CachedActivation.serialize`;
* `cache_format`: what a save writes is read back, by older and newer versions,
  and what is read is a record among other members.
-/

namespace LatteRs.Storage

open Records

/-! ### Numerals -/

/-- The characters of ASCII bytes. -/
def asciiChars (bytes : Bytes) : List Char := bytes.map fun b => Char.ofNat b.toNat

/-- A natural number without a leading zero, as JSON has them. -/
def decimal (ds : Bytes) : Option ℕ :=
  if ds ≠ [] ∧ ds.all isAsciiDigit ∧ (ds.head? = some 48 → ds.length = 1) then
    some (Nat.ofDigitChars 10 (asciiChars ds) 0)
  else none

/-- `i64::deserialize`.  The parser makes a `u64` of a numeral without a sign and an `i64` of one
with, if they fit, and an `f64` of every other one, `-0` included, which is no `i64`. -/
def deI64 : Json → Option ℤ
  | .number (45 :: ds) =>
    (decimal ds).bind fun n => if 1 ≤ n ∧ n ≤ 2 ^ 63 then some (-n : ℤ) else none
  | .number ds => (decimal ds).bind fun n => if n < 2 ^ 63 then some (n : ℤ) else none
  | _ => none

/-- The numeral of an integer. -/
def numeral (i : ℤ) : Bytes := asBytes (toString i)

theorem asBytes_ascii {cs : List Char} (h : ∀ c ∈ cs, IsAscii c) :
    asBytes (String.ofList cs) = cs.map Char.toUInt8 := by
  induction cs with
  | nil => rfl
  | cons c cs ih =>
    rw [asBytes_ofList_cons, utf8EncodeChar_ascii (h c List.mem_cons_self),
      ih fun d hd => h d (List.mem_cons_of_mem c hd)]
    rfl

theorem asciiChars_asBytes {cs : List Char} (h : ∀ c ∈ cs, IsAscii c) :
    asciiChars (asBytes (String.ofList cs)) = cs := by
  rw [asBytes_ascii h]
  unfold asciiChars
  rw [List.map_map]
  refine (List.map_congr_left fun c hc => ?_).trans (List.map_id cs)
  show Char.ofNat c.toUInt8.toNat = c
  rw [toNat_toUInt8 (h c hc), Char.ofNat_toNat]

/-- A number that is not zero does not begin with a zero. -/
theorem head?_toDigits {n : ℕ} (hn : 0 < n) : (Nat.toDigits 10 n).head? ≠ some '0' := by
  induction n using Nat.strong_induction_on with
  | _ n ih =>
    by_cases hlt : n < 10
    · rw [Nat.toDigits_of_lt_base hlt]
      interval_cases n <;> decide
    · have hq := ih (n / 10) (by omega) (by omega)
      rw [Nat.toDigits_of_base_le (by omega) (by omega)]
      rw [List.head?_append_of_ne_nil _ Nat.toDigits_ne_nil]
      exact hq

theorem decimal_repr (n : ℕ) : decimal (asBytes (String.ofList (Nat.toDigits 10 n))) = some n := by
  have hdigit : ∀ c ∈ Nat.toDigits 10 n, c.isDigit = true := fun c hc =>
    Nat.isDigit_of_mem_toDigits (by decide) (by decide) hc
  have hascii : ∀ c ∈ Nat.toDigits 10 n, IsAscii c := fun c hc => isAscii_of_isDigit (hdigit c hc)
  have hne : asBytes (String.ofList (Nat.toDigits 10 n)) ≠ [] := by
    rw [asBytes_ascii hascii]
    exact fun h => Nat.toDigits_ne_nil (List.map_eq_nil_iff.1 h)
  have hall : (asBytes (String.ofList (Nat.toDigits 10 n))).all isAsciiDigit = true := by
    rw [all_asBytes]
    exact List.all_eq_true.2 hdigit
  have hhead : (asBytes (String.ofList (Nat.toDigits 10 n))).head? = some 48 →
      (asBytes (String.ofList (Nat.toDigits 10 n))).length = 1 := by
    intro h
    obtain ⟨rest, hrest⟩ := (asBytes_head? (c := '0') (by decide) _).1 h
    by_cases hn : 0 < n
    · exact absurd (by rw [hrest]; rfl) (head?_toDigits hn)
    · have hzero : n = 0 := by omega
      subst hzero
      decide
  unfold decimal
  rw [if_pos ⟨hne, hall, hhead⟩, asciiChars_asBytes hascii, Nat.ofDigitChars_ten_toDigits]

theorem deI64_of_ne {ds : Bytes} (h : ds.head? ≠ some 45) : deI64 (.number ds) =
    (decimal ds).bind fun n => if n < 2 ^ 63 then some (n : ℤ) else none := by
  unfold deI64
  split
  · rename_i heq
    cases heq
    exact absurd rfl h
  · rename_i heq
    cases heq
    rfl
  · rename_i hnumber
    exact absurd rfl (hnumber ds)

/-- What is written for an integer of 64 bits is read as this integer. -/
theorem deI64_numeral {i : ℤ} (hmin : -2 ^ 63 ≤ i) (hmax : i < 2 ^ 63) :
    deI64 (.number (numeral i)) = some i := by
  cases i with
  | ofNat n =>
    have hnumeral : numeral (Int.ofNat n) = asBytes (String.ofList (Nat.toDigits 10 n)) := by
      rw [← Nat.toString_eq_ofList_toDigits]
      rfl
    have hsign : (asBytes (String.ofList (Nat.toDigits 10 n))).head? ≠ some 45 := by
      intro h
      obtain ⟨rest, hrest⟩ := (asBytes_head? (c := '-') (by decide) _).1 h
      have hdigit := Nat.isDigit_of_mem_toDigits (b := 10) (n := n) (c := '-') (by decide)
        (by decide) (by rw [hrest]; exact List.mem_cons_self)
      cases hdigit
    have hlt : n < 2 ^ 63 := by
      have hcast : (n : ℤ) < 2 ^ 63 := hmax
      exact_mod_cast hcast
    rw [hnumeral, deI64_of_ne hsign, decimal_repr, Option.bind_some, if_pos hlt]
    rfl
  | negSucc m =>
    have hnumeral : numeral (Int.negSucc m) =
        45 :: asBytes (String.ofList (Nat.toDigits 10 (m + 1))) := by
      rw [← Nat.toString_eq_ofList_toDigits]
      exact asBytes_append "-" (toString (m + 1))
    have hle : 1 ≤ m + 1 ∧ m + 1 ≤ 2 ^ 63 := by
      rw [Int.negSucc_eq] at hmin
      omega
    rw [hnumeral]
    show (decimal _).bind _ = _
    rw [decimal_repr, Option.bind_some, if_pos hle, Int.negSucc_eq]
    rfl

/-! ### Records -/

def cachedActivation : Record JsonString Json CachedActivation :=
  ((required "timestamp" deI64).and ((required "token" deString).and
    ((required "submaster" deString).and
      ((required "project" deString).and (required "daily" deString))))).map
    fun (timestamp, token, submaster, project, daily) =>
      ⟨timestamp, token, submaster, project, daily⟩

def cacheShape : Shape := .record [("timestamp", .leaf), ("token", .leaf), ("submaster", .leaf),
  ("project", .leaf), ("daily", .leaf)]

namespace CachedActivation

/-- The record with some numeral for its time. -/
def json (record : CachedActivation) (timestamp : Bytes) : Json :=
  .object [(.text "timestamp", .number timestamp), (.text "token", .ofString record.token),
    (.text "submaster", .ofString record.submaster),
    (.text "project", .ofString record.project), (.text "daily", .ofString record.daily)]

/-- The encoder that is derived. -/
def serialize (record : CachedActivation) : Json := record.json (numeral record.timestamp)

end CachedActivation

theorem stable_cachedActivation : Stable cacheShape (deserializeStruct cachedActivation) := by
  refine stable_record rfl (Record.Respects.map ?_ _)
  exact (respects_leaf rfl).and ((respects_leaf rfl).and ((respects_leaf rfl).and
    ((respects_leaf rfl).and (respects_leaf rfl))))

theorem respects_cachedActivation : cachedActivation.Respects fun _ => Eq :=
  (respects_eq.and (respects_eq.and (respects_eq.and (respects_eq.and respects_eq)))).map _

/-- The values of the members of a record. -/
structure Looks (record : CachedActivation) (timestamp : Bytes)
    (look : JsonString → Option Json) : Prop where
  timestamp : look (.text "timestamp") = some (.number timestamp)
  token : look (.text "token") = some (.ofString record.token)
  submaster : look (.text "submaster") = some (.ofString record.submaster)
  project : look (.text "project") = some (.ofString record.project)
  daily : look (.text "daily") = some (.ofString record.daily)

theorem Looks.json {record : CachedActivation} {timestamp : Bytes}
    {look : JsonString → Option Json} (h : Looks record timestamp look) :
    record.json timestamp = .object (present cachedActivation.names look) := by
  show record.json timestamp = .object (present [.text "timestamp", .text "token",
    .text "submaster", .text "project", .text "daily"] look)
  simp only [present_text_cons, h.timestamp, h.token, h.submaster, h.project, h.daily,
    memberIfAny_some]
  rfl

theorem deI64_is_number {v : Json} {i : ℤ} (h : deI64 v = some i) : ∃ ds, v = .number ds := by
  cases v with
  | number ds => exact ⟨ds, rfl⟩
  | _ => cases h

theorem build_cachedActivation {look : JsonString → Option Json} {record : CachedActivation} :
    cachedActivation.build look = some record ↔ ∃ timestamp,
      deI64 (.number timestamp) = some record.timestamp ∧ Looks record timestamp look := by
  unfold cachedActivation
  rw [Record.build_map_eq_some]
  simp only [Record.build_and_eq_some, lookups_of_required, deString_eq_some]
  constructor
  · rintro ⟨⟨timestamp, token, submaster, project, daily⟩, ⟨⟨v, h₁, hv⟩, ⟨_, h₂, rfl⟩,
      ⟨_, h₃, rfl⟩, ⟨_, h₄, rfl⟩, ⟨_, h₅, rfl⟩⟩, rfl⟩
    obtain ⟨ds, rfl⟩ := deI64_is_number hv
    exact ⟨ds, hv, h₁, h₂, h₃, h₄, h₅⟩
  · rintro ⟨ds, hv, h⟩
    exact ⟨(record.timestamp, record.token, record.submaster, record.project, record.daily),
      ⟨⟨_, h.timestamp, hv⟩, ⟨_, h.token, rfl⟩, ⟨_, h.submaster, rfl⟩, ⟨_, h.project, rfl⟩,
        ⟨_, h.daily, rfl⟩⟩, rfl⟩

/-- A record among other members is read. -/
theorem deserialize_json {record : CachedActivation} {timestamp : Bytes} {doc : Json}
    (htime : deI64 (.number timestamp) = some record.timestamp)
    (h : Grows cacheShape (record.json timestamp) doc) :
    deserializeStruct cachedActivation doc = some record := by
  let look : JsonString → Option Json := fun k => List.lookup k
    [(.text "timestamp", .number timestamp), (.text "token", .ofString record.token),
      (.text "submaster", .ofString record.submaster),
      (.text "project", .ofString record.project), (.text "daily", .ofString record.daily)]
  have hlooks : Looks record timestamp look := by
    refine ⟨?_, ?_, ?_, ?_, ?_⟩ <;> simp [look]
  rw [← stable_cachedActivation _ _ h, hlooks.json]
  exact deserializeStruct_present respects_cachedActivation (by decide) (by decide)
    (build_cachedActivation.2 ⟨timestamp, htime, hlooks⟩) rfl

/-- **The format of the cache file.**  What a save writes is read back as the token and the chain,
also when a later version has added members to it in whatever order; and a document in which the
record is no array is read exactly if it is a record among other members, with a numeral for its
time that an `i64` has. -/
theorem cache_format :
    (∀ (now : SystemTime) (token : String) (chain : CertChain) (doc : Json),
      Grows cacheShape (CachedActivation.of now token chain).serialize doc →
        (deserializeStruct cachedActivation doc).map CachedActivation.activation =
          some (token, chain)) ∧
      ∀ (doc : Json) (record : CachedActivation), ¬ Positional cacheShape doc →
        (deserializeStruct cachedActivation doc = some record ↔ ∃ timestamp,
          deI64 (.number timestamp) = some record.timestamp ∧
            Grows cacheShape (record.json timestamp) doc) := by
  constructor
  · intro now token chain doc hgrows
    have hbounds := timestamp_bounds now token chain
    have htime := deI64_numeral (by omega) hbounds.2
    rw [deserialize_json htime hgrows]
    rfl
  · intro doc record hobj
    constructor
    · intro h
      obtain ⟨ms, look, rfl, hbuild, -, hadded⟩ :=
        deserializeStruct_eq_some respects_cachedActivation (by decide) rfl hobj h
      obtain ⟨timestamp, htime, hlooks⟩ := build_cachedActivation.1 hbuild
      refine ⟨timestamp, htime, ?_⟩
      rw [hlooks.json]
      exact hadded.grows
    · rintro ⟨timestamp, htime, hgrows⟩
      exact deserialize_json htime hgrows

def sampleSaved : CachedActivation := .of (sampleAt sampleNow) "t" ⟨"s", "p", "d"⟩

/-- The members of the sample record in another order, behind one that is new. -/
def sampleMembers : List (JsonString × Json) :=
  [(.text "version", .number [50]), (.text "daily", .ofString "d"),
    (.text "project", .ofString "p"), (.text "submaster", .ofString "s"),
    (.text "token", .ofString "t"),
    (.text "timestamp", .number (numeral sampleSaved.timestamp))]

theorem cache_format_sample :
    (deserializeStruct cachedActivation (.object sampleMembers)).map CachedActivation.activation =
      some ("t", ⟨"s", "p", "d"⟩) := by
  refine cache_format.1 (sampleAt sampleNow) "t" ⟨"s", "p", "d"⟩ _ (Added.grows ?_)
  exact ⟨[(.text "version", .number [50])], (List.reverse_perm sampleMembers).symm, by decide⟩

end LatteRs.Storage
