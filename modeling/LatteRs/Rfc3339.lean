import LatteRs.Ascii
import LatteRs.Calendar
import LatteRs.Time

/-!
# Time stamps on the wire

`parse_rfc3339` of `http.rs`, by hand over the bytes of the string.  Its `None`
is the error `()`.

* `digits`, `parseFields`, `parseFraction`, `parseOffset`, `daysFromCivil`,
  `instant`, `parseRfc3339`;
* `Stamp`, a time stamp as it is written, with `Stamp.text` and `Stamp.nanos`;
* `parseRfc3339_eq_ok`: what is read are the texts of stamps, at their time.
-/

namespace LatteRs

open Checked Decimal Calendar

/-! ### The parser -/

/-- `str::parse`, of ASCII digits, to an integer type that ends at `max`. -/
def parseDigits (max : ℕ) (s : String) : Option ℕ :=
  let n := Nat.ofDigitChars 10 s.toList 0
  if s.toList = [] ∨ max < n then none else some n

/-- `digits`, the number in the bytes from `lo` to `hi`. -/
def digits (s : String) (lo hi : ℕ) : Option ℤ :=
  ((getRange s lo hi).filter fun d => (asBytes d).all isAsciiDigit).bind fun d =>
    (parseDigits (2 ^ 63 - 1) d).map Nat.cast

/-- The fields of the first 19 bytes. -/
structure Fields where
  y : ℤ
  mo : ℤ
  d : ℤ
  h : ℤ
  mi : ℤ
  sec : ℤ

/-- The first 19 bytes; at least one more byte is there. -/
def parseFields (s : String) : Checked Unit Fields := do
  let b := asBytes s
  ensure (¬ (b.length < 20 ∨ b[4]? ≠ some '-'.toUInt8 ∨ b[7]? ≠ some '-'.toUInt8 ∨
    ¬ (b[10]? = some 'T'.toUInt8 ∨ b[10]? = some 't'.toUInt8) ∨ b[13]? ≠ some ':'.toUInt8 ∨
    b[16]? ≠ some ':'.toUInt8)) ()
  let y ← okOr () (digits s 0 4)
  let mo ← okOr () (digits s 5 7)
  let d ← okOr () (digits s 8 10)
  let h ← okOr () (digits s 11 13)
  let mi ← okOr () (digits s 14 16)
  let sec ← okOr () (digits s 17 19)
  ensure (¬ (¬ (1 ≤ mo ∧ mo ≤ 12) ∨ ¬ (1 ≤ d ∧ d ≤ 31) ∨ h > 23 ∨ mi > 59 ∨ sec > 60)) ()
  .ok ⟨y, mo, d, h, mi, sec⟩

/-- The nanoseconds of the fraction, 0 when there is none, and what comes behind it. -/
def parseFraction (rest : String) : Checked Unit (ℕ × String) :=
  match rest.toList with
  | '.' :: frac => do
    let frac := String.ofList frac
    let n := ((asBytes frac).takeWhile isAsciiDigit).length
    ensure (n ≠ 0) ()
    let (front, _) ← splitAt frac (min n 9)
    -- `{:0<9}` fills up with zeros on the right
    let padded := front.toList ++ List.replicate (9 - front.length) '0'
    let nanos ← okOr () (parseDigits (2 ^ 64 - 1) (String.ofList padded))
    let (_, rest) ← splitAt frac n
    .ok (nanos, rest)
  | _ => .ok (0, rest)

/-- The sign of an offset. -/
def parseSign (b : Bytes) : Checked Unit ℤ :=
  if b.head? = some '+'.toUInt8 then .ok 1
  else if b.head? = some '-'.toUInt8 then .ok (-1)
  else fail ()

/-- The offset from UTC, in seconds. -/
def parseOffset (rest : String) : Checked Unit ℤ :=
  if rest = "Z" ∨ rest = "z" then .ok 0
  else do
    let b := asBytes rest
    let sign ← parseSign b
    ensure (¬ (b.length ≠ 6 ∨ b[3]? ≠ some ':'.toUInt8)) ()
    let hours ← i64Mul (← okOr () (digits rest 1 3)) 3600
    let minutes ← i64Mul (← okOr () (digits rest 4 6)) 60
    i64Mul sign (← i64Add hours minutes)

/-- Days since 1970-01-01 in the proleptic Gregorian calendar. -/
def daysFromCivil (y mo d : ℤ) : Checked Unit ℤ := do
  let y ← if mo ≤ 2 then i64Sub y 1 else .ok y
  let era := y / 400
  let yoe ← i64Sub y (← i64Mul era 400)
  let month := (← i64Add mo 9).tmod 12
  let march := (← i64Add (← i64Mul 153 month) 2).tdiv 5
  let doy ← i64Sub (← i64Add march d) 1
  let years ← i64Add (← i64Mul era 146097) (← i64Mul yoe 365)
  let leap ← i64Sub (← i64Add years (yoe.tdiv 4)) (yoe.tdiv 100)
  i64Sub (← i64Add leap doy) 719468

/-- The point in time of the fields. -/
def instant (f : Fields) (offset : ℤ) (nanos : ℕ) : Checked Unit SystemTime := do
  let days ← daysFromCivil f.y f.mo f.d
  let hours ← i64Add (← i64Mul days 86400) (← i64Mul f.h 3600)
  let secs ← i64Sub (← i64Add (← i64Add hours (← i64Mul f.mi 60)) f.sec) offset
  (← unixToSystemTime secs).add nanos

def parseRfc3339 (s : String) : Checked Unit SystemTime := do
  let f ← parseFields s
  let (_, rest) ← splitAt s 19
  let (nanos, rest) ← parseFraction rest
  let offset ← parseOffset rest
  instant f offset nanos

/-! ### Reading behind ASCII characters -/

/-- `cs` is what `k` ASCII characters leave of `s`. -/
def At (s : String) (k : ℕ) (cs : List Char) : Prop :=
  ∃ front, s = String.ofList (front ++ cs) ∧ front.length = k ∧ ∀ c ∈ front, IsAscii c

theorem At.zero (s : String) : At s 0 s.toList :=
  ⟨[], String.ofList_toList.symm, rfl, by simp⟩

theorem At.char {s : String} {k : ℕ} {c : Char} {cs : List Char} (h : At s k (c :: cs))
    (hc : IsAscii c) : At s (k + 1) cs := by
  obtain ⟨front, rfl, rfl, hfront⟩ := h
  refine ⟨front ++ [c], by rw [List.append_assoc]; rfl, by simp, fun d hd => ?_⟩
  rcases List.mem_append.1 hd with hd | hd
  · exact hfront d hd
  · rw [List.mem_singleton.1 hd]
    exact hc

theorem At.digits {s : String} {k n m : ℕ} {cs : List Char}
    (h : At s k (fixedDigits n m ++ cs)) : At s (k + n) cs := by
  obtain ⟨front, rfl, rfl, hfront⟩ := h
  refine ⟨front ++ fixedDigits n m, by rw [List.append_assoc], by simp, fun d hd => ?_⟩
  rcases List.mem_append.1 hd with hd | hd
  · exact hfront d hd
  · exact isAscii_of_isDigit (isDigit_of_mem_fixedDigits hd)

theorem At.getElem? {s : String} {k : ℕ} {cs : List Char} (h : At s k cs) {c : Char}
    (hc : IsAscii c) : (asBytes s)[k]? = some c.toUInt8 ↔ ∃ rest, cs = c :: rest := by
  obtain ⟨front, rfl, rfl, hfront⟩ := h
  rw [asBytes_getElem? hfront, asBytes_head? hc]

/-- Nothing is left exactly at the last byte. -/
theorem At.length_eq {s : String} {k : ℕ} {cs : List Char} (h : At s k cs) :
    (asBytes s).length = k ↔ cs = [] := by
  obtain ⟨front, rfl, rfl, hfront⟩ := h
  have hlength := length_le_utf8ByteSize cs
  rw [length_asBytes, String.ofList_append, String.utf8ByteSize_append,
    utf8ByteSize_ascii hfront, Nat.add_eq_left]
  cases cs with
  | nil => exact iff_of_true rfl rfl
  | cons c cs =>
    rw [List.length_cons] at hlength
    exact iff_of_false (by omega) (by simp)

theorem At.le_length {s : String} {k : ℕ} {cs : List Char} (h : At s k cs) :
    k ≤ (asBytes s).length := by
  obtain ⟨front, rfl, rfl, hfront⟩ := h
  rw [length_asBytes, String.ofList_append, String.utf8ByteSize_append,
    utf8ByteSize_ascii hfront]
  exact Nat.le_add_right _ _

theorem At.length_lt {s : String} {k : ℕ} {cs : List Char} (h : At s k cs) :
    k < (asBytes s).length ↔ cs ≠ [] := by
  rw [Ne, ← h.length_eq]
  have hle := h.le_length
  omega

theorem At.splitAt {ε : Type} {s : String} {k : ℕ} {cs : List Char} (h : At s k cs) :
    ∃ front, (splitAt s k : Checked ε _) = .ok (front, String.ofList cs) := by
  obtain ⟨front, rfl, rfl, hfront⟩ := h
  exact ⟨_, splitAt_eq_ok.2 ⟨String.ofList_append, utf8ByteSize_ascii hfront⟩⟩

/-- A number is read where its digits are written. -/
theorem At.digits_eq_some {s : String} {k n : ℕ} {cs : List Char} (h : At s k cs) (hn : 0 < n)
    (hn' : n ≤ 18) {v : ℤ} :
    LatteRs.digits s k (k + n) = some v ↔
      ∃ m < 10 ^ n, ∃ rest, cs = fixedDigits n m ++ rest ∧ v = m := by
  obtain ⟨front, rfl, rfl, hfront⟩ := h
  have hmax : 10 ^ n ≤ 10 ^ 18 := Nat.pow_le_pow_right (by omega) hn'
  unfold LatteRs.digits
  rw [Option.bind_eq_some_iff]
  constructor
  · rintro ⟨d, hfilter, hparse⟩
    obtain ⟨hrange, hall⟩ := Option.filter_eq_some_iff.1 hfilter
    obtain ⟨rest, rfl, hsize⟩ := (getRange_eq_some hfront).1 hrange
    have hdigits : ∀ c ∈ d.toList, c.isDigit = true := by
      rw [← String.ofList_toList (s := d), all_asBytes] at hall
      exact List.all_eq_true.1 hall
    have hlength : d.toList.length = n := by
      rw [← hsize, ← utf8ByteSize_ascii fun c hc => isAscii_of_isDigit (hdigits c hc),
        String.ofList_toList]
    obtain ⟨m, hm, hd, hvalue⟩ := exists_fixedDigits hlength hdigits
    refine ⟨m, hm, rest, by rw [hd], ?_⟩
    rw [parseDigits, hvalue] at hparse
    split_ifs at hparse with hout
    · exact absurd hparse (by simp)
    · simpa using hparse.symm
  · rintro ⟨m, hm, rest, rfl, rfl⟩
    have hdigits : ∀ c ∈ fixedDigits n m, c.isDigit = true := fun c =>
      isDigit_of_mem_fixedDigits
    refine ⟨String.ofList (fixedDigits n m), Option.filter_eq_some_iff.2 ⟨?_, ?_⟩, ?_⟩
    · refine (getRange_eq_some hfront).2 ⟨rest, by rw [String.toList_ofList], ?_⟩
      rw [utf8ByteSize_ascii fun c hc => isAscii_of_isDigit (hdigits c hc), length_fixedDigits]
    · rw [all_asBytes]
      exact List.all_eq_true.2 hdigits
    · have hne : fixedDigits n m ≠ [] := by
        rw [Ne, ← List.length_eq_zero_iff, length_fixedDigits]
        omega
      rw [parseDigits, String.toList_ofList, ofDigitChars_fixedDigits hm, if_neg]
      · rfl
      · rintro (hnil | hlarge)
        · exact hne hnil
        · omega

theorem At.two {s : String} {k : ℕ} {cs : List Char} (h : At s k cs) {v : ℤ} :
    LatteRs.digits s k (k + 2) = some v ↔
      ∃ m < 10 ^ 2, ∃ rest, cs = fixedDigits 2 m ++ rest ∧ v = m :=
  h.digits_eq_some (by omega) (by omega)

theorem At.four {s : String} {k : ℕ} {cs : List Char} (h : At s k cs) {v : ℤ} :
    LatteRs.digits s k (k + 4) = some v ↔
      ∃ m < 10 ^ 4, ∃ rest, cs = fixedDigits 4 m ++ rest ∧ v = m :=
  h.digits_eq_some (by omega) (by omega)

/-! ### Time stamps as they are written -/

/-- An offset from UTC: `Z`, in either case, or a sign with two digits for the hours and two for
the minutes. -/
inductive Offset
  | utc (lower : Bool)
  | numeric (west : Bool) (hours minutes : Fin 100)
  deriving DecidableEq

namespace Offset

def text : Offset → List Char
  | utc lower => [if lower then 'z' else 'Z']
  | numeric west hours minutes =>
    (if west then '-' else '+') :: (fixedDigits 2 hours ++ ':' :: fixedDigits 2 minutes)

def seconds : Offset → ℤ
  | utc _ => 0
  | numeric west hours minutes => (if west then -1 else 1) * (hours * 3600 + minutes * 60)

theorem seconds_bounds (z : Offset) : -362340 ≤ z.seconds ∧ z.seconds ≤ 362340 := by
  cases z with
  | utc lower => exact ⟨by simp [seconds], by simp [seconds]⟩
  | numeric west hours minutes =>
    have hh := hours.isLt
    have hm := minutes.isLt
    simp only [seconds]
    split_ifs <;> omega

end Offset

/-- The nanoseconds of the fraction with these digits, without what is below a nanosecond. -/
def fractionNanos (ds : List Char) : ℕ := Nat.ofDigitChars 10 ds 0 * 10 ^ 9 / 10 ^ ds.length

theorem fractionNanos_lt {ds : List Char} (h : ∀ c ∈ ds, c.isDigit = true) :
    fractionNanos ds < 10 ^ 9 := by
  have hlt := ofDigitChars_lt h
  unfold fractionNanos
  rw [Nat.div_lt_iff_lt_mul (Nat.pow_pos (by omega)), Nat.mul_comm]
  exact Nat.mul_lt_mul_of_pos_left hlt (by omega)

/-- The first nine digits, filled up with zeros. -/
theorem ofDigitChars_padded {ds : List Char} (h : ∀ c ∈ ds, c.isDigit = true) :
    Nat.ofDigitChars 10 (ds.take 9 ++ List.replicate (9 - (ds.take 9).length) '0') 0 =
      fractionNanos ds := by
  rw [Nat.ofDigitChars_append, Nat.ofDigitChars_replicate_zero, ofDigitChars_take h,
    List.length_take, fractionNanos]
  by_cases hlong : ds.length ≤ 9
  · have hpow : 10 ^ 9 = 10 ^ ds.length * 10 ^ (9 - ds.length) := by
      rw [← pow_add, Nat.add_sub_cancel' hlong]
    rw [Nat.min_eq_right hlong, Nat.sub_eq_zero_of_le hlong, pow_zero, Nat.div_one, hpow,
      Nat.mul_left_comm, Nat.mul_div_cancel_left _ (Nat.pow_pos (by omega)), Nat.mul_comm]
  · have hle : 9 ≤ ds.length := by omega
    have hpow : 10 ^ ds.length = 10 ^ (ds.length - 9) * 10 ^ 9 := by
      rw [← pow_add, Nat.sub_add_cancel hle]
    rw [Nat.min_eq_left hle, Nat.sub_self, pow_zero, one_mul, hpow,
      Nat.mul_div_mul_right _ _ (by omega)]

/-- A date and a time of the day.  The day is one of some month. -/
structure DateTime where
  year : ℕ
  month : ℕ
  day : ℕ
  sep : Char
  hour : ℕ
  minute : ℕ
  second : ℕ
  year_lt : year < 10 ^ 4
  month_pos : 1 ≤ month
  month_le : month ≤ 12
  day_pos : 1 ≤ day
  day_le : day ≤ 31
  sep_eq : sep = 'T' ∨ sep = 't'
  hour_le : hour ≤ 23
  minute_le : minute ≤ 59
  second_le : second ≤ 60

namespace DateTime

/-- The 19 characters. -/
def text (dt : DateTime) : List Char :=
  fixedDigits 4 dt.year ++ '-' :: (fixedDigits 2 dt.month ++ '-' :: (fixedDigits 2 dt.day ++
    dt.sep :: (fixedDigits 2 dt.hour ++ ':' :: (fixedDigits 2 dt.minute ++
      ':' :: fixedDigits 2 dt.second))))

def fields (dt : DateTime) : Fields :=
  ⟨dt.year, dt.month, dt.day, dt.hour, dt.minute, dt.second⟩

theorem civilDays_bounds (dt : DateTime) :
    -10 ^ 7 ≤ civilDays dt.year dt.month dt.day ∧
      civilDays dt.year dt.month dt.day ≤ 10 ^ 7 := by
  have hyear := dt.year_lt
  have hday := dt.day_le
  have hpos := dt.day_pos
  have hmonth := dt.month_pos
  have hmonth' := dt.month_le
  simp only [civilDays]
  split_ifs <;> omega

end DateTime

/-- A time stamp. -/
structure Stamp extends DateTime where
  /-- The digits of the fraction, none when there is no fraction. -/
  fraction : List Char
  offset : Offset
  isDigit_of_mem : ∀ c ∈ fraction, c.isDigit = true

namespace Stamp

def fractionText (ds : List Char) : List Char := if ds = [] then [] else '.' :: ds

def text (st : Stamp) : String :=
  String.ofList (st.toDateTime.text ++ (fractionText st.fraction ++ st.offset.text))

/-- The seconds since the epoch; a day past the end of its month counts on into the next. -/
def secs (st : Stamp) : ℤ :=
  civilDays st.year st.month st.day * 86400 + st.hour * 3600 + st.minute * 60 + st.second -
    st.offset.seconds

/-- The nanoseconds since the epoch. -/
def nanos (st : Stamp) : ℤ := st.secs * 10 ^ 9 + fractionNanos st.fraction

theorem secs_bounds (st : Stamp) : -10 ^ 12 ≤ st.secs ∧ st.secs ≤ 10 ^ 12 := by
  have hdays := st.toDateTime.civilDays_bounds
  have hoffset := st.offset.seconds_bounds
  have hhour := st.hour_le
  have hminute := st.minute_le
  have hsecond := st.second_le
  unfold secs
  omega

/-- The point in time. -/
def time (st : Stamp) : SystemTime where
  nanos := st.nanos
  le_nanos := by
    have hsecs := st.secs_bounds
    unfold nanos
    omega
  nanos_lt := by
    have hsecs := st.secs_bounds
    have hfraction := fractionNanos_lt st.isDigit_of_mem
    unfold nanos
    omega

end Stamp

/-! ### What is read is what is written -/

theorem exists_dateTime_of_parseFields {s : String} {f : Fields} (h : parseFields s = .ok f) :
    ∃ (dt : DateTime) (rest : List Char), s.toList = dt.text ++ rest ∧ rest ≠ [] ∧
      f = dt.fields := by
  have at₀ := At.zero s
  generalize s.toList = cs at at₀
  unfold parseFields at h
  simp only [bind_eq_ok, ensure_eq_ok, okOr_eq_ok, exists_const, not_or, not_not, Except.ok.injEq,
    not_lt, gt_iff_lt] at h
  obtain ⟨⟨hlength, h4, h7, h10, h13, h16⟩, y, hy, mo, hmo, d, hd, h, hh, mi, hmi, sec, hsec,
    ⟨⟨hmo₁, hmo₂⟩, ⟨hd₁, hd₂⟩, hh₁, hmi₁, hsec₁⟩, rfl⟩ := h
  obtain ⟨y, hy', cs, rfl, rfl⟩ := at₀.four.1 hy
  have at₄ : At s 4 _ := at₀.digits
  obtain ⟨cs, rfl⟩ := (at₄.getElem? (by decide)).1 h4
  have at₅ : At s 5 _ := at₄.char (by decide)
  obtain ⟨mo, -, cs, rfl, rfl⟩ := at₅.two.1 hmo
  have at₇ : At s 7 _ := at₅.digits
  obtain ⟨cs, rfl⟩ := (at₇.getElem? (by decide)).1 h7
  have at₈ : At s 8 _ := at₇.char (by decide)
  obtain ⟨d, -, cs, rfl, rfl⟩ := at₈.two.1 hd
  have at₁₀ : At s 10 _ := at₈.digits
  obtain ⟨sep, hsep, cs, rfl⟩ : ∃ sep, (sep = 'T' ∨ sep = 't') ∧ ∃ rest, cs = sep :: rest := by
    rcases Decidable.or_iff_not_not_and_not.2 h10 with h10 | h10
    · exact ⟨'T', Or.inl rfl, (at₁₀.getElem? (by decide)).1 h10⟩
    · exact ⟨'t', Or.inr rfl, (at₁₀.getElem? (by decide)).1 h10⟩
  have at₁₁ : At s 11 _ := at₁₀.char (by rcases hsep with rfl | rfl <;> decide)
  obtain ⟨h, -, cs, rfl, rfl⟩ := at₁₁.two.1 hh
  have at₁₃ : At s 13 _ := at₁₁.digits
  obtain ⟨cs, rfl⟩ := (at₁₃.getElem? (by decide)).1 h13
  have at₁₄ : At s 14 _ := at₁₃.char (by decide)
  obtain ⟨mi, -, cs, rfl, rfl⟩ := at₁₄.two.1 hmi
  have at₁₆ : At s 16 _ := at₁₄.digits
  obtain ⟨cs, rfl⟩ := (at₁₆.getElem? (by decide)).1 h16
  have at₁₇ : At s 17 _ := at₁₆.char (by decide)
  obtain ⟨sec, -, cs, rfl, rfl⟩ := at₁₇.two.1 hsec
  have at₁₉ : At s 19 _ := at₁₇.digits
  refine ⟨⟨y, mo, d, sep, h, mi, sec, hy', by omega, by omega, by omega, by omega, hsep,
    by omega, by omega, by omega⟩, cs, ?_, at₁₉.length_lt.1 hlength, rfl⟩
  simp only [DateTime.text, List.append_assoc, List.cons_append]

theorem parseFields_text (dt : DateTime) {s : String} {rest : List Char} (hrest : rest ≠ [])
    (hs : s.toList = dt.text ++ rest) : parseFields s = .ok dt.fields := by
  have at₀ := At.zero s
  rw [hs] at at₀
  have hyear := dt.year_lt
  have hmonth := dt.month_pos
  have hmonth' := dt.month_le
  have hday := dt.day_pos
  have hday' := dt.day_le
  have hhour := dt.hour_le
  have hminute := dt.minute_le
  have hsecond := dt.second_le
  simp only [DateTime.text, List.append_assoc, List.cons_append] at at₀
  have at₄ : At s 4 _ := at₀.digits
  have at₅ : At s 5 _ := at₄.char (by decide)
  have at₇ : At s 7 _ := at₅.digits
  have at₈ : At s 8 _ := at₇.char (by decide)
  have at₁₀ : At s 10 _ := at₈.digits
  have at₁₁ : At s 11 _ := at₁₀.char (by rcases dt.sep_eq with h | h <;> rw [h] <;> decide)
  have at₁₃ : At s 13 _ := at₁₁.digits
  have at₁₄ : At s 14 _ := at₁₃.char (by decide)
  have at₁₆ : At s 16 _ := at₁₄.digits
  have at₁₇ : At s 17 _ := at₁₆.char (by decide)
  have at₁₉ : At s 19 _ := at₁₇.digits
  unfold parseFields
  simp only [bind_eq_ok, ensure_eq_ok, okOr_eq_ok, exists_const, not_or, not_not, Except.ok.injEq,
    not_lt, gt_iff_lt]
  refine ⟨⟨at₁₉.length_lt.2 hrest, (at₄.getElem? (by decide)).2 ⟨_, rfl⟩,
    (at₇.getElem? (by decide)).2 ⟨_, rfl⟩, ?_, (at₁₃.getElem? (by decide)).2 ⟨_, rfl⟩,
    (at₁₆.getElem? (by decide)).2 ⟨_, rfl⟩⟩,
    dt.year, at₀.four.2 ⟨_, by omega, _, rfl, rfl⟩,
    dt.month, at₅.two.2 ⟨_, by omega, _, rfl, rfl⟩,
    dt.day, at₈.two.2 ⟨_, by omega, _, rfl, rfl⟩,
    dt.hour, at₁₁.two.2 ⟨_, by omega, _, rfl, rfl⟩,
    dt.minute, at₁₄.two.2 ⟨_, by omega, _, rfl, rfl⟩,
    dt.second, at₁₇.two.2 ⟨_, by omega, _, rfl, rfl⟩,
    ⟨⟨by omega, by omega⟩, ⟨by omega, by omega⟩, by omega, by omega, by omega⟩, rfl⟩
  rcases dt.sep_eq with h | h
  · exact fun hne => hne.1 ((at₁₀.getElem? (c := 'T') (by decide)).2 ⟨_, by rw [h]⟩)
  · exact fun hne => hne.2 ((at₁₀.getElem? (c := 't') (by decide)).2 ⟨_, by rw [h]⟩)

theorem parseFields_eq_ok {s : String} {f : Fields} :
    parseFields s = .ok f ↔
      ∃ (dt : DateTime) (rest : List Char), s.toList = dt.text ++ rest ∧ rest ≠ [] ∧
        f = dt.fields := by
  refine ⟨exists_dateTime_of_parseFields, ?_⟩
  rintro ⟨dt, rest, hs, hrest, rfl⟩
  exact parseFields_text dt hrest hs

/-- A dot is followed by the digits of the fraction, all of them. -/
theorem parseFraction_dot (frac : List Char) :
    parseFraction (String.ofList ('.' :: frac)) =
      if frac.takeWhile Char.isDigit = [] then fail ()
      else .ok (fractionNanos (frac.takeWhile Char.isDigit),
        String.ofList (frac.dropWhile Char.isDigit)) := by
  have hsplit := frac.takeWhile_append_dropWhile (p := Char.isDigit)
  have hdigits : ∀ c ∈ frac.takeWhile Char.isDigit, c.isDigit = true :=
    List.all_eq_true.1 List.all_takeWhile
  simp only [parseFraction, String.toList_ofList, takeWhile_asBytes]
  generalize frac.takeWhile Char.isDigit = ds at hsplit hdigits ⊢
  generalize frac.dropWhile Char.isDigit = rest at hsplit ⊢
  subst hsplit
  have hascii : ∀ c ∈ ds, IsAscii c := fun c hc => isAscii_of_isDigit (hdigits c hc)
  by_cases hnil : ds = []
  · rw [if_pos hnil, hnil]
    rfl
  have hfront : (splitAt (String.ofList (ds ++ rest)) (min ds.length 9) : Checked Unit _) =
      .ok (String.ofList (ds.take 9), String.ofList (ds.drop 9 ++ rest)) := by
    refine splitAt_eq_ok.2 ⟨?_, ?_⟩
    · rw [← String.ofList_append, ← List.append_assoc, List.take_append_drop]
    · rw [utf8ByteSize_ascii fun c hc => hascii c (List.mem_of_mem_take hc), List.length_take,
        Nat.min_comm]
  have hback : (splitAt (String.ofList (ds ++ rest)) ds.length : Checked Unit _) =
      .ok (String.ofList ds, String.ofList rest) :=
    splitAt_eq_ok.2 ⟨String.ofList_append, utf8ByteSize_ascii hascii⟩
  have hparse : parseDigits (2 ^ 64 - 1) (String.ofList
      (ds.take 9 ++ List.replicate (9 - (ds.take 9).length) '0')) = some (fractionNanos ds) := by
    have hlt := fractionNanos_lt hdigits
    rw [parseDigits, String.toList_ofList, ofDigitChars_padded hdigits, if_neg]
    rintro (hempty | hlarge)
    · rw [List.append_eq_nil_iff, List.take_eq_nil_iff] at hempty
      simp [hnil] at hempty
    · omega
  have hensure : (ensure (ds.length ≠ 0) () : Checked Unit Unit) = .ok () :=
    if_pos fun h => hnil (List.length_eq_zero_iff.1 h)
  rw [if_neg hnil]
  simp only [hensure, ok_bind, hfront, hback, String.toList_ofList, String.length_ofList, hparse,
    okOr]

theorem parseFraction_none {rest : String} (h : ∀ frac, rest.toList ≠ '.' :: frac) :
    parseFraction rest = .ok (0, rest) := by
  unfold parseFraction
  split
  · next frac hfrac => exact absurd hfrac (h frac)
  · rfl

theorem parseSign_eq_ok {cs : List Char} {sign : ℤ} :
    parseSign (asBytes (String.ofList cs)) = .ok sign ↔
      ∃ (west : Bool) (rest : List Char), cs = (if west then '-' else '+') :: rest ∧
        sign = if west then -1 else 1 := by
  have hplus := asBytes_head? (c := '+') (by decide) cs
  have hminus := asBytes_head? (c := '-') (by decide) cs
  unfold parseSign
  constructor
  · intro h
    split_ifs at h with hp hm
    · obtain ⟨rest, rfl⟩ := hplus.1 hp
      exact ⟨false, rest, rfl, (Except.ok.inj h).symm⟩
    · obtain ⟨rest, rfl⟩ := hminus.1 hm
      exact ⟨true, rest, rfl, (Except.ok.inj h).symm⟩
    · exact absurd h (fail_ne_ok _ _)
  · rintro ⟨west, rest, rfl, rfl⟩
    cases west with
    | false => exact if_pos (hplus.2 ⟨rest, rfl⟩)
    | true =>
      have hne : ¬ ∃ rest', '-' :: rest = '+' :: rest' := by
        rintro ⟨rest', h⟩
        cases h
      exact (if_neg fun hp => hne (hplus.1 hp)).trans (if_pos (hminus.2 ⟨rest, rfl⟩))

theorem utc_iff {cs : List Char} : String.ofList cs = "Z" ∨ String.ofList cs = "z" ↔
    ∃ lower, cs = (Offset.utc lower).text := by
  rw [← String.ofList_toList (s := "Z"), ← String.ofList_toList (s := "z"),
    String.ofList_inj, String.ofList_inj, Bool.exists_bool]
  exact Iff.rfl

theorem at_ofList (cs : List Char) : At (String.ofList cs) 0 cs := ⟨[], rfl, rfl, by simp⟩

theorem exists_offset_of_parseOffset {cs : List Char} {o : ℤ}
    (h : parseOffset (String.ofList cs) = .ok o) : ∃ z : Offset, cs = z.text ∧ o = z.seconds := by
  have at₀ := at_ofList cs
  unfold parseOffset at h
  by_cases hutc : String.ofList cs = "Z" ∨ String.ofList cs = "z"
  · rw [if_pos hutc] at h
    obtain ⟨lower, hcs⟩ := utc_iff.1 hutc
    exact ⟨_, hcs, (Except.ok.inj h).symm⟩
  rw [if_neg hutc] at h
  simp only [bind_eq_ok, ensure_eq_ok, okOr_eq_ok, exists_const, not_or, not_not, i64Mul,
    i64Add, i64Result_eq_ok] at h
  obtain ⟨sign, hsign, ⟨hlength, h3⟩, hours, hh, _, ⟨-, rfl⟩, minutes, hm, _, ⟨-, rfl⟩, _,
    ⟨-, rfl⟩, -, rfl⟩ := h
  obtain ⟨west, cs, rfl, rfl⟩ := parseSign_eq_ok.1 hsign
  have at₁ : At _ 1 _ := at₀.char (by cases west <;> decide)
  obtain ⟨m, hm₁, cs, rfl, rfl⟩ := at₁.two.1 hh
  have at₃ : At _ 3 _ := at₁.digits
  obtain ⟨cs, rfl⟩ := (at₃.getElem? (by decide)).1 h3
  have at₄ : At _ 4 _ := at₃.char (by decide)
  obtain ⟨m', hm₂, cs, rfl, rfl⟩ := at₄.two.1 hm
  have at₆ : At _ 6 _ := at₄.digits
  have hnil : cs = [] := at₆.length_eq.1 hlength
  subst hnil
  exact ⟨.numeric west ⟨m, hm₁⟩ ⟨m', hm₂⟩, by rw [List.append_nil]; rfl, rfl⟩

theorem parseOffset_text (z : Offset) : parseOffset (String.ofList z.text) = .ok z.seconds := by
  unfold parseOffset
  cases z with
  | utc lower => exact if_pos (utc_iff.2 ⟨lower, rfl⟩)
  | numeric west hours minutes =>
    have hutc : ¬ (String.ofList (Offset.numeric west hours minutes).text = "Z" ∨
        String.ofList (Offset.numeric west hours minutes).text = "z") := by
      intro h
      obtain ⟨lower, htext⟩ := utc_iff.1 h
      have hlength := congrArg List.length htext
      simp [Offset.text] at hlength
    have at₀ := at_ofList (Offset.numeric west hours minutes).text
    have at₁ : At _ 1 _ := at₀.char (by cases west <;> decide)
    have at₃ : At _ 3 _ := at₁.digits
    have at₄ : At _ 4 _ := at₃.char (by decide)
    rw [← List.append_nil (fixedDigits 2 minutes)] at at₄
    have at₆ : At _ 6 [] := at₄.digits
    have hh := hours.isLt
    have hm := minutes.isLt
    have hbounds := (Offset.numeric west hours minutes).seconds_bounds
    rw [if_neg hutc]
    simp only [bind_eq_ok, ensure_eq_ok, okOr_eq_ok, exists_const, not_or, not_not, i64Mul,
      i64Add, i64Result_eq_ok]
    refine ⟨_, parseSign_eq_ok.2 ⟨west, _, rfl, rfl⟩,
      ⟨at₆.length_eq.2 rfl, (at₃.getElem? (by decide)).2 ⟨_, rfl⟩⟩, hours,
      at₁.two.2 ⟨_, hh, _, rfl, rfl⟩,
      _, ⟨inI64_of_le (by omega), rfl⟩, minutes,
      at₄.two.2 ⟨_, hm, _, rfl, rfl⟩,
      _, ⟨inI64_of_le (by omega), rfl⟩,
      _, ⟨inI64_of_le (by omega), rfl⟩, ?_, rfl⟩
    exact inI64_of_le ⟨le_trans (by omega) hbounds.1, le_trans hbounds.2 (by omega)⟩

theorem parseOffset_eq_ok {cs : List Char} {o : ℤ} :
    parseOffset (String.ofList cs) = .ok o ↔ ∃ z : Offset, cs = z.text ∧ o = z.seconds := by
  refine ⟨exists_offset_of_parseOffset, ?_⟩
  rintro ⟨z, rfl, rfl⟩
  exact parseOffset_text z

/-- No step of the day count leaves `i64`. -/
theorem daysFromCivil_eq {y mo d : ℤ} (hy : 0 ≤ y) (hy' : y < 10 ^ 4) (hmo : 1 ≤ mo)
    (hmo' : mo ≤ 12) (hd : 1 ≤ d) (hd' : d ≤ 31) :
    daysFromCivil y mo d = .ok (civilDays y mo d) := by
  have hmonth : (mo + 9).tmod 12 = (mo + 9) % 12 := Int.tmod_eq_emod_of_nonneg (by omega)
  simp only [daysFromCivil, civilDays, i64Add, i64Sub, i64Mul]
  by_cases h2 : mo ≤ 2
  · rw [if_pos h2, if_pos h2]
    simp (disch := omega) only [i64Result_of_le, ok_bind, hmonth, Int.tdiv_eq_ediv_of_nonneg]
  · rw [if_neg h2, if_neg h2]
    simp (disch := omega) only [i64Result_of_le, ok_bind, hmonth, Int.tdiv_eq_ediv_of_nonneg]

theorem instant_eq (st : Stamp) :
    instant st.toDateTime.fields st.offset.seconds (fractionNanos st.fraction) = .ok st.time := by
  have hdays := st.toDateTime.civilDays_bounds
  have hoffset := st.offset.seconds_bounds
  have hhour := st.hour_le
  have hminute := st.minute_le
  have hsecond := st.second_le
  have hyear := st.year_lt
  have hmonth := st.month_pos
  have hmonth' := st.month_le
  have hday := st.day_pos
  have hday' := st.day_le
  have hsecs := st.secs_bounds
  simp only [instant, DateTime.fields, i64Add, i64Sub, i64Mul]
  rw [daysFromCivil_eq (by omega) (by omega) (by omega) (by omega) (by omega) (by omega)]
  simp (disch := omega) only [ok_bind, i64Result_of_le]
  have hmin : Binary64.i64Min = -2 ^ 63 := rfl
  obtain ⟨t, ht⟩ : ∃ t : SystemTime, t.nanos = st.secs * 10 ^ 9 :=
    ⟨⟨st.secs * 10 ^ 9, by omega, by omega⟩, rfl⟩
  have hstart : (unixToSystemTime st.secs : Checked Unit SystemTime) = .ok t :=
    (unixToSystemTime_eq_ok (inI64_of_le (by omega))).2 ⟨by omega, ht⟩
  change (unixToSystemTime st.secs >>= fun t => t.add (fractionNanos st.fraction)) = _
  rw [hstart, ok_bind, SystemTime.add, SystemTime.ofNanos_eq_ok, ht]
  rfl

theorem Offset.text_cons (z : Offset) :
    ∃ c cs, z.text = c :: cs ∧ c ≠ '.' ∧ c.isDigit = false := by
  cases z with
  | utc lower => cases lower <;> exact ⟨_, _, rfl, by decide, by decide⟩
  | numeric west hours minutes => cases west <;> exact ⟨_, _, rfl, by decide, by decide⟩

theorem parseFraction_text {ds : List Char} (hdigits : ∀ c ∈ ds, c.isDigit = true)
    (z : Offset) :
    parseFraction (String.ofList (Stamp.fractionText ds ++ z.text)) =
      .ok (fractionNanos ds, String.ofList z.text) := by
  obtain ⟨c, cs, htext, hdot, hdigit⟩ := z.text_cons
  by_cases hnil : ds = []
  · subst hnil
    refine parseFraction_none fun frac h => hdot ?_
    rw [String.toList_ofList, Stamp.fractionText, if_pos rfl, List.nil_append, htext] at h
    exact (List.cons.inj h).1
  · have htake : (ds ++ z.text).takeWhile Char.isDigit = ds := by
      rw [List.takeWhile_append_of_pos hdigits, htext, List.takeWhile_cons, hdigit]
      simp
    have hdrop : (ds ++ z.text).dropWhile Char.isDigit = z.text := by
      rw [List.dropWhile_append_of_pos hdigits, htext, List.dropWhile_cons, hdigit]
      simp
    rw [Stamp.fractionText, if_neg hnil, List.cons_append, parseFraction_dot, htake, hdrop,
      if_neg hnil]

/-- What is read behind the first 19 bytes. -/
theorem parseFraction_parseOffset {cs : List Char} {nanos : ℕ} {o : ℤ} :
    (∃ rest, parseFraction (String.ofList cs) = .ok (nanos, rest) ∧ parseOffset rest = .ok o) ↔
      ∃ (ds : List Char) (z : Offset), (∀ c ∈ ds, c.isDigit = true) ∧
        cs = Stamp.fractionText ds ++ z.text ∧ nanos = fractionNanos ds ∧ o = z.seconds := by
  constructor
  · rintro ⟨rest, hfraction, hoffset⟩
    by_cases hdot : ∃ frac, cs = '.' :: frac
    · obtain ⟨frac, rfl⟩ := hdot
      rw [parseFraction_dot] at hfraction
      split_ifs at hfraction with hnil
      · exact absurd hfraction (fail_ne_ok _ _)
      · cases hfraction
        obtain ⟨z, hz, rfl⟩ := parseOffset_eq_ok.1 hoffset
        refine ⟨frac.takeWhile Char.isDigit, z, List.all_eq_true.1 List.all_takeWhile, ?_, rfl,
          rfl⟩
        rw [Stamp.fractionText, if_neg hnil, List.cons_append, ← hz,
          List.takeWhile_append_dropWhile]
    · have hother : ∀ frac, (String.ofList cs).toList ≠ '.' :: frac := fun frac h =>
        hdot ⟨frac, by rwa [String.toList_ofList] at h⟩
      rw [parseFraction_none hother] at hfraction
      cases hfraction
      obtain ⟨z, rfl, rfl⟩ := parseOffset_eq_ok.1 hoffset
      exact ⟨[], z, by simp, rfl, rfl, rfl⟩
  · rintro ⟨ds, z, hdigits, rfl, rfl, rfl⟩
    exact ⟨_, parseFraction_text hdigits z, parseOffset_eq_ok.2 ⟨z, rfl, rfl⟩⟩

theorem DateTime.text_split (dt : DateTime) (rest : List Char) :
    At (String.ofList (dt.text ++ rest)) 19 rest := by
  have hlength : dt.text.length = 19 := by simp [text]
  refine ⟨dt.text, rfl, hlength, fun c hc => ?_⟩
  have hdigits : ∀ n m, c ∈ fixedDigits n m → IsAscii c := fun n m h =>
    isAscii_of_isDigit (isDigit_of_mem_fixedDigits h)
  have hsep : IsAscii dt.sep := by rcases dt.sep_eq with h | h <;> rw [h] <;> decide
  simp only [text, List.mem_append, List.mem_cons] at hc
  rcases hc with h | rfl | h | rfl | h | rfl | h | rfl | h | rfl | h
  all_goals first | exact hdigits _ _ h | exact hsep | decide

theorem parseRfc3339_eq_ok {s : String} {t : SystemTime} :
    parseRfc3339 s = .ok t ↔ ∃ st : Stamp, s = st.text ∧ t = st.time := by
  simp only [parseRfc3339, bind_eq_ok]
  constructor
  · rintro ⟨f, hf, ⟨front, back⟩, hsplit, ⟨nanos, rest⟩, hfraction, o, hoffset, ht⟩
    obtain ⟨dt, cs, hs, -, rfl⟩ := parseFields_eq_ok.1 hf
    obtain rfl : s = String.ofList (dt.text ++ cs) := by rw [← hs, String.ofList_toList]
    obtain ⟨front', hsplit'⟩ := (dt.text_split cs).splitAt (ε := Unit)
    cases hsplit.symm.trans hsplit'
    obtain ⟨ds, z, hdigits, rfl, rfl, rfl⟩ :=
      parseFraction_parseOffset.1 ⟨rest, hfraction, hoffset⟩
    refine ⟨⟨dt, ds, z, hdigits⟩, rfl, ?_⟩
    exact Except.ok.inj (ht.symm.trans (instant_eq ⟨dt, ds, z, hdigits⟩))
  · rintro ⟨st, rfl, rfl⟩
    obtain ⟨front, hsplit⟩ :=
      (st.toDateTime.text_split (Stamp.fractionText st.fraction ++ st.offset.text)).splitAt
        (ε := Unit)
    obtain ⟨rest, hfraction, hoffset⟩ :=
      parseFraction_parseOffset.2 ⟨st.fraction, st.offset, st.isDigit_of_mem, rfl, rfl, rfl⟩
    have hne : Stamp.fractionText st.fraction ++ st.offset.text ≠ [] := by
      obtain ⟨c, cs, htext, -⟩ := st.offset.text_cons
      rw [htext]
      simp
    exact ⟨_, parseFields_eq_ok.2 ⟨_, _, String.toList_ofList, hne, rfl⟩, _, hsplit, _, hfraction,
      _, hoffset, instant_eq st⟩

/-! ### The parser does not panic -/

theorem parseFields_ne_panic (s : String) : parseFields s ≠ .error .panic := by
  unfold parseFields
  refine bind_ne_panic (ensure_ne_panic _ _) fun _ => ?_
  iterate 6 refine bind_ne_panic (okOr_ne_panic _ _) fun _ => ?_
  exact bind_ne_panic (ensure_ne_panic _ _) fun _ => ok_ne_panic _

theorem parseFraction_ne_panic (rest : String) : parseFraction rest ≠ .error .panic := by
  by_cases hdot : ∃ frac, rest.toList = '.' :: frac
  · obtain ⟨frac, hfrac⟩ := hdot
    obtain rfl : rest = String.ofList ('.' :: frac) := by rw [← hfrac, String.ofList_toList]
    rw [parseFraction_dot]
    split_ifs
    · exact fail_ne_panic _
    · exact ok_ne_panic _
  · rw [parseFraction_none (not_exists.1 hdot)]
    exact ok_ne_panic _

theorem digits_bounds {s : String} {lo hi : ℕ} {v : ℤ} (h : digits s lo hi = some v) :
    0 ≤ v ∧ v < 10 ^ (hi - lo) := by
  obtain ⟨d, hfilter, hparse⟩ := Option.bind_eq_some_iff.1 h
  obtain ⟨hrange, hall⟩ := Option.filter_eq_some_iff.1 hfilter
  obtain ⟨⟨front, back⟩, -, hmap⟩ := Option.bind_eq_some_iff.1 hrange
  obtain ⟨⟨cs, rest⟩, hsplit, rfl⟩ := Option.map_eq_some_iff.1 hmap
  have hsize := (splitChars_eq_some.1 hsplit).2
  rw [all_asBytes, List.all_eq_true] at hall
  rw [utf8ByteSize_ascii fun c hc => isAscii_of_isDigit (hall c hc)] at hsize
  have hlt := ofDigitChars_lt hall
  rw [hsize] at hlt
  rw [parseDigits, String.toList_ofList] at hparse
  split_ifs at hparse
  · cases hparse
  · obtain rfl := Option.some.inj hparse
    exact ⟨Int.natCast_nonneg _, by exact_mod_cast hlt⟩

theorem parseOffset_ne_panic (rest : String) : parseOffset rest ≠ .error .panic := by
  unfold parseOffset
  split_ifs
  · exact ok_ne_panic _
  intro h
  obtain hsign | ⟨sign, hsign, h⟩ := bind_eq_error.1 h
  · unfold parseSign at hsign
    split_ifs at hsign
    cases hsign
  obtain hshape | ⟨_, -, h⟩ := bind_eq_error.1 h
  · exact ensure_ne_panic _ _ hshape
  obtain hh | ⟨hours, hh, h⟩ := bind_eq_error.1 h
  · exact okOr_ne_panic _ _ hh
  have hhours := digits_bounds (okOr_eq_ok.1 hh)
  rw [i64Mul, i64Result_of_le (by omega), ok_bind] at h
  obtain hm | ⟨minutes, hm, h⟩ := bind_eq_error.1 h
  · exact okOr_ne_panic _ _ hm
  have hminutes := digits_bounds (okOr_eq_ok.1 hm)
  rw [i64Mul, i64Result_of_le (by omega), ok_bind, i64Add, i64Result_of_le (by omega), ok_bind,
    i64Mul] at h
  have hcases : sign = 1 ∨ sign = -1 := by
    unfold parseSign at hsign
    split_ifs at hsign
    · exact Or.inl (Except.ok.inj hsign).symm
    · exact Or.inr (Except.ok.inj hsign).symm
    · exact absurd hsign (fail_ne_ok _ _)
  rw [i64Result_of_le (by rcases hcases with rfl | rfl <;> omega)] at h
  cases h

/-- The bytes are looked at only where they are, the string is cut only where digits end, and
no sum leaves its range. -/
theorem parseRfc3339_ne_panic (s : String) : parseRfc3339 s ≠ .error .panic := by
  intro h
  unfold parseRfc3339 at h
  obtain hf | ⟨f, hf, h⟩ := bind_eq_error.1 h
  · exact parseFields_ne_panic s hf
  obtain ⟨dt, cs, hs, -, rfl⟩ := parseFields_eq_ok.1 hf
  obtain rfl : s = String.ofList (dt.text ++ cs) := by rw [← hs, String.ofList_toList]
  obtain ⟨front, hsplit⟩ := (dt.text_split cs).splitAt (ε := Unit)
  rw [hsplit, ok_bind] at h
  obtain hfraction | ⟨⟨nanos, rest⟩, hfraction, h⟩ := bind_eq_error.1 h
  · exact parseFraction_ne_panic _ hfraction
  obtain hoffset | ⟨o, hoffset, h⟩ := bind_eq_error.1 h
  · exact parseOffset_ne_panic _ hoffset
  obtain ⟨ds, z, hdigits, -, rfl, rfl⟩ :=
    parseFraction_parseOffset.1 ⟨rest, hfraction, hoffset⟩
  cases h.symm.trans (instant_eq ⟨dt, ds, z, hdigits⟩)

end LatteRs
