import LatteRs.Rfc3339

/-!
# Which time stamps are read, and as what

* `parseRfc3339_instant`: a time stamp of the calendar is read as the instant
  it stands for, and a later one as a later instant;
* `AcceptsRightly`, `acceptsRightly_iff`: a string is accepted exactly when it
  is a time stamp, except where the day is past the end of its month or the
  offset out of its range.
-/

namespace LatteRs

open Checked Decimal Calendar

/-! ### The instant -/

/-- The date and the time of the day, from the year down. -/
def DateTime.clock (dt : DateTime) : List ℕ :=
  [dt.year, dt.month, dt.day, dt.hour, dt.minute, dt.second]

theorem Stamp.secs_eq (st : Stamp) :
    st.secs = ((dayNumber st.year st.month st.day : ℤ) - dayNumber 1970 1 1) * 86400 +
      st.hour * 3600 + st.minute * 60 + st.second - st.offset.seconds := by
  rw [Stamp.secs, civilDays_eq st.month_pos st.month_le st.day_pos]

/-- A later time of the calendar comes later, seconds above 59 aside. -/
theorem Stamp.secs_lt {st st' : Stamp} (h : IsDate st.year st.month st.day)
    (h' : IsDate st'.year st'.month st'.day) (hoffset : st.offset.seconds = st'.offset.seconds)
    (hsecond : st.second ≤ 59) (hlt : st.clock < st'.clock) : st.secs < st'.secs := by
  have hhour := st.hour_le
  have hminute := st.minute_le
  simp only [DateTime.clock, List.cons_lt_cons_iff, List.not_lt_nil, and_false, or_false] at hlt
  rw [st.secs_eq, st'.secs_eq, hoffset]
  by_cases hdate : st.year = st'.year ∧ st.month = st'.month ∧ st.day = st'.day
  · obtain ⟨hy, hm, hd⟩ := hdate
    rw [hy, hm, hd]
    omega
  · have hday := dayNumber_lt h h' (by omega)
    omega

/-- A time stamp with a date of the calendar is read as its instant: the days since 1970, the
time of the day less the offset, and the fraction truncated to nanoseconds. -/
theorem parseRfc3339_instant (st : Stamp) (hdate : IsDate st.year st.month st.day) :
    (∃ t, parseRfc3339 st.text = .ok t ∧
      t.nanos = (((dayNumber st.year st.month st.day : ℤ) - dayNumber 1970 1 1) * 86400 +
        st.hour * 3600 + st.minute * 60 + st.second - st.offset.seconds) * 10 ^ 9 +
          fractionNanos st.fraction) ∧
    ∀ st' : Stamp, IsDate st'.year st'.month st'.day →
      st.offset.seconds = st'.offset.seconds → st.second ≤ 59 → st.clock < st'.clock →
      ∀ t t', parseRfc3339 st.text = .ok t → parseRfc3339 st'.text = .ok t' → t < t' := by
  have hread : ∀ st : Stamp, parseRfc3339 st.text = .ok st.time := fun st =>
    parseRfc3339_eq_ok.2 ⟨st, rfl, rfl⟩
  constructor
  · exact ⟨st.time, hread st, by rw [← st.secs_eq]; rfl⟩
  · intro st' hdate' hoffset hsecond hlt t t' ht ht'
    cases ht.symm.trans (hread st)
    cases ht'.symm.trans (hread st')
    have hsecs := Stamp.secs_lt hdate hdate' hoffset hsecond hlt
    have hfraction := fractionNanos_lt st.isDigit_of_mem
    rw [SystemTime.lt_def]
    show st.secs * 10 ^ 9 + fractionNanos st.fraction <
      st'.secs * 10 ^ 9 + fractionNanos st'.fraction
    omega

/-- A time stamp of the year 2024, in UTC. -/
def sampleStamp (month day hour minute second : ℕ) (fraction : List Char)
    (h : (1 ≤ month ∧ month ≤ 12) ∧ (1 ≤ day ∧ day ≤ 31) ∧ hour ≤ 23 ∧ minute ≤ 59 ∧
      second ≤ 60 ∧ fraction.all Char.isDigit = true) : Stamp where
  year := 2024
  month := month
  day := day
  sep := 'T'
  hour := hour
  minute := minute
  second := second
  fraction := fraction
  offset := .utc false
  year_lt := by omega
  month_pos := h.1.1
  month_le := h.1.2
  day_pos := h.2.1.1
  day_le := h.2.1.2
  sep_eq := Or.inl rfl
  hour_le := h.2.2.1
  minute_le := h.2.2.2.1
  second_le := h.2.2.2.2.1
  isDigit_of_mem := List.all_eq_true.1 h.2.2.2.2.2

def leapDay : Stamp := sampleStamp 2 29 23 59 59 ['5'] (by decide)

def nextDay : Stamp := sampleStamp 3 1 0 0 0 [] (by decide)

theorem parseRfc3339_instant_sample :
    (∃ t, parseRfc3339 "2024-02-29T23:59:59.5Z" = .ok t ∧
      t.nanos = (((dayNumber 2024 2 29 : ℤ) - dayNumber 1970 1 1) * 86400 + 86399) * 10 ^ 9 +
        5 * 10 ^ 8) ∧
    ∀ t t', parseRfc3339 "2024-02-29T23:59:59.5Z" = .ok t →
      parseRfc3339 "2024-03-01T00:00:00Z" = .ok t' → t < t' := by
  have htext : leapDay.text = "2024-02-29T23:59:59.5Z" := by decide +kernel
  have htext' : nextDay.text = "2024-03-01T00:00:00Z" := by decide +kernel
  obtain ⟨⟨t, ht, hnanos⟩, hlt⟩ := parseRfc3339_instant leapDay (by decide)
  rw [htext] at ht hlt
  refine ⟨⟨t, ht, ?_⟩, fun t t' h h' => ?_⟩
  · rw [hnanos]
    have hfraction : fractionNanos leapDay.fraction = 5 * 10 ^ 8 := by decide +kernel
    rw [hfraction]
    simp only [leapDay, sampleStamp, Offset.seconds]
    omega
  · rw [← htext'] at h'
    exact hlt nextDay (by decide) rfl (by decide) (by decide) t t' h h'

/-! ### The accepted strings -/

/-- The offset is one of hours and minutes. -/
def Offset.InRange : Offset → Prop
  | .utc _ => True
  | .numeric _ hours minutes => hours.val ≤ 23 ∧ minutes.val ≤ 59

/-- The time stamp is one of the calendar, with an offset of hours and minutes. -/
def Stamp.Real (st : Stamp) : Prop :=
  st.day ≤ monthLength st.year st.month ∧ st.offset.InRange

/-- The string is dealt with as it should be: the time stamps are accepted, and nothing else. -/
def AcceptsRightly (s : String) : Prop :=
  parseRfc3339 s ≠ .error .panic ∧
    ((∃ t, parseRfc3339 s = .ok t) ↔ ∃ st : Stamp, st.Real ∧ s = st.text)

theorem fixedDigits_inj {w m n : ℕ} (hm : m < 10 ^ w) (hn : n < 10 ^ w)
    (h : fixedDigits w m = fixedDigits w n) : m = n := by
  rw [← ofDigitChars_fixedDigits hm, ← ofDigitChars_fixedDigits hn, h]

theorem Offset.text_injective : Function.Injective Offset.text := by
  intro z z' h
  cases z with
  | utc lower =>
    cases z' with
    | utc lower' => cases lower <;> cases lower' <;> first | rfl | cases h
    | numeric west' hours' minutes' =>
      have hlength := congrArg List.length h
      simp [text] at hlength
  | numeric west hours minutes =>
    cases z' with
    | utc lower' =>
      have hlength := congrArg List.length h
      simp [text] at hlength
    | numeric west' hours' minutes' =>
      obtain ⟨hsign, hrest⟩ := List.cons.inj h
      obtain ⟨hhours, hrest⟩ := List.append_inj hrest (by simp)
      have hh := fixedDigits_inj hours.isLt hours'.isLt hhours
      have hm := fixedDigits_inj minutes.isLt minutes'.isLt (List.cons.inj hrest).2
      have hwest : west = west' := by
        cases west <;> cases west' <;> first | rfl | cases hsign
      rw [hwest, Fin.ext hh, Fin.ext hm]

/-- The text of a time stamp tells its date and its offset. -/
theorem Stamp.text_inj {st st' : Stamp} (h : st.text = st'.text) :
    st.year = st'.year ∧ st.month = st'.month ∧ st.day = st'.day ∧ st.offset = st'.offset := by
  have hlength : ∀ dt : DateTime, dt.text.length = 19 := fun dt => by simp [DateTime.text]
  obtain ⟨hdate, hrest⟩ := List.append_inj (String.ofList_inj.1 h)
    ((hlength _).trans (hlength _).symm)
  have hfields : st.toDateTime.fields = st'.toDateTime.fields := by
    have hread : ∀ dt : DateTime, parseFields (String.ofList (dt.text ++ ['Z'])) = .ok dt.fields :=
      fun dt => parseFields_eq_ok.2 ⟨dt, _, String.toList_ofList, by simp, rfl⟩
    have hst := hread st.toDateTime
    rw [hdate, hread] at hst
    exact (Except.ok.inj hst).symm
  have hfraction := parseFraction_text st.isDigit_of_mem st.offset
  rw [hrest, parseFraction_text st'.isDigit_of_mem] at hfraction
  have hoffset := congrArg Prod.snd (Except.ok.inj hfraction)
  simp only [DateTime.fields, Fields.mk.injEq, Nat.cast_inj] at hfields
  exact ⟨hfields.1, hfields.2.1, hfields.2.2.1,
    Offset.text_injective (String.ofList_inj.1 hoffset).symm⟩

theorem Stamp.Real.congr {st st' : Stamp} (h : st.text = st'.text) (hreal : st.Real) :
    st'.Real := by
  obtain ⟨hy, hm, hd, hoffset⟩ := Stamp.text_inj h
  unfold Stamp.Real at hreal ⊢
  rwa [← hy, ← hm, ← hd, ← hoffset]

/-- A text that no stamp of the calendar has is accepted all the same. -/
theorem not_acceptsRightly {st : Stamp} (h : ¬ st.Real) : ¬ AcceptsRightly st.text := by
  rintro ⟨-, haccepts⟩
  obtain ⟨st', hreal, htext⟩ := haccepts.1 ⟨st.time, parseRfc3339_eq_ok.2 ⟨st, rfl, rfl⟩⟩
  exact h (hreal.congr htext.symm)

/-- A string is dealt with rightly unless it reads as a time stamp on a day past the end of its
month, or with an offset of more than 23 hours or 59 minutes. -/
theorem acceptsRightly_iff (s : String) :
    AcceptsRightly s ↔
      ¬ ∃ st : Stamp, s = st.text ∧
        (monthLength st.year st.month < st.day ∨ ¬ st.offset.InRange) := by
  constructor
  · rintro hright ⟨st, rfl, hover⟩
    refine not_acceptsRightly (fun hreal => ?_) hright
    rcases hover with hday | hoffset
    · exact absurd hreal.1 (Nat.not_le.2 hday)
    · exact hoffset hreal.2
  · intro hnone
    refine ⟨parseRfc3339_ne_panic s, ?_, ?_⟩
    · rintro ⟨t, ht⟩
      obtain ⟨st, rfl, -⟩ := parseRfc3339_eq_ok.1 ht
      refine ⟨st, ⟨?_, ?_⟩, rfl⟩
      · exact Nat.le_of_not_lt fun hday => hnone ⟨st, rfl, Or.inl hday⟩
      · by_contra hoffset
        exact hnone ⟨st, rfl, Or.inr hoffset⟩
    · rintro ⟨st, -, rfl⟩
      exact ⟨st.time, parseRfc3339_eq_ok.2 ⟨st, rfl, rfl⟩⟩

/-- 31 February is accepted. -/
theorem february_31_accepted : ¬ AcceptsRightly "2024-02-31T00:00:00Z" := by
  have htext : (sampleStamp 2 31 0 0 0 [] (by decide)).text = "2024-02-31T00:00:00Z" := by
    decide +kernel
  rw [← htext]
  exact not_acceptsRightly fun hreal => absurd hreal.1 (by decide)

end LatteRs
