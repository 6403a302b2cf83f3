import Mathlib.Data.List.Basic
import Mathlib.Data.List.Nodup

/-!
# Records in documents that describe themselves

Decoders of records by named fields, as libraries derive them from a type: the
members of an object come in any order, those with other names are skipped, and a
field that is there twice is an error; an array gives the fields in their order.

* `Record`, with `field`, `and` and `map`; `ofMembers` and `ofElements`;
* `ofMembers_eq_some`: what is accepted is the members of the fields, in some
  order, among others;
* `Respects`, `ofMembers_grown`: decoders do not see members added around what
  they decode.
-/

namespace Records

variable {K D α β : Type}

/-! ### Records -/

/-- The decoder of a record: the names of its fields in their order, and the record, from the
values of the fields that are there. -/
structure Record (K D α : Type) where
  names : List K
  build : (K → Option D) → Option α

namespace Record

/-- A record of one field, with its value when it is absent, if it may be. -/
def field (name : K) (absent : Option α) (de : D → Option α) : Record K D α where
  names := [name]
  build look := (look name).elim absent de

/-- The fields of two records. -/
def and (r : Record K D α) (r' : Record K D β) : Record K D (α × β) where
  names := r.names ++ r'.names
  build look := do
    let a ← r.build look
    let b ← r'.build look
    some (a, b)

def map (f : α → β) (r : Record K D α) : Record K D β where
  names := r.names
  build look := (r.build look).map f

/-! ### What a record is built from -/

theorem build_and_eq_some {r : Record K D α} {r' : Record K D β} {look : K → Option D}
    {ab : α × β} : (r.and r').build look = some ab ↔
      r.build look = some ab.1 ∧ r'.build look = some ab.2 := by
  unfold and
  simp only [Option.bind_eq_bind, Option.bind_eq_some_iff, Option.some.injEq]
  constructor
  · rintro ⟨a, ha, b, hb, rfl⟩
    exact ⟨ha, hb⟩
  · rintro ⟨ha, hb⟩
    exact ⟨ab.1, ha, ab.2, hb, rfl⟩

theorem build_map_eq_some {r : Record K D α} {f : α → β} {look : K → Option D} {b : β} :
    (r.map f).build look = some b ↔ ∃ a, r.build look = some a ∧ f a = b :=
  Option.map_eq_some_iff

/-- The record is the same from values that are related. -/
def Respects (r : Record K D α) (R : K → D → D → Prop) : Prop :=
  ∀ look look' : K → Option D, (∀ k ∈ r.names, Option.Rel (R k) (look k) (look' k)) →
    r.build look = r.build look'

variable {r : Record K D α} {r' : Record K D β} {R : K → D → D → Prop}

theorem respects_field {name : K} {absent : Option α} {de : D → Option α}
    (h : ∀ v v', R name v v' → de v = de v') : (field name absent de).Respects R := by
  intro look look' hrel
  have hname := hrel name (List.mem_singleton.2 rfl)
  unfold field
  cases hlook : look name with
  | none =>
    rw [hlook] at hname
    cases hlook' : look' name with
    | none => simp only [hlook, hlook']
    | some v' =>
      rw [hlook'] at hname
      cases hname
  | some v =>
    rw [hlook] at hname
    cases hlook' : look' name with
    | none =>
      rw [hlook'] at hname
      cases hname
    | some v' =>
      rw [hlook'] at hname
      cases hname with
      | some hr => simp only [hlook, hlook', Option.elim_some, h v v' hr]

theorem Respects.and (h : r.Respects R) (h' : r'.Respects R) : (r.and r').Respects R := by
  intro look look' hrel
  have ha := h look look' fun k hk => hrel k (List.mem_append.2 (Or.inl hk))
  have hb := h' look look' fun k hk => hrel k (List.mem_append.2 (Or.inr hk))
  unfold Record.and
  simp only [ha, hb]

theorem Respects.map (h : r.Respects R) (f : α → β) : (r.map f).Respects R := by
  intro look look' hrel
  unfold Record.map
  simp only [h look look' hrel]

theorem Respects.congr (h : r.Respects fun _ => Eq) {look look' : K → Option D}
    (hsame : ∀ k ∈ r.names, look k = look' k) : r.build look = r.build look' := by
  refine h look look' fun k hk => ?_
  rw [← hsame k hk]
  cases look k with
  | none => exact .none
  | some v => exact .some rfl

end Record

/-! ### Members -/

/-- The members of the named fields that are there. -/
def present (names : List K) (look : K → Option D) : List (K × D) :=
  names.filterMap fun k => (look k).map (Prod.mk k)

theorem mem_present {names : List K} {look : K → Option D} {k : K} {v : D} :
    (k, v) ∈ present names look ↔ k ∈ names ∧ look k = some v := by
  simp only [present, List.mem_filterMap, Option.map_eq_some_iff, Prod.mk.injEq]
  constructor
  · rintro ⟨k', hmem, v', hv, rfl, rfl⟩
    exact ⟨hmem, hv⟩
  · rintro ⟨hmem, hv⟩
    exact ⟨k, hmem, v, hv, rfl, rfl⟩

theorem sublist_present (names : List K) (look : K → Option D) :
    ((present names look).map Prod.fst).Sublist names := by
  induction names with
  | nil => exact List.Sublist.refl _
  | cons k names ih =>
    cases hlook : look k with
    | none =>
      have hcons : present (k :: names) look = present names look := by simp [present, hlook]
      rw [hcons]
      exact ih.cons k
    | some v =>
      have hcons : present (k :: names) look = (k, v) :: present names look := by
        simp [present, hlook]
      rw [hcons]
      exact ih.cons_cons k

theorem names_of_forall₂ {R : K → D → D → Prop} {ms ms' : List (K × D)}
    (h : List.Forall₂ (fun m m' => m.1 = m'.1 ∧ R m.1 m.2 m'.2) ms ms') :
    ms'.map Prod.fst = ms.map Prod.fst := by
  induction h with
  | nil => rfl
  | cons hm _ ih => rw [List.map_cons, List.map_cons, ih, hm.1]

variable [DecidableEq K]

/-- A name that is there once has the value of its member. -/
theorem lookup_eq_some_iff_mem {ms : List (K × D)} {k : K} {v : D}
    (hcount : (ms.map Prod.fst).count k ≤ 1) : ms.lookup k = some v ↔ (k, v) ∈ ms := by
  induction ms with
  | nil => simp
  | cons m ms ih =>
    obtain ⟨k', v'⟩ := m
    rw [List.map_cons, List.count_cons] at hcount
    rw [List.lookup_cons, List.mem_cons]
    by_cases hk : k = k'
    · subst hk
      have hzero : (ms.map Prod.fst).count k = 0 := by
        simp only [beq_self_eq_true, if_true] at hcount
        omega
      have hnot : (k, v) ∉ ms := fun h =>
        List.count_eq_zero.1 hzero (List.mem_map_of_mem h)
      simp only [beq_self_eq_true, Option.some.injEq, Prod.mk.injEq, true_and, hnot, or_false]
      exact eq_comm
    · have hrest := ih (by omega)
      have hne : (k == k') = false := beq_false_of_ne hk
      simp only [hne, hrest, Prod.mk.injEq, hk, false_and, false_or]

/-- The order of members does not matter for a name that is there once. -/
theorem lookup_of_perm {ms ms' : List (K × D)} {k : K} (hperm : ms.Perm ms')
    (hcount : (ms.map Prod.fst).count k ≤ 1) : ms.lookup k = ms'.lookup k := by
  have hcount' : (ms'.map Prod.fst).count k ≤ 1 := by
    rw [← (hperm.map Prod.fst).count_eq]
    exact hcount
  ext v
  rw [lookup_eq_some_iff_mem hcount, lookup_eq_some_iff_mem hcount', hperm.mem_iff]

theorem count_eq_zero_of_unknown {extra : List (K × D)} {k : K} (h : ∀ m ∈ extra, m.1 ≠ k) :
    (extra.map Prod.fst).count k = 0 := by
  refine List.count_eq_zero.2 fun hmem => ?_
  obtain ⟨m, hm, hk⟩ := List.mem_map.1 hmem
  exact h m hm hk

theorem lookup_append_unknown {ms extra : List (K × D)} {k : K} (h : ∀ m ∈ extra, m.1 ≠ k) :
    (ms ++ extra).lookup k = ms.lookup k := by
  have hnone : extra.lookup k = none := by
    refine List.lookup_eq_none_iff.2 fun m hm => ?_
    simpa using fun hk => h m hm hk.symm
  rw [List.lookup_append, hnone, Option.or_none]

/-- Of members each of which has grown, those of one name have. -/
theorem lookup_rel {R : K → D → D → Prop} {ms ms' : List (K × D)}
    (h : List.Forall₂ (fun m m' => m.1 = m'.1 ∧ R m.1 m.2 m'.2) ms ms') (k : K) :
    Option.Rel (R k) (ms.lookup k) (ms'.lookup k) := by
  induction h with
  | nil => exact .none
  | @cons m m' ms ms' hm _ ih =>
    obtain ⟨k₁, v₁⟩ := m
    obtain ⟨k₂, v₂⟩ := m'
    obtain ⟨rfl, hr⟩ := hm
    rw [List.lookup_cons, List.lookup_cons]
    by_cases hk : k = k₁
    · subst hk
      simp only [beq_self_eq_true]
      exact .some hr
    · have hne : (k == k₁) = false := beq_false_of_ne hk
      simp only [hne]
      exact ih

/-! ### Objects and arrays -/

namespace Record

/-- The record of an object, whose names must be readable. -/
def ofMembers (r : Record K D α) (readable : K → Bool) (ms : List (K × D)) : Option α :=
  if ms.all (fun m => readable m.1) ∧ ∀ k ∈ r.names, (ms.map Prod.fst).count k ≤ 1 then
    r.build fun k => ms.lookup k
  else none

/-- The record of an array. -/
def ofElements (r : Record K D α) (xs : List D) : Option α :=
  if xs.length ≤ r.names.length then r.build fun k => xs[r.names.idxOf k]? else none

variable {r : Record K D α} {R : K → D → D → Prop} {readable : K → Bool}
  {ms ms' extra : List (K × D)}

/-- **What an object must be**: the members of the fields in some order, among others. -/
theorem ofMembers_eq_some (h : r.Respects fun _ => Eq) (hnodup : r.names.Nodup) {a : α} :
    r.ofMembers readable ms = some a ↔ (∀ m ∈ ms, readable m.1 = true) ∧
      ∃ look extra, r.build look = some a ∧ ms.Perm (present r.names look ++ extra) ∧
        ∀ m ∈ extra, m.1 ∉ r.names := by
  unfold ofMembers
  constructor
  · intro hms
    split_ifs at hms with hcond
    obtain ⟨hreadable, hcount⟩ := hcond
    refine ⟨List.all_eq_true.1 hreadable, fun k => ms.lookup k,
      ms.filter fun m => !decide (m.1 ∈ r.names), hms, ?_, fun m hm => ?_⟩
    · -- the members of the fields are those that are there, once each
      have hknown : (ms.filter fun m => decide (m.1 ∈ r.names)).Perm
          (present r.names fun k => ms.lookup k) := by
        have hleft : (ms.filter fun m => decide (m.1 ∈ r.names)).Nodup := by
          refine List.Nodup.of_map Prod.fst (List.nodup_iff_count_le_one.2 fun k => ?_)
          by_cases hk : k ∈ r.names
          · exact Nat.le_trans ((List.filter_sublist.map Prod.fst).count_le k) (hcount k hk)
          · rw [count_eq_zero_of_unknown]
            · exact Nat.zero_le 1
            · rintro m hm rfl
              exact hk (by simpa using (List.mem_filter.1 hm).2)
        have hright : (present r.names fun k => ms.lookup k).Nodup :=
          List.Nodup.of_map Prod.fst ((sublist_present r.names _).nodup hnodup)
        refine (List.perm_ext_iff_of_nodup hleft hright).2 fun ⟨k, v⟩ => ?_
        rw [mem_present, List.mem_filter]
        by_cases hk : k ∈ r.names
        · simp [hk, lookup_eq_some_iff_mem (hcount k hk)]
        · simp [hk]
      exact (List.filter_append_perm _ ms).symm.trans (hknown.append_right _)
    · simpa using (List.mem_filter.1 hm).2
  · rintro ⟨hreadable, look, extra, hbuild, hperm, hextra⟩
    have hunknown : ∀ k ∈ r.names, ∀ m ∈ extra, m.1 ≠ k := by
      rintro k hk m hm rfl
      exact hextra m hm hk
    have honce : ∀ k ∈ r.names, ((present r.names look).map Prod.fst).count k ≤ 1 := fun k _ =>
      List.nodup_iff_count_le_one.1 ((sublist_present r.names look).nodup hnodup) k
    have hcount : ∀ k ∈ r.names, (ms.map Prod.fst).count k ≤ 1 := by
      intro k hk
      have hzero := count_eq_zero_of_unknown (hunknown k hk)
      have hle := honce k hk
      rw [(hperm.map Prod.fst).count_eq, List.map_append, List.count_append, hzero]
      exact hle
    rw [if_pos ⟨List.all_eq_true.2 hreadable, hcount⟩, ← hbuild]
    refine h.congr fun k hk => ?_
    rw [lookup_of_perm hperm (hcount k hk), lookup_append_unknown (hunknown k hk)]
    ext v
    rw [lookup_eq_some_iff_mem (honce k hk), mem_present]
    exact and_iff_right hk

/-- **Members that are added are not seen.**  The values of the fields may have grown, in a way
that their decoders do not see, other members may have come, and the order may be another. -/
theorem ofMembers_grown {ms₁ : List (K × D)} (h : r.Respects R)
    (hgrown : List.Forall₂ (fun m m' => m.1 = m'.1 ∧ R m.1 m.2 m'.2) ms ms₁)
    (hperm : ms'.Perm (ms₁ ++ extra))
    (hextra : ∀ m ∈ extra, readable m.1 = true ∧ m.1 ∉ r.names) :
    r.ofMembers readable ms' = r.ofMembers readable ms := by
  have hunknown : ∀ k ∈ r.names, ∀ m ∈ extra, m.1 ≠ k := by
    rintro k hk m hm rfl
    exact (hextra m hm).2 hk
  have hnames := names_of_forall₂ hgrown
  have hcount : ∀ k ∈ r.names, (ms'.map Prod.fst).count k = (ms.map Prod.fst).count k := by
    intro k hk
    have hzero := count_eq_zero_of_unknown (hunknown k hk)
    rw [(hperm.map Prod.fst).count_eq, List.map_append, List.count_append, hzero, hnames]
    rfl
  have hreadable : (ms'.all fun m => readable m.1) = ms.all fun m => readable m.1 := by
    have hadded : (extra.all fun m => readable m.1) = true :=
      List.all_eq_true.2 fun m hm => (hextra m hm).1
    have hsame : (ms₁.all fun m => readable m.1) = ms.all fun m => readable m.1 := by
      calc (ms₁.all fun m => readable m.1)
          = (ms₁.map Prod.fst).all readable := List.all_map.symm
        _ = (ms.map Prod.fst).all readable := by rw [hnames]
        _ = ms.all fun m => readable m.1 := List.all_map
    rw [hperm.all_eq, List.all_append, hadded, Bool.and_true, hsame]
  unfold ofMembers
  rw [hreadable]
  by_cases hcond : (ms.all fun m => readable m.1) ∧
      ∀ k ∈ r.names, (ms.map Prod.fst).count k ≤ 1
  · have hcond' : ∀ k ∈ r.names, (ms'.map Prod.fst).count k ≤ 1 := by
      intro k hk
      rw [hcount k hk]
      exact hcond.2 k hk
    rw [if_pos hcond, if_pos ⟨hcond.1, hcond'⟩]
    refine (h _ _ fun k hk => ?_).symm
    rw [lookup_of_perm hperm (hcond' k hk), lookup_append_unknown (hunknown k hk)]
    exact lookup_rel hgrown k
  · rw [if_neg hcond, if_neg]
    rintro ⟨hall, hcond'⟩
    refine hcond ⟨hall, fun k hk => ?_⟩
    rw [← hcount k hk]
    exact hcond' k hk

end Record

end Records
