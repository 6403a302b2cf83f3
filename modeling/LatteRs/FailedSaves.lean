import LatteRs.CacheFile
import LatteRs.SharedVolume

/-!
# Failed saves

A save that fails removes what is under its temporary name.  As long as no save
whose `create_new` failed finds a file there, which it has not created then,
saves that fail leave the cache file and the files of others alone.

* `Spared`: the condition;
* `Change`, `change_step`: what an operation does to the volume;
* `Owns`, `Undisturbed`, `Undisturbed.step`: what a save holds is its own, under its own name;
* `failed_save_disturbs_nobody`, and `lost_of_not_spared` where the condition fails;
* `coinciding_ids_disturb`: two processes of one id.
-/

namespace LatteRs.SharedVolume

open Concurrent
open Storage (Codec Removal sampleCodec sampleChain tmpName)

variable {codec : Codec} {path : String}

/-- A save that has created nothing finds nothing under the name that it removes. -/
def Spared (c : Config (system codec path)) : Label signature → Config (system codec path) → Prop
  | .op i (.did (.remove name) _), _ =>
    ∀ th ∈ c.threads[i]?, created th.past = [] → c.shared.names name = none
  | _, _ => True

/-- The cache file is what it was, and so are the files that are not among `own`. -/
def Leaves (path : String) (own : List ℕ) (v v' : Volume) : Prop :=
  v'.names path = v.names path ∧ ∀ name file, v.names name = some file → name = path ∨ file ∉ own →
    v'.names name = some file ∧ v'.contents[file]? = v.contents[file]?

/-- The operation renames or removes the file under the name. -/
def Takes (name : String) : Event signature → Prop
  | .did (.rename src _) done => src = name ∧ done = true
  | .did (.remove n) removal => n = name ∧ removal = .removed
  | _ => False

/-! ### Operations -/

/-- What an operation of a save does to the volume, when it finds nothing of others to remove. -/
inductive Change (path : String) (h : Past signature) (v : Volume) :
    Event signature → Volume → Prop
  | idle {ev : Event signature} {v' : Volume} (hnames : v'.names = v.names)
    (hcontents : v'.contents = v.contents) (hcreates : creates ev = none)
    (hheld : ∀ w, held (ev :: h) = some w → held h = some w) (hquiet : ∀ name, ¬ Takes name ev) :
    Change path h v ev v'
  | create {name : String} (hname : name ≠ path) (hfree : v.names name = none) :
    Change path h v (.did (.createNew name) (some v.contents.length)) (v.create name)
  | append {name : String} {file : ℕ} (byte : UInt8) (hheld : held h = some (name, file)) :
    Change path h v (.did (.append file byte) true) (v.append file byte)
  | rename {name : String} {file : ℕ} (hheld : held h = some (name, file)) :
    Change path h v (.did (.rename name path) true) (v.rename name path)
  | remove {name : String} {file : ℕ} (hname : name ≠ path)
    (hheld : held h = some (name, file)) :
    Change path h v (.did (.remove name) .removed) (v.unlink name)

section
variable {c c' : Config (system codec path)} {l : Label signature}

theorem ne_panic (hk : (habits path).Kept c) (hstep : Step c l c') (i : ℕ) : l ≠ .panic i :=
  hk.ne_panic (fun _ _ => id) (fun _ => id) hstep i

/-- An operation of a thread. -/
theorem change_step (hk : (habits path).Kept c) {i : ℕ} {ev : Event signature}
    (hstep : Step c (.op i ev) c') (hspared : Spared c (.op i ev) c') {th : Thread signature}
    (hi : c.threads[i]? = some th) : Change path th.past c.shared ev c'.shared := by
  obtain ⟨th₀, hi₀, hdoes⟩ := hk.does hstep
  cases Option.some.inj (hi.symm.trans hi₀)
  have hshared := hstep.shared
  cases htask : th.task with
  | boot pid =>
    rw [htask] at hdoes
    cases hdoes
    rw [hshared]
    exact .idle rfl rfl rfl (fun _ => id) fun _ => id
  | save proc token chain =>
    rw [htask] at hdoes
    cases hdoes with
    | createDirAll made => rw [hshared]; exact .idle rfl rfl rfl (fun _ => id) fun _ => id
    | clock now => rw [hshared]; exact .idle rfl rfl rfl (fun _ => id) fun _ => id
    | processId proc pid => rw [hshared]; exact .idle rfl rfl rfl (fun _ => id) fun _ => id
    | fetchAdd proc count => rw [hshared]; exact .idle rfl rfl rfl (fun _ => id) fun _ => id
    | createNew file hname =>
      obtain ⟨-, -, -, -, hadmits, -⟩ := hstep.did_inv
      rw [hshared]
      cases file with
      | none => exact .idle rfl rfl rfl (fun _ => id) fun _ => id
      | some file =>
        obtain ⟨hfree, rfl⟩ := hadmits file rfl
        exact .create hname hfree
    | append byte done hheld =>
      rw [hshared]
      cases done with
      | false => exact .idle rfl rfl rfl (fun _ => id) fun _ => id
      | true => exact .append byte hheld
    | rename done hheld =>
      rw [hshared]
      cases done with
      | false => exact .idle rfl rfl rfl (fun _ => id) (by simp [Takes])
      | true => exact .rename hheld
    | @remove name removal hname hleft =>
      obtain ⟨-, -, -, -, hadmits, -⟩ := hstep.did_inv
      rw [hshared]
      cases removal with
      | removed =>
        rcases hleft with hnone | ⟨file, hheld⟩
        · exact absurd (hspared th hi hnone) (hadmits.1 rfl)
        · exact .remove hname hheld
      | notFound => exact .idle rfl rfl rfl (by simp [held]) (by simp [Takes])
      | failed => exact .idle rfl rfl rfl (by simp [held]) (by simp [Takes])

end

/-! ### What a save holds -/

/-- What a save with the given past has created is there, and what it holds is under its name and
no other. -/
structure Owns (path : String) (h : Past signature) (v : Volume) : Prop where
  known : ∀ file ∈ created h, file < v.contents.length
  place : ∀ name file, held h = some (name, file) →
    name ≠ path ∧ ∀ n, v.names n = some file ↔ n = name

section
variable {h h' : Past signature} {ev : Event signature} {v v' : Volume}

theorem owns_nil : Owns path [] v where
  known file hfile := by cases hfile
  place name file hheld := by cases hheld

theorem Change.length_le (hc : Change path h v ev v') : v.contents.length ≤ v'.contents.length := by
  cases hc with
  | idle hnames hcontents => rw [hcontents]
  | create hname hfree =>
    show v.contents.length ≤ (v.contents ++ [[]]).length
    simp
  | append byte hheld =>
    show v.contents.length ≤ (v.contents.modify _ _).length
    simp
  | rename hheld => exact le_rfl
  | remove hname hheld => exact le_rfl

/-- A file that an operation creates is new, and there from then on. -/
theorem Change.new (hc : Change path h v ev v') {file : ℕ} (hfile : creates ev = some file) :
    file = v.contents.length ∧ file < v'.contents.length := by
  cases hc with
  | idle hnames hcontents hcreates =>
    rw [hcreates] at hfile
    cases hfile
  | create hname hfree =>
    cases hfile
    refine ⟨rfl, ?_⟩
    show v.contents.length < (v.contents ++ [[]]).length
    simp
  | append byte hheld => cases hfile
  | rename hheld => cases hfile
  | remove hname hheld => cases hfile

/-- A file stays under its name while other names change. -/
theorem place_update {names : String → Option ℕ} {name n : String} {file : ℕ} {x : Option ℕ}
    (hplace : ∀ n, names n = some file ↔ n = name) (hx : x ≠ some file) (hn : n ≠ name) :
    ∀ m, Function.update names n x m = some file ↔ m = name := by
  intro m
  by_cases hm : m = n
  · subst hm
    rw [Function.update_self]
    exact iff_of_false hx hn
  · rw [Function.update_of_ne hm]
    exact hplace m

/-- The save that operates owns what it holds afterwards. -/
theorem Change.owns (hc : Change path h v ev v') (ho : Owns path h v) :
    Owns path (ev :: h) v' where
  known file hfile := by
    rcases mem_created_cons.1 hfile with hnew | hold
    · exact (hc.new hnew).2
    · exact Nat.lt_of_lt_of_le (ho.known file hold) hc.length_le
  place name file hheld' := by
    cases hc with
    | idle hnames hcontents hcreates hheld =>
      rw [hnames]
      exact ho.place name file (hheld _ hheld')
    | create hname hfree =>
      cases hheld'
      refine ⟨hname, fun n => ?_⟩
      show Function.update v.names name (some v.contents.length) n = _ ↔ _
      by_cases hn : n = name
      · subst hn
        simp
      · rw [Function.update_of_ne hn]
        exact iff_of_false (fun hfile => Nat.lt_irrefl _ (v.there hfile)) hn
    | append byte hheld => exact ho.place name file hheld'
    | rename hheld => cases hheld'
    | remove hname hheld => cases hheld'

/-- Another save owns what it holds afterwards, if the two have created different files. -/
theorem Change.owns_other (hc : Change path h v ev v') (ho : Owns path h v)
    (ho' : Owns path h' v) (hapart : ∀ file ∈ created h, file ∉ created h') : Owns path h' v' where
  known file hfile := Nat.lt_of_lt_of_le (ho'.known file hfile) hc.length_le
  place name file hheld' := by
    have hcreated := created_of_held hheld'
    obtain ⟨hpath, hplace⟩ := ho'.place name file hheld'
    refine ⟨hpath, ?_⟩
    -- a name under which there is another file, or none, is not the name of this one
    have hne : ∀ {n : String} {x : Option ℕ}, v.names n = x → x ≠ some file → n ≠ name := by
      rintro n x hn hx rfl
      exact hx (hn.symm.trans ((hplace n).2 rfl))
    have hmine : ∀ {n : String} {own : ℕ}, held h = some (n, own) →
        v.names n = some own ∧ some own ≠ some file := by
      intro n own hheld
      refine ⟨((ho.place n own hheld).2 n).2 rfl, fun heq => ?_⟩
      cases heq
      exact hapart file (created_of_held hheld) hcreated
    cases hc with
    | idle hnames =>
      rw [hnames]
      exact hplace
    | create hname hfree =>
      refine place_update hplace (fun heq => ?_) (hne hfree (by simp))
      have hlt := ho'.known file hcreated
      rw [Option.some.inj heq] at hlt
      exact Nat.lt_irrefl _ hlt
    | append byte hheld => exact hplace
    | rename hheld =>
      obtain ⟨hn, hown⟩ := hmine hheld
      refine place_update (place_update hplace (by simp) (hne hn hown)) ?_ (Ne.symm hpath)
      rw [hn]
      exact hown
    | remove hname hheld =>
      obtain ⟨hn, hown⟩ := hmine hheld
      exact place_update hplace (by simp) (hne hn hown)

/-- An operation that is not the rename leaves the cache file and the files of others alone. -/
theorem Change.leaves (hc : Change path h v ev v') (ho : Owns path h v)
    (hnot : ∀ src dst, ev ≠ .did (.rename src dst) true) :
    Leaves path (created h) v v' := by
  have hother : ∀ {n name : String} {own file : ℕ}, held h = some (n, own) →
      v.names name = some file → name = path ∨ file ∉ created h → name ≠ n ∧ own ≠ file := by
    intro n name own file hheld hfile hspare
    obtain ⟨hpath, hplace⟩ := ho.place n own hheld
    have hown : own ≠ file := by
      rintro rfl
      rcases hspare with rfl | hspare
      · exact hpath ((hplace name).1 hfile).symm
      · exact hspare (created_of_held hheld)
    refine ⟨?_, hown⟩
    rintro rfl
    exact hown (Option.some.inj (((hplace name).2 rfl).symm.trans hfile))
  cases hc with
  | idle hnames hcontents =>
    refine ⟨by rw [hnames], fun name file hfile _ => ⟨by rw [hnames, hfile], by rw [hcontents]⟩⟩
  | create hname hfree =>
    refine ⟨Function.update_of_ne (Ne.symm hname) _ _, fun n file hfile _ => ⟨?_, ?_⟩⟩
    · refine (Function.update_of_ne ?_ _ _).trans hfile
      rintro rfl
      rw [hfree] at hfile
      cases hfile
    · exact List.getElem?_append_left (v.there hfile)
  | append byte hheld =>
    refine ⟨rfl, fun n file hfile hspare => ⟨hfile, ?_⟩⟩
    exact List.getElem?_modify_ne _ _ (hother hheld hfile hspare).2
  | rename hheld => exact absurd rfl (hnot _ _)
  | remove hname hheld =>
    refine ⟨Function.update_of_ne (Ne.symm hname) _ _, fun n file hfile hspare => ⟨?_, rfl⟩⟩
    exact (Function.update_of_ne (hother hheld hfile hspare).1 _ _).trans hfile

/-- What an operation renames or removes was created by its save. -/
theorem Change.takes (hc : Change path h v ev v') (ho : Owns path h v) {name : String} {file : ℕ}
    (ht : Takes name ev) (hfile : v.names name = some file) : file ∈ created h := by
  have hmine : ∀ {n : String} {own : ℕ}, held h = some (n, own) → n = name → file ∈ created h := by
    rintro n own hheld rfl
    cases Option.some.inj (hfile.symm.trans (((ho.place n own hheld).2 n).2 rfl))
    exact created_of_held hheld
  cases hc with
  | idle hnames hcontents hcreates hheld hquiet => exact absurd ht (hquiet name)
  | create hname hfree => exact ht.elim
  | append byte hheld => exact ht.elim
  | rename hheld => exact hmine hheld ht.1
  | remove hname hheld => exact hmine hheld ht.1

end

/-! ### Runs -/

/-- Saves own what they hold, and no two have created one file. -/
structure Undisturbed (c : Config (system codec path)) : Prop where
  owns : ∀ (i : ℕ) (th : Thread signature), c.threads[i]? = some th → Owns path th.past c.shared
  apart : ∀ (i j : ℕ) (th th' : Thread signature) (file : ℕ), c.threads[i]? = some th →
    c.threads[j]? = some th' → file ∈ created th.past → file ∈ created th'.past → i = j

section
variable {c c' : Config (system codec path)} {l : Label signature}

/-- What a thread has created it had created before, or it is new. -/
theorem created_cases (hk : (habits path).Kept c) (hstep : Step c l c')
    (hspared : Spared c l c') {j file : ℕ} {th' : Thread signature}
    (hj : c'.threads[j]? = some th') (hfile : file ∈ created th'.past) :
    (∃ th, c.threads[j]? = some th ∧ file ∈ created th.past) ∨
      l.thread = some j ∧ file = c.shared.contents.length := by
  rcases hk.past_cases hstep (ne_panic hk hstep) hj with
    hnil | ⟨hold, -⟩ | ⟨th, ev, rfl, hi, -, hpast, -⟩
  · rw [hnil] at hfile
    cases hfile
  · exact Or.inl ⟨th', hold, hfile⟩
  · rw [hpast] at hfile
    rcases mem_created_cons.1 hfile with hnew | hold
    · exact Or.inr ⟨rfl, ((change_step hk hstep hspared hi).new hnew).1⟩
    · exact Or.inl ⟨th, hi, hold⟩

/-- **Saves go on owning what they hold**, when no other file is removed. -/
theorem Undisturbed.step (hu : Undisturbed c) (hk : (habits path).Kept c) (hstep : Step c l c')
    (hspared : Spared c l c') : Undisturbed c' where
  owns j th' hj := by
    rcases hk.past_cases hstep (ne_panic hk hstep) hj with
      hnil | ⟨hold, hl⟩ | ⟨th, ev, rfl, hi, -, hpast, -⟩
    · rw [hnil]
      exact owns_nil
    · cases l with
      | call t =>
        rw [hstep.shared]
        exact hu.owns j th' hold
      | panic i => exact absurd rfl (ne_panic hk hstep i)
      | op i ev =>
        obtain ⟨th, hi, -⟩ := hk.does hstep
        have hchange := change_step hk hstep hspared hi
        refine hchange.owns_other (hu.owns i th hi) (hu.owns j th' hold) ?_
        intro file hfile hfile'
        exact hl (congrArg some (hu.apart i j th th' file hi hold hfile hfile'))
    · rw [hpast]
      exact (change_step hk hstep hspared hi).owns (hu.owns j th hi)
  apart i j th₁ th₂ file hi hj hfile₁ hfile₂ := by
    have hknown : ∀ {k : ℕ}, (∃ th, c.threads[k]? = some th ∧ file ∈ created th.past) →
        file ≠ c.shared.contents.length := by
      rintro k ⟨th, hth, hold⟩
      exact Nat.ne_of_lt ((hu.owns k th hth).known file hold)
    rcases created_cases hk hstep hspared hi hfile₁ with hold₁ | ⟨hl₁, hnew₁⟩
    · rcases created_cases hk hstep hspared hj hfile₂ with hold₂ | ⟨-, hnew₂⟩
      · obtain ⟨th, hth, hfile⟩ := hold₁
        obtain ⟨th', hth', hfile'⟩ := hold₂
        exact hu.apart i j th th' file hth hth' hfile hfile'
      · exact absurd hnew₂ (hknown hold₁)
    · rcases created_cases hk hstep hspared hj hfile₂ with hold₂ | ⟨hl₂, -⟩
      · exact absurd hnew₁ (hknown hold₂)
      · exact Option.some.inj (hl₁.symm.trans hl₂)

theorem undisturbed_start (v : Volume) : Undisturbed (start codec path v) where
  owns i th hi := by cases hi
  apart i j th th' file hi := by cases hi

theorem run_undisturbed {v : Volume} (hrun : Run Spared (start codec path v) c) :
    (habits path).Kept c ∧ Undisturbed c := by
  refine hrun.preserves (I := fun c => (habits path).Kept c ∧ Undisturbed c) ?_
    ⟨.init _ _, undisturbed_start v⟩
  rintro c l c' ⟨hk, hu⟩ hstep hspared
  exact ⟨hk.step habits_sound hstep, hu.step hk hstep hspared⟩

/-- A save that has renamed its file does not fail any more. -/
theorem not_failed_of_renamed (hk : (habits path).Kept c) {i : ℕ} {th : Thread signature}
    (hi : c.threads[i]? = some th) (hren : Renamed th.past)
    (hrun : Run (fun _ _ _ => True) c c') : c'.returned i ≠ some (.saved false) := by
  obtain ⟨th', hi', hren'⟩ : ∃ th', c'.threads[i]? = some th' ∧ Renamed th'.past := by
    refine hrun.preserves (I := fun c => ∃ th, c.threads[i]? = some th ∧ Renamed th.past) ?_
      ⟨th, hi, hren⟩
    rintro c₁ l c₂ ⟨th₁, hi₁, src, dst, hmem⟩ hstep -
    obtain ⟨th₂, hi₂, -, hpast⟩ := hstep.remembers hi₁
    exact ⟨th₂, hi₂, src, dst, hpast.subset hmem⟩
  intro hret
  obtain ⟨th₀, hi₀, hret⟩ := Option.bind_eq_some_iff.1 hret
  cases Option.some.inj (hi'.symm.trans hi₀)
  have hafter := (hk.run habits_sound hrun).returns hi' hret
  cases htask : th'.task with
  | boot pid =>
    rw [htask] at hafter
    cases hafter
  | save proc token chain =>
    rw [htask] at hafter
    obtain ⟨done, hout, hdone⟩ := hafter
    cases hout
    exact Bool.false_ne_true (hdone.2 hren')

/-- Where the condition fails and the file can be removed, a file that the save has not created is
lost. -/
theorem lost_of_not_spared {i : ℕ} {name : String} {th : Thread signature}
    (hstep : Step c (.op i (.did (.remove name) .removed)) c') (hi : c.threads[i]? = some th)
    (hspared : ¬ Spared c (.op i (.did (.remove name) .removed)) c') :
    ∃ file, c.shared.names name = some file ∧ file ∉ created th.past ∧
      c'.shared.names name = none := by
  have hnone : created th.past = [] := by
    by_contra hne
    refine hspared fun th' hi' hnone => ?_
    cases Option.some.inj (hi.symm.trans hi')
    exact absurd hnone hne
  obtain ⟨-, -, -, -, hadmits, -⟩ := hstep.did_inv
  obtain ⟨file, hfile⟩ := Option.ne_none_iff_exists'.1 (hadmits.1 rfl)
  refine ⟨file, hfile, by simp [hnone], ?_⟩
  rw [hstep.shared]
  exact Function.update_self _ _ _

/-- **When failed saves disturb nobody.**  In a run in which no save whose `create_new` failed
finds a file under the name that it goes on to remove: a save that fails leaves the cache file, and
every file that it has not created, as they were, with each of its operations; and what a save
renames or removes was created by it and no other. -/
theorem failed_save_disturbs_nobody {v : Volume} (hrun : Run Spared (start codec path v) c)
    (hstep : Step c l c') (hspared : Spared c l c') {i : ℕ} {th : Thread signature}
    (hi : c.threads[i]? = some th) (hl : l.thread = some i) :
    (∀ c'', Run (fun _ _ _ => True) c' c'' → c''.returned i = some (.saved false) →
      Leaves path (created th.past) c.shared c'.shared) ∧
    ∀ ev name file, l = .op i ev → Takes name ev → c.shared.names name = some file →
      ∀ j th', c.threads[j]? = some th' → (file ∈ created th'.past ↔ j = i) := by
  obtain ⟨hk, hu⟩ := run_undisturbed hrun
  cases l with
  | call t => cases hl
  | panic j => exact absurd rfl (ne_panic hk hstep j)
  | op j ev =>
    cases hl
    have hchange := change_step hk hstep hspared hi
    constructor
    · intro c'' hrun' hfailed
      refine hchange.leaves (hu.owns i th hi) ?_
      rintro src dst rfl
      obtain ⟨th₀, p, hi₀, -, hi'⟩ := hstep.op_inv
      exact not_failed_of_renamed (hk.step habits_sound hstep) hi'
        ⟨src, dst, List.mem_cons_self⟩ hrun' hfailed
    · intro ev' name file hev htakes hfile j th' hj
      cases hev
      have hown := hchange.takes (hu.owns i th hi) htakes hfile
      constructor
      · intro hfile'
        exact hu.apart j i th' th file hj hi hfile' hown
      · rintro rfl
        cases Option.some.inj (hi.symm.trans hj)
        exact hown

end

/-! ### Two runs -/

instance (e : Effect) (v : Volume) (w : Unit) (r : Answer e) :
    Decidable ((system codec path).admits e v w r) :=
  match e, r with
  | .processId _, _ | .fetchAdd _, _ => inferInstanceAs (Decidable (_ = _))
  | .createNew name, file =>
    inferInstanceAs (Decidable (∀ f ∈ file, v.names name = none ∧ f = v.contents.length))
  | .rename .., _ => inferInstanceAs (Decidable (_ → _))
  | .remove _, _ => inferInstanceAs (Decidable (_ ∧ _))
  | .boot _, _ | .createDirAll, _ | .clock, _ | .append .., _ => isTrue trivial

instance : DecidablePred (system codec path).callable := fun _ => isTrue trivial

instance (c c' : Config (system codec path)) (l : Label signature) : Decidable (Spared c l c') :=
  match l with
  | .op i (.did (.remove name) _) => inferInstanceAs
    (Decidable (∀ th ∈ c.threads[i]?, created th.past = [] → c.shared.names name = none))
  | .call _ | .panic _ | .op _ .locked | .op _ (.triedLock _) | .op _ .unlocked
  | .op _ (.forked ..) | .op _ (.did (.boot _) _) | .op _ (.did .createDirAll _)
  | .op _ (.did .clock _) | .op _ (.did (.processId _) _) | .op _ (.did (.fetchAdd _) _)
  | .op _ (.did (.createNew _) _) | .op _ (.did (.append ..) _)
  | .op _ (.did (.rename ..) _) => isTrue trivial

/-- A volume with a cache file. -/
def sampleVolume : Volume where
  names name := if name = "token.json" then some 0 else none
  contents := [[]]
  procs := []
  there {name file} h := by
    split_ifs at h
    cases h
    exact Nat.one_pos

/-- A volume that is full: files can be created and not written to. -/
def fullVolume : Oracle (system sampleCodec "token.json")
  | .boot _, _, _ => ()
  | .createDirAll, _, _ => true
  | .clock, _, _ => .unixEpoch
  | .processId proc, v, _ => (v.procs[proc]?.map Process.pid).getD 0
  | .fetchAdd proc, v, _ => (v.procs[proc]?.map Process.counter).getD 0
  | .createNew name, v, _ => if v.names name = none then some v.contents.length else none
  | .append .., _, _ => false
  | .rename .., _, _ => false
  | .remove name, v, _ => if v.names name = none then .notFound else .removed

/-- The name of the file that a step removes. -/
def removal : Label signature → Option (ℕ × String)
  | .op i (.did (.remove name) .removed) => some (i, name)
  | _ => none

theorem removal_eq_some {l : Label signature} {i : ℕ} {name : String} :
    removal l = some (i, name) ↔ l = .op i (.did (.remove name) .removed) := by
  constructor
  · intro h
    unfold removal at h
    split at h
    · cases h
      rfl
    · cases h
  · rintro rfl
    rfl

/-- A save that cannot write its file removes it. -/
theorem failed_save_disturbs_nobody_sample :
    ∃ (c c' : Config (system sampleCodec "token.json")) (th : Thread signature),
      c.threads[1]? = some th ∧ c'.returned 1 = some (.saved false) ∧
      c'.shared.names (tmpName "token.json" 1 0) = none ∧
      Leaves "token.json" (created th.past) c.shared c'.shared ∧ 1 ∈ created th.past := by
  have hplay : (play Spared (start sampleCodec "token.json" sampleVolume)
      (.call (.boot 1) :: .go 0 fullVolume :: .call (.save 0 "t" sampleChain) ::
        List.replicate 6 (.go 1 fullVolume))).any
      (fun c => decide (c.shared.names (tmpName "token.json" 1 0) = some 1) &&
        (c.next (.go 1 fullVolume)).any fun s => decide (Spared c s.1 s.2 ∧
          removal s.1 = some (1, tmpName "token.json" 1 0) ∧
          s.2.returned 1 = some (.saved false) ∧
          s.2.shared.names (tmpName "token.json" 1 0) = none)) = true := by
    decide +kernel
  obtain ⟨c, hc, h⟩ := (Option.any_eq_true _ _).1 hplay
  obtain ⟨hfile, hnext⟩ := Bool.and_eq_true_iff.1 h
  obtain ⟨l, c', hrun, hstep, hspared, hl, hret, hgone⟩ := play_step (Q := fun c l c' =>
    Spared c l c' ∧ removal l = some (1, tmpName "token.json" 1 0) ∧
      c'.returned 1 = some (.saved false) ∧
      c'.shared.names (tmpName "token.json" 1 0) = none) hc hnext
  obtain rfl := removal_eq_some.1 hl
  obtain ⟨th, p, hi, -, -⟩ := hstep.op_inv
  obtain ⟨hleaves, htakes⟩ := failed_save_disturbs_nobody hrun hstep hspared hi rfl
  exact ⟨c, c', th, hi, hret, hgone, hleaves c' (Run.refl c') hret,
    (htakes _ _ 1 rfl ⟨rfl, rfl⟩ (of_decide_eq_true hfile) 1 th hi).2 rfl⟩

/-- **A failed save disturbs another.**  Two processes have the id 1, in two containers say.  The
save of one has created its file when that of the other, which could not create one, removes it
and fails. -/
theorem coinciding_ids_disturb :
    ∃ (c c' : Config (system sampleCodec "token.json")) (th₂ th₃ : Thread signature)
      (name : String) (file : ℕ),
      Run (fun _ _ _ => True) (start sampleCodec "token.json" sampleVolume) c ∧
      Step c (.op 3 (.did (.remove name) .removed)) c' ∧
      c.threads[2]? = some th₂ ∧ c.threads[3]? = some th₃ ∧ file ∈ created th₂.past ∧
      created th₃.past = [] ∧ c.shared.names name = some file ∧ c'.shared.names name = none ∧
      c'.returned 3 = some (.saved false) := by
  have hplay : (play (fun _ _ _ => True) (start sampleCodec "token.json" sampleVolume)
      (.call (.boot 1) :: .go 0 fullVolume :: .call (.boot 1) :: .go 1 fullVolume ::
        .call (.save 0 "t" sampleChain) :: .call (.save 1 "u" sampleChain) ::
        (List.replicate 5 (.go 2 fullVolume) ++ List.replicate 5 (.go 3 fullVolume)))).any
      (fun c => decide ((∃ th₂ ∈ c.threads[2]?, 1 ∈ created th₂.past) ∧
          (∃ th₃ ∈ c.threads[3]?, created th₃.past = []) ∧
          c.shared.names (tmpName "token.json" 1 0) = some 1) &&
        (c.next (.go 3 fullVolume)).any fun s => decide (
          removal s.1 = some (3, tmpName "token.json" 1 0) ∧
          s.2.returned 3 = some (.saved false) ∧
          s.2.shared.names (tmpName "token.json" 1 0) = none)) = true := by
    decide +kernel
  obtain ⟨c, hc, h⟩ := (Option.any_eq_true _ _).1 hplay
  obtain ⟨hbefore, hnext⟩ := Bool.and_eq_true_iff.1 h
  obtain ⟨⟨th₂, hi₂, hown⟩, ⟨th₃, hi₃, hnone⟩, hfile⟩ := of_decide_eq_true hbefore
  obtain ⟨l, c', hrun, hstep, hl, hret, hgone⟩ := play_step (Q := fun _ l c' =>
    removal l = some (3, tmpName "token.json" 1 0) ∧ c'.returned 3 = some (.saved false) ∧
      c'.shared.names (tmpName "token.json" 1 0) = none) hc hnext
  obtain rfl := removal_eq_some.1 hl
  exact ⟨c, c', th₂, th₃, _, 1, hrun, hstep, hi₂, hi₃, hown, hnone, hfile, hgone, hret⟩

end LatteRs.SharedVolume
