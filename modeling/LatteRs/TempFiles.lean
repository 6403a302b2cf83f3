import LatteRs.Saving

/-!
# Temporary files

Temporary files of living saves have different names, as long as no counter wraps
around, so each of them holds what its save has written so far.

* `Saves`, `Saves.before`, `Advances`: the phase of a thread, and where it comes from;
* `Counts`, `Disk.write_procs`, `Disk.procs_of_write`: how processes change;
* `Tidy`, `Tidy.step`: what is true of names and temporary files;
* `Tidy.names_apart`, `Tidy.others_step`: saves keep out of each other's way.
-/

namespace LatteRs.Storage

open Concurrent

variable {codec : Codec} {path : String}

/-- Thread `i` is a save by process `proc`, and in phase `ph`. -/
def Saves (c : Config (system codec path)) (i proc : ℕ) (ph : Phase) : Prop :=
  ∃ th token chain, c.threads[i]? = some th ∧ th.task = .save proc token chain ∧
    phase token chain th.past = ph

/-- Thread `i` makes this operation for process `proc` in phase `ph`, and is in `ph'` then. -/
def Advances (c : Config (system codec path)) (i proc : ℕ) (ph : Phase) (ev : Event signature)
    (ph' : Phase) : Prop :=
  ∃ th token chain, c.threads[i]? = some th ∧ th.task = .save proc token chain ∧
    phase token chain th.past = ph ∧ Phase.Goes codec path proc token chain ph ev ph'

theorem Advances.saves {c : Config (system codec path)} {i proc : ℕ} {ph ph' : Phase}
    {ev : Event signature} (h : Advances c i proc ph ev ph') : Saves c i proc ph := by
  obtain ⟨th, token, chain, hi, htask, hphase, -⟩ := h
  exact ⟨th, token, chain, hi, htask, hphase⟩

theorem Advances.goes {c : Config (system codec path)} {i proc : ℕ} {ph ph' : Phase}
    {ev : Event signature} (h : Advances c i proc ph ev ph') :
    ∃ token chain, Phase.Goes codec path proc token chain ph ev ph' := by
  obtain ⟨th, token, chain, -, -, -, hgoes⟩ := h
  exact ⟨token, chain, hgoes⟩

section
variable {c c' : Config (system codec path)} {l : Label signature}

/-- No thread panics. -/
theorem ne_panic (hk : (habits codec path).Kept c) (hstep : Step c l c') (i : ℕ) :
    l ≠ .panic i :=
  hk.ne_panic (fun _ _ => id) (fun _ => id) hstep i

/-- Where the phase of a save comes from. -/
theorem Saves.before (hk : (habits codec path).Kept c) (hstep : Step c l c') {i proc : ℕ}
    {ph' : Phase} (h : Saves c' i proc ph') :
    ph' = .starting ∨ (Saves c i proc ph' ∧ l.thread ≠ some i) ∨
      ∃ ph ev, l = .op i ev ∧ Advances c i proc ph ev ph' := by
  obtain ⟨th', token, chain, hi', htask, rfl⟩ := h
  rcases hk.past_cases hstep (ne_panic hk hstep) hi' with
    hnil | ⟨hold, hl⟩ | ⟨th, ev, rfl, hi, htask', hpast, hdoes⟩
  · rw [hnil]
    exact Or.inl rfl
  · exact Or.inr (Or.inl ⟨⟨th', token, chain, hold, htask, rfl⟩, hl⟩)
  · rw [htask] at htask'
    rw [← htask'] at hdoes
    rw [hpast]
    exact Or.inr (Or.inr ⟨_, ev, rfl, th, token, chain, hi, htask'.symm, rfl, hdoes⟩)

/-- What a step does to the file system and the processes. -/
theorem shared_cases (hstep : Step c l c') : c'.shared = c.shared ∨
    ∃ i e r, l = .op i (.did e r) ∧ Disk.admits e c.shared r ∧
      c'.shared = Disk.write e r c.shared := by
  cases hstep with
  | act hi hp hr => exact Or.inr ⟨_, _, _, rfl, hr, rfl⟩
  | _ => exact Or.inl rfl

end

/-! ### Processes -/

/-- A counter that is drawn from does not wrap around. -/
def Counts : Event signature → Prop
  | .did (.fetchAdd _) count => count + 1 < 2 ^ 64
  | _ => True

namespace Disk

variable {d : Disk}

theorem alive_iff {proc : ℕ} :
    d.Alive proc ↔ ∃ P, d.procs[proc]? = some P ∧ P.alive = true := by
  simp [Alive]

/-- The processes after one was changed. -/
theorem setProc_procs (proc : ℕ) (f : Process → Process) (p : ℕ) :
    (d.setProc proc f).procs[p]? = d.procs[p]?.map fun P => if proc = p then f P else P := by
  unfold setProc
  rw [List.getElem?_modify]
  cases d.procs[p]? <;> rfl

theorem setProc_self {proc : ℕ} {P : Process} (hp : d.procs[proc]? = some P)
    (f : Process → Process) : (d.setProc proc f).procs[proc]? = some (f P) := by
  rw [setProc_procs, hp]
  simp

/-- The operations that change processes. -/
def ChangesProcs : Effect → Prop
  | .boot _ => True
  | .kill _ => True
  | .fetchAdd _ => True
  | _ => False

theorem write_procs_of_not {e : Effect} (h : ¬ ChangesProcs e) (r : Answer e) (d : Disk) :
    (Disk.write e r d).procs = d.procs := by
  cases e with
  | boot pid => exact absurd trivial h
  | kill proc => exact absurd trivial h
  | fetchAdd proc => exact absurd trivial h
  | createNew proc name => cases r <;> rfl
  | append proc name byte => cases r <;> rfl
  | rename proc src dst => cases r <;> rfl
  | remove proc name => cases r <;> rfl
  | _ => rfl

/-- A process stays what it is; it may die, and its counter grows. -/
theorem write_procs {e : Effect} {r : Answer e} (hadmits : Disk.admits e d r)
    (hcounts : Counts (.did e r)) {p : ℕ} {P : Process} (hp : d.procs[p]? = some P) :
    ∃ P', (Disk.write e r d).procs[p]? = some P' ∧ P'.pid = P.pid ∧
      (P'.alive = true → P.alive = true) ∧ P.counter ≤ P'.counter := by
  have same : ∀ {d' : Disk}, d'.procs = d.procs → ∃ P', d'.procs[p]? = some P' ∧
      P'.pid = P.pid ∧ (P'.alive = true → P.alive = true) ∧ P.counter ≤ P'.counter := by
    intro d' hprocs
    exact ⟨P, hprocs ▸ hp, rfl, id, le_rfl⟩
  cases e with
  | boot pid =>
    cases r with
    | false => exact same rfl
    | true =>
      obtain ⟨hlt, -⟩ := List.getElem?_eq_some_iff.1 hp
      exact ⟨P, (List.getElem?_append_left hlt).trans hp, rfl, id, le_rfl⟩
  | kill proc =>
    refine ⟨_, (setProc_procs _ _ p).trans (by rw [hp]; rfl), ?_⟩
    split_ifs <;> simp
  | fetchAdd proc =>
    refine ⟨_, (setProc_procs _ _ p).trans (by rw [hp]; rfl), ?_⟩
    split_ifs with hproc
    · subst hproc
      obtain ⟨-, hcount⟩ := hadmits
      rw [hp] at hcount
      cases hcount
      refine ⟨rfl, id, ?_⟩
      show P.counter ≤ (P.counter + 1) % 2 ^ 64
      rw [Nat.mod_eq_of_lt hcounts]
      exact Nat.le_succ _
    · simp
  | _ => exact same (write_procs_of_not id r d)

/-- A process was there before, or has just been started under an id that was free. -/
theorem procs_of_write {e : Effect} {r : Answer e} (hadmits : Disk.admits e d r) {p : ℕ}
    {P' : Process} (hp' : (Disk.write e r d).procs[p]? = some P') :
    (∃ P, d.procs[p]? = some P ∧ P'.pid = P.pid ∧ (P'.alive = true → P.alive = true)) ∨
      p = d.procs.length ∧ ∀ P ∈ d.procs, P.alive = true → P.pid ≠ P'.pid := by
  have changed : ∀ {proc : ℕ} {f : Process → Process}, (∀ P, (f P).pid = P.pid) →
      (∀ P, (f P).alive = true → P.alive = true) → (d.setProc proc f).procs[p]? = some P' →
      ∃ P, d.procs[p]? = some P ∧ P'.pid = P.pid ∧ (P'.alive = true → P.alive = true) := by
    intro proc f hpid halive h
    rw [setProc_procs, Option.map_eq_some_iff] at h
    obtain ⟨P, hp, rfl⟩ := h
    refine ⟨P, hp, ?_⟩
    split_ifs
    · exact ⟨hpid P, halive P⟩
    · exact ⟨rfl, id⟩
  cases e with
  | boot pid =>
    cases r with
    | false => exact Or.inl ⟨P', hp', rfl, id⟩
    | true =>
      rcases Nat.lt_or_ge p d.procs.length with hlt | hge
      · exact Or.inl ⟨P', (List.getElem?_append_left hlt).symm.trans hp', rfl, id⟩
      · have hnew : (d.procs ++ [⟨pid, true, 0⟩])[p]? = some P' := hp'
        rw [List.getElem?_append_right hge, List.getElem?_singleton] at hnew
        split_ifs at hnew with hlen
        cases hnew
        exact Or.inr ⟨by omega, hadmits rfl⟩
  | kill proc =>
    exact Or.inl (changed (f := fun P => { P with alive := false }) (fun _ => rfl) (by simp) hp')
  | fetchAdd proc =>
    exact Or.inl (changed (f := fun P => { P with counter := (P.counter + 1) % 2 ^ 64 })
      (fun _ => rfl) (fun _ => id) hp')
  | _ =>
    rw [write_procs_of_not id] at hp'
    exact Or.inl ⟨P', hp', rfl, id⟩

end Disk

/-! ### Names -/

/-- What is true of process ids, counts and temporary files. -/
structure Tidy (c : Config (system codec path)) : Prop where
  /-- Living processes have different ids. -/
  pids : ∀ (p q : ℕ) (P Q : Process), c.shared.procs[p]? = some P → c.shared.procs[q]? = some Q →
    P.alive = true → Q.alive = true → P.pid = Q.pid → p = q
  /-- A save has the id of its process. -/
  own : ∀ i proc ph pid, Saves c i proc ph → ph.pid? = some pid →
    ∃ P, c.shared.procs[proc]? = some P ∧ P.pid = pid
  /-- A count that was drawn is less than the counter. -/
  drawn : ∀ i proc ph w, Saves c i proc ph → ph.draft? = some w →
    ∃ P, c.shared.procs[proc]? = some P ∧ w.count < P.counter
  /-- Saves of one process have drawn different counts. -/
  apart : ∀ i j proc ph ph' w w', Saves c i proc ph → Saves c j proc ph' →
    ph.draft? = some w → ph'.draft? = some w' → w.count = w'.count → i = j
  /-- A temporary file of a living save holds what it has written. -/
  temp : ∀ i proc w written, Saves c i proc (.writing w written) → c.shared.Alive proc →
    c.shared.files (w.tmp path) = some written

section
variable {c c' : Config (system codec path)} {l : Label signature}

/-- **Living saves have different temporary files.** -/
theorem Tidy.names_apart (ht : Tidy c) {i j p q : ℕ} {ph ph' : Phase} {w w' : Draft}
    (hi : Saves c i p ph) (hw : ph.draft? = some w) (hp : c.shared.Alive p)
    (hj : Saves c j q ph') (hw' : ph'.draft? = some w') (hq : c.shared.Alive q)
    (hname : w.tmp path = w'.tmp path) : i = j := by
  obtain ⟨hpid, hcount⟩ := tmpName_inj.1 hname
  obtain ⟨P, hP, hPpid⟩ := ht.own i p ph w.pid hi (Phase.pid?_of_draft? hw)
  obtain ⟨Q, hQ, hQpid⟩ := ht.own j q ph' w'.pid hj (Phase.pid?_of_draft? hw')
  obtain ⟨P', hP', hPalive⟩ := Disk.alive_iff.1 hp
  obtain ⟨Q', hQ', hQalive⟩ := Disk.alive_iff.1 hq
  cases Option.some.inj (hP.symm.trans hP')
  cases Option.some.inj (hQ.symm.trans hQ')
  have hproc : p = q := ht.pids p q P Q hP hQ hPalive hQalive (by rw [hPpid, hQpid, hpid])
  subst hproc
  exact ht.apart i j p ph ph' w w' hi hj hw hw' hcount

/-- A process after a step. -/
theorem procs_step (hstep : Step c l c') (hcounts : l.Sat Counts) {p : ℕ} {P : Process}
    (hp : c.shared.procs[p]? = some P) : ∃ P', c'.shared.procs[p]? = some P' ∧
      P'.pid = P.pid ∧ (P'.alive = true → P.alive = true) ∧ P.counter ≤ P'.counter := by
  rcases shared_cases hstep with hsame | ⟨i, e, r, rfl, hadmits, hwrite⟩
  · exact ⟨P, hsame ▸ hp, rfl, id, le_rfl⟩
  · rw [hwrite]
    exact Disk.write_procs hadmits hcounts hp

/-- The processes after a step. -/
theorem procs_before (hstep : Step c l c') {p : ℕ} {P' : Process}
    (hp' : c'.shared.procs[p]? = some P') :
    (∃ P, c.shared.procs[p]? = some P ∧ P'.pid = P.pid ∧ (P'.alive = true → P.alive = true)) ∨
      p = c.shared.procs.length ∧ ∀ P ∈ c.shared.procs, P.alive = true → P.pid ≠ P'.pid := by
  rcases shared_cases hstep with hsame | ⟨i, e, r, rfl, hadmits, hwrite⟩
  · exact Or.inl ⟨P', hsame ▸ hp', rfl, id⟩
  · rw [hwrite] at hp'
    exact Disk.procs_of_write hadmits hp'

/-- The dead stay dead. -/
theorem alive_before (hstep : Step c l c') {p : ℕ} {P : Process}
    (hp : c.shared.procs[p]? = some P) (halive : c'.shared.Alive p) : c.shared.Alive p := by
  obtain ⟨P', hp', halive'⟩ := Disk.alive_iff.1 halive
  rcases procs_before hstep hp' with ⟨P₀, hp₀, -, hback⟩ | ⟨rfl, -⟩
  · exact Disk.alive_iff.2 ⟨P₀, hp₀, hback halive'⟩
  · simp at hp

theorem Tidy.pids_step (ht : Tidy c) (hstep : Step c l c') (p q : ℕ) (P' Q' : Process)
    (hp' : c'.shared.procs[p]? = some P') (hq' : c'.shared.procs[q]? = some Q')
    (hP : P'.alive = true) (hQ : Q'.alive = true) (hpid : P'.pid = Q'.pid) : p = q := by
  rcases procs_before hstep hp' with ⟨P, hp, hPpid, hPback⟩ | ⟨hplen, hfree⟩
  · rcases procs_before hstep hq' with ⟨Q, hq, hQpid, hQback⟩ | ⟨-, hfree⟩
    · exact ht.pids p q P Q hp hq (hPback hP) (hQback hQ) (by rw [← hPpid, ← hQpid, hpid])
    · exact absurd (hPpid.symm.trans hpid) (hfree P (List.mem_of_getElem? hp) (hPback hP))
  · rcases procs_before hstep hq' with ⟨Q, hq, hQpid, hQback⟩ | ⟨hqlen, -⟩
    · exact absurd (hQpid.symm.trans hpid.symm) (hfree Q (List.mem_of_getElem? hq) (hQback hQ))
    · rw [hplen, hqlen]

/-- What an operation of thread `i` was allowed to be, and did. -/
theorem did_step {i : ℕ} {e : Effect} {r : Answer e} (hstep : Step c (.op i (.did e r)) c') :
    Disk.admits e c.shared r ∧ c'.shared = Disk.write e r c.shared := by
  obtain ⟨th, next, -, -, hadmits, rfl⟩ := hstep.did_inv
  exact ⟨hadmits, rfl⟩

theorem Tidy.own_step (ht : Tidy c) (hk : (habits codec path).Kept c) (hstep : Step c l c')
    (hcounts : l.Sat Counts) (i proc : ℕ) (ph' : Phase) (pid : ℕ) (hi : Saves c' i proc ph')
    (hpid : ph'.pid? = some pid) : ∃ P, c'.shared.procs[proc]? = some P ∧ P.pid = pid := by
  have old : ∀ ph, Saves c i proc ph → ph.pid? = some pid →
      ∃ P, c'.shared.procs[proc]? = some P ∧ P.pid = pid := by
    intro ph hsaves hph
    obtain ⟨P, hp, hPpid⟩ := ht.own i proc ph pid hsaves hph
    obtain ⟨P', hp', hpid', -, -⟩ := procs_step hstep hcounts hp
    exact ⟨P', hp', hpid'.trans hPpid⟩
  rcases hi.before hk hstep with rfl | ⟨hsaves, -⟩ | ⟨ph, ev, rfl, hadv⟩
  · cases hpid
  · exact old ph' hsaves hpid
  · obtain ⟨token, chain, hgoes⟩ := hadv.goes
    rcases hgoes.pid? hpid with hph | rfl
    · exact old ph hadv.saves hph
    · obtain ⟨⟨-, hread⟩, hwrite⟩ := did_step hstep
      rw [hwrite]
      exact Option.map_eq_some_iff.1 hread

theorem Tidy.drawn_step (ht : Tidy c) (hk : (habits codec path).Kept c) (hstep : Step c l c')
    (hcounts : l.Sat Counts) (i proc : ℕ) (ph' : Phase) (w : Draft) (hi : Saves c' i proc ph')
    (hw : ph'.draft? = some w) : ∃ P, c'.shared.procs[proc]? = some P ∧ w.count < P.counter := by
  have old : ∀ ph, Saves c i proc ph → ph.draft? = some w →
      ∃ P, c'.shared.procs[proc]? = some P ∧ w.count < P.counter := by
    intro ph hsaves hph
    obtain ⟨P, hp, hlt⟩ := ht.drawn i proc ph w hsaves hph
    obtain ⟨P', hp', -, -, hle⟩ := procs_step hstep hcounts hp
    exact ⟨P', hp', Nat.lt_of_lt_of_le hlt hle⟩
  rcases hi.before hk hstep with rfl | ⟨hsaves, -⟩ | ⟨ph, ev, rfl, hadv⟩
  · cases hw
  · exact old ph' hsaves hw
  · obtain ⟨token, chain, hgoes⟩ := hadv.goes
    rcases hgoes.draft? hw with hph | ⟨-, rfl⟩
    · exact old ph hadv.saves hph
    · obtain ⟨⟨-, hread⟩, hwrite⟩ := did_step hstep
      rw [Option.map_eq_some_iff] at hread
      obtain ⟨P, hp, hcount⟩ := hread
      rw [hwrite]
      refine ⟨_, Disk.setProc_self hp _, ?_⟩
      rw [← hcount]
      show P.counter < (P.counter + 1) % 2 ^ 64
      have hlt : w.count + 1 < 2 ^ 64 := hcounts
      rw [Nat.mod_eq_of_lt (hcount ▸ hlt)]
      exact Nat.lt_succ_self _

theorem Tidy.apart_step (ht : Tidy c) (hk : (habits codec path).Kept c) (hstep : Step c l c')
    (i j proc : ℕ) (ph ph' : Phase) (w w' : Draft) (hi : Saves c' i proc ph)
    (hj : Saves c' j proc ph') (hw : ph.draft? = some w) (hw' : ph'.draft? = some w')
    (hcount : w.count = w'.count) : i = j := by
  -- a draft is an old one, or its count is the one that the step has drawn
  have drafts : ∀ i ph w, Saves c' i proc ph → ph.draft? = some w →
      (∃ ph₀, Saves c i proc ph₀ ∧ ph₀.draft? = some w) ∨
        l = .op i (.did (.fetchAdd proc) w.count) := by
    intro i ph w hi hw
    rcases hi.before hk hstep with rfl | ⟨hsaves, -⟩ | ⟨ph₀, ev, rfl, hadv⟩
    · cases hw
    · exact Or.inl ⟨ph, hsaves, hw⟩
    · obtain ⟨token, chain, hgoes⟩ := hadv.goes
      rcases hgoes.draft? hw with hph | ⟨-, rfl⟩
      · exact Or.inl ⟨ph₀, hadv.saves, hph⟩
      · exact Or.inr rfl
  -- what the step has drawn was not drawn before
  have fresh : ∀ i j ph w, Saves c j proc ph → ph.draft? = some w →
      l ≠ .op i (.did (.fetchAdd proc) w.count) := by
    rintro i j ph w hj hw rfl
    obtain ⟨P, hp, hlt⟩ := ht.drawn j proc ph w hj hw
    obtain ⟨⟨-, hread⟩, -⟩ := did_step hstep
    rw [hp] at hread
    exact absurd (Option.some.inj hread) (Nat.ne_of_gt hlt)
  rcases drafts i ph w hi hw with ⟨ph₀, hi₀, hw₀⟩ | hli
  · rcases drafts j ph' w' hj hw' with ⟨ph₁, hj₁, hw₁⟩ | hlj
    · exact ht.apart i j proc ph₀ ph₁ w w' hi₀ hj₁ hw₀ hw₁ hcount
    · exact absurd (hcount ▸ hlj) (fresh j i ph₀ w hi₀ hw₀)
  · rcases drafts j ph' w' hj hw' with ⟨ph₁, hj₁, hw₁⟩ | hlj
    · exact absurd (hcount ▸ hli) (fresh i j ph₁ w' hj₁ hw₁)
    · exact (Label.op.inj (hli.symm.trans hlj)).1

/-! ### Files -/

/-- The operations on a name. -/
def Touches (name : String) : Effect → Prop
  | .createNew _ n => n = name
  | .append _ n _ => n = name
  | .rename _ src dst => src = name ∨ dst = name
  | .remove _ n => n = name
  | _ => False

theorem write_files {name : String} {e : Effect} {r : Answer e} (h : ¬ Touches name e)
    (d : Disk) : (Disk.write e r d).files name = d.files name := by
  cases e with
  | createNew proc n =>
    cases r
    · rfl
    · exact d.set_files_of_ne h _
  | append proc n byte =>
    cases r
    · rfl
    · exact d.set_files_of_ne h _
  | rename proc src dst =>
    cases r
    · rfl
    · refine ((d.set src none).set_files_of_ne (fun heq => h (Or.inr heq)) _).trans ?_
      exact d.set_files_of_ne (fun heq => h (Or.inl heq)) _
  | remove proc n =>
    cases r
    · exact d.set_files_of_ne h _
    · rfl
    · rfl
  | boot pid => cases r <;> rfl
  | _ => rfl

/-- An operation on a file is a step of a save, or the removal of the cache file by a clear. -/
theorem acts_cases (hk : (habits codec path).Kept c) {i : ℕ} {e : Effect} {r : Answer e}
    (hstep : Step c (.op i (.did e r)) c') :
    (∀ name, ¬ Touches name e) ∨ (∃ proc, e = .remove proc path) ∨
      ∃ proc ph ph', Advances c i proc ph (.did e r) ph' := by
  obtain ⟨th, hi, hdoes⟩ := hk.does hstep
  cases htask : th.task with
  | boot pid =>
    rw [htask] at hdoes
    obtain ⟨started, heq⟩ := hdoes
    cases heq
    exact Or.inl fun _ h => h
  | kill proc =>
    rw [htask] at hdoes
    cases hdoes
    exact Or.inl fun _ h => h
  | load proc =>
    rw [htask] at hdoes
    obtain ⟨-, data, heq⟩ := hdoes
    cases heq
    exact Or.inl fun _ h => h
  | clear proc =>
    rw [htask] at hdoes
    obtain ⟨removal, heq⟩ := hdoes
    cases heq
    exact Or.inr (Or.inl ⟨proc, rfl⟩)
  | save proc token chain =>
    rw [htask] at hdoes
    exact Or.inr (Or.inr ⟨proc, _, _, th, token, chain, hi, htask, rfl, hdoes⟩)

/-- A living save operates on its temporary file, and a rename on the cache file too. -/
theorem touches_cases (hk : (habits codec path).Kept c) {i : ℕ} {e : Effect} {r : Answer e}
    (hstep : Step c (.op i (.did e r)) c') {name : String} (h : Touches name e) :
    name = path ∨ ∃ proc ph w, Saves c i proc ph ∧ ph.draft? = some w ∧ name = w.tmp path ∧
      c.shared.Alive proc := by
  obtain ⟨hadmits, -⟩ := did_step hstep
  rcases acts_cases hk hstep with hnone | ⟨proc, rfl⟩ | ⟨proc, ph, ph', hadv⟩
  · exact absurd h (hnone name)
  · exact Or.inl h.symm
  · have hsaves := hadv.saves
    obtain ⟨token, chain, hgoes⟩ := hadv.goes
    cases hgoes with
    | createDirAll made => exact h.elim
    | clock now => exact h.elim
    | processId record pid => exact h.elim
    | fetchAdd record pid count => exact h.elim
    | createNew w => exact Or.inr ⟨proc, _, w, hsaves, rfl, h.symm, hadmits.1⟩
    | notCreated w => exact Or.inr ⟨proc, _, w, hsaves, rfl, h.symm, hadmits.1⟩
    | append w written byte => exact Or.inr ⟨proc, _, w, hsaves, rfl, h.symm, hadmits⟩
    | notAppended w written byte => exact Or.inr ⟨proc, _, w, hsaves, rfl, h.symm, hadmits⟩
    | remove w removal => exact Or.inr ⟨proc, _, w, hsaves, rfl, h.symm, hadmits.1⟩
    | rename w =>
      rcases h with hsrc | hdst
      · exact Or.inr ⟨proc, _, w, hsaves, rfl, hsrc.symm, hadmits.1⟩
      · exact Or.inl hdst.symm
    | notRenamed w =>
      rcases h with hsrc | hdst
      · exact Or.inr ⟨proc, _, w, hsaves, rfl, hsrc.symm, hadmits.1⟩
      · exact Or.inl hdst.symm

/-- **Nobody else touches the temporary file of a living save.** -/
theorem Tidy.others_step (ht : Tidy c) (hk : (habits codec path).Kept c) (hstep : Step c l c')
    {i proc : ℕ} {ph : Phase} {w : Draft} (hi : Saves c i proc ph) (hw : ph.draft? = some w)
    (halive : c.shared.Alive proc) (hl : l.thread ≠ some i) :
    c'.shared.files (w.tmp path) = c.shared.files (w.tmp path) := by
  rcases shared_cases hstep with hsame | ⟨j, e, r, rfl, -, hwrite⟩
  · rw [hsame]
  · rw [hwrite]
    refine write_files (fun htouch => hl ?_) _
    rcases touches_cases hk hstep htouch with hpath | ⟨q, ph', w', hj, hw', hname, hq⟩
    · exact absurd hpath (tmpName_ne path w.pid w.count)
    · exact congrArg some (ht.names_apart hj hw' hq hi hw halive hname.symm)

theorem Tidy.temp_step (ht : Tidy c) (hk : (habits codec path).Kept c) (hstep : Step c l c')
    (i proc : ℕ) (w : Draft) (written : List UInt8) (hi : Saves c' i proc (.writing w written))
    (halive : c'.shared.Alive proc) : c'.shared.files (w.tmp path) = some written := by
  rcases hi.before hk hstep with heq | ⟨hsaves, hl⟩ | ⟨ph, ev, rfl, hadv⟩
  · cases heq
  · obtain ⟨P, hp, -⟩ := ht.own i proc _ w.pid hsaves rfl
    have halive₀ := alive_before hstep hp halive
    rw [ht.others_step hk hstep hsaves rfl halive₀ hl]
    exact ht.temp i proc w written hsaves halive₀
  · obtain ⟨token, chain, hgoes⟩ := hadv.goes
    have hsaves := hadv.saves
    cases hgoes with
    | createNew =>
      obtain ⟨-, hwrite⟩ := did_step hstep
      rw [hwrite]
      exact c.shared.set_files_self _ _
    | append _ before byte =>
      obtain ⟨hadmits, hwrite⟩ := did_step hstep
      rw [hwrite]
      refine (c.shared.set_files_self _ _).trans ?_
      rw [ht.temp i proc w before hsaves hadmits]
      rfl

/-- **Names and temporary files stay in order**, while no counter wraps around. -/
theorem Tidy.step (ht : Tidy c) (hk : (habits codec path).Kept c) (hstep : Step c l c')
    (hcounts : l.Sat Counts) : Tidy c' where
  pids := ht.pids_step hstep
  own := ht.own_step hk hstep hcounts
  drawn := ht.drawn_step hk hstep hcounts
  apart := ht.apart_step hk hstep
  temp := ht.temp_step hk hstep

theorem tidy_start (files : String → Option (List UInt8)) : Tidy (start codec path files) := by
  have none_saves : ∀ {i proc : ℕ} {ph : Phase}, ¬ Saves (start codec path files) i proc ph := by
    rintro i proc ph ⟨th, token, chain, hi, -⟩
    cases hi
  exact {
    pids := fun p q P Q hp => by cases hp
    own := fun i proc ph pid hi => absurd hi none_saves
    drawn := fun i proc ph w hi => absurd hi none_saves
    apart := fun i j proc ph ph' w w' hi => absurd hi none_saves
    temp := fun i proc w written hi => absurd hi none_saves }

end

end LatteRs.Storage
