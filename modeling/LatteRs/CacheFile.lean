import LatteRs.TempFiles
import LatteRs.Concurrent.Schedule
import LatteRs.Json
import Mathlib.Logic.Equiv.List
import Mathlib.Logic.Denumerable

/-!
# The cache file is never torn

A rename puts the whole record of a save in place of the cache file, and nothing
but a clear takes it away: to all threads the file is one cell.

* `Published`, `path_cases`: how a step changes the cache file;
* `loaded_step`, `saved_step`: when loads and saves return;
* `proceeds_written`, `exists_rename`, `exists_load`, `exists_fails`: saves and loads of one
  process, and `sampleCodec`, a codec for one record;
* `run_known`, `run_present`, `cache_never_torn`;
* `torn_after_wrap`: with a counter that has run through all its values, an
  unfinished file is put in place.
-/

namespace LatteRs.Storage

open Concurrent

variable {codec : Codec} {path : String}

section
variable {c c' : Config (system codec path)} {l : Label signature}

/-! ### The cache file -/

/-- A rename by a save. -/
def Renames (path : String) : Event signature → Prop
  | .did (.rename _ _ dst) done => dst = path ∧ done = true
  | _ => False

/-- The removal of the cache file. -/
def Clears (path : String) : Event signature → Prop
  | .did (.remove _ name) removal => name = path ∧ removal = .removed
  | _ => False

/-- Some save of this token and chain has renamed its file. -/
def Published (c : Config (system codec path)) (token : String) (chain : CertChain) : Prop :=
  ∃ (i : ℕ) (th : Thread signature) (proc : ℕ), c.threads[i]? = some th ∧
    th.task = .save proc token chain ∧
    ∃ ev ∈ th.past, Renames path ev

theorem Published.step {token : String} {chain : CertChain} (h : Published c token chain)
    (hstep : Step c l c') : Published c' token chain := by
  obtain ⟨i, th, proc, hi, htask, ev, hev, hren⟩ := h
  obtain ⟨th', hi', htask', hpast⟩ := hstep.remembers hi
  exact ⟨i, th', proc, hi', htask'.trans htask, ev, hpast.subset hev, hren⟩

/-- A save that renames publishes the record that it has written. -/
theorem Advances.publishes {i proc : ℕ} {ph ph' : Phase} {ev : Event signature}
    (hadv : Advances c i proc ph ev ph') (hstep : Step c (.op i ev) c') (hren : Renames path ev)
    {record : CachedActivation} (hrecord : ph.record? = some record) :
    ∃ now token chain, record = .of now token chain ∧ Published c' token chain := by
  obtain ⟨th, token, chain, hi, htask, rfl, -⟩ := hadv
  obtain ⟨th₀, p, hi₀, -, hi'⟩ := hstep.op_inv
  cases Option.some.inj (hi.symm.trans hi₀)
  obtain ⟨now, hnow⟩ := record_of_phase hrecord
  exact ⟨now, token, chain, hnow, i, _, proc, hi', htask, ev, List.mem_cons_self, hren⟩

/-- A rename puts the whole record in place. -/
theorem Tidy.renamed_files (ht : Tidy c) {i proc : ℕ} {w : Draft}
    (hi : Saves c i proc (.writing w (codec.toVec w.record)))
    (hstep : Step c (.op i (.did (.rename proc (w.tmp path) path) true)) c') :
    c'.shared.files path = some (codec.toVec w.record) := by
  obtain ⟨hadmits, hwrite⟩ := did_step hstep
  rw [hwrite]
  exact (Disk.set_files_self _ _ _).trans (ht.temp i proc w _ hi hadmits.1)

/-- **A step leaves the cache file, puts the whole record of a save in place, or clears it.** -/
theorem path_cases (ht : Tidy c) (hk : (habits codec path).Kept c) (hstep : Step c l c') :
    c'.shared.files path = c.shared.files path ∨
      (∃ now token chain, c'.shared.files path = some (codec.toVec (.of now token chain)) ∧
        Published c' token chain) ∨
      ∃ i ev, l = .op i ev ∧ Clears path ev ∧ c'.shared.files path = none := by
  rcases shared_cases hstep with hsame | ⟨i, e, r, rfl, -, hwrite⟩
  · exact Or.inl (by rw [hsame])
  by_cases htouch : Touches path e
  · rcases acts_cases hk hstep with hnone | ⟨proc, rfl⟩ | ⟨proc, ph, ph', hadv⟩
    · exact absurd htouch (hnone path)
    · rw [hwrite]
      cases r with
      | removed => exact Or.inr (Or.inr ⟨i, _, rfl, ⟨rfl, rfl⟩, c.shared.set_files_self _ _⟩)
      | notFound => exact Or.inl rfl
      | failed => exact Or.inl rfl
    · have hsaves := hadv.saves
      obtain ⟨token, chain, hgoes⟩ := hadv.goes
      cases hgoes with
      | createDirAll made => exact htouch.elim
      | clock now => exact htouch.elim
      | processId record pid => exact htouch.elim
      | fetchAdd record pid count => exact htouch.elim
      | createNew w => exact absurd htouch (tmpName_ne path w.pid w.count)
      | notCreated w => exact absurd htouch (tmpName_ne path w.pid w.count)
      | append w written byte => exact absurd htouch (tmpName_ne path w.pid w.count)
      | notAppended w written byte => exact absurd htouch (tmpName_ne path w.pid w.count)
      | remove w removal => exact absurd htouch (tmpName_ne path w.pid w.count)
      | notRenamed w => exact Or.inl (congrArg (Disk.files · path) hwrite)
      | rename w =>
        obtain ⟨now, token, chain, hrecord, hpub⟩ := hadv.publishes hstep ⟨rfl, rfl⟩ rfl
        refine Or.inr (Or.inl ⟨now, token, chain, ?_, hpub⟩)
        rw [← hrecord]
        exact ht.renamed_files hsaves hstep
  · rw [hwrite]
    exact Or.inl (write_files htouch _)

/-! ### Calls that return -/

theorem returned_eq_some {i : ℕ} {out : Outcome} : c.returned i = some out ↔
    ∃ th, c.threads[i]? = some th ∧ th.prog.result? = some out :=
  Option.bind_eq_some_iff

/-- A load that returns has just read the file. -/
theorem loaded_step (hk : (habits codec path).Kept c) (hstep : Step c l c') {k : ℕ}
    {result : Option (String × CertChain)} (h : c'.returned k = some (.loaded result)) :
    c.returned k = some (.loaded result) ∨
      c.returned k = none ∧ result = decoded codec (c.shared.files path) := by
  obtain ⟨th', hi', hret⟩ := returned_eq_some.1 h
  have hafter := (hk.step habits_sound hstep).returns hi' hret
  obtain ⟨proc, data, hpast, rfl⟩ := loaded_of_returnsAfter codec path hafter
  rcases hstep.thread_cases hi' with ⟨t, -, rfl, -⟩ | ⟨th, hi, rfl | ⟨ev, p, rfl, rfl⟩ | ⟨rfl, -⟩⟩
  · cases hpast
  · exact Or.inl (returned_eq_some.2 ⟨_, hi, hret⟩)
  · obtain ⟨rfl, -⟩ := List.cons.inj hpast
    obtain ⟨⟨-, hread⟩, -⟩ := did_step hstep
    refine Or.inr ⟨?_, by rw [hread]⟩
    unfold Config.returned
    rw [hi]
    exact hstep.running rfl hi
  · exact absurd rfl (ne_panic hk hstep k)

/-- A save that succeeds has just put its record in place. -/
theorem saved_step (ht : Tidy c) (hk : (habits codec path).Kept c) (hstep : Step c l c') {i : ℕ}
    (hbefore : c.returned i = none) (h : c'.returned i = some (.saved true)) :
    ∃ now token chain, c'.shared.files path = some (codec.toVec (.of now token chain)) := by
  obtain ⟨th', hi', hret⟩ := returned_eq_some.1 h
  have hafter := (hk.step habits_sound hstep).returns hi' hret
  obtain ⟨proc, token, chain, record, htask, hphase⟩ := saved_of_returnsAfter codec path hafter
  have hsaves : Saves c' i proc (.renamed record) := ⟨th', token, chain, hi', htask, hphase⟩
  rcases hsaves.before hk hstep with heq | ⟨-, hl⟩ | ⟨ph, ev, rfl, hadv⟩
  · cases heq
  · -- a save that did nothing has returned before, or has just been called
    rcases hstep.thread_cases hi' with ⟨t, -, rfl, -⟩ | ⟨th, hi, rfl | ⟨ev, p, rfl, -⟩ | ⟨rfl, -⟩⟩
    · cases hphase
    · rw [returned_eq_some.2 ⟨_, hi, hret⟩] at hbefore
      cases hbefore
    · exact absurd rfl hl
    · exact absurd rfl hl
  · obtain ⟨token, chain, hgoes⟩ := hadv.goes
    have hold := hadv.saves
    cases hgoes with
    | rename w =>
      obtain ⟨now, token, chain, hrecord, -⟩ := hadv.publishes hstep ⟨rfl, rfl⟩ rfl
      refine ⟨now, token, chain, ?_⟩
      rw [← hrecord]
      exact ht.renamed_files hold hstep

end

/-! ### Saves of one process -/

/-- A disk with one living process. -/
def only (files : String → Option (List UInt8)) (pid count : ℕ) : Disk :=
  ⟨files, [⟨pid, true, count⟩]⟩

section
variable {ok : Event signature → Prop} {files : String → Option (List UInt8)} {pid count : ℕ}
  {token : String} {chain : CertChain}

theorem only_alive : (only files pid count).Alive 0 := rfl

/-- What a save does after it has tried to write and rename its file. -/
def afterNew (proc : ℕ) (tmp : String) : Bool → Act Bool
  | true => .ret true
  | false => do
    let _ ← perform (.remove proc tmp)
    .ret false

/-- What a save does once it has tried to write its file. -/
def thenRename (path : String) (proc : ℕ) (tmp : String) : Bool → Act Bool
  | false => .ret false
  | true => perform (.rename proc tmp path)

/-- A save draws what its temporary name is made of. -/
theorem proceeds_draws (hok : ∀ ev, Counts ev → ok ev) (hdraw : ok (.did (.fetchAdd 0) count)) :
    Proceeds (system codec path) ok (save codec path 0 token chain) (only files pid count) ()
      (writeNew path 0 (tmpName path pid count) (codec.toVec (.of .unixEpoch token chain)) >>=
        afterNew 0 (tmpName path pid count))
      (only files pid ((count + 1) % 2 ^ 64)) () := by
  refine .act (r := true) only_alive (hok _ trivial) ?_
  refine .act (r := SystemTime.unixEpoch) only_alive (hok _ trivial) ?_
  refine .act (r := pid) ⟨only_alive, rfl⟩ (hok _ trivial) ?_
  refine .act (r := count) ⟨only_alive, rfl⟩ hdraw ?_
  exact .refl _ _ _

/-- A save whose new file cannot be created is over when it has tried to remove it. -/
theorem proceeds_fails (hok : ∀ ev, Counts ev → ok ev) (hdraw : ok (.did (.fetchAdd 0) count))
    (removal : Removal) (hremoval : Disk.admits (.remove 0 (tmpName path pid count))
      (only files pid ((count + 1) % 2 ^ 64)) removal) :
    Proceeds (system codec path) ok (body codec path (.save 0 token chain)) (only files pid count)
      () (.ret (.saved false)) (Disk.write (.remove 0 (tmpName path pid count)) removal
        (only files pid ((count + 1) % 2 ^ 64))) () := by
  refine ((proceeds_draws hok hdraw).bind _).trans ?_
  refine .act (r := false) ⟨only_alive, by simp⟩ (hok _ trivial) ?_
  refine .act (r := removal) ?_ (hok _ trivial) ?_
  · exact hremoval
  · exact .refl _ _ _

/-- A save creates its new file. -/
theorem proceeds_creates (hok : ∀ ev, Counts ev → ok ev) (hdraw : ok (.did (.fetchAdd 0) count))
    (hfree : files (tmpName path pid count) = none) :
    Proceeds (system codec path) ok (save codec path 0 token chain) (only files pid count) ()
      ((writeAll 0 (tmpName path pid count) (codec.toVec (.of .unixEpoch token chain)) >>=
        thenRename path 0 (tmpName path pid count)) >>= afterNew 0 (tmpName path pid count))
      (only (Function.update files (tmpName path pid count) (some [])) pid
        ((count + 1) % 2 ^ 64)) () := by
  refine (proceeds_draws hok hdraw).trans ?_
  refine .act (r := true) ⟨only_alive, fun _ => hfree⟩ (hok _ trivial) ?_
  exact .refl _ _ _

/-- The loop of `write_all` can append everything. -/
theorem proceeds_writeAll (hok : ∀ ev, Counts ev → ok ev) {tmp : String}
    (content rest : List UInt8) : Proceeds (system codec path) ok (writeAll 0 tmp rest)
      (only (Function.update files tmp (some content)) pid count) () (.ret true)
      (only (Function.update files tmp (some (content ++ rest))) pid count) () := by
  induction rest generalizing content with
  | nil =>
    rw [List.append_nil]
    exact .refl _ _ _
  | cons byte rest ih =>
    have hwrite : Disk.write (.append 0 tmp byte) true
        (only (Function.update files tmp (some content)) pid count) =
        only (Function.update files tmp (some (content ++ [byte]))) pid count := by
      simp [Disk.write, Disk.set, only]
    have hall : content ++ byte :: rest = content ++ [byte] ++ rest := by simp
    have hrest := ih (content ++ [byte])
    rw [← hwrite, ← hall] at hrest
    refine .act (r := true) only_alive (hok _ trivial) ?_
    exact hrest

/-- A save that has written its file. -/
def aboutToRename (path tmp : String) : Act Outcome :=
  (perform (.rename 0 tmp path) >>= afterNew 0 tmp) >>= fun done => .ret (.saved done)

/-- A save writes its file, and is about to rename it. -/
theorem proceeds_written (hok : ∀ ev, Counts ev → ok ev) (hdraw : ok (.did (.fetchAdd 0) count))
    (hfree : files (tmpName path pid count) = none) :
    Proceeds (system codec path) ok (body codec path (.save 0 token chain)) (only files pid count)
      () (aboutToRename path (tmpName path pid count))
      (only (Function.update files (tmpName path pid count)
        (some (codec.toVec (.of .unixEpoch token chain)))) pid ((count + 1) % 2 ^ 64)) () :=
  Proceeds.bind ((proceeds_creates hok hdraw hfree).trans
    (((proceeds_writeAll hok [] _).bind _).bind _)) _

end

section
variable {c : Config (system codec path)} {files : String → Option (List UInt8)} {pid count : ℕ}

/-- A save renames what is there under the name of its file. -/
theorem exists_rename {i : ℕ} {th : Thread signature} {tmp : String} {content : List UInt8}
    (hi : c.threads[i]? = some th) (hprog : th.prog = aboutToRename path tmp)
    (hc : c.shared = only files pid count) (hfile : files tmp = some content) :
    ∃ l c₁, Step c l c₁ ∧ l.Sat Counts ∧ c.returned i = none ∧
      c₁.returned i = some (.saved true) ∧ c₁.shared.Alive 0 ∧
      c₁.shared.files path = some content := by
  have hadmits : Disk.admits (.rename 0 tmp path) c.shared true := by
    rw [hc]
    exact ⟨only_alive, fun _ => by simp [only, hfile]⟩
  have hstep : Step c _ _ := .act (r := true) hi hprog hadmits
  refine ⟨_, _, hstep, trivial, ?_, ?_, ?_, ?_⟩
  · unfold Config.returned
    rw [hi]
    exact hstep.running rfl hi
  · exact returned_eq_some.2 ⟨_, Config.set_threads_self hi _, rfl⟩
  · show (Disk.write (.rename 0 tmp path) true c.shared).Alive 0
    rw [hc]
    exact only_alive
  · show (Disk.write (.rename 0 tmp path) true c.shared).files path = some content
    rw [hc]
    exact (Disk.set_files_self _ _ _).trans hfile

/-- A new thread runs a stretch of its task. -/
theorem exists_call {ok : Event signature → Prop} {p' : Act Outcome} {d' : Disk} (t : Task)
    (h : Proceeds (system codec path) ok (body codec path t) c.shared () p' d' ()) :
    ∃ c' th', Run (fun _ l _ => l.Sat ok) c c' ∧ c'.threads[c.threads.length]? = some th' ∧
      th'.prog = p' ∧ c'.shared = d' ∧ c'.threads.length = c.threads.length + 1 ∧
      ∀ j < c.threads.length, c'.threads[j]? = c.threads[j]? := by
  obtain ⟨c', th', hrun, hi, hprog, hshared, -, hlen, hold⟩ :=
    exists_called (c := c) (t := t) trivial h
  exact ⟨c', th', hrun, hi, hprog, hshared, hlen, hold⟩

/-- A load reads what is in the cache file. -/
theorem exists_load (halive : c.shared.Alive 0) :
    ∃ c₂ k, Run (fun _ l _ => l.Sat fun ev => Counts ev ∧ ¬ Clears path ev) c c₂ ∧
      c.returned k = none ∧
      c₂.returned k = some (.loaded (decoded codec (c.shared.files path))) := by
  have hload : Proceeds (system codec path) (fun ev => Counts ev ∧ ¬ Clears path ev)
      (body codec path (.load 0)) c.shared ()
      (.ret (.loaded (decoded codec (c.shared.files path)))) c.shared () := by
    refine .act (r := c.shared.files path) ⟨halive, rfl⟩ ⟨trivial, fun h => h⟩ ?_
    cases c.shared.files path <;> exact .refl _ _ _
  obtain ⟨c₂, th, hrun, hi, hret, -⟩ := exists_call (.load 0) hload
  refine ⟨c₂, _, hrun, ?_, returned_eq_some.2 ⟨th, hi, by rw [hret]; rfl⟩⟩
  unfold Config.returned
  rw [List.getElem?_eq_none le_rfl]
  rfl

/-- A process starts. -/
theorem exists_boot (pid : ℕ) : ∃ c, Run (fun _ l _ => l.Sat Counts) (start codec path files) c ∧
    c.shared = only files pid 0 ∧ c.threads.length = 1 := by
  have hboot : Proceeds (system codec path) Counts (body codec path (.boot pid)) ⟨files, []⟩ ()
      (.ret (.booted true)) (only files pid 0) () := by
    refine .act (r := true) (fun _ p hp => by cases hp) trivial ?_
    exact .refl _ _ _
  obtain ⟨c, th, hrun, -, -, hc, hlen, -⟩ :=
    exists_call (c := start codec path files) (.boot pid) hboot
  exact ⟨c, hrun, hc, hlen⟩

/-- Saves that fail to create their files do nothing but draw. -/
theorem exists_fails (n : ℕ) (hcount : count < 2 ^ 64) (hc : c.shared = only files pid count) :
    ∃ c', Run (fun _ l _ => l.Sat fun _ => True) c c' ∧
      c'.shared = only files pid ((count + n) % 2 ^ 64) ∧
      c.threads.length ≤ c'.threads.length ∧
      ∀ j < c.threads.length, c'.threads[j]? = c.threads[j]? := by
  induction n with
  | zero =>
    refine ⟨c, .refl c, ?_, le_rfl, fun _ _ => rfl⟩
    rw [hc, Nat.add_zero, Nat.mod_eq_of_lt hcount]
  | succ n ih =>
    obtain ⟨c₁, hrun₁, hc₁, hle, hold₁⟩ := ih
    have hfails : Proceeds (system codec path) (fun _ => True)
        (body codec path (.save 0 "" ⟨"", "", ""⟩)) c₁.shared () (.ret (.saved false))
        (only files pid (((count + n) % 2 ^ 64 + 1) % 2 ^ 64)) () := by
      rw [hc₁]
      exact proceeds_fails (fun _ _ => trivial) trivial .failed
        ⟨only_alive, by simp, by simp⟩
    obtain ⟨c₂, th, hrun₂, -, -, hc₂, hlen, hold₂⟩ := exists_call _ hfails
    refine ⟨c₂, hrun₁.trans hrun₂, ?_, by omega, fun j hj => ?_⟩
    · rw [hc₂, Nat.mod_add_mod, Nat.add_assoc]
    · rw [hold₂ j (by omega), hold₁ j hj]

end

/-! ### A record -/

/-- A record as numbers. -/
def CachedActivation.code (record : CachedActivation) :
    ℤ × List ℕ × List ℕ × List ℕ × List ℕ :=
  (record.timestamp, record.token.toList.map Char.toNat, record.submaster.toList.map Char.toNat,
    record.project.toList.map Char.toNat, record.daily.toList.map Char.toNat)

def CachedActivation.ofCode (code : ℤ × List ℕ × List ℕ × List ℕ × List ℕ) : CachedActivation :=
  ⟨code.1, .ofList (code.2.1.map Char.ofNat), .ofList (code.2.2.1.map Char.ofNat),
    .ofList (code.2.2.2.1.map Char.ofNat), .ofList (code.2.2.2.2.map Char.ofNat)⟩

@[reducible] def codes : Encodable (ℤ × List ℕ × List ℕ × List ℕ × List ℕ) :=
  let strings : Encodable (List ℕ) := @List.encodable ℕ Nat.encodable
  @Encodable.Prod.encodable _ _ Int.encodable (@Encodable.Prod.encodable _ _ strings
    (@Encodable.Prod.encodable _ _ strings (@Encodable.Prod.encodable _ _ strings strings)))

theorem ofCode_code (record : CachedActivation) :
    CachedActivation.ofCode record.code = record := by
  simp [CachedActivation.ofCode, CachedActivation.code, Function.comp_def, String.ofList_toList]

def sampleChain : CertChain := ⟨"s", "p", "d"⟩

/-- What `serde_json` writes for the record of a save at the epoch. -/
def sampleData : List UInt8 :=
  asBytes ("\x7b\"timestamp\":0,\"token\":\"t\",\"submaster\":\"s\",\"project\":\"p\"," ++
    "\"daily\":\"d\"\x7d")

def sampleToVec (record : CachedActivation) : List UInt8 :=
  if record = .of .unixEpoch "t" sampleChain then sampleData
  else 0 :: List.replicate (codes.encode record.code) 0

def sampleFromSlice (data : List UInt8) : Option CachedActivation :=
  if data = sampleData then some (.of .unixEpoch "t" sampleChain)
  else match data with
  | [] => none
  | _ :: rest => (codes.decode rest.length).map CachedActivation.ofCode

theorem sampleFromSlice_toVec (record : CachedActivation) :
    sampleFromSlice (sampleToVec record) = some record := by
  unfold sampleToVec
  split_ifs with hrecord
  · rw [hrecord]
    exact if_pos rfl
  · have hdata : ∀ n, 0 :: List.replicate n 0 ≠ sampleData := by
      intro n h
      have hhead : sampleData.head? = some 123 := by decide +kernel
      rw [← h] at hhead
      cases hhead
    refine (if_neg (hdata _)).trans ?_
    show (codes.decode (List.replicate _ _).length).map CachedActivation.ofCode = some record
    rw [List.length_replicate, codes.encodek, Option.map_some, ofCode_code]

/-- A codec that is `serde_json` on this record, and refuses nothing but the empty file. -/
def sampleCodec : Codec :=
  ⟨sampleToVec, sampleFromSlice, fun record _ => sampleFromSlice_toVec record⟩

/-! ### Runs -/

section
variable {files : String → Option (List UInt8)} {c c₁ c₂ : Config (system codec path)}

theorem run_tidy (hrun : Run (fun _ l _ => l.Sat Counts) (start codec path files) c) :
    (habits codec path).Kept c ∧ Tidy c := by
  refine hrun.preserves (I := fun c => (habits codec path).Kept c ∧ Tidy c) ?_
    ⟨.init _ _, tidy_start files⟩
  rintro c l c' ⟨hk, ht⟩ hstep hcounts
  exact ⟨hk.step habits_sound hstep, ht.step hk hstep hcounts⟩

/-- What loads may return: nothing, what was there at the start, or what a save has published. -/
def Known (files : String → Option (List UInt8)) (c : Config (system codec path))
    (result : Option (String × CertChain)) : Prop :=
  result = none ∨ result = decoded codec (files path) ∨
    ∃ token chain, result = some (token, chain) ∧ Published c token chain

theorem Known.step {result : Option (String × CertChain)} (h : Known files c result)
    {l : Label signature} (hstep : Step c l c₁) : Known files c₁ result := by
  rcases h with hnone | hstart | ⟨token, chain, hresult, hpub⟩
  · exact Or.inl hnone
  · exact Or.inr (Or.inl hstart)
  · exact Or.inr (Or.inr ⟨token, chain, hresult, hpub.step hstep⟩)

theorem decoded_toVec (now : SystemTime) (token : String) (chain : CertChain) :
    decoded codec (some (codec.toVec (.of now token chain))) = some (token, chain) := by
  simp [decoded, codec.fromSlice_of]

/-- **The cache file and the results of loads are known.** -/
theorem run_known (hrun : Run (fun _ l _ => l.Sat Counts) (start codec path files) c) :
    Known files c (decoded codec (c.shared.files path)) ∧
      ∀ k result, c.returned k = some (.loaded result) → Known files c result := by
  induction hrun with
  | refl => exact ⟨Or.inr (Or.inl rfl), fun k result h => by cases h⟩
  | tail hrun hstep ih =>
    obtain ⟨l, hstep, hcounts⟩ := hstep
    obtain ⟨hk, ht⟩ := run_tidy hrun
    obtain ⟨hfile, hloads⟩ := ih
    refine ⟨?_, fun k result h => ?_⟩
    · rcases path_cases ht hk hstep with hsame | ⟨now, token, chain, hput, hpub⟩ |
        ⟨i, ev, -, -, hclear⟩
      · rw [hsame]
        exact hfile.step hstep
      · rw [hput, decoded_toVec]
        exact Or.inr (Or.inr ⟨token, chain, rfl, hpub⟩)
      · rw [hclear]
        exact Or.inl rfl
    · rcases loaded_step hk hstep h with hold | ⟨-, rfl⟩
      · exact (hloads k result hold).step hstep
      · exact hfile.step hstep

/-- **A file that is there stays until it is cleared**, for loads too. -/
theorem run_present (hk : (habits codec path).Kept c) (ht : Tidy c)
    (hpresent : decoded codec (c.shared.files path) ≠ none)
    (hrun : Run (fun _ l _ => l.Sat fun ev => Counts ev ∧ ¬ Clears path ev) c c₁) :
    (habits codec path).Kept c₁ ∧ Tidy c₁ ∧ decoded codec (c₁.shared.files path) ≠ none ∧
      ∀ k result, c.returned k = none → c₁.returned k = some (.loaded result) → result ≠ none := by
  induction hrun with
  | refl =>
    refine ⟨hk, ht, hpresent, fun k result hbefore h => ?_⟩
    rw [hbefore] at h
    cases h
  | tail hrun hstep ih =>
    obtain ⟨l, hstep, hsat⟩ := hstep
    obtain ⟨hk, ht, hpresent, hloads⟩ := ih
    refine ⟨hk.step habits_sound hstep, ht.step hk hstep (hsat.imp fun _ h => h.1), ?_, ?_⟩
    · rcases path_cases ht hk hstep with hsame | ⟨now, token, chain, hput, -⟩ |
        ⟨i, ev, rfl, hclears, -⟩
      · rw [hsame]
        exact hpresent
      · rw [hput, decoded_toVec]
        exact Option.some_ne_none _
      · exact absurd hclears hsat.2
    · intro k result hbefore h
      rcases loaded_step hk hstep h with hold | ⟨-, rfl⟩
      · exact hloads k result hbefore hold
      · exact hpresent

/-- **The cache file is never torn**, while no process draws so many counts that its counter wraps
around: a load returns nothing, or what the file held at the start, or what was passed to a save
that has renamed its file; and a load that reads the file after a save has succeeded returns
something, until the file is cleared.  The read is the last operation of a load, with which it has
returned here (`loaded_step`). -/
theorem cache_never_torn (hrun : Run (fun _ l _ => l.Sat Counts) (start codec path files) c) :
    (∀ k result, c.returned k = some (.loaded result) → Known files c result) ∧
      ∀ l c₁ i, Step c l c₁ → l.Sat Counts → c.returned i = none →
        c₁.returned i = some (.saved true) →
        ∀ c₂, Run (fun _ l _ => l.Sat fun ev => Counts ev ∧ ¬ Clears path ev) c₁ c₂ →
        ∀ k result, c₁.returned k = none → c₂.returned k = some (.loaded result) →
          result ≠ none := by
  refine ⟨(run_known hrun).2, fun l c₁ i hstep hcounts hbefore hsaved c₂ hrun₂ => ?_⟩
  obtain ⟨hk, ht⟩ := run_tidy hrun
  obtain ⟨now, token, chain, hput⟩ := saved_step ht hk hstep hbefore hsaved
  have hpresent : decoded codec (c₁.shared.files path) ≠ none := by
    rw [hput, decoded_toVec]
    exact Option.some_ne_none _
  obtain ⟨-, -, -, hloads⟩ :=
    run_present (hk.step habits_sound hstep) (ht.step hk hstep hcounts) hpresent hrun₂
  exact hloads

end

/-- A process starts, saves and loads. -/
theorem cache_never_torn_sample : ∃ (c c₁ c₂ : Config (system sampleCodec "token.json"))
    (l : Label signature) (i k : ℕ), Step c l c₁ ∧ c₁.returned i = some (.saved true) ∧
      c₂.returned k = some (.loaded (some ("t", sampleChain))) ∧
      Known (fun _ => none) c₂ (some ("t", sampleChain)) ∧
      ∀ result, c₂.returned k = some (.loaded result) → result ≠ none := by
  obtain ⟨c₀, hrun₀, hc₀, hlen₀⟩ : ∃ c, Run (fun _ l _ => l.Sat Counts)
      (start sampleCodec "token.json" fun _ => none) c ∧
      c.shared = only (fun _ => none) 4711 0 ∧ c.threads.length = 1 := exists_boot 4711
  have hwritten : Proceeds (system sampleCodec "token.json") Counts
      (body sampleCodec "token.json" (.save 0 "t" sampleChain)) c₀.shared ()
      (aboutToRename "token.json" (tmpName "token.json" 4711 0))
      (only (Function.update (fun _ => none) (tmpName "token.json" 4711 0)
        (some (sampleCodec.toVec (.of .unixEpoch "t" sampleChain)))) 4711 1) () := by
    rw [hc₀]
    exact proceeds_written (fun _ => id) (show 0 + 1 < 2 ^ 64 by norm_num) rfl
  obtain ⟨c, th, hrun, hi, hprog, hc, -⟩ := exists_call _ hwritten
  obtain ⟨l, c₁, hstep, hcounts, hbefore, hsaved, halive, hfile⟩ := exists_rename hi hprog hc
    (Function.update_self _ _ _)
  obtain ⟨c₂, k, hrun₂, hnot, hloaded⟩ := exists_load halive
  have hrun₁ := hrun₀.trans hrun
  rw [hfile, decoded_toVec] at hloaded
  have hall := (hrun₁.tail hstep hcounts).trans (hrun₂.mono fun _ _ _ h => h.imp fun _ h => h.1)
  exact ⟨c, c₁, c₂, l, _, k, hstep, hsaved, hloaded, (cache_never_torn hall).1 k _ hloaded,
    fun result => (cache_never_torn hrun₁).2 l c₁ _ hstep hcounts hbefore hsaved c₂ hrun₂ k result
      hnot⟩

variable (codec path) in
/-- **A wrapped counter can tear the cache file.**  A save stalls before its rename; the saves of
the process come to its count again, and one of them removes its file; they come to it once more,
and one creates the file anew; the first save puts that in place. -/
theorem exists_torn (hempty : codec.fromSlice [] = none) (pid : ℕ) :
    ∃ (c c₁ c₂ : Config (system codec path)) (l : Label signature) (i k : ℕ),
      Run (fun _ l _ => l.Sat fun _ => True) (start codec path fun _ => none) c ∧ Step c l c₁ ∧
      c.returned i = none ∧ c₁.returned i = some (.saved true) ∧
      Run (fun _ l _ => l.Sat fun ev => Counts ev ∧ ¬ Clears path ev) c₁ c₂ ∧
      c₁.returned k = none ∧ c₂.returned k = some (.loaded none) := by
  let tmp := tmpName path pid 0
  let data := codec.toVec (.of .unixEpoch "" ⟨"", "", ""⟩)
  let save : Task := .save 0 "" ⟨"", "", ""⟩
  let absent : String → Option (List UInt8) := fun _ => none
  have hok : ∀ ev : Event signature, Counts ev → True := fun _ _ => trivial
  obtain ⟨c₀, hrun₀, hc₀, hlen₀⟩ : ∃ c, Run (fun _ l _ => l.Sat Counts)
      (start codec path absent) c ∧ c.shared = only absent pid 0 ∧ c.threads.length = 1 :=
    exists_boot pid
  -- the save that stalls has the count 0
  have hwritten : Proceeds (system codec path) (fun _ => True) (body codec path save)
      c₀.shared () (aboutToRename path tmp)
      (only (Function.update absent tmp (some data)) pid 1) () := by
    rw [hc₀]
    exact proceeds_written hok trivial rfl
  obtain ⟨c₁, th, hrun₁, hi₁, hprog, hc₁, hlen₁, -⟩ := exists_call save hwritten
  obtain ⟨c₂, hrun₂, hc₂, hle₂, hold₂⟩ := exists_fails (2 ^ 64 - 1) (by norm_num) hc₁
  -- the next save with this count removes the file
  have hremoves : Proceeds (system codec path) (fun _ => True) (body codec path save)
      c₂.shared () (.ret (.saved false)) (only absent pid 1) () := by
    have hgone : Disk.write (.remove 0 tmp) .removed
        (only (Function.update absent tmp (some data)) pid 1) = only absent pid 1 := by
      simp [Disk.write, Disk.set, only, absent]
    rw [hc₂, ← hgone]
    exact proceeds_fails hok trivial _ ⟨only_alive, fun _ => by simp [only, tmp], by simp⟩
  obtain ⟨c₃, th₃, hrun₃, -, -, hc₃, hlen₃, hold₃⟩ := exists_call save hremoves
  obtain ⟨c₄, hrun₄, hc₄, hle₄, hold₄⟩ := exists_fails (2 ^ 64 - 1) (by norm_num) hc₃
  -- and the one after it creates the file anew
  obtain ⟨p, hcreates⟩ : ∃ p, Proceeds (system codec path) (fun _ => True) (body codec path save)
      c₄.shared () p (only (Function.update absent tmp (some [])) pid 1) () := by
    rw [hc₄]
    exact ⟨_, (proceeds_creates hok trivial rfl).bind _⟩
  obtain ⟨c₅, th₅, hrun₅, -, -, hc₅, hlen₅, hold₅⟩ := exists_call save hcreates
  -- the first save goes on
  have hi₅ : c₅.threads[1]? = some th := by
    rw [hold₅ 1 (by omega), hold₄ 1 (by omega), hold₃ 1 (by omega), hold₂ 1 (by omega), ← hlen₀]
    exact hi₁
  obtain ⟨l, c₆, hstep, -, hbefore, hsaved, halive, hfile⟩ := exists_rename hi₅ hprog hc₅
    (Function.update_self _ _ _)
  obtain ⟨c₇, k, hrun₇, hnot, hloaded⟩ := exists_load halive
  refine ⟨c₅, c₆, c₇, l, 1, k, ?_, hstep, hbefore, hsaved, hrun₇, hnot, ?_⟩
  · have hrun₀' := hrun₀.mono fun _ _ _ h => h.imp hok
    exact ((((hrun₀'.trans hrun₁).trans hrun₂).trans hrun₃).trans hrun₄).trans hrun₅
  · rw [hloaded, hfile]
    simp [decoded, hempty]

/-- **A counter that wraps around**: a save succeeds, nothing clears the file, and a load returns
nothing. -/
theorem torn_after_wrap : ∃ (c c₁ c₂ : Config (system sampleCodec "token.json"))
    (l : Label signature) (i k : ℕ),
    Run (fun _ _ _ => True) (start sampleCodec "token.json" fun _ => none) c ∧ Step c l c₁ ∧
      c.returned i = none ∧ c₁.returned i = some (.saved true) ∧
      Run (fun _ l _ => l.Sat fun ev => ¬ Clears "token.json" ev) c₁ c₂ ∧
      c₁.returned k = none ∧ c₂.returned k = some (.loaded none) := by
  have hempty : sampleCodec.fromSlice [] = none := by decide +kernel
  obtain ⟨c, c₁, c₂, l, i, k, hrun, hstep, hbefore, hsaved, hrun₂, hnot, hloaded⟩ :=
    exists_torn sampleCodec "token.json" hempty 4711
  exact ⟨c, c₁, c₂, l, i, k, hrun.mono fun _ _ _ _ => trivial, hstep, hbefore, hsaved,
    hrun₂.mono fun _ _ _ h => h.imp fun _ h => h.2, hnot, hloaded⟩

end LatteRs.Storage
