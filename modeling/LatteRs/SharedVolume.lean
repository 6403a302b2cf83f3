import LatteRs.Concurrent.Traces
import LatteRs.Storage

/-!
# Saves on a shared volume

The `save` of `storage.rs` by processes of any number on one volume, containers
in which process ids coincide included.  What is under a name may change while a
save has its file open, so files are told apart from their names here: a file is
the number it was created as.

* `Volume`, with `create`, `append`, `rename` and `unlink`;
* `save`, step by step as in the source;
* `created`, `held`, `Renamed`: what a save has done so far;
* `habits`, `habits_sound`: it renames only what it holds, and removes that or what it could
  not create.
-/

namespace LatteRs.SharedVolume

open Concurrent
open Storage (CachedActivation Codec Removal tmpName tmpName_ne)

/-! ### The volume -/

/-- A process: its id, which others may have too, and the `COUNTER` that its saves share, a `u64`
that wraps around. -/
structure Process where
  pid : ℕ
  counter : ℕ

structure Volume where
  names : String → Option ℕ
  /-- What the files hold, in the order in which they were created. -/
  contents : List (List UInt8)
  procs : List Process
  /-- What is under a name has been created. -/
  there : ∀ {name : String} {file : ℕ}, names name = some file → file < contents.length

namespace Volume

/-- A new file under a name. -/
def create (v : Volume) (name : String) : Volume where
  names := Function.update v.names name (some v.contents.length)
  contents := v.contents ++ [[]]
  procs := v.procs
  there {n file} h := by
    rw [List.length_append, List.length_singleton]
    by_cases hn : n = name
    · subst hn
      rw [Function.update_self] at h
      cases h
      exact Nat.lt_succ_self _
    · rw [Function.update_of_ne hn] at h
      exact Nat.lt_succ_of_lt (v.there h)

def append (v : Volume) (file : ℕ) (byte : UInt8) : Volume where
  names := v.names
  contents := v.contents.modify file (· ++ [byte])
  procs := v.procs
  there h := by
    rw [List.length_modify]
    exact v.there h

/-- The file under `src` gets the name `dst` instead. -/
def rename (v : Volume) (src dst : String) : Volume where
  names := Function.update (Function.update v.names src none) dst (v.names src)
  contents := v.contents
  procs := v.procs
  there {n file} h := by
    by_cases hdst : n = dst
    · subst hdst
      rw [Function.update_self] at h
      exact v.there h
    · rw [Function.update_of_ne hdst] at h
      by_cases hsrc : n = src
      · subst hsrc
        rw [Function.update_self] at h
        cases h
      · rw [Function.update_of_ne hsrc] at h
        exact v.there h

def unlink (v : Volume) (name : String) : Volume where
  names := Function.update v.names name none
  contents := v.contents
  procs := v.procs
  there {n file} h := by
    by_cases hn : n = name
    · subst hn
      rw [Function.update_self] at h
      cases h
    · rw [Function.update_of_ne hn] at h
      exact v.there h

end Volume

/-! ### Operations -/

/-- The operations.  An open file is written to whatever its name is by then. -/
inductive Effect
  | boot (pid : ℕ)
  | createDirAll
  | clock
  | processId (proc : ℕ)
  | fetchAdd (proc : ℕ)
  | createNew (name : String)
  | append (file : ℕ) (byte : UInt8)
  | rename (src dst : String)
  | remove (name : String)

@[reducible] def Answer : Effect → Type
  | .boot _ => Unit
  | .createDirAll => Bool
  | .clock => SystemTime
  | .processId _ => ℕ
  | .fetchAdd _ => ℕ
  | .createNew _ => Option ℕ
  | .append .. => Bool
  | .rename .. => Bool
  | .remove _ => Removal

/-- The start of a process, and a save by one. -/
inductive Task
  | boot (pid : ℕ)
  | save (proc : ℕ) (token : String) (chain : CertChain)

inductive Outcome
  | booted
  | saved (done : Bool)
  deriving DecidableEq

@[reducible] def signature : Signature := ⟨Effect, Answer, Task, Outcome⟩

abbrev Act (α : Type) := Program signature α

def perform (e : Effect) : Act (Answer e) := Program.perform (S := signature) e

variable (codec : Codec) (path : String)

def writeAll (file : ℕ) : List UInt8 → Act Bool
  | [] => .ret true
  | byte :: rest => do
    match ← perform (.append file byte) with
    | false => .ret false
    | true => writeAll file rest

/-- The part of `save` from the new file to the rename. -/
def writeNew (tmp : String) (data : List UInt8) : Act Bool := do
  match ← perform (.createNew tmp) with
  | none => .ret false
  | some file => do
    match ← writeAll file data with
    | false => .ret false
    | true => perform (.rename tmp path)

def save (proc : ℕ) (token : String) (chain : CertChain) : Act Bool := do
  match ← perform .createDirAll with
  | false => .ret false
  | true => do
    let now ← perform .clock
    let data := codec.toVec (.of now token chain)
    let pid ← perform (.processId proc)
    let count ← perform (.fetchAdd proc)
    let tmp := tmpName path pid count
    match ← writeNew path tmp data with
    | true => .ret true
    | false => do
      let _ ← perform (.remove tmp)
      .ret false

def body : Task → Act Outcome
  | .boot pid => do
    let _ ← perform (.boot pid)
    .ret .booted
  | .save proc token chain => do .ret (.saved (← save codec path proc token chain))

namespace Volume

/-- What an operation with its answer does. -/
def write : (e : Effect) → Answer e → Volume → Volume
  | .boot pid, _, v => { v with procs := v.procs ++ [⟨pid, 0⟩] }
  | .fetchAdd proc, _, v =>
    { v with procs := v.procs.modify proc fun p => { p with counter := (p.counter + 1) % 2 ^ 64 } }
  | .createNew name, some _, v => v.create name
  | .append file byte, true, v => v.append file byte
  | .rename src dst, true, v => v.rename src dst
  | .remove name, .removed, v => v.unlink name
  | _, _, v => v

/-- The answers an operation may get.  A process may have any id, and may stop at any point by
making no more steps; every operation on files may fail. -/
def admits : (e : Effect) → Volume → Answer e → Prop
  | .processId proc, v, pid => v.procs[proc]?.map Process.pid = some pid
  | .fetchAdd proc, v, count => v.procs[proc]?.map Process.counter = some count
  | .createNew name, v, created => ∀ file ∈ created, v.names name = none ∧ file = v.contents.length
  | .rename src _, v, done => done = true → v.names src ≠ none
  | .remove name, v, removal =>
    (removal = .removed → v.names name ≠ none) ∧ (removal = .notFound → v.names name = none)
  | _, _, _ => True

end Volume

/-- The threads of all processes over one volume. -/
@[reducible] def system : System signature where
  Shared := Volume
  World := Unit
  admits e v _ := Volume.admits e v
  write := Volume.write
  advance _ _ _ := ()
  forked _ v := v
  body := body codec path
  handler _ := .ret .booted
  callable _ := True
  mayPanic _ := False

/-- A volume on which no process has started a save. -/
def start (v : Volume) : Config (system codec path) := Config.init v ()

/-! ### What a save has done -/

/-- The file that an operation creates. -/
def creates : Event signature → Option ℕ
  | .did (.createNew _) file => file
  | _ => none

/-- The files that a save has created. -/
def created (h : Past signature) : List ℕ := h.filterMap creates

/-- The file that a save has created and not yet renamed or removed, with its name. -/
def held : Past signature → Option (String × ℕ)
  | [] => none
  | .did (.createNew name) (some file) :: _ => some (name, file)
  | .did (.rename ..) true :: _ => none
  | .did (.remove _) _ :: _ => none
  | _ :: h => held h

/-- The save has renamed its file. -/
def Renamed (h : Past signature) : Prop := ∃ src dst, .did (.rename src dst) true ∈ h

theorem mem_created_cons {ev : Event signature} {h : Past signature} {file : ℕ} :
    file ∈ created (ev :: h) ↔ creates ev = some file ∨ file ∈ created h := by
  simp [created]

/-- What is held has been created. -/
theorem created_of_held {h : Past signature} {name : String} {file : ℕ}
    (hheld : held h = some (name, file)) : file ∈ created h := by
  fun_induction held h with
  | case2 n f h =>
    cases hheld
    exact mem_created_cons.2 (Or.inl rfl)
  | case5 ev h hcreate hrename hremove ih => exact mem_created_cons.2 (Or.inr (ih hheld))
  | _ => cases hheld

theorem renamed_cons {ev : Event signature} {h : Past signature} (hren : Renamed (ev :: h))
    (hev : ∀ src dst, ev ≠ .did (.rename src dst) true) : Renamed h := by
  obtain ⟨src, dst, hmem⟩ := hren
  rcases List.mem_cons.1 hmem with heq | hmem
  · exact absurd heq.symm (hev src dst)
  · exact ⟨src, dst, hmem⟩

/-! ### Habits -/

/-- The operations of a save after its past. -/
inductive Goes (path : String) (h : Past signature) : Event signature → Prop
  | createDirAll (made : Bool) : Goes path h (.did .createDirAll made)
  | clock (now : SystemTime) : Goes path h (.did .clock now)
  | processId (proc pid : ℕ) : Goes path h (.did (.processId proc) pid)
  | fetchAdd (proc count : ℕ) : Goes path h (.did (.fetchAdd proc) count)
  | createNew {name : String} (file : Option ℕ) (hname : name ≠ path) :
    Goes path h (.did (.createNew name) file)
  | append {name : String} {file : ℕ} (byte : UInt8) (done : Bool)
    (hheld : held h = some (name, file)) : Goes path h (.did (.append file byte) done)
  | rename {name : String} {file : ℕ} (done : Bool) (hheld : held h = some (name, file)) :
    Goes path h (.did (.rename name path) done)
  | remove {name : String} (removal : Removal) (hname : name ≠ path)
    (hleft : created h = [] ∨ ∃ file, held h = some (name, file)) :
    Goes path h (.did (.remove name) removal)

def Does : Task → Past signature → Event signature → Prop
  | .boot pid, _, ev => ev = .did (.boot pid) ()
  | .save .., h, ev => Goes path h ev

/-- A save succeeds when it has renamed its file. -/
def ReturnsAfter : Task → Past signature → Outcome → Prop
  | .boot _, _, out => out = .booted
  | .save .., h, out => ∃ done, out = .saved done ∧ (done = true ↔ Renamed h)

@[reducible] def habits : Habits signature where
  Does := Does path
  Aborts _ _ := False
  Returns := ReturnsAfter

section
variable {codec path} {proc : ℕ} {token : String} {chain : CertChain} {tmp : String}
  {h : Past signature}

/-- The loop of `write_all` goes on with the file that it was given. -/
theorem traced_writeAll {file : ℕ} {rest : List UInt8} {Q : Past signature → Bool → Prop}
    (hheld : held h = some (tmp, file)) (hnot : ¬ Renamed h)
    (hq : ∀ h' done, held h' = some (tmp, file) → ¬ Renamed h' → Q h' done) :
    traced (habits path) (.save proc token chain) (writeAll file rest) Q h := by
  induction rest generalizing h with
  | nil => exact hq h true hheld hnot
  | cons byte rest ih =>
    intro done
    refine ⟨.append byte done hheld, ?_⟩
    have hnot' : ¬ Renamed (.did (.append file byte) done :: h) := by
      intro hren
      exact hnot (renamed_cons hren (by simp))
    cases done with
    | false => exact hq _ false hheld hnot'
    | true => exact ih hheld hnot'

/-- A save renames its file, or is left with it, or could not create it. -/
theorem traced_writeNew {data : List UInt8} {Q : Past signature → Bool → Prop}
    (htmp : tmp ≠ path) (hcreated : created h = []) (hnot : ¬ Renamed h)
    (hdone : ∀ h', Renamed h' → Q h' true)
    (hfail : ∀ h', ¬ Renamed h' → (created h' = [] ∨ ∃ file, held h' = some (tmp, file)) →
      Q h' false) :
    traced (habits path) (.save proc token chain) (writeNew path tmp data) Q h := by
  unfold writeNew
  refine traced_bind.2 fun answer => ⟨.createNew answer htmp, ?_⟩
  have hnot' : ¬ Renamed (.did (.createNew tmp) answer :: h) := by
    intro hren
    exact hnot (renamed_cons hren (by simp))
  cases answer with
  | none => exact hfail _ hnot' (Or.inl hcreated)
  | some file =>
    have hnew : held (.did (.createNew tmp) (some file) :: h) = some (tmp, file) := rfl
    refine traced_bind.2 (traced_writeAll hnew hnot' fun h' done hheld hnot'' => ?_)
    cases done with
    | false => exact hfail h' hnot'' (Or.inr ⟨file, hheld⟩)
    | true =>
      intro done
      refine ⟨.rename done hheld, ?_⟩
      cases done with
      | false =>
        refine hfail _ (fun hren => hnot'' (renamed_cons hren (by simp))) (Or.inr ⟨file, hheld⟩)
      | true => exact hdone _ ⟨tmp, path, List.mem_cons_self⟩

theorem traced_save : traced (habits path) (.save proc token chain)
    (save codec path proc token chain) (fun h done => done = true ↔ Renamed h) [] := by
  unfold save
  refine traced_bind.2 fun made => ⟨.createDirAll made, ?_⟩
  cases made with
  | false => simp [Renamed, traced]
  | true =>
    refine traced_bind.2 fun now => ⟨.clock now, traced_bind.2 fun pid => ⟨.processId proc pid, ?_⟩⟩
    refine traced_bind.2 fun count => ⟨.fetchAdd proc count, ?_⟩
    refine traced_bind.2 (traced_writeNew (tmpName_ne path pid count) rfl (by simp [Renamed])
      (fun h hren => ?_) fun h hnot hleft => ?_)
    · exact iff_of_true rfl hren
    · refine traced_bind.2 fun removal => ⟨.remove removal (tmpName_ne path pid count) hleft, ?_⟩
      exact iff_of_false Bool.false_ne_true fun hren => hnot (renamed_cons hren (by simp))

theorem habits_sound : (habits path).Sound (system codec path) where
  body t := by
    cases t with
    | boot pid => exact fun _ => ⟨rfl, rfl⟩
    | save proc token chain =>
      exact traced_bind.2 (traced_mono (fun h done hdone => ⟨done, rfl, hdone⟩) traced_save)
  handler t h hpanic := by
    rcases hpanic with hpanic | hpanic <;> exact hpanic.elim

end

end LatteRs.SharedVolume
