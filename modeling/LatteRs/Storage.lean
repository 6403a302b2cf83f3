import LatteRs.Concurrent.Pool
import LatteRs.Time
import LatteRs.Domain
import Mathlib.Data.List.TakeWhile
import Mathlib.Logic.Function.Basic

/-!
# The cache file

The module `storage.rs`, as programs over a file system that is a map from names
to contents.  Names are those of the files in the directory of the cache file.
Threads belong to processes, which start, die at any point and leave their
temporary files behind; a process id is free again when its process has died.

* `CachedActivation`, `Codec`: the record and its JSON;
* `withExtension`, `tmpName`, `tmpName_ne` and `tmpName_inj`: temporary names are
  not the name of the cache file, and tell process ids and counts apart;
* `load`, `save`, `clear`;
* `Disk`, `system`: what the operations do and may answer.
-/

namespace LatteRs.Storage

open Concurrent

/-- The record in the file. -/
structure CachedActivation where
  timestamp : ℤ
  token : String
  submaster : String
  project : String
  daily : String
  deriving DecidableEq

/-- `serde_json` on a record, whose `timestamp` is an `i64`: decoding undoes encoding. -/
structure Codec where
  toVec : CachedActivation → List UInt8
  fromSlice : List UInt8 → Option CachedActivation
  fromSlice_toVec : ∀ record, Checked.InI64 record.timestamp →
    fromSlice (toVec record) = some record

/-- The record of a save at `now`. -/
def CachedActivation.of (now : SystemTime) (token : String) (chain : CertChain) :
    CachedActivation where
  timestamp := ((now.durationSince SystemTime.unixEpoch).map fun d => ((d / 10 ^ 9 : ℕ) : ℤ)).getD 0
  token := token
  submaster := chain.submaster
  project := chain.project
  daily := chain.daily

/-- The token and the chain of a record. -/
def CachedActivation.activation (record : CachedActivation) : String × CertChain :=
  (record.token, ⟨record.submaster, record.project, record.daily⟩)

@[simp] theorem activation_of (now : SystemTime) (token : String) (chain : CertChain) :
    (CachedActivation.of now token chain).activation = (token, chain) := rfl

/-- The time of a save fits. -/
theorem timestamp_bounds (now : SystemTime) (token : String) (chain : CertChain) :
    0 ≤ (CachedActivation.of now token chain).timestamp ∧
      (CachedActivation.of now token chain).timestamp < 2 ^ 63 := by
  have hlt := now.nanos_lt
  show 0 ≤ ((now.durationSince SystemTime.unixEpoch).map fun d => ((d / 10 ^ 9 : ℕ) : ℤ)).getD 0 ∧ _
  unfold CachedActivation.of SystemTime.durationSince
  split_ifs with hle
  · have hepoch : SystemTime.unixEpoch.nanos = 0 := rfl
    have hnanos : 0 ≤ now.nanos := hle
    rw [hepoch, sub_zero]
    simp only [Option.map_some, Option.getD_some]
    omega
  · exact ⟨le_refl 0, by norm_num⟩

/-- What a save writes is read back. -/
theorem Codec.fromSlice_of (codec : Codec) (now : SystemTime) (token : String)
    (chain : CertChain) : codec.fromSlice (codec.toVec (.of now token chain)) =
      some (.of now token chain) := by
  obtain ⟨hmin, hmax⟩ := timestamp_bounds now token chain
  refine codec.fromSlice_toVec _ ⟨?_, ?_⟩
  · unfold Binary64.i64Min
    omega
  · unfold Binary64.i64Max
    omega

/-! ### Names -/

/-- `Path::file_stem`: the name up to its last dot, unless nothing or no dot is there. -/
def fileStem (name : List Char) : List Char :=
  match name.reverse.dropWhile fun c => c ≠ '.' with
  | [] => name
  | _ :: before => if before = [] then name else before.reverse

/-- `Path::with_extension`, for an extension that is not empty. -/
def withExtension (name extension : String) : String :=
  String.ofList (fileStem name.toList ++ '.' :: extension.toList)

/-- The temporary file of a save. -/
def tmpName (path : String) (pid count : ℕ) : String :=
  withExtension path s!"json.{pid}.{count}.tmp"

theorem toList_tmpName (path : String) (pid count : ℕ) :
    (tmpName path pid count).toList = fileStem path.toList ++ ".json.".toList ++
      (Nat.toDigits 10 pid ++ '.' :: (Nat.toDigits 10 count ++ ".tmp".toList)) := by
  have hname : tmpName path pid count = String.ofList (fileStem path.toList ++
      '.' :: ("json." ++ toString pid ++ "." ++ toString count ++ ".tmp").toList) := rfl
  rw [hname]
  simp

theorem dot_notMem_toDigits (n : ℕ) : '.' ∉ Nat.toDigits 10 n := by
  intro h
  exact absurd (Nat.isDigit_of_mem_toDigits (by decide) (by decide) h) (by decide)

theorem toDigits_injective : Function.Injective (Nat.toDigits 10) := by
  intro m n h
  rw [← @Nat.ofDigitChars_ten_toDigits m, h, Nat.ofDigitChars_ten_toDigits]

/-- What follows the last dot of a name has none. -/
theorem fileStem_cases (name : List Char) :
    fileStem name = name ∨ ∃ rest, name = fileStem name ++ '.' :: rest ∧ '.' ∉ rest := by
  unfold fileStem
  have hsplit := List.takeWhile_append_dropWhile (p := fun c => decide (c ≠ '.'))
    (l := name.reverse)
  have hrest : '.' ∉ name.reverse.takeWhile fun c => c ≠ '.' := by
    intro h
    simpa using List.mem_takeWhile_imp h
  split
  · exact Or.inl rfl
  next c before hdrop =>
    have hc : c = '.' := by
      have := List.head?_dropWhile_not (fun c => decide (c ≠ '.')) name.reverse
      rw [hdrop] at this
      simpa using this
    subst hc
    by_cases hbefore : before = []
    · exact Or.inl (if_pos hbefore)
    · refine Or.inr ⟨(name.reverse.takeWhile fun c => c ≠ '.').reverse, ?_, by simpa using hrest⟩
      rw [if_neg hbefore]
      have := congrArg List.reverse hsplit
      rw [hdrop, List.reverse_append, List.reverse_reverse] at this
      simpa using this.symm

/-- The temporary file of a save is not the cache file. -/
theorem tmpName_ne (path : String) (pid count : ℕ) : tmpName path pid count ≠ path := by
  intro h
  have hlist := congrArg String.toList h
  rw [toList_tmpName] at hlist
  have hcases := fileStem_cases path.toList
  generalize fileStem path.toList = stem at hlist hcases
  rcases hcases with rfl | ⟨rest, hpath, hrest⟩
  · -- a name without an extension gets longer
    have hlen := congrArg List.length hlist
    simp at hlen
  · -- the last extension has no dot and the temporary one has
    rw [hpath, List.append_assoc] at hlist
    have htail := List.append_cancel_left hlist
    simp only [String.reduceToList, List.cons_append, List.nil_append, List.cons.injEq,
      true_and] at htail
    exact hrest (by simp [← htail])

/-- Temporary names tell process ids and counts apart. -/
theorem tmpName_inj {path : String} {pid pid' count count' : ℕ} :
    tmpName path pid count = tmpName path pid' count' ↔ pid = pid' ∧ count = count' := by
  refine ⟨fun h => ?_, fun ⟨hp, hc⟩ => by rw [hp, hc]⟩
  have hlist := congrArg String.toList h
  rw [toList_tmpName, toList_tmpName] at hlist
  have htail := List.append_cancel_left hlist
  rw [← List.cons_append, ← List.append_assoc, ← List.cons_append, ← List.append_assoc] at htail
  have hparts := List.append_cancel_right htail
  rw [List.append_cons_inj_of_notMem (dot_notMem_toDigits pid) (dot_notMem_toDigits count)]
    at hparts
  exact ⟨toDigits_injective hparts.1, toDigits_injective hparts.2.2⟩

/-! ### Operations -/

/-- What the removal of a file ends with. -/
inductive Removal
  | removed
  | notFound
  | failed
  deriving DecidableEq

/-- The operations; those of a program say which process makes them. -/
inductive Effect
  | boot (pid : ℕ)
  | kill (proc : ℕ)
  | createDirAll (proc : ℕ)
  | clock (proc : ℕ)
  | processId (proc : ℕ)
  | fetchAdd (proc : ℕ)
  | createNew (proc : ℕ) (name : String)
  | append (proc : ℕ) (name : String) (byte : UInt8)
  | rename (proc : ℕ) (src dst : String)
  | remove (proc : ℕ) (name : String)
  | read (proc : ℕ) (name : String)

@[reducible] def Answer : Effect → Type
  | .boot _ => Bool
  | .kill _ => Unit
  | .createDirAll _ => Bool
  | .clock _ => SystemTime
  | .processId _ => ℕ
  | .fetchAdd _ => ℕ
  | .createNew .. => Bool
  | .append .. => Bool
  | .rename .. => Bool
  | .remove .. => Removal
  | .read .. => Option (List UInt8)

/-- The start and the death of a process, and the calls of its threads. -/
inductive Task
  | boot (pid : ℕ)
  | kill (proc : ℕ)
  | load (proc : ℕ)
  | save (proc : ℕ) (token : String) (chain : CertChain)
  | clear (proc : ℕ)

inductive Outcome
  | booted (started : Bool)
  | killed
  | loaded (result : Option (String × CertChain))
  | saved (done : Bool)
  | cleared (done : Bool)

@[reducible] def signature : Signature := ⟨Effect, Answer, Task, Outcome⟩

abbrev Act (α : Type) := Program signature α

def perform (e : Effect) : Act (Answer e) := Program.perform (S := signature) e

variable (codec : Codec) (path : String)

/-- `fs::read` is one operation: a file that is open is not changed by a rename over its name. -/
def load (proc : ℕ) : Act (Option (String × CertChain)) := do
  match ← perform (.read proc path) with
  | none => .ret none
  | some data => .ret ((codec.fromSlice data).map CachedActivation.activation)

/-- `write_all`, which others can see half done.  The open file goes by its name, under which
nobody else puts another file (`Tidy.others_step`). -/
def writeAll (proc : ℕ) (name : String) : List UInt8 → Act Bool
  | [] => .ret true
  | byte :: rest => do
    match ← perform (.append proc name byte) with
    | false => .ret false
    | true => writeAll proc name rest

/-- The part of `save` from the new file to the rename. -/
def writeNew (proc : ℕ) (tmp : String) (data : List UInt8) : Act Bool := do
  match ← perform (.createNew proc tmp) with
  | false => .ret false
  | true => do
    match ← writeAll proc tmp data with
    | false => .ret false
    | true => perform (.rename proc tmp path)

def save (proc : ℕ) (token : String) (chain : CertChain) : Act Bool := do
  match ← perform (.createDirAll proc) with
  | false => .ret false
  | true => do
    let now ← perform (.clock proc)
    let data := codec.toVec (.of now token chain)
    let pid ← perform (.processId proc)
    let count ← perform (.fetchAdd proc)
    let tmp := tmpName path pid count
    match ← writeNew path proc tmp data with
    | true => .ret true
    | false => do
      let _ ← perform (.remove proc tmp)
      .ret false

def clear (proc : ℕ) : Act Bool := do
  match ← perform (.remove proc path) with
  | .removed => .ret true
  | .notFound => .ret true
  | .failed => .ret false

def body : Task → Act Outcome
  | .boot pid => do .ret (.booted (← perform (.boot pid)))
  | .kill proc => do
    let _ ← perform (.kill proc)
    .ret .killed
  | .load proc => do .ret (.loaded (← load codec path proc))
  | .save proc token chain => do .ret (.saved (← save codec path proc token chain))
  | .clear proc => do .ret (.cleared (← clear path proc))

/-! ### The file system and the processes -/

/-- A process, with the `COUNTER` that its saves share, a `u64` that wraps around. -/
structure Process where
  pid : ℕ
  alive : Bool
  counter : ℕ

structure Disk where
  files : String → Option (List UInt8)
  /-- The processes in the order in which they were started, the dead ones included. -/
  procs : List Process

namespace Disk

def Alive (d : Disk) (proc : ℕ) : Prop := d.procs[proc]?.map Process.alive = some true

def set (d : Disk) (name : String) (content : Option (List UInt8)) : Disk :=
  { d with files := Function.update d.files name content }

@[simp] theorem set_files_self (d : Disk) (name : String) (content : Option (List UInt8)) :
    (d.set name content).files name = content :=
  Function.update_self _ _ _

theorem set_files_of_ne (d : Disk) {name n : String} (h : n ≠ name)
    (content : Option (List UInt8)) : (d.set n content).files name = d.files name :=
  Function.update_of_ne (Ne.symm h) _ _

def setProc (d : Disk) (proc : ℕ) (f : Process → Process) : Disk :=
  { d with procs := d.procs.modify proc f }

/-- What an operation with its answer does. -/
def write : (e : Effect) → Answer e → Disk → Disk
  | .boot pid, true, d => { d with procs := d.procs ++ [⟨pid, true, 0⟩] }
  | .kill proc, _, d => d.setProc proc fun p => { p with alive := false }
  | .fetchAdd proc, _, d => d.setProc proc fun p => { p with counter := (p.counter + 1) % 2 ^ 64 }
  | .createNew _ name, true, d => d.set name (some [])
  | .append _ name byte, true, d => d.set name ((d.files name).map (· ++ [byte]))
  | .rename _ src dst, true, d => (d.set src none).set dst (d.files src)
  | .remove _ name, .removed, d => d.set name none
  | _, _, d => d

/-- The answers an operation may get.  Only living processes operate, no two of them have one
process id, and every operation but a read may fail. -/
def admits : (e : Effect) → Disk → Answer e → Prop
  | .boot pid, d, started => started = true → ∀ p ∈ d.procs, p.alive = true → p.pid ≠ pid
  | .kill _, _, _ => True
  | .createDirAll proc, d, _ => d.Alive proc
  | .clock proc, d, _ => d.Alive proc
  | .processId proc, d, pid => d.Alive proc ∧ d.procs[proc]?.map Process.pid = some pid
  | .fetchAdd proc, d, count => d.Alive proc ∧ d.procs[proc]?.map Process.counter = some count
  | .createNew proc name, d, created => d.Alive proc ∧ (created = true → d.files name = none)
  | .append proc _ _, d, _ => d.Alive proc
  | .rename proc src _, d, done => d.Alive proc ∧ (done = true → d.files src ≠ none)
  | .remove proc name, d, removal => d.Alive proc ∧
      (removal = .removed → d.files name ≠ none) ∧ (removal = .notFound → d.files name = none)
  | .read proc name, d, data => d.Alive proc ∧ data = d.files name

end Disk

/-- The threads of all processes over one file system. -/
@[reducible] def system : System signature where
  Shared := Disk
  World := Unit
  admits e d _ := Disk.admits e d
  write := Disk.write
  advance _ _ _ := ()
  forked _ d := d
  body := body codec path
  handler _ := .ret .killed
  callable _ := True
  mayPanic _ := False

/-- A file system with these files, before any process has started. -/
def start (files : String → Option (List UInt8)) : Config (system codec path) :=
  Config.init ⟨files, []⟩ ()

end LatteRs.Storage
