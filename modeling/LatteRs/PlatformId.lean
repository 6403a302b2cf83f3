import LatteRs.Setup
import LatteRs.TextLines

/-!
# The platform's machine id

What `machine_id.rs` reads from the system it is compiled for: a file, or the
output of a command.

* `platformId`, `readFile`, `run`, `parseIoreg`, `parseRegQuery`;
* `Usable`, `platformId_usable`: a blank value counts as none;
* `platform_values_read`: the ids in files, and in the lines of `ioreg` and
  `reg query`;
* `platform_ids_separate`: the machine ids of Sdks that take the platform's.
-/

namespace LatteRs

open Checked TextLines

/-- The systems with a `platform_id` of their own. -/
inductive Target
  | linux
  | macos
  | windows
  | freebsd
  | netbsd
  | openbsd
  | dragonfly
  | solaris
  | illumos
  | other
  deriving DecidableEq

/-- The files, commands and variables of a machine. -/
structure Os where
  /-- The bytes of a file, if it can be read. -/
  read : String → Option Bytes
  /-- Whether a command with these arguments exits with success, and its standard output, if it
  can be run. -/
  output : String → List String → Option (Bool × Bytes)
  /-- `SystemRoot`. -/
  systemRoot : Option String

/-! ### Texts -/

/-- `char::is_whitespace`. -/
def isWhitespace (c : Char) : Bool :=
  9 ≤ c.toNat ∧ c.toNat ≤ 13 ∨ 0x2000 ≤ c.toNat ∧ c.toNat ≤ 0x200A ∨
    c.toNat ∈ [0x20, 0x85, 0xA0, 0x1680, 0x2028, 0x2029, 0x202F, 0x205F, 0x3000]

/-- The characters of UTF-8 bytes. -/
def readUtf8 (bytes : Bytes) : Option (List Char) :=
  (String.fromUTF8? ⟨bytes.toArray⟩).map String.toList

def nonEmpty (s : List Char) : Option String :=
  let t := trim isWhitespace s
  if t = [] then none else some (String.ofList t)

def stripPrefix (pat s : List Char) : Option (List Char) :=
  if pat <+: s then some (s.drop pat.length) else none

/-- The lines of a text, without their `\n` or `\r\n`. -/
def textLines (s : List Char) : List (List Char) := lines '\n' '\r' s

/-! ### The platform's id -/

def readFile (os : Os) (path : String) : Option String := do
  let bytes ← os.read path
  let text ← readUtf8 bytes
  nonEmpty text

def run (os : Os) (program : String) (args : List String) : Option (List Char) := do
  let (success, stdout) ← os.output program args
  if success then readUtf8 stdout else none

def uuidKey : List Char := "IOPlatformUUID".toList

/-- The value on a line of `ioreg`. -/
def ioregValue (line : List Char) : Option String := do
  let (_, value) ← splitOnce "\" = \"".toList line
  nonEmpty (value.rdropWhile fun c => c = '"')

/-- The `IOPlatformUUID` value from `ioreg` output. -/
def parseIoreg (out : List Char) : Option String :=
  ((textLines out).filter fun line => uuidKey <:+: line).findSome? ioregValue

def guidKey : List Char := "MachineGuid".toList

/-- The value on a line of `reg query`. -/
def regValue (line : List Char) : Option String := do
  let rest ← stripPrefix guidKey (line.dropWhile isWhitespace)
  let value ← stripPrefix "REG_SZ".toList (rest.dropWhile isWhitespace)
  nonEmpty value

/-- The `MachineGuid` value from `reg query` output. -/
def parseRegQuery (out : List Char) : Option String := (textLines out).findSome? regValue

/-- A path that is a drive and no more. -/
def isDrive (path : String) : Bool :=
  match path.toList with
  | [c, ':'] => c.isAlpha
  | _ => false

/-- `Path::join` of a relative component on Windows, which puts no separator behind a drive. -/
def joinWindows (path component : String) : String :=
  if path = "" ∨ isDrive path ∨ path.toList.getLast? ∈ [some '\\', some '/'] then path ++ component
  else path ++ "\\" ++ component

/-- The path of `reg.exe`. -/
def regExe (os : Os) : String :=
  (os.systemRoot.map fun root => joinWindows (joinWindows root "System32") "reg.exe").getD
    "C:\\Windows\\System32\\reg.exe"

def regArgs : List String :=
  ["query", "HKLM\\SOFTWARE\\Microsoft\\Cryptography", "/v", "MachineGuid", "/reg:64"]

def ioregArgs : List String := ["-rd1", "-c", "IOPlatformExpertDevice"]

/-- `platform_id` of the BSDs, Solaris and illumos. -/
def hostId (os : Os) : Option String :=
  readFile os "/etc/hostid" <|> (run os "/bin/kenv" ["-q", "smbios.system.uuid"]).bind nonEmpty

def platformId (target : Target) (os : Os) : Option String :=
  match target with
  | .linux => readFile os "/var/lib/dbus/machine-id" <|> readFile os "/etc/machine-id"
  | .macos => (run os "/usr/sbin/ioreg" ioregArgs).bind parseIoreg
  | .windows => (run os (regExe os) regArgs).bind parseRegQuery
  | .freebsd | .netbsd | .openbsd | .dragonfly | .solaris | .illumos => hostId os
  | .other => none

/-- The host of an Sdk on a system. -/
def Os.host (os : Os) (target : Target) (sha256 : Sha256) (configDir : Option String) : Host :=
  ⟨sha256, platformId target os, configDir⟩

/-! ### Blank values -/

/-- Not blank, and without blanks around it. -/
structure Usable (id : String) : Prop where
  nonempty : id.toList ≠ []
  trimmed : Trimmed (isWhitespace ·) id.toList

def Blank (s : List Char) : Prop := ∀ c ∈ s, isWhitespace c = true

/-- The text is the value with blanks around it. -/
def Padded (id : String) (text : List Char) : Prop :=
  ∃ front back, Blank front ∧ Blank back ∧ text = front ++ id.toList ++ back

theorem nonEmpty_usable {s : List Char} {id : String} (h : nonEmpty s = some id) :
    Usable id ∧ Padded id s := by
  unfold nonEmpty at h
  by_cases hnil : trim isWhitespace s = []
  · simp only [if_pos hnil] at h
    cases h
  · simp only [if_neg hnil, Option.some.injEq] at h
    subst h
    refine ⟨⟨?_, ?_⟩, ?_⟩
    · rw [String.toList_ofList]
      exact hnil
    · rw [String.toList_ofList]
      exact trimmed_trim s
    · unfold Padded
      rw [String.toList_ofList]
      exact trim_parts isWhitespace s

theorem nonEmpty_padded {id : String} (h : Usable id) {text : List Char} (htext : Padded id text) :
    nonEmpty text = some id := by
  obtain ⟨front, back, hfront, hback, rfl⟩ := htext
  have htrim : trim isWhitespace (front ++ id.toList ++ back) = id.toList :=
    trim_pad h.trimmed h.nonempty hfront hback
  unfold nonEmpty
  simp only [htrim, if_neg h.nonempty, String.ofList_toList]

theorem nonEmpty_eq_some {s : List Char} {id : String} :
    nonEmpty s = some id ↔ Usable id ∧ Padded id s :=
  ⟨nonEmpty_usable, fun h => nonEmpty_padded h.1 h.2⟩

theorem nonEmpty_eq_none {s : List Char} : nonEmpty s = none ↔ Blank s := by
  unfold nonEmpty Blank
  rw [← trim_eq_nil]
  by_cases hnil : trim isWhitespace s = [] <;> simp [hnil]

/-! ### Files and commands -/

theorem readUtf8_asBytes (s : String) : readUtf8 (asBytes s) = some s.toList := by
  have hdec : String.fromUTF8? s.toByteArray = some s := by
    unfold String.fromUTF8?
    rw [dif_pos s.isValidUTF8]
    rfl
  show (String.fromUTF8? s.toByteArray).map String.toList = some s.toList
  rw [hdec]
  rfl

theorem readUtf8_eq_some {bytes : Bytes} {text : List Char} :
    readUtf8 bytes = some text ↔ bytes = asBytes (String.ofList text) := by
  constructor
  · intro h
    unfold readUtf8 String.fromUTF8? at h
    split_ifs at h with hvalid
    · cases h
      rw [String.ofList_toList]
      rfl
    · cases h
  · rintro rfl
    rw [readUtf8_asBytes, String.toList_ofList]

/-- The file holds the value with blanks around it. -/
def HasValue (os : Os) (path id : String) : Prop :=
  ∃ text, os.read path = some (asBytes text) ∧ Padded id text.toList

/-- The file cannot be read, is not UTF-8 or is blank. -/
def NoValue (os : Os) (path : String) : Prop :=
  ∀ text, os.read path = some (asBytes text) → Blank text.toList

theorem readFile_eq_some {os : Os} {path id : String} :
    readFile os path = some id ↔ Usable id ∧ HasValue os path id := by
  simp only [readFile, Option.bind_eq_bind, Option.bind_eq_some_iff, readUtf8_eq_some,
    nonEmpty_eq_some, HasValue]
  constructor
  · rintro ⟨bytes, hread, text, rfl, husable, hpadded⟩
    exact ⟨husable, _, hread, by rwa [String.toList_ofList]⟩
  · rintro ⟨husable, text, hread, hpadded⟩
    exact ⟨_, hread, text.toList, by rw [String.ofList_toList], husable, hpadded⟩

theorem readFile_eq_none {os : Os} {path : String} :
    readFile os path = none ↔ NoValue os path := by
  simp only [readFile, Option.bind_eq_bind, Option.bind_eq_none_iff, readUtf8_eq_some,
    nonEmpty_eq_none, NoValue]
  constructor
  · intro h text hread
    exact h _ hread _ (by rw [String.ofList_toList])
  · rintro h bytes hread text rfl
    have hblank := h _ hread
    rwa [String.toList_ofList] at hblank

theorem run_eq_some {os : Os} {program : String} {args : List String} {text : List Char} :
    run os program args = some text ↔
      os.output program args = some (true, asBytes (String.ofList text)) := by
  unfold run
  constructor
  · intro h
    obtain ⟨⟨success, stdout⟩, hout, htext⟩ := Option.bind_eq_some_iff.1 h
    cases success with
    | false => cases htext
    | true => rw [hout, readUtf8_eq_some.1 htext]
  · intro h
    rw [h, Option.bind_eq_bind, Option.bind_some]
    exact readUtf8_eq_some.2 rfl

theorem run_success {os : Os} {program out : String} {args : List String}
    (h : os.output program args = some (true, asBytes out)) :
    run os program args = some out.toList := by
  rw [run_eq_some, String.ofList_toList]
  exact h

theorem orElse_readFile {os : Os} {path id : String} {next : Option String} :
    (readFile os path <|> next) = some id ↔
      Usable id ∧ HasValue os path id ∨ NoValue os path ∧ next = some id := by
  rw [Option.orElse_eq_some, readFile_eq_some, readFile_eq_none]

theorem ioregValue_usable {line : List Char} {id : String} (h : ioregValue line = some id) :
    Usable id := by
  obtain ⟨parts, -, hvalue⟩ := Option.bind_eq_some_iff.1 h
  exact (nonEmpty_eq_some.1 hvalue).1

theorem regValue_usable {line : List Char} {id : String} (h : regValue line = some id) :
    Usable id := by
  obtain ⟨rest, -, hrest⟩ := Option.bind_eq_some_iff.1 h
  obtain ⟨value, -, hvalue⟩ := Option.bind_eq_some_iff.1 hrest
  exact (nonEmpty_eq_some.1 hvalue).1

theorem hostId_usable {os : Os} {id : String} (h : hostId os = some id) : Usable id := by
  unfold hostId at h
  rcases (Option.orElse_eq_some _ _ _).1 h with hfile | ⟨-, hrun⟩
  · exact (readFile_eq_some.1 hfile).1
  · obtain ⟨out, -, hvalue⟩ := Option.bind_eq_some_iff.1 hrun
    exact (nonEmpty_eq_some.1 hvalue).1

/-- A platform's id is not blank on any system. -/
theorem platformId_usable {target : Target} {os : Os} {id : String}
    (h : platformId target os = some id) : Usable id := by
  cases target with
  | linux =>
    rcases (Option.orElse_eq_some _ _ _).1 h with hfirst | ⟨-, hsecond⟩
    · exact (readFile_eq_some.1 hfirst).1
    · exact (readFile_eq_some.1 hsecond).1
  | macos =>
    obtain ⟨out, -, hparse⟩ := Option.bind_eq_some_iff.1 h
    obtain ⟨line, -, hvalue⟩ := List.exists_of_findSome?_eq_some hparse
    exact ioregValue_usable hvalue
  | windows =>
    obtain ⟨out, -, hparse⟩ := Option.bind_eq_some_iff.1 h
    obtain ⟨line, -, hvalue⟩ := List.exists_of_findSome?_eq_some hparse
    exact regValue_usable hvalue
  | freebsd | netbsd | openbsd | dragonfly | solaris | illumos => exact hostId_usable h
  | other => cases h

/-! ### Lines -/

/-- The text has the line, and no mention of `key` before it. -/
def HasLine (key line text : List Char) : Prop :=
  ∃ before ending after, text = before ++ (line ++ ending ++ after) ∧ EndsLine '\n' before ∧
    Ending '\n' '\r' ending after ∧ ¬ key <:+: before

theorem textLines_eq {key line text : List Char} (h : HasLine key line text)
    (hline : '\n' ∉ line) (hne : line ≠ []) (hlast : line.getLast? ≠ some '\r') :
    ∃ before after, textLines text = before ++ line :: after ∧ ∀ l ∈ before, ¬ key <:+: l := by
  obtain ⟨before, ending, after, rfl, hbefore, hending, hkey⟩ := h
  refine ⟨textLines before, textLines after,
    lines_line (by decide) hbefore hline hne hlast hending, ?_⟩
  intro l hl hin
  exact hkey (hin.trans (infix_of_mem_lines hl))

/-! ### Lines of `ioreg` -/

/-- A line with the `IOPlatformUUID` value. -/
def ioregLine (indent : List Char) (id : String) : List Char :=
  indent ++ "\"IOPlatformUUID\" = \"".toList ++ id.toList ++ ['"']

theorem ioregValue_line {indent : List Char} {id : String} (h : Usable id) (hindent : '=' ∉ indent)
    (hquote : id.toList.getLast? ≠ some '"') : ioregValue (ioregLine indent id) = some id := by
  -- a second `=` would stand before the first
  have honce : ¬ "\" = \"".toList <:+:
      (indent ++ "\"IOPlatformUUID".toList) ++ ("\" = \"".toList).dropLast := by
    rintro ⟨front, rest, heq⟩
    have hcut : (front ++ ['"', ' ']) ++ '=' :: ([' ', '"'] ++ rest) =
        (indent ++ "\"IOPlatformUUID\" ".toList) ++ '=' :: [' '] := by
      simpa using heq
    have hnotMem : '=' ∉ indent ++ "\"IOPlatformUUID\" ".toList := by
      rw [List.mem_append, not_or]
      exact ⟨hindent, by decide⟩
    have hparts := (List.append_cons_inj_of_notMem hnotMem (by decide)).1 hcut.symm
    simp at hparts
  have hsplit : splitOnce "\" = \"".toList (ioregLine indent id) =
      some (indent ++ "\"IOPlatformUUID".toList, id.toList ++ ['"']) := by
    have hline : ioregLine indent id = (indent ++ "\"IOPlatformUUID".toList) ++
        "\" = \"".toList ++ (id.toList ++ ['"']) := by
      unfold ioregLine
      simp only [List.append_assoc]
      rfl
    rw [hline]
    exact splitOnce_first (by decide) honce
  have hvalue : (id.toList ++ ['"']).rdropWhile (fun c => c = '"') = id.toList := by
    refine rdropWhile_pad ?_ (by simp)
    intro c hc
    have hne : c ≠ '"' := fun heq => hquote (by rw [← heq]; exact hc)
    simpa using hne
  unfold ioregValue
  rw [hsplit, Option.bind_eq_bind, Option.bind_some]
  show nonEmpty ((id.toList ++ ['"']).rdropWhile fun c => c = '"') = some id
  rw [hvalue]
  exact nonEmpty_padded h ⟨[], [], by simp [Blank], by simp [Blank], by simp⟩

theorem parseIoreg_line {indent text : List Char} {id : String} (h : Usable id)
    (hindent : '=' ∉ indent) (hnewline : '\n' ∉ indent ++ id.toList)
    (hquote : id.toList.getLast? ≠ some '"')
    (hline : HasLine uuidKey (ioregLine indent id) text) : parseIoreg text = some id := by
  rw [List.mem_append, not_or] at hnewline
  have hnotMem : '\n' ∉ ioregLine indent id := by
    unfold ioregLine
    simp only [List.mem_append, not_or]
    exact ⟨⟨⟨hnewline.1, by decide⟩, hnewline.2⟩, by decide⟩
  obtain ⟨before, after, hlines, hbefore⟩ := textLines_eq hline hnotMem
    (by simp [ioregLine]) (by simp only [ioregLine, List.getLast?_concat]; decide)
  have hkey : uuidKey <:+: ioregLine indent id := by
    have hquoted : uuidKey <:+: "\"IOPlatformUUID\" = \"".toList := by decide
    exact hquoted.trans ⟨indent, id.toList ++ ['"'], by simp only [ioregLine, List.append_assoc]⟩
  have hnone : before.filter (fun line => uuidKey <:+: line) = [] := by
    rw [List.filter_eq_nil_iff]
    intro l hl
    simpa using hbefore l hl
  unfold parseIoreg
  rw [hlines, List.filter_append, hnone, List.nil_append,
    List.filter_cons_of_pos (by simpa using hkey), List.findSome?_cons,
    ioregValue_line h hindent hquote]

example : parseIoreg "\x7b\n  \"IOPlatformUUID\" = \"4C4C-0042\"\n\x7d\n".toList =
    some "4C4C-0042" := by decide +kernel

/-- An output without the key has no value. -/
theorem parseIoreg_none {text : List Char} (h : ¬ uuidKey <:+: text) : parseIoreg text = none := by
  have hnone : (textLines text).filter (fun line => uuidKey <:+: line) = [] := by
    rw [List.filter_eq_nil_iff]
    intro l hl
    simpa using fun hin : uuidKey <:+: l => h (hin.trans (infix_of_mem_lines hl))
  unfold parseIoreg
  rw [hnone]
  rfl

/-! ### Lines of `reg query` -/

/-- A line with the `MachineGuid` value; the arguments other than the id are blank. -/
def regLine (indent gap gap' : List Char) (id : String) : List Char :=
  indent ++ guidKey ++ gap ++ "REG_SZ".toList ++ gap' ++ id.toList

theorem stripPrefix_append (pat rest : List Char) : stripPrefix pat (pat ++ rest) = some rest := by
  unfold stripPrefix
  rw [if_pos (List.prefix_append pat rest), List.drop_left]

theorem regValue_line {indent gap gap' : List Char} {id : String} (h : Usable id)
    (hindent : Blank indent) (hgap : Blank gap) (hgap' : Blank gap') :
    regValue (regLine indent gap gap' id) = some id := by
  have hkey : (regLine indent gap gap' id).dropWhile isWhitespace =
      guidKey ++ (gap ++ ("REG_SZ".toList ++ (gap' ++ id.toList))) := by
    unfold regLine
    simp only [List.append_assoc]
    exact dropWhile_pad (by intro c hc; cases hc; decide) hindent
  have htype : (gap ++ ("REG_SZ".toList ++ (gap' ++ id.toList))).dropWhile isWhitespace =
      "REG_SZ".toList ++ (gap' ++ id.toList) :=
    dropWhile_pad (by intro c hc; cases hc; decide) hgap
  unfold regValue
  simp only [hkey, stripPrefix_append, htype, Option.bind_eq_bind, Option.bind_some]
  exact nonEmpty_padded h ⟨gap', [], hgap', by simp [Blank], by simp⟩

/-- A line with a value mentions the key. -/
theorem key_of_regValue {line : List Char} {id : String} (h : regValue line = some id) :
    guidKey <:+: line := by
  obtain ⟨rest, hstrip, -⟩ := Option.bind_eq_some_iff.1 h
  unfold stripPrefix at hstrip
  split_ifs at hstrip with hprefix
  exact hprefix.isInfix.trans (List.dropWhile_suffix _).isInfix

theorem findSome_regValue {ls : List (List Char)} (h : ∀ l ∈ ls, ¬ guidKey <:+: l) :
    ls.findSome? regValue = none := by
  rw [List.findSome?_eq_none_iff]
  intro l hl
  cases hvalue : regValue l with
  | none => rfl
  | some id => exact absurd (key_of_regValue hvalue) (h l hl)

theorem parseRegQuery_line {indent gap gap' text : List Char} {id : String} (h : Usable id)
    (hindent : Blank indent) (hgap : Blank gap) (hgap' : Blank gap')
    (hnewline : '\n' ∉ indent ++ gap ++ gap' ++ id.toList)
    (hline : HasLine guidKey (regLine indent gap gap' id) text) :
    parseRegQuery text = some id := by
  simp only [List.mem_append, not_or] at hnewline
  have hnotMem : '\n' ∉ regLine indent gap gap' id := by
    unfold regLine
    simp only [List.mem_append, not_or]
    exact ⟨⟨⟨⟨⟨hnewline.1.1.1, by decide⟩, hnewline.1.1.2⟩, by decide⟩, hnewline.1.2⟩, hnewline.2⟩
  have hlast : (regLine indent gap gap' id).getLast? ≠ some '\r' := by
    intro hcr
    unfold regLine at hcr
    rw [List.getLast?_append_of_ne_nil _ h.nonempty] at hcr
    exact absurd (h.trimmed.last _ hcr) (by decide)
  obtain ⟨before, after, hlines, hbefore⟩ := textLines_eq hline hnotMem
    (by simp [regLine]) hlast
  unfold parseRegQuery
  rw [hlines, List.findSome?_append, findSome_regValue hbefore, List.findSome?_cons,
    regValue_line h hindent hgap hgap']
  rfl

example : parseRegQuery "\r\nHKEY\r\n    MachineGuid    REG_SZ    b08f\r\n\r\n".toList =
    some "b08f" := by decide +kernel

/-- An output without the key has no value. -/
theorem parseRegQuery_none {text : List Char} (h : ¬ guidKey <:+: text) :
    parseRegQuery text = none :=
  findSome_regValue fun _ hl hin => h (hin.trans (infix_of_mem_lines hl))

/-! ### Formats -/

/-- The output of `ioreg` has a line with the id first. -/
def IoregReports (id out : String) : Prop :=
  ∃ indent, '=' ∉ indent ∧ '\n' ∉ indent ++ id.toList ∧ id.toList.getLast? ≠ some '"' ∧
    HasLine uuidKey (ioregLine indent id) out.toList

/-- The output of `reg query` has a line with the id first. -/
def RegReports (id out : String) : Prop :=
  ∃ indent gap gap', Blank indent ∧ Blank gap ∧ Blank gap' ∧
    '\n' ∉ indent ++ gap ++ gap' ++ id.toList ∧
    HasLine guidKey (regLine indent gap gap' id) out.toList

/-- **The platform's id is read from every text of its format.**  On Linux and the systems with
`/etc/hostid` it is the value in the first of the sources that has one, without the blanks around
it, and nothing else; on macOS and Windows it is the value at the end of the line of a successful
command's output that mentions its key first, when that line has the format (nothing follows the
value but, on macOS, its quote), whatever the other lines are, and there is none when no line
mentions the key. -/
theorem platform_values_read (os : Os) (id : String) :
    (platformId .linux os = some id ↔ Usable id ∧ HasValue os "/var/lib/dbus/machine-id" id ∨
      NoValue os "/var/lib/dbus/machine-id" ∧ Usable id ∧ HasValue os "/etc/machine-id" id) ∧
    (∀ target ∈ [Target.freebsd, .netbsd, .openbsd, .dragonfly, .solaris, .illumos],
      platformId target os = some id ↔ Usable id ∧ HasValue os "/etc/hostid" id ∨
        NoValue os "/etc/hostid" ∧ Usable id ∧
          ∃ out, os.output "/bin/kenv" ["-q", "smbios.system.uuid"] = some (true, asBytes out) ∧
            Padded id out.toList) ∧
    (∀ out, os.output "/usr/sbin/ioreg" ioregArgs = some (true, asBytes out) →
      (Usable id → IoregReports id out → platformId .macos os = some id) ∧
        (¬ uuidKey <:+: out.toList → platformId .macos os = none)) ∧
    ∀ out, os.output (regExe os) regArgs = some (true, asBytes out) →
      (Usable id → RegReports id out → platformId .windows os = some id) ∧
        (¬ guidKey <:+: out.toList → platformId .windows os = none) := by
  refine ⟨?_, ?_, ?_, ?_⟩
  · show (readFile os _ <|> readFile os _) = some id ↔ _
    rw [orElse_readFile, readFile_eq_some]
  · intro target htarget
    have hhost : platformId target os = hostId os := by
      simp only [List.mem_cons, List.not_mem_nil, or_false] at htarget
      rcases htarget with rfl | rfl | rfl | rfl | rfl | rfl <;> rfl
    rw [hhost]
    unfold hostId
    rw [orElse_readFile, Option.bind_eq_some_iff]
    simp only [run_eq_some, nonEmpty_eq_some]
    refine or_congr_right (and_congr_right fun _ => ?_)
    constructor
    · rintro ⟨text, hout, husable, hpadded⟩
      exact ⟨husable, _, hout, by rwa [String.toList_ofList]⟩
    · rintro ⟨husable, out, hout, hpadded⟩
      exact ⟨out.toList, by rw [String.ofList_toList, hout], husable, hpadded⟩
  · intro out hout
    have hmacos : platformId .macos os = parseIoreg out.toList := by
      show (run os _ _).bind parseIoreg = _
      rw [run_success hout]
      rfl
    rw [hmacos]
    refine ⟨?_, parseIoreg_none⟩
    rintro husable ⟨indent, hindent, hnewline, hquote, hline⟩
    exact parseIoreg_line husable hindent hnewline hquote hline
  · intro out hout
    have hwindows : platformId .windows os = parseRegQuery out.toList := by
      show (run os _ _).bind parseRegQuery = _
      rw [run_success hout]
      rfl
    rw [hwindows]
    refine ⟨?_, parseRegQuery_none⟩
    rintro husable ⟨indent, gap, gap', hindent, hgap, hgap', hnewline, hline⟩
    exact parseRegQuery_line husable hindent hgap hgap' hnewline hline

def sampleIoreg : String := "+-o J316sAP\n  \x7b\n  \"IOPlatformUUID\" = \"4C4C-0042\"\n  \x7d\n"

/-- A machine with a blank first file, and with an output of `ioreg`. -/
def sampleOs : Os where
  read path :=
    if path = "/var/lib/dbus/machine-id" then some (asBytes " \n")
    else if path = "/etc/machine-id" then some (asBytes "4C4C-0042\n") else none
  output program _ :=
    if program = "/usr/sbin/ioreg" then some (true, asBytes sampleIoreg) else none
  systemRoot := none

theorem usable_sample : Usable "4C4C-0042" :=
  ⟨by decide, ⟨by intro c hc; cases hc; decide, by intro c hc; cases hc; decide⟩⟩

theorem platform_values_read_sample :
    platformId .linux sampleOs = some "4C4C-0042" ∧
      platformId .macos sampleOs = some "4C4C-0042" := by
  obtain ⟨hlinux, -, hmacos, -⟩ := platform_values_read sampleOs "4C4C-0042"
  refine ⟨hlinux.2 (Or.inr ⟨?_, usable_sample, ?_⟩), (hmacos _ rfl).1 usable_sample ?_⟩
  · intro text htext
    have hsame : asBytes " \n" = asBytes text := Option.some.inj htext
    rw [← asBytes_injective hsame]
    exact List.all_eq_true.1 (by decide)
  · exact ⟨_, rfl, [], ['\n'], by simp [Blank], List.all_eq_true.1 (by decide), by decide⟩
  · refine ⟨"  ".toList, by decide, by decide, by decide, ?_⟩
    refine ⟨"+-o J316sAP\n  \x7b\n".toList, ['\n'], "  \x7d\n".toList, by decide, ?_, .newline _,
      by decide⟩
    exact Or.inr ⟨"+-o J316sAP\n  \x7b".toList, by decide⟩

/-! ### Machine ids from the platform's -/

variable {P : Platform} {sha256 : Sha256}

/-- The configuration supplies no raw id. -/
def SdkConfig.NoRaw (config : SdkConfig) : Prop :=
  config.machineId = none ∨ config.machineId = some ""

theorem derive_platform {platform : Option String} {appId : String} {raw : Option String}
    (hraw : raw = none ∨ raw = some "") :
    derive sha256 platform appId raw = platform.map fun id => protect sha256 id appId := by
  rcases hraw with rfl | rfl <;> cases platform <;> rfl

/-- An id of at most a block, without NUL. -/
def FitsBlock (id : String) : Prop := (asBytes id).length ≤ 64 ∧ 0 ∉ asBytes id

/-- Short keys are read back from their blocks. -/
theorem keyBlock_injective {id id' : String} (hid : FitsBlock id) (hid' : FitsBlock id')
    (h : keyBlock sha256 id = keyBlock sha256 id') : id = id' := by
  have hkey : ∀ id, FitsBlock id →
      (keyBlock sha256 id).rdropWhile (fun b => b = 0) = asBytes id := by
    intro id hfits
    unfold keyBlock Hmac.keyBlock
    simp only [gt_iff_lt, if_neg (Nat.not_lt.2 hfits.1)]
    refine rdropWhile_pad ?_ (by simp)
    intro b hb
    have hne : b ≠ 0 := fun heq => hfits.2 (heq ▸ List.mem_of_getLast? hb)
    simpa using hne
  refine asBytes_injective ?_
  rw [← hkey id hid, ← hkey id' hid', h]

/-- A new Sdk without a supplied raw id has the platform's. -/
theorem Sdk.new_platform {target : Target} {os : Os} {configDir : Option String}
    {config : SdkConfig} {sdk : Sdk P} (hraw : config.NoRaw)
    (h : Sdk.new P (os.host target sha256 configDir) config = .ok sdk) :
    ∃ id, platformId target os = some id ∧ Usable id ∧
      sdk.machineId = protect sha256 id config.appId := by
  obtain ⟨-, hderive, -⟩ := Sdk.new_eq_ok h
  rw [derive_platform hraw] at hderive
  obtain ⟨id, hid, hprotect⟩ := Option.map_eq_some_iff.1 hderive
  exact ⟨id, hid, platformId_usable hid, hprotect.symm⟩

theorem mapM_eq_ok {ε α β : Type} {f : α → Checked ε β} {xs : List α}
    (h : ∀ x ∈ xs, ∃ y, f x = .ok y) : ∃ ys, xs.mapM f = .ok ys := by
  induction xs with
  | nil => exact ⟨[], rfl⟩
  | cons x xs ih =>
    obtain ⟨y, hy⟩ := h x List.mem_cons_self
    obtain ⟨ys, hys⟩ := ih fun x' hx' => h x' (List.mem_cons_of_mem _ hx')
    exact ⟨y :: ys, by rw [List.mapM_cons, hy, ok_bind, hys, ok_bind]; rfl⟩

/-- With a platform id there is an Sdk. -/
theorem Sdk.new_available {target : Target} {os : Os} {configDir : Option String}
    {config : SdkConfig} {parsed : AppId} {id : String} (hkeys : MasterKeysDecode P.toCrypto)
    (hraw : config.NoRaw) (hparsed : parseAppId config.appId = .ok parsed)
    (hid : platformId target os = some id) :
    ∃ sdk, Sdk.new P (os.host target sha256 configDir) config = .ok sdk ∧
      sdk.machineId = protect sha256 id config.appId := by
  have hderive : derive sha256 (platformId target os) config.appId config.machineId =
      some (protect sha256 id config.appId) := by
    rw [derive_platform hraw, hid]
    rfl
  obtain ⟨keys, hpubs⟩ : ∃ keys, (masterPublicKeys P.toCrypto : Checked LatteError _) =
      .ok keys := by
    refine mapM_eq_ok fun hexStr hmem => ?_
    obtain ⟨bytes, key, hhex, hkey⟩ := hkeys hexStr hmem
    exact ⟨key, masterPublicKey_of_decodes hhex hkey⟩
  unfold Sdk.new Os.host
  rw [hparsed, hderive, hpubs]
  exact ⟨_, rfl, rfl⟩

/-- Without any raw id there is no Sdk. -/
theorem Sdk.new_unavailable {target : Target} {os : Os} {configDir : Option String}
    {config : SdkConfig} {parsed : AppId} (hraw : config.NoRaw)
    (hparsed : parseAppId config.appId = .ok parsed) (hnone : platformId target os = none) :
    Sdk.new P (os.host target sha256 configDir) config = fail .machineIdUnavailable := by
  have hderive : derive sha256 (platformId target os) config.appId config.machineId = none := by
    rw [derive_platform hraw, hnone]
    rfl
  unfold Sdk.new Os.host
  rw [hparsed, hderive]
  rfl

/-- **Machines without a platform id share none.**  For an app id that is accepted, a machine whose
platform id cannot be read, or is blank, gets no Sdk unless a raw id is supplied.  The machine id of
an Sdk that takes the platform's is of an id that is not blank; two such Sdks with one machine id
are of one app id and one HMAC key block, or a collision of SHA-256 is among the byte strings hashed
for the two; and ids of at most a block without NUL are then the same. -/
theorem platform_ids_separate (P : Platform) (sha256 : Sha256) :
    (∀ target os configDir config parsed, config.NoRaw → parseAppId config.appId = .ok parsed →
      platformId target os = none →
      Sdk.new P (os.host target sha256 configDir) config = fail .machineIdUnavailable) ∧
    ∀ target target' os os' configDir configDir' config config' (sdk sdk' : Sdk P),
      config.NoRaw → config'.NoRaw →
      Sdk.new P (os.host target sha256 configDir) config = .ok sdk →
      Sdk.new P (os'.host target' sha256 configDir') config' = .ok sdk' →
      ∃ id id', platformId target os = some id ∧ platformId target' os' = some id' ∧
        Usable id ∧ Usable id' ∧
        (sdk.machineId = sdk'.machineId →
          (config.appId = config'.appId ∧ keyBlock sha256 id = keyBlock sha256 id' ∧
            (FitsBlock id → FitsBlock id' → id = id')) ∨
          HashCollision sha256 config.appId id config'.appId id') := by
  refine ⟨fun _ _ _ _ _ => Sdk.new_unavailable, ?_⟩
  intro target target' os os' configDir configDir' config config' sdk sdk' hraw hraw' hnew hnew'
  obtain ⟨id, hid, husable, hmachine⟩ := Sdk.new_platform hraw hnew
  obtain ⟨id', hid', husable', hmachine'⟩ := Sdk.new_platform hraw' hnew'
  refine ⟨id, id', hid, hid', husable, husable', fun hsame => ?_⟩
  rw [hmachine, hmachine'] at hsame
  rcases protect_eq hsame with ⟨happ, hblock⟩ | hcoll
  · exact Or.inl ⟨happ, hblock, fun hfits hfits' => keyBlock_injective hfits hfits' hblock⟩
  · exact Or.inr hcoll

/-! Two products on one machine, with a constant hash function. -/

def platformConfig (appId : String) : SdkConfig := ⟨appId, none, none, none, none⟩

theorem platform_ids_separate_sample :
    HashCollision sampleHost.sha256 "pk_live_AHAK85389VQYXYB6S4BW66SKE53TWVTS" "4C4C-0042"
      "pk_test_AHAK85389VQYXYB6S4BW66SKE53TWVTS" "4C4C-0042" ∧
    Sdk.new sampleSetup (sampleOs.host .other sampleHost.sha256 none)
      (platformConfig "pk_live_AHAK85389VQYXYB6S4BW66SKE53TWVTS") = fail .machineIdUnavailable := by
  obtain ⟨hnone, hseparate⟩ := platform_ids_separate sampleSetup sampleHost.sha256
  have hlinux : platformId .linux sampleOs = some "4C4C-0042" := by decide +kernel
  have hlive : parseAppId "pk_live_AHAK85389VQYXYB6S4BW66SKE53TWVTS" =
      .ok ⟨.live, "AHAK85389VQYXYB6S4BW66SKE53TWVTS"⟩ := by decide +kernel
  have htest : parseAppId "pk_test_AHAK85389VQYXYB6S4BW66SKE53TWVTS" =
      .ok ⟨.test, "AHAK85389VQYXYB6S4BW66SKE53TWVTS"⟩ := by decide +kernel
  have hnew : ∀ appId parsed, parseAppId appId = .ok parsed → ∃ sdk,
      Sdk.new sampleSetup (sampleOs.host .linux sampleHost.sha256 none) (platformConfig appId) =
        .ok sdk ∧ sdk.machineId = protect sampleHost.sha256 "4C4C-0042" appId := by
    intro appId parsed hparsed
    exact Sdk.new_available masterKeysDecode_sample (Or.inl rfl) hparsed hlinux
  obtain ⟨live, hnewLive, hidLive⟩ := hnew _ _ hlive
  obtain ⟨test, hnewTest, hidTest⟩ := hnew _ _ htest
  obtain ⟨id, id', hid, hid', -, -, hsame⟩ := hseparate .linux .linux sampleOs sampleOs none none
    _ _ live test (Or.inl rfl) (Or.inl rfl) hnewLive hnewTest
  cases Option.some.inj (hlinux.symm.trans hid)
  cases Option.some.inj (hlinux.symm.trans hid')
  have hmachine : live.machineId = test.machineId := by
    rw [hidLive, hidTest]
    rfl
  refine ⟨(hsame hmachine).resolve_left fun h => absurd h.1 (by decide), ?_⟩
  exact hnone .other sampleOs none (platformConfig _) _ (Or.inl rfl) hlive rfl

end LatteRs
