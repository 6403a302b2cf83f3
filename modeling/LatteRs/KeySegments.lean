import LatteRs.Checksums
import LatteRs.Setup
import Mathlib.Data.List.DropRight

/-!
# The key segment as the name of the cache file

The default cache file of a project is named after the key segment of its app
id, which is put into the path as it is.

* `DirectlyInside`, `fileName`, `OwnsFile`;
* `ownsFile_iff`: an app id names a file of its own in the cache folder,
  unless it has characters outside the key alphabet and is accepted all the
  same.
-/

namespace LatteRs

open Checked

/-! ### Files in a folder -/

/-- The path is that of a file, not of the folder or its parent, directly inside the folder. -/
def DirectlyInside (folder path : String) : Prop :=
  ∃ name, name ∉ ["", ".", ".."] ∧ '/' ∉ name.toList ∧ path = folder ++ "/" ++ name

/-- What comes after the last slash. -/
def fileName (path : String) : String := String.ofList (path.toList.rtakeWhile (· ≠ '/'))

theorem fileName_of_no_slash {name : String} (h : '/' ∉ name.toList) : fileName name = name := by
  rw [fileName, List.rtakeWhile_eq_self_iff.2, String.ofList_toList]
  intro c hc
  simp only [decide_eq_true_eq]
  rintro rfl
  exact h hc

/-- Nothing before a slash counts. -/
theorem fileName_append (folder name : String) :
    fileName (folder ++ "/" ++ name) = fileName name := by
  unfold fileName
  rw [String.toList_append, String.toList_append]
  refine congrArg String.ofList ?_
  induction name.toList using List.reverseRecOn with
  | nil => simp
  | append_singleton cs c ih =>
    rw [← List.append_assoc, List.rtakeWhile_concat, List.rtakeWhile_concat, ih]

/-- The folder of the cache files. -/
def cacheFolder (configDir : String) : String := pushPath configDir "LicenseLatte"

theorem pushPath_cacheFolder (configDir name : String) :
    pushPath (cacheFolder configDir) name =
      if name.toList.head? = some '/' then name else cacheFolder configDir ++ "/" ++ name := by
  have hlast : (cacheFolder configDir).toList.getLast? = some 'e' := by
    unfold cacheFolder pushPath
    split_ifs with habs hend
    · exact absurd habs (by decide)
    · simp
    · simp
  have hne : ¬ (cacheFolder configDir = "" ∨
      (cacheFolder configDir).toList.getLast? = some '/') := by
    rw [hlast]
    rintro (hempty | hslash)
    · rw [hempty] at hlast
      cases hlast
    · cases hslash
  unfold pushPath
  split_ifs <;> rfl

/-- The cache file of a key is named by what follows the last slash of the key. -/
theorem fileName_defaultPath {configDir key path : String}
    (h : defaultPath (some configDir) key = some path) :
    fileName path = fileName (key ++ ".json") := by
  obtain rfl := Option.some.inj h
  show fileName (pushPath (cacheFolder configDir) (key ++ ".json")) = _
  rw [pushPath_cacheFolder]
  split_ifs
  · rfl
  · exact fileName_append _ _

theorem utf8ByteSize_fileName_lt {path : String} (h : fileName path ≠ path) :
    (fileName path).utf8ByteSize < path.utf8ByteSize := by
  obtain ⟨front, hfront⟩ := path.toList.rtakeWhile_suffix (· ≠ '/')
  have hcat : path = String.ofList front ++ fileName path := by
    rw [← String.toList_inj, String.toList_append, String.toList_ofList, fileName,
      String.toList_ofList, hfront]
  have hlength := length_le_utf8ByteSize front
  have hpos : front ≠ [] := by
    rintro rfl
    refine h ?_
    rw [fileName, ← String.toList_inj, String.toList_ofList]
    exact hfront
  have hfront' := List.length_pos_iff.2 hpos
  have hsize := congrArg String.utf8ByteSize hcat
  rw [String.utf8ByteSize_append] at hsize
  omega

/-! ### Accepted app ids -/

theorem parseAppId_eq_ok_iff {appId : String} {parsed : AppId} :
    parseAppId appId = .ok parsed ↔
      ∃ env data, Environment.ofSegment env = .ok parsed.env ∧ data.utf8ByteSize = 28 ∧
        '_' ∉ data.toList ∧ parsed.key = data ++ calculateChecksum data 4 ∧
        appId = "pk_" ++ env ++ "_" ++ parsed.key := by
  have hsum : ∀ data, '_' ∉ (calculateChecksum data 4).toList := fun data h =>
    not_underscore_of_mem (mem_calculateChecksum h) rfl
  rw [parseAppId_eq_ok]
  constructor
  · rintro ⟨env, hsplit, henv, hsize, hvalid⟩
    obtain ⟨data, hdata⟩ := validateKey_eq_true.1 hvalid
    obtain ⟨hcat, -, -, hno⟩ := splitUnderscores_eq.1 hsplit
    rw [hdata, String.utf8ByteSize_append, utf8ByteSize_calculateChecksum] at hsize
    rw [hdata, String.toList_append] at hno
    exact ⟨env, data, henv, by omega, fun h => hno (List.mem_append_left _ h), hdata, hcat⟩
  · rintro ⟨env, data, henv, hsize, hno, hdata, rfl⟩
    have hseg := Environment.ofSegment_eq_ok.1 ⟨_, henv⟩
    refine ⟨env, splitUnderscores_eq.2 ⟨rfl, by decide, ?_, ?_⟩, henv, ?_, ?_⟩
    · simp only [List.mem_cons, List.not_mem_nil, or_false] at hseg
      rcases hseg with rfl | rfl | rfl <;> decide
    · rw [hdata, String.toList_append, List.mem_append]
      exact fun h => h.elim hno (hsum data)
    · rw [hdata, String.utf8ByteSize_append, utf8ByteSize_calculateChecksum, hsize]
    · exact validateKey_eq_true.2 ⟨data, hdata⟩

/-- The app id, if accepted, has a key of 32 characters of the alphabet, which names a file of
its own directly inside the cache folder. -/
def OwnsFile (appId : String) : Prop :=
  ∀ parsed, parseAppId appId = .ok parsed →
    (parsed.key.toList.length = 32 ∧ ∀ c ∈ parsed.key.toList, c ∈ alphabetChars) ∧
    (∀ configDir path, defaultPath (some configDir) parsed.key = some path →
      DirectlyInside (cacheFolder configDir) path) ∧
    ∀ appId' parsed', parseAppId appId' = .ok parsed' → parsed'.key ≠ parsed.key →
      ∀ configDir path path', defaultPath (some configDir) parsed.key = some path →
        defaultPath (some configDir) parsed'.key = some path' → fileName path' ≠ fileName path

/-- The app id has a known environment and 28 bytes with a character outside the alphabet,
followed by the checksum computed for them. -/
def HasForeignKey (appId : String) : Prop :=
  ∃ env data, env ∈ ["live", "test", "local"] ∧ data.utf8ByteSize = 28 ∧ '_' ∉ data.toList ∧
    (∃ c ∈ data.toList, c ∉ alphabetChars) ∧
    appId = "pk_" ++ env ++ "_" ++ (data ++ calculateChecksum data 4)

theorem not_ownsFile {appId : String} (h : HasForeignKey appId) : ¬ OwnsFile appId := by
  obtain ⟨env, data, henv, hsize, hno, ⟨c, hc, hforeign⟩, rfl⟩ := h
  obtain ⟨env', henv'⟩ := Environment.ofSegment_eq_ok.2 henv
  intro howns
  obtain ⟨⟨-, hall⟩, -⟩ := howns ⟨env', data ++ calculateChecksum data 4⟩
    (parseAppId_eq_ok_iff.2 ⟨env, data, henv', hsize, hno, rfl, rfl⟩)
  refine hforeign (hall c ?_)
  rw [String.toList_append]
  exact List.mem_append_left _ hc

theorem not_slash_of_mem {c : Char} (h : c ∈ alphabetChars) : c ≠ '/' := by
  rintro rfl
  exact absurd h (by decide +kernel)

theorem slash_notMem_json {key : String} (h : ∀ c ∈ key.toList, c ∈ alphabetChars) :
    '/' ∉ (key ++ ".json").toList := by
  rw [String.toList_append, List.mem_append]
  rintro (hmem | hmem)
  · exact not_slash_of_mem (h _ hmem) rfl
  · exact absurd hmem (by decide)

/-- A key of the alphabet names a file directly inside the folder. -/
theorem directlyInside_of_alphabet {key configDir path : String}
    (hkey : ∀ c ∈ key.toList, c ∈ alphabetChars) (hsize : key.utf8ByteSize = 32)
    (h : defaultPath (some configDir) key = some path) :
    DirectlyInside (cacheFolder configDir) path := by
  have hslash := slash_notMem_json hkey
  obtain rfl := Option.some.inj h
  refine ⟨key ++ ".json", ?_, hslash, ?_⟩
  · have hlong : (key ++ ".json").utf8ByteSize = 37 := by
      rw [String.utf8ByteSize_append, hsize]
      rfl
    intro hmem
    simp only [List.mem_cons, List.not_mem_nil, or_false] at hmem
    rcases hmem with heq | heq | heq
    all_goals
      rw [heq] at hlong
      exact absurd hlong (by decide)
  · show pushPath (cacheFolder configDir) (key ++ ".json") = _
    rw [pushPath_cacheFolder, if_neg]
    intro hhead
    exact hslash (List.mem_of_head? hhead)

/-- **The cache file of an app id.**  An app id has a key of the alphabet and a cache file of its
own, directly inside the cache folder, unless it has a foreign character among its first 28 bytes
and ends in the checksum that the code computes for them. -/
theorem ownsFile_iff (appId : String) : OwnsFile appId ↔ ¬ HasForeignKey appId := by
  refine ⟨fun howns hforeign => not_ownsFile hforeign howns, fun hnone parsed haccepted => ?_⟩
  obtain ⟨env, data, henv, hsize, hno, hkey, rfl⟩ := parseAppId_eq_ok_iff.1 haccepted
  have hdata : ∀ c ∈ data.toList, c ∈ alphabetChars := by
    intro c hc
    by_contra hforeign
    exact hnone ⟨env, data, Environment.ofSegment_eq_ok.1 ⟨_, henv⟩, hsize, hno, ⟨c, hc, hforeign⟩,
      by rw [hkey]⟩
  have hall : ∀ c ∈ parsed.key.toList, c ∈ alphabetChars := by
    rw [hkey, String.toList_append]
    exact fun c hc => (List.mem_append.1 hc).elim (hdata c) mem_calculateChecksum
  have hbytes : parsed.key.utf8ByteSize = 32 := by
    rw [hkey, String.utf8ByteSize_append, utf8ByteSize_calculateChecksum, hsize]
  refine ⟨⟨?_, hall⟩, fun configDir path => directlyInside_of_alphabet hall hbytes, ?_⟩
  · rw [← utf8ByteSize_ascii fun c hc => isAscii_of_mem_alphabet (hall c hc),
      String.ofList_toList, hbytes]
  · intro appId' parsed' haccepted' hne configDir path path' hpath hpath' hname
    obtain ⟨-, data', -, hsize', -, hkey', -⟩ := parseAppId_eq_ok_iff.1 haccepted'
    have hbytes' : parsed'.key.utf8ByteSize = 32 := by
      rw [hkey', String.utf8ByteSize_append, utf8ByteSize_calculateChecksum, hsize']
    rw [fileName_defaultPath hpath, fileName_defaultPath hpath',
      fileName_of_no_slash (slash_notMem_json hall)] at hname
    by_cases hwhole : fileName (parsed'.key ++ ".json") = parsed'.key ++ ".json"
    · rw [hwhole, ← String.toList_inj, String.toList_append, String.toList_append] at hname
      exact hne (String.toList_inj.1 (List.append_cancel_right hname))
    · -- the name behind a slash is too short
      have hshort := utf8ByteSize_fileName_lt hwhole
      rw [hname, String.utf8ByteSize_append, String.utf8ByteSize_append, hbytes, hbytes'] at hshort
      exact lt_irrefl _ hshort

/-- A key that climbs out of the folder. -/
theorem foreign_key_escapes :
    (∃ parsed, parseAppId "pk_live_../../../../tmp/AAAAAAAAAAAAWVTS" = .ok parsed ∧
      defaultPath (some "/home/u/.config") parsed.key =
        some "/home/u/.config/LicenseLatte/../../../../tmp/AAAAAAAAAAAAWVTS.json") ∧
    ¬ OwnsFile "pk_live_../../../../tmp/AAAAAAAAAAAAWVTS" := by
  refine ⟨⟨⟨.live, "../../../../tmp/AAAAAAAAAAAAWVTS"⟩, by decide +kernel, by decide +kernel⟩, ?_⟩
  refine not_ownsFile ⟨"live", "../../../../tmp/AAAAAAAAAAAA", by decide, by decide +kernel,
    by decide +kernel, ⟨'.', by decide +kernel, by decide +kernel⟩, by decide +kernel⟩

end LatteRs
