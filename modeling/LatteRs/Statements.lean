import LatteRs.Wire

/-!
# What the server states

The documents that the decoders of 2xx replies accept: the statements that the
server makes, with members added where no decoder asks for them.

* `MachineEntry`, `Statement`: what may be stated, as documents and as results;
* `Positional`: records that are given as arrays, which are accepted as well;
* `deserialize_iff`: a document is accepted exactly if it is a statement that has
  grown, as what is stated.
-/

namespace LatteRs

open Records

/-! ### What documents state -/

def Json.ofString (s : String) : Json := .string (.text s)

/-- A value that may be null. -/
def Json.ofOption {α : Type} (f : α → Json) : Option α → Json
  | none => .null
  | some a => f a

/-- A member that may be absent. -/
def memberIfAny (name : String) (v : Option Json) : List (JsonString × Json) :=
  v.toList.map (Prod.mk (.text name))

def CertChain.json (chain : CertChain) : Json :=
  .object [(.text "submaster", .ofString chain.submaster),
    (.text "project", .ofString chain.project), (.text "daily", .ofString chain.daily)]

/-- A machine as the server tells of it. -/
structure MachineEntry where
  name : Option (Option String)
  fingerprint : String
  activatedAt : Stamp
  lastSeenAt : Stamp
  seatFreeAt : Option (Option Stamp)
  current : Bool

namespace MachineEntry

def json (m : MachineEntry) : Json :=
  .object (memberIfAny "machine_name" (m.name.map (Json.ofOption Json.ofString)) ++
    [(.text "machine_fingerprint", .ofString m.fingerprint),
      (.text "activated_at", .ofString m.activatedAt.text),
      (.text "last_seen_at", .ofString m.lastSeenAt.text)] ++
    memberIfAny "seat_free_at" (m.seatFreeAt.map (Json.ofOption fun st => .ofString st.text)) ++
    [(.text "current", .bool m.current)])

def machine (m : MachineEntry) : Machine where
  name := m.name.getD none
  fingerprint := m.fingerprint
  activatedAt := m.activatedAt.time
  lastSeenAt := m.lastSeenAt.time
  seatFreeAt := (m.seatFreeAt.getD none).map Stamp.time
  current := m.current

end MachineEntry

/-- What the server states in a 2xx reply. -/
inductive Statement : Endpoint → Type
  | token (jwt : String) (chain : CertChain) : Statement .token
  | deactivated (released : Bool) (seatFreeAt : Option (Option Stamp)) : Statement .deactivate
  | machines (entries : List MachineEntry) : Statement .machines
  | renamed (name : String) : Statement .rename

namespace Statement

def json : {e : Endpoint} → Statement e → Json
  | _, .token jwt chain => .object [(.text "token", .ofString jwt), (.text "chain", chain.json)]
  | _, .deactivated released seatFreeAt =>
    .object ((.text "released", .bool released) ::
      memberIfAny "seat_free_at" (seatFreeAt.map (Json.ofOption fun st => .ofString st.text)))
  | _, .machines entries =>
    .object [(.text "machines", .array (entries.map MachineEntry.json))]
  | _, .renamed name => .object [(.text "machine_name", .ofString name)]

def result : {e : Endpoint} → Statement e → e.Result
  | _, .token jwt chain => (⟨jwt, chain⟩ : TokenResponse)
  | _, .deactivated released seatFreeAt =>
    (⟨released, (seatFreeAt.getD none).map Stamp.time⟩ : DeactivateResult)
  | _, .machines entries => entries.map MachineEntry.machine
  | _, .renamed name => name

end Statement

/-- A record is given as an array somewhere in a document. -/
inductive Positional : Shape → Json → Prop
  | here (fields : List (String × Shape)) (xs : List Json) : Positional (.record fields) (.array xs)
  | item {s : Shape} {xs : List Json} {x : Json} (hmem : x ∈ xs) (h : Positional s x) :
      Positional (.list s) (.array xs)
  | member {fields : List (String × Shape)} {ms : List (JsonString × Json)} {name : JsonString}
      {v : Json} (hmem : (name, v) ∈ ms) (h : Positional (shapeOf fields name) v) :
      Positional (.record fields) (.object ms)

/-! ### Values that are accepted -/

theorem deBool_eq_some {v : Json} {b : Bool} : deBool v = some b ↔ v = .bool b := by
  cases v <;> simp [deBool]

theorem deOptString_eq_some {v : Json} {s : Option String} :
    deOptString v = some s ↔ v = Json.ofOption Json.ofString s := by
  cases s with
  | none =>
    unfold deOptString Json.ofOption
    split <;> simp_all
  | some s =>
    unfold deOptString Json.ofOption Json.ofString
    split <;> simp_all

theorem deTime_eq_some {v : Json} {t : SystemTime} :
    deTime v = some t ↔ ∃ st : Stamp, v = Json.ofString st.text ∧ st.time = t := by
  constructor
  · intro h
    unfold deTime at h
    split at h
    · rename_i s
      cases hs : parseRfc3339 s with
      | error e =>
        rw [hs] at h
        cases h
      | ok time =>
        rw [hs] at h
        cases h
        obtain ⟨st, rfl, rfl⟩ := parseRfc3339_eq_ok.1 hs
        exact ⟨st, rfl, rfl⟩
    · cases h
  · rintro ⟨st, rfl, rfl⟩
    simp only [deTime, Json.ofString, parseRfc3339_eq_ok.2 ⟨st, rfl, rfl⟩]

theorem deOptTime_eq_some {v : Json} {t : Option SystemTime} :
    deOptTime v = some t ↔ ∃ st : Option Stamp,
      v = Json.ofOption (fun st => .ofString st.text) st ∧ st.map Stamp.time = t := by
  constructor
  · intro h
    unfold deOptTime at h
    split at h
    · cases h
      exact ⟨none, rfl, rfl⟩
    · rename_i s
      cases hs : parseRfc3339 s with
      | error e =>
        rw [hs] at h
        cases h
      | ok time =>
        rw [hs] at h
        cases h
        obtain ⟨st, rfl, rfl⟩ := parseRfc3339_eq_ok.1 hs
        exact ⟨some st, rfl, rfl⟩
    · cases h
  · rintro ⟨st, rfl, rfl⟩
    cases st with
    | none => rfl
    | some st =>
      simp only [deOptTime, Json.ofOption, Json.ofString, parseRfc3339_eq_ok.2 ⟨st, rfl, rfl⟩,
        Option.map_some]

/-! ### Records that are accepted -/

section
variable {α : Type} {r : Record JsonString Json α} {fields : List (String × Shape)}

theorem lookups_of_required {name : String} {de : Json → Option α}
    {look : JsonString → Option Json} {a : α} :
    (required name de).build look = some a ↔
      ∃ v, look (.text name) = some v ∧ de v = some a := by
  show (look (.text name)).elim none de = some a ↔ _
  cases look (.text name) with
  | none => simp
  | some v => simp

theorem lookups_of_optional {name : String} {absent : α} {de : Json → Option α}
    {look : JsonString → Option Json} {a : α} :
    (optional name absent de).build look = some a ↔
      (look (.text name) = none ∧ absent = a) ∨
        ∃ v, look (.text name) = some v ∧ de v = some a := by
  show (look (.text name)).elim (some absent) de = some a ↔ _
  cases look (.text name) with
  | none => simp
  | some v => simp

/-- A record that is accepted is an array, or the members of its fields among others. -/
theorem deserializeStruct_eq_some (hresp : r.Respects fun _ => Eq) (hnodup : r.names.Nodup)
    (hnames : r.names = fields.map fun f => JsonString.text f.1) {doc : Json} {a : α}
    (hobj : ¬ Positional (.record fields) doc) (h : deserializeStruct r doc = some a) :
    ∃ ms look, doc = .object ms ∧ r.build look = some a ∧
      (∀ k v, k ∈ r.names → look k = some v → (k, v) ∈ ms) ∧
        Added fields (present r.names look) ms := by
  unfold deserializeStruct at h
  split at h
  next ms =>
    obtain ⟨htext, look, extra, hbuild, hperm, hextra⟩ :=
      (Record.ofMembers_eq_some hresp hnodup).1 h
    refine ⟨ms, look, rfl, hbuild, fun k v hk hv => ?_, extra, hperm, fun m hm => ⟨?_, ?_⟩⟩
    · exact hperm.mem_iff.2 (List.mem_append_left _ (mem_present.2 ⟨hk, hv⟩))
    · exact htext m (hperm.mem_iff.2 (List.mem_append_right _ hm))
    · rw [← hnames]
      exact hextra m hm
  next xs => exact absurd (.here fields xs) hobj
  next => cases h

/-- The members of the fields alone are accepted. -/
theorem deserializeStruct_present (hresp : r.Respects fun _ => Eq) (hnodup : r.names.Nodup)
    (htext : ∀ k ∈ r.names, k.isText = true) {look : JsonString → Option Json}
    {a : α} (hbuild : r.build look = some a) {ms : List (JsonString × Json)}
    (hms : present r.names look = ms) : deserializeStruct r (.object ms) = some a := by
  subst hms
  refine (Record.ofMembers_eq_some hresp hnodup).2 ⟨fun m hm => ?_, look, [], hbuild, ?_, ?_⟩
  · exact htext m.1 (mem_present.1 hm).1
  · rw [List.append_nil]
  · intro m hm
    cases hm

end

theorem respects_eq {α : Type} {name : String} {absent : Option α} {de : Json → Option α} :
    (Record.field (JsonString.text name) absent de).Respects fun _ => Eq :=
  Record.respects_field fun v v' h => by rw [h]

@[simp] theorem lookup_text_cons {α : Type} (name name' : String) (v : α)
    (ms : List (JsonString × α)) :
    ((JsonString.text name, v) :: ms).lookup (.text name') =
      if name' = name then some v else ms.lookup (.text name') := by
  rw [List.lookup_cons]
  by_cases h : name' = name
  · subst h
    simp
  · have hne : (JsonString.text name' == JsonString.text name) = false :=
      beq_false_of_ne fun heq => h (JsonString.text.inj heq)
    simp only [hne, if_neg h]

theorem build_optString {name : String} {look : JsonString → Option Json} {a : Option String} :
    (optional name none deOptString).build look = some a ↔
      ∃ n : Option (Option String), look (.text name) = n.map (Json.ofOption Json.ofString) ∧
        n.getD none = a := by
  rw [lookups_of_optional]
  constructor
  · rintro (⟨hlook, rfl⟩ | ⟨v, hlook, hv⟩)
    · exact ⟨none, hlook, rfl⟩
    · rw [deOptString_eq_some] at hv
      exact ⟨some a, by rw [hlook, hv, Option.map_some], rfl⟩
  · rintro ⟨n, hlook, rfl⟩
    cases n with
    | none => exact Or.inl ⟨hlook, rfl⟩
    | some s => exact Or.inr ⟨_, hlook, deOptString_eq_some.2 rfl⟩

theorem build_optTime {name : String} {look : JsonString → Option Json} {a : Option SystemTime} :
    (optional name none deOptTime).build look = some a ↔
      ∃ n : Option (Option Stamp),
        look (.text name) = n.map (Json.ofOption fun st => .ofString st.text) ∧
          (n.getD none).map Stamp.time = a := by
  rw [lookups_of_optional]
  constructor
  · rintro (⟨hlook, rfl⟩ | ⟨v, hlook, hv⟩)
    · exact ⟨none, hlook, rfl⟩
    · obtain ⟨st, hst, hat⟩ := deOptTime_eq_some.1 hv
      exact ⟨some st, by rw [hlook, hst, Option.map_some], hat⟩
  · rintro ⟨n, hlook, rfl⟩
    cases n with
    | none => exact Or.inl ⟨hlook, rfl⟩
    | some st => exact Or.inr ⟨_, hlook, deOptTime_eq_some.2 ⟨st, rfl, rfl⟩⟩

@[simp] theorem present_nil (look : JsonString → Option Json) : present [] look = [] := rfl

theorem present_text_cons (name : String) (names : List JsonString)
    (look : JsonString → Option Json) :
    present (.text name :: names) look =
      memberIfAny name (look (.text name)) ++ present names look := by
  cases hlook : look (.text name) with
  | none => simp [present, memberIfAny, hlook]
  | some v => simp [present, memberIfAny, hlook]

@[simp] theorem memberIfAny_none (name : String) : memberIfAny name none = [] := rfl

@[simp] theorem memberIfAny_some (name : String) (v : Json) :
    memberIfAny name (some v) = [(.text name, v)] := rfl

/-! ### What is accepted was stated -/

/-- The values of the members of a chain. -/
structure CertChain.Looks (chain : CertChain) (look : JsonString → Option Json) : Prop where
  submaster : look (.text "submaster") = some (.ofString chain.submaster)
  project : look (.text "project") = some (.ofString chain.project)
  daily : look (.text "daily") = some (.ofString chain.daily)

theorem CertChain.Looks.json {chain : CertChain} {look : JsonString → Option Json}
    (h : chain.Looks look) : chain.json = .object (present certChain.names look) := by
  show chain.json = .object (present [.text "submaster", .text "project", .text "daily"] look)
  simp only [present_text_cons, h.submaster, h.project, h.daily, memberIfAny_some]
  rfl

theorem build_certChain {look : JsonString → Option Json} {chain : CertChain} :
    certChain.build look = some chain ↔ chain.Looks look := by
  unfold certChain
  rw [Record.build_map_eq_some]
  simp only [Record.build_and_eq_some, lookups_of_required, deString_eq_some]
  constructor
  · rintro ⟨⟨submaster, project, daily⟩, ⟨⟨_, h₁, rfl⟩, ⟨_, h₂, rfl⟩, ⟨_, h₃, rfl⟩⟩, rfl⟩
    exact ⟨h₁, h₂, h₃⟩
  · rintro ⟨h₁, h₂, h₃⟩
    exact ⟨(chain.submaster, chain.project, chain.daily),
      ⟨⟨_, h₁, rfl⟩, ⟨_, h₂, rfl⟩, ⟨_, h₃, rfl⟩⟩, rfl⟩

/-- The values of the members of a machine. -/
structure MachineEntry.Looks (m : MachineEntry) (look : JsonString → Option Json) : Prop where
  name : look (.text "machine_name") = m.name.map (Json.ofOption Json.ofString)
  fingerprint : look (.text "machine_fingerprint") = some (.ofString m.fingerprint)
  activatedAt : look (.text "activated_at") = some (.ofString m.activatedAt.text)
  lastSeenAt : look (.text "last_seen_at") = some (.ofString m.lastSeenAt.text)
  seatFreeAt : look (.text "seat_free_at") =
    m.seatFreeAt.map (Json.ofOption fun st => .ofString st.text)
  current : look (.text "current") = some (.bool m.current)

theorem MachineEntry.Looks.json {m : MachineEntry} {look : JsonString → Option Json}
    (h : m.Looks look) : m.json = .object (present LatteRs.machine.names look) := by
  show m.json = .object (present [.text "machine_name", .text "machine_fingerprint",
    .text "activated_at", .text "last_seen_at", .text "seat_free_at", .text "current"] look)
  simp only [present_text_cons, h.name, h.fingerprint, h.activatedAt, h.lastSeenAt, h.seatFreeAt,
    h.current, memberIfAny_some, MachineEntry.json]
  simp

theorem build_machine {look : JsonString → Option Json} {a : Machine} :
    machine.build look = some a ↔ ∃ m : MachineEntry, m.machine = a ∧ m.Looks look := by
  unfold machine
  rw [Record.build_map_eq_some]
  simp only [Record.build_and_eq_some, lookups_of_required, build_optString, build_optTime,
    deString_eq_some, deTime_eq_some, deBool_eq_some]
  constructor
  · rintro ⟨⟨name, fingerprint, activatedAt, lastSeenAt, seatFreeAt, current⟩,
      ⟨⟨n, hn, hname⟩, ⟨_, hf, rfl⟩, ⟨_, ha, st, rfl, hst⟩, ⟨_, hl, st', rfl, hst'⟩,
        ⟨free, hfree, hseat⟩, ⟨_, hc, rfl⟩⟩, rfl⟩
    refine ⟨⟨n, fingerprint, st, st', free, current⟩, ?_, ⟨hn, hf, ha, hl, hfree, hc⟩⟩
    unfold MachineEntry.machine
    simp only [hname, hst, hst', hseat]
  · rintro ⟨m, rfl, h⟩
    exact ⟨(m.machine.name, m.machine.fingerprint, m.machine.activatedAt, m.machine.lastSeenAt,
      m.machine.seatFreeAt, m.machine.current), ⟨⟨_, h.name, rfl⟩, ⟨_, h.fingerprint, rfl⟩,
        ⟨_, h.activatedAt, _, rfl, rfl⟩, ⟨_, h.lastSeenAt, _, rfl, rfl⟩,
          ⟨_, h.seatFreeAt, rfl⟩, ⟨_, h.current, rfl⟩⟩, rfl⟩

theorem respects_certChain : certChain.Respects fun _ => Eq :=
  (respects_eq.and (respects_eq.and respects_eq)).map _

theorem respects_machine : machine.Respects fun _ => Eq :=
  (respects_eq.and (respects_eq.and (respects_eq.and (respects_eq.and
    (respects_eq.and respects_eq))))).map _

theorem nodup_certChain : certChain.names.Nodup := by
  show [JsonString.text "submaster", .text "project", .text "daily"].Nodup
  decide

theorem nodup_machine : machine.names.Nodup := by
  show [JsonString.text "machine_name", .text "machine_fingerprint",
    .text "activated_at", .text "last_seen_at", .text "seat_free_at", .text "current"].Nodup
  decide

/-- A chain that is accepted. -/
theorem grows_of_certChain {doc : Json} {chain : CertChain}
    (hobj : ¬ Positional certChainShape doc) (h : deserializeStruct certChain doc = some chain) :
    Grows certChainShape chain.json doc := by
  obtain ⟨ms, look, rfl, hbuild, -, hadded⟩ :=
    deserializeStruct_eq_some respects_certChain nodup_certChain rfl hobj h
  rw [(build_certChain.1 hbuild).json]
  exact hadded.grows

/-- A machine that is accepted. -/
theorem grows_of_machine {doc : Json} {a : Machine} (hobj : ¬ Positional machineShape doc)
    (h : deserializeStruct machine doc = some a) :
    ∃ m : MachineEntry, m.machine = a ∧ Grows machineShape m.json doc := by
  obtain ⟨ms, look, rfl, hbuild, -, hadded⟩ :=
    deserializeStruct_eq_some respects_machine nodup_machine rfl hobj h
  obtain ⟨m, hm, hlooks⟩ := build_machine.1 hbuild
  refine ⟨m, hm, ?_⟩
  rw [hlooks.json]
  exact hadded.grows

theorem deserialize_certChain (chain : CertChain) :
    deserializeStruct certChain chain.json = some chain := by
  let look : JsonString → Option Json := fun k => List.lookup k
    [(.text "submaster", .ofString chain.submaster), (.text "project", .ofString chain.project),
      (.text "daily", .ofString chain.daily)]
  have hlooks : chain.Looks look := ⟨by simp [look], by simp [look], by simp [look]⟩
  rw [hlooks.json]
  exact deserializeStruct_present respects_certChain nodup_certChain (by decide)
    (build_certChain.2 hlooks) rfl

theorem deserialize_machine (m : MachineEntry) :
    deserializeStruct machine m.json = some m.machine := by
  let look : JsonString → Option Json := fun k => (List.lookup k
    [(JsonString.text "machine_name", m.name.map (Json.ofOption Json.ofString)),
      (.text "machine_fingerprint", some (.ofString m.fingerprint)),
      (.text "activated_at", some (.ofString m.activatedAt.text)),
      (.text "last_seen_at", some (.ofString m.lastSeenAt.text)),
      (.text "seat_free_at", m.seatFreeAt.map (Json.ofOption fun st => .ofString st.text)),
      (.text "current", some (.bool m.current))]).join
  have hlooks : m.Looks look := by
    refine ⟨?_, ?_, ?_, ?_, ?_, ?_⟩ <;> simp [look]
  rw [hlooks.json]
  exact deserializeStruct_present respects_machine nodup_machine (by decide)
    (build_machine.2 ⟨m, rfl, hlooks⟩) rfl

/-! ### The four replies -/

/-- The value of a member has no record that is given as an array. -/
theorem not_positional_of_mem {fields : List (String × Shape)} {ms : List (JsonString × Json)}
    {name : JsonString} {v : Json} (hobj : ¬ Positional (.record fields) (.object ms))
    (hmem : (name, v) ∈ ms) : ¬ Positional (shapeOf fields name) v :=
  fun h => hobj (.member hmem h)

theorem grows_of_tokenResponse {doc : Json} {a : TokenResponse}
    (hobj : ¬ Positional tokenShape doc)
    (h : deserializeStruct tokenResponse doc = some a) :
    Grows tokenShape (Statement.token a.token a.chain).json doc := by
  have hresp : tokenResponse.Respects fun _ => Eq := (respects_eq.and respects_eq).map _
  obtain ⟨ms, look, rfl, hbuild, hmem, hadded⟩ :=
    deserializeStruct_eq_some hresp (by decide) rfl hobj h
  unfold tokenResponse at hbuild
  rw [Record.build_map_eq_some] at hbuild
  simp only [Record.build_and_eq_some, lookups_of_required, deString_eq_some] at hbuild
  obtain ⟨⟨jwt, chain⟩, ⟨⟨_, hjwt, rfl⟩, ⟨v, hv, hchain⟩⟩, rfl⟩ := hbuild
  have hgrown := grows_of_certChain
    (not_positional_of_mem hobj (hmem (.text "chain") v (by decide) hv)) hchain
  have hpresent : present tokenResponse.names look =
      [(.text "token", .ofString jwt)] ++ [(.text "chain", v)] := by
    show present [.text "token", .text "chain"] look = _
    simp only [present_text_cons, hjwt, hv, memberIfAny_some]
    rfl
  rw [hpresent] at hadded
  exact hadded.grows_last hgrown

theorem grows_of_deactivateResult {doc : Json} {a : DeactivateResult}
    (hobj : ¬ Positional deactivateShape doc)
    (h : deserializeStruct deactivateResult doc = some a) :
    ∃ s : Statement .deactivate, s.result = a ∧ Grows deactivateShape s.json doc := by
  have hresp : deactivateResult.Respects fun _ => Eq := (respects_eq.and respects_eq).map _
  obtain ⟨ms, look, rfl, hbuild, -, hadded⟩ :=
    deserializeStruct_eq_some hresp (by decide) rfl hobj h
  unfold deactivateResult at hbuild
  rw [Record.build_map_eq_some] at hbuild
  simp only [Record.build_and_eq_some, lookups_of_required, build_optTime,
    deBool_eq_some] at hbuild
  obtain ⟨⟨released, seatFreeAt⟩, ⟨⟨_, hreleased, rfl⟩, ⟨free, hfree, hseat⟩⟩, rfl⟩ := hbuild
  refine ⟨.deactivated released free, ?_, ?_⟩
  · show (⟨released, _⟩ : DeactivateResult) = _
    rw [hseat]
  · have hpresent : present deactivateResult.names look =
        (.text "released", .bool released) :: memberIfAny "seat_free_at"
          (free.map (Json.ofOption fun st => .ofString st.text)) := by
      show present [.text "released", .text "seat_free_at"] look = _
      simp only [present_text_cons, hreleased, hfree, memberIfAny_some]
      simp
    rw [hpresent] at hadded
    exact hadded.grows

/-- The machines of a list that is accepted. -/
theorem grows_of_mapM {xs : List Json} {as : List Machine}
    (hobj : ∀ x ∈ xs, ¬ Positional machineShape x)
    (h : xs.mapM (deserializeStruct machine) = some as) :
    ∃ entries : List MachineEntry, entries.map MachineEntry.machine = as ∧
      List.Forall₂ (Grows machineShape) (entries.map MachineEntry.json) xs := by
  induction xs generalizing as with
  | nil =>
    cases h
    exact ⟨[], rfl, .nil⟩
  | cons x xs ih =>
    rw [List.mapM_cons] at h
    obtain ⟨a, ha, hrest⟩ := Option.bind_eq_some_iff.1 h
    obtain ⟨as', has', hret⟩ := Option.bind_eq_some_iff.1 hrest
    cases hret
    obtain ⟨m, rfl, hm⟩ := grows_of_machine (hobj x List.mem_cons_self) ha
    obtain ⟨entries, rfl, hentries⟩ := ih (fun y hy => hobj y (List.mem_cons_of_mem x hy)) has'
    exact ⟨m :: entries, rfl, .cons hm hentries⟩

theorem grows_of_machinesResponse {doc : Json} {as : List Machine}
    (hobj : ¬ Positional machinesShape doc)
    (h : deserializeStruct machinesResponse doc = some as) :
    ∃ s : Statement .machines, s.result = as ∧ Grows machinesShape s.json doc := by
  have hresp : machinesResponse.Respects fun _ => Eq := respects_eq
  obtain ⟨ms, look, rfl, hbuild, hmem, hadded⟩ :=
    deserializeStruct_eq_some hresp (by decide) rfl hobj h
  obtain ⟨v, hv, hlist⟩ := lookups_of_required.1 hbuild
  have hinside := not_positional_of_mem hobj (hmem (.text "machines") v (by decide) hv)
  unfold deVec at hlist
  split at hlist
  next xs =>
    obtain ⟨entries, rfl, hgrown⟩ :=
      grows_of_mapM (fun x hx hpos => hinside (.item hx hpos)) hlist
    refine ⟨.machines entries, rfl, ?_⟩
    have hpresent : present machinesResponse.names look =
        [] ++ [(.text "machines", .array xs)] := by
      show present [.text "machines"] look = _
      simp only [present_text_cons, hv, memberIfAny_some]
      rfl
    rw [hpresent] at hadded
    refine hadded.grows_last (v := .array (entries.map MachineEntry.json)) ?_
    obtain ⟨hlength, hitems⟩ := List.forall₂_iff_get.1 hgrown
    refine .list hlength fun i x y hx hy => ?_
    obtain ⟨hi, rfl⟩ := List.getElem?_eq_some_iff.1 hx
    obtain ⟨hi', rfl⟩ := List.getElem?_eq_some_iff.1 hy
    exact hitems i hi hi'
  next => cases hlist

theorem grows_of_renameResponse {doc : Json} {name : String}
    (hobj : ¬ Positional renameShape doc)
    (h : deserializeStruct renameResponse doc = some name) :
    Grows renameShape (Statement.renamed name).json doc := by
  have hresp : renameResponse.Respects fun _ => Eq := respects_eq
  obtain ⟨ms, look, rfl, hbuild, -, hadded⟩ :=
    deserializeStruct_eq_some hresp (by decide) rfl hobj h
  obtain ⟨v, hv, hname⟩ := lookups_of_required.1 hbuild
  rw [deString_eq_some] at hname
  subst hname
  have hpresent : present renameResponse.names look = [(.text "machine_name", .ofString name)] := by
    show present [.text "machine_name"] look = _
    simp only [present_text_cons, hv, memberIfAny_some]
    rfl
  rw [hpresent] at hadded
  exact hadded.grows

/-- What is stated is read. -/
theorem deserialize_json {e : Endpoint} (s : Statement e) :
    e.deserialize s.json = some s.result := by
  cases s with
  | token jwt chain =>
    have hresp : tokenResponse.Respects fun _ => Eq := (respects_eq.and respects_eq).map _
    let look : JsonString → Option Json := fun k => List.lookup k
      [(.text "token", .ofString jwt), (.text "chain", chain.json)]
    have hbuild : tokenResponse.build look = some ⟨jwt, chain⟩ := by
      refine Record.build_map_eq_some.2 ⟨(jwt, chain), ?_, rfl⟩
      simp only [Record.build_and_eq_some, lookups_of_required]
      exact ⟨⟨.ofString jwt, by simp [look], rfl⟩,
        ⟨chain.json, by simp [look], deserialize_certChain chain⟩⟩
    have hpresent : present tokenResponse.names look =
        [(.text "token", .ofString jwt), (.text "chain", chain.json)] := by
      show present [.text "token", .text "chain"] look = _
      simp [present_text_cons, look]
    exact deserializeStruct_present hresp (by decide) (by decide) hbuild hpresent
  | deactivated released seatFreeAt =>
    have hresp : deactivateResult.Respects fun _ => Eq := (respects_eq.and respects_eq).map _
    let look : JsonString → Option Json := fun k => (List.lookup k
      [(JsonString.text "released", some (.bool released)), (.text "seat_free_at",
        seatFreeAt.map (Json.ofOption fun st => .ofString st.text))]).join
    have hbuild : deactivateResult.build look =
        some ⟨released, (seatFreeAt.getD none).map Stamp.time⟩ := by
      refine Record.build_map_eq_some.2
        ⟨(released, (seatFreeAt.getD none).map Stamp.time), ?_, rfl⟩
      simp only [Record.build_and_eq_some, lookups_of_required, build_optTime]
      exact ⟨⟨.bool released, by simp [look], rfl⟩, ⟨seatFreeAt, by simp [look], rfl⟩⟩
    have hpresent : present deactivateResult.names look = (.text "released", .bool released) ::
        memberIfAny "seat_free_at"
          (seatFreeAt.map (Json.ofOption fun st => .ofString st.text)) := by
      show present [.text "released", .text "seat_free_at"] look = _
      simp [present_text_cons, look]
    exact deserializeStruct_present hresp (by decide) (by decide) hbuild hpresent
  | machines entries =>
    have hresp : machinesResponse.Respects fun _ => Eq := respects_eq
    have hmapM : (entries.map MachineEntry.json).mapM (deserializeStruct machine) =
        some (entries.map MachineEntry.machine) := by
      induction entries with
      | nil => rfl
      | cons m entries ih =>
        rw [List.map_cons, List.mapM_cons, deserialize_machine, ih]
        rfl
    let look : JsonString → Option Json := fun k => List.lookup k
      [(.text "machines", .array (entries.map MachineEntry.json))]
    have hbuild : machinesResponse.build look = some (entries.map MachineEntry.machine) :=
      lookups_of_required.2 ⟨.array (entries.map MachineEntry.json), by simp [look], hmapM⟩
    have hpresent : present machinesResponse.names look =
        [(.text "machines", .array (entries.map MachineEntry.json))] := by
      show present [.text "machines"] look = _
      simp [present_text_cons, look]
    exact deserializeStruct_present hresp (by decide) (by decide) hbuild hpresent
  | renamed name =>
    have hresp : renameResponse.Respects fun _ => Eq := respects_eq
    let look : JsonString → Option Json := fun k => List.lookup k
      [(.text "machine_name", .ofString name)]
    have hbuild : renameResponse.build look = some name :=
      lookups_of_required.2 ⟨.ofString name, by simp [look], rfl⟩
    have hpresent : present renameResponse.names look =
        [(.text "machine_name", .ofString name)] := by
      show present [.text "machine_name"] look = _
      simp [present_text_cons, look]
    exact deserializeStruct_present hresp (by decide) (by decide) hbuild hpresent

/-- **What replies are accepted, and as what.**  Where no record is given as an array, a 2xx body
is accepted if and only if it is a statement of the server with members added anywhere, in whatever
order, and what the caller gets is what is stated: every token and name to the letter, every time
stamp as its point in time, and a member that is absent as one that is null. -/
theorem deserialize_iff (e : Endpoint) {doc : Json} (hobj : ¬ Positional e.shape doc)
    (result : e.Result) :
    e.deserialize doc = some result ↔
      ∃ s : Statement e, s.result = result ∧ Grows e.shape s.json doc := by
  constructor
  · intro h
    cases e with
    | token => exact ⟨.token result.token result.chain, rfl, grows_of_tokenResponse hobj h⟩
    | deactivate => exact grows_of_deactivateResult hobj h
    | machines => exact grows_of_machinesResponse hobj h
    | rename => exact ⟨.renamed result, rfl, grows_of_renameResponse hobj h⟩
  · rintro ⟨s, rfl, hgrows⟩
    rw [← e.stable s.json doc hgrows]
    exact deserialize_json s

theorem newerDoc_not_positional : ¬ Positional tokenShape newerDoc := by
  intro h
  cases h with
  | member hmem h =>
    simp only [List.mem_cons, Prod.mk.injEq, List.not_mem_nil, or_false] at hmem
    rcases hmem with ⟨rfl, rfl⟩ | ⟨rfl, rfl⟩ | ⟨rfl, rfl⟩
    · cases h
    · change Positional certChainShape (.object newerChain) at h
      cases h with
      | member hmem h =>
        simp only [newerChain, List.mem_cons, Prod.mk.injEq, List.not_mem_nil, or_false] at hmem
        rcases hmem with ⟨rfl, rfl⟩ | ⟨rfl, rfl⟩ | ⟨rfl, rfl⟩ | ⟨rfl, rfl⟩ <;> cases h
    · cases h

theorem deserialize_iff_sample :
    Endpoint.token.deserialize newerDoc = some ⟨"t", ⟨"s", "p", "d"⟩⟩ :=
  (deserialize_iff .token newerDoc_not_positional _).2
    ⟨.token "t" ⟨"s", "p", "d"⟩, rfl, newerDoc_grows⟩

end LatteRs
