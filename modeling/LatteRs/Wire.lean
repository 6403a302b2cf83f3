import LatteRs.ErrorReply

/-!
# The bodies of replies

The decoders that `serde` derives for the replies of the server, and what they
accept.  The server may add members to any object, and sends them in any order.

* the records `certChain`, `tokenResponse`, `deactivateResult`, `machine`,
  `machinesResponse`, `renameResponse`;
* `Shape`, `Grows`: documents to which members have been added where no decoder
  asks for them;
* `Endpoint`, `JsonReader`, `Platform.reading`: the decoders of the four 2xx replies;
* `newer_replies`: what `Sdk::call` makes of a reply is the same when it grows.
-/

namespace LatteRs

open Records

/-! ### Values -/

/-- `bool::deserialize`. -/
def deBool : Json → Option Bool
  | .bool b => some b
  | _ => none

/-- `Option::<String>::deserialize`. -/
def deOptString : Json → Option (Option String)
  | .null => some none
  | .string (.text s) => some (some s)
  | _ => none

/-- `de_time`; that `parse_rfc3339` does not panic is `parseRfc3339_ne_panic`. -/
def deTime : Json → Option SystemTime
  | .string (.text s) =>
    match parseRfc3339 s with
    | .error _ => none
    | .ok t => some t
  | _ => none

/-- `Vec::deserialize`. -/
def deVec {α : Type} (de : Json → Option α) : Json → Option (List α)
  | .array xs => xs.mapM de
  | _ => none

/-! ### Records -/

def certChain : Record JsonString Json CertChain :=
  ((required "submaster" deString).and
    ((required "project" deString).and (required "daily" deString))).map
      fun (submaster, project, daily) => ⟨submaster, project, daily⟩

def tokenResponse : Record JsonString Json TokenResponse :=
  ((required "token" deString).and (required "chain" (deserializeStruct certChain))).map
    fun (token, chain) => ⟨token, chain⟩

def deactivateResult : Record JsonString Json DeactivateResult :=
  ((required "released" deBool).and (optional "seat_free_at" none deOptTime)).map
    fun (released, seatFreeAt) => ⟨released, seatFreeAt⟩

def machine : Record JsonString Json Machine :=
  ((optional "machine_name" none deOptString).and
    ((required "machine_fingerprint" deString).and
      ((required "activated_at" deTime).and
        ((required "last_seen_at" deTime).and
          ((optional "seat_free_at" none deOptTime).and (required "current" deBool)))))).map
    fun (name, fingerprint, activatedAt, lastSeenAt, seatFreeAt, current) =>
      ⟨name, fingerprint, activatedAt, lastSeenAt, seatFreeAt, current⟩

def machinesResponse : Record JsonString Json (List Machine) :=
  required "machines" (deVec (deserializeStruct machine))

def renameResponse : Record JsonString Json String :=
  required "machine_name" deString

/-! ### Documents that grow -/

/-- What a decoder looks at: a value as a whole, a list, or the fields of a record. -/
inductive Shape
  | leaf
  | list (item : Shape)
  | record (fields : List (String × Shape))

/-- What is looked at behind the name of a member. -/
def shapeOf (fields : List (String × Shape)) : JsonString → Shape
  | .text name => (fields.lookup name).getD .leaf
  | .broken _ => .leaf

/-- The second document is the first with members added to objects, under names that are no
fields there, and in another order. -/
inductive Grows : Shape → Json → Json → Prop
  | same (s : Shape) (doc : Json) : Grows s doc doc
  | list {item : Shape} {xs ys : List Json} (hlength : xs.length = ys.length)
      (hitems : ∀ (i : ℕ) (x y : Json), xs[i]? = some x → ys[i]? = some y → Grows item x y) :
      Grows (.list item) (.array xs) (.array ys)
  | record {fields : List (String × Shape)} {ms ms₁ ms' extra : List (JsonString × Json)}
      (hnames : ms₁.map Prod.fst = ms.map Prod.fst)
      (hvalues : ∀ (i : ℕ) (m m₁ : JsonString × Json), ms[i]? = some m → ms₁[i]? = some m₁ →
        Grows (shapeOf fields m.1) m.2 m₁.2)
      (hperm : ms'.Perm (ms₁ ++ extra))
      (hextra : ∀ m ∈ extra, m.1.isText = true ∧ m.1 ∉ fields.map fun f => JsonString.text f.1) :
      Grows (.record fields) (.object ms) (.object ms')

section
variable {fields : List (String × Shape)}

/-- Members to which others are added, under names that are no fields. -/
def Added (fields : List (String × Shape)) (ms ms' : List (JsonString × Json)) : Prop :=
  ∃ extra, ms'.Perm (ms ++ extra) ∧
    ∀ m ∈ extra, m.1.isText = true ∧ m.1 ∉ fields.map fun f => JsonString.text f.1

theorem Added.grows {ms ms' : List (JsonString × Json)} (h : Added fields ms ms') :
    Grows (.record fields) (.object ms) (.object ms') := by
  obtain ⟨extra, hperm, hextra⟩ := h
  refine .record rfl (fun i m m₁ hm hm₁ => ?_) hperm hextra
  cases hm.symm.trans hm₁
  exact .same _ _

/-- The last of the members has grown. -/
theorem Added.grows_last {front ms' : List (JsonString × Json)} {name : JsonString} {v v' : Json}
    (h : Added fields (front ++ [(name, v')]) ms') (hv : Grows (shapeOf fields name) v v') :
    Grows (.record fields) (.object (front ++ [(name, v)])) (.object ms') := by
  obtain ⟨extra, hperm, hextra⟩ := h
  refine .record (by simp) (fun i m m₁ hm hm₁ => ?_) hperm hextra
  by_cases hi : i < front.length
  · rw [List.getElem?_append_left hi] at hm hm₁
    cases hm.symm.trans hm₁
    exact .same _ _
  · rw [List.getElem?_append_right (by omega), List.getElem?_singleton] at hm hm₁
    split_ifs at hm hm₁
    cases hm
    cases hm₁
    exact hv

end

/-- A decoder that does not see what is added. -/
def Stable {α : Type} (s : Shape) (de : Json → Option α) : Prop :=
  ∀ doc doc', Grows s doc doc' → de doc = de doc'

theorem stable_leaf {α : Type} (de : Json → Option α) : Stable .leaf de := by
  intro doc doc' h
  cases h
  rfl

theorem mapM_congr {α : Type} {de : Json → Option α} {xs ys : List Json}
    (h : List.Forall₂ (fun x y => de x = de y) xs ys) : xs.mapM de = ys.mapM de := by
  induction h with
  | nil => rfl
  | cons hx _ ih => rw [List.mapM_cons, List.mapM_cons, hx, ih]

theorem Stable.list {α : Type} {item : Shape} {de : Json → Option α} (h : Stable item de) :
    Stable (.list item) (deVec de) := by
  intro doc doc' hgrows
  cases hgrows with
  | same => rfl
  | list hlength hitems =>
    refine mapM_congr (List.forall₂_iff_get.2 ⟨hlength, fun i hi hi' => ?_⟩)
    exact h _ _ (hitems i _ _ (List.getElem?_eq_getElem hi) (List.getElem?_eq_getElem hi'))

/-- A record does not see what is added if its fields do not. -/
theorem stable_record {α : Type} {fields : List (String × Shape)} {r : Record JsonString Json α}
    (hnames : r.names = fields.map fun f => JsonString.text f.1)
    (h : r.Respects fun name => Grows (shapeOf fields name)) :
    Stable (.record fields) (deserializeStruct r) := by
  intro doc doc' hgrows
  cases hgrows with
  | same => rfl
  | @record _ ms ms₁ ms' extra hsame hvalues hperm hextra =>
    have hlength : ms.length = ms₁.length := by
      simpa using congrArg List.length hsame.symm
    have hgrown : List.Forall₂ (fun m m₁ => m.1 = m₁.1 ∧ Grows (shapeOf fields m.1) m.2 m₁.2)
        ms ms₁ := by
      refine List.forall₂_iff_get.2 ⟨hlength, fun i hi hi' => ⟨?_, ?_⟩⟩
      · have hname := congrArg (fun names => names[i]?) hsame
        simp only [List.getElem?_map, List.getElem?_eq_getElem hi, List.getElem?_eq_getElem hi',
          Option.map_some, Option.some.injEq] at hname
        exact hname.symm
      · exact hvalues i _ _ (List.getElem?_eq_getElem hi) (List.getElem?_eq_getElem hi')
    refine (Record.ofMembers_grown h hgrown hperm fun m hm => ?_).symm
    rw [hnames]
    exact hextra m hm

/-- A field that is looked at as a whole. -/
theorem respects_leaf {α : Type} {fields : List (String × Shape)} {name : String}
    {absent : Option α} {de : Json → Option α} (h : shapeOf fields (.text name) = .leaf) :
    (Record.field (.text name) absent de).Respects fun name => Grows (shapeOf fields name) := by
  refine Record.respects_field fun v v' hv => ?_
  rw [h] at hv
  exact stable_leaf de v v' hv

/-! ### Shapes -/

def certChainShape : Shape := .record [("submaster", .leaf), ("project", .leaf), ("daily", .leaf)]

def tokenShape : Shape := .record [("token", .leaf), ("chain", certChainShape)]

def deactivateShape : Shape := .record [("released", .leaf), ("seat_free_at", .leaf)]

def machineShape : Shape := .record [("machine_name", .leaf), ("machine_fingerprint", .leaf),
  ("activated_at", .leaf), ("last_seen_at", .leaf), ("seat_free_at", .leaf), ("current", .leaf)]

def machinesShape : Shape := .record [("machines", .list machineShape)]

def renameShape : Shape := .record [("machine_name", .leaf)]

def errorShape : Shape := .record [("error", .leaf), ("reason", .leaf), ("available_at", .leaf)]

theorem stable_certChain : Stable certChainShape (deserializeStruct certChain) := by
  refine stable_record rfl (Record.Respects.map ?_ _)
  exact (respects_leaf rfl).and ((respects_leaf rfl).and (respects_leaf rfl))

theorem stable_tokenResponse : Stable tokenShape (deserializeStruct tokenResponse) := by
  refine stable_record rfl (Record.Respects.map ?_ _)
  exact (respects_leaf rfl).and (Record.respects_field stable_certChain)

theorem stable_deactivateResult : Stable deactivateShape (deserializeStruct deactivateResult) := by
  refine stable_record rfl (Record.Respects.map ?_ _)
  exact (respects_leaf rfl).and (respects_leaf rfl)

theorem stable_machine : Stable machineShape (deserializeStruct machine) := by
  refine stable_record rfl (Record.Respects.map ?_ _)
  exact (respects_leaf rfl).and ((respects_leaf rfl).and ((respects_leaf rfl).and
    ((respects_leaf rfl).and ((respects_leaf rfl).and (respects_leaf rfl)))))

theorem stable_machinesResponse : Stable machinesShape (deserializeStruct machinesResponse) :=
  stable_record rfl (Record.respects_field stable_machine.list)

theorem stable_renameResponse : Stable renameShape (deserializeStruct renameResponse) :=
  stable_record rfl (respects_leaf rfl)

theorem stable_errorResponse : Stable errorShape (deserializeStruct errorResponse) := by
  refine stable_record rfl (Record.Respects.map ?_ _)
  exact (respects_leaf rfl).and ((respects_leaf rfl).and (respects_leaf rfl))

/-! ### Replies -/

/-- The 2xx replies: those of token requests, of deactivations, of lists of machines and of new
names. -/
inductive Endpoint
  | token
  | deactivate
  | machines
  | rename
  deriving DecidableEq

namespace Endpoint

@[reducible] def Result : Endpoint → Type
  | token => TokenResponse
  | deactivate => DeactivateResult
  | machines => List Machine
  | rename => String

def deserialize : (e : Endpoint) → Json → Option e.Result
  | token => deserializeStruct tokenResponse
  | deactivate => deserializeStruct deactivateResult
  | machines => deserializeStruct machinesResponse
  | rename => deserializeStruct renameResponse

def shape : Endpoint → Shape
  | token => tokenShape
  | deactivate => deactivateShape
  | machines => machinesShape
  | rename => renameShape

theorem stable (e : Endpoint) : Stable e.shape e.deserialize := by
  cases e with
  | token => exact stable_tokenResponse
  | deactivate => exact stable_deactivateResult
  | machines => exact stable_machinesResponse
  | rename => exact stable_renameResponse

end Endpoint

/-- `serde_json` on a slice: the document it is, and the text of the error where it is none or is
not what is asked for. -/
structure JsonReader where
  parse : Bytes → Option Json
  errorText : Endpoint → Bytes → String

/-- `serde_json::from_slice`. -/
def JsonReader.fromSlice (J : JsonReader) (e : Endpoint) (bytes : Bytes) :
    Except String e.Result :=
  match (J.parse bytes).bind e.deserialize with
  | none => .error (J.errorText e bytes)
  | some result => .ok result

/-- The platform with these decoders. -/
def Platform.reading (P : Platform) (J : JsonReader) : Platform :=
  { P.readingErrors J.parse with
    tokenResponse := J.fromSlice .token
    deactivateResult := J.fromSlice .deactivate
    machinesResponse := J.fromSlice .machines
    renameResponse := J.fromSlice .rename }

section
variable {J : JsonReader} {e : Endpoint} {bytes bytes' : Bytes} {doc doc' : Json}

theorem fromSlice_eq_ok {result : e.Result} (hdoc : J.parse bytes = some doc) :
    J.fromSlice e bytes = .ok result ↔ e.deserialize doc = some result := by
  unfold JsonReader.fromSlice
  rw [hdoc, Option.bind_some]
  cases e.deserialize doc with
  | none => simp
  | some result' => simp

/-- The body of an error reply that has grown. -/
theorem errorBody_grows (P : Platform) (hdoc : J.parse bytes = some doc)
    (hdoc' : J.parse bytes' = some doc') (h : Grows errorShape doc doc') :
    errorBody (P.reading J) (.ok bytes') = errorBody (P.reading J) (.ok bytes) := by
  have hread : ∀ b, (P.reading J).errorResponse b = ErrorResponse.fromSlice J.parse b :=
    fun _ => rfl
  have hsame : ErrorResponse.deserialize doc = ErrorResponse.deserialize doc' :=
    stable_errorResponse doc doc' h
  unfold errorBody
  simp only [hread, ErrorResponse.fromSlice, hdoc, hdoc', Option.bind_some, hsame]

/-- **Newer servers are understood.**  When members are added anywhere to the body of a reply under
names that are no fields there, in whatever order, a call returns a result exactly when it returns
it without them, and an error reply leads to the same error. -/
theorem newer_replies (P : Platform) (e : Endpoint) (path : String) {status : ℕ}
    (hdoc : J.parse bytes = some doc) (hdoc' : J.parse bytes' = some doc')
    (h : Grows (if isSuccess status then e.shape else errorShape) doc doc') :
    (∀ result, readReply (P.reading J) path (J.fromSlice e) (.ok (status, .ok bytes')) =
        .ok result ↔
      readReply (P.reading J) path (J.fromSlice e) (.ok (status, .ok bytes)) = .ok result) ∧
      (¬ isSuccess status →
        readReply (P.reading J) path (J.fromSlice e) (.ok (status, .ok bytes')) =
          readReply (P.reading J) path (J.fromSlice e) (.ok (status, .ok bytes))) := by
  unfold readReply
  by_cases hs : isSuccess status
  · simp only [hs, if_true] at h ⊢
    refine ⟨fun result => ?_, fun hnot => absurd trivial hnot⟩
    have hbody : ∀ b : Bytes, decodeBody (J.fromSlice e) (.ok b) = .ok result ↔
        J.fromSlice e b = .ok result := by
      intro b
      rw [decodeBody_eq_ok]
      simp
    rw [hbody, hbody, fromSlice_eq_ok hdoc, fromSlice_eq_ok hdoc', e.stable doc doc' h]
  · simp only [hs, if_false] at h ⊢
    rw [errorBody_grows P hdoc hdoc' h]
    simp

end

/-! ### A token reply of a newer server -/

def olderText : String :=
  "\x7b\"token\":\"t\",\"chain\":\x7b\"submaster\":\"s\",\"project\":\"p\",\"daily\":\"d\"\x7d\x7d"

def newerText : String :=
  "\x7b\"id\":7,\"chain\":\x7b\"v\":2,\"daily\":\"d\",\"project\":\"p\",\"submaster\":\"s\"\x7d," ++
    "\"token\":\"t\"\x7d"

def olderChain : List (JsonString × Json) :=
  [(.text "submaster", .string (.text "s")), (.text "project", .string (.text "p")),
    (.text "daily", .string (.text "d"))]

def newerChain : List (JsonString × Json) :=
  [(.text "v", .number [50]), (.text "daily", .string (.text "d")),
    (.text "project", .string (.text "p")), (.text "submaster", .string (.text "s"))]

def olderDoc : Json :=
  .object [(.text "token", .string (.text "t")), (.text "chain", .object olderChain)]

def newerDoc : Json :=
  .object [(.text "id", .number [55]), (.text "chain", .object newerChain),
    (.text "token", .string (.text "t"))]

/-- A parser of these two texts. -/
def sampleParse (bytes : Bytes) : Option Json :=
  if bytes = asBytes olderText then some olderDoc
  else if bytes = asBytes newerText then some newerDoc
  else none

def sampleReader : JsonReader where
  parse := sampleParse
  errorText _ _ := "expected value"

theorem newerChain_grows : Grows certChainShape (.object olderChain) (.object newerChain) := by
  refine Added.grows ⟨[(.text "v", .number [50])], ?_, by decide⟩
  exact (List.reverse_perm newerChain).symm

theorem newerDoc_grows : Grows tokenShape olderDoc newerDoc := by
  have hadded : Added [("token", .leaf), ("chain", certChainShape)]
      ([(.text "token", .string (.text "t"))] ++ [(.text "chain", .object newerChain)])
      [(.text "id", .number [55]), (.text "chain", .object newerChain),
        (.text "token", .string (.text "t"))] :=
    ⟨[(.text "id", .number [55])], (List.reverse_perm _).symm, by decide⟩
  exact hadded.grows_last newerChain_grows

theorem newer_replies_sample :
    readReply (samplePlatform.reading sampleReader) "/v1/renew" (sampleReader.fromSlice .token)
      (.ok (200, .ok (asBytes newerText))) = .ok ⟨"t", ⟨"s", "p", "d"⟩⟩ := by
  have hdoc : sampleReader.parse (asBytes olderText) = some olderDoc := by
    show sampleParse (asBytes olderText) = some olderDoc
    unfold sampleParse
    rw [if_pos rfl]
  have hdoc' : sampleReader.parse (asBytes newerText) = some newerDoc := by
    have hne : asBytes newerText ≠ asBytes olderText := by decide +kernel
    show sampleParse (asBytes newerText) = some newerDoc
    unfold sampleParse
    rw [if_neg hne, if_pos rfl]
  have hgrows : Grows (if isSuccess 200 then Endpoint.token.shape else errorShape) olderDoc
      newerDoc := newerDoc_grows
  refine ((newer_replies samplePlatform .token "/v1/renew" hdoc hdoc' hgrows).1 _).2 ?_
  refine readReply_eq_ok.2 ⟨200, _, rfl, by decide, (fromSlice_eq_ok hdoc).2 ?_⟩
  rfl

end LatteRs
