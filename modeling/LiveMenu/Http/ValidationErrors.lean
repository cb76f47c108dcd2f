import LiveMenu.Model.Validation

/-!
# Rejected requests

The handler renders the errors of a rejected request as they are. It fails on those that repeat a
value JSON does not have, and on those whose context holds an exception or a `Decimal`.
`Endpoint.Reportable` says of a request that it causes no such error.
-/

namespace LiveMenu

/-! ### Rendering -/

/-- JSON has the value, and UTF-8 its texts. -/
def Json.Printable (j : Json) : Prop := j.finite = true ∧ j.encodable = true

@[simp] lemma Json.printable_number (q : ℚ) : (Json.number q).Printable := ⟨rfl, rfl⟩

@[simp] lemma PyStr.encodable_ofString (s : String) : (PyStr.ofString s).encodable = true := by
  rw [encodable, ofString, PyStr.encode_eq_some.mpr rfl]
  rfl

namespace PyValue

/-- `JSONResponse` renders the value. -/
def Renders (v : PyValue) : Prop := ∃ j, v.render = .ok j

lemma renders_iff {v : PyValue} : v.Renders ↔ ∃ j, v.dumps = .ok j ∧ j.encodable = true := by
  simp only [Renders, render, Except.bind_eq_ok_iff]
  constructor
  · rintro ⟨j, j', hj', h⟩
    split_ifs at h with he
    exact ⟨j', hj', he⟩
  · rintro ⟨j, hj, he⟩
    exact ⟨j, j, hj, if_pos he⟩

@[simp] lemma renders_json {j : Json} : (PyValue.json j).Renders ↔ j.Printable := by
  rw [renders_iff, dumps, Json.Printable]
  split_ifs with hf
  · simp [hf]
  · simp [hf]

@[simp] lemma renders_str (s : String) : (PyValue.str s).Renders := by
  rw [PyValue.str, renders_json]
  exact ⟨rfl, PyStr.encodable_ofString s⟩

@[simp] lemma not_renders_bytes (b : List UInt8) : ¬ (PyValue.bytes b).Renders := by
  simp [renders_iff, dumps]

@[simp] lemma not_renders_decimal (q : ℚ) : ¬ (PyValue.decimal q).Renders := by
  simp [renders_iff, dumps]

@[simp] lemma not_renders_valueError (text : String) : ¬ (PyValue.valueError text).Renders := by
  simp [renders_iff, dumps]

lemma dumpsList_renders_iff {xs : List PyValue} :
    (∃ js, dumpsList xs = .ok js ∧ (JsonArray.ofList js).encodable = true) ↔
      ∀ x ∈ xs, x.Renders := by
  induction xs with
  | nil => exact iff_of_true ⟨[], rfl, rfl⟩ (by simp)
  | cons x xs ih =>
    rw [List.forall_mem_cons, ← ih, renders_iff, dumpsList]
    simp only [Except.bind_eq_ok_iff, Except.pure_eq_ok]
    constructor
    · rintro ⟨_, ⟨j, hj, js, hjs, ⟨⟩⟩, he⟩
      rw [JsonArray.ofList, JsonArray.encodable, Bool.and_eq_true] at he
      exact ⟨⟨j, hj, he.1⟩, ⟨js, hjs, he.2⟩⟩
    · rintro ⟨⟨j, hj, he⟩, js, hjs, hes⟩
      refine ⟨j :: js, ⟨j, hj, js, hjs, rfl⟩, ?_⟩
      rw [JsonArray.ofList, JsonArray.encodable, he, hes, Bool.and_self]

@[simp] lemma renders_list {xs : List PyValue} :
    (PyValue.list xs).Renders ↔ ∀ x ∈ xs, x.Renders := by
  rw [← dumpsList_renders_iff, renders_iff, dumps]
  simp only [Except.bind_eq_ok_iff, Except.pure_eq_ok]
  constructor
  · rintro ⟨_, ⟨js, hjs, ⟨⟩⟩, he⟩
    exact ⟨js, hjs, he⟩
  · rintro ⟨js, hjs, he⟩
    exact ⟨_, ⟨js, hjs, rfl⟩, he⟩

lemma dumpsDict_renders_iff {kvs : List (String × PyValue)} :
    (∃ js, dumpsDict kvs = .ok js ∧ (JsonObject.ofList js).encodable = true) ↔
      ∀ kv ∈ kvs, kv.2.Renders := by
  induction kvs with
  | nil => exact iff_of_true ⟨[], rfl, rfl⟩ (by simp)
  | cons kv kvs ih =>
    obtain ⟨k, x⟩ := kv
    rw [List.forall_mem_cons, ← ih, renders_iff, dumpsDict]
    simp only [Except.bind_eq_ok_iff, Except.pure_eq_ok]
    constructor
    · rintro ⟨_, ⟨j, hj, js, hjs, ⟨⟩⟩, he⟩
      simp only [JsonObject.ofList, JsonObject.encodable, PyStr.encodable_ofString, Bool.true_and,
        Bool.and_eq_true] at he
      exact ⟨⟨j, hj, he.1⟩, ⟨js, hjs, he.2⟩⟩
    · rintro ⟨⟨j, hj, he⟩, js, hjs, hes⟩
      refine ⟨(k, j) :: js, ⟨j, hj, js, hjs, rfl⟩, ?_⟩
      simp [JsonObject.ofList, JsonObject.encodable, he, hes]

@[simp] lemma renders_dict {kvs : List (String × PyValue)} :
    (PyValue.dict kvs).Renders ↔ ∀ kv ∈ kvs, kv.2.Renders := by
  rw [← dumpsDict_renders_iff, renders_iff, dumps]
  simp only [Except.bind_eq_ok_iff, Except.pure_eq_ok]
  constructor
  · rintro ⟨_, ⟨js, hjs, ⟨⟩⟩, he⟩
    exact ⟨js, hjs, he⟩
  · rintro ⟨js, hjs, he⟩
    exact ⟨_, ⟨js, hjs, rfl⟩, he⟩

lemma dumps_finite {v : PyValue} : ∀ {j}, v.dumps = .ok j → j.finite = true := by
  refine @PyValue.rec (fun v => ∀ {j}, v.dumps = .ok j → j.finite = true)
    (fun xs => ∀ {js}, dumpsList xs = .ok js → (JsonArray.ofList js).finite = true)
    (fun kvs => ∀ {js}, dumpsDict kvs = .ok js → (JsonObject.ofList js).finite = true)
    (fun kv => ∀ {j}, kv.2.dumps = .ok j → j.finite = true) ?_ ?_ ?_ ?_ ?_ ?_ ?_ ?_ ?_ ?_ ?_ v
  · intro j j' h
    rw [dumps] at h
    split_ifs at h with hf
    cases h
    exact hf
  · intro b j h
    cases h
  · intro q j h
    cases h
  · intro text j h
    cases h
  · intro xs ih j h
    obtain ⟨js, hjs, ⟨⟩⟩ := Except.bind_eq_ok_iff.mp h
    exact ih hjs
  · intro kvs ih j h
    obtain ⟨js, hjs, ⟨⟩⟩ := Except.bind_eq_ok_iff.mp h
    exact ih hjs
  · intro js h
    cases h
    rfl
  · intro x xs hx hxs js h
    obtain ⟨j, hj, h⟩ := Except.bind_eq_ok_iff.mp h
    obtain ⟨js, hjs, ⟨⟩⟩ := Except.bind_eq_ok_iff.mp h
    rw [JsonArray.ofList, JsonArray.finite, hx hj, hxs hjs, Bool.and_self]
  · intro js h
    cases h
    rfl
  · intro kv kvs hx hkvs js h
    obtain ⟨j, hj, h⟩ := Except.bind_eq_ok_iff.mp h
    obtain ⟨js, hjs, ⟨⟩⟩ := Except.bind_eq_ok_iff.mp h
    rw [JsonObject.ofList, JsonObject.finite, hx hj, hkvs hjs, Bool.and_self]
  · intro k x hx j h
    exact hx h

/-- What is rendered is JSON. -/
lemma render_printable {v : PyValue} {j : Json} (h : v.render = .ok j) : j.Printable := by
  obtain ⟨j', hj', h⟩ := Except.bind_eq_ok_iff.mp h
  split_ifs at h with he
  cases h
  exact ⟨dumps_finite hj', he⟩

end PyValue

/-- The handler renders the error. -/
def ErrorDetails.Renders (e : ErrorDetails) : Prop :=
  e.input.Renders ∧ ∀ kv ∈ e.ctx, kv.2.Renders

lemma LocItem.renders (item : LocItem) : item.toPy.Renders := by
  cases item with
  | key name => exact PyValue.renders_str name
  | index i => exact PyValue.renders_json.mpr (Json.printable_number i)

lemma ErrorDetails.renders_toPy {e : ErrorDetails} : e.toPy.Renders ↔ e.Renders := by
  have hloc : (PyValue.list (e.loc.map LocItem.toPy)).Renders := by
    rw [PyValue.renders_list, List.forall_mem_map]
    exact fun item _ => item.renders
  rw [toPy, PyValue.renders_dict, List.forall_mem_append, Renders]
  refine and_congr (by simp [hloc]) ?_
  cases h : e.ctx with
  | nil => simp
  | cons kv kvs => simp

/-- The handler answers with 422 and JSON exactly if it renders every error. -/
lemma validationExceptionHandler_answers_iff {requestId : Option String}
    {errors : List ErrorDetails} :
    (∃ response, validationExceptionHandler requestId errors = .ok response ∧
      response.statusCode = 422 ∧ response.body.Printable) ↔ ∀ e ∈ errors, e.Renders := by
  have hcontent : (PyValue.dict [
      ("detail", PyValue.str "validation_error"),
      ("message", PyValue.str "Request validation failed"),
      ("errors", .list (errors.map ErrorDetails.toPy)),
      ("request_id", PyValue.str (requestId.getD "unknown"))]).Renders ↔
        ∀ e ∈ errors, e.Renders := by
    simp [ErrorDetails.renders_toPy]
  rw [← hcontent]
  constructor
  · rintro ⟨response, h, -⟩
    obtain ⟨body, hbody, -⟩ := Except.bind_eq_ok_iff.mp h
    exact ⟨body, hbody⟩
  · rintro ⟨body, hbody⟩
    refine ⟨⟨422, body⟩, ?_, rfl, PyValue.render_printable hbody⟩
    exact Except.bind_eq_ok_iff.mpr ⟨body, hbody, rfl⟩

/-! ### Contexts -/

/-- The handler renders the context of the refusal. -/
def Failure.CtxRenders (f : Failure) : Prop := ∀ kv ∈ f.ctx, kv.2.Renders

lemma Failure.error_renders_iff {f : Failure} {loc : List LocItem} {input : PyValue} :
    (f.error loc input).Renders ↔ input.Renders ∧ f.CtxRenders := Iff.rfl

lemma ReadFailure.ctxRenders (f : ReadFailure) : f.failure.CtxRenders := by
  rw [Failure.CtxRenders, failure, List.forall_mem_map]
  exact fun kv _ => PyValue.renders_str kv.2

lemma ReadFailure.ctxRenders_of_mem_map {o : Option ReadFailure} {f : Failure}
    (h : f ∈ o.map failure) : f.CtxRenders := by
  obtain ⟨g, -, rfl⟩ := Option.map_eq_some_iff.mp h
  exact g.ctxRenders

/-- The first of two refusals is one of them. -/
lemma Failure.mem_or {a b : Option Failure} {f : Failure} (h : f ∈ (a <|> b)) : f ∈ a ∨ f ∈ b := by
  cases a with
  | none => exact .inr h
  | some g => exact .inl h

lemma StrField.ctxRenders {c : StrField} {s : PyStr} {f : Failure} (h : f ∈ c.failure s) :
    f.CtxRenders := by
  rw [failure] at h
  split_ifs at h
  · cases h
  · split at h
    · cases h
      simp [notUnicode, Failure.CtxRenders]
    · rcases Failure.mem_or h with h | h
      · obtain ⟨n, -, rfl⟩ := Option.map_eq_some_iff.mp h
        simp [tooShort, Failure.CtxRenders]
      · rcases Failure.mem_or h with h | h
        · obtain ⟨n, -, rfl⟩ := Option.map_eq_some_iff.mp h
          simp [tooLong, Failure.CtxRenders]
        · obtain ⟨choices, -, rfl⟩ := Option.map_eq_some_iff.mp h
          simp [mismatch, Failure.CtxRenders]

lemma IntField.ctxRenders {c : IntField} {n : ℤ} {f : Failure} (h : f ∈ c.failure n) :
    f.CtxRenders := by
  rcases Failure.mem_or h with h | h
  · obtain ⟨le, -, rfl⟩ := Option.map_eq_some_iff.mp h
    simp [tooHigh, Failure.CtxRenders]
  · obtain ⟨ge, -, rfl⟩ := Option.map_eq_some_iff.mp h
    simp [tooLow, Failure.CtxRenders]

namespace DecimalField

/-- The value has at most the decimal places the field allows. -/
def PlacesOk (c : DecimalField) (R : Readers) (q : ℚ) : Prop :=
  ∀ n ∈ c.decimalPlaces, R.decimalPlaces q ≤ n

/-- The value is within the bounds of the field. -/
def InBounds (c : DecimalField) (q : ℚ) : Prop := (∀ b ∈ c.ge, b ≤ q) ∧ ∀ b ∈ c.gt, b < q

variable {c : DecimalField} {R : Readers} {q : ℚ}

lemma placesFailure_eq_none_iff : c.placesFailure R q = none ↔ c.PlacesOk R q := by
  simp [placesFailure, PlacesOk, Option.filter_eq_none_iff]

lemma boundFailure_eq_none_iff : c.boundFailure q = none ↔ c.InBounds q := by
  simp [boundFailure, InBounds, Option.filter_eq_none_iff]

lemma ctxRenders_of_placesFailure {f : Failure} (h : f ∈ c.placesFailure R q) : f.CtxRenders := by
  obtain ⟨n, -, rfl⟩ := Option.map_eq_some_iff.mp h
  simp [tooManyPlaces, Failure.CtxRenders]

/-- The context of a bound holds the bound itself. -/
lemma not_ctxRenders_of_boundFailure {f : Failure} (h : f ∈ c.boundFailure q) : ¬ f.CtxRenders := by
  rcases Failure.mem_or h with h | h
  · obtain ⟨ge, -, rfl⟩ := Option.map_eq_some_iff.mp h
    simp [tooLow, Failure.CtxRenders]
  · obtain ⟨gt, -, rfl⟩ := Option.map_eq_some_iff.mp h
    simp [notAbove, Failure.CtxRenders]

lemma ctxRenders_iff : (∀ f ∈ c.failure R (.finite q), f.CtxRenders) ↔
    (c.PlacesOk R q → c.InBounds q) := by
  rw [failure, ← placesFailure_eq_none_iff, ← boundFailure_eq_none_iff]
  cases hp : c.placesFailure R q with
  | some f => simpa using ctxRenders_of_placesFailure hp
  | none =>
    cases hb : c.boundFailure q with
    | none => simp
    | some f => simpa using not_ctxRenders_of_boundFailure hb

end DecimalField

/-! ### Types -/

namespace Scalar

variable {R : Readers}

/-- The type accepts the value. -/
def Accepts (R : Readers) (s : Scalar) (j : Json) : Prop := s.failure R j = none

/-- No validator raises on an accepted text, and no number is out of the bounds of a `Decimal`. -/
def Plain (R : Readers) : Scalar → Json → Prop
  | .decimal c, j             =>
    ∀ q, R.decimal j = .ok (.finite q) → c.PlacesOk R q → c.InBounds q
  | .validated s validator, j =>
    s.Plain R j ∧ ∀ text, j = .str text → s.Accepts R j → validator text = none
  | _, _                      => True

/-- A refusal of the value can be reported in JSON. -/
def Reportable (R : Readers) (s : Scalar) (j : Json) : Prop :=
  (¬ s.Accepts R j → j.Printable) ∧ s.Plain R j

lemma ctxRenders_iff {s : Scalar} {j : Json} :
    (∀ f ∈ s.failure R j, f.CtxRenders) ↔ s.Plain R j := by
  induction s with
  | str c =>
    refine iff_of_true ?_ trivial
    intro f h
    cases j with
    | str text => exact StrField.ctxRenders h
    | _ =>
      cases h
      simp [stringType, Failure.CtxRenders]
  | email =>
    refine iff_of_true ?_ trivial
    intro f h
    cases j with
    | str text =>
      obtain ⟨reason, -, rfl⟩ := Option.map_eq_some_iff.mp h
      simp [invalidEmail, Failure.CtxRenders]
    | _ =>
      cases h
      simp [stringType, Failure.CtxRenders]
  | uuid => exact iff_of_true (fun _ => ReadFailure.ctxRenders_of_mem_map) trivial
  | datetime => exact iff_of_true (fun _ => ReadFailure.ctxRenders_of_mem_map) trivial
  | bool => exact iff_of_true (fun _ => ReadFailure.ctxRenders_of_mem_map) trivial
  | int c =>
    refine iff_of_true ?_ trivial
    intro f h
    rw [failure] at h
    split at h
    · cases h
      exact ReadFailure.ctxRenders _
    · exact IntField.ctxRenders h
  | decimal c =>
    rw [failure, Plain]
    cases R.decimal j with
    | error g => simpa using g.ctxRenders
    | ok d =>
      cases d with
      | nonFinite => simp [DecimalField.failure, DecimalField.notFinite, Failure.CtxRenders]
      | finite q => simpa using DecimalField.ctxRenders_iff
  | dict =>
    refine iff_of_true ?_ trivial
    intro f h
    cases j with
    | obj kvs => cases h
    | _ =>
      cases h
      simp [Failure.CtxRenders]
  | validated s validator ih =>
    cases hf : s.failure R j with
    | some g =>
      rw [hf] at ih
      simpa [failure, Plain, Accepts, hf] using ih
    | none =>
      have hs : s.Plain R j := ih.mp (by simp [hf])
      cases j with
      | str text =>
        cases hv : validator text with
        | none => simp [failure, Plain, hf, hs, hv]
        | some e =>
          simp [failure, Plain, Accepts, hf, hs, hv, validatorRaised, Failure.CtxRenders]
      | _ => simp [failure, Plain, hf, hs]

lemma errors_render_iff {s : Scalar} {loc : List LocItem} {j : Json} :
    (∀ e ∈ s.errors R loc j, e.Renders) ↔ s.Reportable R j := by
  rw [errors, Reportable, ← ctxRenders_iff, Accepts]
  cases s.failure R j with
  | none => simp
  | some f => simp [Failure.error_renders_iff]

lemma errors_eq_nil_iff {s : Scalar} {loc : List LocItem} {j : Json} :
    s.errors R loc j = [] ↔ s.Accepts R j := by
  rw [errors, Accepts]
  cases s.failure R j with
  | none => simp
  | some f => simp

end Scalar

/-- The error of a refusal without context repeats its input alone. -/
lemma Failure.error_renders_iff_of_ctx {f : Failure} (hf : f.CtxRenders) {loc : List LocItem}
    {input : PyValue} : (f.error loc input).Renders ↔ input.Renders :=
  error_renders_iff.trans (and_iff_left hf)

lemma missing_ctxRenders : missing.CtxRenders := by simp [missing, Failure.CtxRenders]

/-- What is missing as a whole is reported with `None`. -/
lemma missing_renders (loc : List LocItem) : (missing.error loc (.json .null)).Renders :=
  (Failure.error_renders_iff_of_ctx missing_ctxRenders).mpr (PyValue.renders_json.mpr ⟨rfl, rfl⟩)

lemma modelAttributesType_ctxRenders : modelAttributesType.CtxRenders := by
  simp [modelAttributesType, Failure.CtxRenders]

lemma listType_ctxRenders : listType.CtxRenders := by simp [listType, Failure.CtxRenders]

lemma listTooShort_ctxRenders (minLength actual : ℕ) :
    (listTooShort minLength actual).CtxRenders := by
  simp [listTooShort, Failure.CtxRenders]

/-- An element cannot be reported, or the list is too short and cannot be reported. -/
def ListReportable (R : Readers) (item : Scalar) (minLength : ℕ) (xs : JsonArray) : Prop :=
  (∀ x ∈ xs.toList, item.Reportable R x) ∧
    ((∀ x ∈ xs.toList, item.Accepts R x) → xs.toList.length < minLength → (Json.arr xs).Printable)

lemma forall_mem_zipIdx {α : Type} {xs : List α} {p : α → Prop} :
    (∀ x ∈ xs.zipIdx, p x.1) ↔ ∀ x ∈ xs, p x := by
  conv_rhs => rw [← List.zipIdx_map_fst 0 xs]
  exact List.forall_mem_map.symm

lemma listErrors_render_iff {R : Readers} {item : Scalar} {minLength : ℕ} {loc : List LocItem}
    {xs : JsonArray} :
    (∀ e ∈ listErrors R item minLength loc xs, e.Renders) ↔
      ListReportable R item minLength xs := by
  have hreport : (∀ e ∈ elementErrors R item loc xs, e.Renders) ↔
      ∀ x ∈ xs.toList, item.Reportable R x := by
    rw [elementErrors, List.forall_mem_flatMap]
    exact (forall₂_congr fun x _ => Scalar.errors_render_iff).trans forall_mem_zipIdx
  have haccept : elementErrors R item loc xs = [] ↔ ∀ x ∈ xs.toList, item.Accepts R x := by
    rw [elementErrors, List.flatMap_eq_nil_iff]
    exact (forall₂_congr fun x _ => Scalar.errors_eq_nil_iff).trans forall_mem_zipIdx
  rw [listErrors, ListReportable, ← hreport, ← haccept]
  split_ifs with h
  · rw [Bool.and_eq_true, List.isEmpty_iff, decide_eq_true_iff] at h
    simp [h, Failure.error_renders_iff_of_ctx (listTooShort_ctxRenders _ _)]
  · rw [Bool.and_eq_true, List.isEmpty_iff, decide_eq_true_iff] at h
    exact (and_iff_left fun hnil hlen => absurd ⟨hnil, hlen⟩ h).symm

/-- A refusal of the value can be reported in JSON. -/
def FieldType.Reportable (R : Readers) : FieldType → Json → Prop
  | .scalar s, j            => s.Reportable R j
  | .list item minLength, j =>
    match j with
    | .arr xs => ListReportable R item minLength xs
    | j       => j.Printable
  | .optional t, j          =>
    match j with
    | .null => True
    | j     => t.Reportable R j

lemma FieldType.errors_render_iff {R : Readers} {t : FieldType} {loc : List LocItem} {j : Json} :
    (∀ e ∈ t.errors R loc j, e.Renders) ↔ t.Reportable R j := by
  induction t with
  | scalar s => exact Scalar.errors_render_iff
  | list item minLength =>
    cases j with
    | arr xs => exact listErrors_render_iff
    | _ => simp [errors, Reportable, Failure.error_renders_iff_of_ctx listType_ctxRenders]
  | optional t ih =>
    cases j with
    | null => simp [errors, Reportable]
    | _ => exact ih

/-! ### Requests -/

def Param.Reportable (R : Readers) (p : Param) (r : RequestData) : Prop :=
  ∀ text, p.text r = some text → p.type.Reportable R (paramValue text)

lemma Param.errors_render_iff {R : Readers} {p : Param} {r : RequestData} :
    (∀ e ∈ p.errors R r, e.Renders) ↔ p.Reportable R r := by
  rw [errors, Reportable]
  cases p.text r with
  | none => simp
  | some text => simpa using FieldType.errors_render_iff

/-- A field that is missing is reported with the whole body. -/
def Field.Reportable (R : Readers) (f : Field) (kvs : JsonObject) : Prop :=
  match kvs.get f.name with
  | some j  => f.type.Reportable R j
  | none    => f.required = true → (Json.obj kvs).Printable

lemma Field.errors_render_iff {R : Readers} {f : Field} {kvs : JsonObject} :
    (∀ e ∈ f.errors R kvs, e.Renders) ↔ f.Reportable R kvs := by
  rw [errors, Reportable]
  cases kvs.get f.name with
  | some j => exact FieldType.errors_render_iff
  | none =>
    dsimp only
    split_ifs with hreq
    · simp [hreq, Failure.error_renders_iff_of_ctx missing_ctxRenders]
    · simp [hreq]

lemma jsonInvalid_renders (pos : ℕ) (msg : String) : (jsonInvalid pos msg).Renders := by
  simp [jsonInvalid, ErrorDetails.Renders]

lemma Signature.malformed_renders {s : Signature} {r : RequestData} {error : ErrorDetails}
    (h : s.malformed r = some error) : error.Renders := by
  rw [malformed] at h
  split at h
  · cases h
    exact jsonInvalid_renders _ _
  · cases h

/-- A body that was not sent as JSON is reported as bytes. -/
def SchemaReportable (R : Readers) (fields : List Field) : RequestBody → Prop
  | .raw _ _          => False
  | .json .null       => True
  | .json (.obj kvs)  => ∀ f ∈ fields, f.Reportable R kvs
  | .json j           => j.Printable
  | _                 => True

lemma schemaErrors_render_iff {R : Readers} {fields : List Field} {body : RequestBody} :
    (∀ e ∈ schemaErrors R fields body, e.Renders) ↔ SchemaReportable R fields body := by
  cases body with
  | empty => simpa [schemaErrors, SchemaReportable] using missing_renders _
  | malformed pos msg => simpa [schemaErrors, SchemaReportable] using jsonInvalid_renders pos msg
  | raw b hb =>
    simp [schemaErrors, SchemaReportable,
      Failure.error_renders_iff_of_ctx modelAttributesType_ctxRenders]
  | json j =>
    cases j with
    | null => simpa [schemaErrors, SchemaReportable] using missing_renders _
    | obj kvs =>
      rw [schemaErrors, SchemaReportable, List.forall_mem_flatMap]
      exact forall₂_congr fun f _ => Field.errors_render_iff
    | _ =>
      simp [schemaErrors, SchemaReportable,
        Failure.error_renders_iff_of_ctx modelAttributesType_ctxRenders]

/-- A text in the place of a file is reported with the exception of `UploadFile`. -/
def FileReportable : FormValue → Prop
  | .text s => s = []
  | _       => True

lemma fileErrors_render_iff {name : String} {value : FormValue} :
    (∀ e ∈ fileErrors name value, e.Renders) ↔ FileReportable value := by
  cases value with
  | absent => simpa [fileErrors, FileReportable] using missing_renders _
  | upload => simp [fileErrors, FileReportable]
  | text s =>
    rw [fileErrors, FileReportable, ← List.isEmpty_iff]
    split_ifs with hs
    · simpa [hs] using missing_renders _
    · simp [hs, Failure.error_renders_iff, notUploaded, validatorRaised, Failure.CtxRenders]

def BodyParam.Reportable (R : Readers) (r : RequestData) : BodyParam → Prop
  | .none           => True
  | .schema fields  => SchemaReportable R fields r.body
  | .file name      => FileReportable (r.form name)

lemma BodyParam.errors_render_iff {R : Readers} {r : RequestData} {b : BodyParam} :
    (∀ e ∈ b.errors R r, e.Renders) ↔ b.Reportable R r := by
  cases b with
  | none => simp [errors, Reportable]
  | schema fields => exact schemaErrors_render_iff
  | file name => exact fileErrors_render_iff

namespace Endpoint

/-- All that the endpoint refuses of the request can be reported in JSON. -/
def Reportable (R : Readers) (e : Endpoint) (r : RequestData) : Prop :=
  (e.signature.malformed r).isSome ∨
    (∀ p ∈ e.signature.params, p.Reportable R r) ∧ e.signature.body.Reportable R r

lemma errors_render_iff {R : Readers} {e : Endpoint} {r : RequestData} :
    (∀ error ∈ e.errors R r, error.Renders) ↔ e.Reportable R r := by
  rw [errors, Reportable]
  cases h : e.signature.malformed r with
  | some error => simpa using Signature.malformed_renders h
  | none =>
    simp only [List.forall_mem_append, List.forall_mem_flatMap, Param.errors_render_iff,
      BodyParam.errors_render_iff, Option.isSome_none, Bool.false_eq_true, false_or]

/-- A request that an endpoint rejects is answered with 422 and JSON exactly if all that is refused
of it can be reported. -/
theorem rejected_answered_iff (R : Readers) (e : Endpoint) (r : RequestData) :
    (e.Rejects R r → ∃ response, e.answer R r = .ok response ∧ response.statusCode = 422 ∧
      response.body.Printable) ↔ e.Reportable R r := by
  rw [← errors_render_iff, Rejects, answer, validationExceptionHandler_answers_iff]
  constructor
  · intro h
    by_cases hnil : e.errors R r = []
    · simp [hnil]
    · exact h hnil
  · exact fun h _ => h

end Endpoint

/-- Readers that know addresses by their `@`, and JSON's own numbers and booleans. -/
def Readers.sample : Readers where
  email s :=
    if PyChar.scalar '@' ∈ s then none else some "An email address must have an @-sign."
  uuid _ := some ⟨"uuid_parsing", "Input should be a valid UUID", []⟩
  datetime _ := some ⟨"datetime_parsing", "Input should be a valid datetime", []⟩
  bool
    | .bool _ => none
    | _       => some ⟨"bool_type", "Input should be a valid boolean", []⟩
  int
    | .number q =>
      if q.den = 1 then .ok q.num
      else .error ⟨"int_from_float",
        "Input should be a valid integer, got a number with a fractional part", []⟩
    | _         => .error ⟨"int_type", "Input should be a valid integer", []⟩
  decimal
    | .number q => .ok (.finite q)
    | _         => .error ⟨"decimal_parsing", "Input should be a valid decimal", []⟩
  decimalPlaces q := ((List.range 28).find? fun n => (q * 10 ^ n).den = 1).getD 28

/-- A registration of the first user. -/
def registration (password : String) : RequestData where
  body := .json <| .obj <|
    .cons (PyStr.ofString "email") (.str (PyStr.ofString "ana@example.com")) <|
    .cons (PyStr.ofString "password") (.str (PyStr.ofString password)) .nil
  requestId := some "req-123"

/-- The password has the length and no letter: the handler raises on the validator's exception. -/
theorem Endpoint.password_without_letter_raises :
    register.Rejects Readers.sample (registration "12345678") ∧
      register.answer Readers.sample (registration "12345678") = .error .typeError := by
  constructor
  · intro h
    have hlength := congrArg List.length h
    revert hlength
    decide +kernel
  · rfl

end LiveMenu
