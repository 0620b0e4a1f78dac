import OasisPlatform.Dictionaries
import OasisPlatform.Json

/-!
The JSON schemas the server shows in its OpenAPI document. Sanitising a schema leaves nothing
at any depth that the document may not hold, and what is sanitised already stays as it is
(`sanitize_json_schema_for_openapi_correct`).
-/
namespace OasisPlatform.OpenApiSchemas
open JsonValues Dictionaries
set_option linter.unusedSimpArgs false

/-- Keys of JSON Schema that an OpenAPI schema object does not have. -/
def unsupportedKeys : List String :=
  ["$schema","definitions","definition","patternProperties","unevaluatedProperties"]

/-- Keys that confuse the code generators. -/
def generatorProblematicKeys : List String := ["additionalProperties","minProperties"]

/-- `[{'type': t} for t in value]`. -/
def oneOfTypes (types : List Json) : Json := .array (types.map fun t => .object [("type",t)])

/-- The types where the field is `type` with a list of them. -/
def listedTypes (key : String) : Json → Option (List Json)
  | .array types => if key = "type" then some types else none
  | _ => none

mutual

/-- `_sanitize_json_schema_for_openapi`. -/
def sanitize : Json → Json
  | .object fields =>
    if "$ref" ∈ keys fields then .object [("type",.string "object")]
    else .object (sanitizeFields fields [])
  | .array items => .array (sanitizeItems items)
  | schema => schema

def sanitizeItems : List Json → List Json
  | [] => []
  | item :: rest => sanitize item :: sanitizeItems rest

/-- The loop over `schema.items()`, with what is in `cleaned` so far. -/
def sanitizeFields : List (String × Json) → List (String × Json) → List (String × Json)
  | [],cleaned => cleaned
  | (key,value) :: rest,cleaned =>
    if key ∈ unsupportedKeys then sanitizeFields rest cleaned
    else if key ∈ generatorProblematicKeys then sanitizeFields rest cleaned
    else match listedTypes key value with
      | some types => sanitizeFields rest (put cleaned "oneOf" (oneOfTypes types))
      | none => sanitizeFields rest (put cleaned key (sanitize value))

end

/-- What the loop assigns for a field. -/
def assigned (field : String × Json) : Option (String × Json) :=
  if field.1 ∈ unsupportedKeys ∨ field.1 ∈ generatorProblematicKeys then none
  else match listedTypes field.1 field.2 with
    | some types => some ("oneOf",oneOfTypes types)
    | none => some (field.1,sanitize field.2)

theorem sanitizeItems_eq (items : List Json) : sanitizeItems items = items.map sanitize := by
  induction items with
  | nil => rw [sanitizeItems,List.map_nil]
  | cons item rest ih => rw [sanitizeItems,ih,List.map_cons]

theorem sanitizeFields_eq (fields cleaned : List (String × Json)) :
    sanitizeFields fields cleaned = merge cleaned (fields.filterMap assigned) := by
  induction fields generalizing cleaned with
  | nil => rw [sanitizeFields]; rfl
  | cons field rest ih =>
    obtain ⟨key,value⟩ := field
    rw [sanitizeFields,List.filterMap_cons,assigned]
    by_cases unsupported : key ∈ unsupportedKeys
    · simp only [unsupported,true_or,if_true,ih]
    by_cases problematic : key ∈ generatorProblematicKeys
    · simp only [problematic,or_true,if_true,ih,unsupported,if_false]
    simp only [unsupported,problematic,or_self,if_false,ih]
    cases listedTypes key value <;> rfl

/-- A field that an OpenAPI schema object may have. -/
def PlainField (field : String × Json) : Prop :=
  field.1 ∉ unsupportedKeys ∧ field.1 ∉ generatorProblematicKeys ∧ field.1 ≠ "$ref" ∧
    (field.1 = "type" → ∀ types, field.2 ≠ .array types)

/-- At no depth a stripped key, a reference or a list of types. -/
def Plain (schema : Json) : Prop := schema.Everywhere fun fields => ∀ field ∈ fields, PlainField field

/-- A list of types, at any depth, has only strings. -/
def StringTypes (schema : Json) : Prop :=
  schema.Everywhere fun fields => ∀ types, ("type",Json.array types) ∈ fields → ∀ t ∈ types, ∃ name, t = .string name

theorem listedTypes_eq_some {key : String} {value : Json} {types : List Json} (listed : listedTypes key value = some types) :
    key = "type" ∧ value = .array types := by
  cases value with
  | array items =>
    rw [listedTypes] at listed
    split at listed
    · rename_i typed
      exact ⟨typed,congrArg Json.array (Option.some.inj listed)⟩
    · cases listed
  | _ => cases listed

theorem listedTypes_of_list {key : String} {value : Json} {types : List Json} (typed : key = "type")
    (list : value = .array types) : listedTypes key value = some types := by
  rw [list,listedTypes,if_pos typed]

theorem assigned_eq_some {field entry : String × Json} (assigns : assigned field = some entry) :
    (∃ types, listedTypes field.1 field.2 = some types ∧ entry = ("oneOf",oneOfTypes types)) ∨
      (field.1 ∉ unsupportedKeys ∧ field.1 ∉ generatorProblematicKeys ∧ listedTypes field.1 field.2 = none ∧
        entry = (field.1,sanitize field.2)) := by
  unfold assigned at assigns
  split at assigns
  · cases assigns
  rename_i supported
  rw [not_or] at supported
  cases listed : listedTypes field.1 field.2 with
  | some types =>
    simp only [listed,Option.some.injEq] at assigns
    exact .inl ⟨types,rfl,assigns.symm⟩
  | none =>
    simp only [listed,Option.some.injEq] at assigns
    exact .inr ⟨supported.1,supported.2,rfl,assigns.symm⟩

theorem PlainField.assigned {field : String × Json} (plain : PlainField field) :
    assigned field = some (field.1,sanitize field.2) := by
  have single : listedTypes field.1 field.2 = none := by
    cases listed : listedTypes field.1 field.2 with
    | none => rfl
    | some types =>
      obtain ⟨typed,list⟩ := listedTypes_eq_some listed
      exact absurd list (plain.2.2.2 typed types)
  simp only [OpenApiSchemas.assigned,plain.1,plain.2.1,or_self,if_false,single]

theorem sanitize_array (items : List Json) : sanitize (.array items) = .array (items.map sanitize) := by
  rw [sanitize,sanitizeItems_eq]

theorem sanitize_object (fields : List (String × Json)) : sanitize (.object fields) =
    if "$ref" ∈ keys fields then .object [("type",.string "object")]
    else .object (merge [] (fields.filterMap assigned)) := by
  rw [sanitize,sanitizeFields_eq]

/-- Only a list becomes a list. -/
theorem sanitize_eq_array {value : Json} {items : List Json} (same : sanitize value = .array items) :
    ∃ former, value = .array former := by
  cases value with
  | array former => exact ⟨former,rfl⟩
  | object fields =>
    rw [sanitize_object] at same
    split at same <;> cases same
  | _ => exact ⟨items,same⟩

theorem everywhere_type {P : List (String × Json) → Prop} {name : String} (single : P [("type",.string name)]) :
    (Json.object [("type",.string name)]).Everywhere P := by
  refine Json.everywhere_object.mpr ⟨single,?_⟩
  intro field member inner part
  cases List.mem_singleton.mp member
  cases part

theorem everywhere_oneOfTypes {P : List (String × Json) → Prop} (single : ∀ name, P [("type",.string name)])
    {types : List Json} (strings : ∀ t ∈ types, ∃ name, t = .string name) : (oneOfTypes types).Everywhere P := by
  refine Json.everywhere_array.mpr fun item member => ?_
  obtain ⟨t,listed,rfl⟩ := List.mem_map.mp member
  obtain ⟨name,rfl⟩ := strings t listed
  exact everywhere_type (single name)

/-- An object of the result is one with a single type, or what the loop makes of an object of the schema. -/
theorem sanitize_everywhere {P : List (String × Json) → Prop} (single : ∀ name, P [("type",.string name)])
    {schema : Json} (strings : StringTypes schema)
    (looped : schema.Everywhere fun fields => "$ref" ∉ keys fields → P (merge [] (fields.filterMap assigned))) :
    (sanitize schema).Everywhere P := by
  induction schema using Json.induct with
  | array items ih =>
    rw [sanitize_array]
    refine Json.everywhere_array.mpr fun item member => ?_
    obtain ⟨former,listed,rfl⟩ := List.mem_map.mp member
    exact ih former listed (Json.everywhere_array.mp strings former listed) (Json.everywhere_array.mp looped former listed)
  | object fields ih =>
    rw [sanitize_object]
    obtain ⟨hereStrings,deeperStrings⟩ := Json.everywhere_object.mp strings
    obtain ⟨hereLooped,deeperLooped⟩ := Json.everywhere_object.mp looped
    split
    · exact everywhere_type (single "object")
    rename_i direct
    refine Json.everywhere_object.mpr ⟨hereLooped direct,fun entry member => ?_⟩
    rcases mem_merge member with impossible | listed
    · cases impossible
    obtain ⟨field,held,assigns⟩ := List.mem_filterMap.mp listed
    rcases assigned_eq_some assigns with ⟨types,list,rfl⟩ | ⟨-,-,-,rfl⟩
    · obtain ⟨typed,same⟩ := listedTypes_eq_some list
      exact everywhere_oneOfTypes single (hereStrings types (by rw [← typed,← same]; exact held))
    · exact ih field held (deeperStrings field held) (deeperLooped field held)
  | _ =>
    intro fields part
    cases part

/-- Nothing stays at any depth that the document may not hold. -/
theorem sanitize_plain {schema : Json} (strings : StringTypes schema) : Plain (sanitize schema) := by
  have single (name : String) : ∀ field ∈ [("type",Json.string name)], PlainField field := by
    intro field member
    cases List.mem_singleton.mp member
    refine ⟨?_,?_,?_,fun _ types => nofun⟩ <;> simp [unsupportedKeys,generatorProblematicKeys]
  refine sanitize_everywhere single strings fun fields part direct entry member => ?_
  rcases mem_merge member with impossible | listed
  · cases impossible
  obtain ⟨field,held,assigns⟩ := List.mem_filterMap.mp listed
  rcases assigned_eq_some assigns with ⟨types,list,rfl⟩ | ⟨supported,unproblematic,single,rfl⟩
  · refine ⟨?_,?_,?_,?_⟩ <;> simp [unsupportedKeys,generatorProblematicKeys]
  · have other : field.1 ≠ "$ref" := fun same => direct (same ▸ mem_keys held)
    refine ⟨supported,unproblematic,other,fun typed types same => ?_⟩
    obtain ⟨former,list⟩ := sanitize_eq_array same
    rw [listedTypes_of_list typed list] at single
    cases single

theorem sanitize_distinct {schema : Json} (strings : StringTypes schema) : (sanitize schema).Distinct :=
  sanitize_everywhere (P := fun fields => (keys fields).Nodup) (fun _ => List.nodup_singleton _) strings
    fun _ _ _ => @keys_merge_nodup _ _ _ [] List.nodup_nil _

/-- A plain schema stays as it is. -/
theorem sanitize_of_plain {schema : Json} (distinct : schema.Distinct) (plain : Plain schema) :
    sanitize schema = schema := by
  induction schema using Json.induct with
  | array items ih =>
    rw [sanitize_array]
    refine congrArg Json.array ((List.map_congr_left fun item member => ?_).trans (List.map_id items))
    exact ih item member (Json.everywhere_array.mp distinct item member) (Json.everywhere_array.mp plain item member)
  | object fields ih =>
    obtain ⟨once,deeperOnce⟩ := Json.everywhere_object.mp distinct
    obtain ⟨here,deeper⟩ := Json.everywhere_object.mp plain
    have direct : "$ref" ∉ keys fields := by
      intro listed
      obtain ⟨field,held,reference⟩ := List.mem_map.mp listed
      exact (here field held).2.2.1 reference
    have kept : fields.filterMap assigned = fields := by
      refine (List.filterMap_congr fun field held => ?_).trans List.filterMap_some
      rw [(here field held).assigned,ih field held (deeperOnce field held) (deeper field held)]
    have listed : merge [] fields = fields := @merge_new _ _ _ [] fields once
    rw [sanitize_object,if_neg direct,kept,listed]
  | _ => rw [sanitize] <;> nofun

theorem sanitize_json_schema_for_openapi_correct (schema : Json) (distinct : schema.Distinct)
    (strings : StringTypes schema) :
    Plain (sanitize schema) ∧ sanitize (sanitize schema) = sanitize schema ∧
      (Plain schema → sanitize schema = schema) :=
  ⟨sanitize_plain strings,sanitize_of_plain (sanitize_distinct strings) (sanitize_plain strings),
    sanitize_of_plain distinct⟩

/-- A column that is a number or a text, with a pattern beside it. -/
def columnSchema : Json :=
  .object [("$schema",.string "draft-07"),
    ("column",.object [("type",.array [.string "number",.string "string"]),("patternProperties",.object [])])]

theorem column_schema_sanitized :
    Plain (sanitize columnSchema) ∧ sanitize (sanitize columnSchema) = sanitize columnSchema ∧
      (Plain columnSchema → sanitize columnSchema = columnSchema) := by
  refine sanitize_json_schema_for_openapi_correct columnSchema ?_ ?_
  · simp [columnSchema,Json.Distinct,Json.everywhere_object,Json.everywhere_array,Json.everywhere_string]
  · simp [columnSchema,StringTypes,Json.everywhere_object,Json.everywhere_array,Json.everywhere_string]

end OasisPlatform.OpenApiSchemas
