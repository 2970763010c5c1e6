import DesignLint.Proofs.Json.Faithful
import DesignLint.Schema.Validation
import Mathlib.Data.Set.List

/-!
# Documents without violations

A schema is met by a document whatever faithful change comes before the check. One
lemma for each kind of constraint says when that is so; the constraints of a schema are
met one by one. Some of them are also read back from a document that is accepted,
wherever it stands in a larger one.
-/

namespace DesignLint

open Json

variable {f : Json → Json}

/-- Whether a constraint, next to which some keys are named, finds nothing wrong with a document
after a change, wherever the document stands. -/
def Constraint.Accepts (f : Json → Json) (named : List String) (constraint : Constraint)
    (document : Json) : Prop :=
  ∀ path, constraint.errorsAt named path (f document) = []

/-- Whether a schema finds nothing wrong with a document after a change, wherever the document
stands. -/
def Schema.Accepts (f : Json → Json) (schema : Schema) (document : Json) : Prop :=
  ∀ path, schema.errorsAt path (f document) = []

theorem Constraint.errorsAll_eq_nil_iff {named : List String} {path : DocumentPath}
    {document : Json} {constraints : List Constraint} :
    Constraint.errorsAll named path document constraints = [] ↔
      ∀ constraint ∈ constraints, constraint.errorsAt named path document = [] := by
  induction constraints with
  | nil => simp [Constraint.errorsAll]
  | cons constraint rest inductionHypothesis =>
      rw [Constraint.errorsAll, List.append_eq_nil_iff, inductionHypothesis, List.forall_mem_cons]

theorem Schema.accepts_mk_iff {constraints : List Constraint} {document : Json} :
    (Schema.mk constraints).Accepts f document ↔
      ∀ constraint ∈ constraints,
        constraint.Accepts f (Schema.namedKeys constraints) document := by
  simp only [Schema.Accepts, Schema.errorsAt, Constraint.errorsAll_eq_nil_iff, Constraint.Accepts]
  exact ⟨fun accepted constraint member path => accepted path constraint member,
    fun accepted path constraint member => accepted constraint member path⟩

theorem Schema.propertyErrors_eq_nil_iff {path : DocumentPath} {entries : JsonObject}
    {schemas : List (String × Schema)} :
    Schema.propertyErrors path entries schemas = [] ↔
      ∀ named ∈ schemas, ∀ part, entries.lookup named.1 = some part →
        named.2.errorsAt (path ++ [.key named.1]) part = [] := by
  induction schemas with
  | nil => simp [Schema.propertyErrors]
  | cons named schemas inductionHypothesis =>
      rw [Schema.propertyErrors, List.append_eq_nil_iff, inductionHypothesis,
        List.forall_mem_cons]
      refine and_congr_left fun _ => ?_
      cases entries.lookup named.1 <;> simp

theorem violationUnless_eq_nil_iff {condition : Bool} {path : DocumentPath} {part : Json}
    {fault : SchemaFault} : violationUnless condition path part fault = [] ↔ condition = true := by
  cases condition <;> simp [violationUnless]

namespace Constraint

variable {named : List String}

@[simp]
theorem accepts_note (name : String) (value document : Json) :
    (note name value).Accepts f named document :=
  fun _ => rfl

theorem accepts_reference {name : String} {schema : Schema} {document : Json}
    (accepted : schema.Accepts f document) : (reference name schema).Accepts f named document :=
  fun path => by rw [errorsAt, accepted path]

/-- The type of a document is the one of the changed document. -/
theorem accepts_ofType {types : List JsonType} {type : JsonType} {document : Json}
    (listed : type ∈ types) (holds : type.holds (f document) = true) :
    (ofType types).Accepts f named document := by
  intro path
  rw [errorsAt, ownErrors]
  · exact violationUnless_eq_nil_iff.mpr (List.any_eq_true.mpr ⟨type, listed, holds⟩)
  all_goals simp

section Changes

variable (faithful : Faithful f)

include faithful

/-! ## Texts -/

theorem accepts_string {text : String} : (ofType [.string]).Accepts f named (.string text) :=
  accepts_ofType List.mem_cons_self (by rw [faithful.string]; rfl)

theorem accepts_oneOf {texts : List String} {text : String} (listed : text ∈ texts) :
    (oneOf texts).Accepts f named (.string text) := by
  intro path
  rw [faithful.string]
  exact violationUnless_eq_nil_iff.mpr (List.any_eq_true.mpr ⟨text, listed, by simp [same]⟩)

theorem accepts_exactly (text : String) : (exactly text).Accepts f named (.string text) := by
  intro path
  rw [faithful.string]
  exact violationUnless_eq_nil_iff.mpr (by simp [same])

theorem accepts_matching {pattern : TextPattern} {text : String}
    (accepted : pattern.accepts text = true) :
    (matching pattern).Accepts f named (.string text) := by
  intro path
  rw [faithful.string]
  exact violationUnless_eq_nil_iff.mpr accepted

theorem accepts_minLength {count : Nat} {text : String} (long : count ≤ text.length) :
    (minLength count).Accepts f named (.string text) := by
  intro path
  rw [faithful.string]
  exact violationUnless_eq_nil_iff.mpr (decide_eq_true long)

/-! ## Numbers -/

theorem accepts_integer {value : Int} : (ofType [.integer]).Accepts f named (.int value) :=
  accepts_ofType List.mem_cons_self (by rw [Json.int, faithful.int]; rfl)

theorem accepts_minimum_int {bound : Nat} {value : Int} (le : bound ≤ value) :
    (minimum bound).Accepts f named (.int value) := by
  intro path
  rw [Json.int, faithful.int]
  refine violationUnless_eq_nil_iff.mpr ?_
  rw [Number.lt_int_eq_false_iff.mpr le, Bool.not_false]

variable {bound : Nat} {number : Number} (small : bound < 2 ^ 53) (within : number.Within bound)

include small within

theorem accepts_number : (ofType [.number]).Accepts f named (.number number) := by
  obtain ⟨changed, equal, -, -⟩ := faithful.number small within
  exact accepts_ofType List.mem_cons_self (by rw [equal]; rfl)

theorem accepts_integer_of_isWhole (whole : number.isWhole = true) :
    (ofType [.integer]).Accepts f named (.number number) := by
  obtain ⟨changed, equal, -, stays⟩ := faithful.number small within
  exact accepts_ofType List.mem_cons_self (by rw [equal]; exact stays whole)

theorem accepts_minimum : (minimum 0).Accepts f named (.number number) := by
  obtain ⟨changed, equal, inRange, -⟩ := faithful.number small within
  intro path
  obtain ⟨value, point, -⟩ := id inRange
  rw [equal]
  refine violationUnless_eq_nil_iff.mpr ?_
  have above := ((Number.within_iff_lt ⟨value, point⟩).mp inRange).1
  exact (congrArg not above).trans rfl

theorem accepts_maximum : (maximum bound).Accepts f named (.number number) := by
  obtain ⟨changed, equal, inRange, -⟩ := faithful.number small within
  intro path
  obtain ⟨value, point, -⟩ := id inRange
  rw [equal]
  refine violationUnless_eq_nil_iff.mpr ?_
  have below := ((Number.within_iff_lt ⟨value, point⟩).mp inRange).2
  exact (congrArg not below).trans rfl

omit small within

/-! ## Arrays -/

theorem accepts_array {items : List Json} : (ofType [.array]).Accepts f named (.array items) :=
  accepts_ofType List.mem_cons_self (by rw [faithful.array]; rfl)

theorem accepts_minItems {count : Nat} {items : List Json} (long : count ≤ items.length) :
    (minItems count).Accepts f named (.array items) := by
  intro path
  rw [faithful.array]
  exact violationUnless_eq_nil_iff.mpr (decide_eq_true (by rwa [List.length_map]))

theorem accepts_items {schema : Schema} {items : List Json}
    (accepted : ∀ item ∈ items, schema.Accepts f item) :
    (Constraint.items schema).Accepts f named (.array items) := by
  intro path
  rw [faithful.array, errorsAt, List.flatMap_eq_nil_iff]
  rintro ⟨part, number⟩ member
  obtain ⟨item, listed, rfl⟩ := List.mem_map.mp (List.fst_mem_of_mem_zipIdx member)
  exact accepted item listed _

/-! ## Objects -/

variable {entries : JsonObject}

theorem accepts_object : (ofType [.object]).Accepts f named (.object entries) := by
  obtain ⟨changed, equal, -⟩ := faithful.object entries
  exact accepts_ofType List.mem_cons_self (by rw [equal]; rfl)

theorem accepts_required {names : List String} (mapping : entries.IsMapping)
    (present : names ⊆ entries.keys) : (required names).Accepts f named (.object entries) := by
  obtain ⟨changed, equal, -, lookups⟩ := faithful.object entries
  intro path
  rw [equal, errorsAt, ownErrors, List.flatMap_eq_nil_iff]
  · intro name listed
    refine violationUnless_eq_nil_iff.mpr ?_
    rw [(lookups mapping).2, Option.isSome_map]
    by_contra absent
    rw [Option.not_isSome_iff_eq_none, JsonObject.lookup_eq_none_iff_not_mem_keys] at absent
    exact absent (present listed)
  all_goals simp

theorem accepts_closed (known : entries.keys ⊆ named) :
    closed.Accepts f named (.object entries) := by
  obtain ⟨changed, equal, parts, -⟩ := faithful.object entries
  have none : otherEntries named (.object changed) = [] := by
    refine List.filter_eq_nil_iff.mpr fun entry member => ?_
    obtain ⟨part, listed, -⟩ := parts entry member
    simpa using known (List.mem_map.mpr ⟨_, listed, rfl⟩)
  intro path
  rw [equal, errorsAt, ownErrors, none, JsonObject.sortedByText, List.mergeSort_nil]
  · rfl
  all_goals simp

theorem accepts_others {schema : Schema}
    (accepted : ∀ entry ∈ entries, schema.Accepts f entry.2) :
    (others schema).Accepts f named (.object entries) := by
  obtain ⟨changed, equal, parts, -⟩ := faithful.object entries
  intro path
  rw [equal, errorsAt, List.flatMap_eq_nil_iff]
  rintro ⟨name, _⟩ member
  obtain ⟨part, listed, rfl⟩ := parts _ (List.mem_of_mem_filter member)
  exact accepted _ listed _

theorem accepts_properties {schemas : List (String × Schema)} (mapping : entries.IsMapping)
    (accepted : ∀ named ∈ schemas, ∀ part, entries.lookup named.1 = some part →
      named.2.Accepts f part) :
    (properties schemas).Accepts f named (.object entries) := by
  obtain ⟨changed, equal, -, lookups⟩ := faithful.object entries
  intro path
  rw [equal, errorsAt]
  refine Schema.propertyErrors_eq_nil_iff.mpr fun named listed part found => ?_
  change changed.lookup named.1 = some part at found
  rw [(lookups mapping).2, Option.map_eq_some_iff] at found
  obtain ⟨own, ownFound, rfl⟩ := found
  exact accepted named listed own ownFound _

end Changes

end Constraint

namespace Schema

open Constraint

variable (faithful : Faithful f)

include faithful

/-! ## Common forms of schemas -/

/-- Objects with required keys and no others than the named ones. -/
theorem accepts_record {entries : JsonObject} {names : List String}
    {schemas : List (String × Schema)} (mapping : entries.IsMapping)
    (present : names ⊆ entries.keys) (known : entries.keys ⊆ schemas.map (·.1))
    (accepted : ∀ named ∈ schemas, ∀ part, entries.lookup named.1 = some part →
      named.2.Accepts f part) :
    (Schema.mk [.ofType [.object], .required names, .closed, .properties schemas]).Accepts f
      (.object entries) := by
  rw [accepts_mk_iff]
  simp only [List.forall_mem_cons]
  refine ⟨accepts_object faithful, accepts_required faithful mapping present,
    accepts_closed faithful ?_, accepts_properties faithful mapping accepted, by simp⟩
  simpa [namedKeys] using known

theorem accepts_list {items : List Json} {schema : Schema}
    (accepted : ∀ item ∈ items, schema.Accepts f item) :
    (Schema.mk [.ofType [.array], .items schema]).Accepts f (.array items) := by
  rw [accepts_mk_iff]
  simp only [List.forall_mem_cons]
  exact ⟨accepts_array faithful, accepts_items faithful accepted, by simp⟩

theorem accepts_listed {texts : List String} {text : String} (listed : text ∈ texts) :
    (Schema.mk [.oneOf texts]).Accepts f (.string text) := by
  rw [accepts_mk_iff]
  simpa using accepts_oneOf faithful listed

theorem accepts_range {bound : Nat} {number : Number} (small : bound < 2 ^ 53)
    (within : number.Within bound) :
    (Schema.mk [.ofType [.number], .minimum 0, .maximum bound]).Accepts f (.number number) := by
  rw [accepts_mk_iff]
  simp only [List.forall_mem_cons]
  exact ⟨accepts_number faithful small within, accepts_minimum faithful small within,
    accepts_maximum faithful small within, by simp⟩

theorem accepts_wholeRange {bound : Nat} {number : Number} (small : bound < 2 ^ 53)
    (within : number.Within bound) (whole : number.isWhole = true) :
    (Schema.mk [.ofType [.integer], .minimum 0, .maximum bound]).Accepts f (.number number) := by
  rw [accepts_mk_iff]
  simp only [List.forall_mem_cons]
  exact ⟨accepts_integer_of_isWhole faithful small within whole,
    accepts_minimum faithful small within, accepts_maximum faithful small within, by simp⟩

theorem accepts_atLeast {bound : Nat} {value : Int} (le : bound ≤ value) :
    (Schema.mk [.ofType [.integer], .minimum bound]).Accepts f (.int value) := by
  rw [accepts_mk_iff]
  simp only [List.forall_mem_cons]
  exact ⟨accepts_integer faithful, accepts_minimum_int faithful le, by simp⟩

end Schema

/-! ## What accepted documents hold

A document without violations is of a type that its schema asks for, its items meet the schema for
items, and what stands under a key meets the schema for that key. -/

/-- Whether a schema finds nothing wrong with a document at some place. -/
def Schema.Passes (schema : Schema) (document : Json) : Prop :=
  ∃ path, schema.errorsAt path document = []

/-- Whether a constraint, next to which some keys are named, finds nothing wrong with a document
at some place. -/
def Constraint.Passes (named : List String) (constraint : Constraint) (document : Json) : Prop :=
  ∃ path, constraint.errorsAt named path document = []

variable {document part : Json}

namespace JsonType

theorem holds_string_iff : string.holds document = true ↔ ∃ text, document = .string text := by
  cases document with
  | string text => exact ⟨fun _ => ⟨text, rfl⟩, fun _ => rfl⟩
  | _ => exact ⟨nofun, nofun⟩

theorem holds_boolean_iff : boolean.holds document = true ↔ ∃ value, document = .bool value := by
  cases document with
  | bool value => exact ⟨fun _ => ⟨value, rfl⟩, fun _ => rfl⟩
  | _ => exact ⟨nofun, nofun⟩

theorem holds_number_iff : number.holds document = true ↔ ∃ value, document = .number value := by
  cases document with
  | number value => exact ⟨fun _ => ⟨value, rfl⟩, fun _ => rfl⟩
  | _ => exact ⟨nofun, nofun⟩

theorem holds_integer_iff :
    integer.holds document = true ↔ ∃ value, document = .number value ∧ value.isWhole = true := by
  cases document with
  | number value => exact ⟨fun whole => ⟨value, rfl, whole⟩, fun ⟨_, rfl, whole⟩ => whole⟩
  | _ => exact ⟨nofun, nofun⟩

theorem holds_array_iff : array.holds document = true ↔ ∃ items, document = .array items := by
  cases document with
  | array items => exact ⟨fun _ => ⟨items, rfl⟩, fun _ => rfl⟩
  | _ => exact ⟨nofun, nofun⟩

theorem holds_object_iff :
    object.holds document = true ↔ ∃ entries, document = .object entries := by
  cases document with
  | object entries => exact ⟨fun _ => ⟨entries, rfl⟩, fun _ => rfl⟩
  | _ => exact ⟨nofun, nofun⟩

end JsonType

namespace Constraint.Passes

variable {named : List String}

theorem holds {type : JsonType} (passes : (ofType [type]).Passes named document) :
    type.holds document = true := by
  obtain ⟨path, silent⟩ := passes
  have ofType := violationUnless_eq_nil_iff.mp silent
  simpa using ofType

theorem reference {name : String} {schema : Schema}
    (passes : (Constraint.reference name schema).Passes named document) :
    schema.Passes document := by
  obtain ⟨path, silent⟩ := passes
  exact ⟨path, silent⟩

theorem item {schema : Schema} (passes : (items schema).Passes named document)
    (listed : part ∈ document.items) : schema.Passes part := by
  obtain ⟨path, silent⟩ := passes
  rw [errorsAt, List.flatMap_eq_nil_iff] at silent
  obtain ⟨number, found⟩ := List.mem_iff_getElem?.mp listed
  exact ⟨_, silent (part, number) (List.mem_zipIdx_iff_getElem?.mpr found)⟩

theorem property_of_mem {schemas : List (String × Schema)}
    (passes : (properties schemas).Passes named document) {name : String} {schema : Schema}
    (asked : (name, schema) ∈ schemas) (found : document.entries.lookup name = some part) :
    schema.Passes part := by
  obtain ⟨path, silent⟩ := passes
  rw [errorsAt, Schema.propertyErrors_eq_nil_iff] at silent
  exact ⟨_, silent (name, schema) asked part found⟩

theorem property {schemas : List (String × Schema)}
    (passes : (properties schemas).Passes named document) {name : String} {schema : Schema}
    (asked : schemas.lookup name = some schema) (found : document.entries.lookup name = some part) :
    schema.Passes part := by
  obtain ⟨before, after, rfl, -⟩ := List.lookup_eq_some_iff.mp asked
  exact passes.property_of_mem (by simp) found

end Constraint.Passes

namespace Schema.Passes

variable {constraints : List Constraint} (passes : (Schema.mk constraints).Passes document)

include passes

theorem of_mem {constraint : Constraint} (listed : constraint ∈ constraints) :
    constraint.Passes (Schema.namedKeys constraints) document := by
  obtain ⟨path, silent⟩ := passes
  rw [errorsAt, Constraint.errorsAll_eq_nil_iff] at silent
  exact ⟨path, silent constraint listed⟩

/-- The constraint with a number is met next to the keys that all constraints name. -/
theorem constraint (number : Nat) {constraint : Constraint}
    (numbered : constraints[number]? = some constraint) :
    constraint.Passes (Schema.namedKeys constraints) document :=
  passes.of_mem (List.mem_of_getElem? numbered)

/-- An array whose items are asked for a type has items that are made from parts, if all values of
the type are. -/
theorem exists_array {α : Type} {make : α → Json} {type : JsonType}
    (made : ∀ item, type.holds item = true → ∃ part, item = make part)
    (array : .ofType [.array] ∈ constraints)
    (listed : .items (.mk [.ofType [type]]) ∈ constraints) :
    ∃ parts : List α, document = .array (parts.map make) := by
  obtain ⟨items, rfl⟩ := JsonType.holds_array_iff.mp (passes.of_mem array).holds
  have each : items ∈ Set.range (List.map make) := by
    rw [Set.range_list_map]
    intro item member
    have own := (passes.of_mem listed).item member
    obtain ⟨part, rfl⟩ := made item (own.of_mem List.mem_cons_self).holds
    exact ⟨part, rfl⟩
  obtain ⟨parts, rfl⟩ := each
  exact ⟨parts, rfl⟩

end Schema.Passes

end DesignLint
