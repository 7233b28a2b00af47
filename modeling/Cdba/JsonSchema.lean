/-!
# A part of JSON Schema

Data and the schemas that describe them: types, patterns, required members and
members that are required along with others.  A pattern is searched for in a
text as a regular expression is; `^` and `$` are the only anchors.
-/

namespace JsonSchema

/-! ## Patterns -/

/-- A place in a text: what stands behind it, and whether nothing is before. -/
structure Place where
  atStart : Bool
  rest : List UInt8
  deriving DecidableEq

/-- Regular expressions with anchors. -/
inductive Pattern where
  | empty
  | start
  | finish
  | byte (matches_ : UInt8 → Bool)
  | seq (first second : Pattern)
  | either (first second : Pattern)
  | times (least : Nat) (most : Option Nat) (pattern : Pattern)

namespace Pattern

/--
The places behind a match at a place.  `$` also stands in front of a newline
that ends the text.
-/
def behind : Pattern → Place → List Place
  | .empty, place => [place]
  | .start, place => if place.atStart then [place] else []
  | .finish, place =>
      if place.rest = [] ∨ place.rest = [0x0a] then [place] else []
  | .byte matches_, place =>
      match place.rest with
      | [] => []
      | ch :: rest => if matches_ ch then [⟨false, rest⟩] else []
  | .seq first second, place => (first.behind place).flatMap second.behind
  | .either first second, place => first.behind place ++ second.behind place
  | .times least most pattern, place =>
      -- More turns than there are bytes left reach no other places.
      let most := most.getD (least + place.rest.length)
      (List.range (most + 1 - least)).flatMap fun more =>
        Nat.repeat (fun places => places.flatMap pattern.behind) (least + more)
          [place]

/-- Search from a place on. -/
def searchFrom (pattern : Pattern) : Bool → List UInt8 → Bool
  | atStart, [] => !(pattern.behind ⟨atStart, []⟩).isEmpty
  | atStart, ch :: rest =>
      !(pattern.behind ⟨atStart, ch :: rest⟩).isEmpty ||
        pattern.searchFrom false rest

/-- Whether a pattern is found anywhere in a text. -/
def search (pattern : Pattern) (text : List UInt8) : Bool :=
  pattern.searchFrom true text

/-- A list of patterns one behind the other. -/
def all : List Pattern → Pattern
  | [] => .empty
  | pattern :: patterns => .seq pattern (all patterns)

/-- A text. -/
def word (text : List UInt8) : Pattern :=
  all (text.map fun ch => .byte (· == ch))

/-- Bytes in some ranges. -/
def within (ranges : List (UInt8 × UInt8)) : Pattern :=
  .byte fun ch => ranges.any fun range => range.1 ≤ ch && ch ≤ range.2

/-- Any byte but a newline. -/
def dot : Pattern :=
  .byte (· != 0x0a)

/-- One pattern of a list. -/
def oneOf : List Pattern → Pattern
  | [] => .byte fun _ => false
  | [pattern] => pattern
  | pattern :: patterns => .either pattern (oneOf patterns)

end Pattern

/-! ## Data -/

/--
Data as they are loaded, with the texts of their scalars.  Numbers without a
fraction are integers, and other scalars have no type that a schema asks for.
-/
inductive Datum where
  | boolean (value : Bool)
  | integer (value : Int) (text : List UInt8)
  | string (text : List UInt8)
  | other (text : List UInt8)
  | array (items : List Datum)
  | object (members : List (List UInt8 × Datum))

namespace Datum

/-- The text of a string. -/
def string? : Datum → Option (List UInt8)
  | .string text => some text
  | _ => none

/-- Neither a list nor a mapping. -/
def IsScalar : Datum → Prop
  | .array _ => False
  | .object _ => False
  | _ => True

end Datum

/-! ## Schemas -/

/-- Schemas, each with its type. -/
inductive Schema where
  | string (pattern : Option Pattern)
  | boolean
  | integer (minimum maximum : Option Int)
  | enum (texts : List (List UInt8))
  | oneOf (schemas : List Schema)
  | array (minItems : Nat) (uniqueStrings : Bool) (items : Schema)
  | object
      (properties : List (List UInt8 × Schema))
      (patternProperties : List (Pattern × Schema))
      (additionalProperties : Bool)
      (required : List (List UInt8))
      (dependentRequired : List (List UInt8 × List (List UInt8)))

mutual

/-- Whether a datum is valid under a schema. -/
def Schema.accepts : Schema → Datum → Bool
  | .string none, .string _ => true
  | .string (some pattern), .string text => pattern.search text
  | .boolean, .boolean _ => true
  | .integer minimum maximum, .integer value _ =>
      minimum.all (· ≤ value) && maximum.all (value ≤ ·)
  | .enum texts, .string text => texts.contains text
  | .oneOf schemas, datum => acceptedBy schemas datum == 1
  | .array minItems uniqueStrings items, .array data =>
      minItems ≤ data.length &&
        (!uniqueStrings || decide (data.filterMap Datum.string?).Nodup) &&
          data.all items.accepts
  | .object properties patterns additional required dependent,
      .object members =>
      members.all (fun member =>
          propertiesAccept properties member.1 member.2 &&
            patternsAccept patterns member.1 member.2 &&
              (additional || properties.any (·.1 == member.1) ||
                patterns.any (·.1.search member.1))) &&
        required.all (members.map Prod.fst).contains &&
          dependent.all fun (key, others) =>
            !(members.map Prod.fst).contains key ||
              others.all (members.map Prod.fst).contains
  | _, _ => false

/-- The number of schemas under which a datum is valid. -/
def acceptedBy : List Schema → Datum → Nat
  | [], _ => 0
  | schema :: schemas, datum =>
      acceptedBy schemas datum + if schema.accepts datum then 1 else 0

/-- A member is valid under the schema of its name. -/
def propertiesAccept :
    List (List UInt8 × Schema) → List UInt8 → Datum → Bool
  | [], _, _ => true
  | (property, schema) :: properties, name, datum =>
      (property != name || schema.accepts datum) &&
        propertiesAccept properties name datum

/-- A member is valid under the schemas whose patterns its name matches. -/
def patternsAccept : List (Pattern × Schema) → List UInt8 → Datum → Bool
  | [], _, _ => true
  | (pattern, schema) :: patterns, name, datum =>
      (!pattern.search name || schema.accepts datum) &&
        patternsAccept patterns name datum

end

/-! ## What a valid datum is like -/

theorem propertiesAccept_iff
    {properties : List (List UInt8 × Schema)}
    {name : List UInt8}
    {datum : Datum} :
    propertiesAccept properties name datum = true ↔
      ∀ property ∈ properties,
        property.1 = name → property.2.accepts datum = true := by
  induction properties with
  | nil =>
      simp [propertiesAccept]
  | cons property properties inductionHypothesis =>
      obtain ⟨key, schema⟩ := property
      simp [propertiesAccept, inductionHypothesis, Decidable.imp_iff_not_or]

theorem patternsAccept_iff
    {patterns : List (Pattern × Schema)}
    {name : List UInt8}
    {datum : Datum} :
    patternsAccept patterns name datum = true ↔
      ∀ pattern ∈ patterns,
        pattern.1.search name = true → pattern.2.accepts datum = true := by
  induction patterns with
  | nil =>
      simp [patternsAccept]
  | cons pattern patterns inductionHypothesis =>
      obtain ⟨pattern, schema⟩ := pattern
      cases found : pattern.search name <;>
        simp [patternsAccept, inductionHypothesis, found]

/-- A datum that is valid under one of some schemas. -/
theorem exists_of_accepts_oneOf
    {schemas : List Schema}
    {datum : Datum}
    (valid : (Schema.oneOf schemas).accepts datum = true) :
    ∃ schema ∈ schemas, schema.accepts datum = true := by
  have counted : ∀ schemas : List Schema,
      acceptedBy schemas datum ≠ 0 →
      ∃ schema ∈ schemas, schema.accepts datum = true := by
    intro schemas some_
    induction schemas with
    | nil =>
        exact absurd rfl some_
    | cons schema schemas inductionHypothesis =>
        by_cases accepts : schema.accepts datum = true
        · exact ⟨schema, List.mem_cons_self, accepts⟩
        · rw [acceptedBy, if_neg accepts, Nat.add_zero] at some_
          obtain ⟨found, member, valid⟩ := inductionHypothesis some_
          exact ⟨found, List.mem_cons_of_mem schema member, valid⟩
  have once : acceptedBy schemas datum = 1 := by
    rw [Schema.accepts] at valid
    exact eq_of_beq valid
  exact counted schemas (by rw [once]; exact Nat.one_ne_zero)

/-- A valid list. -/
theorem exists_of_accepts_array
    {minItems : Nat}
    {uniqueStrings : Bool}
    {items : Schema}
    {datum : Datum}
    (valid : (Schema.array minItems uniqueStrings items).accepts datum = true) :
    ∃ data,
      datum = .array data ∧ ∀ item ∈ data, items.accepts item = true := by
  cases datum with
  | array data =>
      simp only [Schema.accepts, Bool.and_eq_true, List.all_eq_true] at valid
      exact ⟨data, rfl, valid.2⟩
  | _ => cases valid

/-- What the members of a valid mapping are like. -/
structure ValidMembers
    (properties : List (List UInt8 × Schema))
    (patterns : List (Pattern × Schema))
    (additional : Bool)
    (required : List (List UInt8))
    (members : List (List UInt8 × Datum)) :
    Prop where
  property :
    ∀ member ∈ members,
      ∀ property ∈ properties,
        property.1 = member.1 → property.2.accepts member.2 = true
  pattern :
    ∀ member ∈ members,
      ∀ pattern ∈ patterns,
        pattern.1.search member.1 = true → pattern.2.accepts member.2 = true
  known :
    additional = false →
    ∀ member ∈ members,
      (∃ property ∈ properties, property.1 = member.1) ∨
        ∃ pattern ∈ patterns, pattern.1.search member.1 = true
  required : ∀ name ∈ required, name ∈ members.map Prod.fst

theorem exists_of_accepts_object
    {properties : List (List UInt8 × Schema)}
    {patterns : List (Pattern × Schema)}
    {additional : Bool}
    {required : List (List UInt8)}
    {dependent : List (List UInt8 × List (List UInt8))}
    {datum : Datum}
    (valid :
      (Schema.object properties patterns additional required dependent).accepts
        datum = true) :
    ∃ members,
      datum = .object members ∧
        ValidMembers properties patterns additional required members := by
  cases datum with
  | object members =>
      simp only [Schema.accepts, Bool.and_eq_true, List.all_eq_true] at valid
      obtain ⟨⟨each, required⟩, _⟩ := valid
      refine ⟨members, rfl, ?_, ?_, ?_, ?_⟩
      · intro member isMember
        exact propertiesAccept_iff.mp (each member isMember).1.1
      · intro member isMember
        exact patternsAccept_iff.mp (each member isMember).1.2
      · rintro rfl member isMember
        simpa using (each member isMember).2
      · intro name isRequired
        simpa using required name isRequired
  | _ => cases valid

/-- A schema whose type is one of scalars. -/
def Schema.isScalarType : Schema → Bool
  | .string _ => true
  | .boolean => true
  | .integer _ _ => true
  | .enum _ => true
  | _ => false

/-- A schema of scalars only. -/
def Schema.scalarOnly : Schema → Bool
  | .oneOf schemas => schemas.all Schema.isScalarType
  | schema => schema.isScalarType

theorem isScalar_of_type
    {schema : Schema}
    (isType : schema.isScalarType = true)
    {datum : Datum}
    (valid : schema.accepts datum = true) :
    datum.IsScalar := by
  cases datum with
  | array items =>
      cases schema <;>
        simp [Schema.accepts, Schema.isScalarType] at valid isType
  | object members =>
      cases schema <;>
        simp [Schema.accepts, Schema.isScalarType] at valid isType
  | _ => trivial

/-- What is valid under a schema of scalars is one. -/
theorem isScalar_of_scalarOnly
    {schema : Schema}
    (scalarOnly : schema.scalarOnly = true)
    {datum : Datum}
    (valid : schema.accepts datum = true) :
    datum.IsScalar := by
  unfold Schema.scalarOnly at scalarOnly
  split at scalarOnly
  · obtain ⟨schema, member, valid⟩ := exists_of_accepts_oneOf valid
    exact isScalar_of_type (List.all_eq_true.mp scalarOnly schema member) valid
  · exact isScalar_of_type scalarOnly valid

end JsonSchema
