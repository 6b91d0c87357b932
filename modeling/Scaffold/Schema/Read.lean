import Scaffold.Json.Draft
import Scaffold.Schema.Basic
import Scaffold.Work

/-!
# Schemas in JSON

A schema is a boolean or an object of rules. Before the rules are taken from a value it is checked
that the value is a schema at all (`formFault?`): first the schemas inside it, then the rules of its
own, each in the order of the keywords.

Not all keywords whose form is checked become rules: `type`, `enum`, `const`, `required`,
`uniqueItems`, `properties`, `additionalProperties`, `items`, `propertyNames`, `not`, `allOf`, `anyOf`,
`oneOf` and the bounds of numbers, lengths and items with `minimum`, `maximum`, `minLength`,
`maxLength`, `minItems` and `maxItems` do. The others say nothing here: `pattern`, `format`,
`exclusiveMinimum`, `exclusiveMaximum`, `multipleOf`, `minProperties`, `maxProperties`,
`patternProperties`, `dependentRequired`, `dependentSchemas`, `contains` with its bounds,
`prefixItems`, the unevaluated rest, `if`, `then` and `else`, definitions and anchors. A reference is
followed only if it is `#` and stands in a schema for members or items; every other is passed over,
also one that leads nowhere.
-/

namespace Scaffold.Schema

variable {linked : Bool}

/-! ### What a schema looks like -/

/-- What the value of a keyword has to be. -/
inductive Form
  | schema
  | schemas
  | schemaMap
  | typeNames
  | names
  | count
  | number
  | positive
  | typed (t : JsonType)
deriving DecidableEq

/-- Keywords that hold schemas. -/
def innerKeywords : List (String × Form) :=
  [("additionalProperties", .schema), ("allOf", .schemas), ("anyOf", .schemas),
    ("contains", .schema), ("dependentSchemas", .schemaMap), ("else", .schema), ("if", .schema),
    ("items", .schema), ("not", .schema), ("oneOf", .schemas), ("patternProperties", .schemaMap),
    ("prefixItems", .schemas), ("properties", .schemaMap), ("propertyNames", .schema),
    ("then", .schema)]

/-- Keywords that name a schema or the schemas inside it. -/
def coreKeywords : List (String × Form) :=
  [("$anchor", .typed .string), ("$comment", .typed .string), ("$defs", .schemaMap),
    ("$dynamicAnchor", .typed .string), ("$dynamicRef", .typed .string), ("$id", .typed .string),
    ("$ref", .typed .string), ("$schema", .typed .string)]

/-- Keywords that are rules by themselves. -/
def ownKeywords : List (String × Form) :=
  [("enum", .typed .array), ("exclusiveMaximum", .number), ("exclusiveMinimum", .number),
    ("maxContains", .count), ("maxItems", .count), ("maxLength", .count), ("maxProperties", .count),
    ("maximum", .number), ("minContains", .count), ("minItems", .count), ("minLength", .count),
    ("minProperties", .count), ("minimum", .number), ("multipleOf", .positive),
    ("pattern", .typed .string), ("required", .names), ("type", .typeNames),
    ("uniqueItems", .typed .boolean)]

/-- Keywords that describe. -/
def noteKeywords : List (String × Form) :=
  [("deprecated", .typed .boolean), ("description", .typed .string), ("examples", .typed .array),
    ("readOnly", .typed .boolean), ("title", .typed .string), ("writeOnly", .typed .boolean)]

/-- The keywords in the groups in which they are checked. -/
def keywordGroups : List (List (String × Form)) :=
  [coreKeywords, innerKeywords, ownKeywords, noteKeywords]

def typeFault? (t : JsonType) (v : Json) : Option Violation :=
  if v.hasType t then none else some (.types v [t])

def isTypeName (v : Json) : Bool := v.string?.any fun s => (JsonType.ofName? s).isSome

/-- Whether a value is the name of a type or a list of different ones. -/
def isTypeNames : Json → Bool
  | .array vs => !vs.isEmpty && vs.all isTypeName && Json.allDistinct vs
  | v => isTypeName v

/-- The fault of a list of names: one that is no text, or one that is repeated. -/
def namesFault? : Json → Option Violation
  | .array vs =>
    match vs.find? (!·.isString) with
    | some v => some (.types v [.string])
    | none => if Json.allDistinct vs then none else some (.uniqueItems (.array vs))
  | v => some (.types v [.array])

/-- The fault of a count, which is a number from zero on and an integer. -/
def countFault? (v : Json) : Option Violation :=
  match v with
  | .number n => if n.lt (.int 0) then some (.minimum v (.int 0)) else typeFault? .integer v
  | v => some (.types v [.integer])

def positiveFault? (v : Json) : Option Violation :=
  match v with
  | .number n => if (JsonNumber.int 0).lt n then none else some (.exclusiveMinimum v (.int 0))
  | v => some (.types v [.number])

/-- The fault of a value that holds no schemas. -/
def flatFault? (v : Json) : Form → Option Violation
  | .typeNames => if isTypeNames v then none else some (.noneOf v "anyOf")
  | .names => namesFault? v
  | .count => countFault? v
  | .number => typeFault? .number v
  | .positive => positiveFault? v
  | .typed t => typeFault? t v
  | _ => none

mutual

/-- Why a value is no schema, if it is none. -/
def formFault? : Json → Option Violation
  | .bool _ => none
  | .object ms => groupFault? keywordGroups ms
  | v => some (.types v [.boolean, .object])
termination_by v => (sizeOf v, 0)

/-- The first fault in the groups of keywords. -/
def groupFault? (groups : List (List (String × Form))) (ms : List (String × Json)) :
    Option Violation :=
  match groups with
  | [] => none
  | g :: gs => (membersFault? g ms).or (groupFault? gs ms)
termination_by (sizeOf ms, groups.length + 1)

def membersFault? (g : List (String × Form)) (ms : List (String × Json)) : Option Violation :=
  match ms with
  | [] => none
  | (k, v) :: ms =>
    (match g.lookup k with
      | none => none
      | some f => keywordFault? f v).or (membersFault? g ms)
termination_by (sizeOf ms, 0)

def keywordFault? (f : Form) (v : Json) : Option Violation :=
  match f, v with
  | .schema, v => formFault? v
  | .schemas, .array vs => if vs.isEmpty then some (.minItems (.array vs) 1) else listFault? vs
  | .schemas, v => some (.types v [.array])
  | .schemaMap, .object ms => mapFault? ms
  | .schemaMap, v => some (.types v [.object])
  | f, v => flatFault? v f
termination_by (sizeOf v, 1)

def listFault? (vs : List Json) : Option Violation :=
  match vs with
  | [] => none
  | v :: vs => (formFault? v).or (listFault? vs)
termination_by (sizeOf vs, 0)

def mapFault? (ms : List (String × Json)) : Option Violation :=
  match ms with
  | [] => none
  | (_, v) :: ms => (formFault? v).or (mapFault? ms)
termination_by (sizeOf ms, 0)

end

/-! ### The rules of a schema -/

/-- What a keyword says by itself. -/
inductive Clause
  | rule (r : Rule)
  | named (ps : List (String × Target))
  | others (o : Others)
  | nothing

def countOf : Json → Nat
  | .number n => n.fraction.1.toNat / n.fraction.2
  | _ => 0

def typesOf : Json → List JsonType
  | .string s => (JsonType.ofName? s).toList
  | .array vs => JsonType.all.filter fun t => vs.any fun v => v.string? == some t.name
  | _ => []

/-- What a keyword without schemas says. -/
def flatClause (k : String) (v : Json) : Clause :=
  if k = "type" then .rule (.types (typesOf v))
  else if k = "const" then .rule (.const v)
  else if k = "minLength" then .rule (.minLength (countOf v))
  else if k = "maxLength" then .rule (.maxLength (countOf v))
  else if k = "minItems" then .rule (.minItems (countOf v))
  else if k = "maxItems" then .rule (.maxItems (countOf v))
  else
    match v with
    | .number n =>
      if k = "minimum" then .rule (.minimum n)
      else if k = "maximum" then .rule (.maximum n)
      else .nothing
    | .array vs =>
      if k = "enum" then .rule (.enum vs)
      else if k = "required" then .rule (.required (vs.filterMap Json.string?))
      else .nothing
    | .bool true => if k = "uniqueItems" then .rule .uniqueItems else .nothing
    | _ => .nothing

/-- The members that are named, if any are. -/
def namedOf : List Clause → Option (List (String × Target))
  | [] => none
  | .named ps :: _ => some ps
  | _ :: r => namedOf r

def restricts : Clause → Bool
  | .others _ => true
  | _ => false

/-- The rules of clauses. What is said of other members is one rule with what is said of those that
are named, in the place of the former. -/
def rulesOf (cs : List Clause) : List Rule :=
  cs.filterMap fun c =>
    match c with
    | .rule r => some r
    | .nothing => none
    | .named ps => if cs.any restricts then none else some (.members ps .free)
    | .others o =>
      match namedOf cs, o with
      | some ps, o => some (.members ps o)
      | none, .refused => some .empty
      | none, o => some (.members [] o)

mutual

/-- The schema that a value holds. -/
def ofJson : Json → Schema
  | .bool true => .anything
  | .bool false => .nothing
  | .object ms => .rules (rulesOf (clausesOf ms))
  | _ => .anything

def clausesOf : List (String × Json) → List Clause
  | [] => []
  | (k, v) :: r => clauseOf k v :: clausesOf r

def clauseOf (k : String) : Json → Clause
  | .bool b =>
    if k = "additionalProperties" then if b then .nothing else .others .refused
    else if k = "items" then .rule (.items (.schema (if b then .anything else .nothing)))
    else if k = "propertyNames" then .rule (.propertyNames (if b then .anything else .nothing))
    else if k = "not" then .rule (.not (.bool b) (if b then .anything else .nothing))
    else flatClause k (.bool b)
  | .object ms =>
    if k = "properties" then .named (namedTargets ms)
    else if k = "additionalProperties" then .others (.checked (targetOf ms))
    else if k = "items" then .rule (.items (targetOf ms))
    else if k = "propertyNames" then .rule (.propertyNames (.rules (rulesOf (clausesOf ms))))
    else if k = "not" then .rule (.not (.object ms) (.rules (rulesOf (clausesOf ms))))
    else flatClause k (.object ms)
  | .array vs =>
    if k = "allOf" then .rule (.allOf (schemasOf vs))
    else if k = "anyOf" then .rule (.anyOf (schemasOf vs))
    else if k = "oneOf" then .rule (.oneOf (schemasOf vs))
    else flatClause k (.array vs)
  | v => flatClause k v

/-- The target of an object: the whole schema if it says nothing but that, or else its own rules. -/
def targetOf (ms : List (String × Json)) : Target :=
  if ms.any fun e => e.1 == "$ref" && e.2.string? == some "#" then .whole
  else .schema (.rules (rulesOf (clausesOf ms)))

def namedTargets : List (String × Json) → List (String × Target)
  | [] => []
  | (k, .object ms) :: r => (k, targetOf ms) :: namedTargets r
  | (k, .bool b) :: r => (k, .schema (if b then .anything else .nothing)) :: namedTargets r
  | (k, _) :: r => (k, .schema .anything) :: namedTargets r

def schemasOf : List Json → List Schema
  | [] => []
  | v :: r => ofJson v :: schemasOf r

end

/-- The schema that a value holds, or why it holds none. -/
def read (v : Json) : Except Failure Schema :=
  match formFault? v with
  | some f => .error (.config ("invalid schema: " ++ f.message))
  | none => .ok (ofJson v)

/-- The schema in a file. -/
def load (p : Path) : WorkOn linked Schema := do
  Work.debug ("Loading schema from " ++ p.text)
  let text ← Work.readText p
  match Json.read? text with
  | none => Work.fail (.config ("schema '" ++ p.text ++ "' is not valid JSON: <syntax>"))
  | some v => Work.ofExcept (read v)

/-- Checks a value; the failure lists all violations. -/
def validate (s : Schema) (v : Json) : Except Failure Unit :=
  match s.violations v with
  | [] => .ok ()
  | vs => .error (.validation ("; ".intercalate (vs.map Violation.message)))

end Scaffold.Schema
