import ApiModel.Pointer
import ApiModel.TypeExpr

/-!
# The document around a schema

What a schema means depends on the document around it: on its dialect, on the nodes to which
references lead, and on the discriminators. A discriminator belongs to a schema that offers
alternatives; it names a property by which a reader tells the members apart, and every member
gets a literal for it.
-/

namespace ApiModel

namespace Discriminator

/-- The names of the schemas to which the members of alternatives refer, with the discriminator
between them. -/
def membersOf (d : Dialect) (schema : Node) : Built (List (String × Node)) :=
  let discriminator := schema.field "discriminator"
  let oneOf := schema.field "oneOf"
  if discriminator.isMap && oneOf.truthy then do
    let members ← Report.ofOption .malformed oneOf.members?
    pure (members.filterMap fun m =>
      m.ref?.map fun ref => (d.schemaName (.text ref), discriminator))
  else pure []

/-- Keep the first entry of each name. -/
def firstOfName (entries : List (String × Node)) : List (String × Node) :=
  entries.foldl (fun index e => if (index.lookup e.1).isSome then index else index ++ [e]) []

/-- The named schemas of a document of the third version. -/
def schemas (document : Node) : Built (List (Scalar × Node)) := do
  let components := (document.field "components").orElse (.map [])
  if !components.isMap then Report.fail .malformed
  Report.ofOption .malformed ((components.field "schemas").orElse (.map [])).entries?

/-- For each member of alternatives the discriminator of the first schema that lists it, in the
order in which the members are first listed. -/
def index (d : Dialect) (document : Node) : Built (List (String × Node)) := do
  if d.hasDiscriminators then
    let found ← (← schemas document).mapM fun e => membersOf d e.2
    pure (firstOfName found.flatten)
  else pure []

/-- The references of a mapping, each once and in the order of their first entries, with the last
key of each. -/
def inverted (entries : List (Scalar × Node)) : List (String × Scalar) :=
  entries.foldl (fun found e =>
    match e.2.text? with
    | some ref =>
      if (found.lookup ref).isSome then
        found.map fun f => if f.1 = ref then (ref, e.1) else f
      else found ++ [(ref, e.1)]
    | none => found) []

/-- The literal of the member with the given name: the key under which the mapping of the
discriminator has it, else the name itself. -/
def literal (d : Dialect) (discriminator : Node) (name : String) : Scalar :=
  match (discriminator.field "mapping").entries? with
  | some entries =>
    match (inverted entries).find? fun f => d.schemaName (.text f.1) = name with
    | some f => f.2
    | none => .text name
  | none => .text name

end Discriminator

/-- The document around a schema. -/
structure Context where
  document : Node
  dialect : Dialect
  discriminators : List (String × Node) := []

namespace Context

/-- The context that a document gives. -/
def ofDocument (document : Node) : Built Context := do
  let dialect ← Report.ofExcept (Dialect.ofDocument document)
  pure { document, dialect, discriminators := ← Discriminator.index dialect document }

/-- The discriminator for the schema with the given name. -/
def discriminator? (ctx : Context) (name : String) : Option Node :=
  if name = "" then none else ctx.discriminators.lookup name

end Context

end ApiModel
