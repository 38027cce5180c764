import ApiModel.Schema.Builder

/-!
# Definitions

The schemas of a document that have names. Documents of the third version also give names to
parameters, and the schema of such a parameter becomes a model as well; it takes the parameter's
description.
-/

namespace ApiModel.Schema

/-- The entries of a part of the document: a part that says nothing has none, and one that is no
mapping is a fault. -/
def sectionEntries (n : Node) : Built (List (Scalar × Node)) :=
  Report.ofOption .malformed (n.orElse (.map [])).entries?

/-- The model of a named schema. -/
def definition (ctx : Context) (entry : Scalar × Node) : Built Model :=
  model ctx entry.2 true (ctx.dialect.schemaName (.scalar entry.1))

/-- The model of the schema of a named parameter, if it has one. -/
def parameterDefinition (ctx : Context) (entry : Scalar × Node) : Built (Option Model) := do
  let schema := entry.2.field "schema"
  if schema.truthy then
    let m ← definition ctx (entry.1, schema)
    pure (some { m with
      description := (entry.2.field "description").orNull
      deprecated := (entry.2.field "deprecated").isTrue })
  else pure none

/-- The models of all named schemas, in the order of their declaration. -/
def definitions (ctx : Context) : Built (List Model) := do
  match ctx.dialect with
  | .v2 => (← sectionEntries (ctx.document.field "definitions")).mapM (definition ctx)
  | .v3 =>
    let components := (ctx.document.field "components").orElse (.map [])
    if !components.isMap then Report.fail .malformed
    let models ← (← sectionEntries (components.field "schemas")).mapM (definition ctx)
    let parameters ←
      (← sectionEntries (components.field "parameters")).mapM (parameterDefinition ctx)
    pure (models ++ parameters.reduceOption)

end ApiModel.Schema
