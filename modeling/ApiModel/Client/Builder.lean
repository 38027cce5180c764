import ApiModel.Client.Header
import ApiModel.Client.Tidy
import ApiModel.Operation.Service
import ApiModel.Schema.Definitions

/-!
# From documents to clients

`Client.ofDocument` builds everything a document says; `Client.generate` puts it in order, which
is what is shown and rendered.
-/

namespace ApiModel.Client

/-- The client of a document, as the document has it. -/
def ofDocument (document : Node) : Built Client := do
  let ctx ← Context.ofDocument document
  let version ← versionOf document
  let server ← serverOf ctx
  let models ← Schema.definitions ctx
  let services ← Service.ofDocument ctx
  pure { version, server, models, services }

/-- The client of a document, in order. -/
def generate (document : Node) : Built Client := Tidy.client <$> ofDocument document

end ApiModel.Client
