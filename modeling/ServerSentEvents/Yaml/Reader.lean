import ServerSentEvents.Yaml.OpenDocument
import ServerSentEvents.Yaml.TokenReader

/-!
# Reading YAML

The part of YAML that settings files use: block mappings and block sequences by indentation, plain
and quoted scalars over any number of lines, collections in brackets, comments, and the marks at the
ends of a document.
-/

namespace ServerSentEvents.YamlNode

/-- Reads a text that holds one document. -/
def parse? (text : String) : Option YamlNode := do
  let tokens ← Yaml.Token.ofText? text
  let document ← tokens.foldlM Yaml.OpenDocument.step {}
  document.close

end ServerSentEvents.YamlNode
