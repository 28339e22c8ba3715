import Chartkeeper.Yaml.Token.Scalar
import Chartkeeper.Yaml.Token.Mark
/-!
# YAML documents

The tree of a document. An alias stands for the node that its anchor marks; which node that
is, is settled for the document as a whole, so an alias can also lead to a node around it.
-/

namespace Chartkeeper.Yaml

/-- A node of a document. -/
inductive Node where
  | alias (id : Nat)
  | scalar (tag : Option Tag) (style : Style) (text : String)
  | seq (tag : Option Tag) (items : List Node)
  | map (tag : Option Tag) (entries : List (Node × Node))
  deriving Inhabited

/-- The node of a place where something is missing. -/
def Node.missing : Node := .scalar none .plain ""

/-- A document: its root, which an empty stream lacks, the nodes that aliases lead to, and how
many steps it takes to walk through it. -/
structure Document where
  root : Option Node
  anchors : List (Nat × Node)
  steps : Nat
  deriving Inhabited

end Chartkeeper.Yaml
