import TableRoster.Yaml.Tag

/-! # Nodes of settings files -/

namespace TableRoster.Yaml

inductive Node
  | scalar (tag : Tag) (text : String)
  | list (tag : Tag) (items : List Node)
  | map (tag : Tag) (entries : List (Node × Node))
  /-- A list or mapping that this is a part of, which may be the outermost one. -/
  | again (isMap isRoot : Bool)
  deriving Inhabited

namespace Node

def empty : Node :=
  .scalar .null ""

def tag : Node → Tag
  | .scalar t _ | .list t _ | .map t _ => t
  | .again isMap _ => if isMap then .map else .list

end Node

end TableRoster.Yaml
