import HttpNative.Library.Text

/-!
# Syntax trees

Trees of nodes that have a type and named fields, as parsers of scripting
languages give them, and the walk that visits every node with the field it hangs
in. An analysis that marks a plan at each visit leaves the plan clear exactly
when every visit does. Positions in the source are no fields here.
-/

namespace HttpNative
namespace SyntaxTree

mutual

/-- A node with its type and its own fields, in order. -/
inductive Node where
  | mk (type : Text) (fields : List (Text × Field))

/-- What a field of a node holds. -/
inductive Field where
  | node (child : Node)
  /-- An array of nodes; a hole in an array pattern is none. -/
  | nodes (children : List (Option Node))
  | text (value : Text)
  | bool (value : Bool)
  /-- A number, a regular expression or nothing, by whether it is truthy. -/
  | other (isTruthy : Bool)

end

def Field.isTruthy : Field → Bool
  | .node _ => true
  | .nodes _ => true
  | .text value => !value.isEmpty
  | .bool value => value
  | .other isTruthy => isTruthy

namespace Node

def type : Node → Text
  | .mk type _ => type

def field (name : Text) : Node → Option Field
  | .mk _ fields => (fields.find? fun entry => entry.1 = name).map Prod.snd

/-- The node in a field, when there is one. -/
def child (name : Text) (node : Node) : Option Node :=
  match node.field name with
  | some (.node child) => some child
  | _ => none

/-- The nodes of an array in a field. -/
def children (name : Text) (node : Node) : List Node :=
  match node.field name with
  | some (.nodes children) => children.reduceOption
  | _ => []

/-- The first element of an array in a field, when it is a node. -/
def firstChild (name : Text) (node : Node) : Option Node :=
  match node.field name with
  | some (.nodes (some first :: _)) => some first
  | _ => none

def textField (name : Text) (node : Node) : Option Text :=
  match node.field name with
  | some (.text value) => some value
  | _ => none

end Node

/-- A node on the walk, with the name of the field it hangs in and the node that
field belongs to. -/
structure Visit where
  node : Node
  parent : Option (Text × Node)

/-! ## The walk -/

mutual

/-- The visits of a node and of everything below it, in order. -/
def Node.visits (parent : Option (Text × Node)) : Node → List Visit
  | .mk type fields => ⟨.mk type fields, parent⟩ :: visitsOfFields (.mk type fields) fields

def visitsOfFields (owner : Node) : List (Text × Field) → List Visit
  | [] => []
  | (name, field) :: rest => field.visits name owner ++ visitsOfFields owner rest

def Field.visits (name : Text) (owner : Node) : Field → List Visit
  | .node child => child.visits (some (name, owner))
  | .nodes children => visitsOfNodes name owner children
  | .text _ => []
  | .bool _ => []
  | .other _ => []

def visitsOfNodes (name : Text) (owner : Node) : List (Option Node) → List Visit
  | [] => []
  | none :: rest => visitsOfNodes name owner rest
  | some child :: rest => child.visits (some (name, owner)) ++ visitsOfNodes name owner rest

end

/-! ## Marking a plan -/

variable {Plan Mark : Type}

/-- Marks are never taken back: a plan is clear after all of them exactly when it
was clear before and every one of them leaves it so. -/
theorem isClear_foldl
    {isClear : Plan → Bool} {leaves : Mark → Bool} {markWith : Plan → Mark → Plan}
    (one : ∀ plan mark, isClear (markWith plan mark) = (isClear plan && leaves mark))
    (plan : Plan)
    (marks : List Mark) :
    isClear (marks.foldl markWith plan) = (isClear plan && marks.all leaves) := by
  induction marks generalizing plan with
  | nil => rw [List.foldl_nil, List.all_nil, Bool.and_true]
  | cons mark rest hypothesis =>
      rw [List.foldl_cons, hypothesis, one, List.all_cons, Bool.and_assoc]

end SyntaxTree
end HttpNative
