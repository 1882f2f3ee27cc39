import Stencil.Template.Codec

/-! The JSON form of a template tree stands for that tree and no other.

A reader looks up the kind of a node first and then each part of that kind by its name. The writer has put every one of
them into the object, and the nodes of a part are read back before the part is.
-/

set_option autoImplicit false

namespace Stencil.Template

open Stencil.Json (Value)

/-! ### The parts of an object -/

def Part.ofValue (value : Value) : Part := ⟨value, nodesOf? true value⟩

@[simp] theorem Part.value_ofValue (value : Value) : (ofValue value).value = value := rfl

@[simp] theorem Part.nodes_ofValue (items : List Value) : (ofValue (.array items)).nodes = itemNodes? true items := by
  simp [ofValue, nodesOf?]

@[simp] theorem Part.space?_ofValue (space : Option String) :
    Part.space? (some (ofValue (spaceValue space))) = some space := by
  cases space <;> rfl

@[simp] theorem count?_lineValue (line : Nat) : (lineValue line).count? = some line := by
  simp [lineValue, Value.ofInt, Value.count?]

theorem lookup_memberParts (key : String) (members : List (String × Value)) :
    (memberParts members).lookup key = (members.lookup key).map Part.ofValue := by
  induction members with
  | nil => rfl
  | cons member rest ih =>
    obtain ⟨name, value⟩ := member
    simp only [memberParts, List.lookup_cons]
    cases key == name with
    | true => rfl
    | false => exact ih

theorem ofValue?_object (inner : Bool) {kind : NodeKind} {members : List (String × Value)}
    (typed : members.lookup "type" = some (kindValue kind)) :
    Node.ofValue? inner (.object members) =
      kind.build? (kind.parts.map fun name => (members.lookup name).map Part.ofValue) := by
  have named : NodeKind.ofValue? inner (kindValue kind) = some kind := NodeKind.ofName?_name kind
  rw [Node.ofValue?, lookup_memberParts, typed]
  simp only [Option.map_some, Option.bind_eq_bind, Option.bind_some, Part.value_ofValue, named, Json.fieldsByName,
    lookup_memberParts]

/-! ### Trees -/

def NodeKind.wrap? : NodeKind → Option (List Node → Nat → Node)
  | .idShorthand => some .idShorthand
  | .classShorthand => some .classShorthand
  | .collection => some .collection
  | .textLine => some .textLine
  | _ => none

theorem ofValue?_wrapped (inner : Bool) {kind : NodeKind} {wrap : List Node → Nat → Node} (wraps : kind.wrap? = some wrap)
    {children : List Node} (read : itemNodes? true (nodeValues children) = some children) (line : Nat) :
    Node.ofValue? inner (wrapped kind children line) = some (wrap children line) := by
  rw [wrapped, ofValue?_object inner rfl]
  cases kind <;> cases wraps <;> simp [NodeKind.parts, NodeKind.build?, List.lookup_cons, read]

mutual

/-- A node is read back from its JSON form, whether it stands inside another one or not. -/
theorem Node.ofValue?_toValue (inner : Bool) : ∀ node : Node, Node.ofValue? inner node.toValue = some node
  | .tag head attributes children => by
    have read := itemNodes?_nodeValues true attributes
    have read' := itemNodes?_nodeValues true children
    rw [Node.toValue, ofValue?_object inner rfl]
    simp [NodeKind.parts, NodeKind.build?, List.lookup_cons, Value.string?, Value.bool?, read, read']
  | .idShorthand _ _ | .classShorthand _ _ | .collection _ _ | .textLine _ _ => by
    rw [Node.toValue, ofValue?_wrapped inner rfl (itemNodes?_nodeValues true _)]
  | .htmlAttribute _ children _ | .code _ children _ => by
    have read := itemNodes?_nodeValues true children
    rw [Node.toValue, ofValue?_object inner rfl]
    simp [NodeKind.parts, NodeKind.build?, List.lookup_cons, Value.string?, read]
  | .text _ _ | .variable _ _ | .eval _ _ | .directive _ _ | .docType _ => by
    rw [Node.toValue, ofValue?_object inner rfl]
    simp [NodeKind.parts, NodeKind.build?, List.lookup_cons, Value.string?]

theorem itemNodes?_nodeValues (inner : Bool) : ∀ nodes : List Node, itemNodes? inner (nodeValues nodes) = some nodes
  | [] => by simp [nodeValues, itemNodes?]
  | node :: rest => by
    simp [nodeValues, itemNodes?, Node.ofValue?_toValue inner node, itemNodes?_nodeValues inner rest]

end

theorem Document.ofValue?_toValue (document : Document) : Document.ofValue? document.toValue = some document := by
  have read := itemNodes?_nodeValues false document.children
  simp [Document.toValue, Document.ofValue?, nodesOf?, read]

/-- Every tree is read back from its JSON form, and no two trees have the same one. -/
theorem Document.toValue_faithful :
    (∀ document : Document, Document.ofValue? document.toValue = some document) ∧
      ∀ document other : Document, document.toValue = other.toValue → document = other := by
  refine ⟨Document.ofValue?_toValue, fun document other same => ?_⟩
  have read := Document.ofValue?_toValue document
  rw [same, Document.ofValue?_toValue other] at read
  exact (Option.some.inj read).symm

end Stencil.Template
