import Hati.Proofs.Code

namespace Hati

/-!
# The nodes of a program

A node is an expression, a statement or the declaration of a function: whatever
carries the place where it was written and can be the place of a fault.  A declared
function is a node of its own between the code that declares it and the code of its
body, since a jump that leaves a body is blamed on the declaration.
-/

/-- A part of a program that faults may be blamed on. -/
inductive Node where
  | code (code : Code)
  | function (decl : FunctionDecl)

namespace Code

/-- The place that the code was written at. -/
def span : Code → Span
  | expr e => e.span
  | stmt s => s.span

/-- The names that the code itself binds or assigns to. -/
def ownNames : Code → List String
  | stmt ⟨.declare target _ _, _⟩ => target.boundNames
  | stmt ⟨.function decl, _⟩ => decl.name.toList
  | stmt ⟨.class decl, _⟩ => [decl.name]
  | stmt ⟨.forIn first second _ _, _⟩ => first :: second.toList
  | code => code.assigned?.toList

theorem mem_ownNames_of_assigned? {code : Code} {name : String}
    (assigned : code.assigned? = some name) : name ∈ code.ownNames := by
  have listed : name ∈ code.assigned?.toList := Option.mem_toList.mpr assigned
  unfold ownNames
  split
  · cases assigned
  · cases assigned
  · cases assigned
  · cases assigned
  · exact listed

end Code

namespace ClassDecl

/-- The initial values of the fields and the functions of the methods. -/
def nodes (decl : ClassDecl) : List Node :=
  decl.fields.flatMap (fun field => field.value.toList.map (.code ∘ .expr)) ++
    decl.methods.map fun method => .function method.function

variable {decl : ClassDecl}

theorem mem_parts_of_field {field : FieldDecl} (declared : field ∈ decl.fields) {value : Expr}
    (given : field.value = some value) : Code.expr value ∈ decl.parts := by
  refine List.mem_append_left _ (List.mem_flatMap.mpr ⟨field, declared, ?_⟩)
  simp [given]

theorem mem_parts_of_method {method : MethodDecl} (declared : method ∈ decl.methods)
    {part : Code} (member : part ∈ method.function.parts) : part ∈ decl.parts :=
  List.mem_append_right _ (List.mem_flatMap.mpr ⟨method, declared, member⟩)

theorem mem_nodes_of_field {field : FieldDecl} (declared : field ∈ decl.fields) {value : Expr}
    (given : field.value = some value) : Node.code (.expr value) ∈ decl.nodes := by
  refine List.mem_append_left _ (List.mem_flatMap.mpr ⟨field, declared, ?_⟩)
  simp [given]

theorem mem_nodes_of_method {method : MethodDecl} (declared : method ∈ decl.methods) :
    .function method.function ∈ decl.nodes :=
  List.mem_append_right _ (List.mem_map_of_mem declared)

/-- What stands in a class stands in one of its fields or methods. -/
theorem parts_cases {part : Code} (member : part ∈ decl.parts) :
    (∃ field ∈ decl.fields, ∃ value, field.value = some value ∧ part = .expr value) ∨
      ∃ method ∈ decl.methods, part ∈ method.function.parts := by
  rcases List.mem_append.mp member with inFields | inMethods
  · rcases List.mem_flatMap.mp inFields with ⟨field, declared, inValue⟩
    rcases List.mem_map.mp inValue with ⟨value, given, rfl⟩
    exact .inl ⟨field, declared, value, Option.mem_toList.mp given, rfl⟩
  · exact .inr (List.mem_flatMap.mp inMethods)

end ClassDecl

namespace Node

/-- The place that a node was written at. -/
def span : Node → Span
  | code whole => whole.span
  | function decl => decl.span

/-- The names that the node itself binds or assigns to. -/
def ownNames : Node → List String
  | code whole => whole.ownNames
  | function decl => decl.params.map Param.name

/-- The nodes that stand directly in a node. -/
def parts : Node → List Node
  | code (.expr ⟨.function decl, _⟩) => [function decl]
  | code (.stmt ⟨.function decl, _⟩) => [function decl]
  | code (.stmt ⟨.class decl, _⟩) => decl.nodes
  | code whole => whole.parts.map code
  | function decl => decl.parts.map code

/-- `whole.Contains node` if the node stands in `whole`, at any depth, or is all of it. -/
def Contains : Node → Node → Prop :=
  Relation.ReflTransGen fun whole part => part ∈ whole.parts

/-- What stands in a declared class stands in its fields or in its methods. -/
theorem mem_nodes_of_mem_class {decl : ClassDecl} {part : Code} (member : part ∈ decl.parts) :
    code part ∈ decl.nodes ∨ ∃ node ∈ decl.nodes, code part ∈ node.parts := by
  rcases ClassDecl.parts_cases member with
    ⟨field, declared, value, given, rfl⟩ | ⟨method, declared, inMethod⟩
  · exact .inl (ClassDecl.mem_nodes_of_field declared given)
  · exact .inr ⟨_, ClassDecl.mem_nodes_of_method declared, List.mem_map_of_mem inMethod⟩

/-- The parts of a piece of code stand in it as nodes: directly, or in a function that
is declared there. -/
theorem contains_of_mem_parts {whole part : Code} (member : part ∈ whole.parts) :
    (code whole).Contains (code part) := by
  have through : ∀ {node}, node ∈ (code whole).parts → code part ∈ node.parts →
      (code whole).Contains (code part) :=
    fun inWhole inNode => .head inWhole (.single inNode)
  rcases whole with ⟨node, span⟩ | ⟨node, span⟩
  · cases node with
    | function decl => exact through List.mem_cons_self (List.mem_map_of_mem member)
    | _ => exact .single (List.mem_map_of_mem member)
  · cases node with
    | function decl => exact through List.mem_cons_self (List.mem_map_of_mem member)
    | «class» decl =>
        rcases mem_nodes_of_mem_class member with direct | ⟨node, inClass, inNode⟩
        · exact .single direct
        · exact through inClass inNode
    | _ => exact .single (List.mem_map_of_mem member)

/-! ## Nodes that consist of code -/

variable {holds : Code → Prop}

/-- The node is code with the property, or a function all of whose code has it. -/
def Consists (holds : Code → Prop) : Node → Prop
  | code whole => holds whole
  | function decl => ∀ part ∈ decl.parts, holds part

theorem consists_of_mem_class {decl : ClassDecl} (each : ∀ part ∈ decl.parts, holds part) :
    ∀ node ∈ decl.nodes, node.Consists holds := by
  intro node member
  rcases List.mem_append.mp member with inFields | inMethods
  · rcases List.mem_flatMap.mp inFields with ⟨field, declared, inValue⟩
    rcases List.mem_map.mp inValue with ⟨value, given, rfl⟩
    exact each _ (ClassDecl.mem_parts_of_field declared (Option.mem_toList.mp given))
  · rcases List.mem_map.mp inMethods with ⟨method, declared, rfl⟩
    exact fun part inMethod => each part (ClassDecl.mem_parts_of_method declared inMethod)

theorem mem_class_of_consists {decl : ClassDecl} (each : ∀ node ∈ decl.nodes, node.Consists holds)
    {part : Code} (member : part ∈ decl.parts) : holds part := by
  rcases ClassDecl.parts_cases member with
    ⟨field, declared, value, given, rfl⟩ | ⟨method, declared, inMethod⟩
  · exact each _ (ClassDecl.mem_nodes_of_field declared given)
  · exact each _ (ClassDecl.mem_nodes_of_method declared) part inMethod

/-- Parts of code with a property that parts inherit consist of such code. -/
theorem Consists.part (inherits : ∀ whole part, holds whole → part ∈ whole.parts → holds part)
    {whole part : Node} (consists : whole.Consists holds) (member : part ∈ whole.parts) :
    part.Consists holds := by
  have direct : ∀ code : Code, holds code → ∀ inner ∈ code.parts.map Node.code,
      inner.Consists holds := by
    intro code ownHolds inner inCode
    rcases List.mem_map.mp inCode with ⟨piece, inParts, rfl⟩
    exact inherits code piece ownHolds inParts
  cases whole with
  | code whole =>
      have inner := fun piece => inherits whole piece consists
      rcases whole with ⟨node, span⟩ | ⟨node, span⟩
      · cases node with
        | function decl => exact List.mem_singleton.mp member ▸ inner
        | _ => exact direct _ consists _ member
      · cases node with
        | function decl => exact List.mem_singleton.mp member ▸ inner
        | «class» decl => exact consists_of_mem_class inner part member
        | _ => exact direct _ consists _ member
  | function decl =>
      rcases List.mem_map.mp member with ⟨piece, inBody, rfl⟩
      exact consists piece inBody

end Node

end Hati
