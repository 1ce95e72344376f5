import Hati.Program
import Mathlib.Logic.Relation

namespace Hati

/-!
# The parts of a program

Evaluation is asked about expressions and statements.  The parts of such a piece
of code are the expressions and statements that stand directly in it, those of
the functions and classes that it declares among them.  A part is smaller than
what it stands in, so every piece of code has only finitely many pieces inside.
-/

/-- A piece of a program that can be evaluated. -/
inductive Code where
  | expr (expr : Expr)
  | stmt (stmt : Stmt)

/-! ## Direct parts -/

namespace FunctionDecl

/-- The defaults of the parameters and the statements of the body. -/
def parts (decl : FunctionDecl) : List Code :=
  decl.params.flatMap (fun param =>
    match param.form with
    | .optional default => [Code.expr default]
    | _ => []) ++ decl.body.map Code.stmt

end FunctionDecl

namespace ClassDecl

/-- The initial values of the fields and the code of the methods. -/
def parts (decl : ClassDecl) : List Code :=
  decl.fields.flatMap (fun field => field.value.toList.map Code.expr) ++
    decl.methods.flatMap fun method => method.function.parts

end ClassDecl

namespace LiteralMember

def parts : LiteralMember → List Code
  | .spread source => [.expr source]
  | .property (.named _) value _ _ _ => [.expr value]
  | .property (.computed key) value _ _ _ => [.expr key, .expr value]

end LiteralMember

namespace ExprNode

def parts : ExprNode → List Code
  | .number _ | .text _ | .bool _ | .null | .name _ | .receiver => []
  | .template _ holes => holes.map .expr
  | .list items => items.map .expr
  | .object members => members.flatMap LiteralMember.parts
  | .function decl => decl.parts
  | .unary _ operand => [.expr operand]
  | .binary _ left right => [.expr left, .expr right]
  | .update _ target value => .expr target :: value.toList.map .expr
  | .conditional condition thenBranch elseBranch =>
    [.expr condition, .expr thenBranch, .expr elseBranch]
  | .spread source => [.expr source]
  | .call callee arguments _ => .expr callee :: arguments.map .expr
  | .member container _ _ => [.expr container]
  | .index container position _ => [.expr container, .expr position]
  | .construct cls arguments => .expr cls :: arguments.map .expr
  | .superConstructor arguments => arguments.map .expr
  | .superMethod _ arguments => arguments.map .expr
  | .delete target arguments => .expr target :: arguments.map .expr

end ExprNode

namespace StmtNode

def parts : StmtNode → List Code
  | .expression value => [.expr value]
  | .print values _ => values.map .expr
  | .declare _ value _ => value.toList.map .expr
  | .assign target value => [.expr target, .expr value]
  | .function decl => decl.parts
  | .return value => value.toList.map .expr
  | .class decl => decl.parts
  | .block body => body.map .stmt
  | .if condition thenBranch elseBranch =>
    .expr condition :: thenBranch.map .stmt ++ (elseBranch.getD []).map .stmt
  | .for init condition post body =>
    init.toList.map .stmt ++ condition.toList.map .expr ++ post.toList.map .stmt ++
      body.map .stmt
  | .forIn _ _ iterable body => .expr iterable :: body.map .stmt
  | .while condition body => .expr condition :: body.map .stmt
  | .doWhile body condition => .expr condition :: body.map .stmt
  | .break | .continue => []

end StmtNode

namespace Code

def parts : Code → List Code
  | expr e => e.node.parts
  | stmt s => s.node.parts

/-- The name that the code itself gives a new value to. -/
def assigned? : Code → Option String
  | expr ⟨.update _ ⟨.name name, _⟩ _, _⟩ => some name
  | stmt ⟨.assign ⟨.name name, _⟩ _, _⟩ => some name
  | _ => none

/-! ## Size -/

private theorem sizeOf_le_of_mem_exprs {items : List Expr} {part : Code}
    (member : part ∈ items.map Code.expr) : sizeOf part ≤ sizeOf items := by
  obtain ⟨item, inItems, rfl⟩ := List.mem_map.mp member
  have bound := List.sizeOf_lt_of_mem inItems
  simp only [expr.sizeOf_spec]
  omega

private theorem sizeOf_le_of_mem_stmts {body : List Stmt} {part : Code}
    (member : part ∈ body.map Code.stmt) : sizeOf part ≤ sizeOf body := by
  obtain ⟨item, inBody, rfl⟩ := List.mem_map.mp member
  have bound := List.sizeOf_lt_of_mem inBody
  simp only [stmt.sizeOf_spec]
  omega

private theorem sizeOf_le_of_mem_optionalExpr {value : Option Expr} {part : Code}
    (member : part ∈ value.toList.map Code.expr) : sizeOf part ≤ sizeOf value := by
  cases value with
  | none => cases member
  | some value =>
      simp only [Option.toList_some, List.map_cons, List.map_nil, List.mem_singleton] at member
      subst member
      simp

private theorem sizeOf_le_of_mem_optionalStmt {value : Option Stmt} {part : Code}
    (member : part ∈ value.toList.map Code.stmt) : sizeOf part ≤ sizeOf value := by
  cases value with
  | none => cases member
  | some value =>
      simp only [Option.toList_some, List.map_cons, List.map_nil, List.mem_singleton] at member
      subst member
      simp

private theorem sizeOf_le_of_mem_function {decl : FunctionDecl} {part : Code}
    (member : part ∈ decl.parts) : sizeOf part ≤ sizeOf decl := by
  obtain ⟨name, params, body, span⟩ := decl
  rcases List.mem_append.mp member with inParams | inBody
  · obtain ⟨⟨paramName, form⟩, inParams, inForm⟩ := List.mem_flatMap.mp inParams
    have bound := List.sizeOf_lt_of_mem inParams
    cases form with
    | optional default =>
        simp only [List.mem_singleton] at inForm
        subst inForm
        simp at bound ⊢
        omega
    | required => cases inForm
    | rest count => cases inForm
  · have bound : sizeOf part ≤ sizeOf body := sizeOf_le_of_mem_stmts inBody
    simp only [FunctionDecl.mk.sizeOf_spec]
    omega

private theorem sizeOf_le_of_mem_class {decl : ClassDecl} {part : Code}
    (member : part ∈ decl.parts) : sizeOf part ≤ sizeOf decl := by
  obtain ⟨name, superclass, fields, methods, span⟩ := decl
  simp only [ClassDecl.mk.sizeOf_spec]
  rcases List.mem_append.mp member with inFields | inMethods
  · obtain ⟨⟨fieldName, value, _, _, _, fieldSpan⟩, inFields, inValue⟩ :=
      List.mem_flatMap.mp inFields
    have bound := List.sizeOf_lt_of_mem inFields
    have inner : sizeOf part ≤ sizeOf value := sizeOf_le_of_mem_optionalExpr inValue
    simp only [FieldDecl.mk.sizeOf_spec] at bound
    omega
  · obtain ⟨⟨methodName, function, traits, methodSpan⟩, inMethods, inFunction⟩ :=
      List.mem_flatMap.mp inMethods
    have bound := List.sizeOf_lt_of_mem inMethods
    have inner : sizeOf part ≤ sizeOf function := sizeOf_le_of_mem_function inFunction
    simp only [MethodDecl.mk.sizeOf_spec] at bound
    omega

private theorem sizeOf_le_of_mem_member {entry : LiteralMember} {part : Code}
    (member : part ∈ entry.parts) : sizeOf part ≤ sizeOf entry := by
  cases entry with
  | spread source =>
      simp only [LiteralMember.parts, List.mem_singleton] at member
      subst member
      simp
  | property key value access isMethod span =>
      cases key with
      | named name =>
          simp only [LiteralMember.parts, List.mem_singleton] at member
          subst member
          simp
          omega
      | computed key =>
          simp only [LiteralMember.parts, List.mem_cons, List.not_mem_nil, or_false] at member
          rcases member with rfl | rfl <;> simp <;> omega

private theorem sizeOf_le_of_mem_exprNode {node : ExprNode} {part : Code}
    (member : part ∈ node.parts) : sizeOf part ≤ sizeOf node := by
  cases node with
  | number _ | text _ | bool _ | null | name _ | receiver => cases member
  | template pieces holes =>
      have bound := sizeOf_le_of_mem_exprs member
      simp only [ExprNode.template.sizeOf_spec]
      omega
  | list items =>
      have bound := sizeOf_le_of_mem_exprs member
      simp only [ExprNode.list.sizeOf_spec]
      omega
  | object members =>
      obtain ⟨entry, inMembers, inEntry⟩ := List.mem_flatMap.mp member
      have bound := List.sizeOf_lt_of_mem inMembers
      have inner := sizeOf_le_of_mem_member inEntry
      simp only [ExprNode.object.sizeOf_spec]
      omega
  | function decl =>
      have bound := sizeOf_le_of_mem_function member
      simp only [ExprNode.function.sizeOf_spec]
      omega
  | update op target value =>
      simp only [ExprNode.update.sizeOf_spec]
      rcases List.mem_cons.mp member with rfl | member
      · simp only [expr.sizeOf_spec]
        omega
      · have bound := sizeOf_le_of_mem_optionalExpr member
        omega
  | call callee arguments _ | construct cls arguments | delete target arguments =>
      simp only [ExprNode.call.sizeOf_spec, ExprNode.construct.sizeOf_spec,
        ExprNode.delete.sizeOf_spec]
      rcases List.mem_cons.mp member with rfl | member
      · simp only [expr.sizeOf_spec]
        omega
      · have bound := sizeOf_le_of_mem_exprs member
        omega
  | superConstructor arguments =>
      have bound := sizeOf_le_of_mem_exprs member
      simp only [ExprNode.superConstructor.sizeOf_spec]
      omega
  | superMethod method arguments =>
      have bound := sizeOf_le_of_mem_exprs member
      simp only [ExprNode.superMethod.sizeOf_spec]
      omega
  | unary _ _ | binary _ _ _ | conditional _ _ _ | spread _ | member _ _ _ | index _ _ _ =>
      simp only [ExprNode.parts, List.mem_cons, List.not_mem_nil, or_false] at member
      rcases member with rfl | rfl | rfl <;> simp <;> omega

private theorem sizeOf_le_of_mem_stmtNode {node : StmtNode} {part : Code}
    (member : part ∈ node.parts) : sizeOf part ≤ sizeOf node := by
  cases node with
  | expression value =>
      simp only [StmtNode.parts, List.mem_singleton] at member
      subst member
      simp
  | print values newline =>
      have bound := sizeOf_le_of_mem_exprs member
      simp only [StmtNode.print.sizeOf_spec]
      omega
  | declare target value isConstant =>
      have bound := sizeOf_le_of_mem_optionalExpr member
      simp only [StmtNode.declare.sizeOf_spec]
      omega
  | assign target value =>
      simp only [StmtNode.parts, List.mem_cons, List.not_mem_nil, or_false] at member
      simp only [StmtNode.assign.sizeOf_spec]
      rcases member with rfl | rfl <;> simp only [expr.sizeOf_spec] <;> omega
  | function decl =>
      have bound := sizeOf_le_of_mem_function member
      simp only [StmtNode.function.sizeOf_spec]
      omega
  | «return» value =>
      have bound := sizeOf_le_of_mem_optionalExpr member
      simp only [StmtNode.return.sizeOf_spec]
      omega
  | «class» decl =>
      have bound := sizeOf_le_of_mem_class member
      simp only [StmtNode.class.sizeOf_spec]
      omega
  | block body =>
      have bound := sizeOf_le_of_mem_stmts member
      simp only [StmtNode.block.sizeOf_spec]
      omega
  | «if» condition thenBranch elseBranch =>
      simp only [StmtNode.if.sizeOf_spec]
      rcases List.mem_append.mp member with member | member
      · rcases List.mem_cons.mp member with rfl | member
        · simp only [expr.sizeOf_spec]
          omega
        · have bound := sizeOf_le_of_mem_stmts member
          omega
      · have bound := sizeOf_le_of_mem_stmts member
        cases elseBranch with
        | none => simp at member
        | some body =>
            simp only [Option.getD_some] at bound
            simp only [Option.some.sizeOf_spec]
            omega
  | «for» init condition post body =>
      simp only [StmtNode.for.sizeOf_spec]
      simp only [StmtNode.parts, List.mem_append] at member
      rcases member with ((member | member) | member) | member
      · have bound := sizeOf_le_of_mem_optionalStmt member
        omega
      · have bound := sizeOf_le_of_mem_optionalExpr member
        omega
      · have bound := sizeOf_le_of_mem_optionalStmt member
        omega
      · have bound := sizeOf_le_of_mem_stmts member
        omega
  | forIn _ _ iterable body | «while» condition body | doWhile body condition =>
      simp only [StmtNode.forIn.sizeOf_spec, StmtNode.while.sizeOf_spec,
        StmtNode.doWhile.sizeOf_spec]
      rcases List.mem_cons.mp member with rfl | member
      · simp only [expr.sizeOf_spec]
        omega
      · have bound := sizeOf_le_of_mem_stmts member
        omega
  | «break» | «continue» => cases member

/-- A part is smaller than the code it stands in. -/
theorem sizeOf_lt_of_mem_parts {whole part : Code} (member : part ∈ whole.parts) :
    sizeOf part < sizeOf whole := by
  cases whole with
  | expr whole =>
      obtain ⟨node, span⟩ := whole
      have bound : sizeOf part ≤ sizeOf node := sizeOf_le_of_mem_exprNode member
      simp only [expr.sizeOf_spec, Expr.mk.sizeOf_spec]
      omega
  | stmt whole =>
      obtain ⟨node, span⟩ := whole
      have bound : sizeOf part ≤ sizeOf node := sizeOf_le_of_mem_stmtNode member
      simp only [stmt.sizeOf_spec, Stmt.mk.sizeOf_spec]
      omega

/-! ## Code inside code -/

/-- `whole.Holds part` if `part` stands in `whole`, at any depth, or is all of it. -/
def Holds : Code → Code → Prop :=
  Relation.ReflTransGen fun whole part => part ∈ whole.parts

/-- None of the code inside, at any depth, is of the given kind. -/
def Lacks (kind : Code → Prop) (whole : Code) : Prop :=
  ∀ part, whole.Holds part → ¬ kind part

namespace Lacks

variable {kind : Code → Prop} {whole : Code}

theorem self (lacks : whole.Lacks kind) : ¬ kind whole :=
  lacks whole .refl

theorem part (lacks : whole.Lacks kind) {part : Code} (member : part ∈ whole.parts) :
    part.Lacks kind :=
  fun inner reached => lacks inner (.head member reached)

/-- Code lacks a kind as soon as it is not of the kind itself and its parts lack it. -/
theorem intro (self : ¬ kind whole) (parts : ∀ part ∈ whole.parts, part.Lacks kind) :
    whole.Lacks kind := by
  intro inner reached
  rcases Relation.ReflTransGen.cases_head reached with rfl | ⟨part, member, rest⟩
  · exact self
  · exact parts part member inner rest

end Lacks

end Code

end Hati
