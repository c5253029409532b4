import Puffs.Ast
/-!
# The nodes of a tree

`addrs` lists the address of every node below and including a node: expressions, arguments,
type expressions, statements and the clauses of `If` chains. A tree fresh from the parser has
pairwise distinct addresses (each constructor call allocates a node) and no annotations yet.
-/
namespace Puffs

mutual
def Expr.addrs : Expr → List Addr
  | .other n => n.addrs
  | .unaryOp n => n.addrs
  | .binaryOp n => n.addrs
  | .associativeOp n => n.addrs

def ExprOther.addrs : ExprOther → List Addr
  | .leaf a _ => [a]
  | .call a _ _ lhs args => a :: (lhs.addrs ++ Arg.addrsList args)
  | .index a lhs rhs => a :: (lhs.addrs ++ rhs.addrs)
  | .slice a lhs mhs rhs => a :: (lhs.addrs ++ (Expr.addrsOpt mhs ++ Expr.addrsOpt rhs))
  | .dot n => n.addrs

def ExprDot.addrs : ExprDot → List Addr
  | .mk a lhs _ => a :: lhs.addrs

def ExprUnaryOp.addrs : ExprUnaryOp → List Addr
  | .mk a _ rhs => a :: rhs.addrs

def ExprBinaryOp.addrs : ExprBinaryOp → List Addr
  | .mk a _ lhs rhs => a :: (lhs.addrs ++ rhs.addrs)
  | .as a lhs rhs => a :: (lhs.addrs ++ rhs.addrs)

def ExprAssociativeOp.addrs : ExprAssociativeOp → List Addr
  | .mk a _ args => a :: Expr.addrsList args

def Arg.addrs : Arg → List Addr
  | .mk a _ _ value => a :: value.addrs

def Arg.addrsList : List Arg → List Addr
  | [] => []
  | o :: os => o.addrs ++ Arg.addrsList os

def Expr.addrsList : List Expr → List Addr
  | [] => []
  | e :: es => e.addrs ++ Expr.addrsList es

def Expr.addrsOpt : Option Expr → List Addr
  | none => []
  | some e => e.addrs

def TypeExpr.addrs : TypeExpr → List Addr
  | .named a _ _ min max => a :: (Expr.addrsOpt min ++ Expr.addrsOpt max)
  | .ptr a inner => a :: inner.addrs
  | .array a aLen inner => a :: (aLen.addrs ++ inner.addrs)
end

def Assert.addrs (n : Assert) : List Addr := n.addr :: (n.condition.addrs ++ Arg.addrsList n.args)

def Assert.addrsList : List Assert → List Addr
  | [] => []
  | o :: os => o.addrs ++ Assert.addrsList os

mutual
def Stmt.addrs : Stmt → List Addr
  | .kAssert n => n.addrs
  | .kAssign n => n.addr :: (n.lhs.addrs ++ n.rhs.addrs)
  | .kIf n => n.addrs
  | .kJump n => [n.addr]
  | .kReturn n => n.addr :: Expr.addrsOpt n.value
  | .kVar n => n.addr :: (n.xType.addrs ++ Expr.addrsOpt n.value)
  | .kWhile n => n.addrs

def If.addrs : If → List Addr
  | .mk a _ cond elseIf bodyIfTrue bodyIfFalse =>
    a :: (cond.addrs ++ (Stmt.addrsList bodyIfTrue ++ (Stmt.addrsList bodyIfFalse ++
      If.addrsOpt elseIf)))

def If.addrsOpt : Option If → List Addr
  | none => []
  | some n => n.addrs

def While.addrs : While → List Addr
  | .mk a _ _ cond asserts body =>
    a :: (cond.addrs ++ (Assert.addrsList asserts ++ Stmt.addrsList body))

def Stmt.addrsList : List Stmt → List Addr
  | [] => []
  | o :: os => o.addrs ++ Stmt.addrsList os
end

mutual
/-- `e` and every expression below it: operands, argument values, and the bounds and lengths
inside the type expression of an `as`. -/
def Expr.subexprs : Expr → List Expr
  | .other n => .other n :: n.subexprs
  | .unaryOp n => .unaryOp n :: n.subexprs
  | .binaryOp n => .binaryOp n :: n.subexprs
  | .associativeOp n => .associativeOp n :: n.subexprs

/-- The expressions strictly below. -/
def ExprOther.subexprs : ExprOther → List Expr
  | .leaf _ _ => []
  | .call _ _ _ lhs args => lhs.subexprs ++ Arg.subexprsList args
  | .index _ lhs rhs => lhs.subexprs ++ rhs.subexprs
  | .slice _ lhs mhs rhs => lhs.subexprs ++ (Expr.subexprsOpt mhs ++ Expr.subexprsOpt rhs)
  | .dot n => n.subexprs

def ExprDot.subexprs : ExprDot → List Expr
  | .mk _ lhs _ => lhs.subexprs

def ExprUnaryOp.subexprs : ExprUnaryOp → List Expr
  | .mk _ _ rhs => rhs.subexprs

def ExprBinaryOp.subexprs : ExprBinaryOp → List Expr
  | .mk _ _ lhs rhs => lhs.subexprs ++ rhs.subexprs
  | .as _ lhs rhs => lhs.subexprs ++ rhs.subexprs

def ExprAssociativeOp.subexprs : ExprAssociativeOp → List Expr
  | .mk _ _ args => Expr.subexprsList args

def Arg.subexprsList : List Arg → List Expr
  | [] => []
  | .mk _ _ _ value :: os => value.subexprs ++ Arg.subexprsList os

def Expr.subexprsList : List Expr → List Expr
  | [] => []
  | e :: es => e.subexprs ++ Expr.subexprsList es

def Expr.subexprsOpt : Option Expr → List Expr
  | none => []
  | some e => e.subexprs

/-- The expressions inside a type expression: refinement bounds and array lengths. -/
def TypeExpr.subexprs : TypeExpr → List Expr
  | .named _ _ _ min max => Expr.subexprsOpt min ++ Expr.subexprsOpt max
  | .ptr _ inner => inner.subexprs
  | .array _ aLen inner => aLen.subexprs ++ inner.subexprs
end

@[simp] theorem Expr.addr_mem_addrs (e : Expr) : e.addr ∈ e.addrs := by
  rcases e with (_ | _ | _ | _ | ⟨_, _, _⟩) | ⟨_, _, _⟩ | (⟨_, _, _, _⟩ | ⟨_, _, _⟩) | ⟨_, _, _⟩ <;>
    simp [Expr.addr, Expr.addrs, ExprOther.addr, ExprOther.addrs, ExprDot.addr, ExprDot.addrs,
      ExprUnaryOp.addr, ExprUnaryOp.addrs, ExprBinaryOp.addr, ExprBinaryOp.addrs,
      ExprAssociativeOp.addr, ExprAssociativeOp.addrs]

@[simp] theorem TypeExpr.addr_mem_addrs (t : TypeExpr) : t.addr ∈ t.addrs := by
  cases t <;> simp [TypeExpr.addr, TypeExpr.addrs]

@[simp] theorem Stmt.addr_mem_addrs (s : Stmt) : s.addr ∈ s.addrs := by
  rcases s with n | n | ⟨a, p, c, e, t, f⟩ | n | n | n | ⟨a, p, l, c, as, b⟩ <;>
    simp [Stmt.addr, Stmt.addrs, Assert.addrs, If.addrs, While.addrs, If.addr, While.addr]

theorem subset_cons_append_left {a : Addr} {A B : List Addr} : A ⊆ a :: (A ++ B) :=
  List.subset_cons_of_subset _ (List.subset_append_left _ _)

theorem subset_cons_append_right {a : Addr} {A B : List Addr} : B ⊆ a :: (A ++ B) :=
  List.subset_cons_of_subset _ (List.subset_append_right _ _)

theorem While.body_sublist (w : While) : (Stmt.addrsList w.body).Sublist w.addrs := by
  rcases w with ⟨a, p, l, cond, asserts, body⟩
  exact ((List.sublist_append_right _ _).trans (List.sublist_append_right _ _)).trans
    (List.sublist_cons_self _ _)

/-- An `If`'s bodies and its else-if chain, in the order they are checked. -/
theorem If.bodies_sublist (n : If) :
    (Stmt.addrsList n.bodyIfTrue ++ (Stmt.addrsList n.bodyIfFalse ++ If.addrsOpt n.elseIf)).Sublist
      n.addrs := by
  rcases n with ⟨a, p, cond, e, t, f⟩
  exact (List.sublist_append_right _ _).trans (List.sublist_cons_self _ _)

theorem If.elseIf_sublist {n n' : If} (h : n.elseIf = some n') : n'.addrs.Sublist n.addrs := by
  have : If.addrsOpt n.elseIf = n'.addrs := by rw [h]; rfl
  exact this ▸ ((List.sublist_append_right _ _).trans (List.sublist_append_right _ _)).trans
    n.bodies_sublist

end Puffs
