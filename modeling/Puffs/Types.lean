import Puffs.Ast
/-!
# Implicit types

An expression's `MType` is a `*TypeExpr`. It points either at one of the checker's own type
expressions (`TypeExprIdeal`, `TypeExprBool`, `TypeExprU8`) or at a type expression node of
the program (a `Var`'s or a field's declared type, or the target of `as`). The checker
compares these pointers with `==` in some places and structurally with `Eq` in others;
`MType` keeps both readings apart. `Eq`, `EqIgnoringRefinements`, `numeric` and the three
type expressions are not part of this source and are modelled from the spec.
-/
namespace Puffs

mutual
/-- Structural equality of expressions, addresses ignored. -/
def Expr.eqv : Expr → Expr → Bool
  | .other a, .other b => a.eqv b
  | .unaryOp a, .unaryOp b => a.eqv b
  | .binaryOp a, .binaryOp b => a.eqv b
  | .associativeOp a, .associativeOp b => a.eqv b
  | _, _ => false
termination_by structural a _ => a

def ExprOther.eqv : ExprOther → ExprOther → Bool
  | .leaf _ i, .leaf _ j => i == j
  | .call _ p s l as, .call _ p' s' l' bs => p == p' && s == s' && l.eqv l' && Arg.eqvList as bs
  | .index _ l r, .index _ l' r' => l.eqv l' && r.eqv r'
  | .slice _ l m r, .slice _ l' m' r' => l.eqv l' && Expr.eqvOpt m m' && Expr.eqvOpt r r'
  | .dot d, .dot d' => d.eqv d'
  | _, _ => false
termination_by structural a _ => a

def ExprDot.eqv : ExprDot → ExprDot → Bool
  | .mk _ l i, .mk _ l' i' => l.eqv l' && i == i'
termination_by structural a _ => a

def ExprUnaryOp.eqv : ExprUnaryOp → ExprUnaryOp → Bool
  | .mk _ o r, .mk _ o' r' => o == o' && r.eqv r'
termination_by structural a _ => a

def ExprBinaryOp.eqv : ExprBinaryOp → ExprBinaryOp → Bool
  | .mk _ o l r, .mk _ o' l' r' => o == o' && l.eqv l' && r.eqv r'
  | .as _ l t, .as _ l' t' => l.eqv l' && TypeExpr.eq false t t'
  | _, _ => false
termination_by structural a _ => a

def ExprAssociativeOp.eqv : ExprAssociativeOp → ExprAssociativeOp → Bool
  | .mk _ o as, .mk _ o' bs => o == o' && Expr.eqvList as bs
termination_by structural a _ => a

def Arg.eqvList : List Arg → List Arg → Bool
  | [], [] => true
  | .mk _ _ n v :: as, .mk _ _ n' v' :: bs => n == n' && v.eqv v' && Arg.eqvList as bs
  | _, _ => false
termination_by structural a _ => a

def Expr.eqvList : List Expr → List Expr → Bool
  | [], [] => true
  | a :: as, b :: bs => a.eqv b && Expr.eqvList as bs
  | _, _ => false
termination_by structural a _ => a

def Expr.eqvOpt : Option Expr → Option Expr → Bool
  | none, none => true
  | some a, some b => a.eqv b
  | _, _ => false
termination_by structural a _ => a

/-- Modelled from the spec: `TypeExpr.Eq` (`ignoreRefinements` false) and
`EqIgnoringRefinements` (true). An array's length is compared either way. -/
def TypeExpr.eq (ignoreRefinements : Bool) : TypeExpr → TypeExpr → Bool
  | .named _ p n mn mx, .named _ p' n' mn' mx' =>
    p == p' && n == n' && (ignoreRefinements || (Expr.eqvOpt mn mn' && Expr.eqvOpt mx mx'))
  | .ptr _ i, .ptr _ i' => TypeExpr.eq ignoreRefinements i i'
  | .array _ l i, .array _ l' i' => l.eqv l' && TypeExpr.eq ignoreRefinements i i'
  | _, _ => false
termination_by structural a _ => a
end

/-- Modelled from the spec: the name of `TypeExprIdeal` is not a numeric type name. -/
def typeExprIdeal : TypeExpr := .named 0 .zero .keyIdeal none none
def typeExprBool : TypeExpr := .named 0 .zero .keyBool none none
def typeExprU8 : TypeExpr := .named 0 .zero .keyU8 none none

/-- Where an expression's implicit type points. -/
inductive MType where
  | ideal
  | bool
  | u8
  | node (t : TypeExpr)
  deriving Repr

namespace MType

/-- The type expression pointed at. The checker's own ones are not AST nodes: their
address is never read. -/
def typeExpr : MType → TypeExpr
  | .ideal => typeExprIdeal
  | .bool => typeExprBool
  | .u8 => typeExprU8
  | .node t => t

/-- `typ == TypeExprIdeal`, a pointer comparison. -/
def isIdeal : MType → Bool
  | .ideal => true
  | _ => false

/-- `typ == TypeExprBool`, a pointer comparison. -/
def isBool : MType → Bool
  | .bool => true
  | _ => false

/-- `a.Eq(b)`. -/
def eq (a b : MType) : Bool := a.typeExpr.eq false b.typeExpr

/-- `a.EqIgnoringRefinements(b)`. -/
def eqIgnoringRefinements (a b : MType) : Bool := a.typeExpr.eq true b.typeExpr

def isNumType (a : MType) : Bool := a.typeExpr.isNumType

@[simp] theorem isIdeal_ideal : MType.ideal.isIdeal = true := rfl
@[simp] theorem isNumType_ideal : MType.ideal.isNumType = false := rfl
@[simp] theorem isNumType_bool : MType.bool.isNumType = false := rfl
@[simp] theorem isNumType_u8 : MType.u8.isNumType = true := rfl

end MType

/-- Modelled from the spec: `numeric(typ)`, the ideal type or a sized numeric type. -/
def numeric (t : MType) : Bool := t.isIdeal || t.isNumType

/-- The loop of `tcheckDot` that strips leading `ptr` decorators. -/
def TypeExpr.stripPtr : TypeExpr → TypeExpr
  | .ptr _ inner => inner.stripPtr
  | t => t

end Puffs
