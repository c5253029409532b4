import Puffs.Token
/-!
# The AST

`lang/ast` stores every kind in one `Node` record and reads it through per-kind views
(`n.If()`, `n.While()`, ...). Here each view is a type, and a node's slots are the fields its
constructor (`NewIf`, `NewWhile`, ...) fills, so a node whose slots do not fit its kind cannot
be built. Expressions are further split by the operator flags of `ID0`, the way `tcheckExpr`
dispatches on them, and by `ID0`'s key inside `tcheckExprOther`.

A node's `addr` is the identity of its Go pointer: the checker's annotations (`TypeChecked`,
`MType`, `ConstValue`, jump targets) live in a store indexed by it (`Puffs.Checker`).
Filenames and lines are kept only on the nodes whose location the checker reads.
-/
namespace Puffs

/-- The identity of a node's pointer. -/
abbrev Addr := Nat

/-- `FilenameLine()`. -/
structure Pos where
  filename : String
  line : Nat
  deriving DecidableEq, Repr

mutual
/-- Expr, by the operator flags of its `ID0`. -/
inductive Expr where
  | other (n : ExprOther)
  | unaryOp (n : ExprUnaryOp)
  | binaryOp (n : ExprBinaryOp)
  | associativeOp (n : ExprAssociativeOp)
  deriving Repr

/-- An `ID0` with no operator flags: `0` (a name or literal in `ID1`), `(` (a call),
`[` (an index), `:` (a slice) or `.` (a selector). -/
inductive ExprOther where
  | leaf (addr : Addr) (id1 : ID)
  | call (addr : Addr) (impure suspendible : Bool) (lhs : Expr) (args : List Arg)
  | index (addr : Addr) (lhs rhs : Expr)
  | slice (addr : Addr) (lhs : Expr) (mhs rhs : Option Expr)
  | dot (n : ExprDot)
  deriving Repr

/-- A selector "LHS.ID1". -/
inductive ExprDot where
  | mk (addr : Addr) (lhs : Expr) (id1 : ID)
  deriving Repr

inductive ExprUnaryOp where
  | mk (addr : Addr) (op : UnaryOp) (rhs : Expr)
  deriving Repr

/-- A binary operator; for `as` the right operand is a type expression. -/
inductive ExprBinaryOp where
  | mk (addr : Addr) (op : BinaryOp) (lhs rhs : Expr)
  | as (addr : Addr) (lhs : Expr) (rhs : TypeExpr)
  deriving Repr

inductive ExprAssociativeOp where
  | mk (addr : Addr) (op : AssociativeOp) (args : List Expr)
  deriving Repr

/-- Arg is "name:value". -/
inductive Arg where
  | mk (addr : Addr) (pos : Pos) (name : ID) (value : Expr)
  deriving Repr

/-- TypeExpr, by its `PackageOrDecorator`: a named type "pkg.foo" or "foo[min..max]",
"ptr T", or "[length] T". -/
inductive TypeExpr where
  | named (addr : Addr) (pkg name : ID) (min max : Option Expr)
  | ptr (addr : Addr) (inner : TypeExpr)
  | array (addr : Addr) (length : Expr) (inner : TypeExpr)
  deriving Repr
end

def ExprDot.addr : ExprDot → Addr | .mk a .. => a
def ExprUnaryOp.addr : ExprUnaryOp → Addr | .mk a .. => a
def ExprBinaryOp.addr : ExprBinaryOp → Addr | .mk a .. | .as a .. => a
def ExprAssociativeOp.addr : ExprAssociativeOp → Addr | .mk a .. => a

def ExprOther.addr : ExprOther → Addr
  | .leaf a _ | .call a .. | .index a .. | .slice a .. => a
  | .dot n => n.addr

def Expr.addr : Expr → Addr
  | .other n => n.addr
  | .unaryOp n => n.addr
  | .binaryOp n => n.addr
  | .associativeOp n => n.addr

def Arg.addr : Arg → Addr | .mk a .. => a
def Arg.pos : Arg → Pos | .mk _ p .. => p
def Arg.value : Arg → Expr | .mk _ _ _ v => v

def TypeExpr.addr : TypeExpr → Addr
  | .named a .. | .ptr a _ | .array a .. => a

section AddrSimp
variable {a : Addr}

@[simp] theorem Expr.addr_other (n : ExprOther) : (Expr.other n).addr = n.addr := rfl
@[simp] theorem Expr.addr_unaryOp (n : ExprUnaryOp) : (Expr.unaryOp n).addr = n.addr := rfl
@[simp] theorem Expr.addr_binaryOp (n : ExprBinaryOp) : (Expr.binaryOp n).addr = n.addr := rfl
@[simp] theorem ExprOther.addr_leaf (id1 : ID) : (ExprOther.leaf a id1).addr = a := rfl
@[simp] theorem ExprOther.addr_call (i s : Bool) (lhs : Expr) (args : List Arg) :
    (ExprOther.call a i s lhs args).addr = a := rfl
@[simp] theorem ExprOther.addr_dot (n : ExprDot) : (ExprOther.dot n).addr = n.addr := rfl
@[simp] theorem ExprDot.addr_mk (lhs : Expr) (id1 : ID) : (ExprDot.mk a lhs id1).addr = a := rfl
@[simp] theorem ExprUnaryOp.addr_mk (op : UnaryOp) (rhs : Expr) :
    (ExprUnaryOp.mk a op rhs).addr = a := rfl
@[simp] theorem ExprBinaryOp.addr_mk (op : BinaryOp) (lhs rhs : Expr) :
    (ExprBinaryOp.mk a op lhs rhs).addr = a := rfl
@[simp] theorem ExprBinaryOp.addr_as (lhs : Expr) (rhs : TypeExpr) :
    (ExprBinaryOp.as a lhs rhs).addr = a := rfl

end AddrSimp

/-- `IsNumType`: an unqualified primitive numeric type. -/
def TypeExpr.isNumType : TypeExpr → Bool
  | .named _ .zero name _ _ => name.isNumType
  | _ => false

/-- Assert is "assert RHS via ID1(args)"; its keyword and reason are not read by the
checker. -/
structure Assert where
  addr : Addr
  pos : Pos
  condition : Expr
  args : List Arg
  deriving Repr

/-- Assign is "LHS = RHS" or "LHS op= RHS". -/
structure Assign where
  addr : Addr
  pos : Pos
  operator : AssignOp
  lhs : Expr
  rhs : Expr
  deriving Repr

/-- Jump is "break" or "continue", with an optional label (`ID.zero` for none). -/
structure Jump where
  addr : Addr
  pos : Pos
  keyword : ID
  label : ID
  deriving Repr

structure Return where
  addr : Addr
  pos : Pos
  value : Option Expr
  deriving Repr

/-- Var is "var ID1 LHS" or "var ID1 LHS = RHS". -/
structure Var where
  addr : Addr
  pos : Pos
  name : ID
  xType : TypeExpr
  value : Option Expr
  deriving Repr

mutual
/-- A statement, by its `Kind`. -/
inductive Stmt where
  | kAssert (n : Assert)
  | kAssign (n : Assign)
  | kIf (n : If)
  | kJump (n : Jump)
  | kReturn (n : Return)
  | kVar (n : Var)
  | kWhile (n : While)
  deriving Repr

/-- If is "if LHS { List0 } else RHS" or "if LHS { List0 } else { List1 }". -/
inductive If where
  | mk (addr : Addr) (pos : Pos) (condition : Expr) (elseIf : Option If)
      (bodyIfTrue bodyIfFalse : List Stmt)
  deriving Repr

/-- While is "while:ID1 LHS, List0 { List1 }". -/
inductive While where
  | mk (addr : Addr) (pos : Pos) (label : ID) (condition : Expr) (asserts : List Assert)
      (body : List Stmt)
  deriving Repr
end

namespace If
def addr : If → Addr | .mk a .. => a
def pos : If → Pos | .mk _ p .. => p
def condition : If → Expr | .mk _ _ c .. => c
def elseIf : If → Option If | .mk _ _ _ e .. => e
def bodyIfTrue : If → List Stmt | .mk _ _ _ _ t _ => t
def bodyIfFalse : If → List Stmt | .mk _ _ _ _ _ f => f
end If

namespace While
def addr : While → Addr | .mk a .. => a
def pos : While → Pos | .mk _ p .. => p
def label : While → ID | .mk _ _ l .. => l
def condition : While → Expr | .mk _ _ _ c .. => c
def asserts : While → List Assert | .mk _ _ _ _ a _ => a
def body : While → List Stmt | .mk _ _ _ _ _ b => b
end While

def Stmt.addr : Stmt → Addr
  | .kAssert n => n.addr
  | .kAssign n => n.addr
  | .kIf n => n.addr
  | .kJump n => n.addr
  | .kReturn n => n.addr
  | .kVar n => n.addr
  | .kWhile n => n.addr

def Stmt.pos : Stmt → Pos
  | .kAssert n => n.pos
  | .kAssign n => n.pos
  | .kIf n => n.pos
  | .kJump n => n.pos
  | .kReturn n => n.pos
  | .kVar n => n.pos
  | .kWhile n => n.pos

/-- Field is a "name type = default_value" struct field; the default is not read by the
checker. -/
structure Field where
  name : ID
  xType : TypeExpr
  deriving Repr

structure Struct where
  name : ID
  fields : List Field
  deriving Repr

/-- Func is "func ID0.ID1(LHS)(RHS) { List1 }"; the checker reads only its in- and
out-parameter structs. -/
structure Func where
  in_ : Struct
  out : Struct
  deriving Repr

end Puffs
