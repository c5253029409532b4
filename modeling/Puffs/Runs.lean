import Puffs.WellFormed
/-!
# Well-formed annotations over any run of the checker

The statement checks reach expressions only through `tcheckExpr` and type expressions only
through `tcheckTypeExpr`. Everything else they write is the mark of a statement, a clause, an
assert or an argument, the jump fields, the error position, the loop stack or the local
variables, and an expression's well-formedness reads none of these. So each call of
`tcheckVars`, `tcheckStatement`, `tcheckExpr` or `tcheckTypeExpr` on nodes of a fresh tree
keeps the tree well formed, whatever it returns, and so does every sequence of such calls.
The var pre-pass writes the error position and the local variables, and checks the declared
types.

Whatever they return, the calls also never drop or retype a local variable (the pre-pass
registers only free names, and nothing else writes them), never change the function or the
structs, always leave the jump-target stack as they found it, and never clear a mark
(`runAll_extends`).
-/
namespace Puffs

open CheckM

def Assert.subexprs (n : Assert) : List Expr := n.condition.subexprs ++ Arg.subexprsList n.args

def Assert.otherAddrs (n : Assert) : List Addr :=
  n.addr :: (n.condition.otherAddrs ++ Arg.otherAddrsList n.args)

def Assert.subexprsList : List Assert → List Expr
  | [] => []
  | o :: os => o.subexprs ++ Assert.subexprsList os

def Assert.otherAddrsList : List Assert → List Addr
  | [] => []
  | o :: os => o.otherAddrs ++ Assert.otherAddrsList os

mutual
/-- The expression nodes below a statement, in the order of `addrs`. -/
def Stmt.subexprs : Stmt → List Expr
  | .kAssert n => n.subexprs
  | .kAssign n => n.lhs.subexprs ++ n.rhs.subexprs
  | .kIf n => n.subexprs
  | .kJump _ => []
  | .kReturn n => Expr.subexprsOpt n.value
  | .kVar n => n.xType.subexprs ++ Expr.subexprsOpt n.value
  | .kWhile n => n.subexprs

def If.subexprs : If → List Expr
  | .mk _ _ cond elseIf bodyIfTrue bodyIfFalse =>
    cond.subexprs ++ (Stmt.subexprsList bodyIfTrue ++ (Stmt.subexprsList bodyIfFalse ++
      If.subexprsOpt elseIf))

def If.subexprsOpt : Option If → List Expr
  | none => []
  | some n => n.subexprs

def While.subexprs : While → List Expr
  | .mk _ _ _ cond asserts body =>
    cond.subexprs ++ (Assert.subexprsList asserts ++ Stmt.subexprsList body)

def Stmt.subexprsList : List Stmt → List Expr
  | [] => []
  | o :: os => o.subexprs ++ Stmt.subexprsList os
end

mutual
/-- The other nodes below and including a statement, in the order of `addrs`. -/
def Stmt.otherAddrs : Stmt → List Addr
  | .kAssert n => n.otherAddrs
  | .kAssign n => n.addr :: (n.lhs.otherAddrs ++ n.rhs.otherAddrs)
  | .kIf n => n.otherAddrs
  | .kJump n => [n.addr]
  | .kReturn n => n.addr :: Expr.otherAddrsOpt n.value
  | .kVar n => n.addr :: (n.xType.otherAddrs ++ Expr.otherAddrsOpt n.value)
  | .kWhile n => n.otherAddrs

def If.otherAddrs : If → List Addr
  | .mk a _ cond elseIf bodyIfTrue bodyIfFalse =>
    a :: (cond.otherAddrs ++ (Stmt.otherAddrsList bodyIfTrue ++ (Stmt.otherAddrsList bodyIfFalse ++
      If.otherAddrsOpt elseIf)))

def If.otherAddrsOpt : Option If → List Addr
  | none => []
  | some n => n.otherAddrs

def While.otherAddrs : While → List Addr
  | .mk a _ _ cond asserts body =>
    a :: (cond.otherAddrs ++ (Assert.otherAddrsList asserts ++ Stmt.otherAddrsList body))

def Stmt.otherAddrsList : List Stmt → List Addr
  | [] => []
  | o :: os => o.otherAddrs ++ Stmt.otherAddrsList os
end

section Frames

variable {T : Tree}

/-- A statement frame whose writes lie at other nodes keeps every expression's type and mark,
and marks only more operands. -/
theorem Tree.keeps_of_stmtFrame {A : List Addr} {m : CheckM α} (hA : A ⊆ T.others)
    (h : Keeps (stmtFrame A) m) : Keeps T.wfFrame m := by
  intro q hq x hx
  have H := h q
  have hc := H.outside x.addr fun hx' => T.addr_ne_other hx (hA hx') rfl
  simp only [Annot.core, Prod.mk.injEq] at hc
  exact ⟨by rw [hc.2.2.1, hc.1]; exact (hq x hx).1,
    fun hm o ho => H.checked _ ((hq x hx).2 (hc.1 ▸ hm) o ho)⟩

theorem Tree.keeps_setErrPos (p : Pos) : Keeps T.wfFrame (setErrPos p) :=
  T.keeps_of_stmtFrame (List.nil_subset _) (Puffs.keeps_setErrPos p)

/-- Push a loop, run `m`, pop it on every exit: the stack is no part of the annotations. -/
theorem Tree.keeps_pushed {w : While} {m : CheckM Unit} (hm : Keeps T.wfFrame m) :
    Keeps T.wfFrame (pushJumpTarget w >>= fun _ => deferring m popJumpTarget) := by
  intro q hq
  simp only [pushJumpTarget, update_bind, deferring_apply, popJumpTarget]
  exact hm _ hq

end Frames

section Statements

variable {T : Tree}

theorem tcheckAssertArgs_wf (args : List Arg)
    (hw : T.Holds (Arg.addrsList args) (Arg.subexprsList args) (Arg.otherAddrsList args)) :
    Keeps T.wfFrame (tcheckAssert.tcheckAssertArgs args) := by
  match args with
  | [] => exact Keeps.pure _
  | .mk a p name value :: os =>
    unfold tcheckAssert.tcheckAssertArgs
    exact Keeps.bind (tcheckExpr_wf value 0 hw.tail.left) fun _ =>
      Keeps.bind (T.keeps_setTypeChecked hw.head) fun _ => tcheckAssertArgs_wf os hw.tail.right

theorem tcheckAssert_wf (n : Assert) (hw : T.Holds n.addrs n.subexprs n.otherAddrs) :
    Keeps T.wfFrame (tcheckAssert n) :=
  Keeps.bind (tcheckExpr_wf _ 0 hw.tail.left) fun _ =>
    Keeps.bind (Keeps.mTypeOf _) fun _ => Keeps.bind (Keeps.require _ _) fun _ =>
    tcheckAssertArgs_wf n.args hw.tail.right

theorem tcheckWhileAsserts_wf (asserts : List Assert)
    (hw : T.Holds (Assert.addrsList asserts) (Assert.subexprsList asserts)
      (Assert.otherAddrsList asserts)) :
    Keeps T.wfFrame (tcheckWhileHead.tcheckWhileAsserts asserts) := by
  match asserts with
  | [] => exact Keeps.pure _
  | o :: os =>
    unfold tcheckWhileHead.tcheckWhileAsserts
    exact Keeps.bind (tcheckAssert_wf o hw.left) fun _ =>
      Keeps.bind (T.keeps_setTypeChecked hw.left.head) fun _ => tcheckWhileAsserts_wf os hw.right

theorem tcheckWhileHead_wf (n : While)
    (hc : T.Holds n.condition.addrs n.condition.subexprs n.condition.otherAddrs)
    (ha : T.Holds (Assert.addrsList n.asserts) (Assert.subexprsList n.asserts)
      (Assert.otherAddrsList n.asserts)) :
    Keeps T.wfFrame (tcheckWhileHead n) :=
  Keeps.bind (tcheckExpr_wf _ 0 hc) fun _ =>
    Keeps.bind (Keeps.mTypeOf _) fun _ => Keeps.bind (Keeps.require _ _) fun _ =>
    tcheckWhileAsserts_wf _ ha

theorem tcheckIfCondition_wf (n : If)
    (hc : T.Holds n.condition.addrs n.condition.subexprs n.condition.otherAddrs) :
    Keeps T.wfFrame (tcheckIfCondition n) :=
  Keeps.bind (tcheckExpr_wf _ 0 hc) fun _ => Keeps.bind (Keeps.mTypeOf _) fun _ => Keeps.require _ _

theorem tcheckAssign_wf (n : Assign)
    (hw : T.Holds (n.lhs.addrs ++ n.rhs.addrs) (n.lhs.subexprs ++ n.rhs.subexprs)
      (n.lhs.otherAddrs ++ n.rhs.otherAddrs)) :
    Keeps T.wfFrame (tcheckAssign n) :=
  Keeps.bind (tcheckExpr_wf _ 0 hw.left) fun _ =>
    Keeps.bind (tcheckExpr_wf _ 0 hw.right) fun _ =>
    Keeps.bind (Keeps.mTypeOf _) fun _ => Keeps.bind (Keeps.mTypeOf _) fun _ => Keeps.ofExcept _

theorem tcheckVarStatement_wf (n : Var)
    (hw : T.Holds (Expr.addrsOpt n.value) (Expr.subexprsOpt n.value) (Expr.otherAddrsOpt n.value)) :
    Keeps T.wfFrame (tcheckVarStatement n) := by
  refine Keeps.bind (Keeps.read _) fun _ => Keeps.bind (Keeps.require _ _) fun _ => ?_
  rcases n with ⟨a, p, name, t, _ | v⟩
  · exact Keeps.pure _
  · exact tcheckExpr_wf v 0 hw

theorem tcheckReturn_wf (n : Return)
    (hw : T.Holds (Expr.addrsOpt n.value) (Expr.subexprsOpt n.value) (Expr.otherAddrsOpt n.value)) :
    Keeps T.wfFrame (tcheckReturn n) := by
  rcases n with ⟨a, p, _ | v⟩
  · exact Keeps.pure _
  · exact tcheckExpr_wf v 0 hw

theorem markIfChain_wf (n : If) (hw : T.Holds n.addrs n.subexprs n.otherAddrs) :
    Keeps T.wfFrame (markIfChain n) := by
  match n with
  | .mk a p cond elseIf t f =>
    unfold markIfChain
    refine Keeps.bind (T.keeps_setTypeChecked hw.head) fun _ => ?_
    match elseIf with
    | none => exact Keeps.pure _
    | some n => exact markIfChain_wf n hw.tail.right.right.right

mutual
theorem tcheckStatement_wf (s : Stmt) (hw : T.Holds s.addrs s.subexprs s.otherAddrs) :
    Keeps T.wfFrame (tcheckStatement s) := by
  unfold tcheckStatement
  refine Keeps.bind (T.keeps_setErrPos _) fun _ => ?_
  match s with
  | .kAssert n => exact Keeps.bind (tcheckAssert_wf n hw) fun _ => T.keeps_setTypeChecked hw.head
  | .kAssign n =>
    exact Keeps.bind (tcheckAssign_wf n hw.tail) fun _ => T.keeps_setTypeChecked hw.head
  | .kIf n => exact Keeps.bind (tcheckIfChain_wf n hw) fun _ => markIfChain_wf n hw
  | .kJump n =>
    exact Keeps.bind (T.keeps_of_stmtFrame (fun _ h => List.mem_singleton.mp h ▸ hw.head) (tcheckJump_keeps n))
      fun _ => T.keeps_setTypeChecked hw.head
  | .kReturn n =>
    exact Keeps.bind (tcheckReturn_wf n hw.tail) fun _ => T.keeps_setTypeChecked hw.head
  | .kVar n =>
    exact Keeps.bind (tcheckVarStatement_wf n hw.tail.right) fun _ => T.keeps_setTypeChecked hw.head
  | .kWhile (.mk a p l cond asserts body) =>
    exact Keeps.bind (tcheckWhileHead_wf _ hw.tail.left hw.tail.right.left) fun _ =>
      T.keeps_pushed (Keeps.bind (tcheckStatements_wf body hw.tail.right.right) fun _ =>
        T.keeps_setTypeChecked hw.head)

theorem tcheckStatements_wf (body : List Stmt)
    (hw : T.Holds (Stmt.addrsList body) (Stmt.subexprsList body) (Stmt.otherAddrsList body)) :
    Keeps T.wfFrame (tcheckStatements body) := by
  match body with
  | [] => exact Keeps.pure _
  | o :: os =>
    unfold tcheckStatements
    exact Keeps.bind (tcheckStatement_wf o hw.left) fun _ => tcheckStatements_wf os hw.right

theorem tcheckIfChain_wf (n : If) (hw : T.Holds n.addrs n.subexprs n.otherAddrs) :
    Keeps T.wfFrame (tcheckIfChain n) := by
  match n with
  | .mk a p cond elseIf t f =>
    unfold tcheckIfChain
    refine Keeps.bind (tcheckIfCondition_wf _ hw.tail.left) fun _ =>
      Keeps.bind (tcheckStatements_wf t hw.tail.right.left) fun _ =>
      Keeps.bind (tcheckStatements_wf f hw.tail.right.right.left) fun _ => ?_
    match elseIf with
    | none => exact Keeps.pure _
    | some n => exact tcheckIfChain_wf n hw.tail.right.right.right
end

theorem tcheckVarsArgs_wf (args : List Arg) : Keeps T.wfFrame (tcheckVarsArgs args) := by
  induction args with
  | nil => exact Keeps.pure _
  | cons o os ih => exact Keeps.bind (T.keeps_setErrPos _) fun _ => ih

theorem tcheckVarsAsserts_wf (asserts : List Assert) :
    Keeps T.wfFrame (tcheckVarsAsserts asserts) := by
  induction asserts with
  | nil => exact Keeps.pure _
  | cons o os ih =>
    exact Keeps.bind (Keeps.bind (T.keeps_setErrPos _) fun _ => tcheckVarsArgs_wf _) fun _ => ih

theorem registerVar_wf (n : Var) (hw : T.Holds n.xType.addrs n.xType.subexprs n.xType.otherAddrs) :
    Keeps T.wfFrame (registerVar n) :=
  Keeps.bind (Keeps.read _) fun _ => Keeps.bind (Keeps.require _ _) fun _ =>
    Keeps.bind (tcheckTypeExpr_wf _ 0 hw) fun _ _ => id

mutual
theorem tcheckVars_wf (s : Stmt) (hw : T.Holds s.addrs s.subexprs s.otherAddrs) :
    Keeps T.wfFrame (tcheckVars s) := by
  unfold tcheckVars
  refine Keeps.bind (T.keeps_setErrPos _) fun _ => ?_
  match s with
  | .kVar n => exact registerVar_wf n hw.tail.left
  | .kAssert n => exact tcheckVarsArgs_wf _
  | .kIf (.mk a p cond elseIf t f) =>
    exact Keeps.bind (tcheckVarsList_wf t hw.tail.right.left) fun _ =>
      tcheckVarsList_wf f hw.tail.right.right.left
  | .kWhile (.mk a p l cond asserts body) =>
    exact Keeps.bind (tcheckVarsAsserts_wf _) fun _ => tcheckVarsList_wf body hw.tail.right.right
  | .kAssign _ | .kJump _ | .kReturn _ => exact Keeps.pure _

theorem tcheckVarsList_wf (l : List Stmt)
    (hw : T.Holds (Stmt.addrsList l) (Stmt.subexprsList l) (Stmt.otherAddrsList l)) :
    Keeps T.wfFrame (tcheckVarsList l) := by
  match l with
  | [] => exact Keeps.pure _
  | o :: os =>
    unfold tcheckVarsList
    exact Keeps.bind (tcheckVars_wf o hw.left) fun _ => tcheckVarsList_wf os hw.right
end

end Statements

/-- The expression nodes `X` and the other nodes `O` are the nodes `A`, rearranged. -/
def Splits (X : List Expr) (O A : List Addr) : Prop := (X.map Expr.addr ++ O).Perm A

namespace Splits

variable {X X' : List Expr} {O O' A A' : List Addr}

theorem append (h : Splits X O A) (h' : Splits X' O' A') : Splits (X ++ X') (O ++ O') (A ++ A') := by
  unfold Splits at *
  have hs := h.append h'
  rw [List.append_assoc] at hs
  simpa only [List.map_append, List.append_assoc] using
    ((List.perm_append_comm_assoc (X'.map Expr.addr) O O').append_left _).trans hs

theorem other (a : Addr) (h : Splits X O A) : Splits X (a :: O) (a :: A) :=
  List.perm_middle.trans (h.cons a)

theorem expr {e : Expr} {a : Addr} (he : e.addr = a) (h : Splits X O A) :
    Splits (e :: X) O (a :: A) :=
  he ▸ h.cons e.addr

end Splits

mutual
theorem Expr.splits : ∀ e : Expr, Splits e.subexprs e.otherAddrs e.addrs
  | .other n => ExprOther.splits n
  | .unaryOp (.mk _ _ rhs) => (Expr.splits rhs).expr rfl
  | .binaryOp (.mk _ _ lhs rhs) => ((Expr.splits lhs).append (Expr.splits rhs)).expr rfl
  | .binaryOp (.as _ lhs rhs) => ((Expr.splits lhs).append (TypeExpr.splits rhs)).expr rfl
  | .associativeOp (.mk _ _ args) => (Expr.splitsList args).expr rfl

theorem ExprOther.splits : ∀ n : ExprOther, Splits (.other n :: n.subexprs) n.otherAddrs n.addrs
  | .leaf _ _ => Splits.expr rfl (List.Perm.refl [])
  | .call _ _ _ lhs args => ((Expr.splits lhs).append (Arg.splitsList args)).expr rfl
  | .index _ lhs rhs => ((Expr.splits lhs).append (Expr.splits rhs)).expr rfl
  | .slice _ lhs mhs rhs =>
    ((Expr.splits lhs).append ((Expr.splitsOpt mhs).append (Expr.splitsOpt rhs))).expr rfl
  | .dot (.mk _ lhs _) => (Expr.splits lhs).expr rfl

theorem Arg.splitsList :
    ∀ args : List Arg, Splits (Arg.subexprsList args) (Arg.otherAddrsList args) (Arg.addrsList args)
  | [] => List.Perm.refl []
  | .mk a _ _ value :: os => ((Expr.splits value).append (Arg.splitsList os)).other a

theorem Expr.splitsList :
    ∀ es : List Expr, Splits (Expr.subexprsList es) (Expr.otherAddrsList es) (Expr.addrsList es)
  | [] => List.Perm.refl []
  | e :: es => (Expr.splits e).append (Expr.splitsList es)

theorem Expr.splitsOpt :
    ∀ o : Option Expr, Splits (Expr.subexprsOpt o) (Expr.otherAddrsOpt o) (Expr.addrsOpt o)
  | none => List.Perm.refl []
  | some e => Expr.splits e

theorem TypeExpr.splits : ∀ t : TypeExpr, Splits t.subexprs t.otherAddrs t.addrs
  | .named a _ _ min max => ((Expr.splitsOpt min).append (Expr.splitsOpt max)).other a
  | .ptr a inner => (TypeExpr.splits inner).other a
  | .array a aLen inner => ((Expr.splits aLen).append (TypeExpr.splits inner)).other a
end

theorem Assert.splits (n : Assert) : Splits n.subexprs n.otherAddrs n.addrs :=
  ((Expr.splits _).append (Arg.splitsList _)).other _

theorem Assert.splitsList :
    ∀ l : List Assert, Splits (Assert.subexprsList l) (Assert.otherAddrsList l) (Assert.addrsList l)
  | [] => List.Perm.refl []
  | o :: os => o.splits.append (Assert.splitsList os)

mutual
theorem Stmt.splits : ∀ s : Stmt, Splits s.subexprs s.otherAddrs s.addrs
  | .kAssert n => n.splits
  | .kAssign _ => ((Expr.splits _).append (Expr.splits _)).other _
  | .kIf n => If.splits n
  | .kJump _ => List.Perm.refl _
  | .kReturn _ => (Expr.splitsOpt _).other _
  | .kVar _ => ((TypeExpr.splits _).append (Expr.splitsOpt _)).other _
  | .kWhile n => While.splits n

theorem If.splits : ∀ n : If, Splits n.subexprs n.otherAddrs n.addrs
  | .mk a _ cond elseIf t f => ((Expr.splits cond).append ((Stmt.splitsList t).append
      ((Stmt.splitsList f).append (If.splitsOpt elseIf)))).other a

theorem If.splitsOpt : ∀ o : Option If, Splits (If.subexprsOpt o) (If.otherAddrsOpt o) (If.addrsOpt o)
  | none => List.Perm.refl []
  | some n => If.splits n

theorem While.splits : ∀ n : While, Splits n.subexprs n.otherAddrs n.addrs
  | .mk a _ _ cond asserts body =>
    ((Expr.splits cond).append ((Assert.splitsList asserts).append (Stmt.splitsList body))).other a

theorem Stmt.splitsList :
    ∀ l : List Stmt, Splits (Stmt.subexprsList l) (Stmt.otherAddrsList l) (Stmt.addrsList l)
  | [] => List.Perm.refl []
  | o :: os => (Stmt.splits o).append (Stmt.splitsList os)
end

/-- The nodes of a function body fresh from the parser, at distinct addresses. -/
def Tree.ofStmts (body : List Stmt) (h : (Stmt.addrsList body).Nodup) : Tree :=
  ⟨Stmt.subexprsList body, Stmt.otherAddrsList body, (Stmt.splitsList body).nodup_iff.mpr h⟩

theorem Tree.Holds.of_mem {T : Tree} {body : List Stmt} {s : Stmt}
    (h : T.Holds (Stmt.addrsList body) (Stmt.subexprsList body) (Stmt.otherAddrsList body))
    (hs : s ∈ body) : T.Holds s.addrs s.subexprs s.otherAddrs := by
  induction body with
  | nil => cases hs
  | cons o os ih =>
    rcases List.mem_cons.mp hs with rfl | hs
    · exact h.left
    · exact ih h.right hs

/-- The statements of a fresh body lie in its tree. -/
theorem Tree.ofStmts_holds {body : List Stmt} (h : (Stmt.addrsList body).Nodup) {s : Stmt}
    (hs : s ∈ body) : (Tree.ofStmts body h).Holds s.addrs s.subexprs s.otherAddrs :=
  Tree.Holds.of_mem ⟨h, List.Subset.refl _, List.Subset.refl _⟩ hs

/-- A call of one of the checker's entry points. -/
inductive Call where
  | vars (s : Stmt)
  | stmt (s : Stmt)
  | expr (e : Expr) (depth : Nat)
  | typeExpr (t : TypeExpr) (depth : Nat)

def Call.run : Call → CheckM Unit
  | .vars s => tcheckVars s
  | .stmt s => tcheckStatement s
  | .expr e depth => tcheckExpr e depth
  | .typeExpr t depth => tcheckTypeExpr t depth

/-- The call is on nodes of the tree, at distinct addresses. -/
def Call.Within (T : Tree) : Call → Prop
  | .vars s | .stmt s => T.Holds s.addrs s.subexprs s.otherAddrs
  | .expr e _ => T.Holds e.addrs e.subexprs e.otherAddrs
  | .typeExpr t _ => T.Holds t.addrs t.subexprs t.otherAddrs

/-- The states reached from `q₀` by calls on nodes of the tree, each returning or failing. -/
inductive Reachable (T : Tree) (q₀ : Checker) : Checker → Prop
  | start : Reachable T q₀ q₀
  | call {q : Checker} (c : Call) : c.Within T → Reachable T q₀ q → Reachable T q₀ (c.run q).2

theorem Call.run_wf {T : Tree} (c : Call) (hc : c.Within T) : Keeps T.wfFrame c.run := by
  cases c with
  | vars s => exact tcheckVars_wf s hc
  | stmt s => exact tcheckStatement_wf s hc
  | expr e d => exact tcheckExpr_wf e d hc
  | typeExpr t d => exact tcheckTypeExpr_wf t d hc

/-- No node of a fresh tree has a type or a mark. -/
theorem Tree.inv_of_fresh {T : Tree} {q : Checker} (h : ∀ x ∈ T.exprs, q.ann x.addr = {}) :
    T.Inv q :=
  fun x hx => by unfold WellFormed; rw [h x hx]; exact ⟨rfl, nofun⟩

theorem annotations_wellFormed (T : Tree) (q₀ q : Checker)
    (hq₀ : ∀ x ∈ T.exprs, q₀.ann x.addr = {}) (hq : Reachable T q₀ q) :
    ∀ x ∈ T.exprs, WellFormed q x := by
  induction hq with
  | start => exact Tree.inv_of_fresh hq₀
  | call c hc _ ih => exact c.run_wf hc _ ih

/-- `7.low_bits(n: x)`, with `x` not declared. -/
def sevenLowBitsX : Expr :=
  .other (.call 1 false false (.other (.dot (.mk 2 (.other (.leaf 3 (.numLiteral "7"))) .keyLowBits)))
    [.mk 4 ⟨"", 0⟩ (.ident "n") (.other (.leaf 5 (.ident "x")))])

/-- `return 7.low_bits(n: x)`. -/
def returnLowBitsX : Stmt := .kReturn ⟨6, ⟨"", 0⟩, some sevenLowBitsX⟩

def returnLowBitsXTree : Tree := Tree.ofStmts [returnLowBitsX] (by decide)

/-- The check fails at the argument after the hack has marked and typed the callee: the callee
is well formed over its checked receiver, and the call has neither type nor mark. -/
theorem returnLowBitsX_wellFormed :
    (tcheckStatement returnLowBitsX .empty).1 = .error (.unrecognizedIdentifier (.ident "x")) ∧
      ((tcheckStatement returnLowBitsX .empty).2.ann 2).typeChecked = true ∧
      ((tcheckStatement returnLowBitsX .empty).2.ann 1).mType = none ∧
      ∀ x ∈ returnLowBitsXTree.exprs, WellFormed (tcheckStatement returnLowBitsX .empty).2 x :=
  ⟨rfl, rfl, rfl, annotations_wellFormed returnLowBitsXTree .empty _ (fun _ _ => rfl)
    (.call (.stmt returnLowBitsX) (Tree.ofStmts_holds _ (List.mem_singleton_self _)) .start)⟩

/-- What every entry point keeps on every exit, returned or failed: a name in scope keeps its
type, the function and the structs stay, the jump-target stack is as it was, and no
`TypeChecked` mark is cleared. -/
structure Extends (q q' : Checker) : Prop where
  localVars : ∀ x t, q.localVars x = some t → q'.localVars x = some t
  func : q'.func = q.func
  structs : q'.structs = q.structs
  jumpTargets : q'.jumpTargets = q.jumpTargets
  checked : ∀ a, (q.ann a).typeChecked = true → (q'.ann a).typeChecked = true

def extendsFrame : Frame where
  rel := Extends
  refl _ := ⟨fun _ _ => id, rfl, rfl, rfl, fun _ => id⟩
  trans h₁ h₂ := ⟨fun x t h => h₂.localVars x t (h₁.localVars x t h), h₂.func.trans h₁.func,
    h₂.structs.trans h₁.structs, h₂.jumpTargets.trans h₁.jumpTargets,
    fun a h => h₂.checked a (h₁.checked a h)⟩

section Extends

variable {A : List Addr} {q q' : Checker} {m : CheckM α}

theorem StmtFrame.extends (h : StmtFrame A q q') : Extends q q' :=
  ⟨fun x _ hx => (congrFun (congrArg Env.localVars h.env) x).trans hx, congrArg Env.func h.env,
    congrArg Env.structs h.env, h.jumpTargets, h.checked⟩

theorem Keeps.extends (h : Keeps (stmtFrame A) m) : Keeps extendsFrame m := fun q => (h q).extends

/-- Registering a free name keeps every name in scope. -/
theorem extends_register {x : ID} (t : TypeExpr) (hx : q.localVars x = none) :
    Extends q { q with localVars := Function.update q.localVars x (some t) } :=
  ⟨fun y _ hy => (Function.update_noteq (by rintro rfl; rw [hx] at hy; cases hy) _ _).trans hy,
    rfl, rfl, rfl, fun _ => id⟩

/-- The `KVar` case of the pre-pass writes the name only when it was free. -/
theorem registerVar_extends (n : Var) : Keeps extendsFrame (registerVar n) := by
  intro q
  unfold registerVar
  simp only [read_bind]
  rcases hfree : q.localVars n.name with _ | t
  · have K := (tcheckTypeExpr_keeps n.xType 0).stmt.extends q
    show Extends q ((tcheckTypeExpr n.xType 0 >>= fun _ => update _) q).2
    rw [bind_apply]
    rcases ht : tcheckTypeExpr n.xType 0 q with ⟨_ | _, q₁⟩ <;> rw [ht] at K
    · exact K
    · have hfree₁ : q₁.localVars n.name = none := by
        rw [((tcheckTypeExpr_keeps n.xType 0).of_eq ht).localVars, hfree]
      exact extendsFrame.trans K (extends_register n.xType hfree₁)
  · exact extendsFrame.refl q

theorem tcheckVarsArgs_extends (args : List Arg) : Keeps extendsFrame (tcheckVarsArgs args) := by
  induction args with
  | nil => exact Keeps.pure _
  | cons o os ih => exact Keeps.bind (@keeps_setErrPos [] _).extends fun _ => ih

theorem tcheckVarsAsserts_extends (asserts : List Assert) :
    Keeps extendsFrame (tcheckVarsAsserts asserts) := by
  induction asserts with
  | nil => exact Keeps.pure _
  | cons o os ih =>
    exact Keeps.bind (Keeps.bind (@keeps_setErrPos [] _).extends fun _ =>
      tcheckVarsArgs_extends _) fun _ => ih

mutual
theorem tcheckVars_extends (s : Stmt) : Keeps extendsFrame (tcheckVars s) := by
  unfold tcheckVars
  refine Keeps.bind (@keeps_setErrPos [] _).extends fun _ => ?_
  match s with
  | .kVar n => exact registerVar_extends n
  | .kAssert n => exact tcheckVarsArgs_extends _
  | .kIf (.mk a p cond elseIf t f) =>
    exact Keeps.bind (tcheckVarsList_extends t) fun _ => tcheckVarsList_extends f
  | .kWhile (.mk a p l cond asserts body) =>
    exact Keeps.bind (tcheckVarsAsserts_extends _) fun _ => tcheckVarsList_extends body
  | .kAssign _ | .kJump _ | .kReturn _ => exact Keeps.pure _

theorem tcheckVarsList_extends (l : List Stmt) : Keeps extendsFrame (tcheckVarsList l) := by
  match l with
  | [] => exact Keeps.pure _
  | o :: os =>
    unfold tcheckVarsList
    exact Keeps.bind (tcheckVars_extends o) fun _ => tcheckVarsList_extends os
end

theorem Call.run_extends (c : Call) : Keeps extendsFrame c.run := by
  cases c with
  | vars s => exact tcheckVars_extends s
  | stmt s => exact (tcheckStatement_keeps s).extends
  | expr e d => exact (tcheckExpr_keeps e d).stmt.extends
  | typeExpr t d => exact (tcheckTypeExpr_keeps t d).stmt.extends

end Extends

/-- The state `calls` leave when made one after another from `q`, each from the state the one
before left, returned or failed. -/
def Call.runAll : List Call → Checker → Checker
  | [], q => q
  | c :: cs, q => Call.runAll cs (c.run q).2

/-- Over any sequence of calls of the checker's entry points, on any nodes, each returning or
failing: no name in scope is dropped or retyped, the function and the structs stay, the
jump-target stack is back where it was, and no `TypeChecked` mark is cleared. -/
theorem runAll_extends (calls : List Call) (q : Checker) : Extends q (Call.runAll calls q) := by
  induction calls generalizing q with
  | nil => exact extendsFrame.refl q
  | cons c cs ih => exact extendsFrame.trans (c.run_extends q) (ih _)

end Puffs
