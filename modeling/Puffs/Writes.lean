import Puffs.Frame
/-!
# What an expression check writes

Checking an expression, an argument list or a type expression writes annotations only at the
nodes below it, never clears `TypeChecked`, and leaves the checker's own fields alone, whether
it returns or fails. One lemma per method, by structural recursion along the calls the method
makes.
-/
namespace Puffs

open CheckM

theorem keeps_annotate {a : Addr} {A : List Addr} (r : Except Err (MType × Option Int)) :
    Keeps (annFrame (a :: A)) (annotate a r) := by
  rcases r with _ | ⟨t, c⟩
  · exact Keeps.fail _
  · exact Keeps.bind (Keeps.whenSome _ fun _ => keeps_setConstValue (List.mem_cons_self a A) _)
      fun _ => keeps_setMType (List.mem_cons_self a A) t

mutual
theorem tcheckExpr_keeps (n : Expr) (d : Nat) : Keeps (annFrame n.addrs) (tcheckExpr n d) := by
  unfold tcheckExpr
  refine Keeps.bind (Keeps.require _ _) fun _ =>
    Keeps.bind ?_ fun _ => keeps_setTypeChecked n.addr_mem_addrs
  match n with
  | .other o => exact tcheckExprOther_keeps o _
  | .unaryOp u => exact tcheckExprUnaryOp_keeps u _
  | .binaryOp b => exact tcheckExprBinaryOp_keeps b _
  | .associativeOp (.mk _ _ _) => exact Keeps.fail _

theorem tcheckExprOther_keeps (n : ExprOther) (d : Nat) :
    Keeps (annFrame n.addrs) (tcheckExprOther n d) := by
  match n with
  | .leaf a id1 => exact Keeps.bind (Keeps.read _) fun _ => keeps_annotate _
  | .call a i s lhs args =>
    unfold tcheckExprOther
    refine Keeps.ite (Keeps.bind ((tcheckExpr_keeps lhs _).mono subset_cons_append_left)
      fun _ => keeps_setMType (List.mem_cons_self _ _) _) (Keeps.ite ?_ (Keeps.fail _))
    rcases lhs with ((_ | _ | _ | _ | ⟨la, foo, _⟩) | _ | _ | _) <;> try exact Keeps.fail _
    have hfoo : foo.addrs ⊆ a :: (la :: foo.addrs ++ Arg.addrsList args) := fun x h => by simp [h]
    have hla : la ∈ a :: (la :: foo.addrs ++ Arg.addrsList args) := by simp
    exact Keeps.bind ((tcheckExpr_keeps foo _).mono hfoo) fun _ =>
      Keeps.bind (keeps_setTypeChecked hla) fun _ => Keeps.bind (keeps_setMType hla _) fun _ =>
      Keeps.bind ((tcheckArgs_keeps args _).mono subset_cons_append_right) fun _ =>
      Keeps.bind (Keeps.read _) fun _ =>
        Keeps.setAnn (List.mem_cons_self _ _) (fun _ h => h) fun _ => rfl
  | .index .. | .slice .. => exact Keeps.fail _
  | .dot n => exact tcheckDot_keeps n d

theorem tcheckDot_keeps (n : ExprDot) (d : Nat) : Keeps (annFrame n.addrs) (tcheckDot n d) := by
  match n with
  | .mk a lhs id1 =>
    unfold tcheckDot
    exact Keeps.bind ((tcheckExpr_keeps lhs _).mono (List.subset_cons_self _ _)) fun _ =>
      Keeps.bind (Keeps.read _) fun _ => Keeps.bind (Keeps.read _) fun _ =>
      Keeps.bind (Keeps.mTypeOf _) fun _ => Keeps.bind (Keeps.ofExcept _) fun _ =>
      keeps_setMType (List.mem_cons_self _ _) _

theorem tcheckExprUnaryOp_keeps (n : ExprUnaryOp) (d : Nat) :
    Keeps (annFrame n.addrs) (tcheckExprUnaryOp n d) := by
  match n with
  | .mk a op rhs =>
    unfold tcheckExprUnaryOp
    exact Keeps.bind ((tcheckExpr_keeps rhs _).mono (List.subset_cons_self _ _)) fun _ =>
      Keeps.bind (Keeps.mTypeOf _) fun _ => Keeps.bind (Keeps.read _) fun _ => keeps_annotate _

theorem tcheckExprBinaryOp_keeps (n : ExprBinaryOp) (d : Nat) :
    Keeps (annFrame n.addrs) (tcheckExprBinaryOp n d) := by
  match n with
  | .as a lhs rhs =>
    unfold tcheckExprBinaryOp
    exact Keeps.bind ((tcheckExpr_keeps lhs _).mono subset_cons_append_left) fun _ =>
      Keeps.bind (Keeps.mTypeOf _) fun _ =>
      Keeps.bind ((tcheckTypeExpr_keeps rhs _).mono subset_cons_append_right) fun _ =>
      Keeps.bind (Keeps.ofExcept _) fun _ => keeps_setMType (List.mem_cons_self _ _) _
  | .mk a op lhs rhs =>
    unfold tcheckExprBinaryOp
    exact Keeps.bind ((tcheckExpr_keeps lhs _).mono subset_cons_append_left) fun _ =>
      Keeps.bind (Keeps.mTypeOf _) fun _ =>
      Keeps.bind ((tcheckExpr_keeps rhs _).mono subset_cons_append_right) fun _ =>
      Keeps.bind (Keeps.mTypeOf _) fun _ => Keeps.bind (Keeps.read _) fun _ =>
      Keeps.bind (Keeps.read _) fun _ => keeps_annotate _

theorem tcheckArg_keeps (n : Arg) (d : Nat) : Keeps (annFrame n.addrs) (tcheckArg n d) := by
  match n with
  | .mk a _ _ value =>
    unfold tcheckArg
    exact Keeps.bind ((tcheckExpr_keeps value _).mono (List.subset_cons_self _ _)) fun _ =>
      keeps_setTypeChecked (List.mem_cons_self _ _)

theorem tcheckArgs_keeps (args : List Arg) (d : Nat) :
    Keeps (annFrame (Arg.addrsList args)) (tcheckArgs args d) := by
  match args with
  | [] => exact Keeps.pure _
  | o :: os =>
    unfold tcheckArgs
    exact Keeps.bind ((tcheckArg_keeps o _).mono (List.subset_append_left _ _)) fun _ =>
      (tcheckArgs_keeps os _).mono (List.subset_append_right _ _)

theorem tcheckTypeExpr_keeps (n : TypeExpr) (d : Nat) :
    Keeps (annFrame n.addrs) (tcheckTypeExpr n d) := by
  unfold tcheckTypeExpr
  refine Keeps.bind (Keeps.require _ _) fun _ => ?_
  match n with
  | .named a _ _ min max =>
    have ha := List.mem_cons_self a (Expr.addrsOpt min ++ Expr.addrsOpt max)
    exact Keeps.ite (Keeps.fail _) (Keeps.ite
      (Keeps.bind ((tcheckBound_keeps min).mono subset_cons_append_left) fun _ =>
        Keeps.bind ((tcheckBound_keeps max).mono subset_cons_append_right) fun _ =>
        keeps_setTypeChecked ha)
      (Keeps.ite (keeps_setTypeChecked ha) (Keeps.fail _)))
  | .ptr a inner =>
    exact Keeps.bind ((tcheckTypeExpr_keeps inner _).mono (List.subset_cons_self _ _)) fun _ =>
      keeps_setTypeChecked (List.mem_cons_self _ _)
  | .array a aLen inner =>
    exact Keeps.bind ((tcheckExpr_keeps aLen _).mono subset_cons_append_left) fun _ =>
      Keeps.bind (Keeps.read _) fun _ => Keeps.bind (Keeps.require _ _) fun _ =>
      Keeps.bind ((tcheckTypeExpr_keeps inner _).mono subset_cons_append_right) fun _ =>
      keeps_setTypeChecked (List.mem_cons_self _ _)

theorem tcheckBound_keeps (b : Option Expr) :
    Keeps (annFrame (Expr.addrsOpt b)) (tcheckBound b) := by
  match b with
  | none => exact Keeps.pure _
  | some b =>
    unfold tcheckBound
    exact Keeps.bind (tcheckExpr_keeps b _) fun _ => Keeps.bind (Keeps.read _) fun _ =>
      Keeps.require _ _
end

end Puffs
