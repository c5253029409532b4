import Puffs.Reach
/-!
# What a check reads

The checks read the names in scope, the jump-target stack and the annotations of the nodes
they are given, and nothing else. Two states alike there (the same names in scope and stack,
and at each of the nodes the same `TypeChecked` mark, constant, type and jump target) give
the same result, returned or failed, and leave states alike there again
(`tcheckStatement_reads_own`). The recorded error position, the loop flags and the
annotations of every other node may differ.

`ReadsOnly A m` says this of `m` for every set of nodes holding `A`, so that it composes along
the `do` blocks of the methods with no frame condition: a write keeps two alike states alike
wherever it writes.
-/
namespace Puffs

open CheckM

/-- Two states alike in what the checks read at the nodes `B`. -/
structure Alike (B : List Addr) (q₁ q₂ : Checker) : Prop where
  env : q₁.env = q₂.env
  jumpTargets : q₁.jumpTargets = q₂.jumpTargets
  core : ∀ a ∈ B, (q₁.ann a).core = (q₂.ann a).core

/-- `m` reads of the annotations only those at `A`: from two states alike at any set of nodes
holding `A`, it gives the same result and leaves states alike there. -/
def ReadsOnly (A : List Addr) (m : CheckM α) : Prop :=
  ∀ ⦃B⦄, A ⊆ B → ∀ ⦃q₁ q₂⦄, Alike B q₁ q₂ → (m q₁).1 = (m q₂).1 ∧ Alike B (m q₁).2 (m q₂).2

namespace ReadsOnly

variable {A A' : List Addr}

theorem mono {m : CheckM α} (h : ReadsOnly A m) (hA : A ⊆ A') : ReadsOnly A' m :=
  fun _ hB => h (hA.trans hB)

theorem pure (a : α) : ReadsOnly A (Pure.pure a : CheckM α) := fun _ _ _ _ h => ⟨rfl, h⟩

theorem fail (e : Err) : ReadsOnly A (CheckM.fail e : CheckM α) := fun _ _ _ _ h => ⟨rfl, h⟩

theorem ofExcept (r : Except Err α) : ReadsOnly A (CheckM.ofExcept r) := fun _ _ _ _ h => ⟨rfl, h⟩

theorem require (ok : Bool) (e : Err) : ReadsOnly A (CheckM.require ok e) := by
  unfold CheckM.require
  split
  exacts [pure _, fail _]

theorem read {g : Checker → β} (hg : ∀ ⦃B⦄, A ⊆ B → ∀ ⦃q₁ q₂⦄, Alike B q₁ q₂ → g q₁ = g q₂) :
    ReadsOnly A (CheckM.read g) :=
  fun _ hB _ _ h => ⟨congrArg Except.ok (hg hB h), h⟩

/-- A read of the annotation at `a ∈ A`, through what its core holds. -/
theorem readAnn {a : Addr} (ha : a ∈ A) {g : Annot → β}
    (hg : ∀ x y : Annot, x.core = y.core → g x = g y) :
    ReadsOnly A (CheckM.read fun q => g (q.ann a)) :=
  read fun _ hB _ _ h => hg _ _ (h.core a (hB ha))

theorem constValueOf {x : Expr} (hx : x.addr ∈ A) : ReadsOnly A (Puffs.constValueOf x) :=
  readAnn hx fun _ _ h => congrArg (·.2.1) h

theorem mTypeOf {x : Expr} (hx : x.addr ∈ A) : ReadsOnly A (Puffs.mTypeOf x) := by
  intro B hB q₁ q₂ h
  have e : (q₁.ann x.addr).mType = (q₂.ann x.addr).mType := congrArg (·.2.2.1) (h.core _ (hB hx))
  rcases hm : (q₂.ann x.addr).mType with _ | t <;>
    simp only [Puffs.mTypeOf, e, hm, true_and] <;> exact h

theorem update {g : Checker → Checker} (hg : ∀ ⦃B q₁ q₂⦄, Alike B q₁ q₂ → Alike B (g q₁) (g q₂)) :
    ReadsOnly A (CheckM.update g) :=
  fun _ _ _ _ h => ⟨rfl, hg h⟩

/-- A write at any node whose core comes from the core before. -/
theorem setAnn (a : Addr) {f : Annot → Annot}
    (hf : ∀ x y : Annot, x.core = y.core → (f x).core = (f y).core) :
    ReadsOnly A (CheckM.update (·.setAnn a f)) := by
  refine update fun B q₁ q₂ h => ⟨h.env, h.jumpTargets, fun b hb => ?_⟩
  simp only [Checker.setAnn_ann]
  split
  · subst_vars; exact hf _ _ (h.core _ hb)
  · exact h.core b hb

theorem setTypeChecked (a : Addr) : ReadsOnly A (Puffs.setTypeChecked a) :=
  setAnn a fun _ _ h => by simp_all [Annot.core]

theorem setMType (a : Addr) (t : MType) : ReadsOnly A (Puffs.setMType a t) :=
  setAnn a fun _ _ h => by simp_all [Annot.core]

theorem setConstValue (a : Addr) (v : Int) : ReadsOnly A (Puffs.setConstValue a v) :=
  setAnn a fun _ _ h => by simp_all [Annot.core]

theorem bind {m : CheckM α} {f : α → CheckM β} (hm : ReadsOnly A m) (hf : ∀ a, ReadsOnly A (f a)) :
    ReadsOnly A (m >>= f) := by
  intro B hB q₁ q₂ h
  obtain ⟨e, h'⟩ := hm hB h
  rw [bind_apply, bind_apply]
  rcases h₁ : m q₁ with ⟨_ | a, q₁'⟩ <;> rcases h₂ : m q₂ with ⟨_ | b, q₂'⟩ <;>
    rw [h₁, h₂] at e h' <;> cases e
  · exact ⟨rfl, h'⟩
  · exact hf a hB h'

theorem ite {c : Prop} {_ : Decidable c} {a b : CheckM α} (ha : ReadsOnly A a)
    (hb : ReadsOnly A b) : ReadsOnly A (if c then a else b) := by
  split <;> assumption

theorem whenSome (x : Option α) {f : α → CheckM Unit} (hf : ∀ a, ReadsOnly A (f a)) :
    ReadsOnly A (CheckM.whenSome x f) := by
  cases x
  exacts [pure _, hf _]

theorem annotate (a : Addr) (r : Except Err (MType × Option Int)) :
    ReadsOnly A (Puffs.annotate a r) := by
  rcases r with _ | ⟨t, c⟩
  · exact fail _
  · exact bind (whenSome _ fun _ => setConstValue _ _) fun _ => setMType _ _

theorem readLocalVars : ReadsOnly A (CheckM.read (·.localVars)) :=
  read fun _ _ _ _ h => congrArg Env.localVars h.env

theorem readFunc : ReadsOnly A (CheckM.read (·.func)) :=
  read fun _ _ _ _ h => congrArg Env.func h.env

theorem readStructs : ReadsOnly A (CheckM.read (·.structs)) :=
  read fun _ _ _ _ h => congrArg Env.structs h.env

theorem setErrPos (p : Pos) : ReadsOnly A (Puffs.setErrPos p) :=
  update fun _ _ _ h => ⟨h.env, h.jumpTargets, h.core⟩

/-- Push a loop, run `m`, pop it on every exit. -/
theorem pushed {w : While} {m : CheckM Unit} (hm : ReadsOnly A m) :
    ReadsOnly A (pushJumpTarget w >>= fun _ => CheckM.deferring m popJumpTarget) :=
  bind (update fun _ _ _ h => ⟨h.env, congrArg (· ++ [w]) h.jumpTargets, h.core⟩)
    fun _ _ hB _ _ h =>
      let ⟨e, h'⟩ := hm hB h
      ⟨e, h'.env, congrArg List.dropLast h'.jumpTargets, h'.core⟩

end ReadsOnly

mutual
theorem tcheckExpr_reads (n : Expr) (d : Nat) : ReadsOnly n.addrs (tcheckExpr n d) := by
  unfold tcheckExpr
  refine .bind (.require _ _) fun _ => .bind ?_ fun _ => .setTypeChecked _
  match n with
  | .other o => exact tcheckExprOther_reads o _
  | .unaryOp u => exact tcheckExprUnaryOp_reads u _
  | .binaryOp b => exact tcheckExprBinaryOp_reads b _
  | .associativeOp (.mk _ _ _) => exact .fail _

theorem tcheckExprOther_reads (n : ExprOther) (d : Nat) :
    ReadsOnly n.addrs (tcheckExprOther n d) := by
  match n with
  | .leaf a id1 => exact .bind .readLocalVars fun _ => .annotate _ _
  | .call a i s lhs args =>
    unfold tcheckExprOther
    refine .ite (.bind ((tcheckExpr_reads lhs _).mono subset_cons_append_left) fun _ =>
      .setMType _ _) (.ite ?_ (.fail _))
    rcases lhs with ((_ | _ | _ | _ | ⟨la, foo, _⟩) | _ | _ | _) <;> try exact .fail _
    have hfoo : foo.addrs ⊆ a :: (la :: foo.addrs ++ Arg.addrsList args) := fun x h => by simp [h]
    exact .bind ((tcheckExpr_reads foo _).mono hfoo) fun _ => .bind (.setTypeChecked _) fun _ =>
      .bind (.setMType _ _) fun _ =>
      .bind ((tcheckArgs_reads args _).mono subset_cons_append_right) fun _ =>
      .bind (.readAnn (hfoo foo.addr_mem_addrs) fun _ _ h => congrArg (·.2.2.1) h) fun _ =>
      .setAnn _ fun _ _ h => by simp_all [Annot.core]
  | .index .. | .slice .. => exact .fail _
  | .dot n => exact tcheckDot_reads n d

theorem tcheckDot_reads (n : ExprDot) (d : Nat) : ReadsOnly n.addrs (tcheckDot n d) := by
  match n with
  | .mk a lhs id1 =>
    unfold tcheckDot
    exact .bind ((tcheckExpr_reads lhs _).mono (List.subset_cons_self _ _)) fun _ =>
      .bind .readFunc fun _ => .bind .readStructs fun _ =>
      .bind (.mTypeOf (List.mem_cons_of_mem _ lhs.addr_mem_addrs)) fun _ =>
      .bind (.ofExcept _) fun _ => .setMType _ _

theorem tcheckExprUnaryOp_reads (n : ExprUnaryOp) (d : Nat) :
    ReadsOnly n.addrs (tcheckExprUnaryOp n d) := by
  match n with
  | .mk a op rhs =>
    unfold tcheckExprUnaryOp
    have hr := List.mem_cons_of_mem a rhs.addr_mem_addrs
    exact .bind ((tcheckExpr_reads rhs _).mono (List.subset_cons_self _ _)) fun _ =>
      .bind (.mTypeOf hr) fun _ => .bind (.constValueOf hr) fun _ => .annotate _ _

theorem tcheckExprBinaryOp_reads (n : ExprBinaryOp) (d : Nat) :
    ReadsOnly n.addrs (tcheckExprBinaryOp n d) := by
  match n with
  | .as a lhs rhs =>
    unfold tcheckExprBinaryOp
    exact .bind ((tcheckExpr_reads lhs _).mono subset_cons_append_left) fun _ =>
      .bind (.mTypeOf (subset_cons_append_left lhs.addr_mem_addrs)) fun _ =>
      .bind ((tcheckTypeExpr_reads rhs _).mono subset_cons_append_right) fun _ =>
      .bind (.ofExcept _) fun _ => .setMType _ _
  | .mk a op lhs rhs =>
    unfold tcheckExprBinaryOp
    have hl := subset_cons_append_left (a := a) (B := rhs.addrs) lhs.addr_mem_addrs
    have hr := subset_cons_append_right (a := a) (A := lhs.addrs) rhs.addr_mem_addrs
    exact .bind ((tcheckExpr_reads lhs _).mono subset_cons_append_left) fun _ =>
      .bind (.mTypeOf hl) fun _ =>
      .bind ((tcheckExpr_reads rhs _).mono subset_cons_append_right) fun _ =>
      .bind (.mTypeOf hr) fun _ => .bind (.constValueOf hl) fun _ =>
      .bind (.constValueOf hr) fun _ => .annotate _ _

theorem tcheckArg_reads (n : Arg) (d : Nat) : ReadsOnly n.addrs (tcheckArg n d) := by
  match n with
  | .mk a _ _ value =>
    unfold tcheckArg
    exact .bind ((tcheckExpr_reads value _).mono (List.subset_cons_self _ _)) fun _ =>
      .setTypeChecked _

theorem tcheckArgs_reads (args : List Arg) (d : Nat) :
    ReadsOnly (Arg.addrsList args) (tcheckArgs args d) := by
  match args with
  | [] => exact .pure _
  | o :: os =>
    unfold tcheckArgs
    exact .bind ((tcheckArg_reads o _).mono (List.subset_append_left _ _)) fun _ =>
      (tcheckArgs_reads os _).mono (List.subset_append_right _ _)

theorem tcheckTypeExpr_reads (n : TypeExpr) (d : Nat) :
    ReadsOnly n.addrs (tcheckTypeExpr n d) := by
  unfold tcheckTypeExpr
  refine .bind (.require _ _) fun _ => ?_
  match n with
  | .named a _ _ min max =>
    exact .ite (.fail _) (.ite
      (.bind ((tcheckBound_reads min).mono subset_cons_append_left) fun _ =>
        .bind ((tcheckBound_reads max).mono subset_cons_append_right) fun _ => .setTypeChecked _)
      (.ite (.setTypeChecked _) (.fail _)))
  | .ptr a inner =>
    exact .bind ((tcheckTypeExpr_reads inner _).mono (List.subset_cons_self _ _)) fun _ =>
      .setTypeChecked _
  | .array a aLen inner =>
    exact .bind ((tcheckExpr_reads aLen _).mono subset_cons_append_left) fun _ =>
      .bind (.constValueOf (subset_cons_append_left aLen.addr_mem_addrs)) fun _ =>
      .bind (.require _ _) fun _ =>
      .bind ((tcheckTypeExpr_reads inner _).mono subset_cons_append_right) fun _ =>
      .setTypeChecked _

theorem tcheckBound_reads (b : Option Expr) : ReadsOnly (Expr.addrsOpt b) (tcheckBound b) := by
  match b with
  | none => exact .pure _
  | some b =>
    unfold tcheckBound
    exact .bind (tcheckExpr_reads b _) fun _ =>
      .bind (.constValueOf b.addr_mem_addrs) fun _ => .require _ _
end

theorem tcheckJump_reads (n : Jump) : ReadsOnly [n.addr] (tcheckJump n) := by
  unfold tcheckJump
  refine .bind (.read fun _ _ _ _ h => h.jumpTargets) fun ts => ?_
  split
  · exact .fail _
  · exact .bind (.ite (.setAnn _ fun _ _ h => h) (.setAnn _ fun _ _ h => h)) fun _ =>
      .setAnn _ fun _ _ h => by simp_all [Annot.core]

theorem tcheckAssertArgs_reads (args : List Arg) :
    ReadsOnly (Arg.addrsList args) (tcheckAssert.tcheckAssertArgs args) := by
  match args with
  | [] => exact .pure _
  | .mk a p name value :: os =>
    unfold tcheckAssert.tcheckAssertArgs
    have hs : value.addrs ⊆ Arg.addrsList (.mk a p name value :: os) := fun x h => by
      simp [Arg.addrsList, Arg.addrs, h]
    exact .bind ((tcheckExpr_reads value 0).mono hs) fun _ => .bind (.setTypeChecked _) fun _ =>
      (tcheckAssertArgs_reads os).mono (List.subset_append_right _ _)

theorem tcheckAssert_reads (n : Assert) :
    ReadsOnly (n.condition.addrs ++ Arg.addrsList n.args) (tcheckAssert n) :=
  .bind ((tcheckExpr_reads _ 0).mono (List.subset_append_left _ _)) fun _ =>
    .bind (.mTypeOf (List.mem_append_left _ n.condition.addr_mem_addrs)) fun _ =>
    .bind (.require _ _) fun _ =>
    (tcheckAssertArgs_reads n.args).mono (List.subset_append_right _ _)

theorem tcheckWhileAsserts_reads (asserts : List Assert) :
    ReadsOnly (Assert.addrsList asserts) (tcheckWhileHead.tcheckWhileAsserts asserts) := by
  match asserts with
  | [] => exact .pure _
  | o :: os =>
    unfold tcheckWhileHead.tcheckWhileAsserts
    have hs : o.condition.addrs ++ Arg.addrsList o.args ⊆ Assert.addrsList (o :: os) :=
      fun x h => by
        simp only [Assert.addrsList, Assert.addrs, List.mem_append, List.mem_cons] at h ⊢; tauto
    exact .bind ((tcheckAssert_reads o).mono hs) fun _ => .bind (.setTypeChecked _) fun _ =>
      (tcheckWhileAsserts_reads os).mono (List.subset_append_right _ _)

theorem tcheckWhileHead_reads (n : While) :
    ReadsOnly (n.condition.addrs ++ Assert.addrsList n.asserts) (tcheckWhileHead n) :=
  .bind ((tcheckExpr_reads _ 0).mono (List.subset_append_left _ _)) fun _ =>
    .bind (.mTypeOf (List.mem_append_left _ n.condition.addr_mem_addrs)) fun _ =>
    .bind (.require _ _) fun _ =>
    (tcheckWhileAsserts_reads n.asserts).mono (List.subset_append_right _ _)

theorem tcheckIfCondition_reads (n : If) : ReadsOnly n.condition.addrs (tcheckIfCondition n) :=
  .bind (tcheckExpr_reads _ 0) fun _ =>
    .bind (.mTypeOf n.condition.addr_mem_addrs) fun _ => .require _ _

theorem tcheckAssign_reads (n : Assign) :
    ReadsOnly (n.lhs.addrs ++ n.rhs.addrs) (tcheckAssign n) :=
  .bind ((tcheckExpr_reads _ 0).mono (List.subset_append_left _ _)) fun _ =>
    .bind ((tcheckExpr_reads _ 0).mono (List.subset_append_right _ _)) fun _ =>
    .bind (.mTypeOf (List.mem_append_left _ n.lhs.addr_mem_addrs)) fun _ =>
    .bind (.mTypeOf (List.mem_append_right _ n.rhs.addr_mem_addrs)) fun _ => .ofExcept _

theorem tcheckVarStatement_reads (n : Var) :
    ReadsOnly (n.xType.addrs ++ Expr.addrsOpt n.value) (tcheckVarStatement n) := by
  refine .bind (.readAnn (List.mem_append_left _ n.xType.addr_mem_addrs)
    fun _ _ h => congrArg (·.1) h) fun _ => .bind (.require _ _) fun _ => ?_
  rcases n.value with _ | v
  · exact .pure _
  · exact (tcheckExpr_reads v 0).mono (List.subset_append_right _ _)

theorem tcheckReturn_reads (n : Return) : ReadsOnly (Expr.addrsOpt n.value) (tcheckReturn n) := by
  unfold tcheckReturn
  rcases n.value with _ | v
  · exact .pure _
  · exact tcheckExpr_reads v 0

theorem markIfChain_reads (n : If) : ReadsOnly n.addrs (markIfChain n) := by
  match n with
  | .mk a p cond elseIf t f =>
    unfold markIfChain
    refine .bind (.setTypeChecked _) fun _ => ?_
    match elseIf with
    | none => exact .pure _
    | some n => exact (markIfChain_reads n).mono fun x h => by simp [If.addrs, If.addrsOpt, h]

mutual
theorem tcheckStatement_reads (s : Stmt) : ReadsOnly s.addrs (tcheckStatement s) := by
  unfold tcheckStatement
  refine .bind (.setErrPos _) fun _ => ?_
  match s with
  | .kAssert n =>
    exact .bind ((tcheckAssert_reads n).mono (List.subset_cons_self _ _)) fun _ =>
      .setTypeChecked _
  | .kAssign n =>
    exact .bind ((tcheckAssign_reads n).mono (List.subset_cons_self _ _)) fun _ =>
      .setTypeChecked _
  | .kIf n => exact .bind (tcheckIfChain_reads n) fun _ => markIfChain_reads n
  | .kJump n =>
    exact .bind ((tcheckJump_reads n).mono (List.Subset.refl _)) fun _ => .setTypeChecked _
  | .kReturn n =>
    exact .bind ((tcheckReturn_reads n).mono (List.subset_cons_self _ _)) fun _ =>
      .setTypeChecked _
  | .kVar n =>
    exact .bind ((tcheckVarStatement_reads n).mono (List.subset_cons_self _ _)) fun _ =>
      .setTypeChecked _
  | .kWhile (.mk a p l cond asserts body) =>
    exact .bind ((tcheckWhileHead_reads _).mono fun x h => by
        simp only [While.condition, While.asserts, List.mem_append] at h
        simp only [Stmt.addrs, While.addrs, List.mem_cons, List.mem_append]; tauto) fun _ =>
      .pushed (.bind ((tcheckStatements_reads body).mono fun x h => by
        simp [Stmt.addrs, While.addrs, h]) fun _ => .setTypeChecked _)

theorem tcheckStatements_reads (body : List Stmt) :
    ReadsOnly (Stmt.addrsList body) (tcheckStatements body) := by
  match body with
  | [] => exact .pure _
  | o :: os =>
    unfold tcheckStatements
    exact .bind ((tcheckStatement_reads o).mono (List.subset_append_left _ _)) fun _ =>
      (tcheckStatements_reads os).mono (List.subset_append_right _ _)

theorem tcheckIfChain_reads (n : If) : ReadsOnly n.addrs (tcheckIfChain n) := by
  match n with
  | .mk a p cond elseIf t f =>
    unfold tcheckIfChain
    refine .bind ((tcheckIfCondition_reads _).mono subset_cons_append_left) fun _ =>
      .bind ((tcheckStatements_reads t).mono fun x h => by simp [If.addrs, h]) fun _ =>
      .bind ((tcheckStatements_reads f).mono fun x h => by simp [If.addrs, h]) fun _ => ?_
    match elseIf with
    | none => exact .pure _
    | some n => exact (tcheckIfChain_reads n).mono fun x h => by simp [If.addrs, If.addrsOpt, h]
end

/-- Checking an expression or a type expression is local both ways, whatever it returns and from
any state. It changes nothing but the annotations of its own nodes, and there it clears no
`TypeChecked` mark and leaves the jump fields alone. It reads only the names in scope, the loop
stack and its own nodes: from two states alike there it gives the same result, returned or
failed, and leaves states alike there. -/
theorem check_local :
    (∀ (e : Expr) (d : Nat), (∀ q, AnnFrame e.addrs q (tcheckExpr e d q).2) ∧
      ∀ ⦃q₁ q₂⦄, Alike e.addrs q₁ q₂ → (tcheckExpr e d q₁).1 = (tcheckExpr e d q₂).1 ∧
        Alike e.addrs (tcheckExpr e d q₁).2 (tcheckExpr e d q₂).2) ∧
      ∀ (t : TypeExpr) (d : Nat), (∀ q, AnnFrame t.addrs q (tcheckTypeExpr t d q).2) ∧
        ∀ ⦃q₁ q₂⦄, Alike t.addrs q₁ q₂ → (tcheckTypeExpr t d q₁).1 = (tcheckTypeExpr t d q₂).1 ∧
          Alike t.addrs (tcheckTypeExpr t d q₁).2 (tcheckTypeExpr t d q₂).2 :=
  ⟨fun e d => ⟨tcheckExpr_keeps e d, tcheckExpr_reads e d (List.Subset.refl _)⟩,
    fun t d => ⟨tcheckTypeExpr_keeps t d, tcheckTypeExpr_reads t d (List.Subset.refl _)⟩⟩

/-- `true` at node 2 is checked alike whether or not node 9 is marked. -/
theorem keyTrue_reads_own :
    (tcheckExpr (.other (.leaf 2 .keyTrue)) 0 .empty).1 =
      (tcheckExpr (.other (.leaf 2 .keyTrue)) 0
        (Checker.empty.setAnn 9 fun x => { x with typeChecked := true })).1 :=
  ((check_local.1 _ 0).2 ⟨rfl, rfl, by simp [Expr.addrs, ExprOther.addrs]⟩).1

/-- A statement check reads only the names in scope, the loop stack and the annotations of the
statement's own nodes, loop flags apart: from two states alike there it gives the same result,
returned or failed, and leaves states alike there, whatever the other nodes, the recorded error
position and the loop flags hold. -/
theorem tcheckStatement_reads_own (s : Stmt) {q₁ q₂ : Checker} (h : Alike s.addrs q₁ q₂) :
    (tcheckStatement s q₁).1 = (tcheckStatement s q₂).1 ∧
      Alike s.addrs (tcheckStatement s q₁).2 (tcheckStatement s q₂).2 :=
  tcheckStatement_reads s (List.Subset.refl _) h

theorem Stmt.addrs_subset_addrsList {s : Stmt} {body : List Stmt} (h : s ∈ body) :
    s.addrs ⊆ Stmt.addrsList body := by
  induction body with
  | nil => cases h
  | cons o os ih =>
    rcases List.mem_cons.mp h with rfl | h
    · exact List.subset_append_left _ _
    · exact (ih h).trans (List.subset_append_right _ _)

theorem forM_except_congr {l : List β} {f g : β → Except Err Unit} (h : ∀ b ∈ l, f b = g b) :
    l.forM f = l.forM g := by
  induction l with
  | nil => rfl
  | cons b l ih =>
    simp only [List.forM_cons', h b (List.mem_cons_self _ _),
      ih fun b hb => h b (List.mem_cons_of_mem _ hb)]

/-- The statements of a block are checked independently of one another: with distinct nodes,
the block's check reports what the checks of its statements report one after another, each
from the state the block's check began in, and so fails with the first of their errors. -/
theorem tcheckStatements_independent (body : List Stmt) (q : Checker)
    (hn : (Stmt.addrsList body).Nodup) :
    (tcheckStatements body q).1 = body.forM fun s => (tcheckStatement s q).1 := by
  induction body generalizing q with
  | nil => rfl
  | cons s body ih =>
    have hn' := List.nodup_append.mp hn
    rw [tcheckStatements_cons, bind_apply, List.forM_cons']
    rcases h : tcheckStatement s q with ⟨_ | _, q₁⟩
    · rfl
    have K := (tcheckStatement_keeps s).of_eq h
    refine (ih q₁ hn'.2.1).trans (forM_except_congr fun s' hs' =>
      (tcheckStatement_reads s' (List.Subset.refl _) ⟨K.env, K.jumpTargets, fun a ha => ?_⟩).1)
    exact K.outside a fun has => hn'.2.2 has (Stmt.addrs_subset_addrsList hs' ha)

/-- `break; return`. -/
def breakReturn : List Stmt := [.kJump ⟨1, ⟨"", 0⟩, .keyBreak, .zero⟩, .kReturn ⟨2, ⟨"", 1⟩, none⟩]

theorem breakReturn_independent :
    (Stmt.addrsList breakReturn).Nodup ∧
      (tcheckStatements breakReturn .empty).1 =
        breakReturn.forM fun s => (tcheckStatement s .empty).1 :=
  ⟨by decide, tcheckStatements_independent breakReturn .empty (by decide)⟩

/-- `Checker.empty` with an error position recorded, the loop of `whileTrueBreak` already
flagged `has_break`, and a type on a node outside the loop. -/
def emptyElsewhere : Checker :=
  { Checker.empty with
    errLine := 9
    ann := fun a => if a = 1 then { hasBreak := true } else if a = 7 then { mType := some .bool }
      else {} }

/-- `while true { break }` is checked alike from the two states. -/
theorem whileTrueBreak_reads_own :
    Alike (Stmt.kWhile whileTrueBreak).addrs .empty emptyElsewhere ∧
      (tcheckStatement (.kWhile whileTrueBreak) .empty).1 =
        (tcheckStatement (.kWhile whileTrueBreak) emptyElsewhere).1 :=
  have h : Alike (Stmt.kWhile whileTrueBreak).addrs .empty emptyElsewhere :=
    ⟨rfl, rfl, fun a ha => by
      change a ∈ [1, 2, 3] at ha
      simp only [List.mem_cons, List.mem_singleton, List.not_mem_nil, or_false] at ha
      rcases ha with rfl | rfl | rfl <;> rfl⟩
  ⟨h, (tcheckStatement_reads_own _ h).1⟩

end Puffs
