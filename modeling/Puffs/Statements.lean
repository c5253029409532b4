import Puffs.Infer
/-!
# What a statement check writes

A statement check changes the checker's own fields only to record the statement's position
and, inside a `while`, to push the loop for the jumps of its body and pop it again on every
exit. It writes the annotations of the nodes below the statement, and the `has_break` and
`has_continue` flags of loops on the stack, which lie above it. `TypeChecked` is never
cleared. The checks of a statement's parts other than its statements write no loop flags: they
keep `annFrame`. One lemma per method, along the calls it makes.
-/
namespace Puffs

open CheckM

/-- The fields of an annotation that a statement check writes only below the statement. -/
def Annot.core (x : Annot) : Bool × Option Int × Option MType × Option Addr :=
  (x.typeChecked, x.constValue, x.mType, x.jumpTarget)

/-- A statement check's frame: the names in scope and the jump-target stack as they were,
annotations other than the loop flags changed only at `A`, `TypeChecked` never cleared. -/
structure StmtFrame (A : List Addr) (q q' : Checker) : Prop where
  env : q'.env = q.env
  jumpTargets : q'.jumpTargets = q.jumpTargets
  outside : ∀ a ∉ A, (q'.ann a).core = (q.ann a).core
  checked : ∀ a, (q.ann a).typeChecked → (q'.ann a).typeChecked
  hasBreak : ∀ a, (q.ann a).hasBreak → (q'.ann a).hasBreak
  hasContinue : ∀ a, (q.ann a).hasContinue → (q'.ann a).hasContinue

def stmtFrame (A : List Addr) : Frame where
  rel := StmtFrame A
  refl _ := ⟨rfl, rfl, fun _ _ => rfl, fun _ => id, fun _ => id, fun _ => id⟩
  trans h₁ h₂ := ⟨h₂.env.trans h₁.env, h₂.jumpTargets.trans h₁.jumpTargets,
    fun a ha => (h₂.outside a ha).trans (h₁.outside a ha), fun a h => h₂.checked a (h₁.checked a h),
    fun a h => h₂.hasBreak a (h₁.hasBreak a h), fun a h => h₂.hasContinue a (h₁.hasContinue a h)⟩

section Frames

variable {A B : List Addr} {q q' : Checker}

theorem StmtFrame.mono (h : StmtFrame A q q') (hAB : A ⊆ B) : StmtFrame B q q' :=
  ⟨h.env, h.jumpTargets, fun a ha => h.outside a fun h' => ha (hAB h'), h.checked, h.hasBreak,
    h.hasContinue⟩

theorem Keeps.stmt_mono {m : CheckM α} (h : Keeps (stmtFrame A) m) (hAB : A ⊆ B) :
    Keeps (stmtFrame B) m :=
  fun q => (h q).mono hAB

theorem AnnFrame.hasBreak_eq (h : AnnFrame A q q') (a : Addr) :
    (q'.ann a).hasBreak = (q.ann a).hasBreak :=
  congrArg (·.2.1) (h.jumps a)

theorem AnnFrame.hasContinue_eq (h : AnnFrame A q q') (a : Addr) :
    (q'.ann a).hasContinue = (q.ann a).hasContinue :=
  congrArg (·.2.2) (h.jumps a)

theorem AnnFrame.stmt (h : AnnFrame A q q') : StmtFrame A q q' :=
  ⟨h.env, by rw [h.fields], fun a ha => by rw [h.outside a ha], h.checked,
    fun a hb => (h.hasBreak_eq a).symm ▸ hb, fun a hc => (h.hasContinue_eq a).symm ▸ hc⟩

theorem Keeps.stmt {m : CheckM α} (h : Keeps (annFrame A) m) : Keeps (stmtFrame A) m :=
  fun q => (h q).stmt

theorem keeps_setErrPos (p : Pos) : Keeps (stmtFrame A) (setErrPos p) :=
  fun _ => ⟨rfl, rfl, fun _ _ => rfl, fun _ => id, fun _ => id, fun _ => id⟩

/-- A write that keeps `TypeChecked` and the loop flags set, at `A` or to the loop flags
only. -/
theorem Keeps.stmt_setAnn {a : Addr} {f : Annot → Annot}
    (hf : ∀ x : Annot, (x.typeChecked → (f x).typeChecked) ∧ (x.hasBreak → (f x).hasBreak) ∧
      (x.hasContinue → (f x).hasContinue))
    (ha : a ∈ A ∨ ∀ x : Annot, (f x).core = x.core) :
    Keeps (stmtFrame A) (update (·.setAnn a f)) := by
  intro q
  refine ⟨rfl, rfl, fun b hb => ?_, fun b h => ?_, fun b h => ?_, fun b h => ?_⟩ <;>
    simp only [update_apply, Checker.setAnn_ann] <;> split <;> try subst_vars
  · exact ha.resolve_left hb _
  · rfl
  · exact (hf _).1 h
  · exact h
  · exact (hf _).2.1 h
  · exact h
  · exact (hf _).2.2 h
  · exact h

theorem keeps_stmt_setTypeChecked {a : Addr} (ha : a ∈ A) :
    Keeps (stmtFrame A) (setTypeChecked a) :=
  (keeps_setTypeChecked ha).stmt

/-- Push a loop, run `m`, pop it on every exit. -/
theorem Keeps.pushed {w : While} {m : CheckM Unit} (hm : Keeps (stmtFrame A) m) :
    Keeps (stmtFrame A) (pushJumpTarget w >>= fun _ => deferring m popJumpTarget) := by
  intro q
  have h := hm { q with jumpTargets := q.jumpTargets ++ [w] }
  simp only [pushJumpTarget, update_bind, deferring_apply, popJumpTarget]
  exact ⟨h.env, by simp [h.jumpTargets], h.outside, h.checked, h.hasBreak, h.hasContinue⟩

end Frames

theorem tcheckJump_keeps (n : Jump) : Keeps (stmtFrame [n.addr]) (tcheckJump n) := by
  unfold tcheckJump
  refine Keeps.bind (Keeps.read _) fun ts => ?_
  split
  · exact Keeps.fail _
  · exact Keeps.bind (Keeps.ite
      (Keeps.stmt_setAnn (fun _ => ⟨id, fun _ => rfl, id⟩) (.inr fun _ => rfl))
      (Keeps.stmt_setAnn (fun _ => ⟨id, id, fun _ => rfl⟩) (.inr fun _ => rfl))) fun _ =>
      Keeps.stmt_setAnn (fun _ => ⟨id, id, id⟩) (.inl (List.mem_singleton_self _))

theorem tcheckAssertArgs_keeps (args : List Arg) :
    Keeps (annFrame (Arg.addrsList args)) (tcheckAssert.tcheckAssertArgs args) := by
  match args with
  | [] => exact Keeps.pure _
  | .mk a p name value :: os =>
    unfold tcheckAssert.tcheckAssertArgs
    have hs : value.addrs ⊆ Arg.addrsList (.mk a p name value :: os) := fun x h => by
      simp [Arg.addrsList, Arg.addrs, h]
    exact Keeps.bind ((tcheckExpr_keeps value 0).mono hs) fun _ =>
      Keeps.bind (keeps_setTypeChecked (by simp [Arg.addrsList, Arg.addrs, Arg.addr])) fun _ =>
      (tcheckAssertArgs_keeps os).mono (List.subset_append_right _ _)

theorem tcheckAssert_keeps (n : Assert) :
    Keeps (annFrame (n.condition.addrs ++ Arg.addrsList n.args)) (tcheckAssert n) :=
  Keeps.bind ((tcheckExpr_keeps _ 0).mono (List.subset_append_left _ _)) fun _ =>
    Keeps.bind (Keeps.mTypeOf _) fun _ => Keeps.bind (Keeps.require _ _) fun _ =>
    (tcheckAssertArgs_keeps n.args).mono (List.subset_append_right _ _)

theorem tcheckWhileAsserts_keeps (asserts : List Assert) :
    Keeps (annFrame (Assert.addrsList asserts)) (tcheckWhileHead.tcheckWhileAsserts asserts) := by
  match asserts with
  | [] => exact Keeps.pure _
  | o :: os =>
    unfold tcheckWhileHead.tcheckWhileAsserts
    have hs : o.condition.addrs ++ Arg.addrsList o.args ⊆ Assert.addrsList (o :: os) :=
      fun x h => by
        simp only [Assert.addrsList, Assert.addrs, List.mem_append, List.mem_cons] at h ⊢; tauto
    exact Keeps.bind ((tcheckAssert_keeps o).mono hs) fun _ =>
      Keeps.bind (keeps_setTypeChecked (by simp [Assert.addrsList, Assert.addrs])) fun _ =>
      (tcheckWhileAsserts_keeps os).mono (List.subset_append_right _ _)

theorem tcheckWhileHead_keeps (n : While) :
    Keeps (annFrame (n.condition.addrs ++ Assert.addrsList n.asserts)) (tcheckWhileHead n) :=
  Keeps.bind ((tcheckExpr_keeps _ 0).mono (List.subset_append_left _ _)) fun _ =>
    Keeps.bind (Keeps.mTypeOf _) fun _ => Keeps.bind (Keeps.require _ _) fun _ =>
    (tcheckWhileAsserts_keeps n.asserts).mono (List.subset_append_right _ _)

theorem tcheckIfCondition_keeps (n : If) :
    Keeps (annFrame n.condition.addrs) (tcheckIfCondition n) :=
  Keeps.bind (tcheckExpr_keeps _ 0) fun _ =>
    Keeps.bind (Keeps.mTypeOf _) fun _ => Keeps.require _ _

theorem tcheckAssign_keeps (n : Assign) :
    Keeps (annFrame (n.lhs.addrs ++ n.rhs.addrs)) (tcheckAssign n) :=
  Keeps.bind ((tcheckExpr_keeps _ 0).mono (List.subset_append_left _ _)) fun _ =>
    Keeps.bind ((tcheckExpr_keeps _ 0).mono (List.subset_append_right _ _)) fun _ =>
    Keeps.bind (Keeps.mTypeOf _) fun _ => Keeps.bind (Keeps.mTypeOf _) fun _ => Keeps.ofExcept _

theorem tcheckVarStatement_keeps (n : Var) :
    Keeps (annFrame (Expr.addrsOpt n.value)) (tcheckVarStatement n) := by
  refine Keeps.bind (Keeps.read _) fun _ => Keeps.bind (Keeps.require _ _) fun _ => ?_
  rcases n.value with _ | v
  · exact Keeps.pure _
  · exact tcheckExpr_keeps v 0

theorem tcheckReturn_keeps (n : Return) :
    Keeps (annFrame (Expr.addrsOpt n.value)) (tcheckReturn n) := by
  unfold tcheckReturn
  rcases n.value with _ | v
  · exact Keeps.pure _
  · exact tcheckExpr_keeps v 0

theorem markIfChain_keeps (n : If) : Keeps (annFrame n.addrs) (markIfChain n) := by
  match n with
  | .mk a p cond elseIf t f =>
    unfold markIfChain
    refine Keeps.bind (keeps_setTypeChecked (List.mem_cons_self _ _)) fun _ => ?_
    match elseIf with
    | none => exact Keeps.pure _
    | some n => exact (markIfChain_keeps n).mono fun x h => by simp [If.addrs, If.addrsOpt, h]

mutual
theorem tcheckStatement_keeps (s : Stmt) : Keeps (stmtFrame s.addrs) (tcheckStatement s) := by
  unfold tcheckStatement
  refine Keeps.bind (keeps_setErrPos _) fun _ => ?_
  match s with
  | .kAssert n =>
    exact Keeps.bind ((tcheckAssert_keeps n).stmt.stmt_mono (List.subset_cons_self _ _)) fun _ =>
      keeps_stmt_setTypeChecked (List.mem_cons_self _ _)
  | .kAssign n =>
    exact Keeps.bind ((tcheckAssign_keeps n).stmt.stmt_mono (List.subset_cons_self _ _)) fun _ =>
      keeps_stmt_setTypeChecked (List.mem_cons_self _ _)
  | .kIf n => exact Keeps.bind (tcheckIfChain_keeps n) fun _ => (markIfChain_keeps n).stmt
  | .kJump n =>
    exact Keeps.bind (tcheckJump_keeps n) fun _ => keeps_stmt_setTypeChecked (List.mem_cons_self _ _)
  | .kReturn n =>
    exact Keeps.bind ((tcheckReturn_keeps n).stmt.stmt_mono (List.subset_cons_self _ _)) fun _ =>
      keeps_stmt_setTypeChecked (List.mem_cons_self _ _)
  | .kVar n =>
    exact Keeps.bind ((tcheckVarStatement_keeps n).stmt.stmt_mono subset_cons_append_right) fun _ =>
      keeps_stmt_setTypeChecked (List.mem_cons_self _ _)
  | .kWhile (.mk a p l cond asserts body) =>
    exact Keeps.bind ((tcheckWhileHead_keeps _).stmt.stmt_mono fun x h => by
        simp only [While.condition, While.asserts, List.mem_append] at h
        simp only [Stmt.addrs, While.addrs, List.mem_cons, List.mem_append]; tauto) fun _ =>
      Keeps.pushed (Keeps.bind ((tcheckStatements_keeps body).stmt_mono fun x h => by
        simp [Stmt.addrs, While.addrs, h]) fun _ => keeps_stmt_setTypeChecked (List.mem_cons_self _ _))

theorem tcheckStatements_keeps (body : List Stmt) :
    Keeps (stmtFrame (Stmt.addrsList body)) (tcheckStatements body) := by
  match body with
  | [] => exact Keeps.pure _
  | o :: os =>
    unfold tcheckStatements
    exact Keeps.bind ((tcheckStatement_keeps o).stmt_mono (List.subset_append_left _ _)) fun _ =>
      (tcheckStatements_keeps os).stmt_mono (List.subset_append_right _ _)

theorem tcheckIfChain_keeps (n : If) : Keeps (stmtFrame n.addrs) (tcheckIfChain n) := by
  match n with
  | .mk a p cond elseIf t f =>
    unfold tcheckIfChain
    refine Keeps.bind ((tcheckIfCondition_keeps _).stmt.stmt_mono subset_cons_append_left) fun _ =>
      Keeps.bind ((tcheckStatements_keeps t).stmt_mono fun x h => by simp [If.addrs, h]) fun _ =>
      Keeps.bind ((tcheckStatements_keeps f).stmt_mono fun x h => by simp [If.addrs, h]) fun _ => ?_
    match elseIf with
    | none => exact Keeps.pure _
    | some n => exact (tcheckIfChain_keeps n).stmt_mono fun x h => by simp [If.addrs, If.addrsOpt, h]
end

/-- `tcheckStatement` on a statement with no statements inside: record the position, run `m`,
which writes only at `A`, below the statement, and mark the statement. -/
structure LeafCheck (s : Stmt) (A : List Addr) (m : CheckM Unit) : Prop where
  keeps : Keeps (annFrame A) m
  apply : ∀ q, tcheckStatement s q = (m >>= fun _ => setTypeChecked s.addr) (setErrPos s.pos q).2
  below : s.addrs.Nodup → s.addr ∉ A

theorem leafCheck_kAssert (n : Assert) :
    LeafCheck (.kAssert n) (n.condition.addrs ++ Arg.addrsList n.args) (tcheckAssert n) :=
  ⟨tcheckAssert_keeps n, fun _ => rfl, fun hn => (List.nodup_cons.mp hn).1⟩

theorem leafCheck_kAssign (n : Assign) :
    LeafCheck (.kAssign n) (n.lhs.addrs ++ n.rhs.addrs) (tcheckAssign n) :=
  ⟨tcheckAssign_keeps n, fun _ => rfl, fun hn => (List.nodup_cons.mp hn).1⟩

theorem leafCheck_kReturn (n : Return) :
    LeafCheck (.kReturn n) (Expr.addrsOpt n.value) (tcheckReturn n) :=
  ⟨tcheckReturn_keeps n, fun _ => rfl, fun hn => (List.nodup_cons.mp hn).1⟩

theorem leafCheck_kVar (n : Var) :
    LeafCheck (.kVar n) (Expr.addrsOpt n.value) (tcheckVarStatement n) :=
  ⟨tcheckVarStatement_keeps n, fun _ => rfl,
    fun hn h => (List.nodup_cons.mp hn).1 (List.mem_append_right _ h)⟩

end Puffs
