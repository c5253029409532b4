import Puffs.Reach
/-!
# Jump resolution

A `break` or `continue` resolves to the innermost loop around it with its label, or to the
innermost loop when it has none (`IsTarget`, the spec's words; `findJumpTarget` computes it
on the jump-target stack). Checked from an empty stack, the stack at a jump holds exactly the
loops around it, so the check records the target the syntax gives, fails with "no matching
while statement" when there is none, and sets a loop's `has_break` (`has_continue`) just when a
`break` (`continue`) resolves to it.
-/
namespace Puffs

open CheckM

/-- `w` is the target, among the loops `path` around a jump (outermost first), of a jump with
the label `label`: the innermost loop with that label, or the innermost loop when `label` is
`ID.zero`. -/
def IsTarget (path : List While) (label : ID) (w : While) : Prop :=
  ∃ pre post, path = pre ++ w :: post ∧
    (label ≠ .zero → w.label = label ∧ ∀ w' ∈ post, w'.label ≠ label) ∧ (label = .zero → post = [])

theorem findJumpTarget_eq_some {ts : List While} {label : ID} {w : While} :
    findJumpTarget ts label = some w ↔ IsTarget ts label w := by
  unfold findJumpTarget IsTarget
  by_cases hl : label = .zero
  · subst hl
    simp [List.getLast?_eq_some_iff]
  rw [if_pos (by simpa using hl), List.find?_eq_some]
  constructor
  · rintro ⟨hw, as, bs, h, has⟩
    rw [List.reverse_eq_append_iff] at h
    refine ⟨bs.reverse, as.reverse, by simp [h], fun _ => ⟨by simpa using hw, fun w' hw' => ?_⟩,
      fun h => absurd h hl⟩
    simpa using has w' (List.mem_reverse.mp hw')
  · rintro ⟨pre, post, h, h1, -⟩
    obtain ⟨hw, hpost⟩ := h1 hl
    exact ⟨by simpa using hw, post.reverse, pre.reverse, by simp [h],
      fun a ha => by simpa using hpost a (List.mem_reverse.mp ha)⟩

theorem findJumpTarget_eq_none {ts : List While} {label : ID} :
    findJumpTarget ts label = none ↔ ∀ w, ¬IsTarget ts label w := by
  simp only [← findJumpTarget_eq_some, Option.eq_none_iff_forall_not_mem, Option.mem_def]

/-- `has_break` when `brk`, else `has_continue`. -/
def Annot.loopFlag (brk : Bool) (x : Annot) : Bool := if brk then x.hasBreak else x.hasContinue

/-- A jump sets its target's `has_break` when it is a `break`, else its `has_continue`. -/
def Jump.isBreak (j : Jump) : Bool := j.keyword == .keyBreak

theorem AnnFrame.loopFlag_eq {A : List Addr} {q q' : Checker} (h : AnnFrame A q q') (brk : Bool)
    (a : Addr) : (q'.ann a).loopFlag brk = (q.ann a).loopFlag brk := by
  cases brk
  · exact h.hasContinue_eq a
  · exact h.hasBreak_eq a

/-- A jump that resolves records its target and sets one flag of it. -/
theorem tcheckJump_ok {n : Jump} {q q' : Checker} (h : tcheckJump n q = (.ok (), q')) :
    ∃ w, findJumpTarget q.jumpTargets n.label = some w ∧
      (q'.ann n.addr).jumpTarget = some w.addr ∧
      (∀ a ≠ n.addr, (q'.ann a).core = (q.ann a).core) ∧
      ∀ brk a, (q'.ann a).loopFlag brk = ((q.ann a).loopFlag brk || (a == w.addr && n.isBreak == brk)) := by
  unfold tcheckJump at h
  simp only [read_bind] at h
  rcases hw : findJumpTarget q.jumpTargets n.label with _ | w <;> simp only [hw] at h
  · cases h
  refine ⟨w, rfl, ?_⟩
  split at h <;> simp only [bind_eq_ok, update_apply, Prod.mk.injEq] at h <;>
    obtain ⟨_, _, ⟨-, rfl⟩, -, rfl⟩ := h <;> rename_i hb <;>
    refine ⟨by simp, fun a ha => ?_, fun brk a => ?_⟩ <;>
    [(simp only [Checker.setAnn_ann, if_neg ha]; split <;> subst_vars <;> rfl); skip;
     (simp only [Checker.setAnn_ann, if_neg ha]; split <;> subst_vars <;> rfl); skip] <;>
    cases brk <;> by_cases h₁ : a = n.addr <;> by_cases h₂ : a = w.addr <;>
    simp_all [Annot.loopFlag, Jump.isBreak]

theorem tcheckStatement_kJump (j : Jump) (q : Checker) :
    tcheckStatement (.kJump j) q =
      (tcheckJump j >>= fun _ => setTypeChecked j.addr) (setErrPos j.pos q).2 := rfl

theorem tcheckJump_eq_error {n : Jump} {q : Checker}
    (h : findJumpTarget q.jumpTargets n.label = none) :
    tcheckJump n q = (.error (.noMatchingWhile n.keyword n.label), q) := by
  simp [tcheckJump, h, fail]

theorem tcheckJump_isOk {n : Jump} {q : Checker} {w : While}
    (hw : findJumpTarget q.jumpTargets n.label = some w) : ∃ q', tcheckJump n q = (.ok (), q') := by
  unfold tcheckJump
  simp only [read_bind, hw]
  split <;> exact ⟨_, rfl⟩

/-- A `break` or `continue` with a target records it. -/
theorem tcheckStatement_kJump_target {j : Jump} {q : Checker} {w : While}
    (hw : findJumpTarget q.jumpTargets j.label = some w) :
    ((tcheckStatement (.kJump j) q).2.ann j.addr).jumpTarget = some w.addr := by
  obtain ⟨q₁, h₁⟩ : ∃ q₁, tcheckJump j (setErrPos j.pos q).2 = (.ok (), q₁) := tcheckJump_isOk hw
  obtain ⟨w', hw', hj, -⟩ := tcheckJump_ok h₁
  obtain rfl : w' = w := Option.some.inj (hw'.symm.trans hw)
  rw [tcheckStatement_kJump, bind_of_ok h₁, ← hj]
  exact congrArg Prod.fst ((keeps_setTypeChecked (List.mem_singleton_self j.addr) q₁).jumps j.addr)

/-- A `break` or `continue` without one fails. -/
theorem tcheckStatement_kJump_error {j : Jump} {q : Checker}
    (hw : findJumpTarget q.jumpTargets j.label = none) :
    (tcheckStatement (.kJump j) q).1 = .error (.noMatchingWhile j.keyword j.label) := by
  rw [tcheckStatement_kJump]
  have : tcheckJump j (setErrPos j.pos q).2 = (.error _, _) := tcheckJump_eq_error hw
  exact bind_fst_error (by rw [this])

/-- Outside `A`, the loop flags change only at the loops on the jump-target stack, which stays
as it was. -/
def flagFrame (A : List Addr) : Frame where
  rel q q' := q'.jumpTargets = q.jumpTargets ∧ ∀ a ∉ A, (∀ w ∈ q.jumpTargets, w.addr ≠ a) →
    (q'.ann a).hasBreak = (q.ann a).hasBreak ∧ (q'.ann a).hasContinue = (q.ann a).hasContinue
  refl _ := ⟨rfl, fun _ _ _ => ⟨rfl, rfl⟩⟩
  trans h₁ h₂ := ⟨h₂.1.trans h₁.1, fun a ha hw =>
    have h₂' := h₂.2 a ha (by rwa [h₁.1])
    ⟨h₂'.1.trans (h₁.2 a ha hw).1, h₂'.2.trans (h₁.2 a ha hw).2⟩⟩

section Flags

variable {A B : List Addr}

theorem Keeps.flag_mono {m : CheckM α} (h : Keeps (flagFrame A) m) (hAB : A ⊆ B) :
    Keeps (flagFrame B) m :=
  fun q => ⟨(h q).1, fun a ha => (h q).2 a fun h' => ha (hAB h')⟩

/-- What writes only annotations other than the loop flags keeps every flag. -/
theorem Keeps.flag_of_ann {m : CheckM α} (h : Keeps (annFrame A) m) : Keeps (flagFrame B) m :=
  fun q => ⟨by rw [(h q).fields], fun a _ _ => ⟨(h q).hasBreak_eq a, (h q).hasContinue_eq a⟩⟩

/-- Recording a position writes no annotation. -/
theorem Keeps.flag_after_setErrPos {m : CheckM α} (h : Keeps (flagFrame A) m) (p : Pos)
    (q : Checker) : (flagFrame A).rel q (m (setErrPos p q).2).2 :=
  h (setErrPos p q).2

/-- A jump sets a flag of its target, which is a loop on the stack. -/
theorem tcheckJump_keeps_flags (n : Jump) : Keeps (flagFrame A) (tcheckJump n) := fun q => by
  refine ⟨(tcheckJump_keeps n q).jumpTargets, fun a _ ha => ?_⟩
  rcases hw : findJumpTarget q.jumpTargets n.label with _ | w
  · rw [tcheckJump_eq_error hw]
    exact ⟨rfl, rfl⟩
  obtain ⟨q', h⟩ := tcheckJump_isOk hw
  obtain ⟨w', hw', -, -, hf⟩ := tcheckJump_ok h
  obtain ⟨pre, post, hs, -⟩ := findJumpTarget_eq_some.1 hw'
  have hne : (a == w'.addr) = false := beq_false_of_ne fun he => ha w' (by simp [hs]) he.symm
  rw [h]
  exact ⟨by simpa [Annot.loopFlag, hne] using hf true a, by simpa [Annot.loopFlag, hne] using hf false a⟩

/-- A loop pushed for its body, at a node of `A`, is popped again. -/
theorem Keeps.flag_pushed {w : While} {m : CheckM Unit} (hw : w.addr ∈ A)
    (hm : Keeps (flagFrame A) m) :
    Keeps (flagFrame A) (pushJumpTarget w >>= fun _ => deferring m popJumpTarget) := by
  intro q
  obtain ⟨hs, hf⟩ := hm { q with jumpTargets := q.jumpTargets ++ [w] }
  simp only [pushJumpTarget, update_bind, deferring_apply, popJumpTarget]
  refine ⟨by simp [hs], fun a ha hq => hf a ha fun w' hw' => ?_⟩
  rcases List.mem_append.1 hw' with h | h
  · exact hq w' h
  · exact List.mem_singleton.1 h ▸ fun he => ha (he ▸ hw)

theorem LeafCheck.keeps_flags {s : Stmt} {m : CheckM Unit} (hl : LeafCheck s A m) :
    Keeps (flagFrame s.addrs) (tcheckStatement s) := fun q => by
  rw [hl.apply]
  exact (Keeps.bind hl.keeps.flag_of_ann fun _ =>
    (keeps_setTypeChecked (List.mem_singleton_self s.addr)).flag_of_ann).flag_after_setErrPos _ q

theorem flags_kJump (j : Jump) : Keeps (flagFrame (Stmt.kJump j).addrs) (tcheckStatement (.kJump j)) :=
  (Keeps.bind (tcheckJump_keeps_flags j) fun _ =>
    (keeps_setTypeChecked (List.mem_singleton_self j.addr)).flag_of_ann).flag_after_setErrPos _

theorem flags_kIf {n : If} (ih : Keeps (flagFrame n.addrs) (tcheckIfChain n)) :
    Keeps (flagFrame (Stmt.kIf n).addrs) (tcheckStatement (.kIf n)) := fun q => by
  rw [tcheckStatement_kIf]
  exact (Keeps.bind ih fun _ => (markIfChain_keeps n).flag_of_ann).flag_after_setErrPos _ q

theorem flags_kWhile {w : While} (ih : Keeps (flagFrame (Stmt.addrsList w.body)) (tcheckStatements w.body)) :
    Keeps (flagFrame (Stmt.kWhile w).addrs) (tcheckStatement (.kWhile w)) := fun q => by
  rw [tcheckStatement_kWhile]
  exact (Keeps.bind (tcheckWhileHead_keeps w).flag_of_ann fun _ =>
    Keeps.flag_pushed (Stmt.addr_mem_addrs (.kWhile w))
    (Keeps.bind (ih.flag_mono w.body_sublist.subset) fun _ =>
      (keeps_setTypeChecked (List.mem_singleton_self w.addr)).flag_of_ann)).flag_after_setErrPos _ q

theorem flags_cons {s : Stmt} {body : List Stmt} (hs : Keeps (flagFrame s.addrs) (tcheckStatement s))
    (hb : Keeps (flagFrame (Stmt.addrsList body)) (tcheckStatements body)) :
    Keeps (flagFrame (Stmt.addrsList (s :: body))) (tcheckStatements (s :: body)) :=
  Keeps.bind (hs.flag_mono (List.subset_append_left _ _)) fun _ =>
    hb.flag_mono (List.subset_append_right _ _)

theorem flags_chain {n : If} (ht : Keeps (flagFrame (Stmt.addrsList n.bodyIfTrue)) (tcheckStatements n.bodyIfTrue))
    (hf : Keeps (flagFrame (Stmt.addrsList n.bodyIfFalse)) (tcheckStatements n.bodyIfFalse))
    (he : ∀ n', n.elseIf = some n' → Keeps (flagFrame n'.addrs) (tcheckIfChain n')) :
    Keeps (flagFrame n.addrs) (tcheckIfChain n) := fun q => by
  have hb := n.bodies_sublist.subset
  rw [tcheckIfChain_apply]
  refine (Keeps.bind (tcheckIfCondition_keeps n).flag_of_ann fun _ =>
    Keeps.bind (ht.flag_mono fun x h => hb (List.mem_append_left _ h)) fun _ =>
    Keeps.bind (hf.flag_mono fun x h => hb (List.mem_append_right _ (List.mem_append_left _ h)))
    fun _ => ?_) q
  cases hn : n.elseIf with
  | none => exact Keeps.pure _
  | some n' => exact (he n' hn).flag_mono (If.elseIf_sublist hn).subset

end Flags

theorem Annot.eq_of_core {x y : Annot} (hc : x.core = y.core) (hb : x.hasBreak = y.hasBreak)
    (hn : x.hasContinue = y.hasContinue) : x = y := by
  cases x; cases y
  simp only [Annot.core, Prod.mk.injEq] at hc
  simp_all

/-- `tcheckStatement` is local, whatever it returns and from any state: the local variables,
the function, the structs and the jump-target stack end as they were, the annotations other
than the loop flags change only on the statement's own nodes, and no `TypeChecked`,
`has_break` or `has_continue` flag is cleared. Outside the statement's nodes, the only
annotations that change are the loop flags of the loops on the jump-target stack. -/
theorem tcheckStatement_local (s : Stmt) (q : Checker) :
    StmtFrame s.addrs q (tcheckStatement s q).2 ∧
      ∀ a ∉ s.addrs, (∀ w ∈ q.jumpTargets, w.addr ≠ a) → (tcheckStatement s q).2.ann a = q.ann a := by
  have flags : ∀ c : Code, Keeps (flagFrame c.addrs) c.check := by
    intro c
    induction c using Code.induction with
    | kAssert n => exact (leafCheck_kAssert n).keeps_flags
    | kAssign n => exact (leafCheck_kAssign n).keeps_flags
    | kIf n ih => exact flags_kIf ih
    | kJump j => exact flags_kJump j
    | kReturn n => exact (leafCheck_kReturn n).keeps_flags
    | kVar n => exact (leafCheck_kVar n).keeps_flags
    | kWhile w ih => exact flags_kWhile ih
    | nil => exact Keeps.pure ()
    | cons s body hs hb => exact flags_cons hs hb
    | chain n ht hf he => exact flags_chain ht hf he
  refine ⟨tcheckStatement_keeps s q, fun a ha hw => ?_⟩
  obtain ⟨hb, hc⟩ := (flags (.stmt s) q).2 a ha hw
  exact Annot.eq_of_core ((tcheckStatement_keeps s q).outside a ha) hb hc

/-- A `break` checked inside `while true { break }` leaves node 2, the loop's condition, as it
was: only the loop's own node is written outside the `break`. -/
theorem breakInLoop_local :
    (tcheckStatement (.kJump ⟨3, ⟨"", 0⟩, .keyBreak, .zero⟩)
      { Checker.empty with jumpTargets := [whileTrueBreak] }).2.ann 2 = Checker.empty.ann 2 :=
  (tcheckStatement_local _ _).2 2 (by decide) (by decide)

/-- What a run of `f` keeps, `m` and then `f` leaves as `m` left it. -/
theorem Keeps.bind_snd {F : Frame} {m : CheckM α} {f : α → CheckM β} {g : Checker → γ}
    (hf : ∀ x, Keeps F (f x)) (hg : ∀ {q q'}, F.rel q q' → g q' = g q) (q : Checker) :
    g ((m >>= f) q).2 = g (m q).2 := by
  rw [bind_apply]
  rcases m q with ⟨_ | x, q₁⟩
  · rfl
  · exact hg (hf x q₁)

theorem whenSome_elseIf_keeps (n : If) :
    Keeps (stmtFrame (If.addrsOpt n.elseIf)) (whenSome n.elseIf tcheckIfChain) := by
  cases n.elseIf with
  | none => exact Keeps.pure _
  | some n' => exact tcheckIfChain_keeps n'

/-- The rest of an `If` clause after its then-body. -/
theorem tcheckIfChain_rest_keeps (n : If) :
    Keeps (stmtFrame (Stmt.addrsList n.bodyIfFalse ++ If.addrsOpt n.elseIf))
      (tcheckStatements n.bodyIfFalse >>= fun _ => whenSome n.elseIf tcheckIfChain) :=
  Keeps.bind ((tcheckStatements_keeps _).stmt_mono (List.subset_append_left _ _)) fun _ =>
    (whenSome_elseIf_keeps n).stmt_mono (List.subset_append_right _ _)

/-- The nodes of the clauses of an `If` chain. -/
def If.chainAddrs : If → List Addr
  | .mk a _ _ none _ _ => [a]
  | .mk a _ _ (some n) _ _ => a :: n.chainAddrs

/-- The nodes below the clauses of an `If` chain: its conditions and bodies. -/
def If.innerAddrs : If → List Addr
  | .mk _ _ cond none t f => cond.addrs ++ (Stmt.addrsList t ++ Stmt.addrsList f)
  | .mk _ _ cond (some n) t f =>
    cond.addrs ++ (Stmt.addrsList t ++ (Stmt.addrsList f ++ n.innerAddrs))

/-- The nodes of an `If` are its clauses and the nodes below them. -/
theorem If.addrs_perm : ∀ n : If, n.addrs.Perm (n.chainAddrs ++ n.innerAddrs)
  | .mk a p cond none t f => by simp [If.addrs, If.addrsOpt, If.chainAddrs, If.innerAddrs]
  | .mk a p cond (some n) t f => by
    simp only [If.addrs, If.addrsOpt, If.chainAddrs, If.innerAddrs, List.cons_append,
      List.perm_cons]
    refine ((((If.addrs_perm n).append_left _).append_left _).append_left _).trans ?_
    simpa only [List.append_assoc] using List.perm_append_comm_assoc
      (cond.addrs ++ Stmt.addrsList t ++ Stmt.addrsList f) n.chainAddrs n.innerAddrs

theorem If.addr_mem_chainAddrs (n : If) : n.addr ∈ n.chainAddrs := by
  rcases n with ⟨a, p, cond, _ | n, t, f⟩ <;> simp [If.chainAddrs, If.addr]

theorem If.chainAddrs_subset (n : If) : n.chainAddrs ⊆ n.addrs :=
  fun _ h => n.addrs_perm.mem_iff.mpr (List.mem_append_left _ h)

theorem If.chain_not_mem_inner {n : If} (hn : n.addrs.Nodup) {a : Addr} (ha : a ∈ n.chainAddrs) :
    a ∉ n.innerAddrs :=
  List.disjoint_of_nodup_append (n.addrs_perm.nodup_iff.mp hn) ha

theorem While.addr_not_mem {w : While} (hn : w.addrs.Nodup) :
    w.addr ∉ w.condition.addrs ++ Assert.addrsList w.asserts ∧ w.addr ∉ Stmt.addrsList w.body := by
  rcases w with ⟨a, p, l, cond, asserts, body⟩
  simp only [While.addrs, List.nodup_cons, List.mem_append] at hn
  simp only [While.addr, While.condition, While.asserts, While.body, List.mem_append]
  tauto

theorem If.bodies_subset_inner (n : If) :
    Stmt.addrsList n.bodyIfTrue ++ Stmt.addrsList n.bodyIfFalse ⊆ n.innerAddrs := by
  intro x hx
  rcases n with ⟨a, p, cond, _ | n, t, f⟩ <;>
    simp only [If.innerAddrs, If.bodyIfTrue, If.bodyIfFalse, List.mem_append] at hx ⊢ <;> tauto

theorem If.elseIf_inner_subset {n n' : If} (h : n.elseIf = some n') : n'.innerAddrs ⊆ n.innerAddrs := by
  rcases n with ⟨a, p, cond, _ | n, t, f⟩
  · cases h
  · cases h
    exact (List.subset_append_right _ _).trans ((List.subset_append_right _ _).trans
      (List.subset_append_right _ _))

/-- The statements inside an `If` chain lie below its clauses. -/
theorem Encloses.chain_inner {n : If} {path : List While} {o : Stmt}
    (h : Encloses (.chain n) path o) : o.addrs ⊆ n.innerAddrs := by
  generalize hc : Code.chain n = c at h
  induction h generalizing n with
  | bodyIfTrue he =>
    cases hc
    exact List.Subset.trans he.sublist.subset
      ((List.subset_append_left _ _).trans (If.bodies_subset_inner _))
  | bodyIfFalse he =>
    cases hc
    exact List.Subset.trans he.sublist.subset
      ((List.subset_append_right _ _).trans (If.bodies_subset_inner _))
  | elseIf he _ ih =>
    cases hc
    exact (ih rfl).trans (If.elseIf_inner_subset he)
  | _ => cases hc

/-- The second loop of the `KIf` case writes at the clauses only. -/
theorem markIfChain_keeps_chain : ∀ n : If, Keeps (annFrame n.chainAddrs) (markIfChain n)
  | .mk a _ _ none _ _ => Keeps.bind (keeps_setTypeChecked (List.mem_singleton_self a)) fun _ =>
      Keeps.pure ()
  | .mk _ _ _ (some n) _ _ => Keeps.bind (keeps_setTypeChecked (List.mem_cons_self _ _)) fun _ =>
      (markIfChain_keeps_chain n).mono (List.subset_cons_self _ _)

/-- On distinct nodes, what the check of a statement on the walk leaves on its nodes (mark,
constant, type and jump target) is what the whole check leaves there. -/
theorem Reaches.core_eq {c : Code} {q q₁ : Checker} {o : Stmt} {path : List While}
    (h : Reaches c q o path q₁) (hn : c.addrs.Nodup) {a : Addr} (ha : a ∈ o.addrs) :
    ((c.check q).2.ann a).core = ((tcheckStatement o q₁).2.ann a).core := by
  have outside : ∀ {A : List Addr}, a ∉ A → ∀ {q q'}, StmtFrame A q q' →
      (q'.ann a).core = (q.ann a).core :=
    fun hA _ _ h => h.outside a hA
  have written : ∀ {A : List Addr}, a ∉ A → ∀ {q q'}, AnnFrame A q q' →
      (q'.ann a).core = (q.ann a).core :=
    fun hA _ _ h => congrArg Annot.core (h.outside a hA)
  induction h with
  | self => rfl
  | @ifChain n _ _ _ _ hr ih =>
    have hn' : n.addrs.Nodup := hn
    rw [Code.check, tcheckStatement_kIf, Keeps.bind_snd (fun _ => markIfChain_keeps_chain n)
      (written fun hc => If.chain_not_mem_inner hn' hc (hr.encloses.chain_inner ha))]
    exact ih hn ha
  | @whileBody w _ _ _ _ _ hh hr ih =>
    have hw : a ∉ [w.addr] := fun hw =>
      (While.addr_not_mem hn).2 (List.mem_singleton.1 hw ▸ hr.encloses.sublist.subset ha)
    rw [Code.check, tcheckStatement_kWhile, bind_of_ok hh]
    simp only [pushJumpTarget, update_bind, deferring_apply, popJumpTarget]
    rw [Keeps.bind_snd (fun _ => keeps_setTypeChecked (List.mem_singleton_self w.addr)) (written hw)]
    exact ih (hn.sublist w.body_sublist) ha
  | @head s body _ _ _ _ hr ih =>
    rw [Code.check, tcheckStatements_cons,
      Keeps.bind_snd (fun _ => tcheckStatements_keeps body)
        (outside (List.disjoint_of_nodup_append hn (hr.encloses.sublist.subset ha)))]
    exact ih (hn.sublist (List.sublist_append_left _ _)) ha
  | tail hs _ ih =>
    rw [Code.check, tcheckStatements_cons, bind_of_ok hs]
    exact ih (hn.sublist (List.sublist_append_right _ _)) ha
  | @bodyIfTrue n _ _ _ _ _ hc hr ih =>
    have hd := hn.sublist n.bodies_sublist
    rw [Code.check, tcheckIfChain_apply, bind_of_ok hc,
      Keeps.bind_snd (fun _ => tcheckIfChain_rest_keeps n)
        (outside (List.disjoint_of_nodup_append hd (hr.encloses.sublist.subset ha)))]
    exact ih (hd.sublist (List.sublist_append_left _ _)) ha
  | @bodyIfFalse n _ _ _ _ _ _ hc ht hr ih =>
    have hd := (hn.sublist n.bodies_sublist).sublist (List.sublist_append_right _ _)
    rw [Code.check, tcheckIfChain_apply, bind_of_ok hc, bind_of_ok ht,
      Keeps.bind_snd (fun _ => whenSome_elseIf_keeps n)
        (outside (List.disjoint_of_nodup_append hd (hr.encloses.sublist.subset ha)))]
    exact ih (hd.sublist (List.sublist_append_left _ _)) ha
  | elseIf hc ht hf he _ ih =>
    rw [Code.check, tcheckIfChain_apply, bind_of_ok hc, bind_of_ok ht, bind_of_ok hf, he]
    exact ih (hn.sublist (If.elseIf_sublist he)) ha

/-- A check of `c` from `q` reaches a `break` (when `brk`, else a `continue`) that resolves, on
the stack it is checked with, to the loop at `a`. -/
def Resolves (c : Code) (q : Checker) (brk : Bool) (a : Addr) : Prop :=
  ∃ j path q₁ w, Reaches c q (.kJump j) path q₁ ∧ j.isBreak = brk ∧
    findJumpTarget q₁.jumpTargets j.label = some w ∧ w.addr = a

section Resolves

variable {q q' : Checker} {brk : Bool} {a : Addr}

theorem resolves_kJump {j : Jump} :
    Resolves (.stmt (.kJump j)) q brk a ↔
      j.isBreak = brk ∧ ∃ w, findJumpTarget q.jumpTargets j.label = some w ∧ w.addr = a := by
  constructor
  · rintro ⟨_, _, _, w, ⟨⟩, hb, hw, rfl⟩
    exact ⟨hb, w, hw, rfl⟩
  · rintro ⟨hb, w, hw, rfl⟩
    exact ⟨j, [], q, w, .self _ _, hb, hw, rfl⟩

theorem resolves_kIf {n : If} :
    Resolves (.stmt (.kIf n)) q brk a ↔ Resolves (.chain n) (setErrPos n.pos q).2 brk a := by
  constructor
  · rintro ⟨j, path, q₁, w, h, hr⟩
    cases h with
    | ifChain h => exact ⟨j, path, q₁, w, h, hr⟩
  · rintro ⟨j, path, q₁, w, h, hr⟩
    exact ⟨j, path, q₁, w, .ifChain h, hr⟩

theorem resolves_kWhile {w : While} (hh : tcheckWhileHead w (setErrPos w.pos q).2 = (.ok (), q')) :
    Resolves (.stmt (.kWhile w)) q brk a ↔ Resolves (.stmts w.body) (pushJumpTarget w q').2 brk a := by
  constructor
  · rintro ⟨j, path, q₁, w', h, hr⟩
    cases h with
    | whileBody hh' h =>
      obtain rfl := eq_of_run hh hh'
      exact ⟨j, _, q₁, w', h, hr⟩
  · rintro ⟨j, path, q₁, w', h, hr⟩
    exact ⟨j, w :: path, q₁, w', .whileBody hh h, hr⟩

theorem not_resolves_nil : ¬Resolves (.stmts []) q brk a := by
  rintro ⟨_, _, _, _, ⟨⟩, -⟩

theorem resolves_cons {s : Stmt} {body : List Stmt} (hs : tcheckStatement s q = (.ok (), q')) :
    Resolves (.stmts (s :: body)) q brk a ↔
      Resolves (.stmt s) q brk a ∨ Resolves (.stmts body) q' brk a := by
  constructor
  · rintro ⟨j, path, q₁, w, h, hr⟩
    cases h with
    | head h => exact .inl ⟨j, path, q₁, w, h, hr⟩
    | tail hs' h =>
      obtain rfl := eq_of_run hs hs'
      exact .inr ⟨j, path, q₁, w, h, hr⟩
  · rintro (⟨j, path, q₁, w, h, hr⟩ | ⟨j, path, q₁, w, h, hr⟩)
    exacts [⟨j, path, q₁, w, .head h, hr⟩, ⟨j, path, q₁, w, .tail hs h, hr⟩]

theorem resolves_chain {n : If} {q₁ q₂ q₃ : Checker} (hc : tcheckIfCondition n q = (.ok (), q₁))
    (ht : tcheckStatements n.bodyIfTrue q₁ = (.ok (), q₂))
    (hf : tcheckStatements n.bodyIfFalse q₂ = (.ok (), q₃)) :
    Resolves (.chain n) q brk a ↔ Resolves (.stmts n.bodyIfTrue) q₁ brk a ∨
      Resolves (.stmts n.bodyIfFalse) q₂ brk a ∨
      ∃ n', n.elseIf = some n' ∧ Resolves (.chain n') q₃ brk a := by
  constructor
  · rintro ⟨j, path, q₄, w, h, hr⟩
    cases h with
    | bodyIfTrue hc' h =>
      obtain rfl := eq_of_run hc hc'
      exact .inl ⟨j, path, q₄, w, h, hr⟩
    | bodyIfFalse hc' ht' h =>
      obtain rfl := eq_of_run hc hc'
      obtain rfl := eq_of_run ht ht'
      exact .inr (.inl ⟨j, path, q₄, w, h, hr⟩)
    | elseIf hc' ht' hf' he h =>
      obtain rfl := eq_of_run hc hc'
      obtain rfl := eq_of_run ht ht'
      obtain rfl := eq_of_run hf hf'
      exact .inr (.inr ⟨_, he, j, path, q₄, w, h, hr⟩)
  · rintro (⟨j, path, q₄, w, h, hr⟩ | ⟨j, path, q₄, w, h, hr⟩ | ⟨n', he, j, path, q₄, w, h, hr⟩)
    exacts [⟨j, path, q₄, w, .bodyIfTrue hc h, hr⟩, ⟨j, path, q₄, w, .bodyIfFalse hc ht h, hr⟩,
      ⟨j, path, q₄, w, .elseIf hc ht hf he h, hr⟩]

end Resolves

/-- A successful check of `c` from `q` sets a loop flag exactly where it was set before or a
jump it reaches resolves. -/
def FlagsSpec (c : Code) : Prop :=
  ∀ q q', c.check q = (.ok (), q') → ∀ brk a,
    (q'.ann a).loopFlag brk = true ↔ (q.ann a).loopFlag brk = true ∨ Resolves c q brk a

namespace FlagsSpec

theorem leaf {s : Stmt} {A : List Addr} {m : CheckM Unit} (hl : LeafCheck s A m)
    (hr : ∀ q brk a, ¬Resolves (.stmt s) q brk a) : FlagsSpec (.stmt s) := by
  intro q q' h brk a
  rw [Code.check, hl.apply] at h
  rw [((Keeps.bind (hl.keeps.mono (List.subset_cons_self s.addr A)) fun _ =>
    keeps_setTypeChecked (List.mem_cons_self s.addr A)).of_eq h).loopFlag_eq]
  simp only [hr, or_false]
  rfl

theorem kJump (j : Jump) : FlagsSpec (.stmt (.kJump j)) := by
  intro q q' h brk a
  rw [Code.check, tcheckStatement_kJump, bind_eq_ok] at h
  obtain ⟨_, q₁, hj, hc⟩ := h
  obtain ⟨w, hw, -, -, hf⟩ := tcheckJump_ok hj
  change findJumpTarget q.jumpTargets j.label = some w at hw
  rw [((keeps_setTypeChecked (List.mem_singleton_self _)).of_eq hc).loopFlag_eq, hf, resolves_kJump]
  simp only [Bool.or_eq_true, Bool.and_eq_true, beq_iff_eq, hw, Option.some.injEq, exists_eq_left']
  exact or_congr_right ⟨fun ⟨h₁, h₂⟩ => ⟨h₂, h₁.symm⟩, fun ⟨h₁, h₂⟩ => ⟨h₂.symm, h₁⟩⟩

theorem kIf {n : If} (ih : FlagsSpec (.chain n)) : FlagsSpec (.stmt (.kIf n)) := by
  intro q q' h brk a
  rw [Code.check, tcheckStatement_kIf, bind_eq_ok] at h
  obtain ⟨_, q₁, hc, hm⟩ := h
  rw [((markIfChain_keeps n).of_eq hm).loopFlag_eq, ih _ _ hc, resolves_kIf]
  rfl

theorem kWhile {w : While} (ih : FlagsSpec (.stmts w.body)) : FlagsSpec (.stmt (.kWhile w)) := by
  intro q q' h brk a
  rw [Code.check, tcheckStatement_kWhile, bind_eq_ok] at h
  obtain ⟨_, q₁, hh, h⟩ := h
  rw [pushJumpTarget, update_bind, deferring_eq_ok] at h
  obtain ⟨q₂, h, rfl⟩ := h
  obtain ⟨_, q₃, hb, hc⟩ := bind_eq_ok.mp h
  show (q₂.ann a).loopFlag brk = true ↔ _
  rw [((keeps_setTypeChecked (List.mem_singleton_self _)).of_eq hc).loopFlag_eq, ih _ _ hb,
    resolves_kWhile hh, ((tcheckWhileHead_keeps w).of_eq hh).loopFlag_eq]
  rfl

theorem nil : FlagsSpec (.stmts []) := by
  intro q q' h brk a
  obtain rfl : q = q' := congrArg Prod.snd h
  simp [not_resolves_nil]

theorem cons {s : Stmt} {body : List Stmt} (hs : FlagsSpec (.stmt s)) (hb : FlagsSpec (.stmts body)) :
    FlagsSpec (.stmts (s :: body)) := by
  intro q q' h brk a
  obtain ⟨_, q₁, h₁, h₂⟩ := bind_eq_ok.mp h
  rw [hb _ _ h₂, hs _ _ h₁, resolves_cons h₁, or_assoc]

theorem chain {n : If} (ht : FlagsSpec (.stmts n.bodyIfTrue)) (hf : FlagsSpec (.stmts n.bodyIfFalse))
    (he : ∀ n', n.elseIf = some n' → FlagsSpec (.chain n')) : FlagsSpec (.chain n) := by
  intro q q' h brk a
  rw [Code.check, tcheckIfChain_apply] at h
  simp only [bind_eq_ok] at h
  obtain ⟨_, q₁, hc, _, q₂, h₁, _, q₃, h₂, h₃⟩ := h
  have tail : (q'.ann a).loopFlag brk = true ↔ (q₃.ann a).loopFlag brk = true ∨
      ∃ n', n.elseIf = some n' ∧ Resolves (.chain n') q₃ brk a := by
    cases hn : n.elseIf with
    | none =>
      rw [hn] at h₃
      obtain rfl : q₃ = q' := congrArg Prod.snd h₃
      simp
    | some n' =>
      rw [hn] at h₃
      simp [he n' hn _ _ h₃]
  rw [tail, hf _ _ h₂, ht _ _ h₁, resolves_chain hc h₁ h₂,
    ((tcheckIfCondition_keeps n).of_eq hc).loopFlag_eq, or_assoc, or_assoc]

end FlagsSpec

theorem Code.flagsSpec (c : Code) : FlagsSpec c := by
  induction c using Code.induction with
  | kAssert n =>
    exact .leaf (leafCheck_kAssert n) (by rintro _ _ _ ⟨_, _, _, _, ⟨⟩, -⟩)
  | kAssign n =>
    exact .leaf (leafCheck_kAssign n) (by rintro _ _ _ ⟨_, _, _, _, ⟨⟩, -⟩)
  | kIf n ih => exact .kIf ih
  | kJump j => exact .kJump j
  | kReturn n =>
    exact .leaf (leafCheck_kReturn n) (by rintro _ _ _ ⟨_, _, _, _, ⟨⟩, -⟩)
  | kVar n =>
    exact .leaf (leafCheck_kVar n) (by rintro _ _ _ ⟨_, _, _, _, ⟨⟩, -⟩)
  | kWhile w ih => exact .kWhile ih
  | nil => exact .nil
  | cons s body hs hb => exact .cons hs hb
  | chain n ht hf he => exact .chain ht hf he

/-- From an empty stack, the target a jump resolves to on the stack it is checked with is its
target among the loops around it. -/
theorem resolves_iff_isTarget {c : Code} {q : Checker} {brk : Bool} {a : Addr}
    (hS : q.jumpTargets = []) :
    Resolves c q brk a ↔ ∃ j path q₁ w, Reaches c q (.kJump j) path q₁ ∧ j.isBreak = brk ∧
      IsTarget path j.label w ∧ w.addr = a := by
  constructor <;> rintro ⟨j, path, q₁, w, h, hb, hw, rfl⟩ <;>
    refine ⟨j, path, q₁, w, h, hb, ?_, rfl⟩ <;>
    rwa [h.stack, hS, List.nil_append, findJumpTarget_eq_some] at *

theorem jumps_resolve_lexically (c : Code) (q : Checker) (hS : q.jumpTargets = [])
    (hf : Fresh q c.addrs) :
    (∀ j path q₁, Reaches c q (.kJump j) path q₁ →
      (∀ w, IsTarget path j.label w → ((c.check q).2.ann j.addr).jumpTarget = some w.addr) ∧
      ((∀ w, ¬IsTarget path j.label w) →
        (c.check q).1 = .error (.noMatchingWhile j.keyword j.label))) ∧
    ((c.check q).1 = .ok () → ∀ a ∈ c.addrs,
      (((c.check q).2.ann a).hasBreak = true ↔ ∃ j path q₁ w, Reaches c q (.kJump j) path q₁ ∧
        j.keyword = .keyBreak ∧ IsTarget path j.label w ∧ w.addr = a) ∧
      (((c.check q).2.ann a).hasContinue = true ↔ ∃ j path q₁ w, Reaches c q (.kJump j) path q₁ ∧
        j.keyword ≠ .keyBreak ∧ IsTarget path j.label w ∧ w.addr = a)) := by
  refine ⟨fun j path q₁ h => ⟨fun w hw => ?_, fun hw => ?_⟩, fun hok a ha => ?_⟩
  · rw [show ((c.check q).2.ann j.addr).jumpTarget = _ from
      congrArg (·.2.2.2) (h.core_eq hf.nodup (List.mem_singleton_self j.addr))]
    exact tcheckStatement_kJump_target (by rwa [h.stack, hS, findJumpTarget_eq_some])
  · exact h.error (tcheckStatement_kJump_error (by rwa [h.stack, hS, findJumpTarget_eq_none]))
  · have flags (brk : Bool) := c.flagsSpec q _ (Prod.ext hok rfl) brk a
    simp only [hf.clean a ha, resolves_iff_isTarget hS] at flags
    exact ⟨by simpa [Annot.loopFlag, Jump.isBreak] using flags true,
      by simpa [Annot.loopFlag, Jump.isBreak] using flags false⟩

/-- `while true { break }`, checked from an empty checker: the `break` records the loop. -/
theorem whileTrueBreak_target :
    ((Code.check (.stmt (.kWhile whileTrueBreak)) .empty).2.ann 3).jumpTarget = some 1 :=
  ((jumps_resolve_lexically _ _ rfl (Fresh.empty (by decide))).1 _ [whileTrueBreak] _
    (.whileBody rfl (.head (.self _ _)))).1 whileTrueBreak ⟨[], [], rfl, fun h => absurd rfl h,
    fun _ => rfl⟩

end Puffs
