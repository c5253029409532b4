import Puffs.Jumps
/-!
# `TypeChecked` on statements

A statement check marks the statement as its last step, once everything below it has passed,
and an `If` marks the clauses of its chain in a second loop, once the whole chain has passed.
On a tree fresh from the parser, a statement and each clause of an `If` chain therefore end
marked exactly when the check succeeds, whichever clause fails, and a successful check leaves
every statement below and every `while` assert marked.
-/
namespace Puffs

open CheckM

/-- The first loop of the `KIf` case writes below the clauses only. -/
theorem tcheckIfChain_keeps_inner (n : If) : Keeps (stmtFrame n.innerAddrs) (tcheckIfChain n) := by
  match n with
  | .mk a p cond elseIf t f =>
    unfold tcheckIfChain
    refine Keeps.bind ((tcheckIfCondition_keeps _).stmt.stmt_mono fun x h => ?_) fun _ =>
      Keeps.bind ((tcheckStatements_keeps t).stmt_mono fun x h => ?_) fun _ =>
      Keeps.bind ((tcheckStatements_keeps f).stmt_mono fun x h => ?_) fun _ => ?_
    all_goals cases elseIf
    all_goals first
      | exact Keeps.pure _
      | exact (tcheckIfChain_keeps_inner _).stmt_mono fun x h => by simp [If.innerAddrs, h]
      | simp_all [If.innerAddrs, If.condition]

/-- The second loop of the `KIf` case cannot fail. -/
theorem markIfChain_fst (n : If) (q : Checker) : (markIfChain n q).1 = .ok () := by
  match n with
  | .mk a p cond none t f => rfl
  | .mk a p cond (some n) t f => exact markIfChain_fst n _

theorem markIfChain_marks (n : If) (q : Checker) :
    ∀ a ∈ n.chainAddrs, ((markIfChain n q).2.ann a).typeChecked = true := by
  match n with
  | .mk a p cond none t f => simp [If.chainAddrs, markIfChain, setTypeChecked]
  | .mk a p cond (some n) t f =>
    intro b hb
    show ((markIfChain n (setTypeChecked a q).2).2.ann b).typeChecked = true
    rcases List.mem_cons.mp hb with rfl | hb
    · exact (markIfChain_keeps n _).checked b (by simp [setTypeChecked])
    · exact markIfChain_marks n _ b hb

section Last

variable {q q' : Checker} {a : Addr} {e : Err} {m : CheckM Unit}

theorem marked_of_setTypeChecked {r : Except Err Unit} (h : setTypeChecked a q = (r, q')) :
    (q'.ann a).typeChecked = true := by
  obtain rfl := (congrArg Prod.snd h).symm
  simp [setTypeChecked]

theorem marked_of_setTypeChecked_last (h : (m >>= fun _ => setTypeChecked a) q = (.ok (), q')) :
    (q'.ann a).typeChecked = true :=
  let ⟨_, _, _, h⟩ := bind_eq_ok.mp h
  marked_of_setTypeChecked h

/-- Every accepting branch of `tcheckTypeExpr` ends by marking the type expression. -/
theorem tcheckTypeExpr_marks {t : TypeExpr} {d : Nat} (h : tcheckTypeExpr t d q = (.ok (), q')) :
    (q'.ann t.addr).typeChecked = true := by
  unfold tcheckTypeExpr at h
  obtain ⟨-, h⟩ := require_bind_eq_ok.mp h
  rcases t with ⟨a, pkg, name, min, max⟩ | ⟨a, inner⟩ | ⟨a, aLen, inner⟩ <;> dsimp only at h
  · split at h
    · cases h
    split at h
    · obtain ⟨_, _, -, h⟩ := bind_eq_ok.mp h
      exact marked_of_setTypeChecked_last h
    split at h
    · exact marked_of_setTypeChecked h
    · cases h
  · exact marked_of_setTypeChecked_last h
  · obtain ⟨_, _, -, h⟩ := bind_eq_ok.mp h
    obtain ⟨_, _, -, h⟩ := bind_eq_ok.mp h
    obtain ⟨_, _, -, h⟩ := bind_eq_ok.mp h
    exact marked_of_setTypeChecked_last h

theorem error_of_setTypeChecked_last
    (h : (m >>= fun _ => setTypeChecked a) q = (.error e, q')) : m q = (.error e, q') := by
  rcases bind_eq_error.mp h with h | ⟨_, _, -, h⟩
  · exact h
  · simp [setTypeChecked] at h

theorem tcheckJump_error_state {n : Jump} (h : tcheckJump n q = (.error e, q')) : q' = q := by
  unfold tcheckJump at h
  simp only [read_bind] at h
  rcases hw : findJumpTarget q.jumpTargets n.label with _ | w <;> simp only [hw] at h
  · exact (congrArg Prod.snd h).symm
  · split at h <;> simp at h

theorem LeafCheck.marks {s : Stmt} {A : List Addr} (hl : LeafCheck s A m)
    (h : tcheckStatement s q = (.ok (), q')) : (q'.ann s.addr).typeChecked = true := by
  rw [hl.apply] at h
  exact marked_of_setTypeChecked_last h

theorem LeafCheck.error_ann {s : Stmt} {A : List Addr} (hl : LeafCheck s A m) (hn : s.addrs.Nodup)
    (h : tcheckStatement s q = (.error e, q')) : q'.ann s.addr = q.ann s.addr := by
  rw [hl.apply] at h
  exact (hl.keeps.of_eq (error_of_setTypeChecked_last h)).outside _ (hl.below hn)

theorem kIf_marks {n : If} (h : tcheckStatement (.kIf n) q = (.ok (), q')) :
    ∀ a ∈ n.chainAddrs, (q'.ann a).typeChecked = true := by
  rw [tcheckStatement_kIf, bind_eq_ok] at h
  obtain ⟨_, q₁, -, h⟩ := h
  obtain rfl := (congrArg Prod.snd h).symm
  exact markIfChain_marks n q₁

/-- A failed `If` leaves every clause of its chain as it found it. -/
theorem kIf_error_core {n : If} (hn : n.addrs.Nodup) (h : tcheckStatement (.kIf n) q = (.error e, q')) :
    ∀ a ∈ n.chainAddrs, (q'.ann a).core = (q.ann a).core := by
  rw [tcheckStatement_kIf] at h
  rcases bind_eq_error.mp h with h | ⟨_, _, -, h⟩
  · exact fun a ha => ((tcheckIfChain_keeps_inner n).of_eq h).outside a (If.chain_not_mem_inner hn ha)
  · exact absurd (congrArg Prod.fst h) (by rw [markIfChain_fst]; exact nofun)

/-- A successful statement check marks the statement. -/
theorem tcheckStatement_marks {s : Stmt} (h : tcheckStatement s q = (.ok (), q')) :
    (q'.ann s.addr).typeChecked = true := by
  cases s with
  | kAssert n => exact (leafCheck_kAssert n).marks h
  | kAssign n => exact (leafCheck_kAssign n).marks h
  | kIf n => exact kIf_marks h _ n.addr_mem_chainAddrs
  | kJump j => exact marked_of_setTypeChecked_last ((tcheckStatement_kJump j q).symm.trans h)
  | kReturn n => exact (leafCheck_kReturn n).marks h
  | kVar n => exact (leafCheck_kVar n).marks h
  | kWhile w =>
    rw [tcheckStatement_kWhile, bind_eq_ok] at h
    obtain ⟨_, q₁, -, h⟩ := h
    rw [pushJumpTarget, update_bind, deferring_eq_ok] at h
    obtain ⟨q₂, h, rfl⟩ := h
    exact (marked_of_setTypeChecked_last h : (q₂.ann w.addr).typeChecked = true)

/-- A failed statement check leaves the statement's node as it found it. -/
theorem tcheckStatement_error_core {s : Stmt} (hn : s.addrs.Nodup)
    (h : tcheckStatement s q = (.error e, q')) : (q'.ann s.addr).core = (q.ann s.addr).core := by
  cases s with
  | kAssert n => rw [(leafCheck_kAssert n).error_ann hn h]
  | kAssign n => rw [(leafCheck_kAssign n).error_ann hn h]
  | kIf n => exact kIf_error_core hn h _ n.addr_mem_chainAddrs
  | kJump j =>
    rw [tcheckStatement_kJump] at h
    rw [tcheckJump_error_state (error_of_setTypeChecked_last h)]
    rfl
  | kReturn n => rw [(leafCheck_kReturn n).error_ann hn h]
  | kVar n => rw [(leafCheck_kVar n).error_ann hn h]
  | kWhile w =>
    obtain ⟨hhead, hbody⟩ := While.addr_not_mem hn
    rw [tcheckStatement_kWhile] at h
    rcases bind_eq_error.mp h with hh | ⟨_, q₁, hh, hr⟩
    · exact congrArg Annot.core (((tcheckWhileHead_keeps w).of_eq hh).outside _ hhead)
    clear h
    rw [pushJumpTarget, update_bind, deferring_apply, Prod.mk.injEq] at hr
    obtain ⟨hr, rfl⟩ := hr
    have hb := error_of_setTypeChecked_last (show _ = (Except.error e, _) from Prod.ext hr rfl)
    exact (((tcheckStatements_keeps w.body).of_eq hb).outside _ hbody).trans
      (congrArg Annot.core (((tcheckWhileHead_keeps w).of_eq hh).outside _ hhead))

end Last

/-- A run of `m` and then `f`, where `f` keeps what `P` says. -/
theorem Keeps.bind_snd_of {F : Frame} {m : CheckM α} {f : α → CheckM β} {P : Checker → Prop}
    (hf : ∀ x, Keeps F (f x)) (hP : ∀ {q q'}, F.rel q q' → P q → P q') {q : Checker}
    (h : P (m q).2) : P ((m >>= f) q).2 := by
  rw [bind_apply]
  rcases hm : m q with ⟨_ | x, q₁⟩ <;> rw [hm] at h
  · exact h
  · exact hP (hf x q₁) h

/-- What the check of a statement on the walk marks, the whole check leaves marked. -/
theorem Reaches.marked {c : Code} {q q₁ : Checker} {o : Stmt} {path : List While} {a : Addr}
    (h : Reaches c q o path q₁) (ha : ((tcheckStatement o q₁).2.ann a).typeChecked = true) :
    ((c.check q).2.ann a).typeChecked = true := by
  have kept : ∀ {A q q'}, StmtFrame A q q' →
      (q.ann a).typeChecked = true → (q'.ann a).typeChecked = true := fun h => h.checked a
  induction h with
  | self => exact ha
  | @ifChain n _ _ _ _ _ ih =>
    exact Keeps.bind_snd_of (fun _ => (markIfChain_keeps n).stmt) kept (ih ha)
  | @whileBody w _ _ _ _ _ hh _ ih =>
    rw [Code.check, tcheckStatement_kWhile, bind_of_ok hh]
    exact Keeps.bind_snd_of (fun _ => keeps_stmt_setTypeChecked (List.mem_singleton_self w.addr))
      kept (ih ha)
  | head _ ih => exact Keeps.bind_snd_of (fun _ => tcheckStatements_keeps _) kept (ih ha)
  | tail hs _ ih => rw [Code.check, tcheckStatements_cons, bind_of_ok hs]; exact ih ha
  | @bodyIfTrue n _ _ _ _ _ hc _ ih =>
    rw [Code.check, tcheckIfChain_apply, bind_of_ok hc]
    exact Keeps.bind_snd_of (fun _ => tcheckIfChain_rest_keeps n) kept (ih ha)
  | @bodyIfFalse n _ _ _ _ _ _ hc ht _ ih =>
    rw [Code.check, tcheckIfChain_apply, bind_of_ok hc, bind_of_ok ht]
    exact Keeps.bind_snd_of (fun _ => whenSome_elseIf_keeps n) kept (ih ha)
  | elseIf hc ht hf he _ ih =>
    rw [Code.check, tcheckIfChain_apply, bind_of_ok hc, bind_of_ok ht, bind_of_ok hf, he]
    exact ih ha

/-- A successful check goes on to check, successfully, every statement inside. -/
theorem Encloses.reaches_of_ok {c : Code} {path : List While} {o : Stmt} (he : Encloses c path o)
    {q q' : Checker} (h : c.check q = (.ok (), q')) :
    ∃ q₁ q₂, Reaches c q o path q₁ ∧ tcheckStatement o q₁ = (.ok (), q₂) := by
  induction he generalizing q q' with
  | self s => exact ⟨q, q', .self s q, h⟩
  | ifChain _ ih =>
    obtain ⟨_, _, h, -⟩ := bind_eq_ok.mp ((tcheckStatement_kIf _).symm.trans h)
    obtain ⟨_, _, hr, ho⟩ := ih h
    exact ⟨_, _, .ifChain hr, ho⟩
  | whileBody _ ih =>
    rw [Code.check, tcheckStatement_kWhile, bind_eq_ok] at h
    obtain ⟨_, _, hh, h⟩ := h
    rw [pushJumpTarget, update_bind, deferring_eq_ok] at h
    obtain ⟨_, h, -⟩ := h
    obtain ⟨_, _, h, -⟩ := bind_eq_ok.mp h
    obtain ⟨_, _, hr, ho⟩ := ih h
    exact ⟨_, _, .whileBody hh hr, ho⟩
  | head _ ih =>
    obtain ⟨_, _, h, -⟩ := bind_eq_ok.mp h
    obtain ⟨_, _, hr, ho⟩ := ih h
    exact ⟨_, _, .head hr, ho⟩
  | tail _ ih =>
    obtain ⟨_, _, hs, h⟩ := bind_eq_ok.mp h
    obtain ⟨_, _, hr, ho⟩ := ih h
    exact ⟨_, _, .tail hs hr, ho⟩
  | bodyIfTrue _ ih =>
    rw [Code.check, tcheckIfChain_apply] at h
    obtain ⟨_, _, hc, _, _, h, -⟩ := by simpa only [bind_eq_ok] using h
    obtain ⟨_, _, hr, ho⟩ := ih h
    exact ⟨_, _, .bodyIfTrue hc hr, ho⟩
  | bodyIfFalse _ ih =>
    rw [Code.check, tcheckIfChain_apply] at h
    obtain ⟨_, _, hc, _, _, ht, _, _, h, -⟩ := by simpa only [bind_eq_ok] using h
    obtain ⟨_, _, hr, ho⟩ := ih h
    exact ⟨_, _, .bodyIfFalse hc ht hr, ho⟩
  | elseIf he _ ih =>
    rw [Code.check, tcheckIfChain_apply] at h
    obtain ⟨_, _, hc, _, _, ht, _, _, hf, h⟩ := by simpa only [bind_eq_ok] using h
    rw [he, whenSome_some] at h
    obtain ⟨_, _, hr, ho⟩ := ih h
    exact ⟨_, _, .elseIf hc ht hf he hr, ho⟩

theorem tcheckWhileAsserts_marks (asserts : List Assert) {q q' : Checker}
    (h : tcheckWhileHead.tcheckWhileAsserts asserts q = (.ok (), q')) :
    ∀ n ∈ asserts, (q'.ann n.addr).typeChecked = true := by
  induction asserts generalizing q with
  | nil => exact nofun
  | cons o os ih =>
    unfold tcheckWhileHead.tcheckWhileAsserts at h
    obtain ⟨_, q₁, -, h⟩ := bind_eq_ok.mp h
    obtain ⟨_, q₂, hc, h⟩ := bind_eq_ok.mp h
    rintro n (_ | ⟨_, hn⟩)
    · exact ((tcheckWhileAsserts_keeps os).of_eq h).checked _ (marked_of_setTypeChecked hc)
    · exact ih h n hn

/-- A successful `while` marks its asserts. -/
theorem kWhile_marks_asserts {w : While} {q q' : Checker}
    (h : tcheckStatement (.kWhile w) q = (.ok (), q')) :
    ∀ n ∈ w.asserts, (q'.ann n.addr).typeChecked = true := by
  rw [tcheckStatement_kWhile, bind_eq_ok] at h
  obtain ⟨_, q₁, hh, h⟩ := h
  have hrest := (Keeps.pushed (Keeps.bind
    ((tcheckStatements_keeps w.body).stmt_mono (List.subset_cons_self w.addr _)) fun _ =>
    keeps_stmt_setTypeChecked (List.mem_cons_self w.addr _))).of_eq h
  unfold tcheckWhileHead at hh
  obtain ⟨_, _, -, h⟩ := bind_eq_ok.mp hh
  obtain ⟨_, _, -, h⟩ := bind_eq_ok.mp h
  exact fun n hn => hrest.checked _ (tcheckWhileAsserts_marks _ (require_bind_eq_ok.mp h).2 n hn)

theorem Fresh.unmarked {q q' : Checker} {A : List Addr} {a : Addr} (hf : Fresh q A) (ha : a ∈ A)
    (h : (q'.ann a).core = (q.ann a).core) : (q'.ann a).typeChecked = false := by
  rw [show (q'.ann a).typeChecked = (q.ann a).typeChecked from congrArg Prod.fst h, hf.clean a ha]

theorem typeChecked_iff_ok (s : Stmt) (q : Checker) (hf : Fresh q s.addrs) :
    (((tcheckStatement s q).2.ann s.addr).typeChecked = true ↔
      (tcheckStatement s q).1 = .ok ()) ∧
    (∀ n, s = .kIf n → ∀ a ∈ n.chainAddrs,
      (((tcheckStatement s q).2.ann a).typeChecked = true ↔ (tcheckStatement s q).1 = .ok ())) ∧
    ((tcheckStatement s q).1 = .ok () →
      (∀ path o, Encloses (.stmt s) path o →
        ((tcheckStatement s q).2.ann o.addr).typeChecked = true) ∧
      (∀ path w, Encloses (.stmt s) path (.kWhile w) → ∀ n ∈ w.asserts,
        ((tcheckStatement s q).2.ann n.addr).typeChecked = true)) := by
  rcases h : tcheckStatement s q with ⟨_ | _, q'⟩
  · refine ⟨by simp [hf.unmarked s.addr_mem_addrs (tcheckStatement_error_core hf.nodup h)], ?_,
      nofun⟩
    rintro n rfl a ha
    simp [hf.unmarked (n.chainAddrs_subset ha) (kIf_error_core hf.nodup h a ha)]
  · refine ⟨by simp [tcheckStatement_marks h], ?_, fun _ => ⟨?_, ?_⟩⟩
    · rintro n rfl a ha
      simp [kIf_marks h a ha]
    · intro path o he
      obtain ⟨_, _, hr, ho⟩ := he.reaches_of_ok h
      simpa [Code.check, h] using hr.marked (by rw [ho]; exact tcheckStatement_marks ho)
    · intro path w he n hn
      obtain ⟨_, _, hr, ho⟩ := he.reaches_of_ok h
      simpa [Code.check, h] using hr.marked (by rw [ho]; exact kWhile_marks_asserts ho n hn)

/-- `if true {} else if 7 {}`: the second clause's condition is not a boolean. -/
def ifTrueElseIfSeven : If :=
  .mk 1 ⟨"", 0⟩ (.other (.leaf 2 .keyTrue))
    (some (.mk 3 ⟨"", 0⟩ (.other (.leaf 4 (.numLiteral "7"))) none [] [])) [] []

/-- The second clause fails, so the first, which passed, is not marked either. -/
theorem ifTrueElseIfSeven_unmarked :
    ((tcheckStatement (.kIf ifTrueElseIfSeven) .empty).2.ann 1).typeChecked = false :=
  Bool.eq_false_iff.mpr fun hm => nomatch
    ((typeChecked_iff_ok _ _ (Fresh.empty (by decide))).2.1 _ rfl 1 (by decide)).mp hm

end Puffs
