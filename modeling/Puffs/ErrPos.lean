import Puffs.Reach
/-!
# Where an error is reported

`tcheckStatement` records the position of the statement it is given in `q.errFilename`,
`q.errLine` as it enters it, and nothing restores the position when a nested statement
returns. So after every exit of `tcheckStatement s` the recorded position is that of `s` or of
a statement inside it (`errPos_within`), but not always that of a statement around
the construct that failed: the `If` case checks the condition of an `else if` clause after the
bodies of the clauses before it, under the position of the last statement it checked there
(`ifReturnElseIfSeven_errPos`).
-/
namespace Puffs

open CheckM

/-- `q.errFilename, q.errLine`. -/
def Checker.errPos (q : Checker) : Pos := ⟨q.errFilename, q.errLine⟩

/-- The positions of the statements of `c`. -/
def Code.Positions (c : Code) (p : Pos) : Prop := ∃ path o, Encloses c path o ∧ o.pos = p

theorem Code.Positions.mono {c c' : Code}
    (f : ∀ {path o}, Encloses c path o → ∃ path', Encloses c' path' o) {p : Pos}
    (h : c.Positions p) : c'.Positions p := by
  obtain ⟨path, o, ho, rfl⟩ := h
  obtain ⟨path', ho'⟩ := f ho
  exact ⟨path', o, ho', rfl⟩

/-- The recorded position is kept, or moved into `S`. -/
def posFrame (S : Pos → Prop) : Frame where
  rel q q' := q'.errPos = q.errPos ∨ S q'.errPos
  refl _ := .inl rfl
  trans h₁ h₂ := by
    rcases h₂ with h₂ | h₂
    · rw [h₂]; exact h₁
    · exact .inr h₂

section Frames

variable {S S' : Pos → Prop}

theorem Keeps.pos_mono {m : CheckM α} (h : Keeps (posFrame S) m) (hS : ∀ {p}, S p → S' p) :
    Keeps (posFrame S') m :=
  fun q => (h q).imp_right hS

/-- The checks of a statement's parts other than its statements write only annotations. -/
theorem Keeps.pos_of_ann {A : List Addr} {m : CheckM α} (h : Keeps (annFrame A) m) :
    Keeps (posFrame S) m :=
  fun q => .inl (by rw [(h q).fields]; rfl)

theorem keeps_pos_setAnn {a : Addr} {f : Annot → Annot} :
    Keeps (posFrame S) (update (·.setAnn a f)) := fun _ => .inl rfl

theorem tcheckJump_keeps_pos (n : Jump) : Keeps (posFrame S) (tcheckJump n) := by
  unfold tcheckJump
  refine Keeps.bind (Keeps.read _) fun _ => ?_
  split
  · exact Keeps.fail _
  · exact Keeps.bind (Keeps.ite keeps_pos_setAnn keeps_pos_setAnn) fun _ => keeps_pos_setAnn

theorem Keeps.pos_pushed {w : While} {m : CheckM Unit} (hm : Keeps (posFrame S) m) :
    Keeps (posFrame S) (pushJumpTarget w >>= fun _ => deferring m popJumpTarget) := by
  intro q
  simp only [pushJumpTarget, update_bind, deferring_apply, popJumpTarget]
  exact hm { q with jumpTargets := q.jumpTargets ++ [w] }

/-- What follows the recording of a position in `S` ends with a position in `S`. -/
theorem Keeps.after_setErrPos {p : Pos} {m : CheckM Unit} (hp : S p) (hm : Keeps (posFrame S) m)
    (q : Checker) : S (m (setErrPos p q).2).2.errPos := by
  rcases hm (setErrPos p q).2 with h | h
  · rw [h]; exact hp
  · exact h

end Frames

/-- What the check of `c` does to the recorded position: a statement always leaves one of its
own, a list of statements or an `If` chain keeps it or leaves one of theirs. -/
def PosSpec : Code → Prop
  | .stmt s => ∀ q, (Code.stmt s).Positions (tcheckStatement s q).2.errPos
  | c => Keeps (posFrame c.Positions) c.check

namespace PosSpec

/-- A statement with no statement inside records its own position and then writes only
annotations. -/
theorem leaf {s : Stmt} {A : List Addr} {m : CheckM Unit} (hl : LeafCheck s A m) :
    PosSpec (.stmt s) := fun q => by
  rw [hl.apply]
  exact Keeps.after_setErrPos ⟨[], s, .self s, rfl⟩
    (Keeps.bind hl.keeps.pos_of_ann fun _ => keeps_pos_setAnn) q

theorem kJump (j : Jump) : PosSpec (.stmt (.kJump j)) :=
  Keeps.after_setErrPos ⟨[], _, .self _, rfl⟩ (Keeps.bind (tcheckJump_keeps_pos j) fun _ =>
    keeps_pos_setAnn)

theorem kIf {n : If} (ih : PosSpec (.chain n)) : PosSpec (.stmt (.kIf n)) := fun q => by
  rw [tcheckStatement_kIf]
  exact Keeps.after_setErrPos ⟨[], _, .self _, rfl⟩ (Keeps.bind
    (Keeps.pos_mono ih (.mono fun h => ⟨_, .ifChain h⟩)) fun _ => (markIfChain_keeps n).pos_of_ann) q

theorem kWhile {w : While} (ih : PosSpec (.stmts w.body)) : PosSpec (.stmt (.kWhile w)) :=
  fun q => by
  rw [tcheckStatement_kWhile]
  exact Keeps.after_setErrPos ⟨[], _, .self _, rfl⟩ (Keeps.bind (tcheckWhileHead_keeps _).pos_of_ann
    fun _ => Keeps.pos_pushed (Keeps.bind (Keeps.pos_mono ih (.mono fun h => ⟨_, .whileBody h⟩))
      fun _ => keeps_pos_setAnn)) q

theorem nil : PosSpec (.stmts []) := Keeps.pure ()

theorem cons {s : Stmt} {body : List Stmt} (hs : PosSpec (.stmt s)) (hb : PosSpec (.stmts body)) :
    PosSpec (.stmts (s :: body)) :=
  Keeps.bind (fun q => .inr (Code.Positions.mono (fun h => ⟨_, .head h⟩) (hs q))) fun _ =>
    Keeps.pos_mono hb (.mono fun h => ⟨_, .tail h⟩)

theorem chain {n : If} (ht : PosSpec (.stmts n.bodyIfTrue)) (hf : PosSpec (.stmts n.bodyIfFalse))
    (he : ∀ n', n.elseIf = some n' → PosSpec (.chain n')) : PosSpec (.chain n) := fun q => by
  show (posFrame (Code.chain n).Positions).rel q (tcheckIfChain n q).2
  rw [tcheckIfChain_apply]
  refine Keeps.bind (tcheckIfCondition_keeps _).pos_of_ann (fun _ =>
    Keeps.bind (Keeps.pos_mono ht (.mono fun h => ⟨_, .bodyIfTrue h⟩)) fun _ =>
    Keeps.bind (Keeps.pos_mono hf (.mono fun h => ⟨_, .bodyIfFalse h⟩)) fun _ => ?_) q
  cases hn : n.elseIf with
  | none => exact Keeps.pure _
  | some n' => exact Keeps.pos_mono (he n' hn) (.mono fun h => ⟨_, .elseIf hn h⟩)

end PosSpec

/-- Whatever `tcheckStatement s` returns, from any state, the position it leaves recorded is
that of `s` or of a statement inside it. -/
theorem errPos_within (s : Stmt) (q : Checker) :
    (Code.stmt s).Positions (tcheckStatement s q).2.errPos := by
  have spec : ∀ c, PosSpec c := by
    intro c
    induction c using Code.induction with
    | kAssert n => exact .leaf (leafCheck_kAssert n)
    | kAssign n => exact .leaf (leafCheck_kAssign n)
    | kIf n ih => exact .kIf ih
    | kJump j => exact .kJump j
    | kReturn n => exact .leaf (leafCheck_kReturn n)
    | kVar n => exact .leaf (leafCheck_kVar n)
    | kWhile w ih => exact .kWhile ih
    | nil => exact .nil
    | cons s body hs hb => exact .cons hs hb
    | chain n ht hf he => exact .chain ht hf he
  exact spec (.stmt s) q

/-- `if true { return } else if 7 {}` in `a.puffs`: the `if` on line 1, the `return` on line 2,
the `else if` on line 3. -/
def ifReturnElseIfSeven : Stmt :=
  .kIf (.mk 1 ⟨"a.puffs", 1⟩ (.other (.leaf 2 .keyTrue))
    (some (.mk 4 ⟨"a.puffs", 3⟩ (.other (.leaf 5 (.numLiteral "7"))) none [] []))
    [.kReturn ⟨3, ⟨"a.puffs", 2⟩, none⟩] [])

/-- The condition `7` of the `else if` is rejected, and the error is reported at line 2, the
`return` of the first clause, which was checked before and passed; not at the `if` (line 1)
or at the `else if` (line 3). -/
theorem ifReturnElseIfSeven_errPos :
    (tcheckStatement ifReturnElseIfSeven .empty).1 =
        .error (.ifConditionNotBool (.other (.leaf 5 (.numLiteral "7"))) .ideal) ∧
      (tcheckStatement ifReturnElseIfSeven .empty).2.errPos = ⟨"a.puffs", 2⟩ :=
  ⟨rfl, rfl⟩

end Puffs
