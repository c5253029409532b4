import Puffs.Statements
/-!
# Where a statement check goes

`Reaches c q o path q₁`: checking `c` from the state `q` goes on to check the statement `o`
from the state `q₁`, where `path` lists the `while` loops whose bodies hold `o` inside `c`,
outermost first. There is one constructor for each call `tcheckStatement` makes to check a
statement, a list of them or the next clause of an `If` chain, with what returned before that
call. `Encloses` is the same walk over the syntax, without states.
-/
namespace Puffs

open CheckM

/-- What the statement checker walks: a statement, a list of them, or an `If` chain from one
of its clauses on. -/
inductive Code where
  | stmt (s : Stmt)
  | stmts (body : List Stmt)
  | chain (n : If)

/-- The method that checks a piece of code. -/
def Code.check : Code → CheckM Unit
  | .stmt s => tcheckStatement s
  | .stmts body => tcheckStatements body
  | .chain n => tcheckIfChain n

def Code.addrs : Code → List Addr
  | .stmt s => s.addrs
  | .stmts body => Stmt.addrsList body
  | .chain n => n.addrs

theorem Code.check_keeps (c : Code) : Keeps (stmtFrame c.addrs) c.check := by
  cases c
  exacts [tcheckStatement_keeps _, tcheckStatements_keeps _, tcheckIfChain_keeps _]

/-- Induction over the code the statement checker walks: one case for each kind of statement,
for the lists of them and for an `If` chain, each with the code it checks in turn. -/
theorem Code.induction {motive : Code → Prop}
    (kAssert : ∀ n, motive (.stmt (.kAssert n))) (kAssign : ∀ n, motive (.stmt (.kAssign n)))
    (kIf : ∀ n, motive (.chain n) → motive (.stmt (.kIf n)))
    (kJump : ∀ n, motive (.stmt (.kJump n))) (kReturn : ∀ n, motive (.stmt (.kReturn n)))
    (kVar : ∀ n, motive (.stmt (.kVar n)))
    (kWhile : ∀ w, motive (.stmts w.body) → motive (.stmt (.kWhile w)))
    (nil : motive (.stmts []))
    (cons : ∀ s body, motive (.stmt s) → motive (.stmts body) → motive (.stmts (s :: body)))
    (chain : ∀ n, motive (.stmts n.bodyIfTrue) → motive (.stmts n.bodyIfFalse) →
      (∀ n', n.elseIf = some n' → motive (.chain n')) → motive (.chain n))
    (c : Code) : motive c := by
  have hIf : ∀ a p cond e t f, (∀ n', e = some n' → motive (.chain n')) → motive (.stmts t) →
      motive (.stmts f) → motive (.chain (.mk a p cond e t f)) :=
    fun a p cond e t f he ht hf => chain (.mk a p cond e t f) ht hf he
  have hSome (v : If) (hv : motive (.chain v)) (n' : If) (h : some v = some n') :
      motive (.chain n') := Option.some.inj h ▸ hv
  cases c with
  | stmt s =>
    exact @Stmt.rec (motive ∘ Code.stmt) (motive ∘ Code.chain) (fun w => motive (.stmts w.body))
      (fun e => ∀ n', e = some n' → motive (.chain n')) (motive ∘ Code.stmts) kAssert kAssign kIf
      kJump kReturn kVar kWhile hIf (fun _ _ _ _ _ _ => id) (fun _ h => nomatch h) hSome nil cons s
  | stmts body =>
    exact @Stmt.rec_2 (motive ∘ Code.stmt) (motive ∘ Code.chain) (fun w => motive (.stmts w.body))
      (fun e => ∀ n', e = some n' → motive (.chain n')) (motive ∘ Code.stmts) kAssert kAssign kIf
      kJump kReturn kVar kWhile hIf (fun _ _ _ _ _ _ => id) (fun _ h => nomatch h) hSome nil cons
      body
  | chain n =>
    exact @If.rec (motive ∘ Code.stmt) (motive ∘ Code.chain) (fun w => motive (.stmts w.body))
      (fun e => ∀ n', e = some n' → motive (.chain n')) (motive ∘ Code.stmts) kAssert kAssign kIf
      kJump kReturn kVar kWhile hIf (fun _ _ _ _ _ _ => id) (fun _ h => nomatch h) hSome nil cons n

/-- The statements of `c`, each with the loops around it inside `c`, outermost first. -/
inductive Encloses : Code → List While → Stmt → Prop
  | self (s : Stmt) : Encloses (.stmt s) [] s
  | ifChain {n : If} {path o} : Encloses (.chain n) path o → Encloses (.stmt (.kIf n)) path o
  | whileBody {w : While} {path o} :
      Encloses (.stmts w.body) path o → Encloses (.stmt (.kWhile w)) (w :: path) o
  | head {s : Stmt} {body path o} : Encloses (.stmt s) path o → Encloses (.stmts (s :: body)) path o
  | tail {s : Stmt} {body path o} : Encloses (.stmts body) path o → Encloses (.stmts (s :: body)) path o
  | bodyIfTrue {n : If} {path o} : Encloses (.stmts n.bodyIfTrue) path o → Encloses (.chain n) path o
  | bodyIfFalse {n : If} {path o} :
      Encloses (.stmts n.bodyIfFalse) path o → Encloses (.chain n) path o
  | elseIf {n n' : If} {path o} :
      n.elseIf = some n' → Encloses (.chain n') path o → Encloses (.chain n) path o

/-- The statements a check of `c` from `q` goes on to check, with the states they are checked
from. -/
inductive Reaches : Code → Checker → Stmt → List While → Checker → Prop
  | self (s : Stmt) (q : Checker) : Reaches (.stmt s) q s [] q
  | ifChain {n : If} {q q₁ : Checker} {o path} :
      Reaches (.chain n) (setErrPos n.pos q).2 o path q₁ → Reaches (.stmt (.kIf n)) q o path q₁
  | whileBody {w : While} {q q₁ q₂ : Checker} {o path} :
      tcheckWhileHead w (setErrPos w.pos q).2 = (.ok (), q₁) →
      Reaches (.stmts w.body) (pushJumpTarget w q₁).2 o path q₂ →
      Reaches (.stmt (.kWhile w)) q o (w :: path) q₂
  | head {s : Stmt} {body : List Stmt} {q q₁ : Checker} {o path} :
      Reaches (.stmt s) q o path q₁ → Reaches (.stmts (s :: body)) q o path q₁
  | tail {s : Stmt} {body : List Stmt} {q q' q₁ : Checker} {o path} :
      tcheckStatement s q = (.ok (), q') → Reaches (.stmts body) q' o path q₁ →
      Reaches (.stmts (s :: body)) q o path q₁
  | bodyIfTrue {n : If} {q q₁ q₂ : Checker} {o path} :
      tcheckIfCondition n q = (.ok (), q₁) → Reaches (.stmts n.bodyIfTrue) q₁ o path q₂ →
      Reaches (.chain n) q o path q₂
  | bodyIfFalse {n : If} {q q₁ q₂ q₃ : Checker} {o path} :
      tcheckIfCondition n q = (.ok (), q₁) → tcheckStatements n.bodyIfTrue q₁ = (.ok (), q₂) →
      Reaches (.stmts n.bodyIfFalse) q₂ o path q₃ → Reaches (.chain n) q o path q₃
  | elseIf {n n' : If} {q q₁ q₂ q₃ q₄ : Checker} {o path} :
      tcheckIfCondition n q = (.ok (), q₁) → tcheckStatements n.bodyIfTrue q₁ = (.ok (), q₂) →
      tcheckStatements n.bodyIfFalse q₂ = (.ok (), q₃) → n.elseIf = some n' →
      Reaches (.chain n') q₃ o path q₄ → Reaches (.chain n) q o path q₄

section Equations

variable {q : Checker}

theorem tcheckStatement_kIf (n : If) :
    tcheckStatement (.kIf n) q = (do tcheckIfChain n; markIfChain n) (setErrPos n.pos q).2 := rfl

theorem tcheckStatement_kWhile (w : While) :
    tcheckStatement (.kWhile w) q = (do
      tcheckWhileHead w
      pushJumpTarget w
      deferring (do tcheckStatements w.body; setTypeChecked w.addr) popJumpTarget)
      (setErrPos w.pos q).2 := by
  rcases w with ⟨a, p, l, cond, asserts, body⟩
  rfl

theorem tcheckStatements_cons (s : Stmt) (body : List Stmt) :
    tcheckStatements (s :: body) q = (do tcheckStatement s; tcheckStatements body) q := rfl

theorem tcheckIfChain_apply (n : If) :
    tcheckIfChain n q = (do
      tcheckIfCondition n
      tcheckStatements n.bodyIfTrue
      tcheckStatements n.bodyIfFalse
      whenSome n.elseIf tcheckIfChain) q := by
  rcases n with ⟨a, p, cond, _ | n', t, f⟩ <;> rfl

theorem bind_fst_error {m : CheckM α} {f : α → CheckM β} {e : Err}
    (h : (m q).1 = .error e) : ((m >>= f) q).1 = .error e := by
  rw [bind_apply]
  rcases hm : m q with ⟨_ | _, _⟩ <;> simp_all

theorem bind_of_ok {m : CheckM α} {f : α → CheckM β} {a : α} {q' : Checker}
    (h : m q = (.ok a, q')) : (m >>= f) q = f a q' := by
  rw [bind_apply, h]

theorem bind_of_error {m : CheckM α} {f : α → CheckM β} {e : Err} {q' : Checker}
    (h : m q = (.error e, q')) : (m >>= f) q = (.error e, q') := by
  rw [bind_apply, h]

theorem deferring_eq_ok {m : CheckM α} {f : Checker → Checker} {a : α} {q' : Checker} :
    deferring m f q = (.ok a, q') ↔ ∃ q₁, m q = (.ok a, q₁) ∧ q' = f q₁ := by
  rw [deferring_apply]
  constructor
  · intro h
    simp only [Prod.mk.injEq] at h
    exact ⟨(m q).2, Prod.ext h.1 rfl, h.2.symm⟩
  · rintro ⟨q₁, h, rfl⟩
    rw [h]

/-- The checker is a function: two runs from one state end in one state. -/
theorem eq_of_run {m : CheckM α} {r r' : Except Err α} {q₁ q₂ : Checker} (h : m q = (r, q₁))
    (h' : m q = (r', q₂)) : q₁ = q₂ :=
  congrArg Prod.snd (h.symm.trans h')

end Equations

theorem Reaches.encloses {c : Code} {q q₁ : Checker} {o : Stmt} {path : List While}
    (h : Reaches c q o path q₁) : Encloses c path o := by
  induction h with
  | self s => exact .self s
  | ifChain _ ih => exact .ifChain ih
  | whileBody _ _ ih => exact .whileBody ih
  | head _ ih => exact .head ih
  | tail _ _ ih => exact .tail ih
  | bodyIfTrue _ _ ih => exact .bodyIfTrue ih
  | bodyIfFalse _ _ _ ih => exact .bodyIfFalse ih
  | elseIf _ _ _ he _ ih => exact .elseIf he ih

/-- The nodes of a statement are nodes of the code around it. -/
theorem Encloses.sublist {c : Code} {path : List While} {o : Stmt} (h : Encloses c path o) :
    o.addrs.Sublist c.addrs := by
  induction h with
  | self => exact List.Sublist.refl _
  | ifChain _ ih => exact ih
  | @whileBody w _ _ _ ih => exact ih.trans w.body_sublist
  | head _ ih => exact ih.trans (List.sublist_append_left _ _)
  | tail _ ih => exact ih.trans (List.sublist_append_right _ _)
  | @bodyIfTrue n _ _ _ ih => exact ih.trans ((List.sublist_append_left _ _).trans n.bodies_sublist)
  | @bodyIfFalse n _ _ _ ih =>
    exact ih.trans (((List.sublist_append_left _ _).trans (List.sublist_append_right _ _)).trans
      n.bodies_sublist)
  | elseIf he _ ih => exact ih.trans (If.elseIf_sublist he)

/-- The jump-target stack when a statement is checked: the stack at the start, then the loops
around the statement. -/
theorem Reaches.stack {c : Code} {q q₁ : Checker} {o : Stmt} {path : List While}
    (h : Reaches c q o path q₁) : q₁.jumpTargets = q.jumpTargets ++ path := by
  induction h with
  | self => simp
  | ifChain _ ih => exact ih
  | whileBody hh _ ih =>
    rw [ih]
    simp [pushJumpTarget, ((tcheckWhileHead_keeps _).of_eq hh).stmt.jumpTargets, setErrPos]
  | head _ ih => exact ih
  | tail hs _ ih => rw [ih, ((tcheckStatement_keeps _).of_eq hs).jumpTargets]
  | bodyIfTrue hc _ ih => rw [ih, ((tcheckIfCondition_keeps _).of_eq hc).stmt.jumpTargets]
  | bodyIfFalse hc ht _ ih =>
    rw [ih, ((tcheckStatements_keeps _).of_eq ht).jumpTargets,
      ((tcheckIfCondition_keeps _).of_eq hc).stmt.jumpTargets]
  | elseIf hc ht hf _ _ ih =>
    rw [ih, ((tcheckStatements_keeps _).of_eq hf).jumpTargets,
      ((tcheckStatements_keeps _).of_eq ht).jumpTargets,
      ((tcheckIfCondition_keeps _).of_eq hc).stmt.jumpTargets]

/-- An error of a statement on the walk is the error of the whole check, which ends in the
state that statement's check left, up to the jump-target stack. -/
theorem Reaches.check_of_error {c : Code} {q q₁ : Checker} {o : Stmt} {path : List While}
    {e : Err} (h : Reaches c q o path q₁) (he : (tcheckStatement o q₁).1 = .error e) :
    ∃ S, c.check q = (.error e, { (tcheckStatement o q₁).2 with jumpTargets := S }) := by
  induction h with
  | self s q => exact ⟨_, Prod.ext he rfl⟩
  | ifChain _ ih =>
    rw [Code.check, tcheckStatement_kIf]
    exact (ih he).imp fun _ => bind_of_error
  | whileBody hh _ ih =>
    obtain ⟨S, hS⟩ := ih he
    simp only [Code.check, pushJumpTarget, update_apply] at hS
    rw [Code.check, tcheckStatement_kWhile, bind_of_ok hh]
    simp only [pushJumpTarget, update_bind, deferring_apply]
    rw [bind_of_error hS]
    exact ⟨S.dropLast, rfl⟩
  | head _ ih => exact (ih he).imp fun _ => bind_of_error
  | tail hs _ ih =>
    rw [Code.check, tcheckStatements_cons, bind_of_ok hs]
    exact ih he
  | bodyIfTrue hc _ ih =>
    rw [Code.check, tcheckIfChain_apply, bind_of_ok hc]
    exact (ih he).imp fun _ => bind_of_error
  | bodyIfFalse hc ht _ ih =>
    rw [Code.check, tcheckIfChain_apply, bind_of_ok hc, bind_of_ok ht]
    exact (ih he).imp fun _ => bind_of_error
  | elseIf hc ht hf he' _ ih =>
    rw [Code.check, tcheckIfChain_apply, bind_of_ok hc, bind_of_ok ht, bind_of_ok hf, he']
    exact ih he

theorem Reaches.error {c : Code} {q q₁ : Checker} {o : Stmt} {path : List While} {e : Err}
    (h : Reaches c q o path q₁) (he : (tcheckStatement o q₁).1 = .error e) :
    (c.check q).1 = .error e := by
  obtain ⟨S, hS⟩ := h.check_of_error he
  rw [hS]

/-- No error is swallowed, and nothing runs after it: when a statement that the check of `c`
goes on to check fails, the whole check fails with the same error and ends in the state that
statement's check left, with the loops around it popped off the jump-target stack again. -/
theorem error_propagates {c : Code} {q q₁ : Checker} {o : Stmt} {path : List While} {e : Err}
    (h : Reaches c q o path q₁) (he : (tcheckStatement o q₁).1 = .error e) :
    c.check q = (.error e, { (tcheckStatement o q₁).2 with jumpTargets := q.jumpTargets }) := by
  obtain ⟨S, hS⟩ := h.check_of_error he
  have hk : S = q.jumpTargets := by simpa [hS] using (Code.check_keeps c q).jumpTargets
  rwa [← hk]

/-- `while true { return x }`, with `x` not declared. -/
def whileReturnX : While :=
  .mk 1 ⟨"", 1⟩ .zero (.other (.leaf 2 .keyTrue)) []
    [.kReturn ⟨3, ⟨"", 2⟩, some (.other (.leaf 4 (.ident "x")))⟩]

/-- The `return` fails inside the loop, and so does the loop, ending with the position of the
`return`, on line 2, and with the loop popped off the stack. -/
theorem whileReturnX_error :
    ((Code.stmt (.kWhile whileReturnX)).check .empty).1 = .error (.unrecognizedIdentifier (.ident "x")) ∧
      ((Code.stmt (.kWhile whileReturnX)).check .empty).2.errLine = 2 ∧
      ((Code.stmt (.kWhile whileReturnX)).check .empty).2.jumpTargets = [] := by
  rw [error_propagates (c := .stmt (.kWhile whileReturnX)) (q := .empty)
    (.whileBody rfl (.head (.self _ _))) rfl]
  exact ⟨rfl, rfl, rfl⟩

/-- `while true { break }`. -/
def whileTrueBreak : While :=
  .mk 1 ⟨"", 0⟩ .zero (.other (.leaf 2 .keyTrue)) [] [.kJump ⟨3, ⟨"", 0⟩, .keyBreak, .zero⟩]

end Puffs
