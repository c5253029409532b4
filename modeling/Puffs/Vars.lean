import Puffs.Marks
/-!
# The var pre-pass

`tcheckVars` registers the local variables of a function body before `tcheckStatement` checks
it: each `Var` gets its type checked and enters `LocalVars`. It descends into the two lists of
every node (`SubLists`), so into the bodies of an `If` but not into its `else if` clause, which
hangs off the `If`'s `RHS`. `tcheckStatement` checks that clause all the same, and meets its
`Var`s unregistered.

A successful pre-pass registers exactly the `Var`s it visits (`Stmt.registeredVarsList`), as
an insertion into `LocalVars` under names that were free and are pairwise distinct, each with
its declared type marked `TypeChecked`; it leaves every other name, the function, the structs
and the jump-target stack alone (`tcheckVarsList_registers`). Conversely it fails only on a name
already taken or a declared type its check rejects (`tcheckVarsList_passes`). Nothing the
statement checker does on its way to a statement changes the names in scope or clears a mark,
so it finds each of these `Var`s registered and marked when it reaches it.
-/
namespace Puffs

open CheckM

/-- `if true {} else if true { var x u8 }`. -/
def elseIfVar : List Stmt :=
  [.kIf (.mk 1 ⟨"", 0⟩ (.other (.leaf 2 .keyTrue))
    (some (.mk 3 ⟨"", 0⟩ (.other (.leaf 4 .keyTrue)) none
      [.kVar ⟨5, ⟨"", 0⟩, .ident "x", .named 6 .zero .keyU8 none none, none⟩] []))
    [] [])]

/-- The pre-pass accepts the body without registering `x`, and checking the body then stops at
the `Var` with the internal error. -/
theorem elseIfVar_unregistered :
    (tcheckVarsList elseIfVar .empty).1 = .ok () ∧
      (tcheckVarsList elseIfVar .empty).2.localVars (.ident "x") = none ∧
      (tcheckStatements elseIfVar (tcheckVarsList elseIfVar .empty).2).1 =
        .error (.uncheckedTypeExpr (.named 6 .zero .keyU8 none none)) :=
  ⟨rfl, rfl, rfl⟩

mutual
/-- The `Var`s `tcheckVars` visits, in its order: through the `SubLists` of each node, so
through an `If`'s two bodies and a `While`'s body, and never into an `else if` clause. -/
def Stmt.registeredVars : Stmt → List Var
  | .kVar n => [n]
  | .kIf (.mk _ _ _ _ bodyIfTrue bodyIfFalse) =>
    Stmt.registeredVarsList bodyIfTrue ++ Stmt.registeredVarsList bodyIfFalse
  | .kWhile (.mk _ _ _ _ _ body) => Stmt.registeredVarsList body
  | .kAssert _ | .kAssign _ | .kJump _ | .kReturn _ => []

def Stmt.registeredVarsList : List Stmt → List Var
  | [] => []
  | o :: os => o.registeredVars ++ Stmt.registeredVarsList os
end

/-- The effect of a successful pre-pass from `q` to `q'` that registered `vs`: the names of
`vs` are pairwise distinct and were free in `q`; each now gives its declared type, marked
`TypeChecked`; every other name gives what it gave; annotations changed only on the nodes of
the declared types, with no `TypeChecked` mark cleared; the function, the structs and the
jump-target stack are as they were. -/
structure Registers (vs : List Var) (q q' : Checker) : Prop where
  distinct : vs.Pairwise fun v w => v.name ≠ w.name
  fresh : ∀ v ∈ vs, q.localVars v.name = none
  found : ∀ v ∈ vs, q'.localVars v.name = some v.xType
  others : ∀ x, (∀ v ∈ vs, v.name ≠ x) → q'.localVars x = q.localVars x
  typeChecked : ∀ v ∈ vs, (q'.ann v.xType.addr).typeChecked = true
  outside : ∀ a, (∀ v ∈ vs, a ∉ v.xType.addrs) → q'.ann a = q.ann a
  checked : ∀ a, (q.ann a).typeChecked = true → (q'.ann a).typeChecked = true
  func : q'.func = q.func
  structs : q'.structs = q.structs
  jumpTargets : q'.jumpTargets = q.jumpTargets

namespace Registers

variable {vs ws : List Var} {q₁ q₂ q₃ : Checker}

/-- Moving the error position registers nothing. -/
theorem moved (q : Checker) (filename : String) (line : Nat) :
    Registers [] q { q with errFilename := filename, errLine := line } where
  distinct := .nil
  fresh _ h := nomatch h
  found _ h := nomatch h
  others _ _ := rfl
  typeChecked _ h := nomatch h
  outside _ _ := rfl
  checked _ := id
  func := rfl
  structs := rfl
  jumpTargets := rfl

/-- Two registrations in a row register both lists: a name the first registered is taken when
the second registers its own, so the names stay distinct. -/
theorem append (h₁ : Registers vs q₁ q₂) (h₂ : Registers ws q₂ q₃) :
    Registers (vs ++ ws) q₁ q₃ := by
  have hne : ∀ v ∈ vs, ∀ w ∈ ws, v.name ≠ w.name := fun v hv w hw he => by
    simpa [he, h₂.fresh w hw] using h₁.found v hv
  refine ⟨List.pairwise_append.mpr ⟨h₁.distinct, h₂.distinct, hne⟩, fun v hv => ?_, fun v hv => ?_,
    fun x hx => ?_, fun v hv => ?_, fun a ha => ?_, fun a h => h₂.checked a (h₁.checked a h),
    h₂.func.trans h₁.func, h₂.structs.trans h₁.structs, h₂.jumpTargets.trans h₁.jumpTargets⟩
  · rcases List.mem_append.mp hv with hv | hw
    · exact h₁.fresh v hv
    · rw [← h₁.others _ fun u hu => hne u hu v hw]; exact h₂.fresh v hw
  · rcases List.mem_append.mp hv with hv | hw
    · rw [h₂.others _ fun w hw => (hne v hv w hw).symm]; exact h₁.found v hv
    · exact h₂.found v hw
  · rw [h₂.others x fun w hw => hx w (List.mem_append_right _ hw),
      h₁.others x fun v hv => hx v (List.mem_append_left _ hv)]
  · rcases List.mem_append.mp hv with hv | hw
    · exact h₂.checked _ (h₁.typeChecked v hv)
    · exact h₂.typeChecked v hw
  · rw [h₂.outside a fun w hw => ha w (List.mem_append_right _ hw),
      h₁.outside a fun v hv => ha v (List.mem_append_left _ hv)]

end Registers

/-- Every successful run of `m` registers `vs`. -/
def Registering (vs : List Var) (m : CheckM Unit) : Prop :=
  ∀ ⦃q q'⦄, m q = (.ok (), q') → Registers vs q q'

namespace Registering

variable {vs ws : List Var} {m : CheckM Unit}

theorem pure : Registering [] (Pure.pure ()) := by
  intro q q' h
  obtain ⟨-, rfl⟩ := pure_eq.mp h
  exact Registers.moved _ _ _

theorem bind {f : Unit → CheckM Unit} (hm : Registering vs m) (hf : Registering ws (f ())) :
    Registering (vs ++ ws) (m >>= f) := by
  intro q q' h
  obtain ⟨⟨⟩, _, h₁, h₂⟩ := bind_eq_ok.mp h
  exact (hm h₁).append (hf h₂)

theorem after_setErrPos {p : Pos} (hm : Registering vs m) :
    Registering vs (setErrPos p >>= fun _ => m) := by
  intro q q' h
  exact (Registers.moved q _ _).append (hm h)

/-- The `KVar` case: the name was free, and the type passed its check, which marks it. -/
theorem registerVar (n : Var) : Registering [n] (Puffs.registerVar n) := by
  intro q q' h
  simp only [Puffs.registerVar, read_bind, require_bind_eq_ok, Option.isNone_iff_eq_none] at h
  obtain ⟨hfree, h⟩ := h
  obtain ⟨⟨⟩, q₁, ht, h⟩ := bind_eq_ok.mp h
  obtain ⟨-, rfl⟩ := Prod.mk.inj h
  have K := (tcheckTypeExpr_keeps n.xType 0).of_eq ht
  refine ⟨List.pairwise_singleton _ _, by simpa using hfree, by simp, fun x hx => ?_,
    by simpa using tcheckTypeExpr_marks ht, fun a ha => K.outside a (by simpa using ha),
    K.checked, K.func, K.structs, show q₁.jumpTargets = _ by rw [K.fields]⟩
  exact (Function.update_noteq (hx n (List.mem_singleton_self n)).symm _ _).trans
    (congrFun K.localVars x)

theorem tcheckVarsArgs (args : List Arg) : Registering [] (Puffs.tcheckVarsArgs args) := by
  induction args with
  | nil => exact pure
  | cons o os ih => exact after_setErrPos ih

theorem tcheckVarsAsserts (asserts : List Assert) :
    Registering [] (Puffs.tcheckVarsAsserts asserts) := by
  induction asserts with
  | nil => exact pure
  | cons o os ih => exact (after_setErrPos (tcheckVarsArgs _)).bind ih

end Registering

mutual
/-- A successful pre-pass over a statement registers the `Var`s it visits. -/
theorem tcheckVars_registers (s : Stmt) : Registering s.registeredVars (tcheckVars s) := by
  unfold tcheckVars
  refine Registering.after_setErrPos ?_
  match s with
  | .kVar n => exact Registering.registerVar n
  | .kAssert n => exact Registering.tcheckVarsArgs _
  | .kIf (.mk a p cond elseIf t f) =>
    exact (tcheckVarsList_registers t).bind (tcheckVarsList_registers f)
  | .kWhile (.mk a p l cond asserts body) =>
    exact (Registering.tcheckVarsAsserts _).bind (tcheckVarsList_registers body)
  | .kAssign _ | .kJump _ | .kReturn _ => exact Registering.pure

theorem tcheckVarsList_registers (l : List Stmt) :
    Registering (Stmt.registeredVarsList l) (tcheckVarsList l) := by
  match l with
  | [] => exact Registering.pure
  | o :: os =>
    unfold tcheckVarsList
    exact (tcheckVars_registers o).bind (tcheckVarsList_registers os)
end

/-- What lets a pre-pass that visits `vs` go through from `q`: the names are pairwise distinct
and free in `q`, and each declared type passes its check from any state. -/
structure CanRegister (vs : List Var) (q : Checker) : Prop where
  distinct : vs.Pairwise fun v w => v.name ≠ w.name
  fresh : ∀ v ∈ vs, q.localVars v.name = none
  accepted : ∀ v ∈ vs, ∀ q₁, (tcheckTypeExpr v.xType 0 q₁).1 = .ok ()

namespace CanRegister

variable {vs ws : List Var} {q q₁ : Checker}

theorem left (h : CanRegister (vs ++ ws) q) : CanRegister vs q :=
  ⟨(List.pairwise_append.1 h.distinct).1, fun v hv => h.fresh v (List.mem_append_left _ hv),
    fun v hv => h.accepted v (List.mem_append_left _ hv)⟩

/-- After registering `vs`, the names of `ws` are still free. -/
theorem right (h : CanRegister (vs ++ ws) q) (R : Registers vs q q₁) : CanRegister ws q₁ := by
  obtain ⟨-, hw, hne⟩ := List.pairwise_append.1 h.distinct
  refine ⟨hw, fun w hw' => ?_, fun w hw' => h.accepted w (List.mem_append_right _ hw')⟩
  rw [R.others _ fun v hv => hne v hv w hw']
  exact h.fresh w (List.mem_append_right _ hw')

end CanRegister

/-- `m` succeeds from every state in which `vs` can be registered. -/
def Passes (vs : List Var) (m : CheckM Unit) : Prop :=
  ∀ ⦃q⦄, CanRegister vs q → ∃ q', m q = (.ok (), q')

namespace Passes

variable {vs ws : List Var} {m : CheckM Unit}

theorem pure : Passes [] (Pure.pure ()) := fun q _ => ⟨q, rfl⟩

theorem bind {f : Unit → CheckM Unit} (hm : Passes vs m) (hr : Registering vs m)
    (hf : Passes ws (f ())) : Passes (vs ++ ws) (m >>= f) := fun q h => by
  obtain ⟨q₁, h₁⟩ := hm h.left
  obtain ⟨q₂, h₂⟩ := hf (h.right (hr h₁))
  exact ⟨q₂, by rw [bind_of_ok h₁, h₂]⟩

theorem after_setErrPos {p : Pos} (hm : Passes vs m) : Passes vs (setErrPos p >>= fun _ => m) :=
  fun _ h => hm ⟨h.distinct, h.fresh, h.accepted⟩

/-- The `KVar` case: the name is free, and the type passes. -/
theorem registerVar (n : Var) : Passes [n] (Puffs.registerVar n) := fun q h => by
  have ht : tcheckTypeExpr n.xType 0 q = (.ok (), _) :=
    Prod.ext (h.accepted n (List.mem_singleton_self n) q) rfl
  have hf : require (q.localVars n.name).isNone (.duplicateVar n.name) q = (.ok (), q) := by
    rw [h.fresh n (List.mem_singleton_self n)]
    rfl
  apply Exists.intro
  simp only [Puffs.registerVar, read_bind]
  rw [bind_of_ok hf, bind_of_ok ht]
  rfl

theorem tcheckVarsArgs (args : List Arg) : Passes [] (Puffs.tcheckVarsArgs args) := by
  induction args with
  | nil => exact pure
  | cons o os ih => exact after_setErrPos ih

theorem tcheckVarsAsserts (asserts : List Assert) : Passes [] (Puffs.tcheckVarsAsserts asserts) := by
  induction asserts with
  | nil => exact pure
  | cons o os ih =>
    exact (after_setErrPos (tcheckVarsArgs _)).bind
      (Registering.after_setErrPos (Registering.tcheckVarsArgs _)) ih

end Passes

mutual
/-- A pre-pass over a statement fails only on a name already taken or a rejected type. -/
theorem tcheckVars_passes (s : Stmt) : Passes s.registeredVars (tcheckVars s) := by
  unfold tcheckVars
  refine Passes.after_setErrPos ?_
  match s with
  | .kVar n => exact Passes.registerVar n
  | .kAssert n => exact Passes.tcheckVarsArgs _
  | .kIf (.mk a p cond elseIf t f) =>
    exact (tcheckVarsList_passes t).bind (tcheckVarsList_registers t) (tcheckVarsList_passes f)
  | .kWhile (.mk a p l cond asserts body) =>
    exact (Passes.tcheckVarsAsserts _).bind (Registering.tcheckVarsAsserts _)
      (tcheckVarsList_passes body)
  | .kAssign _ | .kJump _ | .kReturn _ => exact Passes.pure

theorem tcheckVarsList_passes (l : List Stmt) :
    Passes (Stmt.registeredVarsList l) (tcheckVarsList l) := by
  match l with
  | [] => exact Passes.pure
  | o :: os =>
    unfold tcheckVarsList
    exact (tcheckVars_passes o).bind (tcheckVars_registers o) (tcheckVarsList_passes os)
end

/-- The var pre-pass over a function body fails only on a name already taken or a declared type
that its check rejects: it succeeds whenever the `Var`s it visits can be registered, and a
successful pre-pass is an insertion into `LocalVars` of exactly those `Var`s, as `Registers`
spells out. -/
theorem prePass_registers (body : List Stmt) (q : Checker) :
    (∀ q', tcheckVarsList body q = (.ok (), q') → Registers (Stmt.registeredVarsList body) q q') ∧
      (CanRegister (Stmt.registeredVarsList body) q → ∃ q', tcheckVarsList body q = (.ok (), q')) :=
  ⟨fun _ h => tcheckVarsList_registers body h, fun h => tcheckVarsList_passes body h⟩

/-- `var x u8`, on line 2. -/
def varX : Var := ⟨3, ⟨"", 2⟩, .ident "x", .named 4 .zero .keyU8 none none, none⟩

/-- `while true { var x u8 }`. -/
def whileTrueVarX : While := .mk 1 ⟨"", 1⟩ .zero (.other (.leaf 2 .keyTrue)) [] [.kVar varX]

/-- `while true { var x u8 }` then `var y bool`. -/
def whileVarsBody : List Stmt :=
  [.kWhile whileTrueVarX, .kVar ⟨5, ⟨"", 3⟩, .ident "y", .named 6 .zero .keyBool none none, none⟩]

/-- `x` and `y` are distinct, free and of built-in types, so the pre-pass goes through, and
registers both. -/
theorem whileVarsBody_registers :
    Registers (Stmt.registeredVarsList whileVarsBody) .empty (tcheckVarsList whileVarsBody .empty).2 ∧
      ∃ q', tcheckVarsList whileVarsBody .empty = (.ok (), q') :=
  ⟨(prePass_registers whileVarsBody .empty).1 _ rfl,
    (prePass_registers whileVarsBody .empty).2 ⟨by decide, fun _ _ => rfl, by
      simp only [whileVarsBody, whileTrueVarX, varX, Stmt.registeredVarsList, Stmt.registeredVars,
        List.append_nil, List.singleton_append, List.mem_cons, List.mem_singleton, List.not_mem_nil, or_false]
      rintro v (rfl | rfl) q₁ <;> rfl⟩⟩

/-- The names in scope as they were, and no `TypeChecked` mark cleared. -/
structure InScope (q q' : Checker) : Prop where
  env : q'.env = q.env
  checked : ∀ a, (q.ann a).typeChecked = true → (q'.ann a).typeChecked = true

theorem InScope.trans {q₁ q₂ q₃ : Checker} (h₁ : InScope q₁ q₂) (h₂ : InScope q₂ q₃) :
    InScope q₁ q₃ :=
  ⟨h₂.env.trans h₁.env, fun a h => h₂.checked a (h₁.checked a h)⟩

theorem StmtFrame.inScope {A : List Addr} {q q' : Checker} (h : StmtFrame A q q') : InScope q q' :=
  ⟨h.env, h.checked⟩

/-- On its way to a statement, the statement checker changes no name in scope and clears no
mark. -/
theorem Reaches.inScope {c : Code} {q q₁ : Checker} {o : Stmt} {path : List While}
    (h : Reaches c q o path q₁) : InScope q q₁ := by
  induction h with
  | self => exact ⟨rfl, fun _ => id⟩
  | ifChain _ ih => exact ⟨ih.env, ih.checked⟩
  | whileBody hh _ ih =>
    have hw := ((tcheckWhileHead_keeps _).of_eq hh).stmt
    exact ⟨ih.env.trans hw.env, fun a h => ih.checked a (hw.checked a h)⟩
  | head _ ih => exact ih
  | tail hs _ ih => exact ((tcheckStatement_keeps _).of_eq hs).inScope.trans ih
  | bodyIfTrue hc _ ih => exact ((tcheckIfCondition_keeps _).of_eq hc).stmt.inScope.trans ih
  | bodyIfFalse hc ht _ ih =>
    exact (((tcheckIfCondition_keeps _).of_eq hc).stmt.inScope.trans
      ((tcheckStatements_keeps _).of_eq ht).inScope).trans ih
  | elseIf hc ht hf _ _ ih =>
    exact ((((tcheckIfCondition_keeps _).of_eq hc).stmt.inScope.trans
      ((tcheckStatements_keeps _).of_eq ht).inScope).trans
      ((tcheckStatements_keeps _).of_eq hf).inScope).trans ih

/-- When the statement checker reaches a `Var` that a successful pre-pass over the body
registered, the `Var`'s name gives its declared type, and the type is marked `TypeChecked`:
the `KVar` case's guard passes. On distinct nodes, what the check of the body leaves on the
`Var`'s nodes is what checking the `Var` from there leaves. -/
theorem registered_var_found {body : List Stmt} {q₀ q₁ q₂ : Checker} {v : Var}
    {path : List While} (hp : tcheckVarsList body q₀ = (.ok (), q₁))
    (hv : v ∈ Stmt.registeredVarsList body) (hr : Reaches (.stmts body) q₁ (.kVar v) path q₂) :
    q₂.localVars v.name = some v.xType ∧ (q₂.ann v.xType.addr).typeChecked = true ∧
      ((Stmt.addrsList body).Nodup → ∀ a ∈ (Stmt.kVar v).addrs,
        ((tcheckStatements body q₁).2.ann a).core = ((tcheckStatement (.kVar v) q₂).2.ann a).core) := by
  have R := tcheckVarsList_registers body hp
  have I := hr.inScope
  exact ⟨(congrFun (congrArg Env.localVars I.env) v.name).trans (R.found v hv),
    I.checked _ (R.typeChecked v hv), fun hn _ ha => hr.core_eq hn ha⟩

/-- Checking `whileVarsBody` after its pre-pass reaches `x` inside the loop, in scope and
marked, and leaves on its nodes what checking it from there leaves. -/
theorem whileVarsBody_x_found :
    ∃ q₂, Reaches (.stmts whileVarsBody) (tcheckVarsList whileVarsBody .empty).2 (.kVar varX)
        [whileTrueVarX] q₂ ∧
      q₂.localVars varX.name = some varX.xType ∧ (q₂.ann varX.xType.addr).typeChecked = true ∧
      ∀ a ∈ (Stmt.kVar varX).addrs,
        ((tcheckStatements whileVarsBody (tcheckVarsList whileVarsBody .empty).2).2.ann a).core =
          ((tcheckStatement (.kVar varX) q₂).2.ann a).core :=
  have hr : Reaches (.stmts whileVarsBody) (tcheckVarsList whileVarsBody .empty).2 (.kVar varX)
      [whileTrueVarX] _ := .head (.whileBody rfl (.head (.self _ _)))
  have h := @registered_var_found whileVarsBody .empty _ _ varX _ rfl (List.mem_cons_self _ _) hr
  ⟨_, hr, h.1, h.2.1, h.2.2 (by decide)⟩

end Puffs
