import Puffs.Check.Statement
import Puffs.Nodes
import Mathlib.Data.List.Nodup
/-!
# Reasoning about checker methods

`Keeps F m`: every exit of `m`, by return or by error, relates the state before to the state
after by `F`, a relation closed under sequencing. Frame conditions are stated this way and
assembled along the `do` blocks of the methods. The `_eq_ok` lemmas invert a successful run
of the monad's building blocks, so that a successful method call unfolds into the calls it
made and the checks that passed.
-/
namespace Puffs

open CheckM

/-- A reflexive, transitive relation between the state before and the state after. -/
structure Frame where
  rel : Checker → Checker → Prop
  refl : ∀ q, rel q q
  trans : ∀ {q₁ q₂ q₃}, rel q₁ q₂ → rel q₂ q₃ → rel q₁ q₃

/-- Every exit of `m` relates the states by `F`. -/
def Keeps (F : Frame) (m : CheckM α) : Prop := ∀ q, F.rel q (m q).2

namespace Keeps

variable {F : Frame}

theorem pure (a : α) : Keeps F (Pure.pure a : CheckM α) := fun q => F.refl q

theorem fail (e : Err) : Keeps F (CheckM.fail e : CheckM α) := fun q => F.refl q

theorem read (f : Checker → α) : Keeps F (CheckM.read f) := fun q => F.refl q

theorem require (ok : Bool) (e : Err) : Keeps F (CheckM.require ok e) := by
  unfold CheckM.require
  split <;> intro q <;> exact F.refl q

theorem bind {m : CheckM α} {f : α → CheckM β} (hm : Keeps F m) (hf : ∀ a, Keeps F (f a)) :
    Keeps F (m >>= f) := by
  intro q
  have h₁ := hm q
  rw [bind_apply]
  rcases h : m q with ⟨_ | a, q₁⟩ <;> rw [h] at h₁
  · exact h₁
  · exact F.trans h₁ (hf a q₁)

theorem ofExcept (r : Except Err α) : Keeps F (CheckM.ofExcept r) := fun q => F.refl q

theorem ite {c : Prop} {_ : Decidable c} {a b : CheckM α} (ha : Keeps F a) (hb : Keeps F b) :
    Keeps F (if c then a else b) := by
  split <;> assumption

theorem whenSome (x : Option α) {f : α → CheckM Unit} (hf : ∀ a, Keeps F (f a)) :
    Keeps F (CheckM.whenSome x f) := by
  cases x
  · exact pure _
  · exact hf _

theorem mTypeOf (e : Expr) : Keeps F (Puffs.mTypeOf e) := by
  intro q
  unfold Puffs.mTypeOf
  split <;> exact F.refl q

end Keeps

section Inversion

variable {q q' : Checker}

theorem bind_eq_ok {m : CheckM α} {f : α → CheckM β} {b : β} :
    (m >>= f) q = (.ok b, q') ↔ ∃ a q₁, m q = (.ok a, q₁) ∧ f a q₁ = (.ok b, q') := by
  rw [bind_apply]
  constructor
  · intro h
    rcases hm : m q with ⟨_ | a, q₁⟩ <;> rw [hm] at h
    · cases h
    · exact ⟨a, q₁, rfl, h⟩
  · rintro ⟨a, q₁, hm, h⟩
    rw [hm]; exact h

theorem bind_eq_error {m : CheckM α} {f : α → CheckM β} {e : Err} :
    (m >>= f) q = (.error e, q') ↔
      m q = (.error e, q') ∨ ∃ a q₁, m q = (.ok a, q₁) ∧ f a q₁ = (.error e, q') := by
  rw [bind_apply]
  rcases hm : m q with ⟨_ | a, q₁⟩
  · simp
  · refine ⟨fun h => .inr ⟨a, q₁, rfl, h⟩, ?_⟩
    rintro (h | ⟨_, _, h, h'⟩) <;> cases h
    exact h'

@[simp] theorem pure_eq {a : α} {r : Except Err α} :
    (Pure.pure a : CheckM α) q = (r, q') ↔ r = .ok a ∧ q' = q := by
  simp only [pure_apply, Prod.mk.injEq]
  exact ⟨fun ⟨h, h'⟩ => ⟨h.symm, h'.symm⟩, fun ⟨h, h'⟩ => ⟨h.symm, h'.symm⟩⟩

@[simp] theorem require_eq_ok {ok : Bool} {e : Err} {u : Unit} :
    require ok e q = (.ok u, q') ↔ ok = true ∧ q' = q := by
  unfold require
  cases ok <;> simp [eq_comm]

@[simp] theorem require_eq_error {ok : Bool} {e e' : Err} :
    require ok e q = (.error e', q') ↔ ok = false ∧ e' = e ∧ q' = q := by
  unfold require
  cases ok <;> simp [eq_comm]

@[simp] theorem mTypeOf_eq_ok {x : Expr} {t : MType} :
    mTypeOf x q = (.ok t, q') ↔ (q.ann x.addr).mType = some t ∧ q' = q := by
  unfold mTypeOf
  cases h : (q.ann x.addr).mType <;> simp [eq_comm]

@[simp] theorem pure_bind (a : α) (f : α → CheckM β) :
    (Pure.pure a >>= f) q = f a q := rfl

@[simp] theorem read_bind (g : Checker → α) (f : α → CheckM β) :
    (read g >>= f) q = f (g q) q := rfl

@[simp] theorem update_bind (g : Checker → Checker) (f : Unit → CheckM β) :
    (update g >>= f) q = f () (g q) := rfl

@[simp] theorem require_bind_eq_ok {ok : Bool} {e : Err} {f : Unit → CheckM β} {b : β} :
    (require ok e >>= f) q = (.ok b, q') ↔ ok = true ∧ f () q = (.ok b, q') := by
  unfold require
  cases ok <;> simp [bind_apply]

@[simp] theorem mTypeOf_bind_eq_ok {x : Expr} {f : MType → CheckM β} {b : β} :
    (mTypeOf x >>= f) q = (.ok b, q') ↔ ∃ t, (q.ann x.addr).mType = some t ∧ f t q = (.ok b, q') := by
  rw [bind_apply]
  unfold mTypeOf
  cases (q.ann x.addr).mType <;> simp

@[simp] theorem whenSome_none (f : α → CheckM Unit) : whenSome none f = Pure.pure () := rfl
@[simp] theorem whenSome_some (a : α) (f : α → CheckM Unit) : whenSome (some a) f = f a := rfl

end Inversion

/-- The fields of an annotation that only `Jump` statements write. -/
def Annot.jumpFields (x : Annot) : Option Addr × Bool × Bool :=
  (x.jumpTarget, x.hasBreak, x.hasContinue)

/-- A method that changes only annotations, only at the addresses `A`, never clears
`TypeChecked` and leaves the fields of jumps alone. -/
structure AnnFrame (A : List Addr) (q q' : Checker) : Prop where
  fields : q' = { q with ann := q'.ann }
  outside : ∀ a ∉ A, q'.ann a = q.ann a
  checked : ∀ a, (q.ann a).typeChecked → (q'.ann a).typeChecked
  jumps : ∀ a, (q'.ann a).jumpFields = (q.ann a).jumpFields

def annFrame (A : List Addr) : Frame where
  rel := AnnFrame A
  refl _ := ⟨rfl, fun _ _ => rfl, fun _ => id, fun _ => rfl⟩
  trans := by
    rintro q₁ q₂ q₃ ⟨h₁, h₁', h₁'', j₁⟩ ⟨h₂, h₂', h₂'', j₂⟩
    exact ⟨by rw [h₂, h₁], fun a ha => by rw [h₂' a ha, h₁' a ha], fun a h => h₂'' a (h₁'' a h),
      fun a => (j₂ a).trans (j₁ a)⟩

theorem AnnFrame.mono {A B : List Addr} {q q' : Checker} (h : AnnFrame A q q') (hAB : A ⊆ B) :
    AnnFrame B q q' :=
  ⟨h.fields, fun a ha => h.outside a fun h' => ha (hAB h'), h.checked, h.jumps⟩

theorem AnnFrame.localVars {A : List Addr} {q q' : Checker} (h : AnnFrame A q q') :
    q'.localVars = q.localVars := by rw [h.fields]

theorem AnnFrame.func {A : List Addr} {q q' : Checker} (h : AnnFrame A q q') :
    q'.func = q.func := by rw [h.fields]

theorem AnnFrame.structs {A : List Addr} {q q' : Checker} (h : AnnFrame A q q') :
    q'.structs = q.structs := by rw [h.fields]

theorem AnnFrame.trans {A : List Addr} {q₁ q₂ q₃ : Checker} (h₁ : AnnFrame A q₁ q₂)
    (h₂ : AnnFrame A q₂ q₃) : AnnFrame A q₁ q₃ :=
  (annFrame A).trans h₁ h₂

theorem Keeps.mono {A B : List Addr} {m : CheckM α} (h : Keeps (annFrame A) m) (hAB : A ⊆ B) :
    Keeps (annFrame B) m :=
  fun q => (h q).mono hAB

/-- A write at `a ∈ A` that keeps `TypeChecked` set and the fields of jumps. -/
theorem Keeps.setAnn {A : List Addr} {a : Addr} (ha : a ∈ A) {f : Annot → Annot}
    (hf : ∀ x : Annot, x.typeChecked → (f x).typeChecked)
    (hj : ∀ x : Annot, (f x).jumpFields = x.jumpFields) :
    Keeps (annFrame A) (update (·.setAnn a f)) := by
  intro q
  refine ⟨rfl, fun b hb => ?_, fun b hb => ?_, fun b => ?_⟩
  · have : b ≠ a := fun h => hb (h ▸ ha)
    simp [this]
  · simp only [update_apply, Checker.setAnn_ann]
    split
    · subst_vars; exact hf _ hb
    · exact hb
  · simp only [update_apply, Checker.setAnn_ann]
    split
    · subst_vars; exact hj _
    · rfl

theorem Keeps.of_eq {F : Frame} {m : CheckM α} (hk : Keeps F m) {q q' : Checker}
    {r : Except Err α} (h : m q = (r, q')) : F.rel q q' := by
  simpa [h] using hk q

theorem keeps_setTypeChecked {A : List Addr} {a : Addr} (ha : a ∈ A) :
    Keeps (annFrame A) (setTypeChecked a) := Keeps.setAnn ha (fun _ _ => rfl) fun _ => rfl

theorem keeps_setMType {A : List Addr} {a : Addr} (ha : a ∈ A) (t : MType) :
    Keeps (annFrame A) (setMType a t) := Keeps.setAnn ha (fun _ h => h) fun _ => rfl

theorem keeps_setConstValue {A : List Addr} {a : Addr} (ha : a ∈ A) (v : Int) :
    Keeps (annFrame A) (setConstValue a v) := Keeps.setAnn ha (fun _ h => h) fun _ => rfl

/-- The nodes at `A` as the parser leaves them: pairwise distinct, not annotated yet. -/
structure Fresh (q : Checker) (A : List Addr) : Prop where
  nodup : A.Nodup
  clean : ∀ a ∈ A, q.ann a = {}

namespace Fresh

variable {q q' : Checker} {a : Addr} {A B : List Addr}

theorem sublist (h : Fresh q B) (hAB : A.Sublist B) : Fresh q A :=
  ⟨h.nodup.sublist hAB, fun a ha => h.clean a (hAB.subset ha)⟩

theorem left (h : Fresh q (A ++ B)) : Fresh q A := h.sublist (List.sublist_append_left A B)

theorem right (h : Fresh q (A ++ B)) : Fresh q B := h.sublist (List.sublist_append_right A B)

theorem tail (h : Fresh q (a :: A)) : Fresh q A := h.sublist (List.sublist_cons_self a A)

theorem head (h : Fresh q (a :: A)) : q.ann a = {} := h.clean a (List.mem_cons_self a A)

theorem head_not_mem (h : Fresh q (a :: A)) : a ∉ A := (List.nodup_cons.mp h.nodup).1

theorem not_mem_right (h : Fresh q (A ++ B)) {b : Addr} (hb : b ∈ A) : b ∉ B :=
  fun hb' => List.disjoint_of_nodup_append h.nodup hb hb'

theorem not_mem_left (h : Fresh q (A ++ B)) {b : Addr} (hb : b ∈ B) : b ∉ A :=
  fun hb' => List.disjoint_of_nodup_append h.nodup hb' hb

/-- A node stays fresh while the nodes below it are checked. -/
theorem head_after (h : Fresh q (a :: A)) (hk : AnnFrame A q q') : q'.ann a = {} := by
  rw [hk.outside a h.head_not_mem, h.head]

/-- Checking the nodes at `A` leaves the nodes at `B` fresh. -/
theorem after (h : Fresh q (A ++ B)) (hk : AnnFrame A q q') : Fresh q' B := by
  refine ⟨h.right.nodup, fun b hb => ?_⟩
  rw [hk.outside b (h.not_mem_left hb), h.clean b (List.mem_append_right A hb)]

end Fresh

/-- A checker with nothing in scope, over a tree fresh from the parser. -/
def Checker.empty : Checker where
  localVars _ := none
  func := none
  structs _ := none
  jumpTargets := []
  errFilename := ""
  errLine := 0
  ann _ := {}

/-- `Checker.empty` with one local variable `name`, of the built-in type `typ`. -/
def Checker.declaring (name : String) (typ : ID) : Checker :=
  { Checker.empty with
    localVars := fun x => if x = .ident name then some (.named 0 .zero typ none none) else none }

theorem Fresh.empty {A : List Addr} (h : A.Nodup) : Fresh Checker.empty A := ⟨h, fun _ _ => rfl⟩

end Puffs
