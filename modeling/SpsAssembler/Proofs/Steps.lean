import Mathlib.Logic.Relation
import Mathlib.Tactic.SplitIfs
import SpsAssembler.Assembly.Program
import SpsAssembler.Proofs.Operands

/-!
# Steps as functions of the state

A `Step` always comes to an end and a `Build` may stop at a fault, so both are read as functions of
the state. What the steps on operands, reports and the address counter can do to it is said once.

* `Step.bind_apply`, `Build.bind_ok`, `Build.bind_error`: a row of steps, one step at a time;
* `Step.Closed`: properties that go through a row of steps, and through a loop;
* `Reach`, `Act`, **`Leads`**: reports, evaluations and moves of the counter, in any number;
* `Step.Within`, `Build.Within`: all that a step does is such acts, checked part by part.
-/

namespace SpsAssembler

variable {α β : Type}

namespace Step

@[simp] theorem pure_apply (v : α) (a : Assembly) : (pure v : Step α) a = (v, a) := rfl

@[simp] theorem bind_apply (x : Step α) (f : α → Step β) (a : Assembly) :
    (x >>= f) a = f (x a).1 (x a).2 := rfl

@[simp] theorem get_apply (a : Assembly) : (get : Step Assembly) a = (a, a) := rfl

@[simp] theorem modifyGet_apply (f : Assembly → α × Assembly) (a : Assembly) :
    (modifyGet f : Step α) a = f a := rfl

theorem ite_apply (c : Prop) [Decidable c] (x y : Step α) (a : Assembly) :
    (if c then x else y) a = if c then x a else y a := by
  split_ifs <;> rfl

/-- A property of steps that every value has and that goes through a row of steps. -/
structure Closed (P : (γ : Type) → Step γ → Prop) : Prop where
  pure : ∀ {γ : Type} (v : γ), P γ (pure v)
  bind : ∀ {γ δ : Type} {x : Step γ} {f : γ → Step δ}, P γ x → (∀ v, P δ (f v)) → P δ (x >>= f)

namespace Closed

variable {P : (γ : Type) → Step γ → Prop}

theorem mapM (h : Closed P) {f : β → Step α} {xs : List β} (hf : ∀ x ∈ xs, P α (f x)) :
    P (List α) (xs.mapM f) := by
  induction xs with
  | nil => exact h.pure []
  | cons x xs ih =>
    rw [List.mapM_cons]
    refine h.bind (hf x List.mem_cons_self) fun v =>
      h.bind (ih fun y hy => ?_) fun vs => h.pure (v :: vs)
    exact hf y (List.mem_cons_of_mem x hy)

theorem foldlM (h : Closed P) {f : α → β → Step α} {xs : List β}
    (hf : ∀ v, ∀ x ∈ xs, P α (f v x)) (v : α) : P α (xs.foldlM f v) := by
  induction xs generalizing v with
  | nil => exact h.pure v
  | cons x xs ih =>
    rw [List.foldlM_cons]
    exact h.bind (hf v x List.mem_cons_self) (ih fun v y hy => hf v y (List.mem_cons_of_mem x hy))

end Closed

end Step

namespace Build

@[simp] theorem pure_apply (v : α) (a : Assembly) : (pure v : Build α) a = .ok v a := rfl

@[simp] theorem lift_apply (x : Step α) (a : Assembly) :
    (liftM x : Build α) a = .ok (x a).1 (x a).2 := rfl

theorem bind_ok {x : Build α} {v : α} {a b : Assembly} (h : x a = .ok v b) (f : α → Build β) :
    (x >>= f) a = f v b := by
  change EStateM.bind x f a = f v b
  rw [EStateM.bind, h]

theorem bind_error {x : Build α} {e : Fault} {a b : Assembly} (h : x a = .error e b)
    (f : α → Build β) : (x >>= f) a = .error e b := by
  change EStateM.bind x f a = .error e b
  rw [EStateM.bind, h]

@[simp] theorem lift_bind (x : Step α) (f : α → Build β) (a : Assembly) :
    ((liftM x : Build α) >>= f) a = f (x a).1 (x a).2 := rfl

@[simp] theorem get_bind (f : Assembly → Build β) (a : Assembly) :
    ((get : Build Assembly) >>= f) a = f a a := rfl

@[simp] theorem modify_bind (g : Assembly → Assembly) (f : Unit → Build β) (a : Assembly) :
    ((modify g : Build Unit) >>= f) a = f () (g a) := rfl

theorem ok_of_bind_ok {x : Build α} {f : α → Build β} {w : β} {a c : Assembly}
    (h : (x >>= f) a = .ok w c) : ∃ v b, x a = .ok v b ∧ f v b = .ok w c := by
  cases hx : x a with
  | ok v b => exact ⟨v, b, rfl, by rwa [bind_ok hx] at h⟩
  | error e b => rw [bind_error hx] at h; cases h

theorem ofExcept_ok {x : Except Fault α} {v : α} {a b : Assembly}
    (h : (MonadExcept.ofExcept x : Build α) a = .ok v b) : x = .ok v ∧ b = a := by
  cases x with
  | ok w =>
    cases h
    exact ⟨rfl, rfl⟩
  | error e => cases h

/-- The state that a run ends in, after a fault as well. -/
def final : EStateM.Result Fault Assembly α → Assembly
  | .ok _ b => b
  | .error _ b => b

end Build

/-! ## Acts -/

/-- What steps may change besides noting references and reporting: the counter, the head, and the
end of the program. -/
structure Reach where
  counts : Bool := false
  turns : Bool := false
  ends : Bool := false

namespace Reach

/-- Nothing but references and reports. -/
def still : Reach := {}

/-- The counter. -/
def counting : Reach := { counts := true }

/-- The head. -/
def turning : Reach := { turns := true }

/-- The end of the program. -/
def ending : Reach := { ends := true }

/-- All of it. -/
def full : Reach := ⟨true, true, true⟩

end Reach

/-- One thing that a step does to the state: it reports, but not about a label, it evaluates an
operand, or it changes what it may reach. -/
inductive Act (reach : Reach) : Assembly → Assembly → Prop
  | report (a : Assembly) (reports : List (Report Cause)) (h : Unlabelled reports) :
      Act reach a (a.raise reports)
  | evaluate (a : Assembly) (operand : Text) (usage : Usage) :
      Act reach a { a with symbols := (evaluateIn a.scope usage a.symbols operand).table }
  | count (h : reach.counts = true) (a : Assembly) (counter last : Word) :
      Act reach a { a with counter, last }
  | turn (h : reach.turns = true) (a : Assembly) (head : Byte) : Act reach a { a with head }
  | finish (h : reach.ends = true) (a : Assembly) (ending : Ending) (entry : Word) :
      Act reach a { a with ending, entry }

/-- Acts lead from one state to another. -/
abbrev Leads (reach : Reach) : Assembly → Assembly → Prop := Relation.ReflTransGen (Act reach)

theorem Act.widen {reach : Reach} {a b : Assembly} (h : Act reach a b) : Act .full a b := by
  cases h with
  | report _ reports h => exact .report a reports h
  | evaluate _ operand usage => exact .evaluate a operand usage
  | count _ _ counter last => exact .count rfl a counter last
  | turn _ _ head => exact .turn rfl a head
  | finish _ _ ending entry => exact .finish rfl a ending entry

theorem Leads.widen {reach : Reach} {a b : Assembly} (h : Leads reach a b) : Leads .full a b :=
  Relation.ReflTransGen.mono (fun _ _ => Act.widen) _ _ h

theorem Leads.same {γ : Type} {reach : Reach} (f : Assembly → γ)
    (hf : ∀ a b, Act reach a b → f b = f a) {a b : Assembly} (h : Leads reach a b) :
    f b = f a := by
  induction h with
  | refl => rfl
  | tail _ hbc ih => rw [hf _ _ hbc, ih]

/-- All that the step does is acts. -/
def Step.Within (reach : Reach) (x : Step α) : Prop := ∀ a, Leads reach a (x a).2

/-- All that the step does is acts, also when it stops at a fault. -/
def Build.Within (reach : Reach) (x : Build α) : Prop := ∀ a, Leads reach a (Build.final (x a))

namespace Step.Within

variable {reach : Reach}

theorem pure (v : α) : Step.Within reach (pure v) := fun _ => .refl

theorem bind {x : Step α} {f : α → Step β} (hx : Step.Within reach x)
    (hf : ∀ v, Step.Within reach (f v)) : Step.Within reach (x >>= f) :=
  fun a => (hx a).trans (hf _ _)

theorem get_bind {f : Assembly → Step β} (hf : ∀ a, Step.Within reach (f a)) :
    Step.Within reach (get >>= f) := fun a => hf a a

theorem ite {c : Prop} [Decidable c] {x y : Step α} (hx : Step.Within reach x)
    (hy : Step.Within reach y) : Step.Within reach (if c then x else y) := by
  split_ifs
  · exact hx
  · exact hy

theorem closed (reach : Reach) : Step.Closed fun _ => Step.Within reach := ⟨pure, bind⟩

theorem mapM {f : β → Step α} (hf : ∀ x, Step.Within reach (f x)) (xs : List β) :
    Step.Within reach (xs.mapM f) := (closed reach).mapM fun x _ => hf x

theorem foldlM {f : α → β → Step α} (hf : ∀ v x, Step.Within reach (f v x)) (xs : List β)
    (v : α) : Step.Within reach (xs.foldlM f v) := (closed reach).foldlM (fun v x _ => hf v x) v

theorem widen {x : Step α} (hx : Step.Within reach x) : Step.Within .full x :=
  fun a => (hx a).widen

end Step.Within

namespace Build.Within

variable {reach : Reach}

theorem pure (v : α) : Build.Within reach (pure v) := fun _ => .refl

theorem lift {x : Step α} (hx : Step.Within reach x) : Build.Within reach (liftM x) := hx

theorem bind {x : Build α} {f : α → Build β} (hx : Build.Within reach x)
    (hf : ∀ v, Build.Within reach (f v)) : Build.Within reach (x >>= f) := by
  intro a
  have h := hx a
  cases hxa : x a with
  | ok v b =>
    rw [hxa] at h
    rw [bind_ok hxa]
    exact h.trans (hf v b)
  | error e b =>
    rw [hxa] at h
    rwa [bind_error hxa]

theorem ite {c : Prop} [Decidable c] {x y : Build α} (hx : Build.Within reach x)
    (hy : Build.Within reach y) : Build.Within reach (if c then x else y) := by
  split_ifs
  · exact hx
  · exact hy

theorem ofExcept (x : Except Fault α) : Build.Within reach (MonadExcept.ofExcept x) := by
  intro a
  cases x with
  | ok v => exact .refl
  | error e => exact .refl

end Build.Within

end SpsAssembler
