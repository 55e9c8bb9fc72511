import Mathlib

/-! Programs that act on a shared store only through typed operations. A program
waits for each reply before it goes on, so its pending state is the program that
is left; nothing else is retained between two operations. -/
namespace Thintuit.Interaction

/-- Either a final value or one operation with a continuation for every reply. -/
inductive Program (Op : Type) (Reply : Op → Type) (α : Type) where
  | ret (value : α)
  | call (op : Op) (next : Reply op → Program Op Reply α)

/-- One operation together with the reply it received. -/
structure Exchange (Op : Type) (Reply : Op → Type) where
  op : Op
  reply : Reply op

namespace Program
variable {Op : Type} {Reply : Op → Type} {α β σ C : Type}

def bind : Program Op Reply α → (α → Program Op Reply β) → Program Op Reply β
  | .ret a, f => f a
  | .call op next, f => .call op (fun r => (next r).bind f)

instance : Monad (Program Op Reply) where
  pure := .ret
  bind := bind

/-- Two programs with the same next operation are equal once they agree after every reply. -/
theorem call_congr {op : Op} {f g : Reply op → Program Op Reply α} (h : ∀ r, f r = g r) :
    Program.call op f = .call op g :=
  congrArg (Program.call op) (funext h)

/-- `Path p es q`: answering the operations of `p` as `es` records leaves `q`. -/
inductive Path : Program Op Reply α → List (Exchange Op Reply) → Program Op Reply α → Prop
  | refl (p) : Path p [] p
  | call {op next r es q} : Path (next r) es q → Path (.call op next) (⟨op,r⟩ :: es) q

theorem Path.snoc {p : Program Op Reply α} {es op next} (h : Path p es (.call op next)) (r : Reply op) :
    Path p (es ++ [⟨op,r⟩]) (next r) := by
  generalize hq : Program.call op next = q at h
  induction h with
  | refl p => subst hq; exact .call (.refl _)
  | call _ ih => exact .call (ih hq)

theorem Path.append_iff {p q : Program Op Reply α} {es fs : List (Exchange Op Reply)} :
    Path p (es ++ fs) q ↔ ∃ r, Path p es r ∧ Path r fs q := by
  induction es generalizing p with
  | nil =>
    constructor
    · intro h; exact ⟨p,.refl p,h⟩
    · rintro ⟨r,h,hr⟩; cases h; exact hr
  | cons x es ih =>
    constructor
    · intro h
      cases h with | call h =>
      obtain ⟨r,hr,hq⟩ := ih.mp h
      exact ⟨r,.call hr,hq⟩
    · rintro ⟨r,h,hq⟩
      cases h with | call h =>
      exact .call (ih.mpr ⟨r,h,hq⟩)

/-- The replies alone decide where a program gets. -/
theorem Path.unique {p q q' : Program Op Reply α} {es : List (Exchange Op Reply)} (h : Path p es q)
    (h' : Path p es q') : q = q' := by
  induction h with
  | refl p => cases h'; rfl
  | call _ ih => cases h' with | call h' => exact ih h'

/-- The operation of a later exchange is pending once the earlier ones are answered. -/
theorem Path.pending {p q r : Program Op Reply α} (es : List (Exchange Op Reply)) {fs : List (Exchange Op Reply)}
    {x : Exchange Op Reply} (h : Path p (es ++ x :: fs) q) (hr : Path p es r) : ∃ next, r = .call x.op next := by
  obtain ⟨r',hr',hq⟩ := Path.append_iff.mp h
  cases hr.unique hr'
  cases hq with | call _ => exact ⟨_,rfl⟩

@[simp] theorem path_ret_iff (a : α) (es : List (Exchange Op Reply)) (q : Program Op Reply α) :
    Path (.ret a) es q ↔ es = [] ∧ q = .ret a := by
  constructor
  · intro h; cases h; exact ⟨rfl,rfl⟩
  · rintro ⟨rfl,rfl⟩; exact .refl _

/-- Every operation the program may still issue, whatever the replies, satisfies `P`
together with the continuation that receives its reply. -/
def Everywhere (P : (op : Op) → (Reply op → Program Op Reply α) → Prop) : Program Op Reply α → Prop
  | .ret _ => True
  | .call op next => P op next ∧ ∀ r, (next r).Everywhere P

theorem Everywhere.path {P : (op : Op) → (Reply op → Program Op Reply α) → Prop} {p q : Program Op Reply α}
    {es : List (Exchange Op Reply)} (hp : p.Everywhere P) (h : Path p es q) : q.Everywhere P := by
  induction h with
  | refl _ => exact hp
  | call _ ih => exact ih (hp.2 _)

theorem Everywhere.mono {P Q : (op : Op) → (Reply op → Program Op Reply α) → Prop} {p : Program Op Reply α}
    (hp : p.Everywhere P) (h : ∀ op next, P op next → Q op next) : p.Everywhere Q := by
  induction p with
  | ret a => trivial
  | call op next ih => exact ⟨h op next hp.1,fun r => ih r (hp.2 r)⟩

/-- Whatever the replies, what the program returns satisfies `P`. -/
def Returns (P : α → Prop) : Program Op Reply α → Prop
  | .ret a => P a
  | .call _ next => ∀ r, (next r).Returns P

theorem Returns.path {P : α → Prop} {p q : Program Op Reply α} {es : List (Exchange Op Reply)} (hp : p.Returns P)
    (h : Path p es q) : q.Returns P := by
  induction h with
  | refl _ => exact hp
  | call _ ih => exact ih (hp _)

/-- Uninterrupted execution: the environment supplies one choice per operation. -/
def run (exec : C → σ → (op : Op) → Reply op × σ) : Program Op Reply α → (Nat → C) → σ → α × σ
  | .ret a, _, s => (a,s)
  | .call op next, c, s =>
    (next (exec (c 0) s op).1).run exec (fun k => c (k+1)) (exec (c 0) s op).2

@[simp] theorem run_ret (exec : C → σ → (op : Op) → Reply op × σ) (a : α) (c : Nat → C) (s : σ) :
    (.ret a : Program Op Reply α).run exec c s = (a,s) := rfl

@[simp] theorem run_call (exec : C → σ → (op : Op) → Reply op × σ) (op : Op)
    (next : Reply op → Program Op Reply α) (c : Nat → C) (s : σ) :
    (Program.call op next).run exec c s =
      (next (exec (c 0) s op).1).run exec (fun k => c (k+1)) (exec (c 0) s op).2 := rfl

end Program
end Thintuit.Interaction
