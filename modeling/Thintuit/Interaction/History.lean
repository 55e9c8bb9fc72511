import Thintuit.Interaction.Program

/-! Records of operations on a store. An event keeps the store it met, so its reply
and its effect are recomputed from it and never assumed. -/
namespace Thintuit.Interaction
variable {ι C σ Op α : Type} {Reply : Op → Type}

structure Event (ι C σ Op : Type) where
  thread : ι
  choice : C
  op : Op
  before : σ

namespace Event
variable (exec : C → σ → (op : Op) → Reply op × σ) (e : Event ι C σ Op)

def reply : Reply e.op := (exec e.choice e.before e.op).1
def after : σ := (exec e.choice e.before e.op).2
def exchange : Exchange Op Reply := ⟨e.op,e.reply exec⟩

theorem exchange_eq_iff (x : Exchange Op Reply) :
    e.exchange exec = x ↔ ∃ n c s, e = ⟨n,c,x.op,s⟩ ∧ (exec c s x.op).1 = x.reply := by
  obtain ⟨n,c,op,s⟩ := e
  obtain ⟨op',r⟩ := x
  constructor
  · intro h
    cases h
    exact ⟨n,c,s,rfl,rfl⟩
  · rintro ⟨_,_,_,h,hr⟩
    cases h
    exact congrArg (Exchange.mk op') hr

end Event

/-- The operations of one thread in a log, with their replies. -/
def exchanges [DecidableEq ι] (exec : C → σ → (op : Op) → Reply op × σ) (n : ι) (log : List (Event ι C σ Op)) :
    List (Exchange Op Reply) := (log.filter (fun e => e.thread = n)).map (Event.exchange exec)

section Exchanges
variable [DecidableEq ι] (exec : C → σ → (op : Op) → Reply op × σ)

@[simp] theorem exchanges_nil (n : ι) : exchanges exec n [] = [] := rfl

@[simp] theorem exchanges_append (n : ι) (xs ys : List (Event ι C σ Op)) :
    exchanges exec n (xs ++ ys) = exchanges exec n xs ++ exchanges exec n ys := by
  simp [exchanges]

@[simp] theorem exchanges_cons_self (n : ι) (c : C) (op : Op) (s : σ) (log : List (Event ι C σ Op)) :
    exchanges exec n (⟨n,c,op,s⟩ :: log) = ⟨op,(exec c s op).1⟩ :: exchanges exec n log := by
  simp [exchanges,Event.exchange,Event.reply]

theorem exchanges_cons_of_ne {n : ι} {e : Event ι C σ Op} (h : e.thread ≠ n) (log : List (Event ι C σ Op)) :
    exchanges exec n (e :: log) = exchanges exec n log := by
  simp [exchanges,h]

/-- Split a log at the event behind one of a thread's exchanges. -/
theorem exchanges_eq_append_cons {n : ι} {log : List (Event ι C σ Op)} (xs : List (Exchange Op Reply))
    {x : Exchange Op Reply} {ys : List (Exchange Op Reply)} (h : exchanges exec n log = xs ++ x :: ys) :
    ∃ l₁ c s l₂, log = l₁ ++ ⟨n,c,x.op,s⟩ :: l₂ ∧ (exec c s x.op).1 = x.reply ∧
      exchanges exec n l₁ = xs ∧ exchanges exec n l₂ = ys := by
  obtain ⟨f₁,f₂,hf,rfl,h₂⟩ := List.map_eq_append_iff.mp h
  obtain ⟨e,f₃,rfl,he,rfl⟩ := List.map_eq_cons_iff.mp h₂
  obtain ⟨l₁,l₂,rfl,rfl,hl₂⟩ := List.filter_eq_append_iff.mp hf
  obtain ⟨m₁,m₂,rfl,hm₁,hn,rfl⟩ := List.filter_eq_cons_iff.mp hl₂
  obtain ⟨k,c,s,rfl,hr⟩ := (Event.exchange_eq_iff exec e x).mp he
  obtain rfl : k = n := by simpa using hn
  have hnone : exchanges exec k m₁ = [] := by
    rw [exchanges,List.filter_eq_nil_iff.mpr hm₁]
    rfl
  refine ⟨l₁ ++ m₁,c,s,m₂,by simp,hr,?_,rfl⟩
  rw [exchanges_append,hnone,List.append_nil]
  rfl

end Exchanges

/-- Consecutive events share their stores: each one starts where the last one ended. -/
def Chain (exec : C → σ → (op : Op) → Reply op × σ) : σ → List (Event ι C σ Op) → σ → Prop
  | s, [], t => s = t
  | s, e :: es, t => e.before = s ∧ Chain exec (e.after exec) es t

namespace Chain
variable {exec : C → σ → (op : Op) → Reply op × σ} {s t : σ}

theorem append_iff (xs ys : List (Event ι C σ Op)) :
    Chain exec s (xs ++ ys) t ↔ ∃ u, Chain exec s xs u ∧ Chain exec u ys t := by
  induction xs generalizing s with
  | nil => simp [Chain]
  | cons e es ih => simp [Chain,ih,and_assoc]

/-- Split a chain at one of its events. -/
theorem split {xs ys : List (Event ι C σ Op)} {e : Event ι C σ Op} (h : Chain exec s (xs ++ e :: ys) t) :
    Chain exec s xs e.before ∧ Chain exec (e.after exec) ys t := by
  obtain ⟨u,hx,rfl,hy⟩ := (append_iff _ _).mp h
  exact ⟨hx,hy⟩

/-- Peel the first event off a chain, given the exchange behind it. -/
theorem uncons {es : List (Event ι C σ Op)} {x : Exchange Op Reply} {xs : List (Exchange Op Reply)}
    (h : Chain exec s es t) (hx : es.map (Event.exchange exec) = x :: xs) :
    ∃ n c rest, es = ⟨n,c,x.op,s⟩ :: rest ∧ (exec c s x.op).1 = x.reply ∧
      Chain exec (exec c s x.op).2 rest t ∧ rest.map (Event.exchange exec) = xs := by
  obtain ⟨e,rest,rfl,he,hrest⟩ := List.map_eq_cons_iff.mp hx
  obtain ⟨n,c,u,rfl,hr⟩ := (Event.exchange_eq_iff exec e x).mp he
  obtain ⟨rfl,h⟩ := h
  exact ⟨n,c,rest,rfl,hr,h,hrest⟩

/-- A property of the store that every event keeps survives the whole chain. -/
theorem invariant {es : List (Event ι C σ Op)} (I : σ → Prop) (h : Chain exec s es t)
    (hstep : ∀ e ∈ es, I e.before → I (e.after exec)) (hs : I s) : I t := by
  induction es generalizing s with
  | nil => exact h ▸ hs
  | cons e es ih =>
    obtain ⟨rfl,hrest⟩ := h
    exact ih hrest (fun x hx => hstep x (List.mem_cons_of_mem _ hx)) (hstep e List.mem_cons_self hs)

/-- A quantity whose every change is booked as coming in or going out balances over the chain. -/
theorem balance {es : List (Event ι C σ Op)} (f : σ → Nat) (into out : Event ι C σ Op → Nat)
    (h : Chain exec s es t)
    (hstep : ∀ e ∈ es, f (e.after exec) + out e = f e.before + into e) :
    f t + (es.map out).sum = f s + (es.map into).sum := by
  induction es generalizing s with
  | nil => obtain rfl := h; rfl
  | cons e es ih =>
    obtain ⟨rfl,hrest⟩ := h
    have he := hstep e List.mem_cons_self
    have hes := ih hrest (fun x hx => hstep x (List.mem_cons_of_mem _ hx))
    simp only [List.map_cons,List.sum_cons]
    omega

end Chain

namespace Program
variable (exec : C → σ → (op : Op) → Reply op × σ)

/-- The events of an uninterrupted execution. -/
def trace : Program Op Reply α → (Nat → C) → σ → List (Event Unit C σ Op)
  | .ret _, _, _ => []
  | .call op next, c, s =>
    ⟨(),c 0,op,s⟩ :: (next (exec (c 0) s op).1).trace (fun k => c (k+1)) (exec (c 0) s op).2

theorem trace_path (p : Program Op Reply α) (c : Nat → C) (s : σ) :
    Path p ((p.trace exec c s).map (Event.exchange exec)) (.ret (p.run exec c s).1) := by
  induction p generalizing c s with
  | ret a => exact .refl _
  | call op next ih => exact .call (ih _ _ _)

theorem trace_chain (p : Program Op Reply α) (c : Nat → C) (s : σ) :
    Chain exec s (p.trace exec c s) (p.run exec c s).2 := by
  induction p generalizing c s with
  | ret a => rfl
  | call op next ih => exact ⟨rfl,ih _ _ _⟩

theorem trace_choice (p : Program Op Reply α) (c : Nat → C) (s : σ) (e : Event Unit C σ Op)
    (he : e ∈ p.trace exec c s) : ∃ k, e.choice = c k := by
  induction p generalizing c s with
  | ret a => cases he
  | call op next ih =>
    rcases List.mem_cons.mp he with rfl | he
    · exact ⟨0,rfl⟩
    · obtain ⟨k,hk⟩ := ih _ _ _ he
      exact ⟨k+1,hk⟩

/-- The final value of a program whose operations meet the given stores. What one of them meets
need not be what the last one has left. -/
def amid : Program Op Reply α → (Nat → C × σ) → α
  | .ret a, _ => a
  | .call op next, met => (next (exec (met 0).1 (met 0).2 op).1).amid (fun k => met (k+1))

@[simp] theorem amid_call (op : Op) (next : Reply op → Program Op Reply α) (met : Nat → C × σ) :
    (Program.call op next).amid exec met =
      (next (exec (met 0).1 (met 0).2 op).1).amid exec (fun k => met (k+1)) := rfl

/-- Whatever a program has gone through, it ends as it does amid the stores its operations met. -/
theorem Path.amid {exec} (d : C × σ) {p : Program Op Reply α} {es : List (Event ι C σ Op)} {a : α}
    (h : Path p (es.map (Event.exchange exec)) (.ret a)) :
    p.amid exec (fun k => ((es[k]?).map (fun e => (e.choice,e.before))).getD d) = a := by
  induction es generalizing p with
  | nil => cases h; rfl
  | cons e es ih =>
    cases h with | call h =>
    exact ih h

/-- If only an operation whose reply ends the program with an accepted value can
change the store, then a run that ends otherwise has changed nothing. -/
theorem run_silent (A : α → Bool) (p : Program Op Reply α)
    (hp : p.Everywhere (fun op next => ∀ c s, (exec c s op).2 = s ∨ ∃ a, next (exec c s op).1 = .ret a ∧ A a = true))
    (c : Nat → C) (s : σ) (hA : A (p.run exec c s).1 = false) : (p.run exec c s).2 = s := by
  induction p generalizing c s with
  | ret a => rfl
  | call op next ih =>
    rw [run_call] at hA ⊢
    rcases hp.1 (c 0) s with h | ⟨a,ha,hAa⟩
    · rw [ih _ (hp.2 _) _ _ hA,h]
    · rw [ha,run_ret,hAa] at hA
      cases hA

end Program

end Thintuit.Interaction
