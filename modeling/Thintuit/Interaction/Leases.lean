import Thintuit.Interaction.Serial

/-! Programs whose operations need a lease. A program asks for a lease, works while it holds
one, and gives it back; asking may be refused and giving back may fail. Apart from the
leases it does what some program without them does, except that a failing return ends it
on the spot. -/
namespace Thintuit.Interaction
variable {ι C σ Op α E : Type} {Reply : Op → Type}

/-- An operation of the program itself, or the return of its lease. -/
inductive Leased (Op : Type) where
  | run (op : Op)
  | release

abbrev Leased.Answer (Reply : Op → Type) (E : Type) : Leased Op → Type
  | .run op => Reply op
  | .release => Except E Unit

/-- A stretch of operations as a part of a program with leases. -/
def Program.leased : Program Op Reply α → Program (Leased Op) (Leased.Answer Reply E) α
  | .ret a => .ret a
  | .call op next => .call (.run op) (fun r => (next r).leased)

theorem Program.bind_assoc {β γ : Type} (p : Program Op Reply α) (f : α → Program Op Reply β) (g : β → Program Op Reply γ) :
    (p.bind f).bind g = p.bind (fun a => (f a).bind g) := by
  induction p with
  | ret a => rfl
  | call op next ih => exact call_congr ih

/-- How often a program has given a lease back. -/
def Leased.returns (es : List (Exchange (Leased Op) (Leased.Answer Reply E))) : Nat :=
  es.countP (fun
    | ⟨.run _,_⟩ => false
    | ⟨.release,_⟩ => true)

@[simp] theorem Leased.returns_run (op : Op) (r : Reply op) (es : List (Exchange (Leased Op) (Leased.Answer Reply E))) :
    Leased.returns (⟨.run op,r⟩ :: es) = Leased.returns es := by
  simp [returns]

@[simp] theorem Leased.returns_release (r : Except E Unit) (es : List (Exchange (Leased Op) (Leased.Answer Reply E))) :
    Leased.returns (⟨.release,r⟩ :: es) = Leased.returns es + 1 := by
  simp [returns]

/-- Which operations ask for a lease, which replies grant it, and how giving it back ends. -/
structure Leasing (C Op : Type) (Reply : Op → Type) (E : Type) where
  asks : Op → Bool
  granted : (op : Op) → Reply op → Bool
  returned : C → Except E Unit

namespace Leasing
variable (L : Leasing C Op Reply E)

def takes (op : Op) (r : Reply op) : Bool := L.asks op && L.granted op r

/-- Giving a lease back leaves the store as it is. -/
def exec (exec : C → σ → (op : Op) → Reply op × σ) (c : C) (s : σ) : (op : Leased Op) → Leased.Answer Reply E op × σ
  | .run op => exec c s op
  | .release => (L.returned c,s)

/-- Whether the program is at a point where it holds a lease: neither finished nor about to ask. -/
def holds : Program (Leased Op) (Leased.Answer Reply E) α → Bool
  | .ret _ => false
  | .call (.run op) _ => !L.asks op
  | .call .release _ => true

/-- Whether a lease is held once the operation has been answered. -/
def left : (op : Leased Op) → Leased.Answer Reply E op → Bool
  | .run op, r => !L.asks op || L.granted op r
  | .release, _ => false

/-- A lease that is held after an operation was held before it or has been taken by it. -/
theorem holds_add_takes (op : Op) (r : Reply op) (f : Reply op → Program (Leased Op) (Leased.Answer Reply E) α) :
    (L.holds (.call (.run op) f)).toNat + (L.takes op r).toNat = (L.left (.run op) r).toNat := by
  rw [holds,takes,left]
  cases L.asks op <;> cases L.granted op r <;> rfl

/-- `p` does what `q` does, in at most `k` operations, and keeps to its leases: it asks only while
it holds none, works only while it holds one, and holds none at its end. If giving back
raises `e`, `p` ends at once with the answer `fail e`. -/
inductive Realizes (fail : E → α) :
    Nat → Bool → Program (Leased Op) (Leased.Answer Reply E) α → Program Op Reply α → Prop
  | ret {k a} : Realizes fail k false (.ret a) (.ret a)
  | ask {k op p q} : L.asks op = true → (∀ r, Realizes fail k (L.granted op r) (p r) (q r)) →
      Realizes fail (k+1) false (.call (.run op) p) (.call op q)
  | work {k op p q} : L.asks op = false → (∀ r, Realizes fail k true (p r) (q r)) →
      Realizes fail (k+1) true (.call (.run op) p) (.call op q)
  | release {k p q} : Realizes fail k false (p (.ok ())) q → (∀ e, p (.error e) = .ret (fail e)) →
      Realizes fail (k+1) true (.call .release p) q

/-- At most `k` operations, none of which asks for a lease. -/
def Works : Nat → Program Op Reply α → Prop
  | _, .ret _ => True
  | 0, .call _ _ => False
  | k+1, .call op next => L.asks op = false ∧ ∀ r, Works k (next r)

namespace Realizes
variable {L} {fail : E → α} {k : Nat} {held : Bool} {p : Program (Leased Op) (Leased.Answer Reply E) α}
  {q : Program Op Reply α}

theorem holds_eq (h : L.Realizes fail k held p q) : L.holds p = held := by
  cases h with
  | ret => rfl
  | ask hop _ => simp [holds,hop]
  | work hop _ => simp [holds,hop]
  | release _ _ => rfl

/-- One operation: whatever the reply, what is left keeps to its leases, in fewer operations. -/
theorem next {op : Leased Op} {f : Leased.Answer Reply E op → Program (Leased Op) (Leased.Answer Reply E) α}
    (h : L.Realizes fail k held (.call op f) q) (r : Leased.Answer Reply E op) :
    ∃ j q', k = j+1 ∧ L.Realizes fail j (L.left op r) (f r) q' := by
  cases h with
  | ask hop hnext => exact ⟨_,_,rfl,by simpa [left,hop] using hnext r⟩
  | work hop hnext => exact ⟨_,_,rfl,by simpa [left,hop] using hnext r⟩
  | release hnext herror =>
    cases r with
    | ok u => exact ⟨_,_,rfl,hnext⟩
    | error e => exact ⟨_,.ret (fail e),rfl,herror e ▸ .ret⟩

theorem path {es : List (Exchange (Leased Op) (Leased.Answer Reply E))} {p' : Program (Leased Op) (Leased.Answer Reply E) α}
    (h : L.Realizes fail k held p q) (hpath : Program.Path p es p') :
    es.length ≤ k ∧ ∃ j q', L.Realizes fail j (L.holds p') p' q' := by
  induction hpath generalizing k held q with
  | refl p => exact ⟨Nat.zero_le k,k,q,h.holds_eq ▸ h⟩
  | @call op f r es p' _ ih =>
    obtain ⟨j,q',rfl,hnext⟩ := h.next r
    obtain ⟨hlen,hend⟩ := ih hnext
    exact ⟨by simpa using hlen,hend⟩

theorem of_ret {a : α} (h : L.Realizes fail k held (.ret a) q) : q = .ret a := by
  cases h
  rfl

theorem mono (h : L.Realizes fail k held p q) {j : Nat} (hj : k ≤ j) : L.Realizes fail j held p q := by
  induction h generalizing j with
  | ret => exact .ret
  | ask hop _ ih =>
    obtain ⟨i,rfl⟩ := Nat.exists_eq_add_of_le' (Nat.le_trans (Nat.le_add_left 1 _) hj)
    exact .ask hop (fun r => ih r (by omega))
  | work hop _ ih =>
    obtain ⟨i,rfl⟩ := Nat.exists_eq_add_of_le' (Nat.le_trans (Nat.le_add_left 1 _) hj)
    exact .work hop (fun r => ih r (by omega))
  | release _ herror ih =>
    obtain ⟨i,rfl⟩ := Nat.exists_eq_add_of_le' (Nat.le_trans (Nat.le_add_left 1 _) hj)
    exact .release (ih (by omega)) herror

/-- A stretch of work under a lease, and what comes after it. -/
theorem works {β : Type} {b : Program Op Reply β} {j : Nat} {f : β → Program (Leased Op) (Leased.Answer Reply E) α}
    {g : β → Program Op Reply α} (hb : L.Works j b) (hnext : ∀ x, L.Realizes fail k true (f x) (g x)) :
    L.Realizes fail (j+k) true (b.leased.bind f) (b.bind g) := by
  induction b generalizing j with
  | ret x => exact (hnext x).mono (Nat.le_add_left k j)
  | call op next ih =>
    cases j with
    | zero => cases hb
    | succ j =>
      rw [Nat.succ_add]
      exact .work hb.1 (fun r => ih r (hb.2 r))

/-- What the plain program returns and what is answered to a raising return is all there is. -/
theorem returns {P : α → Prop} (h : L.Realizes fail k held p q) (hq : q.Returns P) (hfail : ∀ e, P (fail e)) :
    p.Returns P := by
  induction h with
  | ret => exact hq
  | ask _ _ ih => exact fun r => ih r (hq r)
  | work _ _ ih => exact fun r => ih r (hq r)
  | release _ herror ih =>
    intro r
    cases r with
    | ok _ => exact ih hq
    | error e =>
      rw [herror e]
      exact hfail e

/-- A plain program that has ended leaves nothing to do but to give the lease back. -/
theorem of_plain_ret {a : α} (h : L.Realizes fail k held p (.ret a)) :
    p = .ret a ∨ ∃ f, p = .call .release f ∧ f (.ok ()) = .ret a := by
  cases h with
  | ret => exact .inl rfl
  | @release _ f _ hnext _ =>
    refine .inr ⟨f,rfl,?_⟩
    generalize f (.ok ()) = p at hnext
    cases hnext
    rfl

end Realizes

/-- The leases one program has taken. -/
def leases (es : List (Exchange (Leased Op) (Leased.Answer Reply E))) : Nat :=
  es.countP (fun
    | ⟨.run op,r⟩ => L.takes op r
    | ⟨.release,_⟩ => false)

@[simp] theorem leases_run (op : Op) (r : Reply op) (es : List (Exchange (Leased Op) (Leased.Answer Reply E))) :
    L.leases (⟨.run op,r⟩ :: es) = L.leases es + (L.takes op r).toNat := by
  cases h : L.takes op r <;> simp [leases,h]

@[simp] theorem leases_release (r : Except E Unit) (es : List (Exchange (Leased Op) (Leased.Answer Reply E))) :
    L.leases (⟨.release,r⟩ :: es) = L.leases es := by
  simp [leases]

/-- What is taken less what is given back is what is held. -/
theorem Realizes.path_leases {fail : E → α} {k : Nat} {held : Bool} {p p' : Program (Leased Op) (Leased.Answer Reply E) α}
    {q : Program Op Reply α} {es : List (Exchange (Leased Op) (Leased.Answer Reply E))}
    (h : L.Realizes fail k held p q) (hpath : Program.Path p es p') :
    L.leases es + held.toNat = Leased.returns es + (L.holds p').toNat := by
  induction hpath generalizing k held q with
  | refl p => rw [h.holds_eq]; rfl
  | @call op f r es p' _ ih =>
    obtain ⟨j,q',-,hnext⟩ := h.next r
    have hrest := ih hnext
    have hheld := h.holds_eq
    cases op with
    | release =>
      rw [leases_release,Leased.returns_release,← hheld]
      rw [left,Bool.toNat_false] at hrest
      rw [holds,Bool.toNat_true]
      omega
    | run op =>
      have hop := L.holds_add_takes op r f
      rw [leases_run,Leased.returns_run,← hheld]
      omega

/-! Whole runs, next to the runs of the plain programs that make the same operations. -/

/-- What a logged event is without the leases: nothing, where one is given back. -/
def plainEvent : Event ι C σ (Leased Op) → Option (Event ι C σ Op)
  | ⟨n,c,.run op,s⟩ => some ⟨n,c,op,s⟩
  | ⟨_,_,.release,_⟩ => none

/-- The steps of a run that are operations of the plain programs. -/
def plainSteps (log : List (Event ι C σ (Leased Op))) : List (ι × C) :=
  (log.filterMap plainEvent).map (fun e => (e.thread,e.choice))

section Runs
variable [DecidableEq ι] (exec : C → σ → (op : Op) → Reply op × σ)

/-- A return of the thread has raised `e`. -/
def Raised (n : ι) (log : List (Event ι C σ (Leased Op))) (e : E) : Prop :=
  (⟨.release,.error e⟩ : Exchange (Leased Op) (Leased.Answer Reply E)) ∈ exchanges (L.exec exec) n log

/-- The plain machine is where the one with leases is. Only a thread whose return has raised has
ended on its own, at a point where the plain one has ended too or would ask again. -/
structure Matches (fail : ι → E → α) (m : Machine ι C σ (Leased Op) (Leased.Answer Reply E) α)
    (m' : Machine ι C σ Op Reply α) : Prop where
  store : m'.store = m.store
  log : m'.log = m.log.filterMap plainEvent
  threads : ∀ n,
    (∀ e, ¬ L.Raised exec n m.log e) ∧ (∃ j held, L.Realizes (fail n) j held (m.threads n) (m'.threads n)) ∨
      ∃ e, (∀ e', L.Raised exec n m.log e' ↔ e' = e) ∧ m.threads n = .ret (fail n e) ∧
        ∃ j p, L.Realizes (fail n) j false p (m'.threads n)

variable {fail : ι → E → α} {k : Nat} {threads : ι → Program (Leased Op) (Leased.Answer Reply E) α}
  {plain : ι → Program Op Reply α}

namespace Matches
variable {L exec} {m : Machine ι C σ (Leased Op) (Leased.Answer Reply E) α} {m' : Machine ι C σ Op Reply α} {n : ι}

theorem both {op : Op} {f : Reply op → Program (Leased Op) (Leased.Answer Reply E) α} {g : Reply op → Program Op Reply α}
    {j : Nat} {held : Reply op → Bool} (h : L.Matches exec fail m m') (hn : m.threads n = .call (.run op) f)
    (hn' : m'.threads n = .call op g) (hnext : ∀ r, L.Realizes (fail n) j (held r) (f r) (g r)) (c : C) :
    L.Matches exec fail (m.step (L.exec exec) n c) (m'.step exec n c) := by
  rw [Machine.step_call _ hn,Machine.step_call _ hn']
  refine ⟨by rw [h.store]; rfl,by simp [h.log,h.store,plainEvent],fun i => ?_⟩
  have hraised : ∀ e, L.Raised exec i (m.log ++ [⟨n,c,.run op,m.store⟩]) e ↔ L.Raised exec i m.log e := by
    intro e
    by_cases hi : n = i <;> simp [Raised,exchanges,hi,Event.exchange]
  simp only [hraised]
  by_cases hi : i = n
  · subst hi
    rw [Function.update_self,Function.update_self,h.store]
    rcases h.threads i with ⟨hnone,-⟩ | ⟨e,-,hret,-⟩
    · exact .inl ⟨hnone,j,_,hnext _⟩
    · cases hn.symm.trans hret
  · rw [Function.update_of_ne hi,Function.update_of_ne hi]
    exact h.threads i

theorem release {f : Except E Unit → Program (Leased Op) (Leased.Answer Reply E) α} {j : Nat}
    (h : L.Matches exec fail m m') (hn : m.threads n = .call .release f)
    (hnext : L.Realizes (fail n) j false (f (.ok ())) (m'.threads n)) (herror : ∀ e, f (.error e) = .ret (fail n e)) (c : C) :
    L.Matches exec fail (m.step (L.exec exec) n c) m' := by
  rw [Machine.step_call _ hn]
  refine ⟨h.store,by simp [h.log,plainEvent],fun i => ?_⟩
  by_cases hi : i = n
  · subst hi
    have hnone : ∀ e, ¬ L.Raised exec i m.log e := by
      rcases h.threads i with ⟨hnone,-⟩ | ⟨e,-,hret,-⟩
      · exact hnone
      · cases hn.symm.trans hret
    have hraised : ∀ e, L.Raised exec i (m.log ++ [⟨i,c,.release,m.store⟩]) e ↔ L.returned c = .error e := by
      intro e
      rw [Raised,exchanges_append,List.mem_append,exchanges_cons_self,exchanges_nil,List.mem_singleton,Leasing.exec]
      constructor
      · rintro (hold | heq)
        · exact absurd hold (hnone e)
        · exact (eq_of_heq (Exchange.mk.inj heq).2).symm
      · intro heq
        rw [heq]
        exact .inr rfl
    simp only [hraised,Function.update_self,Leasing.exec]
    cases hreturn : L.returned c with
    | ok u => exact .inl ⟨by simp,j,false,hnext⟩
    | error e => exact .inr ⟨e,fun e' => by rw [Except.error.injEq,eq_comm],herror e,j,_,hnext⟩
  · have hraised : ∀ e, L.Raised exec i (m.log ++ [⟨n,c,.release,m.store⟩]) e ↔ L.Raised exec i m.log e := by
      intro e
      rw [Raised,exchanges_append,exchanges_cons_of_ne _ (Ne.symm hi),exchanges_nil,List.append_nil]
      exact Iff.rfl
    simp only [hraised,Function.update_of_ne hi]
    exact h.threads i

end Matches

/-- What runs with leases also runs without them: its operations, in the same order, make a run
of the plain programs. -/
theorem run_matches (hreal : ∀ n, L.Realizes (fail n) k false (threads n) (plain n)) (s : σ) (sched : List (ι × C)) :
    L.Matches exec fail ((Machine.start s threads).run (L.exec exec) sched)
      ((Machine.start s plain).run exec (plainSteps ((Machine.start s threads).run (L.exec exec) sched).log)) := by
  refine Machine.run_induction (L.exec exec)
    (fun m => L.Matches exec fail m ((Machine.start s plain).run exec (plainSteps m.log))) _ ?_ sched ?_
  · exact ⟨rfl,rfl,fun n => .inl ⟨fun e he => (List.not_mem_nil he).elim,k,false,hreal n⟩⟩
  · intro xs n c ys op f _ hn hmatch
    generalize (Machine.start s threads).run (L.exec exec) xs = m at hn hmatch ⊢
    have hlog : (m.step (L.exec exec) n c).log = m.log ++ [⟨n,c,op,m.store⟩] := by rw [Machine.step_call _ hn]
    rcases hmatch.threads n with ⟨-,j,held,hsim⟩ | ⟨e,-,hret,-⟩
    · rw [hn] at hsim
      generalize hq : ((Machine.start s plain).run exec (plainSteps m.log)).threads n = q at hsim
      rw [hlog,plainSteps,List.filterMap_append,List.map_append,Machine.run_append]
      cases hsim with
      | ask _ hnext => exact hmatch.both hn hq hnext c
      | work _ hnext => exact hmatch.both hn hq hnext c
      | release hnext herror => exact hmatch.release hn (hq ▸ hnext) herror c
    · cases hn.symm.trans hret

end Runs

/-! A program on its own. -/

section Alone
variable {L} {exec : C → σ → (op : Op) → Reply op × σ} {fail : E → α}

/-- How a run that ends in `x` compares with a plain one that ends in `y`, both from the store `s`:
they end alike, or a return has raised, and then the plain one has had the same effect, or
nothing has been changed yet. -/
def RunsAs (L : Leasing C Op Reply E) (exec : C → σ → (op : Op) → Reply op × σ) (fail : E → α) (s : σ)
    (log : List (Event Unit C σ (Leased Op))) (x y : α × σ) : Prop :=
  y = x ∨ ∃ e, L.Raised exec () log e ∧ x.1 = fail e ∧ (y.2 = x.2 ∨ x.2 = s)

theorem Raised.cons {log : List (Event Unit C σ (Leased Op))} {e : E} (h : L.Raised exec () log e)
    (x : Event Unit C σ (Leased Op)) : L.Raised exec () (x :: log) e := by
  rw [Raised,exchanges_cons_self]
  exact List.mem_cons_of_mem _ h

/-- Both make an operation. An operation that changes the store is the last one of the plain program. -/
private theorem RunsAs.call {op : Op} {f : Reply op → Program (Leased Op) (Leased.Answer Reply E) α}
    {g : Reply op → Program Op Reply α} {c : Nat → C} {s : σ} (hg : (Program.call op g).WritesLast exec) {pick : Nat → Nat}
    (h : L.RunsAs exec fail (exec (c 0) s op).2
      ((f (exec (c 0) s op).1).trace (L.exec exec) (fun i => c (i+1)) (exec (c 0) s op).2)
      ((f (exec (c 0) s op).1).run (L.exec exec) (fun i => c (i+1)) (exec (c 0) s op).2)
      ((g (exec (c 0) s op).1).run exec ((fun i => c (i+1)) ∘ pick) (exec (c 0) s op).2)) :
    L.RunsAs exec fail s ((Program.call (.run op) f).trace (L.exec exec) c s)
      ((Program.call (.run op) f).run (L.exec exec) c s)
      ((Program.call op g).run exec (c ∘ (fun | 0 => 0 | i+1 => pick i + 1)) s) := by
  refine h.imp id ?_
  rintro ⟨e,hraised,hfail,hstore⟩
  refine ⟨e,hraised.cons _,hfail,?_⟩
  rcases hstore with hstore | hstore
  · exact .inl hstore
  · rcases hg.1 (c 0) s with hsame | ⟨a,ha⟩
    · exact .inr (hstore.trans hsame)
    · left
      refine Eq.trans ?_ hstore.symm
      change ((g (exec (c 0) s op).1).run exec _ (exec (c 0) s op).2).2 = _
      rw [ha]
      rfl

/-- A run of the program on its own is a run of the plain one with the choices that its returns
have met left out. -/
theorem Realizes.run {k : Nat} {held : Bool} {p : Program (Leased Op) (Leased.Answer Reply E) α} {q : Program Op Reply α}
    (h : L.Realizes fail k held p q) (hq : q.WritesLast exec) (c : Nat → C) (s : σ) :
    ∃ pick : Nat → Nat,
      L.RunsAs exec fail s (p.trace (L.exec exec) c s) (p.run (L.exec exec) c s) (q.run exec (c ∘ pick) s) := by
  induction h generalizing c s with
  | ret => exact ⟨id,.inl rfl⟩
  | ask _ _ ih =>
    obtain ⟨pick,hrest⟩ := ih _ (hq.2 _) (fun i => c (i+1)) _
    exact ⟨_,RunsAs.call hq hrest⟩
  | work _ _ ih =>
    obtain ⟨pick,hrest⟩ := ih _ (hq.2 _) (fun i => c (i+1)) _
    exact ⟨_,RunsAs.call hq hrest⟩
  | @release _ f q _ herror ih =>
    rw [Program.run_call,Program.trace,Leasing.exec]
    cases hreturn : L.returned (c 0) with
    | ok _ =>
      obtain ⟨pick,hrest⟩ := ih hq (fun i => c (i+1)) s
      exact ⟨fun i => pick i + 1,hrest.imp id (fun ⟨e,hraised,h⟩ => ⟨e,hraised.cons _,h⟩)⟩
    | error e =>
      dsimp only
      rw [herror e]
      refine ⟨id,.inr ⟨e,?_,rfl,.inr rfl⟩⟩
      rw [Raised,exchanges_cons_self,Leasing.exec,hreturn]
      exact List.mem_cons_self

/-- A return that has raised has met a choice that makes it raise. -/
theorem raised_choice {p : Program (Leased Op) (Leased.Answer Reply E) α} {c : Nat → C} {s : σ} {e : E}
    (h : L.Raised exec () (p.trace (L.exec exec) c s) e) : ∃ k, L.returned (c k) = .error e := by
  obtain ⟨x,hx,hexchange⟩ := List.mem_map.mp h
  obtain ⟨k,hk⟩ := Program.trace_choice (L.exec exec) p c s x (List.mem_of_mem_filter hx)
  obtain ⟨n,d,t,rfl,hreply⟩ := (Event.exchange_eq_iff (L.exec exec) x _).mp hexchange
  exact ⟨k,by rw [← hk]; exact hreply⟩

end Alone
end Leasing
end Thintuit.Interaction
