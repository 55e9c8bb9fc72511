import Thintuit.Interaction.History

/-! Any number of programs on one store, with their operations interleaved in any
order. Each operation is atomic, and the log records every one of them. -/
namespace Thintuit.Interaction
variable {ι C σ Op α : Type} {Reply : Op → Type}

structure Machine (ι C σ Op : Type) (Reply : Op → Type) (α : Type) where
  store : σ
  threads : ι → Program Op Reply α
  log : List (Event ι C σ Op)

namespace Machine

def start (s : σ) (threads : ι → Program Op Reply α) : Machine ι C σ Op Reply α := ⟨s,threads,[]⟩

variable [DecidableEq ι] (exec : C → σ → (op : Op) → Reply op × σ)

/-- Let one thread issue its next operation. A finished thread has none left. -/
def step (m : Machine ι C σ Op Reply α) (n : ι) (c : C) : Machine ι C σ Op Reply α :=
  match m.threads n with
  | .ret _ => m
  | .call op next =>
    { store := (exec c m.store op).2
      threads := Function.update m.threads n (next (exec c m.store op).1)
      log := m.log ++ [⟨n,c,op,m.store⟩] }

/-- A schedule names the thread of every step and what the environment chooses there. -/
def run (m : Machine ι C σ Op Reply α) (sched : List (ι × C)) : Machine ι C σ Op Reply α :=
  sched.foldl (fun m x => m.step exec x.1 x.2) m

theorem run_append (m : Machine ι C σ Op Reply α) (xs ys : List (ι × C)) :
    m.run exec (xs ++ ys) = (m.run exec xs).run exec ys := List.foldl_append

theorem step_call {m : Machine ι C σ Op Reply α} {n : ι} {op : Op} {next : Reply op → Program Op Reply α}
    (h : m.threads n = .call op next) (c : C) :
    m.step exec n c =
      { store := (exec c m.store op).2
        threads := Function.update m.threads n (next (exec c m.store op).1)
        log := m.log ++ [⟨n,c,op,m.store⟩] } := by
  simp [step,h]

theorem step_ret {m : Machine ι C σ Op Reply α} {n : ι} {a : α} (h : m.threads n = .ret a) (c : C) :
    m.step exec n c = m := by
  simp [step,h]

/-- Induction along a schedule: only steps that issue an operation need an argument,
and each starts in a state the run really reaches. -/
theorem run_induction (I : Machine ι C σ Op Reply α → Prop) (m : Machine ι C σ Op Reply α) (hm : I m)
    (sched : List (ι × C))
    (hstep : ∀ xs n c ys op next, sched = xs ++ (n,c) :: ys → (m.run exec xs).threads n = .call op next →
      I (m.run exec xs) → I ((m.run exec xs).step exec n c)) : I (m.run exec sched) := by
  induction sched using List.reverseRecOn with
  | nil => exact hm
  | append_singleton sched x ih =>
    have hI : I (m.run exec sched) := by
      apply ih
      intro xs n c ys op next hs
      exact hstep xs n c (ys ++ [x]) op next (by simp [hs])
    have hrun : m.run exec (sched ++ [x]) = (m.run exec sched).step exec x.1 x.2 := by simp [run]
    rw [hrun]
    cases hx : (m.run exec sched).threads x.1 with
    | ret a => rwa [step_ret exec hx]
    | call op next => exact hstep sched x.1 x.2 [] op next rfl hx hI

/-- A thread that is scheduled alone until it ends does what its program does by itself. -/
theorem run_alone (m : Machine ι C σ Op Reply α) (n : ι) (c : Nat → C) :
    ∃ k, (m.run exec ((List.range k).map (fun i => (n,c i)))).store = ((m.threads n).run exec c m.store).2 ∧
      (m.run exec ((List.range k).map (fun i => (n,c i)))).threads =
        Function.update m.threads n (.ret ((m.threads n).run exec c m.store).1) := by
  generalize hp : m.threads n = p
  induction p generalizing m c with
  | ret a => exact ⟨0,rfl,by rw [Program.run_ret,← hp,Function.update_eq_self]; rfl⟩
  | call op next ih =>
    have hstep := step_call exec hp (c 0)
    obtain ⟨k,hstore,hthreads⟩ := ih (exec (c 0) m.store op).1 (m.step exec n (c 0)) (fun i => c (i+1))
      (by rw [hstep]; exact Function.update_self ..)
    have hrange : (List.range (k+1)).map (fun i => (n,c i)) = (n,c 0) :: (List.range k).map (fun i => (n,c (i+1))) := by
      rw [List.range_succ_eq_map,List.map_cons,List.map_map]
      rfl
    refine ⟨k+1,?_,?_⟩
    · rw [hrange]
      refine hstore.trans ?_
      rw [hstep,Program.run_call]
    · rw [hrange]
      refine hthreads.trans ?_
      rw [hstep,Program.run_call]
      exact Function.update_idem ..

theorem run_invariant (I : Machine ι C σ Op Reply α → Prop)
    (hstep : ∀ m n c op next, m.threads n = .call op next → I m → I (m.step exec n c))
    (m : Machine ι C σ Op Reply α) (hm : I m) (sched : List (ι × C)) : I (m.run exec sched) :=
  run_induction exec I m hm sched (fun _ n c _ op next _ => hstep _ n c op next)

/-- A run only appends to the log. What it appends links the stores, takes its
choices from the schedule, and leads every thread from its program then to its
program now. -/
theorem run_extends (m : Machine ι C σ Op Reply α) (sched : List (ι × C)) :
    ∃ tail, (m.run exec sched).log = m.log ++ tail ∧ Chain exec m.store tail (m.run exec sched).store ∧
      (∀ e ∈ tail, (e.thread,e.choice) ∈ sched) ∧
      ∀ n, Program.Path (m.threads n) (exchanges exec n tail) ((m.run exec sched).threads n) := by
  refine run_induction exec (fun m' => ∃ tail, m'.log = m.log ++ tail ∧ Chain exec m.store tail m'.store ∧
    (∀ e ∈ tail, (e.thread,e.choice) ∈ sched) ∧
    ∀ n, Program.Path (m.threads n) (exchanges exec n tail) (m'.threads n)) m
    ⟨[],by simp,rfl,by simp,fun n => .refl _⟩ sched ?_
  rintro xs n c ys op next rfl hn ⟨tail,hlog,hchain,hsched,hpath⟩
  rw [step_call exec hn]
  refine ⟨tail ++ [⟨n,c,op,(m.run exec xs).store⟩],by simp [hlog],?_,?_,fun k => ?_⟩
  · exact (Chain.append_iff _ _).mpr ⟨_,hchain,rfl,rfl⟩
  · intro e he
    rcases List.mem_append.mp he with he | he
    · exact hsched e he
    · rw [List.mem_singleton] at he
      subst he
      simp
  · rw [exchanges_append]
    by_cases hk : n = k
    · subst hk
      have h := hpath n
      rw [hn] at h
      simpa using h.snoc (exec c (m.run exec xs).store op).1
    · rw [exchanges_cons_of_ne exec hk]
      simpa [Function.update_of_ne (Ne.symm hk)] using hpath k

variable (s : σ) (threads : ι → Program Op Reply α) (sched : List (ι × C))

/-- The log of a run links the initial store to the present one. -/
theorem run_chain : Chain exec s ((start s threads).run exec sched).log ((start s threads).run exec sched).store := by
  obtain ⟨tail,hlog,hchain,-⟩ := run_extends exec (start s threads) sched
  rw [hlog]
  exact hchain

/-- The logged exchanges of a thread lead from its initial program to what is left of it. -/
theorem run_path (n : ι) :
    Program.Path (threads n) (exchanges exec n ((start s threads).run exec sched).log)
      (((start s threads).run exec sched).threads n) := by
  obtain ⟨tail,hlog,-,-,hpath⟩ := run_extends exec (start s threads) sched
  rw [hlog]
  exact hpath n

/-- Behind every logged event stands the state in which it was issued. -/
theorem run_event {l₁ l₂ : List (Event ι C σ Op)} {n : ι} {c : C} {op : Op} {t : σ}
    (h : ((start s threads).run exec sched).log = l₁ ++ ⟨n,c,op,t⟩ :: l₂) :
    ∃ xs ys next, sched = xs ++ (n,c) :: ys ∧ ((start s threads).run exec xs).log = l₁ ∧
      ((start s threads).run exec xs).store = t ∧ ((start s threads).run exec xs).threads n = .call op next := by
  have hall := run_induction exec (fun m => ∀ l₁ l₂, m.log = l₁ ++ ⟨n,c,op,t⟩ :: l₂ →
    ∃ xs ys next, sched = xs ++ (n,c) :: ys ∧ ((start s threads).run exec xs).log = l₁ ∧
      ((start s threads).run exec xs).store = t ∧ ((start s threads).run exec xs).threads n = .call op next)
    (start s threads) (by simp [start]) sched
  refine hall ?_ l₁ l₂ h
  intro xs k d ys op' next hsched hk ih l₁ l₂ hlog
  rw [step_call exec hk] at hlog
  rcases List.eq_nil_or_concat l₂ with rfl | ⟨l₂,e,rfl⟩
  · -- the event is the one this step has logged
    obtain ⟨hpre,hlast⟩ := List.append_inj' hlog rfl
    cases hlast
    exact ⟨xs,ys,next,hsched,hpre,rfl,hk⟩
  · rw [List.concat_eq_append,← List.cons_append,← List.append_assoc] at hlog
    exact ih l₁ l₂ (List.append_inj' hlog rfl).1

/-- Interference freedom. A fact about one thread, its exchanges so far and the
store holds throughout if the thread's own steps establish it and no step of
another thread destroys it. -/
theorem run_interference (F : ι → List (Exchange Op Reply) → Program Op Reply α → σ → Prop)
    (hstart : ∀ n, F n [] (threads n) s)
    (hown : ∀ n es op next c t, Program.Path (threads n) es (.call op next) → F n es (.call op next) t →
      F n (es ++ [⟨op,(exec c t op).1⟩]) (next (exec c t op).1) (exec c t op).2)
    (hother : ∀ xs n c ys op next k es, sched = xs ++ (n,c) :: ys →
      ((start s threads).run exec xs).threads n = .call op next → k ≠ n →
      F k es (((start s threads).run exec xs).threads k) ((start s threads).run exec xs).store →
      F k es (((start s threads).run exec xs).threads k) (exec c ((start s threads).run exec xs).store op).2)
    (n : ι) :
    F n (exchanges exec n ((start s threads).run exec sched).log) (((start s threads).run exec sched).threads n)
      ((start s threads).run exec sched).store := by
  revert n
  refine run_induction exec (fun m => ∀ n, F n (exchanges exec n m.log) (m.threads n) m.store)
    (start s threads) (by simpa [start] using hstart) sched ?_
  intro xs k c ys op next hsched hk ih n
  rw [step_call exec hk]
  simp only [exchanges_append]
  by_cases hn : k = n
  · subst hn
    have hpath := run_path exec s threads xs k
    have hF := ih k
    rw [hk] at hpath hF
    simpa using hown k _ op next c _ hpath hF
  · rw [exchanges_cons_of_ne exec hn,exchanges_nil,List.append_nil,Function.update_of_ne (Ne.symm hn)]
    exact hother xs k c ys op next n _ hsched hk (Ne.symm hn) (ih n)

/-- The guard `G` holds before every step of the schedule. -/
def Guarded (G : Machine ι C σ Op Reply α → ι → Prop) : Machine ι C σ Op Reply α → List (ι × C) → Prop
  | _, [] => True
  | m, x :: xs => G m x.1 ∧ Guarded G (m.step exec x.1 x.2) xs

instance Guarded.decidable (G : Machine ι C σ Op Reply α → ι → Prop) [hG : ∀ m n, Decidable (G m n)] :
    (m : Machine ι C σ Op Reply α) → (sched : List (ι × C)) → Decidable (Guarded exec G m sched)
  | _, [] => .isTrue trivial
  | m, x :: xs =>
    have := Guarded.decidable G (m.step exec x.1 x.2) xs
    inferInstanceAs (Decidable (G m x.1 ∧ Guarded exec G (m.step exec x.1 x.2) xs))

theorem Guarded.left {G : Machine ι C σ Op Reply α → ι → Prop} {m : Machine ι C σ Op Reply α}
    {xs ys : List (ι × C)} (h : Guarded exec G m (xs ++ ys)) : Guarded exec G m xs := by
  induction xs generalizing m with
  | nil => trivial
  | cons x xs ih => exact ⟨h.1,ih h.2⟩

theorem Guarded.snoc {G : Machine ι C σ Op Reply α → ι → Prop} {m : Machine ι C σ Op Reply α} {n : ι}
    {xs : List (ι × C)} (h : Guarded exec G m xs) (hn : G (m.run exec xs) n) (c : C) : Guarded exec G m (xs ++ [(n,c)]) := by
  induction xs generalizing m with
  | nil => exact ⟨hn,trivial⟩
  | cons x xs ih => exact ⟨h.1,ih h.2 hn⟩

theorem Guarded.before {G : Machine ι C σ Op Reply α → ι → Prop} {m : Machine ι C σ Op Reply α} {n : ι} {c : C}
    {xs ys : List (ι × C)} (h : Guarded exec G m (xs ++ (n,c) :: ys)) : G (m.run exec xs) n := by
  induction xs generalizing m with
  | nil => exact h.1
  | cons x xs ih => exact ih h.2

/-- What every program guarantees about its operations holds of every logged one. -/
theorem run_everywhere {P : ι → (op : Op) → (Reply op → Program Op Reply α) → Prop}
    (hP : ∀ n, (threads n).Everywhere (P n)) (e : Event ι C σ Op)
    (he : e ∈ ((start s threads).run exec sched).log) : ∃ next, P e.thread e.op next := by
  obtain ⟨l₁,l₂,hlog⟩ := List.append_of_mem he
  obtain ⟨xs,ys,next,-,-,-,hcall⟩ := run_event exec s threads sched hlog
  have hpath := run_path exec s threads xs e.thread
  rw [hcall] at hpath
  exact ⟨next,((hP e.thread).path hpath).1⟩

end Machine

/-- Whether a program has finished with a value that `A` accepts. -/
def Program.answered (A : α → Bool) : Program Op Reply α → Bool
  | .ret a => A a
  | .call _ _ => false

theorem Program.answered_and (A : α → Bool) (b : Bool) (p : Program Op Reply α) :
    p.answered (fun a => A a && b) = (p.answered A && b) := by
  cases p <;> simp [answered]

section Counting
variable [DecidableEq ι] [Fintype ι] (exec : C → σ → (op : Op) → Reply op × σ)

private theorem card_update (f : ι → Bool) (n : ι) (b : Bool) (hf : f n = false) :
    (Finset.univ.filter (fun k => Function.update f n b k)).card =
      (Finset.univ.filter (fun k => f k)).card + b.toNat := by
  cases b with
  | false =>
    rw [← hf,Function.update_eq_self]
    simp [hf]
  | true =>
    have hins : Finset.univ.filter (fun k => Function.update f n true k) =
        insert n (Finset.univ.filter (fun k => f k)) := by
      ext k
      by_cases hk : k = n
      · subst hk; simp
      · simp [hk]
    rw [hins,Finset.card_insert_of_notMem (by simp [hf])]
    rfl

/-- If a thread gives an accepted answer exactly on the exchanges `commit` marks,
then the accepted answers of a run are counted by the marked events of its log. -/
theorem Machine.card_answered (A : ι → α → Bool) (commit : ι → Exchange Op Reply → Bool)
    (s : σ) (threads : ι → Program Op Reply α) (sched : List (ι × C))
    (hstart : ∀ n, (threads n).answered (A n) = false)
    (hcommit : ∀ n, (threads n).Everywhere (fun op next => ∀ r, (next r).answered (A n) = commit n ⟨op,r⟩)) :
    (Finset.univ.filter (fun n => (((start s threads).run exec sched).threads n).answered (A n))).card =
      ((start s threads).run exec sched).log.countP (fun e => commit e.thread (e.exchange exec)) := by
  have h : (∀ n, (((start s threads).run exec sched).threads n).Everywhere
        (fun op next => ∀ r, (next r).answered (A n) = commit n ⟨op,r⟩)) ∧
      (Finset.univ.filter (fun n => (((start s threads).run exec sched).threads n).answered (A n))).card =
        ((start s threads).run exec sched).log.countP (fun e => commit e.thread (e.exchange exec)) := by
    refine Machine.run_invariant exec (fun m => (∀ n, (m.threads n).Everywhere
        (fun op next => ∀ r, (next r).answered (A n) = commit n ⟨op,r⟩)) ∧
      (Finset.univ.filter (fun n => (m.threads n).answered (A n))).card =
        m.log.countP (fun e => commit e.thread (e.exchange exec))) ?_ _ ⟨hcommit,?_⟩ sched
    · intro m n c op next hn ⟨hall,hcount⟩
      have hthis := hall n
      rw [hn] at hthis
      rw [Machine.step_call exec hn]
      refine ⟨fun k => ?_,?_⟩
      · by_cases hk : k = n
        · subst hk
          simpa using hthis.2 _
        · simpa [Function.update_of_ne hk] using hall k
      · have hfun : (fun k => ((Function.update m.threads n (next (exec c m.store op).1)) k).answered (A k)) =
            Function.update (fun k => (m.threads k).answered (A k)) n
              ((next (exec c m.store op).1).answered (A n)) := by
          funext k
          by_cases hk : k = n
          · subst hk; simp
          · simp [Function.update_of_ne hk]
        have hpending : (m.threads n).answered (A n) = false := by rw [hn]; rfl
        have hcard := card_update (fun k => (m.threads k).answered (A k)) n
          ((next (exec c m.store op).1).answered (A n)) hpending
        simp only [← hfun] at hcard
        rw [hcard,hcount,List.countP_append,hthis.1]
        cases hb : commit n ⟨op,(exec c m.store op).1⟩ <;>
          simp [Event.exchange,Event.reply,hb]
    · simp [Machine.start,hstart]
  exact h.2

end Counting
end Thintuit.Interaction
