import Thintuit.Interaction.Leases

/-! Leases that come from a pool. Of the pool nothing is known but when it can grant a lease and
how the number of free ones moves; a program that waits for a lease can go on once one is
free. -/
namespace Thintuit.Interaction
variable {ι C σ τ P Op α E : Type} {Reply : Op → Type}

namespace Machine

/-- The same run, seen through a function of the store. -/
def mapStore (f : σ → τ) (m : Machine ι C σ Op Reply α) : Machine ι C τ Op Reply α :=
  ⟨f m.store,m.threads,m.log.map (fun e => ⟨e.thread,e.choice,e.op,f e.before⟩)⟩

theorem run_mapStore [DecidableEq ι] {exec : C → σ → (op : Op) → Reply op × σ} {exec' : C → τ → (op : Op) → Reply op × τ}
    (f : σ → τ) (h : ∀ c s op, exec' c (f s) op = ((exec c s op).1,f (exec c s op).2)) (m : Machine ι C σ Op Reply α)
    (sched : List (ι × C)) : (m.run exec sched).mapStore f = (m.mapStore f).run exec' sched := by
  induction sched generalizing m with
  | nil => rfl
  | cons x sched ih =>
    obtain ⟨n,c⟩ := x
    change ((m.step exec n c).run exec sched).mapStore f = ((m.mapStore f).step exec' n c).run exec' sched
    rw [ih]
    congr 1
    cases hn : m.threads n with
    | ret a => rw [step_ret _ hn,step_ret _ (show (m.mapStore f).threads n = _ from hn)]
    | call op next =>
      rw [step_call _ hn,step_call _ (show (m.mapStore f).threads n = _ from hn)]
      simp [mapStore,h]

end Machine

/-- What a pool does: whether it can grant a lease, and what becomes of it when a lease is taken,
refused or given back. -/
structure Pooling (C P : Type) where
  available : P → Bool
  taken : C → P → P
  refused : C → P → P
  returned : C → P → P

/-- The leases of a pool are counted by `free`. One that is given back is free again, and may be
lost only where giving it back has raised. -/
structure Pooling.Counts (pool : Pooling C P) (returned : C → Except E Unit) (free : P → Nat) : Prop where
  available_iff : ∀ p, pool.available p = true ↔ 0 < free p
  taken : ∀ c p, 0 < free p → free (pool.taken c p) + 1 = free p
  refused : ∀ c p, free (pool.refused c p) = free p
  returned : ∀ c p, returned c = .ok () → free (pool.returned c p) = free p + 1
  raised : ∀ c p, free p ≤ free (pool.returned c p) ∧ free (pool.returned c p) ≤ free p + 1

namespace Leasing
variable (L : Leasing C Op Reply E) (pool : Pooling C P)

/-- The pool after an operation, which may have asked for a lease. -/
def drawn (c : C) (op : Op) (r : Reply op) (p : P) : P :=
  if L.asks op then (if L.granted op r then pool.taken c p else pool.refused c p) else p

/-- The operations on a store behind a pool. -/
def pooled (exec : C → σ → (op : Op) → Reply op × σ) (c : C) (t : σ × P) :
    (op : Leased Op) → Leased.Answer Reply E op × (σ × P)
  | .run op => ((exec c t.1 op).1,(exec c t.1 op).2,L.drawn pool c op (exec c t.1 op).1 t.2)
  | .release => (L.returned c,t.1,pool.returned c t.2)

/-- The pool decides who waits, and nothing else. -/
theorem pooled_fst (exec : C → σ → (op : Op) → Reply op × σ) (c : C) (t : σ × P) (op : Leased Op) :
    L.exec exec c t.1 op = ((L.pooled pool exec c t op).1,(L.pooled pool exec c t op).2.1) := by
  cases op <;> rfl

/-- How many returns have raised. -/
def raisedReturns (log : List (Event ι C σ (Leased Op))) : Nat :=
  log.countP (fun e =>
    match e.op, L.returned e.choice with
    | .release, .error _ => true
    | _, _ => false)

/-- Whether the program is about to ask for a lease. -/
def waits : Program (Leased Op) (Leased.Answer Reply E) α → Bool
  | .call (.run op) _ => L.asks op
  | _ => false

/-- A thread that asks for a lease can go on only while the pool can grant one. -/
def ready (m : Machine ι C (σ × P) (Leased Op) (Leased.Answer Reply E) α) (n : ι) : Bool :=
  !L.waits (m.threads n) || pool.available m.store.2

section Steps
variable {L pool} {free : P → Nat} (hpool : pool.Counts L.returned free) (exec : C → σ → (op : Op) → Reply op × σ)
include hpool

theorem drawn_free {op : Op} (c : C) (r : Reply op) (p : P) (hready : L.asks op = true → 0 < free p) :
    free (L.drawn pool c op r p) + (L.takes op r).toNat = free p := by
  unfold drawn takes
  cases hasks : L.asks op with
  | false => rfl
  | true =>
    cases hgranted : L.granted op r with
    | false => simpa using hpool.refused c p
    | true => simpa using hpool.taken c p (hready hasks)

/-- One operation: what is free and what is held stays the same, but for a return that raises. -/
theorem pooled_free {op : Leased Op} {f : Leased.Answer Reply E op → Program (Leased Op) (Leased.Answer Reply E) α} (n : ι)
    (c : C) (t : σ × P) (hready : L.waits (.call op f) = true → 0 < free t.2) :
    free (L.pooled pool exec c t op).2.2 + (L.left op (L.pooled pool exec c t op).1).toNat ≤
        free t.2 + (L.holds (.call op f)).toNat ∧
      free t.2 + (L.holds (.call op f)).toNat ≤
        free (L.pooled pool exec c t op).2.2 + (L.left op (L.pooled pool exec c t op).1).toNat +
          L.raisedReturns [⟨n,c,op,t⟩] := by
  cases op with
  | run op =>
    have hop := L.holds_add_takes op (exec c t.1 op).1 f
    have hdrawn := drawn_free hpool c (exec c t.1 op).1 t.2 hready
    simp only [pooled]
    omega
  | release =>
    have hraised := hpool.raised c t.2
    simp only [pooled,left,holds,Bool.toNat_false,Bool.toNat_true,raisedReturns,List.countP_singleton]
    cases hreturn : L.returned c with
    | ok _ =>
      have hreturned := hpool.returned c t.2 hreturn
      dsimp only
      omega
    | error e =>
      dsimp only
      rw [if_pos rfl]
      omega

end Steps

/-- The operations of a log, thread by thread. -/
private theorem sum_exchanges [DecidableEq ι] [Fintype ι] (exec : C → σ → (op : Op) → Reply op × σ)
    (log : List (Event ι C σ Op)) : ∑ n, (exchanges exec n log).length = log.length := by
  induction log with
  | nil => simp
  | cons e log ih =>
    have hone : ∀ n, (exchanges exec n (e :: log)).length = (exchanges exec n log).length + if e.thread = n then 1 else 0 := by
      intro n
      by_cases h : e.thread = n
      · simp [exchanges,h]
      · simp [exchanges_cons_of_ne exec h,h]
    simp only [hone,Finset.sum_add_distrib,ih,List.length_cons,Finset.sum_ite_eq,Finset.mem_univ,if_true]

private theorem sum_update [DecidableEq ι] [Fintype ι] (f : ι → Nat) (n : ι) (b : Nat) :
    ∑ i, Function.update f n b i + f n = ∑ i, f i + b := by
  have hrest := Finset.sum_update_of_mem (Finset.mem_univ n) f b
  have hall := Finset.sum_eq_add_sum_sdiff_singleton_of_mem (Finset.mem_univ n) f
  omega

/-! Whole runs on a pool. -/

section Runs
variable [DecidableEq ι] (exec : C → σ → (op : Op) → Reply op × σ) {fail : ι → E → α} {k : Nat}
  {threads : ι → Program (Leased Op) (Leased.Answer Reply E) α} {plain : ι → Program Op Reply α}
variable {L pool} (hreal : ∀ n, L.Realizes (fail n) k false (threads n) (plain n)) (s : σ) (p : P) (sched : List (ι × C))
include hreal

theorem run_realizes (n : ι) :
    ∃ j q, L.Realizes (fail n) j (L.holds (((Machine.start (s,p) threads).run (L.pooled pool exec) sched).threads n))
      (((Machine.start (s,p) threads).run (L.pooled pool exec) sched).threads n) q :=
  ((hreal n).path (Machine.run_path (L.pooled pool exec) (s,p) threads sched n)).2

variable {free : P → Nat} (hpool : pool.Counts L.returned free)
include hpool

/-- The free leases and the held ones make up the pool, but for those lost in a return that has raised. -/
theorem run_free [Fintype ι] (hg : Machine.Guarded (L.pooled pool exec) (fun m n => L.ready pool m n = true)
      (Machine.start (s,p) threads) sched) :
    free ((Machine.start (s,p) threads).run (L.pooled pool exec) sched).store.2 +
        ∑ n, (L.holds (((Machine.start (s,p) threads).run (L.pooled pool exec) sched).threads n)).toNat ≤ free p ∧
      free p ≤ free ((Machine.start (s,p) threads).run (L.pooled pool exec) sched).store.2 +
        ∑ n, (L.holds (((Machine.start (s,p) threads).run (L.pooled pool exec) sched).threads n)).toNat +
          L.raisedReturns ((Machine.start (s,p) threads).run (L.pooled pool exec) sched).log := by
  refine Machine.run_induction (L.pooled pool exec)
    (fun m => free m.store.2 + ∑ n, (L.holds (m.threads n)).toNat ≤ free p ∧
      free p ≤ free m.store.2 + ∑ n, (L.holds (m.threads n)).toNat + L.raisedReturns m.log) _ ?_ sched ?_
  · have hnone : ∀ n, L.holds (threads n) = false := fun n => (hreal n).holds_eq
    simp [Machine.start,hnone]
  · rintro xs n c ys op next rfl hn hsum
    have hready := hg.before
    obtain ⟨j,q,hthread⟩ := run_realizes exec hreal s p xs n
    generalize (Machine.start (s,p) threads).run (L.pooled pool exec) xs = m at hn hsum hready hthread ⊢
    rw [hn] at hthread
    obtain ⟨_,_,-,hnext⟩ := hthread.next (L.pooled pool exec c m.store op).1
    have hfree := pooled_free hpool exec (f := next) n c m.store (by
      intro hw
      apply (hpool.available_iff _).mp
      simpa [ready,hn,hw] using hready)
    have hlog : L.raisedReturns (m.log ++ [⟨n,c,op,m.store⟩]) =
        L.raisedReturns m.log + L.raisedReturns [⟨n,c,op,m.store⟩] := List.countP_append
    have hupdate : (fun i => (L.holds (Function.update m.threads n (next (L.pooled pool exec c m.store op).1) i)).toNat) =
        Function.update (fun i => (L.holds (m.threads i)).toNat) n (L.left op (L.pooled pool exec c m.store op).1).toNat := by
      funext i
      by_cases hi : i = n
      · subst hi; simp [hnext.holds_eq]
      · simp [Function.update_of_ne hi]
    have hsums : ∑ i, (L.holds (Function.update m.threads n (next (L.pooled pool exec c m.store op).1) i)).toNat +
        (L.holds (.call op next)).toNat =
          ∑ i, (L.holds (m.threads i)).toNat + (L.left op (L.pooled pool exec c m.store op).1).toNat := by
      rw [hupdate,← hn]
      exact sum_update (fun i => (L.holds (m.threads i)).toNat) n _
    rw [Machine.step_call _ hn]
    dsimp only
    omega

/-- No deadlock as long as fewer returns have raised than there are leases: a thread that waits in
vain means that some lease is held, and whoever holds one does not wait. -/
theorem run_progress [Fintype ι] (hg : Machine.Guarded (L.pooled pool exec) (fun m n => L.ready pool m n = true)
      (Machine.start (s,p) threads) sched)
    (hraised : L.raisedReturns ((Machine.start (s,p) threads).run (L.pooled pool exec) sched).log < free p)
    {n : ι} {op : Leased Op} {next : Leased.Answer Reply E op → Program (Leased Op) (Leased.Answer Reply E) α}
    (hn : ((Machine.start (s,p) threads).run (L.pooled pool exec) sched).threads n = .call op next) :
    ∃ i op next, ((Machine.start (s,p) threads).run (L.pooled pool exec) sched).threads i = .call op next ∧
      L.ready pool ((Machine.start (s,p) threads).run (L.pooled pool exec) sched) i = true := by
  have hfree := (run_free exec hreal s p sched hpool hg).2
  generalize (Machine.start (s,p) threads).run (L.pooled pool exec) sched = m at hn hfree hraised ⊢
  by_cases hready : L.ready pool m n = true
  · exact ⟨n,op,next,hn,hready⟩
  · have hempty : free m.store.2 = 0 := by
      by_contra hpos
      rw [ready,(hpool.available_iff _).mpr (Nat.pos_of_ne_zero hpos),Bool.or_true] at hready
      exact hready rfl
    obtain ⟨i,-,hi⟩ := Finset.exists_ne_zero_of_sum_ne_zero (by omega : ∑ n, (L.holds (m.threads n)).toNat ≠ 0)
    refine ⟨i,?_⟩
    cases hthread : m.threads i with
    | ret a => rw [hthread] at hi; exact absurd rfl hi
    | call op next =>
      refine ⟨op,next,rfl,?_⟩
      cases op with
      | release => simp [ready,hthread,waits]
      | run op =>
        cases hasks : L.asks op with
        | true => simp [hthread,holds,hasks] at hi
        | false => simp [ready,hthread,waits,hasks]

omit hpool in
/-- Every run is finite: no thread issues more than its `k` operations. -/
theorem run_length_le [Fintype ι] :
    ((Machine.start (s,p) threads).run (L.pooled pool exec) sched).log.length ≤ Fintype.card ι * k := by
  rw [← sum_exchanges (L.pooled pool exec),← smul_eq_mul,← Finset.card_univ]
  apply Finset.sum_le_card_nsmul
  intro n _
  exact ((hreal n).path (Machine.run_path (L.pooled pool exec) (s,p) threads sched n)).1

/-- Every run can be carried on until all threads have finished, with no further return that raises. -/
theorem run_finishes [Fintype ι] (pick : ι → C) (hpick : ∀ n, L.returned (pick n) = .ok ())
    (hg : Machine.Guarded (L.pooled pool exec) (fun m n => L.ready pool m n = true) (Machine.start (s,p) threads) sched)
    (hraised : L.raisedReturns ((Machine.start (s,p) threads).run (L.pooled pool exec) sched).log < free p) :
    ∃ ns : List ι,
      Machine.Guarded (L.pooled pool exec) (fun m n => L.ready pool m n = true) (Machine.start (s,p) threads)
        (sched ++ ns.map (fun n => (n,pick n))) ∧
      L.raisedReturns ((Machine.start (s,p) threads).run (L.pooled pool exec) (sched ++ ns.map (fun n => (n,pick n)))).log =
        L.raisedReturns ((Machine.start (s,p) threads).run (L.pooled pool exec) sched).log ∧
      ∀ n, ∃ a, ((Machine.start (s,p) threads).run (L.pooled pool exec) (sched ++ ns.map (fun n => (n,pick n)))).threads n =
        .ret a := by
  -- on the number of operations that are left to the threads together
  induction hd : Fintype.card ι * k - ((Machine.start (s,p) threads).run (L.pooled pool exec) sched).log.length
    using Nat.strong_induction_on generalizing sched with
  | _ d ih =>
    by_cases hall : ∀ n, ∃ a, ((Machine.start (s,p) threads).run (L.pooled pool exec) sched).threads n = .ret a
    · exact ⟨[],by simpa using hg,by simp,by simpa using hall⟩
    · obtain ⟨n,hn⟩ := not_forall.mp hall
      obtain ⟨op,next,hcall⟩ : ∃ op next,
          ((Machine.start (s,p) threads).run (L.pooled pool exec) sched).threads n = .call op next := by
        cases h : ((Machine.start (s,p) threads).run (L.pooled pool exec) sched).threads n with
        | ret a => exact absurd ⟨a,h⟩ hn
        | call op next => exact ⟨op,next,rfl⟩
      obtain ⟨i,op,next,hi,hready⟩ := run_progress exec hreal s p sched hpool hg hraised hcall
      have hlog : ((Machine.start (s,p) threads).run (L.pooled pool exec) (sched ++ [(i,pick i)])).log =
          ((Machine.start (s,p) threads).run (L.pooled pool exec) sched).log ++
            [⟨i,pick i,op,((Machine.start (s,p) threads).run (L.pooled pool exec) sched).store⟩] := by
        rw [Machine.run_append,Machine.run,List.foldl_cons,List.foldl_nil,Machine.step_call _ hi]
      have hsame : L.raisedReturns ((Machine.start (s,p) threads).run (L.pooled pool exec) (sched ++ [(i,pick i)])).log =
          L.raisedReturns ((Machine.start (s,p) threads).run (L.pooled pool exec) sched).log := by
        rw [hlog,raisedReturns,List.countP_append]
        simp [raisedReturns,hpick]
      have hbound : ((Machine.start (s,p) threads).run (L.pooled pool exec) (sched ++ [(i,pick i)])).log.length ≤ _ :=
        run_length_le exec hreal s p _
      rw [hlog,List.length_append,List.length_singleton] at hbound
      obtain ⟨ns,hguard,hcount,hdone⟩ := ih _ (by rw [hlog,List.length_append,List.length_singleton]; omega)
        (sched ++ [(i,pick i)]) (hg.snoc _ hready _) (hsame ▸ hraised) rfl
      refine ⟨i :: ns,?_,?_,?_⟩
      · simpa using hguard
      · rw [← hsame,← hcount]
        simp
      · simpa using hdone

end Runs
end Leasing
end Thintuit.Interaction
