import Thintuit.Interaction.Interleaving

/-! When an interleaving is as good as a serial run. Programs that change the store with their
last operation only, and whose earlier operations would be answered alike at every later
one of their own, have done together what they do one after another, in the order in
which they finish. -/
namespace Thintuit.Interaction
variable {ι C σ Op α : Type} {Reply : Op → Type} (exec : C → σ → (op : Op) → Reply op × σ)

namespace Program

/-- Only an operation that ends the program changes the store. -/
def WritesLast (p : Program Op Reply α) : Prop :=
  p.Everywhere (fun op next => ∀ c s, (exec c s op).2 = s ∨ ∃ a, next (exec c s op).1 = .ret a)

/-- A program that has got to its last operation by replies it would have again on the store
`t` ends on `t` without interruption as it ends by this operation. -/
theorem run_of_repeats {p : Program Op Reply α} (hp : p.WritesLast exec) {es : List (Event ι C σ Op)} {op : Op}
    {next : Reply op → Program Op Reply α} (hpath : Path p (es.map (Event.exchange exec)) (.call op next)) (t : σ)
    (hsame : ∀ e ∈ es, (exec e.choice t e.op).1 = e.reply exec) (c : Nat → C)
    (hc : ∀ k e, es[k]? = some e → c k = e.choice) {a : α} (ha : next (exec (c es.length) t op).1 = .ret a) :
    p.run exec c t = (a,(exec (c es.length) t op).2) := by
  induction es generalizing p c with
  | nil =>
    cases hpath
    change next (exec (c 0) t op).1 = .ret a at ha
    rw [run_call,ha]
    rfl
  | cons e es ih =>
    cases hpath with | @call _ f _ _ _ hpath =>
    have hchoice : c 0 = e.choice := hc 0 e rfl
    have hreply : (exec e.choice t e.op).1 = e.reply exec := hsame e List.mem_cons_self
    have hstore : (exec e.choice t e.op).2 = t := by
      rcases hp.1 e.choice t with h | ⟨b,hb⟩
      · exact h
      · rw [hreply] at hb
        change Path (f (e.reply exec)) _ _ at hpath
        rw [hb] at hpath
        simp at hpath
    rw [run_call,hchoice,hreply,hstore]
    exact ih (hp.2 _) hpath (fun x hx => hsame x (List.mem_cons_of_mem _ hx)) (fun k => c (k+1))
      (fun k x hx => hc (k+1) x hx) ha

end Program

variable [DecidableEq ι]

/-- The choices the environment has made for one thread, in order, and `d` beyond them. -/
def choicesOf (d : C) (n : ι) (log : List (Event ι C σ Op)) (k : Nat) : C :=
  ((log.filter (fun e => e.thread = n))[k]?).elim d Event.choice

theorem choicesOf_snoc_of_ne (d : C) {n : ι} (log : List (Event ι C σ Op)) {e : Event ι C σ Op} (h : e.thread ≠ n) :
    choicesOf d n (log ++ [e]) = choicesOf d n log := by
  funext k
  simp [choicesOf,h]

/-- The choice for the operation that comes next is the one after all made so far. -/
theorem choicesOf_snoc_length (d : C) (n : ι) (log : List (Event ι C σ Op)) (c : C) (op : Op) (t : σ) :
    choicesOf d n (log ++ [⟨n,c,op,t⟩]) (log.filter (fun e => e.thread = n)).length = c := by
  simp [choicesOf]

theorem choicesOf_snoc_of_lt (d : C) (n : ι) (log : List (Event ι C σ Op)) (x : Event ι C σ Op) {k : Nat}
    {e : Event ι C σ Op} (h : (log.filter (fun e => e.thread = n))[k]? = some e) :
    choicesOf d n (log ++ [x]) k = e.choice := by
  have hk : k < (log.filter (fun e => e.thread = n)).length := (List.getElem?_eq_some_iff.mp h).1
  rw [choicesOf,List.filter_append,List.getElem?_append_left hk,h]
  rfl

namespace Machine

/-- Every operation the thread has issued would be answered now as it was. -/
def Repeats (m : Machine ι C σ Op Reply α) (n : ι) : Prop :=
  ∀ e ∈ m.log, e.thread = n → (exec e.choice m.store e.op).1 = e.reply exec

theorem Guarded.mono {exec : C → σ → (op : Op) → Reply op × σ} {G H : Machine ι C σ Op Reply α → ι → Prop}
    (h : ∀ m n, G m n → H m n) {m : Machine ι C σ Op Reply α} {xs : List (ι × C)} (hg : Guarded exec G m xs) :
    Guarded exec H m xs := by
  induction xs generalizing m with
  | nil => trivial
  | cons x xs ih => exact ⟨h _ _ hg.1,ih hg.2⟩

/-- The threads that a schedule brings to their end, in order. -/
def finishing (m : Machine ι C σ Op Reply α) : List (ι × C) → List ι
  | [] => []
  | (n,c) :: xs =>
    if !(m.threads n).answered (fun _ => true) && ((m.step exec n c).threads n).answered (fun _ => true) then
      n :: finishing (m.step exec n c) xs
    else finishing (m.step exec n c) xs

theorem finishing_append (m : Machine ι C σ Op Reply α) (xs ys : List (ι × C)) :
    finishing exec m (xs ++ ys) = finishing exec m xs ++ finishing exec (m.run exec xs) ys := by
  induction xs generalizing m with
  | nil => rfl
  | cons x xs ih =>
    rw [List.cons_append,finishing,finishing,ih]
    split <;> rfl

variable {exec} {m : Machine ι C σ Op Reply α} {n : ι} {c : C}

theorem step_thread {op : Op} {next : Reply op → Program Op Reply α} (hn : m.threads n = .call op next) :
    (m.step exec n c).threads n = next (exec c m.store op).1 := by
  rw [step_call exec hn]
  exact Function.update_self ..

theorem finishing_of_ret {a : α} (hn : m.threads n = .ret a) : finishing exec m [(n,c)] = [] := by
  simp [finishing,hn,Program.answered]

theorem finishing_of_end {op : Op} {next : Reply op → Program Op Reply α} {a : α} (hn : m.threads n = .call op next)
    (hnext : next (exec c m.store op).1 = .ret a) : finishing exec m [(n,c)] = [n] := by
  simp [finishing,hn,step_thread hn,hnext,Program.answered]

theorem finishing_of_call {op op' : Op} {next : Reply op → Program Op Reply α} {next' : Reply op' → Program Op Reply α}
    (hn : m.threads n = .call op next) (hnext : next (exec c m.store op).1 = .call op' next') :
    finishing exec m [(n,c)] = [] := by
  simp [finishing,step_thread hn,hnext,Program.answered]

end Machine

omit [DecidableEq ι] in
/-- The programs run one after another. -/
def serially (threads : ι → Program Op Reply α) (pick : ι → Nat → C) (s : σ) (order : List ι) : σ :=
  order.foldl (fun s n => ((threads n).run exec (pick n) s).2) s

section Serially
variable {threads : ι → Program Op Reply α} {pick pick' : ι → Nat → C}

omit [DecidableEq ι] in
theorem serially_congr {order : List ι} (h : ∀ n ∈ order, pick n = pick' n) (s : σ) :
    serially exec threads pick s order = serially exec threads pick' s order := by
  induction order generalizing s with
  | nil => rfl
  | cons n order ih =>
    have hn := h n List.mem_cons_self
    rw [serially,List.foldl_cons,hn]
    exact ih (fun k hk => h k (List.mem_cons_of_mem _ hk)) _

/-- An operation of a thread that is not among them leaves the serial run of the others alone. -/
theorem serially_snoc {n : ι} {order : List ι} (hn : n ∉ order) (d : ι → C) (log : List (Event ι C σ Op)) (c : C) (op : Op)
    (t s : σ) :
    serially exec threads (fun k => choicesOf (d k) k (log ++ [⟨n,c,op,t⟩])) s order =
      serially exec threads (fun k => choicesOf (d k) k log) s order := by
  apply serially_congr
  intro k hk
  apply choicesOf_snoc_of_ne
  rintro rfl
  exact hn hk

end Serially

namespace Machine
variable {exec} {threads : ι → Program Op Reply α} {s : σ} {d : ι → C}

/-- The run so far is the serial run of `order`: it has left the store, and each of its threads
has ended as it ends there. -/
structure Serial (exec : C → σ → (op : Op) → Reply op × σ) (threads : ι → Program Op Reply α) (s : σ) (d : ι → C) (m : Machine ι C σ Op Reply α) (order : List ι) :
    Prop where
  store : serially exec threads (fun n => choicesOf (d n) n m.log) s order = m.store
  answers : ∀ xs n ys, order = xs ++ n :: ys → m.threads n =
    .ret ((threads n).run exec (choicesOf (d n) n m.log) (serially exec threads (fun n => choicesOf (d n) n m.log) s xs)).1

namespace Serial
variable {m : Machine ι C σ Op Reply α} {order : List ι} {n : ι} {op : Op} {next : Reply op → Program Op Reply α}

theorem not_mem (h : Serial exec threads s d m order) (hn : m.threads n = .call op next) : n ∉ order := by
  intro hmem
  obtain ⟨xs,ys,hsplit⟩ := List.append_of_mem hmem
  cases (h.answers xs n ys hsplit).symm.trans hn

/-- An operation that leaves the store and does not end its thread. -/
theorem silent (h : Serial exec threads s d m order) (hn : m.threads n = .call op next) (c : C)
    (hstore : (exec c m.store op).2 = m.store) : Serial exec threads s d (m.step exec n c) order := by
  have hnot := h.not_mem hn
  rw [step_call exec hn]
  constructor
  · dsimp only
    rw [serially_snoc exec hnot,hstore]
    exact h.store
  · intro xs k ys horder
    rw [horder,List.mem_append,List.mem_cons,not_or,not_or] at hnot
    dsimp only
    rw [serially_snoc exec hnot.1,choicesOf_snoc_of_ne _ _ hnot.2.1,Function.update_of_ne (Ne.symm hnot.2.1)]
    exact h.answers xs k ys horder

/-- The last operation of a thread that would run the same way on the present store alone. -/
theorem finish (h : Serial exec threads s d m order) (hn : m.threads n = .call op next) (c : C) {a : α}
    (hret : next (exec c m.store op).1 = .ret a)
    (hrun : (threads n).run exec (choicesOf (d n) n (m.log ++ [⟨n,c,op,m.store⟩])) m.store = (a,(exec c m.store op).2)) :
    Serial exec threads s d (m.step exec n c) (order ++ [n]) := by
  have hnot := h.not_mem hn
  have hbefore : serially exec threads (fun k => choicesOf (d k) k (m.log ++ [⟨n,c,op,m.store⟩])) s order = m.store :=
    (serially_snoc exec hnot d m.log c op m.store s).trans h.store
  rw [step_call exec hn]
  constructor
  · rw [serially] at hbefore ⊢
    rw [List.foldl_append,hbefore,List.foldl_cons,List.foldl_nil,hrun]
  · intro xs k ys horder
    dsimp only
    rcases List.eq_nil_or_concat ys with rfl | ⟨zs,x,rfl⟩
    · obtain ⟨rfl,hlast⟩ := List.append_inj' horder rfl
      obtain rfl : n = k := by simpa using hlast
      rw [hbefore,hrun,Function.update_self]
      exact hret
    · rw [List.concat_eq_append,← List.cons_append,← List.append_assoc] at horder
      obtain ⟨rfl,-⟩ := List.append_inj' horder rfl
      rw [List.mem_append,List.mem_cons,not_or,not_or] at hnot
      rw [serially_snoc exec hnot.1,choicesOf_snoc_of_ne _ _ hnot.2.1,Function.update_of_ne (Ne.symm hnot.2.1)]
      exact h.answers xs k zs rfl

end Serial

/-- A schedule brings exactly those threads to their end that have issued an operation and have
none left, each once. -/
theorem finishing_spec (exec : C → σ → (op : Op) → Reply op × σ) (threads : ι → Program Op Reply α) (s : σ)
    (sched : List (ι × C)) :
    (finishing exec (start s threads) sched).Nodup ∧ ∀ k, k ∈ finishing exec (start s threads) sched ↔
      (∃ a, ((start s threads).run exec sched).threads k = .ret a) ∧
        ∃ e ∈ ((start s threads).run exec sched).log, e.thread = k := by
  induction sched using List.reverseRecOn with
  | nil => simp [finishing,run,start]
  | append_singleton sched x ih =>
    obtain ⟨n,c⟩ := x
    obtain ⟨hnodup,hmem⟩ := ih
    rw [run_append,finishing_append]
    change (_ ++ finishing exec ((start s threads).run exec sched) [(n,c)]).Nodup ∧ ∀ k, _ ↔
      (∃ a, (((start s threads).run exec sched).step exec n c).threads k = .ret a) ∧
        ∃ e ∈ (((start s threads).run exec sched).step exec n c).log, e.thread = k
    generalize (start s threads).run exec sched = m at hmem ⊢
    cases hn : m.threads n with
    | ret a =>
      rw [step_ret exec hn,finishing_of_ret hn,List.append_nil]
      exact ⟨hnodup,hmem⟩
    | call op next =>
      have hnot : n ∉ finishing exec (start s threads) sched := by
        intro h
        obtain ⟨⟨a,ha⟩,-⟩ := (hmem n).mp h
        cases hn.symm.trans ha
      have hother : ∀ k, k ≠ n → (k ∈ finishing exec (start s threads) sched ↔
          (∃ a, (m.step exec n c).threads k = .ret a) ∧ ∃ e ∈ (m.step exec n c).log, e.thread = k) := by
        intro k hk
        rw [hmem k,step_call exec hn]
        simp [Function.update_of_ne hk,Ne.symm hk]
      have hstarted : ∃ e ∈ (m.step exec n c).log, e.thread = n := by
        rw [step_call exec hn]
        exact ⟨⟨n,c,op,m.store⟩,by simp,rfl⟩
      cases hnext : next (exec c m.store op).1 with
      | ret a =>
        rw [finishing_of_end hn hnext]
        refine ⟨List.nodup_append.mpr ⟨hnodup,List.nodup_singleton n,?_⟩,fun k => ?_⟩
        · rintro k hk _ hn' rfl
          exact hnot (List.mem_singleton.mp hn' ▸ hk)
        · by_cases hk : k = n
          · subst hk
            simp [step_thread hn,hnext,hstarted]
          · rw [← hother k hk]
            simp [hk]
      | call op' next' =>
        rw [finishing_of_call hn hnext,List.append_nil]
        refine ⟨hnodup,fun k => ?_⟩
        by_cases hk : k = n
        · subst hk
          simp [hnot,step_thread hn,hnext]
        · exact hother k hk

/-- With repeatable reads an interleaving is a serial run, in the order in which its threads end. -/
theorem run_serial (hw : ∀ n, (threads n).WritesLast exec) (s : σ) (d : ι → C) (sched : List (ι × C))
    (hg : Guarded exec (Repeats exec) (start s threads) sched) :
    Serial exec threads s d ((start s threads).run exec sched) (finishing exec (start s threads) sched) := by
  induction sched using List.reverseRecOn with
  | nil => exact ⟨rfl,by simp [finishing]⟩
  | append_singleton sched x ih =>
    obtain ⟨n,c⟩ := x
    have hserial := ih hg.left
    have hrepeats : Repeats exec ((start s threads).run exec sched) n := hg.before
    have hpath := run_path exec s threads sched n
    rw [run_append,finishing_append]
    change Serial exec threads s d (((start s threads).run exec sched).step exec n c) _
    generalize (start s threads).run exec sched = m at hserial hrepeats hpath ⊢
    cases hn : m.threads n with
    | ret a =>
      rwa [step_ret exec hn,finishing_of_ret hn,List.append_nil]
    | call op next =>
      rw [hn] at hpath
      cases hnext : next (exec c m.store op).1 with
      | ret a =>
        rw [finishing_of_end hn hnext]
        have hlast := choicesOf_snoc_length (d n) n m.log c op m.store
        have hrun := Program.run_of_repeats exec (hw n) hpath m.store (fun e he => ?_)
          (choicesOf (d n) n (m.log ++ [⟨n,c,op,m.store⟩])) (fun k e he => choicesOf_snoc_of_lt _ _ _ _ he)
          (by rw [hlast]; exact hnext)
        · rw [hlast] at hrun
          exact hserial.finish hn c hnext hrun
        · obtain ⟨hmem,hthread⟩ := List.mem_filter.mp he
          exact hrepeats e hmem (by simpa using hthread)
      | call op' next' =>
        rw [finishing_of_call hn hnext,List.append_nil]
        refine hserial.silent hn c ?_
        rcases (Program.Everywhere.path (hw n) hpath).1 c m.store with h | ⟨a,ha⟩
        · exact h
        · cases hnext.symm.trans ha

end Machine
end Thintuit.Interaction
