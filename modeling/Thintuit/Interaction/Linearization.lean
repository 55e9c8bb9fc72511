import Thintuit.Interaction.Directory
import Thintuit.Interaction.Serial

/-! Programs that take effect with their last operation, against a labelled system that makes a
step whenever one of them ends. -/
namespace Thintuit.Interaction
variable {ι C σ Op α S L : Type} {Reply : Op → Type} [DecidableEq ι] {exec : C → σ → (op : Op) → Reply op × σ}
namespace Machine
variable {threads : ι → Program Op Reply α} {s : σ}

theorem step_thread_of_ne {m : Machine ι C σ Op Reply α} {n k : ι} (hk : k ≠ n) (c : C) :
    (m.step exec n c).threads k = m.threads k := by
  cases hn : m.threads n with
  | ret a => rw [step_ret exec hn]
  | call op next =>
    rw [step_call exec hn]
    exact Function.update_of_ne hk ..

/-- If every last operation that the schedule comes to is matched by a step with the label of its
answer, the answers in the order in which they are given are a run of the system. -/
theorem run_traces (hw : ∀ n, (threads n).WritesLast exec) {R : σ → S → Prop} {Step : S → L → S → Prop} (label : ι → α → L)
    {x : S} (hx : R s x) {sched : List (ι × C)}
    (hend : ∀ xs n c ys, sched = xs ++ (n,c) :: ys → ∀ op next a y,
      ((start s threads).run exec xs).threads n = .call op next →
      next (exec c ((start s threads).run exec xs).store op).1 = .ret a → R ((start s threads).run exec xs).store y →
      ∃ z, Step y (label n a) z ∧ R (exec c ((start s threads).run exec xs).store op).2 z) :
    ∃ (answers : List (ι × α)) (y : S), answers.map Prod.fst = finishing exec (start s threads) sched ∧
      (∀ p ∈ answers, ((start s threads).run exec sched).threads p.1 = .ret p.2) ∧
      Traces Step x (answers.map (fun p => label p.1 p.2)) y ∧ R ((start s threads).run exec sched).store y := by
  induction sched using List.reverseRecOn with
  | nil => exact ⟨[],x,rfl,by simp,.nil,hx⟩
  | append_singleton sched last ih =>
    obtain ⟨n,c⟩ := last
    obtain ⟨answers,y,horder,hanswers,htrace,hy⟩ := ih (fun xs k c' ys hsplit => hend xs k c' (ys ++ [(n,c)]) (by simp [hsplit]))
    have hpath := run_path exec s threads sched n
    have hlast := hend sched n c [] rfl
    have hsnoc : (start s threads).run exec (sched ++ [(n,c)]) = ((start s threads).run exec sched).step exec n c :=
      run_append exec (start s threads) sched [(n,c)]
    rw [hsnoc,finishing_append]
    generalize (start s threads).run exec sched = m at hanswers hy hpath hlast ⊢
    cases hn : m.threads n with
    | ret a =>
      rw [step_ret exec hn,finishing_of_ret hn,List.append_nil]
      exact ⟨answers,y,horder,hanswers,htrace,hy⟩
    | call op next =>
      have hkept : ∀ p ∈ answers, (m.step exec n c).threads p.1 = .ret p.2 := by
        intro p hp
        have hne : p.1 ≠ n := by
          rintro rfl
          cases hn.symm.trans (hanswers p hp)
        rw [step_thread_of_ne hne]
        exact hanswers p hp
      have hstore : (m.step exec n c).store = (exec c m.store op).2 := by rw [step_call exec hn]
      cases hnext : next (exec c m.store op).1 with
      | ret a =>
        obtain ⟨z,hstep,hz⟩ := hlast op next a y hn hnext hy
        rw [finishing_of_end hn hnext]
        refine ⟨answers ++ [(n,a)],z,by simp [horder],?_,by simpa using htrace.snoc hstep,hstore ▸ hz⟩
        intro p hp
        rcases List.mem_append.mp hp with hp | hp
        · exact hkept p hp
        · obtain rfl := List.mem_singleton.mp hp
          rw [step_thread hn]
          exact hnext
      | call op' next' =>
        rw [hn] at hpath
        rw [finishing_of_call hn hnext,List.append_nil]
        refine ⟨answers,y,horder,hkept,htrace,?_⟩
        rw [hstore]
        rcases (Program.Everywhere.path (hw n) hpath).1 c m.store with h | ⟨a,ha⟩
        · rwa [h]
        · cases hnext.symm.trans ha

end Machine
end Thintuit.Interaction
