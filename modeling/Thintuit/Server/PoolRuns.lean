import Thintuit.Interaction.Pools
import Thintuit.Server.Concurrency
import Thintuit.Server.Pool
import Thintuit.Server.Reference

/-! Any number of requests on a pool of connections. No request ever keeps a connection or
holds two, so the pool never runs dry as long as giving connections back succeeds, and
the statements of the requests are those of a run without a pool. -/
namespace Thintuit.Server.Pool
open Interaction Leasing

abbrev State (ι : Type) := Machine ι Choice Store (Leased DbOp) (Leased.Answer DbOp.Reply PyError) Response

abbrev Log (ι : Type) := List (Event ι Choice Store (Leased DbOp))

section Runs
variable {ι P : Type} [DecidableEq ι] (rt : Runtime) (calls : ι → Call) (s : Store)

def initial : State ι := Machine.start s (fun n => serve rt (calls n).request (calls n).salt)

/-- A step of the schedule names a request and the fault its operation meets, which may be the
return of its connection. -/
def serving (sched : List (ι × Option PyError)) : State ι :=
  (initial rt calls s).run (leasing.exec (exec rt)) (schedule calls sched)

/-- The same on a pool. -/
def onPool (pool : Pooling Choice P) (p : P) (sched : List (ι × Option PyError)) :
    Machine ι Choice (Store × P) (Leased DbOp) (Leased.Answer DbOp.Reply PyError) Response :=
  (Machine.start (s,p) (fun n => serve rt (calls n).request (calls n).salt)).run (leasing.pooled pool (exec rt))
    (schedule calls sched)

/-- A request that waits for a connection is not scheduled while the pool has none. -/
def Admissible (pool : Pooling Choice P) (p : P) (sched : List (ι × Option PyError)) : Prop :=
  Machine.Guarded (leasing.pooled pool (exec rt)) (fun m n => leasing.ready pool m n = true)
    (Machine.start (s,p) (fun n => serve rt (calls n).request (calls n).salt)) (schedule calls sched)

instance (pool : Pooling Choice P) (p : P) (sched : List (ι × Option PyError)) :
    Decidable (Admissible rt calls s pool p sched) :=
  inferInstanceAs (Decidable (Machine.Guarded _ (fun m n => leasing.ready pool m n = true) _ _))

def requestExchanges (n : ι) (log : Log ι) : List (Exchange (Leased DbOp) (Leased.Answer DbOp.Reply PyError)) :=
  exchanges (leasing.exec (exec rt)) n log

/-- The connections a request has been given, and those it has given back. -/
def taken (n : ι) (log : Log ι) : Nat := leasing.leases (requestExchanges rt n log)

def givenBack (n : ι) (log : Log ι) : Nat := Leased.returns (requestExchanges rt n log)

/-- The return of a connection of the request has raised `e`. -/
def Raised (n : ι) (log : Log ι) (e : PyError) : Prop := leasing.Raised (exec rt) n log e

omit [DecidableEq ι] in
theorem calls_realize (n : ι) : leasing.Realizes (releaseError (calls n).request) 6 false
    (serve rt (calls n).request (calls n).salt) ((calls n).program rt) :=
  serve_realizes rt (calls n).request (calls n).salt

theorem serving_taken (sched : List (ι × Option PyError)) (n : ι) :
    taken rt n (serving rt calls s sched).log =
      givenBack rt n (serving rt calls s sched).log + (leasing.holds ((serving rt calls s sched).threads n)).toNat := by
  have hpath := Machine.run_path (leasing.exec (exec rt)) s (fun n => serve rt (calls n).request (calls n).salt)
    (schedule calls sched) n
  exact (calls_realize rt calls n).path_leases leasing hpath

/-- Without its pool a run is what it is with it. -/
theorem onPool_serving (pool : Pooling Choice P) (p : P) (sched : List (ι × Option PyError)) :
    (onPool rt calls s pool p sched).mapStore Prod.fst = serving rt calls s sched :=
  Machine.run_mapStore Prod.fst (leasing.pooled_fst pool (exec rt)) _ _

variable {rt calls s} {pool : Pooling Choice P} {p : P} {free : P → Nat} {sched : List (ι × Option PyError)}

theorem holds_statement {op : DbOp} (hop : op ≠ .acquire) (next : op.Reply → Conversation Response) :
    leasing.holds (.call (.run op) next) = true := by
  cases op with
  | acquire => exact absurd rfl hop
  | _ => rfl

theorem onPool_raisedReturns :
    leasing.raisedReturns (onPool rt calls s pool p sched).log = leasing.raisedReturns (serving rt calls s sched).log := by
  rw [← onPool_serving rt calls s pool p sched,Machine.mapStore,raisedReturns,raisedReturns,List.countP_map]
  rfl

/-- In every interleaving of any requests on a pool, with any of their operations raising: a
request holds at most one connection, runs its statements on the one it holds and holds
none once it is answered; and the connections held and the free ones make up the pool, but
for those that may be lost when giving them back raises. -/
theorem connections_accounted [Fintype ι] (hpool : pool.Counts leasing.returned free)
    (hadm : Admissible rt calls s pool p sched) :
    (onPool rt calls s pool p sched).mapStore Prod.fst = serving rt calls s sched ∧
    (∀ n, givenBack rt n (serving rt calls s sched).log ≤ taken rt n (serving rt calls s sched).log ∧
      taken rt n (serving rt calls s sched).log ≤ givenBack rt n (serving rt calls s sched).log + 1) ∧
    (∀ n resp, (serving rt calls s sched).threads n = .ret resp →
      taken rt n (serving rt calls s sched).log = givenBack rt n (serving rt calls s sched).log) ∧
    (∀ l₁ l₂ n c op t, (serving rt calls s sched).log = l₁ ++ ⟨n,c,.run op,t⟩ :: l₂ → op ≠ .acquire →
      taken rt n l₁ = givenBack rt n l₁ + 1) ∧
    free (onPool rt calls s pool p sched).store.2 + ∑ n, taken rt n (serving rt calls s sched).log ≤
      free p + ∑ n, givenBack rt n (serving rt calls s sched).log ∧
    free p + ∑ n, givenBack rt n (serving rt calls s sched).log ≤
      free (onPool rt calls s pool p sched).store.2 + ∑ n, taken rt n (serving rt calls s sched).log +
        leasing.raisedReturns (serving rt calls s sched).log := by
  refine ⟨onPool_serving rt calls s pool p sched,fun n => ?_,fun n resp hret => ?_,?_,?_⟩
  · rw [serving_taken]
    have hle := Bool.toNat_le (leasing.holds ((serving rt calls s sched).threads n))
    omega
  · rw [serving_taken,hret]
    rfl
  · intro l₁ l₂ n c op t hlog hop
    obtain ⟨xs,ys,next,hsched,hl₁,-,hcall⟩ := Machine.run_event _ _ _ _ hlog
    obtain ⟨sched₁,_,_,-,-,rfl,-⟩ := schedule_split hsched
    have htaken := serving_taken rt calls s sched₁ n
    change (serving rt calls s sched₁).log = l₁ at hl₁
    change (serving rt calls s sched₁).threads n = .call (.run op) next at hcall
    rw [hl₁,hcall,holds_statement hop next] at htaken
    exact htaken
  · have hfree := run_free (exec rt) (calls_realize rt calls) s p _ hpool hadm
    have hthreads : (onPool rt calls s pool p sched).threads = (serving rt calls s sched).threads := by
      rw [← onPool_serving rt calls s pool p sched]
      rfl
    change free (onPool rt calls s pool p sched).store.2 +
        ∑ n, (leasing.holds ((onPool rt calls s pool p sched).threads n)).toNat ≤ free p ∧
      free p ≤ free (onPool rt calls s pool p sched).store.2 +
        ∑ n, (leasing.holds ((onPool rt calls s pool p sched).threads n)).toNat +
          leasing.raisedReturns (onPool rt calls s pool p sched).log at hfree
    rw [onPool_raisedReturns,hthreads] at hfree
    simp only [serving_taken,Finset.sum_add_distrib]
    omega

/-- A pool that counts its free connections, and drops one that could not be reset. -/
def counter : Pooling Choice Nat where
  available p := 0 < p
  taken _ p := p - 1
  refused _ p := p
  returned c p := if c.fault.isSome then p else p + 1

theorem counter_counts : counter.Counts leasing.returned id where
  available_iff p := decide_eq_true_iff
  taken _ p hp := Nat.sub_add_cancel hp
  refused _ _ := rfl
  returned c p h := by
    cases hfault : c.fault with
    | none => simp [counter,hfault]
    | some e => simp [leasing,hfault] at h
  raised c p := by
    simp only [counter,id]
    split <;> omega

/-- Two requests for the accuracy figures, one of which meets a broken connection. -/
def accuracyCalls (_ : Bool) : Call := ⟨⟨.get,py "/api/accuracy",[],[],none,.ok []⟩,[],0,0⟩

def sharedSchedule : List (Bool × Option PyError) :=
  [(false,none),(false,some ⟨.other,"connection was closed"⟩),(false,none),(true,none),(true,none)]

theorem connections_accounted_shared :
    Admissible reference accuracyCalls Reference.store counter 1 sharedSchedule ∧
      taken reference false (serving reference accuracyCalls Reference.store sharedSchedule).log =
        givenBack reference false (serving reference accuracyCalls Reference.store sharedSchedule).log := by
  have hadm : Admissible reference accuracyCalls Reference.store counter 1 sharedSchedule := by decide +kernel
  exact ⟨hadm,(connections_accounted counter_counts hadm).2.2.1 false _ (by rfl)⟩

/-- As long as giving back has raised less often than the pool has connections, no deadlock is
possible, also where a request needs a connection twice: while a request is unanswered, one
of them can go on. No run is longer than six operations a request, and every run can be
carried on until all requests are answered and every connection that was not lost is free. -/
theorem pool_never_deadlocks [Fintype ι] (hpool : pool.Counts leasing.returned free)
    (hadm : Admissible rt calls s pool p sched)
    (hraised : leasing.raisedReturns (serving rt calls s sched).log < free p) :
    ((∃ n, ∀ resp, (onPool rt calls s pool p sched).threads n ≠ .ret resp) →
      ∃ n, (∀ resp, (onPool rt calls s pool p sched).threads n ≠ .ret resp) ∧
        leasing.ready pool (onPool rt calls s pool p sched) n = true) ∧
    (onPool rt calls s pool p sched).log.length ≤ Fintype.card ι * 6 ∧
    ∃ ns : List ι, Admissible rt calls s pool p (sched ++ ns.map (fun n => (n,none))) ∧
      (∀ n, ∃ resp, (onPool rt calls s pool p (sched ++ ns.map (fun n => (n,none)))).threads n = .ret resp) ∧
      free (onPool rt calls s pool p (sched ++ ns.map (fun n => (n,none)))).store.2 ≤ free p ∧
      free p ≤ free (onPool rt calls s pool p (sched ++ ns.map (fun n => (n,none)))).store.2 +
        leasing.raisedReturns (serving rt calls s sched).log := by
  have hreal := calls_realize rt calls
  have hreturns : leasing.raisedReturns (onPool rt calls s pool p sched).log = _ := onPool_raisedReturns
  rw [← hreturns] at hraised ⊢
  refine ⟨?_,run_length_le (exec rt) hreal s p _,?_⟩
  · rintro ⟨n,hn⟩
    cases hthread : (onPool rt calls s pool p sched).threads n with
    | ret resp => exact absurd hthread (hn resp)
    | call op next =>
      obtain ⟨i,op,next,hi,hready⟩ := run_progress (exec rt) hreal s p _ hpool hadm hraised hthread
      refine ⟨i,fun resp hresp => ?_,hready⟩
      cases hi.symm.trans hresp
  · obtain ⟨ns,hguard,hcount,hdone⟩ := run_finishes (exec rt) hreal s p _ hpool (fun n => (calls n).choice none)
      (fun _ => rfl) hadm hraised
    have hsched : schedule calls sched ++ ns.map (fun n => (n,(calls n).choice none)) =
        schedule calls (sched ++ ns.map (fun n => (n,none))) := by
      simp [schedule]
    rw [hsched] at hguard hdone hcount
    have hfree := run_free (exec rt) hreal s p _ hpool hguard
    have hnone : ∀ n, leasing.holds (((Machine.start (s,p) (fun n => serve rt (calls n).request (calls n).salt)).run
        (leasing.pooled pool (exec rt)) (schedule calls (sched ++ ns.map (fun n => (n,none))))).threads n) = false := by
      intro n
      obtain ⟨resp,hresp⟩ := hdone n
      rw [hresp]
      rfl
    simp only [hnone,Bool.toNat_false,Finset.sum_const_zero,Nat.add_zero,hcount] at hfree
    exact ⟨ns,hguard,hdone,hfree⟩

theorem pool_never_deadlocks_shared :
    (onPool reference accuracyCalls Reference.store counter 1 sharedSchedule).log.length ≤ 12 ∧
      ∃ ns : List Bool, (onPool reference accuracyCalls Reference.store counter 1
        (sharedSchedule ++ ns.map (fun n => (n,none)))).store.2 = 1 := by
  have hadm : Admissible reference accuracyCalls Reference.store counter 1 sharedSchedule := by decide +kernel
  have hraised : leasing.raisedReturns (serving reference accuracyCalls Reference.store sharedSchedule).log = 0 := by
    decide +kernel
  obtain ⟨-,hlength,ns,-,-,hle,hge⟩ := pool_never_deadlocks counter_counts hadm (by rw [hraised]; decide)
  rw [hraised] at hge
  exact ⟨hlength,ns,Nat.le_antisymm hle hge⟩

/-! The statements of a run, without the returns. -/

omit [DecidableEq ι] in
def statements (log : Log ι) : List (ι × Option PyError) :=
  (log.filterMap plainEvent).map (fun e => (e.thread,e.choice.fault))

/-- The statements of a request have led to the answer `resp`: it has been given, it will be once
the connection is back, or giving that back has raised and the answer says so instead. -/
def Concluded (rt : Runtime) (calls : ι → Call) (m : State ι) (n : ι) (resp : Response) : Prop :=
  m.threads n = .ret resp ∨ (∃ next, m.threads n = .call .release next ∧ next (.ok ()) = .ret resp) ∨
    ∃ e, Raised rt n m.log e ∧ m.threads n = .ret (releaseError (calls n).request e)

theorem schedule_statements :
    schedule calls (statements (serving rt calls s sched).log) = plainSteps (serving rt calls s sched).log := by
  rw [schedule,statements,plainSteps,List.map_map]
  refine List.map_congr_left (fun e he => ?_)
  obtain ⟨⟨n,c,op,t⟩,hmem,hplain⟩ := List.mem_filterMap.mp he
  obtain ⟨tail,hlog,-,hchoices,-⟩ := Machine.run_extends (leasing.exec (exec rt)) (initial rt calls s) (schedule calls sched)
  have hlog' : (serving rt calls s sched).log = tail := hlog
  have hstep := hchoices ⟨n,c,op,t⟩ (hlog' ▸ hmem)
  obtain ⟨x,-,hx⟩ := List.mem_map.mp hstep
  cases op with
  | release => cases hplain
  | run op =>
    obtain rfl := Option.some.inj hplain
    cases hx
    rfl

/-- The statements of a run make a run without the returns. -/
theorem serving_matches (rt : Runtime) (calls : ι → Call) (s : Store) (sched : List (ι × Option PyError)) :
    leasing.Matches (exec rt) (fun n => releaseError (calls n).request) (serving rt calls s sched)
      (Server.serving rt calls s (statements (serving rt calls s sched).log)) := by
  rw [Server.serving,schedule_statements]
  exact run_matches leasing (exec rt) (calls_realize rt calls) s (schedule calls sched)

/-- A longer run only adds statements. -/
theorem statements_append (rt : Runtime) (calls : ι → Call) (s : Store) (sched₁ sched₂ : List (ι × Option PyError)) :
    ∃ later, statements (serving rt calls s (sched₁ ++ sched₂)).log = statements (serving rt calls s sched₁).log ++ later := by
  obtain ⟨tail,hlog,-⟩ := Machine.run_extends (leasing.exec (exec rt)) (serving rt calls s sched₁) (schedule calls sched₂)
  have hrun : serving rt calls s (sched₁ ++ sched₂) =
      (serving rt calls s sched₁).run (leasing.exec (exec rt)) (schedule calls sched₂) := by
    unfold serving schedule
    rw [List.map_append,Machine.run_append]
  rw [hrun,hlog]
  exact ⟨statements tail,by simp [statements]⟩

theorem concluded_of_plain {n : ι} {resp : Response}
    (h : (Server.serving rt calls s (statements (serving rt calls s sched).log)).threads n = .ret resp) :
    Concluded rt calls (serving rt calls s sched) n resp := by
  rcases (serving_matches rt calls s sched).threads n with ⟨-,j,held,hsim⟩ | ⟨e,hraised,hret,-⟩
  · rw [h] at hsim
    exact hsim.of_plain_ret.imp id .inl
  · exact .inr (.inr ⟨e,(hraised e).mpr rfl,hret⟩)

/-- The pool changes nothing but who waits. Every interleaving on a pool makes the statements of
one without a pool, in the same order and with the same replies, and leaves its store. A
request is answered there at the latest when it is answered here, and alike, unless giving
a connection back has raised: then the answer here is the error this makes, whatever its
statements have done. -/
theorem pool_refines_serving (rt : Runtime) (calls : ι → Call) (s : Store) (sched : List (ι × Option PyError)) :
    (∀ (P : Type) (pool : Pooling Choice P) (p : P),
      (onPool rt calls s pool p sched).mapStore Prod.fst = serving rt calls s sched) ∧
    (Server.serving rt calls s (statements (serving rt calls s sched).log)).store = (serving rt calls s sched).store ∧
    (Server.serving rt calls s (statements (serving rt calls s sched).log)).log =
      (serving rt calls s sched).log.filterMap plainEvent ∧
    (∀ n resp, (serving rt calls s sched).threads n = .ret resp →
      (∀ e, ¬ Raised rt n (serving rt calls s sched).log e) →
      (Server.serving rt calls s (statements (serving rt calls s sched).log)).threads n = .ret resp) ∧
    (∀ n e, Raised rt n (serving rt calls s sched).log e →
      (serving rt calls s sched).threads n = .ret (releaseError (calls n).request e)) ∧
    ∀ n resp, (Server.serving rt calls s (statements (serving rt calls s sched).log)).threads n = .ret resp →
      Concluded rt calls (serving rt calls s sched) n resp := by
  have hmatch := serving_matches rt calls s sched
  refine ⟨fun P pool p => onPool_serving rt calls s pool p sched,hmatch.store,hmatch.log,?_,?_,fun n resp => concluded_of_plain⟩
  · intro n resp hret hnone
    rcases hmatch.threads n with ⟨-,j,held,hsim⟩ | ⟨e,hraised,-⟩
    · rw [hret] at hsim
      exact hsim.of_ret
    · exact absurd ((hraised e).mpr rfl) (hnone e)
  · intro n e hraised
    rcases hmatch.threads n with ⟨hnone,-⟩ | ⟨e',hraised',hret,-⟩
    · exact absurd hraised (hnone e)
    · rw [(hraised' e).mp hraised]
      exact hret

/-- A registration whose INSERT goes through and whose connection cannot be reset. -/
def unresetCalls (_ : Unit) : Call :=
  ⟨Reference.registerRequest "user" "user@example.com" "secret1",Reference.saltOf "secret1",1,1⟩

def unresetSchedule : List (Unit × Option PyError) :=
  [((),none),((),none),((),none),((),some ⟨.other,"connection was closed"⟩)]

theorem pool_refines_serving_unreset :
    (serving reference unresetCalls ⟨Users.empty,[]⟩ unresetSchedule).threads () =
        .ret (internalError ⟨.other,"connection was closed"⟩) ∧
      (serving reference unresetCalls ⟨Users.empty,[]⟩ unresetSchedule).store.users.rows.map Row.email =
        [py "user@example.com"] := by
  have hraised : Raised reference () (serving reference unresetCalls ⟨Users.empty,[]⟩ unresetSchedule).log
      ⟨.other,"connection was closed"⟩ := List.mem_of_getElem? (i := 3) rfl
  exact ⟨(pool_refines_serving reference unresetCalls ⟨Users.empty,[]⟩ unresetSchedule).2.2.2.2.1 () _ hraised,
    by decide +kernel⟩

end Runs
end Thintuit.Server.Pool
