import Thintuit.Server.PoolTurns

/-! Interleavings that are sessions. The handlers run outside transactions, so two requests on
one account can disturb each other; as long as no request is disturbed in what it has
read, the requests might as well have been served one after another. -/
namespace Thintuit.Server
open Interaction

instance DbOp.decEqReply : (op : DbOp) → DecidableEq op.Reply
  | .acquire => inferInstanceAs (DecidableEq (Except PyError Unit))
  | .fetchEmailByEmail _ | .fetchEmailById _ => inferInstanceAs (DecidableEq (Except PyError (Option PyStr)))
  | .insertUser _ _ _ => inferInstanceAs (DecidableEq (Except PyError (Uuid × Timestamp)))
  | .fetchByEmail _ | .fetchById _ => inferInstanceAs (DecidableEq (Except PyError (Option Row)))
  | .fetchUsers => inferInstanceAs (DecidableEq (Except PyError (List ListedUser)))
  | .updatePassword _ _ | .deleteUser _ => inferInstanceAs (DecidableEq (Except PyError Nat))
  | .fetchAccuracy => inferInstanceAs (DecidableEq (Except PyError (List AccuracyRow)))

variable {ι : Type} [DecidableEq ι]

/-- Whether the statements a request has made so far would be answered now as they were. -/
def repeatable (rt : Runtime) (m : State ι) (n : ι) : Bool :=
  m.log.all (fun e => e.thread ≠ n || (exec rt e.choice m.store e.op).1 = e.reply (exec rt))

theorem repeats_of_repeatable {rt : Runtime} {m : State ι} {n : ι} (h : repeatable rt m n = true) :
    Machine.Repeats (exec rt) m n := by
  intro e he hthread
  have hone := List.all_eq_true.mp h e he
  simpa [hthread] using hone

/-- The requests that have been answered after at least one statement, in the order of their last statements. -/
def answeredInOrder (rt : Runtime) (calls : ι → Call) (s : Store) (sched : List (ι × Option PyError)) : List ι :=
  Machine.finishing (exec rt) (initial rt calls s) (schedule calls sched)

theorem answeredInOrder_append (rt : Runtime) (calls : ι → Call) (s : Store) (sched₁ sched₂ : List (ι × Option PyError)) :
    answeredInOrder rt calls s (sched₁ ++ sched₂) = answeredInOrder rt calls s sched₁ ++
      Machine.finishing (exec rt) (serving rt calls s sched₁) (schedule calls sched₂) := by
  rw [answeredInOrder,schedule,List.map_append,Machine.finishing_append]
  rfl

/-- The faults one request has met, statement by statement. -/
def faultsOf (log : Log ι) (n : ι) (k : Nat) : Option PyError :=
  ((log.filter (fun e => e.thread = n))[k]?).bind (fun e => e.choice.fault)

section Sessions
variable {rt : Runtime} {calls : ι → Call} {s : Store} {sched : List (ι × Option PyError)}

theorem choicesOf_serving (n : ι) :
    choicesOf ((calls n).choice none) n (serving rt calls s sched).log =
      Turn.choices ⟨calls n,faultsOf (serving rt calls s sched).log n⟩ := by
  funext k
  unfold choicesOf Turn.choices faultsOf
  dsimp only
  cases he : ((serving rt calls s sched).log.filter (fun e => e.thread = n))[k]? with
  | none => rfl
  | some e =>
    obtain ⟨hmem,hthread⟩ := List.mem_filter.mp (List.mem_of_getElem? he)
    obtain ⟨_,c,op,t⟩ := e
    obtain rfl : _ = n := by simpa using hthread
    obtain ⟨fault,rfl⟩ := serving_choice hmem
    rfl

omit [DecidableEq ι] in
theorem serially_eq_after (fault : ι → Nat → Option PyError) (order : List ι) :
    serially (exec rt) (fun n => (calls n).program rt) (fun n => Turn.choices ⟨calls n,fault n⟩) s order =
      after rt s (order.map (fun n => ⟨calls n,fault n⟩)) := by
  rw [after,List.foldl_map]
  rfl

omit [DecidableEq ι] in
theorem history_of_answers {turn : ι → Turn} {resp : ι → Response} {order : List ι}
    (h : ∀ xs n ys, order = xs ++ n :: ys → ((turn n).run rt (after rt s (xs.map turn))).1 = resp n) :
    history rt s (order.map turn) = order.map (fun n => ((turn n).call.request,resp n)) := by
  induction order using List.reverseRecOn with
  | nil => rfl
  | append_singleton order n ih =>
    have hlast := h order n [] rfl
    rw [List.map_append,history_append,ih (fun xs k ys hsplit => h xs k (ys ++ [n]) (by simp [hsplit])),List.map_append]
    simp [history,hlast]

/-- Where every request's reads stay repeatable, the answered requests make a session with the
answers and the store of the run. -/
theorem serving_session
    (hg : Machine.Guarded (exec rt) (fun m n => repeatable rt m n = true) (initial rt calls s) (schedule calls sched)) :
    ∃ resp : ι → Response,
      (∀ n ∈ answeredInOrder rt calls s sched, (serving rt calls s sched).threads n = .ret (resp n)) ∧
      after rt s ((answeredInOrder rt calls s sched).map (fun n => ⟨calls n,faultsOf (serving rt calls s sched).log n⟩)) =
        (serving rt calls s sched).store ∧
      history rt s ((answeredInOrder rt calls s sched).map (fun n => ⟨calls n,faultsOf (serving rt calls s sched).log n⟩)) =
        (answeredInOrder rt calls s sched).map (fun n => ((calls n).request,resp n)) := by
  have hrepeats : Machine.Guarded (exec rt) (Machine.Repeats (exec rt)) (initial rt calls s) (schedule calls sched) :=
    hg.mono (fun _ _ => repeats_of_repeatable)
  have hwrites : ∀ n, ((calls n).program rt).WritesLast (exec rt) :=
    fun n => serve_writesLast rt (calls n).request (calls n).salt
  obtain ⟨hstore,hanswers⟩ := Machine.run_serial hwrites s (fun n => (calls n).choice none) (schedule calls sched) hrepeats
  change serially (exec rt) _ (fun n => choicesOf ((calls n).choice none) n (serving rt calls s sched).log) s
    (answeredInOrder rt calls s sched) = (serving rt calls s sched).store at hstore
  change ∀ xs n ys, answeredInOrder rt calls s sched = xs ++ n :: ys → (serving rt calls s sched).threads n =
    .ret (((calls n).program rt).run (exec rt) (choicesOf ((calls n).choice none) n (serving rt calls s sched).log)
      (serially (exec rt) _ (fun n => choicesOf ((calls n).choice none) n (serving rt calls s sched).log) s xs)).1 at hanswers
  simp only [choicesOf_serving,serially_eq_after] at hstore hanswers
  have hresp : ∀ n, ∃ resp, n ∈ answeredInOrder rt calls s sched → (serving rt calls s sched).threads n = .ret resp := by
    intro n
    by_cases hn : n ∈ answeredInOrder rt calls s sched
    · obtain ⟨xs,ys,hsplit⟩ := List.append_of_mem hn
      exact ⟨_,fun _ => hanswers xs n ys hsplit⟩
    · exact ⟨accountDeleted,fun h => absurd h hn⟩
  choose resp hresp using hresp
  refine ⟨resp,hresp,hstore,?_⟩
  apply history_of_answers
  intro xs n ys hsplit
  have hn := hresp n (by simp [hsplit])
  exact Program.ret.inj ((hanswers xs n ys hsplit).symm.trans hn)

theorem mem_answeredInOrder (n : ι) : n ∈ answeredInOrder rt calls s sched ↔
    (∃ resp, (serving rt calls s sched).threads n = .ret resp) ∧ ∃ e ∈ (serving rt calls s sched).log, e.thread = n :=
  (Machine.finishing_spec (exec rt) (fun n => (calls n).program rt) s (schedule calls sched)).2 n

/-- The requests of a run on a pool whose statements have ended, in the order of their last ones. -/
def Pool.concludedInOrder (rt : Runtime) (calls : ι → Call) (s : Store) (sched : List (ι × Option PyError)) : List ι :=
  answeredInOrder rt calls s (statements (serving rt calls s sched).log)

theorem Pool.concludedInOrder_append (rt : Runtime) (calls : ι → Call) (s : Store) (sched₁ sched₂ : List (ι × Option PyError)) :
    ∃ later, concludedInOrder rt calls s (sched₁ ++ sched₂) = concludedInOrder rt calls s sched₁ ++ later := by
  obtain ⟨later,hlater⟩ := statements_append rt calls s sched₁ sched₂
  rw [concludedInOrder,hlater,answeredInOrder_append]
  exact ⟨_,rfl⟩

/-- An answered request that has made a statement has come to an end, unless a return has raised. -/
theorem Pool.concluded_or_raised {n : ι} {answer : Response} (hret : (serving rt calls s sched).threads n = .ret answer)
    (hstatement : ∃ e ∈ (serving rt calls s sched).log.filterMap Leasing.plainEvent, e.thread = n) :
    n ∈ concludedInOrder rt calls s sched ∨ ∃ e, Raised rt n (serving rt calls s sched).log e := by
  have hmatch := serving_matches rt calls s sched
  rcases hmatch.threads n with ⟨-,j,held,hsim⟩ | ⟨e,hraised,-⟩
  · rw [hret] at hsim
    refine .inl ((mem_answeredInOrder n).mpr ⟨⟨answer,hsim.of_ret⟩,?_⟩)
    rwa [hmatch.log]
  · exact .inr ⟨e,(hraised e).mpr rfl⟩

/-- If whenever a request makes a statement its earlier ones would still be answered as they were,
a run on a pool is a session: the requests whose statements have ended, one after another in
the order of their last statements and with the faults these met, give the answers they have
come to and leave the same store. An answered request that has made a statement is among
them, unless the return of a connection has raised in between; and what has ended at some
point of the run comes before what ends later. -/
theorem repeatable_reads_serializable
    (hg : Machine.Guarded (exec rt) (fun m n => repeatable rt m n = true) (initial rt calls s)
      (schedule calls (Pool.statements (Pool.serving rt calls s sched).log))) :
    ∃ resp : ι → Response,
      (Pool.concludedInOrder rt calls s sched).Nodup ∧
      (∀ n ∈ Pool.concludedInOrder rt calls s sched, Pool.Concluded rt calls (Pool.serving rt calls s sched) n (resp n)) ∧
      (∀ n answer, (Pool.serving rt calls s sched).threads n = .ret answer →
        (∃ e ∈ (Pool.serving rt calls s sched).log.filterMap Leasing.plainEvent, e.thread = n) →
        n ∈ Pool.concludedInOrder rt calls s sched ∨ ∃ e, Pool.Raised rt n (Pool.serving rt calls s sched).log e) ∧
      after rt s ((Pool.concludedInOrder rt calls s sched).map (fun n =>
          ⟨calls n,faultsOf ((Pool.serving rt calls s sched).log.filterMap Leasing.plainEvent) n⟩)) =
        (Pool.serving rt calls s sched).store ∧
      history rt s ((Pool.concludedInOrder rt calls s sched).map (fun n =>
          ⟨calls n,faultsOf ((Pool.serving rt calls s sched).log.filterMap Leasing.plainEvent) n⟩)) =
        (Pool.concludedInOrder rt calls s sched).map (fun n => ((calls n).request,resp n)) ∧
      ∀ sched₁ sched₂, sched = sched₁ ++ sched₂ →
        ∃ later, Pool.concludedInOrder rt calls s sched = Pool.concludedInOrder rt calls s sched₁ ++ later := by
  have hmatch := Pool.serving_matches rt calls s sched
  obtain ⟨resp,hresp,hstore,hhistory⟩ := serving_session hg
  rw [hmatch.log] at hstore hhistory
  refine ⟨resp,?_,fun n hn => Pool.concluded_of_plain (hresp n hn),fun n answer => Pool.concluded_or_raised,
    hstore.trans hmatch.store,hhistory,?_⟩
  · exact (Machine.finishing_spec (exec rt) (fun n => (calls n).program rt) s _).1
  · rintro sched₁ sched₂ rfl
    exact Pool.concludedInOrder_append rt calls s sched₁ sched₂

/-- A deletion of the account, and a registration that is served between its SELECT and its DELETE
and is answered only after it. -/
def overlappingCalls : Bool → Call
  | false => ⟨Reference.deleteRequest Reference.accountId,[],0,0⟩
  | true => ⟨Reference.registerRequest "guest" "guest@example.com" "secret2",Reference.saltOf "secret2",1,1⟩

def overlappingSchedule : List (Bool × Option PyError) :=
  [(false,none),(false,none),(true,none),(true,none),(true,none),(false,none),(false,none),(true,none)]

theorem repeatable_reads_serializable_overlapping :
    Pool.concludedInOrder reference overlappingCalls Reference.store overlappingSchedule = [true,false] ∧
      after reference Reference.store ([true,false].map (fun n => ⟨overlappingCalls n,faultsOf
          ((Pool.serving reference overlappingCalls Reference.store overlappingSchedule).log.filterMap Leasing.plainEvent) n⟩)) =
        (Pool.serving reference overlappingCalls Reference.store overlappingSchedule).store := by
  have horder : Pool.concludedInOrder reference overlappingCalls Reference.store overlappingSchedule = [true,false] := by
    decide +kernel
  have hg : Machine.Guarded (exec reference) (fun m n => repeatable reference m n = true)
      (initial reference overlappingCalls Reference.store)
      (schedule overlappingCalls (Pool.statements (Pool.serving reference overlappingCalls Reference.store overlappingSchedule).log)) := by
    decide +kernel
  obtain ⟨_,-,-,-,hstore,-⟩ := repeatable_reads_serializable hg
  rw [horder] at hstore
  exact ⟨horder,hstore⟩

end Sessions
end Thintuit.Server
