import Thintuit.Interaction.Linearization
import Thintuit.Server.Accounts

/-! Interleavings as runs of the account service. Registrations are safe without a transaction,
because the table takes no second row with an email; a change of password, a deletion and
the list for the admin rely on a row that was read some statements ago. -/
namespace Thintuit.Server
open Interaction

/-- Requests that act on what an earlier statement of theirs has read of an account. -/
def Request.rereads (request : Request) : Bool :=
  match request.endpoint with
  | some .changePassword | some .deleteAccount | some .listAllUsers => true
  | _ => false

section Ending
variable {ι : Type} [DecidableEq ι] {rt : Runtime} {calls : ι → Call} {s : Store} {sched : List (ι × Option PyError)}
  {n : ι} {fault : Option PyError} {op : DbOp} {next : op.Reply → Program DbOp DbOp.Reply Response} {resp : Response}

theorem serving_snoc (n : ι) (fault : Option PyError) :
    serving rt calls s (sched ++ [(n,fault)]) = (serving rt calls s sched).step (exec rt) n ((calls n).choice fault) := by
  unfold serving schedule
  rw [List.map_append,Machine.run_append]
  rfl

/-- A request whose reads would be answered alike ends as in a turn of its own. -/
theorem serving_repeats (hn : (serving rt calls s sched).threads n = .call op next)
    (hret : next (exec rt ((calls n).choice fault) (serving rt calls s sched).store op).1 = .ret resp)
    (hrep : Machine.Repeats (exec rt) (serving rt calls s sched) n) :
    ∃ turn : Turn, turn.call = calls n ∧ turn.run rt (serving rt calls s sched).store =
      (resp,(exec rt ((calls n).choice fault) (serving rt calls s sched).store op).2) := by
  have hlog : (serving rt calls s (sched ++ [(n,fault)])).log =
      (serving rt calls s sched).log ++ [⟨n,(calls n).choice fault,op,(serving rt calls s sched).store⟩] := by
    rw [serving_snoc,Machine.step_call (exec rt) hn]
  have hchoices : Turn.choices ⟨calls n,faultsOf (serving rt calls s (sched ++ [(n,fault)])).log n⟩ =
      choicesOf ((calls n).choice none) n ((serving rt calls s sched).log ++
        [⟨n,(calls n).choice fault,op,(serving rt calls s sched).store⟩]) := by
    rw [← choicesOf_serving n,hlog]
  have hlast := choicesOf_snoc_length ((calls n).choice none) n (serving rt calls s sched).log ((calls n).choice fault) op
    (serving rt calls s sched).store
  have hpath := serving_path rt calls s sched n
  rw [hn] at hpath
  refine ⟨⟨calls n,faultsOf (serving rt calls s (sched ++ [(n,fault)])).log n⟩,rfl,?_⟩
  have hrun := Program.run_of_repeats (exec rt) (serve_writesLast rt (calls n).request (calls n).salt) hpath
    (serving rt calls s sched).store (fun e he => ?_) _ (fun k e he => choicesOf_snoc_of_lt _ _ _ _ he)
    (by rw [hlast]; exact hret)
  · rw [hlast] at hrun
    rw [Turn.run,hchoices]
    exact hrun
  · obtain ⟨hmem,hthread⟩ := List.mem_filter.mp he
    exact hrep e hmem (by simpa using hthread)

omit [DecidableEq ι] in
/-- A statement would be answered alike if its answer does not depend on the store it is given. -/
private theorem exchange_repeats {e : Event ι Choice Store DbOp} {op : DbOp} {r : op.Reply} (h : e.exchange (exec rt) = ⟨op,r⟩)
    {t : Store} (hsame : ∀ c u, (exec rt c u op).1 = r → (exec rt c t op).1 = r) :
    (exec rt e.choice t e.op).1 = e.reply (exec rt) := by
  obtain ⟨k,c,u,rfl,hr⟩ := (Event.exchange_eq_iff (exec rt) e _).mp h
  exact (hsame c u hr).trans hr.symm

private theorem acquire_same (t : Store) (c : Choice) (u : Store) (h : (exec rt c u .acquire).1 = .ok ()) :
    (exec rt c t .acquire).1 = .ok () :=
  (exec_ok_iff rt _ _ _ _).mpr ⟨((exec_ok_iff rt _ _ _ _).mp h).1,t,rfl⟩

/-- The exchanges of a request that ends now, before its last one. -/
private theorem ending_exchanges (hn : (serving rt calls s sched).threads n = .call op next)
    (hret : next (exec rt ((calls n).choice fault) (serving rt calls s sched).store op).1 = .ret resp) :
    Program.Path (serve rt (calls n).request (calls n).salt)
      (exchanges (exec rt) n (serving rt calls s sched).log ++
        [⟨op,(exec rt ((calls n).choice fault) (serving rt calls s sched).store op).1⟩]) (.ret resp) := by
  have hpath := serving_path rt calls s sched n
  rw [hn] at hpath
  rw [← hret]
  exact hpath.snoc _

/-- A registration that succeeds would still find its email free, and requests that look only
once have nothing to repeat. -/
theorem repeats_of_success (hn : (serving rt calls s sched).threads n = .call op next)
    (hret : next (exec rt ((calls n).choice fault) (serving rt calls s sched).store op).1 = .ret resp)
    (hs : resp.success = true) {endpoint : Endpoint} (he : (calls n).request.endpoint = some endpoint)
    (hend : endpoint = .registerUser ∨ endpoint = .loginUser ∨ endpoint = .getUserInfo) :
    Machine.Repeats (exec rt) (serving rt calls s sched) n := by
  have hpath := ending_exchanges hn hret
  have hbefore : ∀ es x, exchanges (exec rt) n (serving rt calls s sched).log ++
      [⟨op,(exec rt ((calls n).choice fault) (serving rt calls s sched).store op).1⟩] = es ++ [x] →
      (∀ e : Event ι Choice Store DbOp, e.exchange (exec rt) ∈ es →
        (exec rt e.choice (serving rt calls s sched).store e.op).1 = e.reply (exec rt)) →
      Machine.Repeats (exec rt) (serving rt calls s sched) n := by
    intro es x hx hsame e hmem hthread
    apply hsame
    rw [← (List.append_inj' hx rfl).1]
    exact List.mem_map_of_mem (List.mem_filter.mpr ⟨hmem,by simpa using hthread⟩)
  have hacquire : ∀ e : Event ι Choice Store DbOp, e.exchange (exec rt) = ⟨.acquire,.ok ()⟩ →
      (exec rt e.choice (serving rt calls s sched).store e.op).1 = e.reply (exec rt) :=
    fun e h => exchange_repeats h (acquire_same _)
  rcases hend with rfl | rfl | rfl
  · obtain ⟨user,hu⟩ := registers_of_success he hpath hs
    obtain ⟨h,r,-,-,hes⟩ := registerUser_success hu hpath hs
    have hfree : (serving rt calls s sched).store.users.findByEmail user.email = none := by
      obtain ⟨_,hlast⟩ := List.append_inj' (show _ ++ [_] = [_,_] ++ [_] from hes) rfl
      obtain ⟨k,c,u,hevent,hr⟩ := (Event.exchange_eq_iff (exec rt)
        ⟨n,(calls n).choice fault,op,(serving rt calls s sched).store⟩ _).mp (List.singleton_inj.mp hlast)
      obtain ⟨-,s',hp⟩ := (exec_ok_iff rt _ _ _ _).mp hr
      cases hevent
      obtain ⟨hfits,-,hemail,-⟩ := (insertUser_ok_iff rt _ _ _ _ _ _ _).mp hp
      rwa [hfits.take_email (registers_email_end hu)] at hemail
    refine hbefore [_,_] _ hes (fun e hmem => ?_)
    rcases List.mem_cons.mp hmem with hexchange | hmem
    · exact hacquire e hexchange
    · refine exchange_repeats (List.mem_singleton.mp hmem) (fun c u hu => ?_)
      obtain ⟨hfault,hstorable,-⟩ := (fetchEmailByEmail_ok_iff rt _ _ _ _).mp hu
      exact (fetchEmailByEmail_ok_iff rt _ _ _ _).mpr ⟨hfault,hstorable,by rw [hfree]; rfl⟩
  · obtain ⟨user,hu⟩ := logsIn_of_success he hpath hs
    obtain ⟨row,-,-,hes⟩ := loginUser_success hu hpath hs
    exact hbefore [_] _ hes (fun e hmem => hacquire e (List.mem_singleton.mp hmem))
  · obtain ⟨userId,row,-,-,hes⟩ := getUserInfo_success he hpath hs
    exact hbefore [_] _ hes (fun e hmem => hacquire e (List.mem_singleton.mp hmem))

end Ending

namespace Accounts
variable {ι : Type} [DecidableEq ι] {rt : Runtime} {calls : ι → Call} {s : Store} {sched : List (ι × Option PyError)}
  {d : Service}

/-- The last statement of a request is a step of the service with the label of its answer. -/
theorem ending_simulates (hl : BcryptLaws rt) (hround : UuidRoundTrip rt) {n : ι} {fault : Option PyError} {op : DbOp}
    {next : op.Reply → Program DbOp DbOp.Reply Response} {resp : Response}
    (hn : (serving rt calls s sched).threads n = .call op next)
    (hret : next (exec rt ((calls n).choice fault) (serving rt calls s sched).store op).1 = .ret resp)
    (hrereads : (calls n).request.rereads = true → Machine.Repeats (exec rt) (serving rt calls s sched) n)
    (hrep : Represents rt (serving rt calls s sched).store d) :
    ∃ d', Step d (label rt ((calls n).request,resp)) d' ∧
      Represents rt (exec rt ((calls n).choice fault) (serving rt calls s sched).store op).2 d' := by
  have hpath := ending_exchanges hn hret
  have hissues : Issues rt (calls n).request (calls n).salt op next := by
    have hcall := serving_path rt calls s sched n
    rw [hn] at hcall
    exact (Program.Everywhere.path (serve_issues rt (calls n).request (calls n).salt) hcall).1
  have hturn : Machine.Repeats (exec rt) (serving rt calls s sched) n →
      ∃ d', Step d (label rt ((calls n).request,resp)) d' ∧
        Represents rt (exec rt ((calls n).choice fault) (serving rt calls s sched).store op).2 d' := by
    intro hrepeats
    obtain ⟨turn,hcall,hrun⟩ := serving_repeats hn hret hrepeats
    rw [← hcall]
    exact turn_simulates hl hround (hcall ▸ hrun) hrep
  cases hs : resp.success with
  | false =>
    have hquiet : label rt ((calls n).request,resp) = .quiet := by simp [label,hs]
    have hstore : (exec rt ((calls n).choice fault) (serving rt calls s sched).store op).2 = (serving rt calls s sched).store := by
      rcases hissues.commits ((calls n).choice fault) (serving rt calls s sched).store with h | ⟨resp',hresp,hs'⟩
      · exact h
      · cases hret.symm.trans hresp
        rw [hs] at hs'
        cases hs'
    rw [hquiet,hstore]
    exact ⟨d,.quiet,hrep⟩
  | true =>
    obtain ⟨endpoint,he⟩ := endpoint_of_success hpath hs
    cases endpoint with
    | registerUser => exact hturn (repeats_of_success hn hret hs he (.inl rfl))
    | loginUser => exact hturn (repeats_of_success hn hret hs he (.inr (.inl rfl)))
    | getUserInfo => exact hturn (repeats_of_success hn hret hs he (.inr (.inr rfl)))
    | changePassword | deleteAccount | listAllUsers => exact hturn (hrereads (by simp [Request.rereads,he]))
    | _ =>
      have hquiet : label rt ((calls n).request,resp) = .quiet := by
        cases hcontent : resp.content <;> simp [label,hs,he,hcontent,readLabel]
      rw [hquiet,hissues.reads he rfl]
      exact ⟨d,.quiet,hrep⟩

/-- The statements of requests that overlap are a run of the service, in the order of the last ones. -/
theorem statements_simulate (hl : BcryptLaws rt) (hround : UuidRoundTrip rt) (hrep : Represents rt s d)
    (hg : Machine.Guarded (exec rt) (fun m n => (!(calls n).request.rereads || repeatable rt m n) = true) (initial rt calls s)
      (schedule calls sched)) :
    ∃ (answers : List (ι × Response)) (d' : Service), answers.map Prod.fst = answeredInOrder rt calls s sched ∧
      (∀ x ∈ answers, (serving rt calls s sched).threads x.1 = .ret x.2) ∧
      Traces Step d (answers.map (fun x => label rt ((calls x.1).request,x.2))) d' ∧
      Represents rt (serving rt calls s sched).store d' := by
  refine Machine.run_traces (fun n => serve_writesLast rt (calls n).request (calls n).salt)
    (fun n resp => label rt ((calls n).request,resp)) hrep ?_
  intro xs n c ys hsplit op next resp d' hn hret hrep'
  rw [hsplit] at hg
  obtain ⟨sched₁,fault,sched₂,-,rfl,rfl,-⟩ := schedule_split hsplit
  refine ending_simulates hl hround hn hret (fun hrereads => ?_) hrep'
  have hguard := hg.before
  rw [hrereads] at hguard
  exact repeats_of_repeatable hguard

/-- Every interleaving on a pool is a run of the service, which makes its steps with the last
statements of the requests and shows the answers these have come to, provided that a change of
password, a deletion or a list for the admin only makes a statement while its earlier ones
would be answered alike. Registrations, sign-ins and looks at an account may overlap with
anything. Left out are only requests that a raising return has cut short, and what has ended
at some point of the run comes before what ends later. -/
theorem interleavings_refine_service (hl : BcryptLaws rt) (hround : UuidRoundTrip rt) (hrep : Represents rt s d)
    (hg : Machine.Guarded (exec rt) (fun m n => (!(calls n).request.rereads || repeatable rt m n) = true) (initial rt calls s)
      (schedule calls (Pool.statements (Pool.serving rt calls s sched).log))) :
    ∃ (answers : List (ι × Response)) (d' : Service),
      answers.map Prod.fst = Pool.concludedInOrder rt calls s sched ∧
      (∀ x ∈ answers, Pool.Concluded rt calls (Pool.serving rt calls s sched) x.1 x.2) ∧
      (∀ n answer, (Pool.serving rt calls s sched).threads n = .ret answer →
        (∃ e ∈ (Pool.serving rt calls s sched).log.filterMap Leasing.plainEvent, e.thread = n) →
        n ∈ answers.map Prod.fst ∨ ∃ e, Pool.Raised rt n (Pool.serving rt calls s sched).log e) ∧
      Traces Step d (answers.map (fun x => label rt ((calls x.1).request,x.2))) d' ∧
      Represents rt (Pool.serving rt calls s sched).store d' ∧
      ∀ sched₁ sched₂, sched = sched₁ ++ sched₂ →
        ∃ later, answers.map Prod.fst = Pool.concludedInOrder rt calls s sched₁ ++ later := by
  obtain ⟨answers,d',horder,hanswers,htrace,hrep'⟩ := statements_simulate hl hround hrep hg
  rw [(Pool.serving_matches rt calls s sched).store] at hrep'
  refine ⟨answers,d',horder,fun x hx => Pool.concluded_of_plain (hanswers x hx),?_,htrace,hrep',?_⟩
  · intro n answer hret hstatement
    rw [horder]
    exact Pool.concluded_or_raised hret hstatement
  · rintro sched₁ sched₂ rfl
    rw [horder]
    exact Pool.concludedInOrder_append rt calls s sched₁ sched₂

/-- Two registrations of one email: both find it free, the second INSERT is refused, and the first
one is answered last. -/
def racingCalls : Bool → Call
  | false => ⟨Reference.registerRequest "user" "user@example.com" "secret1",Reference.saltOf "secret1",1,1⟩
  | true => ⟨Reference.registerRequest "guest" "user@example.com" "secret2",Reference.saltOf "secret2",2,2⟩

def racingSchedule : List (Bool × Option PyError) :=
  [(false,none),(true,none),(false,none),(true,none),(true,none),(false,none),(false,none),(true,none)]

theorem interleavings_refine_service_racing :
    Pool.concludedInOrder reference racingCalls ⟨Users.empty,[]⟩ racingSchedule = [true,false] ∧
      ∃ d', Represents reference (Pool.serving reference racingCalls ⟨Users.empty,[]⟩ racingSchedule).store d' := by
  have hg : Machine.Guarded (exec reference) (fun m n => (!(racingCalls n).request.rereads || repeatable reference m n) = true)
      (initial reference racingCalls ⟨Users.empty,[]⟩)
      (schedule racingCalls (Pool.statements (Pool.serving reference racingCalls ⟨Users.empty,[]⟩ racingSchedule).log)) := by
    decide +kernel
  obtain ⟨_,d',-,-,-,-,hrep,-⟩ := interleavings_refine_service Reference.bcryptLaws Reference.roundTrip (represents_empty []) hg
  exact ⟨by decide +kernel,d',hrep⟩

end Accounts
end Thintuit.Server
