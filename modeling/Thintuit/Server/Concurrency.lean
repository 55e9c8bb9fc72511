import Thintuit.Interaction.Interleaving
import Thintuit.Server.SingleRequest

/-! Any number of requests in flight. Each waits for its own statements, and the
statements of different requests reach the database in any order. -/
namespace Thintuit.Server
open Interaction
variable {ι : Type}

/-- A request with what is drawn for it outside the handlers: the salt of its hash,
and the column defaults of the row it may insert. No request inserts twice. -/
structure Call where
  request : Request
  salt : Bytes
  newId : Uuid
  now : Timestamp

namespace Call
variable (rt : Runtime) (call : Call)

def program : Program DbOp DbOp.Reply Response := serve rt call.request call.salt

def choice (fault : Option PyError) : Choice := ⟨fault,call.newId,call.now⟩

def registersEmail (email : PyStr) : Bool := (call.request.registers rt).any (fun user => user.email = email)

def deletesId (i : Uuid) : Bool := call.request.deletes.any (fun userId => rt.uuidParam userId = some i)

end Call

section Answered
variable {rt : Runtime} {request : Request} {salt : Bytes} {endpoint : Endpoint}

/-- An operation other than its write leaves a writing request without a success answer. -/
theorem answered_of_silent {β : Type} {next : β → Program DbOp DbOp.Reply Response}
    (h : ∀ r resp, next r = .ret resp → resp.success = true →
      ∀ endpoint, request.endpoint = some endpoint → endpoint.writes = false)
    (he : request.endpoint = some endpoint) (hw : endpoint.writes = true) (r : β) :
    (next r).answered Response.success = false := by
  cases hnext : next r with
  | call op next => rfl
  | ret resp =>
    rw [Program.answered,Bool.eq_false_iff]
    intro hs
    rw [h r resp hnext hs endpoint he] at hw
    cases hw

/-- No writing request succeeds before its first statement. -/
theorem serve_unanswered (he : request.endpoint = some endpoint) (hw : endpoint.writes = true) :
    (serve rt request salt).answered Response.success = false :=
  answered_of_silent (fun _ : Unit => (serve_quiet rt request salt).answer) he hw ()

end Answered

abbrev State (ι : Type) := Machine ι Choice Store DbOp DbOp.Reply Response

abbrev Log (ι : Type) := List (Event ι Choice Store DbOp)

namespace State

def succeeded (m : State ι) (n : ι) : Bool := (m.threads n).answered Response.success

def finished (m : State ι) (n : ι) : Bool := (m.threads n).answered (fun _ => true)

theorem finished_iff (m : State ι) (n : ι) : m.finished n = true ↔ ∃ resp, m.threads n = .ret resp := by
  unfold finished
  cases m.threads n <;> simp [Program.answered]

theorem succeeded_iff (m : State ι) (n : ι) :
    m.succeeded n = true ↔ ∃ resp, m.threads n = .ret resp ∧ resp.success = true := by
  unfold succeeded
  cases m.threads n <;> simp [Program.answered]

end State

/-- A step of the schedule names a request, and the fault its statement meets, if any. -/
def schedule (calls : ι → Call) (sched : List (ι × Option PyError)) : List (ι × Choice) :=
  sched.map (fun x => (x.1,(calls x.1).choice x.2))

theorem schedule_split {calls : ι → Call} {sched : List (ι × Option PyError)} {xs ys : List (ι × Choice)} {n : ι} {c : Choice}
    (h : schedule calls sched = xs ++ (n,c) :: ys) :
    ∃ sched₁ fault sched₂, sched = sched₁ ++ (n,fault) :: sched₂ ∧ c = (calls n).choice fault ∧
      xs = schedule calls sched₁ ∧ ys = schedule calls sched₂ := by
  obtain ⟨sched₁,rest,rfl,rfl,hrest⟩ := List.map_eq_append_iff.mp h
  obtain ⟨⟨k,fault⟩,sched₂,rfl,hx,rfl⟩ := List.map_eq_cons_iff.mp hrest
  cases hx
  exact ⟨sched₁,fault,sched₂,rfl,rfl,rfl,rfl⟩

section Serving
variable [DecidableEq ι] (rt : Runtime) (calls : ι → Call)

def initial (s : Store) : State ι := Machine.start s (fun n => (calls n).program rt)

def serving (s : Store) (sched : List (ι × Option PyError)) : State ι :=
  (initial rt calls s).run (exec rt) (schedule calls sched)

variable (s : Store) (sched : List (ι × Option PyError))

theorem serving_chain : Chain (exec rt) s (serving rt calls s sched).log (serving rt calls s sched).store :=
  Machine.run_chain (exec rt) s _ _

theorem serving_path (n : ι) :
    Program.Path ((calls n).program rt) (exchanges (exec rt) n (serving rt calls s sched).log)
      ((serving rt calls s sched).threads n) :=
  Machine.run_path (exec rt) s (fun n => (calls n).program rt) (schedule calls sched) n

variable {rt calls s sched}

/-- A success comes after all the exchanges its request has had. -/
theorem serving_succeeded {n : ι} (hs : (serving rt calls s sched).succeeded n = true) :
    ∃ resp, (serving rt calls s sched).threads n = .ret resp ∧ resp.success = true ∧
      Program.Path ((calls n).program rt) (exchanges (exec rt) n (serving rt calls s sched).log) (.ret resp) := by
  obtain ⟨resp,hret,hsucc⟩ := (State.succeeded_iff _ _).mp hs
  have hpath := serving_path rt calls s sched n
  rw [hret] at hpath
  exact ⟨resp,hret,hsucc,hpath⟩

/-- The state in which a logged statement was issued, at an earlier point of the schedule. -/
theorem serving_event {l₁ l₂ : Log ι} {n : ι} {c : Choice} {op : DbOp} {t : Store}
    (h : (serving rt calls s sched).log = l₁ ++ ⟨n,c,op,t⟩ :: l₂) :
    ∃ sched₁ fault sched₂ next, sched = sched₁ ++ (n,fault) :: sched₂ ∧ c = (calls n).choice fault ∧
      (serving rt calls s sched₁).log = l₁ ∧ (serving rt calls s sched₁).store = t ∧
      (serving rt calls s sched₁).threads n = .call op next := by
  obtain ⟨xs,ys,next,hsched,hlog,hstore,hcall⟩ := Machine.run_event (exec rt) s _ _ h
  obtain ⟨sched₁,fault,sched₂,rfl,hc,rfl,-⟩ := schedule_split hsched
  exact ⟨sched₁,fault,sched₂,next,rfl,hc,hlog,hstore,hcall⟩

theorem serving_choice {n : ι} {c : Choice} {op : DbOp} {t : Store}
    (he : ⟨n,c,op,t⟩ ∈ (serving rt calls s sched).log) : ∃ fault, c = (calls n).choice fault := by
  obtain ⟨l₁,l₂,hlog⟩ := List.append_of_mem he
  obtain ⟨_,fault,_,_,_,hc,_⟩ := serving_event hlog
  exact ⟨fault,hc⟩

/-- Every logged statement is one its request issues. -/
theorem serving_issues {n : ι} {c : Choice} {op : DbOp} {t : Store}
    (he : ⟨n,c,op,t⟩ ∈ (serving rt calls s sched).log) :
    ∃ next, Issues rt (calls n).request (calls n).salt op next :=
  Machine.run_everywhere (P := fun n => Issues rt (calls n).request (calls n).salt) (exec rt) s _ _
    (fun n => serve_issues rt (calls n).request (calls n).salt) _ he

/-- A longer schedule only adds to the log, with a chain from the earlier store. -/
theorem serving_append (rt : Runtime) (calls : ι → Call) (s : Store) (sched₁ sched₂ : List (ι × Option PyError)) :
    ∃ tail, (serving rt calls s (sched₁ ++ sched₂)).log = (serving rt calls s sched₁).log ++ tail ∧
      Chain (exec rt) (serving rt calls s sched₁).store tail (serving rt calls s (sched₁ ++ sched₂)).store ∧
      ∀ n, Program.Path ((serving rt calls s sched₁).threads n) (exchanges (exec rt) n tail)
        ((serving rt calls s (sched₁ ++ sched₂)).threads n) := by
  have hrun : serving rt calls s (sched₁ ++ sched₂) =
      (serving rt calls s sched₁).run (exec rt) (schedule calls sched₂) := by
    unfold serving schedule
    rw [List.map_append,Machine.run_append]
  obtain ⟨tail,hlog,hchain,-,hpath⟩ :=
    Machine.run_extends (exec rt) (serving rt calls s sched₁) (schedule calls sched₂)
  rw [hrun]
  exact ⟨tail,hlog,hchain,hpath⟩

end Serving

/-! What a logged statement did to the users table. -/

def eventEffect (rt : Runtime) (e : Event ι Choice Store DbOp) : Effect :=
  effect rt e.choice e.op (e.reply (exec rt))

/-- The rows before a statement whose id no row after it has. -/
def eventRemoved (rt : Runtime) (e : Event ι Choice Store DbOp) : List Row :=
  e.before.users.rows.filter (fun row => (e.after (exec rt)).users.rows.all (fun r => r.userId ≠ row.userId))

/-- The rows, as they were before, that an UPDATE names and that stand in the table after
it with the password it wrote. -/
def replacedBetween (rt : Runtime) (before after : List Row) : (op : DbOp) → op.Reply → List Row
  | .updatePassword password userId, .ok _ =>
    before.filter (fun row => rt.uuidParam userId = some row.userId && { row with password := password } ∈ after)
  | _, _ => []

def eventReplaced (rt : Runtime) (e : Event ι Choice Store DbOp) : List Row :=
  replacedBetween rt e.before.users.rows (e.after (exec rt)).users.rows e.op (e.reply (exec rt))

/-- The rows a run's DELETE statements have removed. -/
def removedRows (rt : Runtime) (log : Log ι) : List Row := log.flatMap (eventRemoved rt)

/-- The rows a run's INSERT statements have added. -/
def insertedRows (rt : Runtime) (log : Log ι) : List Row := log.flatMap (fun e => (eventEffect rt e).inserted)

theorem event_rows (rt : Runtime) (e : Event ι Choice Store DbOp) :
    (e.after (exec rt)).users.rows = (eventEffect rt e).rows e.before.users.rows := exec_rows rt e.choice e.before e.op

theorem eventRemoved_eq (rt : Runtime) (e : Event ι Choice Store DbOp) :
    eventRemoved rt e = (eventEffect rt e).removed e.before.users.rows := by
  unfold eventRemoved
  rw [event_rows]
  exact Effect.filter_gone _ _

theorem replacedBetween_eq (rt : Runtime) (c : Choice) (rows : List Row) (op : DbOp) (r : op.Reply) :
    replacedBetween rt rows ((effect rt c op r).rows rows) op r = (effect rt c op r).replaced rows := by
  cases op with
  | updatePassword password userId =>
    cases r with
    | error e => rfl
    | ok count =>
      rcases hi : rt.uuidParam userId with _ | i
      · simp [replacedBetween,effect,hi,Effect.replaced]
      · simp only [replacedBetween,effect,hi,Effect.rows,Effect.replaced]
        refine List.filter_congr (fun row hrow => ?_)
        by_cases hid : row.userId = i
        · have hset : { row with password := password } ∈ rows.map (Users.setPasswordRow i password) :=
            List.mem_map.mpr ⟨row,hrow,if_pos hid⟩
          subst hid
          rw [decide_eq_true hset,Bool.and_true]
          simp
        · simp [hid,Ne.symm hid]
  | deleteUser userId =>
    cases r with
    | error e => rfl
    | ok count => cases hi : rt.uuidParam userId <;> simp [replacedBetween,effect,hi,Effect.replaced]
  | _ => cases r <;> rfl

theorem eventReplaced_eq (rt : Runtime) (e : Event ι Choice Store DbOp) :
    eventReplaced rt e = (eventEffect rt e).replaced e.before.users.rows := by
  unfold eventReplaced
  rw [event_rows]
  exact replacedBetween_eq rt e.choice _ _ _

/-- Bookkeeping of rows over a chain of statements. -/
theorem rows_balance {rt : Runtime} {s t : Store} {log : Log ι} (hchain : Chain (exec rt) s log t) (p : Row → Bool)
    (hp : ∀ i password r, p (Users.setPasswordRow i password r) = p r) :
    t.users.rows.countP p + (removedRows rt log).countP p =
      s.users.rows.countP p + (insertedRows rt log).countP p := by
  have h := hchain.balance (fun s => s.users.rows.countP p)
    (fun e => (eventEffect rt e).inserted.countP p) (fun e => (eventRemoved rt e).countP p) (fun e _ => by
      rw [event_rows,eventRemoved_eq]
      exact Effect.balance p hp _ _)
  simpa only [removedRows,insertedRows,List.countP_flatMap,Function.comp_def] using h

/-- Where each statement that counts contributes one row that counts, the two counts agree. -/
theorem countP_flatMap_eq {α β : Type} {l : List α} {p : α → Bool} {f : α → List β} {q : β → Bool}
    (h : ∀ a ∈ l, (f a).countP q = if p a then 1 else 0) : (l.flatMap f).countP q = l.countP p := by
  induction l with
  | nil => rfl
  | cons a l ih =>
    rw [List.flatMap_cons,List.countP_append,List.countP_cons,h a List.mem_cons_self,
      ih (fun b hb => h b (List.mem_cons_of_mem _ hb)),Nat.add_comm]

end Thintuit.Server
