import Thintuit.Server.Pending
import Thintuit.Server.Reference

/-! Concurrent deletions of an account. The SELECT finds the row and a later DELETE
removes it, with its row count ignored, so two requests may both find one row. -/
namespace Thintuit.Server
open Interaction
variable {ι : Type} (rt : Runtime)

/-- The exchange with which a request deletes the row `i`. -/
def deletion (i : Uuid) : Exchange DbOp DbOp.Reply → Bool
  | ⟨.deleteUser userId,.ok _⟩ => rt.uuidParam userId = some i
  | _ => false

variable {rt}

private theorem deletion_iff (e : Event ι Choice Store DbOp) (i : Uuid) :
    deletion rt i (e.exchange (exec rt)) = true ↔ eventEffect rt e = .delete i := by
  obtain ⟨n,c,op,t⟩ := e
  simp only [Event.exchange,eventEffect,Event.reply]
  cases hr : (exec rt c t op).1 with
  | error err => cases op <;> simp [deletion,effect]
  | ok r =>
    cases op with
    | deleteUser userId =>
      cases hu : rt.uuidParam userId <;> simp [deletion,effect,hu]
    | updatePassword password userId =>
      cases hu : rt.uuidParam userId <;> simp [deletion,effect,hu]
    | _ => simp [deletion,effect]

/-- A delete-account request for `i` answers success exactly on its deletion of `i`. -/
private theorem Issues.answered_delete {request : Request} {salt : Bytes} {op : DbOp}
    {next : op.Reply → Program DbOp DbOp.Reply Response} (h : Issues rt request salt op next) (i : Uuid)
    (r : op.Reply) :
    (next r).answered (fun resp => resp.success && request.deletes.any (fun u => rt.uuidParam u = some i)) =
      deletion rt i ⟨op,r⟩ := by
  rw [Program.answered_and]
  cases op with
  | deleteUser userId =>
    rw [h.1,h.2 r]
    cases r with
    | error e => rfl
    | ok n => simp [Program.answered,deleteReply,deletion]
  | insertUser name email password =>
    obtain ⟨user,hu,-⟩ := h
    have hd : request.deletes = none := by simp [Request.deletes,((registers_iff user).mp hu).1]
    simp [hd,deletion]
  | updatePassword password userId =>
    obtain ⟨cur,new,hc,-⟩ := h
    have hd : request.deletes = none := by simp [Request.deletes,((changes_iff _ _ _).mp hc).1]
    simp [hd,deletion]
  | _ =>
    simp only [deletion,Bool.and_eq_false_iff]
    cases hd : request.deletes with
    | none => exact .inr rfl
    | some userId => exact .inl (answered_of_silent h ((deletes_iff userId).mp hd).1 rfl r)

/-- No request answers a deletion before its first statement. -/
private theorem unanswered_delete (request : Request) (salt : Bytes) (i : Uuid) :
    (serve rt request salt).answered
      (fun resp => resp.success && request.deletes.any (fun u => rt.uuidParam u = some i)) = false := by
  rw [Program.answered_and]
  cases hd : request.deletes with
  | none => simp
  | some userId => rw [serve_unanswered ((deletes_iff userId).mp hd).1 rfl,Bool.false_and]

variable [DecidableEq ι] (rt)

/-- The rows a request's own DELETE has removed. -/
def rowsRemoved (log : Log ι) (n : ι) : List Row := (log.filter (fun e => e.thread = n)).flatMap (eventRemoved rt)

/-- The next statement of `n` does not delete a row that another request has found
and not yet deleted. -/
def SparesFound (m : State ι) (n : ι) : Prop :=
  ∀ i, pendingDelete rt (m.threads n) = some i → ∀ k, k ≠ n → pendingDelete rt (m.threads k) ≠ some i

instance [Fintype ι] (m : State ι) (n : ι) : Decidable (SparesFound rt m n) :=
  decidable_of_iff (∀ k, k ≠ n → (pendingDelete rt (m.threads k)).all (fun i =>
      pendingDelete rt (m.threads n) ≠ some i) = true) (by
    simp only [SparesFound,Option.all_eq_true,decide_eq_true_eq]
    exact ⟨fun h i hn k hk hi => h k hk i hi hn,fun h k hk i hi hn => h i hn k hk hi⟩)

section Runs
variable {rt} {calls : ι → Call} {s : Store} {sched : List (ι × Option PyError)}

/-- While a request is pending on its DELETE, the row it found is still there. -/
private theorem found_row_kept
    (hg : Machine.Guarded (exec rt) (SparesFound rt) (initial rt calls s) (schedule calls sched)) (n : ι) (i : Uuid)
    (hn : pendingDelete rt ((serving rt calls s sched).threads n) = some i) :
    ∃ row, (serving rt calls s sched).store.users.findById i = some row := by
  refine Machine.run_interference (exec rt) s (fun n => (calls n).program rt) (schedule calls sched)
    (fun _ _ p t => ∀ i, pendingDelete rt p = some i → ∃ row, t.users.findById i = some row) ?_ ?_ ?_ n i hn
  · intro n i h
    exact absurd h not_pendingDelete_start
  · intro n es op next c t hp _ i hi
    exact delete_established hp hi
  · intro xs n c ys op next k es hsched hn hk hF i hi
    obtain ⟨row,hrow⟩ := hF i hi
    rw [hsched] at hg
    refine findById_kept rt hrow ?_
    intro he
    obtain ⟨userId,rfl,hid⟩ := effect_delete rt he
    exact hg.before (exec rt) i ((pendingDelete_iff _ _).mpr ⟨_,_,hn,hid⟩) k hk hi

theorem rowsRemoved_eq_nil {l : Log ι} {n : ι} (h : ∀ x ∈ exchanges (exec rt) n l, ∀ userId, x.op ≠ .deleteUser userId) :
    rowsRemoved rt l n = [] := by
  apply List.flatMap_eq_nil_iff.mpr
  intro e he
  have hop := h _ (List.mem_map_of_mem he)
  rw [eventRemoved_eq]
  cases heff : eventEffect rt e with
  | delete i =>
    obtain ⟨userId,hdel,-⟩ := effect_delete rt heff
    exact absurd hdel (hop userId)
  | _ => rfl

/-- In a guarded run every DELETE that goes through removes exactly one row. -/
private theorem deletion_removes
    (hg : Machine.Guarded (exec rt) (SparesFound rt) (initial rt calls s) (schedule calls sched))
    {e : Event ι Choice Store DbOp} (he : e ∈ (serving rt calls s sched).log) {i : Uuid}
    (heff : eventEffect rt e = .delete i) : ∃ row, row.userId = i ∧ eventRemoved rt e = [row] := by
  obtain ⟨past,future,hlog⟩ := List.append_of_mem he
  obtain ⟨n,c,op,t⟩ := e
  obtain ⟨sched₁,fault,sched₂,next,rfl,-,-,ht,hcall⟩ := serving_event hlog
  obtain ⟨userId,rfl,hi⟩ := effect_delete rt heff
  rw [schedule,List.map_append] at hg
  obtain ⟨row,hrow⟩ := found_row_kept hg.left n i ((pendingDelete_iff _ _).mpr ⟨_,_,hcall,hi⟩)
  rw [ht] at hrow
  refine ⟨row,((Users.findById_eq_some_iff _ _ _).mp hrow).2,?_⟩
  rw [eventRemoved_eq,heff]
  exact Users.filter_userId hrow

/-- A success has removed one row by its own DELETE. -/
private theorem deleted_own
    (hg : Machine.Guarded (exec rt) (SparesFound rt) (initial rt calls s) (schedule calls sched)) {n : ι} {userId : PyStr}
    (hd : (calls n).request.deletes = some userId) (hs : (serving rt calls s sched).succeeded n = true) :
    ∃ row, rt.uuidParam userId = some row.userId ∧ rowsRemoved rt (serving rt calls s sched).log n = [row] := by
  obtain ⟨resp,-,hsucc,hpath⟩ := serving_succeeded hs
  obtain ⟨email,count,-,hes⟩ := deleteAccount_success hd hpath hsucc
  obtain ⟨past,c,t,future,hlog,hok,hpast,hfuture⟩ := exchanges_eq_append_cons (exec rt) [_,_] hes
  obtain ⟨-,t',hp⟩ := (exec_ok_iff rt _ _ _ _).mp hok
  obtain ⟨i,hi,-,-⟩ := (deleteUser_ok_iff rt _ _ _ _ _).mp hp
  have heff : eventEffect rt (⟨n,c,.deleteUser userId,t⟩ : Event ι Choice Store DbOp) = .delete i := by
    simp only [eventEffect,Event.reply,hok,effect,hi]
  obtain ⟨row,rfl,hrem⟩ := deletion_removes hg (by rw [hlog]; exact List.mem_append_right _ List.mem_cons_self) heff
  have hnil₁ : rowsRemoved rt past n = [] := rowsRemoved_eq_nil (by simp [hpast])
  have hnil₂ : rowsRemoved rt future n = [] := rowsRemoved_eq_nil (by simp [hfuture])
  refine ⟨row,hi,?_⟩
  unfold rowsRemoved at hnil₁ hnil₂ ⊢
  rw [hlog,List.filter_append,List.flatMap_append,hnil₁,List.filter_cons_of_pos (by simp),List.flatMap_cons,hrem,
    hnil₂]
  rfl

/-- The deletions of an id that went through are the rows removed with it. -/
private theorem countP_deletion
    (hg : Machine.Guarded (exec rt) (SparesFound rt) (initial rt calls s) (schedule calls sched)) (i : Uuid) :
    (serving rt calls s sched).log.countP (fun e => deletion rt i (e.exchange (exec rt))) =
      (removedRows rt (serving rt calls s sched).log).countP (fun row => row.userId = i) := by
  refine (countP_flatMap_eq ?_).symm
  intro e he
  cases hdel : deletion rt i (e.exchange (exec rt)) with
  | true =>
    obtain ⟨row,hid,hrem⟩ := deletion_removes hg he ((deletion_iff e i).mp hdel)
    simp [hrem,hid]
  | false =>
    have hne : eventEffect rt e ≠ .delete i := fun h => by simp [(deletion_iff e i).mpr h] at hdel
    cases heff : eventEffect rt e with
    | delete j =>
      obtain ⟨row,rfl,hrem⟩ := deletion_removes hg he heff
      have hji : row.userId ≠ i := fun h => hne (h ▸ heff)
      simp [hrem,hji]
    | _ => simp [eventRemoved_eq,heff,Effect.removed]

end Runs

/-- Delete-account is safe in every run that spares found rows: each success removed
exactly one row by its own DELETE, and per id the successes are the rows removed. -/
theorem deleteAccount_spared [Fintype ι] (calls : ι → Call) (s : Store) (sched : List (ι × Option PyError))
    (hg : Machine.Guarded (exec rt) (SparesFound rt) (initial rt calls s) (schedule calls sched)) :
    (∀ n userId, (calls n).request.deletes = some userId → (serving rt calls s sched).succeeded n = true →
      ∃ row, rt.uuidParam userId = some row.userId ∧ rowsRemoved rt (serving rt calls s sched).log n = [row]) ∧
    ∀ i, (Finset.univ.filter (fun n => (serving rt calls s sched).succeeded n && (calls n).deletesId rt i)).card =
      (removedRows rt (serving rt calls s sched).log).countP (fun row => row.userId = i) := by
  refine ⟨fun n userId hd hs => deleted_own hg hd hs,fun i => ?_⟩
  have hcard := Machine.card_answered (exec rt)
    (fun n resp => resp.success && (calls n).deletesId rt i) (fun _ => deletion rt i) s
    (fun n => (calls n).program rt) (schedule calls sched)
    (fun n => unanswered_delete (calls n).request (calls n).salt i)
    (fun n => (serve_issues rt (calls n).request (calls n).salt).mono (fun op next h r => h.answered_delete i r))
  simp only [Program.answered_and] at hcard
  exact hcard.trans (countP_deletion hg i)

/-- Two requests to delete one account. -/
def twoDeletions : Fin 2 → Call := fun _ => ⟨Reference.deleteRequest Reference.accountId,[],1,1⟩

/-- One after the other, only the first succeeds. -/
theorem deleteAccount_in_turn :
    (serving reference twoDeletions Reference.store ([0,0,0,1,1,1].map (fun n => (n,none)))).succeeded 0 = true ∧
    (Finset.univ.filter (fun n =>
      (serving reference twoDeletions Reference.store ([0,0,0,1,1,1].map (fun n => (n,none)))).succeeded n &&
        (twoDeletions n).deletesId reference Reference.accountId)).card =
      (removedRows reference
        (serving reference twoDeletions Reference.store ([0,0,0,1,1,1].map (fun n => (n,none)))).log).countP
        (fun row => row.userId = Reference.accountId) :=
  ⟨by decide +kernel,
    (deleteAccount_spared reference twoDeletions Reference.store ([0,0,0,1,1,1].map (fun n => (n,none)))
      (by decide +kernel)).2 Reference.accountId⟩

/-- When both find the row before either deletes it, both succeed and one row goes. -/
theorem deleteAccount_twice :
    (serving reference twoDeletions Reference.store ([0,1,0,1,0,1].map (fun n => (n,none)))).succeeded 0 = true ∧
    (serving reference twoDeletions Reference.store ([0,1,0,1,0,1].map (fun n => (n,none)))).succeeded 1 = true ∧
    rowsRemoved reference
      (serving reference twoDeletions Reference.store ([0,1,0,1,0,1].map (fun n => (n,none)))).log 1 = [] ∧
    (removedRows reference
      (serving reference twoDeletions Reference.store ([0,1,0,1,0,1].map (fun n => (n,none)))).log).countP
      (fun row => row.userId = Reference.accountId) = 1 := by
  decide +kernel

end Thintuit.Server
