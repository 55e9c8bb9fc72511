import Thintuit.Server.Pending
import Thintuit.Server.Reference

/-! Concurrent changes of password. The UPDATE names the id only and its row count is
ignored, so a success answer is right as long as nobody else writes to the row
between the check and the UPDATE. -/
namespace Thintuit.Server
open Interaction
variable {ι : Type} [DecidableEq ι] (rt : Runtime)

/-- The row an exchange read with `SELECT * ... WHERE user_id`. -/
def rowOf : Exchange DbOp DbOp.Reply → Option Row
  | ⟨.fetchById _,.ok row⟩ => row
  | _ => none

def rowRead (log : Log ι) (n : ι) : Option Row := (exchanges (exec rt) n log).findSome? rowOf

/-- The rows whose password a request's own UPDATE has replaced, as they were before. -/
def rowsReplaced (log : Log ι) (n : ι) : List Row := (log.filter (fun e => e.thread = n)).flatMap (eventReplaced rt)

/-- The next statement of `n` does not write to a row that another request has
verified a password against and not yet updated. -/
def SparesVerified (m : State ι) (n : ι) : Prop :=
  ∀ i, pendingUpdate rt (m.threads n) = some i ∨ pendingDelete rt (m.threads n) = some i →
    ∀ k, k ≠ n → pendingUpdate rt (m.threads k) ≠ some i

instance [Fintype ι] (m : State ι) (n : ι) : Decidable (SparesVerified rt m n) :=
  decidable_of_iff (∀ k, k ≠ n → (pendingUpdate rt (m.threads k)).all (fun i =>
      pendingUpdate rt (m.threads n) ≠ some i && pendingDelete rt (m.threads n) ≠ some i) = true) (by
    simp only [SparesVerified,Option.all_eq_true,Bool.and_eq_true,decide_eq_true_eq]
    constructor
    · intro h i hn k hk hi
      rcases hn with hn | hn
      · exact (h k hk i hi).1 hn
      · exact (h k hk i hi).2 hn
    · intro h k hk i hi
      exact ⟨fun hn => h i (.inl hn) k hk hi,fun hn => h i (.inr hn) k hk hi⟩)

section Runs
variable {rt} {calls : ι → Call} {s : Store} {sched : List (ι × Option PyError)}

/-- While a request is pending on its UPDATE, the row is still the one it verified. -/
private theorem verified_row_kept
    (hg : Machine.Guarded (exec rt) (SparesVerified rt) (initial rt calls s) (schedule calls sched)) (n : ι) (i : Uuid)
    (hn : pendingUpdate rt ((serving rt calls s sched).threads n) = some i) :
    ∃ row, rowRead rt (serving rt calls s sched).log n = some row ∧
      (serving rt calls s sched).store.users.findById i = some row := by
  refine Machine.run_interference (exec rt) s (fun n => (calls n).program rt) (schedule calls sched)
    (fun _ es p t => ∀ i, pendingUpdate rt p = some i → ∃ row, es.findSome? rowOf = some row ∧
      t.users.findById i = some row) ?_ ?_ ?_ n i hn
  · intro n i h
    exact absurd h not_pendingUpdate_start
  · intro n es op next c t hp _ i hi
    obtain ⟨userId,row,rfl,hx,hrow⟩ := update_established hp hi
    refine ⟨row,?_,hrow⟩
    rw [hx]
    rfl
  · intro xs n c ys op next k es hsched hn hk hF i hi
    obtain ⟨row,hread,hrow⟩ := hF i hi
    rw [hsched] at hg
    have hspares := hg.before (exec rt) i
    refine ⟨row,hread,findById_frame rt hrow ?_ ?_⟩
    · intro password he
      obtain ⟨userId,rfl,hid⟩ := effect_setPassword rt he
      exact hspares (.inl ((pendingUpdate_iff _ _).mpr ⟨_,_,_,hn,hid⟩)) k hk hi
    · intro he
      obtain ⟨userId,rfl,hid⟩ := effect_delete rt he
      exact hspares (.inr ((pendingDelete_iff _ _).mpr ⟨_,_,hn,hid⟩)) k hk hi

theorem rowsReplaced_eq_nil {l : Log ι} {n : ι}
    (h : ∀ x ∈ exchanges (exec rt) n l, ∀ password userId, x.op ≠ .updatePassword password userId) :
    rowsReplaced rt l n = [] := by
  apply List.flatMap_eq_nil_iff.mpr
  intro e he
  have hop := h _ (List.mem_map_of_mem he)
  rw [eventReplaced_eq]
  cases heff : eventEffect rt e with
  | setPassword i password =>
    obtain ⟨userId,hup,-⟩ := effect_setPassword rt heff
    exact absurd hup (hop password userId)
  | _ => rfl

/-- Where a successful change of password stands in the log: its SELECT is in `past`,
its UPDATE met the store `t`, and nothing of it comes later. -/
structure ChangedAt (rt : Runtime) (log : Log ι) (n : ι) (userId : PyStr) (row : Row) (h : PyStr) (past : Log ι)
    (c : Choice) (t : Store) (future : Log ι) (i : Uuid) : Prop where
  log_eq : log = past ++ ⟨n,c,.updatePassword h userId,t⟩ :: future
  id_eq : rt.uuidParam userId = some i
  replied : ∃ count, (exec rt c t (.updatePassword h userId)).1 = .ok count
  reads : exchanges (exec rt) n past = [⟨.acquire,.ok ()⟩,⟨.fetchById userId,.ok (some row)⟩]
  done : exchanges (exec rt) n future = []

private theorem changed_split {n : ι} {userId : PyStr} {currentPassword newPassword : Json}
    (hc : (calls n).request.changes = some (userId,currentPassword,newPassword))
    (hs : (serving rt calls s sched).succeeded n = true) :
    ∃ row h past c t future i, changePassword.validPassword rt currentPassword row.password = .ok true ∧
      ChangedAt rt (serving rt calls s sched).log n userId row h past c t future i := by
  obtain ⟨resp,-,hsucc,hpath⟩ := serving_succeeded hs
  obtain ⟨row,h,count,hvalid,-,-,-,hes⟩ := changePassword_success hc hpath hsucc
  obtain ⟨past,c,t,future,hlog,hok,hpast,hfuture⟩ := exchanges_eq_append_cons (exec rt) [_,_] hes
  obtain ⟨-,t',hp⟩ := (exec_ok_iff rt _ _ _ _).mp hok
  obtain ⟨-,i,hi,-,-⟩ := (updatePassword_ok_iff rt _ _ _ _ _ _).mp hp
  exact ⟨row,h,past,c,t,future,i,hvalid,hlog,hi,⟨count,hok⟩,hpast,hfuture⟩

namespace ChangedAt
variable {n : ι} {userId h : PyStr} {row : Row} {past future : Log ι} {c : Choice} {t : Store} {i : Uuid}

/-- In a guarded run the UPDATE meets the row its SELECT returned. -/
private theorem row_kept (hat : ChangedAt rt (serving rt calls s sched).log n userId row h past c t future i)
    (hg : Machine.Guarded (exec rt) (SparesVerified rt) (initial rt calls s) (schedule calls sched)) :
    t.users.findById i = some row := by
  obtain ⟨sched₁,fault,sched₂,next,rfl,-,hpast,ht,hcall⟩ := serving_event hat.log_eq
  have hg₁ : Machine.Guarded (exec rt) (SparesVerified rt) (initial rt calls s) (schedule calls sched₁) := by
    rw [schedule,List.map_append] at hg
    exact hg.left
  obtain ⟨row',hread,hrow⟩ := verified_row_kept hg₁ n i ((pendingUpdate_iff _ _).mpr ⟨_,_,_,hcall,hat.id_eq⟩)
  rw [hpast,rowRead,hat.reads] at hread
  obtain rfl : row = row' := Option.some.inj hread
  rwa [ht] at hrow

private theorem replaced (hat : ChangedAt rt (serving rt calls s sched).log n userId row h past c t future i)
    (hrow : t.users.findById i = some row) : eventReplaced rt ⟨n,c,.updatePassword h userId,t⟩ = [row] := by
  obtain ⟨count,hok⟩ := hat.replied
  simp only [eventReplaced_eq,eventEffect,Event.reply,hok,effect,hat.id_eq,Effect.replaced]
  exact Users.filter_userId hrow

/-- When this UPDATE is issued, another request on the same account that is not done
yet has read nothing. -/
private theorem rival_unread (hat : ChangedAt rt (serving rt calls s sched).log n userId row h past c t future i)
    (hg : Machine.Guarded (exec rt) (SparesVerified rt) (initial rt calls s) (schedule calls sched))
    {k : ι} {userId' h' : PyStr} {row' : Row} {past' future' : Log ι} {c' : Choice} {t' : Store}
    (hat' : ChangedAt rt (serving rt calls s sched).log k userId' row' h' past' c' t' future' i) (hk : k ≠ n)
    {gap : Log ι} (hgap : past' = past ++ gap) : rowRead rt past k = none := by
  obtain ⟨sched₁,fault,sched₂,next,rfl,-,hpast,-,hcall⟩ := serving_event hat.log_eq
  have hpath₁ := serving_path rt calls s sched₁ k
  have hpath := serving_path rt calls s (sched₁ ++ (n,fault) :: sched₂) k
  have hreads := hat'.reads
  rw [hpast] at hpath₁
  rw [hat'.log_eq,exchanges_append,hreads,exchanges_cons_self] at hpath
  rw [hgap,exchanges_append] at hreads
  unfold rowRead
  rcases hcut : exchanges (exec rt) k past with _ | ⟨a,_ | ⟨b,rest⟩⟩
  · rfl
  · rw [hcut] at hreads
    obtain ⟨rfl,-⟩ := List.cons.inj hreads
    rfl
  · -- after its SELECT the rival would be pending on this very row
    rw [hcut] at hreads hpath₁
    simp only [List.cons_append,List.cons.injEq,List.append_eq_nil_iff] at hreads
    obtain ⟨rfl,rfl,rfl,-⟩ := hreads
    obtain ⟨next',hpend⟩ := Program.Path.pending [_,_] hpath hpath₁
    have hspares : SparesVerified rt (serving rt calls s sched₁) n := by
      rw [schedule,List.map_append,List.map_cons] at hg
      exact hg.before (exec rt)
    exact absurd ((pendingUpdate_iff _ _).mpr ⟨_,_,_,hpend,hat'.id_eq⟩)
      (hspares i (.inl ((pendingUpdate_iff _ _).mpr ⟨_,_,_,hcall,hat.id_eq⟩)) k hk)

/-- Up to and including its UPDATE, `n` has replaced a row and a later rival has read none. -/
private theorem ahead (hat : ChangedAt rt (serving rt calls s sched).log n userId row h past c t future i)
    (hg : Machine.Guarded (exec rt) (SparesVerified rt) (initial rt calls s) (schedule calls sched))
    {k : ι} {userId' h' : PyStr} {row' : Row} {past' future' : Log ι} {c' : Choice} {t' : Store}
    (hat' : ChangedAt rt (serving rt calls s sched).log k userId' row' h' past' c' t' future' i) (hk : k ≠ n)
    {gap : Log ι} (hgap : past' = past ++ gap) :
    ∃ l₁ l₂, (serving rt calls s sched).log = l₁ ++ l₂ ∧ rowsReplaced rt l₁ n ≠ [] ∧ rowRead rt l₁ k = none := by
  refine ⟨past ++ [⟨n,c,.updatePassword h userId,t⟩],future,by simp [hat.log_eq],?_,?_⟩
  · simp [rowsReplaced,List.filter_append,hat.replaced (hat.row_kept hg)]
  · rw [rowRead,exchanges_append,exchanges_cons_of_ne (exec rt) (Ne.symm hk),exchanges_nil,List.append_nil]
    exact hat.rival_unread hg hat' hk hgap

end ChangedAt

end Runs

/-- Change-password is safe in every run that spares verified rows: each success
replaced, in exactly one row, the password it had verified, and of two successes on
one account the later one read after the earlier one wrote. -/
theorem changePassword_spared (calls : ι → Call) (s : Store) (sched : List (ι × Option PyError))
    (hg : Machine.Guarded (exec rt) (SparesVerified rt) (initial rt calls s) (schedule calls sched)) :
    (∀ n userId currentPassword newPassword,
      (calls n).request.changes = some (userId,currentPassword,newPassword) →
      (serving rt calls s sched).succeeded n = true →
      ∃ read old, rowRead rt (serving rt calls s sched).log n = some read ∧
        changePassword.validPassword rt currentPassword read.password = .ok true ∧
        rowsReplaced rt (serving rt calls s sched).log n = [old] ∧ old.password = read.password) ∧
    ∀ n k u u' cur cur' new new' i, n ≠ k →
      (calls n).request.changes = some (u,cur,new) → (calls k).request.changes = some (u',cur',new') →
      rt.uuidParam u = some i → rt.uuidParam u' = some i →
      (serving rt calls s sched).succeeded n = true → (serving rt calls s sched).succeeded k = true →
      ∃ past future, (serving rt calls s sched).log = past ++ future ∧
        (rowsReplaced rt past n ≠ [] ∧ rowRead rt past k = none ∨
          rowsReplaced rt past k ≠ [] ∧ rowRead rt past n = none) := by
  refine ⟨?_,?_⟩
  · intro n userId cur new hc hs
    obtain ⟨row,h,past,c,t,future,i,hvalid,hat⟩ := changed_split hc hs
    have hrow := hat.row_kept hg
    have hnil₁ : rowsReplaced rt past n = [] := rowsReplaced_eq_nil (by simp [hat.reads])
    have hnil₂ : rowsReplaced rt future n = [] := rowsReplaced_eq_nil (by simp [hat.done])
    refine ⟨row,row,?_,hvalid,?_,rfl⟩
    · rw [rowRead,hat.log_eq,exchanges_append,hat.reads]
      rfl
    · unfold rowsReplaced at hnil₁ hnil₂ ⊢
      rw [hat.log_eq,List.filter_append,List.flatMap_append,hnil₁,List.filter_cons_of_pos (by simp),
        List.flatMap_cons,hat.replaced hrow,hnil₂]
      rfl
  · intro n k u u' cur cur' new new' i hnk hcn hck hu hu' hsn hsk
    obtain ⟨row,h,past,c,t,future,j,-,hat⟩ := changed_split hcn hsn
    obtain ⟨row',h',past',c',t',future',j',-,hat'⟩ := changed_split hck hsk
    obtain rfl : i = j := Option.some.inj (hu.symm.trans hat.id_eq)
    obtain rfl : i = j' := Option.some.inj (hu'.symm.trans hat'.id_eq)
    have hlogs := hat.log_eq.symm.trans hat'.log_eq
    rcases List.append_eq_append_iff.mp hlogs with ⟨gap,hgap,-⟩ | ⟨gap,hgap,-⟩
    · obtain ⟨l₁,l₂,hl,hrep,hread⟩ := hat.ahead hg hat' (Ne.symm hnk) hgap
      exact ⟨l₁,l₂,hl,.inl ⟨hrep,hread⟩⟩
    · obtain ⟨l₁,l₂,hl,hrep,hread⟩ := hat'.ahead hg hat hnk hgap
      exact ⟨l₁,l₂,hl,.inr ⟨hrep,hread⟩⟩

open Reference in
/-- Two changes of password, the second with the password the first one set. -/
def inTurn : Fin 2 → Call
  | 0 => ⟨changeRequest accountId "secret1" "secret2",saltOf "secret2",1,1⟩
  | 1 => ⟨changeRequest accountId "secret2" "secret3",saltOf "secret3",2,2⟩

theorem changePassword_in_turn :
    (serving reference inTurn Reference.store ([0,0,0,1,1,1].map (fun n => (n,none)))).succeeded 0 = true ∧
    ∃ read old,
      rowRead reference (serving reference inTurn Reference.store ([0,0,0,1,1,1].map (fun n => (n,none)))).log 1 = some read ∧
      changePassword.validPassword reference (.str (py "secret2")) read.password = .ok true ∧
      rowsReplaced reference
        (serving reference inTurn Reference.store ([0,0,0,1,1,1].map (fun n => (n,none)))).log 1 = [old] ∧
      old.password = read.password :=
  ⟨by decide +kernel,
    (changePassword_spared reference inTurn Reference.store ([0,0,0,1,1,1].map (fun n => (n,none)))
      (by decide +kernel)).1 1 _ _ _ ((changes_iff _ _ _).mpr ⟨by decide +kernel,by rfl,_,rfl,rfl,rfl⟩) (by decide +kernel)⟩

open Reference in
/-- Three changes of password and a deletion that all check before the first of them writes. -/
def stampede : State (Fin 4) :=
  serving reference
    (fun
      | 0 => ⟨changeRequest accountId "secret1" "secret2",saltOf "secret2",1,1⟩
      | 1 => ⟨changeRequest accountId "secret1" "secret3",saltOf "secret3",2,2⟩
      | 2 => ⟨deleteRequest accountId,[],3,3⟩
      | 3 => ⟨changeRequest accountId "secret1" "secret2",saltOf "secret2",4,4⟩)
    store ([0,1,2,3,0,1,2,3,0,1,2,3].map (fun n => (n,none)))

/-- The second change overwrites the first one's password and not the one it
verified, and the last one answers success for a row that is gone. -/
theorem changePassword_stampede :
    stampede.succeeded 0 = true ∧ stampede.succeeded 1 = true ∧ stampede.succeeded 3 = true ∧
    (rowRead reference stampede.log 1).map Row.password = some Reference.account.password ∧
    (rowsReplaced reference stampede.log 1).map Row.password ≠ [Reference.account.password] ∧
    (rowRead reference stampede.log 3).isSome = true ∧ rowsReplaced reference stampede.log 3 = [] := by
  decide +kernel

end Thintuit.Server
