import Thintuit.Server.Concurrency
import Thintuit.Server.Reference

/-! Requests served one after another, each with its own draws and faults. -/
namespace Thintuit.Server
open Interaction

structure Turn where
  call : Call
  fault : Nat → Option PyError

namespace Turn
variable (rt : Runtime) (turn : Turn)

def choices (k : Nat) : Choice := turn.call.choice (turn.fault k)

def run (s : Store) : Response × Store := (turn.call.program rt).run (exec rt) turn.choices s

end Turn

variable (rt : Runtime)

def after (s : Store) (turns : List Turn) : Store := turns.foldl (fun s turn => (turn.run rt s).2) s

/-- The requests of a session with their answers, in order. -/
def history : Store → List Turn → List (Request × Response)
  | _, [] => []
  | s, turn :: turns => (turn.call.request,(turn.run rt s).1) :: history (turn.run rt s).2 turns

@[simp] theorem after_nil (s : Store) : after rt s [] = s := rfl

@[simp] theorem after_cons (s : Store) (turn : Turn) (turns : List Turn) :
    after rt s (turn :: turns) = after rt (turn.run rt s).2 turns := rfl

theorem after_append (s : Store) (xs ys : List Turn) : after rt s (xs ++ ys) = after rt (after rt s xs) ys :=
  List.foldl_append

theorem history_append (s : Store) (xs ys : List Turn) :
    history rt s (xs ++ ys) = history rt s xs ++ history rt (after rt s xs) ys := by
  induction xs generalizing s with
  | nil => rfl
  | cons turn xs ih => simp [history,ih]

variable {rt}

/-- What every turn preserves together with the history so far holds after the whole session. -/
theorem session_induction (I : List (Request × Response) → Store → Prop)
    (hstep : ∀ h s (turn : Turn), I h s → I (h ++ [(turn.call.request,(turn.run rt s).1)]) (turn.run rt s).2)
    (s : Store) (hs : I [] s) (turns : List Turn) : I (history rt s turns) (after rt s turns) := by
  induction turns using List.reverseRecOn with
  | nil => exact hs
  | append_singleton turns turn ih =>
    rw [history_append,after_append]
    exact hstep _ _ turn ih

section Alone
variable {ι : Type} [DecidableEq ι] {calls : ι → Call}

/-- A request that has not started yet and is then scheduled alone is served as in its own turn. -/
theorem serving_alone {s : Store} {sched : List (ι × Option PyError)} {n : ι}
    (hn : (serving rt calls s sched).threads n = (calls n).program rt) (fault : Nat → Option PyError) :
    ∃ sched', (serving rt calls s sched').store = ((⟨calls n,fault⟩ : Turn).run rt (serving rt calls s sched).store).2 ∧
      (serving rt calls s sched').threads = Function.update (serving rt calls s sched).threads n
        (.ret ((⟨calls n,fault⟩ : Turn).run rt (serving rt calls s sched).store).1) := by
  obtain ⟨k,hstore,hthreads⟩ := Machine.run_alone (exec rt) (serving rt calls s sched) n (Turn.choices ⟨calls n,fault⟩)
  have happend : serving rt calls s (sched ++ (List.range k).map (fun i => (n,fault i))) =
      (serving rt calls s sched).run (exec rt) ((List.range k).map (fun i => (n,Turn.choices ⟨calls n,fault⟩ i))) := by
    rw [serving,schedule,List.map_append,Machine.run_append,List.map_map]
    rfl
  rw [← happend,hn] at hstore hthreads
  exact ⟨_,hstore,hthreads⟩

/-- A session is one of the interleavings: the one that lets each request finish before the
next one starts. What holds in every interleaving holds in it. -/
theorem session_serving (calls : ι → Call) (fault : ι → Nat → Option PyError) (s : Store) (ns : List ι) (hns : ns.Nodup) :
    ∃ (sched : List (ι × Option PyError)) (resp : ι → Response),
      (serving rt calls s sched).store = after rt s (ns.map (fun n => ⟨calls n,fault n⟩)) ∧
      (∀ n ∈ ns, (serving rt calls s sched).threads n = .ret (resp n)) ∧
      (∀ n ∉ ns, (serving rt calls s sched).threads n = (calls n).program rt) ∧
      history rt s (ns.map (fun n => ⟨calls n,fault n⟩)) = ns.map (fun n => ((calls n).request,resp n)) := by
  induction ns using List.reverseRecOn with
  | nil => exact ⟨[],fun _ => accountDeleted,rfl,by simp,fun _ _ => rfl,rfl⟩
  | append_singleton ns n ih =>
    obtain ⟨hns,-,hne⟩ := List.nodup_append.mp hns
    have hn : n ∉ ns := fun h => hne n h n List.mem_cons_self rfl
    obtain ⟨sched,resp,hstore,hdone,hopen,hhistory⟩ := ih hns
    obtain ⟨sched',hstore',hthreads⟩ := serving_alone (hopen n hn) (fault n)
    refine ⟨sched',Function.update resp n ((⟨calls n,fault n⟩ : Turn).run rt (serving rt calls s sched).store).1,?_,?_,?_,?_⟩
    · rw [hstore',hstore,List.map_append,after_append]
      rfl
    · intro x hx
      rw [hthreads]
      by_cases hxn : x = n
      · rw [hxn,Function.update_self,Function.update_self]
      · rw [Function.update_of_ne hxn,Function.update_of_ne hxn]
        exact hdone x ((List.mem_append.mp hx).resolve_right (by simpa using hxn))
    · intro x hx
      rw [List.mem_append,not_or,List.mem_singleton] at hx
      rw [hthreads,Function.update_of_ne hx.2]
      exact hopen x hx.1
    · rw [List.map_append,history_append,hhistory,← hstore,List.map_append]
      congr 1
      · apply List.map_congr_left
        intro x hx
        have hxn : x ≠ n := fun h => hn (h ▸ hx)
        rw [Function.update_of_ne hxn]
      · rw [List.map_singleton,List.map_singleton,Function.update_self]
        rfl

end Alone

section Accepted
variable {request : Request} {salt : Bytes} {c : Nat → Choice} {s : Store}

/-- A fault-free login with a valid password succeeds. -/
theorem run_loginUser_of_valid (hc : ∀ k, (c k).fault = none) {user : UserLogin} (hu : request.logsIn rt = some user)
    {row : Row} (hrow : s.users.findByEmail user.email = some row) (he : user.email.all Runtime.storable = true)
    (hvalid : loginUser.validPassword rt user.password row.password = .ok true) :
    (serve rt request salt).run (exec rt) c s = (loggedIn rt row,s) := by
  obtain ⟨hend,hv⟩ := (logsIn_iff user).mp hu
  have hfetch : (exec rt (c 1) s (.fetchByEmail user.email)).1 = .ok (some row) :=
    (fetchByEmail_ok_iff rt _ _ _ _).mpr ⟨hc 1,he,hrow.symm⟩
  rw [serve_of_endpoint hend,handle,hv]
  dsimp only
  rw [respond_loginUser,Program.run_call,acquire_healthy rt (hc 0)]
  dsimp only
  rw [Program.run_call]
  simp only [Nat.zero_add,exec_fetchByEmail_store]
  rw [hfetch]
  dsimp only
  rw [hvalid]
  rfl

/-- A fault-free request for the data of an account in the table returns them. -/
theorem run_getUserInfo_of_found (hc : ∀ k, (c k).fault = none) (hend : request.endpoint = some .getUserInfo)
    {userId : PyStr} {i : Uuid} {row : Row} (hu : request.userId = some userId) (hi : rt.uuidParam userId = some i)
    (hrow : s.users.findById i = some row) :
    (serve rt request salt).run (exec rt) c s = (userInfo rt row,s) := by
  have hfetch : (exec rt (c 1) s (.fetchById userId)).1 = .ok (some row) :=
    (fetchById_ok_iff rt _ _ _ _).mpr ⟨hc 1,i,hi,hrow.symm⟩
  rw [serve_of_endpoint hend,handle,respond_getUserInfo rt request hu,Program.run_call,acquire_healthy rt (hc 0)]
  dsimp only
  rw [Program.run_call]
  simp only [Nat.zero_add,exec_fetchById_store]
  rw [hfetch]
  rfl

/-- A fault-free change of password with a valid current password succeeds. -/
theorem run_changePassword_of_valid (hc : ∀ k, (c k).fault = none) {userId h : PyStr} {currentPassword newPassword : Json}
    (hch : request.changes = some (userId,currentPassword,newPassword)) (hcur : currentPassword.truthy = true)
    (hlen : ∃ n, newPassword.len = .ok n ∧ 6 ≤ n) (hhash : hashText rt newPassword.encode salt = .ok h)
    (hstore : h.all Runtime.storable = true) {i : Uuid} {row : Row} (hi : rt.uuidParam userId = some i)
    (hrow : s.users.findById i = some row)
    (hvalid : changePassword.validPassword rt currentPassword row.password = .ok true) :
    ((serve rt request salt).run (exec rt) c s).1 = passwordChanged := by
  obtain ⟨hend,hu,body,hbody,hbc,hbn⟩ := (changes_iff _ _ _).mp hch
  have hnew : newPassword.truthy = true := by
    obtain ⟨n,hn,h6⟩ := hlen
    cases newPassword with
    | str t | arr t | obj t =>
      obtain rfl : t.length = n := Except.ok.inj hn
      cases t with
      | nil => simp at h6
      | cons a t => rfl
    | _ => cases hn
  have hfetch : (exec rt (c 1) s (.fetchById userId)).1 = .ok (some row) :=
    (fetchById_ok_iff rt _ _ _ _).mpr ⟨hc 1,i,hi,hrow.symm⟩
  have hupdate := exec_of_perform rt (hc 2) ((updatePassword_ok_iff rt (c 2) s _ h userId _).mpr ⟨hstore,i,hi,rfl,rfl⟩)
  rw [serve_of_endpoint hend,handle,hbody]
  dsimp only
  rw [respond_changePassword rt request salt ⟨hu,hbc,hbn,hcur,hnew,hlen⟩,Program.run_call,acquire_healthy rt (hc 0)]
  dsimp only
  rw [Program.run_call]
  simp only [Nat.zero_add,exec_fetchById_store]
  rw [hfetch]
  dsimp only
  rw [hvalid,hhash]
  dsimp only
  rw [Program.run_call]
  simp only [Nat.zero_add,Nat.reduceAdd]
  rw [hupdate]
  rfl

end Accepted
end Thintuit.Server
