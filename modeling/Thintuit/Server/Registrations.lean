import Thintuit.Server.Concurrency
import Thintuit.Server.Reference

/-! Concurrent registrations. The check for an existing email and the INSERT are
separate statements, so the check may be stale; the unique column decides. -/
namespace Thintuit.Server
open Interaction
variable {ι : Type} (rt : Runtime)

/-- The exchange with which a request inserts a row for `email`. -/
def insertion (email : PyStr) : Exchange DbOp DbOp.Reply → Bool
  | ⟨.insertUser _ e _,.ok _⟩ => e = email
  | _ => false

/-- The generated ids are fresh: none is in the table yet and no two are alike. -/
structure FreshIds (calls : ι → Call) (s : Store) : Prop where
  unused : ∀ n, ((calls n).request.registers rt).isSome = true → s.users.findById (calls n).newId = none
  distinct : ∀ n k, ((calls n).request.registers rt).isSome = true → ((calls k).request.registers rt).isSome = true →
    (calls n).newId = (calls k).newId → n = k

/-- A registration of `email` that passes every check of its own. -/
def Call.canRegister (call : Call) (email : PyStr) : Prop :=
  ∃ user h, call.request.registers rt = some user ∧ user.email = email ∧
    Registering rt call.request call.salt user h ∧ Fits user.name email h

variable {rt}

section Requests
variable {request : Request} {salt : Bytes}

/-- A registration of `email` answers success exactly on its INSERT. -/
private theorem Issues.answered_register {op : DbOp} {next : op.Reply → Program DbOp DbOp.Reply Response}
    (h : Issues rt request salt op next) (email : PyStr) (r : op.Reply) :
    (next r).answered (fun resp => resp.success && (request.registers rt).any (fun user => user.email = email)) =
      insertion email ⟨op,r⟩ := by
  rw [Program.answered_and]
  cases op with
  | insertUser name e password =>
    obtain ⟨user,hu,-,rfl,-,hnext⟩ := h
    rw [hu,hnext r]
    cases r with
    | error err => simp [Program.answered,insertReply,insertion]
    | ok i => simp [Program.answered,insertReply,insertion]
  | deleteUser userId =>
    have hr : request.registers rt = none := by simp [Request.registers,((deletes_iff userId).mp h.1).1]
    simp [hr,insertion]
  | updatePassword password userId =>
    obtain ⟨cur,new,hc,-⟩ := h
    have hr : request.registers rt = none := by simp [Request.registers,((changes_iff _ _ _).mp hc).1]
    simp [hr,insertion]
  | _ =>
    simp only [insertion,Bool.and_eq_false_iff]
    cases hr : request.registers rt with
    | none => exact .inr rfl
    | some user => exact .inl (answered_of_silent h ((registers_iff user).mp hr).1 rfl r)

private theorem unanswered_register (request : Request) (salt : Bytes) (email : PyStr) :
    (serve rt request salt).answered
      (fun resp => resp.success && (request.registers rt).any (fun user => user.email = email)) = false := by
  rw [Program.answered_and]
  cases hu : request.registers rt with
  | none => simp
  | some user => rw [serve_unanswered ((registers_iff user).mp hu).1 rfl,Bool.false_and]

/-- A valid registration fails without inserting, and its last statement, unless it
met a fault or a used id, met a row with the email. -/
private theorem register_failure {user : UserCreate} {h : PyStr} {es : List (Exchange DbOp DbOp.Reply)} {resp : Response}
    (hu : request.registers rt = some user) (hr : Registering rt request salt user h) (hf : Fits user.name user.email h)
    (hp : Program.Path (serve rt request salt) es (.ret resp)) (hs : resp.success = false) :
    (∀ x ∈ es, insertion user.email x = false) ∧
    ∃ xs x, es = xs ++ [x] ∧ ∀ c t, (exec rt c t x.op).1 = x.reply → c.fault = none →
      t.users.findById c.newId = none → ∃ row, t.users.findByEmail user.email = some row := by
  obtain ⟨he,hv⟩ := (registers_iff user).mp hu
  rw [serve_of_endpoint he,handle,hv] at hp
  dsimp only at hp
  rw [respond_registerUser rt request salt hr] at hp
  cases hp with | @call _ _ r _ _ hp =>
  rcases r with e | ⟨⟩
  · cases hp
    refine ⟨by simp [insertion],[],_,rfl,?_⟩
    intro c t hreply hfault
    simp [exec,hfault,perform] at hreply
  cases hp with | @call _ _ r _ _ hp =>
  rcases r with e | (_ | email)
  · cases hp
    refine ⟨by simp [insertion],[_],_,rfl,?_⟩
    intro c t hreply hfault
    have hok := (fetchEmailByEmail_ok_iff rt c t user.email _).mpr ⟨hfault,hf.email_storable,rfl⟩
    exact absurd (hok.symm.trans hreply) (by simp)
  · cases hp with | @call _ _ r _ _ hp =>
    rcases r with e | r
    · cases hp
      refine ⟨by simp [insertion],[_,_],_,rfl,?_⟩
      intro c t hreply hfault hid
      cases hemail : t.users.findByEmail user.email with
      | some row => exact ⟨row,rfl⟩
      | none =>
        -- nothing is left that could have made the INSERT raise
        have hok := insertUser_inserts rt hf hfault hid (by rwa [hf.take_email (registers_email_end hu)])
        exact absurd (hok.symm.trans hreply) (by simp)
    · cases hp
      cases hs
  · cases hp
    refine ⟨by simp [insertion],[_],_,rfl,?_⟩
    intro c t hreply hfault _
    obtain ⟨-,-,hrow⟩ := (fetchEmailByEmail_ok_iff rt c t user.email _).mp hreply
    obtain ⟨row,hrow,-⟩ := Option.map_eq_some_iff.mp hrow.symm
    exact ⟨row,hrow⟩

end Requests

/-- An INSERT of an address that does not end in a blank makes a row with that address. -/
private theorem insertion_iff (rt : Runtime) {e : Event ι Choice Store DbOp}
    (hend : ∀ name email password, e.op = .insertUser name email password → email.getLast? ≠ some 32) (email : PyStr) :
    insertion email (e.exchange (exec rt)) = true ↔ ∃ row, eventEffect rt e = .insert row ∧ row.email = email := by
  obtain ⟨n,c,op,t⟩ := e
  simp only [Event.exchange,eventEffect,Event.reply]
  cases hr : (exec rt c t op).1 with
  | error err => cases op <;> simp [insertion,effect]
  | ok r =>
    cases op with
    | insertUser name e password =>
      obtain ⟨-,t',hp⟩ := (exec_ok_iff rt _ _ _ _).mp hr
      have hfits := ((insertUser_ok_iff rt _ _ _ _ _ _ _).mp hp).1
      simp [insertion,effect,newRow,hfits.take_email (hend name e password rfl)]
    | deleteUser userId =>
      cases hu : rt.uuidParam userId <;> simp [insertion,effect,hu]
    | updatePassword password userId =>
      cases hu : rt.uuidParam userId <;> simp [insertion,effect,hu]
    | _ => simp [insertion,effect]

theorem countP_email_le_one (t : Users) (email : PyStr) : t.rows.countP (fun row => row.email = email) ≤ 1 := by
  have h := List.nodup_iff_count_le_one.mp t.emailKey email
  simpa only [List.count,List.countP_map,Function.comp_def,beq_eq_decide] using h

/-- A row present now was there at first or was inserted on the way. -/
theorem rows_origin {t t' : Store} {log : Log ι} (hchain : Chain (exec rt) t log t') {row : Row}
    (hrow : row ∈ t'.users.rows) :
    (∃ old, t.users.findById row.userId = some old) ∨
      ∃ e ∈ log, ∃ new, eventEffect rt e = .insert new ∧ new.userId = row.userId := by
  have hbal := rows_balance hchain (fun r => r.userId = row.userId) (by simp)
  have hpos : 0 < t'.users.rows.countP (fun r => r.userId = row.userId) :=
    List.countP_pos_iff.mpr ⟨row,hrow,by simp⟩
  by_cases hold : 0 < t.users.rows.countP (fun r => r.userId = row.userId)
  · obtain ⟨old,hmem,hid⟩ := List.countP_pos_iff.mp hold
    exact .inl ⟨old,(Users.findById_eq_some_iff _ _ _).mpr ⟨hmem,by simpa using hid⟩⟩
  · have hins : 0 < (insertedRows rt log).countP (fun r => r.userId = row.userId) := by omega
    obtain ⟨new,hmem,hid⟩ := List.countP_pos_iff.mp hins
    obtain ⟨e,he,hnew⟩ := List.mem_flatMap.mp hmem
    right
    refine ⟨e,he,new,?_,by simpa using hid⟩
    cases heff : eventEffect rt e with
    | insert r =>
      rw [heff] at hnew
      rw [List.mem_singleton.mp hnew]
    | _ => rw [heff] at hnew; cases hnew

section Runs
variable [DecidableEq ι] {calls : ι → Call} {s : Store} {sched : List (ι × Option PyError)}

/-- Every INSERT of a run is that of a registration, whose address has been validated. -/
private theorem serving_insert_end {e : Event ι Choice Store DbOp} (he : e ∈ (serving rt calls s sched).log)
    (name email password : PyStr) (hop : e.op = .insertUser name email password) : email.getLast? ≠ some 32 := by
  obtain ⟨n,c,op,t⟩ := e
  obtain rfl : op = .insertUser name email password := hop
  obtain ⟨next,user,hu,-,rfl,-⟩ := serving_issues he
  exact registers_email_end hu

private theorem countP_insertion (rt : Runtime) (calls : ι → Call) (s : Store) (sched : List (ι × Option PyError))
    (email : PyStr) :
    (serving rt calls s sched).log.countP (fun e => insertion email (e.exchange (exec rt))) =
      (insertedRows rt (serving rt calls s sched).log).countP (fun row => row.email = email) := by
  refine (countP_flatMap_eq ?_).symm
  intro e he
  have hiff := insertion_iff rt (serving_insert_end he) email
  cases heff : eventEffect rt e with
  | insert row => simp [Effect.inserted,heff,hiff]
  | _ => simp [Effect.inserted,heff,hiff]

/-- The successes of an email are its INSERT statements that went through. -/
private theorem card_registered [Fintype ι] (rt : Runtime) (calls : ι → Call) (s : Store)
    (sched : List (ι × Option PyError)) (email : PyStr) :
    (Finset.univ.filter (fun n => (serving rt calls s sched).succeeded n && (calls n).registersEmail rt email)).card =
      (insertedRows rt (serving rt calls s sched).log).countP (fun row => row.email = email) := by
  have hcard := Machine.card_answered (exec rt)
    (fun n resp => resp.success && (calls n).registersEmail rt email) (fun _ => insertion email) s
    (fun n => (calls n).program rt) (schedule calls sched)
    (fun n => unanswered_register (calls n).request (calls n).salt email)
    (fun n => (serve_issues rt (calls n).request (calls n).salt).mono (fun op next h r => h.answered_register email r))
  simp only [Program.answered_and] at hcard
  exact hcard.trans (countP_insertion rt calls s sched email)

/-- An inserted row carries the id drawn for the request that inserted it. -/
theorem inserted_by {e : Event ι Choice Store DbOp} (he : e ∈ (serving rt calls s sched).log) {row : Row}
    (heff : eventEffect rt e = .insert row) :
    ∃ user, (calls e.thread).request.registers rt = some user ∧ row.email = user.email ∧
      row.userId = (calls e.thread).newId := by
  obtain ⟨n,c,op,t⟩ := e
  obtain ⟨name,email,password,rfl,rfl,hfits,-⟩ := effect_insert rt heff
  obtain ⟨fault,rfl⟩ := serving_choice he
  obtain ⟨next,user,hu,-,rfl,-⟩ := serving_issues he
  exact ⟨user,hu,hfits.take_email (registers_email_end hu),rfl⟩

/-- The id drawn for a registration stays unused until its own INSERT. -/
theorem newId_unused (hfresh : FreshIds rt calls s) {n : ι} {user : UserCreate}
    (hu : (calls n).request.registers rt = some user) (hnone : ∀ x ∈ exchanges (exec rt) n (serving rt calls s sched).log,
      insertion user.email x = false) : (serving rt calls s sched).store.users.findById (calls n).newId = none := by
  have hreg : ((calls n).request.registers rt).isSome = true := by rw [hu]; rfl
  rw [Users.findById_eq_none_iff]
  intro row hrow hid
  rcases rows_origin (serving_chain rt calls s sched) hrow with ⟨old,hold⟩ | ⟨e,he,new,heff,hnew⟩
  · have := hfresh.unused n hreg
    rw [← hid,hold] at this
    cases this
  · obtain ⟨user',hu',hemail,hid'⟩ := inserted_by he heff
    obtain rfl : n = e.thread := by
      refine hfresh.distinct _ _ hreg (by rw [hu']; rfl) ?_
      rw [← hid,← hnew,hid']
    obtain rfl : user = user' := Option.some.inj (hu.symm.trans hu')
    have hins := (insertion_iff rt (serving_insert_end he) user.email).mpr ⟨new,heff,hemail⟩
    rw [hnone (e.exchange (exec rt)) (List.mem_map_of_mem (List.mem_filter.mpr ⟨he,by simp⟩))] at hins
    cases hins

/-- A successful registration returned the id of the row it inserted itself. -/
private theorem registered_own {n : ι} {user : UserCreate} (hu : (calls n).request.registers rt = some user)
    (hs : (serving rt calls s sched).succeeded n = true) :
    (serving rt calls s sched).threads n = .ret (registered rt (calls n).newId) ∧
    ∃ e ∈ (serving rt calls s sched).log, e.thread = n ∧ ∃ row, eventEffect rt e = .insert row ∧
      row.email = user.email ∧ row.userId = (calls n).newId := by
  obtain ⟨resp,hret,hsucc,hpath⟩ := serving_succeeded hs
  obtain ⟨h,r,-,hresp,hes⟩ := registerUser_success hu hpath hsucc
  obtain ⟨past,c,t,future,hlog,hok,-,-⟩ := exchanges_eq_append_cons (exec rt) [_,_] hes
  obtain ⟨-,t',hp⟩ := (exec_ok_iff rt _ _ _ _).mp hok
  obtain ⟨hfits,-,-,rfl,-,-⟩ := (insertUser_ok_iff rt _ _ _ _ _ _ _).mp hp
  have hmem : (⟨n,c,.insertUser user.name user.email h,t⟩ : Event ι Choice Store DbOp) ∈
      (serving rt calls s sched).log := by
    rw [hlog]
    exact List.mem_append_right _ List.mem_cons_self
  obtain ⟨fault,rfl⟩ := serving_choice hmem
  refine ⟨hret.trans (by rw [hresp]; rfl),_,hmem,rfl,newRow ((calls n).choice fault) user.name user.email h,?_,
    hfits.take_email (registers_email_end hu),rfl⟩
  simp only [eventEffect,Event.reply,hok,effect]

/-- Once answered, a request stays answered. -/
private theorem succeeded_append {sched₁ sched₂ : List (ι × Option PyError)} {n : ι}
    (hs : (serving rt calls s sched₁).succeeded n = true) :
    (serving rt calls s (sched₁ ++ sched₂)).succeeded n = true := by
  obtain ⟨resp,hret,hsucc⟩ := (State.succeeded_iff _ _).mp hs
  obtain ⟨tail,-,-,hpath⟩ := serving_append rt calls s sched₁ sched₂
  have hn := hpath n
  rw [hret,Program.path_ret_iff] at hn
  exact (State.succeeded_iff _ _).mpr ⟨resp,hn.2,hsucc⟩

/-- If a valid registration finishes without success, some row had its email on the way. -/
private theorem refused_met_email (hfresh : FreshIds rt calls s) {sched₁ sched₂ : List (ι × Option PyError)} {n : ι}
    {email : PyStr} (hcan : (calls n).canRegister rt email) (hfault : ∀ fault, (n,fault) ∈ sched₁ ++ sched₂ → fault = none)
    (hopen : (serving rt calls s sched₁).finished n = false) {resp : Response}
    (hret : (serving rt calls s (sched₁ ++ sched₂)).threads n = .ret resp) (hs : resp.success = false)
    {tail : Log ι} (htail : (serving rt calls s (sched₁ ++ sched₂)).log = (serving rt calls s sched₁).log ++ tail) :
    ∃ l₁ e l₂ row, tail = l₁ ++ e :: l₂ ∧ e.before.users.findByEmail email = some row := by
  obtain ⟨user,h,hu,rfl,hreg,hfits⟩ := hcan
  have hpath := serving_path rt calls s (sched₁ ++ sched₂) n
  rw [hret] at hpath
  obtain ⟨hnone,xs,x,hes,hlast⟩ := register_failure hu hreg hfits hpath hs
  -- its last statement lies in the tail, since it had not finished before
  have hne : exchanges (exec rt) n tail ≠ [] := by
    intro hnil
    have hpath₁ := serving_path rt calls s sched₁ n
    rw [htail,exchanges_append,hnil,List.append_nil] at hpath
    rw [(State.finished_iff _ _).mpr ⟨resp,hpath₁.unique hpath⟩] at hopen
    cases hopen
  rw [htail,exchanges_append] at hes
  obtain ⟨ys,y,hys⟩ := List.eq_nil_or_concat (exchanges (exec rt) n tail) |>.resolve_left hne
  rw [List.concat_eq_append] at hys
  rw [hys,← List.append_assoc] at hes
  obtain ⟨-,rfl⟩ := List.append_singleton_inj.mp hes
  obtain ⟨l₁,c,t,l₂,hlog,hreply,-,-⟩ := exchanges_eq_append_cons (exec rt) ys hys
  have hevent : (serving rt calls s (sched₁ ++ sched₂)).log =
      ((serving rt calls s sched₁).log ++ l₁) ++ ⟨n,c,y.op,t⟩ :: l₂ := by rw [htail,hlog,List.append_assoc]
  obtain ⟨sched₀,fault,rest,next,hsched,rfl,hpast,ht,-⟩ := serving_event hevent
  have hunused : t.users.findById (calls n).newId = none := by
    rw [← ht]
    apply newId_unused hfresh hu
    intro z hz
    apply hnone
    rw [hevent,exchanges_append,← hpast]
    exact List.mem_append_left _ hz
  obtain ⟨row,hrow⟩ := hlast _ t hreply (hfault fault (by rw [hsched]; simp)) hunused
  exact ⟨l₁,_,l₂,row,hlog,hrow⟩

/-- The requests that register `email` with success between two points of a run are
as many as the rows inserted for it there. -/
private theorem card_newly_registered [Fintype ι] {sched₁ sched₂ : List (ι × Option PyError)} {tail : Log ι}
    (htail : (serving rt calls s (sched₁ ++ sched₂)).log = (serving rt calls s sched₁).log ++ tail) (email : PyStr) :
    (Finset.univ.filter (fun n => (calls n).registersEmail rt email = true ∧
        (serving rt calls s (sched₁ ++ sched₂)).succeeded n = true ∧
        (serving rt calls s sched₁).succeeded n = false)).card =
      (insertedRows rt tail).countP (fun row => row.email = email) := by
  have h₁ := card_registered rt calls s sched₁ email
  have h₂ := card_registered rt calls s (sched₁ ++ sched₂) email
  rw [htail,insertedRows,List.flatMap_append,List.countP_append] at h₂
  have hsub : (Finset.univ.filter (fun n =>
        (serving rt calls s sched₁).succeeded n && (calls n).registersEmail rt email)) ⊆
      Finset.univ.filter (fun n =>
        (serving rt calls s (sched₁ ++ sched₂)).succeeded n && (calls n).registersEmail rt email) := by
    intro n hn
    simp only [Finset.mem_filter,Finset.mem_univ,true_and,Bool.and_eq_true] at hn ⊢
    exact ⟨succeeded_append hn.1,hn.2⟩
  have hdiff := Finset.card_sdiff_add_card_eq_card hsub
  rw [h₁,h₂] at hdiff
  have heq : (Finset.univ.filter (fun n => (calls n).registersEmail rt email = true ∧
        (serving rt calls s (sched₁ ++ sched₂)).succeeded n = true ∧
        (serving rt calls s sched₁).succeeded n = false)) =
      (Finset.univ.filter (fun n =>
        (serving rt calls s (sched₁ ++ sched₂)).succeeded n && (calls n).registersEmail rt email)) \
      (Finset.univ.filter (fun n =>
        (serving rt calls s sched₁).succeeded n && (calls n).registersEmail rt email)) := by
    ext n
    simp only [Finset.mem_filter,Finset.mem_sdiff,Finset.mem_univ,true_and,Bool.and_eq_true,not_and]
    constructor
    · rintro ⟨hreg,hs₂,hs₁⟩
      exact ⟨⟨hs₂,hreg⟩,fun h => by simp [hs₁] at h⟩
    · rintro ⟨⟨hs₂,hreg⟩,hno⟩
      exact ⟨hreg,hs₂,Bool.eq_false_iff.mpr (fun h => hno h hreg)⟩
  rw [heq]
  unfold insertedRows at hdiff ⊢
  omega

/-- A free email that some valid registration competes for, and nobody deletes, goes to exactly one request. -/
private theorem one_registration [Fintype ι] (hfresh : FreshIds rt calls s) {sched₁ sched₂ : List (ι × Option PyError)}
    {email : PyStr} (hfree : (serving rt calls s sched₁).store.users.findByEmail email = none) {tail : Log ι}
    (htail : (serving rt calls s (sched₁ ++ sched₂)).log = (serving rt calls s sched₁).log ++ tail)
    (hchain : Chain (exec rt) (serving rt calls s sched₁).store tail (serving rt calls s (sched₁ ++ sched₂)).store)
    (hgone : (removedRows rt tail).countP (fun row => row.email = email) = 0) {n : ι} (hcan : (calls n).canRegister rt email)
    (hfault : ∀ fault, (n,fault) ∈ sched₁ ++ sched₂ → fault = none)
    (hopen : (serving rt calls s sched₁).finished n = false) {resp : Response}
    (hret : (serving rt calls s (sched₁ ++ sched₂)).threads n = .ret resp) :
    (insertedRows rt tail).countP (fun row => row.email = email) = 1 := by
  have hzero : (serving rt calls s sched₁).store.users.rows.countP (fun row => row.email = email) = 0 := by
    rw [List.countP_eq_zero]
    intro row hrow
    simpa using (Users.findByEmail_eq_none_iff _ _).mp hfree row hrow
  have hbal := rows_balance hchain (fun row => row.email = email) (by simp)
  have hle := countP_email_le_one (serving rt calls s (sched₁ ++ sched₂)).store.users email
  have hpos : 0 < (insertedRows rt tail).countP (fun row => row.email = email) := by
    cases hs : resp.success with
    | true =>
      rw [← card_newly_registered htail email,Finset.card_pos]
      obtain ⟨user,h,hu,rfl,-⟩ := hcan
      refine ⟨n,Finset.mem_filter.mpr ⟨Finset.mem_univ n,by simp [Call.registersEmail,hu],?_,?_⟩⟩
      · exact (State.succeeded_iff _ _).mpr ⟨resp,hret,hs⟩
      · rw [Bool.eq_false_iff]
        intro h
        obtain ⟨resp',hret',-⟩ := (State.succeeded_iff _ _).mp h
        rw [(State.finished_iff _ _).mpr ⟨resp',hret'⟩] at hopen
        cases hopen
    | false =>
      obtain ⟨l₁,e,l₂,row,rfl,hrow⟩ := refused_met_email hfresh hcan hfault hopen hret hs htail
      have hbal₁ := rows_balance hchain.split.1 (fun row => row.email = email) (by simp)
      have hone : 0 < e.before.users.rows.countP (fun row => row.email = email) := by
        obtain ⟨hmem,hemail⟩ := (Users.findByEmail_eq_some_iff _ _ _).mp hrow
        exact List.countP_pos_iff.mpr ⟨row,hmem,by simpa using hemail⟩
      have happ : (insertedRows rt (l₁ ++ e :: l₂)).countP (fun row => row.email = email) =
          (insertedRows rt l₁).countP (fun row => row.email = email) +
            (insertedRows rt (e :: l₂)).countP (fun row => row.email = email) := by
        unfold insertedRows
        rw [List.flatMap_append,List.countP_append]
      omega
  omega

end Runs

variable [DecidableEq ι]

/-- Registration is consistent in every interleaving: the keys hold, successes and
rows balance, every success returned its own row's id and no other one's, and a free
email that valid requests compete for goes to exactly one of them. -/
theorem registrations_consistent [Fintype ι] (calls : ι → Call) (s : Store) (sched : List (ι × Option PyError))
    (hstr : Function.Injective rt.uuidStr) (hfresh : FreshIds rt calls s) :
    ((serving rt calls s sched).store.users.rows.map Row.email).Nodup ∧
    ((serving rt calls s sched).store.users.rows.map Row.userId).Nodup ∧
    (∀ email,
      s.users.rows.countP (fun row => row.email = email) + (Finset.univ.filter (fun n =>
          (serving rt calls s sched).succeeded n && (calls n).registersEmail rt email)).card =
        (serving rt calls s sched).store.users.rows.countP (fun row => row.email = email) +
          (removedRows rt (serving rt calls s sched).log).countP (fun row => row.email = email) ∧
      (serving rt calls s sched).store.users.rows.countP (fun row => row.email = email) ≤ 1) ∧
    (∀ n user, (calls n).request.registers rt = some user → (serving rt calls s sched).succeeded n = true →
      ∃ e ∈ (serving rt calls s sched).log, e.thread = n ∧ ∃ row, eventEffect rt e = .insert row ∧
        row.email = user.email ∧ (serving rt calls s sched).threads n = .ret (registered rt row.userId) ∧
        ∀ k, k ≠ n → ((calls k).request.registers rt).isSome = true → (serving rt calls s sched).succeeded k = true →
          (serving rt calls s sched).threads k ≠ .ret (registered rt row.userId)) ∧
    ∀ sched₁ sched₂ email n₀, sched = sched₁ ++ sched₂ →
      (serving rt calls s sched₁).store.users.findByEmail email = none →
      (removedRows rt (serving rt calls s sched).log).countP (fun row => row.email = email) =
        (removedRows rt (serving rt calls s sched₁).log).countP (fun row => row.email = email) →
      (calls n₀).canRegister rt email → (∀ fault, (n₀,fault) ∈ sched → fault = none) →
      (serving rt calls s sched₁).finished n₀ = false → (serving rt calls s sched).finished n₀ = true →
      ∃! n, (calls n).registersEmail rt email = true ∧ (serving rt calls s sched).succeeded n = true ∧
        (serving rt calls s sched₁).succeeded n = false := by
  refine ⟨Users.emailKey _,Users.userIdKey _,?_,?_,?_⟩
  · intro email
    have hbal := rows_balance (serving_chain rt calls s sched) (fun row => row.email = email) (by simp)
    have hcard := card_registered rt calls s sched email
    exact ⟨by omega,countP_email_le_one _ email⟩
  · intro n user hu hs
    obtain ⟨hret,e,he,hthread,row,heff,hemail,hid⟩ := registered_own hu hs
    refine ⟨e,he,hthread,row,heff,hemail,hid ▸ hret,?_⟩
    intro k hk hreg hsk hretk
    obtain ⟨user',hu'⟩ := Option.isSome_iff_exists.mp hreg
    have hsame := (registered_own hu' hsk).1.symm.trans hretk
    have hids : (calls k).newId = (calls n).newId := by
      rw [← hid]
      apply hstr
      simpa [registered,ok] using hsame
    exact hk (hfresh.distinct k n hreg (by rw [hu]; rfl) hids)
  · rintro sched₁ sched₂ email n₀ rfl hfree hgone hcan hfault hopen hdone
    obtain ⟨tail,htail,hchain,-⟩ := serving_append rt calls s sched₁ sched₂
    obtain ⟨resp,hret⟩ := (State.finished_iff _ _).mp hdone
    have hgone' : (removedRows rt tail).countP (fun row => row.email = email) = 0 := by
      rw [htail,removedRows,List.flatMap_append,List.countP_append] at hgone
      unfold removedRows at hgone ⊢
      omega
    have hone := one_registration hfresh hfree htail hchain hgone' hcan hfault hopen hret
    rw [← card_newly_registered htail email,Finset.card_eq_one] at hone
    obtain ⟨n,hn⟩ := hone
    have hiff : ∀ k, k = n ↔ (calls k).registersEmail rt email = true ∧
        (serving rt calls s (sched₁ ++ sched₂)).succeeded k = true ∧
        (serving rt calls s sched₁).succeeded k = false := by
      intro k
      rw [← Finset.mem_singleton,← hn]
      simp
    exact ⟨n,(hiff n).mp rfl,fun k hk => (hiff k).mpr hk⟩

open Reference in
/-- Two registrations of one email, both of which find it free. -/
def twoRegistrations : Fin 2 → Call
  | 0 => ⟨registerRequest "first" "new@example.com" "secret1",saltOf "secret1",1,1⟩
  | 1 => ⟨registerRequest "second" "new@example.com" "secret2",saltOf "secret2",2,2⟩

theorem registrations_compete :
    ∃! n, (twoRegistrations n).registersEmail reference (py "new@example.com") = true ∧
      (serving reference twoRegistrations Reference.store ([0,1,0,1,0,1].map (fun n => (n,none)))).succeeded n = true ∧
      (serving reference twoRegistrations Reference.store []).succeeded n = false :=
  (registrations_consistent twoRegistrations Reference.store ([0,1,0,1,0,1].map (fun n => (n,none)))
    Reference.roundTrip.injective ⟨by decide +kernel,by decide +kernel⟩).2.2.2.2 []
    ([0,1,0,1,0,1].map (fun n => (n,none))) (py "new@example.com") 0 rfl (by decide +kernel) (by decide +kernel)
    ⟨⟨py "first",py "new@example.com",py "secret1"⟩,_,by decide +kernel,rfl,⟨⟨_,rfl⟩,by decide +kernel,rfl⟩,
      ⟨by decide +kernel,by decide +kernel,by decide +kernel,by decide +kernel,by decide +kernel⟩⟩
    (by simp) (by decide +kernel) (by decide +kernel)

end Thintuit.Server
