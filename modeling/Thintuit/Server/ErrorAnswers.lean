import Thintuit.Server.NonInterference

/-! Which status a request is answered with on a healthy connection. Between two
statements of a request other requests may write, so each of its statements
meets a store of its own. -/
namespace Thintuit.Server
open Interaction
open Program hiding bind
variable {rt : Runtime} {request : Request} {salt : Bytes}

/-- A finished request among others has the answer it gives amid the stores it met. -/
theorem serving_amid {ι : Type} [DecidableEq ι] {calls : ι → Call} {s : Store} {sched : List (ι × Option PyError)}
    {n : ι} {resp : Response} (hret : (serving rt calls s sched).threads n = .ret resp) :
    ∃ met : Nat → Choice × Store, ((calls n).program rt).amid (exec rt) met = resp ∧
      ∀ k, (∃ fault, (met k).1 = (calls n).choice fault ∧ (fault = none ∨ (n,fault) ∈ sched)) ∧
        ∃ sched₁, sched₁ <+: sched ∧ (met k).2 = (serving rt calls s sched₁).store := by
  have hpath := serving_path rt calls s sched n
  rw [hret] at hpath
  refine ⟨_,Path.amid ((calls n).choice none,s) hpath,fun k => ?_⟩
  cases hk : ((serving rt calls s sched).log.filter (fun e => e.thread = n))[k]? with
  | none => exact ⟨⟨none,rfl,.inl rfl⟩,[],List.nil_prefix,rfl⟩
  | some e =>
    obtain ⟨hmem,hthread⟩ := List.mem_filter.mp (List.mem_of_getElem? hk)
    obtain ⟨l₁,l₂,hlog⟩ := List.append_of_mem hmem
    obtain ⟨m,c,op,t⟩ := e
    obtain rfl : m = n := by simpa using hthread
    obtain ⟨sched₁,fault,sched₂,_,rfl,rfl,-,rfl,-⟩ := serving_event hlog
    exact ⟨⟨fault,rfl,.inr (by simp)⟩,sched₁,List.prefix_append _ _,rfl⟩

/-- A request on its own answers as it does amid the stores of its run. -/
theorem run_amid (c : Nat → Choice) (s : Store) :
    ∃ met : Nat → Choice × Store, (serve rt request salt).amid (exec rt) met = ((serve rt request salt).run (exec rt) c s).1 ∧
      ∀ k, ∃ j, (met k).1 = c j := by
  refine ⟨_,Path.amid (c 0,s) (trace_path (exec rt) (serve rt request salt) c s),fun k => ?_⟩
  cases hk : ((serve rt request salt).trace (exec rt) c s)[k]? with
  | none => exact ⟨0,rfl⟩
  | some e => exact trace_choice (exec rt) _ c s e (List.mem_of_getElem? hk)

section Healthy
variable {met : Nat → Choice × Store}

/-! Registration. -/

/-- What a registration is to be answered: its password is too short, its email is held
when it is looked up or when the row is written, or it succeeds. -/
def registrationAnswer (rt : Runtime) (user : UserCreate) (atSelect atInsert : Users) (newId : Uuid) : Response :=
  if user.password.length < 6 then errorDetail 400 "密码至少需要6个字符"
  else if (atSelect.findByEmail user.email).isSome ∨ (atInsert.findByEmail user.email).isSome then
    errorDetail 400 "该邮箱已被注册"
  else registered rt newId

/-- The answer to a registration that reaches the database. -/
private theorem amid_registering (hmet : ∀ k, (met k).1.fault = none) {user : UserCreate} {h : PyStr}
    (hr : Registering rt request salt user h) :
    (respond (registerUser direct rt request user salt)).amid (exec rt) met =
      match (exec rt (met 1).1 (met 1).2 (.fetchEmailByEmail user.email)).1 with
      | .error e => databaseError e
      | .ok (some _) => errorDetail 500 "数据库操作失败: 400: 该邮箱已被注册"
      | .ok none =>
        match (exec rt (met 2).1 (met 2).2 (.insertUser user.name user.email h)).1 with
        | .error e => databaseError e
        | .ok r => registered rt r.1 := by
  rw [respond_registerUser rt request salt hr,amid_call,acquire_healthy rt (hmet 0),amid_call]
  rcases (exec rt (met 1).1 (met 1).2 (.fetchEmailByEmail user.email)).1 with e | (_ | email)
  · rfl
  · rw [amid_call]
    rcases (exec rt (met 2).1 (met 2).2 (.insertUser user.name user.email h)).1 with e | r <;> rfl
  · rfl

private theorem registrationAnswer_status (user : UserCreate) (atSelect atInsert : Users) (newId : Uuid) :
    (registrationAnswer rt user atSelect atInsert newId).status ≠ 500 := by
  unfold registrationAnswer
  split
  · decide
  · split
    · decide
    · exact (by decide : (200 : Nat) ≠ 500)

private theorem ne_registrationAnswer {resp : Response} (h : resp.status = 500) (user : UserCreate)
    (atSelect atInsert : Users) (newId : Uuid) : resp ≠ registrationAnswer rt user atSelect atInsert newId := by
  rintro rfl
  exact registrationAnswer_status user atSelect atInsert newId h

private theorem databaseError_dataError {e : PyError} (h : e.kind = .dataError) : (databaseError e).status = 500 := by
  unfold databaseError
  rw [if_neg (by rw [h]; decide)]
  rfl

/-- What keeps a registration clear of a 500: bodies that decode, and beyond short passwords
values that can be hashed and stored, an email that is free when it is looked up, and
an id that is free unless the email is taken by then. -/
def Registrable (rt : Runtime) (request : Request) (salt : Bytes) (user : UserCreate) (atSelect atInsert : Users)
    (newId : Uuid) : Prop :=
  (∃ text, request.rawBody = .ok text) ∧ (user.password.length < 6 ∨
    (∃ h, hashText rt (encode user.password) salt = .ok h) ∧ user.name.all Runtime.storable ∧
      user.email.all Runtime.storable ∧ user.email.length ≤ 255 ∧ atSelect.findByEmail user.email = none ∧
      (atInsert.findByEmail user.email ≠ none ∨ atInsert.findById newId = none))

/-- Registration once its password is hashed: the look-up, then the INSERT. -/
private theorem registering_answer_iff (hl : BcryptLaws rt) (hmet : ∀ k, (met k).1.fault = none) {user : UserCreate}
    {h : PyStr} (hend : user.email.getLast? ≠ some 32) (hr : Registering rt request salt user h)
    (hname : user.name.length ≤ 100) :
    (respond (registerUser direct rt request user salt)).amid (exec rt) met =
        registrationAnswer rt user (met 1).2.users (met 2).2.users (met 2).1.newId ↔
      Registrable rt request salt user (met 1).2.users (met 2).2.users (met 2).1.newId := by
  have hlong : ¬ user.password.length < 6 := Nat.not_lt.mpr hr.length
  obtain ⟨q,-,hq⟩ := hashText_eq_ok hr.hashed
  rw [amid_registering hmet hr]
  cases hselect : (exec rt (met 1).1 (met 1).2 (.fetchEmailByEmail user.email)).1 with
  | error e =>
    obtain ⟨hkind,hbad⟩ := fetchEmailByEmail_error rt (hmet 1) hselect
    refine iff_of_false (ne_registrationAnswer (databaseError_dataError hkind) _ _ _ _) ?_
    rintro ⟨-,hshort | ⟨-,-,hemail,-⟩⟩
    · exact hlong hshort
    · exact hbad hemail
  | ok found =>
    obtain ⟨-,hemail,rfl⟩ := (fetchEmailByEmail_ok_iff rt _ _ _ _).mp hselect
    cases hfound : (met 1).2.users.findByEmail user.email with
    | some row =>
      refine iff_of_false (ne_registrationAnswer rfl _ _ _ _) ?_
      rintro ⟨-,hshort | ⟨-,-,-,-,hfree,-⟩⟩
      · exact hlong hshort
      · rw [hfound] at hfree; cases hfree
    | none =>
      rw [Option.map_none]
      dsimp only
      cases hinsert : (exec rt (met 2).1 (met 2).2 (.insertUser user.name user.email h)).1 with
      | error e =>
        rcases insertUser_error rt (hmet 2) hinsert with ⟨hkind,hunfit⟩ | ⟨hkind,hfit,htaken⟩
        · refine iff_of_false (ne_registrationAnswer (databaseError_dataError hkind) _ _ _ _) ?_
          rintro ⟨-,hshort | ⟨-,hn,he,hel,-⟩⟩
          · exact hlong hshort
          · have hblank : (user.name.drop 100).all (fun c => c = 32) = true := by rw [List.drop_of_length_le hname]; rfl
            exact hunfit ⟨hn,he,hl.hashpw_storable _ _ _ hq,hblank,(drop_blank_iff hend 255).mpr hel⟩
        · rw [hfit.take_email hend] at htaken
          dsimp only
          rw [databaseError,if_pos hkind,registrationAnswer,if_neg hlong,hfound]
          by_cases hheld : (met 2).2.users.findByEmail user.email = none
          · -- the drawn id is taken, and the answer blames the email
            rw [if_neg (by simp [hheld])]
            refine iff_of_false (fun heq => absurd (congrArg Response.status heq) (by decide : (400 : Nat) ≠ 200)) ?_
            rintro ⟨-,hshort | ⟨-,-,-,-,-,hor⟩⟩
            · exact hlong hshort
            · exact htaken.elim (fun hid => hor.elim (fun hne => hne hheld) hid) (fun hne => hne hheld)
          · rw [if_pos (.inr (Option.isSome_iff_ne_none.mpr hheld))]
            exact iff_of_true rfl ⟨hr.decoded,.inr ⟨⟨h,hr.hashed⟩,hfit.name_storable,hfit.email_storable,
              hfit.email_length hend,hfound,.inl hheld⟩⟩
      | ok r =>
        obtain ⟨-,s',hp⟩ := (exec_ok_iff rt _ _ _ _).mp hinsert
        obtain ⟨hfit,hid,hheld,rfl,-⟩ := (insertUser_ok_iff rt _ _ _ _ _ _ _).mp hp
        rw [hfit.take_email hend] at hheld
        rw [registrationAnswer,if_neg hlong,if_neg (by simp [hfound,hheld])]
        exact iff_of_true rfl ⟨hr.decoded,.inr ⟨⟨h,hr.hashed⟩,hfit.name_storable,hfit.email_storable,
          hfit.email_length hend,hfound,.inr hid⟩⟩

theorem registration_answer_iff (hl : BcryptLaws rt) {user : UserCreate} (hu : request.registers rt = some user)
    (hmet : ∀ k, (met k).1.fault = none) (hname : user.name.length ≤ 100) :
    (serve rt request salt).amid (exec rt) met =
        registrationAnswer rt user (met 1).2.users (met 2).2.users (met 2).1.newId ↔
      Registrable rt request salt user (met 1).2.users (met 2).2.users (met 2).1.newId := by
  obtain ⟨hend,hv⟩ := (registers_iff user).mp hu
  rw [serve_of_endpoint hend,handle,hv]
  dsimp only
  cases htext : request.rawBody with
  | error e =>
    rw [respond_registerUser_undecoded rt htext]
    refine iff_of_false (ne_registrationAnswer rfl _ _ _ _) ?_
    rintro ⟨⟨text,h⟩,-⟩
    rw [htext] at h; cases h
  | ok text =>
    by_cases hshort : user.password.length < 6
    · rw [respond_registerUser_short rt htext hshort,registrationAnswer,if_pos hshort]
      exact iff_of_true rfl ⟨⟨text,htext⟩,.inl hshort⟩
    · cases hhash : hashText rt (encode user.password) salt with
      | error e =>
        rw [respond_registerUser_unhashed rt htext hshort hhash]
        refine iff_of_false (ne_registrationAnswer rfl _ _ _ _) ?_
        rintro ⟨-,h | ⟨⟨p,hp⟩,-⟩⟩
        · exact hshort h
        · rw [hhash] at hp; cases hp
      | ok h => exact registering_answer_iff hl hmet (registers_email_end hu) ⟨⟨text,htext⟩,Nat.not_lt.mp hshort,hhash⟩ hname

namespace Reference

/-- The email is free when the registration looks it up and taken when it inserts. -/
def overtaken (k : Nat) : Choice × Store := (⟨none,1,0⟩,if k < 2 then ⟨Users.empty,[]⟩ else store)

theorem registration_overtaken :
    (serve reference (registerRequest "other" "user@example.com" "secret2") (saltOf "secret2")).amid (exec reference)
        overtaken = errorDetail 400 "该邮箱已被注册" := by
  have huser : (registerRequest "other" "user@example.com" "secret2").registers reference =
      some ⟨py "other",py "user@example.com",py "secret2"⟩ := by decide +kernel
  refine (registration_answer_iff bcryptLaws huser (fun _ => rfl) (by decide)).mpr ⟨⟨_,rfl⟩,.inr ⟨⟨_,rfl⟩,?_⟩⟩
  decide +kernel

theorem duplicate_email_internal_error :
    (registerRequest "other" "user@example.com" "secret2").registers reference =
        some ⟨py "other",py "user@example.com",py "secret2"⟩ ∧
      store.users.findByEmail (py "user@example.com") = some account ∧
      ((serve reference (registerRequest "other" "user@example.com" "secret2") (saltOf "secret2")).run (exec reference)
        (fun _ => ⟨none,1,0⟩) store).1.status = 500 := by decide +kernel

end Reference

/-! Requests about one account. -/

/-- The endpoints that take a `user_id`. -/
def accountEndpoints : List Endpoint := [.getUserInfo,.changePassword,.deleteAccount,.listAllUsers]

/-- The row a `user_id` names; a text that is no UUID names none. -/
def named (rt : Runtime) (userId : PyStr) (t : Users) : Option Row := (rt.uuidParam userId).bind t.findById

/-- The required parameters besides `user_id` are valid. Only a change of password has any. -/
def OthersValid (request : Request) : Prop :=
  request.endpoint = some .changePassword → ∃ body current new, request.body = some (.obj body) ∧
    dictGet body (py "current_password") = .str current ∧ current ≠ [] ∧
    dictGet body (py "new_password") = .str new ∧ 6 ≤ new.length

/-- No status but the ones meant for clients, and 404 for an account that does not exist. -/
def ProperlyAnswered (rt : Runtime) (request : Request) (t : Users) (resp : Response) : Prop :=
  resp.status ∈ [200,400,401,403,404] ∧
    ∀ userId, request.userId = some userId → named rt userId t = none → OthersValid request → resp.status = 404

/-- A password is accepted against a stored text, by bcrypt or by the comparison after it. -/
def Accepts (rt : Runtime) (p stored : PyStr) : Prop :=
  bcryptCheck rt (encode p) stored = .ok true ∨ ThroughFallback rt (encode p) (p == stored) stored

/-- A change of password that gets past every operation that may raise. -/
def Changeable (rt : Runtime) (salt : Bytes) (t : Users) (userId : PyStr) (current new : Json) : Prop :=
  current.truthy = true → new.truthy = true → ∃ n, new.len = .ok n ∧ (6 ≤ n →
    ∃ i, rt.uuidParam userId = some i ∧ ∀ row, t.findById i = some row →
      ∃ p, current = .str p ∧ (Accepts rt p row.password → ∃ h, hashText rt new.encode salt = .ok h))

def Answerable (rt : Runtime) (request : Request) (salt : Bytes) (t : Users) : Prop :=
  ∀ userId, request.userId = some userId →
    if request.endpoint = some .changePassword then
      ∀ body, request.body = some (.obj body) →
        Changeable rt salt t userId (dictGet body (py "current_password")) (dictGet body (py "new_password"))
    else (rt.uuidParam userId).isSome

/-- How a look-up by `user_id` decides the status of an answer. -/
structure LookedUp (rt : Runtime) (userId : PyStr) (t : Users) (status : Nat) : Prop where
  unread : rt.uuidParam userId = none → status = 500
  missing : ∀ i, rt.uuidParam userId = some i → t.findById i = none → status = 404
  found : ∀ i row, rt.uuidParam userId = some i → t.findById i = some row → status ∈ [200,403]

private theorem lookedUp_iff {userId : PyStr} {t : Users} {resp : Response} (hu : request.userId = some userId)
    (hend : request.endpoint ≠ some .changePassword) (h : LookedUp rt userId t resp.status) :
    ProperlyAnswered rt request t resp ↔ Answerable rt request salt t := by
  have hanswerable : Answerable rt request salt t ↔ (rt.uuidParam userId).isSome := by
    simp [Answerable,hu,hend]
  rw [hanswerable]
  cases hi : rt.uuidParam userId with
  | none =>
    refine iff_of_false (fun hproper => ?_) (by simp)
    have hmem := hproper.1
    rw [h.unread hi] at hmem
    exact absurd hmem (by decide)
  | some i =>
    refine iff_of_true ?_ rfl
    cases hrow : t.findById i with
    | none =>
      have hstatus := h.missing i hi hrow
      exact ⟨by rw [hstatus]; decide,fun _ _ _ _ => hstatus⟩
    | some row =>
      refine ⟨?_,fun userId' hu' hnamed => ?_⟩
      · have hmem := h.found i row hi hrow
        simp only [List.mem_cons,List.not_mem_nil,or_false] at hmem ⊢
        omega
      · obtain rfl : userId = userId' := Option.some.inj (hu.symm.trans hu')
        simp [named,hi,hrow] at hnamed

/-- Without a `user_id` a request is refused before anything can go wrong. -/
private theorem anonymous_iff {t : Users} {p : Program DbOp DbOp.Reply Response} {resp : Response}
    (hu : request.userId = none) (hp : p = .ret resp) (hstatus : resp.status ∈ [200,400,401,403,404]) :
    ProperlyAnswered rt request t (p.amid (exec rt) met) ↔ Answerable rt request salt t := by
  subst hp
  refine iff_of_true ⟨hstatus,fun userId h => ?_⟩ (fun userId h => ?_)
  · rw [hu] at h; cases h
  · rw [hu] at h; cases h

section LookUps
variable (hmet : ∀ k, (met k).1.fault = none) {userId : PyStr} (hu : request.userId = some userId)
include hmet hu

private theorem getUserInfo_lookedUp :
    LookedUp rt userId (met 1).2.users ((respond (getUserInfo direct rt request)).amid (exec rt) met).status := by
  rw [respond_getUserInfo rt request hu,amid_call,acquire_healthy rt (hmet 0),amid_call,fetchById_healthy rt (hmet 1)]
  refine ⟨fun hi => ?_,fun i hi hrow => ?_,fun i row hi hrow => ?_⟩
  · rw [Runtime.uuid,hi]
    rfl
  · rw [(rt.uuid_eq_ok_iff userId i).mpr hi,Except.map,hrow]
    rfl
  · rw [(rt.uuid_eq_ok_iff userId i).mpr hi,Except.map,hrow]
    exact List.mem_cons_self

private theorem listAllUsers_lookedUp :
    LookedUp rt userId (met 1).2.users ((respond (listAllUsers direct rt request)).amid (exec rt) met).status := by
  rw [respond_listAllUsers rt request hu,amid_call,acquire_healthy rt (hmet 0),amid_call,fetchById_healthy rt (hmet 1)]
  refine ⟨fun hi => ?_,fun i hi hrow => ?_,fun i row hi hrow => ?_⟩
  · rw [Runtime.uuid,hi]
    rfl
  · rw [(rt.uuid_eq_ok_iff userId i).mpr hi,Except.map,hrow]
    rfl
  · rw [(rt.uuid_eq_ok_iff userId i).mpr hi,Except.map,hrow]
    dsimp only
    split
    · exact List.mem_cons_of_mem _ List.mem_cons_self
    · rw [amid_call,acquire_healthy rt (hmet 2),amid_call,fetchUsers_healthy rt (hmet 3)]
      exact List.mem_cons_self

private theorem deleteAccount_lookedUp :
    LookedUp rt userId (met 1).2.users ((respond (deleteAccount direct request)).amid (exec rt) met).status := by
  rw [respond_deleteAccount request hu,amid_call,acquire_healthy rt (hmet 0),amid_call,fetchEmailById_healthy rt (hmet 1)]
  refine ⟨fun hi => ?_,fun i hi hrow => ?_,fun i row hi hrow => ?_⟩
  · rw [Runtime.uuid,hi]
    rfl
  · rw [(rt.uuid_eq_ok_iff userId i).mpr hi,Except.map,hrow]
    rfl
  · obtain ⟨n,hdelete⟩ := deleteUser_healthy rt (hmet 2) (met 2).2 hi
    rw [(rt.uuid_eq_ok_iff userId i).mpr hi,Except.map,hrow,Option.map_some]
    dsimp only
    rw [amid_call,hdelete]
    exact List.mem_cons_self

end LookUps

/-- An answer of status 500 is improper whatever was asked. -/
private theorem not_proper {t : Users} {resp : Response} (h : resp.status = 500) : ¬ ProperlyAnswered rt request t resp := by
  rintro ⟨hmem,-⟩
  rw [h] at hmem
  exact absurd hmem (by decide)

/-- A refusal of a change of password whose parameters are not all valid. -/
private theorem proper_of_invalid {t : Users} {resp : Response} (h : resp.status = 400) (hothers : ¬ OthersValid request) :
    ProperlyAnswered rt request t resp :=
  ⟨by rw [h]; decide,fun _ _ _ hvalid => absurd hvalid hothers⟩

/-- Past its parameter checks, a change of password goes wrong on an id that cannot be read, on a
current password that is no string, and on a new one that cannot be hashed. -/
private theorem changing_iff (hl : BcryptLaws rt) (hraise : CheckpwRaisesValueError rt)
    (hmet : ∀ k, (met k).1.fault = none) {body : List (PyStr × Json)} {userId : PyStr} {current new : Json}
    (hc : Changing request body userId current new) :
    ProperlyAnswered rt request (met 1).2.users ((respond (changePassword direct rt request body salt)).amid (exec rt) met) ↔
      ∃ i, rt.uuidParam userId = some i ∧ ∀ row, (met 1).2.users.findById i = some row →
        ∃ p, current = .str p ∧ (Accepts rt p row.password → ∃ h, hashText rt new.encode salt = .ok h) := by
  rw [respond_changePassword rt request salt hc,amid_call,acquire_healthy rt (hmet 0),amid_call,fetchById_healthy rt (hmet 1)]
  cases hi : rt.uuidParam userId with
  | none =>
    rw [Runtime.uuid,hi]
    exact iff_of_false (not_proper rfl) (by simp)
  | some i =>
    rw [(rt.uuid_eq_ok_iff userId i).mpr hi,Except.map]
    have hcond : ∀ P : Uuid → Prop, (∃ j, some i = some j ∧ P j) ↔ P i := by simp
    rw [hcond]
    cases hrow : (met 1).2.users.findById i with
    | none => exact iff_of_true ⟨(by decide : (404 : Nat) ∈ [200,400,401,403,404]),fun _ _ _ _ => rfl⟩ (by simp)
    | some row =>
      have hnamed : ∀ userId', request.userId = some userId' → named rt userId' (met 1).2.users ≠ none := by
        intro userId' hu'
        obtain rfl : userId = userId' := Option.some.inj (hc.userId_eq.symm.trans hu')
        simp [named,hi,hrow]
      -- a row is found, so only the status is at stake
      have hproper : ∀ resp : Response, resp.status ∈ [200,400,401,403,404] →
          ProperlyAnswered rt request (met 1).2.users resp :=
        fun resp hmem => ⟨hmem,fun userId' hu' h _ => absurd h (hnamed userId' hu')⟩
      have hone : ∀ P : Row → Prop, (∀ r, some row = some r → P r) ↔ P row := by simp
      rw [hone]
      dsimp only
      cases current with
      | str p =>
        obtain ⟨b,hb⟩ := validPassword_total hraise (fun e he => encode_error_kind he) (p == row.password) row.password
        have hcheck : changePassword.validPassword rt (.str p) row.password = .ok b := hb
        rw [hcheck]
        cases b with
        | false =>
          refine iff_of_true (hproper _ (by decide : (400 : Nat) ∈ _)) ⟨p,rfl,fun haccepts => ?_⟩
          rw [(validPassword_iff _ _ _).mpr haccepts] at hb
          cases hb
        | true =>
          cases hhash : hashText rt new.encode salt with
          | error e =>
            refine iff_of_false (not_proper rfl) ?_
            rintro ⟨q,hq,himp⟩
            cases hq
            obtain ⟨h,hh⟩ := himp ((validPassword_iff _ _ _).mp hb)
            cases hh
          | ok h =>
            obtain ⟨q,-,hq⟩ := hashText_eq_ok hhash
            obtain ⟨n,hupdate⟩ := updatePassword_healthy rt (hmet 2) (met 2).2 (hl.hashpw_storable _ _ _ hq) hi
            dsimp only
            rw [amid_call,hupdate]
            exact iff_of_true (hproper _ (by decide : (200 : Nat) ∈ _)) ⟨p,rfl,fun _ => ⟨h,rfl⟩⟩
      | _ =>
        refine iff_of_false (not_proper rfl) ?_
        rintro ⟨p,hp,-⟩
        cases hp

private theorem changePassword_iff (hl : BcryptLaws rt) (hraise : CheckpwRaisesValueError rt)
    (hmet : ∀ k, (met k).1.fault = none) {body : List (PyStr × Json)}
    (hend : request.endpoint = some .changePassword) (hbody : request.body = some (.obj body)) {userId : PyStr}
    (hu : request.userId = some userId) :
    ProperlyAnswered rt request (met 1).2.users ((respond (changePassword direct rt request body salt)).amid (exec rt) met) ↔
      Changeable rt salt (met 1).2.users userId (dictGet body (py "current_password"))
        (dictGet body (py "new_password")) := by
  have hvalid : OthersValid request → ∃ current new, dictGet body (py "current_password") = .str current ∧ current ≠ [] ∧
      dictGet body (py "new_password") = .str new ∧ 6 ≤ new.length := by
    intro h
    obtain ⟨body',current,new,hb,hrest⟩ := h hend
    obtain rfl : body = body' := Json.obj.inj (Option.some.inj (hbody.symm.trans hb))
    exact ⟨current,new,hrest⟩
  by_cases hmiss : (!(dictGet body (py "current_password")).truthy || !(dictGet body (py "new_password")).truthy) = true
  · rw [respond_changePassword_incomplete rt salt hu hmiss]
    refine iff_of_true (proper_of_invalid rfl (fun hothers => ?_)) (fun hct hnt => ?_)
    · obtain ⟨current,new,hcur,hne,hnew,hlen⟩ := hvalid hothers
      have hnew0 : new ≠ [] := by rintro rfl; exact absurd hlen (by decide)
      rw [hcur,hnew] at hmiss
      simp [Json.truthy,hne,hnew0] at hmiss
    · rw [hct,hnt] at hmiss
      cases hmiss
  · have htruthy : (dictGet body (py "current_password")).truthy = true ∧
        (dictGet body (py "new_password")).truthy = true := by simpa using hmiss
    have hcond : ∀ P : Prop, ((dictGet body (py "current_password")).truthy = true →
        (dictGet body (py "new_password")).truthy = true → P) ↔ P :=
      fun P => ⟨fun h => h htruthy.1 htruthy.2,fun h _ _ => h⟩
    rw [Changeable,hcond]
    cases hlen : (dictGet body (py "new_password")).len with
    | error e =>
      rw [respond_changePassword_unsized rt salt hu hmiss hlen]
      exact iff_of_false (not_proper rfl) (by simp)
    | ok n =>
      by_cases hn : n < 6
      · rw [respond_changePassword_short rt salt hu hmiss hlen hn]
        refine iff_of_true (proper_of_invalid rfl (fun hothers => ?_)) ⟨n,rfl,fun h => absurd hn (by omega)⟩
        obtain ⟨_,new,-,-,hnew,hlong⟩ := hvalid hothers
        rw [hnew] at hlen
        obtain rfl : new.length = n := Except.ok.inj hlen
        omega
      · rw [changing_iff hl hraise hmet ⟨hu,rfl,rfl,htruthy.1,htruthy.2,n,hlen,by omega⟩]
        constructor
        · intro h
          exact ⟨n,rfl,fun _ => h⟩
        · rintro ⟨m,hm,h⟩
          obtain rfl := Except.ok.inj hm
          exact h (by omega)

theorem account_answer_iff (hl : BcryptLaws rt) (hraise : CheckpwRaisesValueError rt) {endpoint : Endpoint}
    (hend : request.endpoint = some endpoint) (hmem : endpoint ∈ accountEndpoints)
    (hbody : endpoint = .changePassword → ∃ body, request.body = some (.obj body))
    (hmet : ∀ k, (met k).1.fault = none) :
    ProperlyAnswered rt request (met 1).2.users ((serve rt request salt).amid (exec rt) met) ↔
      Answerable rt request salt (met 1).2.users := by
  rw [serve_of_endpoint hend]
  simp only [accountEndpoints,List.mem_cons,List.not_mem_nil,or_false] at hmem
  rcases hmem with rfl | rfl | rfl | rfl
  · cases hu : request.userId with
    | none => exact anonymous_iff hu (respond_getUserInfo_refused rt request hu) (by decide)
    | some userId => exact lookedUp_iff hu (by rw [hend]; decide) (getUserInfo_lookedUp hmet hu)
  · obtain ⟨body,hb⟩ := hbody rfl
    rw [handle,hb]
    cases hu : request.userId with
    | none => exact anonymous_iff hu (respond_changePassword_anonymous rt salt hu) (by decide)
    | some userId =>
      rw [changePassword_iff hl hraise hmet hend hb hu]
      simp [Answerable,hu,hend,hb]
  · cases hu : request.userId with
    | none => exact anonymous_iff hu (respond_deleteAccount_refused request hu) (by decide)
    | some userId => exact lookedUp_iff hu (by rw [hend]; decide) (deleteAccount_lookedUp hmet hu)
  · cases hu : request.userId with
    | none => exact anonymous_iff hu (respond_listAllUsers_refused rt request hu) (by decide)
    | some userId => exact lookedUp_iff hu (by rw [hend]; decide) (listAllUsers_lookedUp hmet hu)

namespace Reference

/-- A healthy connection to a table that nobody else writes to. -/
def undisturbed (_ : Nat) : Choice × Store := (⟨none,1,0⟩,store)

theorem change_properly_answered :
    ProperlyAnswered reference (changeRequest accountId "secret1" "secret2") store.users
      ((serve reference (changeRequest accountId "secret1" "secret2") (saltOf "secret2")).amid (exec reference)
        undisturbed) := by
  have hend : (changeRequest accountId "secret1" "secret2").endpoint = some .changePassword := by decide +kernel
  have hmet : ∀ k, (undisturbed k).1.fault = none := fun _ => rfl
  have huser : (changeRequest accountId "secret1" "secret2").userId = some (uuidStr accountId) := by decide +kernel
  refine (account_answer_iff bcryptLaws checkpwRaisesValueError hend (by decide) (fun _ => ⟨_,rfl⟩) hmet).mpr ?_
  intro userId hu
  obtain rfl := Option.some.inj (huser.symm.trans hu)
  rw [if_pos hend]
  intro body hbody _ _
  obtain rfl := Json.obj.inj (Option.some.inj hbody)
  exact ⟨7,rfl,fun _ => ⟨accountId,roundTrip accountId,fun row _ => ⟨py "secret1",rfl,fun _ => ⟨_,rfl⟩⟩⟩⟩

/-- An id that is no UUID, and a new password that has no length. -/
theorem account_internal_errors :
    ((serve reference (Client.bare .get "/user/info" ⟨[(py "user_id",py "abc")],[]⟩) []).run (exec reference)
        (fun _ => ⟨none,1,0⟩) store).1.status = 500 ∧
      ((serve reference
        { changeRequest accountId "secret1" "secret2" with
          body := some (.obj [(py "current_password",.str (py "secret1")),(py "new_password",.int 1234567)]) }
        (saltOf "secret2")).run (exec reference) (fun _ => ⟨none,1,0⟩) store).1.status = 500 := by decide +kernel

end Reference

end Healthy

end Thintuit.Server
