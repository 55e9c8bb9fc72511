import Thintuit.Interaction.Lockstep
import Thintuit.Server.Fallback
import Thintuit.Server.SameButPasswords
import Thintuit.Server.Session

/-! Stored passwords do not show in any answer, beyond the verdicts of the checks. Two
tables that differ in passwords only are indistinguishable by requests. -/
namespace Thintuit.Server
open Interaction

section Verdicts
variable (rt : Runtime)

def accepted : Except PyError Bool → Bool
  | .ok valid => valid
  | .error _ => false

/-- The verdict on the password of a fetched row, where the request checks it. -/
def verdict (request : Request) : Exchange DbOp DbOp.Reply → Option Bool
  | ⟨.fetchByEmail _,.ok (some row)⟩ =>
    (request.logsIn rt).map (fun user => accepted (loginUser.validPassword rt user.password row.password))
  | ⟨.fetchById _,.ok (some row)⟩ =>
    request.changes.map (fun change => accepted (changePassword.validPassword rt change.2.1 row.password))
  | _ => none

/-- The outcomes of the password checks that a turn performs. -/
def Turn.verdicts (turn : Turn) (s : Store) : List Bool :=
  (turn.call.program rt).released (exec rt) (verdict rt turn.call.request) turn.choices s

/-- The outcomes of all password checks of a session, turn by turn. -/
def verdicts : Store → List Turn → List (List Bool)
  | _, [] => []
  | s, turn :: turns => turn.verdicts rt s :: verdicts (turn.run rt s).2 turns

end Verdicts

/-- `checkpw` raises nothing but a `ValueError`. -/
def CheckpwRaisesValueError (rt : Runtime) : Prop := ∀ p h e, rt.checkpw p h = .error e → e.kind = .valueError

section Checks
variable {rt : Runtime}

/-- A check of a password that encodes, or fails to by a `ValueError`, comes to a verdict. -/
theorem validPassword_total (hraise : CheckpwRaisesValueError rt) {encoded : Except PyError Bytes}
    (henc : ∀ e, encoded = .error e → e.kind = .valueError) (same : Bool) (stored : PyStr) :
    ∃ b, validPassword rt encoded same stored = .ok b := by
  unfold validPassword
  rw [← bcryptCheck]
  cases hcheck : bcryptCheck rt encoded stored with
  | ok b => exact ⟨b,rfl⟩
  | error e =>
    refine ⟨_,if_pos ?_⟩
    cases encoded with
    | error e' =>
      obtain rfl : e' = e := Except.error.inj hcheck
      exact henc e' rfl
    | ok p =>
      cases hs : encode stored with
      | error e' =>
        obtain rfl : e' = e := by simpa [bcryptCheck,hs,bind,Except.bind] using hcheck
        exact encode_error_kind hs
      | ok h => exact hraise p h e (by simpa [bcryptCheck,hs,bind,Except.bind] using hcheck)

/-- Whether a check raises past the fallback depends on the offered password only. -/
private theorem validPassword_raises_or (hraise : CheckpwRaisesValueError rt) (encoded : Except PyError Bytes) :
    (∃ e, ∀ same stored, validPassword rt encoded same stored = .error e) ∨
      ∀ same stored, ∃ b, validPassword rt encoded same stored = .ok b := by
  by_cases henc : ∀ e, encoded = .error e → e.kind = .valueError
  · exact .inr (validPassword_total hraise henc)
  · push Not at henc
    obtain ⟨e,rfl,he⟩ := henc
    exact .inl ⟨e,fun same stored => if_neg he⟩

private theorem validPassword_eq (hraise : CheckpwRaisesValueError rt) {encoded : Except PyError Bytes} {b₁ b₂ : Bool}
    {h₁ h₂ : PyStr} (h : accepted (validPassword rt encoded b₁ h₁) = accepted (validPassword rt encoded b₂ h₂)) :
    validPassword rt encoded b₁ h₁ = validPassword rt encoded b₂ h₂ := by
  rcases validPassword_raises_or hraise encoded with ⟨e,he⟩ | hok
  · rw [he,he]
  · obtain ⟨v₁,hv₁⟩ := hok b₁ h₁
    obtain ⟨v₂,hv₂⟩ := hok b₂ h₂
    rw [hv₁,hv₂] at h ⊢
    exact congrArg Except.ok h

end Checks

section Requests
variable {rt : Runtime} {request : Request} {salt : Bytes} {s t : Store}

/-- Two runs of the request in step, up to the verdicts on passwords. -/
abbrev InStep (rt : Runtime) (request : Request) (p q : Program DbOp DbOp.Reply Response) (s t : Store) : Prop :=
  Lockstep (exec rt) SameButPasswords (verdict rt request) p q s t

/-- A handler answers at once when a statement raises, so only the replies matter. -/
private theorem call_rowless {op : DbOp} {f : op.Reply → Program DbOp DbOp.Reply Response} (h : SameButPasswords s t)
    (hop : op.rowless = true) (herror : ∀ e, ∃ resp, f (.error e) = .ret resp)
    (hok : ∀ v s t, SameButPasswords s t → InStep rt request (f (.ok v)) (f (.ok v)) s t) :
    InStep rt request (.call op f) (.call op f) s t := by
  refine .call_same (fun c => exec_same h c hop) (fun r s t h => ?_)
  cases r with
  | error e =>
    obtain ⟨resp,he⟩ := herror e
    rw [he]
    exact .ret h
  | ok v => exact hok v s t h

/-- What is to be shown after the SELECT of a row: the rows found agree but for the password. -/
private theorem sameRow_cases {f : Except PyError (Option Row) → Program DbOp DbOp.Reply Response}
    {P : Except PyError (Option Row) → Except PyError (Option Row) → Prop} (h : SameButPasswords s t)
    (herror : ∀ e, ∃ resp, f (.error e) = .ret resp) (hmissing : ∃ resp, f (.ok none) = .ret resp)
    (hfound : ∀ r₁ r₂, r₁.erase = r₂.erase → P (.ok (some r₁)) (.ok (some r₂)) →
      InStep rt request (f (.ok (some r₁))) (f (.ok (some r₂))) s t)
    {x y : Except PyError (Option Row)} (hrow : SameRow x y) (hP : P x y) : InStep rt request (f x) (f y) s t := by
  cases hrow with
  | error e =>
    obtain ⟨resp,he⟩ := herror e
    rw [he]
    exact .ret h
  | missing =>
    obtain ⟨resp,he⟩ := hmissing
    rw [he]
    exact .ret h
  | found herase => exact hfound _ _ herase hP

private theorem call_fetchByEmail {email : PyStr} {f : Except PyError (Option Row) → Program DbOp DbOp.Reply Response}
    (h : SameButPasswords s t) (herror : ∀ e, ∃ resp, f (.error e) = .ret resp)
    (hmissing : ∃ resp, f (.ok none) = .ret resp)
    (hfound : ∀ r₁ r₂, r₁.erase = r₂.erase →
      verdict rt request ⟨.fetchByEmail email,.ok (some r₁)⟩ = verdict rt request ⟨.fetchByEmail email,.ok (some r₂)⟩ →
      InStep rt request (f (.ok (some r₁))) (f (.ok (some r₂))) s t) :
    InStep rt request (.call (.fetchByEmail email) f) (.call (.fetchByEmail email) f) s t := by
  refine .call (fun c => ?_) (fun c hv => ?_)
  · have hrow := exec_fetchByEmail_sameRow rt h c email
    generalize (exec rt c s (.fetchByEmail email)).1 = r₁,(exec rt c t (.fetchByEmail email)).1 = r₂ at hrow
    cases hrow <;> simp [verdict]
  · simp only [exec_fetchByEmail_store]
    exact sameRow_cases (P := fun x y =>
      verdict rt request ⟨.fetchByEmail email,x⟩ = verdict rt request ⟨.fetchByEmail email,y⟩)
      h herror hmissing hfound (exec_fetchByEmail_sameRow rt h c email) hv

private theorem call_fetchById {userId : PyStr} {f : Except PyError (Option Row) → Program DbOp DbOp.Reply Response}
    (h : SameButPasswords s t) (herror : ∀ e, ∃ resp, f (.error e) = .ret resp)
    (hmissing : ∃ resp, f (.ok none) = .ret resp)
    (hfound : ∀ r₁ r₂, r₁.erase = r₂.erase →
      verdict rt request ⟨.fetchById userId,.ok (some r₁)⟩ = verdict rt request ⟨.fetchById userId,.ok (some r₂)⟩ →
      InStep rt request (f (.ok (some r₁))) (f (.ok (some r₂))) s t) :
    InStep rt request (.call (.fetchById userId) f) (.call (.fetchById userId) f) s t := by
  refine .call (fun c => ?_) (fun c hv => ?_)
  · have hrow := exec_fetchById_sameRow rt h c userId
    generalize (exec rt c s (.fetchById userId)).1 = r₁,(exec rt c t (.fetchById userId)).1 = r₂ at hrow
    cases hrow <;> simp [verdict]
  · simp only [exec_fetchById_store]
    exact sameRow_cases (P := fun x y => verdict rt request ⟨.fetchById userId,x⟩ = verdict rt request ⟨.fetchById userId,y⟩)
      h herror hmissing hfound (exec_fetchById_sameRow rt h c userId) hv

private theorem loggedIn_erase (r : Row) : loggedIn rt r.erase = loggedIn rt r := rfl
private theorem userInfo_erase (r : Row) : userInfo rt r.erase = userInfo rt r := rfl
private theorem role_erase (r : Row) : r.erase.role = r.role := rfl

private theorem registerUser_inStep (hend : request.endpoint = some .registerUser) (h : SameButPasswords s t) :
    InStep rt request (serve rt request salt) (serve rt request salt) s t := by
  rw [serve_of_endpoint hend,handle]
  cases UserCreate.validate rt request.body with
  | none => exact .ret h
  | some user =>
    dsimp only
    by_cases hr : ∃ p, Registering rt request salt user p
    · obtain ⟨p,hr⟩ := hr
      rw [respond_registerUser rt request salt hr]
      refine call_rowless h rfl (fun e => ⟨_,rfl⟩) (fun _ s t h => ?_)
      refine call_rowless h rfl (fun e => ⟨_,rfl⟩) (fun existing s t h => ?_)
      cases existing with
      | none => exact call_rowless h rfl (fun e => ⟨_,rfl⟩) (fun _ s t h => .ret h)
      | some email => exact .ret h
    · obtain ⟨resp,he,_⟩ := respond_registerUser_refused rt request salt user (fun p hp => hr ⟨p,hp⟩)
      rw [he]
      exact .ret h

private theorem loginUser_inStep (hraise : CheckpwRaisesValueError rt) (hend : request.endpoint = some .loginUser)
    (h : SameButPasswords s t) : InStep rt request (serve rt request salt) (serve rt request salt) s t := by
  rw [serve_of_endpoint hend,handle]
  cases hu : UserLogin.validate rt request.body with
  | none => exact .ret h
  | some user =>
    have hlogs : request.logsIn rt = some user := (logsIn_iff user).mpr ⟨hend,hu⟩
    dsimp only
    rw [respond_loginUser]
    refine call_rowless h rfl (fun e => ⟨_,rfl⟩) (fun _ s t h => ?_)
    refine call_fetchByEmail h (fun e => ⟨_,rfl⟩) ⟨_,rfl⟩ (fun r₁ r₂ he hv => ?_)
    simp only [verdict,hlogs,Option.map_some,Option.some.injEq] at hv
    have hvalid : loginUser.validPassword rt user.password r₁.password = loginUser.validPassword rt user.password r₂.password :=
      validPassword_eq hraise hv
    have hresp : loggedIn rt r₁ = loggedIn rt r₂ := by rw [← loggedIn_erase,he,loggedIn_erase]
    simp only [hvalid,hresp]
    split
    · split <;> exact .ret h
    · exact .ret h
    · exact .ret h

private theorem getUserInfo_inStep (hend : request.endpoint = some .getUserInfo) (h : SameButPasswords s t) :
    InStep rt request (serve rt request salt) (serve rt request salt) s t := by
  rw [serve_of_endpoint hend,handle]
  cases hu : request.userId with
  | none => rw [respond_getUserInfo_refused rt request hu]; exact .ret h
  | some userId =>
    rw [respond_getUserInfo rt request hu]
    refine call_rowless h rfl (fun e => ⟨_,rfl⟩) (fun _ s t h => ?_)
    refine call_fetchById h (fun e => ⟨_,rfl⟩) ⟨_,rfl⟩ (fun r₁ r₂ he _ => ?_)
    have hresp : userInfo rt r₁ = userInfo rt r₂ := by rw [← userInfo_erase,he,userInfo_erase]
    simp only [hresp]
    exact .ret h

private theorem listAllUsers_inStep (hend : request.endpoint = some .listAllUsers) (h : SameButPasswords s t) :
    InStep rt request (serve rt request salt) (serve rt request salt) s t := by
  rw [serve_of_endpoint hend,handle]
  cases hu : request.userId with
  | none => rw [respond_listAllUsers_refused rt request hu]; exact .ret h
  | some userId =>
    rw [respond_listAllUsers rt request hu]
    refine call_rowless h rfl (fun e => ⟨_,rfl⟩) (fun _ s t h => ?_)
    refine call_fetchById h (fun e => ⟨_,rfl⟩) ⟨_,rfl⟩ (fun r₁ r₂ he _ => ?_)
    have hrole : r₁.role = r₂.role := by rw [← role_erase,he,role_erase]
    simp only [hrole]
    split
    · exact .ret h
    · refine call_rowless h rfl (fun e => ⟨_,rfl⟩) (fun _ s t h => ?_)
      exact call_rowless h rfl (fun e => ⟨_,rfl⟩) (fun _ s t h => .ret h)

private theorem changePassword_inStep (hraise : CheckpwRaisesValueError rt)
    (hend : request.endpoint = some .changePassword) (h : SameButPasswords s t) :
    InStep rt request (serve rt request salt) (serve rt request salt) s t := by
  rw [serve_of_endpoint hend,handle]
  split
  · rename_i body hbody
    by_cases hc : ∃ u c n, Changing request body u c n
    · obtain ⟨userId,currentPassword,newPassword,hc⟩ := hc
      have hchange : request.changes = some (userId,currentPassword,newPassword) :=
        (changes_iff _ _ _).mpr ⟨hend,hc.userId_eq,body,hbody,hc.current_eq,hc.new_eq⟩
      rw [respond_changePassword rt request salt hc]
      refine call_rowless h rfl (fun e => ⟨_,rfl⟩) (fun _ s t h => ?_)
      refine call_fetchById h (fun e => ⟨_,rfl⟩) ⟨_,rfl⟩ (fun r₁ r₂ he hv => ?_)
      simp only [verdict,hchange,Option.map_some,Option.some.injEq] at hv
      have hvalid : changePassword.validPassword rt currentPassword r₁.password =
          changePassword.validPassword rt currentPassword r₂.password := validPassword_eq hraise hv
      simp only [hvalid]
      split
      · exact .ret h
      · exact .ret h
      · split
        · exact .ret h
        · exact call_rowless h rfl (fun e => ⟨_,rfl⟩) (fun _ s t h => .ret h)
    · obtain ⟨resp,he,_⟩ := respond_changePassword_refused rt request salt body (fun u c n hc' => hc ⟨u,c,n,hc'⟩)
      rw [he]
      exact .ret h
  · exact .ret h

private theorem deleteAccount_inStep (hend : request.endpoint = some .deleteAccount) (h : SameButPasswords s t) :
    InStep rt request (serve rt request salt) (serve rt request salt) s t := by
  rw [serve_of_endpoint hend,handle]
  cases hu : request.userId with
  | none => rw [respond_deleteAccount_refused request hu]; exact .ret h
  | some userId =>
    rw [respond_deleteAccount request hu]
    refine call_rowless h rfl (fun e => ⟨_,rfl⟩) (fun _ s t h => ?_)
    refine call_rowless h rfl (fun e => ⟨_,rfl⟩) (fun found s t h => ?_)
    cases found with
    | none => exact .ret h
    | some email => exact call_rowless h rfl (fun e => ⟨_,rfl⟩) (fun _ s t h => .ret h)

private theorem getModelAccuracy_inStep (hend : request.endpoint = some .getModelAccuracy) (h : SameButPasswords s t) :
    InStep rt request (serve rt request salt) (serve rt request salt) s t := by
  rw [serve_of_endpoint hend,handle,respond_getModelAccuracy]
  refine call_rowless h rfl (fun e => ⟨_,rfl⟩) (fun _ s t h => ?_)
  exact call_rowless h rfl (fun e => ⟨_,rfl⟩) (fun _ s t h => .ret h)

theorem serve_inStep (hraise : CheckpwRaisesValueError rt) (h : SameButPasswords s t) :
    InStep rt request (serve rt request salt) (serve rt request salt) s t := by
  cases hend : request.endpoint with
  | none =>
    unfold Request.endpoint at hend
    simp only [serve,serveOver,hend]
    exact .ret h
  | some endpoint =>
    cases endpoint with
    | registerUser => exact registerUser_inStep hend h
    | loginUser => exact loginUser_inStep hraise hend h
    | getUserInfo => exact getUserInfo_inStep hend h
    | listAllUsers => exact listAllUsers_inStep hend h
    | getModelAccuracy => exact getModelAccuracy_inStep hend h
    | changePassword => exact changePassword_inStep hraise hend h
    | deleteAccount => exact deleteAccount_inStep hend h
    | serveRegisterPage | serveDashboard | serveVisualization | logoutUser | root =>
      rw [serve_of_endpoint hend]
      exact .ret h

theorem turn_inStep (hraise : CheckpwRaisesValueError rt) (h : SameButPasswords s t) {turn : Turn}
    (hv : turn.verdicts rt s = turn.verdicts rt t) :
    (turn.run rt s).1 = (turn.run rt t).1 ∧ SameButPasswords (turn.run rt s).2 (turn.run rt t).2 :=
  (serve_inStep hraise h).run turn.choices hv

/-- Sessions that differ in stored passwords only, and in no verdict on a password, give the
same answers and end in tables that differ in passwords only. -/
theorem stored_passwords_do_not_interfere (hraise : CheckpwRaisesValueError rt) (h : SameButPasswords s t)
    (turns : List Turn) (hv : verdicts rt s turns = verdicts rt t turns) :
    history rt s turns = history rt t turns ∧ SameButPasswords (after rt s turns) (after rt t turns) := by
  induction turns generalizing s t with
  | nil => exact ⟨rfl,h⟩
  | cons turn turns ih =>
    obtain ⟨hhead,htail⟩ := List.cons.inj hv
    obtain ⟨hresp,hstep⟩ := turn_inStep hraise h hhead
    obtain ⟨hrest,hafter⟩ := ih hstep htail
    refine ⟨?_,hafter⟩
    rw [history,history,hresp,hrest]

end Requests

namespace Reference

theorem checkpwRaisesValueError : CheckpwRaisesValueError reference := by
  intro p h e he
  simp only [reference,checkpw] at he
  split at he
  · cases he
  · rw [← Except.error.inj he]
    rfl

/-- A login, a change of the password, and logins with the old and the new one. -/
def changeAndLogin : List Turn :=
  [⟨⟨loginRequest "user@example.com" "secret1",[],0,1⟩,fun _ => none⟩,
    ⟨⟨changeRequest accountId "secret1" "secret2",saltOf "secret2",0,2⟩,fun _ => none⟩,
    ⟨⟨loginRequest "user@example.com" "secret1",[],0,3⟩,fun _ => none⟩,
    ⟨⟨loginRequest "user@example.com" "secret2",[],0,4⟩,fun _ => none⟩]

end Reference

open Reference in
theorem placeholder_indistinguishable :
    verdicts reference store changeAndLogin = [[true],[true],[false],[true]] ∧
      history reference store changeAndLogin = history reference placeholderStore changeAndLogin :=
  ⟨by decide +kernel,
    (stored_passwords_do_not_interfere checkpwRaisesValueError ⟨by decide +kernel,rfl⟩ changeAndLogin
      (by decide +kernel)).1⟩

end Thintuit.Server
