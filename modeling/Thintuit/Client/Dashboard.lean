import Thintuit.Client.Fetch
import Thintuit.Server.Reference
import Thintuit.Server.SingleRequest

/-! The account requests of `js/dashboard.js`. They carry the cookies of the session but no
`user_id` in the query string, which is the only place where the server looks for it. -/
namespace Thintuit.Client.Dashboard
open Server

def fetchUserInfoFromServer (cookies : List (PyStr × PyStr)) : Request := bare .get "/user/info" ⟨[],cookies⟩

/-- Nothing is sent when the new password is not entered equally twice. -/
def changePassword (cookies : List (PyStr × PyStr)) (currentPassword newPassword confirmPassword : PyStr) :
    Option Request :=
  if newPassword ≠ confirmPassword then none
  else some (postJson "/change-password" ⟨[],cookies⟩
    [(py "current_password",currentPassword),(py "new_password",newPassword)])

def deleteAccount (cookies : List (PyStr × PyStr)) : Request := bare .delete "/delete-account" ⟨[],cookies⟩

section Anonymous
variable {rt : Runtime} {request : Request} {salt : Bytes}

/-- A change of password needs a `user_id` before anything else. -/
private theorem serve_changePassword_anonymous (hend : request.endpoint = some .changePassword)
    {body : List (PyStr × Json)} (hbody : request.body = some (.obj body)) (hu : request.userId = none) :
    serve rt request salt = .ret (errorDetail 400 "缺少必要参数") := by
  rw [serve_of_endpoint hend,handle,hbody]
  exact respond_changePassword_anonymous rt salt hu

private theorem serve_deleteAccount_anonymous (hend : request.endpoint = some .deleteAccount)
    (hu : request.userId = none) : serve rt request salt = .ret (errorDetail 400 "缺少用户ID") := by
  rw [serve_of_endpoint hend,handle,respond_deleteAccount_refused request hu]

private theorem serve_getUserInfo_anonymous (hend : request.endpoint = some .getUserInfo)
    (hu : request.userId = none) : serve rt request salt = .ret (errorDetail 401 "未授权，请重新登录") := by
  rw [serve_of_endpoint hend,handle,respond_getUserInfo_refused rt request hu]

end Anonymous

/-- Whoever is logged in, whatever the passwords and whatever the table: the server refuses all
three requests and leaves the table as it is. -/
theorem dashboard_requests_refused (rt : Runtime) (cookies : List (PyStr × PyStr)) (currentPassword newPassword : PyStr)
    (salt : Bytes) (c : Nat → Choice) (s : Store) :
    (∃ request, changePassword cookies currentPassword newPassword newPassword = some request ∧
      (serve rt request salt).run (exec rt) c s = (errorDetail 400 "缺少必要参数",s)) ∧
    (serve rt (deleteAccount cookies) salt).run (exec rt) c s = (errorDetail 400 "缺少用户ID",s) ∧
    (serve rt (fetchUserInfoFromServer cookies) salt).run (exec rt) c s = (errorDetail 401 "未授权，请重新登录",s) := by
  refine ⟨⟨_,if_neg (by simp),?_⟩,?_,?_⟩
  · rw [serve_changePassword_anonymous rfl rfl rfl]
    rfl
  · rw [serve_deleteAccount_anonymous rfl rfl]
    rfl
  · rw [serve_getUserInfo_anonymous rfl rfl]
    rfl

open Server.Reference in
/-- The current password is right and the new one can be hashed, but the change is refused and the
hash on file still verifies the old password. -/
theorem dashboard_change_refused :
    ∃ request, changePassword [] (py "secret1") (py "secret2") (py "secret2") = some request ∧
      reference.checkpw (utf8 (py "secret1")) (utf8 account.password) = .ok true ∧
      (reference.hashpw (utf8 (py "secret2")) (saltOf "secret2")).toOption.isSome = true ∧
      ((serve reference request (saltOf "secret2")).run (exec reference) (fun _ => ⟨none,0,1⟩) store).1.success = false ∧
      ((serve reference request (saltOf "secret2")).run (exec reference) (fun _ => ⟨none,0,1⟩) store).2.users.rows =
        [account] :=
  ⟨_,rfl,by decide +kernel,by decide +kernel,by decide +kernel,by decide +kernel⟩

end Thintuit.Client.Dashboard
