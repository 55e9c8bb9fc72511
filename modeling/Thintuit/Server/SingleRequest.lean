import Thintuit.Interaction.History
import Thintuit.Server.Writes

/-! One request served without interruption, where any statement may raise. A
failed answer has changed nothing, and a success answer fixes the change. -/
namespace Thintuit.Server
open Interaction Program
variable {rt : Runtime} {request : Request} {salt : Bytes}

/-- An operation that changes the store ends its request with a success answer. -/
theorem Issues.commits {op : DbOp} {next : op.Reply → Program DbOp DbOp.Reply Response}
    (h : Issues rt request salt op next) (c : Choice) (s : Store) :
    (exec rt c s op).2 = s ∨ ∃ resp, next (exec rt c s op).1 = .ret resp ∧ resp.success = true := by
  cases hr : (exec rt c s op).1 with
  | error e => exact .inl (exec_error_store rt hr)
  | ok r =>
    cases op with
    | insertUser name email password =>
      obtain ⟨user,-,-,-,-,hnext⟩ := h
      exact .inr ⟨_,hnext _,rfl⟩
    | updatePassword password userId =>
      obtain ⟨cur,new,-,-,hnext⟩ := h
      exact .inr ⟨_,hnext _,rfl⟩
    | deleteUser userId => exact .inr ⟨_,h.2 _,rfl⟩
    | _ => exact .inl (by simp)

/-- A request to a reading endpoint issues no write at all. -/
theorem Issues.reads {op : DbOp} {next : op.Reply → Program DbOp DbOp.Reply Response} {endpoint : Endpoint}
    (h : Issues rt request salt op next) (he : request.endpoint = some endpoint) (hw : endpoint.writes = false)
    (c : Choice) (s : Store) : (exec rt c s op).2 = s := by
  cases op with
  | insertUser name email password =>
    obtain ⟨user,hu,-⟩ := h
    rw [((registers_iff user).mp hu).1] at he
    cases he; cases hw
  | updatePassword password userId =>
    obtain ⟨cur,new,hc,-⟩ := h
    rw [((changes_iff _ _ _).mp hc).1] at he
    cases he; cases hw
  | deleteUser userId =>
    rw [((deletes_iff _).mp h.1).1] at he
    cases he; cases hw
  | _ => simp

variable {c : Nat → Choice} {s s' : Store} {resp : Response}

theorem run_failure (hrun : (serve rt request salt).run (exec rt) c s = (resp,s')) (hs : resp.success = false) :
    s' = s := by
  have hall := (serve_issues rt request salt).mono (fun op next h => h.commits)
  have h := run_silent (exec rt) Response.success _ hall c s
  rw [hrun] at h
  exact h hs

theorem run_reading {endpoint : Endpoint} (hrun : (serve rt request salt).run (exec rt) c s = (resp,s'))
    (he : request.endpoint = some endpoint) (hw : endpoint.writes = false) : s' = s := by
  have h := run_silent (exec rt) (fun _ => false) (serve rt request salt)
    ((serve_issues rt request salt).mono (fun op next h c s => .inl (h.reads he hw c s))) c s rfl
  rwa [hrun] at h

/-- The exchanges of an uninterrupted run, and the chain of stores behind them. -/
theorem run_trace (hrun : (serve rt request salt).run (exec rt) c s = (resp,s')) :
    ∃ es : List (Event Unit Choice Store DbOp),
      Path (serve rt request salt) (es.map (Event.exchange (exec rt))) (.ret resp) ∧ Chain (exec rt) s es s' ∧
      ∀ e ∈ es, ∃ k, e.choice = c k := by
  have hpath := trace_path (exec rt) (serve rt request salt) c s
  have hchain := trace_chain (exec rt) (serve rt request salt) c s
  rw [hrun] at hpath hchain
  exact ⟨_,hpath,hchain,trace_choice _ _ c s⟩

theorem run_registerUser {user : UserCreate} (hrun : (serve rt request salt).run (exec rt) c s = (resp,s'))
    (hu : request.registers rt = some user) (hs : resp.success = true) :
    ∃ h k, Registering rt request salt user h ∧ resp = registered rt (c k).newId ∧
      Fits user.name user.email h ∧ s.users.findById (c k).newId = none ∧ s.users.findByEmail user.email = none ∧
      s'.users.rows = s.users.rows ++ [newRow (c k) user.name user.email h] ∧
      s'.testrecordsdetails2022 = s.testrecordsdetails2022 := by
  obtain ⟨es,hpath,hchain,hchoice⟩ := run_trace hrun
  obtain ⟨h,r,hreg,hresp,hes⟩ := registerUser_success hu hpath hs
  obtain ⟨_,c₁,es₁,rfl,-,hchain,hes⟩ := hchain.uncons hes
  obtain ⟨_,c₂,es₂,rfl,-,hchain,hes⟩ := hchain.uncons hes
  obtain ⟨_,c₃,es₃,rfl,hok,hchain,hes⟩ := hchain.uncons hes
  obtain rfl := List.map_eq_nil_iff.mp hes
  obtain ⟨k,hk⟩ := hchoice _ (List.mem_cons_of_mem _ (List.mem_cons_of_mem _ List.mem_cons_self))
  simp only [exec_acquire_store,exec_fetchEmailByEmail_store] at hok hchain
  obtain ⟨hf,t,hp⟩ := (exec_ok_iff rt _ _ _ _).mp hok
  obtain rfl : t = s' := by
    rw [exec_of_perform rt hf hp] at hchain
    exact hchain
  obtain ⟨hfits,hid,hemail,rfl,hrows,hrec⟩ := (insertUser_ok_iff rt _ _ _ _ _ _ _).mp hp
  obtain rfl : c₃ = c k := hk
  rw [hfits.take_email (registers_email_end hu)] at hemail
  exact ⟨h,k,hreg,hresp,hfits,hid,hemail,hrows,hrec⟩

theorem run_loginUser {user : UserLogin} (hrun : (serve rt request salt).run (exec rt) c s = (resp,s'))
    (hu : request.logsIn rt = some user) (hs : resp.success = true) :
    ∃ row, s.users.findByEmail user.email = some row ∧
      loginUser.validPassword rt user.password row.password = .ok true ∧ resp = loggedIn rt row ∧ s' = s := by
  obtain ⟨es,hpath,hchain,-⟩ := run_trace hrun
  obtain ⟨row,hvalid,hresp,hes⟩ := loginUser_success hu hpath hs
  obtain ⟨_,c₁,es₁,rfl,-,hchain,hes⟩ := hchain.uncons hes
  obtain ⟨_,c₂,es₂,rfl,hok,hchain,hes⟩ := hchain.uncons hes
  obtain rfl := List.map_eq_nil_iff.mp hes
  simp only [exec_acquire_store,exec_fetchByEmail_store] at hok hchain
  obtain ⟨-,-,hrow⟩ := (fetchByEmail_ok_iff rt _ _ _ _).mp hok
  exact ⟨row,hrow.symm,hvalid,hresp,hchain.symm⟩

theorem run_getUserInfo (hrun : (serve rt request salt).run (exec rt) c s = (resp,s'))
    (he : request.endpoint = some .getUserInfo) (hs : resp.success = true) :
    ∃ userId i row, request.userId = some userId ∧ rt.uuidParam userId = some i ∧
      s.users.findById i = some row ∧ resp = userInfo rt row ∧ s' = s := by
  obtain ⟨es,hpath,hchain,-⟩ := run_trace hrun
  obtain ⟨userId,row,hu,hresp,hes⟩ := getUserInfo_success he hpath hs
  obtain ⟨_,c₁,es₁,rfl,-,hchain,hes⟩ := hchain.uncons hes
  obtain ⟨_,c₂,es₂,rfl,hok,hchain,hes⟩ := hchain.uncons hes
  obtain rfl := List.map_eq_nil_iff.mp hes
  simp only [exec_acquire_store,exec_fetchById_store] at hok hchain
  obtain ⟨-,i,hi,hrow⟩ := (fetchById_ok_iff rt _ _ _ _).mp hok
  exact ⟨userId,i,row,hu,hi,hrow.symm,hresp,hchain.symm⟩

theorem run_listAllUsers (hrun : (serve rt request salt).run (exec rt) c s = (resp,s'))
    (he : request.endpoint = some .listAllUsers) (hs : resp.success = true) :
    ∃ userId i row, request.userId = some userId ∧ rt.uuidParam userId = some i ∧
      s.users.findById i = some row ∧ row.role = some (py "admin") ∧ s' = s := by
  obtain ⟨es,hpath,hchain,-⟩ := run_trace hrun
  obtain ⟨userId,row,rows,hu,hrole,-,hes⟩ := listAllUsers_success he hpath hs
  obtain ⟨_,c₁,es₁,rfl,-,hchain,hes⟩ := hchain.uncons hes
  obtain ⟨_,c₂,es₂,rfl,hok,hchain,hes⟩ := hchain.uncons hes
  obtain ⟨_,c₃,es₃,rfl,-,hchain,hes⟩ := hchain.uncons hes
  obtain ⟨_,c₄,es₄,rfl,-,hchain,hes⟩ := hchain.uncons hes
  obtain rfl := List.map_eq_nil_iff.mp hes
  simp only [exec_acquire_store,exec_fetchById_store,exec_fetchUsers_store] at hok hchain
  obtain ⟨-,i,hi,hrow⟩ := (fetchById_ok_iff rt _ _ _ _).mp hok
  exact ⟨userId,i,row,hu,hi,hrow.symm,hrole,hchain.symm⟩

theorem run_changePassword {userId : PyStr} {currentPassword newPassword : Json}
    (hrun : (serve rt request salt).run (exec rt) c s = (resp,s'))
    (hc : request.changes = some (userId,currentPassword,newPassword)) (hs : resp.success = true) :
    ∃ i row h, rt.uuidParam userId = some i ∧ s.users.findById i = some row ∧
      changePassword.validPassword rt currentPassword row.password = .ok true ∧
      hashText rt newPassword.encode salt = .ok h ∧ (∃ k, newPassword.len = .ok k ∧ 6 ≤ k) ∧
      s' = { s with users := s.users.setPassword i h } := by
  obtain ⟨es,hpath,hchain,-⟩ := run_trace hrun
  obtain ⟨row,h,n,hvalid,hhash,hlen,-,hes⟩ := changePassword_success hc hpath hs
  obtain ⟨_,c₁,es₁,rfl,-,hchain,hes⟩ := hchain.uncons hes
  obtain ⟨_,c₂,es₂,rfl,hok,hchain,hes⟩ := hchain.uncons hes
  obtain ⟨_,c₃,es₃,rfl,hok',hchain,hes⟩ := hchain.uncons hes
  obtain rfl := List.map_eq_nil_iff.mp hes
  simp only [exec_acquire_store,exec_fetchById_store] at hok hok' hchain
  obtain ⟨-,i,hi,hrow⟩ := (fetchById_ok_iff rt _ _ _ _).mp hok
  obtain ⟨hf,t,hp⟩ := (exec_ok_iff rt _ _ _ _).mp hok'
  obtain rfl : t = s' := by
    rw [exec_of_perform rt hf hp] at hchain
    exact hchain
  obtain ⟨-,j,hj,-,rfl⟩ := (updatePassword_ok_iff rt _ _ _ _ _ _).mp hp
  obtain rfl : i = j := Option.some.inj (hi.symm.trans hj)
  exact ⟨i,row,h,hi,hrow.symm,hvalid,hhash,hlen,rfl⟩

theorem run_deleteAccount {userId : PyStr} (hrun : (serve rt request salt).run (exec rt) c s = (resp,s'))
    (hd : request.deletes = some userId) (hs : resp.success = true) :
    ∃ i row, rt.uuidParam userId = some i ∧ s.users.findById i = some row ∧
      s' = { s with users := s.users.delete i } := by
  obtain ⟨es,hpath,hchain,-⟩ := run_trace hrun
  obtain ⟨email,n,-,hes⟩ := deleteAccount_success hd hpath hs
  obtain ⟨_,c₁,es₁,rfl,-,hchain,hes⟩ := hchain.uncons hes
  obtain ⟨_,c₂,es₂,rfl,hok,hchain,hes⟩ := hchain.uncons hes
  obtain ⟨_,c₃,es₃,rfl,hok',hchain,hes⟩ := hchain.uncons hes
  obtain rfl := List.map_eq_nil_iff.mp hes
  simp only [exec_acquire_store,exec_fetchEmailById_store] at hok hok' hchain
  obtain ⟨-,i,hi,hrow⟩ := (fetchEmailById_ok_iff rt _ _ _ _).mp hok
  obtain ⟨row,hrow,-⟩ := Option.map_eq_some_iff.mp hrow.symm
  obtain ⟨hf,t,hp⟩ := (exec_ok_iff rt _ _ _ _).mp hok'
  obtain rfl : t = s' := by
    rw [exec_of_perform rt hf hp] at hchain
    exact hchain
  obtain ⟨j,hj,-,rfl⟩ := (deleteUser_ok_iff rt _ _ _ _ _).mp hp
  obtain rfl : i = j := Option.some.inj (hi.symm.trans hj)
  exact ⟨i,row,hi,hrow,rfl⟩

/-- What a success answer of each endpoint says about the tables before and after, row by row. -/
def Committed (rt : Runtime) (request : Request) (salt : Bytes) (s s' : Store) : Endpoint → Prop
  | .registerUser => ∃ user h i now, request.registers rt = some user ∧
      hashText rt (encode user.password) salt = .ok h ∧ (∀ c ∈ user.name.drop 100, c = 32) ∧
      s'.users.rows = s.users.rows ++ [⟨i,user.name.take 100,user.email,h,some now,some (py "normal")⟩] ∧
      s'.testrecordsdetails2022 = s.testrecordsdetails2022
  | .changePassword => ∃ userId currentPassword newPassword i h,
      request.changes = some (userId,currentPassword,newPassword) ∧ rt.uuidParam userId = some i ∧
      hashText rt newPassword.encode salt = .ok h ∧ (∃ row ∈ s.users.rows, row.userId = i) ∧
      List.Forall₂ (fun row row' => row' = if row.userId = i then { row with password := h } else row)
        s.users.rows s'.users.rows ∧
      s'.testrecordsdetails2022 = s.testrecordsdetails2022
  | .deleteAccount => ∃ userId i row earlier later, request.deletes = some userId ∧ rt.uuidParam userId = some i ∧
      row.userId = i ∧ s.users.rows = earlier ++ row :: later ∧ s'.users.rows = earlier ++ later ∧
      s'.testrecordsdetails2022 = s.testrecordsdetails2022
  | _ => s' = s

theorem Users.setPassword_forall₂ (t : Users) (i : Uuid) (password : PyStr) :
    List.Forall₂ (fun row row' => row' = if row.userId = i then { row with password := password } else row) t.rows
      (t.setPassword i password).rows := by
  rw [setPassword,List.forall₂_map_right_iff,List.forall₂_same]
  exact fun row _ => rfl

/-- An id stands once in the table, so deleting it takes out one row. -/
theorem Users.delete_split {t : Users} {i : Uuid} {row : Row} (h : t.findById i = some row) :
    ∃ earlier later, t.rows = earlier ++ row :: later ∧ (t.delete i).rows = earlier ++ later := by
  obtain ⟨hmem,rfl⟩ := (findById_eq_some_iff _ _ _).mp h
  obtain ⟨earlier,later,hrows⟩ := List.append_of_mem hmem
  have hkey := t.userIdKey
  rw [hrows,List.map_append,List.map_cons,List.nodup_append,List.nodup_cons] at hkey
  obtain ⟨-,⟨hlater,-⟩,hearlier⟩ := hkey
  refine ⟨earlier,later,hrows,?_⟩
  have hkeptEarlier : ∀ r ∈ earlier, r.userId ≠ row.userId :=
    fun r hr => hearlier _ (List.mem_map_of_mem hr) _ List.mem_cons_self
  have hkeptLater : ∀ r ∈ later, r.userId ≠ row.userId :=
    fun r hr heq => hlater (heq ▸ List.mem_map_of_mem hr)
  change t.rows.filter (fun r => r.userId ≠ row.userId) = _
  rw [hrows,List.filter_append,List.filter_cons_of_neg (by simp)]
  congr 1
  · exact List.filter_eq_self.mpr (fun r hr => decide_eq_true (hkeptEarlier r hr))
  · exact List.filter_eq_self.mpr (fun r hr => decide_eq_true (hkeptLater r hr))

theorem run_committed {endpoint : Endpoint} (hrun : (serve rt request salt).run (exec rt) c s = (resp,s'))
    (he : request.endpoint = some endpoint) (hs : resp.success = true) :
    Committed rt request salt s s' endpoint := by
  obtain ⟨es,hpath,-,-⟩ := run_trace hrun
  cases endpoint with
  | registerUser =>
    obtain ⟨user,hu⟩ := registers_of_success he hpath hs
    obtain ⟨h,k,hreg,-,hfits,-,-,hrows,hrec⟩ := run_registerUser hrun hu hs
    have hblank : ∀ c ∈ user.name.drop 100, c = 32 := by simpa using hfits.name_blank
    rw [newRow,hfits.take_email (registers_email_end hu)] at hrows
    exact ⟨user,h,_,_,hu,hreg.hashed,hblank,hrows,hrec⟩
  | changePassword =>
    obtain ⟨userId,cur,new,hc⟩ := changes_of_success he hpath hs
    obtain ⟨i,row,h,hi,hrow,-,hhash,-,rfl⟩ := run_changePassword hrun hc hs
    obtain ⟨hmem,hid⟩ := (Users.findById_eq_some_iff _ _ _).mp hrow
    exact ⟨userId,cur,new,i,h,hc,hi,hhash,⟨row,hmem,hid⟩,Users.setPassword_forall₂ _ _ _,rfl⟩
  | deleteAccount =>
    obtain ⟨userId,hd⟩ := deletes_of_success he hpath hs
    obtain ⟨i,row,hi,hrow,rfl⟩ := run_deleteAccount hrun hd hs
    obtain ⟨earlier,later,hrows,hdelete⟩ := Users.delete_split hrow
    exact ⟨userId,i,row,earlier,later,hd,hi,((Users.findById_eq_some_iff _ _ _).mp hrow).2,hrows,hdelete,rfl⟩
  | _ => exact run_reading hrun he rfl

end Thintuit.Server
