import Thintuit.Server.PasswordInForce

/-! The identity of an account over a session: what registration returned names the
same account at every endpoint until it is deleted, and nothing afterwards. -/
namespace Thintuit.Server
open Interaction
variable (rt : Runtime)

/-- The answered request has deleted the account `i`. -/
def deletedId (i : Uuid) (x : Request × Response) : Bool :=
  x.2.success && x.1.deletes.any (fun userId => rt.uuidParam userId = some i)

/-- The id drawn for a turn, if it is a registration. -/
def Turn.drawn (turn : Turn) : Option Uuid :=
  if (turn.call.request.registers rt).isSome then some turn.call.newId else none

variable {rt}

section Steps
variable {turn : Turn} {s s' : Store} {resp : Response} {i : Uuid} {row : Row}

/-- A turn that does not delete the account keeps its row, up to the password. -/
theorem turn_keeps (hrun : turn.run rt s = (resp,s')) (hrow : s.users.findById i = some row)
    (hdel : deletedId rt i (turn.call.request,resp) = false) :
    ∃ password, s'.users.findById i = some { row with password := password } := by
  cases hs : resp.success with
  | false =>
    obtain rfl := run_failure hrun hs
    exact ⟨row.password,hrow⟩
  | true =>
    obtain ⟨es,hpath,-,-⟩ := run_trace hrun
    obtain ⟨endpoint,he⟩ := endpoint_of_success hpath hs
    obtain ⟨hmem,rfl⟩ := (Users.findById_eq_some_iff _ _ _).mp hrow
    cases endpoint with
    | registerUser =>
      obtain ⟨user,hu⟩ := registers_of_success he hpath hs
      obtain ⟨h,k,-,-,-,-,-,hrows,-⟩ := run_registerUser hrun hu hs
      refine ⟨row.password,(Users.findById_eq_some_iff _ _ _).mpr ⟨?_,rfl⟩⟩
      rw [hrows]
      exact List.mem_append_left _ hmem
    | changePassword =>
      obtain ⟨userId,cur,new,hc⟩ := changes_of_success he hpath hs
      obtain ⟨j,old,h,-,-,-,-,-,rfl⟩ := run_changePassword hrun hc hs
      have hset : Users.setPasswordRow j h row ∈ (s.users.setPassword j h).rows := List.mem_map_of_mem hmem
      by_cases hj : row.userId = j
      · refine ⟨h,(Users.findById_eq_some_iff _ _ _).mpr ⟨?_,rfl⟩⟩
        rwa [Users.setPasswordRow,if_pos hj] at hset
      · refine ⟨row.password,(Users.findById_eq_some_iff _ _ _).mpr ⟨?_,rfl⟩⟩
        rwa [Users.setPasswordRow,if_neg hj] at hset
    | deleteAccount =>
      obtain ⟨userId,hd⟩ := deletes_of_success he hpath hs
      obtain ⟨j,old,hj,-,rfl⟩ := run_deleteAccount hrun hd hs
      have hne : row.userId ≠ j := by
        rintro rfl
        simp [deletedId,hs,hd,hj] at hdel
      exact ⟨row.password,(Users.findById_eq_some_iff _ _ _).mpr ⟨List.mem_filter.mpr ⟨hmem,by simpa using hne⟩,rfl⟩⟩
    | _ =>
      obtain rfl := run_reading hrun he rfl
      exact ⟨row.password,hrow⟩

/-- Only the registration an id was drawn for can bring it into the table. -/
theorem turn_stays_gone (hrun : turn.run rt s = (resp,s')) (hnone : s.users.findById i = none)
    (hdraw : turn.drawn rt ≠ some i) : s'.users.findById i = none := by
  cases hs : resp.success with
  | false =>
    obtain rfl := run_failure hrun hs
    exact hnone
  | true =>
    obtain ⟨es,hpath,-,-⟩ := run_trace hrun
    obtain ⟨endpoint,he⟩ := endpoint_of_success hpath hs
    rw [Users.findById_eq_none_iff] at hnone ⊢
    cases endpoint with
    | registerUser =>
      obtain ⟨user,hu⟩ := registers_of_success he hpath hs
      obtain ⟨h,k,-,-,-,-,-,hrows,-⟩ := run_registerUser hrun hu hs
      intro r hr
      rw [hrows] at hr
      rcases List.mem_append.mp hr with hr | hr
      · exact hnone r hr
      · obtain rfl := List.mem_singleton.mp hr
        intro hi
        exact hdraw (by simp [Turn.drawn,hu,← hi,newRow,Turn.choices,Call.choice])
    | changePassword =>
      obtain ⟨userId,cur,new,hc⟩ := changes_of_success he hpath hs
      obtain ⟨j,old,h,-,-,-,-,-,rfl⟩ := run_changePassword hrun hc hs
      intro r hr
      obtain ⟨r',hr',rfl⟩ := List.mem_map.mp hr
      simpa using hnone r' hr'
    | deleteAccount =>
      obtain ⟨userId,hd⟩ := deletes_of_success he hpath hs
      obtain ⟨j,old,-,-,rfl⟩ := run_deleteAccount hrun hd hs
      intro r hr
      exact hnone r (List.mem_of_mem_filter hr)
    | _ =>
      obtain rfl := run_reading hrun he rfl
      exact hnone

end Steps

theorem session_keeps {s : Store} {i : Uuid} {row : Row} (hrow : s.users.findById i = some row) (turns : List Turn)
    (hkeep : ∀ x ∈ history rt s turns, deletedId rt i x = false) :
    ∃ password, (after rt s turns).users.findById i = some { row with password := password } := by
  induction turns generalizing s row with
  | nil => exact ⟨row.password,hrow⟩
  | cons turn turns ih =>
    obtain ⟨password,hrow₁⟩ := turn_keeps rfl hrow (hkeep _ List.mem_cons_self)
    obtain ⟨password',hrow₂⟩ := ih hrow₁ (fun x hx => hkeep x (List.mem_cons_of_mem _ hx))
    exact ⟨password',hrow₂⟩

theorem session_stays_gone {s : Store} {i : Uuid} (hnone : s.users.findById i = none) (turns : List Turn)
    (hdraw : ∀ turn ∈ turns, turn.drawn rt ≠ some i) : (after rt s turns).users.findById i = none := by
  induction turns generalizing s with
  | nil => exact hnone
  | cons turn turns ih =>
    exact ih (turn_stays_gone rfl hnone (hdraw turn List.mem_cons_self))
      (fun t ht => hdraw t (List.mem_cons_of_mem _ ht))

section Session
variable {s : Store} {turn reg : Turn} {user : UserCreate}

/-- A successful registration returns the drawn id, and leaves a row with it, the email and
the name as the column keeps it. -/
theorem registration_row (hu : reg.call.request.registers rt = some user) (hs : (reg.run rt s).1.success = true) :
    (reg.run rt s).1 = registered rt reg.call.newId ∧
      ∃ row, (reg.run rt s).2.users.findById reg.call.newId = some row ∧ row.email = user.email ∧
        row.name = user.name.take 100 := by
  have hrun : reg.run rt s = ((reg.run rt s).1,(reg.run rt s).2) := rfl
  obtain ⟨h,k,-,hresp,hfits,-,-,hrows,-⟩ := run_registerUser hrun hu hs
  refine ⟨hresp,newRow (reg.choices k) user.name user.email h,(Users.findById_eq_some_iff _ _ _).mpr ⟨?_,rfl⟩,
    hfits.take_email (registers_email_end hu),rfl⟩
  rw [hrows]
  exact List.mem_append_right _ List.mem_cons_self

/-- While the row of `i` has the email `e`, login answers `i` for `e` and for no other email. -/
theorem login_names {i : Uuid} {row : Row} (hrow : s.users.findById i = some row) {login : UserLogin}
    (hl : turn.call.request.logsIn rt = some login) (hs : (turn.run rt s).1.success = true) :
    (login.email = row.email → (turn.run rt s).1 = loggedIn rt row) ∧
    (login.email ≠ row.email → ∃ other, (turn.run rt s).1 = loggedIn rt other ∧ other.userId ≠ i) := by
  have hrun : turn.run rt s = ((turn.run rt s).1,(turn.run rt s).2) := rfl
  obtain ⟨found,hfound,-,hresp,-⟩ := run_loginUser hrun hl hs
  obtain ⟨hmem,rfl⟩ := (Users.findById_eq_some_iff _ _ _).mp hrow
  obtain ⟨hfmem,hfemail⟩ := (Users.findByEmail_eq_some_iff _ _ _).mp hfound
  refine ⟨fun he => ?_,fun hne => ⟨found,hresp,fun hid => ?_⟩⟩
  · rw [hresp,List.inj_on_of_nodup_map s.users.emailKey hfmem hmem (hfemail.trans he)]
  · rw [← List.inj_on_of_nodup_map s.users.userIdKey hfmem hmem hid] at hne
    exact hne hfemail.symm

/-- Without a row for the given id these three endpoints refuse. -/
theorem gone_refused {i : Uuid} (hnone : s.users.findById i = none) {userId : PyStr}
    (hu : turn.call.request.userId = some userId) (hi : rt.uuidParam userId = some i) {endpoint : Endpoint}
    (he : turn.call.request.endpoint = some endpoint)
    (hcase : endpoint = .getUserInfo ∨ endpoint = .changePassword ∨ endpoint = .listAllUsers) :
    (turn.run rt s).1.success = false := by
  rw [Bool.eq_false_iff]
  intro hs
  have hrun : turn.run rt s = ((turn.run rt s).1,(turn.run rt s).2) := rfl
  have habsent : ∀ u j row, turn.call.request.userId = some u → rt.uuidParam u = some j →
      s.users.findById j = some row → False := by
    intro u j row hu' hj hrow
    obtain rfl : userId = u := Option.some.inj (hu.symm.trans hu')
    obtain rfl : i = j := Option.some.inj (hi.symm.trans hj)
    rw [hnone] at hrow
    cases hrow
  rcases hcase with rfl | rfl | rfl
  · obtain ⟨u,j,row,hu',hj,hrow,-,-⟩ := run_getUserInfo hrun he hs
    exact habsent u j row hu' hj hrow
  · obtain ⟨es,hpath,-,-⟩ := run_trace hrun
    obtain ⟨u,cur,new,hc⟩ := changes_of_success he hpath hs
    obtain ⟨j,row,h,hj,hrow,-⟩ := run_changePassword hrun hc hs
    exact habsent u j row ((changes_iff _ _ _).mp hc).2.1 hj hrow
  · obtain ⟨u,j,row,hu',hj,hrow,-,-⟩ := run_listAllUsers hrun he hs
    exact habsent u j row hu' hj hrow

/-- The deletion of an account leaves no row with its id. -/
theorem deletion_row {del : Turn} {i : Uuid} (hdel : deletedId rt i (del.call.request,(del.run rt s).1) = true) :
    (del.run rt s).2.users.findById i = none := by
  rw [deletedId,Bool.and_eq_true,Option.any_eq_true] at hdel
  obtain ⟨hs,userId,hd,hi⟩ := hdel
  have hrun : del.run rt s = ((del.run rt s).1,(del.run rt s).2) := rfl
  obtain ⟨j,row,hj,-,hstore⟩ := run_deleteAccount hrun hd hs
  obtain rfl : i = j := Option.some.inj ((of_decide_eq_true hi).symm.trans hj)
  rw [hstore,Users.findById_eq_none_iff]
  intro r hr
  simpa using (List.mem_filter.mp hr).2

end Session

/-- Fresh draws: an id drawn for one registration is drawn for no later turn. -/
theorem drawn_once {before rest : List Turn} {reg : Turn} {user : UserCreate}
    (hu : reg.call.request.registers rt = some user)
    (hfresh : ((before ++ reg :: rest).filterMap (Turn.drawn rt)).Nodup) :
    ∀ turn ∈ rest, turn.drawn rt ≠ some reg.call.newId := by
  have hdrawn : reg.drawn rt = some reg.call.newId := by simp [Turn.drawn,hu]
  rw [List.filterMap_append,List.filterMap_cons_some hdrawn] at hfresh
  have hnot := (List.nodup_cons.mp (List.nodup_append.mp hfresh).2.1).1
  intro turn hturn h
  exact hnot (List.mem_filterMap.mpr ⟨turn,hturn,h⟩)

/-- At `s` the id `i` and the email name one account: login with the email and
user/info with the id answer its row, and login with another email another id. -/
def NamesAccount (rt : Runtime) (s : Store) (i : Uuid) (email : PyStr) : Prop :=
  ∃ row ∈ s.users.rows, row.userId = i ∧ row.email = email ∧
    (∀ (turn : Turn) login, turn.call.request.logsIn rt = some login → (turn.run rt s).1.success = true →
      (login.email = email → (turn.run rt s).1 = loggedIn rt row) ∧
      (login.email ≠ email → ∃ other, (turn.run rt s).1 = loggedIn rt other ∧ rt.uuidStr other.userId ≠ rt.uuidStr i)) ∧
    ∀ (turn : Turn) userId, turn.call.request.endpoint = some .getUserInfo → turn.call.request.userId = some userId →
      rt.uuidParam userId = some i →
      ((turn.run rt s).1.success = true → (turn.run rt s).1 = userInfo rt row) ∧
      ((∀ k, turn.fault k = none) → (turn.run rt s).1 = userInfo rt row)

/-- At `s` nothing succeeds for the id `i`. -/
def RefusesId (rt : Runtime) (s : Store) (i : Uuid) : Prop :=
  ∀ (turn : Turn) userId endpoint, turn.call.request.userId = some userId → rt.uuidParam userId = some i →
    turn.call.request.endpoint = some endpoint →
    endpoint = .getUserInfo ∨ endpoint = .changePassword ∨ endpoint = .listAllUsers →
    (turn.run rt s).1.success = false

theorem namesAccount_of_row (hround : UuidRoundTrip rt) {s : Store} {i : Uuid} {row : Row}
    (hrow : s.users.findById i = some row) : NamesAccount rt s i row.email := by
  obtain ⟨hmem,hid⟩ := (Users.findById_eq_some_iff _ _ _).mp hrow
  refine ⟨row,hmem,hid,rfl,?_,?_⟩
  · intro turn login hl hs
    obtain ⟨hsame,hother⟩ := login_names hrow hl hs
    refine ⟨hsame,fun hne => ?_⟩
    obtain ⟨other,hresp,hne'⟩ := hother hne
    exact ⟨other,hresp,fun h => hne' (hround.injective h)⟩
  · intro turn userId he hu hi
    refine ⟨fun hs => ?_,fun hfault => ?_⟩
    · have hrun : turn.run rt s = ((turn.run rt s).1,(turn.run rt s).2) := rfl
      obtain ⟨u,j,found,hu',hj,hfound,hresp,-⟩ := run_getUserInfo hrun he hs
      obtain rfl : userId = u := Option.some.inj (hu.symm.trans hu')
      obtain rfl : i = j := Option.some.inj (hi.symm.trans hj)
      obtain rfl : row = found := Option.some.inj (hrow.symm.trans hfound)
      exact hresp
    · have hrun : turn.run rt s = (userInfo rt row,s) := run_getUserInfo_of_found hfault he hu hi hrow
      rw [hrun]

/-- Account identity over a session from an empty table. A successful registration
returns the id drawn for it; until a deletion of that id succeeds, id and email name
one account; after it the id is refused and no later registration returns it. -/
theorem account_identity (hround : UuidRoundTrip rt) (records : List TestRecord) (before mid : List Turn) (reg : Turn)
    (user : UserCreate) (hu : reg.call.request.registers rt = some user)
    (hs : (reg.run rt (after rt ⟨Users.empty,records⟩ before)).1.success = true) :
    (reg.run rt (after rt ⟨Users.empty,records⟩ before)).1 = registered rt reg.call.newId ∧
    ((∀ x ∈ history rt (after rt ⟨Users.empty,records⟩ (before ++ [reg])) mid, deletedId rt reg.call.newId x = false) →
      NamesAccount rt (after rt ⟨Users.empty,records⟩ (before ++ reg :: mid)) reg.call.newId user.email) ∧
    ∀ (del : Turn) (rest : List Turn),
      deletedId rt reg.call.newId
        (del.call.request,(del.run rt (after rt ⟨Users.empty,records⟩ (before ++ reg :: mid))).1) = true →
      ((before ++ reg :: (mid ++ del :: rest)).filterMap (Turn.drawn rt)).Nodup →
      RefusesId rt (after rt ⟨Users.empty,records⟩ (before ++ reg :: (mid ++ del :: rest))) reg.call.newId ∧
      ∀ past again future, rest = past ++ again :: future →
        (again.call.request.registers rt).isSome = true →
        (again.run rt (after rt ⟨Users.empty,records⟩ (before ++ reg :: (mid ++ del :: past)))).1.success = true →
        (again.run rt (after rt ⟨Users.empty,records⟩ (before ++ reg :: (mid ++ del :: past)))).1 ≠
          registered rt reg.call.newId := by
  obtain ⟨hresp,row₀,hrow₀,hemail₀,-⟩ := registration_row hu hs
  refine ⟨hresp,?_,?_⟩
  · intro hkeep
    rw [after_append] at hkeep
    obtain ⟨password,hrow⟩ := session_keeps hrow₀ mid hkeep
    rw [after_append,after_cons,← hemail₀]
    have hnames := namesAccount_of_row hround hrow
    exact hnames
  · intro del rest hdel hfresh
    have hdraw := drawn_once hu hfresh
    refine ⟨?_,?_⟩
    · have hgone : (after rt ⟨Users.empty,records⟩ (before ++ reg :: (mid ++ del :: rest))).users.findById
          reg.call.newId = none := by
        rw [after_append,after_cons] at hdel ⊢
        rw [after_append,after_cons]
        exact session_stays_gone (deletion_row hdel) rest (fun t ht => hdraw t (by simp [ht]))
      intro turn userId endpoint huid hi he hcase
      exact gone_refused hgone huid hi he hcase
    · rintro past again future rfl hreg hsucc hsame
      obtain ⟨user',hu'⟩ := Option.isSome_iff_exists.mp hreg
      have hown := (registration_row hu' hsucc).1
      have hids : again.call.newId = reg.call.newId := by
        apply hround.injective
        simpa [registered,ok] using hown.symm.trans hsame
      exact hdraw again (by simp) (by simp [Turn.drawn,hreg,hids])

open Reference in
/-- A registration, its deletion, and a second registration of the same email under another id. -/
theorem account_identity_reused :
    RefusesId reference (after reference ⟨Users.empty,[]⟩
      ([] ++ ⟨⟨registerRequest "user" "user@example.com" "secret1",saltOf "secret1",accountId,1⟩,fun _ => none⟩ ::
        ([] ++ ⟨⟨deleteRequest accountId,[],0,2⟩,fun _ => none⟩ ::
          [⟨⟨registerRequest "user" "user@example.com" "secret2",saltOf "secret2",7,3⟩,fun _ => none⟩]))) accountId :=
  ((account_identity roundTrip [] [] []
    ⟨⟨registerRequest "user" "user@example.com" "secret1",saltOf "secret1",accountId,1⟩,fun _ => none⟩
    ⟨py "user",py "user@example.com",py "secret1"⟩ (by decide +kernel) (by decide +kernel)).2.2
    ⟨⟨deleteRequest accountId,[],0,2⟩,fun _ => none⟩
    [⟨⟨registerRequest "user" "user@example.com" "secret2",saltOf "secret2",7,3⟩,fun _ => none⟩]
    (by decide +kernel) (by decide +kernel)).1

end Thintuit.Server
