import Thintuit.Server.Database

/-! What a statement replies and what it does to the users table. Every statement
reduces to one of four effects, fixed by the statement and its reply. -/
namespace Thintuit.Server

/-- Under a key without duplicates, finding by key is membership with that key. -/
theorem find_key_iff {α κ : Type} [DecidableEq κ] (key : α → κ) {l : List α} (hkey : (l.map key).Nodup)
    (k : κ) (r : α) : l.find? (fun x => key x = k) = some r ↔ r ∈ l ∧ key r = k := by
  constructor
  · intro h
    exact ⟨List.mem_of_find?_eq_some h,by simpa using List.find?_some h⟩
  · rintro ⟨hr,rfl⟩
    have hsome : (l.find? (fun x => key x = key r)).isSome := by
      rw [List.find?_isSome]
      exact ⟨r,hr,by simp⟩
    obtain ⟨q,hq⟩ := Option.isSome_iff_exists.mp hsome
    have hqk : key q = key r := by simpa using List.find?_some hq
    rw [hq,List.inj_on_of_nodup_map hkey (List.mem_of_find?_eq_some hq) hr hqk]

namespace Users

theorem findById_eq_some_iff (t : Users) (i : Uuid) (r : Row) :
    t.findById i = some r ↔ r ∈ t.rows ∧ r.userId = i := find_key_iff Row.userId t.userIdKey i r

theorem findByEmail_eq_some_iff (t : Users) (email : PyStr) (r : Row) :
    t.findByEmail email = some r ↔ r ∈ t.rows ∧ r.email = email := find_key_iff Row.email t.emailKey email r

theorem findById_eq_none_iff (t : Users) (i : Uuid) : t.findById i = none ↔ ∀ r ∈ t.rows, r.userId ≠ i := by
  simp [findById]

theorem findByEmail_eq_none_iff (t : Users) (email : PyStr) :
    t.findByEmail email = none ↔ ∀ r ∈ t.rows, r.email ≠ email := by
  simp [findByEmail]

theorem filter_userId {t : Users} {i : Uuid} {r : Row} (h : t.findById i = some r) :
    t.rows.filter (fun q => q.userId = i) = [r] := by
  obtain ⟨hmem,rfl⟩ := (findById_eq_some_iff t i r).mp h
  have hnodup : (t.rows.filter (fun q => q.userId = r.userId)).Nodup :=
    (List.Nodup.of_map _ t.userIdKey).sublist List.filter_sublist
  apply List.perm_singleton.mp
  rw [List.perm_ext_iff_of_nodup hnodup (List.nodup_singleton r)]
  intro q
  rw [List.mem_filter,List.mem_singleton]
  constructor
  · rintro ⟨hq,hid⟩
    exact List.inj_on_of_nodup_map t.userIdKey hq hmem (by simpa using hid)
  · rintro rfl
    exact ⟨hmem,by simp⟩

theorem insert_eq_ok_iff (t : Users) (rt : Runtime) (r : Row) (t' : Users) :
    t.insert rt r = .ok t' ↔
      t.findById r.userId = none ∧ t.findByEmail r.email = none ∧ t'.rows = t.rows ++ [r] := by
  rw [findById_eq_none_iff,findByEmail_eq_none_iff]
  unfold insert
  split
  · rename_i h
    obtain ⟨q,hq,he⟩ := List.mem_map.mp h
    simp only [reduceCtorEq,false_iff,not_and]
    intro hall
    exact absurd he (hall q hq)
  · split
    · rename_i h
      obtain ⟨q,hq,he⟩ := List.mem_map.mp h
      simp only [reduceCtorEq,false_iff,not_and]
      intro _ hall
      exact absurd he (hall q hq)
    · rename_i hi he
      have hids : ∀ q ∈ t.rows, q.userId ≠ r.userId := fun q hq h => hi (h ▸ List.mem_map_of_mem hq)
      have hemails : ∀ q ∈ t.rows, q.email ≠ r.email := fun q hq h => he (h ▸ List.mem_map_of_mem hq)
      constructor
      · intro h
        obtain rfl := Except.ok.inj h
        exact ⟨hids,hemails,rfl⟩
      · rintro ⟨-,-,h⟩
        exact congrArg Except.ok (Users.ext h.symm)

theorem insert_error_kind {t : Users} {rt : Runtime} {r : Row} {e : PyError} (h : t.insert rt r = .error e) :
    e.kind = .uniqueViolationError := by
  unfold insert at h
  split at h
  · cases h; rfl
  · split at h
    · cases h; rfl
    · cases h

theorem exists_insert {t : Users} (rt : Runtime) (r : Row) (hid : t.findById r.userId = none)
    (hemail : t.findByEmail r.email = none) : ∃ t', t.insert rt r = .ok t' := by
  rw [findById_eq_none_iff] at hid
  rw [findByEmail_eq_none_iff] at hemail
  have hi : r.userId ∉ t.rows.map Row.userId := by
    rw [List.mem_map]
    rintro ⟨q,hq,h⟩
    exact hid q hq h
  have he : r.email ∉ t.rows.map Row.email := by
    rw [List.mem_map]
    rintro ⟨q,hq,h⟩
    exact hemail q hq h
  unfold insert
  rw [dif_neg hi,dif_neg he]
  exact ⟨_,rfl⟩

end Users

/-- What a statement does to the users table. -/
inductive Effect where
  | none
  | insert (row : Row)
  | setPassword (userId : Uuid) (password : PyStr)
  | delete (userId : Uuid)
  deriving DecidableEq

def Effect.rows : Effect → List Row → List Row
  | .none, rows => rows
  | .insert row, rows => rows ++ [row]
  | .setPassword i password, rows => rows.map (Users.setPasswordRow i password)
  | .delete i, rows => rows.filter (fun r => r.userId ≠ i)

namespace Effect

def inserted : Effect → List Row
  | .insert row => [row]
  | _ => []

def replaced : Effect → List Row → List Row
  | .setPassword i _, rows => rows.filter (fun r => r.userId = i)
  | _, _ => []

def removed : Effect → List Row → List Row
  | .delete i, rows => rows.filter (fun r => r.userId = i)
  | _, _ => []

/-- Rows selected by anything but their password: what comes in and what goes out balances. -/
theorem balance (p : Row → Bool) (hp : ∀ i password r, p (Users.setPasswordRow i password r) = p r) (e : Effect)
    (rows : List Row) :
    (e.rows rows).countP p + (e.removed rows).countP p = rows.countP p + e.inserted.countP p := by
  cases e with
  | none => rfl
  | insert row => simp [Effect.rows,removed,inserted]
  | setPassword i password => simp [Effect.rows,removed,inserted,List.countP_map,Function.comp_def,hp]
  | delete i =>
    have hsplit := List.countP_eq_countP_filter_add rows p (fun r => r.userId = i)
    simp only [Effect.rows,removed,inserted,List.countP_nil,ne_eq,decide_not] at hsplit ⊢
    omega

/-- The removed rows are those whose id the table no longer holds afterwards. -/
theorem filter_gone (e : Effect) (rows : List Row) :
    rows.filter (fun r => (e.rows rows).all (fun r' => r'.userId ≠ r.userId)) = e.removed rows := by
  have hstays {rows' : List Row} (h : ∀ r ∈ rows, ∃ r' ∈ rows', r'.userId = r.userId) :
      rows.filter (fun r => rows'.all (fun r' => r'.userId ≠ r.userId)) = [] := by
    rw [List.filter_eq_nil_iff]
    exact fun r hr => by simpa using h r hr
  cases e with
  | none => exact hstays (fun r hr => ⟨r,hr,rfl⟩)
  | insert row => exact hstays (fun r hr => ⟨r,List.mem_append_left _ hr,rfl⟩)
  | setPassword i password =>
    exact hstays (fun r hr => ⟨_,List.mem_map_of_mem hr,Users.setPasswordRow_userId i password r⟩)
  | delete i =>
    refine List.filter_congr (fun r hr => ?_)
    by_cases hi : r.userId = i
    · simp [Effect.rows,hi]
    · have hkept : r ∈ rows.filter (fun r => r.userId ≠ i) := List.mem_filter.mpr ⟨hr,decide_eq_true hi⟩
      rw [decide_eq_false hi,Effect.rows]
      exact List.all_eq_false.mpr ⟨r,hkept,by simp⟩

end Effect

variable (rt : Runtime)

/-- The row an INSERT of these values makes, with the texts as their columns keep them. -/
def newRow (c : Choice) (name email password : PyStr) : Row :=
  ⟨c.newId,name.take 100,email.take 255,password,some c.now,some (py "normal")⟩

def effect (c : Choice) : (op : DbOp) → op.Reply → Effect
  | .insertUser name email password, .ok _ => .insert (newRow c name email password)
  | .updatePassword password userId, .ok _ =>
    match rt.uuidParam userId with
    | some i => .setPassword i password
    | none => .none
  | .deleteUser userId, .ok _ =>
    match rt.uuidParam userId with
    | some i => .delete i
    | none => .none
  | _, _ => .none

theorem exec_ok_iff (c : Choice) (s : Store) (op : DbOp) (r : op.Result) :
    (exec rt c s op).1 = .ok r ↔ c.fault = none ∧ ∃ s', perform rt c s op = .ok (r,s') := by
  unfold exec
  cases c.fault with
  | some e => simp
  | none =>
    cases h : perform rt c s op with
    | error e => simp
    | ok p => obtain ⟨a,s'⟩ := p; simp

theorem exec_error_store {c : Choice} {s : Store} {op : DbOp} {e : PyError} (h : (exec rt c s op).1 = .error e) :
    (exec rt c s op).2 = s := by
  unfold exec at h ⊢
  cases hf : c.fault with
  | some e => rfl
  | none =>
    rw [hf] at h
    cases hp : perform rt c s op with
    | error e => rfl
    | ok p => simp [hp] at h

/-- A statement that only reads: its parameter is decoded, then the store is queried. -/
private theorem read_ok_iff {α β : Type} (x : Except PyError α) (f : α → β) (s : Store) (r : β) :
    (∃ s', (do let a ← x; return (f a,s) : Except PyError (β × Store)) = .ok (r,s')) ↔ ∃ a, x = .ok a ∧ r = f a := by
  cases x with
  | error e =>
    refine ⟨?_,?_⟩
    · rintro ⟨s',h⟩; cases h
    · rintro ⟨a,h,-⟩; cases h
  | ok a =>
    refine ⟨?_,?_⟩
    · rintro ⟨s',h⟩; cases h; exact ⟨a,rfl,rfl⟩
    · rintro ⟨b,h,rfl⟩; cases h; exact ⟨s,rfl⟩

theorem fetchEmailByEmail_ok_iff (c : Choice) (s : Store) (email : PyStr) (r : Option PyStr) :
    (exec rt c s (.fetchEmailByEmail email)).1 = .ok r ↔
      c.fault = none ∧ email.all Runtime.storable ∧ r = (s.users.findByEmail email).map Row.email := by
  rw [exec_ok_iff]
  exact and_congr_right fun _ => (read_ok_iff _ (fun _ => (s.users.findByEmail email).map Row.email) s r).trans (by simp)

theorem fetchByEmail_ok_iff (c : Choice) (s : Store) (email : PyStr) (r : Option Row) :
    (exec rt c s (.fetchByEmail email)).1 = .ok r ↔
      c.fault = none ∧ email.all Runtime.storable ∧ r = s.users.findByEmail email := by
  rw [exec_ok_iff]
  exact and_congr_right fun _ => (read_ok_iff _ (fun _ => s.users.findByEmail email) s r).trans (by simp)

theorem fetchById_ok_iff (c : Choice) (s : Store) (userId : PyStr) (r : Option Row) :
    (exec rt c s (.fetchById userId)).1 = .ok r ↔
      c.fault = none ∧ ∃ i, rt.uuidParam userId = some i ∧ r = s.users.findById i := by
  rw [exec_ok_iff]
  exact and_congr_right fun _ => (read_ok_iff _ (fun i => s.users.findById i) s r).trans (by simp)

theorem fetchEmailById_ok_iff (c : Choice) (s : Store) (userId : PyStr) (r : Option PyStr) :
    (exec rt c s (.fetchEmailById userId)).1 = .ok r ↔
      c.fault = none ∧ ∃ i, rt.uuidParam userId = some i ∧ r = (s.users.findById i).map Row.email := by
  rw [exec_ok_iff]
  exact and_congr_right fun _ => (read_ok_iff _ (fun i => (s.users.findById i).map Row.email) s r).trans (by simp)

private theorem except_bind_ok {ε α β : Type} {x : Except ε α} {f : α → Except ε β} {b : β}
    (h : (x >>= f) = .ok b) : ∃ a, x = .ok a ∧ f a = .ok b := by
  cases x with
  | error e => cases h
  | ok a => exact ⟨a,rfl,h⟩

/-- The values an INSERT is given fit the columns of the table. -/
structure Fits (name email password : PyStr) : Prop where
  name_storable : name.all Runtime.storable
  email_storable : email.all Runtime.storable
  password_storable : password.all Runtime.storable
  name_blank : (name.drop 100).all (fun c => c = 32)
  email_blank : (email.drop 255).all (fun c => c = 32)

namespace Fits
variable {name email password : PyStr} (h : Fits name email password)
include h

theorem email_length (hend : email.getLast? ≠ some 32) : email.length ≤ 255 := (drop_blank_iff hend 255).mp h.email_blank

theorem take_email (hend : email.getLast? ≠ some 32) : email.take 255 = email := List.take_of_length_le (h.email_length hend)

end Fits

theorem insertUser_ok_iff (c : Choice) (s s' : Store) (name email password : PyStr) (r : Uuid × Timestamp) :
    perform rt c s (.insertUser name email password) = .ok (r,s') ↔
      Fits name email password ∧ s.users.findById c.newId = none ∧ s.users.findByEmail (email.take 255) = none ∧
        r = (c.newId,c.now) ∧ s'.users.rows = s.users.rows ++ [newRow c name email password] ∧
        s'.testrecordsdetails2022 = s.testrecordsdetails2022 := by
  constructor
  · intro h
    obtain ⟨_,hn,h⟩ := except_bind_ok h
    obtain ⟨_,he,h⟩ := except_bind_ok h
    obtain ⟨_,hp,h⟩ := except_bind_ok h
    obtain ⟨_,hnl,h⟩ := except_bind_ok h
    obtain ⟨_,hel,h⟩ := except_bind_ok h
    obtain ⟨users,hu,h⟩ := except_bind_ok h
    cases h
    simp only [Runtime.text_eq_ok_iff,Runtime.varchar_eq_ok_iff] at hn he hp hnl hel
    obtain ⟨hnl,rfl⟩ := hnl
    obtain ⟨hel,rfl⟩ := hel
    obtain ⟨hid,hemail,hrows⟩ := (Users.insert_eq_ok_iff _ _ _ _).mp hu
    exact ⟨⟨hn,he,hp,hnl,hel⟩,hid,hemail,rfl,hrows,rfl⟩
  · rintro ⟨hf,hid,hemail,rfl,hrows,hrec⟩
    have hins : s.users.insert rt (newRow c name email password) = .ok s'.users :=
      (Users.insert_eq_ok_iff _ _ _ _).mpr ⟨hid,hemail,hrows⟩
    have htn := (rt.text_eq_ok_iff name ()).mpr hf.name_storable
    have hte := (rt.text_eq_ok_iff email ()).mpr hf.email_storable
    have htp := (rt.text_eq_ok_iff password ()).mpr hf.password_storable
    have hvn := (rt.varchar_eq_ok_iff 100 name _).mpr ⟨hf.name_blank,rfl⟩
    have hve := (rt.varchar_eq_ok_iff 255 email _).mpr ⟨hf.email_blank,rfl⟩
    simp only [perform,htn,hte,htp,hvn,hve]
    change (s.users.insert rt (newRow c name email password) >>= _) = _
    rw [hins]
    obtain ⟨users,records⟩ := s'
    simp only at hrec
    subst hrec
    rfl

/-- An INSERT of fitting values under a free id and a free email goes through. -/
theorem insertUser_inserts {c : Choice} {s : Store} {name email password : PyStr} (hf : Fits name email password)
    (hfault : c.fault = none) (hid : s.users.findById c.newId = none)
    (hemail : s.users.findByEmail (email.take 255) = none) :
    (exec rt c s (.insertUser name email password)).1 = .ok (c.newId,c.now) := by
  obtain ⟨users,hu⟩ := Users.exists_insert rt (newRow c name email password) hid hemail
  have hrows := ((Users.insert_eq_ok_iff _ _ _ _).mp hu).2.2
  exact (exec_ok_iff rt _ _ _ _).mpr ⟨hfault,{ s with users := users },
    (insertUser_ok_iff rt _ _ _ _ _ _ _).mpr ⟨hf,hid,hemail,rfl,hrows,rfl⟩⟩

theorem exec_error_of_healthy {c : Choice} {s : Store} {op : DbOp} {e : PyError} (hf : c.fault = none)
    (h : (exec rt c s op).1 = .error e) : perform rt c s op = .error e := by
  unfold exec at h
  rw [hf] at h
  cases hp : perform rt c s op with
  | error e' =>
    rw [hp] at h
    rw [Except.error.inj h]
  | ok p => rw [hp] at h; cases h

private theorem except_bind_error {ε α β : Type} {x : Except ε α} {f : α → Except ε β} {e : ε}
    (h : (x >>= f) = .error e) : x = .error e ∨ ∃ a, x = .ok a ∧ f a = .error e := by
  cases x with
  | error e' => exact .inl (congrArg Except.error (Except.error.inj h))
  | ok a => exact .inr ⟨a,rfl,h⟩

theorem fetchEmailByEmail_error {c : Choice} {s : Store} {email : PyStr} {e : PyError} (hf : c.fault = none)
    (h : (exec rt c s (.fetchEmailByEmail email)).1 = .error e) :
    e.kind = .dataError ∧ ¬ email.all Runtime.storable := by
  rcases except_bind_error (exec_error_of_healthy rt hf h) with ht | ⟨_,_,h⟩
  · exact rt.text_error ht
  · cases h

/-- An INSERT on a healthy connection is refused for its values, or else for a taken key. -/
theorem insertUser_error {c : Choice} {s : Store} {name email password : PyStr} {e : PyError} (hf : c.fault = none)
    (h : (exec rt c s (.insertUser name email password)).1 = .error e) :
    (e.kind = .dataError ∧ ¬ Fits name email password) ∨ (e.kind = .uniqueViolationError ∧
      Fits name email password ∧ (s.users.findById c.newId ≠ none ∨ s.users.findByEmail (email.take 255) ≠ none)) := by
  have hp := exec_error_of_healthy rt hf h
  rcases except_bind_error hp with ht | ⟨_,hn,hp⟩
  · exact .inl ⟨(rt.text_error ht).1,fun hfit => (rt.text_error ht).2 hfit.name_storable⟩
  rcases except_bind_error hp with ht | ⟨_,he,hp⟩
  · exact .inl ⟨(rt.text_error ht).1,fun hfit => (rt.text_error ht).2 hfit.email_storable⟩
  rcases except_bind_error hp with ht | ⟨_,hpw,hp⟩
  · exact .inl ⟨(rt.text_error ht).1,fun hfit => (rt.text_error ht).2 hfit.password_storable⟩
  rcases except_bind_error hp with ht | ⟨_,hnl,hp⟩
  · exact .inl ⟨(rt.varchar_error ht).1,fun hfit => (rt.varchar_error ht).2 hfit.name_blank⟩
  rcases except_bind_error hp with ht | ⟨_,hel,hp⟩
  · exact .inl ⟨(rt.varchar_error ht).1,fun hfit => (rt.varchar_error ht).2 hfit.email_blank⟩
  rcases except_bind_error hp with hins | ⟨_,_,hp⟩
  · simp only [Runtime.text_eq_ok_iff,Runtime.varchar_eq_ok_iff] at hn he hpw hnl hel
    have hfit : Fits name email password := ⟨hn,he,hpw,hnl.1,hel.1⟩
    refine .inr ⟨Users.insert_error_kind hins,hfit,?_⟩
    by_contra hfree
    rw [not_or,not_not,not_not] at hfree
    rw [insertUser_inserts rt hfit hf hfree.1 hfree.2] at h
    cases h
  · cases hp

theorem updatePassword_ok_iff (c : Choice) (s s' : Store) (password userId : PyStr) (n : Nat) :
    perform rt c s (.updatePassword password userId) = .ok (n,s') ↔
      password.all Runtime.storable ∧ ∃ i, rt.uuidParam userId = some i ∧
        n = s.users.rows.countP (fun r => r.userId = i) ∧ s' = { s with users := s.users.setPassword i password } := by
  constructor
  · intro h
    obtain ⟨_,ht,h⟩ := except_bind_ok h
    obtain ⟨i,hi,h⟩ := except_bind_ok h
    cases h
    exact ⟨by simpa using ht,i,by simpa using hi,rfl,rfl⟩
  · rintro ⟨ht,i,hi,rfl,rfl⟩
    simp only [perform,(rt.text_eq_ok_iff password ()).mpr ht,(rt.uuid_eq_ok_iff userId i).mpr hi]
    rfl

theorem deleteUser_ok_iff (c : Choice) (s s' : Store) (userId : PyStr) (n : Nat) :
    perform rt c s (.deleteUser userId) = .ok (n,s') ↔
      ∃ i, rt.uuidParam userId = some i ∧
        n = s.users.rows.countP (fun r => r.userId = i) ∧ s' = { s with users := s.users.delete i } := by
  constructor
  · intro h
    obtain ⟨i,hi,h⟩ := except_bind_ok h
    cases h
    exact ⟨i,by simpa using hi,rfl,rfl⟩
  · rintro ⟨i,hi,rfl,rfl⟩
    simp only [perform,(rt.uuid_eq_ok_iff userId i).mpr hi]
    rfl

theorem exec_of_perform {c : Choice} {s s' : Store} {op : DbOp} {r : op.Result} (hf : c.fault = none)
    (hp : perform rt c s op = .ok (r,s')) : exec rt c s op = (.ok r,s') := by
  simp [exec,hf,hp]

/-! Replies on a healthy connection. -/
section Healthy
variable {c : Choice} (hf : c.fault = none) (s : Store) {userId : PyStr}
include hf

theorem acquire_healthy : exec rt c s .acquire = (.ok (),s) := exec_of_perform rt hf rfl

theorem fetchUsers_healthy : exec rt c s .fetchUsers = (.ok s.users.listing,s) := exec_of_perform rt hf rfl

theorem fetchAccuracy_healthy :
    exec rt c s .fetchAccuracy = (.ok (accuracyQuery rt.collate s.testrecordsdetails2022),s) := exec_of_perform rt hf rfl

theorem fetchById_healthy (userId : PyStr) :
    (exec rt c s (.fetchById userId)).1 = (rt.uuid userId).map s.users.findById := by
  cases h : rt.uuid userId <;> simp [exec,hf,perform,h,bind,Except.bind,Except.map,pure,Except.pure]

theorem fetchEmailById_healthy (userId : PyStr) :
    (exec rt c s (.fetchEmailById userId)).1 = (rt.uuid userId).map (fun i => (s.users.findById i).map Row.email) := by
  cases h : rt.uuid userId <;> simp [exec,hf,perform,h,bind,Except.bind,Except.map,pure,Except.pure]

theorem deleteUser_healthy {i : Uuid} (hi : rt.uuidParam userId = some i) :
    ∃ n, (exec rt c s (.deleteUser userId)).1 = .ok n :=
  ⟨_,(exec_ok_iff rt _ _ _ _).mpr ⟨hf,_,(deleteUser_ok_iff rt _ _ _ _ _).mpr ⟨i,hi,rfl,rfl⟩⟩⟩

theorem updatePassword_healthy {password : PyStr} {i : Uuid} (hp : password.all Runtime.storable)
    (hi : rt.uuidParam userId = some i) : ∃ n, (exec rt c s (.updatePassword password userId)).1 = .ok n :=
  ⟨_,(exec_ok_iff rt _ _ _ _).mpr ⟨hf,_,(updatePassword_ok_iff rt _ _ _ _ _ _).mpr ⟨hp,i,hi,rfl,rfl⟩⟩⟩

end Healthy

/-- The table after a statement is its effect applied to the table before it. -/
theorem exec_rows (c : Choice) (s : Store) (op : DbOp) :
    (exec rt c s op).2.users.rows = (effect rt c op (exec rt c s op).1).rows s.users.rows := by
  cases hr : (exec rt c s op).1 with
  | error e =>
    rw [exec_error_store rt hr]
    cases op <;> rfl
  | ok r =>
    obtain ⟨hf,s',hp⟩ := (exec_ok_iff rt c s op r).mp hr
    rw [exec_of_perform rt hf hp]
    cases op with
    | acquire | fetchUsers | fetchAccuracy => cases hp; rfl
    | fetchEmailByEmail email | fetchByEmail email =>
      obtain ⟨_,_,h⟩ := except_bind_ok hp
      cases h
      rfl
    | fetchById userId | fetchEmailById userId =>
      obtain ⟨_,_,h⟩ := except_bind_ok hp
      cases h
      rfl
    | insertUser name email password => exact ((insertUser_ok_iff rt c s s' name email password r).mp hp).2.2.2.2.1
    | updatePassword password userId =>
      obtain ⟨_,i,hi,_,rfl⟩ := (updatePassword_ok_iff rt c s s' password userId r).mp hp
      simp only [effect,hi]
      rfl
    | deleteUser userId =>
      obtain ⟨i,hi,_,rfl⟩ := (deleteUser_ok_iff rt c s s' userId r).mp hp
      simp only [effect,hi]
      rfl

theorem exec_testrecords (c : Choice) (s : Store) (op : DbOp) :
    (exec rt c s op).2.testrecordsdetails2022 = s.testrecordsdetails2022 := by
  cases hr : (exec rt c s op).1 with
  | error e => rw [exec_error_store rt hr]
  | ok r =>
    obtain ⟨hf,s',hp⟩ := (exec_ok_iff rt c s op r).mp hr
    rw [exec_of_perform rt hf hp]
    cases op with
    | acquire | fetchUsers | fetchAccuracy => cases hp; rfl
    | fetchEmailByEmail email | fetchByEmail email =>
      obtain ⟨_,_,h⟩ := except_bind_ok hp
      cases h
      rfl
    | fetchById userId | fetchEmailById userId =>
      obtain ⟨_,_,h⟩ := except_bind_ok hp
      cases h
      rfl
    | insertUser name email password => exact ((insertUser_ok_iff rt c s s' name email password r).mp hp).2.2.2.2.2
    | updatePassword password userId =>
      obtain ⟨_,i,hi,_,rfl⟩ := (updatePassword_ok_iff rt c s s' password userId r).mp hp
      rfl
    | deleteUser userId =>
      obtain ⟨i,hi,_,rfl⟩ := (deleteUser_ok_iff rt c s s' userId r).mp hp
      rfl

theorem exec_store_of_none {c : Choice} {s : Store} {op : DbOp} (h : effect rt c op (exec rt c s op).1 = .none) :
    (exec rt c s op).2 = s := by
  have hrows := exec_rows rt c s op
  rw [h] at hrows
  exact Store.ext (Users.ext hrows) (exec_testrecords rt c s op)

@[simp] theorem exec_acquire_store (c : Choice) (s : Store) : (exec rt c s .acquire).2 = s :=
  exec_store_of_none rt rfl
@[simp] theorem exec_fetchEmailByEmail_store (c : Choice) (s : Store) (email : PyStr) :
    (exec rt c s (.fetchEmailByEmail email)).2 = s := exec_store_of_none rt rfl
@[simp] theorem exec_fetchByEmail_store (c : Choice) (s : Store) (email : PyStr) :
    (exec rt c s (.fetchByEmail email)).2 = s := exec_store_of_none rt rfl
@[simp] theorem exec_fetchById_store (c : Choice) (s : Store) (userId : PyStr) :
    (exec rt c s (.fetchById userId)).2 = s := exec_store_of_none rt rfl
@[simp] theorem exec_fetchEmailById_store (c : Choice) (s : Store) (userId : PyStr) :
    (exec rt c s (.fetchEmailById userId)).2 = s := exec_store_of_none rt rfl
@[simp] theorem exec_fetchUsers_store (c : Choice) (s : Store) : (exec rt c s .fetchUsers).2 = s :=
  exec_store_of_none rt rfl
@[simp] theorem exec_fetchAccuracy_store (c : Choice) (s : Store) : (exec rt c s .fetchAccuracy).2 = s :=
  exec_store_of_none rt rfl

/-- Only an INSERT that succeeded inserts, and then the id and the email were free. -/
theorem effect_insert {c : Choice} {s : Store} {op : DbOp} {row : Row}
    (h : effect rt c op (exec rt c s op).1 = .insert row) :
    ∃ name email password, op = .insertUser name email password ∧ row = newRow c name email password ∧
      Fits name email password ∧ s.users.findById row.userId = none ∧ s.users.findByEmail row.email = none := by
  cases hr : (exec rt c s op).1 with
  | error e => rw [hr] at h; cases op <;> cases h
  | ok r =>
    rw [hr] at h
    cases op with
    | insertUser name email password =>
      cases h
      obtain ⟨_,s',hp⟩ := (exec_ok_iff rt c s _ r).mp hr
      obtain ⟨hfits,hid,hemail,_⟩ := (insertUser_ok_iff rt c s s' name email password r).mp hp
      exact ⟨name,email,password,rfl,rfl,hfits,hid,hemail⟩
    | updatePassword password userId =>
      simp only [effect] at h
      split at h <;> cases h
    | deleteUser userId =>
      simp only [effect] at h
      split at h <;> cases h
    | _ => cases h

theorem effect_setPassword {c : Choice} {op : DbOp} {r : op.Reply} {i : Uuid} {password : PyStr}
    (h : effect rt c op r = .setPassword i password) :
    ∃ userId, op = .updatePassword password userId ∧ rt.uuidParam userId = some i := by
  cases r with
  | error e => cases op <;> cases h
  | ok r =>
    cases op with
    | updatePassword p userId =>
      simp only [effect] at h
      split at h
      · cases h; exact ⟨userId,rfl,‹_›⟩
      · cases h
    | deleteUser userId =>
      simp only [effect] at h
      split at h <;> cases h
    | _ => cases h

theorem effect_delete {c : Choice} {op : DbOp} {r : op.Reply} {i : Uuid} (h : effect rt c op r = .delete i) :
    ∃ userId, op = .deleteUser userId ∧ rt.uuidParam userId = some i := by
  cases r with
  | error e => cases op <;> cases h
  | ok r =>
    cases op with
    | deleteUser userId =>
      simp only [effect] at h
      split at h
      · cases h; exact ⟨userId,rfl,‹_›⟩
      · cases h
    | updatePassword p userId =>
      simp only [effect] at h
      split at h <;> cases h
    | _ => cases h

/-- Frame rule: a row stays as it is unless a statement names its id. -/
theorem findById_frame {c : Choice} {s : Store} {op : DbOp} {i : Uuid} {row : Row}
    (hrow : s.users.findById i = some row)
    (hset : ∀ password, effect rt c op (exec rt c s op).1 ≠ .setPassword i password)
    (hdel : effect rt c op (exec rt c s op).1 ≠ .delete i) :
    (exec rt c s op).2.users.findById i = some row := by
  obtain ⟨hmem,rfl⟩ := (Users.findById_eq_some_iff _ _ _).mp hrow
  rw [Users.findById_eq_some_iff]
  refine ⟨?_,rfl⟩
  rw [exec_rows]
  cases he : effect rt c op (exec rt c s op).1 with
  | none => exact hmem
  | insert r => exact List.mem_append_left _ hmem
  | setPassword j password =>
    have hne : row.userId ≠ j := fun hj => hset password (hj ▸ he)
    exact List.mem_map.mpr ⟨row,hmem,by simp [Users.setPasswordRow,hne]⟩
  | delete j =>
    have hne : row.userId ≠ j := fun hj => hdel (hj ▸ he)
    exact List.mem_filter.mpr ⟨hmem,by simpa using hne⟩

/-- A row stays, if perhaps with another password, unless a DELETE names its id. -/
theorem findById_kept {c : Choice} {s : Store} {op : DbOp} {i : Uuid} {row : Row}
    (hrow : s.users.findById i = some row) (hdel : effect rt c op (exec rt c s op).1 ≠ .delete i) :
    ∃ row', (exec rt c s op).2.users.findById i = some row' := by
  by_cases hset : ∃ password, effect rt c op (exec rt c s op).1 = .setPassword i password
  · obtain ⟨password,he⟩ := hset
    obtain ⟨hmem,rfl⟩ := (Users.findById_eq_some_iff _ _ _).mp hrow
    refine ⟨Users.setPasswordRow row.userId password row,(Users.findById_eq_some_iff _ _ _).mpr ⟨?_,by simp⟩⟩
    rw [exec_rows,he]
    exact List.mem_map_of_mem hmem
  · exact ⟨row,findById_frame rt hrow (fun password he => hset ⟨password,he⟩) hdel⟩

end Thintuit.Server
