import Thintuit.Client.Network
import Thintuit.Server.Accounts
import Thintuit.Server.Identity

/-! `api-test.html`. Each of its buttons tries four URLs of the same endpoint in turn, until one
of them is answered with success; a registration is sent again although the server may
have carried it out already. -/
namespace Thintuit.Client.ApiTest
open Server

/-- What happens at one URL: the requests served since the last attempt, and what becomes of this one. -/
structure Attempt where
  others : List Turn
  delivery : Delivery

structure Report where
  successUrl : Option PyStr
  responseData : Option Json

/-- `await response.json()`, unless it throws. -/
def json (resp : Response) : Option Json :=
  match resp.content with
  | .json value => some value
  | _ => none

/-- The JSON of a success answer that has come back. -/
def accepted : Option Response → Option Json
  | none => none
  | some resp => if resp.success then json resp else none

section Loop
variable (rt : Runtime) (request : Request) (fate : PyStr → Attempt)

/-- The store an attempt meets. -/
def met (url : PyStr) (s : Store) : Store := Pool.after rt s (fate url).others

def delivered (x : PyStr × Store) : Option Response × Store := (fate x.1).delivery.sendOver request x.2 (Pool.run rt)

def sent (url : PyStr) (s : Store) : Option Response × Store := delivered rt request fate (url,met rt fate url s)

/-- The loop over the URLs. The buttons for registration and login read the JSON of every answer
(`readsFirst`), the one for the root only that of a success. -/
def tryUrls (readsFirst : Bool) : List PyStr → Option Json → Store → Report × Store
  | [], responseData, s => (⟨none,responseData⟩,s)
  | url :: urls, responseData, s =>
    match (sent rt request fate url s).1 with
    -- `fetch` throws, and the `catch` only logs
    | none => tryUrls readsFirst urls responseData (sent rt request fate url s).2
    | some response =>
      match json response with
      | none => tryUrls readsFirst urls responseData (sent rt request fate url s).2
      | some data =>
        if response.success then (⟨some url,some data⟩,(sent rt request fate url s).2)
        else tryUrls readsFirst urls (if readsFirst then some data else responseData) (sent rt request fate url s).2

/-- The URLs that are tried, with the stores the request meets there. -/
def attempts : List PyStr → Store → List (PyStr × Store)
  | [], _ => []
  | url :: urls, s =>
    (url,met rt fate url s) ::
      if (accepted (sent rt request fate url s).1).isSome then [] else attempts urls (sent rt request fate url s).2

/-- The attempt has added to the users. -/
def adds (x : PyStr × Store) : Bool := x.2.users.rows.length < (delivered rt request fate x).2.users.rows.length

/-- The page has not learned what the attempt did: its answer got lost, or the server has answered
with an error because it could not give the connection back. -/
def Unseen (x : PyStr × Store) : Prop :=
  (fate x.1).delivery.returned = false ∨
    ∃ e, Pool.Raised rt () (Pool.log rt ((fate x.1).delivery.turn request) x.2) e

end Loop

def urls (path : String) : List PyStr :=
  [py ("https://dev.thintuit.com" ++ path),py ("http://dev.thintuit.com" ++ path),
    py ("https://dev.thintuit.com:41285" ++ path),py ("http://localhost:41285" ++ path)]

/-- The email the page makes up, with `Math.floor(Math.random() * 10000)`. -/
def randomEmail (n : Fin 10000) : PyStr := py ("test_" ++ toString n.val ++ "@example.com")

def registerRequest (name password : PyStr) (n : Fin 10000) : Request :=
  postJson "/register" ⟨[],[]⟩ [(py "name",name),(py "email",randomEmail n),(py "password",password)]

def testRoot (rt : Runtime) (fate : PyStr → Attempt) (s : Store) : Report × Store :=
  tryUrls rt (bare .get "/" ⟨[],[]⟩) fate false (urls "/") none s

def testRegister (rt : Runtime) (name password : PyStr) (n : Fin 10000) (fate : PyStr → Attempt) (s : Store) : Report × Store :=
  tryUrls rt (registerRequest name password n) fate true (urls "/register") none s

def testLogin (rt : Runtime) (email password : PyStr) (fate : PyStr → Attempt) (s : Store) : Report × Store :=
  tryUrls rt (postJson "/login" ⟨[],[]⟩ [(py "email",email),(py "password",password)]) fate true (urls "/login") none s

section Runs
variable {rt : Runtime} {request : Request} {fate : PyStr → Attempt} {readsFirst : Bool}

/-- The loop ends with the first answer that is accepted. -/
theorem tryUrls_cons (url : PyStr) (urls : List PyStr) (data : Option Json) (s : Store) :
    ∃ data', tryUrls rt request fate readsFirst (url :: urls) data s =
      match accepted (sent rt request fate url s).1 with
      | some value => (⟨some url,some value⟩,(sent rt request fate url s).2)
      | none => tryUrls rt request fate readsFirst urls data' (sent rt request fate url s).2 := by
  rw [tryUrls]
  cases (sent rt request fate url s).1 with
  | none => exact ⟨data,rfl⟩
  | some response =>
    dsimp only
    rw [accepted]
    cases hjson : json response with
    | none => exact ⟨data,by simp⟩
    | some value =>
      cases hs : response.success with
      | true => exact ⟨data,rfl⟩
      | false => exact ⟨_,rfl⟩

/-- An answer that was accepted is the server's. -/
theorem accepted_delivered {x : PyStr × Store} {value : Json} (h : accepted (delivered rt request fate x).1 = some value) :
    ∃ turn : Turn, turn.call.request = request ∧ Pool.run rt turn x.2 = ((Pool.run rt turn x.2).1,(delivered rt request fate x).2) ∧
      (Pool.run rt turn x.2).1.success = true ∧ json (Pool.run rt turn x.2).1 = some value := by
  cases hresp : (delivered rt request fate x).1 with
  | none =>
    rw [hresp] at h
    cases h
  | some resp =>
    rw [hresp,accepted] at h
    obtain ⟨-,-,hrun⟩ := Delivery.sendOver_eq_some hresp
    split at h
    · rename_i hs
      refine ⟨(fate x.1).delivery.turn request,rfl,?_⟩
      rw [hrun]
      exact ⟨rfl,hs,h⟩
    · cases h

section Email
variable (email : PyStr)

/-- Some account has the email. -/
def known (s : Store) : Bool := s.users.rows.any (fun row => row.email = email)

/-- The requests that ask for a deletion. -/
def deletions (turns : List Turn) : Nat := turns.countP (fun turn => turn.call.request.deletes.isSome)

variable {email}

theorem known_iff (s : Store) : known email s = true ↔ ∃ row ∈ s.users.rows, row.email = email := by
  simp [known]

/-- Only a deletion can make an email unknown again. -/
theorem known_run {turn : Turn} (hdel : turn.call.request.deletes = none) {s : Store} (h : known email s = true) :
    known email (Pool.run rt turn s).2 = true := by
  obtain ⟨row,hmem,rfl⟩ := (known_iff s).mp h
  have hrow := (Users.findById_eq_some_iff _ _ _).mpr ⟨hmem,rfl⟩
  have hplain : ∀ plain : Turn, plain.call = turn.call → known row.email (plain.run rt s).2 = true := by
    intro plain hcall
    have hkept : deletedId rt row.userId (plain.call.request,(plain.run rt s).1) = false := by simp [deletedId,hcall,hdel]
    obtain ⟨password,hrow'⟩ := turn_keeps rfl hrow hkept
    exact (known_iff _).mpr ⟨_,((Users.findById_eq_some_iff _ _ _).mp hrow').1,rfl⟩
  rcases Pool.run_cases turn s with ⟨plain,hcall,hrun⟩ | ⟨e,-,-,hsame | ⟨plain,hcall,hstore⟩⟩
  · rw [← hrun]
    exact hplain plain hcall
  · rwa [hsame]
  · rw [← hstore]
    exact hplain plain hcall

theorem known_after (turns : List Turn) (s : Store) :
    (known email s).toNat ≤ (known email (Pool.after rt s turns)).toNat + deletions turns := by
  induction turns generalizing s with
  | nil => exact Nat.le_add_right _ _
  | cons turn turns ih =>
    have hrest := ih (Pool.run rt turn s).2
    rw [Pool.after_cons,deletions,List.countP_cons,← deletions]
    cases hdel : turn.call.request.deletes with
    | some userId =>
      have hle := Bool.toNat_le (known email s)
      simp only [Option.isSome_some,if_true]
      omega
    | none =>
      have hstep : (known email s).toNat ≤ (known email (Pool.run rt turn s).2).toNat := by
        cases hs : known email s with
        | false => exact Nat.zero_le _
        | true => rw [known_run hdel hs]
      simp only [Option.isSome_none,Bool.false_eq_true,if_false]
      omega

end Email

/-! What a registration does to the table. -/

/-- A row with the email of the request, which no account had, has come to the users. -/
structure Registered (rt : Runtime) (request : Request) (s s' : Store) (user : UserCreate) (row : Row) : Prop where
  registers : request.registers rt = some user
  free : s.users.findByEmail user.email = none
  rows : s'.users.rows = s.users.rows ++ [row]
  email : row.email = user.email
  name : row.name = user.name.take 100

private theorem plain_success {turn : Turn} (hend : turn.call.request.endpoint = some .registerUser) {s : Store}
    (hs : (turn.run rt s).1.success = true) :
    (turn.run rt s).1 = registered rt turn.call.newId ∧
      ∃ user row, Registered rt turn.call.request s (turn.run rt s).2 user row ∧ row.userId = turn.call.newId := by
  have hrun : turn.run rt s = ((turn.run rt s).1,(turn.run rt s).2) := rfl
  obtain ⟨es,hpath,-,-⟩ := run_trace hrun
  obtain ⟨user,hu⟩ := registers_of_success hend hpath hs
  obtain ⟨h,k,-,hresp,hfits,-,hemail,hrows,-⟩ := run_registerUser hrun hu hs
  exact ⟨hresp,user,_,⟨hu,hemail,hrows,hfits.take_email (registers_email_end hu),rfl⟩,rfl⟩

/-- A success answer gives the id of the account that has been added. -/
theorem registration_success {turn : Turn} (hend : turn.call.request.endpoint = some .registerUser) {s : Store}
    (hs : (Pool.run rt turn s).1.success = true) :
    (Pool.run rt turn s).1 = registered rt turn.call.newId ∧
      ∃ user row, Registered rt turn.call.request s (Pool.run rt turn s).2 user row ∧ row.userId = turn.call.newId := by
  rcases Pool.run_cases turn s with ⟨plain,hcall,hrun⟩ | ⟨e,-,hfail,-⟩
  · rw [← hrun] at hs ⊢
    rw [← hcall] at hend ⊢
    exact plain_success hend hs
  · rw [hfail,Pool.releaseError_success] at hs
    cases hs

private theorem plain_effect {plain : Turn} (hend : plain.call.request.endpoint = some .registerUser) (s : Store) :
    (plain.run rt s).2 = s ∨ ∃ user row, Registered rt plain.call.request s (plain.run rt s).2 user row := by
  cases hs : (plain.run rt s).1.success with
  | false => exact .inl (run_failure (rfl : plain.run rt s = (_,_)) hs)
  | true =>
    obtain ⟨-,user,row,h,-⟩ := plain_success hend hs
    exact .inr ⟨user,row,h⟩

variable (rt) in
/-- A registration leaves the users alone or adds the account, and then says so unless giving the
connection back raises. -/
theorem registration_effect {turn : Turn} (hend : turn.call.request.endpoint = some .registerUser) (s : Store) :
    (Pool.run rt turn s).2 = s ∨ (∃ user row, Registered rt turn.call.request s (Pool.run rt turn s).2 user row) ∧
      ((Pool.run rt turn s).1 = registered rt turn.call.newId ∨ ∃ e, Pool.Raised rt () (Pool.log rt turn s) e) := by
  rcases Pool.run_cases turn s with ⟨plain,hcall,hrun⟩ | ⟨e,hraised,-,hsame | ⟨plain,hcall,hstore⟩⟩
  · cases hs : (Pool.run rt turn s).1.success with
    | false => exact .inl (run_failure hrun hs)
    | true =>
      obtain ⟨hresp,user,row,h,-⟩ := registration_success hend hs
      exact .inr ⟨⟨user,row,h⟩,.inl hresp⟩
  · exact .inl hsame
  · rw [← hstore]
    rw [← hcall] at hend ⊢
    exact (plain_effect hend s).imp id (fun h => ⟨h,.inr ⟨e,hraised⟩⟩)

section Registration
variable (hend : request.endpoint = some .registerUser)
include hend

theorem delivered_effect (rt : Runtime) (fate : PyStr → Attempt) (x : PyStr × Store) :
    (delivered rt request fate x).2 = x.2 ∨
    (∃ user row, Registered rt request x.2 (delivered rt request fate x).2 user row) ∧
      ((accepted (delivered rt request fate x).1).isSome = true ∨ Unseen rt request fate x) := by
  unfold delivered Delivery.sendOver
  split
  · dsimp only
    have hturn : ((fate x.1).delivery.turn request).call.request.endpoint = some .registerUser := hend
    rcases registration_effect rt hturn x.2 with hsame | ⟨⟨user,row,h⟩,hanswer⟩
    · exact .inl hsame
    · refine .inr ⟨⟨user,row,h⟩,?_⟩
      rcases hanswer with hanswer | hraised
      · cases hreturned : (fate x.1).delivery.returned with
        | false => exact .inr (.inl hreturned)
        | true =>
          rw [if_pos rfl,hanswer]
          exact .inl rfl
      · exact .inr (.inr hraised)
  · exact .inl rfl

theorem adds_iff (x : PyStr × Store) : adds rt request fate x = true ↔
    ∃ user row, Registered rt request x.2 (delivered rt request fate x).2 user row := by
  rw [adds,decide_eq_true_iff]
  constructor
  · intro hlt
    rcases delivered_effect hend rt fate x with hsame | ⟨h,-⟩
    · rw [hsame] at hlt
      exact absurd hlt (Nat.lt_irrefl _)
    · exact h
  · rintro ⟨user,row,h⟩
    rw [h.rows,List.length_append]
    exact Nat.lt_add_one _

theorem unseen_of_adds {x : PyStr × Store} (hacc : accepted (delivered rt request fate x).1 = none)
    (hadds : adds rt request fate x = true) : Unseen rt request fate x := by
  rcases delivered_effect hend rt fate x with hsame | ⟨-,haccepted | hunseen⟩
  · simp [adds,hsame] at hadds
  · rw [hacc] at haccepted
    cases haccepted
  · exact hunseen

/-- After a report of failure, every attempt that has added the account is one the page knows nothing of. -/
theorem tryUrls_failure {urls : List PyStr} {data : Option Json} {s : Store}
    (h : (tryUrls rt request fate readsFirst urls data s).1.successUrl = none) {x : PyStr × Store}
    (hx : x ∈ attempts rt request fate urls s) (hadds : adds rt request fate x = true) : Unseen rt request fate x := by
  induction urls generalizing data s with
  | nil => cases hx
  | cons url urls ih =>
    obtain ⟨data',hcons⟩ := tryUrls_cons url urls data s
    rw [hcons] at h
    rw [attempts] at hx
    cases hacc : accepted (sent rt request fate url s).1 with
    | some value =>
      rw [hacc] at h
      cases h
    | none =>
      rw [hacc] at h hx
      rcases List.mem_cons.mp hx with rfl | hx
      · exact unseen_of_adds hend hacc hadds
      · exact ih h hx

/-- A report of success is about the last attempt and shows the server's answer, and every attempt
before it that has added the account is one the page knows nothing of. -/
theorem tryUrls_success {urls : List PyStr} {data : Option Json} {s : Store} {url : PyStr}
    (h : (tryUrls rt request fate readsFirst urls data s).1.successUrl = some url) :
    ∃ earlier t, ∃ turn : Turn, attempts rt request fate urls s = earlier ++ [(url,t)] ∧ turn.call.request = request ∧
      (Pool.run rt turn t).2 = (tryUrls rt request fate readsFirst urls data s).2 ∧ (Pool.run rt turn t).1.success = true ∧
      (tryUrls rt request fate readsFirst urls data s).1.responseData = json (Pool.run rt turn t).1 ∧
      ∀ x ∈ earlier, adds rt request fate x = true → Unseen rt request fate x := by
  induction urls generalizing data s with
  | nil => cases h
  | cons url' urls ih =>
    obtain ⟨data',hcons⟩ := tryUrls_cons url' urls data s
    rw [hcons] at h ⊢
    rw [attempts]
    cases hacc : accepted (sent rt request fate url' s).1 with
    | some value =>
      rw [hacc] at h
      obtain rfl := Option.some.inj h
      obtain ⟨turn,hrequest,hrun,hs,hjson⟩ := accepted_delivered hacc
      exact ⟨[],_,turn,by simp,hrequest,congrArg Prod.snd hrun,hs,hjson.symm,by simp⟩
    | none =>
      rw [hacc] at h
      obtain ⟨earlier,t,turn,hattempts,hrequest,hrun,hs,hdata,hearlier⟩ := ih h
      refine ⟨(url',met rt fate url' s) :: earlier,t,turn,?_,hrequest,hrun,hs,hdata,?_⟩
      · rw [Option.isSome_none,if_neg (by simp),hattempts,List.cons_append]
      · intro x hx hadds
        rcases List.mem_cons.mp hx with rfl | hx
        · exact unseen_of_adds hend hacc hadds
        · exact hearlier x hx hadds

/-- An attempt adds the account only for an email that is not known, and makes it known. -/
theorem known_delivered {user : UserCreate} (hu : request.registers rt = some user) (x : PyStr × Store) :
    (adds rt request fate x).toNat + (known user.email x.2).toNat ≤
      (known user.email (delivered rt request fate x).2).toNat := by
  rcases delivered_effect hend rt fate x with hsame | ⟨⟨user',row,h⟩,-⟩
  · simp [adds,hsame]
  · obtain rfl : user = user' := Option.some.inj (hu.symm.trans h.registers)
    have hfree : known user.email x.2 = false := by
      rw [Bool.eq_false_iff]
      intro hknown
      obtain ⟨row,hmem,he⟩ := (known_iff x.2).mp hknown
      exact (Users.findByEmail_eq_none_iff _ _).mp h.free row hmem he
    have hnew : known user.email (delivered rt request fate x).2 = true := by
      refine (known_iff _).mpr ⟨row,?_,h.email⟩
      rw [h.rows]
      exact List.mem_append_right _ List.mem_cons_self
    rw [hfree,hnew]
    exact Bool.toNat_le _

/-- The account is added at most once, and once more for every deletion asked for in between. -/
theorem attempts_count {user : UserCreate} (hu : request.registers rt = some user) (urls : List PyStr) (s : Store) :
    (attempts rt request fate urls s).countP (adds rt request fate) + (known user.email s).toNat ≤
      1 + deletions (urls.flatMap (fun url => (fate url).others)) := by
  induction urls generalizing s with
  | nil =>
    have hle := Bool.toNat_le (known user.email s)
    simp only [attempts,List.countP_nil]
    omega
  | cons url urls ih =>
    have hothers : (known user.email s).toNat ≤ (known user.email (met rt fate url s)).toNat + deletions (fate url).others :=
      known_after _ _
    have hhere : (adds rt request fate (url,met rt fate url s)).toNat + (known user.email (met rt fate url s)).toNat ≤
        (known user.email (sent rt request fate url s).2).toNat := known_delivered hend hu _
    have hrest := ih (sent rt request fate url s).2
    have hle := Bool.toNat_le (known user.email (sent rt request fate url s).2)
    have hcount : ∀ rest : List (PyStr × Store), ((url,met rt fate url s) :: rest).countP (adds rt request fate) =
        rest.countP (adds rt request fate) + (adds rt request fate (url,met rt fate url s)).toNat := by
      intro rest
      cases h : adds rt request fate (url,met rt fate url s) <;> simp [h]
    rw [attempts,hcount,List.flatMap_cons,deletions,List.countP_append,← deletions,← deletions]
    split
    · rw [List.countP_nil]
      omega
    · omega

end Registration
end Runs

section Reading
variable {rt : Runtime} {request : Request} {fate : PyStr → Attempt} {readsFirst : Bool} {endpoint : Endpoint}
  (he : request.endpoint = some endpoint) (hw : endpoint.writes = false)
include he hw

theorem delivered_reading (x : PyStr × Store) : (delivered rt request fate x).2 = x.2 := by
  unfold delivered Delivery.sendOver
  split
  · have hplain : ∀ plain : Turn, plain.call = ((fate x.1).delivery.turn request).call → (plain.run rt x.2).2 = x.2 := by
      intro plain hcall
      exact run_reading (rfl : plain.run rt x.2 = (_,_)) (hcall ▸ he) hw
    rcases Pool.run_cases ((fate x.1).delivery.turn request) x.2 with
      ⟨plain,hcall,hrun⟩ | ⟨e,-,-,hsame | ⟨plain,hcall,hstore⟩⟩
    · rw [← hrun]
      exact hplain plain hcall
    · exact hsame
    · rw [← hstore]
      exact hplain plain hcall
  · rfl

/-- Repeating a request that only reads leaves what the other requests of the tried URLs do. -/
theorem tryUrls_reading (urls : List PyStr) (data : Option Json) (s : Store) :
    ∃ tried, tried <+: urls ∧
      (tryUrls rt request fate readsFirst urls data s).2 = Pool.after rt s (tried.flatMap (fun url => (fate url).others)) := by
  induction urls generalizing data s with
  | nil => exact ⟨[],List.prefix_refl _,rfl⟩
  | cons url urls ih =>
    obtain ⟨data',hcons⟩ := tryUrls_cons url urls data s
    rw [hcons,sent,delivered_reading he hw]
    cases accepted (delivered rt request fate (url,met rt fate url s)).1 with
    | some value =>
      refine ⟨[url],by simp,?_⟩
      simp [met]
    | none =>
      obtain ⟨tried,htried,hstore⟩ := ih data' (met rt fate url s)
      refine ⟨url :: tried,List.cons_prefix_cons.mpr ⟨rfl,htried⟩,hstore.trans ?_⟩
      rw [List.flatMap_cons,Pool.after_append,met]

end Reading

theorem testRoot_store (rt : Runtime) (fate : PyStr → Attempt) (s : Store) :
    ∃ tried, tried <+: urls "/" ∧ (testRoot rt fate s).2 = Pool.after rt s (tried.flatMap (fun url => (fate url).others)) :=
  tryUrls_reading (show (bare .get "/" ⟨[],[]⟩).endpoint = some .root from rfl) rfl _ _ _

theorem testLogin_store (rt : Runtime) (email password : PyStr) (fate : PyStr → Attempt) (s : Store) :
    ∃ tried, tried <+: urls "/login" ∧
      (testLogin rt email password fate s).2 = Pool.after rt s (tried.flatMap (fun url => (fate url).others)) :=
  tryUrls_reading (show (postJson "/login" ⟨[],[]⟩ _).endpoint = some .loginUser from rfl) rfl _ _ _

/-- Whatever gets lost and whatever else is asked of the server between the attempts: an attempt
leaves the users alone or adds one account with the email, which nobody has by then, and the
attempts add it at most once, and once more for every deletion asked for in between. A report
of success is about the last attempt, and shows the id of an account in the table with the
email. An account may have been added without the page knowing, before a report of success or
of failure, but only by an attempt whose answer got lost or whose connection could not be
given back. -/
theorem tester_registers_once (rt : Runtime) (name password : PyStr) (n : Fin 10000) (fate : PyStr → Attempt) (s : Store) :
    (∀ x ∈ attempts rt (registerRequest name password n) fate (urls "/register") s,
      (delivered rt (registerRequest name password n) fate x).2 = x.2 ∨
      ∃ user row, Registered rt (registerRequest name password n) x.2
        (delivered rt (registerRequest name password n) fate x).2 user row) ∧
    (attempts rt (registerRequest name password n) fate (urls "/register") s).countP
        (adds rt (registerRequest name password n) fate) ≤
      1 + deletions ((urls "/register").flatMap (fun url => (fate url).others)) ∧
    (∀ url, (testRegister rt name password n fate s).1.successUrl = some url →
      ∃ earlier t i row user, attempts rt (registerRequest name password n) fate (urls "/register") s = earlier ++ [(url,t)] ∧
        (testRegister rt name password n fate s).1.responseData = json (registered rt i) ∧
        (testRegister rt name password n fate s).2.users.findById i = some row ∧
        Registered rt (registerRequest name password n) t (testRegister rt name password n fate s).2 user row ∧
        ∀ x ∈ earlier, adds rt (registerRequest name password n) fate x = true →
          Unseen rt (registerRequest name password n) fate x) ∧
    ((testRegister rt name password n fate s).1.successUrl = none →
      ∀ x ∈ attempts rt (registerRequest name password n) fate (urls "/register") s,
        adds rt (registerRequest name password n) fate x = true → Unseen rt (registerRequest name password n) fate x) := by
  have hend : (registerRequest name password n).endpoint = some .registerUser := rfl
  refine ⟨fun x _ => (delivered_effect hend rt fate x).imp id And.left,?_,fun url hurl => ?_,
    fun hnone x hx => tryUrls_failure hend hnone hx⟩
  · cases hu : (registerRequest name password n).registers rt with
    | some user => exact (Nat.le_add_right _ _).trans (attempts_count hend hu (urls "/register") s)
    | none =>
      refine (Nat.le_of_eq (List.countP_eq_zero.mpr fun x hx hadds => ?_)).trans (Nat.zero_le _)
      obtain ⟨user,row,h⟩ := (adds_iff hend x).mp hadds
      rw [h.registers] at hu
      cases hu
  · obtain ⟨earlier,t,turn,hattempts,hrequest,hrun,hs,hdata,hearlier⟩ := tryUrls_success hend hurl
    obtain ⟨hresp,user,row,h,hid⟩ := registration_success (hrequest ▸ hend) hs
    rw [hrun,hrequest] at h
    rw [hresp] at hdata
    refine ⟨earlier,t,turn.call.newId,row,user,hattempts,hdata,(Users.findById_eq_some_iff _ _ _).mpr ⟨?_,hid⟩,h,hearlier⟩
    exact h.rows ▸ List.mem_append_right _ List.mem_cons_self

/-- Nobody else asks for anything, and no answer gets back. -/
def lostAnswers (_ : PyStr) : Attempt := ⟨[],⟨[],Reference.saltOf "secret1",1,1,fun _ => none,true,false⟩⟩

/-- The page reports failure, and the account is there. -/
theorem tester_registers_once_lost :
    (testRegister reference (py "user") (py "secret1") 7 lostAnswers ⟨Users.empty,[]⟩).1.successUrl = none ∧
      (testRegister reference (py "user") (py "secret1") 7 lostAnswers ⟨Users.empty,[]⟩).2.users.rows.map Row.email =
        [py "test_7@example.com"] ∧
      (attempts reference (registerRequest (py "user") (py "secret1") 7) lostAnswers (urls "/register") ⟨Users.empty,[]⟩).countP
        (adds reference (registerRequest (py "user") (py "secret1") 7) lostAnswers) ≤ 1 :=
  ⟨by decide +kernel,by decide +kernel,
    (tester_registers_once reference (py "user") (py "secret1") 7 lostAnswers ⟨Users.empty,[]⟩).2.1⟩

end Thintuit.Client.ApiTest
