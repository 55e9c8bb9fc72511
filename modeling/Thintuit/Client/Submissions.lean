import Thintuit.Client.Browsers

/-! The forms between a submission and its answer. The scripts disable the submit button while
they wait, and each of them has its own idea of when to enable it again. -/
namespace Thintuit.Client
open Server Interaction Program
open Server.Accounts (field)

/-- `registerUser` of `js/main.js`, and `loginUser` of the login pages. -/
inductive FormScript where
  | register
  | login (page : LoginPage)
  deriving DecidableEq

/-- How `await fetch(...)` and `await response.json()` end: an error on the way, or a status and
the JSON of the body, if it is JSON. No script does anything between the two. -/
inductive Outcome where
  | failed
  | answered (status : Nat) (body : Option Json)

def Outcome.of (resp : Response) : Outcome :=
  match resp.content with
  | .json data => .answered resp.status (some data)
  | .text _ | .file _ => .answered resp.status none

/-- What a message of failure says: a value of the answer, its status, a fixed text, or the text of
an error of the browser. -/
inductive Reason where
  | value (x : Json)
  | status (code : Nat)
  | fixed
  | thrown

inductive Report where
  | success
  | failure (reason : Reason)

/-- How a script ends: whether the button is enabled again, what the user is told, whether the
page is left and whether the inputs are emptied. -/
structure Ending where
  enabled : Bool
  reports : List Report
  left : Bool
  emptied : Bool

/-- Whether a property of the value can be read. -/
def readable : Json → Bool
  | .null => false
  | _ => true

/-- `value || "..."` as the text of an error. -/
def orFixed (x : Json) : Reason := if holds x then .value x else .fixed

namespace FormScript

/-- The `catch` branch of a script that enables the button on its way out. -/
def caught (reason : Reason) : Ending := ⟨true,[.failure reason],false,false⟩

/-- `response.ok`. -/
def accepted (status : Nat) : Bool := 200 ≤ status && status < 300

def settleRegister : Outcome → Ending
  | .failed | .answered _ none => caught .thrown
  | .answered status (some data) =>
    if !readable data then caught .thrown
    else if !accepted status then caught (orFixed (field "detail" data))
    else if holds (field "success" data) then ⟨true,[.success],false,true⟩
    else caught (orFixed (field "message" data))

/-- The two pages whose button is enabled in a `finally`. The message of success comes before
`data.user` is read. -/
def settleFinally : Outcome → Ending
  | .failed => caught .thrown
  | .answered status body =>
    if !accepted status then
      if status = 301 ∨ status = 302 then ⟨true,[],true,false⟩ else caught (.status status)
    else
      match body with
      | none => caught .thrown
      | some data =>
        if readable (field "user" data) then ⟨true,[.success],true,false⟩
        else ⟨true,[.success,.failure .thrown],false,false⟩

/-- No `try`: an error ends the script where it is thrown. -/
def settleLayouts : Outcome → Ending
  | .failed | .answered _ none => ⟨false,[],false,false⟩
  | .answered status (some data) =>
    if accepted status then
      if readable (field "user" data) then ⟨true,[.success],true,false⟩ else ⟨false,[.success],false,false⟩
    else if readable data then ⟨true,[.failure (.value (field "detail" data))],false,false⟩
    else ⟨false,[],false,false⟩

/-- The button is enabled in the `catch` branch only. -/
def settleJsLogin : Outcome → Ending
  | .failed => caught .thrown
  | .answered status none => caught (if accepted status then .thrown else .fixed)
  | .answered status (some data) =>
    if !accepted status then caught (orFixed (field "detail" data))
    else if !readable data then caught .thrown
    else if holds (field "success" data) then
      if readable (field "user" data) then ⟨false,[],true,false⟩ else caught .thrown
    else caught (orFixed (field "message" data))

def settle : FormScript → Outcome → Ending
  | .register => settleRegister
  | .login .publicLogin | .login .staticLogin => settleFinally
  | .login .layoutsLogin => settleLayouts
  | .login .jsLogin => settleJsLogin

def idle : FormScript → String
  | .register => "Register"
  | .login .publicLogin | .login .jsLogin => "Login"
  | .login .staticLogin | .login .layoutsLogin => "登录"

def busy : FormScript → String
  | .register => "Registering..."
  | .login .publicLogin | .login .jsLogin => "Logging in..."
  | .login .staticLogin | .login .layoutsLogin => "登录中..."

def endpoint : FormScript → Endpoint
  | .register => .registerUser
  | .login _ => .loginUser

end FormScript

/-- The inputs of a form. -/
structure Typed where
  name : PyStr
  email : PyStr
  password : PyStr

/-- A request in flight: what was sent, and the caption the script has found on the button. -/
structure Waiting where
  typed : Typed
  originalButtonText : String

structure FormPage where
  disabled : Bool
  caption : String
  typed : Typed
  waiting : List Waiting
  settled : List Outcome
  reports : List Report

inductive FormEvent where
  | type (typed : Typed)
  | submit
  | settle (i : Nat) (outcome : Outcome)

namespace FormPage
variable (script : FormScript)

def fresh : FormPage := ⟨false,script.idle,⟨[],[],[]⟩,[],[],[]⟩

/-- A form whose submit button is disabled is not submitted. -/
def submit (p : FormPage) : FormPage :=
  if p.disabled then p
  else { p with disabled := true, caption := script.busy, waiting := p.waiting ++ [⟨p.typed,p.caption⟩] }

/-- Only `js/main.js` puts back the caption it has found. -/
def restored (w : Waiting) : String :=
  match script with
  | .register => w.originalButtonText
  | .login _ => script.idle

def settle (i : Nat) (outcome : Outcome) (p : FormPage) : FormPage :=
  match p.waiting[i]? with
  | none => p
  | some w =>
    let ending := script.settle outcome
    { disabled := if ending.enabled then false else p.disabled
      caption := if ending.enabled then restored script w else p.caption
      typed := if ending.emptied then ⟨[],[],[]⟩ else p.typed
      waiting := p.waiting.eraseIdx i
      settled := p.settled ++ [outcome]
      reports := p.reports ++ ending.reports }

def step (p : FormPage) : FormEvent → FormPage
  | .type typed => { p with typed := typed }
  | .submit => p.submit script
  | .settle i outcome => p.settle script i outcome

def run (events : List FormEvent) : FormPage := events.foldl (step script) (fresh script)

/-- What holds of the button at any time. Only the last outcome can have left it disabled. -/
structure Guarded (p : FormPage) : Prop where
  earlier : ∀ o ∈ p.settled.dropLast, (script.settle o).enabled = true
  reports : p.reports = p.settled.flatMap (fun o => (script.settle o).reports)
  button : (∃ typed, p.waiting = [⟨typed,script.idle⟩] ∧ p.disabled = true ∧ p.caption = script.busy ∧
      ∀ o ∈ p.settled, (script.settle o).enabled = true) ∨
    p.waiting = [] ∧ ((p.disabled = false ∧ p.caption = script.idle ∧ ∀ o ∈ p.settled, (script.settle o).enabled = true) ∨
      p.disabled = true ∧ p.caption = script.busy ∧ ∃ o, p.settled.getLast? = some o ∧ (script.settle o).enabled = false)

variable {script}

theorem guarded_fresh : Guarded script (fresh script) where
  earlier := by simp [fresh]
  reports := rfl
  button := .inr ⟨rfl,.inl ⟨rfl,rfl,by simp [fresh]⟩⟩

theorem Guarded.submit {p : FormPage} (h : Guarded script p) : Guarded script (p.submit script) := by
  unfold FormPage.submit
  split
  · exact h
  · rename_i hdisabled
    refine ⟨h.earlier,h.reports,.inl ?_⟩
    rcases h.button with ⟨_,_,htrue,_⟩ | ⟨hwaiting,⟨_,hcaption,hall⟩ | ⟨htrue,_⟩⟩
    · exact absurd htrue hdisabled
    · exact ⟨p.typed,by rw [hwaiting,hcaption]; rfl,rfl,rfl,hall⟩
    · exact absurd htrue hdisabled

theorem Guarded.settle {p : FormPage} (h : Guarded script p) (i : Nat) (o : Outcome) : Guarded script (p.settle script i o) := by
  unfold FormPage.settle
  split
  · exact h
  · rename_i w hw
    rcases h.button with ⟨typed,hwaiting,hdisabled,hcaption,hall⟩ | ⟨hwaiting,_⟩
    · rw [hwaiting] at hw ⊢
      obtain rfl : i = 0 := by
        have := (List.getElem?_eq_some_iff.mp hw).1
        simpa using this
      obtain rfl : ⟨typed,script.idle⟩ = w := by simpa using hw
      refine ⟨by simpa using hall,by simp [h.reports],.inr ⟨rfl,?_⟩⟩
      dsimp only
      cases henabled : (script.settle o).enabled with
      | true =>
        refine .inl ⟨rfl,?_,?_⟩
        · cases script <;> rfl
        · intro x hx
          rcases List.mem_append.mp hx with hx | hx
          · exact hall x hx
          · obtain rfl := List.mem_singleton.mp hx
            exact henabled
      | false => exact .inr ⟨hdisabled,hcaption,o,by simp,henabled⟩
    · rw [hwaiting] at hw
      cases hw

theorem guarded_run (events : List FormEvent) : Guarded script (run script events) := by
  induction events using List.reverseRecOn with
  | nil => exact guarded_fresh
  | append_singleton events e ih =>
    rw [run,List.foldl_append]
    cases e with
    | type typed => exact ⟨ih.earlier,ih.reports,ih.button⟩
    | submit => exact ih.submit
    | settle i o => exact ih.settle i o

/-- Without a request in flight a disabled button stays disabled, and nothing is sent any more. -/
theorem stranded_run {p : FormPage} (hdisabled : p.disabled = true) (hwaiting : p.waiting = []) (events : List FormEvent) :
    (events.foldl (step script) p).disabled = true ∧ (events.foldl (step script) p).waiting = [] ∧
      (events.foldl (step script) p).settled = p.settled ∧ (events.foldl (step script) p).reports = p.reports := by
  induction events generalizing p with
  | nil => exact ⟨hdisabled,hwaiting,rfl,rfl⟩
  | cons e events ih =>
    cases e with
    | type typed => exact ih hdisabled hwaiting
    | submit =>
      have hsame : p.submit script = p := if_pos hdisabled
      rw [List.foldl_cons,step,hsame]
      exact ih hdisabled hwaiting
    | settle i o =>
      have hsame : p.settle script i o = p := by
        rw [FormPage.settle,hwaiting]
        rfl
      rw [List.foldl_cons,step,hsame]
      exact ih hdisabled hwaiting

theorem mem_settled {events : List FormEvent} {o : Outcome} (h : o ∈ (run script events).settled) :
    ∃ i, FormEvent.settle i o ∈ events := by
  induction events using List.reverseRecOn with
  | nil => cases h
  | append_singleton events e ih =>
    have hearlier : o ∈ (run script events).settled → ∃ i, FormEvent.settle i o ∈ events ++ [e] := fun ho => by
      obtain ⟨i,hi⟩ := ih ho
      exact ⟨i,List.mem_append_left _ hi⟩
    rw [run,List.foldl_append] at h
    change o ∈ (step script (run script events) e).settled at h
    cases e with
    | type typed => exact hearlier h
    | submit =>
      rw [step,FormPage.submit] at h
      split at h <;> exact hearlier h
    | settle i x =>
      rw [step,FormPage.settle] at h
      split at h
      · exact hearlier h
      · rcases List.mem_append.mp h with h | h
        · exact hearlier h
        · obtain rfl := List.mem_singleton.mp h
          exact ⟨i,by simp⟩

end FormPage

/-! The answers of the server to the two forms. -/

section Answers
variable {rt : Runtime} {request : Request} {salt : Bytes}

/-- An error status and an object with a `detail`. -/
def Refusal (resp : Response) : Prop := 400 ≤ resp.status ∧ ∃ detail, resp.content = .json (.obj [(py "detail",detail)])

/-- `data.detail` of an answer. -/
def detailOf (resp : Response) : Json :=
  match resp.content with
  | .json data => field "detail" data
  | .text _ | .file _ => .null

theorem refusal_errorDetail {statusCode : Nat} (h : 400 ≤ statusCode) (detail : String) : Refusal (errorDetail statusCode detail) :=
  ⟨h,_,rfl⟩

private theorem refusal_unprocessable (body : Option Json) : Refusal (unprocessable rt body) :=
  ⟨show 400 ≤ 422 by decide,_,rfl⟩

private theorem refusal_databaseError (e : PyError) : Refusal (databaseError e) := by
  unfold databaseError
  split
  · exact refusal_errorDetail (by decide) _
  · exact refusal_errorDetail (by decide) _

theorem login_returns (hend : request.endpoint = some .loginUser) :
    (serve rt request salt).Returns (fun resp => (∃ row, resp = loggedIn rt row) ∨ Refusal resp) := by
  rw [serve_of_endpoint hend,handle]
  cases UserLogin.validate rt request.body with
  | none => exact .inr (refusal_unprocessable _)
  | some user =>
    dsimp only
    rw [respond_loginUser]
    intro r
    cases r with
    | error e => exact .inr (refusal_errorDetail (by decide) _)
    | ok _ =>
      intro r
      rcases r with e | (_ | dbUser)
      · exact .inr (refusal_errorDetail (by decide) _)
      · exact .inr (refusal_errorDetail (by decide) _)
      · dsimp only
        split
        · split
          · exact .inr (refusal_errorDetail (by decide) _)
          · exact .inr (refusal_errorDetail (by decide) _)
        · exact .inr (refusal_errorDetail (by decide) _)
        · exact .inl ⟨dbUser,rfl⟩

theorem register_returns (hend : request.endpoint = some .registerUser) :
    (serve rt request salt).Returns (fun resp => (∃ i, resp = registered rt i) ∨ Refusal resp) := by
  rw [serve_of_endpoint hend,handle]
  cases UserCreate.validate rt request.body with
  | none => exact .inr (refusal_unprocessable _)
  | some user =>
    dsimp only
    cases htext : request.rawBody with
    | error e =>
      rw [respond_registerUser_undecoded rt htext]
      exact .inr (refusal_errorDetail (by decide) _)
    | ok text =>
      by_cases hlen : user.password.length < 6
      · rw [respond_registerUser_short rt htext hlen]
        exact .inr (refusal_errorDetail (by decide) _)
      · cases hhash : hashText rt (encode user.password) salt with
        | error e =>
          rw [respond_registerUser_unhashed rt htext hlen hhash]
          exact .inr (refusal_errorDetail (by decide) _)
        | ok h =>
          rw [respond_registerUser rt request salt ⟨⟨text,htext⟩,by omega,hhash⟩]
          intro r
          cases r with
          | error e => exact .inr (refusal_errorDetail (by decide) _)
          | ok _ =>
            intro r
            rcases r with e | (_ | email)
            · exact .inr (refusal_databaseError e)
            · intro r
              cases r with
              | error e => exact .inr (refusal_databaseError e)
              | ok r => exact .inl ⟨r.1,rfl⟩
            · exact .inr (refusal_errorDetail (by decide) _)

end Answers

namespace FormScript
variable (rt : Runtime)

/-- The outcome of an accepted registration or login. -/
def Accepted : FormScript → Outcome → Prop
  | .register, o => ∃ i, o = .of (registered rt i)
  | .login _, o => ∃ row, o = .of (loggedIn rt row)

/-- An error on the way, or an answer of the server to a request of the form, whatever the
database replies to its statements and to the return of the connection. -/
def Possible (script : FormScript) (o : Outcome) : Prop :=
  o = .failed ∨ ∃ request salt es resp, Request.endpoint request = some script.endpoint ∧
    Path (Pool.serve rt request salt) es (.ret resp) ∧ o = .of resp

/-- What the message about a refusal says. Two of the login pages print the status only. -/
def refusalReason (script : FormScript) (resp : Response) : Reason :=
  match script with
  | .register | .login .jsLogin => orFixed (detailOf resp)
  | .login .publicLogin | .login .staticLogin => .status resp.status
  | .login .layoutsLogin => .value (detailOf resp)

/-- What the user is told about an outcome. Only `js/login.js` leaves the page without a word, and
only the page of `layouts/` says nothing about a request that is lost. -/
inductive Told : FormScript → Outcome → List Report → Prop
  | accepted {script o} : script ≠ .login .jsLogin → Accepted rt script o → Told script o [.success]
  | unannounced {o} : Accepted rt (.login .jsLogin) o → Told (.login .jsLogin) o []
  | refused {script resp} : Refusal resp → Told script (.of resp) [.failure (refusalReason script resp)]
  | lost {script} : script ≠ .login .layoutsLogin → Told script .failed [.failure .thrown]
  | unnoticed : Told (.login .layoutsLogin) .failed []

variable {rt} {script : FormScript} {o : Outcome}

theorem Possible.cases (h : script.Possible rt o) :
    o = .failed ∨ script.Accepted rt o ∨ ∃ resp, Refusal resp ∧ o = .of resp := by
  rcases h with rfl | ⟨request,salt,es,resp,hend,hpath,rfl⟩
  · exact .inl rfl
  · have hreal := Pool.serve_realizes rt request salt
    have hrelease : ∀ e, Refusal (Pool.releaseError request e) := by
      intro e
      rw [Pool.releaseError,hend]
      cases script <;> exact refusal_errorDetail (by decide) _
    cases script with
    | register =>
      rcases (hreal.returns (register_returns hend) (fun e => .inr (hrelease e))).path hpath with ⟨i,rfl⟩ | hrefusal
      · exact .inr (.inl ⟨i,rfl⟩)
      · exact .inr (.inr ⟨resp,hrefusal,rfl⟩)
    | login page =>
      rcases (hreal.returns (login_returns hend) (fun e => .inr (hrelease e))).path hpath with ⟨row,rfl⟩ | hrefusal
      · exact .inr (.inl ⟨row,rfl⟩)
      · exact .inr (.inr ⟨resp,hrefusal,rfl⟩)

/-- A refusal is reported and leaves every form usable. -/
theorem settle_refusal (script : FormScript) {resp : Response} (h : Refusal resp) :
    script.settle (.of resp) = caught (refusalReason script resp) := by
  obtain ⟨hstatus,detail,hcontent⟩ := h
  have hof : Outcome.of resp = .answered resp.status (some (.obj [(py "detail",detail)])) := by
    rw [Outcome.of,hcontent]
  have hdetail : detailOf resp = field "detail" (.obj [(py "detail",detail)]) := by rw [detailOf,hcontent]
  have hrefused : accepted resp.status = false := by
    simp [accepted]
    omega
  have hfinally : settleFinally (.of resp) = caught (.status resp.status) := by
    rw [hof,settleFinally,hrefused,Bool.not_false,if_pos rfl,if_neg (by omega)]
  cases script with
  | register =>
    simp only [hof,settle,settleRegister,hrefused,refusalReason,hdetail]
    rfl
  | login page =>
    cases page with
    | publicLogin | staticLogin => exact hfinally
    | layoutsLogin =>
      simp only [hof,settle,settleLayouts,hrefused,refusalReason,hdetail]
      rfl
    | jsLogin =>
      simp only [hof,settle,settleJsLogin,hrefused,refusalReason,hdetail]
      rfl

theorem settle_accepted (h : script.Accepted rt o) :
    script.settle o = ⟨script ≠ .login .jsLogin,if script = .login .jsLogin then [] else [.success],
      script ≠ .register,script = .register⟩ := by
  cases script with
  | register =>
    obtain ⟨i,rfl⟩ := h
    rfl
  | login page =>
    obtain ⟨row,rfl⟩ := h
    cases page <;> rfl

theorem Accepted.ne_failed (h : script.Accepted rt o) : o ≠ .failed := by
  rintro rfl
  cases script with
  | register =>
    obtain ⟨i,hi⟩ := h
    cases hi
  | login page =>
    obtain ⟨row,hrow⟩ := h
    cases hrow

/-- What leaves the button disabled. -/
theorem disables_iff (h : script.Possible rt o) :
    (script.settle o).enabled = false ↔
      script = .login .layoutsLogin ∧ o = .failed ∨ script = .login .jsLogin ∧ script.Accepted rt o := by
  rcases h.cases with rfl | ha | ⟨resp,hrefusal,rfl⟩
  · have hno : ¬ script.Accepted rt .failed := fun ha => ha.ne_failed rfl
    rw [or_iff_left (fun hjs => hno hjs.2),and_iff_left rfl]
    cases script with
    | register => simp [settle,settleRegister,caught]
    | login page => cases page <;> simp [settle,settleFinally,settleLayouts,settleJsLogin,caught]
  · rw [settle_accepted ha,or_iff_right (fun hlayouts => ha.ne_failed hlayouts.2),and_iff_left ha]
    simp
  · have hreason := settle_refusal script hrefusal
    rw [hreason]
    refine iff_of_false (by simp [caught]) ?_
    rintro (⟨-,hfailed⟩ | ⟨hjs,ha⟩)
    · unfold Outcome.of at hfailed
      split at hfailed <;> cases hfailed
    · have henabled := congrArg Ending.enabled (hreason.symm.trans (settle_accepted ha))
      simp [caught,hjs] at henabled

theorem settle_failed (script : FormScript) :
    (script.settle .failed).reports = if script = .login .layoutsLogin then [] else [.failure .thrown] := by
  cases script with
  | register => rfl
  | login page => cases page <;> rfl

theorem told_of_possible (h : script.Possible rt o) : Told rt script o (script.settle o).reports := by
  rcases h.cases with rfl | ha | ⟨resp,hrefusal,rfl⟩
  · rw [settle_failed]
    split
    · rename_i hlayouts
      rw [hlayouts]
      exact .unnoticed
    · rename_i hlayouts
      exact .lost hlayouts
  · rw [settle_accepted ha]
    by_cases hjs : script = .login .jsLogin
    · subst hjs
      exact .unannounced ha
    · rw [if_neg hjs]
      exact .accepted hjs ha
  · rw [settle_refusal script hrefusal]
    exact .refused hrefusal

/-- What is reported as a success. -/
theorem success_iff (h : script.Possible rt o) :
    .success ∈ (script.settle o).reports ↔ script ≠ .login .jsLogin ∧ script.Accepted rt o := by
  rcases h.cases with rfl | ha | ⟨resp,hrefusal,rfl⟩
  · refine iff_of_false ?_ (fun hacc => hacc.2.ne_failed rfl)
    rw [settle_failed]
    split <;> simp
  · rw [settle_accepted ha,and_iff_left ha]
    by_cases hjs : script = .login .jsLogin
    · simp [hjs]
    · simp [hjs]
  · have hreason := settle_refusal script hrefusal
    refine iff_of_false (by simp [hreason,caught]) ?_
    rintro ⟨hjs,ha⟩
    have hreports := congrArg Ending.reports (hreason.symm.trans (settle_accepted ha))
    simp [caught,hjs] at hreports

end FormScript

/-- Whatever is typed, submitted, lost or answered by the server, and in whatever order: a form has
at most one request in flight. Its button is disabled while one is, and after that only on the page of
`layouts/` when the last request failed on its way, where it stays disabled and silent, and by
`js/login.js` when the login was accepted. The user is told of every outcome in turn: a success exactly
for what the server accepted, a failure for every refusal, and nothing where the page of `layouts/` is
stranded. -/
theorem forms_one_request {rt : Runtime} {script : FormScript} {events : List FormEvent}
    (hpossible : ∀ i o, .settle i o ∈ events → script.Possible rt o) :
    (FormPage.run script events).waiting.length ≤ 1 ∧
    ((FormPage.run script events).disabled = true ↔ (FormPage.run script events).waiting ≠ [] ∨
      ∃ o, (FormPage.run script events).settled.getLast? = some o ∧
        (script = .login .layoutsLogin ∧ o = .failed ∨ script = .login .jsLogin ∧ script.Accepted rt o)) ∧
    (FormPage.run script events).caption =
      (if (FormPage.run script events).disabled then script.busy else script.idle) ∧
    (∃ messages, List.Forall₂ (FormScript.Told rt script) (FormPage.run script events).settled messages ∧
      (FormPage.run script events).reports = messages.flatten) ∧
    (.success ∈ (FormPage.run script events).reports ↔
      script ≠ .login .jsLogin ∧ ∃ o ∈ (FormPage.run script events).settled, script.Accepted rt o) ∧
    ((FormPage.run script events).disabled = true → (FormPage.run script events).waiting = [] → ∀ more,
      (FormPage.run script (events ++ more)).disabled = true ∧ (FormPage.run script (events ++ more)).waiting = [] ∧
        (FormPage.run script (events ++ more)).settled = (FormPage.run script events).settled ∧
        (FormPage.run script (events ++ more)).reports = (FormPage.run script events).reports) := by
  have hguard : FormPage.Guarded script (FormPage.run script events) := FormPage.guarded_run events
  have hsettled : ∀ o ∈ (FormPage.run script events).settled, script.Possible rt o := by
    intro o ho
    obtain ⟨i,hi⟩ := FormPage.mem_settled ho
    exact hpossible i o hi
  have hlast : ∀ {o}, (FormPage.run script events).settled.getLast? = some o → script.Possible rt o :=
    fun ho => hsettled _ (List.mem_of_getLast? ho)
  refine ⟨?_,?_,?_,⟨_,?_,hguard.reports⟩,?_,?_⟩
  · rcases hguard.button with ⟨typed,hwaiting,-⟩ | ⟨hwaiting,-⟩ <;> simp [hwaiting]
  · rcases hguard.button with ⟨typed,hwaiting,hdisabled,-⟩ | ⟨hwaiting,⟨hdisabled,-,hall⟩ | ⟨hdisabled,-,o,ho,hoff⟩⟩
    · exact iff_of_true hdisabled (.inl (by simp [hwaiting]))
    · refine iff_of_false (by simp [hdisabled]) ?_
      rintro (hno | ⟨o,ho,hoff⟩)
      · exact hno hwaiting
      · have hon := hall o (List.mem_of_getLast? ho)
        rw [(FormScript.disables_iff (hlast ho)).mpr hoff] at hon
        cases hon
    · exact iff_of_true hdisabled (.inr ⟨o,ho,(FormScript.disables_iff (hlast ho)).mp hoff⟩)
  · rcases hguard.button with ⟨typed,-,hdisabled,hcaption,-⟩ | ⟨-,⟨hdisabled,hcaption,-⟩ | ⟨hdisabled,hcaption,-⟩⟩ <;>
      simp [hdisabled,hcaption]
  · exact List.forall₂_map_right_iff.mpr
      (List.forall₂_same.mpr (fun o ho => FormScript.told_of_possible (hsettled o ho)))
  · rw [hguard.reports,List.mem_flatMap]
    constructor
    · rintro ⟨o,ho,hsuccess⟩
      obtain ⟨hjs,ha⟩ := (FormScript.success_iff (hsettled o ho)).mp hsuccess
      exact ⟨hjs,o,ho,ha⟩
    · rintro ⟨hjs,o,ho,ha⟩
      exact ⟨o,ho,(FormScript.success_iff (hsettled o ho)).mpr ⟨hjs,ha⟩⟩
  · intro hdisabled hwaiting more
    have hrun : FormPage.run script (events ++ more) = more.foldl (FormPage.step script) (FormPage.run script events) :=
      List.foldl_append
    rw [hrun]
    exact FormPage.stranded_run hdisabled hwaiting more

/-- A second click after a request that got lost. -/
def lostLogin : List FormEvent := [.submit,.settle 0 .failed,.submit]

theorem forms_one_request_stranded :
    (FormPage.run (.login .layoutsLogin) lostLogin).disabled = true ∧
      ∀ more, (FormPage.run (.login .layoutsLogin) (lostLogin ++ more)).waiting = [] ∧
        (FormPage.run (.login .layoutsLogin) (lostLogin ++ more)).reports = [] := by
  have hpossible : ∀ i o, .settle i o ∈ lostLogin → FormScript.Possible reference (.login .layoutsLogin) o := by
    intro i o h
    simp only [lostLogin,List.mem_cons,List.not_mem_nil,reduceCtorEq,or_false,false_or,FormEvent.settle.injEq] at h
    exact .inl h.2
  obtain ⟨-,-,-,-,-,hstranded⟩ := forms_one_request hpossible
  refine ⟨rfl,fun more => ?_⟩
  obtain ⟨-,hwaiting,-,hreports⟩ := hstranded rfl rfl more
  exact ⟨hwaiting,hreports⟩

end Thintuit.Client
