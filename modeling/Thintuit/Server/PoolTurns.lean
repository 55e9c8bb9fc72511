import Thintuit.Server.PoolRuns
import Thintuit.Server.Session

/-! A request on its own, and requests one after another, with the returns of their connections. -/
namespace Thintuit.Server
open Interaction

theorem serve_writesLast (rt : Runtime) (request : Request) (salt : Bytes) :
    (serve rt request salt).WritesLast (exec rt) := by
  apply (serve_issues rt request salt).mono
  intro op next h c s
  apply (h.commits c s).imp_right
  rintro ⟨resp,hresp,-⟩
  exact ⟨resp,hresp⟩

namespace Pool
open Leasing

/-- The events of a request on its own. -/
def trace (rt : Runtime) (request : Request) (salt : Bytes) (c : Nat → Choice) (s : Store) : Log Unit :=
  (serve rt request salt).trace (leasing.exec (exec rt)) c s

/-- A run against one without the returns, which meets the choices that are left. -/
theorem serve_runsAs (rt : Runtime) (request : Request) (salt : Bytes) (c : Nat → Choice) (s : Store) :
    ∃ pick : Nat → Nat, leasing.RunsAs (exec rt) (releaseError request) s (trace rt request salt c s)
      ((serve rt request salt).run (leasing.exec (exec rt)) c s) ((Server.serve rt request salt).run (exec rt) (c ∘ pick) s) :=
  (serve_realizes rt request salt).run (serve_writesLast rt request salt) c s

theorem fault_of_raised {rt : Runtime} {request : Request} {salt : Bytes} {c : Nat → Choice} {s : Store} {e : PyError}
    (h : Raised rt () (trace rt request salt c s) e) : ∃ k, (c k).fault = some e := by
  obtain ⟨k,hk⟩ := raised_choice h
  refine ⟨k,?_⟩
  cases hfault : (c k).fault with
  | none => simp [leasing,hfault] at hk
  | some e' =>
    simp only [leasing,hfault,Option.elim_some,Except.error.injEq] at hk
    rw [hk]

/-- Every request is a transaction although no handler opens one: on success its one write went
through, and otherwise nothing has changed. The exception is a connection that cannot be given
back after the write: the request is answered with the error this raises, and the write
stays. -/
theorem serve_all_or_nothing (rt : Runtime) (request : Request) (salt : Bytes) (c : Nat → Choice) (s : Store) :
    let out := (serve rt request salt).run (leasing.exec (exec rt)) c s
    if out.1.success then ∃ endpoint, request.endpoint = some endpoint ∧ Committed rt request salt s out.2 endpoint
    else out.2 = s ∨ ∃ e endpoint, Raised rt () (trace rt request salt c s) e ∧ out.1 = releaseError request e ∧
      request.endpoint = some endpoint ∧ Committed rt request salt s out.2 endpoint := by
  intro out
  obtain ⟨pick,hout⟩ := serve_runsAs rt request salt c s
  -- the run without the returns, and what its answer says about the tables
  rcases hplain : (Server.serve rt request salt).run (exec rt) (c ∘ pick) s with ⟨resp,t⟩
  rw [hplain] at hout
  have hcommitted : resp.success = true → ∃ endpoint, request.endpoint = some endpoint ∧ Committed rt request salt s t endpoint := by
    intro hs
    obtain ⟨es,hpath,-,-⟩ := run_trace hplain
    obtain ⟨endpoint,he⟩ := endpoint_of_success hpath hs
    exact ⟨endpoint,he,run_committed hplain he hs⟩
  rcases hout with hsame | ⟨e,hraised,hfail,hstore⟩
  · change (resp,t) = out at hsame
    rw [← hsame]
    split
    · rename_i hs
      exact hcommitted hs
    · rename_i hs
      exact .inl (run_failure hplain (by simpa using hs))
  · change out.1 = releaseError request e at hfail
    rw [if_neg (by rw [hfail,releaseError_success]; decide)]
    rcases hstore with rfl | hstore
    · cases hs : resp.success with
      | false => exact .inl (run_failure hplain hs)
      | true =>
        obtain ⟨endpoint,he,hcommit⟩ := hcommitted hs
        exact .inr ⟨e,endpoint,hraised,hfail,he,hcommit⟩
    · exact .inl hstore

/-- No fault at the acquisition, the SELECT and the INSERT, and one when the connection goes back. -/
def unreset (k : Nat) : Choice := ⟨if k = 3 then some ⟨.other,"connection was closed"⟩ else none,1,1⟩

open Reference in
theorem serve_all_or_nothing_unreset :
    let out := (serve reference (registerRequest "user" "user@example.com" "secret1") (saltOf "secret1")).run
      (leasing.exec (exec reference)) unreset ⟨Users.empty,[]⟩
    out.1.success = false ∧ ∃ e, out.1 = releaseError (registerRequest "user" "user@example.com" "secret1") e ∧
      Committed reference (registerRequest "user" "user@example.com" "secret1") (saltOf "secret1") ⟨Users.empty,[]⟩ out.2
        .registerUser := by
  intro out
  have hs : out.1.success = false := by decide +kernel
  have hrows : out.2.users.rows.length = 1 := by decide +kernel
  have hcases : if out.1.success then _ else _ := serve_all_or_nothing reference
    (registerRequest "user" "user@example.com" "secret1") (saltOf "secret1") unreset ⟨Users.empty,[]⟩
  rw [if_neg (by rw [hs]; decide)] at hcases
  rcases hcases with hsame | ⟨e,endpoint,-,hfail,he,hcommit⟩
  · change out.2 = _ at hsame
    rw [hsame] at hrows
    cases hrows
  · obtain rfl : Endpoint.registerUser = endpoint := Option.some.inj he
    exact ⟨hs,e,hfail,hcommit⟩

open Reference in
/-- A name of a hundred letters and a blank. -/
def paddedRequest : Request :=
  registerRequest (String.ofList (List.replicate 100 'a' ++ [' '])) "user@example.com" "secret1"

open Reference in
/-- A success stores another name than the one given, and a failure leaves the new row behind. -/
theorem padded_name_and_unreset_connection :
    (∃ user, paddedRequest.registers reference = some user ∧
      ((serve reference paddedRequest (saltOf "secret1")).run (leasing.exec (exec reference)) (fun _ => ⟨none,1,1⟩)
        ⟨Users.empty,[]⟩).1.success = true ∧
      ((serve reference paddedRequest (saltOf "secret1")).run (leasing.exec (exec reference)) (fun _ => ⟨none,1,1⟩)
        ⟨Users.empty,[]⟩).2.users.rows.all (fun row => row.name ≠ user.name) = true) ∧
    ((serve reference (registerRequest "user" "user@example.com" "secret1") (saltOf "secret1")).run
      (leasing.exec (exec reference)) unreset ⟨Users.empty,[]⟩).1.success = false ∧
    ((serve reference (registerRequest "user" "user@example.com" "secret1") (saltOf "secret1")).run
      (leasing.exec (exec reference)) unreset ⟨Users.empty,[]⟩).2.users.rows ≠ [] :=
  ⟨⟨⟨List.replicate 100 97 ++ [32],py "user@example.com",py "secret1"⟩,by decide +kernel,by decide +kernel,by decide +kernel⟩,
    by decide +kernel,by decide +kernel⟩

/-! Requests one after another. The faults of a turn are counted over all its operations. -/

section Turns
variable (rt : Runtime)

def run (turn : Turn) (s : Store) : Response × Store :=
  (serve rt turn.call.request turn.call.salt).run (leasing.exec (exec rt)) turn.choices s

def log (turn : Turn) (s : Store) : Log Unit := trace rt turn.call.request turn.call.salt turn.choices s

def after (s : Store) (turns : List Turn) : Store := turns.foldl (fun s turn => (run rt turn s).2) s

/-- The turns of a session with the store each of them meets. -/
def met : Store → List Turn → List (Turn × Store)
  | _, [] => []
  | s, turn :: turns => (turn,s) :: met (run rt turn s).2 turns

@[simp] theorem after_nil (s : Store) : after rt s [] = s := rfl

@[simp] theorem after_cons (s : Store) (turn : Turn) (turns : List Turn) :
    after rt s (turn :: turns) = after rt (run rt turn s).2 turns := rfl

theorem after_append (s : Store) (xs ys : List Turn) : after rt s (xs ++ ys) = after rt (after rt s xs) ys :=
  List.foldl_append

theorem after_snoc (s : Store) (turns : List Turn) (turn : Turn) :
    after rt s (turns ++ [turn]) = (run rt turn (after rt s turns)).2 := after_append rt s turns [turn]

theorem met_snoc (s : Store) (turns : List Turn) (turn : Turn) :
    met rt s (turns ++ [turn]) = met rt s turns ++ [(turn,after rt s turns)] := by
  induction turns generalizing s with
  | nil => rfl
  | cons first turns ih => simp [met,ih]

variable {rt}

/-- A turn is a turn without the returns, unless one of them has raised: then it is answered with
that error, and its statements have had the effect of a turn or none yet. -/
theorem run_cases (turn : Turn) (s : Store) :
    (∃ plain : Turn, plain.call = turn.call ∧ plain.run rt s = run rt turn s) ∨
    ∃ e, Raised rt () (log rt turn s) e ∧ (run rt turn s).1 = releaseError turn.call.request e ∧
      ((run rt turn s).2 = s ∨ ∃ plain : Turn, plain.call = turn.call ∧ (plain.run rt s).2 = (run rt turn s).2) := by
  obtain ⟨pick,hruns⟩ := serve_runsAs rt turn.call.request turn.call.salt turn.choices s
  rcases hruns with hsame | ⟨e,hraised,hfail,hstore⟩
  · exact .inl ⟨⟨turn.call,turn.fault ∘ pick⟩,rfl,hsame⟩
  · exact .inr ⟨e,hraised,hfail,hstore.symm.imp id (fun h => ⟨⟨turn.call,turn.fault ∘ pick⟩,rfl,h⟩)⟩

theorem fault_of_log {turn : Turn} {s : Store} {e : PyError} (h : Raised rt () (log rt turn s) e) :
    ∃ k, turn.fault k = some e := fault_of_raised h

/-- Without a fault the returns change nothing. -/
theorem run_healthy {turn : Turn} (hfault : ∀ k, turn.fault k = none) (s : Store) : run rt turn s = turn.run rt s := by
  obtain ⟨pick,hruns⟩ := serve_runsAs rt turn.call.request turn.call.salt turn.choices s
  rcases hruns with hsame | ⟨e,hraised,-⟩
  · have hchoices : turn.choices ∘ pick = turn.choices := by
      funext k
      simp [Turn.choices,hfault]
    rw [hchoices] at hsame
    exact hsame.symm
  · obtain ⟨k,hk⟩ := fault_of_log hraised
    rw [hfault k] at hk
    cases hk

end Turns
end Pool
end Thintuit.Server
