import Thintuit.Client.Fetch
import Thintuit.Server.Session

/-! Between a page and the server a request or its answer can get lost. -/
namespace Thintuit.Client
open Server

/-- What becomes of one request of a page: the cookies it is sent with, what the server draws
for it and the faults it meets there, whether it gets to the server and its answer back. -/
structure Delivery where
  cookies : List (PyStr × PyStr)
  salt : Bytes
  newId : Uuid
  now : Timestamp
  fault : Nat → Option PyError
  reached : Bool
  returned : Bool

namespace Delivery
variable (rt : Runtime) (d : Delivery) (request : Request) (s : Store)

def turn : Turn := ⟨⟨request,d.salt,d.newId,d.now⟩,d.fault⟩

/-- The turn of the request at the server, if it gets there. -/
def served : Option Turn := if d.reached then some (d.turn request) else none

/-- `await fetch(...)` to a server that serves its turns by `run`: no answer when it throws. -/
def sendOver (run : Turn → Store → Response × Store) : Option Response × Store :=
  if d.reached then (if d.returned then some (run (d.turn request) s).1 else none,(run (d.turn request) s).2)
  else (none,s)

def send : Option Response × Store := d.sendOver request s (Turn.run rt)

variable {rt d request s}

theorem send_store : (d.send rt request s).2 = after rt s (d.served request).toList := by
  unfold send sendOver served
  split <;> rfl

theorem sendOver_eq_some {run : Turn → Store → Response × Store} {resp : Response}
    (h : (d.sendOver request s run).1 = some resp) :
    d.reached = true ∧ d.returned = true ∧ run (d.turn request) s = (resp,(d.sendOver request s run).2) := by
  unfold sendOver at h ⊢
  split at h
  · rename_i hreached
    split at h
    · rename_i hreturned
      obtain rfl := Option.some.inj h
      exact ⟨hreached,hreturned,by rw [if_pos hreached]⟩
    · cases h
  · cases h

theorem send_eq_some {resp : Response} (h : (d.send rt request s).1 = some resp) :
    d.reached = true ∧ d.returned = true ∧ (d.turn request).run rt s = (resp,(d.send rt request s).2) := sendOver_eq_some h

end Delivery
end Thintuit.Client
