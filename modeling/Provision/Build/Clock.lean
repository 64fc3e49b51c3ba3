import Provision.Build.Executor

/-!
# Simulated time

Input:
* how long each call of a builder takes, and how it ends.

Algorithm:
* the oldest completion that was not taken yet is taken first;
* otherwise the calls that did not begin yet begin in the order in which they were started; a call
  that takes no time ends at once, the others wait;
* if nothing has ended then, the time is set to the earliest end.

Results:
* `Clock.runner` tells which call ends next, and the clock keeps the log of all beginnings and ends.
-/

namespace Provision

structure Behaviour where
  delay : Nat
  outcome : Outcome

inductive Event where
  | started (id : String)
  | ended (id : String)
  deriving DecidableEq, Inhabited

structure Clock where
  now : Nat
  /-- The units that wait, each with the time of its end. -/
  waiting : List (String × Nat)
  /-- The units that ended and were not taken yet, the oldest first. -/
  ended : List String
  log : List Event
  deriving Inhabited

namespace Clock

def zero : Clock := ⟨0, [], [], []⟩

def hasBegun (c : Clock) (id : String) : Bool :=
  c.ended.contains id || c.waiting.any fun e => e.1 == id

/-- Begins a call unless it began already. -/
def begin {β : Type} (behave : Call β → Behaviour) (c : Clock) (call : Call β) : Clock :=
  let id := call.unit.id
  let delay := (behave call).delay
  if c.hasBegun id then c
  else if delay = 0 then
    { c with ended := c.ended ++ [id], log := c.log ++ [.started id, .ended id] }
  else
    { c with waiting := c.waiting ++ [(id, c.now + delay)], log := c.log ++ [.started id] }

/-- The waiting unit with the earliest end, the first of several. -/
def earliest? : List (String × Nat) → Option (String × Nat)
  | [] => none
  | e :: rest =>
    match earliest? rest with
    | some other => if other.2 < e.2 then some other else some e
    | none => some e

/-- Sets the time to the earliest end, if nothing has ended. -/
def jump (c : Clock) : Clock :=
  if c.ended.isEmpty then
    match earliest? c.waiting with
    | some (id, time) =>
      { now := time
        waiting := c.waiting.filter fun e => e.1 != id
        ended := [id]
        log := c.log ++ [.ended id] }
    | none => c
  else c

/-- Goes on until a call has ended. -/
def advance {β : Type} (behave : Call β → Behaviour) (tasks : List (Task β)) (c : Clock) :
    Clock :=
  if c.ended.isEmpty then (tasks.foldl (fun c task => begin behave c task.call) c).jump else c

/-- The runner that lets simulated time pass. -/
def runner {β : Type} (behave : Call β → Behaviour) : Runner β Clock where
  next c tasks h :=
    let c := c.advance behave tasks
    let found := c.ended.head?.bind fun id => tasks.findFinIdx? fun task => task.call.unit.id == id
    let i := found.getD ⟨0, List.length_pos_iff.mpr h⟩
    (i, (behave tasks[i].call).outcome, { c with ended := c.ended.tail })

end Clock
end Provision
