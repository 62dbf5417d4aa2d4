import BuildPlan.Session.Program

/-! # Running programs

A run puts the calls of a program to a world, one after the other, and keeps the time. A call that
takes too long ends the run. Either each call has a limit of its own, or all of them share a budget.
The clock counts nanoseconds from the start of the timers, and it has an end; to compute an instant
beyond it ends the program.
-/
namespace BuildPlan

/-- How far a session has come. -/
structure Progress where
  /-- The calls made, the last one first. -/
  past : List Call
  /-- The instant, in nanoseconds. -/
  now : Nat

inductive Stop where
  | failed (error : ResolveError)
  /-- The clock was to show an instant beyond its end. -/
  | panicked

namespace Clock

/-- The first instant that the clock cannot show: it counts seconds in 63 bits. -/
def limit : Nat := UInt64.size / 2 * 1_000_000_000

/-- Timers ring at whole milliseconds. -/
def tick : Nat := 1_000_000

/-- The first tick that is not before an instant. -/
def roundUp (instant : Nat) : Nat := (instant + (tick - 1)) / tick * tick

/-- When a timer rings that is set for an instant. The timer cannot be set if the sum that is
rounded lies beyond the end of the clock. -/
def ring? (instant : Nat) : Option Nat :=
  if instant + (tick - 1) < limit then some (roundUp instant) else none

end Clock

inductive Allowance where
  | perCall (limit : Span)
  /-- All calls together have the budget, which ends at a fixed instant. -/
  | shared (budget : Span) (expiry : Nat)

namespace Allowance

/-- The allowance of a request made now. There is none when the deadline lies beyond the last
instant that the clock can show. -/
def start? (now : Nat) (deadline : Option Span) (perCall : Span) : Option Allowance :=
  match deadline with
  | none => some (.perCall perCall)
  | some budget =>
    if now + budget.toNanos < Clock.limit then some (.shared budget (now + budget.toNanos))
    else none

/-- What a call that takes too long is told to have been allowed. -/
def allowed : Allowance → Span
  | perCall limit => limit
  | shared budget _ => budget

/-- When a call that begins now must have ended. -/
def expiry (now : Nat) : Allowance → Nat
  | perCall limit => now + limit.toNanos
  | shared _ expiry => expiry

/-- When a call that begins now is given up. A limit for one call may lie beyond the end of the
clock, and no timer is needed for it. -/
def timer? (allowance : Allowance) (now : Nat) : Option Nat :=
  match allowance with
  | perCall limit =>
    if now + limit.toNanos < Clock.limit then Clock.ring? (now + limit.toNanos)
    else some (Clock.roundUp (now + limit.toNanos))
  | shared _ expiry => (Clock.ring? expiry).map (max now)

end Allowance

/-- When a call ends, and with what. -/
structure Ending (α : Type) where
  time : Nat
  outcome : Except Stop α

def Ending.hasPanicked {α : Type} (ending : Ending α) : Bool :=
  match ending.outcome with
  | .error .panicked => true
  | _ => false

/-- The end of a call that begins now. A call that is answered at once needs no timer, and is never
too late. -/
def Allowance.ending (allowance : Allowance) (now : Nat) (call : Call)
    (response : Response call.Answer) : Ending call.Answer :=
  let answer := (response.outcome.mapError call.failure).mapError Stop.failed
  if response.delay = 0 then ⟨now, answer⟩
  else
    match allowance.timer? now with
    | none => ⟨now, .error .panicked⟩
    | some time =>
      if now + response.delay ≤ time then ⟨now + response.delay, answer⟩
      else ⟨time, .error (.failed (.timeout allowance.allowed))⟩

/-- Look-ups under way: those that have begun, in order, and the names whose turn comes later. -/
structure LookupQueue where
  begun : List (Ending (List String))
  waiting : List PackageName

namespace LookupQueue

variable (world : World) (allowance : Allowance) (width : Nat) (branch : String)

/-- Begins look-ups while there is room for them. -/
def fill (begun : List (Ending (List String))) (p : Progress) :
    List PackageName → LookupQueue × Progress
  | [] => (⟨begun, []⟩, p)
  | name :: waiting =>
    if begun.length < width then
      let call := Call.aclOf name branch
      let ending := allowance.ending p.now call (world p.past call)
      fill (begun ++ [ending]) { p with past := call :: p.past } waiting
    else (⟨begun, name :: waiting⟩, p)

/-- Begins the next look-up if none is under way. -/
def start (queue : LookupQueue) (p : Progress) : LookupQueue × Progress :=
  if queue.begun.isEmpty then fill world allowance 1 branch [] p queue.waiting else (queue, p)

/-- Waits until a time. Meanwhile others begin, up to `width` at a time. -/
def await (time : Nat) (queue : LookupQueue) (p : Progress) : LookupQueue × Progress :=
  if p.now < time then
    let (queue, p) := fill world allowance width branch queue.begun p queue.waiting
    (queue, { p with now := time })
  else (queue, p)

end LookupQueue

namespace Program

variable {α : Type} (world : World) (allowance : Allowance)

/-- Takes the answers of look-ups in the order of the names. An answer that comes early waits for
its turn. -/
def runLookups (width : Nat) (branch : String) :
    Nat → LookupQueue → Progress → Except Stop (List (List String)) × Progress
  | 0, _, p => (.ok [], p)
  | turns + 1, queue, p =>
    let (queue, p) := queue.start world allowance branch p
    match queue.begun with
    | [] => (.ok [], p)
    | first :: _ =>
      let (queue, p) := queue.await world allowance width branch first.time p
      if queue.begun.any Ending.hasPanicked then (.error .panicked, p)
      else
        match first.outcome with
        | .error e => (.error e, p)
        | .ok members =>
          let (rest, p) := runLookups width branch turns { queue with begun := queue.begun.tail } p
          (rest.map (members :: ·), p)

def run : Program α → Progress → Except Stop α × Progress
  | done a, p => (.ok a, p)
  | fail e, p => (.error (.failed e), p)
  | ask c next, p =>
    let ending := allowance.ending p.now c (world p.past c)
    let p := ⟨c :: p.past, ending.time⟩
    match ending.outcome with
    | .ok answer => (next answer).run p
    | .error e => (.error e, p)
  | lookups width names branch next, p =>
    match runLookups world allowance width branch names.length ⟨[], names⟩ p with
    | (.ok answers, p) => (next answers).run p
    | (.error e, p) => (.error e, p)

end Program

end BuildPlan
