import WriteLatch.Context.Basic
import WriteLatch.Fairness

/-!
# Contexts on a timeline

Several contexts side by side on a clock that moves only while something waits.
Work that runs under a context races against its deadline and against
cancellations that were put off.  A cancellation that was put off has its turn
only while something waits: it stands in a queue until it is looked at, and
then it is carried out, or lies by until the clock has reached its instant and
stands in the queue once more.  Turns are taken in rounds, and after each round
the wait is looked at.  When the queue is empty the clock is set forward to the
next instant at which anything happens.  There the wait is looked at before the
queue: due at the same instant, the deadline comes before the work, and both
before a cancellation.

What is over at once needs no round.  After many such waits in a row, though,
one round is made all the same, so that a busy timeline does not hold up the
cancellations for ever.
-/

namespace WriteLatch

structure Timeline where
  now : Millis := 0
  tokens : Tokens := {}
  contexts : List Context := []
  /-- Cancellations whose turn comes with the next wait, with their instants. -/
  queue : List (Millis × Token) := []
  /-- Cancellations that lie by until their instants, the earliest first. -/
  due : List (Millis × Token) := []
  /-- How many more waits may be over at once. -/
  allowance : Nat := Fairness.allowance

namespace Timeline

inductive Outcome where
  | finished
  | interrupted (i : Interruption)
  deriving DecidableEq, Repr

def add (tl : Timeline) (c : Context) : Timeline :=
  { tl with contexts := tl.contexts ++ [c] }

def isCancelled (tl : Timeline) (c : Context) : Bool :=
  tl.tokens.isCancelled c.token

/-- The trace id of a new root is told apart by the number of its token. -/
def addRoot (tl : Timeline) : Timeline :=
  let (c, ts) := Context.root (toString tl.tokens.issued) tl.tokens
  { tl with tokens := ts }.add c

def addChild (tl : Timeline) (parent : Context) : Timeline :=
  let (c, ts) := parent.child tl.tokens
  { tl with tokens := ts }.add c

def cancel (tl : Timeline) (c : Context) : Timeline :=
  { tl with tokens := tl.tokens.cancel c.token }

def cancelLater (tl : Timeline) (c : Context) (delay : Millis) : Timeline :=
  { tl with queue := tl.queue ++ [(Clock.pauseEnd tl.now delay, c.token)] }

/-! ## Turns -/

def insertDue (d : Millis × Token) : List (Millis × Token) -> List (Millis × Token)
  | [] => [d]
  | e :: rest => if d.1 < e.1 then d :: e :: rest else e :: insertDue d rest

/-- The turn of a cancellation: it is carried out, or lies by. -/
def takeTurn (tl : Timeline) (d : Millis × Token) : Timeline :=
  if d.1 <= tl.now then { tl with tokens := tl.tokens.cancel d.2 }
  else { tl with due := insertDue d tl.due }

def round (tl : Timeline) : Timeline :=
  (tl.queue.take Fairness.roundSize).foldl takeTurn
    { tl with queue := tl.queue.drop Fairness.roundSize, allowance := Fairness.allowance }

/-- Sets the clock forward to an instant; what is due by then has its turn
next. -/
def jumpTo (tl : Timeline) (instant : Millis) : Timeline :=
  let now := max tl.now instant
  { tl with
    now := now
    queue := tl.queue ++ tl.due.takeWhile fun d => d.1 <= now
    due := tl.due.dropWhile fun d => d.1 <= now
    allowance := Fairness.allowance }

/-- A round, or if no turn is due a jump, past no instant at which a
cancellation is due and not past the one given. -/
def goOn (tl : Timeline) (stop : Millis) : Timeline :=
  match tl.queue, tl.due with
  | [], [] => tl.jumpTo stop
  | [], d :: _ => tl.jumpTo (min d.1 stop)
  | _ :: _, _ => tl.round

/-- A bound on the rounds and jumps of one wait: every cancellation has at most
two turns and lies by at most once. -/
def patience (tl : Timeline) : Nat :=
  3 * (tl.queue.length + tl.due.length) + 1

/-! ## Waiting -/

def spend (tl : Timeline) (n : Nat) : Timeline :=
  { tl with allowance := tl.allowance - n }

def waitUntil (stop : Millis) : Nat -> Timeline -> Timeline
  | 0, tl => tl.jumpTo stop
  | fuel + 1, tl =>
      let tl := tl.goOn stop
      if stop <= tl.now then tl.spend 1 else waitUntil stop fuel tl

/-- Lets the given time pass. No time at all passes at once. -/
def advance (tl : Timeline) (duration : Millis) : Timeline :=
  if duration = 0 && tl.allowance != 0 then tl.spend 1
  else waitUntil (Clock.pauseEnd tl.now duration) tl.patience tl

/-- How work under a context that is done at an instant stands. -/
def outcome? (tl : Timeline) (c : Context) (finish : Millis) : Option Outcome :=
  match c.interruption? tl.tokens tl.now with
  | some i => some (.interrupted i)
  | none => if finish <= tl.now then some .finished else none

/-- What an outcome takes from the allowance; a cancellation is free. -/
def Outcome.cost (workCost : Nat) : Outcome -> Nat
  | .finished => workCost
  | .interrupted .deadlineExceeded => 1
  | .interrupted .cancelled => 0

/-- Waits for work under a context that is done at an instant. -/
def waitUnder (c : Context) (finish : Millis) (workCost : Nat) :
    Nat -> Timeline -> Timeline × Outcome
  | 0, tl =>
      let tl := tl.jumpTo (c.limit finish)
      (tl, (tl.outcome? c finish).getD .finished)
  | fuel + 1, tl =>
      let tl := tl.goOn (c.limit finish)
      match tl.outcome? c finish with
      | some o => (tl.spend (o.cost workCost), o)
      | none => waitUnder c finish workCost fuel tl

/-- Runs work under a context; the work is done at once, or sleeps first.  Under
a context that is already over it does not start. -/
def run (tl : Timeline) (c : Context) (sleep : Option Millis) : Timeline × Outcome :=
  let workCost := if sleep.isSome then 1 else 0
  match c.interruption? tl.tokens tl.now with
  | some i => (tl, .interrupted i)
  | none =>
      if sleep.getD 0 = 0 && tl.allowance != 0 then (tl.spend workCost, .finished)
      else waitUnder c (Clock.pauseEnd tl.now (sleep.getD 0)) workCost tl.patience tl

theorem run_of_interruption?_eq_some {tl : Timeline} {c : Context} {i : Interruption}
    (h : c.interruption? tl.tokens tl.now = some i) (sleep : Option Millis) :
    tl.run c sleep = (tl, .interrupted i) := by
  simp [run, h]

end Timeline
end WriteLatch
