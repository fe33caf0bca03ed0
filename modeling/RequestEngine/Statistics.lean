import RequestEngine.Duration
import RequestEngine.Decimal.Fixed

/-!
Contract: statistics about computed requests.

Owns:
- the notifications that surround every computation;
- totals per kind, in the order in which the kinds were first computed;
- the printed summary.

Observers only receive notifications; nothing here can affect an evaluation.

Does not own: when a notification is sent.
-/

namespace RequestEngine

/-- A notification about one computation. -/
inductive Notification where
  | started (kind inputs : String)
  | finished (kind : String) (elapsed : Duration)
deriving DecidableEq, Repr

/-- The totals of one kind. -/
structure KindStatistics where
  kind : String
  calls : Nat
  totalTime : Duration
deriving DecidableEq, Repr

/-- The totals of all kinds, in the order of their first computation. -/
abbrev Statistics := List KindStatistics

namespace Statistics

def forKind? (statistics : Statistics) (kind : String) : Option KindStatistics :=
  statistics.find? (·.kind = kind)

def start (kind : String) : Statistics → Statistics
  | [] => [⟨kind, 1, .zero⟩]
  | entry :: rest =>
      if entry.kind = kind then { entry with calls := entry.calls + 1 } :: rest
      else entry :: start kind rest

/-- Adds the time of a finished computation. A kind that never started has no
totals to add to. -/
def finish (kind : String) (elapsed : Duration) :
    Statistics → Except DurationOverflow Statistics
  | [] => .ok []
  | entry :: rest =>
      if entry.kind = kind then
        (entry.totalTime.add elapsed).map fun total => { entry with totalTime := total } :: rest
      else
        (finish kind elapsed rest).map fun updated => entry :: updated

def notify (statistics : Statistics) : Notification → Except DurationOverflow Statistics
  | .started kind _ => .ok (statistics.start kind)
  | .finished kind elapsed => statistics.finish kind elapsed

/-- The totals after a sequence of notifications. One that would pass the bound
on total times leaves the totals as they were. -/
def ofNotifications (notifications : List Notification) : Statistics :=
  notifications.foldl
    (fun statistics notification =>
      match statistics.notify notification with
      | .ok updated => updated
      | .error _ => statistics)
    []

def timeText (time : Duration) : String :=
  (Decimal.BinaryLayout.double.decode time.milliseconds.toBits.toNat).fixedText 3

/-- The summary: a heading and one line per kind, with times in the given form. -/
def summaryWith (statistics : Statistics) (time : Duration → String) : String :=
  "request statistics:\n" ++ String.join (statistics.map fun entry =>
    "  " ++ entry.kind ++ ": " ++ toString entry.calls ++ " computations, " ++
      time entry.totalTime ++ "ms\n")

def summary (statistics : Statistics) : String := statistics.summaryWith timeText

/-- Counting a start reaches the totals of that kind. -/
theorem forKind?_start_self (statistics : Statistics) (kind : String) :
    (statistics.start kind).forKind? kind =
      some ((statistics.forKind? kind).elim ⟨kind, 1, .zero⟩ fun entry =>
        { entry with calls := entry.calls + 1 }) := by
  induction statistics with
  | nil => simp [start, forKind?]
  | cons entry rest inductionHypothesis =>
      by_cases same : entry.kind = kind
      · simp [start, forKind?, same]
      · simp only [forKind?] at inductionHypothesis
        simp [start, forKind?, same, inductionHypothesis]

end Statistics

end RequestEngine
