import Mathlib.Algebra.BigOperators.Group.List.Basic
import Mathlib.Algebra.Ring.Nat
import Mathlib.Data.List.Induction
import RequestEngine.Dependencies
import RequestEngine.Statistics

/-!
Contract: what totals say about the notifications that they come from.

Owns:
- the kinds of totals, and the calls and the time of each kind;
- what one notification does to them;
- the totals of a sequence: its kinds in the order of their first start, how often
  each of them started, and the sum of its times;
- that totals are determined by this;
- that no time is lost.

The time of a kind is only the sum if no finish comes before every start of its
kind, and if no sum passes the bound on times. Such a finish is lost otherwise.

Does not own: which notifications are sent.
-/

namespace RequestEngine

namespace Notification

/-- The kind whose computation starts. -/
def startedKind? : Notification → Option String
  | .started kind _ => some kind
  | .finished _ _ => none

/-- A computation of the kind starts. -/
def starts (kind : String) (notification : Notification) : Bool :=
  notification.startedKind? = some kind

/-- The nanoseconds that are reported for a kind. -/
def time (kind : String) : Notification → Nat
  | .started _ _ => 0
  | .finished other elapsed => if other = kind then elapsed.nanoseconds else 0

@[simp]
theorem time_finished (kind other : String) (elapsed : Duration) :
    (Notification.finished kind elapsed).time other =
      if kind = other then elapsed.nanoseconds else 0 := rfl

end Notification

/-- The nanoseconds that are reported for a kind altogether. -/
def timeOf (kind : String) (notifications : List Notification) : Nat :=
  (notifications.map (·.time kind)).sum

@[simp]
theorem timeOf_append (kind : String) (earlier later : List Notification) :
    timeOf kind (earlier ++ later) = timeOf kind earlier + timeOf kind later := by
  unfold timeOf
  rw [List.map_append, List.sum_append]

theorem timeOf_cons (kind : String) (first : Notification) (rest : List Notification) :
    timeOf kind (first :: rest) = first.time kind + timeOf kind rest := by
  unfold timeOf
  rw [List.map_cons, List.sum_cons]

/-- What is reported up to a moment is not more than what is reported altogether. -/
theorem timeOf_lt_part {kind : String} {earlier later : List Notification} {bound : Nat}
    (bounded : timeOf kind (earlier ++ later) < bound) : timeOf kind earlier < bound := by
  rw [timeOf_append] at bounded
  omega

/-- Every finish comes after a start of its kind. -/
def Announced (notifications : List Notification) : Prop :=
  ∀ earlier kind elapsed later, notifications = earlier ++ .finished kind elapsed :: later →
    ∃ notification ∈ earlier, notification.startedKind? = some kind

theorem Announced.part {earlier later : List Notification}
    (announced : Announced (earlier ++ later)) : Announced earlier := by
  intro before kind elapsed behind parts
  refine announced before kind elapsed (behind ++ later) ?_
  rw [parts, List.append_assoc]
  rfl

/-- The different kinds of a sequence of starts, in the order of their first one. -/
def startedKinds (notifications : List Notification) : List String :=
  (notifications.filterMap (·.startedKind?)).foldl appendNew []

theorem startedKinds_concat (earlier : List Notification) (last : Notification) :
    startedKinds (earlier ++ [last]) =
      last.startedKind?.elim (startedKinds earlier) (appendNew (startedKinds earlier)) := by
  unfold startedKinds
  cases last <;> simp [Notification.startedKind?]

theorem mem_startedKinds {notifications : List Notification} {kind : String} :
    kind ∈ startedKinds notifications ↔
      ∃ notification ∈ notifications, notification.startedKind? = some kind := by
  induction notifications using List.reverseRecOn with
  | nil => simp [startedKinds]
  | append_singleton earlier last inductionHypothesis =>
      rw [startedKinds_concat]
      cases last with
      | started other inputs =>
          simp [Notification.startedKind?, mem_appendNew, inductionHypothesis, or_and_right,
            exists_or, eq_comm]
      | finished other elapsed =>
          simp [Notification.startedKind?, inductionHypothesis, or_and_right, exists_or]

namespace Statistics

variable {statistics updated left right : Statistics} {kind other : String} {elapsed : Duration}
variable {notification : Notification} {notifications : List Notification}

/-! ### The parts of totals -/

def kinds (statistics : Statistics) : List String := statistics.map (·.kind)

def calls (statistics : Statistics) (kind : String) : Nat :=
  (statistics.forKind? kind).elim 0 (·.calls)

/-- The total time of a kind in nanoseconds. -/
def time (statistics : Statistics) (kind : String) : Nat :=
  (statistics.forKind? kind).elim 0 (·.totalTime.nanoseconds)

theorem mem_kinds : kind ∈ statistics.kinds ↔ ∃ entry, statistics.forKind? kind = some entry := by
  rw [← Option.isSome_iff_exists]
  simp [forKind?, kinds]

theorem forKind?_cons (entry : KindStatistics) (rest : Statistics) (kind : String) :
    forKind? (entry :: rest) kind =
      if entry.kind = kind then some entry else forKind? rest kind := by
  unfold forKind?
  rw [List.find?_cons]
  by_cases same : entry.kind = kind <;> simp [same]

theorem kind_of_forKind? {entry : KindStatistics} (found : statistics.forKind? kind = some entry) :
    entry.kind = kind := by
  simpa using List.find?_some found

theorem forKind?_of_mem {entry : KindStatistics} (distinct : statistics.kinds.Nodup)
    (listed : entry ∈ statistics) : statistics.forKind? entry.kind = some entry := by
  induction statistics with
  | nil => cases listed
  | cons first rest inductionHypothesis =>
      obtain ⟨notInRest, distinctRest⟩ := List.nodup_cons.mp distinct
      rw [forKind?_cons]
      rcases List.mem_cons.mp listed with rfl | inRest
      · rw [if_pos rfl]
      · have differs : first.kind ≠ entry.kind := by
          intro same
          exact notInRest (List.mem_map.mpr ⟨entry, inRest, same.symm⟩)
        rw [if_neg differs]
        exact inductionHypothesis distinctRest inRest

/-- The entry of a kind is determined by its calls and its time. -/
theorem forKind?_eq_of_parts (sameListed : kind ∈ left.kinds ↔ kind ∈ right.kinds)
    (sameCalls : left.calls kind = right.calls kind) (sameTime : left.time kind = right.time kind) :
    left.forKind? kind = right.forKind? kind := by
  rw [mem_kinds, mem_kinds] at sameListed
  unfold calls at sameCalls
  unfold time at sameTime
  cases inLeft : left.forKind? kind with
  | none =>
      cases inRight : right.forKind? kind with
      | none => rfl
      | some entry => simp [inLeft, inRight] at sameListed
  | some entry =>
      cases inRight : right.forKind? kind with
      | none => simp [inLeft, inRight] at sameListed
      | some otherEntry =>
          rw [inLeft, inRight] at sameCalls sameTime
          have sameKind := (kind_of_forKind? inLeft).trans (kind_of_forKind? inRight).symm
          obtain ⟨_, _, ⟨nanoseconds, _⟩⟩ := entry
          obtain ⟨_, _, ⟨otherNanoseconds, _⟩⟩ := otherEntry
          obtain rfl : _ = _ := sameKind
          obtain rfl : _ = _ := sameCalls
          obtain rfl : nanoseconds = otherNanoseconds := sameTime
          rfl

/-- Totals with the same kinds in the same order, and with the same calls and the
same time for each of them, are the same. -/
theorem eq_of_parts (distinct : left.kinds.Nodup) (sameKinds : left.kinds = right.kinds)
    (sameCalls : ∀ kind, left.calls kind = right.calls kind)
    (sameTime : ∀ kind, left.time kind = right.time kind) : left = right := by
  have sameLength : left.length = right.length := by
    simpa [kinds] using congrArg List.length sameKinds
  refine List.ext_getElem sameLength fun index inLeft inRight => ?_
  have sameKind : left[index].kind = right[index].kind := by
    have sameAt := congrArg (·[index]?) sameKinds
    simpa [kinds, inLeft, inRight] using sameAt
  have isLeft := forKind?_of_mem distinct (List.getElem_mem inLeft)
  have isRight := forKind?_of_mem (sameKinds ▸ distinct) (List.getElem_mem inRight)
  have sameEntry : left.forKind? left[index].kind = right.forKind? left[index].kind :=
    forKind?_eq_of_parts (by rw [sameKinds]) (sameCalls _) (sameTime _)
  rw [isLeft, sameKind, isRight] at sameEntry
  exact Option.some.inj sameEntry

/-! ### Starts -/

theorem kinds_start (statistics : Statistics) (kind : String) :
    (statistics.start kind).kinds = appendNew statistics.kinds kind := by
  induction statistics with
  | nil => rfl
  | cons entry rest inductionHypothesis =>
      unfold start
      by_cases same : entry.kind = kind
      · simp [same, kinds, appendNew]
      · rw [if_neg same]
        unfold kinds at inductionHypothesis ⊢
        rw [List.map_cons, inductionHypothesis]
        unfold appendNew
        by_cases inRest : kind ∈ rest.map (·.kind)
        · simp [inRest]
        · simp [inRest, Ne.symm same]

theorem forKind?_start_other (statistics : Statistics) (differs : kind ≠ other) :
    (statistics.start kind).forKind? other = statistics.forKind? other := by
  induction statistics with
  | nil =>
      rw [start, forKind?_cons, if_neg differs]
  | cons entry rest inductionHypothesis =>
      unfold start
      by_cases same : entry.kind = kind
      · subst same
        rw [if_pos rfl, forKind?_cons, forKind?_cons, if_neg differs, if_neg differs]
      · rw [if_neg same, forKind?_cons, forKind?_cons, inductionHypothesis]

theorem calls_start (statistics : Statistics) (kind other : String) :
    (statistics.start kind).calls other =
      statistics.calls other + if kind = other then 1 else 0 := by
  unfold calls
  by_cases same : kind = other
  · subst same
    rw [forKind?_start_self, if_pos rfl]
    cases statistics.forKind? kind <;> rfl
  · rw [forKind?_start_other statistics same, if_neg same, Nat.add_zero]

theorem time_start (statistics : Statistics) (kind other : String) :
    (statistics.start kind).time other = statistics.time other := by
  unfold time
  by_cases same : kind = other
  · subst same
    rw [forKind?_start_self]
    cases statistics.forKind? kind <;> rfl
  · rw [forKind?_start_other statistics same]

/-! ### Finishes -/

/-- What a finish does to totals. -/
structure Finishes (statistics : Statistics) (kind : String) (elapsed : Duration)
    (updated : Statistics) : Prop where
  sameKinds : updated.kinds = statistics.kinds
  others : ∀ other, kind ≠ other → updated.forKind? other = statistics.forKind? other
  /-- The time is added to the kind, if it has ever started. -/
  own : ∀ entry, statistics.forKind? kind = some entry →
    ∃ total, entry.totalTime.add elapsed = .ok total ∧
      updated.forKind? kind = some { entry with totalTime := total }

private theorem exists_of_map_ok {α β : Type} {result : Except DurationOverflow α} {change : α → β}
    {value : β} (succeeds : result.map change = .ok value) :
    ∃ found, result = .ok found ∧ change found = value := by
  cases result with
  | error overflow => cases succeeds
  | ok found => exact ⟨found, rfl, Except.ok.inj succeeds⟩

theorem finishes_of_finish (finishes : statistics.finish kind elapsed = .ok updated) :
    Finishes statistics kind elapsed updated := by
  induction statistics generalizing updated with
  | nil =>
      cases finishes
      exact ⟨rfl, fun _ _ => rfl, fun _ found => by cases found⟩
  | cons first rest inductionHypothesis =>
      unfold finish at finishes
      split at finishes
      case isTrue same =>
        obtain ⟨total, adds, rfl⟩ := exists_of_map_ok finishes
        refine ⟨rfl, fun other differs => ?_, fun entry found => ⟨total, ?_, ?_⟩⟩
        · have firstDiffers : first.kind ≠ other := same ▸ differs
          simp only [forKind?_cons, firstDiffers, ↓reduceIte]
        · rw [forKind?_cons, if_pos same] at found
          rwa [← Option.some.inj found]
        · rw [forKind?_cons, if_pos same] at found
          rw [forKind?_cons, if_pos same, Option.some.inj found]
      case isFalse differs =>
        obtain ⟨updatedRest, finishesRest, rfl⟩ := exists_of_map_ok finishes
        obtain ⟨sameKinds, others, own⟩ := inductionHypothesis finishesRest
        refine ⟨congrArg (first.kind :: ·) sameKinds, fun other otherDiffers => ?_,
          fun entry found => ?_⟩
        · rw [forKind?_cons, forKind?_cons, others other otherDiffers]
        · rw [forKind?_cons, if_neg differs] at found
          obtain ⟨total, adds, isUpdated⟩ := own entry found
          exact ⟨total, adds, by rw [forKind?_cons, if_neg differs, isUpdated]⟩

/-- A finish is only refused when the time of its kind would pass the bound. -/
theorem exists_finish (fits : statistics.time kind + elapsed.nanoseconds < durationBound) :
    ∃ updated, statistics.finish kind elapsed = .ok updated := by
  induction statistics with
  | nil => exact ⟨[], rfl⟩
  | cons first rest inductionHypothesis =>
      unfold time at fits inductionHypothesis
      rw [forKind?_cons] at fits
      unfold finish
      by_cases same : first.kind = kind
      · rw [if_pos same] at fits ⊢
        have adds : first.totalTime.add elapsed =
            .ok ⟨first.totalTime.nanoseconds + elapsed.nanoseconds, fits⟩ := by
          have bounded : first.totalTime.nanoseconds + elapsed.nanoseconds < durationBound := fits
          simp only [Duration.add, Duration.ofNanoseconds?, bounded, ↓reduceDIte]
        exact ⟨_, by rw [adds]; rfl⟩
      · rw [if_neg same] at fits ⊢
        obtain ⟨updated, finishes⟩ := inductionHypothesis fits
        exact ⟨first :: updated, by rw [finishes]; rfl⟩

theorem Finishes.calls_eq (finishes : Finishes statistics kind elapsed updated) (other : String) :
    updated.calls other = statistics.calls other := by
  by_cases same : kind = other
  · subst same
    unfold calls
    cases found : statistics.forKind? kind with
    | some entry =>
        obtain ⟨total, _, isUpdated⟩ := finishes.own entry found
        rw [isUpdated]
        rfl
    | none =>
        have notListed : kind ∉ updated.kinds := by
          rw [finishes.sameKinds, mem_kinds, found]
          simp
        have absent : updated.forKind? kind = none := by
          cases present : updated.forKind? kind with
          | none => rfl
          | some entry => exact absurd (mem_kinds.mpr ⟨entry, present⟩) notListed
        rw [absent]
  · unfold calls
    rw [finishes.others other same]

theorem Finishes.time_eq (finishes : Finishes statistics kind elapsed updated)
    (started : kind ∈ statistics.kinds) (other : String) :
    updated.time other =
      statistics.time other + (Notification.finished kind elapsed).time other := by
  unfold time
  rw [Notification.time_finished]
  by_cases same : kind = other
  · subst same
    obtain ⟨entry, found⟩ := mem_kinds.mp started
    obtain ⟨total, adds, isUpdated⟩ := finishes.own entry found
    rw [isUpdated, found, if_pos rfl]
    exact Duration.nanoseconds_of_add adds
  · rw [finishes.others other same, if_neg same, Nat.add_zero]

/-! ### Sequences of notifications -/

/-- The totals after one more notification. -/
def noted (statistics : Statistics) (notification : Notification) : Statistics :=
  match statistics.notify notification with
  | .ok updated => updated
  | .error _ => statistics

theorem ofNotifications_concat (earlier : List Notification) (last : Notification) :
    ofNotifications (earlier ++ [last]) = (ofNotifications earlier).noted last := by
  unfold ofNotifications
  rw [List.foldl_append]
  rfl

theorem noted_of_finish (finishes : statistics.finish kind elapsed = .ok updated) :
    statistics.noted (.finished kind elapsed) = updated := by
  have notifies : statistics.notify (.finished kind elapsed) = .ok updated := finishes
  rw [noted, notifies]

theorem noted_finished (statistics : Statistics) (kind : String) (elapsed : Duration) :
    statistics.noted (.finished kind elapsed) = statistics ∨
      Finishes statistics kind elapsed (statistics.noted (.finished kind elapsed)) := by
  cases finishes : statistics.finish kind elapsed with
  | error overflow =>
      have notifies : statistics.notify (.finished kind elapsed) = .error overflow := finishes
      exact .inl (by rw [noted, notifies])
  | ok updated =>
      rw [noted_of_finish finishes]
      exact .inr (finishes_of_finish finishes)

/-- Kinds are listed in the order in which they first started. -/
theorem kinds_ofNotifications (notifications : List Notification) :
    (ofNotifications notifications).kinds = startedKinds notifications := by
  induction notifications using List.reverseRecOn with
  | nil => rfl
  | append_singleton earlier last inductionHypothesis =>
      rw [ofNotifications_concat, startedKinds_concat, ← inductionHypothesis]
      cases last with
      | started kind inputs => exact kinds_start _ kind
      | finished kind elapsed =>
          rcases noted_finished (ofNotifications earlier) kind elapsed with lost | finishes
          · rw [lost]
            rfl
          · exact finishes.sameKinds

/-- The calls of a kind are its starts, whatever becomes of the times. -/
theorem calls_ofNotifications (notifications : List Notification) (kind : String) :
    (ofNotifications notifications).calls kind = notifications.countP (·.starts kind) := by
  induction notifications using List.reverseRecOn with
  | nil => rfl
  | append_singleton earlier last inductionHypothesis =>
      rw [ofNotifications_concat, List.countP_append, ← inductionHypothesis]
      cases last with
      | started other inputs =>
          refine (calls_start _ other kind).trans ?_
          by_cases same : other = kind <;>
            simp [Notification.starts, Notification.startedKind?, same]
      | finished other elapsed =>
          rcases noted_finished (ofNotifications earlier) other elapsed with lost | finishes
          · rw [lost]
            rfl
          · exact finishes.calls_eq kind

/-- If the times stay below their bound, the next finish of an announced sequence is
added to a kind that has started. -/
theorem exists_finish_of_announced {earlier later : List Notification}
    (announced : Announced (earlier ++ .finished kind elapsed :: later))
    (bounded : timeOf kind (earlier ++ .finished kind elapsed :: later) < durationBound)
    (earlierTime : (ofNotifications earlier).time kind = timeOf kind earlier) :
    kind ∈ (ofNotifications earlier).kinds ∧
      ∃ updated, (ofNotifications earlier).finish kind elapsed = .ok updated := by
  constructor
  · rw [kinds_ofNotifications, mem_startedKinds]
    exact announced earlier kind elapsed later rfl
  · refine exists_finish ?_
    rw [timeOf_append, timeOf_cons, Notification.time_finished, if_pos rfl] at bounded
    omega

/-- As long as every finish comes after a start of its kind and the times stay
below the bound, the time of a kind is the sum of what was reported for it. -/
theorem time_ofNotifications (announced : Announced notifications)
    (bounded : ∀ kind, timeOf kind notifications < durationBound) (kind : String) :
    (ofNotifications notifications).time kind = timeOf kind notifications := by
  induction notifications using List.reverseRecOn generalizing kind with
  | nil => rfl
  | append_singleton earlier last inductionHypothesis =>
      have earlierTime :=
        inductionHypothesis announced.part fun kind => timeOf_lt_part (bounded kind)
      rw [ofNotifications_concat, timeOf_append, ← earlierTime]
      cases last with
      | started other inputs => exact time_start _ other kind
      | finished other elapsed =>
          obtain ⟨started, updated, finishes⟩ :=
            exists_finish_of_announced announced (bounded other) (earlierTime other)
          rw [noted_of_finish finishes, (finishes_of_finish finishes).time_eq started kind]
          simp [timeOf]

/-- Every time that is reported finds the totals of its kind, and is added there. -/
def NoneLost (notifications : List Notification) : Prop :=
  ∀ earlier kind elapsed later, notifications = earlier ++ .finished kind elapsed :: later →
    ∃ entry total, (ofNotifications earlier).forKind? kind = some entry ∧
      entry.totalTime.add elapsed = .ok total ∧
      (ofNotifications (earlier ++ [.finished kind elapsed])).forKind? kind =
        some { entry with totalTime := total }

/-- As long as the times stay below their bound, no time of an announced sequence is lost. -/
theorem noneLost_of_announced (announced : Announced notifications)
    (bounded : ∀ kind, timeOf kind notifications < durationBound) : NoneLost notifications := by
  intro earlier kind elapsed later parts
  subst parts
  have earlierTime :=
    time_ofNotifications announced.part (fun other => timeOf_lt_part (bounded other)) kind
  obtain ⟨started, updated, finishes⟩ :=
    exists_finish_of_announced announced (bounded kind) earlierTime
  obtain ⟨entry, found⟩ := mem_kinds.mp started
  obtain ⟨total, adds, isUpdated⟩ := (finishes_of_finish finishes).own entry found
  refine ⟨entry, total, found, adds, ?_⟩
  rwa [ofNotifications_concat, noted_of_finish finishes]

end Statistics

end RequestEngine
