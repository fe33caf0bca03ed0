import RequestEngine.Proofs.StatisticsTotals

/-!
Contract: totals of notifications that several senders interleave.

Owns:
- interleavings of any number of sequences, each of which keeps its own order;
- sequences in which the kinds start in a given order;
- that an interleaving of such sequences is one of them again;
- that all interleavings come to the same totals, and that none of them loses a time.

The totals list the kinds in the order in which they first start, and a time is
lost when its kind has not started. Both depend on the interleaving in general. They
do not if every sender has itself started whatever comes before what it sends,
because its own notifications stay in front.

Does not own: what the senders send.
-/

namespace RequestEngine

/-! ### Interleavings -/

/-- The merged sequence takes the first element of one of the sequences that are
left, until none is left. -/
inductive Interleaving {α : Type} : List (List α) → List α → Prop where
  | done {sequences : List (List α)} (exhausted : ∀ sequence ∈ sequences, sequence = []) :
      Interleaving sequences []
  | next {first : α} {rest merged : List α} {before after : List (List α)}
      (continues : Interleaving (before ++ rest :: after) merged) :
      Interleaving (before ++ (first :: rest) :: after) (first :: merged)

namespace Interleaving

variable {α : Type} {sequences : List (List α)} {merged : List α}

/-- An interleaving has the elements of all sequences, each as often as they have it. -/
theorem perm (interleaves : Interleaving sequences merged) : merged.Perm sequences.flatten := by
  induction interleaves with
  | done exhausted => rw [List.flatten_eq_nil_iff.mpr exhausted]
  | @next first rest merged before after _ inductionHypothesis =>
      rw [List.flatten_append, List.flatten_cons] at inductionHypothesis ⊢
      exact (inductionHypothesis.cons first).trans List.perm_middle.symm

/-- What an element is preceded by in its own sequence precedes it. -/
theorem origin (interleaves : Interleaving sequences merged) {earlier later : List α} {element : α}
    (parts : merged = earlier ++ element :: later) :
    ∃ sequence ∈ sequences, ∃ preceding following,
      sequence = preceding ++ element :: following ∧ preceding ⊆ earlier := by
  induction interleaves generalizing earlier with
  | done _ => exact absurd parts.symm (by simp)
  | @next first rest merged before after _ inductionHypothesis =>
      cases earlier with
      | nil =>
          obtain ⟨rfl, rfl⟩ := List.cons.inj parts
          exact ⟨first :: rest, by simp, [], rest, rfl, List.nil_subset _⟩
      | cons taken earlier =>
          obtain ⟨rfl, partsLater⟩ := List.cons.inj parts
          obtain ⟨sequence, isSequence, preceding, following, isSplit, precedes⟩ :=
            inductionHypothesis partsLater
          rcases List.mem_append.mp isSequence with isBefore | isLater
          · exact ⟨sequence, List.mem_append_left _ isBefore, preceding, following, isSplit,
              List.subset_cons_of_subset _ precedes⟩
          · rcases List.mem_cons.mp isLater with rfl | isAfter
            · refine ⟨first :: sequence, by simp, first :: preceding, following, ?_,
                List.cons_subset_cons _ precedes⟩
              rw [isSplit, List.cons_append]
            · exact ⟨sequence, List.mem_append_right _ (List.mem_cons_of_mem _ isAfter), preceding,
                following, isSplit, List.subset_cons_of_subset _ precedes⟩

/-- One sequence after the other is an interleaving. -/
theorem flatten (sequences : List (List α)) : Interleaving sequences sequences.flatten := by
  suffices behind : ∀ exhausted : List (List α), (∀ sequence ∈ exhausted, sequence = []) →
      Interleaving (exhausted ++ sequences) sequences.flatten from
    behind [] (by simp)
  induction sequences with
  | nil =>
      intro exhausted areEmpty
      rw [List.append_nil]
      exact .done areEmpty
  | cons sequence rest inductionHypothesis =>
      intro exhausted areEmpty
      rw [List.flatten_cons]
      induction sequence with
      | nil =>
          have nowEmpty : ∀ sequence ∈ exhausted ++ [[]], sequence = [] := by
            simpa [or_imp, forall_and] using areEmpty
          have goesOn := inductionHypothesis (exhausted ++ [[]]) nowEmpty
          rwa [List.append_assoc] at goesOn
      | cons first sequence goesOn => exact .next goesOn

end Interleaving

/-! ### Kinds that start in a given order -/

theorem startedKinds_subset {left right : List Notification} (included : left ⊆ right) :
    startedKinds left ⊆ startedKinds right := by
  intro kind started
  obtain ⟨notification, isSent, starts⟩ := mem_startedKinds.mp started
  exact mem_startedKinds.mpr ⟨notification, included isSent, starts⟩

/-- The first kinds of an order have started. -/
def Begun (order : List String) (count : Nat) (notifications : List Notification) : Prop :=
  order.take count ⊆ startedKinds notifications

section Begun

variable {order : List String} {count fewer : Nat} {earlier later : List Notification}

theorem begun_zero (order : List String) (notifications : List Notification) :
    Begun order 0 notifications := by
  rw [Begun, List.take_zero]
  exact List.nil_subset _

theorem Begun.mono (begun : Begun order count earlier) (included : earlier ⊆ later) :
    Begun order count later :=
  List.Subset.trans begun (startedKinds_subset included)

theorem Begun.of_le (begun : Begun order count earlier) (atMost : fewer ≤ count) :
    Begun order fewer earlier :=
  List.Subset.trans (List.take_subset_take_left order atMost) begun

theorem Begun.max {other : Nat} (begun : Begun order count earlier)
    (otherBegun : Begun order other earlier) : Begun order (max count other) earlier := by
  rcases Nat.le_total count other with atMost | atMost
  · rwa [Nat.max_eq_right atMost]
  · rwa [Nat.max_eq_left atMost]

/-- One more kind starts. -/
theorem Begun.started {kind : String} (begun : Begun order count earlier)
    (isPlace : order[count]? = some kind) (inputs : String) :
    Begun order (count + 1) (earlier ++ [.started kind inputs]) := by
  obtain ⟨isBelow, rfl⟩ := List.getElem?_eq_some_iff.mp isPlace
  rw [Begun, ← List.take_append_getElem isBelow]
  refine List.append_subset.mpr ⟨begun.mono (List.subset_append_left _ _), ?_⟩
  refine List.cons_subset.mpr ⟨mem_startedKinds.mpr ?_, List.nil_subset _⟩
  exact ⟨_, List.mem_append_right _ (List.mem_singleton_self _), rfl⟩

end Begun

/-- A notification may be sent: all kinds before its own have started or, if it is a
finish, its own kind has. -/
inductive Due (order : List String) (earlier : List Notification) : Notification → Prop where
  | started {kind inputs : String} {place : Nat} (isPlace : order[place]? = some kind)
      (begun : Begun order place earlier) : Due order earlier (.started kind inputs)
  | finished {kind : String} {elapsed : Duration} (isStarted : kind ∈ startedKinds earlier) :
      Due order earlier (.finished kind elapsed)

/-- Every notification of a sequence is sent when it may be. -/
def InOrder (order : List String) (notifications : List Notification) : Prop :=
  ∀ earlier notification later, notifications = earlier ++ notification :: later →
    Due order earlier notification

section InOrder

variable {order : List String} {earlier later notifications : List Notification}
variable {last : Notification}

theorem Due.mono (due : Due order earlier last) (included : earlier ⊆ later) :
    Due order later last := by
  cases due with
  | started isPlace begun => exact .started isPlace (begun.mono included)
  | finished isStarted => exact .finished (startedKinds_subset included isStarted)

theorem inOrder_nil (order : List String) : InOrder order [] :=
  fun earlier notification later parts => absurd parts.symm (by simp)

theorem InOrder.concat (inOrder : InOrder order earlier) (due : Due order earlier last) :
    InOrder order (earlier ++ [last]) := by
  intro before notification behind parts
  rcases List.eq_nil_or_concat behind with rfl | ⟨butLast, _, rfl⟩
  · obtain ⟨rfl, isLast⟩ := List.append_inj' parts rfl
    rwa [← List.singleton_inj.mp isLast]
  · rw [List.concat_eq_append, ← List.cons_append, ← List.append_assoc] at parts
    exact inOrder before notification butLast (List.append_inj' parts rfl).1

theorem InOrder.of_concat (inOrder : InOrder order (earlier ++ [last])) :
    InOrder order earlier ∧ Due order earlier last := by
  refine ⟨fun before notification behind parts => ?_, inOrder earlier last [] rfl⟩
  refine inOrder before notification (behind ++ [last]) ?_
  rw [parts, List.append_assoc]
  rfl

theorem InOrder.announced (inOrder : InOrder order notifications) : Announced notifications := by
  intro earlier kind elapsed later parts
  cases inOrder earlier _ later parts with
  | finished isStarted => exact mem_startedKinds.mp isStarted

/-- Once all kinds before a kind have started, it is an old one or the next one. -/
private theorem appendNew_prefix (distinct : order.Nodup) {kinds : List String} {kind : String}
    {place : Nat} (isPrefix : kinds <+: order) (isPlace : order[place]? = some kind)
    (begun : order.take place ⊆ kinds) : appendNew kinds kind <+: order := by
  unfold appendNew
  split
  case isTrue => exact isPrefix
  case isFalse isNew =>
    obtain ⟨ahead, rfl⟩ := isPrefix
    rcases Nat.lt_or_ge place kinds.length with isOld | isAhead
    · rw [List.getElem?_append_left isOld] at isPlace
      exact absurd (List.mem_of_getElem? isPlace) isNew
    · rw [List.getElem?_append_right isAhead] at isPlace
      cases ahead with
      | nil => cases isPlace
      | cons upcoming rest =>
          have upcomingNew : upcoming ∉ kinds := fun isOld =>
            (List.nodup_append.mp distinct).2.2 upcoming isOld upcoming List.mem_cons_self rfl
          cases distance : place - kinds.length with
          | zero =>
              rw [distance] at isPlace
              obtain rfl : upcoming = kind := Option.some.inj isPlace
              exact ⟨rest, by simp⟩
          | succ further =>
              refine absurd (begun ?_) upcomingNew
              rw [List.take_append, distance]
              simp

/-- The kinds that have started are the first ones of the order. -/
theorem InOrder.startedKinds_prefix (distinct : order.Nodup)
    (inOrder : InOrder order notifications) : startedKinds notifications <+: order := by
  induction notifications using List.reverseRecOn with
  | nil => exact List.nil_prefix
  | append_singleton earlier last inductionHypothesis =>
      obtain ⟨earlierInOrder, due⟩ := inOrder.of_concat
      rw [startedKinds_concat]
      cases due with
      | started isPlace begun =>
          exact appendNew_prefix distinct (inductionHypothesis earlierInOrder) isPlace begun
      | finished _ => exact inductionHypothesis earlierInOrder

/-- If every sequence keeps to the order, so does every interleaving of them. -/
theorem InOrder.interleaved {sequences : List (List Notification)}
    (inOrder : ∀ sequence ∈ sequences, InOrder order sequence)
    (interleaves : Interleaving sequences notifications) : InOrder order notifications := by
  intro earlier notification later parts
  obtain ⟨sequence, isSequence, preceding, following, isSplit, precedes⟩ := interleaves.origin parts
  exact (inOrder sequence isSequence preceding notification following isSplit).mono precedes

end InOrder

/-- Beginnings of one list without repetition that have the same members are the same. -/
theorem eq_of_prefix_of_mem_iff {α : Type} {whole left right : List α} (distinct : whole.Nodup)
    (leftPrefix : left <+: whole) (rightPrefix : right <+: whole)
    (sameMembers : ∀ member, member ∈ left ↔ member ∈ right) : left = right := by
  have samePerm : left.Perm right :=
    (List.perm_ext_iff_of_nodup (leftPrefix.sublist.nodup distinct)
      (rightPrefix.sublist.nodup distinct)).mpr sameMembers
  rw [List.prefix_iff_eq_take.mp leftPrefix, samePerm.length_eq,
    ← List.prefix_iff_eq_take.mp rightPrefix]

/-! ### Totals of interleavings -/

/-- The totals of several sequences together. -/
structure Statistics.Combines (order : List String) (sequences : List (List Notification))
    (statistics : Statistics) : Prop where
  /-- The kinds are listed in the given order, without gaps. -/
  ordered : statistics.kinds <+: order
  listed : ∀ kind, kind ∈ statistics.kinds ↔ ∃ sequence ∈ sequences, kind ∈ startedKinds sequence
  calls : ∀ kind, statistics.calls kind =
    (sequences.map fun sequence => sequence.countP (·.starts kind)).sum
  time : ∀ kind, statistics.time kind = (sequences.map (timeOf kind)).sum

section Totals

variable {order : List String} {notifications merged : List Notification}
variable {sequences : List (List Notification)}

theorem timeOf_flatten (kind : String) (sequences : List (List Notification)) :
    timeOf kind sequences.flatten = (sequences.map (timeOf kind)).sum := by
  induction sequences with
  | nil => rfl
  | cons sequence rest inductionHypothesis =>
      rw [List.flatten_cons, timeOf_append, inductionHypothesis, List.map_cons, List.sum_cons]

theorem timeOf_interleaved (interleaves : Interleaving sequences merged) (kind : String) :
    timeOf kind merged = (sequences.map (timeOf kind)).sum := by
  rw [← timeOf_flatten]
  exact (interleaves.perm.map _).sum_eq

theorem countP_interleaved (interleaves : Interleaving sequences merged) (kind : String) :
    merged.countP (·.starts kind) =
      (sequences.map fun sequence => sequence.countP (·.starts kind)).sum := by
  rw [interleaves.perm.countP_eq, List.countP_flatten]

theorem mem_startedKinds_interleaved (interleaves : Interleaving sequences merged)
    (kind : String) :
    kind ∈ startedKinds merged ↔ ∃ sequence ∈ sequences, kind ∈ startedKinds sequence := by
  simp only [mem_startedKinds, interleaves.perm.mem_iff, List.mem_flatten]
  constructor
  · rintro ⟨notification, ⟨sequence, isSequence, isSent⟩, starts⟩
    exact ⟨sequence, isSequence, notification, isSent, starts⟩
  · rintro ⟨sequence, isSequence, notification, isSent, starts⟩
    exact ⟨notification, ⟨sequence, isSequence, isSent⟩, starts⟩

namespace Statistics

variable {left right : Statistics}

/-- Only one list of totals combines several sequences. -/
theorem Combines.unique (distinct : order.Nodup) (leftCombines : Combines order sequences left)
    (rightCombines : Combines order sequences right) : left = right := by
  have sameKinds : left.kinds = right.kinds :=
    eq_of_prefix_of_mem_iff distinct leftCombines.ordered rightCombines.ordered fun kind =>
      (leftCombines.listed kind).trans (rightCombines.listed kind).symm
  refine eq_of_parts (leftCombines.ordered.sublist.nodup distinct) sameKinds ?_ ?_
  · exact fun kind => (leftCombines.calls kind).trans (rightCombines.calls kind).symm
  · exact fun kind => (leftCombines.time kind).trans (rightCombines.time kind).symm

/-- Every interleaving of sequences that keep to one order combines them. -/
theorem combines_interleaved (distinct : order.Nodup)
    (inOrder : ∀ sequence ∈ sequences, InOrder order sequence)
    (fits : ∀ kind, (sequences.map (timeOf kind)).sum < durationBound)
    (interleaves : Interleaving sequences merged) :
    Combines order sequences (ofNotifications merged) ∧ NoneLost merged := by
  have mergedInOrder := InOrder.interleaved inOrder interleaves
  have bounded : ∀ kind, timeOf kind merged < durationBound := by
    intro kind
    rw [timeOf_interleaved interleaves]
    exact fits kind
  refine ⟨⟨?_, fun kind => ?_, fun kind => ?_, fun kind => ?_⟩,
    noneLost_of_announced mergedInOrder.announced bounded⟩
  · rw [kinds_ofNotifications]
    exact mergedInOrder.startedKinds_prefix distinct
  · rw [kinds_ofNotifications]
    exact mem_startedKinds_interleaved interleaves kind
  · rw [calls_ofNotifications]
    exact countP_interleaved interleaves kind
  · rw [time_ofNotifications mergedInOrder.announced bounded]
    exact timeOf_interleaved interleaves kind

/-- Sequences that keep to one order have the same totals in every interleaving. -/
theorem exists_combines (distinct : order.Nodup)
    (inOrder : ∀ sequence ∈ sequences, InOrder order sequence)
    (fits : ∀ kind, (sequences.map (timeOf kind)).sum < durationBound) :
    ∃ statistics, Combines order sequences statistics ∧ ∀ merged, Interleaving sequences merged →
      ofNotifications merged = statistics ∧ NoneLost merged := by
  obtain ⟨combines, _⟩ := combines_interleaved distinct inOrder fits (.flatten sequences)
  refine ⟨_, combines, fun merged interleaves => ?_⟩
  obtain ⟨mergedCombines, noneLost⟩ := combines_interleaved distinct inOrder fits interleaves
  exact ⟨mergedCombines.unique distinct combines, noneLost⟩

end Statistics

end Totals

end RequestEngine
