import RequestEngine.Proofs.Course

/-!
Contract: the lifetime of an evaluator.

Owns:
- the sessions that an evaluator goes through from its creation on, between calls
  and in the middle of them, with everything that has happened;
- invariants of a lifetime, from invariants of its steps;
- the moment of every event.

Calls may end in any way, also abruptly, and the evaluator goes on to be used.
Between calls everything may change except its stack and its result cache.
`permitted` limits what others do to the state of the program, be it between
calls or by the computations themselves.

Does not own: particular invariants.
-/

namespace RequestEngine

namespace Program

variable {Request : Type} [DecidableEq Request] {Value : Request → Type} {World : Type}
variable {program : Program Request Value World} {permitted : World → World → Prop}
variable {session middle after final : Session Request Value World}
variable {earlier later history past : List (Event Request Value World)}
variable {event : Event Request Value World}

/-- Computations change the state of the program only as permitted. -/
def Undisturbed (program : Program Request Value World) (permitted : World → World → Prop)
    (session : Session Request Value World) (history : List (Event Request Value World)) : Prop :=
  ∀ (earlier later : List (Event Request Value World)) (change : World → World)
    (moment : Session Request Value World), history = earlier ++ .updated change :: later →
    Steps program session earlier moment → permitted moment.world (change moment.world)

theorem Undisturbed.head (undisturbed : Undisturbed program permitted session (event :: later))
    {change : World → World} (isChange : event = .updated change) :
    permitted session.world (change session.world) :=
  undisturbed [] later change session (by rw [isChange]; rfl) .nil

theorem Undisturbed.behind (earlier later : List (Event Request Value World))
    (undisturbed : Undisturbed program permitted session (earlier ++ later))
    (steps : Steps program session earlier middle) :
    Undisturbed program permitted middle later := by
  intro before rest change moment parts reaches
  refine undisturbed _ rest change moment ?_ (steps.append reaches)
  rw [parts, List.append_assoc]

theorem Undisturbed.next (undisturbed : Undisturbed program permitted session (event :: later))
    (step : Step program session event middle) : Undisturbed program permitted middle later :=
  undisturbed.behind [event] later (.cons step .nil)

/-- A part of the history is undisturbed as well. -/
theorem Undisturbed.part (undisturbed : Undisturbed program permitted session (earlier ++ later)) :
    Undisturbed program permitted session earlier := by
  intro before rest change moment parts reaches
  refine undisturbed before (rest ++ later) change moment ?_ reaches
  rw [parts, List.append_assoc]
  rfl

/-- What may happen in a lifetime. -/
def lifelong (program : Program Request Value World) (permitted : World → World → Prop) :
    Conduct (Session Request Value World) (Event Request Value World) :=
  program.running
    (fun session => ∃ options observed, session.evaluator = .fresh options observed)
    (fun session history _ _ => Undisturbed program permitted session history)
    (fun session after =>
      after.evaluator.active = session.evaluator.active ∧
      after.evaluator.cache = session.evaluator.cache ∧ permitted session.world after.world)

/-- The sessions of an evaluator between calls and in the middle of them. -/
def Reached (program : Program Request Value World) (permitted : World → World → Prop) :
    List (Event Request Value World) → Session Request Value World → Prop :=
  Visited (program.lifelong permitted)

theorem Reached.created {options : Options} {observed : Bool}
    (isFresh : session.evaluator = .fresh options observed) :
    Reached program permitted [] session :=
  .between (.begun ⟨options, observed, isFresh⟩)

/-- The moments of a first call. -/
theorem Reached.underWay {options : Options} {observed : Bool} {α : Type}
    {computation : Computation Request Value World α}
    (isFresh : session.evaluator = .fresh options observed)
    (runs : Run program computation session history none after)
    (undisturbed : Undisturbed program permitted session history) :
    Reached program permitted history after :=
  have first : Course (program.lifelong permitted) [] session :=
    .begun ⟨options, observed, isFresh⟩
  .during first ⟨α, computation, none, rfl, runs, undisturbed⟩

/-! ### Fewer permissions -/

section Permissions

variable {allowed : World → World → Prop}

theorem Undisturbed.mono (undisturbed : Undisturbed program permitted session history)
    (allows : ∀ before after, permitted before after → allowed before after) :
    Undisturbed program allowed session history :=
  fun earlier later change moment parts reaches =>
    allows _ _ (undisturbed earlier later change moment parts reaches)

/-- What is reached where little is permitted is reached where more is. -/
theorem Reached.mono (reached : Reached program permitted past session)
    (allows : ∀ before after, permitted before after → allowed before after) :
    Reached program allowed past session := by
  refine Visited.mono reached id ?_ ?_
  · rintro _ _ _ _ ⟨α, computation, ended, hasEnded, runs, undisturbed⟩
    exact ⟨α, computation, ended, hasEnded, runs, undisturbed.mono allows⟩
  · rintro _ _ ⟨sameActive, sameCache, permits⟩
    exact ⟨sameActive, sameCache, allows _ _ permits⟩

end Permissions

/-! ### Invariants -/

/-- What a step preserves, a sequence of steps preserves. -/
theorem Steps.preserves
    (invariant : List (Event Request Value World) → Session Request Value World → Prop)
    (step : ∀ {past : List (Event Request Value World)} {event : Event Request Value World}
      {before after : Session Request Value World}, Step program before event after →
      (∀ change, event = .updated change → permitted before.world (change before.world)) →
      invariant past before → invariant (past ++ [event]) after)
    (steps : Steps program session history final)
    (undisturbed : Undisturbed program permitted session history)
    (holds : invariant past session) : invariant (past ++ history) final := by
  induction steps generalizing past with
  | nil => rwa [List.append_nil]
  | @cons session middle _ event later first _ inductionHypothesis =>
      have next := step first (fun _ => undisturbed.head) holds
      have last := inductionHypothesis (undisturbed.next first) next
      rwa [List.append_assoc] at last

/-- What holds at the beginning and is preserved by every step and by everything
that happens elsewhere holds in every session that is reached. -/
theorem Reached.preserves
    (invariant : List (Event Request Value World) → Session Request Value World → Prop)
    (reached : Reached program permitted history session)
    (created : ∀ {session : Session Request Value World}, session.evaluator.active = [] →
      session.evaluator.cache = [] → invariant [] session)
    (step : ∀ {past : List (Event Request Value World)} {event : Event Request Value World}
      {before after : Session Request Value World}, Step program before event after →
      (∀ change, event = .updated change → permitted before.world (change before.world)) →
      invariant past before → invariant (past ++ [event]) after)
    (elsewhere : ∀ {past : List (Event Request Value World)}
      {before after : Session Request Value World},
      after.evaluator.active = before.evaluator.active →
      after.evaluator.cache = before.evaluator.cache → permitted before.world after.world →
      invariant past before → invariant past after) :
    invariant history session := by
  refine Visited.preserves invariant reached ?_ ?_ ?_
  · rintro session ⟨options, observed, isFresh⟩
    exact created (by rw [isFresh]; rfl) (by rw [isFresh]; rfl)
  · rintro _ _ _ _ _ ⟨_, _, _, _, runs, undisturbed⟩
    exact runs.steps.preserves invariant step undisturbed
  · rintro _ _ _ ⟨sameActive, sameCache, permits⟩
    exact elsewhere sameActive sameCache permits

/-! ### Moments -/

private theorem moment_of_call {hasEnded : Bool}
    (before : Course (program.lifelong permitted) past session)
    (calls : (program.lifelong permitted).calls hasEnded session history after)
    (parts : history = earlier ++ event :: later) :
    ∃ moment next, Reached program permitted (past ++ earlier) moment ∧
      Step program moment event next := by
  obtain ⟨α, computation, _, _, runs, undisturbed⟩ := calls
  obtain ⟨moment, reaches, behind⟩ := runs.moment parts
  cases behind with
  | cons step _ =>
      rw [parts] at undisturbed
      exact ⟨moment, _, .during before ⟨α, computation, _, rfl, reaches, undisturbed.part⟩, step⟩

/-- An event of a lifetime that goes on with a call happens in the call or before it. -/
private theorem moment_of_past_or_call {hasEnded : Bool}
    (before : Course (program.lifelong permitted) past session)
    (calls : (program.lifelong permitted).calls hasEnded session history after)
    (moments : ∀ {rest : List (Event Request Value World)}, past = earlier ++ event :: rest →
      ∃ moment next, Reached program permitted earlier moment ∧ Step program moment event next)
    (parts : past ++ history = earlier ++ event :: later) :
    ∃ moment next, Reached program permitted earlier moment ∧ Step program moment event next := by
  rcases List.append_eq_append_iff.mp parts with ⟨beyond, rfl, inCall⟩ | ⟨rest, inPast, tail⟩
  · exact moment_of_call before calls inCall
  · cases rest with
    | nil =>
        have inCall : history = [] ++ event :: later := tail.symm
        have atOnce := moment_of_call before calls inCall
        rwa [inPast, List.append_nil, List.append_nil] at atOnce
    | cons first rest =>
        obtain ⟨rfl, _⟩ := List.cons.inj tail
        exact moments inPast

private theorem moment_of_lifetime (lifetime : Course (program.lifelong permitted) history session)
    (parts : history = earlier ++ event :: later) :
    ∃ moment next, Reached program permitted earlier moment ∧ Step program moment event next := by
  induction lifetime generalizing later with
  | begun _ => simp at parts
  | elsewhere _ _ moments => exact moments parts
  | called before calls moments => exact moment_of_past_or_call before calls moments parts

/-- Every event of a lifetime is a step from a session that is reached right before it. -/
theorem Reached.moment (reached : Reached program permitted history session)
    (parts : history = earlier ++ event :: later) :
    ∃ moment next, Reached program permitted earlier moment ∧ Step program moment event next := by
  cases reached with
  | between lifetime => exact moment_of_lifetime lifetime parts
  | during before calls =>
      exact moment_of_past_or_call before calls (moment_of_lifetime before) parts

end Program

end RequestEngine
